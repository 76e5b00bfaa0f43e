import DistributedNinja.Master.BoundedWork
import DistributedNinja.Ninja.BuildOrder

namespace DistributedNinja.Master

open Lib Rpc Proto Common Ninja

variable {Edge : Type}

def EdgeCall.edge : EdgeCall Edge → Edge
  | .found edge => edge
  | .started edge => edge
  | .finished edge => edge

variable [DecidableEq Edge] {S : Setting Edge}

namespace PlanHistory

variable {failed : Prop} {h k : PlanHistory S}

/-- An edge whose outputs can be used is finished or need not run, and an edge is given out after those it
    depends on. -/
structure InOrder (order : S.plan.Order S.manifest) (h : PlanHistory S) : Prop where
  ready : ∀ edge, order.outputsReady h.plan edge → .finished edge ∈ h.log ∨ order.unneeded h.plan edge
  found : Grounded (fun before entry => ∀ edge, entry = .found edge →
    ∀ other ∈ S.manifest.prerequisites edge, .finished other ∈ before ∨ order.unneeded h.plan other) h.log

variable {order : S.plan.Order S.manifest}

theorem InOrder.relax (ordered : h.InOrder order) {plan : S.plan.State}
    (kept : ∀ edge, order.unneeded h.plan edge → order.unneeded plan edge) :
    Grounded (fun before entry => ∀ edge, entry = .found edge →
      ∀ other ∈ S.manifest.prerequisites edge, .finished other ∈ before ∨ order.unneeded plan other) h.log := by
  refine ordered.found.imp ?_
  intro before entry ground edge given other needed
  exact (ground edge given other needed).imp_right (kept other)

theorem InOrder.give (ordered : h.InOrder order) {edge : Edge} {rest : S.plan.State}
    (ready : ∀ other ∈ S.manifest.prerequisites edge, order.outputsReady h.plan other)
    (same : ∀ other, order.outputsReady rest other → order.outputsReady h.plan other)
    (kept : ∀ other, order.unneeded h.plan other → order.unneeded rest other) :
    InOrder order { h with plan := rest, log := h.log ++ [.found edge] } := by
  constructor
  · intro other usable
    rcases ordered.ready other (same other usable) with finished | unneeded
    · exact .inl (List.mem_append_left _ finished)
    · exact .inr (kept other unneeded)
  · apply (ordered.relax kept).append
    rintro edge' given other needed
    cases given
    exact (ordered.ready other (ready other needed)).imp_right (kept other)

theorem InOrder.call (ordered : h.InOrder order) (call : Call failed h k) : k.InOrder order := by
  cases call with
  | @findWork edge rest given =>
    obtain ⟨ready, same⟩ := order.ready_findWork _ _ _ given
    exact ordered.give ready same fun other => order.unneeded_findWork _ _ _ other given
  | @findRemoteWork edge rest given =>
    obtain ⟨ready, same⟩ := order.ready_findRemoteWork _ _ _ given
    exact ordered.give ready same fun other => order.unneeded_findRemoteWork _ _ _ other given
  | started edge =>
    constructor
    · intro other usable
      exact (ordered.ready other usable).imp_left (List.mem_append_left _)
    · exact ordered.found.append nofun
  | edgeFinished edge =>
    have kept := fun other => order.unneeded_edgeFinished h.plan edge other
    constructor
    · intro other usable
      rcases order.ready_edgeFinished _ _ _ usable with rfl | before | unneeded
      · exact .inl (List.mem_append_right _ List.mem_cons_self)
      · rcases ordered.ready other before with finished | unneeded
        · exact .inl (List.mem_append_left _ finished)
        · exact .inr (kept other unneeded)
      · exact .inr unneeded
    · exact (ordered.relax kept).append nofun
  | cleanNode path =>
    have kept := fun other => order.unneeded_cleanNode h.plan path other
    constructor
    · intro other usable
      exact (ordered.ready other (order.ready_cleanNode _ _ _ usable)).imp_right (kept other)
    · exact ordered.relax kept
  | complete nothing => exact ⟨ordered.ready, ordered.found⟩
  | abandon failure => exact ⟨ordered.ready, ordered.found⟩

theorem InOrder.calls (ordered : h.InOrder order) (calls : Calls failed h k) : k.InOrder order := by
  induction calls with
  | refl => exact ordered
  | tail _ call ih => exact ih.call call

end PlanHistory

open PlanHistory

namespace MainThread

variable {m n : MainThread S}

theorem addTargets_ready (order : S.plan.Order S.manifest) {scan : String → Except String Bool}
    {targets : List String} {start plan : S.plan.State} (added : addTargets scan targets start = some plan)
    (ready : ∀ edge, order.outputsReady start edge → order.unneeded start edge) :
    ∀ edge, order.outputsReady plan edge → order.unneeded plan edge := by
  induction targets generalizing start with
  | nil =>
    cases added
    exact ready
  | cons path rest ih =>
    have next : ∀ edge, order.outputsReady (S.plan.addTarget start path).2.2 edge →
        order.unneeded (S.plan.addTarget start path).2.2 edge := by
      intro edge usable
      rcases order.ready_addTarget _ _ _ usable with before | unneeded
      · exact order.unneeded_addTarget _ _ _ (ready edge before)
      · exact unneeded
    unfold addTargets at added
    split at added
    · split at added
      · exact ih added ready
      · cases added
    · exact ih added ready
    · split at added
      rename_i ok err left result
      split at added
      · rw [result] at next
        exact ih added next
      · cases added

theorem Begins.inOrder (order : S.plan.Order S.manifest) {env : Environment Edge} {plan : S.plan.State}
    (begins : Begins m n env plan) : InOrder order ⟨plan, [], 0⟩ := by
  obtain ⟨_, _, targets, _, added⟩ := begins
  constructor
  · intro edge usable
    exact .inr (addTargets_ready order added order.ready_empty edge usable)
  · intro before entry after shape
    simp at shape

/-- In every run of a build, whatever is done with an edge (the plan gives it out, its command is run, it is
    finished) is done after every edge it depends on is finished, or need not run; and a command is sent to a slave
    only for an edge of which the same is true. -/
theorem built_in_order (order : S.plan.Order S.manifest) {before after : List (MainEvent Edge)}
    {idle begun final : MainThread S} {env : Environment Edge} {plan : S.plan.State}
    (waited : run step (MainThread.new S) before = some idle) (stepped : idle.step (.taskRun env) = some begun)
    (begins : Begins idle begun env plan) (built : run step begun after = some final) :
    Grounded (fun earlier entry => ∀ other ∈ S.manifest.prerequisites entry.edge,
        .finished other ∈ earlier ∨ order.unneeded final.plan other) final.log ∧
      ∀ request ∈ final.rpcPosts, request.starts = true → ∃ edge, request = dispatchOf S edge request.connectionId ∧
        ∀ other ∈ S.manifest.prerequisites edge, .finished other ∈ final.log ∨ order.unneeded final.plan other := by
  have bounded := bounded_of_build waited stepped built
  have ordered : final.history.InOrder order :=
    have calls : Calls True _ final.history := built_calls waited stepped begins (fun _ _ _ => trivial) built
    (begins.inOrder order).calls calls
  have given : ∀ edge, Grounded (fun earlier entry => entry = .found edge →
      ∀ other ∈ S.manifest.prerequisites edge, .finished other ∈ earlier ∨ order.unneeded final.plan other)
      final.log := fun edge => ordered.found.imp fun _ _ ground => ground edge
  have known : ∀ earlier edge, (∃ later, final.log = earlier ++ later) → .found edge ∈ earlier →
      ∀ other ∈ S.manifest.prerequisites edge, .finished other ∈ earlier ∨ order.unneeded final.plan other := by
    rintro earlier edge ⟨later, shape⟩ member other needed
    obtain ⟨first, second, rfl⟩ := List.append_of_mem member
    have place : final.log = first ++ .found edge :: (second ++ later) := by
      rw [shape, List.append_assoc, List.cons_append]
    exact (given edge first _ _ place rfl other needed).imp_left (List.mem_append_left _)
  constructor
  · intro earlier entry later shape
    cases entry with
    | found edge => exact given edge earlier _ later shape rfl
    | started edge => exact known earlier edge ⟨_, shape⟩ (bounded.counted.startedAfter edge earlier _ later shape rfl)
    | finished edge => exact known earlier edge ⟨_, shape⟩ (bounded.counted.finished edge earlier _ later shape rfl)
  · intro request member starts
    obtain ⟨sent, requests, edges⟩ := bounded.sent
    have posted : request ∈ final.rpcPosts.filter RpcRequest.starts := List.mem_filter.mpr ⟨member, starts⟩
    rw [requests] at posted
    obtain ⟨⟨edge, id⟩, listed, rfl⟩ := List.mem_map.mp posted
    have found := EdgeCall.mem_found?.mp (edges.subset (List.mem_map_of_mem listed))
    exact ⟨edge, rfl, known final.log edge ⟨[], by simp⟩ found⟩

theorem objects_prerequisites_lt : ∀ edge, ∀ other ∈ objectsManifest.prerequisites edge, other < edge := by
  decide +kernel

def objectsGoal : objects.plan.Goal objects.manifest :=
  graphGoal objectsManifest objects_prerequisites_lt (fun _ => List.finRange 5) fun _ _ _ _ _ => List.mem_finRange _

theorem built_in_order_objects :
    ∃ final : MainThread objects, .finished 4 ∈ final.log ∧
      Grounded (fun earlier entry => ∀ other ∈ objects.manifest.prerequisites entry.edge,
        .finished other ∈ earlier ∨ objectsGoal.unneeded final.plan other) final.log ∧
      ∀ request ∈ final.rpcPosts, request.starts = true →
        ∃ edge, request = dispatchOf objects edge request.connectionId ∧
          ∀ other ∈ objects.manifest.prerequisites edge,
            .finished other ∈ final.log ∨ objectsGoal.unneeded final.plan other := by
  obtain ⟨idle, begun, final, waited, stepped, begins, built, last⟩ :=
    objects_begin (fun m => decide (.finished 4 ∈ m.log)) objectsExit (by decide +kernel)
  exact ⟨final, of_decide_eq_true last, built_in_order objectsGoal.toOrder waited stepped begins built⟩

end MainThread

end DistributedNinja.Master
