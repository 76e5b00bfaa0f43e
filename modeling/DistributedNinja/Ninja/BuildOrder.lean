import DistributedNinja.Ninja.Plan

namespace DistributedNinja.Ninja

variable {Edge : Type} [DecidableEq Edge]

/-- What ninja promises about the order of a build. `outputsReady` says that the outputs of an edge can be used,
    `unneeded` that the edge need not run, since the scan found it clean or a restat rule cleaned it. -/
structure Plan.Order (manifest : Manifest Edge) (plan : Plan Edge) where
  outputsReady : plan.State → Edge → Prop
  unneeded : plan.State → Edge → Prop
  ready_empty : ∀ e, outputsReady plan.empty e → unneeded plan.empty e
  ready_addTarget : ∀ s path e, outputsReady (plan.addTarget s path).2.2 e →
    outputsReady s e ∨ unneeded (plan.addTarget s path).2.2 e
  ready_findWork : ∀ s e t, plan.findWork s = some (e, t) →
    (∀ other ∈ manifest.prerequisites e, outputsReady s other) ∧ ∀ other, outputsReady t other → outputsReady s other
  ready_findRemoteWork : ∀ s e t, plan.findRemoteWork s = some (e, t) →
    (∀ other ∈ manifest.prerequisites e, outputsReady s other) ∧ ∀ other, outputsReady t other → outputsReady s other
  ready_edgeFinished : ∀ s e other, outputsReady (plan.edgeFinished s e) other →
    other = e ∨ outputsReady s other ∨ unneeded (plan.edgeFinished s e) other
  ready_cleanNode : ∀ s path other, outputsReady (plan.cleanNode s path) other → outputsReady s other
  unneeded_addTarget : ∀ s path e, unneeded s e → unneeded (plan.addTarget s path).2.2 e
  unneeded_findWork : ∀ s e t other, plan.findWork s = some (e, t) → unneeded s other → unneeded t other
  unneeded_findRemoteWork : ∀ s e t other, plan.findRemoteWork s = some (e, t) → unneeded s other → unneeded t other
  unneeded_edgeFinished : ∀ s e other, unneeded s other → unneeded (plan.edgeFinished s e) other
  unneeded_cleanNode : ∀ s path e, unneeded s e → unneeded (plan.cleanNode s path) e

/-- What ninja promises about the end of a build: an edge stays wanted until it is finished or cleaned, and when
    there is no more to do only phony edges are wanted. -/
structure Plan.Goal (manifest : Manifest Edge) (plan : Plan Edge) extends plan.Order manifest where
  wanted : plan.State → Edge → Prop
  wanted_findWork : ∀ s e t other, plan.findWork s = some (e, t) → wanted s other → wanted t other
  wanted_findRemoteWork : ∀ s e t other, plan.findRemoteWork s = some (e, t) → wanted s other → wanted t other
  wanted_edgeFinished : ∀ s e other, wanted s other → other = e ∨ wanted (plan.edgeFinished s e) other
  wanted_cleanNode : ∀ s path e, wanted s e → wanted (plan.cleanNode s path) e ∨ unneeded (plan.cleanNode s path) e
  phony_of_nothing : ∀ s e, plan.moreToDo s = false → wanted s e → manifest.isPhony e = true

section Graph

variable {count : Nat} (manifest : Manifest (Fin count))
  (ordered : ∀ edge, ∀ other ∈ manifest.prerequisites edge, other < edge) (cone : String → List (Fin count))
  (closed : ∀ path, ∀ edge ∈ cone path, ∀ other ∈ manifest.prerequisites edge, other ∈ cone path)

theorem GraphState.findWork_ready {prerequisites : Fin count → List (Fin count)} {s t : GraphState prerequisites}
    {edge : Fin count} (found : s.findWork = some (edge, t)) :
    (∀ other ∈ prerequisites edge, other ∈ s.finished) ∧ t = s.take edge := by
  obtain ⟨first, at_, same⟩ := Option.map_eq_some_iff.mp found
  cases same
  have ready : s.ready edge = true := List.find?_some at_
  refine ⟨?_, rfl⟩
  intro other needed
  simpa using List.all_eq_true.mp ready other needed

theorem GraphState.take_wanted {prerequisites : Fin count → List (Fin count)} {s : GraphState prerequisites}
    {edge other : Fin count} (wanted : other ∈ s.waiting ∨ other ∈ s.taken) :
    other ∈ (s.take edge).waiting ∨ other ∈ (s.take edge).taken := by
  rcases wanted with waits | taken
  · by_cases same : other = edge
    · exact .inr (same ▸ List.mem_cons_self)
    · exact .inl (List.mem_filter.mpr ⟨waits, by simpa using same⟩)
  · exact .inr (List.mem_cons_of_mem _ taken)

def graphGoal : (graphPlan manifest ordered cone closed).Goal manifest where
  outputsReady s edge := edge ∈ GraphState.finished s
  unneeded _ _ := False
  ready_empty _ ready := nomatch ready
  ready_addTarget _ _ _ ready := .inl ready
  ready_findWork s edge t found := by
    obtain ⟨ready, rfl⟩ := GraphState.findWork_ready found
    exact ⟨ready, fun _ finished => finished⟩
  ready_findRemoteWork s edge t found := by
    obtain ⟨ready, rfl⟩ := GraphState.findWork_ready found
    exact ⟨ready, fun _ finished => finished⟩
  ready_edgeFinished s edge other ready := by
    rcases List.mem_cons.mp ready with same | before
    · exact .inl same
    · exact .inr (.inl before)
  ready_cleanNode _ _ _ ready := ready
  unneeded_addTarget _ _ _ never := never
  unneeded_findWork _ _ _ _ _ never := never
  unneeded_findRemoteWork _ _ _ _ _ never := never
  unneeded_edgeFinished _ _ _ never := never
  unneeded_cleanNode _ _ _ never := never
  wanted s edge := edge ∈ GraphState.waiting s ∨ edge ∈ GraphState.taken s
  wanted_findWork s edge t other found wanted := by
    obtain ⟨_, rfl⟩ := GraphState.findWork_ready found
    exact GraphState.take_wanted wanted
  wanted_findRemoteWork s edge t other found wanted := by
    obtain ⟨_, rfl⟩ := GraphState.findWork_ready found
    exact GraphState.take_wanted wanted
  wanted_edgeFinished s edge other wanted := by
    by_cases same : other = edge
    · exact .inl same
    · rcases wanted with waits | taken
      · exact .inr (.inl waits)
      · exact .inr (.inr (List.mem_filter.mpr ⟨taken, by simpa using same⟩))
  wanted_cleanNode _ _ _ wanted := .inl wanted
  phony_of_nothing s edge nothing wanted := by
    simp only [graphPlan, Bool.or_eq_false_iff, Bool.not_eq_false', List.isEmpty_iff] at nothing
    rcases wanted with waits | taken
    · rw [nothing.1] at waits
      cases waits
    · rw [nothing.2] at taken
      cases taken

end Graph

end DistributedNinja.Ninja
