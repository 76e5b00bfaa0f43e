import Mathlib.Data.Finset.Basic
import Mathlib.Data.Finset.Card
import Mathlib.Order.Fin.Basic
import Mathlib.Order.WellFounded
import Mathlib.Tactic.Common

namespace DistributedNinja.Ninja

variable {Edge : Type}

/-- What the program asks ninja's graph about an edge. A node has at most one edge that produces it. -/
structure Manifest (Edge : Type) where
  ruleName : Edge → String
  isPhony : Edge → Bool
  evaluateCommand : Edge → String
  inputs : Edge → List String
  outputs : Edge → List String
  unescapedRspfile : Edge → String
  rspfileContent : Edge → String
  deps : Edge → String
  unescapedDepfile : Edge → String
  restat : Edge → Bool
  mtime : String → Int
  inEdge : String → Option Edge
  outputs_inEdge : ∀ edge, ∀ path ∈ outputs edge, inEdge path = some edge

def Manifest.prerequisites (manifest : Manifest Edge) (edge : Edge) : List Edge :=
  (manifest.inputs edge).filterMap manifest.inEdge

def Manifest.hashEdge (manifest : Manifest Edge) (hash : String → UInt32) (edge : Edge) : UInt32 :=
  let outputs := manifest.outputs edge
  let ruleAndTargets :=
    if outputs.isEmpty then manifest.ruleName edge
    else manifest.ruleName edge ++ " " ++ String.intercalate " " outputs
  hash ruleAndTargets.toLower

/-- ninja's `Plan`, which is not part of the repository: its operations and what the program relies on.
    `unreturned` are the edges it may still give out, `inProgress` those it gave out and that are not
    finished yet. -/
structure Plan (Edge : Type) [DecidableEq Edge] where
  State : Type
  empty : State
  addTarget : State → String → Bool × String × State
  moreToDo : State → Bool
  findWork : State → Option (Edge × State)
  findRemoteWork : State → Option (Edge × State)
  edgeFinished : State → Edge → State
  cleanNode : State → String → State
  unreturned : State → Finset Edge
  inProgress : State → Finset Edge
  inProgress_empty : inProgress empty = ∅
  inProgress_addTarget : ∀ s path, inProgress (addTarget s path).2.2 = inProgress s
  findWork_takes : ∀ s e t, findWork s = some (e, t) →
    e ∈ unreturned s ∧ unreturned t ⊆ (unreturned s).erase e ∧ inProgress t = insert e (inProgress s)
  findRemoteWork_takes : ∀ s e t, findRemoteWork s = some (e, t) →
    e ∈ unreturned s ∧ unreturned t ⊆ (unreturned s).erase e ∧ inProgress t = insert e (inProgress s)
  unreturned_edgeFinished : ∀ s e, unreturned (edgeFinished s e) ⊆ unreturned s
  inProgress_edgeFinished : ∀ s e, inProgress (edgeFinished s e) = (inProgress s).erase e
  unreturned_cleanNode : ∀ s path, unreturned (cleanNode s path) ⊆ unreturned s
  inProgress_cleanNode : ∀ s path, inProgress (cleanNode s path) = inProgress s
  findWork_of_moreToDo : ∀ s, moreToDo s = true → inProgress s = ∅ → (findWork s).isSome

/-- The plan together with `outputs_ready` of the edges, which the scan sets first and `EdgeFinished` later.
    Only an edge that the scan found `dirty` is given out, and only when its prerequisites are ready; finishing
    an edge also releases edges that need not run. -/
structure ReadyPlan [DecidableEq Edge] (manifest : Manifest Edge) extends Plan Edge where
  dirty : Edge → Bool
  outputsReady : State → Edge → Bool
  outputsReady_addTarget : ∀ s path, outputsReady (addTarget s path).2.2 = outputsReady s
  findWork_ready : ∀ s e t, findWork s = some (e, t) → dirty e = true ∧
    (∀ other ∈ manifest.prerequisites e, outputsReady s other = true) ∧ outputsReady t = outputsReady s
  outputsReady_edgeFinished : ∀ s e, outputsReady (edgeFinished s e) e = true
  released : ∀ s e other, outputsReady (edgeFinished s e) other = true →
    other = e ∨ outputsReady s other = true ∨ dirty other = false

/-- What the slave relies on to be answered: `wanted` are the dirty edges that were added and are not finished,
    and as long as every target could be added one of them can be given out when none is in progress. -/
structure ReadyPlan.Demand [DecidableEq Edge] {manifest : Manifest Edge} (plan : ReadyPlan manifest) where
  wanted : plan.State → Finset Edge
  intact : plan.State → Prop
  intact_empty : intact plan.empty
  intact_addTarget : ∀ s path, intact s → (plan.addTarget s path).1 = true →
    intact (plan.addTarget s path).2.2
  intact_findWork : ∀ s e t, intact s → plan.findWork s = some (e, t) → intact t
  intact_edgeFinished : ∀ s e, intact s → intact (plan.edgeFinished s e)
  wanted_addTarget : ∀ s path, wanted s ⊆ wanted (plan.addTarget s path).2.2
  wanted_of_addTarget : ∀ s path e, manifest.inEdge path = some e → plan.dirty e = true →
    plan.outputsReady s e = false → (plan.addTarget s path).1 = true → e ∈ wanted (plan.addTarget s path).2.2
  wanted_findWork : ∀ s e t, plan.findWork s = some (e, t) → wanted s ⊆ wanted t
  wanted_edgeFinished : ∀ s e, (wanted s).erase e ⊆ wanted (plan.edgeFinished s e)
  findWork_of_wanted : ∀ s, intact s → wanted s ≠ ∅ → plan.inProgress s = ∅ → (plan.findWork s).isSome
  ready_edgeFinished : ∀ s e other, plan.outputsReady s other = true →
    plan.outputsReady (plan.edgeFinished s e) other = true

def sumHash (text : String) : UInt32 :=
  text.toList.foldl (fun sum c => sum * 31 + UInt32.ofNat c.toNat) 7

section Graph

variable {count : Nat}

/-- Edges to give out, edges that were given out and edges that are finished. A prerequisite of an edge to
    give out is one of them. -/
structure GraphState (prerequisites : Fin count → List (Fin count)) where
  waiting : List (Fin count)
  taken : List (Fin count)
  finished : List (Fin count)
  closed : ∀ edge ∈ waiting, ∀ other ∈ prerequisites edge, other ∈ waiting ∨ other ∈ taken ∨ other ∈ finished

variable {prerequisites : Fin count → List (Fin count)}

namespace GraphState

def add (s : GraphState prerequisites) (cone : List (Fin count))
    (closed : ∀ edge ∈ cone, ∀ other ∈ prerequisites edge, other ∈ cone) : GraphState prerequisites where
  waiting := s.waiting ++ cone.filter fun edge =>
    decide (edge ∉ s.waiting) && decide (edge ∉ s.taken) && decide (edge ∉ s.finished)
  taken := s.taken
  finished := s.finished
  closed := by
    intro edge member other needed
    simp only [List.mem_append, List.mem_filter, Bool.and_eq_true, decide_eq_true_eq] at member ⊢
    rcases member with member | ⟨member, _⟩
    · rcases s.closed edge member other needed with waits | elsewhere
      · exact .inl (.inl waits)
      · exact .inr elsewhere
    · have added := closed edge member other needed
      by_cases waits : other ∈ s.waiting
      · exact .inl (.inl waits)
      · by_cases taken : other ∈ s.taken
        · exact .inr (.inl taken)
        · by_cases finished : other ∈ s.finished
          · exact .inr (.inr finished)
          · exact .inl (.inr ⟨added, ⟨waits, taken⟩, finished⟩)

def take (s : GraphState prerequisites) (edge : Fin count) : GraphState prerequisites where
  waiting := s.waiting.filter fun other => decide (other ≠ edge)
  taken := edge :: s.taken
  finished := s.finished
  closed := by
    intro later member other needed
    rcases s.closed later (List.mem_filter.mp member).1 other needed with waits | taken | finished
    · by_cases same : other = edge
      · exact .inr (.inl (same ▸ List.mem_cons_self))
      · exact .inl (List.mem_filter.mpr ⟨waits, by simpa using same⟩)
    · exact .inr (.inl (List.mem_cons_of_mem _ taken))
    · exact .inr (.inr finished)

def finish (s : GraphState prerequisites) (edge : Fin count) : GraphState prerequisites where
  waiting := s.waiting
  taken := s.taken.filter fun other => decide (other ≠ edge)
  finished := edge :: s.finished
  closed := by
    intro later member other needed
    rcases s.closed later member other needed with waits | taken | finished
    · exact .inl waits
    · by_cases same : other = edge
      · exact .inr (.inr (same ▸ List.mem_cons_self))
      · exact .inr (.inl (List.mem_filter.mpr ⟨taken, by simpa using same⟩))
    · exact .inr (.inr (List.mem_cons_of_mem _ finished))

def ready (s : GraphState prerequisites) (edge : Fin count) : Bool :=
  (prerequisites edge).all fun other => decide (other ∈ s.finished)

def findWork (s : GraphState prerequisites) : Option (Fin count × GraphState prerequisites) :=
  (s.waiting.find? s.ready).map fun edge => (edge, s.take edge)

variable {s t : GraphState prerequisites}

theorem findWork_takes {edge : Fin count} (found : s.findWork = some (edge, t)) :
    edge ∈ s.waiting.toFinset ∧ t.waiting.toFinset ⊆ s.waiting.toFinset.erase edge ∧
      t.taken.toFinset = insert edge s.taken.toFinset := by
  obtain ⟨first, at_, same⟩ := Option.map_eq_some_iff.mp found
  cases same
  refine ⟨List.mem_toFinset.mpr (List.mem_of_find?_eq_some at_), ?_, List.toFinset_cons⟩
  intro other member
  simp only [take, List.mem_toFinset, List.mem_filter, decide_eq_true_eq] at member
  exact Finset.mem_erase.mpr ⟨member.2, List.mem_toFinset.mpr member.1⟩

theorem findWork_isSome (ordered : ∀ edge, ∀ other ∈ prerequisites edge, other < edge)
    (waiting : s.waiting ≠ []) (idle : s.taken = []) : s.findWork.isSome := by
  obtain ⟨least, member, below⟩ := WellFounded.has_min (r := (· < ·)) wellFounded_lt
    { edge | edge ∈ s.waiting } (List.exists_mem_of_ne_nil _ waiting)
  have ready : s.ready least = true := by
    apply List.all_eq_true.mpr
    intro other needed
    rcases s.closed least member other needed with waits | taken | finished
    · exact absurd (ordered least other needed) (below other waits)
    · rw [idle] at taken
      cases taken
    · simpa using finished
  have some_ready : (s.waiting.find? s.ready).isSome :=
    List.find?_isSome.mpr ⟨least, member, ready⟩
  simp only [findWork, Option.isSome_map, some_ready]

end GraphState

variable (manifest : Manifest (Fin count))
  (ordered : ∀ edge, ∀ other ∈ manifest.prerequisites edge, other < edge) (cone : String → List (Fin count))
  (closed : ∀ path, ∀ edge ∈ cone path, ∀ other ∈ manifest.prerequisites edge, other ∈ cone path)

/-- A plan over numbered edges in which an edge waits only for edges with smaller numbers. -/
def graphPlan : Plan (Fin count) where
  State := GraphState manifest.prerequisites
  empty := ⟨[], [], [], nofun⟩
  addTarget s path := (true, "", s.add (cone path) (closed path))
  moreToDo s := !s.waiting.isEmpty || !s.taken.isEmpty
  findWork := GraphState.findWork
  findRemoteWork := GraphState.findWork
  edgeFinished := GraphState.finish
  cleanNode s _ := s
  unreturned s := s.waiting.toFinset
  inProgress s := s.taken.toFinset
  inProgress_empty := rfl
  inProgress_addTarget _ _ := rfl
  findWork_takes _ _ _ found := GraphState.findWork_takes found
  findRemoteWork_takes _ _ _ found := GraphState.findWork_takes found
  unreturned_edgeFinished _ _ := Finset.Subset.refl _
  inProgress_edgeFinished s edge := by
    ext other
    simp [GraphState.finish, and_comm]
  unreturned_cleanNode _ _ := Finset.Subset.refl _
  inProgress_cleanNode _ _ := rfl
  findWork_of_moreToDo s more idle := by
    have taken : s.taken = [] := List.toFinset_eq_empty_iff _ |>.mp idle
    apply GraphState.findWork_isSome ordered _ taken
    intro none
    simp [taken, none] at more

def graphReadyPlan : ReadyPlan manifest where
  toPlan := graphPlan manifest ordered cone closed
  dirty _ := true
  outputsReady s edge := decide (edge ∈ GraphState.finished s)
  outputsReady_addTarget _ _ := rfl
  findWork_ready s edge t found := by
    obtain ⟨first, at_, same⟩ := Option.map_eq_some_iff.mp found
    cases same
    have ready : GraphState.ready s edge = true := List.find?_some at_
    exact ⟨rfl, List.all_eq_true.mp ready, rfl⟩
  outputsReady_edgeFinished s edge := decide_eq_true List.mem_cons_self
  released s edge other ready := by
    rcases List.mem_cons.mp (of_decide_eq_true ready) with same | before
    · exact .inl same
    · exact .inr (.inl (decide_eq_true before))

def graphDemand (covers : ∀ path edge, manifest.inEdge path = some edge → edge ∈ cone path) :
    (graphReadyPlan manifest ordered cone closed).Demand where
  wanted s := (GraphState.waiting s).toFinset ∪ (GraphState.taken s).toFinset
  intact _ := True
  intact_empty := trivial
  intact_addTarget _ _ _ _ := trivial
  intact_findWork _ _ _ _ _ := trivial
  intact_edgeFinished _ _ _ := trivial
  wanted_addTarget s path := by
    intro edge member
    simp only [Finset.mem_union, List.mem_toFinset] at member ⊢
    rcases member with waits | taken
    · exact .inl (List.mem_append_left _ waits)
    · exact .inr taken
  wanted_of_addTarget s path edge produced _ unready _ := by
    have unfinished : edge ∉ GraphState.finished s := of_decide_eq_false unready
    simp only [Finset.mem_union, List.mem_toFinset]
    by_cases waits : edge ∈ GraphState.waiting s
    · exact .inl (List.mem_append_left _ waits)
    · by_cases taken : edge ∈ GraphState.taken s
      · exact .inr taken
      · left
        apply List.mem_append_right
        simp [covers path edge produced, waits, taken, unfinished]
  wanted_findWork s edge t found := by
    obtain ⟨first, _, same⟩ := Option.map_eq_some_iff.mp found
    cases same
    intro other member
    simp only [Finset.mem_union, List.mem_toFinset] at member ⊢
    rcases member with waits | taken
    · by_cases own : other = edge
      · exact .inr (own ▸ List.mem_cons_self)
      · exact .inl (List.mem_filter.mpr ⟨waits, by simpa using own⟩)
    · exact .inr (List.mem_cons_of_mem _ taken)
  wanted_edgeFinished s edge := by
    intro other member
    simp only [Finset.mem_erase, Finset.mem_union, List.mem_toFinset] at member ⊢
    rcases member.2 with waits | taken
    · exact .inl waits
    · exact .inr (List.mem_filter.mpr ⟨taken, by simpa using member.1⟩)
  findWork_of_wanted s _ some_wanted idle := by
    have taken : GraphState.taken s = [] := List.toFinset_eq_empty_iff _ |>.mp idle
    apply GraphState.findWork_isSome ordered _ taken
    intro none
    rw [none, taken] at some_wanted
    exact some_wanted rfl
  ready_edgeFinished s edge other ready :=
    decide_eq_true (List.mem_cons_of_mem _ (of_decide_eq_true ready))

end Graph

end DistributedNinja.Ninja
