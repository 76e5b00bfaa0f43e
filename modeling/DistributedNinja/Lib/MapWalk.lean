import DistributedNinja.Lib.OrderedMap
import Mathlib.Data.List.Nodup

namespace DistributedNinja.Lib

inductive WalkEvent (K : Type) where
  | visited (key : K)
  | erased (key : K)
  deriving DecidableEq

/-- Where the loop stops: at the end of the map, at an entry its own body took out, or inside the body. -/
inductive Ending where
  | finished
  | invalidated
  | aborted
  | running
  deriving DecidableEq

structure Walk (K State : Type) where
  log : List (WalkEvent K)
  ending : Ending
  state : State

variable {K V State : Type} [LinearOrder K]

namespace OrderedMap

def first (m : OrderedMap K V) : Option (K × V) := m.entries.head?

def next (m : OrderedMap K V) (key : K) : Option (K × V) :=
  m.entries.find? fun entry => decide (key < entry.1)

theorem next_of_split {m : OrderedMap K V} {before rest : List (K × V)} {key : K} {value : V}
    (split : m.entries = before ++ (key, value) :: rest) : m.next key = rest.head? := by
  have sorted := m.sorted
  rw [split] at sorted
  obtain ⟨_, later, below⟩ := List.pairwise_append.mp sorted
  have passed : ∀ entry ∈ before ++ [(key, value)], ¬ key < entry.1 := by
    intro entry member
    rcases List.mem_append.mp member with member | member
    · exact lt_asymm (below entry member (key, value) (by simp))
    · rw [List.mem_singleton.mp member]
      exact lt_irrefl key
  have shape : m.entries = (before ++ [(key, value)]) ++ rest := by simp [split]
  unfold next
  rw [shape, List.find?_append, List.find?_eq_none.mpr (by simpa using passed), Option.none_or]
  cases rest with
  | nil => rfl
  | cons entry rest =>
    have above := (List.pairwise_cons.mp later).1 entry (by simp)
    rw [List.find?_cons_of_pos (by simpa using above), List.head?_cons]

theorem find?_of_mem {m : OrderedMap K V} {key : K} {value : V} (member : (key, value) ∈ m.entries) :
    m.find? key = some value := by
  have sorted := m.sorted
  revert member sorted
  unfold find?
  induction m.entries with
  | nil => simp
  | cons head rest ih =>
    intro member sorted
    obtain ⟨above, sorted⟩ := List.pairwise_cons.mp sorted
    rcases List.mem_cons.mp member with same | member
    · simp [findEntry, ← same]
    · have different : head.1 ≠ key := ne_of_lt (above _ member)
      simp only [findEntry, if_neg different]
      exact ih member sorted

end OrderedMap

section Loop

variable (view : State → OrderedMap K V) (body : K → V → State → Option State)

/-- `for (it = begin(); it != end(); ++it)` over a map the body works on: the entry the iterator is at is
    looked at when its turn comes, and the iterator is advanced in the map as the body leaves it. -/
def walkFrom : Nat → Option (K × V) → State → Walk K State
  | _, none, s => ⟨[], .finished, s⟩
  | 0, some _, s => ⟨[], .running, s⟩
  | fuel + 1, some (key, value), s =>
    match body key value s with
    | none => ⟨[.visited key], .aborted, s⟩
    | some t =>
      let gone := (view s).keys.filter fun other => !(view t).contains other
      let log := .visited key :: gone.map .erased
      if (view t).contains key then
        let rest := walkFrom fuel ((view t).next key) t
        { rest with log := log ++ rest.log }
      else ⟨log, .invalidated, t⟩

def walk (s : State) : Walk K State := walkFrom view body (view s).entries.length (view s).first s

def visitAll : List (K × V) → State → Option State
  | [], s => some s
  | (key, value) :: rest, s =>
    (body key value s).bind fun t => if (view t).contains key then visitAll rest t else none

/-- The loop comes to its end, and its body ran once for each key except for those that were taken out of
    the map before their turn. -/
structure Sweeps (s : State) : Prop where
  ends : (walk view body s).ending = .finished
  once : ∀ key ∈ (view s).keys,
    .erased key ∈ (walk view body s).log.takeWhile (fun event => decide (event ≠ .visited key)) ∨
      (walk view body s).log.count (.visited key) = 1

/-- What a loop needs to know of its body: `good` says of an entry that its turn leaves it in the map, and
    such a turn changes neither the map nor which of the other entries are good. -/
structure Turns (inv : State → Prop) (good : K × V → State → Prop) : Prop where
  succeeds : ∀ s key value, inv s → (view s).find? key = some value →
    (good (key, value) s ↔ ∃ t, body key value s = some t ∧ (view t).contains key = true)
  stays : ∀ s t key value, inv s → (view s).find? key = some value → body key value s = some t →
    (view t).contains key = true → inv t ∧ view t = view s ∧
      ∀ entry ∈ (view s).entries, entry.1 ≠ key → (good entry t ↔ good entry s)

variable {view body} {inv : State → Prop} {good : K × V → State → Prop}

theorem erased_of_same {s t : State} (same : view t = view s) :
    ((view s).keys.filter fun other => !(view t).contains other) = [] := by
  rw [List.filter_eq_nil_iff, same]
  intro other member
  simp [OrderedMap.contains_iff.mpr (OrderedMap.mem_keys.mp member)]

theorem walkFrom_eq (turns : Turns view body inv good) {rest : List (K × V)} :
    ∀ (before : List (K × V)) {fuel : Nat} {s : State}, inv s → (view s).entries = before ++ rest →
      rest.length ≤ fuel →
      (walkFrom view body fuel rest.head? s).ending ≠ .running ∧
      (∀ u, (walkFrom view body fuel rest.head? s).ending = .finished ∧
          (walkFrom view body fuel rest.head? s).state = u ↔ visitAll view body rest s = some u) ∧
      ((walkFrom view body fuel rest.head? s).ending = .finished →
        (walkFrom view body fuel rest.head? s).log = rest.map fun entry => .visited entry.1) := by
  induction rest with
  | nil =>
    intro before fuel s holds split enough
    simp [walkFrom, visitAll]
  | cons entry rest ih =>
    intro before fuel s holds split enough
    obtain ⟨key, value⟩ := entry
    obtain ⟨fuel, rfl⟩ : ∃ n, fuel = n + 1 :=
      Nat.exists_eq_add_of_lt (Nat.lt_of_lt_of_le (Nat.succ_pos _) enough) |>.imp fun n h => by omega
    have found : (view s).find? key = some value := OrderedMap.find?_of_mem (by simp [split])
    simp only [List.head?_cons, walkFrom, visitAll]
    cases ran : body key value s with
    | none => simp
    | some t =>
      dsimp only [Option.bind_some]
      by_cases kept : (view t).contains key = true
      · obtain ⟨holds_t, same, _⟩ := turns.stays s t key value holds found ran kept
        have advanced : (view t).next key = rest.head? := by
          rw [same]
          exact OrderedMap.next_of_split split
        have split_t : (view t).entries = (before ++ [(key, value)]) ++ rest := by simp [same, split]
        obtain ⟨going, reached, logged⟩ :=
          ih (before ++ [(key, value)]) holds_t split_t (show rest.length ≤ fuel by simpa using enough)
        rw [if_pos kept, if_pos kept, advanced, erased_of_same same]
        refine ⟨going, reached, ?_⟩
        intro finished
        simp [logged finished]
      · rw [if_neg kept, if_neg kept]
        simp

theorem visitAll_isSome_iff (turns : Turns view body inv good) {rest : List (K × V)} :
    ∀ (before : List (K × V)) {s : State}, inv s → (view s).entries = before ++ rest →
      ((visitAll view body rest s).isSome ↔ ∀ entry ∈ rest, good entry s) := by
  induction rest with
  | nil =>
    intro before s holds split
    simp [visitAll]
  | cons entry rest ih =>
    intro before s holds split
    obtain ⟨key, value⟩ := entry
    have found : (view s).find? key = some value := OrderedMap.find?_of_mem (by simp [split])
    have turn := turns.succeeds s key value holds found
    have distinct : ∀ entry ∈ rest, entry ∈ (view s).entries ∧ entry.1 ≠ key := by
      intro entry member
      have sorted := (view s).sorted
      rw [split] at sorted
      have later := (List.pairwise_append.mp sorted).2.1
      exact ⟨by simp [split, member], (ne_of_lt ((List.pairwise_cons.mp later).1 entry member)).symm⟩
    rw [List.forall_mem_cons, turn]
    simp only [visitAll]
    constructor
    · intro visited
      obtain ⟨u, visited⟩ := Option.isSome_iff_exists.mp visited
      obtain ⟨t, ran, visited⟩ := Option.bind_eq_some_iff.mp visited
      split at visited
      · rename_i kept
        obtain ⟨holds_t, same, others⟩ := turns.stays s t key value holds found ran kept
        have split_t : (view t).entries = (before ++ [(key, value)]) ++ rest := by simp [same, split]
        have all := (ih _ holds_t split_t).mp (by simp [visited])
        refine ⟨⟨t, ran, kept⟩, ?_⟩
        intro entry member
        obtain ⟨present, different⟩ := distinct entry member
        exact (others entry present different).mp (all entry member)
      · cases visited
    · rintro ⟨⟨t, ran, kept⟩, all⟩
      obtain ⟨holds_t, same, others⟩ := turns.stays s t key value holds found ran kept
      have split_t : (view t).entries = (before ++ [(key, value)]) ++ rest := by simp [same, split]
      simp only [ran, Option.bind_some, if_pos kept]
      apply (ih _ holds_t split_t).mpr
      intro entry member
      obtain ⟨present, different⟩ := distinct entry member
      exact (others entry present different).mpr (all entry member)

variable {s : State}

theorem walk_ending_ne_running (turns : Turns view body inv good) (holds : inv s) :
    (walk view body s).ending ≠ .running :=
  (walkFrom_eq turns [] holds rfl le_rfl).1

theorem walk_reaches_iff (turns : Turns view body inv good) (holds : inv s) (u : State) :
    (walk view body s).ending = .finished ∧ (walk view body s).state = u ↔
      visitAll view body (view s).entries s = some u :=
  (walkFrom_eq turns [] holds rfl le_rfl).2.1 u

theorem sweeps_iff (turns : Turns view body inv good) (holds : inv s) :
    Sweeps view body s ↔ ∀ entry ∈ (view s).entries, good entry s := by
  rw [← visitAll_isSome_iff turns [] holds rfl]
  constructor
  · intro sweeps
    have reached := (walk_reaches_iff turns holds _).mp ⟨sweeps.ends, rfl⟩
    simp [reached]
  · intro visited
    obtain ⟨u, visited⟩ := Option.isSome_iff_exists.mp visited
    have finished := ((walk_reaches_iff turns holds u).mpr visited).1
    refine ⟨finished, ?_⟩
    intro key member
    right
    have logged : (walk view body s).log = (view s).entries.map fun entry => .visited entry.1 :=
      (walkFrom_eq turns [] holds rfl le_rfl).2.2 finished
    have visits : (walk view body s).log = (view s).keys.map .visited := by
      rw [logged, OrderedMap.keys, List.map_map]
      rfl
    rw [visits]
    apply List.count_eq_one_of_mem
    · exact (view s).keys_nodup.map fun _ _ => WalkEvent.visited.inj
    · exact List.mem_map_of_mem member

end Loop

end DistributedNinja.Lib
