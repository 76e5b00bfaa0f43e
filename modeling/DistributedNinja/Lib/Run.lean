import Mathlib.Logic.Relation
import Mathlib.Tactic.Cases

namespace DistributedNinja.Lib

variable {State Event : Type}

def run (step : State → Event → Option State) : State → List Event → Option State
  | s, [] => some s
  | s, e :: es => (step s e).bind fun t => run step t es

/-- Every event of the replay meets the condition in the state it finds. -/
def Along (step : State → Event → Option State) (meets : State → Event → Prop) :
    State → List Event → Prop
  | _, [] => True
  | s, e :: es => meets s e ∧ ∀ t, step s e = some t → Along step meets t es

variable {step : State → Event → Option State} {meets : State → Event → Prop}

instance Along.instDecidable [∀ s e, Decidable (meets s e)] :
    (s : State) → (es : List Event) → Decidable (Along step meets s es)
  | _, [] => .isTrue trivial
  | s, e :: es =>
    have : Decidable (∀ t, step s e = some t → Along step meets t es) :=
      match step s e with
      | none => .isTrue nofun
      | some u =>
        have := Along.instDecidable u es
        decidable_of_iff (Along step meets u es) ⟨fun along _ same => Option.some.inj same ▸ along,
          fun along => along u rfl⟩
    inferInstanceAs (Decidable (meets s e ∧ ∀ t, step s e = some t → Along step meets t es))

theorem run_cons {s t : State} {e : Event} {es : List Event} :
    run step s (e :: es) = some t ↔ ∃ u, step s e = some u ∧ run step u es = some t := by
  simp only [run, Option.bind_eq_some_iff]

theorem run_append {s t : State} {es fs : List Event} :
    run step s (es ++ fs) = some t ↔ ∃ u, run step s es = some u ∧ run step u fs = some t := by
  induction es generalizing s with
  | nil => simp only [List.nil_append, run, Option.some.injEq, exists_eq_left']
  | cons e es ih =>
    rw [List.cons_append, run_cons]
    simp only [ih, run_cons]
    exact ⟨fun ⟨u, stepped, v, first, rest⟩ => ⟨v, ⟨u, stepped, first⟩, rest⟩,
      fun ⟨v, ⟨u, stepped, first⟩, rest⟩ => ⟨u, stepped, v, first, rest⟩⟩

theorem run_invariant_along {inv : State → Prop}
    (preserved : ∀ s e t, inv s → meets s e → step s e = some t → inv t)
    {s t : State} {es : List Event} (start : inv s) (along : Along step meets s es)
    (replay : run step s es = some t) : inv t := by
  induction es generalizing s with
  | nil =>
    cases replay
    exact start
  | cons e es ih =>
    obtain ⟨u, stepped, rest⟩ := run_cons.mp replay
    exact ih (preserved s e u start along.1 stepped) (along.2 u stepped) rest

theorem run_history_along {inv : List Event → State → Prop}
    (preserved : ∀ past s e t, inv past s → meets s e → step s e = some t → inv (past ++ [e]) t)
    {s t : State} {past es : List Event} (start : inv past s) (along : Along step meets s es)
    (replay : run step s es = some t) : inv (past ++ es) t := by
  induction es generalizing s past with
  | nil =>
    cases replay
    rw [List.append_nil]
    exact start
  | cons e es ih =>
    obtain ⟨u, stepped, rest⟩ := run_cons.mp replay
    have next := ih (preserved past s e u start along.1 stepped) (along.2 u stepped) rest
    rw [List.append_assoc] at next
    exact next

theorem run_total_along {inv : State → Prop}
    (progress : ∀ s e, inv s → meets s e → ∃ t, step s e = some t ∧ inv t)
    {s : State} {es : List Event} (start : inv s) (along : Along step meets s es) :
    ∃ t, run step s es = some t ∧ inv t := by
  induction es generalizing s with
  | nil => exact ⟨s, rfl, start⟩
  | cons e es ih =>
    obtain ⟨u, stepped, next⟩ := progress s e start along.1
    obtain ⟨t, rest, final⟩ := ih next (along.2 u stepped)
    exact ⟨t, run_cons.mpr ⟨u, stepped, rest⟩, final⟩

theorem along_of_forall {es : List Event} (all : ∀ e ∈ es, ∀ s, meets s e) (s : State) :
    Along step meets s es := by
  induction es generalizing s with
  | nil => trivial
  | cons e es ih =>
    exact ⟨all e List.mem_cons_self s, fun t _ => ih (fun e later => all e (List.mem_cons_of_mem _ later)) t⟩

theorem run_invariant {inv : State → Prop}
    (preserved : ∀ s e t, inv s → step s e = some t → inv t)
    {s t : State} {es : List Event} (start : inv s) (replay : run step s es = some t) : inv t :=
  run_invariant_along (fun s e t h (_ : True) => preserved s e t h) start
    (along_of_forall (fun _ _ _ => trivial) s) replay

/-- Where every step takes something off a weight, a run is no longer than the weight it starts with. -/
theorem run_decreasing {inv : State → Prop} {weight : State → Nat} {allowed : Event → Prop}
    (decreases : ∀ s e t, inv s → allowed e → step s e = some t → inv t ∧ weight t < weight s)
    {s t : State} {es : List Event} (start : inv s) (all : ∀ e ∈ es, allowed e)
    (replay : run step s es = some t) : inv t ∧ es.length + weight t ≤ weight s := by
  induction es generalizing s with
  | nil =>
    cases replay
    exact ⟨start, by simp⟩
  | cons e es ih =>
    obtain ⟨u, stepped, rest⟩ := run_cons.mp replay
    obtain ⟨next, less⟩ := decreases s e u start (all e List.mem_cons_self) stepped
    obtain ⟨final, short⟩ := ih next (fun e later => all e (List.mem_cons_of_mem _ later)) rest
    refine ⟨final, ?_⟩
    rw [List.length_cons]
    omega

/-- A run whose steps are abstract steps, or change nothing that the abstraction sees, is an abstract run. -/
theorem run_refines {Abstract AbstractEvent : Type} {abstractStep : Abstract → AbstractEvent → Option Abstract}
    {view : State → Abstract} {legal : Abstract → AbstractEvent → Prop} {inv : State → Prop} {allowed : Event → Prop}
    (simulates : ∀ s e t, inv s → allowed e → step s e = some t → inv t ∧
      (view t = view s ∨ ∃ f, legal (view s) f ∧ abstractStep (view s) f = some (view t)))
    {s t : State} {es : List Event} (start : inv s) (all : ∀ e ∈ es, allowed e)
    (replay : run step s es = some t) :
    inv t ∧ ∃ fs, Along abstractStep legal (view s) fs ∧ run abstractStep (view s) fs = some (view t) := by
  induction es generalizing s with
  | nil =>
    cases replay
    exact ⟨start, [], trivial, rfl⟩
  | cons e es ih =>
    obtain ⟨u, stepped, rest⟩ := run_cons.mp replay
    obtain ⟨next, moves⟩ := simulates s e u start (all e List.mem_cons_self) stepped
    obtain ⟨final, fs, along, replayed⟩ := ih next (fun e later => all e (List.mem_cons_of_mem _ later)) rest
    refine ⟨final, ?_⟩
    rcases moves with same | ⟨f, met, moved⟩
    · rw [← same]
      exact ⟨fs, along, replayed⟩
    · refine ⟨f :: fs, ⟨met, ?_⟩, run_cons.mpr ⟨_, moved, replayed⟩⟩
      intro v again
      rw [moved] at again
      cases again
      exact along

/-- A relation to abstract states that each step keeps, where the abstract state takes a step or stands still. -/
theorem run_follows {Abstract AbstractEvent : Type} {abstractStep : Abstract → AbstractEvent → Option Abstract}
    {related : State → Abstract → Prop}
    (follows : ∀ s e t a, related s a → step s e = some t →
      ∃ b, related t b ∧ (b = a ∨ ∃ f, abstractStep a f = some b))
    {s t : State} {a : Abstract} {es : List Event} (start : related s a) (replay : run step s es = some t) :
    ∃ fs b, run abstractStep a fs = some b ∧ related t b := by
  induction es generalizing s a with
  | nil =>
    cases replay
    exact ⟨[], a, rfl, start⟩
  | cons e es ih =>
    obtain ⟨u, stepped, rest⟩ := run_cons.mp replay
    obtain ⟨b, next, moved⟩ := follows s e u a start stepped
    obtain ⟨fs, c, replayed, final⟩ := ih next rest
    rcases moved with rfl | ⟨f, moved⟩
    · exact ⟨fs, c, replayed, final⟩
    · exact ⟨f :: fs, c, run_cons.mpr ⟨b, moved, replayed⟩, final⟩

theorem along_congr_along {inv : State → Prop} {other : State → Event → Prop}
    (preserved : ∀ s e t, inv s → meets s e → step s e = some t → inv t)
    (same : ∀ s e, inv s → (meets s e ↔ other s e)) {s : State} (start : inv s) (es : List Event) :
    Along step meets s es ↔ Along step other s es := by
  induction es generalizing s with
  | nil => exact Iff.rfl
  | cons e es ih =>
    constructor
    · intro along
      refine ⟨(same s e start).mp along.1, ?_⟩
      intro t stepped
      exact (ih (preserved s e t start along.1 stepped)).mp (along.2 t stepped)
    · intro along
      have met := (same s e start).mpr along.1
      refine ⟨met, ?_⟩
      intro t stepped
      exact (ih (preserved s e t start met stepped)).mpr (along.2 t stepped)

theorem along_congr {inv : State → Prop} {other : State → Event → Prop}
    (preserved : ∀ s e t, inv s → step s e = some t → inv t)
    (same : ∀ s e, inv s → (meets s e ↔ other s e)) {s : State} (start : inv s) (es : List Event) :
    Along step meets s es ↔ Along step other s es :=
  along_congr_along (fun s e t holds _ => preserved s e t holds) same start es

section Log

variable {Entry : Type} {first later : Entry}

/-- Every entry has its ground in what stands before it. -/
def Grounded (ground : List Entry → Entry → Prop) (log : List Entry) : Prop :=
  ∀ before entry after, log = before ++ entry :: after → ground before entry

theorem Grounded.imp {ground weaker : List Entry → Entry → Prop} {log : List Entry} (grounded : Grounded ground log)
    (implies : ∀ before entry, ground before entry → weaker before entry) : Grounded weaker log :=
  fun before entry after shape => implies before entry (grounded before entry after shape)

theorem Grounded.append {ground : List Entry → Entry → Prop} {log : List Entry} {entry : Entry}
    (grounded : Grounded ground log) (last : ground log entry) : Grounded ground (log ++ [entry]) := by
  intro before other after shape
  rcases List.eq_nil_or_concat after with rfl | ⟨rest, final, rfl⟩
  · obtain ⟨rfl, same⟩ := List.append_inj' shape rfl
    exact (List.cons.inj same).1 ▸ last
  · rw [List.concat_eq_append, ← List.cons_append, ← List.append_assoc] at shape
    obtain ⟨rfl, _⟩ := List.append_inj' shape rfl
    exact grounded before other rest rfl

def Preceded (first later : Entry) (log : List Entry) : Prop :=
  Grounded (fun before entry => entry = later → first ∈ before) log

theorem Preceded.mem {log : List Entry} (preceded : Preceded first later log) (member : later ∈ log) :
    first ∈ log := by
  obtain ⟨before, after, rfl⟩ := List.append_of_mem member
  exact List.mem_append_left _ (preceded before later after rfl rfl)

theorem Preceded.append {log : List Entry} (preceded : Preceded first later log) {entry : Entry}
    (recorded : entry = later → first ∈ log) : Preceded first later (log ++ [entry]) :=
  Grounded.append preceded recorded

variable {entry : Entry}

def Followed (entry later : Entry) (log : List Entry) : Prop :=
  ∀ before after, log = before ++ entry :: after → later ∈ after

theorem Followed.tail {log : List Entry} {first : Entry} (followed : Followed entry later (first :: log)) :
    Followed entry later log := by
  intro before after shape
  exact followed (first :: before) after (by rw [shape, List.cons_append])

theorem Followed.append {log more : List Entry} (followed : Followed entry later log)
    (absent : entry ∉ more) : Followed entry later (log ++ more) := by
  intro before after shape
  rcases List.append_eq_append_iff.mp shape with ⟨between, _, rest⟩ | ⟨between, earlier, rest⟩
  · exact absurd (rest ▸ List.mem_append_right _ List.mem_cons_self) absent
  · rcases List.cons_eq_append_iff.mp rest with ⟨_, rfl⟩ | ⟨inner, rfl, rfl⟩
    · exact absurd List.mem_cons_self absent
    · exact List.mem_append_left _ (followed before inner earlier)

theorem followed_concat (different : entry ≠ later) (log : List Entry) :
    Followed entry later (log ++ [later]) := by
  intro before after shape
  rcases List.eq_nil_or_concat after with rfl | ⟨rest, last, rfl⟩
  · obtain ⟨_, same⟩ := List.append_inj' shape rfl
    exact absurd (List.cons.inj same).1.symm different
  · rw [List.concat_eq_append, ← List.cons_append, ← List.append_assoc] at shape
    obtain ⟨_, same⟩ := List.append_inj' shape rfl
    rw [List.concat_eq_append, (List.cons.inj same).1]
    exact List.mem_append_right _ List.mem_cons_self

end Log

end DistributedNinja.Lib
