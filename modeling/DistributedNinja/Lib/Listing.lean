import Mathlib.Data.List.Basic
import Mathlib.Logic.Function.Basic

namespace DistributedNinja.Lib

variable {K V : Type} [DecidableEq K] {map : K → Option V} {entries : List (K × V)} {key : K} {value : V}

/-- The list has every entry of the map. -/
def Lists (map : K → Option V) (entries : List (K × V)) : Prop :=
  ∀ key value, map key = some value → (key, value) ∈ entries

def without (key : K) (entries : List (K × V)) : List (K × V) := entries.filter fun entry => entry.1 ≠ key

theorem Lists.update (lists : Lists map entries) (key : K) (value : V) :
    Lists (Function.update map key (some value)) ((key, value) :: without key entries) := by
  intro other found at_
  by_cases same : other = key
  · subst same
    rw [Function.update_self, Option.some.injEq] at at_
    rw [at_]
    exact List.mem_cons_self
  · rw [Function.update_of_ne same] at at_
    exact List.mem_cons_of_mem _ (List.mem_filter.mpr ⟨lists other found at_, by simpa using same⟩)

theorem Lists.erase (lists : Lists map entries) (key : K) :
    Lists (Function.update map key none) (without key entries) := by
  intro other found at_
  by_cases same : other = key
  · subst same
    rw [Function.update_self] at at_
    cases at_
  · rw [Function.update_of_ne same] at at_
    exact List.mem_filter.mpr ⟨lists other found at_, by simpa using same⟩

theorem countP_without_le (p : K × V → Bool) (key : K) (entries : List (K × V)) :
    (without key entries).countP p ≤ entries.countP p :=
  List.filter_sublist.countP_le

theorem Lists.countP_without (lists : Lists map entries) (at_ : map key = some value) (p : K × V → Bool) :
    (without key entries).countP p + [(key, value)].countP p ≤ entries.countP p := by
  have member : (key, value) ∈ entries := lists key value at_
  obtain ⟨before, after, rfl⟩ := List.append_of_mem member
  have first := countP_without_le p key before
  have second := countP_without_le p key after
  have gone : without key ((key, value) :: after) = without key after := by simp [without]
  have split : without key (before ++ (key, value) :: after) = without key before ++ without key after := by
    rw [without, List.filter_append]
    exact congrArg _ gone
  rw [split, List.countP_append, List.countP_append, List.countP_cons (l := after), List.countP_singleton]
  omega

theorem index_unique {A B : Type} {f : A → Option B} {list : List A} (apart : (list.filterMap f).Nodup) {i j : Nat}
    {a b : A} {value : B} (first : list[i]? = some a) (second : list[j]? = some b) (here : f a = some value)
    (there : f b = some value) : i = j := by
  have different := List.pairwise_iff_getElem.mp (List.pairwise_filterMap.mp apart)
  obtain ⟨left, rfl⟩ := List.getElem?_eq_some_iff.mp first
  obtain ⟨right, rfl⟩ := List.getElem?_eq_some_iff.mp second
  rcases Nat.lt_trichotomy i j with before | same | after
  · exact absurd rfl (different i j left right before value here value there)
  · exact same
  · exact absurd rfl (different j i right left after value there value here)

end DistributedNinja.Lib
