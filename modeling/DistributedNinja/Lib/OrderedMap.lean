import Mathlib.Order.Defs.LinearOrder
import Mathlib.Data.List.Basic
import Mathlib.Order.Lattice

namespace DistributedNinja.Lib

/-- A map iterated in key order: its entries are strictly sorted, so a key occurs once. -/
structure OrderedMap (K V : Type) [LinearOrder K] where
  entries : List (K × V)
  sorted : entries.Pairwise fun a b => a.1 < b.1

namespace OrderedMap

variable {K V : Type} [LinearOrder K]

def empty : OrderedMap K V := ⟨[], .nil⟩

def findEntry (key : K) : List (K × V) → Option V
  | [] => none
  | (k, v) :: rest => if k = key then some v else findEntry key rest

def find? (m : OrderedMap K V) (key : K) : Option V := findEntry key m.entries

def contains (m : OrderedMap K V) (key : K) : Bool := (m.find? key).isSome

def keys (m : OrderedMap K V) : List K := m.entries.map Prod.fst

def insertEntry (key : K) (value : V) : List (K × V) → List (K × V)
  | [] => [(key, value)]
  | (k, v) :: rest =>
    if key < k then (key, value) :: (k, v) :: rest
    else if key = k then (key, value) :: rest
    else (k, v) :: insertEntry key value rest

theorem mem_insertEntry {key : K} {value : V} {entry : K × V} {entries : List (K × V)}
    (member : entry ∈ insertEntry key value entries) : entry = (key, value) ∨ entry ∈ entries := by
  induction entries with
  | nil => simpa [insertEntry] using member
  | cons head rest ih =>
    obtain ⟨k, v⟩ := head
    simp only [insertEntry] at member
    split at member
    · exact List.mem_cons.mp member
    · split at member
      · exact (List.mem_cons.mp member).imp id fun h => List.mem_cons_of_mem _ h
      · rcases List.mem_cons.mp member with rfl | member
        · exact .inr (by simp)
        · exact (ih member).imp id fun h => List.mem_cons_of_mem _ h

theorem insertEntry_sorted (key : K) (value : V) {entries : List (K × V)}
    (sorted : entries.Pairwise fun a b => a.1 < b.1) :
    (insertEntry key value entries).Pairwise fun a b => a.1 < b.1 := by
  induction entries with
  | nil => exact List.pairwise_singleton _ _
  | cons head rest ih =>
    obtain ⟨k, v⟩ := head
    obtain ⟨above, rest_sorted⟩ := List.pairwise_cons.mp sorted
    simp only [insertEntry]
    split
    · rename_i less
      refine List.pairwise_cons.mpr ⟨?_, sorted⟩
      intro entry member
      rcases List.mem_cons.mp member with rfl | member
      · exact less
      · exact less.trans (above entry member)
    · split
      · rename_i _ same
        subst same
        exact List.pairwise_cons.mpr ⟨above, rest_sorted⟩
      · rename_i notLess different
        refine List.pairwise_cons.mpr ⟨?_, ih rest_sorted⟩
        intro entry member
        rcases mem_insertEntry member with rfl | member
        · exact lt_of_le_of_ne (not_lt.mp notLess) (Ne.symm different)
        · exact above entry member

def insert (m : OrderedMap K V) (key : K) (value : V) : OrderedMap K V :=
  ⟨insertEntry key value m.entries, insertEntry_sorted key value m.sorted⟩

def erase (m : OrderedMap K V) (key : K) : OrderedMap K V :=
  ⟨m.entries.filter fun entry => decide (entry.1 ≠ key), m.sorted.filter _⟩

theorem findEntry_insertEntry (key other : K) (value : V) (entries : List (K × V)) :
    findEntry other (insertEntry key value entries) =
      if other = key then some value else findEntry other entries := by
  induction entries with
  | nil => simp [insertEntry, findEntry, eq_comm]
  | cons head rest ih =>
    obtain ⟨k, v⟩ := head
    simp only [insertEntry]
    split
    · simp [findEntry, eq_comm]
    · split
      · rename_i _ same
        subst same
        by_cases h : key = other <;> simp [findEntry, h, eq_comm]
      · rename_i _ different
        by_cases h : k = other
        · subst h
          simp [findEntry, Ne.symm different]
        · simp [findEntry, h, ih]

theorem findEntry_filter (key other : K) (entries : List (K × V)) :
    findEntry other (entries.filter fun entry => decide (entry.1 ≠ key)) =
      if other = key then none else findEntry other entries := by
  induction entries with
  | nil => simp [findEntry]
  | cons head rest ih =>
    obtain ⟨k, v⟩ := head
    by_cases h : k = key
    · subst h
      by_cases same : other = k
      · simpa [List.filter_cons, findEntry, same] using ih
      · simpa [List.filter_cons, findEntry, same, Ne.symm same] using ih
    · by_cases same : k = other
      · subst same
        simp [findEntry, h]
      · simpa [List.filter_cons, findEntry, h, same] using ih

@[simp] theorem find?_insert (m : OrderedMap K V) (key other : K) (value : V) :
    (m.insert key value).find? other = if other = key then some value else m.find? other :=
  findEntry_insertEntry key other value m.entries

@[simp] theorem find?_erase (m : OrderedMap K V) (key other : K) :
    (m.erase key).find? other = if other = key then none else m.find? other :=
  findEntry_filter key other m.entries

theorem mem_entries_of_findEntry {key : K} {value : V} {entries : List (K × V)}
    (found : findEntry key entries = some value) : (key, value) ∈ entries := by
  induction entries with
  | nil => cases found
  | cons head rest ih =>
    obtain ⟨k, v⟩ := head
    simp only [findEntry] at found
    split at found
    · rename_i same
      cases found
      simp [same]
    · exact List.mem_cons_of_mem _ (ih found)

theorem findEntry_of_mem_keys {key : K} {entries : List (K × V)}
    (member : key ∈ entries.map Prod.fst) : ∃ value, findEntry key entries = some value := by
  induction entries with
  | nil => cases member
  | cons head rest ih =>
    obtain ⟨k, v⟩ := head
    by_cases same : k = key
    · exact ⟨v, by simp [findEntry, same]⟩
    · obtain ⟨value, found⟩ := ih ((List.mem_cons.mp member).resolve_left (Ne.symm same))
      exact ⟨value, by simp [findEntry, same, found]⟩

theorem mem_keys {m : OrderedMap K V} {key : K} : key ∈ m.keys ↔ ∃ value, m.find? key = some value := by
  constructor
  · exact findEntry_of_mem_keys
  · rintro ⟨value, found⟩
    exact List.mem_map.mpr ⟨(key, value), mem_entries_of_findEntry found, rfl⟩

theorem keys_nodup (m : OrderedMap K V) : m.keys.Nodup := by
  apply List.pairwise_map.mpr
  exact m.sorted.imp fun below => ne_of_lt below

theorem contains_iff {m : OrderedMap K V} {key : K} :
    m.contains key = true ↔ ∃ value, m.find? key = some value := Option.isSome_iff_exists

end OrderedMap

end DistributedNinja.Lib
