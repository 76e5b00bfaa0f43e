import Mathlib.Algebra.Group.Nat.Defs
import Mathlib.Data.List.Basic
import Mathlib.Tactic.Common

namespace DistributedNinja.Rpc

def castInt (n : Nat) : Int := (BitVec.ofNat 32 n).toInt

theorem castInt_small {n : Nat} (small : n < 2 ^ 31) : castInt n = n := by
  have low : n % 2 ^ 32 = n := Nat.mod_eq_of_lt (by omega)
  rw [castInt, BitVec.toInt_eq_toNat_of_lt (by simp only [BitVec.toNat_ofNat, low]; omega),
    BitVec.toNat_ofNat, low]

/-- `data` is the distance of `data_` from the front string's first byte, `none` for `NULL`. -/
structure QueuedWriteIOBuffer where
  pendingData : List (List UInt8)
  data : Option Nat
  totalSize : Nat
  maxBufferSize : Nat
  deriving DecidableEq, Repr

namespace QueuedWriteIOBuffer

def kDefaultMaxBufferSize : Nat := 1 * 1024 * 1024

def new : QueuedWriteIOBuffer := ⟨[], none, 0, kDefaultMaxBufferSize⟩

def isEmpty (q : QueuedWriteIOBuffer) : Bool := q.pendingData.isEmpty

def append (q : QueuedWriteIOBuffer) (data : List UInt8) : Bool × QueuedWriteIOBuffer :=
  if data.isEmpty then (true, q)
  else if (q.totalSize : Int) + castInt data.length > q.maxBufferSize then (false, q)
  else
    let pushed := q.pendingData ++ [data]
    (true, { q with
      pendingData := pushed
      totalSize := q.totalSize + data.length
      data := if pushed.length = 1 then some 0 else q.data })

def getSizeToWrite (q : QueuedWriteIOBuffer) : Nat :=
  match q.pendingData with
  | [] => 0
  | front :: _ => front.length - q.data.getD 0

def didConsume (q : QueuedWriteIOBuffer) (size : Nat) : QueuedWriteIOBuffer :=
  if size = 0 then q
  else if size < q.getSizeToWrite then
    { q with data := q.data.map (· + size), totalSize := q.totalSize - size }
  else
    let popped := q.pendingData.tail
    { q with
      pendingData := popped
      data := if popped.isEmpty then none else some 0
      totalSize := q.totalSize - size }

def bytesToWrite (q : QueuedWriteIOBuffer) (size : Nat) : List UInt8 :=
  match q.pendingData with
  | [] => []
  | front :: _ => (front.drop (q.data.getD 0)).take size

def pendingBytes (q : QueuedWriteIOBuffer) : List UInt8 :=
  match q.pendingData with
  | [] => []
  | front :: rest => front.drop (q.data.getD 0) ++ rest.flatten

structure WellFormed (q : QueuedWriteIOBuffer) : Prop where
  pointer : match q.pendingData with
    | [] => q.data = none
    | front :: _ => ∃ consumed, q.data = some consumed ∧ consumed < front.length
  nonempty : ∀ string ∈ q.pendingData, string ≠ []
  total : q.totalSize = q.pendingBytes.length
  bounded : q.totalSize ≤ q.maxBufferSize
  limit : q.maxBufferSize = kDefaultMaxBufferSize

theorem new_wellFormed : new.WellFormed :=
  ⟨rfl, by simp [new], rfl, Nat.zero_le _, rfl⟩

theorem WellFormed.cases {q : QueuedWriteIOBuffer} (wf : q.WellFormed) :
    (q.pendingData = [] ∧ q.data = none) ∨
      ∃ front rest consumed, q.pendingData = front :: rest ∧ q.data = some consumed ∧
        consumed < front.length := by
  have pointer := wf.pointer
  cases shape : q.pendingData with
  | nil =>
    rw [shape] at pointer
    exact .inl ⟨rfl, pointer⟩
  | cons front rest =>
    rw [shape] at pointer
    obtain ⟨consumed, at_, inside⟩ := pointer
    exact .inr ⟨front, rest, consumed, rfl, at_, inside⟩

theorem WellFormed.getSizeToWrite_pos {q : QueuedWriteIOBuffer} (wf : q.WellFormed) :
    0 < q.getSizeToWrite ↔ q.pendingData ≠ [] := by
  rcases wf.cases with ⟨shape, _⟩ | ⟨front, rest, consumed, shape, pointer, inside⟩
  · simp [getSizeToWrite, shape]
  · simp only [getSizeToWrite, shape, pointer, Option.getD_some, ne_eq, reduceCtorEq,
      not_false_eq_true, iff_true]
    omega

theorem getSizeToWrite_append {q : QueuedWriteIOBuffer} (data : List UInt8)
    (content : q.getSizeToWrite ≠ 0) : (q.append data).2.getSizeToWrite = q.getSizeToWrite := by
  obtain ⟨front, rest, shape⟩ : ∃ front rest, q.pendingData = front :: rest := by
    apply List.exists_cons_of_ne_nil
    intro none
    simp [getSizeToWrite, none] at content
  unfold append
  split
  · rfl
  · split
    · rfl
    · simp [getSizeToWrite, shape]

theorem WellFormed.append {q : QueuedWriteIOBuffer} {data : List UInt8} (wf : q.WellFormed)
    (small : data.length < 2 ^ 31) (accepted : (q.append data).1 = true) :
    (q.append data).2.WellFormed ∧ (q.append data).2.pendingBytes = q.pendingBytes ++ data ∧
      q.totalSize + data.length ≤ q.maxBufferSize := by
  unfold QueuedWriteIOBuffer.append at accepted ⊢
  rw [castInt_small small] at accepted ⊢
  by_cases empty : data.isEmpty
  · rw [if_pos empty]
    have none : data = [] := List.isEmpty_iff.mp empty
    subst none
    exact ⟨wf, by simp, wf.bounded⟩
  · rw [if_neg empty] at accepted ⊢
    have content : data ≠ [] := fun none => empty (List.isEmpty_iff.mpr none)
    have positive : 0 < data.length := List.length_pos_iff.mpr content
    by_cases large : (q.totalSize : Int) + data.length > q.maxBufferSize
    · rw [if_pos large] at accepted
      cases accepted
    · rw [if_neg large]
      have total := wf.total
      have bounded : q.totalSize + data.length ≤ q.maxBufferSize := by omega
      rcases wf.cases with ⟨shape, pointer⟩ | ⟨front, rest, consumed, shape, pointer, inside⟩
      · refine ⟨⟨?_, ?_, ?_, bounded, wf.limit⟩, ?_, bounded⟩
        · simpa [shape] using positive
        · simpa [shape] using content
        · simp [pendingBytes, shape, total]
        · simp [pendingBytes, shape]
      · have nonempty := wf.nonempty
        rw [shape] at nonempty
        refine ⟨⟨?_, ?_, ?_, bounded, wf.limit⟩, ?_, bounded⟩
        · simpa [shape, pointer] using inside
        · intro string member
          simp only [shape, List.cons_append, List.mem_cons, List.mem_append, List.not_mem_nil,
            or_false] at member
          rcases member with rfl | member | rfl
          · exact nonempty _ (by simp)
          · exact nonempty _ (by simp [member])
          · exact content
        · simp [pendingBytes, shape, pointer, total, Nat.add_assoc]
        · simp [pendingBytes, shape, pointer]

theorem append_refused {q : QueuedWriteIOBuffer} {data : List UInt8}
    (refused : (q.append data).1 = false) : (q.append data).2 = q := by
  unfold QueuedWriteIOBuffer.append at refused ⊢
  split at refused
  · cases refused
  · rename_i content
    rw [if_neg content]
    split at refused
    · rename_i large
      rw [if_pos large]
    · cases refused

theorem WellFormed.didConsume {q : QueuedWriteIOBuffer} {size : Nat} (wf : q.WellFormed)
    (positive : 0 < size) (inside : size ≤ q.getSizeToWrite) :
    (q.didConsume size).WellFormed ∧
      q.bytesToWrite size ++ (q.didConsume size).pendingBytes = q.pendingBytes ∧
      (q.bytesToWrite size).length = size := by
  have total := wf.total
  have bounded := wf.bounded
  have nonempty := wf.nonempty
  rcases wf.cases with ⟨shape, _⟩ | ⟨front, rest, consumed, shape, pointer, within⟩
  · simp only [getSizeToWrite, shape] at inside
    omega
  · have toWrite : q.getSizeToWrite = front.length - consumed := by
      simp [getSizeToWrite, shape, pointer]
    have length : (q.bytesToWrite size).length = size := by
      simp only [bytesToWrite, shape, pointer, Option.getD_some, List.length_take, List.length_drop]
      omega
    have pending : q.pendingBytes = front.drop consumed ++ rest.flatten := by
      simp [pendingBytes, shape, pointer]
    have pendingLength : q.totalSize = front.length - consumed + rest.flatten.length := by
      rw [total, pending, List.length_append, List.length_drop]
    rw [shape] at nonempty
    unfold QueuedWriteIOBuffer.didConsume
    rw [if_neg (by omega)]
    by_cases part : size < q.getSizeToWrite
    · rw [if_pos part]
      refine ⟨⟨?_, wf.nonempty, ?_, ?_, wf.limit⟩, ?_, length⟩
      · simp only [shape, pointer, Option.map_some, Option.some.injEq, exists_eq_left']
        omega
      · simp only [pendingBytes, shape, pointer, Option.map_some, Option.getD_some,
          List.length_append, List.length_drop]
        omega
      · exact Nat.le_trans (Nat.sub_le _ _) bounded
      · rw [pending]
        simp only [bytesToWrite, pendingBytes, shape, pointer, Option.map_some, Option.getD_some]
        rw [← List.append_assoc, ← List.drop_drop, List.take_append_drop]
    · rw [if_neg part]
      have all : size = front.length - consumed := by omega
      have written : q.bytesToWrite size = front.drop consumed := by
        simp [bytesToWrite, shape, pointer, all, List.take_of_length_le]
      have afterwards : ∀ data, data = (if rest.isEmpty then none else some 0) →
          pendingBytes { q with pendingData := rest, data := data, totalSize := q.totalSize - size } =
            rest.flatten := by
        intro data which
        cases rest with
        | nil => rfl
        | cons next others => simp [pendingBytes, which]
      simp only [shape, List.tail_cons]
      refine ⟨⟨?_, ?_, ?_, ?_, wf.limit⟩, ?_, length⟩
      · cases rest with
        | nil => rfl
        | cons next others =>
          have content : next ≠ [] := nonempty next (by simp)
          exact ⟨0, rfl, List.length_pos_iff.mpr content⟩
      · intro string member
        exact nonempty string (List.mem_cons_of_mem _ member)
      · rw [afterwards _ rfl]
        simp only
        omega
      · exact Nat.le_trans (Nat.sub_le _ _) bounded
      · rw [afterwards _ rfl, written, pending]

end QueuedWriteIOBuffer

end DistributedNinja.Rpc
