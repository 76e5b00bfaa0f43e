import Mathlib.Data.List.Basic

namespace DistributedNinja.Net

/-- `realloc` of a heap block. Bytes past the old block are indeterminate and read as zero here;
    no caller reads one before the socket has written it. -/
def realloc (block : List UInt8) (size : Nat) : List UInt8 :=
  block.take size ++ List.replicate (size - block.length) 0

@[simp] theorem realloc_length (block : List UInt8) (size : Nat) : (realloc block size).length = size := by
  simp only [realloc, List.length_append, List.length_take, List.length_replicate]
  omega

theorem realloc_take (block : List UInt8) (size n : Nat) (inside : n ≤ block.length) (kept : n ≤ size) :
    (realloc block size).take n = block.take n := by
  rw [realloc, List.take_append_of_le_length (by simp; omega), List.take_take, Nat.min_eq_left kept]

structure GrowableIOBuffer where
  realData : List UInt8
  capacity : Nat
  offset : Nat
  data : Nat
  deriving DecidableEq, Repr

namespace GrowableIOBuffer

def new : GrowableIOBuffer := ⟨[], 0, 0, 0⟩

def setOffset (b : GrowableIOBuffer) (offset : Nat) : GrowableIOBuffer :=
  { b with offset := offset, data := offset }

def setCapacity (b : GrowableIOBuffer) (capacity : Nat) : GrowableIOBuffer :=
  let resized := { b with realData := realloc b.realData capacity, capacity := capacity }
  if b.offset > capacity then resized.setOffset capacity else resized.setOffset b.offset

def remainingCapacity (b : GrowableIOBuffer) : Nat := b.capacity - b.offset

def startOfBuffer (b : GrowableIOBuffer) : List UInt8 := b.realData

structure WellFormed (b : GrowableIOBuffer) : Prop where
  block : b.realData.length = b.capacity
  inside : b.offset ≤ b.capacity
  pointer : b.data = b.offset

theorem setCapacity_wellFormed (b : GrowableIOBuffer) (capacity : Nat) :
    (b.setCapacity capacity).WellFormed := by
  unfold setCapacity
  split
  · exact ⟨by simp [setOffset], Nat.le_refl _, rfl⟩
  · rename_i fits
    exact ⟨by simp [setOffset], Nat.not_lt.mp fits, rfl⟩

@[simp] theorem setCapacity_capacity (b : GrowableIOBuffer) (capacity : Nat) :
    (b.setCapacity capacity).capacity = capacity := by
  unfold setCapacity
  split <;> rfl

@[simp] theorem setCapacity_realData (b : GrowableIOBuffer) (capacity : Nat) :
    (b.setCapacity capacity).realData = realloc b.realData capacity := by
  unfold setCapacity
  split <;> rfl

theorem setCapacity_offset (b : GrowableIOBuffer) (capacity : Nat) :
    (b.setCapacity capacity).offset = min b.offset capacity := by
  unfold setCapacity
  split <;> simp [setOffset] <;> omega

section Checks

variable {b : GrowableIOBuffer}

/-- `set_offset` of a debug build; `none` when a `DCHECK` fires. -/
def setOffsetChecked (b : GrowableIOBuffer) (offset : Int) : Option GrowableIOBuffer :=
  if 0 ≤ offset ∧ offset ≤ b.capacity then some (b.setOffset offset.toNat) else none

def setCapacityChecked (b : GrowableIOBuffer) (capacity : Int) : Option GrowableIOBuffer :=
  if 0 ≤ capacity then
    let resized := { b with realData := realloc b.realData capacity.toNat, capacity := capacity.toNat }
    if b.offset > capacity then resized.setOffsetChecked capacity else resized.setOffsetChecked b.offset
  else none

theorem setOffsetChecked_eq {offset : Nat} (inside : offset ≤ b.capacity) :
    b.setOffsetChecked offset = some (b.setOffset offset) := by
  rw [setOffsetChecked, if_pos (by omega), Int.toNat_natCast]

theorem setCapacityChecked_eq (b : GrowableIOBuffer) (capacity : Nat) :
    b.setCapacityChecked capacity = some (b.setCapacity capacity) := by
  unfold setCapacityChecked setCapacity
  rw [if_pos (by omega), Int.toNat_natCast]
  by_cases beyond : b.offset > capacity
  · rw [if_pos (by omega), if_pos beyond]
    exact setOffsetChecked_eq (Nat.le_refl _)
  · rw [if_neg (by omega), if_neg beyond]
    exact setOffsetChecked_eq (Nat.not_lt.mp beyond)

end Checks

end GrowableIOBuffer

end DistributedNinja.Net
