import DistributedNinja.Net.IOBuffer

namespace DistributedNinja.Rpc

open Net

/-- Pointers are distances from the start of the block, here and in `GrowableIOBuffer`. -/
structure ReadIOBuffer where
  base : GrowableIOBuffer
  data : Nat
  maxBufferSize : Nat
  deriving DecidableEq, Repr

namespace ReadIOBuffer

def kInitialBufSize : Nat := 1024
def kMinimumBufSize : Nat := 128
def kCapacityIncreaseFactor : Nat := 2
def kDefaultMaxBufferSize : Nat := 1 * 1024 * 1024

def getCapacity (b : ReadIOBuffer) : Nat := b.base.capacity

def getSize (b : ReadIOBuffer) : Nat := b.base.offset

def startOfBuffer (b : ReadIOBuffer) : List UInt8 := b.base.startOfBuffer

def remainingCapacity (b : ReadIOBuffer) : Nat := b.base.remainingCapacity

def setCapacity (b : ReadIOBuffer) (capacity : Nat) : ReadIOBuffer :=
  let base := b.base.setCapacity capacity
  { b with base := base, data := base.data }

def new : ReadIOBuffer :=
  setCapacity ⟨GrowableIOBuffer.new, 0, kDefaultMaxBufferSize⟩ kInitialBufSize

def increaseCapacity (b : ReadIOBuffer) : Option ReadIOBuffer :=
  if b.getCapacity ≥ b.maxBufferSize then none
  else
    let doubled := b.getCapacity * kCapacityIncreaseFactor
    some (b.setCapacity (if doubled > b.maxBufferSize then b.maxBufferSize else doubled))

def didRead (b : ReadIOBuffer) (bytes : Nat) : ReadIOBuffer :=
  let base := b.base.setOffset (b.base.offset + bytes)
  { b with base := base, data := base.data }

def fill (b : ReadIOBuffer) (bytes : List UInt8) : ReadIOBuffer :=
  let block := b.base.realData.take b.data ++ bytes ++ b.base.realData.drop (b.data + bytes.length)
  { b with base := { b.base with realData := block } }

def moveToStart (block : List UInt8) (bytes size : Nat) : List UInt8 :=
  (block.drop bytes).take size ++ block.drop size

def moveUnconsumed (b : ReadIOBuffer) (bytes : Nat) : ReadIOBuffer :=
  let unconsumedSize := b.getSize - bytes
  let block :=
    if unconsumedSize > 0 then moveToStart b.base.realData bytes unconsumedSize else b.base.realData
  let base := { b.base with realData := block }.setOffset unconsumedSize
  { b with base := base, data := base.data }

def reduceCapacity (b : ReadIOBuffer) (previousSize : Nat) : ReadIOBuffer :=
  if b.getCapacity > kMinimumBufSize ∧ b.getCapacity > previousSize * kCapacityIncreaseFactor then
    let half := b.getCapacity / kCapacityIncreaseFactor
    let newCapacity := if half < kMinimumBufSize then kMinimumBufSize else half
    -- an empty buffer is freed first, so that the second `realloc` has nothing to move
    let freed := if b.getSize = 0 then { b with base := b.base.setCapacity 0 } else b
    freed.setCapacity newCapacity
  else b

def didConsume (b : ReadIOBuffer) (bytes : Nat) : ReadIOBuffer :=
  (b.moveUnconsumed bytes).reduceCapacity b.getSize

def received (b : ReadIOBuffer) : List UInt8 := b.startOfBuffer.take b.getSize

structure WellFormed (b : ReadIOBuffer) : Prop where
  base : b.base.WellFormed
  pointer : b.data = b.base.offset
  minimum : kMinimumBufSize ≤ b.getCapacity
  maximum : b.getCapacity ≤ kDefaultMaxBufferSize
  limit : b.maxBufferSize = kDefaultMaxBufferSize

theorem WellFormed.size_le_capacity {b : ReadIOBuffer} (wf : b.WellFormed) :
    b.getSize ≤ b.getCapacity := wf.base.inside

theorem WellFormed.size_le_block {b : ReadIOBuffer} (wf : b.WellFormed) :
    b.getSize ≤ b.startOfBuffer.length := by
  rw [startOfBuffer, GrowableIOBuffer.startOfBuffer, wf.base.block]
  exact wf.base.inside

theorem WellFormed.received_length {b : ReadIOBuffer} (wf : b.WellFormed) :
    b.received.length = b.getSize := by
  rw [received, List.length_take, Nat.min_eq_left wf.size_le_block]

theorem WellFormed.setCapacity {b : ReadIOBuffer} {capacity : Nat} (wf : b.WellFormed)
    (minimum : kMinimumBufSize ≤ capacity) (maximum : capacity ≤ kDefaultMaxBufferSize) :
    (b.setCapacity capacity).WellFormed :=
  ⟨GrowableIOBuffer.setCapacity_wellFormed _ _, (GrowableIOBuffer.setCapacity_wellFormed _ _).pointer,
    by simpa [getCapacity, ReadIOBuffer.setCapacity] using minimum,
    by simpa [getCapacity, ReadIOBuffer.setCapacity] using maximum, wf.limit⟩

theorem getSize_setCapacity (b : ReadIOBuffer) (capacity : Nat) :
    (b.setCapacity capacity).getSize = min b.getSize capacity :=
  GrowableIOBuffer.setCapacity_offset _ _

theorem received_setCapacity {b : ReadIOBuffer} {capacity : Nat}
    (block : b.getSize ≤ b.startOfBuffer.length) (fits : b.getSize ≤ capacity) :
    (b.setCapacity capacity).received = b.received := by
  have size : (b.setCapacity capacity).getSize = b.getSize := by
    rw [getSize_setCapacity, Nat.min_eq_left fits]
  rw [received, size, received]
  simp only [startOfBuffer, GrowableIOBuffer.startOfBuffer, ReadIOBuffer.setCapacity,
    GrowableIOBuffer.setCapacity_realData] at block ⊢
  exact realloc_take _ _ _ block fits

theorem new_wellFormed : new.WellFormed := by
  have base := GrowableIOBuffer.setCapacity_wellFormed GrowableIOBuffer.new kInitialBufSize
  have capacity : new.getCapacity = kInitialBufSize := GrowableIOBuffer.setCapacity_capacity _ _
  refine ⟨base, base.pointer, ?_, ?_, rfl⟩
  · rw [capacity]
    decide
  · rw [capacity]
    decide

theorem new_getSize : new.getSize = 0 := by
  rw [new, getSize_setCapacity]
  rfl

theorem new_received : new.received = [] := by
  rw [received, new_getSize, List.take_zero]

theorem WellFormed.increaseCapacity {b : ReadIOBuffer} (wf : b.WellFormed)
    (below : b.getCapacity < kDefaultMaxBufferSize) :
    ∃ grown, b.increaseCapacity = some grown ∧ grown.WellFormed ∧ grown.received = b.received ∧
      b.getCapacity < grown.getCapacity := by
  have limit := wf.limit
  have positive : 0 < b.getCapacity := Nat.lt_of_lt_of_le (by decide) wf.minimum
  have inside := wf.size_le_capacity
  have spec : ∃ capacity, b.increaseCapacity = some (b.setCapacity capacity) ∧
      b.getCapacity < capacity ∧ capacity ≤ kDefaultMaxBufferSize := by
    refine ⟨_, if_neg (by omega), ?_, ?_⟩ <;> split <;>
      simp only [kCapacityIncreaseFactor] at * <;> omega
  obtain ⟨capacity, answer, grows, maximum⟩ := spec
  refine ⟨b.setCapacity capacity, answer, wf.setCapacity (Nat.le_trans wf.minimum (Nat.le_of_lt grows)) maximum,
    received_setCapacity wf.size_le_block (by omega), ?_⟩
  simpa [getCapacity, ReadIOBuffer.setCapacity] using grows

theorem WellFormed.didRead {b : ReadIOBuffer} {bytes : List UInt8} (wf : b.WellFormed)
    (fits : bytes.length ≤ b.remainingCapacity) :
    ((b.fill bytes).didRead bytes.length).WellFormed ∧
      ((b.fill bytes).didRead bytes.length).received = b.received ++ bytes ∧
      ((b.fill bytes).didRead bytes.length).getCapacity = b.getCapacity := by
  have inside := wf.base.inside
  have block := wf.base.block
  have pointer := wf.pointer
  simp only [remainingCapacity, GrowableIOBuffer.remainingCapacity] at fits
  refine ⟨⟨⟨?_, ?_, rfl⟩, rfl, wf.minimum, wf.maximum, wf.limit⟩, ?_, rfl⟩
  · simp only [ReadIOBuffer.didRead, fill, GrowableIOBuffer.setOffset, List.length_append,
      List.length_take, List.length_drop, pointer]
    omega
  · simp only [ReadIOBuffer.didRead, fill, GrowableIOBuffer.setOffset]
    omega
  · simp only [received, startOfBuffer, GrowableIOBuffer.startOfBuffer, getSize,
      ReadIOBuffer.didRead, fill, GrowableIOBuffer.setOffset, pointer]
    have front : (b.base.realData.take b.base.offset ++ bytes).length = b.base.offset + bytes.length := by
      simp only [List.length_append, List.length_take]
      omega
    rw [List.take_append_of_le_length (by omega), List.take_of_length_le (by omega)]

theorem moveToStart_take (block : List UInt8) (bytes size : Nat) (inside : bytes + size ≤ block.length) :
    (moveToStart block bytes size).take size = (block.take (bytes + size)).drop bytes := by
  rw [moveToStart, List.take_append_of_le_length (by simp; omega), List.take_take, Nat.min_self,
    ← List.take_drop]

theorem WellFormed.moveUnconsumed {b : ReadIOBuffer} {bytes : Nat} (wf : b.WellFormed)
    (inside : bytes ≤ b.getSize) :
    (b.moveUnconsumed bytes).WellFormed ∧ (b.moveUnconsumed bytes).received = b.received.drop bytes := by
  have block := wf.base.block
  have offset := wf.base.inside
  simp only [getSize] at inside
  refine ⟨⟨⟨?_, ?_, rfl⟩, rfl, wf.minimum, wf.maximum, wf.limit⟩, ?_⟩
  · dsimp only [ReadIOBuffer.moveUnconsumed, GrowableIOBuffer.setOffset]
    split
    · simp only [moveToStart, List.length_append, List.length_take, List.length_drop, getSize]
      omega
    · exact block
  · simp only [ReadIOBuffer.moveUnconsumed, GrowableIOBuffer.setOffset, getSize]
    omega
  · dsimp only [received, startOfBuffer, GrowableIOBuffer.startOfBuffer,
      ReadIOBuffer.moveUnconsumed, GrowableIOBuffer.setOffset]
    split
    · change (moveToStart b.base.realData bytes (b.base.offset - bytes)).take (b.base.offset - bytes) =
        (b.base.realData.take b.base.offset).drop bytes
      rw [moveToStart_take _ _ _ (by omega), Nat.add_sub_cancel' inside]
    · rename_i nothing
      have all : bytes = b.base.offset := by
        simp only [getSize] at nothing
        omega
      simp [getSize, all]

theorem reduced_capacity_holds {capacity previousSize : Nat} (above : capacity > kMinimumBufSize)
    (big : capacity > previousSize * kCapacityIncreaseFactor) :
    let half := capacity / kCapacityIncreaseFactor
    let reduced := if half < kMinimumBufSize then kMinimumBufSize else half
    previousSize ≤ reduced ∧ kMinimumBufSize ≤ reduced ∧ reduced ≤ capacity := by
  intro half reduced
  have choice : reduced = max kMinimumBufSize half := by
    simp only [reduced]
    split <;> omega
  rw [choice]
  simp only [half, kCapacityIncreaseFactor, kMinimumBufSize] at above big ⊢
  omega

theorem WellFormed.reduceCapacity {b : ReadIOBuffer} {previousSize : Nat} (wf : b.WellFormed)
    (smaller : b.getSize ≤ previousSize) :
    (b.reduceCapacity previousSize).WellFormed ∧
      (b.reduceCapacity previousSize).received = b.received := by
  unfold ReadIOBuffer.reduceCapacity
  split
  · rename_i shrink
    obtain ⟨holds, low, high⟩ := reduced_capacity_holds shrink.1 shrink.2
    have maximum := Nat.le_trans high wf.maximum
    by_cases empty : b.getSize = 0
    · -- the block is freed before the smaller one is allocated: there was nothing to keep
      have freed : ({ b with base := b.base.setCapacity 0 } : ReadIOBuffer).getSize = 0 := by
        simp [getSize, GrowableIOBuffer.setCapacity_offset]
      have base := GrowableIOBuffer.setCapacity_wellFormed (b.base.setCapacity 0)
      simp only [empty, ↓reduceIte]
      refine ⟨⟨base _, (base _).pointer, ?_, ?_, wf.limit⟩, ?_⟩
      · simpa [getCapacity, ReadIOBuffer.setCapacity] using low
      · simpa [getCapacity, ReadIOBuffer.setCapacity] using maximum
      · rw [received_setCapacity (by simp [freed]) (by simp [freed]), received, received, freed, empty,
          List.take_zero, List.take_zero]
    · simp only [empty, ↓reduceIte]
      exact ⟨wf.setCapacity low maximum,
        received_setCapacity wf.size_le_block (Nat.le_trans smaller holds)⟩
  · exact ⟨wf, rfl⟩

theorem WellFormed.didConsume {b : ReadIOBuffer} {bytes : Nat} (wf : b.WellFormed)
    (inside : bytes ≤ b.getSize) :
    (b.didConsume bytes).WellFormed ∧ (b.didConsume bytes).received = b.received.drop bytes := by
  obtain ⟨moved, kept⟩ := wf.moveUnconsumed inside
  have smaller : (b.moveUnconsumed bytes).getSize ≤ b.getSize := Nat.sub_le _ _
  obtain ⟨reduced, same⟩ := moved.reduceCapacity smaller
  exact ⟨reduced, same.trans kept⟩

theorem WellFormed.getSize_didConsume {b : ReadIOBuffer} {bytes : Nat} (wf : b.WellFormed)
    (inside : bytes ≤ b.getSize) : (b.didConsume bytes).getSize = b.getSize - bytes := by
  obtain ⟨consumed, kept⟩ := wf.didConsume inside
  rw [← consumed.received_length, kept, List.length_drop, wf.received_length]

end ReadIOBuffer

end DistributedNinja.Rpc
