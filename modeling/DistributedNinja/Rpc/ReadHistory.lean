import DistributedNinja.Lib.Run
import DistributedNinja.Rpc.ReadIOBuffer

namespace DistributedNinja.Rpc

open Lib Net

namespace ReadIOBuffer

variable {b : ReadIOBuffer}

/-- `SetCapacity` of a debug build; `none` when a `DCHECK` fires, here or in `GrowableIOBuffer`. -/
def setCapacityChecked (b : ReadIOBuffer) (capacity : Int) : Option ReadIOBuffer :=
  if b.getSize ≤ capacity then
    (b.base.setCapacityChecked capacity).map fun base => { b with base := base, data := base.data }
  else none

def newChecked : Option ReadIOBuffer :=
  setCapacityChecked ⟨GrowableIOBuffer.new, 0, kDefaultMaxBufferSize⟩ kInitialBufSize

def increaseCapacityChecked (b : ReadIOBuffer) : Option (Bool × ReadIOBuffer) :=
  if b.getCapacity ≥ b.maxBufferSize then some (false, b)
  else
    let doubled := b.getCapacity * kCapacityIncreaseFactor
    (b.setCapacityChecked (if doubled > b.maxBufferSize then b.maxBufferSize else doubled : Nat)).map (true, ·)

def didReadChecked (b : ReadIOBuffer) (bytes : Int) : Option ReadIOBuffer :=
  if bytes ≤ (b.base.capacity : Int) - b.base.offset then
    (b.base.setOffsetChecked (b.base.offset + bytes)).map fun base => { b with base := base, data := base.data }
  else none

def reduceCapacityChecked (b : ReadIOBuffer) (previousSize : Nat) (unconsumedSize : Int) : Option ReadIOBuffer :=
  if b.getCapacity > kMinimumBufSize ∧ b.getCapacity > previousSize * kCapacityIncreaseFactor then
    let half := b.getCapacity / kCapacityIncreaseFactor
    let newCapacity := if half < kMinimumBufSize then kMinimumBufSize else half
    if unconsumedSize = 0 then
      (b.base.setCapacityChecked 0).bind fun base => setCapacityChecked { b with base := base } newCapacity
    else b.setCapacityChecked newCapacity
  else some b

def didConsumeChecked (b : ReadIOBuffer) (bytes : Int) : Option ReadIOBuffer :=
  let previousSize := b.getSize
  let unconsumedSize := previousSize - bytes
  if 0 ≤ unconsumedSize then
    let block :=
      if unconsumedSize > 0 then moveToStart b.base.realData bytes.toNat unconsumedSize.toNat
      else b.base.realData
    (GrowableIOBuffer.setOffsetChecked { b.base with realData := block } unconsumedSize).bind fun base =>
      reduceCapacityChecked { b with base := base, data := base.data } previousSize unconsumedSize
  else none

theorem setCapacityChecked_eq {capacity : Nat} (fits : b.getSize ≤ capacity) :
    b.setCapacityChecked capacity = some (b.setCapacity capacity) := by
  rw [setCapacityChecked, if_pos (by omega), GrowableIOBuffer.setCapacityChecked_eq]
  rfl

theorem newChecked_eq : newChecked = some new := setCapacityChecked_eq (Nat.zero_le _)

theorem WellFormed.increaseCapacityChecked (wf : b.WellFormed) :
    b.increaseCapacityChecked = some (b.increaseCapacity.isSome, b.increaseCapacity.getD b) := by
  have inside := wf.size_le_capacity
  unfold ReadIOBuffer.increaseCapacityChecked ReadIOBuffer.increaseCapacity
  split
  · rfl
  · dsimp only
    rw [setCapacityChecked_eq]
    · rfl
    · have limit : b.getSize ≤ b.maxBufferSize := by omega
      have doubled : b.getSize ≤ b.getCapacity * kCapacityIncreaseFactor :=
        Nat.le_trans inside (Nat.le_mul_of_pos_right _ (by decide))
      split
      · exact limit
      · exact doubled

theorem didReadChecked_eq {bytes : Nat} (fits : b.base.offset + bytes ≤ b.base.capacity) :
    b.didReadChecked bytes = some (b.didRead bytes) := by
  rw [didReadChecked, if_pos (by omega), ← Int.natCast_add, GrowableIOBuffer.setOffsetChecked_eq fits]
  rfl

theorem reduceCapacityChecked_eq {previousSize : Nat} (smaller : b.getSize ≤ previousSize) :
    b.reduceCapacityChecked previousSize b.getSize = some (b.reduceCapacity previousSize) := by
  unfold reduceCapacityChecked reduceCapacity
  by_cases shrink : b.getCapacity > kMinimumBufSize ∧ b.getCapacity > previousSize * kCapacityIncreaseFactor
  · rw [if_pos shrink, if_pos shrink]
    obtain ⟨holds, _, _⟩ := reduced_capacity_holds shrink.1 shrink.2
    by_cases empty : b.getSize = 0
    · have freed : b.base.setCapacityChecked 0 = some (b.base.setCapacity 0) :=
        GrowableIOBuffer.setCapacityChecked_eq b.base 0
      have none_left : (⟨b.base.setCapacity 0, b.data, b.maxBufferSize⟩ : ReadIOBuffer).getSize = 0 := by
        simp [getSize, GrowableIOBuffer.setCapacity_offset]
      simp only [empty, Int.cast_ofNat_Int, if_true, freed, Option.bind_some]
      exact setCapacityChecked_eq (by omega)
    · have some_left : ¬ (b.getSize : Int) = 0 := by omega
      simp only [empty, some_left, if_false]
      exact setCapacityChecked_eq (Nat.le_trans smaller holds)
  · rw [if_neg shrink, if_neg shrink]

theorem WellFormed.didConsumeChecked {bytes : Nat} (wf : b.WellFormed) (inside : bytes ≤ b.getSize) :
    b.didConsumeChecked bytes = some (b.didConsume bytes) := by
  have size := wf.size_le_capacity
  have left : (b.getSize : Int) - bytes = (b.getSize - bytes : Nat) := by omega
  have kept : b.getSize - bytes ≤ b.base.capacity := Nat.le_trans (Nat.sub_le _ _) size
  unfold ReadIOBuffer.didConsumeChecked
  simp only [left, Int.natCast_nonneg, if_true, Int.toNat_natCast, Int.natCast_pos, gt_iff_lt]
  rw [GrowableIOBuffer.setOffsetChecked_eq (by exact kept), Option.bind_some]
  exact reduceCapacityChecked_eq (b := b.moveUnconsumed bytes) (Nat.sub_le _ _)

end ReadIOBuffer

/-- A buffer with what was done to it: the bytes that were read into it and how many of them were consumed. -/
structure ReadHistory where
  buffer : ReadIOBuffer
  bytesRead : List UInt8
  consumed : Nat

inductive ReadOp where
  | increaseCapacity
  | didRead (bytes : List UInt8)
  | didConsume (bytes : Nat)

namespace ReadHistory

variable {h : ReadHistory} {op : ReadOp}

def new : ReadHistory := ⟨.new, [], 0⟩

def allows (h : ReadHistory) : ReadOp → Prop
  | .increaseCapacity => True
  | .didRead bytes => bytes.length ≤ h.buffer.remainingCapacity
  | .didConsume bytes => bytes ≤ h.buffer.getSize

instance : Decidable (h.allows op) := by
  cases op <;> unfold allows <;> infer_instance

/-- `none` when a `DCHECK` fires. The bytes of `DidRead` have been written to `data()` before. -/
def step (h : ReadHistory) : ReadOp → Option ReadHistory
  | .increaseCapacity => h.buffer.increaseCapacityChecked.map fun (_, b) => { h with buffer := b }
  | .didRead bytes => ((h.buffer.fill bytes).didReadChecked bytes.length).map fun b =>
      { h with buffer := b, bytesRead := h.bytesRead ++ bytes }
  | .didConsume bytes => (h.buffer.didConsumeChecked bytes).map fun b =>
      { h with buffer := b, consumed := h.consumed + bytes }

structure Sound (h : ReadHistory) : Prop where
  size : 0 ≤ h.buffer.getSize ∧ h.buffer.getSize ≤ h.buffer.getCapacity
  capacity : ReadIOBuffer.kMinimumBufSize ≤ h.buffer.getCapacity ∧
    h.buffer.getCapacity ≤ ReadIOBuffer.kDefaultMaxBufferSize
  data : h.buffer.data = h.buffer.getSize
  count : h.consumed + h.buffer.getSize = h.bytesRead.length
  kept : h.buffer.startOfBuffer.take h.buffer.getSize = h.bytesRead.drop h.consumed

structure Keeps (h : ReadHistory) : Prop where
  wf : h.buffer.WellFormed
  consumed : h.consumed ≤ h.bytesRead.length
  kept : h.buffer.received = h.bytesRead.drop h.consumed

theorem new_keeps : new.Keeps := ⟨ReadIOBuffer.new_wellFormed, Nat.le_refl _, ReadIOBuffer.new_received⟩

theorem Keeps.count (keeps : h.Keeps) : h.consumed + h.buffer.getSize = h.bytesRead.length := by
  rw [← keeps.wf.received_length, keeps.kept, List.length_drop, Nat.add_sub_cancel' keeps.consumed]

theorem Keeps.sound (keeps : h.Keeps) : h.Sound := by
  have count := keeps.count
  obtain ⟨wf, consumed, kept⟩ := keeps
  exact ⟨⟨Nat.zero_le _, wf.size_le_capacity⟩, ⟨wf.minimum, wf.maximum⟩, wf.pointer, count, kept⟩

theorem Keeps.step (keeps : h.Keeps) (allowed : h.allows op) : ∃ k, h.step op = some k ∧ k.Keeps := by
  have count := keeps.count
  obtain ⟨wf, consumed, kept⟩ := keeps
  cases op with
  | increaseCapacity =>
    refine ⟨_, by rw [ReadHistory.step, wf.increaseCapacityChecked, Option.map_some], ?_⟩
    by_cases full : h.buffer.getCapacity < ReadIOBuffer.kDefaultMaxBufferSize
    · obtain ⟨grown, answer, wellFormed, same, _⟩ := wf.increaseCapacity full
      rw [answer]
      exact ⟨wellFormed, consumed, same.trans kept⟩
    · have refused : h.buffer.increaseCapacity = none := by
        rw [ReadIOBuffer.increaseCapacity, if_pos (by rw [wf.limit]; omega)]
      rw [refused]
      exact ⟨wf, consumed, kept⟩
  | didRead bytes =>
    obtain ⟨wellFormed, appended, _⟩ := wf.didRead allowed
    have inside := wf.base.inside
    have fits : h.buffer.base.offset + bytes.length ≤ h.buffer.base.capacity := by
      simp only [allows, ReadIOBuffer.remainingCapacity, GrowableIOBuffer.remainingCapacity] at allowed
      omega
    have checked := ReadIOBuffer.didReadChecked_eq (b := h.buffer.fill bytes) fits
    refine ⟨_, by rw [ReadHistory.step, checked, Option.map_some], wellFormed, ?_, ?_⟩
    · simp only [List.length_append]
      omega
    · rw [appended, kept, List.drop_append_of_le_length consumed]
  | didConsume bytes =>
    obtain ⟨wellFormed, dropped⟩ := wf.didConsume allowed
    refine ⟨_, by rw [ReadHistory.step, wf.didConsumeChecked allowed, Option.map_some], wellFormed, ?_, ?_⟩
    · have enough : bytes ≤ h.buffer.getSize := allowed
      show h.consumed + bytes ≤ h.bytesRead.length
      omega
    · rw [dropped, kept, List.drop_drop]

/-- No `DCHECK` fires, in the constructor or later, and the data at the start of the buffer is what was read and
    not consumed. -/
theorem read_buffer_exact (ops : List ReadOp) (along : Along step allows new ops) :
    ReadIOBuffer.newChecked = some new.buffer ∧ ∃ h, run step new ops = some h ∧ h.Sound := by
  obtain ⟨h, replay, keeps⟩ := run_total_along (fun _ _ keeps allowed => keeps.step allowed)
    new_keeps along
  exact ⟨ReadIOBuffer.newChecked_eq, h, replay, keeps.sound⟩

def freedAndGrown : List ReadOp :=
  [.didRead [1, 2, 3], .didConsume 3, .didRead [4, 5], .increaseCapacity, .didConsume 1, .didConsume 0]

theorem read_buffer_exact_freedAndGrown : ∃ h, run step new freedAndGrown = some h ∧ h.Sound :=
  (read_buffer_exact freedAndGrown (by decide +kernel)).2

end ReadHistory

end DistributedNinja.Rpc
