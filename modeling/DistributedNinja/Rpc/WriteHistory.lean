import DistributedNinja.Lib.Run
import DistributedNinja.Rpc.QueuedWriteIOBuffer

namespace DistributedNinja.Rpc

open Lib

namespace QueuedWriteIOBuffer

variable {q : QueuedWriteIOBuffer}

/-- `GetSizeToWrite` of a debug build; `none` when a `DCHECK` fires. `NULL` is below every string. -/
def getSizeToWriteChecked (q : QueuedWriteIOBuffer) : Option Nat :=
  match q.pendingData, q.data with
  | [], _ => if q.totalSize = 0 then some 0 else none
  | _ :: _, none => none
  | front :: _, some consumed => if consumed < front.length then some (front.length - consumed) else none

def didConsumeChecked (q : QueuedWriteIOBuffer) (size : Nat) : Option QueuedWriteIOBuffer :=
  if size ≤ q.totalSize then
    q.getSizeToWriteChecked.bind fun sizeToWrite =>
      if size ≤ sizeToWrite then some (q.didConsume size) else none
  else none

theorem WellFormed.getSizeToWriteChecked (wf : q.WellFormed) :
    q.getSizeToWriteChecked = some q.getSizeToWrite := by
  have total := wf.total
  unfold QueuedWriteIOBuffer.getSizeToWriteChecked getSizeToWrite
  rcases wf.cases with ⟨shape, pointer⟩ | ⟨front, rest, consumed, shape, pointer, inside⟩
  · rw [pendingBytes, shape] at total
    simp [shape, total]
  · simp [shape, pointer, inside]

theorem WellFormed.sizeToWrite_le (wf : q.WellFormed) : q.getSizeToWrite ≤ q.totalSize := by
  rw [wf.total]
  unfold getSizeToWrite pendingBytes
  cases q.pendingData with
  | nil => exact Nat.zero_le _
  | cons front rest =>
    simp only [List.length_append, List.length_drop]
    omega

theorem WellFormed.didConsumeChecked {size : Nat} (wf : q.WellFormed) (inside : size ≤ q.getSizeToWrite) :
    q.didConsumeChecked size = some (q.didConsume size) := by
  rw [QueuedWriteIOBuffer.didConsumeChecked, if_pos (Nat.le_trans inside wf.sizeToWrite_le),
    wf.getSizeToWriteChecked, Option.bind_some, if_pos inside]

end QueuedWriteIOBuffer

/-- A queue with what was done to it: the strings it has accepted and the bytes that were consumed. -/
structure WriteHistory where
  buffer : QueuedWriteIOBuffer
  accepted : List (List UInt8)
  consumed : List UInt8

inductive WriteOp where
  | append (data : List UInt8)
  | didConsume (size : Nat)

namespace WriteHistory

variable {h : WriteHistory} {op : WriteOp}

def new : WriteHistory := ⟨.new, [], []⟩

def allows (h : WriteHistory) : WriteOp → Prop
  | .append data => data.length ≤ 2 ^ 30
  | .didConsume size => size ≤ h.buffer.getSizeToWrite

instance : Decidable (h.allows op) := by
  cases op <;> unfold allows <;> infer_instance

/-- `none` when a `DCHECK` fires. The bytes that are consumed are those at `data()`. -/
def step (h : WriteHistory) : WriteOp → Option WriteHistory
  | .append data =>
    let (ok, buffer) := h.buffer.append data
    some { h with buffer := buffer, accepted := if ok then h.accepted ++ [data] else h.accepted }
  | .didConsume size => (h.buffer.didConsumeChecked size).map fun buffer =>
      { h with buffer := buffer, consumed := h.consumed ++ h.buffer.bytesToWrite size }

/-- `pointer` says where `data_` is, and `refused` what a refused `Append` would do now. -/
structure Sound (h : WriteHistory) : Prop where
  lossless : h.consumed ++ h.buffer.pendingBytes = h.accepted.flatten
  total : h.consumed.length + h.buffer.totalSize = h.accepted.flatten.length
  bounded : h.buffer.totalSize ≤ h.buffer.maxBufferSize
  pointer : match h.buffer.pendingData with
    | [] => h.buffer.data = none
    | front :: _ => ∃ at_, h.buffer.data = some at_ ∧ at_ < front.length
  drained : h.buffer.getSizeToWrite = 0 ↔ h.buffer.isEmpty = true
  checks : h.buffer.getSizeToWriteChecked = some h.buffer.getSizeToWrite
  refused : ∀ data, (h.buffer.append data).1 = false → (h.buffer.append data).2 = h.buffer

structure Keeps (h : WriteHistory) : Prop where
  wf : h.buffer.WellFormed
  lossless : h.consumed ++ h.buffer.pendingBytes = h.accepted.flatten

theorem new_keeps : new.Keeps := ⟨QueuedWriteIOBuffer.new_wellFormed, rfl⟩

theorem Keeps.sound (keeps : h.Keeps) : h.Sound := by
  obtain ⟨wf, lossless⟩ := keeps
  constructor
  · exact lossless
  · rw [wf.total, ← lossless, List.length_append]
  · exact wf.bounded
  · exact wf.pointer
  · have content := wf.getSizeToWrite_pos
    rw [QueuedWriteIOBuffer.isEmpty, List.isEmpty_iff]
    constructor
    · intro nothing
      by_contra some_left
      have positive := content.mpr some_left
      omega
    · intro empty
      by_contra some_left
      exact content.mp (Nat.pos_of_ne_zero some_left) empty
  · exact wf.getSizeToWriteChecked
  · exact fun data refused => QueuedWriteIOBuffer.append_refused refused

theorem Keeps.step (keeps : h.Keeps) (allowed : h.allows op) : ∃ k, h.step op = some k ∧ k.Keeps := by
  obtain ⟨wf, lossless⟩ := keeps
  cases op with
  | append data =>
    have small : data.length < 2 ^ 31 := Nat.lt_of_le_of_lt allowed (by decide)
    have stepped : h.step (.append data) = some ⟨(h.buffer.append data).2,
        if (h.buffer.append data).1 then h.accepted ++ [data] else h.accepted, h.consumed⟩ := rfl
    refine ⟨_, stepped, ?_⟩
    cases answer : (h.buffer.append data).1 with
    | false =>
      rw [QueuedWriteIOBuffer.append_refused answer]
      exact ⟨wf, lossless⟩
    | true =>
      obtain ⟨wellFormed, pending, _⟩ := wf.append small answer
      constructor
      · exact wellFormed
      · show h.consumed ++ (h.buffer.append data).2.pendingBytes = (h.accepted ++ [data]).flatten
        rw [pending, ← List.append_assoc, lossless, List.flatten_append, List.flatten_singleton]
  | didConsume size =>
    refine ⟨_, by rw [WriteHistory.step, wf.didConsumeChecked allowed, Option.map_some], ?_⟩
    rcases Nat.eq_zero_or_pos size with rfl | positive
    · have nothing : h.buffer.bytesToWrite 0 = [] := by
        unfold QueuedWriteIOBuffer.bytesToWrite
        split <;> simp
      constructor
      · exact wf
      · show (h.consumed ++ h.buffer.bytesToWrite 0) ++ h.buffer.pendingBytes = _
        rw [nothing, List.append_nil]
        exact lossless
    · obtain ⟨wellFormed, whole, _⟩ := wf.didConsume positive allowed
      constructor
      · exact wellFormed
      · show (h.consumed ++ h.buffer.bytesToWrite size) ++ (h.buffer.didConsume size).pendingBytes = _
        rw [List.append_assoc, whole]
        exact lossless

/-- No `DCHECK` fires, and what was consumed with what is still pending is what was accepted. -/
theorem write_buffer_lossless (ops : List WriteOp) (along : Along step allows new ops) :
    ∃ h, run step new ops = some h ∧ h.Sound := by
  obtain ⟨h, replay, keeps⟩ := run_total_along (fun _ _ keeps allowed => keeps.step allowed)
    new_keeps along
  exact ⟨h, replay, keeps.sound⟩

def inParts : List WriteOp :=
  [.append [1, 2, 3], .append [], .didConsume 2, .append [4, 5], .didConsume 1, .didConsume 0, .didConsume 2]

theorem write_buffer_lossless_inParts : ∃ h, run step new inParts = some h ∧ h.Sound :=
  write_buffer_lossless inParts (by decide +kernel)

end WriteHistory

end DistributedNinja.Rpc
