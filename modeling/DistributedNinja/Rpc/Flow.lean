import DistributedNinja.Rpc.Endpoint
import DistributedNinja.Rpc.Link

namespace DistributedNinja.Rpc

open Lib

namespace RpcConnection

variable {Done : Type}

/-- The bytes that `Write` takes off the buffer while `DoWriteLoop` gets these answers; `none` when it takes more than
    it was given. -/
def transmit : List Int → QueuedWriteIOBuffer → Option (List UInt8)
  | [], _ => some []
  | rv :: rest, b =>
    if b.getSizeToWrite = 0 ∨ rv ≤ 0 then some []
    else if rv.toNat ≤ b.getSizeToWrite then
      (transmit rest (b.didConsume rv.toNat)).map (b.bytesToWrite rv.toNat ++ ·)
    else none

def transmitCompleted (rv : Int) (answers : List Int) (b : QueuedWriteIOBuffer) : Option (List UInt8) :=
  if rv < 0 then some []
  else if rv.toNat ≤ b.getSizeToWrite then
    (transmit answers (b.didConsume rv.toNat)).map (b.bytesToWrite rv.toNat ++ ·)
  else none

structure Taken (before after : QueuedWriteIOBuffer) (bytes : List UInt8) : Prop where
  formed : after.WellFormed
  whole : bytes ++ after.pendingBytes = before.pendingBytes

theorem taken_nothing {b : QueuedWriteIOBuffer} (wf : b.WellFormed) : Taken b b [] := ⟨wf, rfl⟩

theorem taken_didConsume {b : QueuedWriteIOBuffer} (wf : b.WellFormed) {size : Nat} (inside : size ≤ b.getSizeToWrite) :
    Taken b (b.didConsume size) (b.bytesToWrite size) := by
  rcases Nat.eq_zero_or_pos size with rfl | positive
  · have nothing : b.bytesToWrite 0 = [] := by
      unfold QueuedWriteIOBuffer.bytesToWrite
      split <;> simp
    rw [nothing]
    exact taken_nothing wf
  · obtain ⟨formed, whole, _⟩ := wf.didConsume positive inside
    exact ⟨formed, whole⟩

theorem Taken.then {before middle after : QueuedWriteIOBuffer} {first second : List UInt8}
    (taken : Taken before middle first) (more : Taken middle after second) : Taken before after (first ++ second) := by
  constructor
  · exact more.formed
  · rw [List.append_assoc, more.whole, taken.whole]

theorem doWriteLoop_taken {answers : List Int} {c : RpcConnection Done} {bytes : List UInt8}
    (wf : c.writeBuf.WellFormed) (holds : (c.doWriteLoop answers).2 ≠ .checkFailed)
    (sent : transmit answers c.writeBuf = some bytes) :
    Taken c.writeBuf (c.doWriteLoop answers).1.writeBuf bytes := by
  induction answers generalizing c bytes with
  | nil =>
    cases sent
    unfold doWriteLoop
    dsimp only
    split_ifs <;> exact taken_nothing wf
  | cons rv rest ih =>
    unfold transmit at sent
    unfold doWriteLoop at holds ⊢
    dsimp only at holds ⊢
    by_cases drained : c.writeBuf.getSizeToWrite = 0
    · rw [if_pos (.inl drained)] at sent
      cases sent
      rw [if_pos drained]
      exact taken_nothing wf
    · rw [if_neg drained] at holds ⊢
      by_cases pending : c.writeCallback = true
      · rw [if_pos pending] at holds
        exact absurd rfl holds
      · rw [if_neg pending] at holds ⊢
        by_cases nonpositive : rv ≤ 0
        · rw [if_pos (.inr nonpositive)] at sent
          cases sent
          split_ifs with waits nothing failed
          · exact taken_nothing wf
          · exact taken_nothing wf
          · exact taken_nothing wf
          · omega
        · have positive : ¬ (c.writeBuf.getSizeToWrite = 0 ∨ rv ≤ 0) := by simp [drained, nonpositive]
          have counted : rv ≠ errIoPending ∧ rv ≠ 0 ∧ ¬ rv < 0 := by
            unfold errIoPending
            omega
          rw [if_neg positive] at sent
          rw [if_neg counted.1, if_neg counted.2.1, if_neg counted.2.2] at holds ⊢
          split at sent
          · rename_i inside
            obtain ⟨later, more, rfl⟩ := Option.map_eq_some_iff.mp sent
            have first := taken_didConsume wf inside
            exact first.then (ih (c := { c with writeBuf := c.writeBuf.didConsume rv.toNat }) first.formed holds more)
          · cases sent

theorem onWriteCompleted_taken {rv : Int} {answers : List Int} {c : RpcConnection Done} {bytes : List UInt8}
    (wf : c.writeBuf.WellFormed) (sent : transmitCompleted rv answers c.writeBuf = some bytes) :
    Taken c.writeBuf (c.onWriteCompleted rv answers).1.writeBuf bytes := by
  have holds := (c.onWriteCompleted_idle rv answers).1
  unfold transmitCompleted at sent
  unfold onWriteCompleted at holds ⊢
  dsimp only at holds ⊢
  by_cases failed : rv < 0
  · rw [if_pos failed] at sent ⊢
    cases sent
    exact taken_nothing wf
  · rw [if_neg failed] at sent holds ⊢
    split at sent
    · rename_i inside
      obtain ⟨later, more, rfl⟩ := Option.map_eq_some_iff.mp sent
      have first := taken_didConsume wf inside
      exact first.then (doWriteLoop_taken first.formed holds more)
    · cases sent

end RpcConnection

/-- One direction of a connection between two passes of the receiving frame loop: what was sent is what the other end
    has parsed and what is on its way, and the frames of the latter are the bytes in the two buffers and on the wire.
    Where the frame loop has found no whole frame and nothing was read since, the read buffer holds none. -/
structure Flow (pb : Protobuf) (sent inbox : List RpcMessage) (queue : QueuedWriteIOBuffer) (wire : List UInt8)
    (buffer : ReadIOBuffer) (parted : Prop) : Prop where
  queued : queue.WellFormed
  formed : buffer.WellFormed
  small : ∀ m ∈ sent, (pb.frame m).length ≤ ReadIOBuffer.kDefaultMaxBufferSize
  stream : ∃ rest, sent = inbox ++ rest ∧
    buffer.received ++ (wire ++ queue.pendingBytes) = (rest.map pb.frame).flatten ∧
    (parted → ∀ m others, rest = m :: others → buffer.getSize < (pb.frame m).length)

namespace Flow

variable {pb : Protobuf} {sent inbox : List RpcMessage} {queue : QueuedWriteIOBuffer} {wire : List UInt8}
  {buffer : ReadIOBuffer} {parted : Prop}

theorem start (pb : Protobuf) : Flow pb [] [] .new [] .new parted := by
  refine ⟨QueuedWriteIOBuffer.new_wellFormed, ReadIOBuffer.new_wellFormed, nofun, [], rfl, ?_, fun _ => nofun⟩
  rw [ReadIOBuffer.new_received]
  rfl

theorem imp (flow : Flow pb sent inbox queue wire buffer parted) {other : Prop} (implies : other → parted) :
    Flow pb sent inbox queue wire buffer other := by
  obtain ⟨formed, read, small, rest, parts, stream, proper⟩ := flow
  exact ⟨formed, read, small, rest, parts, stream, fun holds => proper (implies holds)⟩

theorem append (flow : Flow pb sent inbox queue wire buffer parted) {m : RpcMessage}
    (size : (pb.serializeAsString m).length < kMaxMessageSize) :
    Flow pb (if (queue.append (pb.frame m)).1 then sent ++ [m] else sent) inbox (queue.append (pb.frame m)).2 wire
      buffer parted := by
  obtain ⟨formed, read, small, rest, parts, stream, proper⟩ := flow
  have length := pb.frame_length m
  simp only [kMaxMessageSize] at size
  cases answer : (queue.append (pb.frame m)).1 with
  | false =>
    rw [QueuedWriteIOBuffer.append_refused answer]
    exact ⟨formed, read, small, rest, parts, stream, proper⟩
  | true =>
    obtain ⟨next, pending, fits⟩ := formed.append (by omega) answer
    have limit := formed.limit
    have same : QueuedWriteIOBuffer.kDefaultMaxBufferSize = ReadIOBuffer.kDefaultMaxBufferSize := rfl
    refine ⟨next, read, ?_, rest ++ [m], ?_, ?_, ?_⟩
    · intro other member
      rcases List.mem_append.mp member with member | member
      · exact small other member
      · rw [List.mem_singleton.mp member]
        omega
    · rw [if_pos rfl, parts, List.append_assoc]
    · rw [pending, List.map_append, List.flatten_append, ← stream]
      simp
    · intro holds first others shape
      cases rest with
      | cons head tail =>
        cases shape
        exact proper holds _ tail rfl
      | nil =>
        cases shape
        have empty : buffer.received = [] := (List.append_eq_nil_iff.mp stream).1
        rw [← read.received_length, empty, List.length_nil]
        omega

theorem taken (flow : Flow pb sent inbox queue wire buffer parted) {after : QueuedWriteIOBuffer} {bytes : List UInt8}
    (taken : RpcConnection.Taken queue after bytes) : Flow pb sent inbox after (wire ++ bytes) buffer parted := by
  obtain ⟨_, read, small, rest, parts, stream, proper⟩ := flow
  refine ⟨taken.formed, read, small, rest, parts, ?_, proper⟩
  rw [List.append_assoc wire, taken.whole]
  exact stream

theorem room (flow : Flow pb sent inbox queue wire buffer parted) {room : ReadIOBuffer} (formed : room.WellFormed)
    (same : room.received = buffer.received) : Flow pb sent inbox queue wire room parted := by
  obtain ⟨queued, read, small, rest, parts, stream, proper⟩ := flow
  refine ⟨queued, formed, small, rest, parts, ?_, ?_⟩
  · rw [same]
    exact stream
  · rw [← formed.received_length, same, read.received_length]
    exact proper

theorem read (flow : Flow pb sent inbox queue wire buffer parted) {size : Nat} {next : ReadIOBuffer}
    (filled : completeRead buffer (wire.take size) = some next) :
    Flow pb sent inbox queue (wire.drop size) next False := by
  obtain ⟨queued, formed, small, rest, parts, stream, _⟩ := flow
  unfold completeRead at filled
  split at filled
  · rename_i fits
    cases filled
    obtain ⟨wellFormed, received, _⟩ := formed.didRead fits.2
    refine ⟨queued, wellFormed, small, rest, parts, ?_, nofun⟩
    rw [received, List.append_assoc, ← List.append_assoc (wire.take size), List.take_append_drop]
    exact stream
  · cases filled

theorem frameBody_cases (flow : Flow pb sent inbox queue wire buffer parted) :
    (frameBody pb.parseFromArray buffer = none ∧ Flow pb sent inbox queue wire buffer True) ∨
      ∃ m next, frameBody pb.parseFromArray buffer = some (some m, next) ∧
        Flow pb sent (inbox ++ [m]) queue wire next False := by
  obtain ⟨queued, formed, small, rest, parts, stream, proper⟩ := flow
  cases rest with
  | nil =>
    have empty : buffer.received = [] := (List.append_eq_nil_iff.mp stream).1
    have nothing : buffer.getSize = 0 := by rw [← formed.received_length, empty, List.length_nil]
    refine .inl ⟨Protobuf.frameBody_empty nothing _, queued, formed, small, [], parts, stream, ?_⟩
    intro _ m others shape
    cases shape
  | cons m others =>
    have bound := small m (by rw [parts]; simp)
    have size : (pb.serializeAsString m).length < kMaxMessageSize := by
      rw [pb.frame_length] at bound
      simp only [ReadIOBuffer.kDefaultMaxBufferSize] at bound
      simp only [kMaxMessageSize]
      omega
    rw [List.map_cons, List.flatten_cons] at stream
    by_cases short : buffer.getSize < (pb.frame m).length
    · refine .inl ⟨?_, queued, formed, small, m :: others, parts, ?_, ?_⟩
      · exact pb.frameBody_partial m size formed ⟨_, stream⟩ short
      · rw [List.map_cons, List.flatten_cons]
        exact stream
      · intro _ first later shape
        cases shape
        exact short
    · rw [← formed.received_length] at short
      obtain ⟨more, received, left⟩ : ∃ more, buffer.received = pb.frame m ++ more ∧
          more ++ (wire ++ queue.pendingBytes) = (others.map pb.frame).flatten := by
        rcases List.append_eq_append_iff.mp stream with ⟨behind, whole, _⟩ | ⟨more, received, left⟩
        · have length := congrArg List.length whole
          rw [List.length_append] at length
          have nothing : behind = [] := List.length_eq_zero_iff.mp (by omega)
          rw [nothing, List.append_nil] at whole
          refine ⟨[], by rw [List.append_nil, whole], ?_⟩
          rw [← whole] at stream
          exact List.append_cancel_left stream
        · exact ⟨more, received, left.symm⟩
      obtain ⟨next, pass, wellFormed, kept⟩ := pb.frameBody_frame m size formed received
      refine .inr ⟨m, next, pass, queued, wellFormed, small, others, ?_, ?_, False.elim⟩
      · rw [parts, List.append_assoc]
        rfl
      · rw [kept]
        exact left

theorem makeRoom_some (flow : Flow pb sent inbox queue wire buffer parted) (holds : parted) :
    ∃ room, makeRoom buffer = some room ∧ Flow pb sent inbox queue wire room parted ∧
      room.getSize = buffer.getSize := by
  have ⟨_, formed, small, rest, parts, stream, proper⟩ := flow
  have below : buffer.getSize < ReadIOBuffer.kDefaultMaxBufferSize := by
    cases rest with
    | nil =>
      have empty : buffer.received = [] := (List.append_eq_nil_iff.mp stream).1
      rw [← formed.received_length, empty]
      decide
    | cons m others => exact Nat.lt_of_lt_of_le (proper holds m others rfl) (small m (by rw [parts]; simp))
  obtain ⟨room, made, wellFormed, same, _⟩ := Rpc.makeRoom_some formed below
  refine ⟨room, made, flow.room wellFormed same, ?_⟩
  rw [← wellFormed.received_length, same, formed.received_length]

theorem inbox_prefix (flow : Flow pb sent inbox queue wire buffer parted) : inbox <+: sent := by
  obtain ⟨_, _, _, rest, parts, _⟩ := flow
  exact ⟨rest, parts.symm⟩

theorem drained (flow : Flow pb sent inbox queue wire buffer parted) (holds : parted) (idle : queue.isEmpty = true)
    (silent : wire = []) : inbox = sent := by
  obtain ⟨_, formed, _, rest, parts, stream, proper⟩ := flow
  have nothing : queue.pendingBytes = [] := by rw [QueuedWriteIOBuffer.pendingBytes, List.isEmpty_iff.mp idle]
  rw [silent, nothing, List.append_nil, List.append_nil] at stream
  cases rest with
  | nil => rw [parts, List.append_nil]
  | cons m others =>
    have short := proper holds m others rfl
    rw [← formed.received_length, stream, List.map_cons, List.flatten_cons, List.length_append] at short
    omega

end Flow

end DistributedNinja.Rpc
