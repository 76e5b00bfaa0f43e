import DistributedNinja.Lib.Run
import DistributedNinja.Lib.Segments
import DistributedNinja.Rpc.FrameLoop
import DistributedNinja.Rpc.Wire

namespace DistributedNinja.Rpc

open Lib

theorem ReadIOBuffer.startOfBuffer_eq (b : ReadIOBuffer) :
    b.startOfBuffer = b.received ++ b.startOfBuffer.drop b.getSize :=
  (List.take_append_drop _ _).symm

namespace Protobuf

variable {S : Type} (pb : Protobuf)

theorem serialize_positive (m : RpcMessage) : 0 < (pb.serializeAsString m).length :=
  List.length_pos_iff.mpr (pb.serialize_ne_nil m)

theorem messageLength_frame {b : ReadIOBuffer} (m : RpcMessage)
    (size : (pb.serializeAsString m).length < kMaxMessageSize) (wf : b.WellFormed)
    {more : List UInt8} (header : 4 ≤ b.getSize) (front : b.received <+: pb.frame m ++ more) :
    (messageLength b).toNat = (pb.serializeAsString m).length := by
  obtain ⟨rest, stream⟩ := front
  have bound : (pb.serializeAsString m).length < 2 ^ 32 := by
    simp only [kMaxMessageSize] at size
    omega
  have same : readBigEndian b.received = readBigEndian (b.received ++ rest) := by
    rw [readBigEndian, readBigEndian, List.take_append_of_le_length]
    rw [wf.received_length]
    exact header
  rw [messageLength_eq header, same, stream, Protobuf.frame, List.append_assoc,
    readBigEndian_writeBigEndian, UInt32.toNat_ofNat', Nat.mod_eq_of_lt bound]

theorem frameSize_frame {b : ReadIOBuffer} (m : RpcMessage)
    (size : (pb.serializeAsString m).length < kMaxMessageSize) (wf : b.WellFormed)
    {more : List UInt8} (header : 4 ≤ b.getSize) (front : b.received <+: pb.frame m ++ more) :
    (frameSize b).toNat = (pb.frame m).length := by
  have length := pb.messageLength_frame m size wf header front
  simp only [kMaxMessageSize] at size
  rw [frameSize_toNat, length, pb.frame_length, Nat.mod_eq_of_lt (by omega)]

theorem frameBody_frame {b : ReadIOBuffer} (m : RpcMessage) {more : List UInt8}
    (size : (pb.serializeAsString m).length < kMaxMessageSize) (wf : b.WellFormed)
    (front : b.received = pb.frame m ++ more) :
    ∃ next, frameBody pb.parseFromArray b = some (some m, next) ∧ next.WellFormed ∧
      next.received = more := by
  have positive := pb.serialize_positive m
  have length := pb.frame_length m
  have total : b.getSize = (pb.frame m).length + more.length := by
    rw [← wf.received_length, front, List.length_append]
  have header : 4 ≤ b.getSize := by omega
  have whole : b.received <+: pb.frame m ++ more := ⟨[], by rw [List.append_nil, front]⟩
  have announced := pb.messageLength_frame m size wf header whole
  have frameLength := pb.frameSize_frame m size wf header whole
  have complete : reachesParse b = true := by
    apply reachesParse_iff.mpr
    rw [wf.size_word, frameLength]
    omega
  have argument : (messageLength b).toInt32.toInt = (pb.serializeAsString m).length := by
    simp only [kMaxMessageSize] at size
    rw [Int32.toInt, UInt32.toBitVec_toInt32, BitVec.toInt_eq_toNat_of_lt]
    · exact congrArg Int.ofNat announced
    · change 2 * (messageLength b).toNat < 2 ^ 32
      omega
  obtain ⟨behind, memory⟩ : ∃ behind, b.startOfBuffer = pb.frame m ++ (more ++ behind) := by
    refine ⟨b.startOfBuffer.drop b.getSize, ?_⟩
    rw [← List.append_assoc, ← front]
    exact b.startOfBuffer_eq
  have region : b.startOfBuffer.drop 4 = pb.serializeAsString m ++ (more ++ behind) := by
    rw [memory, Protobuf.frame, List.append_assoc, List.drop_left' (by simp)]
  have parsed : parseCall pb.parseFromArray b = some m := by
    rw [parseCall, argument]
    change pb.parseFromArray (b.startOfBuffer.drop 4) _ = _
    rw [region]
    exact pb.parse_serialize m _ size
  obtain ⟨next, kept⟩ := wf.didConsume (show (frameSize b).toNat ≤ b.getSize by omega)
  refine ⟨b.didConsume (frameSize b).toNat, ?_, next, ?_⟩
  · simp only [frameBody, complete, parsed, ↓reduceIte]
  · rw [kept, frameLength, front, List.drop_left]

theorem frameBody_partial {b : ReadIOBuffer} (m : RpcMessage) {more : List UInt8}
    (size : (pb.serializeAsString m).length < kMaxMessageSize) (wf : b.WellFormed)
    (front : b.received <+: pb.frame m ++ more) (short : b.getSize < (pb.frame m).length) :
    frameBody pb.parseFromArray b = none := by
  have waits : ¬ reachesParse b = true := by
    intro complete
    have long := (reachesParse_iff.mp complete).1
    have inside := wf.frameSize_le complete
    rw [pb.frameSize_frame m size wf (by omega) front] at inside
    omega
  simp only [frameBody, waits, Bool.false_eq_true, ↓reduceIte]

theorem frameBody_empty {b : ReadIOBuffer} (none : b.getSize = 0) (parse : Parser) :
    frameBody parse b = Option.none := by
  simp [frameBody, reachesParse, none]

theorem frameLoop_frames (dispatch : S → RpcMessage → S) {messages : List RpcMessage} {tail : List UInt8}
    {b : ReadIOBuffer} {s : S} {fuel : Nat} (wf : b.WellFormed)
    (sizes : ∀ m ∈ messages, (pb.serializeAsString m).length < kMaxMessageSize)
    (front : b.received = (messages.map pb.frame).flatten ++ tail)
    (waits : ∀ c : ReadIOBuffer, c.WellFormed → c.received = tail → frameBody pb.parseFromArray c = none)
    (enough : messages.length < fuel) :
    ∃ next, frameLoop pb.parseFromArray dispatch fuel b s = some (next, messages.foldl dispatch s) ∧
      next.WellFormed ∧ next.received = tail := by
  induction messages generalizing b s fuel with
  | nil =>
    obtain ⟨fuel, rfl⟩ := Nat.exists_eq_succ_of_ne_zero (Nat.ne_of_gt (Nat.lt_of_le_of_lt (Nat.zero_le _) enough))
    refine ⟨b, ?_, wf, front⟩
    simp only [frameLoop, waits b wf front, List.foldl_nil]
  | cons m messages ih =>
    obtain ⟨fuel, rfl⟩ := Nat.exists_eq_succ_of_ne_zero (Nat.ne_of_gt (Nat.lt_of_le_of_lt (Nat.zero_le _) enough))
    rw [List.map_cons, List.flatten_cons, List.append_assoc] at front
    obtain ⟨next, pass, nextWF, kept⟩ := pb.frameBody_frame m (sizes m (by simp)) wf front
    have fewer : messages.length < fuel := Nat.lt_of_succ_lt_succ enough
    obtain ⟨last, looped, lastWF, left⟩ := ih nextWF (fun m inside => sizes m (by simp [inside])) kept fewer
    refine ⟨last, ?_, lastWF, left⟩
    simp only [frameLoop, pass, List.foldl_cons]
    exact looped

end Protobuf

/-- One direction of a connection: the queue of the sending end, the bytes in flight, and the receiving
    end between two reads. `accepted` and `dispatched` record what happened. -/
structure Link where
  writeBuf : QueuedWriteIOBuffer
  wire : List UInt8
  readBuf : ReadIOBuffer
  refused : Bool
  accepted : List RpcMessage
  dispatched : List RpcMessage

inductive LinkEvent (pb : Protobuf) where
  | send (m : pb.Sendable)
  | write (size : Nat)
  | read (size : Nat)

namespace Link

variable (pb : Protobuf)

def initial : Link := ⟨.new, [], .new, false, [], []⟩

def send (l : Link) (m : RpcMessage) : Link :=
  let (ok, queue) := l.writeBuf.append (pb.frame m)
  { l with writeBuf := queue, accepted := if ok then l.accepted ++ [m] else l.accepted }

def write (l : Link) (size : Nat) : Option Link :=
  if 0 < size ∧ size ≤ l.writeBuf.getSizeToWrite then
    some { l with
      writeBuf := l.writeBuf.didConsume size
      wire := l.wire ++ l.writeBuf.bytesToWrite size }
  else none

/-- `HandleReadResult` and the top of the next round of `DoReadLoop`. The fuel is never short: a pass that
    does not leave the frame loop consumes a byte or comes back unchanged for ever. -/
def handleRead (l : Link) (chunk : List UInt8) : Option Link :=
  (completeRead l.readBuf chunk).bind fun b =>
    (frameLoop pb.parseFromArray (fun done m => done ++ [m]) (b.getSize + 1) b l.dispatched).map
      fun (left, dispatched) =>
        match makeRoom left with
        | some room => { l with readBuf := room, dispatched := dispatched }
        | none => { l with readBuf := left, dispatched := dispatched, refused := true }

def step (l : Link) : LinkEvent pb → Option Link
  | .send m => some (l.send pb m.val)
  | .write size => l.write size
  | .read size =>
    if l.refused = false ∧ size ≤ l.wire.length then
      ({ l with wire := l.wire.drop size } : Link).handleRead pb (l.wire.take size)
    else none

/-- The accepted messages are those dispatched and those still on their way, whose frames are exactly the
    bytes in the two buffers and on the wire; the receiver never holds a whole frame between reads. -/
structure Invariant (l : Link) : Prop where
  writeBuf : l.writeBuf.WellFormed
  readBuf : l.readBuf.WellFormed
  room : 0 < l.readBuf.remainingCapacity
  reading : l.refused = false
  small : ∀ m ∈ l.accepted, (pb.frame m).length ≤ ReadIOBuffer.kDefaultMaxBufferSize
  stream : ∃ rest, l.accepted = l.dispatched ++ rest ∧
    l.readBuf.received ++ (l.wire ++ l.writeBuf.pendingBytes) = (rest.map pb.frame).flatten ∧
    ∀ m others, rest = m :: others → l.readBuf.getSize < (pb.frame m).length

theorem initial_invariant : Invariant pb initial := by
  have room : 0 < ReadIOBuffer.new.remainingCapacity := by decide
  refine ⟨QueuedWriteIOBuffer.new_wellFormed, ReadIOBuffer.new_wellFormed, room, rfl, ?_, [], rfl, ?_, ?_⟩
  · intro m inside
    cases inside
  · change ReadIOBuffer.new.received ++ _ = _
    rw [ReadIOBuffer.new_received]
    rfl
  · intro m others impossible
    cases impossible

theorem Invariant.send {l : Link} (inv : Invariant pb l) (m : pb.Sendable) :
    Invariant pb (l.send pb m.val) := by
  have length := pb.frame_length m.val
  have size := m.property
  simp only [kMaxMessageSize] at size
  obtain ⟨rest, parts, stream, proper⟩ := inv.stream
  cases answer : (l.writeBuf.append (pb.frame m.val)).1 with
  | false =>
    have same : l.send pb m.val = l := by
      simp only [Link.send, answer, QueuedWriteIOBuffer.append_refused answer, Bool.false_eq_true, ↓reduceIte]
    rw [same]
    exact inv
  | true =>
    obtain ⟨queue, pending, fits⟩ := inv.writeBuf.append (by omega) answer
    have limit := inv.writeBuf.limit
    simp only [Link.send, answer, ↓reduceIte]
    refine ⟨queue, inv.readBuf, inv.room, inv.reading, ?_, rest ++ [m.val], ?_, ?_, ?_⟩
    · intro other inside
      rcases List.mem_append.mp inside with inside | inside
      · exact inv.small other inside
      · rw [List.mem_singleton.mp inside]
        have same : QueuedWriteIOBuffer.kDefaultMaxBufferSize = ReadIOBuffer.kDefaultMaxBufferSize := rfl
        omega
    · simp only [parts, List.append_assoc]
    · rw [pending, List.map_append, List.flatten_append, ← stream]
      simp
    · intro first others shape
      cases rest with
      | cons head tail =>
        cases shape
        exact proper _ tail rfl
      | nil =>
        cases shape
        have empty : l.readBuf.received = [] := (List.append_eq_nil_iff.mp stream).1
        change l.readBuf.getSize < _
        rw [← inv.readBuf.received_length, empty, List.length_nil]
        omega

theorem Invariant.write {l t : Link} (inv : Invariant pb l) {size : Nat} (written : l.write size = some t) :
    Invariant pb t := by
  unfold Link.write at written
  split at written
  · rename_i legal
    cases written
    obtain ⟨queue, split, _⟩ := inv.writeBuf.didConsume legal.1 legal.2
    obtain ⟨rest, parts, stream, proper⟩ := inv.stream
    refine ⟨queue, inv.readBuf, inv.room, inv.reading, inv.small, rest, parts, ?_, proper⟩
    change l.readBuf.received ++ (l.wire ++ _ ++ _) = _
    rw [List.append_assoc l.wire, split]
    exact stream
  · cases written

theorem foldl_append_singleton (done messages : List RpcMessage) :
    messages.foldl (fun done m => done ++ [m]) done = done ++ messages := by
  induction messages generalizing done with
  | nil => simp
  | cons m messages ih => simp [ih]

theorem length_le_frames (messages : List RpcMessage) :
    messages.length ≤ (messages.map pb.frame).flatten.length := by
  induction messages with
  | nil => simp
  | cons m messages ih =>
    have positive := pb.frame_length m
    simp only [List.length_cons, List.map_cons, List.flatten_cons, List.length_append]
    omega

theorem tail_waits {messages : List RpcMessage} {tail back : List UInt8}
    (sizes : ∀ m ∈ messages, (pb.serializeAsString m).length < kMaxMessageSize)
    (stream : tail ++ back = (messages.map pb.frame).flatten)
    (proper : ∀ m others, messages = m :: others → tail.length < (pb.frame m).length)
    (c : ReadIOBuffer) (wf : c.WellFormed) (received : c.received = tail) :
    frameBody pb.parseFromArray c = none := by
  cases messages with
  | nil =>
    have empty : tail = [] := (List.append_eq_nil_iff.mp stream).1
    apply Protobuf.frameBody_empty
    rw [← wf.received_length, received, empty, List.length_nil]
  | cons m others =>
    apply pb.frameBody_partial m (sizes m (by simp)) wf ⟨back, by rw [received, stream]; rfl⟩
    rw [← wf.received_length, received]
    exact proper m others rfl

theorem frameLoop_stream {b : ReadIOBuffer} (wf : b.WellFormed) {more : List UInt8} {rest : List RpcMessage}
    (small : ∀ m ∈ rest, (pb.frame m).length ≤ ReadIOBuffer.kDefaultMaxBufferSize)
    (stream : b.received ++ more = (rest.map pb.frame).flatten) (dispatched : List RpcMessage) :
    ∃ done later left, rest = done ++ later ∧
      frameLoop pb.parseFromArray (fun done m => done ++ [m]) (b.getSize + 1) b dispatched =
        some (left, dispatched ++ done) ∧
      left.WellFormed ∧ left.received ++ more = (later.map pb.frame).flatten ∧
      left.getSize < ReadIOBuffer.kDefaultMaxBufferSize ∧
      ∀ m others, later = m :: others → left.getSize < (pb.frame m).length := by
  obtain ⟨doneFrames, restFrames, tail, split, front, back, unfinished⟩ := split_flatten stream
  obtain ⟨done, later, rfl, rfl, rfl⟩ := List.map_eq_append_iff.mp split
  have sizes : ∀ m ∈ done ++ later, (pb.serializeAsString m).length < kMaxMessageSize := by
    intro m inside
    have bound := small m inside
    rw [pb.frame_length] at bound
    simp only [ReadIOBuffer.kDefaultMaxBufferSize] at bound
    simp only [kMaxMessageSize]
    omega
  have properTail : ∀ m others, later = m :: others → tail.length < (pb.frame m).length := by
    intro m others shape
    apply unfinished (pb.frame m) (others.map pb.frame)
    rw [shape, List.map_cons]
  have enough : done.length < b.getSize + 1 := by
    have frames := length_le_frames pb done
    have length := congrArg List.length front
    rw [wf.received_length, List.length_append] at length
    omega
  obtain ⟨left, looped, leftWF, leftReceived⟩ := pb.frameLoop_frames (fun done m => done ++ [m])
    wf (fun m inside => sizes m (List.mem_append_left _ inside)) front
    (tail_waits pb (fun m inside => sizes m (List.mem_append_right _ inside)) back properTail)
    (s := dispatched) enough
  have leftSize : left.getSize = tail.length := by rw [← leftWF.received_length, leftReceived]
  rw [foldl_append_singleton] at looped
  refine ⟨done, later, left, rfl, looped, leftWF, leftReceived ▸ back, ?_, leftSize ▸ properTail⟩
  rw [leftSize]
  cases shape : later with
  | nil =>
    rw [shape] at back
    rw [(List.append_eq_nil_iff.mp back).1]
    decide
  | cons m others =>
    have bound := small m (by simp [shape])
    have short := properTail m others shape
    omega

theorem Invariant.read {l : Link} (inv : Invariant pb l) {size : Nat} (positive : 0 < size)
    (available : size ≤ l.wire.length) (fits : size ≤ l.readBuf.remainingCapacity) :
    ∃ t, l.step pb (.read size) = some t ∧ Invariant pb t := by
  obtain ⟨rest, parts, stream, proper⟩ := inv.stream
  have chunkLength : (l.wire.take size).length = size := by simp [available]
  obtain ⟨readWF, received, _⟩ := inv.readBuf.didRead (by omega : (l.wire.take size).length ≤ _)
  rw [chunkLength] at readWF received
  have completed : completeRead l.readBuf (l.wire.take size) =
      some ((l.readBuf.fill (l.wire.take size)).didRead size) := by
    rw [completeRead, chunkLength, if_pos ⟨positive, fits⟩]
  have whole : ((l.readBuf.fill (l.wire.take size)).didRead size).received ++
      (l.wire.drop size ++ l.writeBuf.pendingBytes) = (rest.map pb.frame).flatten := by
    rw [received, ← stream, List.append_assoc, ← List.append_assoc (l.wire.take size),
      List.take_append_drop]
  have small : ∀ m ∈ rest, (pb.frame m).length ≤ ReadIOBuffer.kDefaultMaxBufferSize := by
    intro m inside
    apply inv.small
    rw [parts]
    exact List.mem_append_right _ inside
  obtain ⟨done, later, left, rfl, looped, leftWF, leftStream, below, properTail⟩ :=
    frameLoop_stream pb readWF small whole l.dispatched
  obtain ⟨room, made, roomWF, roomReceived, roomLeft⟩ := makeRoom_some leftWF below
  have roomSize : room.getSize = left.getSize := by
    rw [← roomWF.received_length, roomReceived, leftWF.received_length]
  refine ⟨{ l with wire := l.wire.drop size, readBuf := room, dispatched := l.dispatched ++ done }, ?_, ?_⟩
  · simp only [step, inv.reading, available, and_self, ↓reduceIte, handleRead, completed,
      Option.bind_some, looped, Option.map_some, made]
  · refine ⟨inv.writeBuf, roomWF, roomLeft, inv.reading, inv.small, later, ?_, ?_, ?_⟩
    · simp only [parts, List.append_assoc]
    · change room.received ++ _ = _
      rw [roomReceived]
      exact leftStream
    · change ∀ m others, later = m :: others → room.getSize < _
      rw [roomSize]
      exact properTail

theorem Invariant.step {l t : Link} (inv : Invariant pb l) (event : LinkEvent pb)
    (stepped : l.step pb event = some t) : Invariant pb t := by
  cases event with
  | send m =>
    cases stepped
    exact inv.send pb m
  | write size => exact inv.write pb stepped
  | read size =>
    have legal : 0 < size ∧ size ≤ l.wire.length ∧ size ≤ l.readBuf.remainingCapacity := by
      simp only [Link.step, inv.reading, true_and] at stepped
      split at stepped
      · rename_i available
        simp only [handleRead, Option.bind_eq_some_iff] at stepped
        obtain ⟨b, completed, _⟩ := stepped
        simp only [completeRead] at completed
        split at completed
        · rename_i fits
          simp only [List.length_take, Nat.min_eq_left available] at fits
          exact ⟨fits.1, available, fits.2⟩
        · cases completed
      · cases stepped
    obtain ⟨u, again, next⟩ := inv.read pb legal.1 legal.2.1 legal.2.2
    rw [stepped] at again
    cases again
    exact next

/-- However the writes split the queue and the reads split the stream, the messages the sender queued are
    dispatched in order and once each: none is lost when nothing is left to write or read, the buffer limit
    is never in the way, and every read that has bytes to deliver goes through. -/
theorem accepted_messages_dispatched (events : List (LinkEvent pb)) (t : Link)
    (replay : run (Link.step pb) initial events = some t) :
    t.refused = false ∧ t.dispatched <+: t.accepted ∧
      (t.writeBuf.isEmpty = true → t.wire = [] →
        t.dispatched = t.accepted ∧ t.readBuf.getSize = 0) ∧
      (t.writeBuf.isEmpty = false → 0 < t.writeBuf.getSizeToWrite) ∧
      0 < t.readBuf.remainingCapacity ∧
      ∀ size, 0 < size → size ≤ t.wire.length → size ≤ t.readBuf.remainingCapacity →
        (t.step pb (.read size)).isSome := by
  have inv : Invariant pb t :=
    run_invariant (fun l event t inv stepped => inv.step pb event stepped) (initial_invariant pb) replay
  obtain ⟨rest, parts, stream, proper⟩ := inv.stream
  refine ⟨inv.reading, ⟨rest, parts.symm⟩, ?_, ?_, inv.room, ?_⟩
  · intro idle silent
    have none : t.writeBuf.pendingBytes = [] := by
      rw [QueuedWriteIOBuffer.pendingBytes, List.isEmpty_iff.mp idle]
    rw [silent, none, List.append_nil, List.append_nil] at stream
    cases rest with
    | nil =>
      refine ⟨by rw [parts, List.append_nil], ?_⟩
      rw [← inv.readBuf.received_length, stream]
      rfl
    | cons m others =>
      have short := proper m others rfl
      rw [← inv.readBuf.received_length, stream, List.map_cons, List.flatten_cons,
        List.length_append] at short
      omega
  · intro busy
    apply inv.writeBuf.getSizeToWrite_pos.mpr
    intro empty
    rw [QueuedWriteIOBuffer.isEmpty, empty] at busy
    cases busy
  · intro size positive available fits
    obtain ⟨u, stepped, _⟩ := inv.read pb positive available fits
    rw [stepped]
    rfl

def echoRequest : wireFormat.Sendable := ⟨⟨0, .request, [0x65], [0x45], some [], none⟩, by decide⟩

def echoTrace : List (LinkEvent wireFormat) :=
  [.send echoRequest, .write 5, .read 3, .write 18, .read 20]

theorem accepted_messages_dispatched_echo :
    ∃ t, run (Link.step wireFormat) initial echoTrace = some t ∧ t.wire = [] ∧
      t.writeBuf.isEmpty = true ∧ t.dispatched = t.accepted ∧ t.readBuf.getSize = 0 := by
  have idle : (run (Link.step wireFormat) initial echoTrace).map
      (fun t => (t.wire, t.writeBuf.isEmpty)) = some ([], true) := by decide +kernel
  obtain ⟨t, replay, final⟩ := Option.map_eq_some_iff.mp idle
  obtain ⟨silent, drained⟩ := Prod.mk.inj final
  obtain ⟨_, _, complete, _⟩ := accepted_messages_dispatched wireFormat echoTrace t replay
  exact ⟨t, replay, silent, drained, complete drained silent⟩

end Link

end DistributedNinja.Rpc
