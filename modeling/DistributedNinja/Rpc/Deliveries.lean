import DistributedNinja.Rpc.EndToEnd

namespace DistributedNinja.Rpc

open Lib

theorem makeRoom_remaining {b room : ReadIOBuffer} (wf : b.WellFormed) (made : makeRoom b = some room) :
    0 < room.remainingCapacity := by
  have below : ¬ ReadIOBuffer.kDefaultMaxBufferSize ≤ b.getSize := by
    intro large
    rw [(makeRoom_eq_none_iff wf).mpr large] at made
    cases made
  obtain ⟨other, again, _, _, positive⟩ := makeRoom_some wf (Nat.not_le.mp below)
  rw [made] at again
  cases again
  exact positive

namespace RpcConnection

variable {Done : Type}

def Settled : RpcConnection Done × WriteOutcome → Prop
  | (c, .returned) => c.writeBuf.getSizeToWrite ≠ 0 → c.writeCallback = true
  | (_, .closed _) => True
  | (_, .checkFailed) => True

theorem doWriteLoop_settled {answers : List Int} (taken : 0 ∉ answers) (c : RpcConnection Done) :
    Settled (c.doWriteLoop answers) := by
  induction answers generalizing c with
  | nil =>
    unfold doWriteLoop
    dsimp only
    split_ifs with drained
    · exact fun left => absurd drained left
    · trivial
    · exact fun _ => rfl
  | cons rv rest ih =>
    rw [List.mem_cons, not_or] at taken
    obtain ⟨some_, later⟩ := taken
    unfold doWriteLoop
    dsimp only
    split_ifs with drained pending waits nothing failed
    · exact fun left => absurd drained left
    · trivial
    · exact fun _ => rfl
    · exact absurd nothing.symm some_
    · trivial
    · exact ih later _

def goesWell (rv : Int) : Bool := decide (0 < rv) || rv == errIoPending

theorem goesWell_ne_zero {rv : Int} (well : goesWell rv = true) : rv ≠ 0 := by
  intro nothing
  rw [nothing] at well
  cases well

theorem doWriteLoop_open {answers : List Int} (well : answers.all goesWell = true) (c : RpcConnection Done) (rv : Int) :
    (c.doWriteLoop answers).2 ≠ .closed rv := by
  induction answers generalizing c with
  | nil =>
    unfold doWriteLoop
    dsimp only
    split_ifs <;> simp
  | cons answer rest ih =>
    rw [List.all_cons, Bool.and_eq_true] at well
    have fine := well.1
    unfold doWriteLoop
    dsimp only
    split_ifs with drained pending waits nothing failed
    · simp
    · simp
    · simp
    · simp
    · simp only [goesWell, Bool.or_eq_true, decide_eq_true_eq, beq_iff_eq] at fine
      omega
    · exact ih well.2 _

end RpcConnection

/-- No `Write` answers that it took no byte. -/
def EndpointEvent.takes : EndpointEvent → Prop
  | .called _ answers => 0 ∉ answers
  | .writeCompleted _ answers => 0 ∉ answers
  | _ => True

namespace Endpoint

variable {pb : Protobuf} {e u : Endpoint} {event : EndpointEvent}

/-- What the message loop relies on: a connection that is not closed reads and, as long as it has something to write,
    writes; and there is room for what is read. -/
structure Lively (pb : Protobuf) (e : Endpoint) : Prop where
  readable : e.Readable pb
  reading : e.Reading
  room : e.connection.readCallback = true → 0 < e.connection.readBuf.remainingCapacity
  writing : e.closes = 0 → e.connection.writeBuf.getSizeToWrite ≠ 0 → e.connection.writeCallback = true

theorem new_lively (id : Int) (peerAddress : String) : (new id peerAddress).Lively pb :=
  ⟨new_readable id peerAddress, nofun, nofun, fun _ some_ => absurd rfl some_⟩

theorem afterWrite_writing {result : RpcConnection Response × WriteOutcome} (settled : RpcConnection.Settled result)
    (after : e.afterWrite result = some u) :
    u.closes = 0 → u.connection.writeBuf.getSizeToWrite ≠ 0 → u.connection.writeCallback = true := by
  obtain ⟨c, outcome⟩ := result
  cases outcome with
  | returned =>
    cases after
    exact fun _ => settled
  | closed rv =>
    cases after
    exact nofun
  | checkFailed => cases after

theorem onWriteCompleted_settled {rv : Int} {answers : List Int} (taken : 0 ∉ answers)
    (c : RpcConnection Response) : RpcConnection.Settled (c.onWriteCompleted rv answers) := by
  unfold RpcConnection.onWriteCompleted
  dsimp only
  split
  · trivial
  · exact RpcConnection.doWriteLoop_settled taken _

theorem dispatch_writeCallback (e : Endpoint) (m : RpcMessage) :
    (e.dispatch m).connection.writeCallback = e.connection.writeCallback := by
  have cases := dispatch_cases e m
  generalize e.dispatch m = u at cases ⊢
  cases cases <;> rfl

theorem Lively.writes (lively : e.Lively pb) (takes : event.takes) (stepped : e.step pb event = some u) :
    u.closes = 0 → u.connection.writeBuf.getSizeToWrite ≠ 0 → u.connection.writeCallback = true := by
  have writing := lively.writing
  cases step_effect stepped with
  | called may written more =>
    simp only [step, Option.ite_none_right_eq_some] at stepped
    exact afterWrite_writing (RpcConnection.doWriteLoop_settled takes _) stepped.2
  | wrote at_ written more =>
    simp only [step, Option.ite_none_right_eq_some] at stepped
    exact afterWrite_writing (onWriteCompleted_settled takes _) stepped.2
  | readEnded | completedEnded => exact fun opened => absurd opened (Nat.succ_ne_zero _)
  | waits | readData | completedData | noRoom | broke | stuck | served | answered => exact writing
  | @dispatched m next at_ taken =>
    rw [(dispatch_readBuf _ m).2.2, dispatch_writeBuf, dispatch_writeCallback]
    exact writing

theorem Lively.keepsRoom (lively : e.Lively pb) (stepped : e.step pb event = some u) :
    u.connection.readCallback = true → 0 < u.connection.readBuf.remainingCapacity := by
  have free := lively.readable.free
  have idle : ∀ {control : Control}, e.control = control → control ≠ .idle → ¬ e.connection.readCallback = true := by
    intro control at_ busy pending
    rw [free (at_ ▸ busy)] at pending
    cases pending
  cases step_effect stepped with
  | @called request answers d closes may written more =>
    show d.readCallback = true → 0 < d.readBuf.remainingCapacity
    rw [(written_readBuf written).1, (written_readBuf written).2, (enqueue_readBuf pb _ _).1,
      (enqueue_readBuf pb _ _).2]
    exact lively.room
  | @wrote rv answers d closes at_ written more =>
    show d.readCallback = true → 0 < d.readBuf.remainingCapacity
    rw [(written_readBuf written).1, (written_readBuf written).2]
    exact lively.room
  | waits at_ made => exact fun _ => makeRoom_remaining lively.readable.wellFormed made
  | completedEnded | completedData => exact nofun
  | noRoom at_ full => exact fun pending => absurd pending (idle at_ nofun)
  | readEnded at_ made => exact fun pending => absurd pending (idle at_ nofun)
  | readData at_ made read => exact fun pending => absurd pending (idle at_ nofun)
  | broke at_ ends => exact fun pending => absurd pending (idle at_ nofun)
  | stuck at_ taken => exact fun pending => absurd pending (idle at_ nofun)
  | @dispatched m next at_ taken =>
    rw [(dispatch_readBuf _ m).2.1]
    exact fun pending => absurd pending (idle at_ nofun)
  | served at_ => exact fun pending => absurd pending (idle at_ nofun)
  | answered at_ => exact fun pending => absurd pending (idle at_ nofun)

theorem Lively.step (lively : e.Lively pb) (takes : event.takes) (other : event ≠ .noRoom)
    (stepped : e.step pb event = some u) : u.Lively pb :=
  ⟨lively.readable.step stepped, lively.reading.step stepped other, lively.keepsRoom stepped,
    lively.writes takes stepped⟩

theorem handleReadResult_filled {rv : Int} {bytes : List UInt8} (wf : e.connection.readBuf.WellFormed)
    (positive : 0 < rv) (handled : e.handleReadResult rv bytes = some u) :
    bytes.length = rv.toNat ∧ u.closes = e.closes ∧ u.control = .parsing ∧
      u.connection.writeBuf = e.connection.writeBuf ∧
      u.connection.readBuf.getSize = e.connection.readBuf.getSize + rv.toNat := by
  unfold handleReadResult at handled
  rw [if_neg (by omega)] at handled
  simp only [Option.ite_none_right_eq_some] at handled
  obtain ⟨length, handled⟩ := handled
  obtain ⟨b, filled, rfl⟩ := Option.map_eq_some_iff.mp handled
  unfold completeRead at filled
  simp only [Option.ite_none_right_eq_some, Option.some.injEq] at filled
  obtain ⟨fits, rfl⟩ := filled
  obtain ⟨formed, received, _⟩ := wf.didRead fits.2
  refine ⟨length, rfl, rfl, rfl, ?_⟩
  show ((e.connection.readBuf.fill bytes).didRead bytes.length).getSize = _
  rw [← formed.received_length, received, List.length_append, wf.received_length, length]

theorem afterWrite_open {result : RpcConnection Response × WriteOutcome} (opened : ∀ rv, result.2 ≠ .closed rv)
    (after : e.afterWrite result = some u) : u = { e with connection := result.1 } := by
  obtain ⟨c, outcome⟩ := result
  cases outcome with
  | returned => exact (Option.some.inj after).symm
  | closed rv => exact absurd rfl (opened rv)
  | checkFailed => cases after

theorem onWriteCompleted_open {rv : Int} {answers : List Int} (positive : 0 < rv)
    (well : answers.all RpcConnection.goesWell = true) (c : RpcConnection Response) (error : Int) :
    (c.onWriteCompleted rv answers).2 ≠ .closed error := by
  unfold RpcConnection.onWriteCompleted
  dsimp only
  rw [if_neg (by omega)]
  exact RpcConnection.doWriteLoop_open well _ error

def Control.weight : Control → Nat
  | .idle => 0
  | .reading => 1
  | .parsing => 2
  | .serving => 3
  | .answering _ => 3

theorem dispatch_weight {e : Endpoint} (at_ : e.control = .parsing) (m : RpcMessage) :
    Control.weight (e.dispatch m).control ≤ 3 ∧ (e.dispatch m).closes = e.closes := by
  refine ⟨?_, (dispatch_readBuf e m).2.2⟩
  rcases dispatch_control e m with same | serving | answering
  · rw [same, at_]
    decide
  · rw [serving]
    exact Nat.le_refl _
  · rw [answering]
    exact Nat.le_refl _

end Endpoint

namespace Flow

variable {pb : Protobuf} {sent inbox : List RpcMessage} {queue : QueuedWriteIOBuffer} {wire : List UInt8}
  {buffer : ReadIOBuffer} {parted : Prop}

theorem shrinks (flow : Flow pb sent inbox queue wire buffer parted) {m : RpcMessage} {next : ReadIOBuffer}
    {other : Prop} (after : Flow pb sent (inbox ++ [m]) queue wire next other) :
    next.getSize + 5 ≤ buffer.getSize := by
  obtain ⟨_, formed, _, rest, parts, stream, _⟩ := flow
  obtain ⟨_, nextFormed, _, later, nextParts, left, _⟩ := after
  rw [parts, List.append_assoc] at nextParts
  have shape : rest = m :: later := List.append_cancel_left nextParts
  have positive := pb.serialize_positive m
  have before := congrArg List.length stream
  have behind := congrArg List.length left
  have split : (pb.frame m ++ (later.map pb.frame).flatten).length =
      4 + (pb.serializeAsString m).length + ((later.map pb.frame).flatten).length := by
    rw [List.length_append, pb.frame_length]
  rw [shape, List.map_cons, List.flatten_cons, List.length_append, split, formed.received_length] at before
  rw [List.length_append, nextFormed.received_length] at behind
  omega

end Flow

def EndEvent.takes : EndEvent → Prop
  | .called _ _ _ _ answers => 0 ∉ answers
  | .serviceDone _ _ answers => 0 ∉ answers
  | .writeCompleted _ answers => 0 ∉ answers
  | _ => True

/-- The sockets carry what was written, and the connections go on with it. Nobody calls, and nothing fails. -/
def EndEvent.delivers : EndEvent → Bool
  | .writeCompleted rv answers => decide (0 < rv) && answers.all RpcConnection.goesWell
  | .readCompleted rv => decide (0 < rv)
  | .read rv => RpcConnection.goesWell rv
  | .pass => true
  | .returned => true
  | _ => false

namespace End

open Endpoint

variable {pb : Protobuf} {x y z w : End} {e : Endpoint} {event : EndEvent}

/-- What is left to do at an end: each byte is written, read and parsed. -/
def weight (x : End) : Nat :=
  8 * x.endpoint.connection.writeBuf.pendingBytes.length + 6 * x.wire.length + x.endpoint.connection.readBuf.getSize +
    Control.weight x.endpoint.control

theorem takes_of_delivers (delivers : event.delivers = true) : event.takes := by
  cases event with
  | writeCompleted rv answers =>
    rw [EndEvent.delivers, Bool.and_eq_true] at delivers
    intro nothing
    exact RpcConnection.goesWell_ne_zero (List.all_eq_true.mp delivers.2 0 nothing) rfl
  | called | serviceDone => cases delivers
  | registered | unregistered | readCompleted | read | noRoom | pass | returned => trivial

structure Delivers (x y z w : End) : Prop where
  closes : z.endpoint.closes = x.endpoint.closes
  sent : z.sent = x.sent
  others : w.sent = y.sent
  less : z.weight + w.weight < x.weight + y.weight

theorem Sound.wrote (sound : Sound pb x y) {rv : Int} {answers : List Int} {bytes : List UInt8}
    (delivers : (EndEvent.writeCompleted rv answers).delivers = true)
    (sent : RpcConnection.transmitCompleted rv answers x.endpoint.connection.writeBuf = some bytes)
    (stepped : x.endpoint.step pb (.writeCompleted rv answers) = some e) :
    Delivers x y { x with endpoint := e, wire := x.wire ++ bytes } y := by
  simp only [EndEvent.delivers, Bool.and_eq_true, decide_eq_true_eq] at delivers
  obtain ⟨positive, well⟩ := delivers
  have taken := writeCompleted_taken sound.sends.queued sent stepped
  have some_ : 0 < bytes.length := by
    unfold RpcConnection.transmitCompleted at sent
    rw [if_neg (by omega)] at sent
    simp only [Option.ite_none_right_eq_some] at sent
    obtain ⟨inside, sent⟩ := sent
    obtain ⟨later, _, rfl⟩ := Option.map_eq_some_iff.mp sent
    obtain ⟨_, _, length⟩ := sound.sends.queued.didConsume (by omega) inside
    rw [List.length_append, length]
    omega
  have whole := congrArg List.length taken.whole
  rw [List.length_append] at whole
  have moved : e.connection.readBuf = x.endpoint.connection.readBuf ∧ e.control = x.endpoint.control :=
    ⟨(writeCompleted_keeps stepped).1, (writeCompleted_keeps stepped).2.1⟩
  constructor
  · simp only [Endpoint.step, Option.ite_none_right_eq_some] at stepped
    rw [afterWrite_open (onWriteCompleted_open positive well _) stepped.2]
  · rfl
  · rfl
  · unfold weight
    dsimp only
    rw [moved.1, moved.2, List.length_append]
    omega

theorem delivers_filled (read : Endpoint) {rv : Int} (positive : 0 < rv)
    (queue : read.connection.writeBuf = x.endpoint.connection.writeBuf) (wf : read.connection.readBuf.WellFormed)
    (size : read.connection.readBuf.getSize = x.endpoint.connection.readBuf.getSize)
    (closes : read.closes = x.endpoint.closes)
    (handled : read.handleReadResult rv (y.wire.take rv.toNat) = some e) :
    Delivers x y { x with endpoint := e } { y with wire := y.wire.drop rv.toNat } := by
  obtain ⟨length, same, parsing, queued, larger⟩ := handleReadResult_filled wf positive handled
  rw [List.length_take] at length
  constructor
  · exact same.trans closes
  · rfl
  · rfl
  · unfold weight
    dsimp only
    rw [queued, queue, larger, size, parsing, List.length_drop]
    simp only [Control.weight]
    omega

theorem Sound.delivers (sound : Sound pb x y) (well : event.delivers = true)
    (stepped : x.step pb y event = some (z, w)) : Delivers x y z w := by
  cases step_turn stepped with
  | registered | unregistered | called | answered | noRoom => cases well
  | wrote sent wrote => exact sound.wrote well sent wrote
  | completed read =>
    simp only [Endpoint.step, Option.ite_none_right_eq_some] at read
    exact delivers_filled (x.endpoint.setReadCallback false) (of_decide_eq_true well) rfl sound.receives.formed rfl rfl
      read.2
  | @read rv e read =>
    simp only [Endpoint.step, Option.ite_none_right_eq_some] at read
    obtain ⟨⟨at_, _⟩, read⟩ := read
    obtain ⟨room, made, read⟩ := Option.bind_eq_some_iff.mp read
    obtain ⟨other, again, flow, size⟩ := Flow.makeRoom_some sound.receives (.inr at_)
    obtain rfl : other = room := Option.some.inj (again.symm.trans made)
    split at read
    · rename_i waits
      cases read
      refine ⟨rfl, rfl, rfl, ?_⟩
      rw [waits]
      unfold weight
      dsimp only [Endpoint.setReadBuf, Endpoint.setReadCallback]
      rw [size, at_, List.length_drop]
      simp only [Control.weight]
      omega
    · rename_i answered
      have positive : 0 < rv := by
        simp only [EndEvent.delivers, RpcConnection.goesWell, Bool.or_eq_true, decide_eq_true_eq, beq_iff_eq] at well
        exact well.resolve_right answered
      exact delivers_filled (x.endpoint.setReadBuf other) positive rfl flow.formed size rfl read
  | passed passed =>
    rcases sound.receives.pass passed with ⟨nothing, rfl, _⟩ | ⟨m, buffer, next, at_, rfl, _, flows⟩
    · rw [nothing]
      refine ⟨rfl, rfl, rfl, ?_⟩
      have at_ : x.endpoint.control = .parsing := by
        simp only [Endpoint.step, Option.ite_none_right_eq_some] at passed
        exact passed.1
      unfold weight End.took
      dsimp only
      rw [at_]
      simp only [Control.weight]
      omega
    · rw [next]
      obtain ⟨light, closes⟩ := dispatch_weight (e := x.endpoint.setReadBuf buffer) at_ m
      refine ⟨closes, rfl, rfl, ?_⟩
      have shorter : ((x.endpoint.setReadBuf buffer).dispatch m).connection.readBuf.getSize + 5 ≤
          x.endpoint.connection.readBuf.getSize := Flow.shrinks sound.receives flows
      have queued : ((x.endpoint.setReadBuf buffer).dispatch m).connection.writeBuf =
          x.endpoint.connection.writeBuf := dispatch_writeBuf _ m
      unfold weight End.took
      dsimp only
      rw [queued]
      omega
  | returned returned =>
    cases step_effect returned with
    | served at_ =>
      refine ⟨rfl, rfl, rfl, ?_⟩
      unfold weight
      dsimp only
      rw [at_]
      simp only [Control.weight]
      omega
    | answered at_ =>
      refine ⟨rfl, rfl, rfl, ?_⟩
      unfold weight
      dsimp only [Endpoint.eraseRequest]
      rw [at_]
      simp only [Control.weight]
      omega

theorem step_endpoint (stepped : x.step pb y event = some (z, w)) : w.endpoint = y.endpoint ∧
    (z.endpoint = x.endpoint ∨ ∃ inner, x.endpoint.step pb inner = some z.endpoint ∧ (event.takes → inner.takes)) := by
  cases step_turn stepped with
  | registered | unregistered => exact ⟨rfl, .inl rfl⟩
  | called made =>
    obtain ⟨_, bytes, e, _, moved, rfl⟩ := call_cases made
    exact ⟨rfl, .inr ⟨_, moved, id⟩⟩
  | answered waits at_ made =>
    obtain ⟨_, bytes, e, _, moved, rfl⟩ := call_cases made
    exact ⟨rfl, .inr ⟨_, moved, id⟩⟩
  | wrote sent wrote => exact ⟨rfl, .inr ⟨_, wrote, id⟩⟩
  | completed moved | read moved | noRoom moved | returned moved =>
    exact ⟨rfl, .inr ⟨_, moved, fun _ => trivial⟩⟩
  | passed passed =>
    refine ⟨rfl, .inr ⟨.pass, ?_, fun _ => trivial⟩⟩
    rw [passed]
    cases x.endpoint.nextMessage pb <;> rfl

/-- What holds in every run in which no `Write` answers that it took nothing. -/
structure Works (pb : Protobuf) (x y : End) : Prop where
  sound : Sound pb x y
  own : x.endpoint.Lively pb
  other : y.endpoint.Lively pb

theorem Works.swap (works : Works pb x y) : Works pb y x := ⟨works.sound.swap, works.other, works.own⟩

theorem Works.step (works : Works pb x y) (takes : event.takes) (stepped : x.step pb y event = some (z, w)) :
    Works pb z w := by
  have sound := works.sound.step stepped
  obtain ⟨rests, moves⟩ := step_endpoint stepped
  refine ⟨sound, ?_, rests ▸ works.other⟩
  rcases moves with same | ⟨inner, moved, fine⟩
  · rw [same]
    exact works.own
  · apply works.own.step (fine takes) _ moved
    intro full
    rw [full, works.sound.swap.delivered.reads] at moved
    cases moved

/-- An end that can do nothing rests in the message loop with nothing to write, and nothing is on its way to it. -/
structure Rests (x y : End) : Prop where
  idle : x.endpoint.control = .idle
  written : x.endpoint.connection.writeBuf.isEmpty = true
  silent : y.wire = []

theorem Works.idle (works : Works pb x y) (stuck : ∀ event, event.delivers = true → x.step pb y event = none) :
    x.endpoint.control = .idle := by
  cases at_ : x.endpoint.control with
  | idle => rfl
  | reading =>
    have free := works.own.readable.free (by rw [at_]; nofun)
    obtain ⟨room, made, _⟩ := Flow.makeRoom_some works.sound.receives (.inr at_)
    have stays := Option.map_eq_none_iff.mp (stuck (.read errIoPending) rfl)
    simp [Endpoint.step, at_, free, made] at stays
  | parsing =>
    have stays := Option.map_eq_none_iff.mp (stuck .pass rfl)
    simp only [Endpoint.step, at_, ↓reduceIte] at stays
    split at stays <;> cases stays
  | serving =>
    have stays := Option.map_eq_none_iff.mp (stuck .returned rfl)
    simp [Endpoint.step, at_] at stays
  | answering id =>
    have stays := Option.map_eq_none_iff.mp (stuck .returned rfl)
    simp [Endpoint.step, at_] at stays

theorem Works.rests (works : Works pb x y) (opened : x.endpoint.closes = 0)
    (stuck : ∀ event, event.delivers = true → x.step pb y event = none) : Rests x y := by
  have idle := works.idle stuck
  refine ⟨idle, ?_, ?_⟩
  · by_contra busy
    have content : x.endpoint.connection.writeBuf.pendingData ≠ [] := by
      intro empty
      rw [QueuedWriteIOBuffer.isEmpty, empty] at busy
      exact busy rfl
    have some_ := works.sound.sends.queued.getSizeToWrite_pos.mpr content
    have pending := works.own.writing opened (Nat.ne_of_gt some_)
    have fits : RpcConnection.transmitCompleted 1 [] x.endpoint.connection.writeBuf ≠ none := by
      simp only [RpcConnection.transmitCompleted, RpcConnection.transmit]
      rw [if_neg (by decide), if_pos (by exact some_)]
      simp
    obtain ⟨bytes, sent⟩ := Option.ne_none_iff_exists'.mp fits
    have stays := stuck (.writeCompleted 1 []) rfl
    simp only [End.step, sent, Option.bind_some, Option.map_eq_none_iff, Endpoint.step, idle, pending, and_self,
      ↓reduceIte] at stays
    have holds := (x.endpoint.connection.onWriteCompleted_idle 1 []).1
    cases result : x.endpoint.connection.onWriteCompleted 1 [] with
    | mk c outcome =>
      rw [result] at stays holds
      cases outcome with
      | returned | closed => cases stays
      | checkFailed => exact holds rfl
  · by_contra some_
    have pending : x.endpoint.connection.readCallback = true := by
      rcases works.own.reading idle with pending | closed
      · exact pending
      · omega
    have room := works.own.room pending
    have one : (y.wire.take 1).length = 1 := by
      have positive := List.length_pos_iff.mpr some_
      rw [List.length_take]
      omega
    have stays := Option.map_eq_none_iff.mp (stuck (.readCompleted 1) rfl)
    simp only [Endpoint.step, idle, pending, and_self, ↓reduceIte, Endpoint.handleReadResult] at stays
    rw [if_neg (by decide)] at stays
    have fits : completeRead x.endpoint.connection.readBuf (y.wire.take 1) ≠ none := by
      rw [completeRead, one, if_pos ⟨Nat.one_pos, room⟩]
      simp
    split at stays
    · exact fits (Option.map_eq_none_iff.mp stays)
    · rename_i short
      exact short one

theorem Rests.stuck (rests : Rests x y) (well : event.delivers = true) : x.step pb y event = none := by
  obtain ⟨idle, written, silent⟩ := rests
  cases event with
  | writeCompleted rv answers =>
    simp only [EndEvent.delivers, Bool.and_eq_true, decide_eq_true_eq] at well
    have drained : x.endpoint.connection.writeBuf.getSizeToWrite = 0 := by
      rw [QueuedWriteIOBuffer.getSizeToWrite, List.isEmpty_iff.mp written]
    have nothing : RpcConnection.transmitCompleted rv answers x.endpoint.connection.writeBuf = none := by
      rw [RpcConnection.transmitCompleted, if_neg (by omega), if_neg (by omega)]
    rw [End.step, nothing]
    rfl
  | readCompleted rv =>
    have positive : 0 < rv := of_decide_eq_true well
    have nothing : ∀ e : Endpoint, e.handleReadResult rv [] = none := by
      intro e
      have short : ([] : List UInt8).length ≠ rv.toNat := by
        rw [List.length_nil]
        omega
      rw [Endpoint.handleReadResult, if_neg (by omega), if_neg short]
    rw [End.step, silent, List.take_nil, Endpoint.step, nothing, ite_self]
    rfl
  | read rv | pass | returned => simp [End.step, Endpoint.step, idle]
  | registered | unregistered | called | serviceDone | noRoom => cases well

end End

def PairEvent.takes : PairEvent → Prop
  | .near event => event.takes
  | .far event => event.takes

instance (event : EndEvent) : Decidable event.takes := by
  cases event <;> unfold EndEvent.takes <;> infer_instance

instance : (event : PairEvent) → Decidable event.takes
  | .near event => inferInstanceAs (Decidable event.takes)
  | .far event => inferInstanceAs (Decidable event.takes)

def PairEvent.delivers : PairEvent → Bool
  | .near event => event.delivers
  | .far event => event.delivers

namespace Pair

open End

variable {pb : Protobuf} {p q : Pair} {event : PairEvent}

def weight (p : Pair) : Nat := p.near.weight + p.far.weight

theorem step_works (works : Works pb p.near p.far) (takes : event.takes) (stepped : p.step pb event = some q) :
    Works pb q.near q.far := by
  cases event with
  | near event =>
    obtain ⟨⟨near, far⟩, moved, rfl⟩ := Option.map_eq_some_iff.mp stepped
    exact works.step takes moved
  | far event =>
    obtain ⟨⟨far, near⟩, moved, rfl⟩ := Option.map_eq_some_iff.mp stepped
    exact (works.swap.step takes moved).swap

structure Open (pb : Protobuf) (p q : Pair) : Prop where
  works : Works pb q.near q.far
  near : q.near.endpoint.closes = 0 ∧ q.near.sent = p.near.sent
  far : q.far.endpoint.closes = 0 ∧ q.far.sent = p.far.sent

theorem Open.step {r : Pair} (opened : Open pb p q) (well : event.delivers = true)
    (stepped : q.step pb event = some r) : Open pb p r ∧ r.weight < q.weight := by
  obtain ⟨works, near, far⟩ := opened
  cases event with
  | near event =>
    have takes : (PairEvent.near event).takes := takes_of_delivers well
    have next := step_works works takes stepped
    obtain ⟨⟨near', far'⟩, moved, rfl⟩ := Option.map_eq_some_iff.mp stepped
    obtain ⟨closes, sent, others, less⟩ := works.sound.delivers well moved
    have rests := (step_endpoint moved).1
    exact ⟨⟨next, ⟨closes.trans near.1, sent.trans near.2⟩, ⟨rests ▸ far.1, others.trans far.2⟩⟩, less⟩
  | far event =>
    have takes : (PairEvent.far event).takes := takes_of_delivers well
    have next := step_works works takes stepped
    obtain ⟨⟨far', near'⟩, moved, rfl⟩ := Option.map_eq_some_iff.mp stepped
    obtain ⟨closes, sent, others, less⟩ := works.sound.swap.delivers well moved
    have rests := (step_endpoint moved).1
    refine ⟨⟨next, ⟨rests ▸ near.1, others.trans near.2⟩, ⟨closes.trans far.1, sent.trans far.2⟩⟩, ?_⟩
    unfold weight
    dsimp only
    omega

/-- From every state of a run in which `Write` never answers that it took no byte, and in which no end is closed:
    whatever the order in which the sockets go on to carry what was written and the connections go on with what they
    read, this ends after as many steps as the weight of the state allows; and where no such step is left, every
    message that an end has sent has been parsed by the other. -/
theorem deliveries_complete {nearId farId : Int} {nearAddress farAddress : String} {events : List PairEvent}
    (replay : run (step pb) (new nearId farId nearAddress farAddress) events = some p)
    (takes : ∀ event ∈ events, event.takes) (near : p.near.endpoint.closes = 0) (far : p.far.endpoint.closes = 0)
    {more : List PairEvent} (delivery : ∀ event ∈ more, event.delivers = true) (final : run (step pb) p more = some q) :
    more.length ≤ p.weight ∧ ((∀ event, event.delivers = true → q.step pb event = none) →
      q.far.inbox = p.near.sent.map Sent.message ∧ q.near.inbox = p.far.sent.map Sent.message) := by
  have works : Works pb p.near p.far :=
    run_invariant_along (fun _ _ _ works takes stepped => step_works works takes stepped)
      ⟨new_sound pb nearId farId farAddress nearAddress, Endpoint.new_lively _ _, Endpoint.new_lively _ _⟩
      (along_of_forall (fun event member _ => takes event member) _) replay
  obtain ⟨opened, short⟩ := run_decreasing (fun _ _ _ opened well stepped => Open.step opened well stepped)
    (⟨works, ⟨near, rfl⟩, ⟨far, rfl⟩⟩ : Open pb p p) delivery final
  refine ⟨by omega, ?_⟩
  intro stuck
  have nearRests : Rests q.near q.far := opened.works.rests opened.near.1
    fun event well => Option.map_eq_none_iff.mp (stuck (.near event) well)
  have farRests : Rests q.far q.near := opened.works.swap.rests opened.far.1
    fun event well => Option.map_eq_none_iff.mp (stuck (.far event) well)
  rw [← opened.near.2, ← opened.far.2]
  have sound := opened.works.sound
  exact ⟨Flow.drained sound.sends (.inl farRests.idle) nearRests.written farRests.silent,
    Flow.drained sound.receives (.inl nearRests.idle) farRests.written nearRests.silent⟩

def pendingCall : List PairEvent :=
  [.far (.registered [1] [[2]]), .near (.read errIoPending), .far (.read errIoPending),
    .near (.called [1] [2] [3] (some ()) [10])]

def restOfCall : List PairEvent :=
  [.far (.readCompleted 7), .far .pass, .near (.writeCompleted 14 []), .far (.read 17), .far .pass, .far .returned,
    .far .pass, .far (.read errIoPending)]

theorem deliveries_complete_pendingCall :
    ∃ p q, run (step wireFormat) (new 0 0 "10.0.0.1" "10.0.0.2") pendingCall = some p ∧
      run (step wireFormat) p restOfCall = some q ∧ restOfCall.length ≤ p.weight ∧ p.near.sent ≠ [] ∧
      q.far.inbox = p.near.sent.map Sent.message ∧ q.near.inbox = p.far.sent.map Sent.message := by
  have played : ((run (step wireFormat) (new 0 0 "10.0.0.1" "10.0.0.2") pendingCall).bind fun p =>
      (run (step wireFormat) p restOfCall).map fun q => (p.near.endpoint.closes, p.far.endpoint.closes,
        p.near.sent.length, [q.near, q.far].all fun x => decide (x.endpoint.control = .idle) &&
          x.endpoint.connection.writeBuf.isEmpty && x.wire.isEmpty)) = some (0, 0, 1, true) := by
    decide +kernel
  obtain ⟨p, replay, played⟩ := Option.bind_eq_some_iff.mp played
  obtain ⟨q, final, shape⟩ := Option.map_eq_some_iff.mp played
  simp only [Prod.mk.injEq, List.all_cons, List.all_nil, Bool.and_true, Bool.and_eq_true, decide_eq_true_eq,
    List.isEmpty_iff] at shape
  obtain ⟨near, far, sent, ⟨⟨nearIdle, nearWritten⟩, nearSilent⟩, ⟨farIdle, farWritten⟩, farSilent⟩ := shape
  obtain ⟨short, complete⟩ := deliveries_complete replay (by decide) near far (by decide) final
  refine ⟨p, q, replay, final, short, List.ne_nil_of_length_pos (by omega), complete ?_⟩
  rintro (event | event) well
  · exact Option.map_eq_none_iff.mpr (Rests.stuck ⟨nearIdle, nearWritten, farSilent⟩ well)
  · exact Option.map_eq_none_iff.mpr (Rests.stuck ⟨farIdle, farWritten, nearSilent⟩ well)

end Pair

end DistributedNinja.Rpc
