import DistributedNinja.Rpc.Conversation
import DistributedNinja.Rpc.Flow
import DistributedNinja.Rpc.ReadPending

namespace DistributedNinja.Rpc

open Lib

/-- A message that `Append` took: the request of a call, or the answer to the request at that place of the inbox. -/
inductive Sent where
  | request (call : Nat) (message : RpcMessage)
  | answer (place : Nat) (message : RpcMessage)
  deriving DecidableEq

namespace Sent

def message : Sent → RpcMessage
  | .request _ m => m
  | .answer _ m => m

def call? : Sent → Option Nat
  | .request call _ => some call
  | .answer _ _ => none

def place? : Sent → Option Nat
  | .request _ _ => none
  | .answer place _ => some place

end Sent

/-- One end of a connection: its `RpcConnection`, the methods of the services in its `ServiceManager`, and the bytes it
    has written and the other end has not read. `inbox` are the messages it has parsed, `waiting` the places in it of
    the requests whose service has not run `OnServiceDone`; `sent`, with the calls and places, is for the proofs
    only. -/
structure End where
  endpoint : Endpoint
  services : List UInt8 → Option (List (List UInt8))
  wire : List UInt8
  inbox : List RpcMessage
  waiting : List Nat
  sent : List Sent

/-- What happens at one end. Only `read` and `readCompleted` with a positive `rv` take bytes from the other end. -/
inductive EndEvent where
  | registered (service : List UInt8) (methods : List (List UInt8))
  | unregistered (service : List UInt8)
  | called (service method request : List UInt8) (done : Option Unit) (answers : List Int)
  | serviceDone (place : Nat) (response : List UInt8) (answers : List Int)
  | writeCompleted (rv : Int) (answers : List Int)
  | readCompleted (rv : Int)
  | read (rv : Int)
  | noRoom
  | pass
  | returned
  deriving DecidableEq

namespace End

def new (id : Int) (peerAddress : String) : End := ⟨.new id peerAddress, fun _ => none, [], [], [], []⟩

def serves (x : End) (m : RpcMessage) : Bool :=
  match x.services m.service with
  | none => false
  | some methods => methods.contains m.method

def call (pb : Protobuf) (x : End) (request : Call Unit) (answers : List Int) (made : RpcMessage → Sent) : Option End :=
  let named := x.endpoint.named request
  let m := x.endpoint.connection.message named
  if (pb.serializeAsString m).length < kMaxMessageSize then
    (RpcConnection.transmit answers (x.endpoint.connection.enqueue pb named).writeBuf).bind fun bytes =>
      (x.endpoint.step pb (.called request answers)).map fun e =>
        { x with
          endpoint := e
          wire := x.wire ++ bytes
          sent := if x.endpoint.connection.accepts pb named then x.sent ++ [made m] else x.sent }
  else none

def took (x : End) (e : Endpoint) : Option RpcMessage → End
  | none => { x with endpoint := e }
  | some m =>
    { x with
      endpoint := e
      inbox := x.inbox ++ [m]
      waiting := if m.type = .request ∧ x.serves m = true then x.waiting ++ [x.inbox.length] else x.waiting }

def step (pb : Protobuf) (x y : End) : EndEvent → Option (End × End)
  | .registered service methods =>
    if x.services service = none then
      some ({ x with services := Function.update x.services service (some methods) }, y)
    else none
  | .unregistered service =>
    if x.services service = none then none
    else some ({ x with services := Function.update x.services service none }, y)
  | .called service method request done answers =>
    (x.call pb (.callMethod service method request done) answers (.request x.endpoint.calls)).map (·, y)
  | .serviceDone place response answers =>
    if place ∈ x.waiting then
      x.inbox[place]?.bind fun m =>
        (call pb { x with waiting := x.waiting.erase place } (.onServiceDone m.id m.service m.method response) answers
          (.answer place)).map (·, y)
    else none
  | .writeCompleted rv answers =>
    (RpcConnection.transmitCompleted rv answers x.endpoint.connection.writeBuf).bind fun bytes =>
      (x.endpoint.step pb (.writeCompleted rv answers)).map fun e =>
        ({ x with endpoint := e, wire := x.wire ++ bytes }, y)
  | .readCompleted rv =>
    (x.endpoint.step pb (.readCompleted rv (y.wire.take rv.toNat))).map fun e =>
      ({ x with endpoint := e }, { y with wire := y.wire.drop rv.toNat })
  | .read rv =>
    (x.endpoint.step pb (.read rv (y.wire.take rv.toNat))).map fun e =>
      ({ x with endpoint := e }, { y with wire := y.wire.drop rv.toNat })
  | .noRoom => (x.endpoint.step pb .noRoom).map fun e => ({ x with endpoint := e }, y)
  | .pass => (x.endpoint.step pb .pass).map fun e => (x.took e (x.endpoint.nextMessage pb), y)
  | .returned => (x.endpoint.step pb .returned).map fun e => ({ x with endpoint := e }, y)

/-- Everything one step of an end can do. -/
inductive Turn (pb : Protobuf) (x y : End) : EndEvent → End → End → Prop where
  | registered {service : List UInt8} {methods : List (List UInt8)} (absent : x.services service = none) :
      Turn pb x y (.registered service methods)
        { x with services := Function.update x.services service (some methods) } y
  | unregistered {service : List UInt8} (there : x.services service ≠ none) :
      Turn pb x y (.unregistered service) { x with services := Function.update x.services service none } y
  | called {service method request : List UInt8} {done : Option Unit} {answers : List Int} {z : End}
      (made : x.call pb (.callMethod service method request done) answers (.request x.endpoint.calls) = some z) :
      Turn pb x y (.called service method request done answers) z y
  | answered {place : Nat} {m : RpcMessage} {response : List UInt8} {answers : List Int} {z : End}
      (waits : place ∈ x.waiting) (at_ : x.inbox[place]? = some m)
      (made : call pb { x with waiting := x.waiting.erase place } (.onServiceDone m.id m.service m.method response)
        answers (.answer place) = some z) : Turn pb x y (.serviceDone place response answers) z y
  | wrote {rv : Int} {answers : List Int} {bytes : List UInt8} {e : Endpoint}
      (sent : RpcConnection.transmitCompleted rv answers x.endpoint.connection.writeBuf = some bytes)
      (stepped : x.endpoint.step pb (.writeCompleted rv answers) = some e) :
      Turn pb x y (.writeCompleted rv answers) { x with endpoint := e, wire := x.wire ++ bytes } y
  | completed {rv : Int} {e : Endpoint}
      (stepped : x.endpoint.step pb (.readCompleted rv (y.wire.take rv.toNat)) = some e) :
      Turn pb x y (.readCompleted rv) { x with endpoint := e } { y with wire := y.wire.drop rv.toNat }
  | read {rv : Int} {e : Endpoint} (stepped : x.endpoint.step pb (.read rv (y.wire.take rv.toNat)) = some e) :
      Turn pb x y (.read rv) { x with endpoint := e } { y with wire := y.wire.drop rv.toNat }
  | noRoom {e : Endpoint} (stepped : x.endpoint.step pb .noRoom = some e) :
      Turn pb x y .noRoom { x with endpoint := e } y
  | passed {e : Endpoint} (stepped : x.endpoint.step pb .pass = some e) :
      Turn pb x y .pass (x.took e (x.endpoint.nextMessage pb)) y
  | returned {e : Endpoint} (stepped : x.endpoint.step pb .returned = some e) :
      Turn pb x y .returned { x with endpoint := e } y

theorem step_turn {pb : Protobuf} {x y z w : End} {event : EndEvent} (stepped : x.step pb y event = some (z, w)) :
    Turn pb x y event z w := by
  cases event with
  | registered service methods =>
    simp only [End.step, Option.ite_none_right_eq_some, Option.some.injEq, Prod.mk.injEq] at stepped
    obtain ⟨absent, rfl, rfl⟩ := stepped
    exact .registered absent
  | unregistered service =>
    simp only [End.step, Option.ite_none_left_eq_some, Option.some.injEq, Prod.mk.injEq] at stepped
    obtain ⟨there, rfl, rfl⟩ := stepped
    exact .unregistered there
  | called service method request done answers =>
    obtain ⟨next, made, same⟩ := Option.map_eq_some_iff.mp stepped
    obtain ⟨rfl, rfl⟩ := Prod.mk.inj same
    exact .called made
  | serviceDone place response answers =>
    simp only [End.step, Option.ite_none_right_eq_some] at stepped
    obtain ⟨waits, stepped⟩ := stepped
    obtain ⟨m, at_, stepped⟩ := Option.bind_eq_some_iff.mp stepped
    obtain ⟨next, made, same⟩ := Option.map_eq_some_iff.mp stepped
    obtain ⟨rfl, rfl⟩ := Prod.mk.inj same
    exact .answered waits at_ made
  | writeCompleted rv answers =>
    obtain ⟨bytes, sent, stepped⟩ := Option.bind_eq_some_iff.mp stepped
    obtain ⟨e, wrote, same⟩ := Option.map_eq_some_iff.mp stepped
    obtain ⟨rfl, rfl⟩ := Prod.mk.inj same
    exact .wrote sent wrote
  | readCompleted | read | noRoom | pass | returned =>
    obtain ⟨e, moved, same⟩ := Option.map_eq_some_iff.mp stepped
    obtain ⟨rfl, rfl⟩ := Prod.mk.inj same
    constructor
    exact moved

def parted (x : End) : Prop := x.endpoint.control = .idle ∨ x.endpoint.control = .reading

def FlowsTo (pb : Protobuf) (x y : End) : Prop :=
  Flow pb (x.sent.map Sent.message) y.inbox x.endpoint.connection.writeBuf x.wire y.endpoint.connection.readBuf y.parted

structure Numbered (x : End) : Prop where
  correlated : x.endpoint.Correlated
  requests : ∀ call m, .request call m ∈ x.sent →
    m.type = .request ∧ m.id = (UInt32.ofNat call).toUInt64 ∧ call < x.endpoint.calls
  order : (x.sent.filterMap Sent.call?).Pairwise (· < ·)
  answers : ∀ place m, .answer place m ∈ x.sent → m.type = .response ∧ m.response.isSome = true ∧
    ∃ request, x.inbox[place]? = some request ∧ request.type = .request ∧ m.id = request.id
  waits : ∀ place ∈ x.waiting, ∃ request, x.inbox[place]? = some request ∧ request.type = .request
  once : (x.sent.filterMap Sent.place? ++ x.waiting).Nodup

/-- The request of the call has reached `y`, whose service has answered it with `reply`. -/
def Answers (y x : End) (call : Nat) (reply : RpcMessage) : Prop :=
  ∃ place request, .request call request ∈ x.sent ∧ y.inbox[place]? = some request ∧ .answer place reply ∈ y.sent

/-- What `x` has made of answers is made of those of `y` to the very calls. -/
structure Answered (x y : End) : Prop where
  parsed : ∀ p ∈ x.endpoint.parsed, ∃ reply, y.Answers x p.1 reply ∧ reply.response = some p.2
  ran : ∀ call ∈ x.endpoint.ran, ∃ reply, y.Answers x call reply

end End

structure Pair where
  near : End
  far : End

inductive PairEvent where
  | near (event : EndEvent)
  | far (event : EndEvent)
  deriving DecidableEq

namespace Pair

def new (nearId farId : Int) (nearAddress farAddress : String) : Pair :=
  ⟨.new nearId farAddress, .new farId nearAddress⟩

def step (pb : Protobuf) (p : Pair) : PairEvent → Option Pair
  | .near event => (p.near.step pb p.far event).map fun (near, far) => ⟨near, far⟩
  | .far event => (p.far.step pb p.near event).map fun (far, near) => ⟨near, far⟩

end Pair

def EndpointEvent.reads : EndpointEvent → Bool
  | .readCompleted _ _ | .read _ _ | .returned => true
  | .called _ _ | .writeCompleted _ _ | .noRoom | .pass => false

namespace Endpoint

variable {pb : Protobuf} {e u : Endpoint}

theorem afterWrite_holds {result : RpcConnection Response × WriteOutcome} (after : e.afterWrite result = some u) :
    result.2 ≠ .checkFailed ∧ ∃ closes, u = { e with connection := result.1, closes := closes } := by
  obtain ⟨closes, _, rfl⟩ := afterWrite_cases after
  refine ⟨?_, closes, rfl⟩
  intro failed
  obtain ⟨c, outcome⟩ := result
  cases failed
  cases after

theorem called_taken {request : Call Unit} {answers : List Int} {bytes : List UInt8}
    (wf : (e.connection.enqueue pb (e.named request)).writeBuf.WellFormed)
    (sent : RpcConnection.transmit answers (e.connection.enqueue pb (e.named request)).writeBuf = some bytes)
    (stepped : e.step pb (.called request answers) = some u) :
    RpcConnection.Taken (e.connection.enqueue pb (e.named request)).writeBuf u.connection.writeBuf bytes := by
  simp only [step, Option.ite_none_right_eq_some] at stepped
  obtain ⟨holds, closes, rfl⟩ := afterWrite_holds stepped.2
  exact RpcConnection.doWriteLoop_taken wf holds sent

theorem writeCompleted_taken {rv : Int} {answers : List Int} {bytes : List UInt8}
    (wf : e.connection.writeBuf.WellFormed)
    (sent : RpcConnection.transmitCompleted rv answers e.connection.writeBuf = some bytes)
    (stepped : e.step pb (.writeCompleted rv answers) = some u) :
    RpcConnection.Taken e.connection.writeBuf u.connection.writeBuf bytes := by
  simp only [step, Option.ite_none_right_eq_some] at stepped
  obtain ⟨_, closes, rfl⟩ := afterWrite_holds stepped.2
  exact RpcConnection.onWriteCompleted_taken wf sent

theorem enqueue_writeBuf (c : RpcConnection Response) (request : Call Response) :
    (c.enqueue pb request).writeBuf = (c.writeBuf.append (pb.frame (c.message request))).2 := by
  cases request <;> rfl

theorem dispatch_writeBuf (e : Endpoint) (m : RpcMessage) :
    (e.dispatch m).connection.writeBuf = e.connection.writeBuf := by
  have cases := dispatch_cases e m
  generalize e.dispatch m = u at cases ⊢
  cases cases <;> rfl

theorem handleReadResult_split {rv : Int} {bytes : List UInt8} (handled : e.handleReadResult rv bytes = some u) :
    (rv ≤ 0 ∧ u = { e with closes := e.closes + 1, control := .idle }) ∨
      ∃ b, completeRead e.connection.readBuf bytes = some b ∧ u = { e.setReadBuf b with control := .parsing } := by
  unfold handleReadResult at handled
  split at handled
  · rename_i ended
    cases handled
    exact .inl ⟨ended, rfl⟩
  · split at handled
    · obtain ⟨b, read, rfl⟩ := Option.map_eq_some_iff.mp handled
      exact .inr ⟨b, read, rfl⟩
    · cases handled

theorem dispatch_busy {e : Endpoint} (at_ : e.control = .parsing) (m : RpcMessage) :
    ¬ ((e.dispatch m).control = .idle ∨ (e.dispatch m).control = .reading) := by
  rcases dispatch_control e m with same | serving | answering
  · simp [same, at_]
  · simp [serving]
  · simp [answering]

theorem called_keeps {request : Call Unit} {answers : List Int}
    (stepped : e.step pb (.called request answers) = some u) :
    u.connection.readBuf = e.connection.readBuf ∧ u.control = e.control := by
  cases step_effect stepped with
  | called may written more =>
    have buffer := (written_readBuf written).1.trans (enqueue_readBuf pb e.connection (e.named request)).1
    exact ⟨buffer, record_control e _ request⟩

theorem writeCompleted_keeps {rv : Int} {answers : List Int}
    (stepped : e.step pb (.writeCompleted rv answers) = some u) :
    u.connection.readBuf = e.connection.readBuf ∧ u.control = e.control ∧ u.calls = e.calls ∧ u.log = e.log := by
  cases step_effect stepped with
  | wrote at_ written more => exact ⟨(written_readBuf written).1, rfl, rfl, rfl⟩

theorem reader_keeps {event : EndpointEvent} (reads : event.reads = true)
    (stepped : e.step pb event = some u) :
    u.connection.writeBuf = e.connection.writeBuf ∧ u.calls = e.calls ∧ u.log = e.log := by
  cases step_effect stepped with
  | called | wrote | noRoom | broke | stuck | dispatched => cases reads
  | waits | readEnded | readData | completedEnded | completedData | served | answered => exact ⟨rfl, rfl, rfl⟩

theorem noRoom_full (stepped : e.step pb .noRoom = some u) :
    e.control = .reading ∧ makeRoom e.connection.readBuf = none := by
  cases step_effect stepped with
  | noRoom at_ full => exact ⟨at_, full⟩

end Endpoint

namespace End

open Endpoint

variable {pb : Protobuf} {x y : End} {e : Endpoint}

theorem new_flowsTo (pb : Protobuf) (id other : Int) (peerAddress otherAddress : String) :
    (new id peerAddress).FlowsTo pb (new other otherAddress) := Flow.start pb

theorem call_cases {request : Call Unit} {answers : List Int} {made : RpcMessage → Sent} {z : End}
    (called : x.call pb request answers made = some z) :
    (pb.serializeAsString (x.endpoint.connection.message (x.endpoint.named request))).length < kMaxMessageSize ∧
      ∃ bytes e,
        RpcConnection.transmit answers (x.endpoint.connection.enqueue pb (x.endpoint.named request)).writeBuf =
          some bytes ∧
        x.endpoint.step pb (.called request answers) = some e ∧
        z = { x with
          endpoint := e
          wire := x.wire ++ bytes
          sent := if x.endpoint.connection.accepts pb (x.endpoint.named request) then
              x.sent ++ [made (x.endpoint.connection.message (x.endpoint.named request))]
            else x.sent } := by
  unfold End.call at called
  simp only [Option.ite_none_right_eq_some] at called
  obtain ⟨size, called⟩ := called
  obtain ⟨bytes, sent, called⟩ := Option.bind_eq_some_iff.mp called
  obtain ⟨e, stepped, rfl⟩ := Option.map_eq_some_iff.mp called
  exact ⟨size, bytes, e, sent, stepped, rfl⟩

theorem FlowsTo.call (flows : x.FlowsTo pb y) {request : Call Unit} {answers : List Int} {made : RpcMessage → Sent}
    (same : ∀ m, (made m).message = m) {z : End} (called : x.call pb request answers made = some z) :
    z.FlowsTo pb y := by
  obtain ⟨size, bytes, e, sent, stepped, rfl⟩ := call_cases called
  have appended := Flow.append flows size
  rw [← enqueue_writeBuf] at appended
  have after := appended.taken (called_taken appended.queued sent stepped)
  show Flow pb (List.map Sent.message (if x.endpoint.connection.accepts pb (x.endpoint.named request) then _ else _))
    _ _ _ _ _
  rw [apply_ite (List.map Sent.message), List.map_append, List.map_singleton, same]
  exact after

theorem FlowsTo.writeCompleted (flows : x.FlowsTo pb y) {rv : Int} {answers : List Int} {bytes : List UInt8}
    (sent : RpcConnection.transmitCompleted rv answers x.endpoint.connection.writeBuf = some bytes)
    (stepped : x.endpoint.step pb (.writeCompleted rv answers) = some e) :
    FlowsTo pb { x with endpoint := e, wire := x.wire ++ bytes } y :=
  Flow.taken flows (writeCompleted_taken flows.queued sent stepped)

theorem FlowsTo.sender (flows : x.FlowsTo pb y) (same : e.connection.writeBuf = x.endpoint.connection.writeBuf) :
    FlowsTo pb { x with endpoint := e } y := by
  show Flow pb _ _ e.connection.writeBuf _ _ _
  rw [same]
  exact flows

theorem FlowsTo.receiver (flows : y.FlowsTo pb x) (same : e.connection.readBuf = x.endpoint.connection.readBuf)
    (still : e.control = x.endpoint.control) : FlowsTo pb y { x with endpoint := e } := by
  show Flow pb _ _ _ _ e.connection.readBuf (e.control = .idle ∨ e.control = .reading)
  rw [same, still]
  exact flows

theorem FlowsTo.called (flows : y.FlowsTo pb x) {request : Call Unit} {answers : List Int} {made : RpcMessage → Sent}
    {z : End} (called : x.call pb request answers made = some z) : y.FlowsTo pb z := by
  obtain ⟨_, bytes, e, _, stepped, rfl⟩ := call_cases called
  obtain ⟨buffer, still⟩ := called_keeps stepped
  exact flows.receiver buffer still

theorem FlowsTo.returned (flows : y.FlowsTo pb x) (stepped : x.endpoint.step pb .returned = some e) :
    FlowsTo pb y { x with endpoint := e } := by
  cases step_effect stepped with
  | served at_ => exact Flow.imp flows (by simp [parted])
  | answered at_ => exact Flow.imp flows (by simp [parted])

theorem FlowsTo.handled (flows : y.FlowsTo pb x) {rv : Int} {read : Endpoint}
    (same : read.connection.readBuf = x.endpoint.connection.readBuf) (between : x.parted)
    (handled : read.handleReadResult rv (y.wire.take rv.toNat) = some e) :
    FlowsTo pb { y with wire := y.wire.drop rv.toNat } { x with endpoint := e } := by
  rcases handleReadResult_split handled with ⟨ended, rfl⟩ | ⟨b, filled, rfl⟩
  · rw [Int.toNat_of_nonpos ended, List.drop_zero]
    show Flow pb _ _ _ _ read.connection.readBuf _
    rw [same]
    exact Flow.imp flows fun _ => between
  · rw [same] at filled
    exact Flow.imp (Flow.read flows filled) (by simp [parted])

theorem FlowsTo.readCompleted (flows : y.FlowsTo pb x) {rv : Int}
    (stepped : x.endpoint.step pb (.readCompleted rv (y.wire.take rv.toNat)) = some e) :
    FlowsTo pb { y with wire := y.wire.drop rv.toNat } { x with endpoint := e } := by
  simp only [Endpoint.step, Option.ite_none_right_eq_some] at stepped
  have same : (x.endpoint.setReadCallback false).connection.readBuf = x.endpoint.connection.readBuf := rfl
  exact flows.handled same (.inl stepped.1.1) stepped.2

theorem FlowsTo.read (flows : y.FlowsTo pb x) {rv : Int}
    (stepped : x.endpoint.step pb (.read rv (y.wire.take rv.toNat)) = some e) :
    FlowsTo pb { y with wire := y.wire.drop rv.toNat } { x with endpoint := e } := by
  simp only [Endpoint.step, Option.ite_none_right_eq_some] at stepped
  obtain ⟨⟨at_, _⟩, stepped⟩ := stepped
  have between : x.parted := .inr at_
  obtain ⟨room, made, stepped⟩ := Option.bind_eq_some_iff.mp stepped
  obtain ⟨other, again, flow, _⟩ := Flow.makeRoom_some flows between
  obtain rfl : other = room := Option.some.inj (again.symm.trans made)
  split at stepped
  · rename_i waits
    cases stepped
    rw [waits]
    exact Flow.imp flow fun _ => between
  · have roomed : y.FlowsTo pb { x with endpoint := x.endpoint.setReadBuf other } := flow
    exact roomed.handled rfl between stepped

theorem FlowsTo.pass (flows : y.FlowsTo pb x) (stepped : x.endpoint.step pb .pass = some e) :
    (x.endpoint.nextMessage pb = none ∧ e = { x.endpoint with control := .reading } ∧
      FlowsTo pb y { x with endpoint := e }) ∨
    ∃ m next, x.endpoint.nextMessage pb = some m ∧ x.endpoint.control = .parsing ∧
      e = (x.endpoint.setReadBuf next).dispatch m ∧ (y.sent.map Sent.message)[x.inbox.length]? = some m ∧
      FlowsTo pb y (x.took e (some m)) := by
  simp only [Endpoint.step, Option.ite_none_right_eq_some] at stepped
  obtain ⟨at_, stepped⟩ := stepped
  rcases Flow.frameBody_cases flows with ⟨ends, flow⟩ | ⟨m, next, taken, flow⟩
  · rw [ends] at stepped
    cases stepped
    refine .inl ⟨?_, rfl, Flow.imp flow fun _ => trivial⟩
    rw [nextMessage, if_pos at_, ends]
    rfl
  · rw [taken] at stepped
    cases stepped
    refine .inr ⟨m, next, nextMessage_of_taken at_ taken, at_, rfl, ?_, ?_⟩
    · obtain ⟨rest, parts⟩ := flow.inbox_prefix
      rw [← parts, List.append_assoc, List.getElem?_append_right (Nat.le_refl _), Nat.sub_self]
      rfl
    · show Flow pb _ (x.inbox ++ [m]) _ _ ((x.endpoint.setReadBuf next).dispatch m).connection.readBuf _
      rw [(dispatch_readBuf _ m).1]
      exact Flow.imp flow (dispatch_busy (e := x.endpoint.setReadBuf next) at_ m)

end End

end DistributedNinja.Rpc
