import DistributedNinja.Rpc.Connection

namespace DistributedNinja.Rpc

open Lib

/-- An entry of `request_id_to_response_map_`: the response object and the closure of one call, which its number
    stands for, and whether there is a closure. -/
structure Response where
  call : Nat
  done : Bool
  deriving DecidableEq, Repr

/-- Where the connection stands: its thread is in the message loop, `DoReadLoop` takes a pass, the loop of
    `HandleReadResult` takes a pass, and in that pass a service or the closure of an entry runs. -/
inductive Control where
  | idle
  | reading
  | parsing
  | serving
  | answering (id : UInt32)
  deriving DecidableEq, Repr

inductive Action where
  | sent (call : Nat) (id : UInt64) (accepted : Bool)
  | replied (id : UInt64) (accepted : Bool)
  | parsed (call : Nat) (bytes : List UInt8)
  | ran (call : Nat)
  deriving DecidableEq, Repr

/-- One `RpcConnection`, on either side. `closes` counts the calls of `Close`; `calls` numbers those of
    `CallMethod`, and `log` says what was done; these two are for the proofs only. -/
structure Endpoint where
  connection : RpcConnection Response
  control : Control
  closes : Nat
  calls : Nat
  log : List Action

/-- `called` is a call from outside, or from a service or closure that runs; `noRoom` and `read` are passes of
    `DoReadLoop`, with what `Read` returns; `returned` is the end of a service or closure. -/
inductive EndpointEvent where
  | called (request : Call Unit) (answers : List Int)
  | writeCompleted (rv : Int) (answers : List Int)
  | readCompleted (rv : Int) (bytes : List UInt8)
  | noRoom
  | read (rv : Int) (bytes : List UInt8)
  | pass
  | returned

namespace RpcConnection

def message {Done : Type} (c : RpcConnection Done) : Call Done → RpcMessage
  | .callMethod service method request _ =>
    ⟨c.lastRequestId.toUInt64, .request, service, method, some request, none⟩
  | .onServiceDone requestId service method response =>
    ⟨requestId, .response, service, method, none, some response⟩

def accepts {Done : Type} (pb : Protobuf) (c : RpcConnection Done) (request : Call Done) : Bool :=
  (c.writeBuf.append (pb.frame (c.message request))).1

end RpcConnection

namespace Endpoint

def new (id : Int) (peerAddress : String) : Endpoint := ⟨.new id peerAddress, .reading, 0, 0, []⟩

def named (e : Endpoint) : Call Unit → Call Response
  | .callMethod service method request done => .callMethod service method request (some ⟨e.calls, done.isSome⟩)
  | .onServiceDone requestId service method response => .onServiceDone requestId service method response

def mayCall (e : Endpoint) : Bool :=
  match e.control with
  | .idle | .serving | .answering _ => true
  | .reading | .parsing => false

def record (e : Endpoint) (accepted : Bool) : Call Unit → Endpoint
  | .callMethod _ _ _ _ =>
    { e with
      calls := e.calls + 1
      log := e.log ++ [.sent e.calls e.connection.lastRequestId.toUInt64 accepted] }
  | .onServiceDone requestId _ _ _ => { e with log := e.log ++ [.replied requestId accepted] }

def afterWrite (e : Endpoint) : RpcConnection Response × WriteOutcome → Option Endpoint
  | (c, .returned) => some { e with connection := c }
  | (c, .closed _) => some { e with connection := c, closes := e.closes + 1 }
  | (_, .checkFailed) => none

def setReadBuf (e : Endpoint) (b : ReadIOBuffer) : Endpoint :=
  { e with connection := { e.connection with readBuf := b } }

def setReadCallback (e : Endpoint) (pending : Bool) : Endpoint :=
  { e with connection := { e.connection with readCallback := pending } }

def eraseRequest (e : Endpoint) (id : UInt32) : Endpoint :=
  { e with
    connection := { e.connection with
      requestIdToResponse := Function.update e.connection.requestIdToResponse id none } }

def handleReadResult (e : Endpoint) (rv : Int) (bytes : List UInt8) : Option Endpoint :=
  if rv ≤ 0 then some { e with closes := e.closes + 1, control := .idle }
  else if bytes.length = rv.toNat then
    (completeRead e.connection.readBuf bytes).map fun b => { e.setReadBuf b with control := .parsing }
  else none

def parsedBytes (m : RpcMessage) (r : Response) : List Action :=
  if (m.response.getD []).isEmpty then [] else [.parsed r.call (m.response.getD [])]

/-- `OnRequestMessage` and `OnReponseMessage`. For a request nobody serves the service does nothing. -/
def dispatch (e : Endpoint) (m : RpcMessage) : Endpoint :=
  match m.type with
  | .request => { e with control := .serving }
  | .response =>
    match e.connection.requestIdToResponse m.id.toUInt32 with
    | none => e
    | some none => e.eraseRequest m.id.toUInt32
    | some (some r) =>
      if r.done then
        { e with control := .answering m.id.toUInt32, log := e.log ++ (parsedBytes m r ++ [.ran r.call]) }
      else { e.eraseRequest m.id.toUInt32 with log := e.log ++ parsedBytes m r }

/-- What happens next on the thread of the connection; `none` when it cannot happen or a `CHECK` fails. -/
def step (pb : Protobuf) (e : Endpoint) : EndpointEvent → Option Endpoint
  | .called request answers =>
    if e.mayCall then
      (e.record (e.connection.accepts pb (e.named request)) request).afterWrite
        (e.connection.call pb (e.named request) answers)
    else none
  | .writeCompleted rv answers =>
    if e.control = .idle ∧ e.connection.writeCallback = true then
      e.afterWrite (e.connection.onWriteCompleted rv answers)
    else none
  | .readCompleted rv bytes =>
    if e.control = .idle ∧ e.connection.readCallback = true then
      (e.setReadCallback false).handleReadResult rv bytes
    else none
  | .noRoom =>
    if e.control = .reading ∧ makeRoom e.connection.readBuf = none then some { e with control := .idle }
    else none
  | .read rv bytes =>
    if e.control = .reading ∧ e.connection.readCallback = false then
      (makeRoom e.connection.readBuf).bind fun room =>
        if rv = errIoPending then some { (e.setReadBuf room).setReadCallback true with control := .idle }
        else (e.setReadBuf room).handleReadResult rv bytes
    else none
  | .pass =>
    if e.control = .parsing then
      match frameBody pb.parseFromArray e.connection.readBuf with
      | none => some { e with control := .reading }
      | some (none, next) => some (e.setReadBuf next)
      | some (some m, next) => some ((e.setReadBuf next).dispatch m)
    else none
  | .returned =>
    match e.control with
    | .serving => some { e with control := .parsing }
    | .answering id => some { e.eraseRequest id with control := .parsing }
    | _ => none

def ran (e : Endpoint) : List Nat :=
  e.log.filterMap fun
    | .ran call => some call
    | _ => none

def parsed (e : Endpoint) : List (Nat × List UInt8) :=
  e.log.filterMap fun
    | .parsed call bytes => some (call, bytes)
    | _ => none

def Written (c d : RpcConnection Response) : Prop :=
  d = { c with writeBuf := d.writeBuf, writeCallback := d.writeCallback }

theorem doWriteLoop_written (answers : List Int) (c : RpcConnection Response) :
    Written c (c.doWriteLoop answers).1 := by
  obtain ⟨b, pending, same⟩ := RpcConnection.doWriteLoop_written answers c
  rw [same]
  rfl

theorem onWriteCompleted_written (c : RpcConnection Response) (rv : Int) (answers : List Int) :
    Written c (c.onWriteCompleted rv answers).1 := by
  obtain ⟨b, pending, same⟩ := RpcConnection.onWriteCompleted_written c rv answers
  rw [same]
  rfl

inductive Effect (pb : Protobuf) (e : Endpoint) : EndpointEvent → Endpoint → Prop where
  | called {request : Call Unit} {answers : List Int} {d : RpcConnection Response} {closes : Nat}
      (may : e.mayCall = true) (written : Written (e.connection.enqueue pb (e.named request)) d)
      (more : e.closes ≤ closes) : Effect pb e (.called request answers)
        { e.record (e.connection.accepts pb (e.named request)) request with connection := d, closes := closes }
  | wrote {rv : Int} {answers : List Int} {d : RpcConnection Response} {closes : Nat}
      (at_ : e.control = .idle) (written : Written e.connection d) (more : e.closes ≤ closes) :
      Effect pb e (.writeCompleted rv answers) { e with connection := d, closes := closes }
  | noRoom (at_ : e.control = .reading) (full : makeRoom e.connection.readBuf = none) :
      Effect pb e .noRoom { e with control := .idle }
  | waits {room : ReadIOBuffer} {bytes : List UInt8} (at_ : e.control = .reading)
      (made : makeRoom e.connection.readBuf = some room) :
      Effect pb e (.read errIoPending bytes)
        { (e.setReadBuf room).setReadCallback true with control := .idle }
  | readEnded {rv : Int} {bytes : List UInt8} {room : ReadIOBuffer} (at_ : e.control = .reading)
      (made : makeRoom e.connection.readBuf = some room) :
      Effect pb e (.read rv bytes) { e.setReadBuf room with closes := e.closes + 1, control := .idle }
  | readData {rv : Int} {bytes : List UInt8} {room b : ReadIOBuffer} (at_ : e.control = .reading)
      (made : makeRoom e.connection.readBuf = some room) (read : completeRead room bytes = some b) :
      Effect pb e (.read rv bytes) { e.setReadBuf b with control := .parsing }
  | completedEnded {rv : Int} {bytes : List UInt8} (at_ : e.control = .idle) :
      Effect pb e (.readCompleted rv bytes)
        { e.setReadCallback false with closes := e.closes + 1, control := .idle }
  | completedData {rv : Int} {bytes : List UInt8} {b : ReadIOBuffer} (at_ : e.control = .idle)
      (read : completeRead e.connection.readBuf bytes = some b) :
      Effect pb e (.readCompleted rv bytes) { (e.setReadCallback false).setReadBuf b with control := .parsing }
  | broke (at_ : e.control = .parsing) (ends : frameBody pb.parseFromArray e.connection.readBuf = none) :
      Effect pb e .pass { e with control := .reading }
  | stuck {next : ReadIOBuffer} (at_ : e.control = .parsing)
      (taken : frameBody pb.parseFromArray e.connection.readBuf = some (none, next)) :
      Effect pb e .pass (e.setReadBuf next)
  | dispatched {m : RpcMessage} {next : ReadIOBuffer} (at_ : e.control = .parsing)
      (taken : frameBody pb.parseFromArray e.connection.readBuf = some (some m, next)) :
      Effect pb e .pass ((e.setReadBuf next).dispatch m)
  | served (at_ : e.control = .serving) : Effect pb e .returned { e with control := .parsing }
  | answered {id : UInt32} (at_ : e.control = .answering id) :
      Effect pb e .returned { e.eraseRequest id with control := .parsing }

variable {pb : Protobuf} {e u : Endpoint} {event : EndpointEvent}

theorem afterWrite_cases {result : RpcConnection Response × WriteOutcome} (after : e.afterWrite result = some u) :
    ∃ closes, e.closes ≤ closes ∧ u = { e with connection := result.1, closes := closes } := by
  obtain ⟨c, outcome⟩ := result
  cases outcome with
  | returned =>
    cases after
    exact ⟨e.closes, Nat.le_refl _, rfl⟩
  | closed rv =>
    cases after
    exact ⟨e.closes + 1, Nat.le_succ _, rfl⟩
  | checkFailed => cases after

theorem handleReadResult_cases {rv : Int} {bytes : List UInt8} (handled : e.handleReadResult rv bytes = some u) :
    u = { e with closes := e.closes + 1, control := .idle } ∨
      ∃ b, completeRead e.connection.readBuf bytes = some b ∧ u = { e.setReadBuf b with control := .parsing } := by
  unfold handleReadResult at handled
  split at handled
  · cases handled
    exact .inl rfl
  · split at handled
    · obtain ⟨b, read, rfl⟩ := Option.map_eq_some_iff.mp handled
      exact .inr ⟨b, read, rfl⟩
    · cases handled

theorem record_closes (e : Endpoint) (accepted : Bool) (request : Call Unit) :
    (e.record accepted request).closes = e.closes := by
  cases request <;> rfl

theorem step_effect (stepped : e.step pb event = some u) : Effect pb e event u := by
  cases event with
  | called request answers =>
    simp only [step] at stepped
    split at stepped
    · rename_i may
      obtain ⟨closes, more, rfl⟩ := afterWrite_cases stepped
      rw [record_closes] at more
      exact .called may (doWriteLoop_written answers _) more
    · cases stepped
  | writeCompleted rv answers =>
    simp only [step] at stepped
    split at stepped
    · rename_i pending
      obtain ⟨closes, more, rfl⟩ := afterWrite_cases stepped
      exact .wrote pending.1 (onWriteCompleted_written _ rv answers) more
    · cases stepped
  | readCompleted rv bytes =>
    simp only [step] at stepped
    split at stepped
    · rename_i pending
      rcases handleReadResult_cases stepped with rfl | ⟨b, read, rfl⟩
      · exact .completedEnded pending.1
      · exact .completedData pending.1 read
    · cases stepped
  | noRoom =>
    simp only [step] at stepped
    split at stepped
    · rename_i full
      cases stepped
      exact .noRoom full.1 full.2
    · cases stepped
  | read rv bytes =>
    simp only [step] at stepped
    split at stepped
    · rename_i free
      obtain ⟨room, made, stepped⟩ := Option.bind_eq_some_iff.mp stepped
      split at stepped
      · rename_i pending
        cases stepped
        rw [pending]
        exact .waits free.1 made
      · rcases handleReadResult_cases stepped with rfl | ⟨b, read, rfl⟩
        · exact .readEnded free.1 made
        · exact .readData free.1 made read
    · cases stepped
  | pass =>
    simp only [step] at stepped
    split at stepped
    · rename_i at_
      split at stepped
      · rename_i ends
        cases stepped
        exact .broke at_ ends
      · rename_i next taken
        cases stepped
        exact .stuck at_ taken
      · rename_i m next taken
        cases stepped
        exact .dispatched at_ taken
    · cases stepped
  | returned =>
    simp only [step] at stepped
    split at stepped
    · rename_i at_
      cases stepped
      exact .served at_
    · rename_i id at_
      cases stepped
      exact .answered at_
    · cases stepped

end Endpoint

end DistributedNinja.Rpc
