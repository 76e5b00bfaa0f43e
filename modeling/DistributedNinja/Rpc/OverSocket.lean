import DistributedNinja.Net.SocketLibevent
import DistributedNinja.Rpc.Deliveries

namespace DistributedNinja.Rpc

open Lib Net

inductive Completion where
  | onReadCompleted
  | onWriteCompleted
  deriving DecidableEq

structure WriteCall where
  result : Except SystemError Nat
  watch : Option SystemError

def WriteCall.answer (call : WriteCall) : Int := SocketLibevent.transferred call.result

/-- A connection over its socket, `SocketLibevent` under the classes that pass its calls on. The two flags of the
    connection in `endpoint` stay unset: what is pending is what the socket has a callback for. -/
structure OverSocket where
  endpoint : Endpoint
  socket : SocketLibevent Completion

/-- A call, what the message loop says about the descriptor, and the other steps of the thread, with what the system
    answers on the way. -/
inductive OverSocketEvent where
  | called (request : Call Unit) (writes : List WriteCall)
  | canRead (accepts : AcceptAnswer) (reads : Except SystemError (List UInt8))
  | canWrite (connects : SystemError) (write : Except SystemError Nat) (writes : List WriteCall)
  | noRoom
  | read (reads : Except SystemError (List UInt8)) (watch : Option SystemError)
  | pass
  | returned

def Endpoint.WritesWithin (pb : Protobuf) (e : Endpoint) : EndpointEvent → Prop
  | .called request answers =>
    (RpcConnection.transmit answers (e.connection.enqueue pb (e.named request)).writeBuf).isSome = true
  | .writeCompleted rv answers => (RpcConnection.transmitCompleted rv answers e.connection.writeBuf).isSome = true
  | _ => True

namespace OverSocket

open Endpoint

variable {pb : Protobuf}

def within (length : Nat) : Except SystemError Nat → Bool
  | .error _ => true
  | .ok count => decide (count ≤ length)

def bytesRead : Except SystemError (List UInt8) → List UInt8
  | .error _ => []
  | .ok bytes => bytes

/-- The `DCHECK`s of `Read` and `Write` that are about the socket. -/
def connected (s : SocketLibevent Completion) : Bool := s.socketFd.isSome && !s.waitingConnect

/-- `DoWriteLoop`; `none` when a `DCHECK` fails or the system has not answered. -/
def doWriteLoop : List WriteCall → RpcConnection Response → SocketLibevent Completion →
    Option ((RpcConnection Response × WriteOutcome) × SocketLibevent Completion)
  | calls, c, s =>
    if c.writeBuf.getSizeToWrite = 0 then some ((c, .returned), s)
    else if s.writeCallback.isSome then some ((c, .checkFailed), s)
    else
      match calls with
      | [] => none
      | call :: rest =>
        if connected s && within c.writeBuf.getSizeToWrite call.result then
          match s.write c.writeBuf.getSizeToWrite call.result call.watch .onWriteCompleted with
          | (rv, s) =>
            if rv = errIoPending ∨ rv = 0 then some ((c, .returned), s)
            else if rv < 0 then some ((c, .closed rv), s)
            else doWriteLoop rest { c with writeBuf := c.writeBuf.didConsume rv.toNat } s
        else none

def onWriteCompleted (rv : Int) (writes : List WriteCall) (c : RpcConnection Response)
    (s : SocketLibevent Completion) : Option ((RpcConnection Response × WriteOutcome) × SocketLibevent Completion) :=
  if rv < 0 then some ((c, .closed rv), s)
  else doWriteLoop writes { c with writeBuf := c.writeBuf.didConsume rv.toNat } s

/-- What happens next on the thread of the connection; `none` when it cannot happen or a check fails. -/
def step (pb : Protobuf) (o : OverSocket) : OverSocketEvent → Option OverSocket
  | .called request writes =>
    let named := o.endpoint.named request
    if o.endpoint.mayCall then
      (doWriteLoop writes (o.endpoint.connection.enqueue pb named) o.socket).bind fun (result, s) =>
        ((o.endpoint.record (o.endpoint.connection.accepts pb named) request).afterWrite result).map (⟨·, s⟩)
    else none
  | .canRead accepts reads =>
    if o.endpoint.control = .idle ∧ (o.socket.acceptSocketWatcher || o.socket.readSocketWatcher) = true ∧
        within o.socket.readBufLen (reads.map List.length) = true then
      (o.socket.onFileCanReadWithoutBlocking accepts (reads.map List.length)).bind fun
        | (s, none) => some { o with socket := s }
        | (s, some (.onReadCompleted, rv)) => (o.endpoint.handleReadResult rv (bytesRead reads)).map (⟨·, s⟩)
        | (_, some (.onWriteCompleted, _)) => none
    else none
  | .canWrite connects write writes =>
    if o.endpoint.control = .idle ∧ o.socket.writeSocketWatcher = true ∧
        within o.socket.writeBufLen write = true then
      (o.socket.onFileCanWriteWithoutBlocking connects write).bind fun
        | (s, none) => some { o with socket := s }
        | (s, some (.onWriteCompleted, rv)) =>
          (onWriteCompleted rv writes o.endpoint.connection s).bind fun (result, s) =>
            (o.endpoint.afterWrite result).map (⟨·, s⟩)
        | (_, some (.onReadCompleted, _)) => none
    else none
  | .noRoom => (o.endpoint.step pb .noRoom).map (⟨·, o.socket⟩)
  | .read reads watch =>
    if o.endpoint.control = .reading then
      (makeRoom o.endpoint.connection.readBuf).bind fun room =>
        if connected o.socket = true ∧ o.socket.readCallback = none ∧ 0 < room.remainingCapacity ∧
            within room.remainingCapacity (reads.map List.length) = true then
          match o.socket.read room.remainingCapacity (reads.map List.length) watch .onReadCompleted with
          | (rv, s) =>
            if rv = errIoPending then some ⟨{ o.endpoint.setReadBuf room with control := .idle }, s⟩
            else ((o.endpoint.setReadBuf room).handleReadResult rv (bytesRead reads)).map (⟨·, s⟩)
        else none
    else none
  | .pass => (o.endpoint.step pb .pass).map (⟨·, o.socket⟩)
  | .returned => (o.endpoint.step pb .returned).map (⟨·, o.socket⟩)

def pending (c : RpcConnection Response) (s : SocketLibevent Completion) : RpcConnection Response :=
  { c with readCallback := s.readCallback.isSome, writeCallback := s.writeCallback.isSome }

def view (s : SocketLibevent Completion) (e : Endpoint) : Endpoint := { e with connection := pending e.connection s }

def shown (o : OverSocket) : Endpoint := view o.socket o.endpoint

structure Held (s : SocketLibevent Completion) : Prop where
  wired : s.Wired
  connected : connected s = true
  noAccept : s.acceptCallback = none
  reads : ∀ callback, s.readCallback = some callback → callback = .onReadCompleted
  writes : ∀ callback, s.writeCallback = some callback → callback = .onWriteCompleted

def WritesNext (c : RpcConnection Response) (s : SocketLibevent Completion) : Prop :=
  s.writeCallback.isSome = true → s.writeBufLen = c.writeBuf.getSizeToWrite

variable {s t : SocketLibevent Completion} {c : RpcConnection Response} {e : Endpoint}

theorem Held.parts (held : Held s) : s.socketFd ≠ none ∧ s.waitingConnect = false := by
  have both := held.connected
  simp only [OverSocket.connected, Bool.and_eq_true, Bool.not_eq_true'] at both
  exact ⟨Option.isSome_iff_ne_none.mp both.1, both.2⟩

/-- What a call of `Write` or `Read` comes back with, when `WatchFileDescriptor` leaves no `EAGAIN` behind. -/
inductive Returns (s kept : SocketLibevent Completion) (result : Except SystemError Nat) :
    Int × SocketLibevent Completion → Prop where
  | waits (nothing : SocketLibevent.transferred result ≤ 0) : Returns s kept result (errIoPending, kept)
  | failed {rv : Int} (settled : rv ≠ errIoPending) (nonpositive : rv ≤ 0)
      (nothing : SocketLibevent.transferred result ≤ 0) : Returns s kept result (rv, s)
  | done (positive : 0 < SocketLibevent.transferred result) :
      Returns s kept result (SocketLibevent.transferred result, s)

theorem pending_nonpositive {rv : Int} (pending : rv = NetError.ioPending) : rv ≤ 0 := by
  rw [pending]
  exact Int.le_of_lt (Int.negSucc_lt_zero 0)

theorem returns_transferred {kept : SocketLibevent Completion} {result : Except SystemError Nat}
    (settled : SocketLibevent.transferred result ≠ errIoPending) :
    Returns s kept result (SocketLibevent.transferred result, s) := by
  by_cases positive : 0 < SocketLibevent.transferred result
  · exact .done positive
  · exact .failed settled (Int.not_lt.mp positive) (Int.not_lt.mp positive)

theorem returns_unwatched {kept : SocketLibevent Completion} {result : Except SystemError Nat} {error : SystemError}
    (nothing : SocketLibevent.transferred result ≤ 0) (watched : some error ≠ some SystemError.eagain) :
    Returns s kept result (mapSystemError error, s) := by
  refine .failed ?_ (mapSystemError_nonpos error) nothing
  intro again
  exact watched (congrArg some ((mapSystemError_eq_ioPending error).mp again))

theorem write_returns (s : SocketLibevent Completion) (length : Nat) (result : Except SystemError Nat)
    {watch : Option SystemError} (watched : watch ≠ some .eagain) (callback : Completion) :
    Returns s { s with writeSocketWatcher := true, writeBufLen := length, writeCallback := some callback } result
      (s.write length result watch callback) := by
  unfold SocketLibevent.write SocketLibevent.waitForWrite
  dsimp only
  split
  · rename_i pending
    split
    · exact returns_unwatched (pending_nonpositive pending) watched
    · exact .waits (pending_nonpositive pending)
  · rename_i settled
    exact returns_transferred settled

theorem read_returns (s : SocketLibevent Completion) (length : Nat) (result : Except SystemError Nat)
    {watch : Option SystemError} (watched : watch ≠ some .eagain) (callback : Completion) :
    Returns s { s with readSocketWatcher := true, readBufLen := length, readCallback := some callback } result
      (s.read length result watch callback) := by
  unfold SocketLibevent.read
  dsimp only
  split
  · rename_i settled
    exact returns_transferred settled
  · rename_i pending
    have nothing := pending_nonpositive (not_not.mp pending)
    split
    · exact returns_unwatched nothing watched
    · exact .waits nothing

theorem taken_within {length : Nat} {result : Except SystemError Nat} (fits : within length result = true)
    (positive : 0 < SocketLibevent.transferred result) : (SocketLibevent.transferred result).toNat ≤ length := by
  cases result with
  | error error => exact absurd (mapSystemError_nonpos error) (Int.not_le.mpr positive)
  | ok count => exact of_decide_eq_true fits

structure SpareReads (s t : SocketLibevent Completion) : Prop where
  callback : t.readCallback = s.readCallback
  length : t.readBufLen = s.readBufLen

theorem Held.writing (held : Held s) {length : Nat} (positive : 0 < length) :
    Held { s with writeSocketWatcher := true, writeBufLen := length, writeCallback := some .onWriteCompleted } := by
  have wired := held.wired
  refine ⟨?_, held.connected, held.noAccept, held.reads, fun callback set => (Option.some.inj set).symm⟩
  exact ⟨wired.acceptWatched, wired.readWatched, rfl, fun _ => rfl, wired.readLength, fun _ _ => positive,
    fun invalid => absurd invalid held.parts.1⟩

theorem doWriteLoop_stops (writes : List WriteCall)
    (stops : c.writeBuf.getSizeToWrite = 0 ∨ s.writeCallback.isSome = true) :
    ∃ outcome, doWriteLoop writes c s = some ((c, outcome), s) ∧
      (pending c s).doWriteLoop [] = (pending c s, outcome) := by
  by_cases drained : c.writeBuf.getSizeToWrite = 0
  · refine ⟨.returned, ?_, ?_⟩
    · unfold doWriteLoop
      rw [if_pos drained]
    · unfold RpcConnection.doWriteLoop
      exact if_pos drained
  · have busy := stops.resolve_left drained
    refine ⟨.checkFailed, ?_, ?_⟩
    · unfold doWriteLoop
      rw [if_neg drained, if_pos busy]
    · exact Prod.ext_iff.mpr ⟨by
        unfold RpcConnection.doWriteLoop
        simp [pending, drained, busy], RpcConnection.doWriteLoop_pending [] busy drained⟩

theorem doWriteLoop_asks {rv : Int} {rest : List Int} (content : c.writeBuf.getSizeToWrite ≠ 0)
    (free : c.writeCallback = false) :
    c.doWriteLoop (rv :: rest) =
      if rv = errIoPending then ({ c with writeCallback := true }, .returned)
      else if rv = 0 then (c, .returned)
      else if rv < 0 then (c, .closed rv)
      else RpcConnection.doWriteLoop rest { c with writeBuf := c.writeBuf.didConsume rv.toNat } := by
  conv_lhs => unfold RpcConnection.doWriteLoop
  rw [if_neg content, free, if_neg Bool.false_ne_true]

/-- What a write loop over `s` that has come back with `t` was to the connection. The bytes that the system has taken
    are those that the connection counts. -/
structure Looped (writes : List WriteCall) (c : RpcConnection Response) (s : SocketLibevent Completion)
    (result : RpcConnection Response × WriteOutcome) (t : SocketLibevent Completion) : Prop where
  held : Held t
  spares : SpareReads s t
  next : WritesNext result.1 t
  buffer : result.1.readBuf = c.readBuf
  loop : ∃ answers, (pending c s).doWriteLoop answers = (pending result.1 t, result.2) ∧
    (result.2 ≠ .checkFailed → ∃ bytes, RpcConnection.transmit answers c.writeBuf = some bytes ∧
      RpcConnection.transmit (writes.map WriteCall.answer) c.writeBuf = some bytes)

theorem transmit_drained (answers : List Int) {b : QueuedWriteIOBuffer} (drained : b.getSizeToWrite = 0) :
    RpcConnection.transmit answers b = some [] := by
  cases answers with
  | nil => rfl
  | cons rv rest => rw [RpcConnection.transmit, if_pos (.inl drained)]

theorem transmit_nothing {rv : Int} (rest : List Int) (b : QueuedWriteIOBuffer) (nothing : rv ≤ 0) :
    RpcConnection.transmit (rv :: rest) b = some [] := by
  rw [RpcConnection.transmit, if_pos (.inr nothing)]

theorem transmit_takes {rv : Int} (rest : List Int) {b : QueuedWriteIOBuffer} (content : b.getSizeToWrite ≠ 0)
    (positive : 0 < rv) (inside : rv.toNat ≤ b.getSizeToWrite) :
    RpcConnection.transmit (rv :: rest) b =
      (RpcConnection.transmit rest (b.didConsume rv.toNat)).map (b.bytesToWrite rv.toNat ++ ·) := by
  rw [RpcConnection.transmit, if_neg (by simp only [content, false_or]; omega), if_pos inside]

theorem looped_of_stops {writes : List WriteCall} {result : RpcConnection Response × WriteOutcome} (held : Held s)
    (next : WritesNext c s) (stops : c.writeBuf.getSizeToWrite = 0 ∨ s.writeCallback.isSome = true)
    (looped : doWriteLoop writes c s = some (result, t)) : Looped writes c s result t := by
  obtain ⟨outcome, again, same⟩ := doWriteLoop_stops writes stops
  rw [looped] at again
  cases again
  refine ⟨held, ⟨rfl, rfl⟩, next, rfl, [], same, ?_⟩
  intro holds
  have drained : c.writeBuf.getSizeToWrite = 0 := by
    by_contra content
    have busy := stops.resolve_left content
    unfold doWriteLoop at looped
    rw [if_neg content, if_pos busy] at looped
    cases looped
    exact holds rfl
  exact ⟨[], rfl, transmit_drained _ drained⟩

/-- The write loop over a socket is that of the connection, with answers that the socket's own contract allows. -/
theorem doWriteLoop_looped {writes : List WriteCall} {result : RpcConnection Response × WriteOutcome} (held : Held s)
    (next : WritesNext c s) (watched : ∀ call ∈ writes, call.watch ≠ some .eagain)
    (looped : doWriteLoop writes c s = some (result, t)) : Looped writes c s result t := by
  induction writes generalizing c with
  | nil =>
    by_cases stops : c.writeBuf.getSizeToWrite = 0 ∨ s.writeCallback.isSome = true
    · exact looped_of_stops held next stops looped
    · have ⟨content, idle⟩ := not_or.mp stops
      unfold doWriteLoop at looped
      rw [if_neg content, if_neg idle] at looped
      cases looped
  | cons call rest ih =>
    by_cases stops : c.writeBuf.getSizeToWrite = 0 ∨ s.writeCallback.isSome = true
    · exact looped_of_stops held next stops looped
    · have ⟨content, idle⟩ := not_or.mp stops
      have free : (pending c s).writeCallback = false := Bool.eq_false_iff.mpr idle
      unfold doWriteLoop at looped
      rw [if_neg content, if_neg idle] at looped
      simp only [Option.ite_none_right_eq_some, Bool.and_eq_true] at looped
      obtain ⟨⟨_, fits⟩, looped⟩ := looped
      have returns := write_returns s c.writeBuf.getSizeToWrite call.result (watched call List.mem_cons_self)
        .onWriteCompleted
      generalize s.write c.writeBuf.getSizeToWrite call.result call.watch .onWriteCompleted = answer at looped returns
      cases returns with
      | waits nothing =>
        rw [if_pos (.inl rfl)] at looped
        cases looped
        refine ⟨held.writing (Nat.pos_of_ne_zero content), ⟨rfl, rfl⟩, fun _ => rfl, rfl, [errIoPending], ?_, ?_⟩
        · rw [doWriteLoop_asks (c := pending c s) content free, if_pos rfl]
          rfl
        · exact fun _ => ⟨[], transmit_nothing _ _ (pending_nonpositive rfl), transmit_nothing _ _ nothing⟩
      | @failed rv settled nonpositive nothing =>
        have silent : ∃ bytes, RpcConnection.transmit [rv] c.writeBuf = some bytes ∧
            RpcConnection.transmit ((call :: rest).map WriteCall.answer) c.writeBuf = some bytes :=
          ⟨[], transmit_nothing _ _ nonpositive, transmit_nothing _ _ nothing⟩
        by_cases ended : rv = 0
        · rw [if_pos (.inr ended)] at looped
          cases looped
          refine ⟨held, ⟨rfl, rfl⟩, next, rfl, [rv], ?_, fun _ => silent⟩
          rw [doWriteLoop_asks (c := pending c s) content free, if_neg settled, if_pos ended]
        · rw [if_neg (by simp [settled, ended]), if_pos (by omega)] at looped
          cases looped
          refine ⟨held, ⟨rfl, rfl⟩, next, rfl, [rv], ?_, fun _ => silent⟩
          rw [doWriteLoop_asks (c := pending c s) content free, if_neg settled, if_neg ended, if_pos (by omega)]
      | done positive =>
        have inside := taken_within fits positive
        generalize rv_def : SocketLibevent.transferred call.result = rv at looped positive inside
        have settled : rv ≠ errIoPending := by
          unfold errIoPending
          omega
        rw [if_neg (by simp [settled]; omega), if_neg (by omega)] at looped
        have unset : WritesNext { c with writeBuf := c.writeBuf.didConsume rv.toNat } s :=
          fun set => absurd set idle
        obtain ⟨after, spares, nextWrite, buffer, answers, same, taken⟩ :=
          ih unset (fun call member => watched call (List.mem_cons_of_mem _ member)) looped
        refine ⟨after, spares, nextWrite, buffer, rv :: answers, ?_, ?_⟩
        · rw [doWriteLoop_asks (c := pending c s) content free, if_neg settled, if_neg (by omega), if_neg (by omega)]
          exact same
        · intro holds
          obtain ⟨bytes, sent, given⟩ := taken holds
          refine ⟨c.writeBuf.bytesToWrite rv.toNat ++ bytes, ?_, ?_⟩
          · rw [transmit_takes answers content positive inside, sent]
            rfl
          · rw [List.map_cons, WriteCall.answer, rv_def, transmit_takes _ content positive inside, given]
            rfl

theorem onWriteCompleted_looped {rv : Int} {writes : List WriteCall} {result : RpcConnection Response × WriteOutcome}
    (held : Held s) (unset : s.writeCallback = none) (watched : ∀ call ∈ writes, call.watch ≠ some .eagain)
    (fits : rv < 0 ∨ rv.toNat ≤ c.writeBuf.getSizeToWrite)
    (completed : onWriteCompleted rv writes c s = some (result, t)) :
    Held t ∧ SpareReads s t ∧ WritesNext result.1 t ∧ result.1.readBuf = c.readBuf ∧
      ∃ answers, (pending c s).onWriteCompleted rv answers = (pending result.1 t, result.2) ∧
        (result.2 ≠ .checkFailed → ∃ bytes, RpcConnection.transmitCompleted rv answers c.writeBuf = some bytes ∧
          RpcConnection.transmitCompleted rv (writes.map WriteCall.answer) c.writeBuf = some bytes) := by
  have nothing : ∀ d : RpcConnection Response, WritesNext d s := by
    intro d set
    rw [unset] at set
    cases set
  have free : (pending c s).writeCallback = false := by
    show s.writeCallback.isSome = false
    rw [unset]
    rfl
  have reset : { pending c s with writeCallback := false } = pending c s := by rw [← free]
  unfold onWriteCompleted at completed
  split at completed
  · rename_i failed
    cases completed
    refine ⟨held, ⟨rfl, rfl⟩, nothing c, rfl, [], ?_, fun _ => ⟨[], ?_, ?_⟩⟩
    · rw [RpcConnection.onWriteCompleted, if_pos failed, reset]
    · rw [RpcConnection.transmitCompleted, if_pos failed]
    · rw [RpcConnection.transmitCompleted, if_pos failed]
  · rename_i taken
    have inside := fits.resolve_left taken
    obtain ⟨after, spares, next, buffer, answers, same, sent⟩ := doWriteLoop_looped held (nothing _) watched completed
    refine ⟨after, spares, next, buffer, answers, ?_, ?_⟩
    · rw [RpcConnection.onWriteCompleted, if_neg taken, reset]
      exact same
    · intro holds
      obtain ⟨bytes, sent, given⟩ := sent holds
      refine ⟨c.writeBuf.bytesToWrite rv.toNat ++ bytes, ?_, ?_⟩
      · rw [RpcConnection.transmitCompleted, if_neg taken, if_pos inside, sent]
        rfl
      · rw [RpcConnection.transmitCompleted, if_neg taken, if_pos inside, given]
        rfl

theorem view_handleReadResult (rv : Int) (bytes : List UInt8) :
    (view s e).handleReadResult rv bytes = (e.handleReadResult rv bytes).map (view s) := by
  unfold Endpoint.handleReadResult
  split
  · rfl
  · split
    · rw [Option.map_map]
      rfl
    · rfl

theorem view_afterWrite (result : RpcConnection Response × WriteOutcome) :
    (view s e).afterWrite (pending result.1 t, result.2) = (e.afterWrite result).map (view t) := by
  obtain ⟨c, outcome⟩ := result
  cases outcome <;> rfl

theorem view_record (accepted : Bool) (request : Call Unit) :
    (view s e).record accepted request = view s (e.record accepted request) := by
  cases request <;> rfl

theorem pending_enqueue (pb : Protobuf) (request : Call Response) :
    (pending c s).enqueue pb request = pending (c.enqueue pb request) s := by
  cases request <;> rfl

theorem view_accepts (pb : Protobuf) (request : Call Unit) :
    (view s e).connection.accepts pb ((view s e).named request) = e.connection.accepts pb (e.named request) := by
  cases request <;> rfl

theorem view_named (request : Call Unit) : (view s e).named request = e.named request := by
  cases request <;> rfl

theorem view_dispatch (m : RpcMessage) : (view s e).dispatch m = view s (e.dispatch m) := by
  have same : (view s e).connection.requestIdToResponse = e.connection.requestIdToResponse := rfl
  unfold Endpoint.dispatch
  rw [same]
  cases m.type with
  | request => rfl
  | response =>
    dsimp only
    cases e.connection.requestIdToResponse m.id.toUInt32 with
    | none => rfl
    | some entry =>
      cases entry with
      | none => rfl
      | some r =>
        dsimp only
        split <;> rfl

theorem view_pass (pb : Protobuf) : (view s e).step pb .pass = (e.step pb .pass).map (view s) := by
  have at_ : (view s e).control = e.control := rfl
  have buffer : (view s e).connection.readBuf = e.connection.readBuf := rfl
  unfold Endpoint.step
  dsimp only
  rw [at_, buffer]
  by_cases parsing : e.control = .parsing
  · rw [if_pos parsing, if_pos parsing]
    cases frameBody pb.parseFromArray e.connection.readBuf with
    | none => rfl
    | some taken =>
      obtain ⟨message, next⟩ := taken
      cases message with
      | none => rfl
      | some m => exact congrArg some (view_dispatch m (e := e.setReadBuf next))
  · rw [if_neg parsing, if_neg parsing]
    rfl

theorem view_noRoom (pb : Protobuf) : (view s e).step pb .noRoom = (e.step pb .noRoom).map (view s) := by
  have at_ : (view s e).control = e.control := rfl
  have buffer : (view s e).connection.readBuf = e.connection.readBuf := rfl
  unfold Endpoint.step
  dsimp only
  rw [at_, buffer]
  split <;> rfl

theorem view_returned (pb : Protobuf) : (view s e).step pb .returned = (e.step pb .returned).map (view s) := by
  have at_ : (view s e).control = e.control := rfl
  unfold Endpoint.step
  dsimp only
  rw [at_]
  cases e.control <;> rfl

end OverSocket

end DistributedNinja.Rpc
