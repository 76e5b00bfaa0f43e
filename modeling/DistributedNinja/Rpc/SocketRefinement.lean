import DistributedNinja.Rpc.OverSocket

namespace DistributedNinja.Rpc

open Lib Net

namespace OverSocket

open Endpoint

variable {pb : Protobuf} {s t : SocketLibevent Completion} {c : RpcConnection Response} {e : Endpoint}

structure Backed (pb : Protobuf) (o : OverSocket) : Prop where
  held : Held o.socket
  readable : o.shown.Readable pb
  fills : o.socket.readCallback.isSome = true →
    o.socket.readBufLen = o.endpoint.connection.readBuf.remainingCapacity
  next : WritesNext o.endpoint.connection o.socket

theorem bytesRead_nothing {reads : Except SystemError (List UInt8)}
    (nothing : SocketLibevent.transferred (reads.map List.length) ≤ 0) : bytesRead reads = [] := by
  cases reads with
  | error error => rfl
  | ok bytes =>
    have none : bytes.length = 0 := by
      change (bytes.length : Int) ≤ 0 at nothing
      omega
    exact List.length_eq_zero_iff.mp none

/-- What one step of `o` to `n` is to the connection: nothing that it sees has changed, or it has taken a step of its
    own, and was told of the bytes that the system has taken or given. -/
inductive Becomes (pb : Protobuf) (o n : OverSocket) : OverSocketEvent → Prop where
  | called {request : Call Unit} {writes : List WriteCall} {answers : List Int} {bytes : List UInt8}
      (sent : RpcConnection.transmit answers
        (o.endpoint.connection.enqueue pb (o.endpoint.named request)).writeBuf = some bytes)
      (given : RpcConnection.transmit (writes.map WriteCall.answer)
        (o.endpoint.connection.enqueue pb (o.endpoint.named request)).writeBuf = some bytes)
      (moved : o.shown.step pb (.called request answers) = some n.shown) : Becomes pb o n (.called request writes)
  | waitsRead {accepts : AcceptAnswer} {reads : Except SystemError (List UInt8)} (nothing : bytesRead reads = [])
      (same : n.shown = o.shown) : Becomes pb o n (.canRead accepts reads)
  | readDone {accepts : AcceptAnswer} {reads : Except SystemError (List UInt8)}
      (moved : o.shown.step pb (.readCompleted (SocketLibevent.transferred (reads.map List.length)) (bytesRead reads)) =
        some n.shown) : Becomes pb o n (.canRead accepts reads)
  | waitsWrite {connects : SystemError} {write : Except SystemError Nat} {writes : List WriteCall}
      (nothing : SocketLibevent.transferred write < 0) (same : n.shown = o.shown) :
      Becomes pb o n (.canWrite connects write writes)
  | wrote {connects : SystemError} {write : Except SystemError Nat} {writes : List WriteCall} {answers : List Int}
      {bytes : List UInt8}
      (sent : RpcConnection.transmitCompleted (SocketLibevent.transferred write) answers
        o.endpoint.connection.writeBuf = some bytes)
      (given : RpcConnection.transmitCompleted (SocketLibevent.transferred write) (writes.map WriteCall.answer)
        o.endpoint.connection.writeBuf = some bytes)
      (moved : o.shown.step pb (.writeCompleted (SocketLibevent.transferred write) answers) = some n.shown) :
      Becomes pb o n (.canWrite connects write writes)
  | readNothing {reads : Except SystemError (List UInt8)} {watch : Option SystemError} {rv : Int}
      (nonpositive : rv ≤ 0) (nothing : bytesRead reads = [])
      (moved : o.shown.step pb (.read rv []) = some n.shown) : Becomes pb o n (.read reads watch)
  | read {reads : Except SystemError (List UInt8)} {watch : Option SystemError}
      (moved : o.shown.step pb (.read (SocketLibevent.transferred (reads.map List.length)) (bytesRead reads)) =
        some n.shown) : Becomes pb o n (.read reads watch)
  | noRoom (moved : o.shown.step pb .noRoom = some n.shown) : Becomes pb o n .noRoom
  | pass (moved : o.shown.step pb .pass = some n.shown) : Becomes pb o n .pass
  | returned (moved : o.shown.step pb .returned = some n.shown) : Becomes pb o n .returned

theorem Becomes.moves {o n : OverSocket} {event : OverSocketEvent} (becomes : Becomes pb o n event) :
    n.shown = o.shown ∨ ∃ event, o.shown.WritesWithin pb event ∧ o.shown.step pb event = some n.shown := by
  cases becomes with
  | @called request writes answers bytes sent given moved =>
    refine .inr ⟨_, ?_, moved⟩
    show (RpcConnection.transmit answers
      (o.shown.connection.enqueue pb ((view o.socket o.endpoint).named request)).writeBuf).isSome = true
    rw [view_named]
    show (RpcConnection.transmit answers ((pending o.endpoint.connection o.socket).enqueue pb _).writeBuf).isSome = true
    rw [pending_enqueue]
    exact Option.isSome_of_eq_some sent
  | waitsRead nothing same => exact .inl same
  | waitsWrite nothing same => exact .inl same
  | wrote sent given moved =>
    refine .inr ⟨_, ?_, moved⟩
    exact Option.isSome_of_eq_some sent
  | readDone moved | readNothing _ _ moved | read moved | noRoom moved | pass moved | returned moved =>
    refine .inr ⟨_, ?_, moved⟩
    trivial

theorem Held.free (held : Held s) (pending : s.writeCallback.isSome = true) : 0 < s.writeBufLen :=
  held.wired.writeLength pending held.parts.2

theorem WritesNext.enqueue (next : WritesNext c s) (held : Held s) (request : Call Response) :
    WritesNext (c.enqueue pb request) s := by
  intro pending
  have content := held.free pending
  rw [next pending] at content
  rw [enqueue_writeBuf, QueuedWriteIOBuffer.getSizeToWrite_append _ (by omega)]
  exact next pending

theorem Backed.written {o : OverSocket} (backed : Backed pb o) {result : RpcConnection Response × WriteOutcome}
    {before u : Endpoint} (held : Held t) (spares : SpareReads o.socket t) (next : WritesNext result.1 t)
    (buffer : result.1.readBuf = o.endpoint.connection.readBuf) (after : before.afterWrite result = some u)
    (readable : (view t u).Readable pb) : Backed pb ⟨u, t⟩ := by
  obtain ⟨closes, _, rfl⟩ := afterWrite_cases after
  refine ⟨held, readable, ?_, next⟩
  show t.readCallback.isSome = true → t.readBufLen = result.1.readBuf.remainingCapacity
  rw [spares.callback, spares.length, buffer]
  exact backed.fills

theorem step_called {o n : OverSocket} {request : Call Unit} {writes : List WriteCall} (backed : Backed pb o)
    (watched : ∀ call ∈ writes, call.watch ≠ some .eagain) (stepped : o.step pb (.called request writes) = some n) :
    Backed pb n ∧ Becomes pb o n (.called request writes) := by
  obtain ⟨e, s⟩ := o
  simp only [step, Option.ite_none_right_eq_some] at stepped
  obtain ⟨may, stepped⟩ := stepped
  obtain ⟨⟨result, t⟩, looped, stepped⟩ := Option.bind_eq_some_iff.mp stepped
  obtain ⟨u, after, rfl⟩ := Option.map_eq_some_iff.mp stepped
  have done := doWriteLoop_looped backed.held (backed.next.enqueue backed.held (e.named request)) watched looped
  obtain ⟨answers, same, taken⟩ := done.loop
  have moved : (view s e).step pb (.called request answers) = some (view t u) := by
    have may' : (view s e).mayCall = true := may
    simp only [Endpoint.step, if_pos may']
    rw [view_accepts, view_named, view_record]
    show (view s _).afterWrite (((pending e.connection s).enqueue pb (e.named request)).doWriteLoop answers) = _
    rw [pending_enqueue, same, view_afterWrite, after]
    rfl
  have buffer := done.buffer.trans (enqueue_readBuf pb e.connection (e.named request)).1
  obtain ⟨bytes, sent, given⟩ := taken (afterWrite_holds after).1
  exact ⟨backed.written done.held done.spares done.next buffer after (backed.readable.step moved),
    .called sent given moved⟩

theorem handleReadResult_writeBuf {rv : Int} {bytes : List UInt8} {u : Endpoint}
    (handled : e.handleReadResult rv bytes = some u) : u.connection.writeBuf = e.connection.writeBuf := by
  rcases handleReadResult_cases handled with rfl | ⟨b, _, rfl⟩ <;> rfl

def readDone (s : SocketLibevent Completion) : SocketLibevent Completion :=
  { s with readSocketWatcher := false, readBufLen := 0, readCallback := none }

def writeDone (s : SocketLibevent Completion) : SocketLibevent Completion :=
  { s with writeSocketWatcher := false, writeBufLen := 0, writeCallback := none }

theorem Held.readDone (held : Held s) : Held (readDone s) := by
  have wired := held.wired
  refine ⟨?_, held.connected, held.noAccept, nofun, held.writes⟩
  exact ⟨wired.acceptWatched, rfl, wired.writeWatched, wired.connecting, nofun, wired.writeLength,
    fun invalid => absurd invalid held.parts.1⟩

theorem Held.writeDone (held : Held s) : Held (writeDone s) := by
  have wired := held.wired
  have settled : ¬ s.waitingConnect = true := by simp [held.parts.2]
  refine ⟨?_, held.connected, held.noAccept, held.reads, nofun⟩
  exact ⟨wired.acceptWatched, wired.readWatched, rfl, fun waiting => absurd waiting settled, wired.readLength, nofun,
    fun invalid => absurd invalid held.parts.1⟩

theorem Held.canRead (held : Held s) {accepts : AcceptAnswer} {reads : Except SystemError Nat}
    {told : SocketLibevent Completion × Option (Completion × Int)}
    (tells : s.onFileCanReadWithoutBlocking accepts reads = some told) :
    s.readCallback.isSome = true ∧ (told = (s, none) ∧ SocketLibevent.transferred reads = NetError.ioPending ∨
      told = (OverSocket.readDone s, some (.onReadCompleted, SocketLibevent.transferred reads))) := by
  rw [SocketLibevent.onFileCanReadWithoutBlocking, held.noAccept] at tells
  obtain ⟨callback, pending, rfl⟩ := Option.map_eq_some_iff.mp tells
  rw [held.reads callback pending, pending, SocketLibevent.readCompleted]
  refine ⟨rfl, ?_⟩
  split
  · rename_i pending
    exact .inl ⟨rfl, pending⟩
  · exact .inr rfl

theorem Held.canWrite (held : Held s) {connects : SystemError} {writes : Except SystemError Nat}
    {told : SocketLibevent Completion × Option (Completion × Int)}
    (tells : s.onFileCanWriteWithoutBlocking connects writes = some told) :
    s.writeCallback.isSome = true ∧ (told = (s, none) ∧ SocketLibevent.transferred writes = NetError.ioPending ∨
      told = (OverSocket.writeDone s, some (.onWriteCompleted, SocketLibevent.transferred writes))) := by
  obtain ⟨callback, pending, rfl⟩ := Option.map_eq_some_iff.mp tells
  rw [if_neg (by simp [held.parts.2]), held.writes callback pending, pending, SocketLibevent.writeCompleted]
  refine ⟨rfl, ?_⟩
  split
  · rename_i pending
    exact .inl ⟨rfl, pending⟩
  · exact .inr rfl

theorem step_canRead {o n : OverSocket} {accepts : AcceptAnswer} {reads : Except SystemError (List UInt8)}
    (backed : Backed pb o) (stepped : o.step pb (.canRead accepts reads) = some n) :
    Backed pb n ∧ Becomes pb o n (.canRead accepts reads) := by
  obtain ⟨e, s⟩ := o
  simp only [step, Option.ite_none_right_eq_some] at stepped
  obtain ⟨⟨idle, _, _⟩, stepped⟩ := stepped
  obtain ⟨told, tells, stepped⟩ := Option.bind_eq_some_iff.mp stepped
  obtain ⟨pending, ⟨rfl, again⟩ | rfl⟩ := backed.held.canRead tells
  · cases stepped
    exact ⟨backed, .waitsRead (bytesRead_nothing (pending_nonpositive again)) rfl⟩
  · obtain ⟨u, handled, rfl⟩ := Option.map_eq_some_iff.mp stepped
    have moved : (view s e).step pb
        (.readCompleted (SocketLibevent.transferred (reads.map List.length)) (bytesRead reads)) =
        some (view (readDone s) u) := by
      simp only [Endpoint.step]
      rw [if_pos ⟨idle, pending⟩]
      show (view (readDone s) e).handleReadResult _ _ = _
      rw [view_handleReadResult, handled]
      rfl
    have next : WritesNext u.connection s := by
      unfold WritesNext
      rw [handleReadResult_writeBuf handled]
      exact backed.next
    have unset : ¬ (readDone s).readCallback.isSome = true := Bool.false_ne_true
    exact ⟨⟨backed.held.readDone, backed.readable.step moved, fun set => absurd set unset, next⟩, .readDone moved⟩

theorem step_canWrite {o n : OverSocket} {connects : SystemError} {write : Except SystemError Nat}
    {writes : List WriteCall} (backed : Backed pb o) (watched : ∀ call ∈ writes, call.watch ≠ some .eagain)
    (stepped : o.step pb (.canWrite connects write writes) = some n) :
    Backed pb n ∧ Becomes pb o n (.canWrite connects write writes) := by
  obtain ⟨e, s⟩ := o
  simp only [step, Option.ite_none_right_eq_some] at stepped
  obtain ⟨⟨idle, _, fits⟩, stepped⟩ := stepped
  obtain ⟨told, tells, stepped⟩ := Option.bind_eq_some_iff.mp stepped
  obtain ⟨set, ⟨rfl, again⟩ | rfl⟩ := backed.held.canWrite tells
  · cases stepped
    have nothing : SocketLibevent.transferred write < 0 := by
      rw [again]
      exact Int.negSucc_lt_zero 0
    exact ⟨backed, .waitsWrite nothing rfl⟩
  · obtain ⟨⟨result, t⟩, completed, stepped⟩ := Option.bind_eq_some_iff.mp stepped
    obtain ⟨u, after, rfl⟩ := Option.map_eq_some_iff.mp stepped
    have inside : SocketLibevent.transferred write < 0 ∨
        (SocketLibevent.transferred write).toNat ≤ e.connection.writeBuf.getSizeToWrite := by
      have next : s.writeBufLen = e.connection.writeBuf.getSizeToWrite := backed.next set
      by_cases positive : 0 < SocketLibevent.transferred write
      · have inside := taken_within fits positive
        omega
      · omega
    obtain ⟨held, spares, next, buffer, answers, same, taken⟩ :=
      onWriteCompleted_looped backed.held.writeDone rfl watched inside completed
    have moved : (view s e).step pb (.writeCompleted (SocketLibevent.transferred write) answers) =
        some (view t u) := by
      simp only [Endpoint.step]
      rw [if_pos ⟨idle, set⟩]
      show (view s e).afterWrite ((pending e.connection (writeDone s)).onWriteCompleted _ answers) = _
      rw [same, view_afterWrite, after]
      rfl
    have kept : SpareReads s t := ⟨spares.callback, spares.length⟩
    obtain ⟨bytes, sent, given⟩ := taken (afterWrite_holds after).1
    exact ⟨backed.written held kept next buffer after (backed.readable.step moved), .wrote sent given moved⟩

def unasked : EndpointEvent → Prop
  | .noRoom | .pass | .returned => True
  | _ => False

theorem unasked_keeps {event : EndpointEvent} {u : Endpoint} (asksNothing : unasked event)
    (stepped : e.step pb event = some u) :
    e.control ≠ .idle ∧ u.connection.writeBuf = e.connection.writeBuf := by
  cases step_effect stepped with
  | called | wrote | waits | readEnded | readData | completedEnded | completedData => cases asksNothing
  | noRoom at_ | broke at_ | stuck at_ | served at_ | answered at_ =>
    rw [at_]
    exact ⟨nofun, rfl⟩
  | dispatched at_ =>
    rw [at_]
    exact ⟨nofun, dispatch_writeBuf _ _⟩

theorem step_unasked {o n : OverSocket} (backed : Backed pb o) (event : EndpointEvent) (asksNothing : unasked event)
    (same : (view o.socket o.endpoint).step pb event = (o.endpoint.step pb event).map (view o.socket))
    (stepped : (o.endpoint.step pb event).map (⟨·, o.socket⟩) = some n) :
    Backed pb n ∧ o.shown.step pb event = some n.shown := by
  obtain ⟨u, taken, rfl⟩ := Option.map_eq_some_iff.mp stepped
  have moved : (view o.socket o.endpoint).step pb event = some (view o.socket u) := by
    rw [same, taken]
    rfl
  obtain ⟨busy, buffer⟩ := unasked_keeps asksNothing taken
  have free : o.socket.readCallback.isSome = false := backed.readable.free busy
  have next : WritesNext u.connection o.socket := by
    unfold WritesNext
    rw [buffer]
    exact backed.next
  refine ⟨⟨backed.held, backed.readable.step moved, ?_, next⟩, moved⟩
  intro pending
  cases free.symm.trans pending

theorem Held.reading (held : Held s) {length : Nat} (positive : 0 < length) :
    Held { s with readSocketWatcher := true, readBufLen := length, readCallback := some .onReadCompleted } := by
  have wired := held.wired
  refine ⟨?_, held.connected, held.noAccept, fun callback set => (Option.some.inj set).symm, held.writes⟩
  exact ⟨wired.acceptWatched, rfl, wired.writeWatched, wired.connecting, fun _ => positive, wired.writeLength,
    fun invalid => absurd invalid held.parts.1⟩

theorem step_read {o n : OverSocket} {reads : Except SystemError (List UInt8)} {watch : Option SystemError}
    (backed : Backed pb o) (watched : watch ≠ some .eagain) (stepped : o.step pb (.read reads watch) = some n) :
    Backed pb n ∧ Becomes pb o n (.read reads watch) := by
  obtain ⟨e, s⟩ := o
  simp only [step, Option.ite_none_right_eq_some] at stepped
  obtain ⟨reading, stepped⟩ := stepped
  obtain ⟨room, made, stepped⟩ := Option.bind_eq_some_iff.mp stepped
  simp only [Option.ite_none_right_eq_some] at stepped
  obtain ⟨⟨_, free, positive, _⟩, stepped⟩ := stepped
  have unset : s.readCallback.isSome = false := by
    rw [free]
    rfl
  have begins : ∀ rv bytes, (view s e).step pb (.read rv bytes) =
      if rv = errIoPending then some { ((view s e).setReadBuf room).setReadCallback true with control := .idle }
      else (view s (e.setReadBuf room)).handleReadResult rv bytes := by
    intro rv bytes
    have at_ : (view s e).control = .reading := reading
    have buffer : makeRoom (view s e).connection.readBuf = some room := made
    simp only [Endpoint.step]
    rw [if_pos ⟨at_, unset⟩, buffer]
    rfl
  have returns := read_returns s room.remainingCapacity (reads.map List.length) watched .onReadCompleted
  generalize s.read room.remainingCapacity (reads.map List.length) watch .onReadCompleted = answer at stepped returns
  have settles : ∀ rv, rv ≠ errIoPending → answer = (rv, s) →
      Backed pb n ∧ (view s e).step pb (.read rv (bytesRead reads)) = some n.shown := by
    rintro rv settled rfl
    rw [if_neg settled] at stepped
    obtain ⟨u, handled, rfl⟩ := Option.map_eq_some_iff.mp stepped
    have moved : (view s e).step pb (.read rv (bytesRead reads)) = some (view s u) := by
      rw [begins, if_neg settled, view_handleReadResult, handled]
      rfl
    have next : WritesNext u.connection s := by
      unfold WritesNext
      rw [handleReadResult_writeBuf handled]
      exact backed.next
    refine ⟨⟨backed.held, backed.readable.step moved, ?_, next⟩, moved⟩
    intro pending
    cases unset.symm.trans pending
  cases returns with
  | waits nothing =>
    rw [if_pos rfl] at stepped
    cases stepped
    have moved := begins errIoPending []
    rw [if_pos rfl] at moved
    exact ⟨⟨backed.held.reading positive, backed.readable.step moved, fun _ => rfl, backed.next⟩,
      .readNothing (pending_nonpositive rfl) (bytesRead_nothing nothing) moved⟩
  | failed settled nonpositive nothing =>
    obtain ⟨after, moved⟩ := settles _ settled rfl
    rw [bytesRead_nothing nothing] at moved
    exact ⟨after, .readNothing nonpositive (bytesRead_nothing nothing) moved⟩
  | done positive =>
    obtain ⟨after, moved⟩ := settles _ (by unfold errIoPending; omega) rfl
    exact ⟨after, .read moved⟩

/-- No `WatchFileDescriptor` leaves `EAGAIN` in `errno`. -/
def watched : OverSocketEvent → Prop
  | .called _ writes | .canWrite _ _ writes => ∀ call ∈ writes, call.watch ≠ some .eagain
  | .read _ watch => watch ≠ some .eagain
  | _ => True

theorem step_backed {o n : OverSocket} {event : OverSocketEvent} (backed : Backed pb o) (watches : watched event)
    (stepped : o.step pb event = some n) : Backed pb n ∧ Becomes pb o n event := by
  cases event with
  | called request writes => exact step_called backed watches stepped
  | canRead accepts reads => exact step_canRead backed stepped
  | canWrite connects write writes => exact step_canWrite backed watches stepped
  | read reads watch => exact step_read backed watches stepped
  | noRoom =>
    obtain ⟨after, moved⟩ := step_unasked backed .noRoom trivial (view_noRoom pb) stepped
    exact ⟨after, .noRoom moved⟩
  | pass =>
    obtain ⟨after, moved⟩ := step_unasked backed .pass trivial (view_pass pb) stepped
    exact ⟨after, .pass moved⟩
  | returned =>
    obtain ⟨after, moved⟩ := step_unasked backed .returned trivial (view_returned pb) stepped
    exact ⟨after, .returned moved⟩

/-- A socket that was just accepted; one that has just connected is the same. -/
def ready (fd : Nat) (peer : SockaddrStorage) : SocketLibevent Completion :=
  (SocketLibevent.new.adoptConnectedSocket fd peer none).2

theorem ready_held (fd : Nat) (peer : SockaddrStorage) : Held (ready fd peer) := by
  refine ⟨?_, rfl, rfl, nofun, nofun⟩
  exact SocketLibevent.new_wired.rename (some fd) (some peer) nofun

def new (id : Int) (peerAddress : String) (fd : Nat) (peer : SockaddrStorage) : OverSocket :=
  ⟨.new id peerAddress, ready fd peer⟩

theorem new_backed (id : Int) (peerAddress : String) (fd : Nat) (peer : SockaddrStorage) :
    Backed pb (new id peerAddress fd peer) :=
  ⟨ready_held fd peer, new_readable id peerAddress, nofun, nofun⟩

theorem handleReadResult_within {reads : Except SystemError (List UInt8)}
    (fits : within e.connection.readBuf.remainingCapacity (reads.map List.length) = true) :
    (e.handleReadResult (SocketLibevent.transferred (reads.map List.length)) (bytesRead reads)).isSome = true := by
  unfold Endpoint.handleReadResult
  split
  · rfl
  · rename_i positive
    cases reads with
    | error error => exact absurd (mapSystemError_nonpos error) positive
    | ok bytes =>
      have inside : bytes.length ≤ e.connection.readBuf.remainingCapacity := of_decide_eq_true fits
      have some_ : 0 < bytes.length := by
        change ¬ (bytes.length : Int) ≤ 0 at positive
        omega
      have same : bytes.length = (SocketLibevent.transferred (Except.map List.length (Except.ok bytes))).toNat := rfl
      have filled : completeRead e.connection.readBuf bytes =
          some ((e.connection.readBuf.fill bytes).didRead bytes.length) := if_pos ⟨some_, inside⟩
      rw [bytesRead, if_pos same, filled]
      rfl

theorem Backed.canRead {o : OverSocket} (backed : Backed pb o) (idle : o.endpoint.control = .idle)
    (watching : o.socket.readSocketWatcher = true) (accepts : AcceptAnswer)
    {reads : Except SystemError (List UInt8)}
    (fits : within o.socket.readBufLen (reads.map List.length) = true) :
    (o.step pb (.canRead accepts reads)).isSome = true := by
  have held := backed.held
  have pending : o.socket.readCallback.isSome = true := held.wired.readWatched.symm.trans watching
  obtain ⟨callback, set⟩ := Option.isSome_iff_exists.mp pending
  have tells : o.socket.onFileCanReadWithoutBlocking accepts (reads.map List.length) =
      some (o.socket.readCompleted callback (reads.map List.length)) := by
    rw [SocketLibevent.onFileCanReadWithoutBlocking, held.noAccept, set]
    rfl
  have told := (held.canRead tells).2
  rw [backed.fills pending] at fits
  simp only [step]
  rw [if_pos ⟨idle, by rw [watching, Bool.or_true], by rw [backed.fills pending]; exact fits⟩, tells]
  rcases told with ⟨same, _⟩ | same <;> rw [same, Option.bind_some]
  · rfl
  · rw [Option.isSome_map]
    exact handleReadResult_within fits

theorem read_answers (s : SocketLibevent Completion) (length : Nat) (answer : Except SystemError Nat)
    (watch : Option SystemError) (callback : Completion) :
    (s.read length answer watch callback).1 = SocketLibevent.transferred answer ∨
      (s.read length answer watch callback).1 ≤ 0 := by
  unfold SocketLibevent.read
  dsimp only
  split
  · exact .inl rfl
  · split
    · exact .inr (mapSystemError_nonpos _)
    · exact .inr (Int.le_of_lt (Int.negSucc_lt_zero 0))

theorem Backed.read {o : OverSocket} (backed : Backed pb o) (reading : o.endpoint.control = .reading)
    {room : ReadIOBuffer} (made : makeRoom o.endpoint.connection.readBuf = some room)
    {reads : Except SystemError (List UInt8)} (watch : Option SystemError)
    (fits : within room.remainingCapacity (reads.map List.length) = true) :
    (o.step pb (.read reads watch)).isSome = true := by
  have free : o.socket.readCallback = none := by
    have unset := backed.readable.free (by
      show o.endpoint.control ≠ .idle
      rw [reading]
      nofun)
    exact Option.not_isSome_iff_eq_none.mp (Bool.eq_false_iff.mp unset)
  have positive := makeRoom_remaining backed.readable.wellFormed made
  have answers := read_answers o.socket room.remainingCapacity (reads.map List.length) watch .onReadCompleted
  simp only [step]
  rw [if_pos reading, made, Option.bind_some, if_pos ⟨backed.held.connected, free, positive, fits⟩]
  generalize o.socket.read room.remainingCapacity (reads.map List.length) watch .onReadCompleted = answer at answers ⊢
  obtain ⟨rv, t⟩ := answer
  dsimp only at answers ⊢
  split
  · rfl
  · rw [Option.isSome_map]
    rcases answers with rfl | ended
    · exact handleReadResult_within (e := o.endpoint.setReadBuf room) fits
    · rw [Endpoint.handleReadResult, if_pos ended]
      rfl

/-- The system answers each call of `Write` that the loop makes, and takes no more than it is given. -/
def answers : List WriteCall → QueuedWriteIOBuffer → Bool
  | [], b => b.getSizeToWrite = 0
  | call :: rest, b =>
    b.getSizeToWrite = 0 || within b.getSizeToWrite call.result &&
      (decide (call.answer ≤ 0) || answers rest (b.didConsume call.answer.toNat))

theorem write_answers (s : SocketLibevent Completion) (length : Nat) (call : WriteCall) (callback : Completion) :
    s.write length call.result call.watch callback = (call.answer, s) ∨
      (s.write length call.result call.watch callback).1 ≤ 0 := by
  unfold SocketLibevent.write SocketLibevent.waitForWrite
  dsimp only
  split
  · split
    · exact .inr (mapSystemError_nonpos _)
    · exact .inr (Int.le_of_lt (Int.negSucc_lt_zero 0))
  · exact .inl rfl

theorem doWriteLoop_answered (held : Held s) (free : s.writeCallback = none) {writes : List WriteCall}
    {c : RpcConnection Response} (fits : answers writes c.writeBuf = true) :
    ∃ result t, doWriteLoop writes c s = some (result, t) ∧ result.2 ≠ .checkFailed := by
  have unset : ¬ s.writeCallback.isSome = true := by simp [free]
  have returned : WriteOutcome.returned ≠ .checkFailed := by simp
  have closed : ∀ rv, WriteOutcome.closed rv ≠ .checkFailed := by simp
  induction writes generalizing c with
  | nil =>
    unfold doWriteLoop
    rw [if_pos (of_decide_eq_true fits)]
    exact ⟨_, s, rfl, returned⟩
  | cons call rest ih =>
    unfold doWriteLoop
    by_cases drained : c.writeBuf.getSizeToWrite = 0
    · rw [if_pos drained]
      exact ⟨_, s, rfl, returned⟩
    · simp only [answers, drained, decide_false, Bool.false_or, Bool.and_eq_true, Bool.or_eq_true] at fits
      rw [if_neg drained, if_neg unset]
      dsimp only
      rw [if_pos (by rw [held.connected, fits.1]; rfl)]
      have returns := write_answers s c.writeBuf.getSizeToWrite call .onWriteCompleted
      generalize s.write c.writeBuf.getSizeToWrite call.result call.watch .onWriteCompleted = answer at returns ⊢
      obtain ⟨rv, t⟩ := answer
      dsimp only at returns ⊢
      by_cases stops : rv = errIoPending ∨ rv = 0
      · rw [if_pos stops]
        exact ⟨_, t, rfl, returned⟩
      · rw [if_neg stops]
        by_cases failed : rv < 0
        · rw [if_pos failed]
          exact ⟨_, t, rfl, closed rv⟩
        · have positive : 0 < rv := by omega
          obtain ⟨rfl, rfl⟩ := Prod.mk.inj (returns.resolve_right (by omega))
          rw [if_neg failed]
          exact ih (fits.2.resolve_left (by simpa using positive))

theorem Backed.canWrite {o : OverSocket} (backed : Backed pb o) (idle : o.endpoint.control = .idle)
    (watching : o.socket.writeSocketWatcher = true) (connects : SystemError) {write : Except SystemError Nat}
    (fits : within o.socket.writeBufLen write = true) {writes : List WriteCall}
    (answered : answers writes
      (o.endpoint.connection.writeBuf.didConsume (SocketLibevent.transferred write).toNat) = true) :
    (o.step pb (.canWrite connects write writes)).isSome = true := by
  have held := backed.held
  have pending : o.socket.writeCallback.isSome = true := held.wired.writeWatched.symm.trans watching
  obtain ⟨told, tells⟩ : ∃ told, o.socket.onFileCanWriteWithoutBlocking connects write = some told := by
    obtain ⟨callback, set⟩ := Option.isSome_iff_exists.mp pending
    rw [SocketLibevent.onFileCanWriteWithoutBlocking, set]
    exact ⟨_, rfl⟩
  simp only [step]
  rw [if_pos ⟨idle, watching, fits⟩, tells, Option.bind_some]
  obtain ⟨_, ⟨rfl, _⟩ | rfl⟩ := held.canWrite tells
  · rfl
  · dsimp only
    unfold onWriteCompleted
    split
    · rfl
    · obtain ⟨⟨d, outcome⟩, t, same, passes⟩ := doWriteLoop_answered held.writeDone rfl
        (c := { o.endpoint.connection with
          writeBuf := o.endpoint.connection.writeBuf.didConsume (SocketLibevent.transferred write).toNat }) answered
      rw [same, Option.bind_some, Option.isSome_map]
      cases outcome with
      | returned | closed => rfl
      | checkFailed => exact absurd rfl passes

/-- Whatever the system answers, a connection over its socket does what `RpcConnection` does over a `Write` that takes
    no more than it is given, and a pending operation there is a callback that the message loop watches for here. No
    check fails in what the message loop and `DoReadLoop` ask of the socket. -/
theorem refines_endpoint {id : Int} {peerAddress : String} {fd : Nat} {peer : SockaddrStorage}
    {events : List OverSocketEvent} {o : OverSocket} (watches : ∀ event ∈ events, watched event)
    (replay : run (step pb) (new id peerAddress fd peer) events = some o) :
    (∃ seen, Along (Endpoint.step pb) (WritesWithin pb) (.new id peerAddress) seen ∧
      run (Endpoint.step pb) (.new id peerAddress) seen = some o.shown) ∧
    o.socket.Wired ∧
    (o.endpoint.control = .idle → o.socket.readSocketWatcher = true → ∀ accepts reads,
      within o.socket.readBufLen (reads.map List.length) = true →
        (o.step pb (.canRead accepts reads)).isSome = true) ∧
    (o.endpoint.control = .idle → o.socket.writeSocketWatcher = true → ∀ connects write writes,
      within o.socket.writeBufLen write = true → answers writes
        (o.endpoint.connection.writeBuf.didConsume (SocketLibevent.transferred write).toNat) = true →
        (o.step pb (.canWrite connects write writes)).isSome = true) ∧
    (o.endpoint.control = .reading → ∀ room, makeRoom o.endpoint.connection.readBuf = some room → ∀ reads watch,
      within room.remainingCapacity (reads.map List.length) = true →
        (o.step pb (.read reads watch)).isSome = true) := by
  have simulates : ∀ s event t, Backed pb s → watched event → step pb s event = some t → Backed pb t ∧
      (t.shown = s.shown ∨ ∃ f, s.shown.WritesWithin pb f ∧ s.shown.step pb f = some t.shown) :=
    fun _ _ _ backed watches stepped => (step_backed backed watches stepped).imp_right Becomes.moves
  obtain ⟨backed, seen, along, moved⟩ := run_refines simulates (new_backed id peerAddress fd peer) watches replay
  refine ⟨⟨seen, along, moved⟩, backed.held.wired, ?_, ?_, ?_⟩
  · exact fun idle watching accepts reads fits => backed.canRead idle watching accepts fits
  · exact fun idle watching connects write writes fits answered => backed.canWrite idle watching connects fits answered
  · exact fun reading room made reads watch fits => backed.read reading made watch fits

def unready : WriteCall := ⟨.error .eagain, none⟩

/-- A request goes out in two parts, and its answer comes in. -/
def answeredCall : List OverSocketEvent :=
  [.read (.error .eagain) none, .called (.callMethod [1] [2] [3] none) [⟨.ok 10, none⟩, unready],
    .canWrite .success (.ok 14) [],
    .canRead ⟨.error .eagain, none⟩ (.ok [0, 0, 0, 20, 9, 0, 0, 0, 0, 0, 0, 0, 0, 16, 2, 26, 1, 1, 34, 1, 2, 50, 1, 3]),
    .pass, .pass, .read (.error .eagain) none]

theorem refines_endpoint_answeredCall :
    ∃ o, run (step wireFormat) (new 0 "10.0.0.1" 5 [2, 0]) answeredCall = some o ∧
      o.endpoint.parsed = [(0, [3])] ∧ o.socket.readSocketWatcher = true ∧
      (∃ seen, Along (Endpoint.step wireFormat) (WritesWithin wireFormat) (.new 0 "10.0.0.1") seen ∧
        run (Endpoint.step wireFormat) (.new 0 "10.0.0.1") seen = some o.shown) := by
  have answered : (run (step wireFormat) (new 0 "10.0.0.1" 5 [2, 0]) answeredCall).map
      (fun o => (o.endpoint.parsed, o.socket.readSocketWatcher)) = some ([(0, [3])], true) := by
    decide +kernel
  have watches : ∀ event ∈ answeredCall, watched event := by
    simp [answeredCall, watched, unready]
  obtain ⟨o, replay, shape⟩ := Option.map_eq_some_iff.mp answered
  obtain ⟨parsed, reads⟩ := Prod.mk.inj shape
  exact ⟨o, replay, parsed, reads, (refines_endpoint watches replay).1⟩

end OverSocket

end DistributedNinja.Rpc
