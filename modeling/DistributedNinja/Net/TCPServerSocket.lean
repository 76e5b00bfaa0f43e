import DistributedNinja.Net.SocketLibevent

namespace DistributedNinja.Net

variable {Callback : Type}

/-- `TCPSocketLibevent` without TCP fast open, as far as a listening socket uses it. -/
structure TCPSocketLibevent (Callback : Type) where
  socket : SocketLibevent Callback
  acceptSocket : Option (SocketLibevent Callback)

/-- A call that may make a connection: what it returns, the connection, and what it leaves. -/
structure Accepting (State : Type) where
  rv : Int
  accepted : Option IPEndPoint
  state : State

namespace TCPSocketLibevent

def addressOf (socket : SocketLibevent Callback) : Option IPEndPoint :=
  socket.peerAddress.bind IPEndPoint.fromSockAddr

/-- `none` when there is no `accept_socket_`. -/
def buildTcpSocketLibevent (t : TCPSocketLibevent Callback) : Option (Accepting (TCPSocketLibevent Callback)) :=
  t.acceptSocket.map fun accepted =>
    match addressOf accepted with
    | none => ⟨NetError.addressInvalid, none, { t with acceptSocket := none }⟩
    | some address => ⟨NetError.ok, some address, { t with acceptSocket := none }⟩

def handleAcceptCompleted (t : TCPSocketLibevent Callback) (rv : Int) :
    Option (Accepting (TCPSocketLibevent Callback)) :=
  if rv = NetError.ok then t.buildTcpSocketLibevent else some ⟨rv, none, t⟩

/-- `none` when there still is an `accept_socket_`. -/
def accept (t : TCPSocketLibevent Callback) (answer : AcceptAnswer) (watch : Option SystemError)
    (callback : Callback) : Option (Accepting (TCPSocketLibevent Callback)) :=
  if t.acceptSocket.isSome then none
  else
    match t.socket.accept answer watch callback with
    | (rv, socket) =>
      let t := ⟨socket, (SocketLibevent.doAccept answer).2⟩
      if rv ≠ NetError.ioPending then t.handleAcceptCompleted rv else some ⟨rv, none, t⟩

end TCPSocketLibevent

structure TCPServerSocket (Callback : Type) where
  socket : TCPSocketLibevent Callback
  pendingAccept : Bool

namespace TCPServerSocket

/-- `Accept`, with the peer of the socket it puts out; `none` at `NOTREACHED`. -/
def accept (t : TCPServerSocket Callback) (answer : AcceptAnswer) (watch : Option SystemError)
    (callback : Callback) : Option (Accepting (TCPServerSocket Callback)) :=
  if t.pendingAccept then none
  else
    (t.socket.accept answer watch callback).map fun result =>
      if result.rv ≠ NetError.ioPending then ⟨result.rv, result.accepted, { t with socket := result.state }⟩
      else ⟨result.rv, none, { socket := result.state, pendingAccept := true }⟩

/-- What runs when the message loop says that the socket can be read: `AcceptCompleted` of both sockets and
    `OnAcceptCompleted`. The result is nothing when it still waits. -/
def canRead (t : TCPServerSocket Callback) (answer : AcceptAnswer) :
    Option (TCPServerSocket Callback × Option (Int × Option IPEndPoint)) :=
  (t.socket.socket.onFileCanReadWithoutBlocking answer (.error .eagain)).bind fun (socket, run) =>
    match run with
    | none => some ({ t with socket := { t.socket with socket := socket } }, none)
    | some (_, rv) =>
      (TCPSocketLibevent.handleAcceptCompleted ⟨socket, (SocketLibevent.doAccept answer).2⟩ rv).map fun result =>
        (⟨result.state, false⟩, some (result.rv, result.accepted))

end TCPServerSocket

namespace AcceptAnswer

/-- There is nothing to accept, or what there was is gone. -/
def waits (answer : AcceptAnswer) : Bool :=
  decide ((SocketLibevent.doAccept answer : Int × Option (SocketLibevent Unit)).1 = NetError.ioPending)

def endpoint? (answer : AcceptAnswer) : Option IPEndPoint :=
  (SocketLibevent.doAccept answer : Int × Option (SocketLibevent Unit)).2.bind TCPSocketLibevent.addressOf

def fails (answer : AcceptAnswer) : Bool := !answer.waits && answer.endpoint?.isNone

end AcceptAnswer

namespace TCPServerSocket

variable {t : TCPServerSocket Unit} {answer : AcceptAnswer} {watch : Option SystemError}

structure Idle (t : TCPServerSocket Unit) : Prop where
  pending : t.pendingAccept = false
  none_ : t.socket.acceptSocket = none
  callback : t.socket.socket.acceptCallback = none
  watcher : t.socket.socket.acceptSocketWatcher = false

structure Listening (t : TCPServerSocket Unit) : Prop where
  pending : t.pendingAccept = true
  none_ : t.socket.acceptSocket = none
  callback : t.socket.socket.acceptCallback = some ()
  watcher : t.socket.socket.acceptSocketWatcher = true

inductive Accepted (answer : AcceptAnswer) (watch : Option SystemError) : Accepting (TCPServerSocket Unit) → Prop where
  | connected {address : IPEndPoint} {t : TCPServerSocket Unit} (peer : answer.endpoint? = some address)
      (busy : answer.waits = false) (idle : t.Idle) : Accepted answer watch ⟨NetError.ok, some address, t⟩
  | waits {t : TCPServerSocket Unit} (nothing : answer.waits = true) (watched : watch = none)
      (listening : t.Listening) : Accepted answer watch ⟨NetError.ioPending, none, t⟩
  | unwatched {rv : Int} {t : TCPServerSocket Unit} (nothing : answer.waits = true) (failed : watch.isSome = true)
      (error : rv < 0) (callback : t.socket.socket.acceptSocketWatcher = false) : Accepted answer watch ⟨rv, none, t⟩
  | failed {rv : Int} {t : TCPServerSocket Unit} (fails : answer.fails = true) (error : rv < 0)
      (settled : rv ≠ NetError.ioPending) (idle : t.Idle) : Accepted answer watch ⟨rv, none, t⟩

theorem adopt_nonpos (fd : Nat) (address : SockaddrStorage) (nonBlocking : Option SystemError) :
    ((SocketLibevent.new : SocketLibevent Unit).adoptConnectedSocket fd address nonBlocking).1 ≤ 0 := by
  cases nonBlocking with
  | none => exact Int.le_refl 0
  | some error => exact mapSystemError_nonpos error

theorem doAccept_nonpos (answer : AcceptAnswer) :
    (SocketLibevent.doAccept answer : Int × Option (SocketLibevent Unit)).1 ≤ 0 := by
  rcases answer with ⟨error | ⟨fd, address⟩, nonBlocking⟩
  · change mapAcceptError error ≤ 0
    cases error <;> decide
  · unfold SocketLibevent.doAccept
    dsimp only
    split
    · exact Int.le_refl 0
    · exact adopt_nonpos fd address nonBlocking

theorem doAccept_none (failed : (SocketLibevent.doAccept answer : Int × Option (SocketLibevent Unit)).1 ≠ NetError.ok) :
    (SocketLibevent.doAccept answer : Int × Option (SocketLibevent Unit)).2 = none := by
  rcases answer with ⟨error | ⟨fd, address⟩, nonBlocking⟩
  · rfl
  · unfold SocketLibevent.doAccept at failed ⊢
    dsimp only at failed ⊢
    split at failed
    · exact absurd rfl failed
    · rename_i other
      rw [if_neg other]

theorem handleAcceptCompleted_cases {socket : SocketLibevent Unit} {result : Accepting (TCPSocketLibevent Unit)}
    (busy : answer.waits = false)
    (handled : TCPSocketLibevent.handleAcceptCompleted ⟨socket, (SocketLibevent.doAccept answer).2⟩
      (SocketLibevent.doAccept answer : Int × Option (SocketLibevent Unit)).1 = some result) :
    result.state = ⟨socket, none⟩ ∧ ((∃ address, answer.endpoint? = some address ∧ result.rv = NetError.ok ∧
      result.accepted = some address) ∨ (answer.fails = true ∧ result.rv < 0 ∧ result.rv ≠ NetError.ioPending ∧
        result.accepted = none)) := by
  have settled : (SocketLibevent.doAccept answer : Int × Option (SocketLibevent Unit)).1 ≠ NetError.ioPending :=
    of_decide_eq_false busy
  unfold TCPSocketLibevent.handleAcceptCompleted TCPSocketLibevent.buildTcpSocketLibevent at handled
  split at handled
  · obtain ⟨accepted, made, rfl⟩ := Option.map_eq_some_iff.mp handled
    dsimp only at made ⊢
    cases peer : TCPSocketLibevent.addressOf accepted with
    | none =>
      have unknown : answer.endpoint? = none := by rw [AcceptAnswer.endpoint?, made, Option.bind_some, peer]
      have fails : answer.fails = true := by
        rw [AcceptAnswer.fails, busy, unknown]
        rfl
      have negative : NetError.addressInvalid < 0 := by decide
      have other : NetError.addressInvalid ≠ NetError.ioPending := by decide
      exact ⟨rfl, .inr ⟨fails, negative, other, rfl⟩⟩
    | some address =>
      have known : answer.endpoint? = some address := by rw [AcceptAnswer.endpoint?, made, Option.bind_some, peer]
      exact ⟨rfl, .inl ⟨address, known, rfl, rfl⟩⟩
  · rename_i failed
    cases handled
    have nothing := doAccept_none failed
    have unknown : answer.endpoint? = none := by rw [AcceptAnswer.endpoint?, nothing, Option.bind_none]
    have fails : answer.fails = true := by
      rw [AcceptAnswer.fails, busy, unknown]
      rfl
    have nonpos := doAccept_nonpos answer
    have negative : (SocketLibevent.doAccept answer : Int × Option (SocketLibevent Unit)).1 < 0 := by
      change ¬ _ = (0 : Int) at failed
      omega
    exact ⟨by rw [nothing], .inr ⟨fails, negative, settled, rfl⟩⟩

theorem Idle.accept (idle : t.Idle) {result : Accepting (TCPServerSocket Unit)}
    (called : t.accept answer watch () = some result) : Accepted answer watch result := by
  unfold TCPServerSocket.accept at called
  rw [idle.pending, if_neg Bool.false_ne_true] at called
  obtain ⟨inner, accepted, rfl⟩ := Option.map_eq_some_iff.mp called
  unfold TCPSocketLibevent.accept at accepted
  rw [idle.none_, if_neg (by simp)] at accepted
  unfold SocketLibevent.accept at accepted
  cases waits : answer.waits with
  | true =>
    have nothing : (SocketLibevent.doAccept answer : Int × Option (SocketLibevent Unit)).1 = NetError.ioPending :=
      of_decide_eq_true waits
    have empty : (SocketLibevent.doAccept answer : Int × Option (SocketLibevent Unit)).2 = none :=
      doAccept_none (by rw [nothing]; decide)
    simp only [nothing, empty, ne_eq, not_true, if_false] at accepted
    cases watch with
    | none =>
      simp only [not_true, if_false, Option.some.injEq] at accepted
      cases accepted
      exact .waits waits rfl ⟨rfl, rfl, rfl, rfl⟩
    | some error =>
      simp only at accepted
      split at accepted
      · rename_i settled
        unfold TCPSocketLibevent.handleAcceptCompleted TCPSocketLibevent.buildTcpSocketLibevent at accepted
        split at accepted
        · cases accepted
        · rename_i failed
          cases accepted
          have negative := mapSystemError_nonpos error
          change ¬ _ = (0 : Int) at failed
          simp only [ne_eq, settled, not_false_eq_true, if_true]
          exact .unwatched waits rfl (by omega) idle.watcher
      · rename_i pending
        cases accepted
        have negative : mapSystemError error < 0 := by
          rw [not_not.mp pending]
          decide
        simp only [pending, if_false]
        exact .unwatched waits rfl negative idle.watcher
  | false =>
    have settled : (SocketLibevent.doAccept answer : Int × Option (SocketLibevent Unit)).1 ≠ NetError.ioPending :=
      of_decide_eq_false waits
    simp only [settled, ne_eq, not_false_eq_true, if_true] at accepted
    obtain ⟨state, ⟨address, known, ok, made⟩ | ⟨fails, negative, other, nothing⟩⟩ :=
      handleAcceptCompleted_cases waits accepted
    · rw [if_pos (by rw [ok]; decide), ok, made]
      exact .connected known waits ⟨rfl, by rw [state], by rw [state]; exact idle.callback,
        by rw [state]; exact idle.watcher⟩
    · rw [if_pos other, nothing]
      exact .failed fails negative other ⟨rfl, by rw [state], by rw [state]; exact idle.callback,
        by rw [state]; exact idle.watcher⟩

inductive Told (answer : AcceptAnswer) (t : TCPServerSocket Unit) :
    TCPServerSocket Unit × Option (Int × Option IPEndPoint) → Prop where
  | waits (nothing : answer.waits = true) : Told answer t (t, none)
  | connected {address : IPEndPoint} {u : TCPServerSocket Unit} (peer : answer.endpoint? = some address)
      (busy : answer.waits = false) (idle : u.Idle) : Told answer t (u, some (NetError.ok, some address))
  | failed {rv : Int} {u : TCPServerSocket Unit} (fails : answer.fails = true) (error : rv < 0) (idle : u.Idle) :
      Told answer t (u, some (rv, none))

theorem Listening.canRead (listening : t.Listening)
    {result : TCPServerSocket Unit × Option (Int × Option IPEndPoint)} (told : t.canRead answer = some result) :
    Told answer t result := by
  unfold TCPServerSocket.canRead SocketLibevent.onFileCanReadWithoutBlocking at told
  rw [listening.callback] at told
  simp only [Option.bind_some, SocketLibevent.acceptCompleted] at told
  cases waits : answer.waits with
  | true =>
    have nothing : (SocketLibevent.doAccept answer : Int × Option (SocketLibevent Unit)).1 = NetError.ioPending :=
      of_decide_eq_true waits
    simp only [nothing, if_true] at told
    cases told
    exact .waits waits
  | false =>
    have settled : (SocketLibevent.doAccept answer : Int × Option (SocketLibevent Unit)).1 ≠ NetError.ioPending :=
      of_decide_eq_false waits
    simp only [settled, if_false] at told
    obtain ⟨inner, handled, rfl⟩ := Option.map_eq_some_iff.mp told
    obtain ⟨state, ⟨address, known, ok, made⟩ | ⟨fails, negative, other, nothing⟩⟩ :=
      handleAcceptCompleted_cases waits handled
    · rw [ok, made]
      exact .connected known waits ⟨rfl, by rw [state], by rw [state], by rw [state]⟩
    · rw [nothing]
      exact .failed fails negative ⟨rfl, by rw [state], by rw [state], by rw [state]⟩

theorem endpoint_of_waits (waits : answer.waits = true) : answer.endpoint? = none := by
  have nothing : (SocketLibevent.doAccept answer : Int × Option (SocketLibevent Unit)).1 = NetError.ioPending :=
    of_decide_eq_true waits
  have empty : (SocketLibevent.doAccept answer : Int × Option (SocketLibevent Unit)).2 = none :=
    doAccept_none (by rw [nothing]; decide)
  rw [AcceptAnswer.endpoint?, empty, Option.bind_none]

theorem endpoint_of_fails (fails : answer.fails = true) : answer.waits = false ∧ answer.endpoint? = none := by
  rw [AcceptAnswer.fails, Bool.and_eq_true, Bool.not_eq_true', Option.isNone_iff_eq_none] at fails
  exact fails

theorem fails_of_endpoint {address : IPEndPoint} (peer : answer.endpoint? = some address) : answer.fails = false := by
  rw [AcceptAnswer.fails, peer]
  simp

theorem fails_of_waits (waits : answer.waits = true) : answer.fails = false := by
  rw [AcceptAnswer.fails, waits]
  rfl

theorem doAccept_isSome (set : answer.accepted ≠ .error .success)
    (ok : (SocketLibevent.doAccept answer : Int × Option (SocketLibevent Unit)).1 = NetError.ok) :
    (SocketLibevent.doAccept answer : Int × Option (SocketLibevent Unit)).2.isSome = true := by
  rcases answer with ⟨error | ⟨fd, address⟩, nonBlocking⟩
  · change mapAcceptError error = NetError.ok at ok
    cases error <;> first | exact absurd rfl set | exact absurd ok (by decide)
  · unfold SocketLibevent.doAccept at ok ⊢
    dsimp only at ok ⊢
    split at ok
    · rename_i adopted
      rw [if_pos adopted]
      rfl
    · rename_i other
      exact absurd ok other

theorem Listening.canRead_isSome (listening : t.Listening) (set : answer.accepted ≠ .error .success) :
    (t.canRead answer).isSome = true := by
  unfold TCPServerSocket.canRead SocketLibevent.onFileCanReadWithoutBlocking
  rw [listening.callback]
  simp only [Option.bind_some, SocketLibevent.acceptCompleted]
  split
  · rfl
  · rename_i callback rv run
    rw [Option.isSome_map]
    unfold TCPSocketLibevent.handleAcceptCompleted
    split
    · rename_i ok
      rw [TCPSocketLibevent.buildTcpSocketLibevent, Option.isSome_map]
      apply doAccept_isSome set
      split at run
      · cases run
      · cases run
        exact ok
    · rfl

theorem Idle.accept_isSome (idle : t.Idle) (set : answer.accepted ≠ .error .success) (told : watch ≠ some .success) :
    (t.accept answer watch ()).isSome = true := by
  unfold TCPServerSocket.accept TCPSocketLibevent.accept SocketLibevent.accept
  rw [idle.pending, if_neg Bool.false_ne_true, idle.none_, if_neg (by simp), Option.isSome_map]
  dsimp only
  by_cases nothing : (SocketLibevent.doAccept answer : Int × Option (SocketLibevent Unit)).1 = NetError.ioPending
  · simp only [nothing, ne_eq, not_true, if_false]
    cases watch with
    | none => simp
    | some error =>
      have failed : mapSystemError error ≠ NetError.ok := fun ok =>
        told (congrArg some (mapSystemError_eq_ok.mp ok))
      simp only [TCPSocketLibevent.handleAcceptCompleted, if_neg failed]
      split <;> rfl
  · simp only [ne_eq, nothing, not_false_eq_true, if_true, TCPSocketLibevent.handleAcceptCompleted]
    split
    · rename_i ok
      rw [TCPSocketLibevent.buildTcpSocketLibevent, Option.isSome_map]
      exact doAccept_isSome set ok
    · rfl

end TCPServerSocket

end DistributedNinja.Net
