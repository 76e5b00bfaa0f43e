import DistributedNinja.Lib.Run
import DistributedNinja.Net.IPEndPoint
import DistributedNinja.Net.NetErrors
import Mathlib.Data.List.Count
import Mathlib.Data.List.Nodup
import Mathlib.Data.List.Perm.Basic

namespace DistributedNinja.Net

open Lib

/-- `SocketLibevent`, with closures of any kind for its callbacks. A watcher is set while the message loop watches
    the descriptor for it. -/
structure SocketLibevent (Callback : Type) where
  socketFd : Option Nat
  acceptSocketWatcher : Bool
  acceptCallback : Option Callback
  readSocketWatcher : Bool
  readBufLen : Nat
  readCallback : Option Callback
  writeSocketWatcher : Bool
  writeBufLen : Nat
  writeCallback : Option Callback
  waitingConnect : Bool
  peerAddress : Option SockaddrStorage

/-- What `accept` gives, and `errno` when the new socket cannot be made non-blocking. -/
structure AcceptAnswer where
  accepted : Except SystemError (Nat × SockaddrStorage)
  nonBlocking : Option SystemError

namespace SocketLibevent

variable {Callback : Type}

def new : SocketLibevent Callback := ⟨none, false, none, false, 0, none, false, 0, none, false, none⟩

def stopWatchingAndCleanUp (s : SocketLibevent Callback) : SocketLibevent Callback :=
  { s with
    acceptSocketWatcher := false
    acceptCallback := none
    readSocketWatcher := false
    readBufLen := if s.readCallback.isSome then 0 else s.readBufLen
    readCallback := none
    writeSocketWatcher := false
    writeBufLen := if s.writeCallback.isSome then 0 else s.writeBufLen
    writeCallback := none
    waitingConnect := false
    peerAddress := none }

def close (s : SocketLibevent Callback) : SocketLibevent Callback :=
  { s.stopWatchingAndCleanUp with socketFd := none }

def openSocket (s : SocketLibevent Callback) (created : Except SystemError Nat) (nonBlocking : Option SystemError) :
    Int × SocketLibevent Callback :=
  match created with
  | .error error => (mapSystemError error, { s with socketFd := none })
  | .ok fd =>
    match nonBlocking with
    | some error => (mapSystemError error, { s with socketFd := some fd }.close)
    | none => (NetError.ok, { s with socketFd := some fd })

def adoptConnectedSocket (s : SocketLibevent Callback) (fd : Nat) (address : SockaddrStorage)
    (nonBlocking : Option SystemError) : Int × SocketLibevent Callback :=
  match nonBlocking with
  | some error => (mapSystemError error, { s with socketFd := some fd }.close)
  | none => (NetError.ok, { s with socketFd := some fd, peerAddress := some address })

def releaseConnectedSocket (s : SocketLibevent Callback) : Option Nat × SocketLibevent Callback :=
  (s.socketFd, { s.stopWatchingAndCleanUp with socketFd := none })

def doAccept (answer : AcceptAnswer) : Int × Option (SocketLibevent Callback) :=
  match answer.accepted with
  | .error error => (mapAcceptError error, none)
  | .ok (fd, address) =>
    match (new : SocketLibevent Callback).adoptConnectedSocket fd address answer.nonBlocking with
    | (rv, socket) => if rv = NetError.ok then (NetError.ok, some socket) else (rv, none)

/-- `Accept`; `watch` is `errno` when `WatchFileDescriptor` fails. -/
def accept (s : SocketLibevent Callback) (answer : AcceptAnswer) (watch : Option SystemError) (callback : Callback) :
    Int × SocketLibevent Callback :=
  let rv := (doAccept answer : Int × Option (SocketLibevent Callback)).1
  if rv ≠ NetError.ioPending then (rv, s)
  else
    match watch with
    | some error => (mapSystemError error, s)
    | none => (NetError.ioPending, { s with acceptSocketWatcher := true, acceptCallback := some callback })

def connect (s : SocketLibevent Callback) (address : SockaddrStorage) (answer : SystemError)
    (watch : Option SystemError) (callback : Callback) : Int × SocketLibevent Callback :=
  let s := { s with peerAddress := some address }
  let rv := mapConnectError answer
  if rv ≠ NetError.ioPending then (rv, s)
  else
    match watch with
    | some error => (mapSystemError error, s)
    | none =>
      (NetError.ioPending,
        { s with writeSocketWatcher := true, writeCallback := some callback, waitingConnect := true })

def transferred : Except SystemError Nat → Int
  | .error error => mapSystemError error
  | .ok count => count

def read (s : SocketLibevent Callback) (bufLen : Nat) (answer : Except SystemError Nat) (watch : Option SystemError)
    (callback : Callback) : Int × SocketLibevent Callback :=
  let rv := transferred answer
  if rv ≠ NetError.ioPending then (rv, s)
  else
    match watch with
    | some error => (mapSystemError error, s)
    | none =>
      (NetError.ioPending,
        { s with readSocketWatcher := true, readBufLen := bufLen, readCallback := some callback })

def waitForWrite (s : SocketLibevent Callback) (bufLen : Nat) (watch : Option SystemError) (callback : Callback) :
    Int × SocketLibevent Callback :=
  match watch with
  | some error => (mapSystemError error, s)
  | none =>
    (NetError.ioPending,
      { s with writeSocketWatcher := true, writeBufLen := bufLen, writeCallback := some callback })

def write (s : SocketLibevent Callback) (bufLen : Nat) (answer : Except SystemError Nat) (watch : Option SystemError)
    (callback : Callback) : Int × SocketLibevent Callback :=
  let rv := transferred answer
  if rv = NetError.ioPending then s.waitForWrite bufLen watch callback else (rv, s)

/-- The three `*Completed` of a watched operation: the callback is run with what the operation gives now, or it
    still waits. -/
def acceptCompleted (s : SocketLibevent Callback) (callback : Callback) (answer : AcceptAnswer) :
    SocketLibevent Callback × Option (Callback × Int) :=
  let rv := (doAccept answer : Int × Option (SocketLibevent Callback)).1
  if rv = NetError.ioPending then (s, none)
  else ({ s with acceptSocketWatcher := false, acceptCallback := none }, some (callback, rv))

def readCompleted (s : SocketLibevent Callback) (callback : Callback) (answer : Except SystemError Nat) :
    SocketLibevent Callback × Option (Callback × Int) :=
  let rv := transferred answer
  if rv = NetError.ioPending then (s, none)
  else ({ s with readSocketWatcher := false, readBufLen := 0, readCallback := none }, some (callback, rv))

def connectCompleted (s : SocketLibevent Callback) (callback : Callback) (error : SystemError) :
    SocketLibevent Callback × Option (Callback × Int) :=
  let rv := mapConnectError error
  if rv = NetError.ioPending then (s, none)
  else ({ s with writeSocketWatcher := false, waitingConnect := false, writeCallback := none }, some (callback, rv))

def writeCompleted (s : SocketLibevent Callback) (callback : Callback) (answer : Except SystemError Nat) :
    SocketLibevent Callback × Option (Callback × Int) :=
  let rv := transferred answer
  if rv = NetError.ioPending then (s, none)
  else ({ s with writeSocketWatcher := false, writeBufLen := 0, writeCallback := none }, some (callback, rv))

/-- `none` when the `DCHECK` fails: neither callback is set. -/
def onFileCanReadWithoutBlocking (s : SocketLibevent Callback) (accepts : AcceptAnswer)
    (reads : Except SystemError Nat) : Option (SocketLibevent Callback × Option (Callback × Int)) :=
  match s.acceptCallback with
  | some callback => some (s.acceptCompleted callback accepts)
  | none => s.readCallback.map fun callback => s.readCompleted callback reads

def onFileCanWriteWithoutBlocking (s : SocketLibevent Callback) (connects : SystemError)
    (writes : Except SystemError Nat) : Option (SocketLibevent Callback × Option (Callback × Int)) :=
  s.writeCallback.map fun callback =>
    if s.waitingConnect then s.connectCompleted callback connects else s.writeCompleted callback writes

def callbacks (s : SocketLibevent Callback) : List Callback :=
  s.acceptCallback.toList ++ s.readCallback.toList ++ s.writeCallback.toList

end SocketLibevent

/-- What is done with a socket, and what the system answers. A socket can be read and written when the message loop
    says so. -/
inductive SocketEvent where
  | opened (created : Except SystemError Nat) (nonBlocking : Option SystemError)
  | adopted (fd : Nat) (address : SockaddrStorage) (nonBlocking : Option SystemError)
  | accept (answer : AcceptAnswer) (watch : Option SystemError)
  | connect (address : SockaddrStorage) (answer : SystemError) (watch : Option SystemError)
  | read (bufLen : Nat) (answer : Except SystemError Nat) (watch : Option SystemError)
  | write (bufLen : Nat) (answer : Except SystemError Nat) (watch : Option SystemError)
  | waitForWrite (bufLen : Nat) (watch : Option SystemError)
  | canRead (accepts : AcceptAnswer) (reads : Except SystemError Nat)
  | canWrite (connects : SystemError) (writes : Except SystemError Nat)
  | released
  | closed

def SocketEvent.watch? : SocketEvent → Option SystemError
  | .accept _ watch | .connect _ _ watch | .read _ _ watch | .write _ _ watch | .waitForWrite _ watch => watch
  | _ => none

/-- A socket whose callbacks are the numbers of the calls they were given with, and what became of those calls that
    returned `ERR_IO_PENDING`. -/
structure SocketRun where
  socket : SocketLibevent Nat
  calls : Nat
  pending : List Nat
  ran : List (Nat × Int)
  dropped : List Nat
  overwritten : List Nat
  unwatched : List Nat

namespace SocketRun

def new : SocketRun := ⟨.new, 0, [], [], [], [], []⟩

/-- A call returns. A callback that was set and is not there any more was overwritten by the call's own; when the
    call says that it is pending and its callback was not kept, nothing will run it. -/
def returned (r : SocketRun) (result : Int × SocketLibevent Nat) : SocketRun :=
  let isPending := result.1 = NetError.ioPending
  { r with
    socket := result.2
    calls := r.calls + 1
    pending := if isPending then r.pending ++ [r.calls] else r.pending
    overwritten := r.overwritten ++ r.socket.callbacks.filter fun call => decide (call ∉ result.2.callbacks)
    unwatched :=
      if isPending ∧ r.calls ∉ result.2.callbacks then r.unwatched ++ [r.calls] else r.unwatched }

def completed (r : SocketRun) (result : SocketLibevent Nat × Option (Nat × Int)) : SocketRun :=
  { r with socket := result.1, ran := r.ran ++ result.2.toList }

def ended (r : SocketRun) (s : SocketLibevent Nat) : SocketRun :=
  { r with socket := s, dropped := r.dropped ++ r.socket.callbacks }

/-- `none` when a `CHECK` or `DCHECK` fails, or when the message loop does not watch for what is said. -/
def step (r : SocketRun) : SocketEvent → Option SocketRun
  | .opened created nonBlocking =>
    if r.socket.socketFd = none then some { r with socket := (r.socket.openSocket created nonBlocking).2 } else none
  | .adopted fd address nonBlocking =>
    if r.socket.socketFd = none ∧ (nonBlocking = none → r.socket.peerAddress = none) then
      some { r with socket := (r.socket.adoptConnectedSocket fd address nonBlocking).2 }
    else none
  | .accept answer watch =>
    if r.socket.socketFd ≠ none ∧ r.socket.acceptCallback = none then
      some (r.returned (r.socket.accept answer watch r.calls))
    else none
  | .connect address answer watch =>
    if r.socket.socketFd ≠ none ∧ r.socket.waitingConnect = false ∧ r.socket.peerAddress = none then
      some (r.returned (r.socket.connect address answer watch r.calls))
    else none
  | .read bufLen answer watch =>
    if r.socket.socketFd ≠ none ∧ r.socket.waitingConnect = false ∧ r.socket.readCallback = none ∧ 0 < bufLen then
      some (r.returned (r.socket.read bufLen answer watch r.calls))
    else none
  | .write bufLen answer watch =>
    if r.socket.socketFd ≠ none ∧ r.socket.waitingConnect = false ∧ r.socket.writeCallback = none ∧ 0 < bufLen then
      some (r.returned (r.socket.write bufLen answer watch r.calls))
    else none
  | .waitForWrite bufLen watch =>
    if r.socket.socketFd ≠ none ∧ r.socket.writeCallback = none ∧ 0 < bufLen then
      some (r.returned (r.socket.waitForWrite bufLen watch r.calls))
    else none
  | .canRead accepts reads =>
    if r.socket.acceptSocketWatcher || r.socket.readSocketWatcher then
      (r.socket.onFileCanReadWithoutBlocking accepts reads).map r.completed
    else none
  | .canWrite connects writes =>
    if r.socket.writeSocketWatcher then
      (r.socket.onFileCanWriteWithoutBlocking connects writes).map r.completed
    else none
  | .released => some (r.ended r.socket.releaseConnectedSocket.2)
  | .closed => some (r.ended r.socket.close)

/-- A socket is not connected while it waits to be written, so that `Connect` overwrites no callback. -/
def connectsFresh (r : SocketRun) : SocketEvent → Prop
  | .connect _ _ _ => r.socket.writeCallback = none
  | _ => True

end SocketRun

namespace SocketLibevent

variable {Callback : Type} {s t : SocketLibevent Callback} {callback : Callback} {watch : Option SystemError}

structure Wired (s : SocketLibevent Callback) : Prop where
  acceptWatched : s.acceptSocketWatcher = s.acceptCallback.isSome
  readWatched : s.readSocketWatcher = s.readCallback.isSome
  writeWatched : s.writeSocketWatcher = s.writeCallback.isSome
  connecting : s.waitingConnect = true → s.writeCallback.isSome = true
  readLength : s.readCallback.isSome = true → 0 < s.readBufLen
  writeLength : s.writeCallback.isSome = true → s.waitingConnect = false → 0 < s.writeBufLen
  invalid : s.socketFd = none → s.callbacks = []

theorem new_wired : (new : SocketLibevent Callback).Wired :=
  ⟨rfl, rfl, rfl, nofun, nofun, nofun, fun _ => rfl⟩

theorem close_wired (s : SocketLibevent Callback) : s.close.Wired :=
  ⟨rfl, rfl, rfl, nofun, nofun, nofun, fun _ => rfl⟩

theorem release_wired (s : SocketLibevent Callback) : s.releaseConnectedSocket.2.Wired := s.close_wired

theorem Wired.silent (wired : s.Wired) (invalid : s.socketFd = none) :
    s.acceptCallback = none ∧ s.readCallback = none ∧ s.writeCallback = none := by
  have nothing := wired.invalid invalid
  simp only [callbacks, List.append_eq_nil_iff, Option.toList_eq_nil_iff] at nothing
  exact ⟨nothing.1.1, nothing.1.2, nothing.2⟩

theorem Wired.rename (wired : s.Wired) (fd : Option Nat) (address : Option SockaddrStorage)
    (invalid : fd = none → s.callbacks = []) : Wired { s with socketFd := fd, peerAddress := address } :=
  ⟨wired.acceptWatched, wired.readWatched, wired.writeWatched, wired.connecting, wired.readLength,
    wired.writeLength, invalid⟩

theorem Wired.openSocket (wired : s.Wired) (invalid : s.socketFd = none) (created : Except SystemError Nat)
    (nonBlocking : Option SystemError) :
    (s.openSocket created nonBlocking).2.Wired ∧ (s.openSocket created nonBlocking).2.callbacks = s.callbacks := by
  unfold SocketLibevent.openSocket
  split
  · exact ⟨wired.rename none s.peerAddress fun _ => wired.invalid invalid, rfl⟩
  · rename_i fd
    split
    · exact ⟨close_wired _, (wired.invalid invalid).symm⟩
    · exact ⟨wired.rename (some fd) s.peerAddress nofun, rfl⟩

theorem Wired.adoptConnectedSocket (wired : s.Wired) (invalid : s.socketFd = none) (fd : Nat)
    (address : SockaddrStorage) (nonBlocking : Option SystemError) :
    (s.adoptConnectedSocket fd address nonBlocking).2.Wired ∧
      (s.adoptConnectedSocket fd address nonBlocking).2.callbacks = s.callbacks := by
  unfold SocketLibevent.adoptConnectedSocket
  split
  · exact ⟨close_wired _, (wired.invalid invalid).symm⟩
  · exact ⟨wired.rename (some fd) (some address) nofun, rfl⟩

/-- What a call with a callback does to the callbacks: it keeps its own in the place of those that are `gone` and is
    pending, or keeps nothing. In the second case it is pending only when the message loop could not watch, and
    `errno` was then `EAGAIN`. -/
inductive Offers (s : SocketLibevent Callback) (callback : Callback) (watch : Option SystemError)
    (gone : List Callback) : Int × SocketLibevent Callback → Prop where
  | kept {t : SocketLibevent Callback} (held : callback ∈ t.callbacks)
      (more : (t.callbacks ++ gone).Perm (callback :: s.callbacks)) :
      Offers s callback watch gone (NetError.ioPending, t)
  | refused {rv : Int} {t : SocketLibevent Callback} (same : t.callbacks = s.callbacks)
      (unwatched : rv = NetError.ioPending → watch = some .eagain) : Offers s callback watch gone (rv, t)

theorem Offers.kept_all {t : SocketLibevent Callback} (more : t.callbacks.Perm (callback :: s.callbacks)) :
    Offers s callback watch [] (NetError.ioPending, t) :=
  .kept (more.mem_iff.mpr List.mem_cons_self) (by rwa [List.append_nil])

theorem unwatched_of_pending {error : SystemError} (pending : mapSystemError error = NetError.ioPending) :
    some error = some SystemError.eagain := congrArg some ((mapSystemError_eq_ioPending error).mp pending)

theorem Wired.accept (wired : s.Wired) (valid : s.socketFd ≠ none) (free : s.acceptCallback = none)
    (answer : AcceptAnswer) : (s.accept answer watch callback).2.Wired ∧
      Offers s callback watch [] (s.accept answer watch callback) := by
  unfold SocketLibevent.accept
  dsimp only
  split
  · rename_i rv
    exact ⟨wired, .refused rfl fun pending => absurd pending rv⟩
  · split
    · exact ⟨wired, .refused rfl unwatched_of_pending⟩
    · refine ⟨⟨rfl, wired.readWatched, wired.writeWatched, wired.connecting, wired.readLength, wired.writeLength,
        fun invalid => absurd invalid valid⟩, .kept_all ?_⟩
      simp [callbacks, free]

theorem Wired.connect (wired : s.Wired) (valid : s.socketFd ≠ none) (address : SockaddrStorage)
    (answer : SystemError) : (s.connect address answer watch callback).2.Wired ∧
      Offers s callback watch s.writeCallback.toList (s.connect address answer watch callback) := by
  have named : Wired { s with peerAddress := some address } :=
    wired.rename s.socketFd (some address) wired.invalid
  unfold SocketLibevent.connect
  dsimp only
  split
  · rename_i rv
    exact ⟨named, .refused rfl fun pending => absurd pending rv⟩
  · split
    · exact ⟨named, .refused rfl unwatched_of_pending⟩
    · refine ⟨⟨wired.acceptWatched, wired.readWatched, rfl, fun _ => rfl, wired.readLength, nofun,
        fun invalid => absurd invalid valid⟩, .kept ?_ ?_⟩
      · simp [callbacks]
      · simp only [callbacks, Option.toList_some, List.append_assoc, List.singleton_append]
        exact (List.perm_middle.append_left _).trans List.perm_middle

theorem Wired.read (wired : s.Wired) (valid : s.socketFd ≠ none) (free : s.readCallback = none) {bufLen : Nat}
    (positive : 0 < bufLen) (answer : Except SystemError Nat) : (s.read bufLen answer watch callback).2.Wired ∧
      Offers s callback watch [] (s.read bufLen answer watch callback) := by
  unfold SocketLibevent.read
  dsimp only
  split
  · rename_i rv
    exact ⟨wired, .refused rfl fun pending => absurd pending rv⟩
  · split
    · exact ⟨wired, .refused rfl unwatched_of_pending⟩
    · refine ⟨⟨wired.acceptWatched, rfl, wired.writeWatched, wired.connecting, fun _ => positive, wired.writeLength,
        fun invalid => absurd invalid valid⟩, .kept_all ?_⟩
      simp only [callbacks, free, Option.toList_some, Option.toList_none, List.append_nil, List.append_assoc,
        List.singleton_append]
      exact List.perm_middle

theorem Wired.waitForWrite (wired : s.Wired) (valid : s.socketFd ≠ none) (free : s.writeCallback = none)
    {bufLen : Nat} (positive : 0 < bufLen) : (s.waitForWrite bufLen watch callback).2.Wired ∧
      Offers s callback watch [] (s.waitForWrite bufLen watch callback) := by
  unfold SocketLibevent.waitForWrite
  split
  · exact ⟨wired, .refused rfl unwatched_of_pending⟩
  · refine ⟨⟨wired.acceptWatched, wired.readWatched, rfl, fun _ => rfl, wired.readLength, fun _ _ => positive,
      fun invalid => absurd invalid valid⟩, .kept_all ?_⟩
    simp only [callbacks, free, Option.toList_some, Option.toList_none, List.append_nil]
    exact List.perm_append_singleton _ _

theorem Wired.write (wired : s.Wired) (valid : s.socketFd ≠ none) (free : s.writeCallback = none) {bufLen : Nat}
    (positive : 0 < bufLen) (answer : Except SystemError Nat) : (s.write bufLen answer watch callback).2.Wired ∧
      Offers s callback watch [] (s.write bufLen answer watch callback) := by
  unfold SocketLibevent.write
  dsimp only
  split
  · exact wired.waitForWrite valid free positive
  · rename_i rv
    exact ⟨wired, .refused rfl fun pending => absurd pending rv⟩

inductive Completes (s : SocketLibevent Callback) : SocketLibevent Callback × Option (Callback × Int) → Prop where
  | waits : Completes s (s, none)
  | runs {callback : Callback} {rv : Int} {t : SocketLibevent Callback}
      (fewer : s.callbacks.Perm (callback :: t.callbacks)) (settled : rv ≠ NetError.ioPending) :
      Completes s (t, some (callback, rv))

theorem Wired.canRead (wired : s.Wired) {accepts : AcceptAnswer} {reads : Except SystemError Nat}
    {result : SocketLibevent Callback × Option (Callback × Int)}
    (told : s.onFileCanReadWithoutBlocking accepts reads = some result) : result.1.Wired ∧ Completes s result := by
  unfold onFileCanReadWithoutBlocking at told
  split at told
  · rename_i callback set
    cases told
    unfold acceptCompleted
    dsimp only
    split
    · exact ⟨wired, .waits⟩
    · rename_i rv
      refine ⟨⟨rfl, wired.readWatched, wired.writeWatched, wired.connecting, wired.readLength, wired.writeLength, ?_⟩,
        .runs ?_ rv⟩
      · intro invalid
        have nothing := wired.silent invalid
        simp [callbacks, nothing]
      · simp [callbacks, set]
  · rename_i quiet
    obtain ⟨callback, set, rfl⟩ := Option.map_eq_some_iff.mp told
    unfold readCompleted
    dsimp only
    split
    · exact ⟨wired, .waits⟩
    · rename_i rv
      refine ⟨⟨wired.acceptWatched, rfl, wired.writeWatched, wired.connecting, nofun, wired.writeLength, ?_⟩,
        .runs ?_ rv⟩
      · intro invalid
        have nothing := wired.silent invalid
        simp [callbacks, nothing]
      · simp [callbacks, set, quiet]

theorem Wired.canWrite (wired : s.Wired) {connects : SystemError} {writes : Except SystemError Nat}
    {result : SocketLibevent Callback × Option (Callback × Int)}
    (told : s.onFileCanWriteWithoutBlocking connects writes = some result) : result.1.Wired ∧ Completes s result := by
  obtain ⟨callback, set, rfl⟩ := Option.map_eq_some_iff.mp told
  have invalid : s.socketFd = none → (callbacks { s with writeCallback := none }) = [] := by
    intro invalid
    have nothing := wired.silent invalid
    simp [callbacks, nothing]
  have fewer : s.callbacks.Perm (callback :: callbacks { s with writeCallback := none }) := by
    simp only [callbacks, set, Option.toList_some, Option.toList_none, List.append_nil]
    exact List.perm_append_singleton _ _
  split
  · unfold connectCompleted
    dsimp only
    split
    · exact ⟨wired, .waits⟩
    · rename_i rv
      exact ⟨⟨wired.acceptWatched, wired.readWatched, rfl, nofun, wired.readLength, nofun, invalid⟩, .runs fewer rv⟩
  · rename_i connected
    unfold writeCompleted
    dsimp only
    split
    · exact ⟨wired, .waits⟩
    · rename_i rv
      refine ⟨⟨wired.acceptWatched, wired.readWatched, rfl, ?_, wired.readLength, nofun, invalid⟩, .runs fewer rv⟩
      exact fun waiting => absurd waiting connected

end SocketLibevent

namespace SocketRun

variable {r t : SocketRun} {event : SocketEvent}

/-- Every call that returned `ERR_IO_PENDING` is in one place: its callback is set, has run, was dropped or was
    overwritten, or it was never kept. -/
structure Accounted (r : SocketRun) : Prop where
  wired : r.socket.Wired
  placed : (r.socket.callbacks ++ r.ran.map Prod.fst ++ r.dropped ++ r.overwritten ++ r.unwatched).Perm r.pending
  old : ∀ call ∈ r.pending, call < r.calls
  once : r.pending.Nodup
  settled : ∀ p ∈ r.ran, p.2 ≠ NetError.ioPending

theorem new_accounted : new.Accounted :=
  ⟨SocketLibevent.new_wired, List.Perm.refl [], nofun, List.nodup_nil, nofun⟩

theorem Accounted.fresh (accounted : r.Accounted) : r.calls ∉ r.socket.callbacks := by
  intro held
  have pending : r.calls ∈ r.pending := accounted.placed.subset (by simp [held])
  exact Nat.lt_irrefl _ (accounted.old _ pending)

theorem Accounted.callbacks_nodup (accounted : r.Accounted) : (r.calls :: r.socket.callbacks).Nodup := by
  have all := accounted.placed.nodup_iff.mpr accounted.once
  exact List.nodup_cons.mpr ⟨accounted.fresh, all.of_append_left.of_append_left.of_append_left.of_append_left⟩

theorem overwritten_perm {s t : SocketLibevent Nat} {call : Nat} {gone : List Nat}
    (nodup : (call :: s.callbacks).Nodup) (held : call ∈ t.callbacks)
    (more : (t.callbacks ++ gone).Perm (call :: s.callbacks)) :
    (s.callbacks.filter fun other => decide (other ∉ t.callbacks)).Perm gone := by
  have apart := (List.nodup_append.mp (more.nodup_iff.mpr nodup)).2.2
  have kept : (t.callbacks.filter fun other => decide (other ∉ t.callbacks)) = [] := by
    simp
  have lost : (gone.filter fun other => decide (other ∉ t.callbacks)) = gone := by
    rw [List.filter_eq_self]
    intro other member
    exact decide_eq_true fun set => apart other set other member rfl
  have both := (more.filter fun other => decide (other ∉ t.callbacks)).symm
  rwa [List.filter_append, kept, lost, List.nil_append, List.filter_cons_of_neg (by simp [held])] at both

theorem Accounted.returned (accounted : r.Accounted) {watch : Option SystemError} {gone : List Nat}
    {result : Int × SocketLibevent Nat} (wired : result.2.Wired)
    (offers : SocketLibevent.Offers r.socket r.calls watch gone result) :
    (r.returned result).Accounted ∧ (watch ≠ some .eagain → (r.returned result).unwatched = r.unwatched) ∧
      (gone = [] → (r.returned result).overwritten = r.overwritten) := by
  have fresh : r.calls ∉ r.pending := fun pending => Nat.lt_irrefl _ (accounted.old _ pending)
  have old : ∀ call ∈ r.pending ++ [r.calls], call < r.calls + 1 := by
    intro call member
    rcases List.mem_append.mp member with member | member
    · exact Nat.lt_succ_of_lt (accounted.old call member)
    · rw [List.mem_singleton.mp member]
      exact Nat.lt_succ_self _
  have once : (r.pending ++ [r.calls]).Nodup :=
    accounted.once.append (List.nodup_singleton _) (List.disjoint_singleton.mpr fresh)
  cases offers with
  | @kept s held more =>
    have lost := overwritten_perm accounted.callbacks_nodup held more
    have placed : (s.callbacks ++ r.ran.map Prod.fst ++ r.dropped ++
        (r.overwritten ++ r.socket.callbacks.filter fun call => decide (call ∉ s.callbacks)) ++ r.unwatched).Perm
          (r.pending ++ [r.calls]) := by
      have before := (accounted.placed.cons r.calls).trans (List.perm_append_singleton _ _).symm
      refine List.Perm.trans (List.perm_iff_count.mpr fun call => ?_) before
      have moved := more.count_eq call
      have same := lost.count_eq call
      simp only [List.count_append, List.count_cons] at moved same ⊢
      omega
    refine ⟨⟨wired, ?_, ?_, ?_, accounted.settled⟩, ?_, ?_⟩
    · simpa [SocketRun.returned, held] using placed
    · simpa [SocketRun.returned] using old
    · simpa [SocketRun.returned] using once
    · intro _
      simp [SocketRun.returned, held]
    · intro none
      rw [none] at lost
      simp only [SocketRun.returned, lost.eq_nil, List.append_nil]
  | @refused rv s same unwatched =>
    have absent : r.calls ∉ s.callbacks := same ▸ accounted.fresh
    have stays : (r.socket.callbacks.filter fun call => decide (call ∉ s.callbacks)) = [] := by
      simp [same]
    have intact : (r.returned (rv, s)).overwritten = r.overwritten := by
      simp only [SocketRun.returned, stays, List.append_nil]
    by_cases pending : rv = NetError.ioPending
    · have placed : (s.callbacks ++ r.ran.map Prod.fst ++ r.dropped ++ r.overwritten ++ (r.unwatched ++ [r.calls])).Perm
          (r.pending ++ [r.calls]) := by
        rw [same, ← List.append_assoc]
        exact accounted.placed.append_right _
      refine ⟨⟨wired, ?_, ?_, ?_, accounted.settled⟩, ?_, fun _ => intact⟩
      · rw [intact]
        simpa [SocketRun.returned, absent, pending] using placed
      · simpa [SocketRun.returned, pending] using old
      · simpa [SocketRun.returned, pending] using once
      · intro watched
        exact absurd (unwatched pending) watched
    · refine ⟨⟨wired, ?_, ?_, ?_, accounted.settled⟩, ?_, fun _ => intact⟩
      · rw [intact]
        simpa [SocketRun.returned, pending, same] using accounted.placed
      · intro call member
        simp only [SocketRun.returned, pending, if_false] at member ⊢
        exact Nat.lt_succ_of_lt (accounted.old call member)
      · simpa [SocketRun.returned, pending] using accounted.once
      · intro _
        simp [SocketRun.returned, pending]

theorem Accounted.completed (accounted : r.Accounted) {result : SocketLibevent Nat × Option (Nat × Int)}
    (wired : result.1.Wired) (completes : SocketLibevent.Completes r.socket result) :
    (r.completed result).Accounted := by
  cases completes with
  | waits =>
    have same : r.completed (r.socket, none) = r := by simp [SocketRun.completed]
    rw [same]
    exact accounted
  | @runs call rv s fewer settled =>
    refine ⟨wired, ?_, accounted.old, accounted.once, ?_⟩
    · refine List.Perm.trans ?_ accounted.placed
      simp only [SocketRun.completed, Option.toList_some, List.map_append, List.map_cons, List.map_nil,
        List.append_assoc]
      refine List.Perm.trans ?_ (fewer.symm.append_right _)
      rw [List.cons_append]
      exact (List.perm_middle.append_left _).trans List.perm_middle
    · intro p member
      rcases List.mem_append.mp member with member | member
      · exact accounted.settled p member
      · rw [Option.mem_toList.mp member |> Option.some.inj |>.symm]
        exact settled

theorem Accounted.ended (accounted : r.Accounted) {s : SocketLibevent Nat} (wired : s.Wired)
    (nothing : s.callbacks = []) : (r.ended s).Accounted := by
  refine ⟨wired, ?_, accounted.old, accounted.once, accounted.settled⟩
  refine List.Perm.trans ?_ accounted.placed
  apply List.perm_iff_count.mpr
  intro call
  simp only [SocketRun.ended, nothing, List.count_append, List.count_nil]
  omega

theorem Accounted.step (accounted : r.Accounted) (stepped : r.step event = some t) :
    t.Accounted ∧ (event.watch? ≠ some .eagain → t.unwatched = r.unwatched) ∧
      (r.connectsFresh event → t.overwritten = r.overwritten) := by
  have wired := accounted.wired
  cases event with
  | opened created nonBlocking =>
    simp only [SocketRun.step, Option.ite_none_right_eq_some, Option.some.injEq] at stepped
    obtain ⟨invalid, rfl⟩ := stepped
    obtain ⟨next, same⟩ := wired.openSocket invalid created nonBlocking
    refine ⟨⟨next, ?_, accounted.old, accounted.once, accounted.settled⟩, fun _ => rfl, fun _ => rfl⟩
    simpa only [same] using accounted.placed
  | adopted fd address nonBlocking =>
    simp only [SocketRun.step, Option.ite_none_right_eq_some, Option.some.injEq] at stepped
    obtain ⟨⟨invalid, _⟩, rfl⟩ := stepped
    obtain ⟨next, same⟩ := wired.adoptConnectedSocket invalid fd address nonBlocking
    refine ⟨⟨next, ?_, accounted.old, accounted.once, accounted.settled⟩, fun _ => rfl, fun _ => rfl⟩
    simpa only [same] using accounted.placed
  | accept answer watch =>
    simp only [SocketRun.step, Option.ite_none_right_eq_some, Option.some.injEq] at stepped
    obtain ⟨⟨valid, free⟩, rfl⟩ := stepped
    obtain ⟨next, offers⟩ : _ ∧ SocketLibevent.Offers _ r.calls watch _ _ := wired.accept valid free answer
    obtain ⟨after, watched, kept⟩ := accounted.returned next offers
    exact ⟨after, watched, fun _ => kept rfl⟩
  | connect address answer watch =>
    simp only [SocketRun.step, Option.ite_none_right_eq_some, Option.some.injEq] at stepped
    obtain ⟨⟨valid, _, _⟩, rfl⟩ := stepped
    obtain ⟨next, offers⟩ : _ ∧ SocketLibevent.Offers _ r.calls watch _ _ := wired.connect valid address answer
    obtain ⟨after, watched, kept⟩ := accounted.returned next offers
    exact ⟨after, watched, fun fresh => kept (by rw [show r.socket.writeCallback = none from fresh]; rfl)⟩
  | read bufLen answer watch =>
    simp only [SocketRun.step, Option.ite_none_right_eq_some, Option.some.injEq] at stepped
    obtain ⟨⟨valid, _, free, positive⟩, rfl⟩ := stepped
    obtain ⟨next, offers⟩ : _ ∧ SocketLibevent.Offers _ r.calls watch _ _ := wired.read valid free positive answer
    obtain ⟨after, watched, kept⟩ := accounted.returned next offers
    exact ⟨after, watched, fun _ => kept rfl⟩
  | write bufLen answer watch =>
    simp only [SocketRun.step, Option.ite_none_right_eq_some, Option.some.injEq] at stepped
    obtain ⟨⟨valid, _, free, positive⟩, rfl⟩ := stepped
    obtain ⟨next, offers⟩ : _ ∧ SocketLibevent.Offers _ r.calls watch _ _ := wired.write valid free positive answer
    obtain ⟨after, watched, kept⟩ := accounted.returned next offers
    exact ⟨after, watched, fun _ => kept rfl⟩
  | waitForWrite bufLen watch =>
    simp only [SocketRun.step, Option.ite_none_right_eq_some, Option.some.injEq] at stepped
    obtain ⟨⟨valid, free, positive⟩, rfl⟩ := stepped
    obtain ⟨next, offers⟩ : _ ∧ SocketLibevent.Offers _ r.calls watch _ _ := wired.waitForWrite valid free positive
    obtain ⟨after, watched, kept⟩ := accounted.returned next offers
    exact ⟨after, watched, fun _ => kept rfl⟩
  | canRead accepts reads =>
    simp only [SocketRun.step, Option.ite_none_right_eq_some] at stepped
    obtain ⟨_, stepped⟩ := stepped
    obtain ⟨result, told, rfl⟩ := Option.map_eq_some_iff.mp stepped
    obtain ⟨next, completes⟩ := wired.canRead told
    exact ⟨accounted.completed next completes, fun _ => rfl, fun _ => rfl⟩
  | canWrite connects writes =>
    simp only [SocketRun.step, Option.ite_none_right_eq_some] at stepped
    obtain ⟨_, stepped⟩ := stepped
    obtain ⟨result, told, rfl⟩ := Option.map_eq_some_iff.mp stepped
    obtain ⟨next, completes⟩ := wired.canWrite told
    exact ⟨accounted.completed next completes, fun _ => rfl, fun _ => rfl⟩
  | released =>
    cases stepped
    exact ⟨accounted.ended (SocketLibevent.release_wired _) rfl, fun _ => rfl, fun _ => rfl⟩
  | closed =>
    cases stepped
    exact ⟨accounted.ended (SocketLibevent.close_wired _) rfl, fun _ => rfl, fun _ => rfl⟩

theorem Accounted.canRead_iff (accounted : r.Accounted) (accepts : AcceptAnswer) (reads : Except SystemError Nat) :
    (r.step (.canRead accepts reads)).isSome = true ↔
      r.socket.acceptCallback ≠ none ∨ r.socket.readCallback ≠ none := by
  obtain ⟨acceptWatched, readWatched, _⟩ := accounted.wired
  simp only [SocketRun.step, SocketLibevent.onFileCanReadWithoutBlocking, acceptWatched, readWatched]
  cases r.socket.acceptCallback <;> cases r.socket.readCallback <;> simp

theorem Accounted.canWrite_iff (accounted : r.Accounted) (connects : SystemError) (writes : Except SystemError Nat) :
    (r.step (.canWrite connects writes)).isSome = true ↔ r.socket.writeCallback ≠ none := by
  have writeWatched := accounted.wired.writeWatched
  simp only [SocketRun.step, SocketLibevent.onFileCanWriteWithoutBlocking, writeWatched]
  cases r.socket.writeCallback <;> simp

structure Tracked (past : List SocketEvent) (r : SocketRun) : Prop where
  accounted : r.Accounted
  watched : (∀ event ∈ past, event.watch? ≠ some .eagain) → r.unwatched = []

theorem Tracked.step {past : List SocketEvent} (tracked : r.Tracked past) (stepped : r.step event = some t) :
    t.Tracked (past ++ [event]) := by
  obtain ⟨next, kept, _⟩ := tracked.accounted.step stepped
  refine ⟨next, ?_⟩
  intro all
  rw [kept (all event (List.mem_append_right _ List.mem_cons_self))]
  exact tracked.watched fun event member => all event (List.mem_append_left _ member)

theorem overwrites_nothing {events : List SocketEvent} (fresh : Along step connectsFresh new events)
    (replay : run step new events = some r) : r.overwritten = [] := by
  have preserved : ∀ (r : SocketRun) event t, r.Accounted ∧ r.overwritten = [] → r.connectsFresh event →
      r.step event = some t → t.Accounted ∧ t.overwritten = [] := by
    rintro r event t ⟨accounted, nothing⟩ fresh stepped
    obtain ⟨next, _, kept⟩ := accounted.step stepped
    exact ⟨next, (kept fresh).trans nothing⟩
  exact (run_invariant_along preserved ⟨new_accounted, rfl⟩ fresh replay).2

/-- In every run of a socket, whatever the system answers, each call that returned `ERR_IO_PENDING` is in exactly one
    place: its callback is set and the message loop watches for it, or it was run, once and with another result, or
    it was dropped by `Close` or `ReleaseConnectedSocket`, or it was a write whose callback `Connect` has overwritten,
    or it was never kept. `Connect` overwrites nothing unless it is called while a write is pending, and only a failed
    `WatchFileDescriptor` with `EAGAIN` in `errno` makes a call pending whose callback is not kept. -/
theorem callbacks_accounted {events : List SocketEvent} (replay : run step new events = some r) :
    (r.socket.callbacks ++ r.ran.map Prod.fst ++ r.dropped ++ r.overwritten ++ r.unwatched).Perm r.pending ∧
      r.pending.Nodup ∧ (∀ p ∈ r.ran, p.2 ≠ NetError.ioPending) ∧
      (Along step connectsFresh new events → r.overwritten = []) ∧
      ((∀ event ∈ events, event.watch? ≠ some .eagain) → r.unwatched = []) ∧
      (∀ accepts reads, (r.step (.canRead accepts reads)).isSome = true ↔
        r.socket.acceptCallback ≠ none ∨ r.socket.readCallback ≠ none) ∧
      (∀ connects writes, (r.step (.canWrite connects writes)).isSome = true ↔ r.socket.writeCallback ≠ none) ∧
      (r.socket.socketFd = none → r.socket.callbacks = []) := by
  have tracked : r.Tracked ([] ++ events) :=
    run_history_along (fun _ _ _ _ tracked (_ : True) stepped => Tracked.step tracked stepped)
      ⟨new_accounted, fun _ => rfl⟩ (along_of_forall (fun _ _ _ => trivial) _) replay
  obtain ⟨accounted, watched⟩ := tracked
  exact ⟨accounted.placed, accounted.once, accounted.settled, fun fresh => overwrites_nothing fresh replay, watched,
    accounted.canRead_iff, accounted.canWrite_iff, accounted.wired.invalid⟩

def exchange : List SocketEvent :=
  [.opened (.ok 5) none, .connect [2, 0] .einprogress none, .canWrite .success (.ok 0), .read 16 (.error .eagain) none,
    .write 4 (.ok 4) none, .write 8 (.error .eagain) none, .canRead ⟨.error .eagain, none⟩ (.ok 7),
    .read 16 (.error .eagain) none, .canWrite .success (.ok 8), .closed]

theorem callbacks_accounted_exchange :
    ∃ r, run step new exchange = some r ∧ r.ran = [(0, NetError.ok), (1, 7), (3, 8)] ∧ r.dropped = [4] ∧
      (r.socket.callbacks ++ r.ran.map Prod.fst ++ r.dropped ++ r.overwritten ++ r.unwatched).Perm r.pending ∧
      r.pending.Nodup ∧ (∀ p ∈ r.ran, p.2 ≠ NetError.ioPending) ∧
      (Along step connectsFresh new exchange → r.overwritten = []) ∧
      ((∀ event ∈ exchange, event.watch? ≠ some .eagain) → r.unwatched = []) ∧
      (∀ accepts reads, (r.step (.canRead accepts reads)).isSome = true ↔
        r.socket.acceptCallback ≠ none ∨ r.socket.readCallback ≠ none) ∧
      (∀ connects writes, (r.step (.canWrite connects writes)).isSome = true ↔ r.socket.writeCallback ≠ none) ∧
      (r.socket.socketFd = none → r.socket.callbacks = []) := by
  have played : (run step new exchange).map (fun r => (r.ran, r.dropped)) =
      some ([(0, NetError.ok), (1, 7), (3, 8)], [4]) := by decide +kernel
  obtain ⟨r, replay, shape⟩ := Option.map_eq_some_iff.mp played
  obtain ⟨ran, dropped⟩ := Prod.mk.inj shape
  exact ⟨r, replay, ran, dropped, callbacks_accounted replay⟩

end SocketRun

end DistributedNinja.Net
