import DistributedNinja.Proto.SlaveServices

namespace DistributedNinja.Common

open Proto

inductive Member where
  | buf
  | fd
  | pid
  | fdWatcher
  | isWatching
  | exitCallback
  deriving DecidableEq

inductive Action where
  | used (member : Member)
  | calledBack
  | reaped (pid : Int)
  | observed (command : String) (status : ExitStatus) (output : List UInt8)
  | closed (fd : Int)
  | deleted
  deriving DecidableEq

inductive WaitStatus where
  | exited (code : Nat)
  | signaled (signal : Nat)
  | other

def sigint : Nat := 2

def WaitStatus.toExitStatus : WaitStatus → ExitStatus
  | .exited code => if code = 0 then .success else .failure
  | .signaled signal => if signal = sigint then .interrupted else .failure
  | .other => .failure

structure AsyncSubprocess where
  buf : List UInt8
  fd : Int
  pid : Int
  isWatching : Bool

inductive ReadResult where
  | read (bytes : List UInt8)
  | failed (errno : Nat)

def eagain : Nat := 11

namespace ReadResult

def ends : ReadResult → Bool
  | .read bytes => bytes.isEmpty
  | .failed errno => errno != eagain

def data : ReadResult → List UInt8
  | .read bytes => bytes
  | .failed _ => []

end ReadResult

/-- The status that `waitpid` gives, and what is found in the memory of the object after it was deleted. -/
structure Host where
  status : WaitStatus
  leftover : AsyncSubprocess

/-- The memory of an `AsyncSubprocess` and what was done so far. -/
structure Lifetime where
  memory : AsyncSubprocess
  trace : List Action

namespace Lifetime

def record (l : Lifetime) (action : Action) : Lifetime := { l with trace := l.trace ++ [action] }

def use (l : Lifetime) (member : Member) : Lifetime := l.record (.used member)

def started (fd pid : Nat) : Lifetime := ⟨⟨[], fd, pid, true⟩, []⟩

def finish (l : Lifetime) (status : WaitStatus) : ExitStatus × Lifetime :=
  let l := (l.use .pid).record (.reaped l.memory.pid)
  let l := l.use .pid
  (status.toExitStatus, { l with memory := { l.memory with pid := -1 } })

def destroy (l : Lifetime) (status : WaitStatus) : Lifetime :=
  let l := l.use .fd
  let l := if 0 ≤ l.memory.fd then l.record (.closed l.memory.fd) else l
  let l := l.use .pid
  let l := if l.memory.pid ≠ -1 then (l.finish status).2 else l
  ((l.use .exitCallback).use .fdWatcher).use .buf

def delete (l : Lifetime) (host : Host) : Lifetime :=
  { (l.destroy host.status).record .deleted with memory := host.leftover }

/-- `CommandExecutor::SubprocessExitCallback` as far as the subprocess is concerned. -/
def subprocessExitCallback (host : Host) (command : String) (l : Lifetime) : Lifetime :=
  let (status, l) := (l.record .calledBack).finish host.status
  let l := l.use .buf
  let l := l.record (.observed command status l.memory.buf)
  l.delete host

/-- `OnFileCanReadWithoutBlocking` from the call of `exit_callback_` on. -/
def ended (exitCallback : Lifetime → Lifetime) (l : Lifetime) : Lifetime :=
  let l := (exitCallback (l.use .exitCallback)).use .isWatching
  let l := { l with memory := { l.memory with isWatching := false } }
  let l := (l.use .fdWatcher).use .fd
  let l := (l.record (.closed l.memory.fd)).use .fd
  { l with memory := { l.memory with fd := -1 } }

def onFileCanReadWithoutBlocking (exitCallback : Lifetime → Lifetime) (fd : Int) (l : Lifetime)
    (result : ReadResult) : Lifetime :=
  let l := l.use .fd
  if fd ≠ l.memory.fd then l
  else
    let l := l.use .fd
    match result with
    | .read bytes =>
      if 0 < bytes.length then
        let l := l.use .buf
        { l with memory := { l.memory with buf := l.memory.buf ++ bytes } }
      else l.ended exitCallback
    | .failed errno => if errno = eagain then l else (l.use .fd).ended exitCallback

def reads (exitCallback : Lifetime → Lifetime) (fd pid : Nat) (more : List ReadResult) (last : ReadResult) :
    Lifetime :=
  (more.foldl (onFileCanReadWithoutBlocking exitCallback fd) (started fd pid)).onFileCanReadWithoutBlocking
    exitCallback fd last

end Lifetime

def outputs (trace : List Action) : List (List UInt8) :=
  trace.filterMap fun action => match action with
    | .observed _ _ output => some output
    | _ => none

def reapedPids (trace : List Action) : List Int :=
  trace.filterMap fun action => match action with
    | .reaped pid => some pid
    | _ => none

def closedFds (trace : List Action) : List Int :=
  trace.filterMap fun action => match action with
    | .closed fd => some fd
    | _ => none

def UnusedAfterDelete (trace : List Action) : Prop :=
  ∀ before after, trace = before ++ .deleted :: after → ∀ member, .used member ∉ after

structure Lifecycle (fd pid : Int) (output : List UInt8) (trace : List Action) : Prop where
  output : outputs trace = [output]
  calledBack : trace.count .calledBack = 1
  reaped : reapedPids trace = [pid]
  closed : (closedFds trace).count fd = 1
  unused : UnusedAfterDelete trace

namespace Lifetime

variable (exitCallback : Lifetime → Lifetime)

theorem read_continues {fd : Int} {l : Lifetime} {result : ReadResult} (watched : l.memory.fd = fd)
    (continues : result.ends = false) :
    ∃ members : List Member, l.onFileCanReadWithoutBlocking exitCallback fd result =
      ⟨{ l.memory with buf := l.memory.buf ++ result.data }, l.trace ++ members.map .used⟩ := by
  subst watched
  cases result with
  | read bytes =>
    have someByte : 0 < bytes.length := by
      cases bytes with
      | nil => cases continues
      | cons byte rest => exact Nat.succ_pos _
    refine ⟨[.fd, .fd, .buf], ?_⟩
    simp [onFileCanReadWithoutBlocking, use, record, someByte, ReadResult.data]
  | failed errno =>
    have again : errno = eagain := by simpa [ReadResult.ends] using continues
    refine ⟨[.fd, .fd], ?_⟩
    simp [onFileCanReadWithoutBlocking, use, record, again, ReadResult.data]

theorem reads_continue {fd : Int} {more : List ReadResult} {l : Lifetime} (watched : l.memory.fd = fd)
    (continuing : ∀ result ∈ more, result.ends = false) :
    ∃ members : List Member, more.foldl (onFileCanReadWithoutBlocking exitCallback fd) l =
      ⟨{ l.memory with buf := l.memory.buf ++ more.flatMap ReadResult.data }, l.trace ++ members.map .used⟩ := by
  induction more generalizing l with
  | nil => exact ⟨[], by simp⟩
  | cons result rest ih =>
    obtain ⟨members, read⟩ := read_continues exitCallback watched (continuing result List.mem_cons_self)
    obtain ⟨others, later⟩ := ih (l := ⟨{ l.memory with buf := l.memory.buf ++ result.data },
      l.trace ++ members.map .used⟩) watched fun result member => continuing result (List.mem_cons_of_mem _ member)
    refine ⟨members ++ others, ?_⟩
    rw [List.foldl_cons, read, later]
    simp

theorem reads_ended (fd pid : Nat) {more : List ReadResult} {last : ReadResult}
    (continuing : ∀ result ∈ more, result.ends = false) (ends : last.ends = true) :
    ∃ members : List Member, reads exitCallback fd pid more last =
      ended exitCallback ⟨⟨more.flatMap ReadResult.data, fd, pid, true⟩, members.map .used⟩ := by
  have watched : (started fd pid).memory.fd = fd := rfl
  obtain ⟨members, read⟩ := reads_continue exitCallback watched continuing
  rw [reads, read]
  cases last with
  | read bytes =>
    have empty : bytes = [] := List.isEmpty_iff.mp ends
    refine ⟨members ++ [.fd, .fd], ?_⟩
    simp [onFileCanReadWithoutBlocking, use, record, started, empty]
  | failed errno =>
    have other : errno ≠ eagain := by simpa [ReadResult.ends] using ends
    refine ⟨members ++ [.fd, .fd, .fd], ?_⟩
    simp [onFileCanReadWithoutBlocking, use, record, started, other]

def callbackTrace (host : Host) (command : String) (fd pid : Nat) (data : List UInt8) : List Action :=
  [.used .exitCallback, .calledBack, .used .pid, .reaped pid, .used .pid, .used .buf,
    .observed command host.status.toExitStatus data,
    .used .fd, .closed fd, .used .pid, .used .exitCallback, .used .fdWatcher, .used .buf]

def handlerTrace (leftover : AsyncSubprocess) : List Action :=
  [.used .isWatching, .used .fdWatcher, .used .fd, .closed leftover.fd, .used .fd]

theorem reads_deleted (host : Host) (command : String) (fd pid : Nat) {more : List ReadResult} {last : ReadResult}
    (continuing : ∀ result ∈ more, result.ends = false) (ends : last.ends = true) :
    ∃ members : List Member, (reads (subprocessExitCallback host command) fd pid more last).trace =
      (members.map .used ++ callbackTrace host command fd pid (more.flatMap ReadResult.data)) ++
        .deleted :: handlerTrace host.leftover := by
  obtain ⟨members, last⟩ := reads_ended (subprocessExitCallback host command) fd pid continuing ends
  refine ⟨members, ?_⟩
  rw [last]
  simp [ended, subprocessExitCallback, delete, destroy, finish, use, record, callbackTrace, handlerTrace]

end Lifetime

theorem filterMap_used {Seen : Type} {see : Action → Option Seen} (unseen : ∀ member, see (.used member) = none)
    (members : List Member) : (members.map Action.used).filterMap see = [] := by
  rw [List.filterMap_map, List.filterMap_eq_nil_iff]
  intro member _
  exact unseen member

theorem not_mem_used {action : Action} (other : ∀ member, action ≠ .used member) (members : List Member) :
    action ∉ members.map Action.used := by
  intro listed
  obtain ⟨member, _, same⟩ := List.mem_map.mp listed
  exact other member same.symm

theorem count_used (members : List Member) : (members.map Action.used).count .calledBack = 0 :=
  List.count_eq_zero_of_not_mem (not_mem_used (fun _ same => by cases same) members)

section Executor

variable (host : Host) (command : String) (fd pid : Nat) (more : List ReadResult) (last : ReadResult)

/-- The data arrives, the callback runs once and the child is reaped once, but a second descriptor is closed: the
    one that is found in the memory of the deleted object. -/
theorem reads_parts (continuing : ∀ result ∈ more, result.ends = false) (ends : last.ends = true)
    {trace : List Action}
    (shape : trace = (Lifetime.reads (Lifetime.subprocessExitCallback host command) fd pid more last).trace) :
    outputs trace = [more.flatMap ReadResult.data] ∧ trace.count .calledBack = 1 ∧
      reapedPids trace = [(pid : Int)] ∧ closedFds trace = [(fd : Int), host.leftover.fd] := by
  obtain ⟨members, deleted⟩ := Lifetime.reads_deleted host command fd pid continuing ends
  rw [shape, deleted]
  refine ⟨?_, ?_, ?_, ?_⟩
  · rw [outputs, List.filterMap_append, List.filterMap_append, filterMap_used fun _ => rfl]
    rfl
  · rw [List.count_append, List.count_append, count_used]
    simp [Lifetime.callbackTrace, Lifetime.handlerTrace]
  · rw [reapedPids, List.filterMap_append, List.filterMap_append, filterMap_used fun _ => rfl]
    rfl
  · rw [closedFds, List.filterMap_append, List.filterMap_append, filterMap_used fun _ => rfl]
    rfl

/-- However the reads go, members of the deleted object are used. -/
theorem no_lifecycle (continuing : ∀ result ∈ more, result.ends = false) (ends : last.ends = true) :
    ¬ Lifecycle fd pid (more.flatMap ReadResult.data)
      (Lifetime.reads (Lifetime.subprocessExitCallback host command) fd pid more last).trace := by
  intro lifecycle
  obtain ⟨members, deleted⟩ := Lifetime.reads_deleted host command fd pid continuing ends
  exact lifecycle.unused _ _ deleted .isWatching List.mem_cons_self

end Executor

def oneChunk : List ReadResult := [.read [104, 105], .failed eagain]

def unchanged : Host := ⟨.exited 0, ⟨[104, 105], 7, -1, true⟩⟩

theorem no_lifecycle_oneChunk : ¬ Lifecycle (7 : Nat) (99 : Nat) [104, 105]
    (Lifetime.reads (Lifetime.subprocessExitCallback unchanged "ls /") 7 99 oneChunk (.read [])).trace :=
  no_lifecycle unchanged "ls /" 7 99 oneChunk (.read []) (by decide) rfl

/-- The memory is as the object has left it, and its descriptor is closed again. -/
theorem descriptor_closed_twice : ¬ ∀ host command fd pid more last,
    (∀ result ∈ more, ReadResult.ends result = false) → last.ends = true →
      Lifecycle (fd : Nat) (pid : Nat) (more.flatMap ReadResult.data)
        (Lifetime.reads (Lifetime.subprocessExitCallback host command) fd pid more last).trace := by
  intro always
  have closed := (always unchanged "ls /" 7 99 [] (.read []) (List.forall_mem_nil _) rfl).closed
  revert closed
  decide

theorem unusedAfterDelete_of_last {body : List Action} (absent : .deleted ∉ body) :
    UnusedAfterDelete (body ++ [.deleted]) := by
  intro before after shape member used
  rcases List.eq_nil_or_concat after with rfl | ⟨rest, last, rfl⟩
  · cases used
  · rw [List.concat_eq_append, ← List.cons_append, ← List.append_assoc] at shape
    obtain ⟨rfl, _⟩ := List.append_inj' shape rfl
    exact absent (List.mem_append_right _ List.mem_cons_self)

/-- The tests keep the object in the callback, and its owner finishes and deletes it later. -/
def keptUntilEnd (host : Host) (fd pid : Nat) (more : List ReadResult) (last : ReadResult) : List Action :=
  let l := Lifetime.reads (fun l => l.record .calledBack) fd pid more last
  ((l.finish host.status).2.delete host).trace

theorem kept_releases_once (host : Host) (fd pid : Nat) {more : List ReadResult} {last : ReadResult}
    (continuing : ∀ result ∈ more, result.ends = false) (ends : last.ends = true) :
    (keptUntilEnd host fd pid more last).count .calledBack = 1 ∧
      reapedPids (keptUntilEnd host fd pid more last) = [(pid : Int)] ∧
      closedFds (keptUntilEnd host fd pid more last) = [(fd : Int)] ∧
      UnusedAfterDelete (keptUntilEnd host fd pid more last) := by
  obtain ⟨members, read⟩ := Lifetime.reads_ended (fun l => l.record .calledBack) fd pid continuing ends
  have shape : keptUntilEnd host fd pid more last = (members.map .used ++
      [.used .exitCallback, .calledBack, .used .isWatching, .used .fdWatcher, .used .fd, .closed fd, .used .fd,
        .used .pid, .reaped pid, .used .pid, .used .fd, .used .pid, .used .exitCallback, .used .fdWatcher,
        .used .buf]) ++ [.deleted] := by
    rw [keptUntilEnd, read]
    simp [Lifetime.ended, Lifetime.delete, Lifetime.destroy, Lifetime.finish, Lifetime.use, Lifetime.record]
  have absent : Action.deleted ∉ members.map Action.used := not_mem_used (fun _ same => by cases same) members
  rw [shape]
  refine ⟨?_, ?_, ?_, ?_⟩
  · rw [List.count_append, List.count_append, count_used]
    simp
  · rw [reapedPids, List.filterMap_append, List.filterMap_append, filterMap_used fun _ => rfl]
    rfl
  · rw [closedFds, List.filterMap_append, List.filterMap_append, filterMap_used fun _ => rfl]
    rfl
  · apply unusedAfterDelete_of_last
    simp [absent]

end DistributedNinja.Common
