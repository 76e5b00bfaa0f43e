import DistributedNinja.Master.RpcEffects
import DistributedNinja.Rpc.ClosedOnce

namespace DistributedNinja.Rpc.RpcConnection

variable {Done : Type}

theorem doWriteLoop_positive {c : RpcConnection Done} {rv : Int} (content : c.writeBuf.getSizeToWrite ≠ 0)
    (idle : ¬ c.writeCallback = true) (positive : 0 < rv) (rest : List Int) :
    c.doWriteLoop (rv :: rest) = doWriteLoop rest { c with writeBuf := c.writeBuf.didConsume rv.toNat } := by
  have different : rv ≠ errIoPending := by
    unfold errIoPending
    omega
  rw [doWriteLoop, if_neg content, if_neg idle, if_neg different, if_neg (by omega), if_neg (by omega)]

theorem doWriteLoop_last {rv : Int} (last : ¬ 0 < rv) (c : RpcConnection Done) (rest : List Int) :
    c.doWriteLoop (rv :: rest) = c.doWriteLoop [rv] := by
  unfold doWriteLoop
  dsimp only
  split_ifs
  · rfl
  · rfl
  · rfl
  · rfl
  · rfl
  · omega

theorem exists_answered (answers : List Int) (c : RpcConnection Done) :
    ∃ taken, c.answered taken = true ∧ c.doWriteLoop taken = c.doWriteLoop answers := by
  induction answers generalizing c with
  | nil => exact ⟨[], rfl, rfl⟩
  | cons rv rest ih =>
    by_cases drained : c.writeBuf.getSizeToWrite = 0
    · refine ⟨[], rfl, ?_⟩
      rw [doWriteLoop, doWriteLoop, if_pos drained, if_pos drained]
    by_cases pending : c.writeCallback = true
    · refine ⟨[], rfl, ?_⟩
      rw [doWriteLoop, doWriteLoop, if_neg drained, if_neg drained, if_pos pending, if_pos pending]
    by_cases positive : 0 < rv
    · obtain ⟨taken, fits, same⟩ := ih { c with writeBuf := c.writeBuf.didConsume rv.toNat }
      refine ⟨rv :: taken, by simp [answered, drained, positive, fits], ?_⟩
      rw [doWriteLoop_positive drained pending positive, doWriteLoop_positive drained pending positive]
      exact same
    · exact ⟨[rv], by simp [answered, drained, positive], (doWriteLoop_last positive c rest).symm⟩

theorem exists_answeredAfter (c : RpcConnection Done) (rv : Int) (answers : List Int) :
    ∃ taken, c.answeredAfter rv taken = true ∧ c.onWriteCompleted rv taken = c.onWriteCompleted rv answers := by
  unfold answeredAfter onWriteCompleted
  by_cases negative : rv < 0
  · exact ⟨[], by simp [negative], by simp [negative]⟩
  · obtain ⟨taken, fits, same⟩ := exists_answered answers
      { c with writeCallback := false, writeBuf := c.writeBuf.didConsume rv.toNat }
    refine ⟨taken, by rwa [if_neg negative], ?_⟩
    rw [if_neg negative, if_neg negative]
    exact same

end DistributedNinja.Rpc.RpcConnection

namespace DistributedNinja.Master

open Lib Rpc Proto

def RpcTask.deletion? : RpcTask → Option Nat
  | .deleteSoon pointer => some pointer
  | .request _ => none

def ObserverCall.closed? : ObserverCall → Option Nat
  | .onClose _ pointer => some pointer
  | .onConnect _ _ => none

namespace RpcThread

variable {pb : Protobuf} {service : SlaveService} {t u : RpcThread} {s : RpcSocketServer Done} {pointer : Nat}

/-- The server has the connections of the RPC thread, posted the same deletions and was closed for the same
    connections. -/
structure Simulates (t : RpcThread) (s : RpcSocketServer Done) : Prop where
  lastId : s.lastId = t.lastId
  nextPointer : s.nextPointer = t.nextPointer
  heap : s.heap = t.heap
  idToConnection : s.idToConnection = t.idToConnection
  posted : s.posted = t.queue.filterMap RpcTask.deletion?
  closed : s.closed = t.calls.filterMap ObserverCall.closed?

theorem new_simulates : Simulates new RpcSocketServer.new := ⟨rfl, rfl, rfl, rfl, rfl, rfl⟩

namespace Simulates

theorem withHeap (simulates : Simulates t s) (heap : Nat → Option (RpcConnection Done)) :
    Simulates { t with heap := heap } { s with heap := heap } :=
  ⟨simulates.lastId, simulates.nextPointer, rfl, simulates.idToConnection, simulates.posted, simulates.closed⟩

theorem store (simulates : Simulates t s) (pointer : Nat) (c : RpcConnection Done) :
    Simulates (t.store pointer c) (s.store pointer c) := by
  unfold RpcThread.store RpcSocketServer.store
  rw [simulates.heap]
  exact simulates.withHeap _

theorem onClose (simulates : Simulates t s) (id : Int) (pointer : Nat) :
    Simulates (t.onClose id pointer) (s.onClose id pointer) := by
  refine ⟨simulates.lastId, simulates.nextPointer, simulates.heap, ?_, ?_, ?_⟩
  · exact congrArg (fun map => map.erase id) simulates.idToConnection
  · show s.posted ++ [pointer] = (t.queue ++ [RpcTask.deleteSoon pointer]).filterMap RpcTask.deletion?
    rw [simulates.posted, List.filterMap_append]
    rfl
  · show _ = (t.calls ++ [ObserverCall.onClose id pointer]).filterMap ObserverCall.closed?
    rw [RpcSocketServer.closed_onClose, simulates.closed, List.filterMap_append]
    rfl

theorem afterWrite (simulates : Simulates t s) {result : RpcConnection Done × WriteOutcome}
    (after : t.afterWrite pointer result = some u) :
    ∃ r, s.afterWrite pointer result = some r ∧ Simulates u r := by
  obtain ⟨c, outcome⟩ := result
  cases outcome with
  | returned =>
    cases after
    exact ⟨_, rfl, simulates.store pointer c⟩
  | closed rv =>
    cases after
    exact ⟨_, rfl, (simulates.store pointer c).onClose c.id pointer⟩
  | checkFailed => cases after

theorem callStub (simulates : Simulates t s) {method : SlaveMethod} {request : List UInt8}
    {done : Option Done} {writes : List Int}
    (called : t.callStub pb service pointer method request done writes = some u) :
    ∃ w r, s.callConnection pb w = some r ∧ Simulates u r := by
  obtain ⟨c, found, called⟩ := Option.bind_eq_some_iff.mp called
  let call : Call Done := .callMethod service.fullName (service.methodName method) request done
  obtain ⟨taken, fits, same⟩ := RpcConnection.exists_answered writes (c.enqueue pb call)
  obtain ⟨r, after, next⟩ := simulates.afterWrite called
  refine ⟨⟨pointer, call, taken⟩, r, ?_, next⟩
  rw [RpcSocketServer.callConnection, simulates.heap, found, Option.bind_some, if_pos fits,
    RpcConnection.call, same]
  exact after

theorem onWriteCompleted (simulates : Simulates t s) {rv : Int} {writes : List Int}
    (completed : t.onWriteCompleted pointer rv writes = some u) :
    ∃ answers r, s.onWriteCompleted pointer rv answers = some r ∧ Simulates u r := by
  obtain ⟨c, found, completed⟩ := Option.bind_eq_some_iff.mp completed
  split at completed
  · rename_i pending
    obtain ⟨taken, fits, same⟩ := c.exists_answeredAfter rv writes
    obtain ⟨r, after, next⟩ := simulates.afterWrite completed
    refine ⟨taken, r, ?_, next⟩
    rw [RpcSocketServer.onWriteCompleted, simulates.heap, found, Option.bind_some, if_pos ⟨pending, fits⟩, same]
    exact after
  · cases completed

theorem eraseRequest (simulates : Simulates t s) (pointer : Nat) (id : UInt32) :
    Simulates (t.eraseRequest pointer id) (s.eraseRequest pointer id) := by
  unfold RpcThread.eraseRequest RpcSocketServer.eraseRequest
  rw [simulates.heap]
  exact simulates.withHeap _

theorem setReadBuf (simulates : Simulates t s) (pointer : Nat) (readBuf : ReadIOBuffer) :
    Simulates (t.setReadBuf pointer readBuf) (s.setReadBuf pointer readBuf) := by
  unfold RpcThread.setReadBuf RpcSocketServer.setReadBuf
  rw [simulates.heap]
  exact simulates.withHeap _

theorem runDone (simulates : Simulates t s) {response : List UInt8} {done : Done}
    (ran : t.runDone service response done = some u) : Simulates u s := by
  obtain ⟨notice, _, rfl, _⟩ := runDone_posts ran
  exact ⟨simulates.lastId, simulates.nextPointer, simulates.heap, simulates.idToConnection, simulates.posted,
    simulates.closed⟩

theorem dispatch (simulates : Simulates t s) {m : RpcMessage} (pb : Protobuf)
    (dispatched : RpcThread.dispatch service pointer (some t) m = some u) :
    ∃ calls r, Simulates u r ∧ ∀ left,
      RpcSocketServer.dispatch pb pointer (some (s, calls ++ left)) m = some (r, left) := by
  unfold RpcSocketServer.dispatch
  simp only [RpcThread.dispatch, Option.bind_some] at dispatched ⊢
  cases kind : m.type with
  | request =>
    rw [kind] at dispatched
    cases dispatched
    exact ⟨[[]], s, simulates, fun left => rfl⟩
  | response =>
    rw [kind] at dispatched
    dsimp only at dispatched ⊢
    unfold onReponseMessage at dispatched
    rw [simulates.heap]
    dsimp only at dispatched
    split at dispatched
    · rename_i unknown
      cases dispatched
      rw [unknown]
      exact ⟨[], s, simulates, fun left => rfl⟩
    · rename_i silent
      split at dispatched
      · cases dispatched
        rw [silent]
        exact ⟨[], _, simulates.eraseRequest pointer m.id.toUInt32, fun left => rfl⟩
      · cases dispatched
    · rename_i done registered
      obtain ⟨v, ran, rfl⟩ := Option.map_eq_some_iff.mp dispatched
      rw [registered]
      exact ⟨[[]], _, (simulates.runDone ran).eraseRequest pointer m.id.toUInt32, fun left => rfl⟩

theorem frameLoop_dispatch_none (parse : Parser) (fuel : Nat) (b left : ReadIOBuffer) :
    frameLoop parse (RpcThread.dispatch service pointer) fuel b none ≠ some (left, some u) := by
  intro looped
  have lost := frameLoop_invariant (fun state => state = none)
    (fun _ _ gone => by rw [gone]; rfl) looped rfl
  cases lost

theorem frameLoop (pb : Protobuf) {fuel : Nat} {b left : ReadIOBuffer} (simulates : Simulates t s)
    (looped : Rpc.frameLoop pb.parseFromArray (RpcThread.dispatch service pointer) fuel b (some t) =
      some (left, some u)) :
    ∃ handlers r, Simulates u r ∧ Rpc.frameLoop pb.parseFromArray (RpcSocketServer.dispatch pb pointer) fuel b
      (some (s, handlers)) = some (left, some (r, [])) := by
  induction fuel generalizing b t s with
  | zero => cases looped
  | succ fuel ih =>
    unfold Rpc.frameLoop at looped ⊢
    split at looped
    · cases looped
      exact ⟨[], s, simulates, rfl⟩
    · exact ih simulates looped
    · rename_i m next pass
      cases dispatched : RpcThread.dispatch service pointer (some t) m with
      | none =>
        rw [dispatched] at looped
        exact absurd looped (frameLoop_dispatch_none _ _ _ _)
      | some v =>
        rw [dispatched] at looped
        obtain ⟨calls, r, middle, handled⟩ := simulates.dispatch pb dispatched
        obtain ⟨handlers, final, last, rest⟩ := ih middle looped
        refine ⟨calls ++ handlers, final, last, ?_⟩
        rw [handled]
        exact rest

theorem handleReadResult (simulates : Simulates t s) {c : RpcConnection Done} {result : ReadResult} {ok : Bool}
    (handled : t.handleReadResult pb service pointer c result = some (u, ok)) :
    ∃ read r, read.rv ≠ errIoPending ∧ s.handleReadResult pb pointer c read = some (r, ok) ∧ Simulates u r := by
  cases result with
  | ended rv =>
    cases handled
    exact ⟨⟨0, [], []⟩, _, by decide, rfl, simulates.onClose c.id pointer⟩
  | data chunk =>
    obtain ⟨b, completed, handled⟩ := Option.bind_eq_some_iff.mp handled
    split at handled
    · rename_i left v looped
      cases handled
      obtain ⟨handlers, r, next, same⟩ := simulates.frameLoop pb looped
      have some_bytes : 0 < chunk.length := by
        unfold completeRead at completed
        split at completed
        · rename_i fits
          exact fits.1
        · cases completed
      refine ⟨⟨chunk.length, chunk, handlers⟩, _, ?_, ?_, next.setReadBuf pointer left⟩
      · show (chunk.length : Int) ≠ -1
        omega
      · rw [RpcSocketServer.handleReadResult]
        dsimp only
        rw [if_neg (by omega), if_pos (by omega), completed, Option.bind_some, same]
    · cases handled

theorem doReadLoop {results : List ReadResult} (simulates : Simulates t s)
    (looped : t.doReadLoop pb service pointer results = some u) :
    ∃ reads r, s.doReadLoop pb pointer reads = some r ∧ Simulates u r := by
  induction results generalizing t s with
  | nil =>
    unfold RpcThread.doReadLoop at looped
    obtain ⟨c, found, looped⟩ := Option.bind_eq_some_iff.mp looped
    refine ⟨[], ?_⟩
    rw [RpcSocketServer.doReadLoop, simulates.heap, found, Option.bind_some]
    cases made : makeRoom c.readBuf with
    | none =>
      rw [made] at looped
      cases looped
      exact ⟨s, rfl, simulates⟩
    | some room =>
      rw [made] at looped
      dsimp only at looped ⊢
      split at looped
      · cases looped
      · rename_i idle
        cases looped
        rw [if_neg idle]
        exact ⟨_, rfl, simulates.store pointer _⟩
  | cons result rest ih =>
    unfold RpcThread.doReadLoop at looped
    obtain ⟨c, found, looped⟩ := Option.bind_eq_some_iff.mp looped
    split at looped
    · rename_i full
      cases looped
      refine ⟨[], s, ?_, simulates⟩
      rw [RpcSocketServer.doReadLoop, simulates.heap, found, Option.bind_some, full]
      rfl
    · rename_i room made
      split at looped
      · cases looped
      · rename_i idle
        have roomy := simulates.setReadBuf pointer room
        dsimp only at looped
        split at looped
        · rename_i v handled
          obtain ⟨read, r, real, same, next⟩ := roomy.handleReadResult handled
          obtain ⟨reads, last, more, final⟩ := ih next looped
          refine ⟨read :: reads, last, ?_, final⟩
          rw [RpcSocketServer.doReadLoop, simulates.heap, found, Option.bind_some, made]
          dsimp only
          rw [if_neg idle, if_neg real, same]
          exact more
        · rename_i v handled
          cases looped
          obtain ⟨read, r, real, same, next⟩ := roomy.handleReadResult handled
          refine ⟨[read], r, ?_, next⟩
          rw [RpcSocketServer.doReadLoop, simulates.heap, found, Option.bind_some, made]
          dsimp only
          rw [if_neg idle, if_neg real, same]
          rfl
        · cases looped

theorem onReadCompleted {result : ReadResult} {rest : List ReadResult} (simulates : Simulates t s)
    (completed : t.onReadCompleted pb service pointer result rest = some u) :
    ∃ read reads r, s.onReadCompleted pb pointer read reads = some r ∧ Simulates u r := by
  obtain ⟨c, found, completed⟩ := Option.bind_eq_some_iff.mp completed
  split at completed
  · rename_i pending
    have reset := simulates.store pointer { c with readCallback := false }
    dsimp only at completed
    split at completed
    · rename_i v handled
      obtain ⟨read, r, _, same, next⟩ := reset.handleReadResult handled
      obtain ⟨reads, last, more, final⟩ := next.doReadLoop completed
      refine ⟨read, reads, last, ?_, final⟩
      rw [RpcSocketServer.onReadCompleted, simulates.heap, found, Option.bind_some, if_pos pending]
      dsimp only
      rw [same]
      exact more
    · rename_i v handled
      cases completed
      obtain ⟨read, r, _, same, next⟩ := reset.handleReadResult handled
      refine ⟨read, [], r, ?_, next⟩
      rw [RpcSocketServer.onReadCompleted, simulates.heap, found, Option.bind_some, if_pos pending]
      dsimp only
      rw [same]
      rfl
    · cases completed
  · cases completed

theorem newConnection (simulates : Simulates t s) (peer : String) :
    Simulates (t.newConnection peer) (s.newConnection peer) := by
  unfold RpcThread.newConnection RpcSocketServer.newConnection
  rw [simulates.lastId, simulates.nextPointer, simulates.idToConnection]
  have stored := simulates.store t.nextPointer (.new t.lastId peer)
  exact ⟨rfl, rfl, stored.heap, rfl, stored.posted, stored.closed⟩

theorem handleAcceptResult {peer : String} {reads : List ReadResult} {writes : List Int}
    (simulates : Simulates t s) (accepted : t.handleAcceptResult pb service peer reads writes = some u) :
    ∃ reads calls r, s.handleAcceptResult pb peer reads calls = some r ∧ Simulates u r := by
  obtain ⟨v, looped, connected⟩ := Option.bind_eq_some_iff.mp accepted
  obtain ⟨reads, k, same, middle⟩ := (simulates.newConnection peer).doReadLoop looped
  have registered : Simulates (v.registerSlave t.lastId t.nextPointer) k := by
    refine ⟨middle.lastId, middle.nextPointer, middle.heap, middle.idToConnection, middle.posted, ?_⟩
    refine middle.closed.trans ?_
    show _ = (v.calls ++ [ObserverCall.onConnect t.lastId t.nextPointer]).filterMap ObserverCall.closed?
    rw [List.filterMap_append]
    exact (List.append_nil _).symm
  obtain ⟨w, r, called, next⟩ := registered.callStub connected
  refine ⟨reads, [w], r, ?_, next⟩
  rw [RpcSocketServer.handleAcceptResult, simulates.nextPointer, same, Option.bind_some,
    RpcSocketServer.makeCalls, called]
  rfl

theorem getSlavesStatus {writes : Int → List Int} {entries : List (Int × Nat)} (simulates : Simulates t s)
    (polled : RpcThread.getSlavesStatus pb service writes entries t = some u) :
    ∃ events r, run (RpcSocketServer.step pb) s events = some r ∧ Simulates u r := by
  induction entries generalizing t s with
  | nil =>
    cases polled
    exact ⟨[], s, rfl, simulates⟩
  | cons entry rest ih =>
    obtain ⟨v, called, polled⟩ := Option.bind_eq_some_iff.mp polled
    split at polled
    · obtain ⟨w, r, same, next⟩ := simulates.callStub called
      obtain ⟨events, last, more, final⟩ := ih next polled
      exact ⟨.called w :: events, last, run_cons.mpr ⟨r, same, more⟩, final⟩
    · cases polled

theorem runRequest {writes : List Int} {request : RpcRequest} (simulates : Simulates t s)
    (ran : t.runRequest pb service writes request = some u) :
    ∃ w r, s.callConnection pb w = some r ∧ Simulates u r := by
  cases request with
  | startCommandRemotely connectionId paths rspfileName rspfileContent edgeId =>
    obtain ⟨pointer, _, called⟩ := Option.bind_eq_some_iff.mp ran
    exact simulates.callStub called
  | quitSlave connectionId reason =>
    obtain ⟨pointer, _, called⟩ := Option.bind_eq_some_iff.mp ran
    exact simulates.callStub called

theorem runTask {writes : List Int} (simulates : Simulates t s)
    (ran : t.runTask pb service writes = some u) :
    ∃ event r, s.step pb event = some r ∧ Simulates u r := by
  unfold RpcThread.runTask at ran
  split at ran
  · cases ran
  · rename_i request rest head
    have taken : Simulates { t with queue := rest } s := by
      refine ⟨simulates.lastId, simulates.nextPointer, simulates.heap, simulates.idToConnection, ?_,
        simulates.closed⟩
      rw [simulates.posted, head]
      rfl
    obtain ⟨w, r, same, next⟩ := taken.runRequest ran
    exact ⟨.called w, r, same, next⟩
  · rename_i pointer rest head
    obtain ⟨c, found, rfl⟩ := Option.map_eq_some_iff.mp ran
    have posted : s.posted = pointer :: rest.filterMap RpcTask.deletion? := by
      rw [simulates.posted, head]
      rfl
    refine ⟨.deletionRun, { s with
      heap := Function.update s.heap pointer none
      posted := rest.filterMap RpcTask.deletion?
      deleted := s.deleted ++ [pointer] }, ?_, ?_⟩
    · rw [RpcSocketServer.step, RpcSocketServer.runDeletion, posted]
      dsimp only
      rw [simulates.heap]
      exact Option.map_eq_some_iff.mpr ⟨c, found, rfl⟩
    · refine ⟨simulates.lastId, simulates.nextPointer, ?_, simulates.idToConnection, rfl, simulates.closed⟩
      exact congrArg (fun heap => Function.update heap pointer none) simulates.heap

theorem step {event : RpcEvent} (simulates : Simulates t s) (stepped : t.step pb service event = some u) :
    ∃ events r, run (RpcSocketServer.step pb) s events = some r ∧ Simulates u r := by
  have single : ∀ {event r}, s.step pb event = some r → run (RpcSocketServer.step pb) s [event] = some r :=
    fun same => run_cons.mpr ⟨_, same, rfl⟩
  cases event with
  | accepted peer reads writes =>
    obtain ⟨reads, calls, r, same, next⟩ := simulates.handleAcceptResult stepped
    exact ⟨[.accepted peer reads calls], r, single same, next⟩
  | readCompleted pointer result rest =>
    obtain ⟨read, reads, r, same, next⟩ := simulates.onReadCompleted stepped
    exact ⟨[.readCompleted pointer read reads], r, single same, next⟩
  | writeCompleted pointer rv writes =>
    obtain ⟨answers, r, same, next⟩ := simulates.onWriteCompleted stepped
    exact ⟨[.writeCompleted pointer rv answers], r, single same, next⟩
  | timerFired writes => exact simulates.getSlavesStatus stepped
  | taskRun writes =>
    obtain ⟨event, r, same, next⟩ := simulates.runTask stepped
    exact ⟨[event], r, single same, next⟩
  | taskPosted request =>
    cases stepped
    refine ⟨[], s, rfl, simulates.lastId, simulates.nextPointer, simulates.heap, simulates.idToConnection, ?_,
      simulates.closed⟩
    rw [simulates.posted, List.filterMap_append]
    exact (List.append_nil _).symm

/-- Every run of the RPC thread of the master is a run of the server. -/
theorem of_run {events : List RpcEvent} (replay : run (RpcThread.step pb service) RpcThread.new events = some t) :
    ∃ served s, run (RpcSocketServer.step pb) RpcSocketServer.new served = some s ∧ Simulates t s := by
  suffices from_any : ∀ {u : RpcThread} {r : RpcSocketServer Done}, Simulates u r →
      run (RpcThread.step pb service) u events = some t →
      ∃ served s, run (RpcSocketServer.step pb) r served = some s ∧ Simulates t s from
    from_any new_simulates replay
  clear replay
  induction events with
  | nil =>
    intro u r simulates replay
    cases replay
    exact ⟨[], r, rfl, simulates⟩
  | cons event rest ih =>
    intro u r simulates replay
    obtain ⟨v, stepped, replay⟩ := run_cons.mp replay
    obtain ⟨first, k, served, middle⟩ := simulates.step stepped
    obtain ⟨later, last, more, final⟩ := ih middle replay
    exact ⟨first ++ later, last, run_append.mpr ⟨k, served, more⟩, final⟩

end Simulates

/-- What the server guarantees is so for the master: a connection is registered up to the first `OnClose` its
    observer is told of, and the deletions that wait were posted by the last of these calls. -/
theorem registered_until_first_close {events : List RpcEvent}
    (replay : run (RpcThread.step pb service) RpcThread.new events = some t) :
    (∀ pointer < t.nextPointer, t.idToConnection.contains pointer = true ↔
      pointer ∉ t.calls.filterMap ObserverCall.closed?) ∧
    t.queue.filterMap RpcTask.deletion? <:+ t.calls.filterMap ObserverCall.closed? := by
  obtain ⟨served, s, ran, simulates⟩ := Simulates.of_run replay
  have consistent := (RpcSocketServer.run_nodup_iff RpcSocketServer.new_consistent ran).1
  rw [← simulates.closed, ← simulates.posted, ← simulates.nextPointer, ← simulates.idToConnection]
  exact ⟨consistent.registered, s.deleted, consistent.posts.symm⟩

end RpcThread

end DistributedNinja.Master
