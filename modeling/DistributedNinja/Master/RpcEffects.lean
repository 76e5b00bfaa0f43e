import DistributedNinja.Master.MasterRpc

namespace DistributedNinja.Master.RpcThread

open Lib Rpc Proto

def Registers (c : RpcConnection Done) (done : Done) : Prop :=
  ∃ id, c.requestIdToResponse id = some (some done)

/-- What reading can do to the thread without closing the connection at `pointer`. -/
inductive Quiet (pointer : Nat) (t : RpcThread) : RpcThread → Prop where
  | updated {c d : RpcConnection Done} (found : t.heap pointer = some c) (same : d.id = c.id)
      (closures : ∀ done, Registers d done → Registers c done) : Quiet pointer t (t.store pointer d)
  | posted {c : RpcConnection Done} {done : Done} {notice : SlaveNotice}
      (found : t.heap pointer = some c) (registered : Registers c done)
      (answers : notice.closure? = some done)
      (known : ∀ id info, notice = .onSlaveSystemInfoAvailable id info → t.connections.contains id = true) :
      Quiet pointer t (t.post notice)

abbrev Quietly (pointer : Nat) : RpcThread → RpcThread → Prop := Relation.ReflTransGen (Quiet pointer)

inductive MayClose (pointer : Nat) (t : RpcThread) : RpcThread → Prop where
  | stays : MayClose pointer t t
  | closes {c : RpcConnection Done} (found : t.heap pointer = some c) :
      MayClose pointer t (t.onClose c.id pointer)

/-- The connection at `pointer` took a call in, with the closure to run when it is answered. -/
inductive Called (pointer : Nat) (done : Option Done) (t : RpcThread) : RpcThread → Prop where
  | registered {c d : RpcConnection Done} (found : t.heap pointer = some c) (same : d.id = c.id)
      (closures : ∀ other, Registers d other → Registers c other ∨ done = some other) :
      Called pointer done t (t.store pointer d)

section Reading

variable {pb : Protobuf} {service : SlaveService} {pointer : Nat} {t u : RpcThread}

theorem quiet_setReadBuf {c : RpcConnection Done} (found : t.heap pointer = some c) (b : ReadIOBuffer) :
    Quiet pointer t (t.setReadBuf pointer b) := by
  have same : t.setReadBuf pointer b = t.store pointer { c with readBuf := b } := by
    simp [setReadBuf, store, found]
  rw [same]
  exact .updated found rfl fun _ registered => registered

theorem quiet_eraseRequest {c : RpcConnection Done} (found : t.heap pointer = some c) (id : UInt32) :
    Quiet pointer t (t.eraseRequest pointer id) := by
  have same : t.eraseRequest pointer id = t.store pointer
      { c with requestIdToResponse := Function.update c.requestIdToResponse id none } := by
    simp [eraseRequest, store, found]
  rw [same]
  apply Quiet.updated found
  · rfl
  · rintro done ⟨other, registered⟩
    by_cases at_ : other = id
    · subst at_
      simp at registered
    · exact ⟨other, by simpa [at_] using registered⟩

theorem runDone_posts {response : List UInt8} {done : Done}
    (ran : t.runDone service response done = some u) :
    ∃ notice : SlaveNotice, notice.closure? = some done ∧ u = t.post notice ∧
      ∀ id info, notice = .onSlaveSystemInfoAvailable id info → t.connections.contains id = true := by
  cases done with
  | onSlaveSystemInfoAvailable connectionId =>
    simp only [runDone, Option.map_eq_some_iff] at ran
    obtain ⟨c, found, rfl⟩ := ran
    obtain ⟨pointer, registered, _⟩ := Option.bind_eq_some_iff.mp found
    refine ⟨_, rfl, rfl, ?_⟩
    intro id info same
    cases same
    exact OrderedMap.contains_iff.mpr ⟨pointer, registered⟩
  | onRemoteCommandDone connectionId =>
    cases ran
    exact ⟨_, rfl, rfl, nofun⟩
  | onSlaveStatusUpdate connectionId =>
    cases ran
    exact ⟨_, rfl, rfl, nofun⟩

theorem onReponseMessage_quietly {m : RpcMessage}
    (handled : t.onReponseMessage service pointer m = some u) : Quietly pointer t u := by
  unfold onReponseMessage at handled
  dsimp only at handled
  split at handled
  · cases handled
    exact .refl
  · rename_i found
    obtain ⟨c, found, _⟩ := Option.bind_eq_some_iff.mp found
    split at handled
    · cases handled
      exact .single (quiet_eraseRequest found _)
    · cases handled
  · rename_i done found
    obtain ⟨c, found, registered⟩ := Option.bind_eq_some_iff.mp found
    obtain ⟨v, ran, rfl⟩ := Option.map_eq_some_iff.mp handled
    obtain ⟨notice, answers, rfl, known⟩ := runDone_posts ran
    have posts : Quiet pointer t (t.post notice) := .posted found ⟨_, registered⟩ answers known
    exact .tail (.single posts) (quiet_eraseRequest (t := t.post notice) found _)

theorem dispatch_quietly {s : Option RpcThread} {m : RpcMessage}
    (before : ∀ v, s = some v → Quietly pointer t v) (v : RpcThread)
    (dispatched : dispatch service pointer s m = some v) : Quietly pointer t v := by
  obtain ⟨w, rfl, handled⟩ := Option.bind_eq_some_iff.mp dispatched
  have so_far := before w rfl
  split at handled
  · cases handled
    exact so_far
  · exact so_far.trans (onReponseMessage_quietly handled)

theorem Quiet.heap (quiet : Quiet pointer t u) (other : Nat) (exists_ : (t.heap other).isSome) :
    (u.heap other).isSome := by
  cases quiet with
  | updated found same closures =>
    by_cases at_ : other = pointer
    · simp [store, at_]
    · simpa [store, at_] using exists_
  | posted found registered answers known => exact exists_

theorem Quietly.heap (quietly : Quietly pointer t u) (other : Nat) (exists_ : (t.heap other).isSome) :
    (u.heap other).isSome := by
  induction quietly with
  | refl => exact exists_
  | tail _ quiet ih => exact quiet.heap other ih

theorem handleReadResult_data {c : RpcConnection Done} {chunk : List UInt8} {ok : Bool}
    (found : t.heap pointer = some c)
    (handled : t.handleReadResult pb service pointer c (.data chunk) = some (u, ok)) :
    Quietly pointer t u ∧ ok = true := by
  obtain ⟨b, _, handled⟩ := Option.bind_eq_some_iff.mp handled
  split at handled
  · rename_i left v looped
    cases handled
    have quietly : Quietly pointer t v := by
      apply frameLoop_invariant (fun s => ∀ v, s = some v → Quietly pointer t v)
        (fun s m before => dispatch_quietly before) looped ?_ v rfl
      intro w same
      cases same
      exact .refl
    obtain ⟨d, still⟩ := Option.isSome_iff_exists.mp (quietly.heap pointer (by simp [found]))
    exact ⟨quietly.tail (quiet_setReadBuf still left), rfl⟩
  · cases handled

theorem handleReadResult_cases {c : RpcConnection Done} {result : ReadResult} {ok : Bool}
    (found : t.heap pointer = some c)
    (handled : t.handleReadResult pb service pointer c result = some (u, ok)) :
    (Quietly pointer t u ∧ ok = true) ∨ (MayClose pointer t u ∧ ok = false) := by
  cases result with
  | data chunk => exact .inl (handleReadResult_data found handled)
  | ended rv =>
    cases handled
    exact .inr ⟨.closes found, rfl⟩

def Delivers (result : ReadResult) : Prop := ∃ chunk, result = .data chunk

theorem doReadLoop_cases {results : List ReadResult}
    (looped : t.doReadLoop pb service pointer results = some u) :
    ∃ v, Quietly pointer t v ∧ MayClose pointer v u ∧ ((∀ r ∈ results, Delivers r) → u = v) := by
  induction results generalizing t with
  | nil =>
    unfold doReadLoop at looped
    obtain ⟨c, found, looped⟩ := Option.bind_eq_some_iff.mp looped
    split at looped
    · cases looped
      exact ⟨_, .refl, .stays, fun _ => rfl⟩
    · split at looped
      · cases looped
      · rename_i room _ _
        cases looped
        have pending : Quiet pointer t (t.store pointer { c with readBuf := room, readCallback := true }) :=
          .updated found rfl fun _ registered => registered
        exact ⟨_, .single pending, .stays, fun _ => rfl⟩
  | cons result rest ih =>
    unfold doReadLoop at looped
    obtain ⟨c, found, looped⟩ := Option.bind_eq_some_iff.mp looped
    split at looped
    · cases looped
      exact ⟨_, .refl, .stays, fun _ => rfl⟩
    · rename_i room made
      split at looped
      · cases looped
      · have room_quiet := quiet_setReadBuf found room
        have room_found : (t.setReadBuf pointer room).heap pointer = some { c with readBuf := room } := by
          simp [setReadBuf, found]
        dsimp only at looped
        split at looped
        · rename_i w handled
          rcases handleReadResult_cases room_found handled with ⟨quietly, _⟩ | ⟨_, impossible⟩
          · obtain ⟨v, more, closing, open_⟩ := ih looped
            refine ⟨v, (Relation.ReflTransGen.head room_quiet quietly).trans more, closing, ?_⟩
            intro delivers
            exact open_ fun r member => delivers r (List.mem_cons_of_mem _ member)
          · cases impossible
        · rename_i w handled
          cases looped
          rcases handleReadResult_cases room_found handled with ⟨_, impossible⟩ | ⟨closing, _⟩
          · cases impossible
          · refine ⟨_, .single room_quiet, closing, ?_⟩
            intro delivers
            obtain ⟨chunk, rfl⟩ := delivers result (by simp)
            cases (handleReadResult_data room_found handled).2
        · cases looped

theorem onReadCompleted_cases {result : ReadResult} {rest : List ReadResult}
    (completed : t.onReadCompleted pb service pointer result rest = some u) :
    ∃ v, Quietly pointer t v ∧ MayClose pointer v u := by
  obtain ⟨c, found, completed⟩ := Option.bind_eq_some_iff.mp completed
  split at completed
  · have reset : Quiet pointer t (t.store pointer { c with readCallback := false }) :=
      .updated found rfl fun _ registered => registered
    have stored : (t.store pointer { c with readCallback := false }).heap pointer =
        some { c with readCallback := false } := by
      simp [store]
    dsimp only at completed
    split at completed
    · rename_i w handled
      rcases handleReadResult_cases stored handled with ⟨quietly, _⟩ | ⟨_, impossible⟩
      · obtain ⟨v, more, closing, _⟩ := doReadLoop_cases completed
        exact ⟨v, (Relation.ReflTransGen.head reset quietly).trans more, closing⟩
      · cases impossible
    · rename_i w handled
      cases completed
      rcases handleReadResult_cases stored handled with ⟨_, impossible⟩ | ⟨closing, _⟩
      · cases impossible
      · exact ⟨_, .single reset, closing⟩
    · cases completed
  · cases completed

end Reading

section Writing

variable {pb : Protobuf} {service : SlaveService} {pointer : Nat} {t u : RpcThread}

theorem afterWrite_cases {result : RpcConnection Done × WriteOutcome}
    (written : t.afterWrite pointer result = some u) :
    MayClose pointer (t.store pointer result.1) u := by
  obtain ⟨c, outcome⟩ := result
  cases outcome with
  | returned =>
    cases written
    exact .stays
  | closed rv =>
    cases written
    exact .closes (by simp [store])
  | checkFailed => cases written

theorem callStub_cases {method : SlaveMethod} {request : List UInt8} {done : Option Done}
    {writes : List Int}
    (called : t.callStub pb service pointer method request done writes = some u) :
    ∃ v, Called pointer done t v ∧ MayClose pointer v u := by
  obtain ⟨c, found, written⟩ := Option.bind_eq_some_iff.mp called
  refine ⟨_, ?_, afterWrite_cases written⟩
  obtain ⟨b, pending, same⟩ := RpcConnection.doWriteLoop_written writes
    (c.enqueue pb (.callMethod service.fullName (service.methodName method) request done))
  rw [RpcConnection.call, same]
  apply Called.registered found
  · rfl
  · rintro other ⟨id, registered⟩
    change Function.update c.requestIdToResponse c.lastRequestId.toUInt64.toUInt32 (some done) id = _
      at registered
    by_cases at_ : id = c.lastRequestId.toUInt64.toUInt32
    · right
      rw [at_, Function.update_self] at registered
      exact Option.some.inj registered
    · left
      rw [Function.update_of_ne at_] at registered
      exact ⟨id, registered⟩

theorem onWriteCompleted_cases {rv : Int} {writes : List Int}
    (completed : t.onWriteCompleted pointer rv writes = some u) :
    ∃ v, Quiet pointer t v ∧ MayClose pointer v u := by
  obtain ⟨c, found, completed⟩ := Option.bind_eq_some_iff.mp completed
  split at completed
  · refine ⟨_, ?_, afterWrite_cases completed⟩
    obtain ⟨b, pending, same⟩ := c.onWriteCompleted_written rv writes
    rw [same]
    exact Quiet.updated found rfl fun _ registered => registered
  · cases completed

end Writing

inductive Polled (entries : List (Int × Nat)) : RpcThread → RpcThread → Prop where
  | done {t : RpcThread} : Polled entries t t
  | next {t u v w : RpcThread} {id : Int} {pointer : Nat} (entry : (id, pointer) ∈ entries)
      (called : Called pointer (some (.onSlaveStatusUpdate id)) t u) (closing : MayClose pointer u v)
      (rest : Polled entries v w) : Polled entries t w

/-- Everything one task of the RPC thread can do. -/
inductive Effect (t : RpcThread) : RpcEvent → RpcThread → Prop where
  | accepted {peer : String} {reads : List ReadResult} {writes : List Int} {u v w x : RpcThread}
      (reading : Quietly t.nextPointer (t.newConnection peer) u)
      (early : MayClose t.nextPointer u v) (steady : (∀ r ∈ reads, Delivers r) → v = u)
      (called : Called t.nextPointer (some (.onSlaveSystemInfoAvailable t.lastId))
        (v.registerSlave t.lastId t.nextPointer) w)
      (closing : MayClose t.nextPointer w x) : Effect t (.accepted peer reads writes) x
  | readCompleted {pointer : Nat} {result : ReadResult} {rest : List ReadResult} {u v : RpcThread}
      (reading : Quietly pointer t u) (closing : MayClose pointer u v) :
      Effect t (.readCompleted pointer result rest) v
  | writeCompleted {pointer : Nat} {rv : Int} {writes : List Int} {u v : RpcThread}
      (written : Quiet pointer t u) (closing : MayClose pointer u v) :
      Effect t (.writeCompleted pointer rv writes) v
  | timerFired {writes : Int → List Int} {u : RpcThread} (polled : Polled t.connections.entries t u) :
      Effect t (.timerFired writes) u
  | requestRun {writes : List Int} {request : RpcRequest} {rest : List RpcTask} {pointer : Nat}
      {done : Option Done} {u v : RpcThread} (head : t.queue = .request request :: rest)
      (found : t.connections.find? request.connectionId = some pointer)
      (answer : done = request.closure?)
      (called : Called pointer done { t with queue := rest } u) (closing : MayClose pointer u v) :
      Effect t (.taskRun writes) v
  | deleted {writes : List Int} {pointer : Nat} {rest : List RpcTask}
      (head : t.queue = .deleteSoon pointer :: rest) :
      Effect t (.taskRun writes) { t with queue := rest, heap := Function.update t.heap pointer none }
  | taskPosted {request : RpcRequest} :
      Effect t (.taskPosted request) { t with queue := t.queue ++ [.request request] }

section Steps

variable {pb : Protobuf} {service : SlaveService} {t u : RpcThread}

theorem getSlavesStatus_polled {writes : Int → List Int} {all entries : List (Int × Nat)}
    (within : entries ⊆ all) (polled : t.getSlavesStatus pb service writes entries = some u) :
    Polled all t u := by
  induction entries generalizing t with
  | nil =>
    cases polled
    exact .done
  | cons entry rest ih =>
    obtain ⟨id, pointer⟩ := entry
    obtain ⟨v, called, polled⟩ := Option.bind_eq_some_iff.mp polled
    obtain ⟨w, called, closing⟩ := callStub_cases called
    split at polled
    · have later : rest ⊆ all := fun entry member => within (List.mem_cons_of_mem _ member)
      exact .next (within (by simp)) called closing (ih later polled)
    · cases polled

theorem runRequest_cases {writes : List Int} {request : RpcRequest}
    (ran : t.runRequest pb service writes request = some u) :
    ∃ pointer done v, t.connections.find? request.connectionId = some pointer ∧
      done = request.closure? ∧ Called pointer done t v ∧ MayClose pointer v u := by
  cases request with
  | startCommandRemotely connectionId paths rspfileName rspfileContent edgeId =>
    obtain ⟨pointer, found, called⟩ := Option.bind_eq_some_iff.mp ran
    obtain ⟨v, called, closing⟩ := callStub_cases called
    exact ⟨pointer, _, v, found, rfl, called, closing⟩
  | quitSlave connectionId reason =>
    obtain ⟨pointer, found, called⟩ := Option.bind_eq_some_iff.mp ran
    obtain ⟨v, called, closing⟩ := callStub_cases called
    exact ⟨pointer, none, v, found, rfl, called, closing⟩

theorem step_effect {event : RpcEvent} (stepped : t.step pb service event = some u) :
    Effect t event u := by
  cases event with
  | accepted peer reads writes =>
    obtain ⟨v, looped, connected⟩ := Option.bind_eq_some_iff.mp stepped
    obtain ⟨w, reading, early, steady⟩ := doReadLoop_cases looped
    obtain ⟨x, called, closing⟩ := callStub_cases connected
    exact .accepted reading early steady called closing
  | readCompleted pointer result rest =>
    obtain ⟨v, reading, closing⟩ := onReadCompleted_cases stepped
    exact .readCompleted reading closing
  | writeCompleted pointer rv writes =>
    obtain ⟨v, written, closing⟩ := onWriteCompleted_cases stepped
    exact .writeCompleted written closing
  | timerFired writes =>
    exact .timerFired (getSlavesStatus_polled (List.Subset.refl _) stepped)
  | taskRun writes =>
    change t.runTask pb service writes = some u at stepped
    unfold runTask at stepped
    split at stepped
    · cases stepped
    · rename_i request rest head
      obtain ⟨pointer, done, v, found, answer, called, closing⟩ := runRequest_cases stepped
      exact .requestRun head found answer called closing
    · rename_i pointer rest head
      obtain ⟨c, _, rfl⟩ := Option.map_eq_some_iff.mp stepped
      exact .deleted head
  | taskPosted request =>
    cases stepped
    exact .taskPosted

end Steps

end DistributedNinja.Master.RpcThread
