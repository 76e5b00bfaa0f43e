import DistributedNinja.Master.Completion

namespace DistributedNinja.Master

open Lib Rpc Proto Common Ninja

variable {Edge : Type}

def EdgeCall.starts : EdgeCall Edge → Bool
  | .finished _ => false
  | _ => true

def RpcRequest.starts : RpcRequest → Bool
  | .startCommandRemotely _ _ _ _ _ => true
  | .quitSlave _ _ => false

def MainEvent.fails : MainEvent Edge → Bool
  | .exited _ status _ _ => decide (status ≠ .success)
  | _ => false

variable [DecidableEq Edge] {S : Setting Edge}

namespace MainThread

variable {m n k : MainThread S} {event : MainEvent Edge}

structure StartsNothing (m n : MainThread S) : Prop where
  edges : n.log.filter EdgeCall.starts = m.log.filter EdgeCall.starts
  sent : n.rpcPosts.filter RpcRequest.starts = m.rpcPosts.filter RpcRequest.starts

theorem StartsNothing.of_eq (log : n.log = m.log) (posts : n.rpcPosts = m.rpcPosts) : StartsNothing m n :=
  ⟨by rw [log], by rw [posts]⟩

theorem StartsNothing.trans (first : StartsNothing m n) (second : StartsNothing n k) : StartsNothing m k :=
  ⟨second.edges.trans first.edges, second.sent.trans first.sent⟩

/-- What is left to do after `FinishCommand` gives neither a slave nor the executor anything, and is not
    nothing. -/
def nothingToStart (m : MainThread S) : Bool :=
  m.moreToDo &&
    (m.findRemoteWork.isNone || m.pendingEdgeRequest.keys.all fun id => decide (m.pendingRequests id = 0)) &&
    (!m.executor.canRunMore || m.findLocalWork.isNone)

theorem requestEdge_of_none (more : m.moreToDo = true) (none : m.findRemoteWork = none) (connectionId : Int) :
    m.requestEdge connectionId =
      (false, m.setPendingRequests connectionId (m.pendingRequests connectionId + 1)) := by
  rw [requestEdge, if_pos more]
  simp only [none]

theorem servePending_of_none (more : m.moreToDo = true) (none : m.findRemoteWork = none)
    (requests : List Int) : ∃ pending, m.servePending requests = { m with pendingEdgeRequest := pending } := by
  induction requests generalizing m with
  | nil => exact ⟨_, rfl⟩
  | cons connectionId rest ih =>
    unfold servePending
    split
    · have same : (m.setPendingRequests connectionId (m.pendingRequests connectionId + 1)).findRemoteWork =
          Option.none := by
        simpa [findRemoteWork, setPendingRequests] using none
      obtain ⟨pending, served⟩ := ih (by exact more) same
      rw [requestEdge_of_none more none]
      exact ⟨pending, served⟩
    · exact ih more none

theorem servePending_of_zero {requests : List Int} (zero : ∀ id ∈ requests, m.pendingRequests id = 0) :
    m.servePending requests = m := by
  induction requests with
  | nil => rfl
  | cons connectionId rest ih =>
    have first := zero connectionId List.mem_cons_self
    rw [servePending, if_neg (by omega)]
    exact ih fun id member => zero id (List.mem_cons_of_mem _ member)

theorem buildLoop_of_nothing {disk : Edge → Disk} (more : m.moreToDo = true)
    (nothing : m.executor.canRunMore = false ∨ m.findLocalWork = none) : m.buildLoop disk = m := by
  have stops : m.startEdges findLocalWork disk m.edgesLeft = (true, m) := by
    unfold edgesLeft startEdges
    rcases nothing with full | none
    · rw [if_neg (by simp [full])]
    · simp only [none, ite_self]
  rw [buildLoop, if_pos more, stops]
  exact if_pos more

theorem afterFinish_of_nothingToStart (disk : Edge → Disk) (nothing : m.nothingToStart = true) :
    ∃ pending, (m.servePending m.pendingEdgeRequest.keys).buildLoop disk =
      { m with pendingEdgeRequest := pending } := by
  simp only [nothingToStart, Bool.and_eq_true, Bool.or_eq_true, Option.isNone_iff_eq_none, List.all_eq_true,
    decide_eq_true_eq, Bool.not_eq_true'] at nothing
  obtain ⟨⟨more, remote⟩, idle⟩ := nothing
  have served : ∃ pending, m.servePending m.pendingEdgeRequest.keys =
      { m with pendingEdgeRequest := pending } := by
    rcases remote with none | zero
    · exact servePending_of_none more none _
    · exact ⟨m.pendingEdgeRequest, servePending_of_zero zero⟩
  obtain ⟨pending, served⟩ := served
  refine ⟨pending, ?_⟩
  rw [served]
  apply buildLoop_of_nothing
  · exact more
  · rcases idle with full | none
    · exact .inl full
    · right
      unfold findLocalWork at none ⊢
      split at none
      · cases none
      · rename_i nowhere
        have planless : findWork { m with pendingEdgeRequest := pending } = Option.none := by
          simpa [findWork] using nowhere
        rw [planless]
        split at none
        · rename_i front
          simp only [front]
        · cases none

structure Retrieved (m : MainThread S) : Prop where
  pool : ∀ f ∈ m.pool, f.result.status = .success
  queue : ∀ result answer, .onFetchTargetsDone result answer ∈ m.queue → result.status = .success

theorem Retrieved.frame {via : Int → Prop} (retrieved : m.Retrieved) (frame : Frame via m n) : n.Retrieved := by
  refine ⟨frame.pool ▸ retrieved.pool, ?_⟩
  intro result answer member
  obtain ⟨count, queue⟩ := frame.queue
  rw [queue] at member
  rcases List.mem_append.mp member with member | member
  · exact retrieved.queue result answer member
  · cases List.eq_of_mem_replicate member

theorem Retrieved.tail (retrieved : m.Retrieved) {task : MainTask Edge} {rest : List (MainTask Edge)}
    (head : m.queue = task :: rest) (pool : n.pool = m.pool) (queue : n.queue = rest) : n.Retrieved := by
  refine ⟨pool ▸ retrieved.pool, ?_⟩
  intro result answer member
  exact retrieved.queue result answer (head ▸ List.mem_cons_of_mem _ (queue ▸ member))

theorem onRemoteCommandDone_pool {id : Int} {edgeId : UInt32} {status : ExitStatus} {output : String}
    {md5s : List String} (done : m.onRemoteCommandDone id edgeId status output md5s = some n) :
    n.queue = (m.requestEdge id).2.queue ∧
      ∀ f ∈ n.pool, f ∈ (m.requestEdge id).2.pool ∨ f.result.status = .success := by
  unfold onRemoteCommandDone at done
  split at done
  · cases done
  · dsimp only at done
    split at done
    · rename_i success
      obtain ⟨edge, _, done⟩ := Option.bind_eq_some_iff.mp done
      split at done
      · cases done
      · cases done
        refine ⟨rfl, ?_⟩
        intro f member
        rcases List.mem_append.mp member with old | new
        · exact .inl old
        · rw [List.mem_singleton.mp new]
          exact .inr success
    · cases done
      exact ⟨rfl, fun f member => .inl member⟩

theorem Effect.retrieved (effect : Effect m event n) (retrieved : m.Retrieved) : n.Retrieved := by
  cases effect with
  | posted outside =>
    refine ⟨retrieved.pool, ?_⟩
    intro result answer member
    rcases List.mem_append.mp member with member | member
    · exact retrieved.queue result answer member
    · rcases outside with ⟨_, rfl⟩ | ⟨notice, _, rfl⟩ <;> cases List.mem_singleton.mp member
  | noted slaves quit head known => exact retrieved.tail head rfl rfl
  | rejected head => exact retrieved.tail head rfl rfl
  | @began env task rest _ slaves head known idle started =>
    obtain ⟨plan, runner, _, moves⟩ := startBuild_moves (by exact idle) started
    have before : Retrieved (begun { m with queue := rest, slaveInfoIdMap := slaves } plan runner) :=
      retrieved.tail head rfl rfl
    exact before.frame moves.frame
  | @remoteDone env id edgeId status output md5s rest _ head done =>
    obtain ⟨queue, pool⟩ := onRemoteCommandDone_pool done
    have before : Retrieved { m with queue := rest } := retrieved.tail head rfl rfl
    have asked := before.frame (asked_moves env.disk _ id).frame
    refine ⟨?_, queue ▸ asked.queue⟩
    intro f member
    rcases pool f member with old | success
    · exact asked.pool f old
    · exact success
  | @fetchDone env result answer rest ok _ head listed finished =>
    have before : Retrieved { m with queue := rest } := retrieved.tail head rfl rfl
    exact before.frame (finishCommand_finish (fun _ => False) finished).2
  | ran head => exact retrieved.tail head rfl rfl
  | @exited pid status output env p edge ok k found mapped finished =>
    have after := (retrieved.frame (finishCommand_finish (fun _ => False) finished).2).frame
      (afterFinish_moves env.disk k).frame
    refine ⟨after.pool, ?_⟩
    intro result answer member
    rcases List.mem_append.mp member with member | member
    · exact after.queue result answer member
    · obtain ⟨posted, _, same⟩ := List.mem_map.mp member
      cases same
  | @fetched job action f step at_ acted =>
    have success := retrieved.pool f (List.mem_of_getElem? at_)
    cases next : step.next with
    | inl g =>
      refine ⟨?_, retrieved.queue⟩
      intro other member
      rcases List.mem_or_eq_of_mem_set member with old | rfl
      · exact retrieved.pool other old
      · rw [(Fetch.act_keeps acted next).1]
        exact success
    | inr accepted =>
      refine ⟨fun other member => retrieved.pool other (List.mem_of_mem_eraseIdx member), ?_⟩
      intro result answer member
      rcases List.mem_append.mp member with member | member
      · exact retrieved.queue result answer member
      · split at member
        · cases List.mem_singleton.mp member
          exact success
        · cases member

/-- The step gives nothing to start: an exit after its `FinishCommand`, a response to a request in the plan as
    it is. -/
def findsNothing (m : MainThread S) : MainEvent Edge → Bool
  | .exited pid status output env =>
    (m.executor.find? pid).all fun p =>
      (m.commandEdgeMap p.command).all fun edge =>
        (finishCommand (env.disk edge) m ⟨edge, status, output⟩).all fun finished => finished.2.nothingToStart
  | .taskRun _ =>
    match m.queue with
    | .slave (.onRemoteCommandDone _ _ _ _ _) :: _ => !m.moreToDo || m.findRemoteWork.isNone
    | _ => true
  | _ => true

theorem finish_startsNothing {disk : Disk} {result : Result Edge} {c d : Core S}
    (finish : Finish disk c result d) :
    d.log.filter EdgeCall.starts = c.log.filter EdgeCall.starts ∧
      d.buildFinishedCalls = c.buildFinishedCalls + if result.status = .success then 0 else 1 := by
  cases finish with
  | failed failure =>
    rw [if_neg failure]
    exact ⟨rfl, rfl⟩
  | rejected success deps =>
    rw [if_pos success]
    exact ⟨rfl, rfl⟩
  | completed success unreturned inProgress =>
    rw [if_pos success]
    refine ⟨?_, rfl⟩
    simp only [Core.finish, List.filter_append]
    exact List.append_nil _

theorem finishCommand_startsNothing {disk : Disk} {result : Result Edge} {ok : Bool}
    (finished : finishCommand disk m result = some (ok, n)) :
    StartsNothing m n ∧
      n.buildFinishedCalls = m.buildFinishedCalls + if result.status = .success then 0 else 1 := by
  obtain ⟨finish, frame⟩ := finishCommand_finish (fun _ => False) finished
  obtain ⟨new, posts, allowed⟩ := frame.posts
  have none_posted : new = [] := List.eq_nil_iff_forall_not_mem.mpr fun request member => (allowed request member).1
  obtain ⟨log, calls⟩ := finish_startsNothing finish
  refine ⟨⟨log, ?_⟩, calls⟩
  rw [posts, none_posted, List.append_nil]

theorem requestEdge_startsNothing (nothing : (!m.moreToDo || m.findRemoteWork.isNone) = true) (id : Int) :
    ∃ pending, (m.requestEdge id).2 = { m with pendingEdgeRequest := pending } := by
  rw [Bool.or_eq_true, Bool.not_eq_true', Option.isNone_iff_eq_none] at nothing
  by_cases more : m.moreToDo = true
  · rcases nothing with done | none
    · rw [more] at done
      cases done
    · rw [requestEdge_of_none more none]
      exact ⟨_, rfl⟩
  · rw [requestEdge, if_neg more]
    exact ⟨m.pendingEdgeRequest, rfl⟩

structure Underway (m : MainThread S) : Prop where
  orderly : m.Orderly
  retrieved : m.Retrieved
  building : m.isBuilding = true

theorem Effect.startsNothing (effect : Effect m event n) (underway : m.Underway)
    (finds : m.findsNothing event = true) :
    StartsNothing m n ∧ n.isBuilding = true ∧
      n.buildFinishedCalls = m.buildFinishedCalls + if event.fails then 1 else 0 := by
  have building := underway.building
  cases effect with
  | posted outside =>
    rcases outside with ⟨rfl, rfl⟩ | ⟨notice, rfl, rfl⟩ <;> exact ⟨.of_eq rfl rfl, building, rfl⟩
  | noted slaves quit head known => exact ⟨.of_eq rfl rfl, building, rfl⟩
  | rejected head =>
    refine ⟨⟨rfl, ?_⟩, building, rfl⟩
    rw [List.filter_append]
    exact List.append_nil _
  | began slaves head known idle started =>
    rw [building] at idle
    cases idle
  | @remoteDone env id edgeId status output md5s rest _ head done =>
    simp only [findsNothing, head] at finds
    have same : (findRemoteWork { m with queue := rest }).isNone = m.findRemoteWork.isNone := by
      simp only [findRemoteWork, Option.isNone_map]
    rw [← same] at finds
    obtain ⟨pending, asked⟩ := requestEdge_startsNothing (m := { m with queue := rest }) finds id
    obtain ⟨_, rfl | ⟨fetch, info, _, _, _, _, rfl⟩⟩ := onRemoteCommandDone_cases done
    · rw [asked]
      exact ⟨.of_eq rfl rfl, building, rfl⟩
    · rw [asked]
      exact ⟨.of_eq rfl rfl, building, rfl⟩
  | @fetchDone env result answer rest ok _ head listed finished =>
    obtain ⟨nothing, calls⟩ := finishCommand_startsNothing finished
    have success := underway.retrieved.queue result answer (head ▸ List.mem_cons_self)
    rw [if_pos success] at calls
    refine ⟨⟨nothing.edges, nothing.sent⟩, ?_, calls⟩
    exact (finishCommand_finish (fun _ => False) finished).2.isBuilding.trans building
  | ran head => exact absurd (head ▸ List.mem_cons_self) (underway.orderly.queue _ _)
  | @exited pid status output env p edge ok k found mapped finished =>
    obtain ⟨nothing, calls⟩ := finishCommand_startsNothing finished
    simp only [findsNothing, found, mapped, finished, Option.all_some] at finds
    obtain ⟨pending, rest⟩ := afterFinish_of_nothingToStart env.disk finds
    rw [rest]
    refine ⟨nothing.trans (.of_eq rfl rfl), ?_, ?_⟩
    · exact (finishCommand_finish (fun _ => False) finished).2.isBuilding.trans building
    · change k.buildFinishedCalls = _
      rw [calls]
      by_cases success : status = .success
      · simp [MainEvent.fails, success]
      · simp [MainEvent.fails, success]
  | @fetched job action f step at_ acted =>
    cases next : step.next with
    | inl g => exact ⟨.of_eq rfl rfl, building, rfl⟩
    | inr success => exact ⟨.of_eq rfl rfl, building, rfl⟩

theorem run_startsNothing {events : List (MainEvent Edge)} (underway : m.Underway)
    (finds : Along step (fun m event => m.findsNothing event = true) m events)
    (replay : run step m events = some n) :
    StartsNothing m n ∧ n.buildFinishedCalls = m.buildFinishedCalls + events.countP MainEvent.fails := by
  induction events generalizing m with
  | nil =>
    cases replay
    exact ⟨.of_eq rfl rfl, rfl⟩
  | cons event rest ih =>
    obtain ⟨k, stepped, replay⟩ := run_cons.mp replay
    have effect := step_effect stepped
    obtain ⟨nothing, building, calls⟩ := effect.startsNothing underway finds.1
    have after : k.Underway := ⟨effect.orderly underway.orderly, effect.retrieved underway.retrieved, building⟩
    obtain ⟨later, more⟩ := ih after (finds.2 k stepped) replay
    refine ⟨nothing.trans later, ?_⟩
    rw [more, calls, List.countP_cons]
    omega

theorem new_retrieved : (MainThread.new S).Retrieved := ⟨nofun, nofun⟩

/-- When a command fails and neither its exit nor any later step gives MAIN something to start, nothing is
    started, and `BuildFinished` is called once as long as no other command fails. -/
theorem nothing_started_after_failure {before after : List (MainEvent Edge)} {pid : Nat} {status : ExitStatus}
    {output : String} {env : Environment Edge} (reached : run step (MainThread.new S) before = some m)
    (failed : status ≠ .success) (once : ∀ event ∈ after, event.fails = false)
    (finds : Along step (fun m event => m.findsNothing event = true) m (.exited pid status output env :: after))
    (replay : run step m (.exited pid status output env :: after) = some n) :
    StartsNothing m n ∧ n.buildFinishedCalls = m.buildFinishedCalls + 1 := by
  have orderly : m.Orderly := run_invariant (fun _ _ _ orderly stepped => (step_effect stepped).orderly orderly)
    new_orderly reached
  have retrieved : m.Retrieved := run_invariant
    (fun _ _ _ retrieved stepped => (step_effect stepped).retrieved retrieved) new_retrieved reached
  have building : m.isBuilding = true := by
    obtain ⟨k, stepped, _⟩ := run_cons.mp replay
    cases step_effect stepped with
    | posted outside => rcases outside with ⟨impossible, _⟩ | ⟨_, impossible, _⟩ <;> cases impossible
    | exited found mapped finished => exact orderly.building_of_subprocess found
  obtain ⟨nothing, calls⟩ := run_startsNothing ⟨orderly, retrieved, building⟩ finds replay
  refine ⟨nothing, ?_⟩
  have none_later : after.countP MainEvent.fails = 0 := by
    rw [List.countP_eq_zero]
    intro event member
    simp [once event member]
  rw [calls, List.countP_cons, none_later]
  simp [MainEvent.fails, failed]

/-- Three objects run locally and the fourth on the slave, whose response is on its way. -/
def allRunning : List (MainEvent (Fin 5)) := remoteObject.take 5

theorem nothing_started_after_failure_objects :
    ∃ m n, run step (MainThread.new objects) allRunning = some m ∧
      run step m [.exited 0 .failure "" working, .taskRun working, .taskRun working] = some n ∧ n.quit = true ∧
      StartsNothing m n ∧ n.buildFinishedCalls = m.buildFinishedCalls + 1 := by
  have stopped : (run step (MainThread.new objects) allRunning).map (fun m =>
      decide (Along step (fun m event => m.findsNothing event = true) m
        [.exited 0 .failure "" working, .taskRun working, .taskRun working]) &&
      (run step m [.exited 0 .failure "" working, .taskRun working, .taskRun working]).any
        MainThread.quit) = some true := by
    decide +kernel
  obtain ⟨m, reached, shape⟩ := Option.map_eq_some_iff.mp stopped
  rw [Bool.and_eq_true, decide_eq_true_eq, Option.any_eq_true] at shape
  obtain ⟨finds, n, replay, quit⟩ := shape
  refine ⟨m, n, reached, replay, quit, nothing_started_after_failure reached (by decide) ?_ finds replay⟩
  intro event member
  simp only [List.mem_cons, List.not_mem_nil, or_false, or_self] at member
  rw [member]
  rfl

/-- When a command fails while there is room, `BuildLoop` runs an object that a slave is building. -/
theorem object_started_after_failure :
    ¬ ∀ (before after : List (MainEvent (Fin 5))) (pid : Nat) (status : ExitStatus) (output : String)
      (env : Environment (Fin 5)) (m n : MainThread objects),
      run step (MainThread.new objects) before = some m → status ≠ .success →
        run step m (.exited pid status output env :: after) = some n →
          StartsNothing m n ∧ n.buildFinishedCalls = m.buildFinishedCalls + 1 := by
  have leaked : (run step (MainThread.new objects) (allRunning ++ [.exited 0 .success "" working])).map (fun m =>
      (run step m [.exited 1 .failure "" working]).map fun n =>
        decide (n.log.filter EdgeCall.starts = m.log.filter EdgeCall.starts)) = some (some false) := by
    decide +kernel
  intro always
  obtain ⟨m, reached, shape⟩ := Option.map_eq_some_iff.mp leaked
  obtain ⟨n, replay, started⟩ := Option.map_eq_some_iff.mp shape
  have nothing := (always _ [] _ _ _ _ m n reached (by decide) replay).1
  exact of_decide_eq_false started nothing.edges

end MainThread

end DistributedNinja.Master
