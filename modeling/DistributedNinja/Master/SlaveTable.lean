import DistributedNinja.Master.Disconnect
import Mathlib.Data.Set.Insert

namespace DistributedNinja.Master

open Lib Rpc Proto Common Ninja

variable {Edge : Type}

def SlaveNotice.success? : SlaveNotice → Option Int
  | .onRemoteCommandDone connectionId _ .success _ _ => some connectionId
  | _ => none

def MainTask.success? : MainTask Edge → Option Int
  | .slave notice => notice.success?
  | _ => none

theorem SlaveNotice.closure_of_success {notice : SlaveNotice} {id : Int} (success : notice.success? = some id) :
    notice.closure? = some (.onRemoteCommandDone id) := by
  unfold success? at success
  split at success
  · cases success
    rfl
  · cases success

theorem MainTask.eq_of_success {task : MainTask Edge} {id : Int} (success : task.success? = some id) :
    ∃ edgeId output md5s, task = .slave (.onRemoteCommandDone id edgeId .success output md5s) := by
  unfold MainTask.success? SlaveNotice.success? at success
  split at success
  · split at success
    · cases success
      exact ⟨_, _, _, rfl⟩
    · cases success
  · cases success

def MainTask.Own (more : List (MainTask Edge)) : Prop := ∀ task ∈ more, ∀ notice, task ≠ .slave notice

theorem MainTask.own_append {first second : List (MainTask Edge)} (own : MainTask.Own first)
    (ownToo : MainTask.Own second) : MainTask.Own (first ++ second) := by
  intro task member
  exact (List.mem_append.mp member).elim (own task) (ownToo task)

theorem MainTask.own_nil : MainTask.Own ([] : List (MainTask Edge)) := List.forall_mem_nil _

theorem MainTask.Own.success {more : List (MainTask Edge)} (own : MainTask.Own more) :
    ∀ task ∈ more, task.success? = none := by
  intro task member
  cases task with
  | slave notice => exact absurd rfl (own _ member notice)
  | startBuild | onFetchTargetsDone | runCommand | quit => rfl

theorem MainTask.ordered_append {queue more : List (MainTask Edge)}
    (ordered : queue.Pairwise fun earlier later =>
      ∀ id, later.success? = some id → earlier ≠ .slave (.onSlaveClose id))
    (silent : ∀ task ∈ more, task.success? = none) :
    (queue ++ more).Pairwise fun earlier later =>
      ∀ id, later.success? = some id → earlier ≠ .slave (.onSlaveClose id) := by
  have never : ∀ task ∈ more, ∀ id, task.success? ≠ some id := by
    intro task member id success
    rw [silent task member] at success
    cases success
  apply List.pairwise_append.mpr ⟨ordered, _, _⟩
  · exact List.pairwise_of_forall_mem_list fun _ _ later member id success =>
      absurd success (never later member id)
  · exact fun _ _ later member id success => absurd success (never later member id)

variable [DecidableEq Edge]

def Setting.admits (S : Setting Edge) (info : SlaveInfo) : Prop :=
  info.operatingSystemName = S.operatingSystemName ∧
    info.operatingSystemArchitecture = S.operatingSystemArchitecture

/-- What `slave_info_id_map_` is for: the slaves whose system information was accepted and that have not been
    closed since. -/
def Setting.liveAfter (S : Setting Edge) (live : Set Int) : MainTask Edge → Set Int
  | .slave (.onSlaveSystemInfoAvailable connectionId info) =>
    {id | id ∈ live ∨ id = connectionId ∧ S.admits info}
  | .slave (.onSlaveClose connectionId) => live \ {connectionId}
  | _ => live

theorem Setting.mem_liveAfter {S : Setting Edge} {live : Set Int} {id : Int} (member : id ∈ live)
    {task : MainTask Edge} (other : task ≠ .slave (.onSlaveClose id)) : id ∈ S.liveAfter live task := by
  unfold Setting.liveAfter
  split
  · exact .inl member
  · rename_i connectionId
    apply And.intro member
    rintro rfl
    exact other rfl
  · exact member

namespace MainThread

variable {S : Setting Edge} {m n : MainThread S} {event : MainEvent Edge}

def known (m : MainThread S) : Set Int := {id | m.slaveInfoIdMap.contains id = true}

def handled (m : MainThread S) : MainEvent Edge → Option (MainTask Edge)
  | .taskRun _ => m.queue.head?
  | _ => none

def waiting (m : MainThread S) : MainEvent Edge → List (MainTask Edge)
  | .taskRun _ => m.queue.tail
  | _ => m.queue

theorem waiting_sublist (m : MainThread S) (event : MainEvent Edge) : (m.waiting event).Sublist m.queue := by
  cases event with
  | taskRun env => exact List.tail_sublist _
  | noticePosted | startPosted | exited | fetched => exact List.Sublist.refl _

theorem handled_mem {task : MainTask Edge} (taken : m.handled event = some task) : task ∈ m.queue := by
  cases event with
  | taskRun env => exact List.mem_of_mem_head? taken
  | noticePosted | startPosted | exited | fetched => cases taken

theorem handled_waiting {R : MainTask Edge → MainTask Edge → Prop} (ordered : m.queue.Pairwise R)
    {task later : MainTask Edge} (taken : m.handled event = some task) (waits : later ∈ m.waiting event) :
    R task later := by
  cases event with
  | taskRun env =>
    obtain ⟨rest, head⟩ := List.head?_eq_some_iff.mp taken
    rw [head] at ordered
    rw [waiting, head] at waits
    exact (List.pairwise_cons.mp ordered).1 _ waits
  | noticePosted | startPosted | exited | fetched => cases taken

theorem known_insert (m : MainThread S) (connectionId : Int) (info : SlaveInfo) :
    ({ m with slaveInfoIdMap := m.slaveInfoIdMap.insert connectionId info } : MainThread S).known =
      insert connectionId m.known := by
  ext id
  by_cases same : id = connectionId <;> simp [known, OrderedMap.contains, same]

theorem known_erase (m : MainThread S) (connectionId : Int) :
    ({ m with slaveInfoIdMap := m.slaveInfoIdMap.erase connectionId } : MainThread S).known =
      m.known \ {connectionId} := by
  ext id
  by_cases same : id = connectionId <;> simp [known, OrderedMap.contains, same]

theorem Frame.known {via : Int → Prop} (frame : Frame via m n) : n.known = m.known := by
  simp only [MainThread.known, frame.slaves]

theorem startBuild_known {env : Environment Edge} (started : m.startBuild env = some n) :
    n.known = m.known := by
  by_cases building : m.isBuilding = true
  · rw [startBuild, if_pos building] at started
    cases started
    rfl
  · obtain ⟨plan, runner, _, moves⟩ := startBuild_moves (by simpa using building) started
    exact moves.frame.known

theorem onSlaveSystemInfoAvailable_known {env : Environment Edge} {connectionId : Int} {info : SlaveInfo}
    (handled : m.onSlaveSystemInfoAvailable env connectionId info = some n) :
    n.known = {id | id ∈ m.known ∨ id = connectionId ∧ S.admits info} := by
  unfold onSlaveSystemInfoAvailable at handled
  split at handled
  · rename_i listed
    cases handled
    ext id
    constructor
    · exact .inl
    · rintro (member | ⟨rfl, _⟩)
      · exact member
      · exact listed
  · split at handled
    · rename_i different
      cases handled
      ext id
      have refused : ¬ S.admits info := by
        rintro ⟨name, architecture⟩
        exact different.elim (fun other => other name) fun other => other architecture
      simp [refused, known]
    · rename_i same
      have admitted : S.admits info := by simpa [Setting.admits, not_or] using same
      have inserted : n.known = insert connectionId m.known := by
        rw [← known_insert m connectionId info]
        dsimp only at handled
        split at handled
        · exact startBuild_known handled
        · cases handled
          rfl
      rw [inserted]
      ext id
      simp [admitted, or_comm]

theorem onSlaveStatusUpdate_known (m : MainThread S) (connectionId : Int) (status : StatusResponse) :
    (m.onSlaveStatusUpdate connectionId status).known = m.known := by
  unfold onSlaveStatusUpdate
  split
  · rfl
  · rename_i info found
    rw [known_insert]
    exact Set.insert_eq_of_mem (OrderedMap.contains_iff.mpr ⟨info, found⟩)

theorem onRemoteCommandDone_known (disk : Edge → Disk) {connectionId : Int} {edgeId : UInt32} {status : ExitStatus}
    {output : String} {md5s : List String}
    (done : m.onRemoteCommandDone connectionId edgeId status output md5s = some n)
    (found : status = .success → connectionId ∈ m.known) : n.known = m.known := by
  have asked := (asked_moves disk m connectionId).frame.known
  obtain ⟨_, rfl | ⟨fetch, info, success, _, _, _, rfl⟩⟩ := onRemoteCommandDone_cases done
  · exact asked
  · have inserted := known_insert (m.requestEdge connectionId).2 connectionId info
    rw [asked, Set.insert_eq_of_mem (found success)] at inserted
    exact inserted

theorem runTask_known {env : Environment Edge} {task : MainTask Edge} (ran : runTask env m task = some n)
    (found : ∀ id, task.success? = some id → id ∈ m.known) : n.known = S.liveAfter m.known task := by
  cases task with
  | startBuild => exact startBuild_known ran
  | slave notice =>
    cases notice with
    | onSlaveSystemInfoAvailable connectionId info => exact onSlaveSystemInfoAvailable_known ran
    | onRemoteCommandDone connectionId edgeId status output md5s =>
      apply onRemoteCommandDone_known env.disk ran
      rintro rfl
      exact found connectionId rfl
    | onSlaveStatusUpdate connectionId status =>
      cases ran
      exact onSlaveStatusUpdate_known _ connectionId status
    | onSlaveClose connectionId =>
      cases ran
      exact known_erase m connectionId
  | onFetchTargetsDone result answer =>
    change onFetchTargetsDone env _ result = some n at ran
    unfold onFetchTargetsDone at ran
    split at ran
    · cases ran
      rfl
    · obtain ⟨⟨ok, k⟩, finished, rfl⟩ := Option.map_eq_some_iff.mp ran
      exact (finishCommand_finish (fun _ => False) finished).2.known
  | runCommand command cause =>
    cases ran
    rfl
  | quit =>
    cases ran
    rfl

theorem step_known (stepped : m.step event = some n)
    (found : ∀ task id, m.handled event = some task → task.success? = some id → id ∈ m.known) :
    n.known = (m.handled event).elim m.known (S.liveAfter m.known) := by
  cases event with
  | noticePosted notice =>
    cases stepped
    rfl
  | startPosted =>
    cases stepped
    rfl
  | exited pid status output env =>
    cases step_effect stepped with
    | posted outside => rcases outside with ⟨impossible, _⟩ | ⟨_, impossible, _⟩ <;> cases impossible
    | @exited _ _ _ _ p edge ok k _ mapped finished =>
      have finish := (finishCommand_finish (fun _ => False) finished).2.known
      exact (afterFinish_moves env.disk k).frame.known.trans finish
  | fetched job action =>
    obtain ⟨f, _, stepped⟩ := Option.bind_eq_some_iff.mp stepped
    obtain ⟨next, _, rfl⟩ := Option.map_eq_some_iff.mp stepped
    cases next.next <;> rfl
  | taskRun env =>
    simp only [step] at stepped
    split at stepped
    · rename_i task rest head
      have taken : m.handled (.taskRun env) = some task := by rw [handled, head, List.head?_cons]
      rw [taken, Option.elim_some]
      exact runTask_known (m := { m with queue := rest }) stepped fun id success => found task id taken success
    · cases stepped

theorem Frame.ownTasks {via : Int → Prop} (frame : Frame via m n) :
    ∃ more, n.queue = m.queue ++ more ∧ MainTask.Own more := by
  obtain ⟨count, queue⟩ := frame.queue
  refine ⟨_, queue, ?_⟩
  intro task member notice
  rw [List.eq_of_mem_replicate member]
  exact nofun

theorem Effect.tasks (effect : Effect m event n) (outside : ∀ notice, event ≠ .noticePosted notice) :
    ∃ more, n.queue = m.waiting event ++ more ∧ MainTask.Own more := by
  cases effect with
  | @posted _ task posted =>
    rcases posted with ⟨rfl, rfl⟩ | ⟨notice, rfl, _⟩
    · exact ⟨[.startBuild], rfl, by simp [MainTask.Own]⟩
    · exact absurd rfl (outside notice)
  | noted slaves quit head remembers => exact ⟨[], by simp [waiting, head], MainTask.own_nil⟩
  | rejected head => exact ⟨[], by simp [waiting, head], MainTask.own_nil⟩
  | began slaves head remembers idle started =>
    obtain ⟨plan, runner, _, moves⟩ := startBuild_moves (by exact idle) started
    rw [waiting, head]
    exact moves.frame.ownTasks
  | @remoteDone env id edgeId status output md5s rest _ head done =>
    obtain ⟨more, queue, own⟩ := (asked_moves env.disk { m with queue := rest } id).frame.ownTasks
    rw [waiting, head]
    obtain ⟨_, rfl | ⟨fetch, info, _, _, _, _, rfl⟩⟩ := onRemoteCommandDone_cases done
    · exact ⟨more, queue, own⟩
    · exact ⟨more, queue, own⟩
  | fetchDone head listed finished =>
    rw [waiting, head]
    exact (finishCommand_finish (fun _ => False) finished).2.ownTasks
  | ran head => exact ⟨[], by simp [waiting, head], MainTask.own_nil⟩
  | @exited pid status output env p edge ok k found mapped finished =>
    obtain ⟨more, queue, own⟩ := (finishCommand_finish (fun _ => False) finished).2.ownTasks
    obtain ⟨later, queueAfter, ownAfter⟩ := (afterFinish_moves env.disk k).frame.ownTasks
    let done := (k.servePending k.pendingEdgeRequest.keys).buildLoop env.disk
    let ready := (done.executor.exited pid).2.toList.map fun posted => MainTask.runCommand posted.1 posted.2
    refine ⟨more ++ (later ++ ready), ?_, MainTask.own_append own (MainTask.own_append ownAfter ?_)⟩
    · simp only [subprocessRemoved, queueAfter, queue, waiting, List.append_assoc, done, ready]
    · intro task member notice same
      obtain ⟨posted, _, rfl⟩ := List.mem_map.mp member
      cases same
  | @fetched job action f step at_ acted =>
    cases next : step.next with
    | inl g => exact ⟨[], by simp [fetchStepped, waiting], MainTask.own_nil⟩
    | inr success =>
      refine ⟨_, rfl, ?_⟩
      intro task member notice same
      split at member <;> simp at member
      rw [member] at same
      cases same

theorem Effect.starts (effect : Effect m event n) :
    ∃ new, n.rpcPosts = m.rpcPosts ++ new ∧
      ∀ request ∈ new, ∀ done, request.closure? = some done → request.connectionId ∈ n.known := by
  cases effect with
  | posted outside => exact ⟨[], by simp, nofun⟩
  | noted slaves quit head remembers => exact ⟨[], by simp, nofun⟩
  | rejected head =>
    refine ⟨_, rfl, ?_⟩
    intro request member done closure
    rw [List.mem_singleton.mp member] at closure
    cases closure
  | began slaves head remembers idle started =>
    obtain ⟨plan, runner, _, moves⟩ := startBuild_moves (by exact idle) started
    obtain ⟨new, posts, allowed⟩ := moves.frame.posts
    refine ⟨new, posts, ?_⟩
    intro request member _ _
    rw [moves.frame.known]
    exact (allowed request member).2
  | @remoteDone env id edgeId status output md5s rest _ head done =>
    have frame := (asked_moves env.disk { m with queue := rest } id).frame
    obtain ⟨new, posts, allowed⟩ := frame.posts
    have listed : ∀ request ∈ new, request.connectionId ∈ ({ m with queue := rest }.requestEdge id).2.known := by
      intro request member
      rw [frame.known]
      exact (allowed request member).2
    obtain ⟨_, rfl | ⟨fetch, info, _, _, _, _, rfl⟩⟩ := onRemoteCommandDone_cases done
    · exact ⟨new, posts, fun request member _ _ => listed request member⟩
    · refine ⟨new, posts, ?_⟩
      intro request member _ _
      have grown := known_insert ({ m with queue := rest }.requestEdge id).2 id info
      exact (Set.ext_iff.mp grown _).mpr (Set.mem_insert_of_mem _ (listed request member))
  | fetchDone head listed finished =>
    have frame := (finishCommand_finish (fun _ => False) finished).2
    obtain ⟨new, posts, allowed⟩ := frame.posts
    exact ⟨new, posts, fun request member _ _ => (allowed request member).1.elim⟩
  | ran head => exact ⟨[], by simp, nofun⟩
  | @exited pid status output env p edge ok k found mapped finished =>
    have finish := (finishCommand_finish (fun _ => False) finished).2
    have after := (afterFinish_moves env.disk k).frame
    obtain ⟨new, posts, allowed⟩ := finish.posts
    obtain ⟨newer, postsAfter, allowedAfter⟩ := after.posts
    refine ⟨new ++ newer, ?_, ?_⟩
    · rw [← List.append_assoc, ← posts]
      exact postsAfter
    · intro request member _ _
      rcases List.mem_append.mp member with member | member
      · exact (allowed request member).1.elim
      · exact (Set.ext_iff.mp after.known _).mpr (allowedAfter request member).2
  | @fetched job action f step at_ acted =>
    cases next : step.next with
    | inl g => exact ⟨[], by simp [fetchStepped], nofun⟩
    | inr success => exact ⟨[], by simp [fetchStepped], nofun⟩

end MainThread

namespace RpcThread

variable {pointer : Nat} {t u v : RpcThread}

def closed (t : RpcThread) (id : Int) : Bool :=
  t.calls.any fun
    | .onClose other _ => decide (other = id)
    | .onConnect _ _ => false

def Expects (t : RpcThread) (id : Int) : Prop :=
  (∃ pointer c, t.heap pointer = some c ∧ Registers c (.onRemoteCommandDone id)) ∨
    ∃ request, .request request ∈ t.queue ∧ request.closure? = some (.onRemoteCommandDone id)

/-- What the thread posts between `t` and `u`: first what closures post, where each answer to a `RunCommand` is
    for a slave of `expected`, and then notices of connections that it has closed. -/
structure Reports (expected : Int → Prop) (t : RpcThread) (told shut : List SlaveNotice) (u : RpcThread) :
    Prop where
  posted : u.posted = t.posted ++ (told ++ shut)
  told : ∀ notice ∈ told, ∃ done, notice.closure? = some done ∧
    ∀ id, done = .onRemoteCommandDone id → expected id
  shut : ∀ notice ∈ shut, ∃ id, notice = .onSlaveClose id ∧ u.closed id = true
  expects : ∀ id, u.Expects id → expected id
  closed : ∀ id, t.closed id = true → u.closed id = true

variable {expected : Int → Prop} {told later shut more : List SlaveNotice}

theorem Reports.told_ne_close (reports : Reports expected t told shut u) {notice : SlaveNotice}
    (member : notice ∈ told) (id : Int) : notice ≠ .onSlaveClose id := by
  rintro rfl
  obtain ⟨done, impossible, _⟩ := reports.told _ member
  cases impossible

theorem Reports.shut_success (reports : Reports expected t told shut u) {notice : SlaveNotice}
    (member : notice ∈ shut) : notice.success? = none := by
  obtain ⟨id, rfl, _⟩ := reports.shut notice member
  rfl

theorem Reports.refl (within : ∀ id, t.Expects id → expected id) : Reports expected t [] [] t :=
  ⟨by simp, List.forall_mem_nil _, List.forall_mem_nil _, within, fun _ => id⟩

theorem Reports.then (first : Reports expected t told [] u) (second : Reports expected u later shut v) :
    Reports expected t (told ++ later) shut v := by
  refine ⟨?_, ?_, second.shut, second.expects, fun id h => second.closed id (first.closed id h)⟩
  · simp only [second.posted, first.posted, List.append_nil, List.append_assoc]
  · intro notice member
    exact (List.mem_append.mp member).elim (first.told notice) (second.told notice)

theorem Reports.close (first : Reports expected t told shut u) (second : Reports expected u [] more v) :
    Reports expected t told (shut ++ more) v := by
  refine ⟨?_, first.told, ?_, second.expects, fun id h => second.closed id (first.closed id h)⟩
  · simp only [second.posted, first.posted, List.nil_append, List.append_assoc]
  · intro notice member
    rcases List.mem_append.mp member with member | member
    · obtain ⟨id, same, closed⟩ := first.shut notice member
      exact ⟨id, same, second.closed id closed⟩
    · exact second.shut notice member

theorem expects_store {d : RpcConnection Done} {id : Int}
    (expects : (t.store pointer d).Expects id) :
    t.Expects id ∨ Registers d (.onRemoteCommandDone id) := by
  rcases expects with ⟨other, e, object, registered⟩ | waits
  · by_cases at_ : other = pointer
    · simp only [store, at_, Function.update_self, Option.some.injEq] at object
      exact .inr (object ▸ registered)
    · exact .inl (.inl ⟨other, e, by simpa [store, at_] using object, registered⟩)
  · exact .inl (.inr waits)

theorem Quiet.reports (quiet : Quiet pointer t u) (within : ∀ id, t.Expects id → expected id) :
    ∃ told, Reports expected t told [] u := by
  cases quiet with
  | @updated c d found same closures =>
    refine ⟨[], ?_, List.forall_mem_nil _, List.forall_mem_nil _, ?_, fun _ => id⟩
    · simp [store]
    · intro id expects
      rcases expects_store expects with before | registered
      · exact within id before
      · exact within id (.inl ⟨pointer, c, found, closures _ registered⟩)
  | @posted c done notice found registered answers known =>
    refine ⟨[notice], ?_, ?_, List.forall_mem_nil _, within, fun _ => id⟩
    · simp [post]
    · intro other member
      rw [List.mem_singleton.mp member]
      refine ⟨done, answers, ?_⟩
      rintro id rfl
      exact within id (.inl ⟨pointer, c, found, registered⟩)

theorem Quietly.reports (quietly : Quietly pointer t u) (within : ∀ id, t.Expects id → expected id) :
    ∃ told, Reports expected t told [] u := by
  induction quietly with
  | refl => exact ⟨[], .refl within⟩
  | tail _ quiet ih =>
    obtain ⟨told, first⟩ := ih
    obtain ⟨later, second⟩ := quiet.reports first.expects
    exact ⟨told ++ later, first.then second⟩

theorem closed_append (calls : List ObserverCall) (id : Int) (pointer : Nat)
    (same : u.calls = calls ++ [.onClose id pointer]) : u.closed id = true := by
  simp [RpcThread.closed, same]

theorem MayClose.reports (closing : MayClose pointer t u) (within : ∀ id, t.Expects id → expected id) :
    ∃ shut, Reports expected t [] shut u := by
  cases closing with
  | stays => exact ⟨[], .refl within⟩
  | @closes c _ =>
    refine ⟨[.onSlaveClose c.id], rfl, List.forall_mem_nil _, ?_, ?_, ?_⟩
    · intro notice member
      exact ⟨c.id, List.mem_singleton.mp member, closed_append t.calls c.id pointer rfl⟩
    · intro id expects
      apply within id
      rcases expects with registered | ⟨request, waits, answer⟩
      · exact .inl registered
      · exact .inr ⟨request, by simpa [onClose, observerOnClose, post] using waits, answer⟩
    · intro id before
      simp only [RpcThread.closed, onClose, observerOnClose, List.any_append, Bool.or_eq_true]
      exact .inl before

theorem Called.reports {done : Option Done} (called : Called pointer done t u)
    (within : ∀ id, t.Expects id → expected id)
    (registered : ∀ id, done = some (.onRemoteCommandDone id) → expected id) :
    Reports expected t [] [] u := by
  cases called with
  | @registered c d found same closures =>
    refine ⟨by simp [store], List.forall_mem_nil _, List.forall_mem_nil _, ?_, fun _ => id⟩
    intro id expects
    rcases expects_store expects with before | registers
    · exact within id before
    · rcases closures _ registers with earlier | own
      · exact within id (.inl ⟨pointer, c, found, earlier⟩)
      · exact registered id own

theorem Polled.reports {entries : List (Int × Nat)} (polled : Polled entries t u)
    (within : ∀ id, t.Expects id → expected id) : ∃ shut, Reports expected t [] shut u := by
  induction polled with
  | done => exact ⟨[], .refl within⟩
  | next entry called closing _ ih =>
    have first := called.reports within fun _ impossible => by cases impossible
    obtain ⟨shut, second⟩ := closing.reports first.expects
    obtain ⟨more, rest⟩ := ih second.expects
    exact ⟨shut ++ more, (first.then second).close rest⟩

theorem Effect.reports {event : RpcEvent} (effect : Effect t event u)
    (own : ∀ request, event ≠ .taskPosted request) : ∃ told shut, Reports t.Expects t told shut u := by
  cases effect with
  | @accepted peer reads writes w x y _ reading early steady called closing =>
    have fresh : ∀ id, (t.newConnection peer).Expects id → t.Expects id := by
      rintro id (⟨pointer, c, found, other, registered⟩ | waits)
      · by_cases at_ : pointer = t.nextPointer
        · simp only [newConnection, store, at_, Function.update_self, Option.some.injEq] at found
          simp [← found, RpcConnection.new] at registered
        · exact .inl ⟨pointer, c, by simpa [newConnection, store, at_] using found, other, registered⟩
      · exact .inr waits
    obtain ⟨told, first⟩ := reading.reports fresh
    obtain ⟨shut, second⟩ := early.reports first.expects
    have third : Reports t.Expects x [] [] (x.registerSlave t.lastId t.nextPointer) := by
      refine ⟨by simp [registerSlave], List.forall_mem_nil _, List.forall_mem_nil _, second.expects, ?_⟩
      intro id before
      simp only [RpcThread.closed, registerSlave, List.any_append, Bool.or_eq_true]
      exact .inl before
    have fourth := called.reports third.expects fun _ impossible => by cases impossible
    obtain ⟨more, fifth⟩ := closing.reports fourth.expects
    have all := (((first.then second).close third).close fourth).close fifth
    refine ⟨_, _, ?_, all.told, all.shut, all.expects, all.closed⟩
    exact all.posted
  | readCompleted reading closing =>
    obtain ⟨told, first⟩ := reading.reports fun _ => id
    obtain ⟨shut, second⟩ := closing.reports first.expects
    exact ⟨_, _, first.then second⟩
  | writeCompleted written closing =>
    obtain ⟨told, first⟩ := written.reports fun _ => id
    obtain ⟨shut, second⟩ := closing.reports first.expects
    exact ⟨_, _, first.then second⟩
  | timerFired polled =>
    obtain ⟨shut, reports⟩ := polled.reports fun _ => id
    exact ⟨_, _, reports⟩
  | @requestRun writes request rest pointer done u v head found answer called closing =>
    have within : ∀ id, ({ t with queue := rest } : RpcThread).Expects id → t.Expects id := by
      rintro id (registered | ⟨other, waits, closure⟩)
      · exact .inl registered
      · exact .inr ⟨other, head ▸ List.mem_cons_of_mem _ waits, closure⟩
    have first := called.reports within fun id same =>
      .inr ⟨request, head ▸ List.mem_cons_self, answer ▸ same⟩
    obtain ⟨shut, second⟩ := closing.reports first.expects
    have all := first.then second
    exact ⟨_, _, all.posted, all.told, all.shut, all.expects, all.closed⟩
  | @deleted writes pointer rest head =>
    refine ⟨[], [], by simp, List.forall_mem_nil _, List.forall_mem_nil _, ?_, fun _ => id⟩
    rintro id (⟨other, c, found, registered⟩ | ⟨request, waits, closure⟩)
    · by_cases at_ : other = pointer
      · simp [at_] at found
      · exact .inl ⟨other, c, by simpa [at_] using found, registered⟩
    · exact .inr ⟨request, head ▸ List.mem_cons_of_mem _ waits, closure⟩
  | taskPosted => exact absurd rfl (own _)

end RpcThread

namespace Threads

variable {S : Setting Edge} {s t : Threads S}

/-- No task of the RPC thread runs the closure of a `RunCommand` that succeeded for a connection that had been
    closed before. -/
def answersOpen (pb : Protobuf) (service : SlaveService) (s : Threads S) : ThreadsEvent Edge → Bool
  | .rpc event => (s.rpc.step pb service event).all fun r =>
      r.posted.all fun notice => notice.success?.all fun id => !s.rpc.closed id
  | .main _ => true

/-- Whoever is expected to answer a `RunCommand` is in the table, unless it has been closed; and no notice of
    its end stands before its answer. -/
structure Tracked (s : Threads S) : Prop where
  posted : s.rpc.posted = []
  rpcPosts : s.main.rpcPosts = []
  expected : ∀ id, s.rpc.Expects id → id ∈ s.main.known ∨ s.rpc.closed id = true
  closes : ∀ id, .slave (.onSlaveClose id) ∈ s.main.queue → s.rpc.closed id = true
  answers : ∀ task ∈ s.main.queue, ∀ id, task.success? = some id → id ∈ s.main.known
  ordered : s.main.queue.Pairwise fun earlier later =>
    ∀ id, later.success? = some id → earlier ≠ .slave (.onSlaveClose id)

theorem new_tracked : (new S).Tracked := by
  refine ⟨rfl, rfl, ?_, fun _ member => absurd member List.not_mem_nil, List.forall_mem_nil _, .nil⟩
  rintro id (⟨pointer, c, found, _⟩ | ⟨request, waits, _⟩)
  · cases found
  · cases waits

variable {pb : Protobuf} {service : SlaveService}

theorem Tracked.fresh (tracked : s.Tracked) {event : RpcEvent} {r : RpcThread} {told shut : List SlaveNotice}
    (open_ : s.answersOpen pb service (.rpc event) = true) (stepped : s.rpc.step pb service event = some r)
    (reports : RpcThread.Reports s.rpc.Expects s.rpc told shut r) {notice : SlaveNotice}
    (member : notice ∈ told ++ shut) {id : Int} (success : notice.success? = some id) :
    id ∈ s.main.known ∧ s.rpc.closed id = false := by
  have unclosed : s.rpc.closed id = false := by
    rw [answersOpen, stepped, Option.all_some, List.all_eq_true] at open_
    have spared := open_ notice (by rw [reports.posted]; exact List.mem_append_right _ member)
    rw [success, Option.all_some] at spared
    simpa using spared
  rcases List.mem_append.mp member with member | member
  · obtain ⟨done, same, wanted⟩ := reports.told notice member
    have closure := same.symm.trans (SlaveNotice.closure_of_success success)
    have known := tracked.expected id (wanted id (Option.some.inj closure))
    rw [unclosed] at known
    exact ⟨known.resolve_right nofun, unclosed⟩
  · rw [reports.shut_success member] at success
    cases success

theorem Tracked.rpcStep (tracked : s.Tracked) {event : RpcEvent} {r : RpcThread}
    (own : ∀ request, event ≠ .taskPosted request) (open_ : s.answersOpen pb service (.rpc event) = true)
    (stepped : s.rpc.step pb service event = some r) : (rpcRan s.main r).Tracked := by
  obtain ⟨told, shut, reports⟩ := (RpcThread.step_effect stepped).reports own
  have posted : r.posted = told ++ shut := by
    rw [reports.posted, tracked.posted, List.nil_append]
  refine ⟨rfl, tracked.rpcPosts, ?_, ?_, ?_, ?_⟩
  · intro id expects
    exact (tracked.expected id (reports.expects id expects)).imp_right (reports.closed id)
  · intro id member
    rcases List.mem_append.mp member with member | member
    · exact reports.closed id (tracked.closes id member)
    · rw [posted] at member
      obtain ⟨notice, listed, same⟩ := List.mem_map.mp member
      cases same
      rcases List.mem_append.mp listed with listed | listed
      · exact absurd rfl (reports.told_ne_close listed id)
      · obtain ⟨other, same, closed⟩ := reports.shut _ listed
        cases same
        exact closed
  · intro task member id success
    rcases List.mem_append.mp member with member | member
    · exact tracked.answers task member id success
    · rw [posted] at member
      obtain ⟨notice, listed, rfl⟩ := List.mem_map.mp member
      exact (tracked.fresh open_ stepped reports listed success).1
  · change (s.main.queue ++ r.posted.map MainTask.slave).Pairwise _
    rw [posted, List.map_append, ← List.append_assoc]
    apply MainTask.ordered_append
    · apply List.pairwise_append.mpr ⟨tracked.ordered, _, _⟩
      · rw [List.pairwise_map]
        apply List.pairwise_of_forall_mem_list
        intro earlier before _ _ id _ same
        cases same
        exact reports.told_ne_close before id rfl
      · intro earlier before later member id success same
        obtain ⟨notice, listed, rfl⟩ := List.mem_map.mp member
        have unclosed := (tracked.fresh open_ stepped reports (List.mem_append_left _ listed) success).2
        rw [tracked.closes id (same ▸ before)] at unclosed
        cases unclosed
    · intro task member
      obtain ⟨notice, listed, rfl⟩ := List.mem_map.mp member
      exact reports.shut_success listed

theorem Tracked.mainStep (tracked : s.Tracked) {event : MainEvent Edge} {m : MainThread S}
    (own : ∀ notice, event ≠ .noticePosted notice) (stepped : s.main.step event = some m) :
    (mainRan s.rpc m).Tracked := by
  have effect := MainThread.step_effect stepped
  obtain ⟨more, queue, owns⟩ := effect.tasks own
  obtain ⟨new, posts, starts⟩ := effect.starts
  rw [tracked.rpcPosts, List.nil_append] at posts
  have kept := s.main.waiting_sublist event
  have known := MainThread.step_known stepped fun task id taken success =>
    tracked.answers task (MainThread.handled_mem taken) id success
  have stays : ∀ id ∈ s.main.known, s.main.handled event ≠ some (.slave (.onSlaveClose id)) → id ∈ m.known := by
    intro id member other
    rw [known]
    cases taken : s.main.handled event with
    | none => exact member
    | some task => exact Setting.mem_liveAfter member fun same => other (taken.trans (congrArg some same))
  have slaves : ∀ notice, .slave notice ∈ m.queue → .slave notice ∈ s.main.waiting event := by
    intro notice member
    rw [queue] at member
    exact (List.mem_append.mp member).resolve_right fun listed => owns _ listed notice rfl
  have before : ∀ id, s.rpc.Expects id → id ∈ m.known ∨ s.rpc.closed id = true := by
    intro id expects
    by_cases ends : s.main.handled event = some (.slave (.onSlaveClose id))
    · exact .inr (tracked.closes id (MainThread.handled_mem ends))
    · exact (tracked.expected id expects).imp_left fun member => stays id member ends
  refine ⟨tracked.posted, rfl, ?_, ?_, ?_, ?_⟩
  · rintro id (registered | ⟨request, waits, closure⟩)
    · exact before id (.inl registered)
    · rcases List.mem_append.mp waits with waits | waits
      · exact before id (.inr ⟨request, waits, closure⟩)
      · obtain ⟨posted, listed, same⟩ := List.mem_map.mp waits
        cases same
        have started := starts request (posts ▸ listed) _ closure
        cases request with
        | startCommandRemotely =>
          cases closure
          exact .inl started
        | quitSlave => cases closure
  · intro id member
    exact tracked.closes id (kept.subset (slaves _ member))
  · intro task member id success
    cases task with
    | slave notice =>
      have waits := slaves notice member
      apply stays id (tracked.answers _ (kept.subset waits) id success)
      intro ends
      exact MainThread.handled_waiting tracked.ordered ends waits id success rfl
    | startBuild | onFetchTargetsDone | runCommand | quit => cases success
  · change m.queue.Pairwise _
    rw [queue]
    exact MainTask.ordered_append (tracked.ordered.sublist kept) owns.success

theorem Tracked.step (tracked : s.Tracked) {event : ThreadsEvent Edge}
    (open_ : s.answersOpen pb service event = true) (stepped : s.step pb service event = some t) :
    t.Tracked := by
  unfold Threads.step at stepped
  split at stepped
  · cases stepped
  · rename_i event own
    obtain ⟨r, ran, rfl⟩ := Option.map_eq_some_iff.mp stepped
    exact tracked.rpcStep (fun request same => own request same) open_ ran
  · cases stepped
  · rename_i event own
    obtain ⟨m, ran, rfl⟩ := Option.map_eq_some_iff.mp stepped
    exact tracked.mainStep (fun notice same => own notice same) ran

def handled (s : Threads S) : ThreadsEvent Edge → Option (MainTask Edge)
  | .rpc _ => none
  | .main event => s.main.handled event

end Threads

/-- The threads of the master beside the slaves that its table is meant to hold. -/
structure Witnessed (S : Setting Edge) where
  threads : Threads S
  live : Set Int

namespace Witnessed

variable {S : Setting Edge} {w x : Witnessed S} (pb : Protobuf) (service : SlaveService)

def new (S : Setting Edge) : Witnessed S := ⟨.new S, ∅⟩

def step (w : Witnessed S) (event : ThreadsEvent Edge) : Option (Witnessed S) :=
  (w.threads.step pb service event).map fun t => ⟨t, (w.threads.handled event).elim w.live (S.liveAfter w.live)⟩

/-- Every key of the table is a slave that was accepted and has not been closed since, and a successful
    `OnRemoteCommandDone` that MAIN comes to finds its connection there. -/
structure OnlyLive (w : Witnessed S) : Prop where
  live : ∀ id, w.threads.main.slaveInfoIdMap.contains id = true → id ∈ w.live
  found : ∀ id edgeId output md5s rest,
    w.threads.main.queue = .slave (.onRemoteCommandDone id edgeId .success output md5s) :: rest →
      w.threads.main.slaveInfoIdMap.contains id = true

theorem run_threads (events : List (ThreadsEvent Edge)) (w : Witnessed S) :
    (run (step pb service) w events).map Witnessed.threads = run (Threads.step pb service) w.threads events := by
  induction events generalizing w with
  | nil => rfl
  | cons event events ih =>
    simp only [run, step, Option.bind_map]
    cases w.threads.step pb service event with
    | none => rfl
    | some t => exact ih ⟨t, _⟩

variable {pb service}

structure Exact (w : Witnessed S) : Prop where
  tracked : w.threads.Tracked
  known : w.threads.main.known = w.live

theorem new_exact : (new S).Exact := by
  refine ⟨Threads.new_tracked, ?_⟩
  ext id
  constructor
  · exact nofun
  · exact False.elim

theorem Exact.step (exact_ : w.Exact) {event : ThreadsEvent Edge}
    (open_ : w.threads.answersOpen pb service event = true) (stepped : w.step pb service event = some x) :
    x.Exact := by
  obtain ⟨t, ran, rfl⟩ := Option.map_eq_some_iff.mp stepped
  refine ⟨exact_.tracked.step open_ ran, ?_⟩
  unfold Threads.step at ran
  split at ran
  · cases ran
  · obtain ⟨r, _, rfl⟩ := Option.map_eq_some_iff.mp ran
    exact exact_.known
  · cases ran
  · rename_i event own
    obtain ⟨m, moved, rfl⟩ := Option.map_eq_some_iff.mp ran
    have known := MainThread.step_known moved fun task id taken success =>
      exact_.tracked.answers task (MainThread.handled_mem taken) id success
    rw [exact_.known] at known
    exact known

/-- In every run in which no connection answers a `RunCommand` with success after it was closed, the table
    holds live slaves only. -/
theorem table_only_live (pb : Protobuf) (service : SlaveService) (events : List (ThreadsEvent Edge))
    (open_ : Along (step pb service) (fun w event => w.threads.answersOpen pb service event = true) (new S)
      events)
    (replay : run (step pb service) (new S) events = some w) : w.OnlyLive := by
  have exact_ : w.Exact :=
    run_invariant_along (fun _ _ _ exact_ open_ stepped => exact_.step open_ stepped) new_exact open_ replay
  constructor
  · intro id member
    exact exact_.known ▸ member
  · intro id edgeId output md5s rest head
    exact exact_.tracked.answers _ (head ▸ List.mem_cons_self) id rfl

open MainThread (objects fourthObject working)
open Threads (systemInfoFrame)

def answerFrame : List UInt8 :=
  wireFormat.frame ⟨1, .response, [], [], none,
    some (0x18 :: writeVarint 4 (MainThread.hashEdge objects fourthObject).toNat ++ writeText 0x22 "d3")⟩

def commandSent (sent : Int) : List (ThreadsEvent (Fin 5)) :=
  [.rpc (.accepted "10.0.0.2" [] [49]), .rpc (.readCompleted 0 (.data systemInfoFrame) []),
    .main (.taskRun working), .main .startPosted, .main (.taskRun working), .rpc (.taskRun [sent])]

def answered : List (ThreadsEvent (Fin 5)) :=
  commandSent 1000 ++ [.rpc (.readCompleted 0 (.data answerFrame) []), .main (.taskRun working)]

theorem table_only_live_answered :
    ∃ w, run (step wireFormat slaveServices) (new objects) answered = some w ∧ w.OnlyLive := by
  have open_ : Along (step wireFormat slaveServices)
      (fun w event => w.threads.answersOpen wireFormat slaveServices event = true) (new objects) answered := by
    decide +kernel
  have survives : (run (step wireFormat slaveServices) (new objects) answered).isSome := by decide +kernel
  obtain ⟨w, replay⟩ := Option.isSome_iff_exists.mp survives
  exact ⟨w, replay, table_only_live wireFormat slaveServices answered open_ replay⟩

/-- The write of the command is still pending when it fails, and the answer is read before the connection is
    deleted. -/
def answeredAfterClose : List (ThreadsEvent (Fin 5)) :=
  commandSent errIoPending ++ [.rpc (.writeCompleted 0 (-104) []),
    .rpc (.readCompleted 0 (.data answerFrame) []), .main (.taskRun working)]

/-- `OnRemoteCommandDone` comes after `OnSlaveClose`: its lookup makes an entry for the slave that is gone. -/
theorem late_answer_finds_no_slave :
    ¬ ∀ (events : List (ThreadsEvent (Fin 5))) (w : Witnessed objects),
      run (step wireFormat slaveServices) (new objects) events = some w → w.OnlyLive := by
  intro always
  have late : (run (step wireFormat slaveServices) (new objects) answeredAfterClose).map (fun w =>
      (w.threads.main.queue.head?.bind MainTask.success?, w.threads.main.slaveInfoIdMap.contains 0)) =
        some (some 0, false) := by
    decide +kernel
  obtain ⟨w, replay, shape⟩ := Option.map_eq_some_iff.mp late
  obtain ⟨success, absent⟩ := Prod.mk.inj shape
  obtain ⟨task, first, success⟩ := Option.bind_eq_some_iff.mp success
  obtain ⟨rest, head⟩ := List.head?_eq_some_iff.mp first
  obtain ⟨edgeId, output, md5s, rfl⟩ := MainTask.eq_of_success success
  have found := (always _ w replay).found 0 edgeId output md5s rest head
  rw [absent] at found
  cases found

end Witnessed

end DistributedNinja.Master
