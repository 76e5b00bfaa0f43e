import DistributedNinja.Master.Completion
import DistributedNinja.Master.RpcEffects

namespace DistributedNinja.Master

open Lib Rpc Proto Common Ninja

variable {Edge : Type}

/-- Both threads of the master. What one posts to the other goes to the end of the other's queue. -/
structure Threads [DecidableEq Edge] (S : Setting Edge) where
  rpc : RpcThread
  main : MainThread S

inductive ThreadsEvent (Edge : Type) where
  | rpc (event : RpcEvent)
  | main (event : MainEvent Edge)

/-- MAIN hears of every connection that `connections_` has lost: `OnSlaveClose` is in its queue for each such
    slave that it knows, and behind each system information that it has still to handle. -/
structure Announced (connections : OrderedMap Int Nat) (slaves : OrderedMap Int SlaveInfo)
    (queue : List (MainTask Edge)) : Prop where
  known : ∀ id, slaves.contains id = true → connections.contains id = false →
    .slave (.onSlaveClose id) ∈ queue
  ordered : ∀ id info, connections.contains id = false →
    Followed (.slave (.onSlaveSystemInfoAvailable id info)) (.slave (.onSlaveClose id)) queue

namespace Announced

variable {connections other : OrderedMap Int Nat} {slaves fewer : OrderedMap Int SlaveInfo}
  {queue more : List (MainTask Edge)}

theorem of_subset (announced : Announced connections slaves queue)
    (kept : ∀ id, connections.contains id = true → other.contains id = true)
    (subset : ∀ id, fewer.contains id = true → slaves.contains id = true) :
    Announced other fewer queue := by
  have lost : ∀ id, other.contains id = false → connections.contains id = false := by
    intro id absent
    by_contra present
    rw [kept id (by simpa using present)] at absent
    cases absent
  constructor
  · intro id slave absent
    exact announced.known id (subset id slave) (lost id absent)
  · intro id info absent
    exact announced.ordered id info (lost id absent)

theorem append (announced : Announced connections slaves queue)
    (fresh : ∀ id info, .slave (.onSlaveSystemInfoAvailable id info) ∈ more → connections.contains id = true) :
    Announced connections slaves (queue ++ more) := by
  constructor
  · intro id slave absent
    exact List.mem_append_left _ (announced.known id slave absent)
  · intro id info absent
    apply (announced.ordered id info absent).append
    intro member
    rw [fresh id info member] at absent
    cases absent

theorem close (announced : Announced connections slaves queue) (closed : Int) :
    Announced (connections.erase closed) slaves (queue ++ [.slave (.onSlaveClose closed)]) := by
  have before : ∀ id, id ≠ closed → (connections.erase closed).contains id = false →
      connections.contains id = false := by
    intro id different absent
    simpa [OrderedMap.contains, different] using absent
  constructor
  · intro id slave absent
    by_cases same : id = closed
    · simp [same]
    · exact List.mem_append_left _ (announced.known id slave (before id same absent))
  · intro id info absent
    by_cases same : id = closed
    · rw [same]
      exact followed_concat (by simp) _
    · apply (announced.ordered id info (before id same absent)).append
      simp

theorem tail {task : MainTask Edge} {rest : List (MainTask Edge)}
    (announced : Announced connections slaves (task :: rest))
    (remembers : MainThread.Remembers slaves task fewer) : Announced connections fewer rest := by
  constructor
  · intro id slave absent
    rcases remembers id slave with ⟨slave, different⟩ | ⟨info, rfl⟩
    · rcases List.mem_cons.mp (announced.known id slave absent) with same | later
      · exact absurd same.symm different
      · exact later
    · exact announced.ordered id info absent [] rest rfl
  · intro id info absent
    exact (announced.ordered id info absent).tail

end Announced

namespace RpcThread

variable {slaves : OrderedMap Int SlaveInfo} {tasks : List (MainTask Edge)} {pointer : Nat} {t u : RpcThread}

abbrev Announces (slaves : OrderedMap Int SlaveInfo) (tasks : List (MainTask Edge)) (t : RpcThread) : Prop :=
  Announced t.connections slaves (tasks ++ t.posted.map .slave)

theorem Quiet.announces (quiet : Quiet pointer t u) (announced : t.Announces slaves tasks) :
    u.Announces slaves tasks := by
  cases quiet with
  | updated found same closures => exact announced
  | @posted c done notice found registered answers known =>
    simp only [Announces, post, List.map_append, ← List.append_assoc]
    apply announced.append
    intro id info member
    simp only [List.map_cons, List.map_nil, List.mem_singleton, MainTask.slave.injEq] at member
    exact known id info member.symm

theorem Quietly.announces (quietly : Quietly pointer t u) (announced : t.Announces slaves tasks) :
    u.Announces slaves tasks := by
  induction quietly with
  | refl => exact announced
  | tail _ quiet ih => exact quiet.announces ih

theorem MayClose.announces (closing : MayClose pointer t u) (announced : t.Announces slaves tasks) :
    u.Announces slaves tasks := by
  cases closing with
  | stays => exact announced
  | @closes c found =>
    simp only [Announces, onClose, observerOnClose, post, List.map_append, ← List.append_assoc]
    exact announced.close c.id

theorem Called.announces {done : Option Done} (called : Called pointer done t u)
    (announced : t.Announces slaves tasks) : u.Announces slaves tasks := by
  cases called with
  | registered found same closures => exact announced

theorem Polled.announces {entries : List (Int × Nat)} (polled : Polled entries t u)
    (announced : t.Announces slaves tasks) : u.Announces slaves tasks := by
  induction polled with
  | done => exact announced
  | next entry called closing _ ih => exact ih (closing.announces (called.announces announced))

theorem registerSlave_announces (announced : t.Announces slaves tasks) (id : Int) (pointer : Nat) :
    (t.registerSlave id pointer).Announces slaves tasks := by
  apply announced.of_subset _ fun _ slave => slave
  intro other contained
  by_cases same : other = id
  · simp [registerSlave, OrderedMap.contains, same]
  · simpa [registerSlave, OrderedMap.contains, same] using contained

theorem Effect.announces {event : RpcEvent} (effect : Effect t event u)
    (announced : t.Announces slaves tasks) : u.Announces slaves tasks := by
  cases effect with
  | accepted reading early steady called closing =>
    have read := early.announces (reading.announces announced)
    exact closing.announces (called.announces (registerSlave_announces read _ _))
  | readCompleted reading closing => exact closing.announces (reading.announces announced)
  | writeCompleted written closing => exact closing.announces (written.announces announced)
  | timerFired polled => exact polled.announces announced
  | requestRun head found answer called closing => exact closing.announces (called.announces announced)
  | deleted head => exact announced
  | taskPosted => exact announced

def waiting (t : RpcThread) : RpcEvent → List RpcTask
  | .taskRun _ => t.queue.tail
  | _ => t.queue

theorem Quietly.queue (quietly : Quietly pointer t u) : u.queue = t.queue := by
  induction quietly with
  | refl => rfl
  | tail _ quiet ih =>
    rw [← ih]
    cases quiet <;> rfl

theorem Called.queue {done : Option Done} (called : Called pointer done t u) : u.queue = t.queue := by
  cases called
  rfl

theorem MayClose.requests (closing : MayClose pointer t u) {request : RpcRequest}
    (member : .request request ∈ u.queue) : .request request ∈ t.queue := by
  cases closing with
  | stays => exact member
  | closes found => simpa [onClose, observerOnClose, post] using member

theorem Polled.requests {entries : List (Int × Nat)} (polled : Polled entries t u) {request : RpcRequest}
    (member : .request request ∈ u.queue) : .request request ∈ t.queue := by
  induction polled with
  | done => exact member
  | next entry called closing _ ih => exact called.queue ▸ closing.requests (ih member)

theorem Effect.requests {event : RpcEvent} (effect : Effect t event u)
    (own : ∀ request, event ≠ .taskPosted request) {request : RpcRequest}
    (member : .request request ∈ u.queue) : .request request ∈ t.waiting event := by
  cases effect with
  | accepted reading early steady called closing =>
    have before := called.queue ▸ closing.requests member
    have read := early.requests before
    rw [reading.queue] at read
    exact read
  | readCompleted reading closing =>
    have before := closing.requests member
    rw [reading.queue] at before
    exact before
  | writeCompleted written closing =>
    have before := closing.requests member
    rw [Quietly.queue (.single written)] at before
    exact before
  | timerFired polled => exact polled.requests member
  | requestRun head found answer called closing =>
    have before := called.queue ▸ closing.requests member
    rw [waiting, head]
    exact before
  | deleted head =>
    rw [waiting, head]
    exact member
  | taskPosted => exact absurd rfl (own _)

def drops (pb : Protobuf) (service : SlaveService) (t : RpcThread) (event : RpcEvent) (id : Int) : Bool :=
  (t.step pb service event).any fun u => t.connections.contains id && !u.connections.contains id

end RpcThread

namespace MainThread

variable [DecidableEq Edge] {S : Setting Edge} {m n : MainThread S} {event : MainEvent Edge}
  {connections : OrderedMap Int Nat}

theorem Frame.announced {via : Int → Prop} (frame : Frame via m n)
    (announced : Announced connections m.slaveInfoIdMap m.queue) :
    Announced connections n.slaveInfoIdMap n.queue := by
  obtain ⟨count, queue⟩ := frame.queue
  rw [frame.slaves, queue]
  apply announced.append
  intro id info member
  cases List.eq_of_mem_replicate member

def answersKnown (m : MainThread S) : MainEvent Edge → Bool
  | .taskRun _ =>
    match m.queue with
    | .slave (.onRemoteCommandDone id _ .success _ _) :: _ => m.slaveInfoIdMap.contains id
    | _ => true
  | _ => true

theorem Effect.announced (effect : Effect m event n) (own : ∀ notice, event ≠ .noticePosted notice)
    (known : m.answersKnown event = true)
    (announced : Announced connections m.slaveInfoIdMap m.queue) :
    Announced connections n.slaveInfoIdMap n.queue := by
  have same : ∀ {task : MainTask Edge}, (∀ id, task ≠ .slave (.onSlaveClose id)) →
      Remembers m.slaveInfoIdMap task m.slaveInfoIdMap := by
    intro task other id contained
    exact .inl ⟨contained, other id⟩
  cases effect with
  | posted outside =>
    apply announced.append
    intro id info member
    rcases outside with ⟨_, rfl⟩ | ⟨notice, posted, _⟩
    · simp at member
    · exact absurd posted (own notice)
  | noted slaves quit head remembers =>
    rw [head] at announced
    exact announced.tail remembers
  | rejected head =>
    rw [head] at announced
    exact announced.tail (same (by simp))
  | began slaves head remembers idle started =>
    obtain ⟨plan, runner, _, moves⟩ := startBuild_moves (by exact idle) started
    rw [head] at announced
    exact moves.frame.announced (announced.tail remembers)
  | @remoteDone env id edgeId status output md5s rest _ head done =>
    have asked := (asked_moves env.disk { m with queue := rest } id).frame
    rw [head] at announced
    have after := asked.announced (announced.tail (same (by simp)))
    obtain ⟨_, rfl | ⟨fetch, info, rfl, _, _, _, rfl⟩⟩ := onRemoteCommandDone_cases done
    · exact after
    · apply after.of_subset fun _ contained => contained
      intro other contained
      by_cases at_ : other = id
      · rw [at_, asked.slaves]
        simpa [answersKnown, head] using known
      · simpa [fetchPosted, OrderedMap.contains, at_] using contained
  | fetchDone head listed finished =>
    rw [head] at announced
    exact (finishCommand_finish (fun _ => False) finished).2.announced (announced.tail (same (by simp)))
  | ran head =>
    rw [head] at announced
    exact announced.tail (same (by simp))
  | @exited pid status output env p edge ok k found mapped finished =>
    have finish := (finishCommand_finish (fun _ => False) finished).2.announced announced
    have after := (afterFinish_moves env.disk k).frame.announced finish
    apply after.append
    intro id info member
    obtain ⟨_, _, impossible⟩ := List.mem_map.mp member
    cases impossible
  | @fetched job action f step at_ acted =>
    cases next : step.next with
    | inl g => exact announced
    | inr success =>
      apply announced.append
      intro id info member
      split at member <;> simp at member

theorem Effect.posts (effect : Effect m event n) :
    ∃ new, n.rpcPosts = m.rpcPosts ++ new ∧ ∀ request ∈ new,
      m.slaveInfoIdMap.contains request.connectionId = true ∨ ∃ info rest,
        m.queue = .slave (.onSlaveSystemInfoAvailable request.connectionId info) :: rest := by
  cases effect with
  | posted outside => exact ⟨[], by simp, nofun⟩
  | noted slaves quit head remembers => exact ⟨[], by simp, nofun⟩
  | rejected head =>
    refine ⟨_, rfl, ?_⟩
    intro request member
    rw [List.mem_singleton.mp member]
    exact .inr ⟨_, _, head⟩
  | began slaves head remembers idle started =>
    obtain ⟨plan, runner, _, moves⟩ := startBuild_moves (by exact idle) started
    obtain ⟨new, posts, allowed⟩ := moves.frame.posts
    refine ⟨new, posts, ?_⟩
    intro request member
    rcases remembers _ (allowed request member).2 with ⟨slave, _⟩ | ⟨info, rfl⟩
    · exact .inl slave
    · exact .inr ⟨info, _, head⟩
  | @remoteDone env id edgeId status output md5s rest _ head done =>
    obtain ⟨new, posts, allowed⟩ := (asked_moves env.disk { m with queue := rest } id).frame.posts
    have fine : ∀ request ∈ new, m.slaveInfoIdMap.contains request.connectionId = true ∨ ∃ info rest,
        m.queue = .slave (.onSlaveSystemInfoAvailable request.connectionId info) :: rest :=
      fun request member => .inl (allowed request member).2
    obtain ⟨_, rfl | ⟨fetch, info, _, _, _, _, rfl⟩⟩ := onRemoteCommandDone_cases done
    · exact ⟨new, posts, fine⟩
    · exact ⟨new, posts, fine⟩
  | fetchDone head listed finished =>
    obtain ⟨new, posts, allowed⟩ := (finishCommand_finish (fun _ => False) finished).2.posts
    exact ⟨new, posts, fun request member => .inl (allowed request member).2⟩
  | ran head => exact ⟨[], by simp, nofun⟩
  | @exited pid status output env p edge ok k found mapped finished =>
    have finish := (finishCommand_finish (fun _ => True) finished).2
    obtain ⟨new, posts, allowed⟩ := finish.posts
    obtain ⟨newer, postsAfter, allowedAfter⟩ := (afterFinish_moves env.disk k).frame.posts
    refine ⟨new ++ newer, ?_, ?_⟩
    · rw [← List.append_assoc, ← posts]
      exact postsAfter
    · intro request member
      rcases List.mem_append.mp member with member | member
      · exact .inl (allowed request member).2
      · exact .inl (finish.slaves ▸ (allowedAfter request member).2)
  | @fetched job action f step at_ acted =>
    cases next : step.next with
    | inl g => exact ⟨[], by simp [fetchStepped], nofun⟩
    | inr success => exact ⟨[], by simp [fetchStepped], nofun⟩

end MainThread

namespace Threads

variable [DecidableEq Edge] {S : Setting Edge} {s t : Threads S}

def new (S : Setting Edge) : Threads S := ⟨.new, .new S⟩

def rpcRan (m : MainThread S) (r : RpcThread) : Threads S :=
  ⟨{ r with posted := [] }, { m with queue := m.queue ++ r.posted.map .slave }⟩

def mainRan (r : RpcThread) (m : MainThread S) : Threads S :=
  ⟨{ r with queue := r.queue ++ m.rpcPosts.map .request }, { m with rpcPosts := [] }⟩

variable (pb : Protobuf) (service : SlaveService)

/-- A task of either thread. Requests and notices come from the threads themselves and not from outside. -/
def step (s : Threads S) : ThreadsEvent Edge → Option (Threads S)
  | .rpc (.taskPosted _) => none
  | .rpc event => (s.rpc.step pb service event).map (rpcRan s.main)
  | .main (.noticePosted _) => none
  | .main event => (s.main.step event).map (mainRan s.rpc)

/-- The RPC thread drops no connection while a request for it waits. MAIN posts no request for a connection
    whose `OnSlaveClose` waits, and fetches only from slaves that it knows. -/
def timely (s : Threads S) : ThreadsEvent Edge → Bool
  | .rpc event => (s.rpc.waiting event).all fun
    | .request request => !s.rpc.drops pb service event request.connectionId
    | .deleteSoon _ => true
  | .main event =>
    s.main.answersKnown event && (s.main.step event).all fun m =>
      m.rpcPosts.all fun request => s.main.queue.all fun
        | .slave (.onSlaveClose id) => decide (id ≠ request.connectionId)
        | _ => true

structure Registered (s : Threads S) : Prop where
  announced : Announced s.rpc.connections s.main.slaveInfoIdMap s.main.queue
  posted : s.rpc.posted = []
  rpcPosts : s.main.rpcPosts = []
  requests : ∀ request, .request request ∈ s.rpc.queue →
    s.rpc.connections.contains request.connectionId = true

theorem new_registered : (new S).Registered := by
  refine ⟨⟨nofun, ?_⟩, rfl, rfl, nofun⟩
  intro id info absent before after shape
  simp [new, MainThread.new] at shape

variable {pb service}

theorem Registered.rpcStep (registered : s.Registered) {event : RpcEvent} {r : RpcThread}
    (own : ∀ request, event ≠ .taskPosted request) (timely : s.timely pb service (.rpc event) = true)
    (stepped : s.rpc.step pb service event = some r) : (rpcRan s.main r).Registered := by
  have effect := RpcThread.step_effect stepped
  have before : s.rpc.Announces s.main.slaveInfoIdMap s.main.queue := by
    simpa [RpcThread.Announces, registered.posted] using registered.announced
  refine ⟨effect.announces before, rfl, registered.rpcPosts, ?_⟩
  intro request member
  have waits := effect.requests own member
  have kept : s.rpc.connections.contains request.connectionId = true := by
    apply registered.requests request
    cases event with
    | taskRun writes => exact List.mem_of_mem_tail waits
    | accepted | readCompleted | writeCompleted | timerFired | taskPosted => exact waits
  have stays := List.all_eq_true.mp timely _ waits
  change r.connections.contains request.connectionId = true
  simpa [RpcThread.drops, stepped, kept] using stays

theorem Registered.mainStep (registered : s.Registered) {event : MainEvent Edge} {m : MainThread S}
    (own : ∀ notice, event ≠ .noticePosted notice) (timely : s.timely pb service (.main event) = true)
    (stepped : s.main.step event = some m) : (mainRan s.rpc m).Registered := by
  have effect := MainThread.step_effect stepped
  rw [Threads.timely, Bool.and_eq_true, stepped, Option.all_some] at timely
  obtain ⟨known, unannounced⟩ := timely
  refine ⟨effect.announced own known registered.announced, registered.posted, rfl, ?_⟩
  intro request member
  rcases List.mem_append.mp member with member | member
  · exact registered.requests request member
  · obtain ⟨posted, listed, same⟩ := List.mem_map.mp member
    cases same
    obtain ⟨new, posts, addressed⟩ := effect.posts
    rw [registered.rpcPosts, List.nil_append] at posts
    have open_ : .slave (.onSlaveClose request.connectionId) ∉ s.main.queue := by
      intro closed
      have spared := List.all_eq_true.mp (List.all_eq_true.mp unannounced request listed) _ closed
      simp at spared
    change s.rpc.connections.contains request.connectionId = true
    by_contra lost
    have absent : s.rpc.connections.contains request.connectionId = false := by simpa using lost
    rcases addressed request (posts ▸ listed) with slave | ⟨info, rest, head⟩
    · exact open_ (registered.announced.known _ slave absent)
    · have closed := registered.announced.ordered _ info absent [] rest head
      exact open_ (head ▸ List.mem_cons_of_mem _ closed)

theorem Registered.step (registered : s.Registered) {event : ThreadsEvent Edge}
    (timely : s.timely pb service event = true) (stepped : s.step pb service event = some t) :
    t.Registered := by
  unfold Threads.step at stepped
  split at stepped
  · cases stepped
  · rename_i event own
    obtain ⟨r, ran, rfl⟩ := Option.map_eq_some_iff.mp stepped
    exact registered.rpcStep (fun request same => own request same) timely ran
  · cases stepped
  · rename_i event own
    obtain ⟨m, ran, rfl⟩ := Option.map_eq_some_iff.mp stepped
    exact registered.mainStep (fun notice same => own notice same) timely ran

/-- The request that the RPC thread runs next is for a connection in `connections_`. -/
def AddressesRegistered (s : Threads S) : Prop :=
  ∀ request rest, s.rpc.queue = .request request :: rest →
    s.rpc.connections.contains request.connectionId = true

/-- In every run in which slaves disconnect at no bad time, `StartCommandRemotely` and `QuitSlave` find their
    connection. -/
theorem requests_find_connection (pb : Protobuf) (service : SlaveService) (events : List (ThreadsEvent Edge))
    (timely : Along (step pb service) (fun s event => s.timely pb service event = true) (new S) events)
    (replay : run (step pb service) (new S) events = some s) : s.AddressesRegistered := by
  have registered : s.Registered := run_invariant_along
    (fun _ _ _ registered timely stepped => registered.step timely stepped) new_registered timely replay
  intro request rest head
  exact registered.requests request (head ▸ List.mem_cons_self)

open MainThread (objects working)

def systemInfoFrame : List UInt8 :=
  wireFormat.frame ⟨0, .response, [], [], none,
    some ([0x08, 1] ++ writeText 0x22 "Linux" ++ writeText 0x32 "x86_64")⟩

/-- A slave joins and the build starts, with a command for the slave. -/
def firstCommand : List (ThreadsEvent (Fin 5)) :=
  [.rpc (.accepted "10.0.0.2" [] [errIoPending]), .rpc (.readCompleted 0 (.data systemInfoFrame) []),
    .main (.taskRun working), .main .startPosted, .main (.taskRun working)]

theorem requests_find_connection_firstCommand :
    ∃ s, run (step wireFormat slaveServices) (new objects) firstCommand = some s ∧ s.rpc.queue.length = 1 ∧
      s.AddressesRegistered := by
  have timely : Along (step wireFormat slaveServices)
      (fun s event => s.timely wireFormat slaveServices event = true) (new objects) firstCommand := by
    decide +kernel
  have waits : (run (step wireFormat slaveServices) (new objects) firstCommand).map
      (fun s => s.rpc.queue.length) = some 1 := by
    decide +kernel
  obtain ⟨s, replay, one⟩ := Option.map_eq_some_iff.mp waits
  exact ⟨s, replay, one, requests_find_connection wireFormat slaveServices firstCommand timely replay⟩

/-- The slave disconnects while `StartCommandRemotely` waits in the queue of the RPC thread. -/
theorem disconnect_before_first_command :
    ¬ ∀ (events : List (ThreadsEvent (Fin 5))) (s : Threads objects),
      run (step wireFormat slaveServices) (new objects) events = some s → s.AddressesRegistered := by
  intro always
  have lost : (run (step wireFormat slaveServices) (new objects)
      (firstCommand ++ [.rpc (.readCompleted 0 (.ended 0) [])])).map (fun s =>
        (s.rpc.queue.head?.bind fun
          | .request request => some request.connectionId
          | .deleteSoon _ => none, s.rpc.connections.contains 0)) = some (some 0, false) := by
    decide +kernel
  obtain ⟨s, replay, shape⟩ := Option.map_eq_some_iff.mp lost
  obtain ⟨first, gone⟩ := Prod.mk.inj shape
  obtain ⟨task, head, addressed⟩ := Option.bind_eq_some_iff.mp first
  obtain ⟨rest, queue⟩ := List.head?_eq_some_iff.mp head
  cases task with
  | request request =>
    have found := always _ s replay request rest queue
    rw [Option.some.inj addressed, gone] at found
    cases found
  | deleteSoon pointer => cases addressed

end Threads

end DistributedNinja.Master
