import DistributedNinja.Master.Completion

namespace DistributedNinja.Master

open Lib Rpc Proto Common Ninja

variable {Edge : Type} [DecidableEq Edge] {S : Setting Edge}

def dispatchOf (S : Setting Edge) (edge : Edge) (connectionId : Int) : RpcRequest :=
  .startCommandRemotely connectionId (S.manifest.outputs edge) (S.manifest.unescapedRspfile edge)
    (S.manifest.rspfileContent edge) (MainThread.hashEdge S edge)

def RpcRequest.edgeId? : RpcRequest → Option UInt32
  | .startCommandRemotely _ _ _ _ edgeId => some edgeId
  | .quitSlave _ _ => none

def MainTask.response? : MainTask Edge → Option SlaveNotice
  | .slave (.onRemoteCommandDone id edgeId status output md5s) =>
    some (.onRemoteCommandDone id edgeId status output md5s)
  | _ => none

def MainEvent.brings : MainEvent Edge → List SlaveNotice
  | .noticePosted notice => (MainTask.slave notice : MainTask Edge).response?.toList
  | _ => []

namespace MainThread

variable {m n : MainThread S} {event : MainEvent Edge} {settled : UInt32 → Prop}

/-- Every edge is sent out at most once, and its id stays outstanding until it is settled. -/
structure Dispatched (settled : UInt32 → Prop) (m : MainThread S) : Prop where
  sent : ∀ request ∈ m.rpcPosts, ∀ edgeId, request.edgeId? = some edgeId → ∃ edge,
    request = dispatchOf S edge request.connectionId ∧ .found edge ∈ m.log ∧
      (m.outstandingEdges edgeId = some edge ∨ settled edgeId)
  distinct : (m.rpcPosts.filterMap RpcRequest.edgeId?).Nodup

theorem new_dispatched : (MainThread.new S).Dispatched settled := ⟨nofun, List.nodup_nil⟩

theorem Dispatched.keep (dispatched : m.Dispatched settled) (posts : n.rpcPosts = m.rpcPosts)
    (outstanding : n.outstandingEdges = m.outstandingEdges)
    (log : ∀ edge, .found edge ∈ m.log → .found edge ∈ n.log) : n.Dispatched settled := by
  refine ⟨?_, posts ▸ dispatched.distinct⟩
  intro request member edgeId named
  obtain ⟨edge, shape, found, kept⟩ := dispatched.sent request (posts ▸ member) edgeId named
  exact ⟨edge, shape, log edge found, outstanding ▸ kept⟩

theorem Dispatched.found (dispatched : m.Dispatched settled) {edgeId : UInt32}
    (member : edgeId ∈ m.rpcPosts.filterMap RpcRequest.edgeId?) :
    ∃ edge, hashEdge S edge = edgeId ∧ .found edge ∈ m.log := by
  obtain ⟨request, member, named⟩ := List.mem_filterMap.mp member
  obtain ⟨edge, shape, found, _⟩ := dispatched.sent request member edgeId named
  rw [shape] at named
  exact ⟨edge, Option.some.inj named, found⟩

theorem Dispatched.send (dispatched : m.Dispatched settled) (hashes : DistinctHashes S) {edge : Edge}
    {rest : S.plan.State} (unknown : .found edge ∉ m.log) (connectionId : Int) :
    ((m.taken edge rest).sendRemotely edge connectionId).Dispatched settled := by
  have logged : ∀ other, .found other ∈ m.log → .found other ∈ m.log ++ [.found edge] :=
    fun _ found => List.mem_append_left _ found
  unfold sendRemotely startEdgeRemotelly
  dsimp only
  split
  · have different : ∀ other, .found other ∈ m.log → hashEdge S other ≠ hashEdge S edge := by
      intro other found same
      exact unknown (hashes other edge same ▸ found)
    constructor
    · intro request member edgeId named
      rcases List.mem_append.mp member with member | member
      · obtain ⟨other, shape, found, kept⟩ := dispatched.sent request member edgeId named
        refine ⟨other, shape, logged other found, kept.imp_left fun outstanding => ?_⟩
        rw [shape] at named
        have apart : edgeId ≠ hashEdge S edge := Option.some.inj named ▸ different other found
        exact (Function.update_of_ne apart _ _).trans outstanding
      · obtain rfl := List.mem_singleton.mp member
        obtain rfl := Option.some.inj named
        exact ⟨edge, rfl, List.mem_append_right _ List.mem_cons_self, .inl (Function.update_self ..)⟩
    · change ((m.rpcPosts ++ [dispatchOf S edge connectionId]).filterMap RpcRequest.edgeId?).Nodup
      rw [List.filterMap_append]
      apply List.Nodup.append dispatched.distinct (List.nodup_singleton _)
      intro edgeId earlier last
      obtain rfl := List.mem_singleton.mp last
      obtain ⟨other, same, found⟩ := dispatched.found earlier
      exact different other found same
  · exact dispatched.keep rfl rfl logged

theorem Dispatched.moves {disk : Edge → Disk} {via : Int → Prop} (hashes : DistinctHashes S)
    (moves : Moves disk via m n) (base : Core.Base none m.core) (dispatched : m.Dispatched settled) :
    n.Dispatched settled := by
  -- along the moves the edges stay accounted for, so that an edge the plan gives out is a new one
  suffices both : ∀ b, Relation.ReflTransGen (Move disk via) (none, m) b →
      Core.Base b.1 b.2.core ∧ b.2.Dispatched settled from (both _ moves).2
  intro b moves
  induction moves with
  | refl => exact ⟨base, dispatched⟩
  | tail _ move ih =>
    obtain ⟨base, dispatched⟩ := ih
    refine ⟨base.works (moves_works (.single move)), ?_⟩
    cases move with
    | send takes allowed =>
      exact dispatched.send hashes (fun found => base.fresh _ found takes.unreturned) _
    | takeBack | drop | wait | buildFinished => exact dispatched.keep rfl rfl fun _ found => found
    | take | launch | finishPhony =>
      exact dispatched.keep rfl rfl fun _ found => List.mem_append_left _ found

theorem outstanding_requestEdge (hashes : DistinctHashes S) (base : Core.Base none m.core) {edge : Edge}
    (found : .found edge ∈ m.log) (outstanding : m.outstandingEdges (hashEdge S edge) = some edge) (id : Int) :
    (m.requestEdge id).2.outstandingEdges (hashEdge S edge) = some edge := by
  unfold requestEdge
  split
  · split
    · exact outstanding
    · rename_i other k given
      obtain ⟨rest, takes, rfl⟩ := findRemoteWork_takes given
      have apart : hashEdge S edge ≠ hashEdge S other := by
        intro same
        exact base.fresh edge found (hashes edge other same ▸ takes.unreturned)
      unfold sendRemotely startEdgeRemotelly
      dsimp only
      split
      · exact (Function.update_of_ne apart _ _).trans outstanding
      · exact outstanding
  · exact outstanding

theorem finishCommand_dispatched {disk : Disk} {result : Result Edge} {ok : Bool}
    (finished : finishCommand disk m result = some (ok, n)) (dispatched : m.Dispatched settled) :
    n.Dispatched settled := by
  rcases finishCommand_cases finished with ⟨_, rfl⟩ | ⟨_, _, rfl⟩ | ⟨_, _, _, _, rfl⟩
  · exact dispatched.keep rfl rfl fun _ found => found
  · exact dispatched.keep rfl rfl fun _ found => found
  · exact dispatched.keep rfl rfl fun _ found => List.mem_append_left _ found

def settles (m : MainThread S) (event : MainEvent Edge) (edgeId : UInt32) : Prop :=
  (∃ env, event = .taskRun env) ∧ ∃ id output md5s rest,
    m.queue = .slave (.onRemoteCommandDone id edgeId .success output md5s) :: rest

theorem Dispatched.settle (dispatched : m.Dispatched settled) {later : UInt32 → Prop}
    (more : ∀ edgeId, settled edgeId → later edgeId) : m.Dispatched later := by
  refine ⟨?_, dispatched.distinct⟩
  intro request member edgeId named
  obtain ⟨edge, shape, found, kept⟩ := dispatched.sent request member edgeId named
  exact ⟨edge, shape, found, kept.imp_right (more edgeId)⟩

theorem Dispatched.step (dispatched : m.Dispatched settled) (sound : m.Sound) (hashes : DistinctHashes S)
    (stepped : m.step event = some n) :
    n.Dispatched fun edgeId => settled edgeId ∨ m.settles event edgeId := by
  have more : m.Dispatched fun edgeId => settled edgeId ∨ m.settles event edgeId :=
    dispatched.settle fun _ => .inl
  cases step_effect stepped with
  | posted | noted | ran => exact more.keep rfl rfl fun _ found => found
  | rejected head =>
    constructor
    · intro request member edgeId named
      rcases List.mem_append.mp member with member | member
      · exact more.sent request member edgeId named
      · rw [List.mem_singleton.mp member] at named
        cases named
    · rw [List.filterMap_append]
      exact (List.append_nil _).symm ▸ more.distinct
  | began slaves head known idle started =>
    obtain ⟨plan, runner, _, moves⟩ := startBuild_moves (by exact idle) started
    have start : m.core = .new S := (sound.orderly.unbuilt idle).1
    refine Dispatched.moves hashes moves ?_ (more.keep rfl rfl fun _ found => found)
    change Core.Base none { m.core with plan := plan }
    rw [start]
    exact Core.base_new plan
  | @remoteDone env id edgeId status output md5s rest _ head done =>
    have asked := Dispatched.moves hashes (asked_moves env.disk { m with queue := rest } id) sound.base
      (more.keep rfl rfl fun _ found => found)
    obtain ⟨_, rfl | ⟨fetch, info, success, _, _, _, rfl⟩⟩ := onRemoteCommandDone_cases done
    · exact asked
    · refine ⟨?_, asked.distinct⟩
      intro request member other named
      obtain ⟨edge, shape, found, kept⟩ := asked.sent request member other named
      refine ⟨edge, shape, found, ?_⟩
      by_cases same : other = edgeId
      · subst same
        exact .inr (.inr ⟨⟨env, rfl⟩, id, output, md5s, rest, success ▸ head⟩)
      · exact kept.imp_left fun outstanding => (Function.update_of_ne same _ _).trans outstanding
  | fetchDone head listed finished =>
    exact finishCommand_dispatched finished (more.keep rfl rfl fun _ found => found)
  | @exited pid status output env p edge ok k found mapped finished =>
    have known := sound.base.started _ (sound.base.mapped _ _ mapped)
    have base := sound.base.finishCommand known (finishCommand_finish (fun _ => False) finished).1
    have after := Dispatched.moves hashes (afterFinish_moves env.disk k) base
      (finishCommand_dispatched finished more)
    exact after.keep rfl rfl fun _ found => found
  | fetched at_ acted =>
    unfold fetchStepped
    split <;> exact more.keep rfl rfl fun _ found => found

def responses (m : MainThread S) : List SlaveNotice := m.queue.filterMap MainTask.response?

def responsesLeft (m : MainThread S) : MainEvent Edge → List SlaveNotice
  | .taskRun _ => m.queue.tail.filterMap MainTask.response?
  | _ => m.responses

theorem Frame.responses {via : Int → Prop} (frame : Frame via m n) : n.responses = m.responses := by
  obtain ⟨count, queue⟩ := frame.queue
  rw [MainThread.responses, queue, List.filterMap_append, List.filterMap_replicate_of_none rfl,
    List.append_nil]
  rfl

theorem responsesLeft_of_head {task : MainTask Edge} {rest : List (MainTask Edge)}
    (head : m.queue = task :: rest) (env : Environment Edge) :
    m.responsesLeft (.taskRun env) = responses { m with queue := rest } := by
  rw [responsesLeft, head]
  rfl

theorem step_responses (stepped : m.step event = some n) :
    n.responses = m.responsesLeft event ++ event.brings := by
  cases step_effect stepped with
  | posted outside =>
    rcases outside with ⟨rfl, rfl⟩ | ⟨notice, rfl, rfl⟩
    · exact List.filterMap_append
    · refine List.filterMap_append.trans (congrArg _ ?_)
      rw [List.filterMap_cons, List.filterMap_nil, MainEvent.brings]
      cases (MainTask.slave notice : MainTask Edge).response? <;> rfl
  | noted slaves quit head | rejected head | ran head =>
    refine Eq.trans ?_ (List.append_nil _).symm
    rw [responsesLeft_of_head head]
    rfl
  | began slaves head known idle started =>
    obtain ⟨plan, runner, _, moves⟩ := startBuild_moves (by exact idle) started
    refine Eq.trans ?_ (List.append_nil _).symm
    rw [responsesLeft_of_head head, moves.frame.responses]
    rfl
  | @remoteDone env id edgeId status output md5s rest _ head done =>
    have asked := (asked_moves env.disk { m with queue := rest } id).frame.responses
    refine Eq.trans ?_ (List.append_nil _).symm
    rw [responsesLeft_of_head head, ← asked]
    obtain ⟨_, rfl | ⟨fetch, info, _, _, _, _, rfl⟩⟩ := onRemoteCommandDone_cases done
    · rfl
    · rfl
  | fetchDone head listed finished =>
    refine Eq.trans ?_ (List.append_nil _).symm
    rw [responsesLeft_of_head head]
    exact (finishCommand_finish (fun _ => False) finished).2.responses
  | @exited pid status output env p edge ok k found mapped finished =>
    have after := (afterFinish_moves env.disk k).frame.responses.trans
      (finishCommand_finish (fun _ => False) finished).2.responses
    refine Eq.trans ?_ (List.append_nil _).symm
    refine Eq.trans ?_ after
    refine List.filterMap_append.trans ?_
    rw [List.filterMap_map]
    refine (congrArg _ (List.filterMap_eq_nil_iff.mpr fun _ _ => rfl)).trans (List.append_nil _)
  | @fetched job action f step at_ acted =>
    refine Eq.trans ?_ (List.append_nil _).symm
    unfold fetchStepped
    split
    · rfl
    · refine List.filterMap_append.trans ?_
      split <;> exact List.append_nil _

theorem responses_taken (m : MainThread S) (event : MainEvent Edge) :
    (m.responses = m.responsesLeft event ∧ ∀ edgeId, ¬ m.settles event edgeId) ∨
      ∃ notice, m.responses = notice :: m.responsesLeft event ∧ ∀ edgeId, m.settles event edgeId →
        ∃ id output md5s, notice = .onRemoteCommandDone id edgeId .success output md5s := by
  cases event with
  | taskRun env =>
    cases shape : m.queue with
    | nil =>
      refine .inl ⟨by simp [responses, responsesLeft, shape], ?_⟩
      rintro edgeId ⟨_, id, output, md5s, rest, head⟩
      rw [shape] at head
      cases head
    | cons task rest =>
      cases answer : task.response? with
      | none =>
        refine .inl ⟨by simp [responses, responsesLeft, shape, answer], ?_⟩
        rintro edgeId ⟨_, id, output, md5s, rest, head⟩
        rw [shape] at head
        cases head
        cases answer
      | some notice =>
        refine .inr ⟨notice, by simp [responses, responsesLeft, shape, answer], ?_⟩
        rintro edgeId ⟨_, id, output, md5s, rest, head⟩
        rw [shape] at head
        cases head
        exact ⟨id, output, md5s, (Option.some.inj answer).symm⟩
  | noticePosted | startPosted | exited | fetched =>
    refine .inl ⟨rfl, ?_⟩
    rintro edgeId ⟨⟨env, impossible⟩, _⟩
    cases impossible

end MainThread

end DistributedNinja.Master
