import DistributedNinja.Master.Completion

namespace DistributedNinja.Master

open Lib Rpc Proto Common Ninja

variable {Edge : Type}

def MainTask.fetchedEdge : MainTask Edge → Option Edge
  | .onFetchTargetsDone result _ => some result.edge
  | _ => none

namespace MainThread

variable [DecidableEq Edge] {S : Setting Edge} {m n : MainThread S} {event : MainEvent Edge}

def underWay (m : MainThread S) : List Edge :=
  m.pool.map (fun f => f.result.edge) ++ m.queue.filterMap MainTask.fetchedEdge

structure Single (m : MainThread S) : Prop where
  requested : ∀ id edge, m.outstandingEdges id = some edge → .found edge ∈ m.log ∧ hashEdge S edge = id
  distinct : m.underWay.Nodup
  apart : ∀ edge ∈ m.underWay, .found edge ∈ m.log ∧ ∀ id, m.outstandingEdges id ≠ some edge

theorem Single.mono (single : m.Single) (requests : n.outstandingEdges = m.outstandingEdges)
    (log : m.log ⊆ n.log) (fewer : ∀ edge, n.underWay.count edge ≤ m.underWay.count edge) : n.Single := by
  constructor
  · intro id edge found
    obtain ⟨known, hash⟩ := single.requested id edge (requests ▸ found)
    exact ⟨log known, hash⟩
  · apply List.nodup_iff_count_le_one.mpr
    intro edge
    exact (fewer edge).trans (List.nodup_iff_count_le_one.mp single.distinct edge)
  · intro edge member
    have before : edge ∈ m.underWay :=
      List.count_pos_iff.mp (Nat.lt_of_lt_of_le (List.count_pos_iff.mpr member) (fewer edge))
    obtain ⟨known, unrequested⟩ := single.apart edge before
    exact ⟨log known, requests ▸ unrequested⟩

theorem Single.tail (single : m.Single) {task : MainTask Edge} {rest : List (MainTask Edge)}
    (head : m.queue = task :: rest) : Single { m with queue := rest } := by
  refine single.mono rfl (List.Subset.refl _) ?_
  intro edge
  have fewer : (rest.filterMap MainTask.fetchedEdge).Sublist (m.queue.filterMap MainTask.fetchedEdge) := by
    rw [head]
    exact (List.sublist_cons_self task rest).filterMap _
  exact ((List.Sublist.refl _).append fewer).count_le edge

theorem Single.send (single : m.Single) {edge : Edge} (unknown : .found edge ∉ m.log) (rest : S.plan.State)
    (connectionId : Int) : ((m.taken edge rest).sendRemotely edge connectionId).Single := by
  have taken : (m.taken edge rest).Single :=
    single.mono rfl (List.subset_append_left _ _) fun _ => Nat.le_refl _
  unfold sendRemotely startEdgeRemotelly
  dsimp only
  split
  · constructor
    · intro id other found
      by_cases at_ : id = hashEdge S edge
      · have same : edge = other := by simpa [at_] using found
        rw [← same]
        exact ⟨List.mem_append_right _ List.mem_cons_self, at_.symm⟩
      · exact taken.requested id other (by simpa [at_] using found)
    · exact taken.distinct
    · intro other member
      obtain ⟨known, unrequested⟩ := single.apart other member
      refine ⟨(taken.apart other member).1, ?_⟩
      intro id found
      by_cases at_ : id = hashEdge S edge
      · have same : edge = other := by simpa [at_] using found
        exact unknown (same ▸ known)
      · exact unrequested id (by simpa [at_, MainThread.taken] using found)
  · exact taken.mono rfl (List.Subset.refl _) fun _ => Nat.le_refl _

theorem moves_single {disk : Edge → Disk} {via : Int → Prop} {a b : Option Edge × MainThread S}
    (moves : Relation.ReflTransGen (Move disk via) a b) (base : Core.Base a.1 a.2.core)
    (single : a.2.Single) : Core.Base b.1 b.2.core ∧ b.2.Single := by
  induction moves with
  | refl => exact ⟨base, single⟩
  | @tail b c _ move ih =>
    obtain ⟨base, single⟩ := ih
    refine ⟨base.works (moves_works (.single move)), ?_⟩
    cases move with
    | send takes allowed => exact single.send (fun found => base.fresh _ found takes.unreturned) _ _
    | take takes => exact single.mono rfl (List.subset_append_left _ _) fun _ => Nat.le_refl _
    | takeBack front => exact single.mono rfl (List.Subset.refl _) fun _ => Nat.le_refl _
    | launch room command => exact single.mono rfl (List.subset_append_left _ _) fun _ => Nat.le_refl _
    | finishPhony phony => exact single.mono rfl (List.subset_append_left _ _) fun _ => Nat.le_refl _
    | drop failed => exact single
    | wait => exact single.mono rfl (List.Subset.refl _) fun _ => Nat.le_refl _
    | buildFinished =>
      refine single.mono rfl (List.Subset.refl _) ?_
      intro edge
      simp [underWay, buildFinished, MainTask.fetchedEdge, List.filterMap_cons]

theorem Moves.single {disk : Edge → Disk} {via : Int → Prop} (moves : Moves disk via m n)
    (base : Core.Base none m.core) (single : m.Single) : n.Single := (moves_single moves base single).2

theorem Frame.underWay {via : Int → Prop} (frame : Frame via m n) : n.underWay = m.underWay := by
  obtain ⟨count, queue⟩ := frame.queue
  have quits : (List.replicate count (.quit : MainTask Edge)).filterMap MainTask.fetchedEdge = [] := by
    simp [List.filterMap_replicate, MainTask.fetchedEdge]
  rw [MainThread.underWay, MainThread.underWay, frame.pool, queue, List.filterMap_append, quits,
    List.append_nil]

theorem finishCommand_requests {disk : Disk} {result : Result Edge} {ok : Bool}
    (finished : finishCommand disk m result = some (ok, n)) : n.outstandingEdges = m.outstandingEdges := by
  rcases finishCommand_cases finished with ⟨_, rfl⟩ | ⟨_, _, rfl⟩ | ⟨_, _, _, _, rfl⟩ <;> rfl

theorem Single.finishCommand {disk : Disk} {result : Result Edge} {ok : Bool} (single : m.Single)
    (finished : finishCommand disk m result = some (ok, n)) : n.Single := by
  obtain ⟨finish, frame⟩ := finishCommand_finish (fun _ => False) finished
  obtain ⟨new, log, _⟩ := Core.finish_log finish
  change n.log = m.log ++ new at log
  apply single.mono (finishCommand_requests finished)
  · rw [log]
    exact List.subset_append_left _ _
  · intro edge
    rw [frame.underWay]

theorem Single.fetchPosted (single : m.Single) {edgeId : UInt32} {fetch : Fetch Edge}
    (outstanding : m.outstandingEdges edgeId = some fetch.result.edge) (id : Int) (info : SlaveInfo) :
    (m.fetchPosted id edgeId fetch info).Single := by
  obtain ⟨known, hash⟩ := single.requested edgeId _ outstanding
  have fresh : fetch.result.edge ∉ m.underWay :=
    fun member => (single.apart _ member).2 edgeId outstanding
  have added : (m.fetchPosted id edgeId fetch info).underWay.Perm (fetch.result.edge :: m.underWay) := by
    simp only [MainThread.fetchPosted, underWay, List.map_append, List.append_assoc]
    exact List.perm_middle
  have fewer : ∀ other edge, (m.fetchPosted id edgeId fetch info).outstandingEdges other = some edge →
      other ≠ edgeId ∧ m.outstandingEdges other = some edge := by
    intro other edge found
    by_cases at_ : other = edgeId
    · simp [MainThread.fetchPosted, at_] at found
    · exact ⟨at_, by simpa [MainThread.fetchPosted, at_] using found⟩
  constructor
  · intro other edge found
    exact single.requested other edge (fewer other edge found).2
  · exact added.nodup_iff.mpr (List.nodup_cons.mpr ⟨fresh, single.distinct⟩)
  · intro edge member
    rcases List.mem_cons.mp (added.mem_iff.mp member) with rfl | member
    · refine ⟨known, ?_⟩
      intro other found
      obtain ⟨different, before⟩ := fewer other _ found
      exact different ((single.requested other _ before).2.symm.trans hash)
    · obtain ⟨found, unrequested⟩ := single.apart edge member
      exact ⟨found, fun other at_ => unrequested other (fewer other edge at_).2⟩

theorem Single.fetched (single : m.Single) {job : Nat} {action : FetchAction} {f : Fetch Edge}
    {step : FetchStep Edge} (at_ : m.pool[job]? = some f) (acted : f.act action = some step) :
    (m.fetchStepped job f step.next).Single := by
  obtain ⟨below, own⟩ := List.getElem?_eq_some_iff.mp at_
  cases next : step.next with
  | inl g =>
    obtain ⟨result, _, _⟩ := Fetch.act_keeps acted next
    refine single.mono rfl (List.Subset.refl _) ?_
    intro edge
    have same : (m.pool.set job g).map (fun f => f.result.edge) = m.pool.map fun f => f.result.edge := by
      rw [List.map_set, result, ← own, ← List.map_set, List.set_getElem_self]
    simp only [fetchStepped, underWay, same, Nat.le_refl]
  | inr success =>
    refine single.mono rfl (List.Subset.refl _) ?_
    intro edge
    have moved : m.pool.Perm (f :: m.pool.eraseIdx job) := by
      rw [← own]
      exact (List.getElem_cons_eraseIdx_perm below).symm
    have counts := (moved.map fun f => f.result.edge).count_eq edge
    simp only [fetchStepped, underWay, List.filterMap_append, List.count_append, counts, List.map_cons,
      List.count_cons]
    cases success <;> simp [MainTask.fetchedEdge, List.count_singleton]
    omega

theorem Effect.single (effect : Effect m event n) (sound : m.Sound) (single : m.Single) : n.Single := by
  have base := sound.base
  cases effect with
  | posted outside =>
    refine single.mono rfl (List.Subset.refl _) ?_
    intro edge
    rcases outside with ⟨_, rfl⟩ | ⟨notice, _, rfl⟩ <;>
      simp [underWay, MainTask.fetchedEdge, List.filterMap_cons]
  | noted slaves quit head known =>
    exact (single.tail head).mono rfl (List.Subset.refl _) fun _ => Nat.le_refl _
  | rejected head => exact (single.tail head).mono rfl (List.Subset.refl _) fun _ => Nat.le_refl _
  | began slaves head known idle started =>
    obtain ⟨plan, runner, _, moves⟩ := startBuild_moves (by exact idle) started
    apply moves.single
    · change Core.Base none { m.core with plan := plan }
      rw [(sound.orderly.unbuilt idle).1]
      exact Core.base_new plan
    · exact (single.tail head).mono rfl (List.Subset.refl _) fun _ => Nat.le_refl _
  | @remoteDone env id edgeId status output md5s rest _ head done =>
    have asked := (asked_moves env.disk { m with queue := rest } id).single base (single.tail head)
    obtain ⟨_, rfl | ⟨fetch, info, _, outstanding, _, _, rfl⟩⟩ := onRemoteCommandDone_cases done
    · exact asked
    · exact asked.fetchPosted outstanding id info
  | fetchDone head listed finished => exact (single.tail head).finishCommand finished
  | ran head => exact absurd (head ▸ List.mem_cons_self) (sound.orderly.queue _ _)
  | @exited pid status output env p edge ok k found mapped finished =>
    obtain ⟨finish, _⟩ := finishCommand_finish (fun _ => False) finished
    have known := base.started _ (base.mapped _ _ mapped)
    have after := (afterFinish_moves env.disk k).single (base.finishCommand known finish)
      (single.finishCommand finished)
    refine after.mono rfl (List.Subset.refl _) ?_
    intro other
    have nothing : ∀ tasks : List (String × Edge), (tasks.map fun posted =>
        (.runCommand posted.1 posted.2 : MainTask Edge)).filterMap MainTask.fetchedEdge = [] := by
      intro tasks
      simp [List.filterMap_eq_nil_iff, MainTask.fetchedEdge]
    simp only [subprocessRemoved, underWay, List.filterMap_append, nothing, List.append_nil, Nat.le_refl]
  | fetched at_ acted => exact single.fetched at_ acted

/-- The edge that a pass of `BuildLoop` takes back from `outstanding_edge_list_`. -/
def takesBack (m : MainThread S) : Option Edge :=
  if m.findWork.isSome then none else m.outstandingEdgeList.head?

def noFetchOf (m : MainThread S) (edge : Edge) : Bool := m.pool.all fun f => decide (f.result.edge ≠ edge)

def passesSpare (disk : Edge → Disk) : Nat → MainThread S → Bool
  | 0, _ => true
  | fuel + 1, m =>
    if m.executor.canRunMore then
      m.takesBack.all m.noFetchOf &&
        match m.findLocalWork with
        | none => true
        | some (edge, m) =>
          match m.startEdgeLocally disk edge with
          | (true, m) => passesSpare disk fuel m
          | (false, _) => true
    else true

def buildLoopSpares (disk : Edge → Disk) (m : MainThread S) : Bool :=
  !m.moreToDo || passesSpare disk m.edgesLeft m

/-- `BuildLoop` takes no edge back while its outputs are being fetched, and a response is only handled while
    its edge has not been taken back. -/
def sparesFetches (m : MainThread S) : MainEvent Edge → Bool
  | .exited pid status output env =>
    ((m.executor.find? pid).bind fun p => m.commandEdgeMap p.command).all fun edge =>
      (finishCommand (env.disk edge) m ⟨edge, status, output⟩).all fun (_, m) =>
        (m.servePending m.pendingEdgeRequest.keys).buildLoopSpares env.disk
  | .taskRun _ =>
    match m.queue with
    | .slave (.onRemoteCommandDone _ edgeId .success _ _) :: _ =>
      (m.outstandingEdges edgeId).all fun edge => !m.hasRemoteCommandRunLocally edge
    | _ => true
  | _ => true

structure Held (m : MainThread S) : Prop where
  targets : ∀ f ∈ m.pool, ∀ target ∈ f.targets, target.1 ∈ S.manifest.outputs f.result.edge
  listed : ∀ f ∈ m.pool, f.result.edge ∈ m.outstandingEdgeList

theorem Held.of_subset (held : m.Held) (pool : n.pool = m.pool)
    (kept : ∀ f ∈ m.pool, f.result.edge ∈ m.outstandingEdgeList → f.result.edge ∈ n.outstandingEdgeList) :
    n.Held := by
  constructor
  · rw [pool]
    exact held.targets
  · rw [pool]
    exact fun f member => kept f member (held.listed f member)

theorem requestEdge_keeps (m : MainThread S) (connectionId : Int) :
    m.outstandingEdgeList ⊆ (m.requestEdge connectionId).2.outstandingEdgeList := by
  unfold requestEdge
  split
  · split
    · exact List.Subset.refl _
    · rename_i edge n found
      obtain ⟨rest, _, rfl⟩ := findRemoteWork_takes found
      have sent : ((m.taken edge rest).sendRemotely edge connectionId).core.outstandingEdgeList =
          m.outstandingEdgeList ++ [edge] := by
        rw [core_sendRemotely]
        rfl
      change _ ⊆ ((m.taken edge rest).sendRemotely edge connectionId).core.outstandingEdgeList
      rw [sent]
      exact List.subset_append_left _ _
  · exact List.Subset.refl _

theorem requestEdge_requests (m : MainThread S) (connectionId : Int) {edgeId : UInt32} {edge : Edge}
    (found : (m.requestEdge connectionId).2.outstandingEdges edgeId = some edge) :
    m.outstandingEdges edgeId = some edge ∨ edge ∈ (m.requestEdge connectionId).2.outstandingEdgeList := by
  unfold requestEdge at found ⊢
  split at found
  · split at found
    · exact .inl found
    · rename_i sent k work
      obtain ⟨rest, _, rfl⟩ := findRemoteWork_takes work
      unfold sendRemotely startEdgeRemotelly at found ⊢
      dsimp only at found ⊢
      split at found
      · by_cases at_ : edgeId = hashEdge S sent
        · have same : sent = edge := by simpa [at_] using found
          right
          simp [*]
        · left
          simpa [at_, taken] using found
      · exact .inl found
  · exact .inl found

theorem servePending_keeps (requests : List Int) (m : MainThread S) :
    m.outstandingEdgeList ⊆ (m.servePending requests).outstandingEdgeList := by
  induction requests generalizing m with
  | nil => exact List.Subset.refl _
  | cons connectionId rest ih =>
    unfold servePending
    split
    · have asked := requestEdge_keeps m connectionId
      split
      · rename_i n answer
        rw [answer] at asked
        have later := ih (n.setPendingRequests connectionId (n.pendingRequests connectionId - 1))
        exact List.Subset.trans asked later
      · rename_i n answer
        rw [answer] at asked
        exact List.Subset.trans asked (ih n)
    · exact ih m

theorem findLocalWork_keeps {edge : Edge} (found : m.findLocalWork = some (edge, n))
    (spares : m.takesBack.all m.noFetchOf = true) {f : Fetch Edge} (member : f ∈ m.pool)
    (listed : f.result.edge ∈ m.outstandingEdgeList) : f ∈ n.pool ∧ f.result.edge ∈ n.outstandingEdgeList := by
  unfold findLocalWork at found
  split at found
  · rename_i taken
    cases found
    obtain ⟨rest, _, rfl⟩ := findWork_takes taken
    exact ⟨member, listed⟩
  · rename_i nothing
    split at found
    · cases found
    · rename_i front
      cases found
      have different : f.result.edge ≠ edge := by
        simp only [takesBack, nothing, front, Option.isSome_none, Bool.false_eq_true, if_false,
          List.head?_cons, Option.all_some, noFetchOf, List.all_eq_true, decide_eq_true_eq] at spares
        exact spares f member
      refine ⟨member, ?_⟩
      rw [front] at listed
      exact (List.mem_cons.mp listed).resolve_left different

theorem startEdges_keeps {disk : Edge → Disk} {fuel : Nat} (spares : passesSpare disk fuel m = true)
    {f : Fetch Edge} (member : f ∈ m.pool) (listed : f.result.edge ∈ m.outstandingEdgeList) :
    f.result.edge ∈ (m.startEdges findLocalWork disk fuel).2.outstandingEdgeList := by
  induction fuel generalizing m with
  | zero => exact listed
  | succ fuel ih =>
    unfold passesSpare at spares
    unfold startEdges
    split
    · rename_i room
      rw [if_pos room, Bool.and_eq_true] at spares
      obtain ⟨pass, rest⟩ := spares
      split
      · exact listed
      · rename_i edge n found
        obtain ⟨stillMember, stillListed⟩ := findLocalWork_keeps found pass member listed
        obtain ⟨same, pool⟩ := startEdgeLocally_keeps disk n edge
        rw [found] at rest
        dsimp only at rest
        split
        · rename_i k local_
          rw [local_] at rest same pool
          exact ih rest (pool ▸ stillMember) (same ▸ stillListed)
        · rename_i k local_
          rw [local_] at same
          exact same ▸ stillListed
    · exact listed

theorem buildLoop_keeps {disk : Edge → Disk} (spares : m.buildLoopSpares disk = true) {f : Fetch Edge}
    (member : f ∈ m.pool) (listed : f.result.edge ∈ m.outstandingEdgeList) :
    f.result.edge ∈ (m.buildLoop disk).outstandingEdgeList := by
  unfold buildLoop
  split
  · rename_i more
    rw [buildLoopSpares, more, Bool.not_true, Bool.false_or] at spares
    have kept := startEdges_keeps spares member listed
    split
    · rename_i n started
      rw [started] at kept
      split <;> exact kept
    · rename_i n started
      rw [started] at kept
      exact kept
  · exact listed

structure Fetching (m : MainThread S) : Prop extends Sound m where
  single : m.Single
  held : m.Held

theorem new_fetching : (MainThread.new S).Fetching :=
  ⟨new_sound, ⟨nofun, List.nodup_nil, nofun⟩, nofun, nofun⟩

theorem Held.fetched (held : m.Held) {job : Nat} {action : FetchAction} {f : Fetch Edge}
    {step : FetchStep Edge} (at_ : m.pool[job]? = some f) (acted : f.act action = some step) :
    (m.fetchStepped job f step.next).Held := by
  have member := List.mem_of_getElem? at_
  cases next : step.next with
  | inl g =>
    obtain ⟨result, _, fewer⟩ := Fetch.act_keeps acted next
    constructor
    · intro h listed target aimed
      rcases List.mem_or_eq_of_mem_set listed with listed | rfl
      · exact held.targets h listed target aimed
      · rw [result]
        exact held.targets f member target (fewer aimed)
    · intro h listed
      rcases List.mem_or_eq_of_mem_set listed with listed | rfl
      · exact held.listed h listed
      · rw [result]
        exact held.listed f member
  | inr success =>
    exact ⟨fun h listed => held.targets h (List.mem_of_mem_eraseIdx listed),
      fun h listed => held.listed h (List.mem_of_mem_eraseIdx listed)⟩

theorem Held.remoteDone (held : m.Held) (disk : Edge → Disk) {id : Int} {edgeId : UInt32} {status : ExitStatus}
    {output : String} {md5s : List String}
    (waited : status = .success → ∀ edge, m.outstandingEdges edgeId = some edge → edge ∈ m.outstandingEdgeList)
    (done : m.onRemoteCommandDone id edgeId status output md5s = some n) : n.Held := by
  have kept := requestEdge_keeps m id
  have asked : (m.requestEdge id).2.Held :=
    held.of_subset (asked_moves disk m id).frame.pool fun _ _ listed => kept listed
  obtain ⟨_, rfl | ⟨fetch, info, success, outstanding, _, targets, rfl⟩⟩ := onRemoteCommandDone_cases done
  · exact asked
  · constructor
    · intro f member
      rcases List.mem_append.mp member with member | last
      · exact asked.targets f member
      · rw [List.mem_singleton.mp last]
        exact targets
    · intro f member
      rcases List.mem_append.mp member with member | last
      · exact asked.listed f member
      · rw [List.mem_singleton.mp last]
        rcases requestEdge_requests m id outstanding with before | listed
        · exact kept (waited success _ before)
        · exact listed

theorem finishCommand_keeps {disk : Disk} {result : Result Edge} {ok : Bool}
    (finished : finishCommand disk m result = some (ok, n)) {edge : Edge} (different : edge ≠ result.edge)
    (listed : edge ∈ m.outstandingEdgeList) : edge ∈ n.outstandingEdgeList := by
  obtain ⟨finish, _⟩ := finishCommand_finish (fun _ => False) finished
  change edge ∈ n.core.outstandingEdgeList
  generalize n.core = c at finish
  cases finish with
  | failed failure => exact listed
  | rejected success deps => exact (List.mem_erase_of_ne different).mpr listed
  | completed success unreturned inProgress => exact (List.mem_erase_of_ne different).mpr listed

theorem Effect.held (effect : Effect m event n) (fetching : m.Fetching)
    (spares : m.sparesFetches event = true) : n.Held := by
  have held := fetching.held
  cases effect with
  | posted outside => exact ⟨held.targets, held.listed⟩
  | noted slaves quit head known => exact ⟨held.targets, held.listed⟩
  | rejected head => exact ⟨held.targets, held.listed⟩
  | began slaves head known idle started =>
    obtain ⟨plan, runner, _, moves⟩ := startBuild_moves (by exact idle) started
    have unwaited : m.outstandingEdgeList = [] :=
      congrArg Core.outstandingEdgeList (fetching.orderly.unbuilt idle).1
    have nothing : ∀ f, f ∉ n.pool := by
      intro f member
      rw [moves.frame.pool] at member
      have listed := held.listed f member
      rw [unwaited] at listed
      cases listed
    exact ⟨fun f member => absurd member (nothing f), fun f member => absurd member (nothing f)⟩
  | @remoteDone env id edgeId status output md5s rest _ head done =>
    have before : Held { m with queue := rest } := ⟨held.targets, held.listed⟩
    apply before.remoteDone env.disk _ done
    rintro rfl edge outstanding
    rw [sparesFetches, head] at spares
    simpa [show m.outstandingEdges edgeId = some edge from outstanding, hasRemoteCommandRunLocally] using spares
  | @fetchDone env result answer rest ok _ head listed finished =>
    have frame := (finishCommand_finish (fun _ => False) finished).2
    apply held.of_subset frame.pool
    intro f member still
    apply finishCommand_keeps finished _ still
    intro same
    have queued : result.edge ∈ m.queue.filterMap MainTask.fetchedEdge := by
      rw [head]
      exact List.mem_cons_self
    exact (List.disjoint_of_nodup_append fetching.single.distinct)
      (List.mem_map.mpr ⟨f, member, same⟩) queued
  | ran head => exact absurd (head ▸ List.mem_cons_self) (fetching.orderly.queue _ _)
  | @exited pid status output env p edge ok k found mapped finished =>
    have frame := (finishCommand_finish (fun _ => False) finished).2
    have started := fetching.base.mapped _ _ mapped
    rw [sparesFetches, found] at spares
    simp only [Option.bind_some, mapped, Option.all_some, finished] at spares
    have serving : Moves env.disk (fun _ => True) k (k.servePending k.pendingEdgeRequest.keys) :=
      servePending_moves k.pendingEdgeRequest.keys_nodup k fun _ _ _ => trivial
    have looping : Moves env.disk (fun _ => True) (k.servePending k.pendingEdgeRequest.keys)
        ((k.servePending k.pendingEdgeRequest.keys).buildLoop env.disk) := buildLoop_moves _
    have finishedHeld : k.Held := by
      apply held.of_subset frame.pool
      intro f member still
      apply finishCommand_keeps finished _ still
      rintro rfl
      exact (fetching.base.idle _ still).2.1 started
    have served : (k.servePending k.pendingEdgeRequest.keys).Held :=
      finishedHeld.of_subset serving.frame.pool fun _ _ listed => servePending_keeps _ _ listed
    have looped : ((k.servePending k.pendingEdgeRequest.keys).buildLoop env.disk).Held :=
      served.of_subset looping.frame.pool fun _ member listed => buildLoop_keeps spares member listed
    exact ⟨looped.targets, looped.listed⟩
  | fetched at_ acted => exact held.fetched at_ acted

/-- A step of a fetch touches no output of an edge that was started locally or is finished. -/
def Unclobbered (m : MainThread S) : MainEvent Edge → Prop
  | .fetched job action => ∀ f, m.pool[job]? = some f → ∀ step, f.act action = some step →
      ∀ path, step.touched = some path → ∀ edge, path ∈ S.manifest.outputs edge →
        .started edge ∉ m.log ∧ .finished edge ∉ m.log
  | _ => True

theorem Fetching.unclobbered (fetching : m.Fetching) (event : MainEvent Edge) : m.Unclobbered event := by
  cases event with
  | fetched job action =>
    intro f at_ step acted path touched edge output
    have member := List.mem_of_getElem? at_
    obtain ⟨target, aimed, rfl⟩ := Fetch.act_touched acted touched
    have own := S.manifest.outputs_inEdge _ _ (fetching.held.targets f member target aimed)
    have same : f.result.edge = edge :=
      Option.some.inj (own.symm.trans (S.manifest.outputs_inEdge edge target.1 output))
    exact same ▸ (fetching.base.idle _ (fetching.held.listed f member)).2
  | noticePosted | startPosted | taskRun | exited => trivial

/-- In every run in which no edge is taken back under its fetch and no response is handled for an edge that
    was taken back, no fetch touches an output of an edge that was started locally or is finished. -/
theorem late_fetch_spares_outputs (events : List (MainEvent Edge))
    (spares : Along step (fun m event => m.sparesFetches event = true) (MainThread.new S) events)
    (replay : run step (MainThread.new S) events = some m) (event : MainEvent Edge) :
    m.Unclobbered event := by
  have fetching : m.Fetching := by
    apply run_invariant_along _ new_fetching spares replay
    intro m event n fetching spares stepped
    have effect := step_effect stepped
    exact ⟨fetching.toSound.step stepped, effect.single fetching.toSound fetching.single,
      effect.held fetching spares⟩
  exact fetching.unclobbered event

theorem late_fetch_spares_outputs_remoteObject :
    ∃ m, run step (MainThread.new objects) (remoteObject.take 6) = some m ∧ m.pool.length = 1 ∧
      m.Unclobbered (.fetched 0 .delete) := by
  have spares : Along step (fun m event => m.sparesFetches event = true) (MainThread.new objects)
      (remoteObject.take 6) := by
    decide +kernel
  have fetching : (run step (MainThread.new objects) (remoteObject.take 6)).map (fun m => m.pool.length) =
      some 1 := by
    decide +kernel
  obtain ⟨m, replay, one⟩ := Option.map_eq_some_iff.mp fetching
  exact ⟨m, replay, one, late_fetch_spares_outputs _ spares replay _⟩

/-- The fourth object is fetched while two local commands exit, and then it is started locally. -/
def lateFetch : List (MainEvent (Fin 5)) :=
  remoteObject.take 6 ++ [.exited 0 .success "" working, .exited 1 .success "" working]

theorem late_fetch_clobbers_output :
    ¬ ∀ (events : List (MainEvent (Fin 5))) (m : MainThread objects),
      run step (MainThread.new objects) events = some m → ∀ event, m.Unclobbered event := by
  have late : (run step (MainThread.new objects) lateFetch).map (fun m =>
      decide ((m.pool[0]?.bind (fun f => f.act .delete)).map FetchStep.touched = some (some "3.o") ∧
        .started 3 ∈ m.log)) = some true := by
    decide +kernel
  intro always
  obtain ⟨m, replay, shape⟩ := Option.map_eq_some_iff.mp late
  obtain ⟨acts, started⟩ := of_decide_eq_true shape
  obtain ⟨step, acted, touched⟩ := Option.map_eq_some_iff.mp acts
  obtain ⟨f, at_, acted⟩ := Option.bind_eq_some_iff.mp acted
  have spared := always lateFetch m replay (.fetched 0 .delete) f at_ step acted "3.o" touched 3 (by decide +kernel)
  exact spared.1 started

end MainThread

end DistributedNinja.Master
