import DistributedNinja.Master.Completion

namespace DistributedNinja.Master

open Lib Rpc Proto Common Ninja

variable {Edge : Type} [DecidableEq Edge] {S : Setting Edge}

def Environment.Starts (S : Setting Edge) (env : Environment Edge) : Prop :=
  ∀ edge, MainThread.prepareLocally S (env.disk edge) edge = true

namespace MainThread

variable {disk : Edge → Disk} {m n : MainThread S}

def supply (m : MainThread S) : Nat := (S.plan.unreturned m.plan).card + m.outstandingEdgeList.length

theorem supply_take {edge : Edge} {rest : S.plan.State} (takes : Takes S m.plan edge rest) :
    (S.plan.unreturned rest).card < (S.plan.unreturned m.plan).card :=
  lt_of_le_of_lt (Finset.card_le_card takes.removed) (Finset.card_erase_lt_of_mem takes.unreturned)

theorem findWork_supply {edge : Edge} (found : m.findWork = some (edge, n)) : n.supply < m.supply := by
  obtain ⟨⟨e, rest⟩, given, same⟩ := Option.map_eq_some_iff.mp found
  cases same
  obtain ⟨unreturned, removed, inProgress⟩ := S.plan.findWork_takes _ _ _ given
  exact Nat.add_lt_add_right (supply_take ⟨unreturned, removed, inProgress⟩) _

theorem findLocalWork_supply {edge : Edge} (found : m.findLocalWork = some (edge, n)) :
    n.supply < m.supply := by
  unfold findLocalWork at found
  split at found
  · rename_i taken
    cases found
    exact findWork_supply taken
  · split at found
    · cases found
    · rename_i front
      cases found
      simp only [supply, front, List.length_cons]
      omega

theorem startEdgeLocally_smooth (starts : ∀ edge, prepareLocally S (disk edge) edge = true)
    (m : MainThread S) (edge : Edge) :
    (m.startEdgeLocally disk edge).1 = true ∧ (m.startEdgeLocally disk edge).2.supply ≤ m.supply := by
  unfold startEdgeLocally
  split
  · refine ⟨rfl, ?_⟩
    have fewer := Finset.card_le_card (S.plan.unreturned_edgeFinished m.plan edge)
    simp only [supply, edgeFinished]
    omega
  · rw [if_pos (starts edge)]
    exact ⟨rfl, Nat.le_refl _⟩

theorem startEdges_stops {next : MainThread S → Option (Edge × MainThread S)}
    (shrinks : ∀ {m edge n}, next m = some (edge, n) → n.supply < m.supply)
    (starts : ∀ edge, prepareLocally S (disk edge) edge = true) {fuel : Nat} (enough : m.supply < fuel) :
    (m.startEdges next disk fuel).1 = true ∧
      ((m.startEdges next disk fuel).2.executor.canRunMore = false ∨
        next (m.startEdges next disk fuel).2 = none) := by
  induction fuel generalizing m with
  | zero => exact absurd enough (Nat.not_lt_zero _)
  | succ fuel ih =>
    unfold startEdges
    split
    · split
      · rename_i nothing
        exact ⟨rfl, .inr nothing⟩
      · rename_i edge n found
        obtain ⟨started, supply⟩ := startEdgeLocally_smooth starts n edge
        have smaller := shrinks found
        split
        · rename_i k local_
          rw [local_] at supply
          exact ih (by simp only at supply; omega)
        · rename_i k local_
          rw [local_] at started
          cases started
    · rename_i full
      exact ⟨rfl, .inl (by simpa using full)⟩

theorem startEdges_outstanding (disk : Edge → Disk) (fuel : Nat) (m : MainThread S) :
    (m.startEdges findWork disk fuel).2.outstandingEdgeList = m.outstandingEdgeList := by
  induction fuel generalizing m with
  | zero => rfl
  | succ fuel ih =>
    unfold startEdges
    split
    · split
      · rfl
      · rename_i edge n found
        obtain ⟨rest, _, rfl⟩ := findWork_takes found
        obtain ⟨kept, _⟩ := startEdgeLocally_keeps disk (m.taken edge rest) edge
        split
        · rename_i k local_
          rw [local_] at kept
          exact (ih k).trans kept
        · rename_i k local_
          rw [local_] at kept
          exact kept
    · rfl

end MainThread

namespace Core

/-- Every edge the plan gave out and that is not finished is in hand, runs locally or is waited for. -/
structure Accounted (gone : Option Nat) (hand : Option Edge) (c : Core S) : Prop where
  parallelism : c.executor.parallelism = guessParallelism S.processors
  old : ∀ pid, gone = some pid → pid < c.executor.nextPid
  within : ∀ edge ∈ S.plan.inProgress c.plan, edge ∈ hand ∨
    (∃ p ∈ c.executor.others gone, p.cause = edge) ∨ edge ∈ c.outstandingEdgeList

variable {gone : Option Nat} {c d : Core S} {disk : Edge → Disk} {a b : Option Edge × Core S}

variable {edge : Edge}

theorem Accounted.take (accounted : Accounted gone none c) {rest : S.plan.State}
    (takes : Takes S c.plan edge rest) :
    Accounted gone (some edge) { c with plan := rest, log := c.log ++ [.found edge] } := by
  refine ⟨accounted.parallelism, accounted.old, ?_⟩
  intro other member
  rw [takes.inProgress, Finset.mem_insert] at member
  rcases member with rfl | member
  · exact .inl rfl
  · rcases accounted.within other member with impossible | elsewhere
    · cases impossible
    · exact .inr elsewhere

theorem Accounted.takeBack (accounted : Accounted gone none c) {rest : List Edge}
    (front : c.outstandingEdgeList = edge :: rest) :
    Accounted gone (some edge) { c with outstandingEdgeList := rest } := by
  refine ⟨accounted.parallelism, accounted.old, ?_⟩
  intro other member
  rcases accounted.within other member with impossible | running | waited
  · cases impossible
  · exact .inr (.inl running)
  · rw [front] at waited
    rcases List.mem_cons.mp waited with rfl | waited
    · exact .inl rfl
    · exact .inr (.inr waited)

theorem Accounted.send (accounted : Accounted gone (some edge) c) : Accounted gone none (c.send edge) := by
  refine ⟨accounted.parallelism, accounted.old, ?_⟩
  intro other member
  rcases accounted.within other member with held | running | waited
  · cases held
    exact .inr (.inr (by simp [Core.send]))
  · exact .inr (.inl running)
  · exact .inr (.inr (List.mem_append_left _ waited))

theorem Accounted.launch (accounted : Accounted gone (some edge) c)
    (room : c.executor.canRunMore = true) : Accounted gone none (c.launch edge) := by
  have others := CommandExecutor.others_runCommand room (S.manifest.evaluateCommand edge) edge accounted.old
  refine ⟨?_, ?_, ?_⟩
  · simp only [Core.launch, CommandExecutor.runCommand_of_canRunMore room]
    exact accounted.parallelism
  · intro pid same
    have below := accounted.old pid same
    simp only [Core.launch, CommandExecutor.runCommand_of_canRunMore room]
    exact Nat.lt_succ_of_lt below
  · intro other member
    rcases accounted.within other member with held | ⟨p, running, same⟩ | waited
    · cases held
      exact .inr (.inl ⟨_, others ▸ List.mem_append_right _ (List.mem_singleton_self _), rfl⟩)
    · exact .inr (.inl ⟨p, others ▸ List.mem_append_left _ running, same⟩)
    · exact .inr (.inr waited)

theorem Accounted.finishPhony (accounted : Accounted gone (some edge) c) :
    Accounted gone none (c.finish edge) := by
  refine ⟨accounted.parallelism, accounted.old, ?_⟩
  intro other member
  rw [Core.finish, S.plan.inProgress_edgeFinished, Finset.mem_erase] at member
  rcases accounted.within other member.2 with held | elsewhere
  · cases held
    exact absurd rfl member.1
  · exact .inr elsewhere

theorem Accounted.work (work : Work disk a b) (starts : ∀ edge,
    MainThread.prepareLocally S (disk edge) edge = true) (accounted : Accounted gone a.1 a.2) :
    Accounted gone b.1 b.2 := by
  cases work with
  | take takes => exact accounted.take takes
  | takeBack front => exact accounted.takeBack front
  | send => exact accounted.send
  | launch room command => exact accounted.launch room
  | finishPhony phony => exact accounted.finishPhony
  | @drop c edge failed =>
    rw [starts edge] at failed
    cases failed
  | buildFinished => exact ⟨accounted.parallelism, accounted.old, accounted.within⟩

theorem Accounted.works (works : Works disk a b) (starts : ∀ edge,
    MainThread.prepareLocally S (disk edge) edge = true) (accounted : Accounted gone a.1 a.2) :
    Accounted gone b.1 b.2 := by
  induction works with
  | refl => exact accounted
  | tail _ work ih => exact ih.work work starts

theorem Accounted.finishCommand {disk : Disk} {result : Result Edge} (accounted : Accounted none none c)
    (extracts : ∀ err, MainThread.extractDeps S disk result.edge ≠ some (.error err))
    (old : ∀ pid, gone = some pid → pid < c.executor.nextPid)
    (kept : ∀ p ∈ c.executor.others none, p.cause = result.edge ∨ p ∈ c.executor.others gone)
    (success : result.status = .success) (finish : Finish disk c result d) : Accounted gone none d := by
  cases finish with
  | failed failure => exact absurd success failure
  | rejected _ deps => exact absurd deps (extracts _)
  | completed _ unreturned inProgress =>
    refine ⟨accounted.parallelism, old, ?_⟩
    intro other member
    rw [Core.finish, S.plan.inProgress_edgeFinished, Finset.mem_erase] at member
    obtain ⟨different, member⟩ := member
    change other ∈ S.plan.inProgress _ at member
    rw [inProgress] at member
    rcases accounted.within other member with held | ⟨p, running, same⟩ | waited
    · cases held
    · rcases kept p running with own | still
      · exact absurd (same.symm.trans own) different
      · exact .inr (.inl ⟨p, still, same⟩)
    · exact .inr (.inr ((List.mem_erase_of_ne different).mpr waited))

theorem Accounted.finishFailed {disk : Disk} {result : Result Edge} (accounted : Accounted gone none c)
    (failure : result.status ≠ .success) (finish : Finish disk c result d) : Accounted gone none d := by
  cases finish with
  | failed _ => exact ⟨accounted.parallelism, accounted.old, accounted.within⟩
  | rejected success deps => exact absurd success failure
  | completed success unreturned inProgress => exact absurd success failure

/-- The build is over or a local command runs. -/
def Live (c : Core S) : Prop := 0 < c.buildFinishedCalls ∨ c.executor.subprocssToCommand ≠ []

theorem Live.work (work : Work disk a b) (live : a.2.Live) : b.2.Live := by
  cases work with
  | launch room command =>
    right
    simp [Core.launch, CommandExecutor.runCommand_of_canRunMore room]
  | buildFinished => exact .inl (Nat.succ_pos _)
  | take | takeBack | send | finishPhony | drop => exact live

theorem Live.works (works : Works disk a b) (live : a.2.Live) : b.2.Live := by
  induction works with
  | refl => exact live
  | tail _ work ih => exact ih.work work

theorem Live.finishCommand {disk : Disk} {result : Result Edge} (live : c.Live)
    (finish : Finish disk c result d) : d.Live := by
  rcases live with stopped | running
  · left
    cases finish with
    | failed failure => exact Nat.succ_pos _
    | rejected success deps => exact stopped
    | completed success unreturned inProgress => exact stopped
  · right
    rw [finish_executor finish]
    exact running

theorem Accounted.full {hand : Option Edge} (accounted : Accounted gone hand c)
    (wf : c.executor.WellFormed) (full : c.executor.canRunMore = false) :
    3 ≤ c.executor.subprocssToCommand.length := by
  have two := two_le_guessParallelism S.processors
  have crowded : ¬ c.executor.runningCommands ≤ c.executor.parallelism := of_decide_eq_false full
  rw [accounted.parallelism, wf.counted] at crowded
  omega

theorem Accounted.running (accounted : Accounted gone none c) (more : S.plan.moreToDo c.plan = true)
    (nothing : S.plan.findWork c.plan = none) (unwaited : c.outstandingEdgeList = []) :
    c.executor.others gone ≠ [] := by
  intro none
  have busy : S.plan.inProgress c.plan ≠ ∅ := by
    intro idle
    have found := S.plan.findWork_of_moreToDo c.plan more idle
    rw [nothing] at found
    cases found
  obtain ⟨edge, member⟩ := Finset.nonempty_iff_ne_empty.mpr busy
  rcases accounted.within edge member with held | ⟨p, running, _⟩ | waited
  · cases held
  · rw [none] at running
    cases running
  · rw [unwaited] at waited
    cases waited

theorem others_of_find? (wf : c.executor.WellFormed) {pid : Nat} {p : Subprocess Edge}
    (found : c.executor.find? pid = some p) :
    ∀ q ∈ c.executor.others none, q.cause = p.cause ∨ q ∈ c.executor.others (some pid) := by
  obtain ⟨member, same⟩ := CommandExecutor.mem_of_find? found
  intro q listed
  rw [CommandExecutor.others_none] at listed
  by_cases exits : q.pid = pid
  · left
    rw [List.inj_on_of_nodup_map wf.distinct listed member (exits.trans same.symm)]
  · right
    exact List.mem_filter.mpr ⟨listed, by simpa using exits⟩

end Core

namespace MainThread

variable {m n : MainThread S} {event : MainEvent Edge}

theorem buildLoop_settles {disk : Edge → Disk} (starts : ∀ edge, prepareLocally S (disk edge) edge = true)
    (m : MainThread S) :
    0 < (m.buildLoop disk).buildFinishedCalls ∨ (m.buildLoop disk).moreToDo = true ∧
      ((m.buildLoop disk).executor.canRunMore = false ∨
        S.plan.findWork (m.buildLoop disk).plan = none ∧ (m.buildLoop disk).outstandingEdgeList = []) := by
  unfold buildLoop
  split
  · obtain ⟨ended, stopped⟩ := startEdges_stops findLocalWork_supply starts (Nat.lt_succ_self m.supply)
    change (m.startEdges findLocalWork disk m.edgesLeft).1 = true at ended
    change (m.startEdges findLocalWork disk m.edgesLeft).2.executor.canRunMore = false ∨
      (m.startEdges findLocalWork disk m.edgesLeft).2.findLocalWork = none at stopped
    split
    · rename_i k started
      rw [started] at stopped
      split
      · rename_i more
        refine .inr ⟨more, ?_⟩
        rcases stopped with full | nothing
        · exact .inl full
        · right
          change k.findLocalWork = none at nothing
          unfold findLocalWork at nothing
          split at nothing
          · cases nothing
          · rename_i none
            split at nothing
            · rename_i unwaited
              exact ⟨Option.map_eq_none_iff.mp none, unwaited⟩
            · cases nothing
      · exact .inl (Nat.succ_pos _)
    · rename_i k started
      rw [started] at ended
      cases ended
  · exact .inl (Nat.succ_pos _)

theorem initialalBuild_live {disk : Edge → Disk}
    (starts : ∀ edge, prepareLocally S (disk edge) edge = true) (wf : m.executor.WellFormed)
    (accounted : Core.Accounted none none m.core) (unwaited : m.outstandingEdgeList = []) :
    (m.initialalBuild disk).core.Live := by
  have moves : Moves disk (fun _ => True) m (m.startEdges findWork disk m.edgesLeft).2 :=
    startEdges_moves findWork_take m.edgesLeft m
  have after := accounted.works moves.works starts
  have still := (startEdges_outstanding disk m.edgesLeft m).trans unwaited
  obtain ⟨_, stopped⟩ := startEdges_stops findWork_supply starts (Nat.lt_succ_self m.supply)
  change (m.startEdges findWork disk m.edgesLeft).2.executor.canRunMore = false ∨
    (m.startEdges findWork disk m.edgesLeft).2.findWork = none at stopped
  unfold initialalBuild
  dsimp only
  generalize (m.startEdges findWork disk m.edgesLeft).2 = k at moves after still stopped
  split
  · rename_i more
    have sent : Moves disk (fun _ => True) k (k.startEdgesOnSlaves k.slaveInfoIdMap.entries) :=
      startEdgesOnSlaves_moves (fun _ _ => trivial) k
    have running : k.core.Live := by
      right
      rcases stopped with full | nothing
      · exact List.ne_nil_of_length_pos
          (Nat.lt_of_lt_of_le (by decide) (after.full (Core.works_executor moves.works wf) full))
      · rw [← CommandExecutor.others_none]
        exact after.running more (Option.map_eq_none_iff.mp nothing) still
    exact running.works sent.works
  · exact .inl (Nat.succ_pos _)

def Completing (m : MainThread S) : MainEvent Edge → Edge → Prop
  | .taskRun _, edge => ∃ result answer rest, m.queue = .onFetchTargetsDone result answer :: rest ∧
      result.edge = edge
  | .exited pid _ _ _, edge => ∃ p, m.executor.find? pid = some p ∧ m.commandEdgeMap p.command = some edge
  | _, _ => False

/-- `StartEdgeLocally` and the extraction of dependencies succeed, and so do local commands. -/
def Succeeds (m : MainThread S) (event : MainEvent Edge) : Prop :=
  match event with
  | .taskRun env => env.Starts S ∧ ∀ edge, m.Completing event edge →
      ∀ err, extractDeps S (env.disk edge) edge ≠ some (.error err)
  | .exited _ status _ env => status = .success ∧ env.Starts S ∧ ∀ edge, m.Completing event edge →
      ∀ err, extractDeps S (env.disk edge) edge ≠ some (.error err)
  | _ => True

structure Progressing (m : MainThread S) : Prop where
  orderly : m.Orderly
  exact_ : Core.Exact none none m.core
  accounted : Core.Accounted none none m.core
  live : m.commandRunner = true → m.core.Live

theorem new_progressing : (MainThread.new S).Progressing := by
  refine ⟨new_orderly, Core.exact_new _, ⟨rfl, nofun, ?_⟩, nofun⟩
  intro edge member
  change edge ∈ S.plan.inProgress S.plan.empty at member
  rw [S.plan.inProgress_empty] at member
  cases member

theorem startBuild_progress {env : Environment Edge} (starts : env.Starts S) (idle : m.isBuilding = false)
    (orderly : m.Orderly) (started : m.startBuild env = some n) :
    Core.Accounted none none n.core ∧ (n.commandRunner = true → n.core.Live) := by
  obtain ⟨start, _, noRunner⟩ := orderly.unbuilt idle
  have unwaited : m.outstandingEdgeList = [] := congrArg Core.outstandingEdgeList start
  have parallelism : m.executor.parallelism = guessParallelism S.processors :=
    congrArg (fun c => c.executor.parallelism) start
  have fresh : ∀ {plan : S.plan.State} (runner : Bool), S.plan.inProgress plan = ∅ →
      Core.Accounted none none (m.begun plan runner).core := by
    intro plan runner empty
    refine ⟨parallelism, nofun, ?_⟩
    intro edge member
    change edge ∈ S.plan.inProgress plan at member
    rw [empty] at member
    cases member
  unfold startBuild at started
  rw [if_neg (by simp [idle])] at started
  obtain ⟨targets, _, rfl⟩ := Option.map_eq_some_iff.mp started
  dsimp only
  split
  · have empty : S.plan.inProgress m.plan = ∅ :=
      (congrArg (fun c => S.plan.inProgress c.plan) start).trans S.plan.inProgress_empty
    refine ⟨fresh m.commandRunner empty, ?_⟩
    intro runner
    rw [noRunner] at runner
    cases runner
  · rename_i plan added
    have empty := (addTargets_inProgress added).trans S.plan.inProgress_empty
    split
    · have accounted := fresh true empty
      refine ⟨accounted.works (initialalBuild_moves (m.begun plan true)).works starts, fun _ => ?_⟩
      exact initialalBuild_live starts orderly.executor accounted unwaited
    · have accounted := fresh m.commandRunner empty
      exact ⟨⟨accounted.parallelism, accounted.old, accounted.within⟩, fun _ => .inl (Nat.succ_pos _)⟩

theorem exited_live {env : Environment Edge} {pid : Nat} {p : Subprocess Edge} (starts : env.Starts S)
    (wf : m.executor.WellFormed) (found : m.executor.find? pid = some p)
    (accounted : Core.Accounted (some pid) none m.core) :
    let d := (m.servePending m.pendingEdgeRequest.keys).buildLoop env.disk
    Core.Accounted none none (d.core.removed pid) ∧ (d.core.removed pid).Live := by
  intro d
  have works : Works env.disk (none, m.core) (none, d.core) := (afterFinish_moves env.disk m).works
  have after : Core.Accounted (some pid) none d.core := accounted.works works starts
  have wfAfter : d.executor.WellFormed := Core.works_executor works wf
  have foundAfter : d.executor.find? pid = some p := Core.works_find? works found
  have rest : (d.core.removed pid).executor.subprocssToCommand = d.executor.others (some pid) :=
    CommandExecutor.exited_subprocesses _ _
  constructor
  · refine ⟨after.parallelism, nofun, ?_⟩
    intro edge member
    rcases after.within edge member with held | ⟨q, running, same⟩ | waited
    · cases held
    · exact .inr (.inl ⟨q, by rw [CommandExecutor.others_none, rest]; exact running, same⟩)
    · exact .inr (.inr waited)
  · rcases buildLoop_settles starts (m.servePending m.pendingEdgeRequest.keys) with
      stopped | ⟨more, full | ⟨nothing, unwaited⟩⟩
    · exact .inl stopped
    · right
      have three : 3 ≤ d.executor.subprocssToCommand.length := after.full wfAfter full
      have counted := (wfAfter.exited foundAfter).1.counted
      have before := wfAfter.counted
      intro none
      change (d.executor.exited pid).1.subprocssToCommand = [] at none
      rw [none] at counted
      simp only [CommandExecutor.exited, List.length_nil] at counted
      omega
    · right
      rw [rest]
      exact after.running more nothing unwaited

theorem Effect.progress (effect : Effect m event n) (distinct : DistinctCommands S)
    (succeeds : m.Succeeds event) (progressing : m.Progressing) : n.Progressing := by
  have orderly := effect.orderly progressing.orderly
  have exact_ := (effect.core progressing.orderly).exact_ progressing.orderly distinct progressing.exact_
  have accounted := progressing.accounted
  cases effect with
  | posted outside => exact ⟨orderly, exact_, accounted, progressing.live⟩
  | noted slaves quit head known => exact ⟨orderly, exact_, accounted, progressing.live⟩
  | rejected head => exact ⟨orderly, exact_, accounted, progressing.live⟩
  | began slaves head known idle started =>
    have before : Orderly { m with queue := _, slaveInfoIdMap := slaves } :=
      ⟨progressing.orderly.executor, no_runCommand_tail head progressing.orderly.queue,
        progressing.orderly.unbuilt⟩
    obtain ⟨after, live⟩ := startBuild_progress succeeds.1 (by exact idle) before started
    exact ⟨orderly, exact_, after, live⟩
  | @remoteDone env id edgeId status output md5s rest _ head done =>
    have asked := asked_moves env.disk { m with queue := rest } id
    have after := accounted.works asked.works succeeds.1
    have live : (requestEdge { m with queue := rest } id).2.commandRunner = true →
        (requestEdge { m with queue := rest } id).2.core.Live := by
      intro runner
      rw [asked.frame.commandRunner] at runner
      exact Core.Live.works asked.works (progressing.live runner)
    obtain ⟨_, rfl | ⟨fetch, info, _, _, _, _, rfl⟩⟩ := onRemoteCommandDone_cases done
    · exact ⟨orderly, exact_, after, live⟩
    · exact ⟨orderly, exact_, after, live⟩
  | @fetchDone env result answer rest ok _ head listed finished =>
    obtain ⟨finish, frame⟩ := finishCommand_finish (fun _ => False) finished
    have live : n.commandRunner = true → n.core.Live := by
      intro runner
      rw [frame.commandRunner] at runner
      exact Core.Live.finishCommand (progressing.live runner) finish
    refine ⟨orderly, exact_, ?_, live⟩
    by_cases success : result.status = .success
    · have extracts := succeeds.2 result.edge ⟨result, answer, rest, head, rfl⟩
      exact Core.Accounted.finishCommand accounted extracts nofun (fun _ member => .inr member) success finish
    · exact Core.Accounted.finishFailed accounted success finish
  | ran head => exact absurd (head ▸ List.mem_cons_self) (progressing.orderly.queue _ _)
  | @exited pid status output env p edge ok k found mapped finished =>
    obtain ⟨success, starts, extracts⟩ := succeeds
    obtain ⟨finish, frame⟩ := finishCommand_finish (fun _ => False) finished
    obtain ⟨exiting, runs, _⟩ := progressing.exact_.exit progressing.orderly.executor found
    obtain rfl : edge = p.cause := Option.some.inj (mapped.symm.trans runs.mapped)
    have executor : k.executor = m.executor := Core.finish_executor finish
    have after : Core.Accounted (some pid) none k.core :=
      Core.Accounted.finishCommand accounted (extracts p.cause ⟨p, found, mapped⟩) exiting.old
        (Core.others_of_find? progressing.orderly.executor found) success finish
    obtain ⟨rest, live⟩ := exited_live starts (executor ▸ progressing.orderly.executor)
      (executor ▸ found) after
    exact ⟨orderly, exact_, rest, fun _ => live⟩
  | @fetched job action f step at_ acted =>
    cases next : step.next with
    | inl g =>
      rw [next] at orderly exact_
      exact ⟨orderly, exact_, accounted, progressing.live⟩
    | inr success =>
      rw [next] at orderly exact_
      exact ⟨orderly, exact_, accounted, progressing.live⟩

end MainThread

end DistributedNinja.Master
