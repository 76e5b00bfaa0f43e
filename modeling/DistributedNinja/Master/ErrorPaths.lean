import DistributedNinja.Master.Failure
import DistributedNinja.Master.Progress

namespace DistributedNinja.Master

open Lib Rpc Proto Common Ninja

def Disk.working (disk : Disk) : Disk :=
  { disk with createDirectory := fun _ => true, writeFile := fun _ _ => true }

variable {Edge : Type}

def Environment.working (env : Environment Edge) : Environment Edge :=
  { env with disk := fun edge => (env.disk edge).working }

def MainEvent.working : MainEvent Edge → MainEvent Edge
  | .taskRun env => .taskRun env.working
  | .exited pid status output env => .exited pid status output env.working
  | event => event

variable [DecidableEq Edge] {S : Setting Edge}

theorem Environment.working_starts (env : Environment Edge) : env.working.Starts S := by
  intro edge
  simp [MainThread.prepareLocally, Environment.working, Disk.working]

namespace MainThread

variable {m n : MainThread S} {event : MainEvent Edge} {disk : Edge → Disk} {env : Environment Edge}

def startsAll (next : MainThread S → Option (Edge × MainThread S)) (disk : Edge → Disk) :
    Nat → MainThread S → Bool
  | 0, _ => true
  | fuel + 1, m =>
    if m.executor.canRunMore then
      match next m with
      | none => true
      | some (edge, n) => (S.manifest.isPhony edge || prepareLocally S (disk edge) edge) &&
        startsAll next disk fuel (n.startEdgeLocally disk edge).2
    else true

theorem startEdgeLocally_working {edge : Edge}
    (starts : (S.manifest.isPhony edge || prepareLocally S (disk edge) edge) = true) (m : MainThread S) :
    m.startEdgeLocally (fun edge => (disk edge).working) edge = m.startEdgeLocally disk edge ∧
      (m.startEdgeLocally disk edge).1 = true := by
  have working : prepareLocally S (disk edge).working edge = true := by simp [prepareLocally, Disk.working]
  by_cases phony : S.manifest.isPhony edge = true
  · simp only [startEdgeLocally, if_pos phony, and_self]
  · have prepared : prepareLocally S (disk edge) edge = true := by simpa [phony] using starts
    simp only [startEdgeLocally, if_neg phony, if_pos working, if_pos prepared, and_self]

theorem startEdges_working {next : MainThread S → Option (Edge × MainThread S)} {fuel : Nat}
    (starts : startsAll next disk fuel m = true) :
    m.startEdges next (fun edge => (disk edge).working) fuel = m.startEdges next disk fuel := by
  induction fuel generalizing m with
  | zero => rfl
  | succ fuel ih =>
    unfold startsAll at starts
    unfold startEdges
    split
    · rename_i room
      rw [if_pos room] at starts
      split
      · rfl
      · rename_i edge k found
        rw [found] at starts
        obtain ⟨first, rest⟩ := Bool.and_eq_true_iff.mp starts
        obtain ⟨same, succeeded⟩ := startEdgeLocally_working first k
        rw [same]
        generalize k.startEdgeLocally disk edge = started at succeeded rest
        obtain ⟨ok, after⟩ := started
        cases succeeded
        exact ih rest
    · rfl

def loopsSafely (disk : Edge → Disk) (m : MainThread S) : Bool :=
  !m.moreToDo || m.startsAll findLocalWork disk m.edgesLeft

theorem buildLoop_working (safely : m.loopsSafely disk = true) :
    m.buildLoop (fun edge => (disk edge).working) = m.buildLoop disk := by
  unfold buildLoop
  split
  · rename_i more
    rw [loopsSafely, more] at safely
    rw [startEdges_working (by simpa using safely)]
  · rfl

def beginsSafely (env : Environment Edge) (m : MainThread S) : Bool :=
  m.isBuilding || env.targets.all fun targets =>
    (addTargets env.scan targets S.plan.empty).any fun plan =>
      !S.plan.moreToDo plan || (m.begun plan true).startsAll findWork env.disk (m.begun plan true).edgesLeft

theorem startBuild_working (safely : m.beginsSafely env = true) :
    m.startBuild env.working = m.startBuild env := by
  unfold startBuild
  split
  · rfl
  · rename_i idle
    change env.targets.map _ = env.targets.map _
    cases named : env.targets with
    | none => rfl
    | some targets =>
      rw [beginsSafely, named, Bool.or_eq_true, or_iff_right idle, Option.all_some, Option.any_eq_true] at safely
      obtain ⟨plan, added, starts⟩ := safely
      have same : addTargets env.working.scan targets S.plan.empty = some plan := added
      simp only [Option.map_some, added, same, Option.some.injEq]
      split
      · rename_i more
        have more : S.plan.moreToDo plan = true := more
        rw [more, Bool.not_true, Bool.false_or] at starts
        change initialalBuild (fun edge => (env.disk edge).working) (m.begun plan true) =
          initialalBuild env.disk (m.begun plan true)
        unfold initialalBuild
        rw [startEdges_working starts]
      · rfl

theorem startBuild_runs (idle : m.isBuilding = false) (safely : m.beginsSafely env = true)
    (started : m.startBuild env = some n) : 0 < n.buildFinishedCalls ∨ n.commandRunner = true := by
  unfold startBuild at started
  rw [if_neg (by simp [idle])] at started
  obtain ⟨targets, named, rfl⟩ := Option.map_eq_some_iff.mp started
  rw [beginsSafely, idle, Bool.false_or, named, Option.all_some, Option.any_eq_true] at safely
  obtain ⟨plan, added, _⟩ := safely
  simp only [added]
  split
  · exact .inr (initialalBuild_moves (m.begun plan true)).frame.commandRunner
  · exact .inl (Nat.succ_pos _)

def extracts (S : Setting Edge) (disk : Disk) (edge : Edge) : Bool :=
  match extractDeps S disk edge with
  | some (.error _) => false
  | _ => true

theorem extracts_iff {disk : Disk} {edge : Edge} :
    extracts S disk edge = true ↔ ∀ err, extractDeps S disk edge ≠ some (.error err) := by
  unfold extracts
  split
  · rename_i err failed
    simp [failed]
  · rename_i other
    simpa using other

def completesSlaves (m : MainThread S) (id : Int) (info : SlaveInfo) : Bool :=
  !m.slaveInfoIdMap.contains id && decide (info.operatingSystemName = S.operatingSystemName) &&
    decide (info.operatingSystemArchitecture = S.operatingSystemArchitecture) &&
    decide (S.maxSlaveAmount ≤ (m.slaveInfoIdMap.insert id info).entries.length)

/-- Neither `StartEdgeLocally` nor `ExtractDeps` fails in the step, and the targets of the build can be added. -/
def stepsSafely (m : MainThread S) : MainEvent Edge → Bool
  | .exited pid status output env =>
    (m.executor.find? pid).all fun p =>
      (m.commandEdgeMap p.command).all fun edge => extracts S (env.disk edge) edge &&
        (finishCommand (env.disk edge) m ⟨edge, status, output⟩).all fun finished =>
          (finished.2.servePending finished.2.pendingEdgeRequest.keys).loopsSafely env.disk
  | .taskRun env =>
    match m.queue with
    | .startBuild :: rest => beginsSafely env { m with queue := rest }
    | .slave (.onSlaveSystemInfoAvailable id info) :: rest => !m.completesSlaves id info ||
      beginsSafely env { m with queue := rest, slaveInfoIdMap := m.slaveInfoIdMap.insert id info }
    | .onFetchTargetsDone result _ :: _ =>
      decide (result.edge ∉ m.outstandingEdgeList) || extracts S (env.disk result.edge) result.edge
    | _ => true
  | _ => true

/-- `BuildFinished` was called, or is called for a failed command, or the step is safe. -/
def losesNothing (m : MainThread S) (event : MainEvent Edge) : Bool :=
  decide (0 < m.buildFinishedCalls) || event.fails || m.stepsSafely event

theorem slaveInfo_working {id : Int} {info : SlaveInfo}
    (safely : (!m.completesSlaves id info ||
      beginsSafely env { m with slaveInfoIdMap := m.slaveInfoIdMap.insert id info }) = true) :
    m.onSlaveSystemInfoAvailable env.working id info = m.onSlaveSystemInfoAvailable env id info := by
  unfold onSlaveSystemInfoAvailable
  split
  · rfl
  · rename_i unknown
    split
    · rfl
    · rename_i matching
      rw [not_or, not_not, not_not] at matching
      dsimp only
      split
      · rename_i enough
        apply startBuild_working
        have last : m.completesSlaves id info = true := by
          simpa [completesSlaves, unknown, matching] using enough
        simpa [last] using safely
      · rfl

theorem runTask_working {task : MainTask Edge} {rest : List (MainTask Edge)} (head : m.queue = task :: rest)
    (safely : m.stepsSafely (.taskRun env) = true) :
    runTask env.working { m with queue := rest } task = runTask env { m with queue := rest } task := by
  rw [stepsSafely, head] at safely
  cases task with
  | startBuild => exact startBuild_working safely
  | slave notice =>
    cases notice with
    | onSlaveSystemInfoAvailable id info => exact slaveInfo_working (m := { m with queue := rest }) safely
    | onRemoteCommandDone | onSlaveStatusUpdate | onSlaveClose => rfl
  | onFetchTargetsDone | runCommand | quit => rfl

theorem exited_working {pid : Nat} {status : ExitStatus} {output : String}
    (safely : m.stepsSafely (.exited pid status output env) = true) :
    m.subprocessExitCallback env.working pid status output = m.subprocessExitCallback env pid status output := by
  unfold subprocessExitCallback
  cases found : m.executor.find? pid with
  | none => rfl
  | some p =>
    simp only [Option.bind_some, onCommandFinished]
    cases mapped : m.commandEdgeMap p.command with
    | none => rfl
    | some edge =>
      have same : finishCommand (env.working.disk edge) m ⟨edge, status, output⟩ =
          finishCommand (env.disk edge) m ⟨edge, status, output⟩ := rfl
      simp only [Option.bind_some, same]
      cases finished : finishCommand (env.disk edge) m ⟨edge, status, output⟩ with
      | none => rfl
      | some result =>
        simp only [stepsSafely, found, mapped, finished, Option.all_some, Bool.and_eq_true] at safely
        exact congrArg (fun k => some (subprocessRemoved k pid)) (buildLoop_working safely.2)

theorem step_working (safely : m.stepsSafely event = true) : m.step event.working = m.step event := by
  cases event with
  | noticePosted | startPosted | fetched => rfl
  | taskRun env =>
    simp only [step, MainEvent.working]
    split
    · rename_i task rest head
      exact runTask_working head safely
    · rfl
  | exited pid status output env => exact exited_working safely

theorem slaveInfo_begins {id : Int} {info : SlaveInfo}
    (safely : (!m.completesSlaves id info ||
      beginsSafely env { m with slaveInfoIdMap := m.slaveInfoIdMap.insert id info }) = true)
    (handled : m.onSlaveSystemInfoAvailable env id info = some n) :
    (n.isBuilding = m.isBuilding ∧ n.commandRunner = m.commandRunner) ∨
      0 < n.buildFinishedCalls ∨ n.commandRunner = true := by
  unfold onSlaveSystemInfoAvailable at handled
  split at handled
  · cases handled
    exact .inl ⟨rfl, rfl⟩
  · rename_i unknown
    split at handled
    · cases handled
      exact .inl ⟨rfl, rfl⟩
    · rename_i matching
      rw [not_or, not_not, not_not] at matching
      dsimp only at handled
      split at handled
      · rename_i enough
        have last : m.completesSlaves id info = true := by
          simpa [completesSlaves, unknown, matching] using enough
        rw [last, Bool.not_true, Bool.false_or] at safely
        by_cases building : m.isBuilding = true
        · rw [startBuild, if_pos building] at handled
          cases handled
          exact .inl ⟨rfl, rfl⟩
        · exact .inr (startBuild_runs (by simpa using building) safely handled)
      · cases handled
        exact .inl ⟨rfl, rfl⟩

theorem runTask_begins {task : MainTask Edge} {rest : List (MainTask Edge)} (orderly : m.Orderly)
    (head : m.queue = task :: rest) (idle : m.isBuilding = false) (safely : m.stepsSafely (.taskRun env) = true)
    (ran : runTask env { m with queue := rest } task = some n) :
    n.isBuilding = false ∨ 0 < n.buildFinishedCalls ∨ n.commandRunner = true := by
  rw [stepsSafely, head] at safely
  cases task with
  | startBuild => exact .inr (startBuild_runs (by exact idle) safely ran)
  | slave notice =>
    cases notice with
    | onSlaveSystemInfoAvailable id info =>
      rcases slaveInfo_begins (m := { m with queue := rest }) safely ran with ⟨same, _⟩ | runs
      · exact .inl (same.trans idle)
      · exact .inr runs
    | onRemoteCommandDone id edgeId status output md5s =>
      have building := orderly.building_of_hasBuilder (onRemoteCommandDone_cases ran).1
      rw [idle] at building
      cases building
    | onSlaveStatusUpdate id status =>
      cases ran
      unfold onSlaveStatusUpdate
      split <;> exact .inl idle
    | onSlaveClose id =>
      cases ran
      exact .inl idle
  | onFetchTargetsDone result answer =>
    change onFetchTargetsDone env _ result = some n at ran
    unfold onFetchTargetsDone at ran
    split at ran
    · cases ran
      exact .inl idle
    · rename_i waited
      have listed : result.edge ∈ m.outstandingEdgeList := by
        simpa [hasRemoteCommandRunLocally] using waited
      have building := orderly.building_of_listed listed
      rw [idle] at building
      cases building
  | runCommand | quit =>
    cases ran
    exact .inl idle

theorem step_begins (orderly : m.Orderly) (safely : m.stepsSafely event = true)
    (runs : m.isBuilding = true → m.commandRunner = true) (stepped : m.step event = some n) :
    0 < n.buildFinishedCalls ∨ (n.isBuilding = true → n.commandRunner = true) := by
  have effect := step_effect stepped
  by_cases building : m.isBuilding = true
  · obtain ⟨_, runner⟩ := effect.runner building
    exact .inr fun _ => runner.trans (runs building)
  · have idle : m.isBuilding = false := by simpa using building
    have settled : n.isBuilding = false ∨ 0 < n.buildFinishedCalls ∨ n.commandRunner = true := by
      cases event with
      | noticePosted | startPosted =>
        cases stepped
        exact .inl idle
      | taskRun env =>
        simp only [step] at stepped
        split at stepped
        · rename_i task rest head
          exact runTask_begins orderly head idle safely stepped
        · cases stepped
      | exited pid status output env =>
        cases effect with
        | posted outside => rcases outside with ⟨impossible, _⟩ | ⟨_, impossible, _⟩ <;> cases impossible
        | exited found mapped finished => exact absurd (orderly.building_of_subprocess found) building
      | fetched job action =>
        cases effect with
        | posted outside => rcases outside with ⟨impossible, _⟩ | ⟨_, impossible, _⟩ <;> cases impossible
        | fetched at_ acted =>
          unfold fetchStepped
          split <;> exact .inl idle
    rcases settled with still | over_ | runner
    · right
      intro yes
      rw [still] at yes
      cases yes
    · exact .inl over_
    · exact .inr fun _ => runner

end MainThread

namespace Core

variable {disk : Edge → Disk} {a b : Option Edge × Core S}

theorem works_calls (works : Works disk a b) : a.2.buildFinishedCalls ≤ b.2.buildFinishedCalls := by
  induction works with
  | refl => exact Nat.le_refl _
  | tail _ work ih =>
    apply ih.trans
    cases work with
    | buildFinished => exact Nat.le_succ _
    | take | takeBack | send | launch | finishPhony | drop => exact Nat.le_refl _

end Core

namespace MainThread

variable {m n : MainThread S} {event : MainEvent Edge} {disk : Edge → Disk} {env : Environment Edge}

theorem CoreEffect.calls_le {c : Core S} (effect : CoreEffect m event c) :
    m.buildFinishedCalls ≤ c.buildFinishedCalls := by
  have finish_calls : ∀ {disk : Disk} {result : Result Edge} {d : Core S}, Finish disk m.core result d →
      m.buildFinishedCalls ≤ d.buildFinishedCalls := by
    intro disk result d finish
    rw [(finish_startsNothing finish).2]
    exact Nat.le_add_right _ _
  cases effect with
  | same => exact Nat.le_refl _
  | began start idle works => exact Core.works_calls works
  | asked works => exact Core.works_calls works
  | fetchDone head listed finish => exact finish_calls finish
  | exited found mapped finish works => exact (finish_calls finish).trans (Core.works_calls works)

theorem Effect.calls_of_fails (effect : Effect m event n) (fails : event.fails = true) :
    0 < n.buildFinishedCalls := by
  cases effect with
  | posted outside => rcases outside with ⟨rfl, _⟩ | ⟨notice, rfl, _⟩ <;> cases fails
  | noted | rejected | began | remoteDone | fetchDone | ran | fetched => cases fails
  | @exited pid status output env p edge ok k found mapped finished =>
    have calls := (finishCommand_startsNothing finished).2
    rw [if_neg (of_decide_eq_true fails)] at calls
    have more : k.buildFinishedCalls ≤ _ := Core.works_calls (afterFinish_moves env.disk k).works
    exact Nat.lt_of_lt_of_le (by omega) more

theorem Progressing.lateFetch (progressing : m.Progressing) {result : Result Edge} {answer : UInt32}
    {rest : List (MainTask Edge)} (head : m.queue = .onFetchTargetsDone result answer :: rest)
    (late : result.edge ∉ m.outstandingEdgeList) (stepped : m.step (.taskRun env) = some n) : n.Progressing := by
  simp only [step, head] at stepped
  change onFetchTargetsDone env _ result = some n at stepped
  rw [onFetchTargetsDone, if_pos (by exact decide_eq_true late)] at stepped
  cases stepped
  obtain ⟨orderly, exact_, accounted, live⟩ := progressing
  exact ⟨⟨orderly.executor, no_runCommand_tail head orderly.queue, orderly.unbuilt⟩, exact_, accounted, live⟩

theorem succeeds_working (safely : m.stepsSafely event = true) (passes : event.fails = false)
    (timely : ∀ env result answer rest, event = .taskRun env →
      m.queue = .onFetchTargetsDone result answer :: rest → result.edge ∈ m.outstandingEdgeList) :
    m.Succeeds event.working := by
  cases event with
  | noticePosted | startPosted | fetched => trivial
  | taskRun env =>
    refine ⟨env.working_starts, ?_⟩
    rintro edge ⟨result, answer, rest, head, rfl⟩
    have listed := timely env result answer rest rfl head
    simp only [stepsSafely, head, listed, not_true_eq_false, decide_false, Bool.false_or] at safely
    exact extracts_iff.mp safely
  | exited pid status output env =>
    refine ⟨by simpa [MainEvent.fails] using passes, env.working_starts, ?_⟩
    rintro edge ⟨p, found, mapped⟩
    simp only [stepsSafely, found, mapped, Option.all_some, Bool.and_eq_true] at safely
    exact extracts_iff.mp safely.1

theorem Progressing.step (progressing : m.Progressing) (commands : DistinctCommands S)
    (safely : m.stepsSafely event = true) (passes : event.fails = false) (stepped : m.step event = some n) :
    n.Progressing := by
  by_cases late : ∃ env result answer rest, event = .taskRun env ∧
      m.queue = .onFetchTargetsDone result answer :: rest ∧ result.edge ∉ m.outstandingEdgeList
  · obtain ⟨env, result, answer, rest, rfl, head, unlisted⟩ := late
    exact progressing.lateFetch head unlisted stepped
  · have succeeds := succeeds_working safely passes fun env result answer rest event head => by
      by_contra unlisted
      exact late ⟨env, result, answer, rest, event, head, unlisted⟩
    rw [← step_working safely] at stepped
    exact (step_effect stepped).progress commands succeeds progressing

/-- `BuildFinished` was called, or every edge is where it is looked for. -/
structure Unlost (m : MainThread S) : Prop where
  orderly : m.Orderly
  kept : 0 < m.buildFinishedCalls ∨ (m.Progressing ∧ (m.isBuilding = true → m.commandRunner = true))

theorem Unlost.step (unlost : m.Unlost) (commands : DistinctCommands S) (loses : m.losesNothing event = true)
    (stepped : m.step event = some n) : n.Unlost := by
  have effect := step_effect stepped
  refine ⟨effect.orderly unlost.orderly, ?_⟩
  have grows := (effect.core unlost.orderly).calls_le
  rcases unlost.kept with called | ⟨progressing, runs⟩
  · exact .inl (Nat.lt_of_lt_of_le called grows)
  · simp only [losesNothing, Bool.or_eq_true, decide_eq_true_eq] at loses
    by_cases fails : event.fails = true
    · exact .inl (effect.calls_of_fails fails)
    · have passes : event.fails = false := by simpa using fails
      rcases loses with (called | impossible) | safely
      · exact .inl (Nat.lt_of_lt_of_le called grows)
      · exact absurd impossible fails
      · rcases step_begins unlost.orderly safely runs stepped with called | runner
        · exact .inl called
        · exact .inr ⟨progressing.step commands safely passes stepped, runner⟩

/-- In every run in which neither `StartEdgeLocally` nor `ExtractDeps` fails before `BuildFinished` is called,
    every edge that the plan gave out and that is not finished is waited for or runs locally until then, and some
    local command runs as long as the build is not over. -/
theorem no_edge_lost_on_error_path (commands : DistinctCommands S) (events : List (MainEvent Edge))
    (loses : Along step (fun m event => m.losesNothing event = true) (MainThread.new S) events)
    (replay : run step (MainThread.new S) events = some m) :
    0 < m.buildFinishedCalls ∨
      (∀ edge ∈ S.plan.inProgress m.plan, edge ∈ m.outstandingEdgeList ∨
        ∃ p ∈ m.executor.subprocssToCommand, p.cause = edge) ∧
      (m.isBuilding = true → m.executor.subprocssToCommand ≠ []) := by
  have unlost : m.Unlost := run_invariant_along
    (fun _ _ _ unlost loses stepped => unlost.step commands loses stepped)
    ⟨new_orderly, .inr ⟨new_progressing, nofun⟩⟩ loses replay
  rcases unlost.kept with called | ⟨progressing, runs⟩
  · exact .inl called
  · by_cases called : 0 < m.buildFinishedCalls
    · exact .inl called
    · right
      constructor
      · intro edge member
        rcases progressing.accounted.within edge member with held | running | waited
        · cases held
        · rw [CommandExecutor.others_none] at running
          exact .inr running
        · exact .inl waited
      · intro building
        exact (progressing.live (runs building)).resolve_left called

theorem no_edge_lost_on_error_path_objects :
    ∃ m, run step (MainThread.new objects) (allRunning ++ [.exited 0 .success "" working]) = some m ∧
      m.isBuilding = true ∧ m.buildFinishedCalls = 0 ∧ m.executor.subprocssToCommand ≠ [] ∧
      (∀ edge ∈ objects.plan.inProgress m.plan, edge ∈ m.outstandingEdgeList ∨
        ∃ p ∈ m.executor.subprocssToCommand, p.cause = edge) := by
  have built : decide (Along step (fun m event => m.losesNothing event = true) (MainThread.new objects)
      (allRunning ++ [.exited 0 .success "" working])) &&
      (run step (MainThread.new objects) (allRunning ++ [.exited 0 .success "" working])).any
        fun m => m.isBuilding && decide (m.buildFinishedCalls = 0) := by
    decide +kernel
  rw [Bool.and_eq_true, decide_eq_true_eq, Option.any_eq_true] at built
  obtain ⟨loses, m, replay, state⟩ := built
  obtain ⟨building, calls⟩ := Bool.and_eq_true_iff.mp state
  have calls : m.buildFinishedCalls = 0 := of_decide_eq_true calls
  rcases no_edge_lost_on_error_path objects_distinctCommands _ loses replay with called | ⟨kept, runs⟩
  · rw [calls] at called
    cases called
  · exact ⟨m, replay, building, calls, runs building, kept⟩

/-- The directory of the first object cannot be created, and the master waits for ever. -/
theorem edge_lost_in_initial_build :
    ¬ ∀ (events : List (MainEvent (Fin 5))) (m : MainThread objects),
      run step (MainThread.new objects) events = some m → 0 < m.buildFinishedCalls ∨
        (∀ edge ∈ objects.plan.inProgress m.plan, edge ∈ m.outstandingEdgeList ∨
          ∃ p ∈ m.executor.subprocssToCommand, p.cause = edge) ∧
        (m.isBuilding = true → m.executor.subprocssToCommand ≠ []) := by
  have lost : (run step (MainThread.new objects) [.startPosted, .taskRun
      { working with disk := fun _ => { workingDisk with createDirectory := fun _ => false } }]).any fun m =>
        m.isBuilding && decide (m.buildFinishedCalls = 0) && m.executor.subprocssToCommand.isEmpty := by
    decide +kernel
  intro always
  obtain ⟨m, replay, state⟩ := Option.any_eq_true _ _ |>.mp lost
  simp only [Bool.and_eq_true, decide_eq_true_eq, List.isEmpty_iff] at state
  obtain ⟨⟨building, calls⟩, idle⟩ := state
  rcases always _ m replay with called | ⟨_, runs⟩
  · rw [calls] at called
    cases called
  · exact runs building idle

end MainThread

end DistributedNinja.Master
