import DistributedNinja.Master.Bookkeeping

namespace DistributedNinja.Master

open Lib Rpc Proto Common Ninja

variable {Edge : Type} [DecidableEq Edge] {S : Setting Edge}

/-- No two edges that run a command run the same one. -/
def DistinctCommands (S : Setting Edge) : Prop :=
  ∀ a b, S.manifest.isPhony a = false → S.manifest.isPhony b = false →
    S.manifest.evaluateCommand a = S.manifest.evaluateCommand b → a = b

def DistinctHashes (S : Setting Edge) : Prop :=
  ∀ a b, MainThread.hashEdge S a = MainThread.hashEdge S b → a = b

namespace Core

/-- A subprocess runs the command of its edge, and its exit will be taken for this edge's, which is not
    finished. -/
structure Runs (c : Core S) (p : Subprocess Edge) : Prop where
  command : p.command = S.manifest.evaluateCommand p.cause
  real : S.manifest.isPhony p.cause = false
  mapped : c.commandEdgeMap p.command = some p.cause
  unfinished : .finished p.cause ∉ c.log

structure Exact (gone : Option Nat) (hand : Option Edge) (c : Core S) : Prop extends Base hand c where
  old : ∀ pid, gone = some pid → pid < c.executor.nextPid
  runs : ∀ p ∈ c.executor.others gone, c.Runs p
  apart : ((c.executor.others gone).map Subprocess.cause).Nodup
  once : ∀ edge, c.log.count (.finished edge) ≤ 1

variable {gone : Option Nat} {hand : Option Edge} {c d : Core S} {edge : Edge}

theorem exact_new (plan : S.plan.State) : Exact none none { Core.new S with plan := plan } :=
  ⟨base_new plan, nofun, nofun, List.nodup_nil, fun _ => Nat.zero_le 1⟩

theorem Runs.of_log {p : Subprocess Edge} (runs : c.Runs p) (map : d.commandEdgeMap = c.commandEdgeMap)
    (log : .finished p.cause ∈ d.log → .finished p.cause ∈ c.log) : d.Runs p :=
  ⟨runs.command, runs.real, map ▸ runs.mapped, fun finished => runs.unfinished (log finished)⟩

theorem Exact.cause_started (exact_ : Exact gone hand c) {p : Subprocess Edge}
    (member : p ∈ c.executor.others gone) : .started p.cause ∈ c.log :=
  exact_.mapped _ _ (exact_.runs p member).mapped

theorem Exact.keep (exact_ : Exact gone hand c) {other : Option Edge} (base : Base other d)
    (executor : d.executor = c.executor) (map : d.commandEdgeMap = c.commandEdgeMap)
    (log : ∀ edge, d.log.count (.finished edge) = c.log.count (.finished edge)) :
    Exact gone other d := by
  have same : ∀ edge, .finished edge ∈ d.log → .finished edge ∈ c.log := by
    intro edge finished
    rw [← List.count_pos_iff, log] at finished
    exact List.count_pos_iff.mp finished
  refine ⟨base, executor ▸ exact_.old, ?_, executor ▸ exact_.apart, fun edge => log edge ▸ exact_.once edge⟩
  intro p member
  exact (exact_.runs p (executor ▸ member)).of_log map (same _)

theorem Exact.finish (exact_ : Exact gone hand c) (found : .found edge ∈ c.log)
    (notWaiting : edge ∉ hand.toList ++ c.outstandingEdgeList) (unfinished : .finished edge ∉ c.log)
    (notRunning : ∀ p ∈ c.executor.others gone, p.cause ≠ edge) : Exact gone hand (c.finish edge) := by
  refine ⟨exact_.toBase.finish found notWaiting, exact_.old, ?_, exact_.apart, ?_⟩
  · intro p member
    apply (exact_.runs p member).of_log (d := c.finish edge) rfl
    intro finished
    rcases List.mem_append.mp finished with finished | last
    · exact finished
    · cases List.mem_singleton.mp last
      exact absurd rfl (notRunning p member)
  · intro other
    rw [Core.finish, List.count_append, List.count_singleton]
    have before := exact_.once other
    split
    · rename_i same
      cases eq_of_beq same
      rw [List.count_eq_zero.mpr unfinished]
    · exact before

theorem Exact.finishPhony (exact_ : Exact gone (some edge) c) : Exact gone none (c.finish edge) := by
  obtain ⟨found, notStarted, unfinished⟩ := exact_.idle edge (by simp)
  have dropped : Exact gone none c := exact_.keep exact_.toBase.drop rfl rfl fun _ => rfl
  apply dropped.finish found (List.nodup_cons.mp exact_.distinct).1 unfinished
  intro p member same
  exact notStarted (same ▸ exact_.cause_started member)

theorem Exact.launch (exact_ : Exact gone (some edge) c) (distinct : DistinctCommands S)
    (room : c.executor.canRunMore = true) (command : S.manifest.isPhony edge = false) :
    Exact gone none (c.launch edge) := by
  obtain ⟨_, notStarted, unfinished⟩ := exact_.idle edge (by simp)
  have others := CommandExecutor.others_runCommand room (S.manifest.evaluateCommand edge) edge exact_.old
  have different : ∀ p ∈ c.executor.others gone, p.cause ≠ edge :=
    fun p member same => notStarted (same ▸ exact_.cause_started member)
  refine ⟨exact_.toBase.launch, ?_, ?_, ?_, ?_⟩
  · intro pid same
    have below := exact_.old pid same
    simp only [Core.launch, CommandExecutor.runCommand_of_canRunMore room]
    omega
  · intro p member
    rw [Core.launch, others] at member
    rcases List.mem_append.mp member with member | last
    · obtain ⟨own, real, mapped, open_⟩ := exact_.runs p member
      refine ⟨own, real, ?_, ?_⟩
      · have otherCommand : p.command ≠ S.manifest.evaluateCommand edge := by
          intro same
          exact different p member (distinct _ _ real command (own ▸ same))
        simp only [Core.launch, Function.update_of_ne otherCommand, mapped]
      · simp [Core.launch, open_]
    · rw [List.mem_singleton.mp last]
      exact ⟨rfl, command, by simp [Core.launch], by simp [Core.launch, unfinished]⟩
  · rw [Core.launch, others, List.map_append, List.map_singleton]
    apply List.Nodup.append exact_.apart (List.nodup_singleton _)
    intro cause before after
    obtain ⟨p, member, same⟩ := List.mem_map.mp before
    rw [List.mem_singleton.mp after] at same
    exact different p member same
  · intro other
    simp only [Core.launch, List.count_append, List.count_singleton, reduceCtorEq, beq_iff_eq, ↓reduceIte,
      Nat.add_zero]
    exact exact_.once other

theorem Exact.work {disk : Edge → Disk} {a b : Option Edge × Core S} (work : Work disk a b)
    (distinct : DistinctCommands S) (exact_ : Exact gone a.1 a.2) : Exact gone b.1 b.2 := by
  have base := exact_.toBase.work work
  cases work with
  | take takes => exact exact_.keep base rfl rfl fun edge => by simp
  | takeBack front => exact exact_.keep base rfl rfl fun edge => rfl
  | send => exact exact_.keep base rfl rfl fun edge => rfl
  | launch room command => exact exact_.launch distinct room command
  | finishPhony phony => exact exact_.finishPhony
  | drop failed => exact exact_.keep base rfl rfl fun edge => rfl
  | buildFinished => exact exact_.keep base rfl rfl fun edge => rfl

theorem Exact.works {disk : Edge → Disk} {a b : Option Edge × Core S} (works : Works disk a b)
    (distinct : DistinctCommands S) (exact_ : Exact gone a.1 a.2) : Exact gone b.1 b.2 := by
  induction works with
  | refl => exact exact_
  | tail _ work ih => exact ih.work work distinct

theorem Exact.finishCommand {disk : Disk} {result : Result Edge} (exact_ : Exact gone none c)
    (found : .found result.edge ∈ c.log) (unfinished : .finished result.edge ∉ c.log)
    (notRunning : ∀ p ∈ c.executor.others gone, p.cause ≠ result.edge) (finish : Finish disk c result d) :
    Exact gone none d := by
  have base := exact_.toBase.finishCommand found finish
  cases finish with
  | failed failure => exact exact_.keep base rfl rfl fun edge => rfl
  | rejected success deps => exact exact_.keep base rfl rfl fun edge => rfl
  | @completed plan success unreturned inProgress =>
    have struck : Exact gone none
        { c with outstandingEdgeList := c.outstandingEdgeList.erase result.edge, plan := plan } :=
      exact_.keep (exact_.toBase.strike unreturned result.edge) rfl rfl fun edge => rfl
    exact struck.finish found exact_.distinct.not_mem_erase unfinished notRunning

theorem Exact.exit (exact_ : Exact none none c) (wf : c.executor.WellFormed) {pid : Nat}
    {p : Subprocess Edge} (found : c.executor.find? pid = some p) :
    Exact (some pid) none c ∧ c.Runs p ∧ ∀ q ∈ c.executor.others (some pid), q.cause ≠ p.cause := by
  obtain ⟨member, same⟩ := CommandExecutor.mem_of_find? found
  have all := CommandExecutor.others_none c.executor
  have fewer : c.executor.others (some pid) ⊆ c.executor.others none := by
    rw [all]
    exact List.filter_subset_self _
  refine ⟨⟨exact_.toBase, ?_, ?_, ?_, exact_.once⟩, exact_.runs p (all ▸ member), ?_⟩
  · intro other isPid
    cases isPid
    exact same ▸ wf.fresh p member
  · intro q listed
    exact exact_.runs q (fewer listed)
  · have apart := exact_.apart
    rw [all] at apart
    exact apart.sublist (List.filter_sublist.map _)
  · intro q listed sameCause
    have apart := exact_.apart
    rw [all] at apart
    have equal : q = p := List.inj_on_of_nodup_map apart (List.mem_filter.mp listed).1 member sameCause
    have different := (List.mem_filter.mp listed).2
    rw [equal, same] at different
    simp at different

theorem Exact.remove {pid : Nat} (exact_ : Exact (some pid) none c) : Exact none none (c.removed pid) := by
  have rest : (c.removed pid).executor.others none = c.executor.others (some pid) := by
    rw [CommandExecutor.others_none]
    exact CommandExecutor.exited_subprocesses _ _
  refine ⟨?_, nofun, ?_, ?_, exact_.once⟩
  · exact ⟨exact_.fresh, exact_.distinct, exact_.idle, exact_.mapped, exact_.started, exact_.finished⟩
  · intro p member
    obtain ⟨own, real, mapped, open_⟩ := exact_.runs p (rest ▸ member)
    exact ⟨own, real, mapped, open_⟩
  · rw [rest]
    exact exact_.apart

variable {disk : Edge → Disk} {a b : Option Edge × Core S}

theorem works_log (works : Works disk a b) :
    ∃ new, b.2.log = a.2.log ++ new ∧
      ∀ edge, .finished edge ∈ new → S.manifest.isPhony edge = true := by
  induction works with
  | refl => exact ⟨[], by simp, nofun⟩
  | @tail c d _ work ih =>
    obtain ⟨new, log, phony⟩ := ih
    have extend : ∀ call, (∀ edge, call = .finished edge → S.manifest.isPhony edge = true) →
        ∃ newer, c.2.log ++ [call] = a.2.log ++ newer ∧
          ∀ edge, .finished edge ∈ newer → S.manifest.isPhony edge = true := by
      intro call fine
      refine ⟨new ++ [call], by rw [log, List.append_assoc], ?_⟩
      intro edge member
      rcases List.mem_append.mp member with member | last
      · exact phony edge member
      · exact fine edge (List.mem_singleton.mp last).symm
    cases work with
    | take takes => exact extend _ nofun
    | takeBack front => exact ⟨new, log, phony⟩
    | send => exact ⟨new, log, phony⟩
    | launch room command => exact extend _ nofun
    | finishPhony isPhony =>
      apply extend
      intro edge same
      cases same
      exact isPhony
    | drop failed => exact ⟨new, log, phony⟩
    | buildFinished => exact ⟨new, log, phony⟩

theorem finish_log {disk : Disk} {result : Result Edge} (finish : Finish disk c result d) :
    ∃ new, d.log = c.log ++ new ∧
      ∀ edge, .finished edge ∈ new → edge = result.edge ∧ result.status = .success := by
  cases finish with
  | failed failure => exact ⟨[], by simp, nofun⟩
  | rejected success deps => exact ⟨[], by simp, nofun⟩
  | completed success unreturned inProgress =>
    refine ⟨[.finished result.edge], rfl, ?_⟩
    intro edge member
    cases List.mem_singleton.mp member
    exact ⟨rfl, success⟩

end Core

namespace MainThread

variable {m n : MainThread S} {event : MainEvent Edge}

structure Answered (m : MainThread S) : Prop where
  requested : ∀ id edge, m.outstandingEdges id = some edge → hashEdge S edge = id
  fetching : ∀ f ∈ m.pool, hashEdge S f.result.edge = f.answer
  fetched : ∀ result answer, .onFetchTargetsDone result answer ∈ m.queue →
    hashEdge S result.edge = answer

theorem Frame.answered {via : Int → Prop} (frame : Frame via m n) (answered : m.Answered) :
    n.Answered := by
  refine ⟨?_, frame.pool ▸ answered.fetching, ?_⟩
  · intro id edge found
    rcases frame.outstanding id edge found with found | same
    · exact answered.requested id edge found
    · exact same
  · intro result answer member
    obtain ⟨count, shape⟩ := frame.queue
    rw [shape] at member
    rcases List.mem_append.mp member with member | member
    · exact answered.fetched result answer member
    · cases List.eq_of_mem_replicate member

theorem Answered.tail (answered : m.Answered) {task : MainTask Edge} {rest : List (MainTask Edge)}
    (head : m.queue = task :: rest) : Answered { m with queue := rest } := by
  refine ⟨answered.requested, answered.fetching, ?_⟩
  intro result answer member
  exact answered.fetched result answer (head ▸ List.mem_cons_of_mem _ member)

theorem Effect.answered (effect : Effect m event n) (answered : m.Answered) : n.Answered := by
  cases effect with
  | posted outside =>
    refine ⟨answered.requested, answered.fetching, ?_⟩
    intro result answer member
    rcases List.mem_append.mp member with member | member
    · exact answered.fetched result answer member
    · rcases outside with ⟨_, rfl⟩ | ⟨notice, _, rfl⟩ <;> cases List.mem_singleton.mp member
  | noted slaves quit head known =>
    have rest := answered.tail head
    exact ⟨rest.requested, rest.fetching, rest.fetched⟩
  | rejected head =>
    have rest := answered.tail head
    exact ⟨rest.requested, rest.fetching, rest.fetched⟩
  | began slaves head known idle started =>
    obtain ⟨plan, runner, _, moves⟩ := startBuild_moves (by exact idle) started
    have rest := answered.tail head
    exact moves.frame.answered ⟨rest.requested, rest.fetching, rest.fetched⟩
  | @remoteDone env id edgeId status output md5s rest _ head done =>
    have asked := (asked_moves env.disk { m with queue := rest } id).frame.answered (answered.tail head)
    obtain ⟨_, rfl | ⟨fetch, info, _, outstanding, answers, _, rfl⟩⟩ := onRemoteCommandDone_cases done
    · exact asked
    · refine ⟨?_, ?_, asked.fetched⟩
      · intro other edge found
        by_cases at_ : other = edgeId
        · simp [fetchPosted, at_] at found
        · exact asked.requested other edge (by simpa [fetchPosted, at_] using found)
      · intro f member
        rcases List.mem_append.mp member with member | last
        · exact asked.fetching f member
        · rw [List.mem_singleton.mp last, answers]
          exact asked.requested edgeId _ outstanding
  | fetchDone head listed finished =>
    exact (finishCommand_finish (fun _ => False) finished).2.answered (answered.tail head)
  | ran head =>
    have rest := answered.tail head
    exact ⟨rest.requested, rest.fetching, rest.fetched⟩
  | @exited pid status output env p edge ok k found mapped finished =>
    have finish := (finishCommand_finish (fun _ => False) finished).2.answered answered
    have after := (afterFinish_moves env.disk k).frame.answered finish
    refine ⟨after.requested, after.fetching, ?_⟩
    intro result answer member
    rcases List.mem_append.mp member with member | member
    · exact after.fetched result answer member
    · obtain ⟨posted, _, same⟩ := List.mem_map.mp member
      cases same
  | @fetched job action f step at_ acted =>
    have own := answered.fetching f (List.mem_of_getElem? at_)
    unfold fetchStepped
    split
    · rename_i next continues
      obtain ⟨result, answer, _⟩ := Fetch.act_keeps acted continues
      refine ⟨answered.requested, ?_, answered.fetched⟩
      intro g member
      rcases List.mem_or_eq_of_mem_set member with member | rfl
      · exact answered.fetching g member
      · rw [result, answer]
        exact own
    · refine ⟨answered.requested, ?_, ?_⟩
      · intro g member
        exact answered.fetching g (List.mem_of_mem_eraseIdx member)
      · intro result answer member
        rcases List.mem_append.mp member with member | member
        · exact answered.fetched result answer member
        · split at member
          · cases List.mem_singleton.mp member
            exact own
          · cases member

theorem CoreEffect.exact_ {c : Core S} (effect : CoreEffect m event c) (orderly : m.Orderly)
    (distinct : DistinctCommands S) (exact_ : Core.Exact none none m.core) : Core.Exact none none c := by
  cases effect with
  | same => exact exact_
  | began start idle works =>
    rw [start] at works
    exact (Core.exact_new _).works works distinct
  | asked works => exact exact_.works works distinct
  | fetchDone head listed finish =>
    obtain ⟨found, notStarted, unfinished⟩ := exact_.idle _ listed
    apply exact_.finishCommand found unfinished _ finish
    intro p member same
    exact notStarted (same ▸ exact_.cause_started member)
  | exited found mapped finish works =>
    obtain ⟨exiting, runs, apart⟩ := exact_.exit orderly.executor found
    obtain rfl : _ = _ := Option.some.inj (mapped.symm.trans runs.mapped)
    have known := exact_.started _ (exact_.mapped _ _ mapped)
    exact ((exiting.finishCommand known runs.unfinished apart finish).works works distinct).remove

structure Complete (m : MainThread S) : Prop where
  orderly : m.Orderly
  exact_ : Core.Exact none none m.core
  answered : m.Answered

theorem new_complete : (MainThread.new S).Complete :=
  ⟨new_orderly, Core.exact_new _, nofun, nofun, nofun⟩

theorem Complete.step (complete : m.Complete) (distinct : DistinctCommands S)
    (stepped : m.step event = some n) : n.Complete :=
  have effect := step_effect stepped
  ⟨effect.orderly complete.orderly,
    (effect.core complete.orderly).exact_ complete.orderly distinct complete.exact_,
    effect.answered complete.answered⟩

/-- The step handles a successful exit of a subprocess that was started for `edge`, or the fetched outputs of
    `edge`, the one edge with the id that the slave's response carried. -/
def Completes (m : MainThread S) (edge : Edge) : MainEvent Edge → Prop
  | .exited pid status _ _ => status = .success ∧ ∃ p, m.executor.find? pid = some p ∧ p.cause = edge
  | .taskRun _ => ∃ result answer rest, m.queue = .onFetchTargetsDone result answer :: rest ∧
      result.edge = edge ∧ ∀ other, hashEdge S other = answer ↔ other = edge
  | _ => False

theorem Complete.finishes (complete : m.Complete) (hashes : DistinctHashes S)
    (stepped : m.step event = some n) :
    ∃ new, n.log = m.log ++ new ∧
      ∀ edge, .finished edge ∈ new → S.manifest.isPhony edge = true ∨ m.Completes edge event := by
  have effect := (step_effect stepped).core complete.orderly
  change ∃ new, n.core.log = m.core.log ++ new ∧ _
  generalize n.core = c at effect
  cases effect with
  | same => exact ⟨[], by simp, nofun⟩
  | began start idle works =>
    obtain ⟨new, log, phony⟩ := Core.works_log works
    exact ⟨new, log, fun edge member => .inl (phony edge member)⟩
  | asked works =>
    obtain ⟨new, log, phony⟩ := Core.works_log works
    exact ⟨new, log, fun edge member => .inl (phony edge member)⟩
  | fetchDone head listed finish =>
    obtain ⟨new, log, own⟩ := Core.finish_log finish
    refine ⟨new, log, ?_⟩
    intro edge member
    obtain ⟨rfl, _⟩ := own edge member
    refine .inr ⟨_, _, _, head, rfl, ?_⟩
    have answer := complete.answered.fetched _ _ (head ▸ List.mem_cons_self)
    intro other
    constructor
    · intro same
      exact hashes other _ (same.trans answer.symm)
    · rintro rfl
      exact answer
  | @exited pid status output env p edge c d found mapped finish works =>
    obtain ⟨_, runs, _⟩ := complete.exact_.exit complete.orderly.executor found
    obtain rfl : _ = _ := Option.some.inj (mapped.symm.trans runs.mapped)
    obtain ⟨new, log, own⟩ := Core.finish_log finish
    obtain ⟨newer, logAfter, phony⟩ := Core.works_log works
    refine ⟨new ++ newer, ?_, ?_⟩
    · calc d.log = c.log ++ newer := logAfter
        _ = m.core.log ++ new ++ newer := by rw [log]
        _ = m.core.log ++ (new ++ newer) := List.append_assoc _ _ _
    · intro edge member
      rcases List.mem_append.mp member with member | member
      · obtain ⟨rfl, success⟩ := own edge member
        exact .inr ⟨success, _, found, rfl⟩
      · exact .inl (phony edge member)

/-- In every run of the master `EdgeFinished` is called at most once for an edge, only after the plan gave
    the edge out, and for an edge that is not phony only while MAIN handles its own completion. -/
theorem edge_finished_once_and_sound (commands : DistinctCommands S) (hashes : DistinctHashes S)
    (events : List (MainEvent Edge)) (replay : run step (MainThread.new S) events = some m) :
    (∀ edge, m.log.count (.finished edge) ≤ 1) ∧
      (∀ edge, Preceded (.found edge) (.finished edge) m.log) ∧
      ∀ event n, m.step event = some n → ∃ new, n.log = m.log ++ new ∧
        ∀ edge, .finished edge ∈ new → S.manifest.isPhony edge = true ∨ m.Completes edge event := by
  have complete : m.Complete := run_invariant
    (fun _ _ _ complete stepped => complete.step commands stepped) new_complete replay
  exact ⟨complete.exact_.once, complete.exact_.finished,
    fun event n stepped => complete.finishes hashes stepped⟩

section Objects

/-- Four objects and a phony edge for all of them. -/
def objectsManifest : Manifest (Fin 5) where
  ruleName edge := if edge = 4 then "phony" else "cc"
  isPhony edge := decide (edge = 4)
  evaluateCommand edge := if edge = 4 then "" else "cc -c " ++ toString edge.val ++ ".c"
  inputs edge := if edge = 4 then ["0.o", "1.o", "2.o", "3.o"] else [toString edge.val ++ ".c"]
  outputs edge := if edge = 4 then ["all"] else [toString edge.val ++ ".o"]
  unescapedRspfile _ := ""
  rspfileContent _ := ""
  deps _ := ""
  unescapedDepfile _ := ""
  restat _ := false
  mtime _ := 0
  inEdge path := (List.finRange 5).find? fun edge =>
    path = if edge = 4 then "all" else toString edge.val ++ ".o"
  outputs_inEdge := by decide +kernel

def objects : Setting (Fin 5) where
  manifest := objectsManifest
  plan := graphPlan objectsManifest (by decide +kernel) (fun _ => [0, 1, 2, 3, 4]) fun _ => by decide +kernel
  hash := sumHash
  parseDepfile _ := .ok []
  processors := 1
  operatingSystemName := "Linux"
  operatingSystemArchitecture := "x86_64"
  maxSlaveAmount := 100

def fourthObject : Fin 5 := 3

def workingDisk : Disk := ⟨fun _ => true, fun _ _ => true, fun _ => .ok "", fun _ => 0, fun _ => 1, true, true⟩

def working : Environment (Fin 5) := ⟨fun _ => workingDisk, some ["all"], fun _ => .ok false⟩

def linuxSlave : SlaveInfo := ⟨1, 0, 0, "Linux", "", "x86_64", "10.0.0.2", 0, 0, 0⟩

/-- A slave joins, the build starts, and the fourth object is built on the slave and fetched. -/
def remoteObject : List (MainEvent (Fin 5)) :=
  [.noticePosted (.onSlaveSystemInfoAvailable 0 linuxSlave), .taskRun working, .startPosted, .taskRun working,
    .noticePosted (.onRemoteCommandDone 0 (hashEdge objects 3) .success "" ["d3"]), .taskRun working,
    .fetched 0 .delete, .fetched 0 (.create true), .fetched 0 .write, .fetched 0 (.finish "d3"),
    .taskRun working]

theorem objects_distinctCommands : DistinctCommands objects := by
  unfold DistinctCommands
  decide +kernel

theorem objects_distinctHashes : DistinctHashes objects := by
  unfold DistinctHashes
  decide +kernel

theorem edge_finished_once_and_sound_objects :
    ∃ m, run step (MainThread.new objects) remoteObject = some m ∧ .finished 3 ∈ m.log ∧
      (∀ edge, m.log.count (.finished edge) ≤ 1) ∧
      (∀ edge, Preceded (.found edge) (.finished edge) m.log) ∧
      ∀ event n, m.step event = some n → ∃ new, n.log = m.log ++ new ∧
        ∀ edge, .finished edge ∈ new → objects.manifest.isPhony edge = true ∨ m.Completes edge event := by
  have finished : (run step (MainThread.new objects) remoteObject).map
      (fun m => decide (.finished 3 ∈ m.log)) = some true := by
    decide +kernel
  obtain ⟨m, replay, member⟩ := Option.map_eq_some_iff.mp finished
  exact ⟨m, replay, of_decide_eq_true member,
    edge_finished_once_and_sound objects_distinctCommands objects_distinctHashes remoteObject replay⟩

end Objects

end MainThread

end DistributedNinja.Master
