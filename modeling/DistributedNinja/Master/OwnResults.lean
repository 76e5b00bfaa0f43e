import DistributedNinja.Master.Completion

namespace DistributedNinja.Master

open Lib Rpc Proto Common Ninja

variable {Edge : Type} [DecidableEq Edge] {S : Setting Edge}

namespace Core

structure Local (gone : Option Nat) (hand : Option Edge) (c : Core S) : Prop extends Base hand c where
  old : ∀ pid, gone = some pid → pid < c.executor.nextPid
  launched : ∀ p ∈ c.executor.others gone, .started p.cause ∈ c.log
  apart : ((c.executor.others gone).map Subprocess.cause).Nodup
  own : ((c.executor.others gone).map Subprocess.command).Nodup →
    ∀ p ∈ c.executor.others gone, c.commandEdgeMap p.command = some p.cause

variable {gone : Option Nat} {hand : Option Edge} {c d : Core S} {edge : Edge}

theorem local_new (plan : S.plan.State) : Local none none { Core.new S with plan := plan } :=
  ⟨base_new plan, nofun, nofun, List.nodup_nil, fun _ => nofun⟩

theorem Local.keep (locals : Local gone hand c) {other : Option Edge} (base : Base other d)
    (executor : d.executor = c.executor) (map : d.commandEdgeMap = c.commandEdgeMap)
    (log : ∀ edge, .started edge ∈ c.log → .started edge ∈ d.log) : Local gone other d := by
  refine ⟨base, executor ▸ locals.old, ?_, executor ▸ locals.apart, ?_⟩
  · intro p member
    exact log _ (locals.launched p (executor ▸ member))
  · rw [executor, map]
    exact locals.own

theorem Local.launch (locals : Local gone (some edge) c) (room : c.executor.canRunMore = true) :
    Local gone none (c.launch edge) := by
  obtain ⟨_, notStarted, _⟩ := locals.idle edge (by simp)
  have others := CommandExecutor.others_runCommand room (S.manifest.evaluateCommand edge) edge locals.old
  constructor
  · exact locals.toBase.launch
  · intro pid same
    have below := locals.old pid same
    simp only [Core.launch, CommandExecutor.runCommand_of_canRunMore room]
    omega
  · intro p member
    rw [Core.launch, others] at member
    rcases List.mem_append.mp member with member | last
    · exact List.mem_append_left _ (locals.launched p member)
    · rw [List.mem_singleton.mp last]
      simp [Core.launch]
  · rw [Core.launch, others, List.map_append, List.map_singleton]
    apply List.Nodup.append locals.apart (List.nodup_singleton _)
    intro cause before after
    obtain ⟨p, member, same⟩ := List.mem_map.mp before
    have equal : p.cause = edge := same.trans (List.mem_singleton.mp after)
    exact notStarted (equal ▸ locals.launched p member)
  · intro distinct p member
    rw [Core.launch, others] at member distinct
    rw [List.map_append, List.map_singleton] at distinct
    obtain ⟨before, _, different⟩ := List.nodup_append.mp distinct
    rcases List.mem_append.mp member with member | last
    · have other : p.command ≠ S.manifest.evaluateCommand edge :=
        different _ (List.mem_map_of_mem member) _ (by simp)
      simp only [Core.launch, Function.update_of_ne other]
      exact locals.own before p member
    · rw [List.mem_singleton.mp last]
      simp [Core.launch]

theorem Local.work {disk : Edge → Disk} {a b : Option Edge × Core S} (work : Work disk a b)
    (locals : Local gone a.1 a.2) : Local gone b.1 b.2 := by
  have base := locals.toBase.work work
  cases work with
  | take takes => exact locals.keep base rfl rfl fun edge => List.mem_append_left _
  | launch room command => exact locals.launch room
  | finishPhony phony => exact locals.keep base rfl rfl fun edge => List.mem_append_left _
  | takeBack | send | drop | buildFinished => exact locals.keep base rfl rfl fun edge => id

theorem Local.works {disk : Edge → Disk} {a b : Option Edge × Core S} (works : Works disk a b)
    (locals : Local gone a.1 a.2) : Local gone b.1 b.2 := by
  induction works with
  | refl => exact locals
  | tail _ work ih => exact ih.work work

theorem Local.finishCommand {disk : Disk} {result : Result Edge} (locals : Local gone none c)
    (found : .found result.edge ∈ c.log) (finish : Finish disk c result d) : Local gone none d := by
  have base := locals.toBase.finishCommand found finish
  cases finish with
  | failed failure => exact locals.keep base rfl rfl fun edge => id
  | rejected success deps => exact locals.keep base rfl rfl fun edge => id
  | completed success unreturned inProgress => exact locals.keep base rfl rfl fun edge => List.mem_append_left _

theorem Local.exit (locals : Local none none c) (wf : c.executor.WellFormed)
    (distinct : (c.executor.subprocssToCommand.map Subprocess.command).Nodup) {pid : Nat}
    {p : Subprocess Edge} (found : c.executor.find? pid = some p) : Local (some pid) none c := by
  obtain ⟨member, same⟩ := CommandExecutor.mem_of_find? found
  have all := CommandExecutor.others_none c.executor
  have fewer : ∀ q ∈ c.executor.others (some pid), q ∈ c.executor.others none := by
    intro q listed
    rw [all]
    exact (List.mem_filter.mp listed).1
  constructor
  · exact locals.toBase
  · intro other isPid
    cases isPid
    exact same ▸ wf.fresh p member
  · intro q listed
    exact locals.launched q (fewer q listed)
  · have apart := locals.apart
    rw [all] at apart
    exact apart.sublist (List.filter_sublist.map _)
  · intro _ q listed
    exact locals.own (all ▸ distinct) q (fewer q listed)

theorem Local.remove {pid : Nat} (locals : Local (some pid) none c) : Local none none (c.removed pid) := by
  have rest : (c.removed pid).executor.others none = c.executor.others (some pid) := by
    rw [CommandExecutor.others_none]
    exact CommandExecutor.exited_subprocesses _ _
  constructor
  · exact ⟨locals.fresh, locals.distinct, locals.idle, locals.mapped, locals.started, locals.finished⟩
  · exact nofun
  · intro p member
    exact locals.launched p (rest ▸ member)
  · rw [rest]
    exact locals.apart
  · rw [rest]
    exact locals.own

end Core

namespace MainThread

variable {m n : MainThread S} {event : MainEvent Edge}

/-- No two of the commands that run are the same string. -/
def CommandsApart (m : MainThread S) : Prop := (m.executor.subprocssToCommand.map Subprocess.command).Nodup

/-- Whichever subprocess exits next, `OnCommandFinished` takes its result for the edge it was launched for,
    and the exit of no other for this edge's; so that edge is the one that its step finishes, with phony ones. -/
structure OwnResults (m : MainThread S) : Prop where
  completes : ∀ pid p, m.executor.find? pid = some p → m.commandEdgeMap p.command = some p.cause
  alone : ∀ pid other p q, m.executor.find? pid = some p → m.executor.find? other = some q →
    m.commandEdgeMap q.command = some p.cause → other = pid
  finishes : ∀ pid p status output env n, m.executor.find? pid = some p →
    m.step (.exited pid status output env) = some n → ∃ new, n.log = m.log ++ new ∧
      ∀ edge, .finished edge ∈ new → S.manifest.isPhony edge = true ∨ edge = p.cause

theorem CoreEffect.local_ {c : Core S} (effect : CoreEffect m event c) (orderly : m.Orderly)
    (apart : m.CommandsApart) (locals : Core.Local none none m.core) : Core.Local none none c := by
  cases effect with
  | same => exact locals
  | began start idle works =>
    rw [start] at works
    exact (Core.local_new _).works works
  | asked works => exact locals.works works
  | fetchDone head listed finish => exact locals.finishCommand (locals.idle _ listed).1 finish
  | exited found mapped finish works =>
    have exiting := locals.exit orderly.executor apart found
    have known := locals.started _ (locals.mapped _ _ mapped)
    exact ((exiting.finishCommand known finish).works works).remove

structure Attributing (m : MainThread S) : Prop where
  orderly : m.Orderly
  locals : Core.Local none none m.core

theorem new_attributing : (MainThread.new S).Attributing := ⟨new_orderly, Core.local_new _⟩

theorem Attributing.step (attributing : m.Attributing) (apart : m.CommandsApart)
    (stepped : m.step event = some n) : n.Attributing :=
  have effect := step_effect stepped
  ⟨effect.orderly attributing.orderly,
    (effect.core attributing.orderly).local_ attributing.orderly apart attributing.locals⟩

structure Settled (m : MainThread S) : Prop extends Attributing m where
  apart : m.CommandsApart

theorem new_settled : (MainThread.new S).Settled := ⟨new_attributing, List.nodup_nil⟩

theorem Attributing.cause_inj (attributing : m.Attributing) {p q : Subprocess Edge}
    (first : p ∈ m.executor.subprocssToCommand) (second : q ∈ m.executor.subprocssToCommand)
    (same : p.cause = q.cause) : p = q := by
  have apart := attributing.locals.apart
  rw [CommandExecutor.others_none] at apart
  exact List.inj_on_of_nodup_map apart first second same

theorem Attributing.ownResults (attributing : m.Attributing) (apart : m.CommandsApart) : m.OwnResults := by
  have completes : ∀ pid p, m.executor.find? pid = some p → m.commandEdgeMap p.command = some p.cause := by
    intro pid p found
    have own := attributing.locals.own
    rw [CommandExecutor.others_none] at own
    exact own apart p (CommandExecutor.mem_of_find? found).1
  constructor
  · exact completes
  · intro pid other p q found foundOther mapped
    have same : q.cause = p.cause := Option.some.inj ((completes other q foundOther).symm.trans mapped)
    obtain ⟨member, number⟩ := CommandExecutor.mem_of_find? found
    obtain ⟨memberOther, numberOther⟩ := CommandExecutor.mem_of_find? foundOther
    rw [← number, ← numberOther, attributing.cause_inj memberOther member same]
  · intro pid p status output env n found stepped
    have effect := (step_effect stepped).core attributing.orderly
    change ∃ new, n.core.log = m.core.log ++ new ∧ _
    generalize n.core = c at effect
    cases effect with
    | same => exact ⟨[], by simp, nofun⟩
    | @exited _ _ _ _ q edge c d listed mapped finish works =>
      obtain rfl := Option.some.inj (listed.symm.trans found)
      obtain rfl := Option.some.inj ((completes pid q listed).symm.trans mapped)
      obtain ⟨new, log, own⟩ := Core.finish_log finish
      obtain ⟨newer, logAfter, phony⟩ := Core.works_log works
      refine ⟨new ++ newer, ?_, ?_⟩
      · change d.log = _
        rw [logAfter, log, List.append_assoc]
      · intro edge member
        rcases List.mem_append.mp member with member | member
        · exact .inr (own edge member).1
        · exact .inl (phony edge member)

theorem Attributing.commandsApart (attributing : m.Attributing) (own : m.OwnResults) : m.CommandsApart := by
  have numbered := attributing.orderly.executor.numbered
  apply (List.nodup_map_iff_inj_on (List.Nodup.of_map _ numbered.distinct)).mpr
  intro p first q second same
  have here := own.completes p.pid p (numbered.find?_of_mem first)
  have there := own.completes q.pid q (numbered.find?_of_mem second)
  rw [same, there] at here
  exact attributing.cause_inj first second (Option.some.inj here).symm

theorem Complete.commandsApart (complete : m.Complete) (distinct : DistinctCommands S) : m.CommandsApart := by
  have runs := complete.exact_.runs
  have apart := complete.exact_.apart
  rw [CommandExecutor.others_none] at runs apart
  apply (List.nodup_map_iff_inj_on (List.Nodup.of_map _ apart)).mpr
  intro p first q second same
  have here := runs p first
  have there := runs q second
  have equal : p.cause = q.cause :=
    distinct _ _ here.real there.real (here.command.symm.trans (same.trans there.command))
  exact List.inj_on_of_nodup_map apart first second equal

/-- In every run of the master each local result reaches its own edge, in every state on the way, exactly when
    no two commands that are the same string ever run at the same time. -/
theorem own_results_iff (S : Setting Edge) (events : List (MainEvent Edge)) :
    Along step (fun m event => ∀ n, m.step event = some n → n.OwnResults) (MainThread.new S) events ↔
      Along step (fun m event => ∀ n, m.step event = some n → n.CommandsApart) (MainThread.new S) events := by
  symm
  apply along_congr_along _ _ new_settled
  · intro m event n settled apart stepped
    exact ⟨settled.toAttributing.step settled.apart stepped, apart n stepped⟩
  · intro m event settled
    constructor
    · intro apart n stepped
      exact (settled.toAttributing.step settled.apart stepped).ownResults (apart n stepped)
    · intro own n stepped
      exact (settled.toAttributing.step settled.apart stepped).commandsApart (own n stepped)

def scriptManifest : Manifest (Fin 5) :=
  { objectsManifest with evaluateCommand := fun edge => if edge.val = 4 then "" else "sh build.sh" }

def scripts : Setting (Fin 5) :=
  { objects with
    manifest := scriptManifest
    plan := graphPlan scriptManifest (by decide +kernel) (fun _ => List.finRange 5) fun _ => by decide +kernel }

/-- Three of the edges are started, and the exit of the first is taken for the third. -/
theorem exit_taken_for_another_edge :
    ¬ ∀ events : List (MainEvent (Fin 5)),
      Along step (fun m event => ∀ n, m.step event = some n → n.OwnResults) (MainThread.new scripts) events := by
  intro always
  have launched : (run step (MainThread.new scripts) [.startPosted, .taskRun working]).map (fun m =>
      (m.executor.find? 0).map fun p => (p.cause, m.commandEdgeMap p.command)) =
        some (some (0, some 2)) := by
    decide +kernel
  obtain ⟨n, replay, running⟩ := Option.map_eq_some_iff.mp launched
  obtain ⟨p, found, shape⟩ := Option.map_eq_some_iff.mp running
  obtain ⟨cause, mapped⟩ := Prod.mk.inj shape
  obtain ⟨m, posted, replay⟩ := run_cons.mp replay
  obtain ⟨k, ran, same⟩ := run_cons.mp replay
  cases same
  have own := ((always [.startPosted, .taskRun working]).2 m posted).1 n ran
  have expected := own.completes 0 p found
  rw [cause, mapped] at expected
  cases expected

end MainThread

end DistributedNinja.Master
