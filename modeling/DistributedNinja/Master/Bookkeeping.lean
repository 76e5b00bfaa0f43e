import DistributedNinja.Lib.Run
import DistributedNinja.Master.MainEffects

namespace DistributedNinja.Master

open Lib Rpc Proto Common Ninja

variable {Edge : Type} [DecidableEq Edge] {S : Setting Edge}

namespace Core

def removed (c : Core S) (pid : Nat) : Core S := { c with executor := (c.executor.exited pid).1 }

variable {disk : Edge → Disk} {a b : Option Edge × Core S}

theorem work_executor (work : Work disk a b) (wf : a.2.executor.WellFormed) : b.2.executor.WellFormed := by
  cases work with
  | launch room command => exact wf.runCommand room _ _
  | take | takeBack | send | finishPhony | drop | buildFinished => exact wf

theorem work_find? (work : Work disk a b) {pid : Nat} {p : Subprocess Edge}
    (found : a.2.executor.find? pid = some p) : b.2.executor.find? pid = some p := by
  cases work with
  | launch room command =>
    change CommandExecutor.find? (CommandExecutor.runCommand _ _ _) pid = some p
    rw [CommandExecutor.runCommand_of_canRunMore room, CommandExecutor.find?, List.find?_append]
    change CommandExecutor.find? _ pid = some p at found
    rw [CommandExecutor.find?] at found
    rw [found]
    rfl
  | take | takeBack | send | finishPhony | drop | buildFinished => exact found

theorem works_executor (works : Works disk a b) (wf : a.2.executor.WellFormed) :
    b.2.executor.WellFormed := by
  induction works with
  | refl => exact wf
  | tail _ work ih => exact work_executor work ih

theorem works_find? (works : Works disk a b) {pid : Nat} {p : Subprocess Edge}
    (found : a.2.executor.find? pid = some p) : b.2.executor.find? pid = some p := by
  induction works with
  | refl => exact found
  | tail _ work ih => exact work_find? work ih

theorem finish_executor {disk : Disk} {c d : Core S} {result : Result Edge}
    (finish : Finish disk c result d) : d.executor = c.executor := by
  cases finish <;> rfl

end Core

namespace MainThread

variable {m n : MainThread S} {event : MainEvent Edge}

/-- `DNBuilder` only runs a command when there is room for it, so nothing ever waits in the executor; and
    before `StartBuild` there is nothing at all. -/
structure Orderly (m : MainThread S) : Prop where
  executor : m.executor.WellFormed
  queue : ∀ command cause, .runCommand command cause ∉ m.queue
  unbuilt : m.isBuilding = false → m.core = .new S ∧ m.hasBuilder = false ∧ m.commandRunner = false

theorem new_orderly : (MainThread.new S).Orderly :=
  ⟨CommandExecutor.new_wellFormed _, nofun, fun _ => ⟨rfl, rfl, rfl⟩⟩

theorem Frame.no_runCommand {via : Int → Prop} (frame : Frame via m n)
    (queue : ∀ command cause, .runCommand command cause ∉ m.queue) (command : String) (cause : Edge) :
    .runCommand command cause ∉ n.queue := by
  obtain ⟨count, shape⟩ := frame.queue
  rw [shape, List.mem_append]
  rintro (member | member)
  · exact queue command cause member
  · cases List.eq_of_mem_replicate member

theorem no_runCommand_tail {task : MainTask Edge} {rest : List (MainTask Edge)}
    (head : m.queue = task :: rest) (queue : ∀ command cause, .runCommand command cause ∉ m.queue)
    (command : String) (cause : Edge) : .runCommand command cause ∉ rest := by
  intro member
  exact queue command cause (head ▸ List.mem_cons_of_mem _ member)

theorem Orderly.building_of_hasBuilder (orderly : m.Orderly) (has : m.hasBuilder = true) :
    m.isBuilding = true := by
  by_contra unbuilt
  have none := (orderly.unbuilt (by simpa using unbuilt)).2.1
  rw [has] at none
  cases none

theorem Orderly.building_of_listed (orderly : m.Orderly) {edge : Edge}
    (listed : edge ∈ m.outstandingEdgeList) : m.isBuilding = true := by
  by_contra unbuilt
  have start := (orderly.unbuilt (by simpa using unbuilt)).1
  have none : m.outstandingEdgeList = [] := congrArg Core.outstandingEdgeList start
  rw [none] at listed
  cases listed

theorem Orderly.building_of_subprocess (orderly : m.Orderly) {pid : Nat} {p : Subprocess Edge}
    (found : m.executor.find? pid = some p) : m.isBuilding = true := by
  by_contra unbuilt
  have start := (orderly.unbuilt (by simpa using unbuilt)).1
  have none : m.executor = .new S.processors := congrArg Core.executor start
  rw [none] at found
  cases found

theorem Effect.orderly (effect : Effect m event n) (orderly : m.Orderly) : n.Orderly := by
  have vacuous : ∀ {k : MainThread S}, k.isBuilding = true → k.isBuilding = false →
      k.core = .new S ∧ k.hasBuilder = false ∧ k.commandRunner = false := by
    intro k yes no
    rw [yes] at no
    cases no
  cases effect with
  | posted outside =>
    refine ⟨orderly.executor, ?_, orderly.unbuilt⟩
    intro command cause member
    rcases List.mem_append.mp member with member | member
    · exact orderly.queue command cause member
    · rcases outside with ⟨_, rfl⟩ | ⟨notice, _, rfl⟩ <;> cases List.mem_singleton.mp member
  | noted slaves quit head known =>
    exact ⟨orderly.executor, no_runCommand_tail head orderly.queue, orderly.unbuilt⟩
  | rejected head => exact ⟨orderly.executor, no_runCommand_tail head orderly.queue, orderly.unbuilt⟩
  | began slaves head known idle started =>
    obtain ⟨plan, runner, _, moves⟩ := startBuild_moves (by exact idle) started
    refine ⟨Core.works_executor moves.works orderly.executor, ?_, vacuous moves.frame.isBuilding⟩
    exact moves.frame.no_runCommand (no_runCommand_tail head orderly.queue)
  | @remoteDone env id edgeId status output md5s rest _ head done =>
    obtain ⟨builder, cases_⟩ := onRemoteCommandDone_cases done
    have asked := asked_moves env.disk { m with queue := rest } id
    have executor := Core.works_executor asked.works orderly.executor
    have queue := asked.frame.no_runCommand (no_runCommand_tail head orderly.queue)
    have still := asked.frame.isBuilding.trans (orderly.building_of_hasBuilder builder)
    rcases cases_ with rfl | ⟨fetch, info, _, _, _, _, rfl⟩
    · exact ⟨executor, queue, vacuous still⟩
    · exact ⟨executor, queue, vacuous still⟩
  | fetchDone head listed finished =>
    obtain ⟨finish, frame⟩ := finishCommand_finish (fun _ => False) finished
    have executor : n.executor = m.executor := Core.finish_executor finish
    refine ⟨executor ▸ orderly.executor, ?_, ?_⟩
    · exact frame.no_runCommand (no_runCommand_tail head orderly.queue)
    · exact vacuous (frame.isBuilding.trans (orderly.building_of_listed listed))
  | ran head => exact absurd (head ▸ List.mem_cons_self) (orderly.queue _ _)
  | @exited pid status output env p edge ok k found mapped finished =>
    obtain ⟨finish, frame⟩ := finishCommand_finish (fun _ => False) finished
    have moves := afterFinish_moves env.disk k
    have executor : k.executor = m.executor := Core.finish_executor finish
    have before : k.executor.WellFormed := executor ▸ orderly.executor
    have listed : k.executor.find? pid = some p := executor ▸ found
    obtain ⟨exited, nothing⟩ :=
      (Core.works_executor moves.works before).exited (Core.works_find? moves.works listed)
    have nothing : (CommandExecutor.exited (buildLoop env.disk
        (k.servePending k.pendingEdgeRequest.keys)).executor pid).2 = none := nothing
    refine ⟨exited, ?_, ?_⟩
    · have queue := moves.frame.no_runCommand (frame.no_runCommand orderly.queue)
      intro command cause member
      simp only [subprocessRemoved, nothing, Option.toList_none, List.map_nil, List.append_nil] at member
      exact queue command cause member
    · apply vacuous
      exact (moves.frame.isBuilding.trans frame.isBuilding).trans (orderly.building_of_subprocess found)
  | @fetched job action f step at_ acted =>
    unfold fetchStepped
    split
    · exact ⟨orderly.executor, orderly.queue, orderly.unbuilt⟩
    · refine ⟨orderly.executor, ?_, orderly.unbuilt⟩
      intro command cause member
      rcases List.mem_append.mp member with member | member
      · exact orderly.queue command cause member
      · split at member <;> simp at member

theorem Effect.runner (effect : Effect m event n) (building : m.isBuilding = true) :
    n.isBuilding = m.isBuilding ∧ n.commandRunner = m.commandRunner := by
  cases effect with
  | posted | noted | rejected | ran => exact ⟨rfl, rfl⟩
  | began slaves head known idle started =>
    rw [building] at idle
    cases idle
  | @remoteDone env id edgeId status output md5s rest _ head done =>
    have frame := (asked_moves env.disk { m with queue := rest } id).frame
    obtain ⟨_, rfl | ⟨fetch, info, _, _, _, _, rfl⟩⟩ := onRemoteCommandDone_cases done
    · exact ⟨frame.isBuilding, frame.commandRunner⟩
    · exact ⟨frame.isBuilding, frame.commandRunner⟩
  | fetchDone head listed finished =>
    have frame := (finishCommand_finish (fun _ => False) finished).2
    exact ⟨frame.isBuilding, frame.commandRunner⟩
  | @exited pid status output env p edge ok k found mapped finished =>
    have frame := (finishCommand_finish (fun id => 0 < k.pendingRequests id) finished).2.trans
      (afterFinish_moves env.disk k).frame
    exact ⟨frame.isBuilding, frame.commandRunner⟩
  | fetched at_ acted =>
    unfold fetchStepped
    split <;> exact ⟨rfl, rfl⟩

inductive CoreEffect (m : MainThread S) : MainEvent Edge → Core S → Prop where
  | same {event : MainEvent Edge} : CoreEffect m event m.core
  | began {env : Environment Edge} {plan : S.plan.State} {c : Core S} (start : m.core = .new S)
      (idle : S.plan.inProgress plan = ∅) (works : Works env.disk (none, { m.core with plan := plan }) (none, c)) :
      CoreEffect m (.taskRun env) c
  | asked {env : Environment Edge} {c : Core S} (works : Works env.disk (none, m.core) (none, c)) :
      CoreEffect m (.taskRun env) c
  | fetchDone {env : Environment Edge} {result : Result Edge} {answer : UInt32}
      {rest : List (MainTask Edge)} {c : Core S}
      (head : m.queue = .onFetchTargetsDone result answer :: rest)
      (listed : result.edge ∈ m.outstandingEdgeList)
      (finish : Finish (env.disk result.edge) m.core result c) : CoreEffect m (.taskRun env) c
  | exited {pid : Nat} {status : ExitStatus} {output : String} {env : Environment Edge}
      {p : Subprocess Edge} {edge : Edge} {c d : Core S} (found : m.executor.find? pid = some p)
      (mapped : m.commandEdgeMap p.command = some edge)
      (finish : Finish (env.disk edge) m.core ⟨edge, status, output⟩ c)
      (works : Works env.disk (none, c) (none, d)) :
      CoreEffect m (.exited pid status output env) (d.removed pid)

theorem Effect.core (effect : Effect m event n) (orderly : m.Orderly) : CoreEffect m event n.core := by
  cases effect with
  | posted outside => exact .same
  | noted slaves quit head known => exact .same
  | rejected head => exact .same
  | began slaves head known idle started =>
    obtain ⟨plan, runner, fresh, moves⟩ := startBuild_moves (by exact idle) started
    have start := (orderly.unbuilt idle).1
    apply CoreEffect.began start _ moves.works
    rcases fresh with rfl | empty
    · exact (congrArg (fun c => S.plan.inProgress c.plan) start).trans S.plan.inProgress_empty
    · exact empty
  | @remoteDone env id edgeId status output md5s rest _ head done =>
    have asked := (asked_moves env.disk { m with queue := rest } id).works
    obtain ⟨_, rfl | ⟨fetch, info, _, _, _, _, rfl⟩⟩ := onRemoteCommandDone_cases done
    · exact .asked asked
    · exact .asked asked
  | fetchDone head listed finished =>
    exact .fetchDone head listed (finishCommand_finish (fun _ => False) finished).1
  | ran head => exact absurd (head ▸ List.mem_cons_self) (orderly.queue _ _)
  | exited found mapped finished =>
    exact .exited found mapped (finishCommand_finish (fun _ => False) finished).1
      (afterFinish_moves _ _).works
  | fetched at_ acted =>
    unfold fetchStepped
    split <;> exact .same

end MainThread

namespace Core

/-- Where edges are that MAIN has in hand or waits for: the plan gave each of them out, and nothing has
    happened to it since. -/
structure Base (hand : Option Edge) (c : Core S) : Prop where
  fresh : ∀ edge, .found edge ∈ c.log → edge ∉ S.plan.unreturned c.plan
  distinct : (hand.toList ++ c.outstandingEdgeList).Nodup
  idle : ∀ edge ∈ hand.toList ++ c.outstandingEdgeList,
    .found edge ∈ c.log ∧ .started edge ∉ c.log ∧ .finished edge ∉ c.log
  mapped : ∀ command edge, c.commandEdgeMap command = some edge → .started edge ∈ c.log
  started : ∀ edge, .started edge ∈ c.log → .found edge ∈ c.log
  finished : ∀ edge, Preceded (.found edge) (.finished edge) c.log

variable {hand : Option Edge} {c d : Core S} {edge : Edge}

theorem base_new (plan : S.plan.State) : Base none { Core.new S with plan := plan } := by
  refine ⟨nofun, List.nodup_nil, nofun, nofun, nofun, ?_⟩
  intro edge before entry after shape
  simp [Core.new] at shape

theorem Base.take (base : Base none c) {rest : S.plan.State} (takes : Takes S c.plan edge rest) :
    Base (some edge) { c with plan := rest, log := c.log ++ [.found edge] } := by
  have unknown : .found edge ∉ c.log := fun found => base.fresh edge found takes.unreturned
  have notStarted : .started edge ∉ c.log := fun started => unknown (base.started edge started)
  have notFinished : .finished edge ∉ c.log := fun finished => unknown ((base.finished edge).mem finished)
  have notListed : edge ∉ c.outstandingEdgeList := fun listed => unknown (base.idle edge listed).1
  constructor
  · intro other found unreturned
    obtain ⟨different, before⟩ := Finset.mem_erase.mp (takes.removed unreturned)
    rcases List.mem_append.mp found with found | found
    · exact base.fresh other found before
    · cases List.mem_singleton.mp found
      exact different rfl
  · exact List.nodup_cons.mpr ⟨notListed, base.distinct⟩
  · intro other member
    rcases List.mem_cons.mp member with rfl | member
    · simp [notStarted, notFinished]
    · obtain ⟨found, started, finished⟩ := base.idle other member
      simp [found, started, finished]
  · intro command other at_
    exact List.mem_append_left _ (base.mapped command other at_)
  · intro other started
    rcases List.mem_append.mp started with started | started
    · exact List.mem_append_left _ (base.started other started)
    · cases List.mem_singleton.mp started
  · intro other
    exact (base.finished other).append nofun

theorem Base.takeBack (base : Base none c) {rest : List Edge}
    (front : c.outstandingEdgeList = edge :: rest) :
    Base (some edge) { c with outstandingEdgeList := rest } := by
  have same : (some edge).toList ++ rest = (none : Option Edge).toList ++ c.outstandingEdgeList := by
    rw [front]
    rfl
  exact ⟨base.fresh, same ▸ base.distinct, same ▸ base.idle, base.mapped, base.started, base.finished⟩

theorem Base.send (base : Base (some edge) c) : Base none (c.send edge) := by
  have swapped : (c.outstandingEdgeList ++ [edge]).Perm (edge :: c.outstandingEdgeList) :=
    List.perm_append_singleton edge _
  refine ⟨base.fresh, swapped.nodup_iff.mpr base.distinct, ?_, base.mapped, base.started, base.finished⟩
  intro other member
  exact base.idle other (swapped.mem_iff.mp member)

theorem Base.drop (base : Base (some edge) c) : Base none c :=
  ⟨base.fresh, (List.nodup_cons.mp base.distinct).2,
    fun other member => base.idle other (List.mem_cons_of_mem _ member), base.mapped, base.started,
    base.finished⟩

theorem Base.launch (base : Base (some edge) c) : Base none (c.launch edge) := by
  obtain ⟨notListed, distinct⟩ := List.nodup_cons.mp base.distinct
  constructor
  · intro other found
    rcases List.mem_append.mp found with found | found
    · exact base.fresh other found
    · cases List.mem_singleton.mp found
  · exact distinct
  · intro other member
    obtain ⟨found, started, finished⟩ := base.idle other (List.mem_cons_of_mem _ member)
    have different : edge ≠ other := fun same => notListed (same ▸ member)
    simp [Core.launch, found, started, finished, Ne.symm different]
  · intro command other at_
    simp only [Core.launch] at at_ ⊢
    by_cases same : command = S.manifest.evaluateCommand edge
    · rw [same, Function.update_self] at at_
      cases at_
      simp
    · rw [Function.update_of_ne same] at at_
      exact List.mem_append_left _ (base.mapped command other at_)
  · intro other started
    rcases List.mem_append.mp started with started | started
    · exact List.mem_append_left _ (base.started other started)
    · cases List.mem_singleton.mp started
      exact List.mem_append_left _ (base.idle edge (by simp)).1
  · intro other
    exact (base.finished other).append nofun

theorem Base.finish (base : Base hand c) (found : .found edge ∈ c.log)
    (notWaiting : edge ∉ hand.toList ++ c.outstandingEdgeList) : Base hand (c.finish edge) := by
  constructor
  · intro other seen unreturned
    apply base.fresh other _ (S.plan.unreturned_edgeFinished _ _ unreturned)
    rcases List.mem_append.mp seen with seen | seen
    · exact seen
    · cases List.mem_singleton.mp seen
  · exact base.distinct
  · intro other member
    obtain ⟨known, started, finished⟩ := base.idle other member
    have different : other ≠ edge := fun same => notWaiting (same ▸ member)
    simp [Core.finish, known, started, finished, different]
  · intro command other at_
    exact List.mem_append_left _ (base.mapped command other at_)
  · intro other started
    rcases List.mem_append.mp started with started | started
    · exact List.mem_append_left _ (base.started other started)
    · cases List.mem_singleton.mp started
  · intro other
    apply (base.finished other).append
    intro same
    cases same
    exact found

theorem Base.finishPhony (base : Base (some edge) c) : Base none (c.finish edge) :=
  base.drop.finish (base.idle edge (by simp)).1 (List.nodup_cons.mp base.distinct).1

theorem Base.strike (base : Base none c) {plan : S.plan.State}
    (unreturned : S.plan.unreturned plan ⊆ S.plan.unreturned c.plan) (edge : Edge) :
    Base none { c with outstandingEdgeList := c.outstandingEdgeList.erase edge, plan := plan } :=
  ⟨fun other found member => base.fresh other found (unreturned member), base.distinct.erase edge,
    fun other member => base.idle other (List.mem_of_mem_erase member), base.mapped, base.started,
    base.finished⟩

theorem Base.finishCommand {disk : Disk} {result : Result Edge} (base : Base none c)
    (found : .found result.edge ∈ c.log) (finish : Finish disk c result d) : Base none d := by
  cases finish with
  | failed failure =>
    exact ⟨base.fresh, base.distinct, base.idle, base.mapped, base.started, base.finished⟩
  | rejected success deps => exact base.strike (Finset.Subset.refl _) result.edge
  | completed success unreturned inProgress =>
    exact (base.strike unreturned result.edge).finish found base.distinct.not_mem_erase

theorem Base.work {disk : Edge → Disk} {a b : Option Edge × Core S} (work : Work disk a b)
    (base : Base a.1 a.2) : Base b.1 b.2 := by
  cases work with
  | take takes => exact base.take takes
  | takeBack front => exact base.takeBack front
  | send => exact base.send
  | launch room command => exact base.launch
  | finishPhony phony => exact base.finishPhony
  | drop failed => exact base.drop
  | buildFinished =>
    exact ⟨base.fresh, base.distinct, base.idle, base.mapped, base.started, base.finished⟩

theorem Base.works {disk : Edge → Disk} {a b : Option Edge × Core S} (works : Works disk a b)
    (base : Base a.1 a.2) : Base b.1 b.2 := by
  induction works with
  | refl => exact base
  | tail _ work ih => exact ih.work work

end Core

namespace MainThread

variable {m n : MainThread S} {event : MainEvent Edge}

theorem CoreEffect.base {c : Core S} (effect : CoreEffect m event c) (base : Core.Base none m.core) :
    Core.Base none c := by
  cases effect with
  | same => exact base
  | began start idle works =>
    rw [start] at works
    exact (Core.base_new _).works works
  | asked works => exact base.works works
  | fetchDone head listed finish => exact base.finishCommand (base.idle _ listed).1 finish
  | exited found mapped finish works =>
    have known := base.started _ (base.mapped _ _ mapped)
    have after := (base.finishCommand known finish).works works
    exact ⟨after.fresh, after.distinct, after.idle, after.mapped, after.started, after.finished⟩

structure Sound (m : MainThread S) : Prop where
  orderly : m.Orderly
  base : Core.Base none m.core

theorem new_sound : (MainThread.new S).Sound := ⟨new_orderly, Core.base_new _⟩

theorem Sound.step (sound : m.Sound) (stepped : m.step event = some n) : n.Sound :=
  have effect := step_effect stepped
  ⟨effect.orderly sound.orderly, (effect.core sound.orderly).base sound.base⟩

end MainThread

end DistributedNinja.Master
