import DistributedNinja.Master.Dispatch
import DistributedNinja.Master.PlanCalls

namespace DistributedNinja.Master

open Lib Rpc Proto Common Ninja

variable {Edge : Type}

def EdgeCall.found? : EdgeCall Edge → Option Edge
  | .found edge => some edge
  | _ => none

def EdgeCall.started? : EdgeCall Edge → Option Edge
  | .started edge => some edge
  | _ => none

theorem EdgeCall.mem_found? {log : List (EdgeCall Edge)} {edge : Edge} :
    edge ∈ log.filterMap EdgeCall.found? ↔ .found edge ∈ log := by
  rw [List.mem_filterMap]
  constructor
  · rintro ⟨entry, member, same⟩
    cases entry <;> cases same
    exact member
  · exact fun member => ⟨_, member, rfl⟩

theorem EdgeCall.mem_started? {log : List (EdgeCall Edge)} {edge : Edge} :
    edge ∈ log.filterMap EdgeCall.started? ↔ .started edge ∈ log := by
  rw [List.mem_filterMap]
  constructor
  · rintro ⟨entry, member, same⟩
    cases entry <;> cases same
    exact member
  · exact fun member => ⟨_, member, rfl⟩

def MainEvent.isExit : MainEvent Edge → Bool
  | .exited _ _ _ _ => true
  | _ => false

variable [DecidableEq Edge] {S : Setting Edge}

namespace Core

structure Counted (hand : Option Edge) (c : Core S) : Prop extends Base hand c where
  foundOnce : (c.log.filterMap EdgeCall.found?).Nodup
  startedOnce : (c.log.filterMap EdgeCall.started?).Nodup
  startedAfter : ∀ edge, Preceded (.found edge) (.started edge) c.log

variable {hand other : Option Edge} {c d : Core S} {disk : Edge → Disk} {a b : Option Edge × Core S}

theorem counted_new (plan : S.plan.State) : Counted none { Core.new S with plan := plan } :=
  ⟨base_new plan, List.nodup_nil, List.nodup_nil, fun _ _ _ _ shape => by simp [Core.new] at shape⟩

theorem Counted.keep (counted : Counted hand c) (base : Base other d) (log : d.log = c.log) : Counted other d :=
  ⟨base, log ▸ counted.foundOnce, log ▸ counted.startedOnce, log ▸ counted.startedAfter⟩

theorem Counted.record (counted : Counted hand c) (base : Base other d) {entry : EdgeCall Edge}
    (log : d.log = c.log ++ [entry]) (found : ∀ edge, entry = .found edge → .found edge ∉ c.log)
    (started : ∀ edge, entry = .started edge → .started edge ∉ c.log ∧ .found edge ∈ c.log) : Counted other d := by
  refine ⟨base, ?_, ?_, ?_⟩
  · rw [log, List.filterMap_append]
    cases entry with
    | found edge =>
      apply counted.foundOnce.append (List.nodup_singleton edge)
      rw [List.disjoint_singleton, EdgeCall.mem_found?]
      exact found edge rfl
    | started | finished => simpa [List.filterMap_cons, EdgeCall.found?] using counted.foundOnce
  · rw [log, List.filterMap_append]
    cases entry with
    | started edge =>
      apply counted.startedOnce.append (List.nodup_singleton edge)
      rw [List.disjoint_singleton, EdgeCall.mem_started?]
      exact (started edge rfl).1
    | found | finished => simpa [List.filterMap_cons, EdgeCall.started?] using counted.startedOnce
  · intro edge
    rw [log]
    exact (counted.startedAfter edge).append fun same => (started edge same).2

theorem Counted.work (work : Work disk a b) (counted : Counted a.1 a.2) : Counted b.1 b.2 := by
  have base := counted.toBase.work work
  cases work with
  | @take c edge rest takes =>
    apply counted.record base rfl
    · rintro other same known
      cases same
      exact counted.fresh edge known takes.unreturned
    · exact nofun
  | takeBack front => exact counted.keep base rfl
  | send => exact counted.keep base rfl
  | @launch c edge room command =>
    apply counted.record base rfl nofun
    rintro other same
    cases same
    obtain ⟨found, notStarted, _⟩ := counted.idle edge (by simp)
    exact ⟨notStarted, found⟩
  | finishPhony phony => exact counted.record base rfl nofun nofun
  | drop failed => exact counted.keep base rfl
  | buildFinished => exact counted.keep base rfl

theorem Counted.works (works : Works disk a b) (counted : Counted a.1 a.2) : Counted b.1 b.2 := by
  induction works with
  | refl => exact counted
  | tail _ work ih => exact ih.work work

theorem Counted.finishCommand {disk : Disk} {result : Result Edge} (counted : Counted none c)
    (found : .found result.edge ∈ c.log) (finish : Finish disk c result d) : Counted none d := by
  have base := counted.toBase.finishCommand found finish
  cases finish with
  | failed failure => exact counted.keep base rfl
  | rejected success deps => exact counted.keep base rfl
  | completed success unreturned inProgress => exact counted.record base rfl nofun nofun

def launched (c : Core S) : List Edge := c.log.filterMap EdgeCall.started?

def given (c : Core S) : List Edge := c.log.filterMap EdgeCall.found?

theorem work_launched (work : Work disk a b) :
    b.2.launched.length + a.2.executor.runningCommands = a.2.launched.length + b.2.executor.runningCommands := by
  cases work with
  | @launch c edge room command =>
    have one : (c.launch edge).executor.runningCommands = c.executor.runningCommands + 1 := by
      rw [Core.launch, CommandExecutor.runCommand_of_canRunMore room]
    have more : (c.launch edge).launched.length = c.launched.length + 1 := by
      simp [launched, Core.launch, EdgeCall.started?]
    change (c.launch edge).launched.length + c.executor.runningCommands =
      c.launched.length + (c.launch edge).executor.runningCommands
    omega
  | take | finishPhony => simp [launched, finish, EdgeCall.started?]
  | takeBack | send | drop | buildFinished => rfl

theorem works_launched (works : Works disk a b) :
    b.2.launched.length + a.2.executor.runningCommands = a.2.launched.length + b.2.executor.runningCommands := by
  induction works with
  | refl => rfl
  | tail _ work ih =>
    have last := work_launched work
    omega

theorem finish_launched {disk : Disk} {result : Result Edge} (finish : Finish disk c result d) :
    d.launched.length = c.launched.length ∧ d.executor = c.executor := by
  refine ⟨?_, finish_executor finish⟩
  cases finish with
  | failed failure => rfl
  | rejected success deps => rfl
  | completed success unreturned inProgress =>
    simp [launched, Core.finish, List.filterMap_cons, EdgeCall.started?]

end Core

namespace MainThread

variable {m n : MainThread S} {event : MainEvent Edge} {disk : Edge → Disk} {via : Int → Prop}

theorem CoreEffect.counted {c : Core S} (effect : CoreEffect m event c) (counted : Core.Counted none m.core) :
    Core.Counted none c := by
  cases effect with
  | same => exact counted
  | began start idle works =>
    rw [start] at works
    exact (Core.counted_new _).works works
  | asked works => exact counted.works works
  | fetchDone head listed finish => exact counted.finishCommand (counted.idle _ listed).1 finish
  | @exited pid status output env p edge c d found mapped finish works =>
    have known := counted.started _ (counted.mapped _ _ mapped)
    have after : Core.Counted none d := (counted.finishCommand known finish).works works
    have base : Core.Base none (d.removed pid) :=
      ⟨after.fresh, after.distinct, after.idle, after.mapped, after.started, after.finished⟩
    exact after.keep base rfl

theorem Effect.launched (effect : Effect m event n) (orderly : m.Orderly) :
    n.core.launched.length + m.executor.runningCommands =
      m.core.launched.length + n.executor.runningCommands + if event.isExit then 1 else 0 := by
  cases effect with
  | posted outside =>
    rcases outside with ⟨rfl, rfl⟩ | ⟨notice, rfl, rfl⟩ <;> rfl
  | noted slaves quit head known => rfl
  | rejected head => rfl
  | @began env task rest _ slaves head known idle started =>
    obtain ⟨plan, runner, _, moves⟩ := startBuild_moves (by exact idle) started
    exact Core.works_launched moves.works
  | @remoteDone env id edgeId status output md5s rest _ head done =>
    have asked := Core.works_launched (asked_moves env.disk { m with queue := rest } id).works
    obtain ⟨_, rfl | ⟨fetch, info, _, _, _, _, rfl⟩⟩ := onRemoteCommandDone_cases done
    · exact asked
    · exact asked
  | fetchDone head listed finished =>
    obtain ⟨log, executor⟩ := Core.finish_launched (finishCommand_finish (fun _ => False) finished).1
    have executor : n.executor = m.executor := executor
    rw [log, executor]
    rfl
  | ran head => exact absurd (head ▸ List.mem_cons_self) (orderly.queue _ _)
  | @exited pid status output env p edge ok k found mapped finished =>
    obtain ⟨log, executor⟩ := Core.finish_launched (finishCommand_finish (fun _ => False) finished).1
    have executor : k.executor = m.executor := executor
    have log : k.core.launched.length = m.core.launched.length := log
    have before : k.executor.WellFormed := executor ▸ orderly.executor
    have listed : k.executor.find? pid = some p := executor ▸ found
    have works := (afterFinish_moves env.disk k).works
    generalize buildLoop env.disk (k.servePending k.pendingEdgeRequest.keys) = built at works ⊢
    have running : 0 < built.executor.runningCommands := by
      have counted := (Core.works_executor works before).counted
      have some := List.length_pos_of_mem (CommandExecutor.mem_of_find? (Core.works_find? works listed)).1
      exact counted ▸ some
    have after := Core.works_launched works
    change built.core.launched.length + k.executor.runningCommands =
      k.core.launched.length + built.executor.runningCommands at after
    change built.core.launched.length + m.executor.runningCommands =
      m.core.launched.length + (built.executor.runningCommands - 1) + 1
    rw [executor, log] at after
    omega
  | @fetched job action f step at_ acted =>
    have same : (m.fetchStepped job f step.next).core = m.core := by
      unfold fetchStepped
      split <;> rfl
    have executor : (m.fetchStepped job f step.next).executor = m.executor := congrArg Core.executor same
    rw [same, executor]
    rfl

/-- The requests that start a command are those of edges that the plan gave out, in that order. -/
def SentGiven (m : MainThread S) : Prop :=
  ∃ sent : List (Edge × Int), m.rpcPosts.filter RpcRequest.starts = sent.map (fun (edge, id) => dispatchOf S edge id) ∧
    List.Sublist (sent.map Prod.fst) m.core.given

theorem SentGiven.keep (given : m.SentGiven) (posts : n.rpcPosts = m.rpcPosts)
    (log : List.Sublist m.log n.log) : n.SentGiven := by
  obtain ⟨sent, requests, edges⟩ := given
  exact ⟨sent, posts ▸ requests, edges.trans (log.filterMap EdgeCall.found?)⟩

theorem SentGiven.send (given : m.SentGiven) (edge : Edge) (rest : S.plan.State) (connectionId : Int) :
    ((m.taken edge rest).sendRemotely edge connectionId).SentGiven := by
  unfold sendRemotely startEdgeRemotelly
  dsimp only
  split
  · obtain ⟨sent, requests, edges⟩ := given
    refine ⟨sent ++ [(edge, connectionId)], ?_, ?_⟩
    · change (m.rpcPosts ++ [dispatchOf S edge connectionId]).filter RpcRequest.starts = _
      rw [List.filter_append, requests, List.map_append]
      rfl
    · change List.Sublist _ ((m.log ++ [EdgeCall.found edge]).filterMap EdgeCall.found?)
      rw [List.map_append, List.filterMap_append]
      exact edges.append (List.Sublist.refl [edge])
  · exact given.keep rfl (List.sublist_append_left _ _)

theorem SentGiven.moves (moves : Moves disk via m n) (given : m.SentGiven) : n.SentGiven := by
  suffices all : ∀ b, Relation.ReflTransGen (Move disk via) (none, m) b → b.2.SentGiven from all _ moves
  intro b moves
  induction moves with
  | refl => exact given
  | tail _ move ih =>
    cases move with
    | send takes allowed => exact ih.send _ _ _
    | take | launch | finishPhony => exact ih.keep rfl (List.sublist_append_left _ _)
    | takeBack | drop | wait | buildFinished => exact ih.keep rfl (List.Sublist.refl _)

theorem SentGiven.finishCommand {disk : Disk} {result : Result Edge} {ok : Bool} (given : m.SentGiven)
    (finished : finishCommand disk m result = some (ok, n)) : n.SentGiven := by
  rcases finishCommand_cases finished with ⟨_, rfl⟩ | ⟨_, _, rfl⟩ | ⟨_, _, _, _, rfl⟩
  · exact given.keep rfl (List.Sublist.refl _)
  · exact given.keep rfl (List.Sublist.refl _)
  · exact given.keep rfl (List.sublist_append_left _ _)

theorem SentGiven.effect (given : m.SentGiven) (effect : Effect m event n) : n.SentGiven := by
  cases effect with
  | posted outside => exact given.keep rfl (List.Sublist.refl _)
  | noted slaves quit head known => exact given.keep rfl (List.Sublist.refl _)
  | @rejected env id info rest head =>
    obtain ⟨sent, requests, edges⟩ := given
    refine ⟨sent, ?_, edges⟩
    rw [← requests]
    simp [RpcRequest.starts]
  | @began env task rest _ slaves head known idle started =>
    obtain ⟨plan, runner, _, moves⟩ := startBuild_moves (by exact idle) started
    exact SentGiven.moves moves given
  | @remoteDone env id edgeId status output md5s rest _ head done =>
    have asked := SentGiven.moves (asked_moves env.disk { m with queue := rest } id) given
    obtain ⟨_, rfl | ⟨fetch, info, _, _, _, _, rfl⟩⟩ := onRemoteCommandDone_cases done
    · exact asked
    · exact asked
  | @fetchDone env result answer rest ok _ head listed finished =>
    exact SentGiven.finishCommand (m := { m with queue := rest }) given finished
  | ran head => exact given
  | @exited pid status output env p edge ok k found mapped finished =>
    have after := SentGiven.moves (afterFinish_moves env.disk k) (given.finishCommand finished)
    exact after.keep rfl (List.Sublist.refl _)
  | @fetched job action f step at_ acted =>
    unfold fetchStepped
    split <;> exact given

structure Bounded (past : List (MainEvent Edge)) (m : MainThread S) : Prop where
  steady : m.Steady
  counted : Core.Counted none m.core
  sent : m.SentGiven
  exits : past.countP MainEvent.isExit + m.executor.runningCommands = m.core.launched.length

theorem new_bounded : (MainThread.new S).Bounded [] :=
  ⟨new_steady, Core.counted_new S.plan.empty, ⟨[], rfl, List.Sublist.refl []⟩, rfl⟩

theorem Bounded.step {past : List (MainEvent Edge)} (bounded : m.Bounded past) (stepped : m.step event = some n) :
    n.Bounded (past ++ [event]) := by
  have effect := step_effect stepped
  have orderly := bounded.steady.orderly
  refine ⟨bounded.steady.step stepped, (effect.core orderly).counted bounded.counted, bounded.sent.effect effect, ?_⟩
  have launched := effect.launched orderly
  have exits := bounded.exits
  rw [List.countP_append, List.countP_singleton]
  omega

end MainThread

namespace PlanHistory

variable {failed : Prop} {h k : PlanHistory S}

theorem Calls.given {plan : S.plan.State} (calls : Calls failed h k)
    (left : S.plan.unreturned h.plan ⊆ S.plan.unreturned plan)
    (given : ∀ edge, .found edge ∈ h.log → edge ∈ S.plan.unreturned plan) :
    S.plan.unreturned k.plan ⊆ S.plan.unreturned plan ∧
      ∀ edge, .found edge ∈ k.log → edge ∈ S.plan.unreturned plan := by
  induction calls with
  | refl => exact ⟨left, given⟩
  | tail _ call ih =>
    obtain ⟨left, given⟩ := ih
    have logged : ∀ {log : List (EdgeCall Edge)} {entry : EdgeCall Edge}, (∀ edge, .found edge ∈ log →
        edge ∈ S.plan.unreturned plan) → (∀ edge, entry = .found edge → edge ∈ S.plan.unreturned plan) →
        ∀ edge, .found edge ∈ log ++ [entry] → edge ∈ S.plan.unreturned plan := by
      intro log entry before last edge member
      rcases List.mem_append.mp member with member | member
      · exact before edge member
      · exact last edge (List.mem_singleton.mp member).symm
    cases call with
    | findWork found =>
      obtain ⟨unreturned, removed, _⟩ := S.plan.findWork_takes _ _ _ found
      refine ⟨(removed.trans (Finset.erase_subset _ _)).trans left, logged given ?_⟩
      rintro edge same
      cases same
      exact left unreturned
    | findRemoteWork found =>
      obtain ⟨unreturned, removed, _⟩ := S.plan.findRemoteWork_takes _ _ _ found
      refine ⟨(removed.trans (Finset.erase_subset _ _)).trans left, logged given ?_⟩
      rintro edge same
      cases same
      exact left unreturned
    | started edge => exact ⟨left, logged given nofun⟩
    | edgeFinished edge => exact ⟨(S.plan.unreturned_edgeFinished _ _).trans left, logged given nofun⟩
    | cleanNode path => exact ⟨(S.plan.unreturned_cleanNode _ _).trans left, given⟩
    | complete nothing => exact ⟨left, given⟩
    | abandon failure => exact ⟨left, given⟩

end PlanHistory

namespace MainThread

theorem bounded_of_build {before after : List (MainEvent Edge)} {idle begun final : MainThread S}
    {env : Environment Edge} (waited : run step (MainThread.new S) before = some idle)
    (stepped : idle.step (.taskRun env) = some begun) (built : run step begun after = some final) :
    final.Bounded (before ++ .taskRun env :: after) := by
  have replay : run step (MainThread.new S) (before ++ .taskRun env :: after) = some final :=
    run_append.mpr ⟨idle, waited, run_cons.mpr ⟨begun, stepped, built⟩⟩
  have bounded : final.Bounded ([] ++ (before ++ .taskRun env :: after)) :=
    run_history_along (fun _ _ _ _ bounded (_ : True) => Bounded.step bounded) new_bounded
      (along_of_forall (fun _ _ _ => trivial) _) replay
  exact bounded

/-- What a run does is bounded by what the plan had to give out when the build began, whatever the slaves, the
    commands and the disk do. Each edge is given out at most once, its command is run here at most once, it is sent
    to at most one slave, and the exits are those of commands that were run. -/
theorem work_bounded {before after : List (MainEvent Edge)} {idle begun final : MainThread S}
    {env : Environment Edge} {plan : S.plan.State} (waited : run step (MainThread.new S) before = some idle)
    (stepped : idle.step (.taskRun env) = some begun) (begins : Begins idle begun env plan)
    (built : run step begun after = some final) :
    final.core.given.Nodup ∧ final.core.launched.Nodup ∧ final.core.launched ⊆ final.core.given ∧
      (∀ edge ∈ final.core.given, edge ∈ S.plan.unreturned plan) ∧
      (∃ sent : List (Edge × Int),
        final.rpcPosts.filter RpcRequest.starts = sent.map (fun (edge, id) => dispatchOf S edge id) ∧
        List.Sublist (sent.map Prod.fst) final.core.given) ∧
      (before ++ .taskRun env :: after).countP MainEvent.isExit + final.executor.runningCommands =
        final.core.launched.length ∧
      final.core.given.length ≤ (S.plan.unreturned plan).card := by
  have bounded := bounded_of_build waited stepped built
  have calls : PlanHistory.Calls True (⟨plan, [], 0⟩ : PlanHistory S) final.history :=
    built_calls waited stepped begins (fun _ _ _ => trivial) built
  have planned : ∀ edge ∈ final.core.given, edge ∈ S.plan.unreturned plan := by
    intro edge given
    exact (calls.given (Finset.Subset.refl _) nofun).2 edge (EdgeCall.mem_found?.mp given)
  have launched : final.core.launched ⊆ final.core.given := by
    intro edge started
    exact EdgeCall.mem_found?.mpr (bounded.counted.started edge (EdgeCall.mem_started?.mp started))
  have few : final.core.given.length ≤ (S.plan.unreturned plan).card := by
    have once : final.core.given.toFinset.card = final.core.given.length :=
      List.toFinset_card_of_nodup bounded.counted.foundOnce
    rw [← once]
    exact Finset.card_le_card fun edge given => planned edge (List.mem_toFinset.mp given)
  exact ⟨bounded.counted.foundOnce, bounded.counted.startedOnce, launched, planned, bounded.sent, bounded.exits, few⟩

theorem work_bounded_objects :
    ∃ final : MainThread objects, final.buildFinishedCalls = 1 ∧
      final.core.given.Nodup ∧ final.core.launched.Nodup ∧ final.core.launched ⊆ final.core.given ∧
      (∀ edge ∈ final.core.given, edge ∈ objects.plan.unreturned objectsPlan) ∧
      (∃ sent : List (Fin 5 × Int),
        final.rpcPosts.filter RpcRequest.starts = sent.map (fun (edge, id) => dispatchOf objects edge id) ∧
        List.Sublist (sent.map Prod.fst) final.core.given) ∧
      4 + final.executor.runningCommands = final.core.launched.length ∧
      final.core.given.length ≤ (objects.plan.unreturned objectsPlan).card := by
  obtain ⟨idle, begun, final, waited, stepped, begins, built, once⟩ :=
    objects_begin (fun m => decide (m.buildFinishedCalls = 1)) objectsExit (by decide +kernel)
  exact ⟨final, of_decide_eq_true once, work_bounded waited stepped begins built⟩

end MainThread

end DistributedNinja.Master
