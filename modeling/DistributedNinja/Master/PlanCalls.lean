import DistributedNinja.Master.Failure

namespace DistributedNinja.Master

open Lib Rpc Proto Common Ninja

variable {Edge : Type} [DecidableEq Edge] {S : Setting Edge}

/-- The plan, what was done with its edges, and how often `BuildFinished` was called. -/
structure PlanHistory (S : Setting Edge) where
  plan : S.plan.State
  log : List (EdgeCall Edge)
  buildFinishedCalls : Nat

namespace PlanHistory

/-- One call of the plan, or one entry of the history. `failed` says that a command failed just before. -/
inductive Call (failed : Prop) : PlanHistory S → PlanHistory S → Prop where
  | findWork {h : PlanHistory S} {edge : Edge} {rest : S.plan.State}
      (given : S.plan.findWork h.plan = some (edge, rest)) :
      Call failed h { h with plan := rest, log := h.log ++ [.found edge] }
  | findRemoteWork {h : PlanHistory S} {edge : Edge} {rest : S.plan.State}
      (given : S.plan.findRemoteWork h.plan = some (edge, rest)) :
      Call failed h { h with plan := rest, log := h.log ++ [.found edge] }
  | started {h : PlanHistory S} (edge : Edge) : Call failed h { h with log := h.log ++ [.started edge] }
  | edgeFinished {h : PlanHistory S} (edge : Edge) :
      Call failed h { h with plan := S.plan.edgeFinished h.plan edge, log := h.log ++ [.finished edge] }
  | cleanNode {h : PlanHistory S} (path : String) :
      Call failed h { h with plan := S.plan.cleanNode h.plan path }
  | complete {h : PlanHistory S} (nothing : S.plan.moreToDo h.plan = false) :
      Call failed h { h with buildFinishedCalls := h.buildFinishedCalls + 1 }
  | abandon {h : PlanHistory S} (failure : failed) :
      Call failed h { h with buildFinishedCalls := h.buildFinishedCalls + 1 }

abbrev Calls (failed : Prop) : PlanHistory S → PlanHistory S → Prop := Relation.ReflTransGen (Call failed)

variable {failed other : Prop} {h k : PlanHistory S}

theorem Call.imp (call : Call failed h k) (weaker : failed → other) : Call other h k := by
  cases call with
  | findWork given => exact .findWork given
  | findRemoteWork given => exact .findRemoteWork given
  | started edge => exact .started edge
  | edgeFinished edge => exact .edgeFinished edge
  | cleanNode path => exact .cleanNode path
  | complete nothing => exact .complete nothing
  | abandon failure => exact .abandon (weaker failure)

theorem Calls.imp (calls : Calls failed h k) (weaker : failed → other) : Calls other h k := by
  induction calls with
  | refl => exact .refl
  | tail _ call ih => exact ih.tail (call.imp weaker)

end PlanHistory

open PlanHistory

namespace MainThread

def history (m : MainThread S) : PlanHistory S := ⟨m.plan, m.log, m.buildFinishedCalls⟩

variable {failed : Prop} {disk : Edge → Disk} {m n : MainThread S} {edge : Edge}

theorem findWork_calls (found : m.findWork = some (edge, n)) : Calls failed m.history n.history := by
  obtain ⟨⟨e, rest⟩, given, same⟩ := Option.map_eq_some_iff.mp found
  cases same
  exact .single (.findWork (h := m.history) given)

theorem findLocalWork_calls (found : m.findLocalWork = some (edge, n)) : Calls failed m.history n.history := by
  unfold findLocalWork at found
  split at found
  · rename_i taken
    cases found
    exact findWork_calls taken
  · split at found
    · cases found
    · cases found
      exact .refl

theorem history_sendRemotely (m : MainThread S) (edge : Edge) (connectionId : Int) :
    (m.sendRemotely edge connectionId).history = m.history := by
  unfold sendRemotely startEdgeRemotelly
  dsimp only
  split <;> rfl

theorem startEdgeLocally_calls (disk : Edge → Disk) (m : MainThread S) (edge : Edge) :
    Calls failed m.history (m.startEdgeLocally disk edge).2.history := by
  unfold startEdgeLocally
  split
  · exact .single (.edgeFinished (h := m.history) edge)
  · split
    · exact .single (.started (h := m.history) edge)
    · exact .refl

theorem startEdges_calls {next : MainThread S → Option (Edge × MainThread S)}
    (takes : ∀ {m edge n}, next m = some (edge, n) → Calls failed m.history n.history) (fuel : Nat)
    (m : MainThread S) : Calls failed m.history (m.startEdges next disk fuel).2.history := by
  induction fuel generalizing m with
  | zero => exact .refl
  | succ fuel ih =>
    unfold startEdges
    split
    · split
      · exact .refl
      · rename_i edge n found
        have started := (takes found).trans (startEdgeLocally_calls disk n edge)
        split
        · rename_i k local_
          rw [local_] at started
          exact started.trans (ih k)
        · rename_i k local_
          rw [local_] at started
          exact started
    · exact .refl

theorem buildFinished_calls (nothing : m.moreToDo = false) : Calls failed m.history m.buildFinished.history :=
  .single (.complete (h := m.history) nothing)

theorem buildLoop_calls (m : MainThread S) : Calls failed m.history (m.buildLoop disk).history := by
  unfold buildLoop
  split
  · have calls : Calls failed m.history (m.startEdges findLocalWork disk m.edgesLeft).2.history :=
      startEdges_calls findLocalWork_calls m.edgesLeft m
    split
    · rename_i n started
      rw [started] at calls
      split
      · exact calls
      · rename_i nothing
        exact calls.trans (buildFinished_calls (Bool.eq_false_of_not_eq_true nothing))
    · rename_i n started
      rw [started] at calls
      exact calls
  · rename_i nothing
    exact buildFinished_calls (Bool.eq_false_of_not_eq_true nothing)

theorem startEdgesRemotely_calls (connectionId : Int) (count : Nat) (m : MainThread S) :
    Calls failed m.history (m.startEdgesRemotely connectionId count).history := by
  induction count generalizing m with
  | zero => exact .refl
  | succ count ih =>
    unfold startEdgesRemotely
    split
    · exact .refl
    · rename_i edge n found
      have sent := ih (n.sendRemotely edge connectionId)
      rw [history_sendRemotely] at sent
      exact (findWork_calls found).trans sent

theorem startEdgesOnSlaves_calls (slaves : List (Int × SlaveInfo)) (m : MainThread S) :
    Calls failed m.history (m.startEdgesOnSlaves slaves).history := by
  induction slaves generalizing m with
  | nil => exact .refl
  | cons slave rest ih => exact (startEdgesRemotely_calls slave.1 _ m).trans (ih _)

theorem initialalBuild_calls (m : MainThread S) : Calls failed m.history (m.initialalBuild disk).history := by
  have calls : Calls failed m.history (m.startEdges findWork disk m.edgesLeft).2.history :=
    startEdges_calls findWork_calls m.edgesLeft m
  unfold initialalBuild
  dsimp only
  split
  · exact calls.trans (startEdgesOnSlaves_calls _ _)
  · rename_i nothing
    exact calls.trans (buildFinished_calls (Bool.eq_false_of_not_eq_true nothing))

theorem requestEdge_calls (m : MainThread S) (connectionId : Int) :
    Calls failed m.history (m.requestEdge connectionId).2.history := by
  unfold requestEdge
  split
  · split
    · exact .refl
    · rename_i edge n found
      rw [history_sendRemotely]
      obtain ⟨⟨e, rest⟩, given, same⟩ := Option.map_eq_some_iff.mp found
      cases same
      exact .single (.findRemoteWork (h := m.history) given)
  · exact .refl

theorem servePending_calls (requests : List Int) (m : MainThread S) :
    Calls failed m.history (m.servePending requests).history := by
  induction requests generalizing m with
  | nil => exact .refl
  | cons connectionId rest ih =>
    unfold servePending
    split
    · have asked : Calls failed m.history (m.requestEdge connectionId).2.history :=
        requestEdge_calls m connectionId
      split
      · rename_i n answer
        rw [answer] at asked
        exact asked.trans (ih (n.setPendingRequests connectionId (n.pendingRequests connectionId - 1)))
      · rename_i n answer
        rw [answer] at asked
        exact asked.trans (ih n)
    · exact ih m

theorem cleanOutputs_calls (disk : Disk) (m : MainThread S) (edge : Edge) :
    Calls failed m.history (cleanOutputs disk m edge).history := by
  have cleaned : ∀ (paths : List String) (h : PlanHistory S), Calls failed h { h with
      plan := paths.foldl (fun plan path =>
        if S.manifest.mtime path = disk.stat path then S.plan.cleanNode plan path else plan) h.plan } := by
    intro paths
    induction paths with
    | nil => exact fun h => .refl
    | cons path rest ih =>
      intro h
      rw [List.foldl_cons]
      split
      · exact .head (.cleanNode path) (ih { h with plan := S.plan.cleanNode h.plan path })
      · exact ih h
  unfold cleanOutputs
  split
  · exact cleaned (S.manifest.outputs edge) m.history
  · exact .refl

theorem finishCommand_calls {disk : Disk} {result : Result Edge} {ok : Bool}
    (failure : result.status ≠ .success → failed) (finished : finishCommand disk m result = some (ok, n)) :
    Calls failed m.history n.history := by
  unfold finishCommand at finished
  split at finished
  · dsimp only at finished
    split at finished
    · cases finished
    · cases finished
      exact .refl
    · cases finished
      have cleaned : Calls failed _ _ := cleanOutputs_calls disk
        { m with outstandingEdgeList := m.outstandingEdgeList.erase result.edge } result.edge
      exact cleaned.tail (.edgeFinished result.edge)
  · rename_i unsuccessful
    cases finished
    exact .single (.abandon (h := m.history) (failure unsuccessful))

/-- The build starts in this task, with the targets of the command line in the plan. -/
def Begins (m n : MainThread S) (env : Environment Edge) (plan : S.plan.State) : Prop :=
  m.isBuilding = false ∧ n.isBuilding = true ∧
    ∃ targets, env.targets = some targets ∧ addTargets env.scan targets S.plan.empty = some plan

theorem Begins.unique {env : Environment Edge} {plan other : S.plan.State} (begins : Begins m n env plan)
    (again : Begins m n env other) : plan = other := by
  obtain ⟨_, _, targets, named, added⟩ := begins
  obtain ⟨_, _, same, namedToo, addedToo⟩ := again
  obtain rfl := Option.some.inj (named.symm.trans namedToo)
  exact Option.some.inj (added.symm.trans addedToo)

theorem startBuild_calls {env : Environment Edge} (idle : m.isBuilding = false)
    (fresh : m.history = ⟨S.plan.empty, [], 0⟩) (started : m.startBuild env = some n) :
    (n.history = m.history ∧ ∀ plan, ¬ Begins m n env plan) ∨
      ∃ plan, Begins m n env plan ∧ Calls failed (⟨plan, [], 0⟩ : PlanHistory S) n.history := by
  have building : n.isBuilding = true := by
    obtain ⟨plan, runner, _, moves⟩ := startBuild_moves idle started
    exact moves.frame.isBuilding
  unfold startBuild at started
  rw [if_neg (by simp [idle])] at started
  obtain ⟨targets, named, rfl⟩ := Option.map_eq_some_iff.mp started
  dsimp only at building ⊢
  split
  · rename_i refused
    refine .inl ⟨rfl, ?_⟩
    rintro plan ⟨_, _, others, same, added⟩
    obtain rfl := Option.some.inj (named.symm.trans same)
    rw [refused] at added
    cases added
  · rename_i plan added
    rw [added] at building
    refine .inr ⟨plan, ⟨idle, building, targets, named, added⟩, ?_⟩
    · have start : (m.begun plan true).history = ⟨plan, [], 0⟩ := by
        have log : m.log = [] := congrArg PlanHistory.log fresh
        have none : m.buildFinishedCalls = 0 := congrArg PlanHistory.buildFinishedCalls fresh
        rw [history, begun, PlanHistory.mk.injEq]
        exact ⟨rfl, log, none⟩
      rw [← start]
      split
      · exact initialalBuild_calls (m.begun plan true)
      · rename_i nothing
        exact .single (.complete (Bool.eq_false_of_not_eq_true nothing))

theorem Orderly.history_fresh (orderly : m.Orderly) (idle : m.isBuilding = false) :
    m.history = ⟨S.plan.empty, [], 0⟩ := by
  have start := (orderly.unbuilt idle).1
  rw [history, PlanHistory.mk.injEq]
  exact ⟨congrArg Core.plan start, congrArg Core.log start, congrArg Core.buildFinishedCalls start⟩

theorem Effect.calls {event : MainEvent Edge} (effect : Effect m event n) (orderly : m.Orderly)
    (retrieved : m.Retrieved) :
    (Calls (event.fails = true) m.history n.history ∧ ∀ env plan, event = .taskRun env → ¬ Begins m n env plan) ∨
      ∃ env plan, event = .taskRun env ∧ Begins m n env plan ∧
        Calls (event.fails = true) (⟨plan, [], 0⟩ : PlanHistory S) n.history := by
  have still : n.isBuilding = m.isBuilding → ∀ env plan, event = .taskRun env → ¬ Begins m n env plan := by
    rintro same env plan _ ⟨idle, building, _⟩
    rw [same, idle] at building
    cases building
  have built : m.isBuilding = true → ∀ env plan, event = .taskRun env → ¬ Begins m n env plan := by
    rintro building env plan _ ⟨idle, _⟩
    rw [building] at idle
    cases idle
  cases effect with
  | posted | noted | rejected | ran => exact .inl ⟨.refl, still rfl⟩
  | @began env task rest _ slaves head known idle started =>
    have fresh := orderly.history_fresh idle
    rcases startBuild_calls (m := { m with queue := rest, slaveInfoIdMap := slaves }) idle fresh started with
      ⟨same, refused⟩ | ⟨plan, begins, calls⟩
    · left
      rw [same]
      refine ⟨.refl, ?_⟩
      intro other plan taken
      cases taken
      exact refused plan
    · exact .inr ⟨env, plan, rfl, begins, calls⟩
  | @remoteDone env id edgeId status output md5s rest _ head done =>
    have asked : Calls (MainEvent.fails (.taskRun env : MainEvent Edge) = true) m.history
        (requestEdge { m with queue := rest } id).2.history := requestEdge_calls { m with queue := rest } id
    obtain ⟨builder, rfl | ⟨fetch, info, _, _, _, _, rfl⟩⟩ := onRemoteCommandDone_cases done
    · exact .inl ⟨asked, built (orderly.building_of_hasBuilder builder)⟩
    · exact .inl ⟨asked, built (orderly.building_of_hasBuilder builder)⟩
  | fetchDone head listed finished =>
    refine .inl ⟨?_, built (orderly.building_of_listed listed)⟩
    apply finishCommand_calls _ finished
    intro failure
    exact absurd (retrieved.queue _ _ (head ▸ List.mem_cons_self)) failure
  | @exited pid status output env p edge ok k found mapped finished =>
    have finish : Calls (MainEvent.fails (.exited pid status output env : MainEvent Edge) = true) m.history
        k.history := finishCommand_calls (fun failure => decide_eq_true failure) finished
    refine .inl ⟨(finish.trans (servePending_calls _ _)).trans (buildLoop_calls _), nofun⟩
  | fetched at_ acted =>
    unfold fetchStepped
    split <;> exact .inl ⟨.refl, nofun⟩

structure Steady (m : MainThread S) : Prop where
  orderly : m.Orderly
  retrieved : m.Retrieved

theorem new_steady : (MainThread.new S).Steady := ⟨new_orderly, new_retrieved⟩

theorem Steady.step {event : MainEvent Edge} (steady : m.Steady) (stepped : m.step event = some n) : n.Steady :=
  have effect := step_effect stepped
  ⟨effect.orderly steady.orderly, effect.retrieved steady.retrieved⟩

theorem Steady.begun {env : Environment Edge} {plan : S.plan.State} (steady : m.Steady)
    (stepped : m.step (.taskRun env) = some n) (begins : Begins m n env plan) :
    Calls failed (⟨plan, [], 0⟩ : PlanHistory S) n.history := by
  rcases (step_effect stepped).calls steady.orderly steady.retrieved with ⟨_, never⟩ | ⟨_, other, same, again, calls⟩
  · exact absurd begins (never env plan rfl)
  · cases same
    rw [begins.unique again]
    exact calls.imp nofun

theorem Steady.calls {event : MainEvent Edge} (steady : m.Steady) (building : m.isBuilding = true)
    (stepped : m.step event = some n) : Calls (event.fails = true) m.history n.history := by
  rcases (step_effect stepped).calls steady.orderly steady.retrieved with ⟨calls, _⟩ | ⟨_, _, _, ⟨idle, _⟩, _⟩
  · exact calls
  · rw [building] at idle
    cases idle

theorem Effect.stillBuilding {event : MainEvent Edge} (effect : Effect m event n) (building : m.isBuilding = true) :
    n.isBuilding = true := (effect.runner building).1.trans building

/-- All that has happened to the plan in a run are calls, from the plan with which the build began. -/
theorem built_calls {before after : List (MainEvent Edge)} {idle begun final : MainThread S}
    {env : Environment Edge} {plan : S.plan.State} (waited : run step (MainThread.new S) before = some idle)
    (stepped : idle.step (.taskRun env) = some begun) (begins : Begins idle begun env plan)
    (failing : ∀ event ∈ after, event.fails = true → failed) (built : run step begun after = some final) :
    Calls failed (⟨plan, [], 0⟩ : PlanHistory S) final.history := by
  have steady : idle.Steady := run_invariant (fun _ _ _ steady => Steady.step steady) new_steady waited
  have along : Along step (fun _ event => event.fails = true → failed) begun after :=
    along_of_forall (fun event member _ => failing event member) begun
  have start : begun.Steady ∧ begun.isBuilding = true ∧
      Calls failed (⟨plan, [], 0⟩ : PlanHistory S) begun.history :=
    ⟨steady.step stepped, begins.2.1, steady.begun stepped begins⟩
  have preserved : ∀ (m : MainThread S) event n, m.Steady ∧ m.isBuilding = true ∧
      Calls failed (⟨plan, [], 0⟩ : PlanHistory S) m.history → (event.fails = true → failed) →
      m.step event = some n → n.Steady ∧ n.isBuilding = true ∧
        Calls failed (⟨plan, [], 0⟩ : PlanHistory S) n.history := by
    rintro m event n ⟨steady, building, calls⟩ allowed stepped
    exact ⟨steady.step stepped, (step_effect stepped).stillBuilding building,
      calls.trans ((steady.calls building stepped).imp allowed)⟩
  exact (run_invariant_along preserved start along built).2.2

section Objects

def objectsPlan : objects.plan.State := (objects.plan.addTarget objects.plan.empty "all").2.2

def objectsExit : List (MainEvent (Fin 5)) :=
  [.exited 0 .success "" working, .exited 1 .success "" working, .exited 2 .success "" working,
    .exited 3 .success "" working]

theorem objects_begin (check : MainThread objects → Bool) (after : List (MainEvent (Fin 5)))
    (played : (run step (MainThread.new objects) (.startPosted :: .taskRun working :: after)).any check = true) :
    ∃ idle begun final, run step (MainThread.new objects) [.startPosted] = some idle ∧
      idle.step (.taskRun working) = some begun ∧ Begins idle begun working objectsPlan ∧
      run step begun after = some final ∧ check final = true := by
  obtain ⟨final, replay, checked⟩ := Option.any_eq_true _ _ |>.mp played
  obtain ⟨idle, posted, replay⟩ := run_cons.mp replay
  obtain ⟨begun, stepped, rest⟩ := run_cons.mp replay
  cases posted
  have started : startBuild working (MainThread.new objects) = some begun := stepped
  obtain ⟨plan, runner, _, moves⟩ := startBuild_moves rfl started
  exact ⟨_, begun, final, rfl, stepped, ⟨rfl, moves.frame.isBuilding, ["all"], rfl, rfl⟩, rest, checked⟩

end Objects

end MainThread

end DistributedNinja.Master
