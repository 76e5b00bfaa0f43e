import DistributedNinja.Master.BuildOrder

namespace DistributedNinja.Master

open Lib Rpc Proto Common Ninja

variable {Edge : Type} [DecidableEq Edge] {S : Setting Edge}

namespace PlanHistory

variable {h k : PlanHistory S}

structure Fulfils (goal : S.plan.Goal S.manifest) (start : S.plan.State) (h : PlanHistory S) : Prop where
  kept : ∀ edge, goal.wanted start edge →
    goal.wanted h.plan edge ∨ .finished edge ∈ h.log ∨ goal.unneeded h.plan edge
  complete : 0 < h.buildFinishedCalls → ∀ edge, goal.wanted start edge → S.manifest.isPhony edge = false →
    .finished edge ∈ h.log ∨ goal.unneeded h.plan edge

variable {goal : S.plan.Goal S.manifest} {start : S.plan.State}

theorem fulfils_start (plan : S.plan.State) : Fulfils goal plan ⟨plan, [], 0⟩ :=
  ⟨fun _ wanted => .inl wanted, fun called => absurd called (Nat.lt_irrefl 0)⟩

theorem Fulfils.advance (fulfils : h.Fulfils goal start) (calls : k.buildFinishedCalls = h.buildFinishedCalls)
    (log : h.log ⊆ k.log) (unneeded : ∀ edge, goal.unneeded h.plan edge → goal.unneeded k.plan edge)
    (wanted : ∀ edge, goal.wanted h.plan edge →
      goal.wanted k.plan edge ∨ .finished edge ∈ k.log ∨ goal.unneeded k.plan edge) : k.Fulfils goal start := by
  constructor
  · intro edge asked
    rcases fulfils.kept edge asked with still | finished | clean
    · exact wanted edge still
    · exact .inr (.inl (log finished))
    · exact .inr (.inr (unneeded edge clean))
  · intro called edge asked command
    rw [calls] at called
    exact (fulfils.complete called edge asked command).imp (fun finished => log finished) (unneeded edge)

theorem Fulfils.call (fulfils : h.Fulfils goal start) (call : Call False h k) : k.Fulfils goal start := by
  cases call with
  | findWork given =>
    refine fulfils.advance rfl (List.subset_append_left _ _) ?_ ?_
    · exact fun edge => goal.unneeded_findWork _ _ _ edge given
    · exact fun edge wanted => .inl (goal.wanted_findWork _ _ _ edge given wanted)
  | findRemoteWork given =>
    refine fulfils.advance rfl (List.subset_append_left _ _) ?_ ?_
    · exact fun edge => goal.unneeded_findRemoteWork _ _ _ edge given
    · exact fun edge wanted => .inl (goal.wanted_findRemoteWork _ _ _ edge given wanted)
  | started edge =>
    refine fulfils.advance rfl (List.subset_append_left _ _) ?_ ?_
    · exact fun _ clean => clean
    · exact fun _ wanted => .inl wanted
  | edgeFinished edge =>
    refine fulfils.advance rfl (List.subset_append_left _ _) ?_ ?_
    · exact fun other => goal.unneeded_edgeFinished _ _ other
    · intro other wanted
      rcases goal.wanted_edgeFinished _ edge other wanted with rfl | still
      · exact .inr (.inl (List.mem_append_right _ List.mem_cons_self))
      · exact .inl still
  | cleanNode path =>
    refine fulfils.advance rfl (List.Subset.refl _) ?_ ?_
    · exact fun edge => goal.unneeded_cleanNode _ path edge
    · intro edge wanted
      exact (goal.wanted_cleanNode _ path edge wanted).imp_right .inr
  | complete nothing =>
    refine ⟨fulfils.kept, fun _ edge asked command => ?_⟩
    rcases fulfils.kept edge asked with still | done
    · have phony := goal.phony_of_nothing _ edge nothing still
      rw [command] at phony
      cases phony
    · exact done
  | abandon failure => exact failure.elim

theorem Fulfils.calls (fulfils : h.Fulfils goal start) (calls : Calls False h k) : k.Fulfils goal start := by
  induction calls with
  | refl => exact fulfils
  | tail _ call ih => exact ih.call call

end PlanHistory

open PlanHistory

namespace MainThread

variable {m n : MainThread S}

/-- At some moment of the run MAIN handled the completion of the edge. -/
def CompletedIn (events : List (MainEvent Edge)) (edge : Edge) : Prop :=
  ∃ past event rest, events = past ++ event :: rest ∧
    ∃ m : MainThread S, run step (MainThread.new S) past = some m ∧ m.Completes edge event

structure Recorded (past : List (MainEvent Edge)) (m : MainThread S) : Prop where
  complete : m.Complete
  replay : run step (MainThread.new S) past = some m
  completed : ∀ edge, .finished edge ∈ m.log → S.manifest.isPhony edge = false → CompletedIn (S := S) past edge

theorem new_recorded : (MainThread.new S).Recorded [] := ⟨new_complete, rfl, nofun⟩

theorem Recorded.step {past : List (MainEvent Edge)} {event : MainEvent Edge} (recorded : m.Recorded past)
    (commands : DistinctCommands S) (hashes : DistinctHashes S) (stepped : m.step event = some n) :
    n.Recorded (past ++ [event]) := by
  refine ⟨recorded.complete.step commands stepped, ?_, ?_⟩
  · exact run_append.mpr ⟨m, recorded.replay, run_cons.mpr ⟨n, stepped, rfl⟩⟩
  · intro edge finished command
    obtain ⟨new, log, own⟩ := recorded.complete.finishes hashes stepped
    rw [log] at finished
    rcases List.mem_append.mp finished with before | last
    · obtain ⟨earlier, cause, rest, rfl, k, replay, completes⟩ := recorded.completed edge before command
      exact ⟨earlier, cause, rest ++ [event], by simp, k, replay, completes⟩
    · rcases own edge last with phony | completes
      · rw [command] at phony
        cases phony
      · exact ⟨past, event, [], rfl, m, recorded.replay, completes⟩

/-- Where no two edges share a command or a value of `HashEdge`, a build in which no command fails and that is over
    has done what it was asked for: each edge that the plan wanted when the build began, other than a phony one, need
    not run, or MAIN has handled its own completion. -/
theorem finished_build_is_complete (goal : S.plan.Goal S.manifest) (commands : DistinctCommands S)
    (hashes : DistinctHashes S) {before after : List (MainEvent Edge)} {idle begun final : MainThread S}
    {env : Environment Edge} {plan : S.plan.State} (waited : run step (MainThread.new S) before = some idle)
    (stepped : idle.step (.taskRun env) = some begun) (begins : Begins idle begun env plan)
    (built : run step begun after = some final) (healthy : ∀ event ∈ after, event.fails = false)
    (finished : 0 < final.buildFinishedCalls) {edge : Edge} (wanted : goal.wanted plan edge)
    (command : S.manifest.isPhony edge = false) :
    goal.unneeded final.plan edge ∨ CompletedIn (S := S) (before ++ .taskRun env :: after) edge := by
  have calls : Calls False ⟨plan, [], 0⟩ final.history := by
    apply built_calls waited stepped begins _ built
    intro event member fails
    rw [healthy event member] at fails
    cases fails
  have fulfils : final.history.Fulfils goal plan := (fulfils_start plan).calls calls
  have replay : run step (MainThread.new S) (before ++ .taskRun env :: after) = some final :=
    run_append.mpr ⟨idle, waited, run_cons.mpr ⟨begun, stepped, built⟩⟩
  have recorded : final.Recorded ([] ++ (before ++ .taskRun env :: after)) :=
    run_history_along (fun _ _ _ _ recorded (_ : True) => Recorded.step recorded commands hashes) new_recorded
      (along_of_forall (fun _ _ _ => trivial) _) replay
  rcases fulfils.complete finished edge wanted command with done | clean
  · exact .inr (recorded.completed edge done command)
  · exact .inl clean

theorem finished_build_is_complete_objects :
    CompletedIn (S := objects) (.startPosted :: .taskRun working :: objectsExit) 3 := by
  obtain ⟨idle, begun, final, waited, stepped, begins, built, once⟩ :=
    objects_begin (fun m => decide (0 < m.buildFinishedCalls)) objectsExit (by decide +kernel)
  have wanted : objectsGoal.wanted objectsPlan (3 : Fin 5) := .inl (by decide +kernel)
  rcases finished_build_is_complete objectsGoal objects_distinctCommands objects_distinctHashes waited stepped begins
    built (by decide) (of_decide_eq_true once) wanted (by decide) with clean | completed
  · cases clean
  · exact completed

end MainThread

end DistributedNinja.Master
