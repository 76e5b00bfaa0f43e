import DistributedNinja.Common.ExecutorThread

namespace DistributedNinja.Common

open Lib

namespace ExecutorThread

variable {t u : ExecutorThread} {event : ExecutorEvent}

/-- At most `parallelism_` subprocesses are alive, and `CanRunMore` says whether one more may be. -/
def WithinLimit (t : ExecutorThread) : Prop :=
  t.alive.length ≤ t.executor.parallelism ∧
    (t.executor.canRunMore = true ↔ t.alive.length + 1 ≤ t.executor.parallelism)

def starts (t : ExecutorThread) : ExecutorEvent → Bool
  | .called _ => t.executor.canRunMore
  | .taskRun => t.activations.isEmpty && !t.posted.isEmpty && t.executor.canRunMore
  | _ => false

theorem Processes.alive_length (processes : t.Processes) :
    t.alive.length + t.exiting.length = t.starting.length + t.executor.runningCommands := by
  have living := processes.living.length_eq
  rw [List.length_append, List.length_map, List.length_map, underWay, List.length_append] at living
  rw [processes.counted]
  exact living

theorem alive_runCommand (t : ExecutorThread) (call : CommandCall) :
    (t.runCommand call).alive.length = t.alive.length + (if t.executor.canRunMore then 1 else 0) := by
  simp only [runCommand, CommandExecutor.canRunMore, decide_eq_true_eq]
  split
  · show (t.alive ++ [t.executor.nextPid]).length = _
    rw [List.length_append, List.length_singleton]
  · rfl

theorem parallelism_runCommand (t : ExecutorThread) (call : CommandCall) :
    (t.runCommand call).executor.parallelism = t.executor.parallelism := by
  unfold runCommand
  split <;> rfl

theorem canRunMore_runCommand (t : ExecutorThread) (call : CommandCall) :
    (t.runCommand call).executor.canRunMore = t.executor.canRunMore := by
  unfold runCommand
  split <;> rfl

theorem parallelism_step (stepped : t.step event = some u) :
    u.executor.parallelism = t.executor.parallelism := by
  cases step_effect stepped with
  | called command => exact parallelism_runCommand _ _
  | entered head => rfl
  | left head => rfl
  | exits idle found => rfl
  | taskRun idle head => exact parallelism_runCommand _ _

theorem alive_of_starts (stepped : t.step event = some u) (starts : t.starts event = true) :
    u.alive.length = t.alive.length + 1 ∧ u.executor.canRunMore = true := by
  cases step_effect stepped with
  | called command =>
    have room : t.executor.canRunMore = true := starts
    rw [alive_runCommand, canRunMore_runCommand]
    show t.alive.length + (if t.executor.canRunMore then 1 else 0) = _ ∧ t.executor.canRunMore = true
    rw [if_pos room]
    exact ⟨rfl, room⟩
  | entered head => cases starts
  | left head => cases starts
  | exits idle found => cases starts
  | taskRun idle head =>
    have room : t.executor.canRunMore = true := (Bool.and_eq_true_iff.mp starts).2
    rw [alive_runCommand, canRunMore_runCommand]
    show t.alive.length + (if t.executor.canRunMore then 1 else 0) = _ ∧ t.executor.canRunMore = true
    rw [if_pos room]
    exact ⟨rfl, room⟩

theorem alive_of_not_starts (stepped : t.step event = some u) (waits : t.starts event = false) :
    u.alive.length ≤ t.alive.length := by
  cases step_effect stepped with
  | called command =>
    have full : ¬ t.executor.canRunMore = true := Bool.eq_false_iff.mp waits
    rw [alive_runCommand]
    show t.alive.length + (if t.executor.canRunMore then 1 else 0) ≤ _
    rw [if_neg full]
    exact Nat.le_refl _
  | entered head => exact Nat.le_refl _
  | left head => exact Nat.le_refl _
  | exits idle found => exact List.length_erase_le
  | taskRun idle head =>
    have full : ¬ t.executor.canRunMore = true := by simpa [starts, idle, head] using waits
    rw [alive_runCommand]
    show t.alive.length + (if t.executor.canRunMore then 1 else 0) ≤ _
    rw [if_neg full]
    exact Nat.le_refl _

structure Roomy (t : ExecutorThread) : Prop where
  sound : t.Sound
  room : t.alive.length + 1 ≤ t.executor.parallelism

theorem Roomy.canRunMore (roomy : t.Roomy) : t.executor.canRunMore = true := by
  have counted := roomy.sound.processes.alive_length
  have one := roomy.sound.processes.oneLeaves
  have room := roomy.room
  apply decide_eq_true
  omega

theorem Roomy.withinLimit (roomy : t.Roomy) : t.WithinLimit := by
  have room := roomy.room
  constructor
  · omega
  · exact ⟨fun _ => room, fun _ => roomy.canRunMore⟩

theorem new_roomy (processors : Nat) : (new processors).Roomy := by
  refine ⟨new_sound processors, ?_⟩
  have two := two_le_guessParallelism processors
  show 0 + 1 ≤ guessParallelism processors
  omega

theorem Roomy.step (roomy : t.Roomy) (stepped : t.step event = some u)
    (below : t.starts event = true → t.alive.length + 2 ≤ t.executor.parallelism) : u.Roomy := by
  refine ⟨roomy.sound.step stepped, ?_⟩
  have room := roomy.room
  rw [parallelism_step stepped]
  cases starts : t.starts event with
  | true =>
    have one := (alive_of_starts stepped starts).1
    have two := below starts
    omega
  | false =>
    have fewer := alive_of_not_starts stepped starts
    omega

theorem exists_step_of_starts (starts : t.starts event = true) : ∃ u, t.step event = some u := by
  cases event with
  | called command => exact ⟨_, rfl⟩
  | observersReturned => cases starts
  | subprocessExited pid => cases starts
  | taskRun =>
    simp only [ExecutorThread.starts, Bool.and_eq_true, List.isEmpty_iff, Bool.not_eq_true'] at starts
    obtain ⟨⟨idle, some⟩, _⟩ := starts
    cases head : t.posted with
    | nil => simp [head] at some
    | cons call rest => exact ⟨_, by rw [step, idle, head]⟩

/-- The limit holds in every state of a run if and only if every command that starts a subprocess comes while
    at most `parallelism_ - 2` are alive. -/
theorem within_limit_iff (processors : Nat) (events : List ExecutorEvent) :
    Along step (fun t event => ∀ u, t.step event = some u → u.WithinLimit) (new processors) events ↔
      Along step (fun t event => t.starts event = true → t.alive.length + 2 ≤ t.executor.parallelism)
        (new processors) events := by
  have same : ∀ (t : ExecutorThread) event, t.Roomy → ((∀ u, t.step event = some u → u.WithinLimit) ↔
      (t.starts event = true → t.alive.length + 2 ≤ t.executor.parallelism)) := by
    intro t event roomy
    constructor
    · intro within starts
      obtain ⟨u, stepped⟩ := exists_step_of_starts starts
      obtain ⟨one, more⟩ := alive_of_starts stepped starts
      have fits := (within u stepped).2.mp more
      rw [parallelism_step stepped] at fits
      omega
    · intro below u stepped
      exact (roomy.step stepped below).withinLimit
  apply along_congr_along _ same (new_roomy processors)
  intro t event u roomy within stepped
  exact roomy.step stepped ((same t event roomy).mp within)

/-- Three commands in a row with `parallelism_` 2. -/
theorem limit_exceeded :
    ¬ ∀ (processors : Nat) (events : List ExecutorEvent) (t : ExecutorThread),
      run step (new processors) events = some t → t.WithinLimit := by
  intro always
  have three : (run step (new 1) [.called "ls /", .observersReturned, .called "ls /", .observersReturned,
      .called "ls /"]).map (fun t => (t.alive.length, t.executor.parallelism)) = some (3, 2) := by
    decide +kernel
  obtain ⟨t, replay, shape⟩ := Option.map_eq_some_iff.mp three
  obtain ⟨alive, limit⟩ := Prod.mk.inj shape
  have within := (always 1 _ t replay).1
  omega

def Bounded (t : ExecutorThread) : Prop :=
  t.starting.length + t.executor.runningCommands ≤ t.executor.parallelism + 1

theorem Bounded.runCommand (bounded : t.Bounded) (first : t.starting = []) (call : CommandCall) :
    (t.runCommand call).Bounded := by
  unfold ExecutorThread.runCommand
  split
  · show t.starting.length + 1 + t.executor.runningCommands ≤ t.executor.parallelism + 1
    rw [first, List.length_nil]
    omega
  · exact bounded

theorem Bounded.step (bounded : t.Bounded) (stepped : t.step event = some u)
    (direct : event.isCall = true → t.starting = []) : u.Bounded := by
  cases step_effect stepped with
  | called command =>
    have next : Bounded { t with calls := t.calls ++ [command] } := bounded
    exact next.runCommand (direct rfl) _
  | @entered p rest head =>
    have starts := congrArg List.length (starting_of_starting head)
    rw [List.length_cons] at starts
    rw [Bounded] at bounded
    show (rest.filterMap Activation.starting?).length + (t.executor.runningCommands + 1) ≤
      t.executor.parallelism + 1
    omega
  | @left p rest head =>
    have starts := congrArg List.length (starting_of_exiting head)
    rw [Bounded] at bounded
    show (rest.filterMap Activation.starting?).length + (t.executor.runningCommands - 1) ≤
      t.executor.parallelism + 1
    omega
  | exits idle found =>
    rw [Bounded] at bounded
    show 0 + t.executor.runningCommands ≤ t.executor.parallelism + 1
    omega
  | @taskRun call rest idle head =>
    have next : Bounded { t with posted := rest } := bounded
    have first : t.starting = [] := by
      rw [starting, idle]
      rfl
    exact next.runCommand first _

/-- What the comparisons do keep, where no observer calls `RunCommand` from `OnCommandStarted`. -/
theorem alive_le_of_direct {processors : Nat} {events : List ExecutorEvent}
    (direct : Along step (fun t event => event.isCall = true → t.starting = []) (new processors) events)
    (replay : run step (new processors) events = some t) : t.alive.length ≤ t.executor.parallelism + 1 := by
  have start : (new processors).Bounded := Nat.zero_le _
  have bounded : t.Bounded :=
    run_invariant_along (fun _ _ _ bounded direct stepped => bounded.step stepped direct) start direct replay
  have counted := (run_sound replay).processes.alive_length
  rw [Bounded] at bounded
  omega

end ExecutorThread

end DistributedNinja.Common
