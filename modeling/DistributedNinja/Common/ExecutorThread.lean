import DistributedNinja.Common.CommandExecutor
import DistributedNinja.Lib.Run
import Mathlib.Data.List.Perm.Subperm
import Mathlib.Data.List.Enum

namespace DistributedNinja.Common

open Lib

abbrev CommandCall := String × Nat

inductive Notice
  | onCommandStarted (call : CommandCall)
  | onCommandFinished (call : CommandCall)
  deriving DecidableEq

/-- A method of the executor that is on the stack while its observers run: `RunCommand` has started a
    subprocess, or `SubprocessExitCallback` has been called for one. -/
inductive Activation
  | starting (p : Subprocess Nat)
  | exiting (p : Subprocess Nat)

def Activation.starting? : Activation → Option (Subprocess Nat)
  | .starting p => some p
  | .exiting _ => none

def Activation.exiting? : Activation → Option (Subprocess Nat)
  | .starting _ => none
  | .exiting p => some p

/-- A `CommandExecutor` on its thread, with the methods on the stack, the innermost first, and the `RunCommand`
    tasks in the message loop. The last four fields are for the proofs only: the commands of all calls, what the
    observers were told, the subprocesses that have started and not exited, and the calls that are done with. -/
structure ExecutorThread where
  executor : CommandExecutor Nat
  activations : List Activation
  posted : List CommandCall
  calls : List String
  notices : List Notice
  alive : List Nat
  finished : List CommandCall

inductive ExecutorEvent
  | called (command : String)
  | observersReturned
  | subprocessExited (pid : Nat)
  | taskRun

def ExecutorEvent.isCall : ExecutorEvent → Bool
  | .called _ => true
  | _ => false

def CommandExecutor.inserted (x : CommandExecutor Nat) (p : Subprocess Nat) : CommandExecutor Nat :=
  { x with
    subprocssToCommand := x.subprocssToCommand ++ [p]
    runningCommands := x.runningCommands + 1 }

inductive CallState
  | pending
  | posted
  | running
  | finished
  deriving DecidableEq

def callOf (p : Subprocess Nat) : CommandCall := (p.command, p.cause)

namespace ExecutorThread

def new (processors : Nat) : ExecutorThread := ⟨.new processors, [], [], [], [], [], []⟩

def starting (t : ExecutorThread) : List (Subprocess Nat) := t.activations.filterMap Activation.starting?

def exiting (t : ExecutorThread) : List (Subprocess Nat) := t.activations.filterMap Activation.exiting?

def launched (t : ExecutorThread) (call : CommandCall) : ExecutorThread :=
  { t with
    executor := { t.executor with nextPid := t.executor.nextPid + 1 }
    activations := .starting ⟨t.executor.nextPid, call.1, call.2⟩ :: t.activations
    notices := t.notices ++ [.onCommandStarted call]
    alive := t.alive ++ [t.executor.nextPid] }

def queued (t : ExecutorThread) (call : CommandCall) : ExecutorThread :=
  { t with
    executor := { t.executor with pendingCommandQueue := t.executor.pendingCommandQueue ++ [call] } }

/-- `RunCommand` up to its observers. The subprocess enters the map when they have returned. -/
def runCommand (t : ExecutorThread) (call : CommandCall) : ExecutorThread :=
  if t.executor.runningCommands ≤ t.executor.parallelism then t.launched call else t.queued call

def entered (t : ExecutorThread) (p : Subprocess Nat) (rest : List Activation) : ExecutorThread :=
  { t with
    executor := t.executor.inserted p
    activations := rest }

def exits (t : ExecutorThread) (p : Subprocess Nat) : ExecutorThread :=
  { t with
    activations := [.exiting p]
    notices := t.notices ++ [.onCommandFinished (callOf p)]
    alive := t.alive.erase p.pid }

def left (t : ExecutorThread) (p : Subprocess Nat) (rest : List Activation) : ExecutorThread :=
  { t with
    executor := (t.executor.exited p.pid).1
    activations := rest
    posted := t.posted ++ (t.executor.exited p.pid).2.toList
    finished := t.finished ++ [callOf p] }

/-- Anyone may call at any time, an observer included. The message loop calls `SubprocessExitCallback` or takes
    up a task when no method is on the stack. -/
def step (t : ExecutorThread) : ExecutorEvent → Option ExecutorThread
  | .called command => some ({ t with calls := t.calls ++ [command] }.runCommand (command, t.calls.length))
  | .observersReturned =>
    match t.activations with
    | [] => none
    | .starting p :: rest => some (t.entered p rest)
    | .exiting p :: rest => some (t.left p rest)
  | .subprocessExited pid =>
    match t.activations, t.executor.find? pid with
    | [], some p => some (t.exits p)
    | _, _ => none
  | .taskRun =>
    match t.activations, t.posted with
    | [], call :: rest => some ({ t with posted := rest }.runCommand call)
    | _, _ => none

inductive Effect (t : ExecutorThread) : ExecutorEvent → ExecutorThread → Prop
  | called (command : String) :
    Effect t (.called command) ({ t with calls := t.calls ++ [command] }.runCommand (command, t.calls.length))
  | entered {p : Subprocess Nat} {rest : List Activation} (head : t.activations = .starting p :: rest) :
    Effect t .observersReturned (t.entered p rest)
  | left {p : Subprocess Nat} {rest : List Activation} (head : t.activations = .exiting p :: rest) :
    Effect t .observersReturned (t.left p rest)
  | exits {pid : Nat} {p : Subprocess Nat} (idle : t.activations = []) (found : t.executor.find? pid = some p) :
    Effect t (.subprocessExited pid) (t.exits p)
  | taskRun {call : CommandCall} {rest : List CommandCall} (idle : t.activations = [])
      (head : t.posted = call :: rest) : Effect t .taskRun ({ t with posted := rest }.runCommand call)

variable {t u : ExecutorThread} {event : ExecutorEvent}

theorem step_effect (stepped : t.step event = some u) : Effect t event u := by
  cases event with
  | called command =>
    cases stepped
    exact .called command
  | observersReturned =>
    simp only [step] at stepped
    split at stepped
    · cases stepped
    · rename_i p rest head
      cases stepped
      exact .entered head
    · rename_i p rest head
      cases stepped
      exact .left head
  | subprocessExited pid =>
    simp only [step] at stepped
    split at stepped
    · rename_i p idle found
      cases stepped
      exact .exits idle found
    · cases stepped
  | taskRun =>
    simp only [step] at stepped
    split at stepped
    · rename_i call rest idle head
      cases stepped
      exact .taskRun idle head
    · cases stepped

theorem runCommand_entered (t : ExecutorThread) (room : t.executor.canRunMore = true) (call : CommandCall) :
    ((t.runCommand call).entered ⟨t.executor.nextPid, call.1, call.2⟩ t.activations).executor =
      t.executor.runCommand call.1 call.2 := by
  have below : t.executor.runningCommands ≤ t.executor.parallelism := of_decide_eq_true room
  rw [CommandExecutor.runCommand_of_canRunMore room, runCommand, if_pos below]
  rfl

def underWay (t : ExecutorThread) : List (Subprocess Nat) := t.starting ++ t.executor.subprocssToCommand

structure Processes (t : ExecutorThread) : Prop where
  fresh : ∀ p ∈ t.underWay, p.pid < t.executor.nextPid
  distinct : (t.underWay.map Subprocess.pid).Nodup
  counted : t.executor.runningCommands = t.executor.subprocssToCommand.length
  leaving : ∀ p ∈ t.exiting, p ∈ t.executor.subprocssToCommand
  oneLeaves : t.exiting.length ≤ 1
  living : (t.alive ++ t.exiting.map Subprocess.pid).Perm (t.underWay.map Subprocess.pid)

theorem starting_of_starting {p : Subprocess Nat} {rest : List Activation}
    (head : t.activations = .starting p :: rest) : t.starting = p :: rest.filterMap Activation.starting? := by
  rw [starting, head]
  rfl

theorem exiting_of_starting {p : Subprocess Nat} {rest : List Activation}
    (head : t.activations = .starting p :: rest) : t.exiting = rest.filterMap Activation.exiting? := by
  rw [exiting, head]
  rfl

theorem starting_of_exiting {p : Subprocess Nat} {rest : List Activation}
    (head : t.activations = .exiting p :: rest) : t.starting = rest.filterMap Activation.starting? := by
  rw [starting, head]
  rfl

theorem exiting_of_exiting {p : Subprocess Nat} {rest : List Activation}
    (head : t.activations = .exiting p :: rest) : t.exiting = p :: rest.filterMap Activation.exiting? := by
  rw [exiting, head]
  rfl

theorem underWay_idle (idle : t.activations = []) : t.underWay = t.executor.subprocssToCommand := by
  rw [underWay, starting, idle]
  rfl

theorem exiting_idle (idle : t.activations = []) : t.exiting = [] := by
  rw [exiting, idle]
  rfl

theorem underWay_entered {p : Subprocess Nat} {rest : List Activation}
    (head : t.activations = .starting p :: rest) : (t.entered p rest).underWay.Perm t.underWay := by
  rw [underWay, underWay, starting_of_starting head]
  change (rest.filterMap Activation.starting? ++ (t.executor.subprocssToCommand ++ [p])).Perm _
  rw [← List.append_assoc]
  exact List.perm_append_singleton p _

theorem Processes.numbered (processes : t.Processes) : t.executor.Numbered := by
  constructor
  · intro p member
    exact processes.fresh p (List.mem_append_right _ member)
  · exact processes.distinct.sublist ((List.sublist_append_right _ _).map _)

theorem underWay_left (processes : t.Processes) {p : Subprocess Nat} {rest : List Activation}
    (head : t.activations = .exiting p :: rest) : t.underWay.Perm (p :: (t.left p rest).underWay) := by
  have member : p ∈ t.executor.subprocssToCommand := by
    apply processes.leaving
    rw [exiting_of_exiting head]
    exact List.mem_cons_self
  have split := processes.numbered.others_exits (processes.numbered.find?_of_mem member)
  rw [CommandExecutor.others_none, ← CommandExecutor.exited_subprocesses] at split
  rw [underWay, starting_of_exiting head]
  exact (split.append_left _).trans List.perm_middle

theorem Processes.congr (processes : t.Processes) (executor : u.executor = t.executor)
    (activations : u.activations = t.activations) (alive : u.alive = t.alive) : u.Processes := by
  have exiting : u.exiting = t.exiting := by rw [ExecutorThread.exiting, activations, ExecutorThread.exiting]
  have underWay : u.underWay = t.underWay := by
    rw [ExecutorThread.underWay, ExecutorThread.underWay, starting, starting, activations, executor]
  constructor
  · exact underWay ▸ executor ▸ processes.fresh
  · exact underWay ▸ processes.distinct
  · exact executor ▸ processes.counted
  · exact exiting ▸ executor ▸ processes.leaving
  · exact exiting ▸ processes.oneLeaves
  · exact exiting ▸ underWay ▸ alive ▸ processes.living

theorem Processes.launched (processes : t.Processes) (call : CommandCall) : (t.launched call).Processes := by
  have fresh := processes.fresh
  refine ⟨?_, ?_, processes.counted, processes.leaving, processes.oneLeaves, ?_⟩
  · intro p member
    rcases List.mem_cons.mp member with rfl | member
    · exact Nat.lt_succ_self _
    · exact Nat.lt_succ_of_lt (fresh p member)
  · apply List.nodup_cons.mpr
    constructor
    · intro member
      obtain ⟨p, listed, same⟩ := List.mem_map.mp member
      exact absurd (fresh p listed) (same ▸ Nat.lt_irrefl _)
    · exact processes.distinct
  · apply List.Perm.trans _ (processes.living.cons t.executor.nextPid)
    show (t.alive ++ [t.executor.nextPid] ++ t.exiting.map Subprocess.pid).Perm _
    rw [List.append_assoc]
    exact List.perm_middle

theorem Processes.runCommand (processes : t.Processes) (call : CommandCall) :
    (t.runCommand call).Processes := by
  unfold ExecutorThread.runCommand
  split
  · exact processes.launched call
  · exact ⟨processes.fresh, processes.distinct, processes.counted, processes.leaving, processes.oneLeaves,
      processes.living⟩

theorem Processes.entered (processes : t.Processes) {p : Subprocess Nat} {rest : List Activation}
    (head : t.activations = .starting p :: rest) : (t.entered p rest).Processes := by
  have same := underWay_entered head
  have exits : (t.entered p rest).exiting = t.exiting := (exiting_of_starting head).symm
  constructor
  · intro q member
    exact processes.fresh q (same.mem_iff.mp member)
  · exact (same.map _).nodup_iff.mpr processes.distinct
  · change t.executor.runningCommands + 1 = (t.executor.subprocssToCommand ++ [p]).length
    rw [processes.counted, List.length_append, List.length_singleton]
  · intro q member
    exact List.mem_append_left _ (processes.leaving q (exits ▸ member))
  · exact exits ▸ processes.oneLeaves
  · rw [exits]
    exact processes.living.trans (same.map _).symm

theorem Processes.exits (processes : t.Processes) (idle : t.activations = []) {p : Subprocess Nat}
    (member : p ∈ t.executor.subprocssToCommand) : (t.exits p).Processes := by
  have living := processes.living
  rw [exiting_idle idle, List.map_nil, List.append_nil, underWay_idle idle] at living
  have same : (t.exits p).underWay = t.underWay := (underWay_idle idle).symm
  constructor
  · exact same ▸ processes.fresh
  · exact same ▸ processes.distinct
  · exact processes.counted
  · intro q leaves
    rw [List.mem_singleton.mp leaves]
    exact member
  · exact Nat.le_refl 1
  · have lives : p.pid ∈ t.alive := living.mem_iff.mpr (List.mem_map_of_mem member)
    rw [same, underWay_idle idle]
    refine List.Perm.trans ?_ living
    exact (List.perm_append_singleton _ _).trans (List.perm_cons_erase lives).symm

theorem Processes.left (processes : t.Processes) {p : Subprocess Nat} {rest : List Activation}
    (head : t.activations = .exiting p :: rest) : (t.left p rest).Processes := by
  have parts := underWay_left processes head
  have leaves := exiting_of_exiting head
  have none : rest.filterMap Activation.exiting? = [] := by
    have one := processes.oneLeaves
    rw [leaves, List.length_cons] at one
    exact List.eq_nil_of_length_eq_zero (by omega)
  have distinct := (parts.map Subprocess.pid).nodup_iff.mp processes.distinct
  constructor
  · intro q member
    exact processes.fresh q (parts.mem_iff.mpr (List.mem_cons_of_mem _ member))
  · exact (List.nodup_cons.mp distinct).2
  · have size := parts.length_eq
    rw [List.length_cons, underWay, underWay, starting_of_exiting head, List.length_append,
      List.length_append] at size
    change t.executor.runningCommands - 1 = (t.left p rest).executor.subprocssToCommand.length
    have counted := processes.counted
    change _ = (rest.filterMap Activation.starting?).length + _ + 1 at size
    omega
  · intro q member
    change q ∈ rest.filterMap Activation.exiting? at member
    rw [none] at member
    cases member
  · change (rest.filterMap Activation.exiting?).length ≤ 1
    rw [none]
    exact Nat.zero_le 1
  · have living := processes.living.trans (parts.map _)
    rw [leaves, none] at living
    change (t.alive ++ (rest.filterMap Activation.exiting?).map Subprocess.pid).Perm _
    rw [none, List.map_nil, List.append_nil]
    exact ((List.perm_append_singleton _ _).symm.trans living).cons_inv

theorem new_processes (processors : Nat) : (new processors).Processes :=
  ⟨nofun, List.nodup_nil, rfl, nofun, Nat.zero_le 1, .refl _⟩

theorem Processes.step (processes : t.Processes) (stepped : t.step event = some u) : u.Processes := by
  cases step_effect stepped with
  | called command =>
    apply Processes.runCommand
    exact processes.congr rfl rfl rfl
  | entered head => exact processes.entered head
  | left head => exact processes.left head
  | exits idle found => exact processes.exits idle (CommandExecutor.mem_of_find? found).1
  | taskRun idle head =>
    apply Processes.runCommand
    exact processes.congr rfl rfl rfl

def running (t : ExecutorThread) : List CommandCall := t.underWay.map callOf

/-- Where every call is and what the observers were told of it, while the calls of `hand` enter `RunCommand`. -/
structure Ledger (hand : List CommandCall) (t : ExecutorThread) : Prop where
  placed : ∀ call, t.executor.pendingCommandQueue.count call + t.posted.count call + t.running.count call +
    t.finished.count call + hand.count call = t.calls.zipIdx.count call
  started : ∀ call, t.notices.count (.onCommandStarted call) = t.running.count call + t.finished.count call
  told : ∀ call, t.notices.count (.onCommandFinished call) =
    (t.exiting.map callOf).count call + t.finished.count call
  inOrder : ∀ call, Preceded (.onCommandStarted call) (.onCommandFinished call) t.notices
  crowded : t.executor.pendingCommandQueue ≠ [] →
    t.executor.parallelism + 1 ≤ t.running.length + t.posted.length + hand.length

theorem count_running_left (processes : t.Processes) {p : Subprocess Nat} {rest : List Activation}
    (head : t.activations = .exiting p :: rest) (call : CommandCall) :
    t.running.count call = [callOf p].count call + (t.left p rest).running.count call := by
  have parts := (underWay_left processes head).map callOf
  rw [running, parts.count_eq, List.map_cons, ← List.singleton_append, List.count_append]
  rfl

theorem Ledger.launched {call : CommandCall} (ledger : t.Ledger [call]) : (t.launched call).Ledger [] := by
  obtain ⟨placed, started, told, inOrder, crowded⟩ := ledger
  have enters : ∀ other, (t.launched call).running.count other =
      t.running.count other + [call].count other := by
    intro other
    show (call :: t.running).count other = _
    rw [← List.singleton_append, List.count_append, Nat.add_comm]
  constructor
  · intro other
    have before := placed other
    rw [enters, List.count_nil]
    show t.executor.pendingCommandQueue.count other + t.posted.count other + _ + t.finished.count other + 0 =
      t.calls.zipIdx.count other
    omega
  · intro other
    have before := started other
    rw [enters]
    show (t.notices ++ [Notice.onCommandStarted call]).count (.onCommandStarted other) =
      _ + t.finished.count other
    rw [List.count_append]
    simp only [List.count_singleton, beq_iff_eq, Notice.onCommandStarted.injEq]
    omega
  · intro other
    show (t.notices ++ [Notice.onCommandStarted call]).count (.onCommandFinished other) = _
    rw [List.count_append, told]
    rfl
  · intro other
    apply (inOrder other).append
    intro same
    cases same
  · intro waiting
    have many := crowded waiting
    show t.executor.parallelism + 1 ≤ (call :: t.running).length + t.posted.length + 0
    simp only [List.length_cons, List.length_nil] at many ⊢
    omega

theorem Ledger.queued {call : CommandCall} (ledger : t.Ledger [call]) (processes : t.Processes)
    (full : ¬ t.executor.runningCommands ≤ t.executor.parallelism) : (t.queued call).Ledger [] := by
  constructor
  · intro other
    have before := ledger.placed other
    show (t.executor.pendingCommandQueue ++ [call]).count other + t.posted.count other +
      t.running.count other + t.finished.count other + 0 = t.calls.zipIdx.count other
    rw [List.count_append]
    omega
  · exact ledger.started
  · exact ledger.told
  · exact ledger.inOrder
  · intro _
    -- the subprocesses that have not entered the map come on top of the ones that are counted
    have size : t.running.length = t.starting.length + t.executor.subprocssToCommand.length := by
      rw [running, List.length_map, underWay, List.length_append]
    have counted := processes.counted
    show t.executor.parallelism + 1 ≤ t.running.length + t.posted.length + 0
    omega

theorem Ledger.runCommand {call : CommandCall} (ledger : t.Ledger [call]) (processes : t.Processes) :
    (t.runCommand call).Ledger [] := by
  unfold ExecutorThread.runCommand
  split
  · exact ledger.launched
  · rename_i full
    exact ledger.queued processes full

theorem Ledger.entered {p : Subprocess Nat} {rest : List Activation} (ledger : t.Ledger [])
    (head : t.activations = .starting p :: rest) : (t.entered p rest).Ledger [] := by
  have same : (t.entered p rest).running.Perm t.running := (underWay_entered head).map callOf
  have exits : (t.entered p rest).exiting = t.exiting := (exiting_of_starting head).symm
  constructor
  · intro call
    rw [same.count_eq]
    exact ledger.placed call
  · intro call
    rw [same.count_eq]
    exact ledger.started call
  · rw [exits]
    exact ledger.told
  · exact ledger.inOrder
  · intro waiting
    rw [same.length_eq]
    exact ledger.crowded waiting

theorem Ledger.exits {p : Subprocess Nat} (ledger : t.Ledger []) (idle : t.activations = [])
    (member : p ∈ t.executor.subprocssToCommand) : (t.exits p).Ledger [] := by
  obtain ⟨placed, started, told, inOrder, crowded⟩ := ledger
  have same : (t.exits p).running = t.running := by
    rw [running, running, underWay_idle idle]
    rfl
  have runs : callOf p ∈ t.running := by
    rw [running, underWay_idle idle]
    exact List.mem_map_of_mem member
  constructor
  · exact same ▸ placed
  · intro call
    show (t.notices ++ [Notice.onCommandFinished (callOf p)]).count (.onCommandStarted call) = _
    rw [same, List.count_append, started]
    rfl
  · intro call
    show (t.notices ++ [Notice.onCommandFinished (callOf p)]).count (.onCommandFinished call) =
      [callOf p].count call + t.finished.count call
    rw [List.count_append, told, exiting_idle idle]
    simp only [List.map_nil, List.count_nil, List.count_singleton, beq_iff_eq, Notice.onCommandFinished.injEq]
    omega
  · intro call
    apply (inOrder call).append
    intro finishes
    cases finishes
    have one := List.count_pos_iff.mpr runs
    apply List.count_pos_iff.mp
    rw [started]
    omega
  · exact same ▸ crowded

theorem Ledger.left {p : Subprocess Nat} {rest : List Activation} (ledger : t.Ledger [])
    (processes : t.Processes) (head : t.activations = .exiting p :: rest) : (t.left p rest).Ledger [] := by
  obtain ⟨placed, started, told, inOrder, crowded⟩ := ledger
  have leaves := count_running_left processes head
  have done : ∀ call, (t.left p rest).finished.count call = t.finished.count call + [callOf p].count call :=
    fun _ => List.count_append
  have moved : ∀ call, (t.left p rest).executor.pendingCommandQueue.count call +
      (t.left p rest).posted.count call =
        t.executor.pendingCommandQueue.count call + t.posted.count call := by
    intro call
    change t.executor.pendingCommandQueue.tail.count call +
      (t.posted ++ t.executor.pendingCommandQueue.head?.toList).count call = _
    cases t.executor.pendingCommandQueue with
    | nil => simp
    | cons first others =>
      simp only [List.tail_cons, List.head?_cons, Option.toList_some, List.count_append, List.count_cons,
        List.count_nil]
      omega
  refine ⟨?_, ?_, ?_, inOrder, ?_⟩
  · intro call
    have before := placed call
    rw [leaves] at before
    rw [moved, done]
    change _ = t.calls.zipIdx.count call
    omega
  · intro call
    rw [done]
    change t.notices.count _ = _
    rw [started, leaves]
    omega
  · intro call
    rw [done]
    change t.notices.count _ = ((rest.filterMap Activation.exiting?).map callOf).count call + _
    rw [told, exiting_of_exiting head, List.map_cons, ← List.singleton_append, List.count_append]
    omega
  · intro waiting
    change t.executor.pendingCommandQueue.tail ≠ [] at waiting
    have size := ((underWay_left processes head).map callOf).length_eq
    change t.running.length = ((t.left p rest).running).length + 1 at size
    change t.executor.parallelism + 1 ≤ (t.left p rest).running.length +
      (t.posted ++ t.executor.pendingCommandQueue.head?.toList).length + 0
    cases queue : t.executor.pendingCommandQueue with
    | nil => simp only [queue, List.tail_nil, ne_eq, not_true_eq_false] at waiting
    | cons first others =>
      have many := crowded (by simp only [queue, ne_eq, reduceCtorEq, not_false_eq_true])
      simp only [List.head?_cons, Option.toList_some, List.length_append, List.length_singleton,
        List.length_nil] at many ⊢
      omega

theorem Ledger.called (ledger : t.Ledger []) (command : String) :
    Ledger [(command, t.calls.length)] { t with calls := t.calls ++ [command] } := by
  refine ⟨?_, ledger.started, ledger.told, ledger.inOrder, ?_⟩
  · intro call
    have before := ledger.placed call
    show t.executor.pendingCommandQueue.count call + t.posted.count call + t.running.count call +
      t.finished.count call + [(command, t.calls.length)].count call =
        (t.calls ++ [command]).zipIdx.count call
    rw [List.zipIdx_append, List.count_append, ← before, Nat.zero_add]
    rfl
  · intro waiting
    have many := ledger.crowded waiting
    show t.executor.parallelism + 1 ≤ t.running.length + t.posted.length + 1
    rw [List.length_nil] at many
    omega

theorem Ledger.taken {call : CommandCall} {rest : List CommandCall} (ledger : t.Ledger [])
    (head : t.posted = call :: rest) : Ledger [call] { t with posted := rest } := by
  refine ⟨?_, ledger.started, ledger.told, ledger.inOrder, ?_⟩
  · intro other
    have before := ledger.placed other
    show t.executor.pendingCommandQueue.count other + rest.count other + t.running.count other +
      t.finished.count other + [call].count other = t.calls.zipIdx.count other
    rw [head, ← List.singleton_append, List.count_append, List.count_nil] at before
    omega
  · intro waiting
    have many := ledger.crowded waiting
    show t.executor.parallelism + 1 ≤ t.running.length + rest.length + 1
    rw [head, List.length_cons, List.length_nil] at many
    omega

structure Sound (t : ExecutorThread) : Prop where
  processes : t.Processes
  ledger : t.Ledger []

theorem new_sound (processors : Nat) : (new processors).Sound := by
  refine ⟨new_processes processors, fun _ => rfl, fun _ => rfl, fun _ => rfl, ?_, nofun⟩
  intro call before entry after shape
  cases before <;> cases shape

theorem Sound.step (sound : t.Sound) (stepped : t.step event = some u) : u.Sound := by
  obtain ⟨processes, ledger⟩ := sound
  refine ⟨processes.step stepped, ?_⟩
  cases step_effect stepped with
  | called command => exact (ledger.called command).runCommand (processes.congr rfl rfl rfl)
  | entered head => exact ledger.entered head
  | left head => exact ledger.left processes head
  | exits idle found => exact ledger.exits idle (CommandExecutor.mem_of_find? found).1
  | taskRun idle head => exact (ledger.taken head).runCommand (processes.congr rfl rfl rfl)

def callsIn (t : ExecutorThread) : CallState → List CommandCall
  | .pending => t.executor.pendingCommandQueue
  | .posted => t.posted
  | .running => t.running
  | .finished => t.finished

/-- Every call is in one state, its observers were told of its start and then of its end once each, and calls
    wait only while enough others run. -/
structure RunsOnce (t : ExecutorThread) : Prop where
  oneState : ∀ call ∈ t.calls.zipIdx, ∃! state, call ∈ t.callsIn state
  ownState : ∀ state, (t.callsIn state).Nodup ∧ ∀ call ∈ t.callsIn state, call ∈ t.calls.zipIdx
  startedOnce : ∀ call, t.notices.count (.onCommandStarted call) =
    if call ∈ t.callsIn .running ∨ call ∈ t.callsIn .finished then 1 else 0
  finishedOnce : ∀ call, t.notices.count (.onCommandFinished call) =
    if call ∈ t.exiting.map callOf ∨ call ∈ t.callsIn .finished then 1 else 0
  inOrder : ∀ call, Preceded (.onCommandStarted call) (.onCommandFinished call) t.notices
  counted : t.executor.runningCommands = t.executor.subprocssToCommand.length
  crowded : t.callsIn .pending ≠ [] →
    t.executor.parallelism + 1 ≤ (t.callsIn .running).length + (t.callsIn .posted).length

theorem nodup_zipIdx (commands : List String) : commands.zipIdx.Nodup := by
  apply List.Nodup.of_map Prod.snd
  rw [List.zipIdx_map_snd]
  exact List.nodup_range'

theorem Ledger.sum (ledger : t.Ledger []) (call : CommandCall) :
    (t.callsIn .pending).count call + (t.callsIn .posted).count call + (t.callsIn .running).count call +
      (t.callsIn .finished).count call = t.calls.zipIdx.count call :=
  ledger.placed call

theorem Ledger.sum_le (ledger : t.Ledger []) (call : CommandCall) :
    (t.callsIn .pending).count call + (t.callsIn .posted).count call + (t.callsIn .running).count call +
      (t.callsIn .finished).count call ≤ 1 := by
  rw [ledger.sum]
  exact List.nodup_iff_count_le_one.mp (nodup_zipIdx t.calls) call

theorem Ledger.count_le (ledger : t.Ledger []) (state : CallState) (call : CommandCall) :
    (t.callsIn state).count call ≤ 1 := by
  have all := ledger.sum_le call
  cases state <;> omega

theorem Ledger.ownState (ledger : t.Ledger []) (state : CallState) :
    (t.callsIn state).Nodup ∧ ∀ call ∈ t.callsIn state, call ∈ t.calls.zipIdx := by
  constructor
  · exact List.nodup_iff_count_le_one.mpr (ledger.count_le state)
  · intro call member
    have one := List.count_pos_iff.mpr member
    have all := ledger.sum call
    apply List.count_pos_iff.mp
    cases state <;> omega

theorem Ledger.oneState (ledger : t.Ledger []) {call : CommandCall} (made : call ∈ t.calls.zipIdx) :
    ∃! state, call ∈ t.callsIn state := by
  have one := List.count_eq_one_of_mem (nodup_zipIdx t.calls) made
  have all := ledger.sum call
  have some : ∃ state, 0 < (t.callsIn state).count call := by
    by_contra nowhere
    simp only [not_exists, Nat.not_lt, Nat.le_zero] at nowhere
    simp only [nowhere] at all
    omega
  obtain ⟨state, here⟩ := some
  refine ⟨state, List.count_pos_iff.mp here, ?_⟩
  intro other there
  have also : 0 < (t.callsIn other).count call := List.count_pos_iff.mpr there
  cases state <;> cases other <;> first | rfl | omega

theorem count_eq_ite {count : Nat} {here there : List CommandCall} {call : CommandCall}
    (counted : count = here.count call + there.count call) (once : here.count call + there.count call ≤ 1) :
    count = if call ∈ here ∨ call ∈ there then 1 else 0 := by
  split
  · rename_i member
    rcases member with member | member
    · have one := List.count_pos_iff.mpr member
      omega
    · have one := List.count_pos_iff.mpr member
      omega
  · rename_i absent
    rw [not_or] at absent
    rw [counted, List.count_eq_zero_of_not_mem absent.1, List.count_eq_zero_of_not_mem absent.2]

theorem Sound.exiting_le (sound : t.Sound) (call : CommandCall) :
    (t.exiting.map callOf).count call ≤ t.running.count call := by
  have apart : t.exiting.Nodup := by
    match exits : t.exiting, sound.processes.oneLeaves with
    | [], _ => exact List.nodup_nil
    | [p], _ => exact List.nodup_singleton p
  have within : t.exiting.Subperm t.underWay := by
    apply List.subperm_of_subset apart
    intro p member
    exact List.mem_append_right _ (sound.processes.leaving p member)
  obtain ⟨listed, same, sublist⟩ := within
  rw [← (same.map callOf).count_eq]
  exact (sublist.map callOf).count_le call

theorem Sound.runsOnce (sound : t.Sound) : t.RunsOnce := by
  have ledger := sound.ledger
  constructor
  · intro call made
    exact ledger.oneState made
  · exact ledger.ownState
  · intro call
    have once := ledger.sum_le call
    apply count_eq_ite (ledger.started call)
    show (t.callsIn .running).count call + (t.callsIn .finished).count call ≤ 1
    omega
  · intro call
    have once := ledger.sum_le call
    have fewer := sound.exiting_le call
    apply count_eq_ite (ledger.told call)
    show _ + (t.callsIn .finished).count call ≤ 1
    change _ ≤ (t.callsIn .running).count call at fewer
    omega
  · exact ledger.inOrder
  · exact sound.processes.counted
  · exact ledger.crowded

/-- What is left to do, in steps: a call that waits may be posted and queued again only when another ends. -/
def work (t : ExecutorThread) : Nat :=
  5 * t.executor.pendingCommandQueue.length + 6 * t.posted.length + 3 * t.starting.length +
    2 * t.executor.subprocssToCommand.length + t.alive.length

theorem work_runCommand {call : CommandCall} {rest : List CommandCall} (head : t.posted = call :: rest) :
    (runCommand { t with posted := rest } call).work < t.work := by
  have posted : t.posted.length = rest.length + 1 := by rw [head, List.length_cons]
  unfold runCommand
  split
  · show 5 * t.executor.pendingCommandQueue.length + 6 * rest.length + 3 * (t.starting.length + 1) +
      2 * t.executor.subprocssToCommand.length + (t.alive ++ [t.executor.nextPid]).length < t.work
    rw [List.length_append, List.length_singleton, work]
    omega
  · show 5 * (t.executor.pendingCommandQueue ++ [call]).length + 6 * rest.length + 3 * t.starting.length +
      2 * t.executor.subprocssToCommand.length + t.alive.length < t.work
    rw [List.length_append, List.length_singleton, work]
    omega

theorem work_left (processes : t.Processes) {p : Subprocess Nat} {rest : List Activation}
    (head : t.activations = .exiting p :: rest) : (t.left p rest).work < t.work := by
  have starts : (t.left p rest).starting = t.starting := (starting_of_exiting head).symm
  have size := (underWay_left processes head).length_eq
  rw [List.length_cons, underWay, underWay, starts, List.length_append, List.length_append] at size
  have alive : (t.left p rest).alive = t.alive := rfl
  have moved : 5 * (t.left p rest).executor.pendingCommandQueue.length + 6 * (t.left p rest).posted.length ≤
      5 * t.executor.pendingCommandQueue.length + 6 * t.posted.length + 1 := by
    show 5 * t.executor.pendingCommandQueue.tail.length +
      6 * (t.posted ++ t.executor.pendingCommandQueue.head?.toList).length ≤ _
    cases t.executor.pendingCommandQueue with
    | nil => simp
    | cons first others =>
      simp only [List.tail_cons, List.head?_cons, Option.toList_some, List.length_append, List.length_cons,
        List.length_nil]
      omega
  rw [work, work, starts, alive]
  omega

theorem Sound.work_step (sound : t.Sound) (stepped : t.step event = some u) (quiet : event.isCall = false) :
    u.work < t.work := by
  cases step_effect stepped with
  | called command => cases quiet
  | @entered p rest head =>
    have starts : t.starting.length = (t.entered p rest).starting.length + 1 := by
      rw [starting_of_starting head]
      rfl
    show 5 * t.executor.pendingCommandQueue.length + 6 * t.posted.length +
      3 * (t.entered p rest).starting.length + 2 * (t.executor.subprocssToCommand ++ [p]).length +
        t.alive.length < t.work
    rw [List.length_append, List.length_singleton, work]
    omega
  | left head => exact work_left sound.processes head
  | @exits pid p idle found =>
    have living := sound.processes.living
    rw [exiting_idle idle, List.map_nil, List.append_nil, underWay_idle idle] at living
    have lives : p.pid ∈ t.alive :=
      living.mem_iff.mpr (List.mem_map_of_mem (CommandExecutor.mem_of_find? found).1)
    have starts : (t.exits p).starting = t.starting := by
      rw [starting, starting, idle]
      rfl
    have fewer := List.length_erase_of_mem lives
    have some := List.length_pos_of_mem lives
    show 5 * t.executor.pendingCommandQueue.length + 6 * t.posted.length + 3 * (t.exits p).starting.length +
      2 * t.executor.subprocssToCommand.length + (t.alive.erase p.pid).length < t.work
    rw [starts, fewer, work]
    omega
  | taskRun idle head => exact work_runCommand head

theorem Sound.work_run {events : List ExecutorEvent} (sound : t.Sound)
    (quiet : ∀ e ∈ events, e.isCall = false) (replay : run ExecutorThread.step t events = some u) :
    events.length + u.work ≤ t.work := by
  induction events generalizing t with
  | nil =>
    cases replay
    rw [List.length_nil]
    omega
  | cons e es ih =>
    obtain ⟨v, stepped, rest⟩ := run_cons.mp replay
    have less := sound.work_step stepped (quiet e List.mem_cons_self)
    have later := ih (sound.step stepped) (fun e member => quiet e (List.mem_cons_of_mem _ member)) rest
    rw [List.length_cons]
    omega

theorem Sound.drained (sound : t.Sound) (stopped : ∀ e, e.isCall = false → t.step e = none)
    {call : CommandCall} (made : call ∈ t.calls.zipIdx) : call ∈ t.callsIn .finished := by
  have idle : t.activations = [] := by
    have returns := stopped .observersReturned rfl
    simp only [ExecutorThread.step] at returns
    split at returns
    · assumption
    · cases returns
    · cases returns
  have noTask : t.posted = [] := by
    have takes := stopped .taskRun rfl
    rw [ExecutorThread.step, idle] at takes
    cases head : t.posted with
    | nil => rfl
    | cons call rest =>
      rw [head] at takes
      cases takes
  have noProcess : t.executor.subprocssToCommand = [] := by
    cases processes : t.executor.subprocssToCommand with
    | nil => rfl
    | cons p others =>
      have exits := stopped (.subprocessExited p.pid) rfl
      have listed : p ∈ t.executor.subprocssToCommand := processes ▸ List.mem_cons_self
      rw [ExecutorThread.step, idle, sound.processes.numbered.find?_of_mem listed] at exits
      cases exits
  have noneRuns : t.running = [] := by rw [running, underWay_idle idle, noProcess, List.map_nil]
  have nonePends : t.executor.pendingCommandQueue = [] := by
    by_contra waiting
    have many := sound.ledger.crowded waiting
    rw [noneRuns, noTask, List.length_nil] at many
    omega
  obtain ⟨state, here, _⟩ := sound.ledger.oneState made
  cases state with
  | pending =>
    change call ∈ t.executor.pendingCommandQueue at here
    rw [nonePends] at here
    cases here
  | posted =>
    change call ∈ t.posted at here
    rw [noTask] at here
    cases here
  | running =>
    change call ∈ t.running at here
    rw [noneRuns] at here
    cases here
  | finished => exact here

theorem run_sound {processors : Nat} {events : List ExecutorEvent}
    (replay : run step (new processors) events = some t) : t.Sound :=
  run_invariant (fun _ _ _ sound stepped => sound.step stepped) (new_sound processors) replay

/-- Every command runs once, and the executor drains: without new calls it stops after a bounded number of
    steps, and where it has stopped every call is finished. -/
theorem commands_run_once_and_drain {processors : Nat} {events : List ExecutorEvent}
    (replay : run step (new processors) events = some t) :
    t.RunsOnce ∧ ∀ later u, (∀ e ∈ later, e.isCall = false) → run step t later = some u →
      later.length ≤ t.work ∧
        ((∀ e, e.isCall = false → u.step e = none) → ∀ call ∈ u.calls.zipIdx, call ∈ u.callsIn .finished) := by
  have sound := run_sound replay
  refine ⟨sound.runsOnce, ?_⟩
  intro later u quiet continued
  constructor
  · have bounded := sound.work_run quiet continued
    omega
  · intro stopped call made
    have after : u.Sound := run_invariant (fun _ _ _ sound stepped => sound.step stepped) sound continued
    exact after.drained stopped made

def requeued : List ExecutorEvent :=
  [.called "ls /", .observersReturned, .called "ls /", .observersReturned, .called "ls /", .observersReturned,
    .called "ls /", .subprocessExited 0, .observersReturned, .called "ls", .observersReturned, .taskRun]

theorem commands_run_once_and_drain_requeued :
    ∃ t, run step (new 1) requeued = some t ∧ t.callsIn .pending = [("ls /", 3)] ∧ t.RunsOnce := by
  have waits : (run step (new 1) requeued).map (fun t => t.callsIn .pending) = some [("ls /", 3)] := by
    decide +kernel
  obtain ⟨t, replay, pending⟩ := Option.map_eq_some_iff.mp waits
  exact ⟨t, replay, pending, (commands_run_once_and_drain replay).1⟩

end ExecutorThread

end DistributedNinja.Common
