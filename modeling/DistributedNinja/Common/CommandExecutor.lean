import Mathlib.Data.List.Nodup
import Mathlib.Tactic.Common

namespace DistributedNinja.Common

def guessParallelism : Nat → Nat
  | 0 => 2
  | 1 => 2
  | 2 => 3
  | processors => processors + 2

theorem two_le_guessParallelism (processors : Nat) : 2 ≤ guessParallelism processors := by
  unfold guessParallelism
  split <;> omega

/-- An `AsyncSubprocess` and its command. `cause` is for the proofs only: it names what the `RunCommand`
    call was made for. -/
structure Subprocess (Cause : Type) where
  pid : Nat
  command : String
  cause : Cause

/-- `CommandExecutor`. A subprocess that does not start aborts the program, so every one starts here. -/
structure CommandExecutor (Cause : Type) where
  parallelism : Nat
  runningCommands : Nat
  subprocssToCommand : List (Subprocess Cause)
  pendingCommandQueue : List (String × Cause)
  nextPid : Nat

namespace CommandExecutor

variable {Cause : Type}

def new (processors : Nat) : CommandExecutor Cause := ⟨guessParallelism processors, 0, [], [], 0⟩

def canRunMore (x : CommandExecutor Cause) : Bool := decide (x.runningCommands ≤ x.parallelism)

def runCommand (x : CommandExecutor Cause) (command : String) (cause : Cause) : CommandExecutor Cause :=
  if x.runningCommands ≤ x.parallelism then
    { x with
      subprocssToCommand := x.subprocssToCommand ++ [⟨x.nextPid, command, cause⟩]
      nextPid := x.nextPid + 1
      runningCommands := x.runningCommands + 1 }
  else { x with pendingCommandQueue := x.pendingCommandQueue ++ [(command, cause)] }

def find? (x : CommandExecutor Cause) (pid : Nat) : Option (Subprocess Cause) :=
  x.subprocssToCommand.find? fun p => p.pid == pid

/-- `SubprocessExitCallback` after the observers have run, with the command it posts. -/
def exited (x : CommandExecutor Cause) (pid : Nat) : CommandExecutor Cause × Option (String × Cause) :=
  ({ x with
      subprocssToCommand := x.subprocssToCommand.filter fun p => p.pid != pid
      runningCommands := x.runningCommands - 1
      pendingCommandQueue := x.pendingCommandQueue.tail },
    x.pendingCommandQueue.head?)

def others (x : CommandExecutor Cause) (gone : Option Nat) : List (Subprocess Cause) :=
  x.subprocssToCommand.filter fun p => some p.pid != gone

structure WellFormed (x : CommandExecutor Cause) : Prop where
  fresh : ∀ p ∈ x.subprocssToCommand, p.pid < x.nextPid
  distinct : (x.subprocssToCommand.map Subprocess.pid).Nodup
  counted : x.runningCommands = x.subprocssToCommand.length
  started : x.pendingCommandQueue = []

variable {x : CommandExecutor Cause}

theorem new_wellFormed (processors : Nat) : (new processors : CommandExecutor Cause).WellFormed :=
  ⟨nofun, List.nodup_nil, rfl, rfl⟩

theorem others_none (x : CommandExecutor Cause) : x.others none = x.subprocssToCommand := by
  simp [others]

theorem runCommand_of_canRunMore (room : x.canRunMore = true) (command : String) (cause : Cause) :
    x.runCommand command cause = { x with
      subprocssToCommand := x.subprocssToCommand ++ [⟨x.nextPid, command, cause⟩]
      nextPid := x.nextPid + 1
      runningCommands := x.runningCommands + 1 } := by
  rw [runCommand, if_pos (of_decide_eq_true room)]

structure Numbered (x : CommandExecutor Cause) : Prop where
  fresh : ∀ p ∈ x.subprocssToCommand, p.pid < x.nextPid
  distinct : (x.subprocssToCommand.map Subprocess.pid).Nodup

theorem new_numbered (processors : Nat) : (new processors : CommandExecutor Cause).Numbered :=
  ⟨nofun, List.nodup_nil⟩

theorem nextPid_le_runCommand (x : CommandExecutor Cause) (command : String) (cause : Cause) :
    x.nextPid ≤ (x.runCommand command cause).nextPid := by
  unfold runCommand
  split
  · exact Nat.le_succ _
  · exact Nat.le_refl _

theorem Numbered.runCommand (numbered : x.Numbered) (command : String) (cause : Cause) :
    (x.runCommand command cause).Numbered := by
  unfold CommandExecutor.runCommand
  split
  · constructor
    · intro p member
      rcases List.mem_append.mp member with member | member
      · exact Nat.lt_succ_of_lt (numbered.fresh p member)
      · rw [List.mem_singleton.mp member]
        exact Nat.lt_succ_self _
    · rw [List.map_append, List.map_singleton]
      apply List.Nodup.append numbered.distinct (List.nodup_singleton _)
      intro pid before after
      obtain ⟨p, member, same⟩ := List.mem_map.mp before
      have below := numbered.fresh p member
      have last : pid = x.nextPid := List.mem_singleton.mp after
      omega
  · exact ⟨numbered.fresh, numbered.distinct⟩

theorem Numbered.exited (numbered : x.Numbered) (pid : Nat) : (x.exited pid).1.Numbered :=
  ⟨fun p kept => numbered.fresh p (List.mem_filter.mp kept).1,
    numbered.distinct.sublist (List.filter_sublist.map _)⟩

theorem WellFormed.numbered (wf : x.WellFormed) : x.Numbered := ⟨wf.fresh, wf.distinct⟩

theorem WellFormed.runCommand (wf : x.WellFormed) (room : x.canRunMore = true) (command : String)
    (cause : Cause) : (x.runCommand command cause).WellFormed := by
  obtain ⟨fresh, distinct⟩ := wf.numbered.runCommand command cause
  rw [runCommand_of_canRunMore room] at fresh distinct ⊢
  refine ⟨fresh, distinct, ?_, wf.started⟩
  simp only [wf.counted, List.length_append, List.length_singleton]

theorem others_runCommand (room : x.canRunMore = true) (command : String)
    (cause : Cause) {gone : Option Nat} (old : ∀ pid, gone = some pid → pid < x.nextPid) :
    (x.runCommand command cause).others gone = x.others gone ++ [⟨x.nextPid, command, cause⟩] := by
  have new : (some x.nextPid != gone) = true := by
    rw [bne_iff_ne]
    intro same
    exact absurd (old x.nextPid same.symm) (Nat.lt_irrefl _)
  rw [runCommand_of_canRunMore room, others, others, List.filter_append, List.filter_singleton]
  simp only [new, cond_true]

theorem mem_of_find? {pid : Nat} {p : Subprocess Cause} (found : x.find? pid = some p) :
    p ∈ x.subprocssToCommand ∧ p.pid = pid := by
  refine ⟨List.mem_of_find?_eq_some found, ?_⟩
  simpa using List.find?_some found

theorem Numbered.find?_of_mem (numbered : x.Numbered) {p : Subprocess Cause} (member : p ∈ x.subprocssToCommand) :
    x.find? p.pid = some p := by
  obtain ⟨q, found⟩ : ∃ q, x.find? p.pid = some q := by
    apply Option.isSome_iff_exists.mp
    exact List.find?_isSome.mpr ⟨p, member, beq_self_eq_true _⟩
  obtain ⟨listed, same⟩ := mem_of_find? found
  rw [found, List.inj_on_of_nodup_map numbered.distinct listed member same]

theorem Numbered.others_exits (numbered : x.Numbered) {pid : Nat} {p : Subprocess Cause}
    (found : x.find? pid = some p) : (x.others none).Perm (p :: x.others (some pid)) := by
  obtain ⟨member, same⟩ := mem_of_find? found
  rw [others_none]
  have apart : x.subprocssToCommand.Nodup := List.Nodup.of_map _ numbered.distinct
  apply (List.perm_ext_iff_of_nodup apart _).mpr
  · intro q
    simp only [List.mem_cons, others, List.mem_filter, bne_iff_ne, ne_eq, Option.some.injEq]
    constructor
    · intro listed
      by_cases exits : q.pid = pid
      · exact .inl (List.inj_on_of_nodup_map numbered.distinct listed member (exits.trans same.symm))
      · exact .inr ⟨listed, exits⟩
    · rintro (rfl | ⟨listed, _⟩)
      · exact member
      · exact listed
  · refine List.nodup_cons.mpr ⟨?_, apart.filter _⟩
    simp [others, same]

theorem exited_subprocesses (x : CommandExecutor Cause) (pid : Nat) :
    (x.exited pid).1.subprocssToCommand = x.others (some pid) := by
  simp only [exited, others]
  congr 1

theorem WellFormed.exited (wf : x.WellFormed) {pid : Nat} {p : Subprocess Cause}
    (found : x.find? pid = some p) :
    (x.exited pid).1.WellFormed ∧ (x.exited pid).2 = none := by
  obtain ⟨member, same⟩ := mem_of_find? found
  obtain ⟨fresh, distinct⟩ := wf.numbered.exited pid
  refine ⟨⟨fresh, distinct, ?_, ?_⟩, ?_⟩
  · have listed : pid ∈ x.subprocssToCommand.map Subprocess.pid := List.mem_map.mpr ⟨p, member, same⟩
    have one : (x.subprocssToCommand.map Subprocess.pid).count pid = 1 :=
      List.count_eq_one_of_mem wf.distinct listed
    rw [List.count, List.countP_map] at one
    change x.subprocssToCommand.countP (fun q => q.pid == pid) = 1 at one
    have parts := List.length_eq_countP_add_countP (fun q : Subprocess Cause => q.pid == pid)
      (l := x.subprocssToCommand)
    have rest : (x.subprocssToCommand.filter fun q => q.pid != pid).length =
        x.subprocssToCommand.countP fun q => decide ¬(q.pid == pid) = true := by
      rw [← List.countP_eq_length_filter]
      congr 1
      funext q
      by_cases exits : q.pid = pid <;> simp [exits]
    simp only [CommandExecutor.exited, wf.counted, rest]
    omega
  · simp [CommandExecutor.exited, wf.started]
  · simp [CommandExecutor.exited, wf.started]

def underWay (x : CommandExecutor Cause) (gone : Option Nat) : List (String × Cause) :=
  (x.others gone).map (fun p => (p.command, p.cause)) ++ x.pendingCommandQueue

theorem underWay_runCommand {gone : Option Nat} (old : ∀ pid, gone = some pid → pid < x.nextPid)
    (command : String) (cause : Cause) :
    ((x.runCommand command cause).underWay gone).Perm ((command, cause) :: x.underWay gone) := by
  by_cases room : x.canRunMore = true
  · have others := others_runCommand room command cause old
    have pending : (x.runCommand command cause).pendingCommandQueue = x.pendingCommandQueue := by
      rw [runCommand_of_canRunMore room]
    rw [underWay, others, pending, List.map_append, List.append_assoc]
    exact List.perm_middle
  · have crowded : ¬ x.runningCommands ≤ x.parallelism := by simpa [canRunMore] using room
    rw [runCommand, if_neg crowded, underWay, underWay]
    change (_ ++ (x.pendingCommandQueue ++ [(command, cause)])).Perm _
    rw [← List.append_assoc]
    exact List.perm_append_singleton _ _

theorem Numbered.underWay_exits (numbered : x.Numbered) {pid : Nat} {p : Subprocess Cause}
    (found : x.find? pid = some p) :
    (x.underWay none).Perm ((p.command, p.cause) :: x.underWay (some pid)) :=
  ((numbered.others_exits found).map _).append_right _

theorem underWay_exited (x : CommandExecutor Cause) (pid : Nat) :
    ((x.exited pid).1.underWay none ++ (x.exited pid).2.toList).Perm (x.underWay (some pid)) := by
  have rest : (x.exited pid).1.others none = x.others (some pid) := by
    rw [others_none, exited_subprocesses]
  rw [underWay, rest, underWay, List.append_assoc]
  apply List.Perm.append_left
  change (x.pendingCommandQueue.tail ++ x.pendingCommandQueue.head?.toList).Perm _
  cases x.pendingCommandQueue with
  | nil => rfl
  | cons first rest => exact List.perm_append_singleton _ _

theorem mem_underWay_of_find? {pid : Nat} {p : Subprocess Cause} (found : x.find? pid = some p) :
    (p.command, p.cause) ∈ x.underWay none := by
  apply List.mem_append_left
  rw [others_none]
  exact List.mem_map.mpr ⟨p, (mem_of_find? found).1, rfl⟩

end CommandExecutor

end DistributedNinja.Common
