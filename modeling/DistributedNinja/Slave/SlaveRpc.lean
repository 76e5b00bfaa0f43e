import DistributedNinja.Slave.Custody
import DistributedNinja.Slave.FailedPrerequisite

namespace DistributedNinja.Slave

open Lib Proto Common

/-- `SlaveRPC` on the RPC thread, with the runner it posts to. `received` counts the `RunCommand` requests and
    numbers their closures, `ran` is the closures that were run; both are for the proofs only. -/
structure SlaveRPC {Edge : Type} [DecidableEq Edge] (S : Setting Edge) where
  runner : SlaveMainRunner S
  amountOfRunningCommands : Int
  received : Nat
  ran : List Nat

inductive RpcEvent (Edge : Type) where
  | runCommandReceived (request : RunCommandRequest)
  | onRunCommandDone
  | main (event : SlaveEvent Edge)

namespace SlaveRPC

variable {Edge : Type} [DecidableEq Edge] {S : Setting Edge}

def new (runner : SlaveMainRunner S) : SlaveRPC S := ⟨runner, 0, 0, []⟩

/-- `GetStatus`; the load average and the memory are what the system says. -/
def getStatus (r : SlaveRPC S) (loadAverage : UInt64) (memory : Int) : StatusResponse :=
  ⟨loadAverage, r.amountOfRunningCommands, memory⟩

/-- One task of a thread. `RunCommand` posts the request to MAIN, and `OnRunCommandDone` is posted back from MAIN
    and from the blocking pool. -/
def step (r : SlaveRPC S) : RpcEvent Edge → Option (SlaveRPC S)
  | .runCommandReceived request =>
    (r.runner.step (.requestPosted request r.received)).map fun runner =>
      { r with
        runner := runner
        amountOfRunningCommands := r.amountOfRunningCommands + 1
        received := r.received + 1 }
  | .onRunCommandDone =>
    match r.runner.rpcPosts with
    | [] => none
    | context :: rest =>
      some { r with
        runner := { r.runner with rpcPosts := rest }
        amountOfRunningCommands := r.amountOfRunningCommands - 1
        ran := r.ran ++ [context.done] }
  | .main (.requestPosted _ _) => none
  | .main event => (r.runner.step event).map fun runner => { r with runner := runner }

inductive Effect (r : SlaveRPC S) : RpcEvent Edge → SlaveRPC S → Prop where
  | received {request : RunCommandRequest} {runner : SlaveMainRunner S}
      (posted : r.runner.step (.requestPosted request r.received) = some runner) :
      Effect r (.runCommandReceived request) { r with
        runner := runner
        amountOfRunningCommands := r.amountOfRunningCommands + 1
        received := r.received + 1 }
  | done {context : RunCommandContext} {rest : List RunCommandContext}
      (head : r.runner.rpcPosts = context :: rest) :
      Effect r .onRunCommandDone { r with
        runner := { r.runner with rpcPosts := rest }
        amountOfRunningCommands := r.amountOfRunningCommands - 1
        ran := r.ran ++ [context.done] }
  | main {event : SlaveEvent Edge} {runner : SlaveMainRunner S} (nothing : event.tickets = [])
      (stepped : r.runner.step event = some runner) : Effect r (.main event) { r with runner := runner }

variable {r u : SlaveRPC S} {event : RpcEvent Edge}

theorem step_effect (stepped : r.step event = some u) : Effect r event u := by
  cases event with
  | runCommandReceived request =>
    simp only [step] at stepped
    obtain ⟨runner, posted, rfl⟩ := Option.map_eq_some_iff.mp stepped
    exact .received posted
  | onRunCommandDone =>
    simp only [step] at stepped
    split at stepped
    · cases stepped
    · rename_i context rest head
      cases stepped
      exact .done head
  | main event =>
    cases event with
    | requestPosted request done => cases stepped
    | taskRun disk =>
      simp only [step] at stepped
      obtain ⟨runner, moved, rfl⟩ := Option.map_eq_some_iff.mp stepped
      exact .main rfl moved
    | exited pid status output disk =>
      simp only [step] at stepped
      obtain ⟨runner, moved, rfl⟩ := Option.map_eq_some_iff.mp stepped
      exact .main rfl moved
    | digested job md5 =>
      simp only [step] at stepped
      obtain ⟨runner, moved, rfl⟩ := Option.map_eq_some_iff.mp stepped
      exact .main rfl moved

structure Accounted (r : SlaveRPC S) : Prop where
  once : ∃ waiting, Lists r.runner.runCommandContextMap waiting ∧ ∀ done,
    (r.runner.tickets waiting).countP (fun ticket => ticket.2 == done) + r.ran.count done ≤
      if done < r.received then 1 else 0
  counter : r.amountOfRunningCommands = r.received - r.ran.length

theorem new_accounted {runner : SlaveMainRunner S} (created : SlaveMainRunner.postCreateThreads S = some runner) :
    (new runner).Accounted := by
  obtain ⟨map, _, rfl⟩ := Option.map_eq_some_iff.mp created
  exact ⟨⟨[], nofun, fun _ => Nat.zero_le _⟩, rfl⟩

theorem Accounted.step (accounted : r.Accounted) (stepped : r.step event = some u) : u.Accounted := by
  obtain ⟨⟨waiting, lists, once⟩, counter⟩ := accounted
  cases step_effect stepped with
  | @received request runner posted =>
    obtain ⟨later, listed, fewer⟩ := SlaveMainRunner.passes_step posted waiting lists
    constructor
    · refine ⟨later, listed, ?_⟩
      intro done
      have before := once done
      have after := fewer fun ticket => ticket.2 == done
      simp only [SlaveEvent.tickets, List.countP_singleton, beq_iff_eq] at after
      show (runner.tickets later).countP _ + r.ran.count done ≤ if done < r.received + 1 then 1 else 0
      split at after <;> split at before <;> split <;> omega
    · show r.amountOfRunningCommands + 1 = ((r.received + 1 : Nat) : Int) - r.ran.length
      omega
  | @done context rest head =>
    constructor
    · refine ⟨waiting, lists, ?_⟩
      intro done
      have before := once done
      rw [SlaveMainRunner.countP_tickets, head, List.countP_cons] at before
      rw [SlaveMainRunner.countP_tickets]
      show _ + (r.ran ++ [context.done]).count done ≤ if done < r.received then 1 else 0
      rw [List.count_append, List.count_singleton]
      simp only [RunCommandContext.ticket, beq_iff_eq] at before ⊢
      omega
    · show r.amountOfRunningCommands - 1 = (r.received : Int) - (r.ran ++ [context.done]).length
      rw [List.length_append, List.length_singleton]
      omega
  | @main event runner nothing moved =>
    obtain ⟨later, listed, fewer⟩ := SlaveMainRunner.passes_step moved waiting lists
    refine ⟨⟨later, listed, ?_⟩, counter⟩
    intro done
    have before := once done
    have after := fewer fun ticket => ticket.2 == done
    rw [nothing, List.countP_nil] at after
    show (runner.tickets later).countP _ + r.ran.count done ≤ if done < r.received then 1 else 0
    omega

theorem Accounted.ran_once (accounted : r.Accounted) : r.ran.Nodup ∧ ∀ done ∈ r.ran, done < r.received := by
  obtain ⟨⟨waiting, lists, once⟩, _⟩ := accounted
  constructor
  · apply List.nodup_iff_count_le_one.mpr
    intro done
    have most := once done
    split at most <;> omega
  · intro done member
    have most := once done
    have some := List.count_pos_iff.mpr member
    split at most
    · assumption
    · omega

theorem Accounted.length_ran_le (accounted : r.Accounted) : r.ran.length ≤ r.received := by
  obtain ⟨apart, below⟩ := accounted.ran_once
  have within : r.ran.Subperm (List.range r.received) :=
    List.subperm_of_subset apart fun done member => List.mem_range.mpr (below done member)
  have size := within.length_le
  rwa [List.length_range] at size

/-- Every closure is run at most once, and the counter that `GetStatus` reports is the number of requests that
    were received and not answered. -/
theorem running_counter_exact {runner : SlaveMainRunner S} {events : List (RpcEvent Edge)}
    (created : SlaveMainRunner.postCreateThreads S = some runner)
    (replay : run step (new runner) events = some r) :
    r.ran.Nodup ∧ (∀ done ∈ r.ran, done < r.received) ∧ 0 ≤ r.amountOfRunningCommands ∧
      ∀ loadAverage memory,
        (r.getStatus loadAverage memory).amountOfRunningCommands = r.received - r.ran.length := by
  have accounted : r.Accounted :=
    run_invariant (fun _ _ _ accounted stepped => accounted.step stepped) (new_accounted created) replay
  obtain ⟨apart, below⟩ := accounted.ran_once
  have fewer := accounted.length_ran_le
  have counter := accounted.counter
  refine ⟨apart, below, ?_, fun _ _ => counter⟩
  omega

open SlaveMainRunner (program hashEdge secondEdge workingDisk)

def overwritten : List (RpcEvent (Fin 2)) :=
  [.runCommandReceived ⟨hashEdge program secondEdge, ["app"], none⟩,
    .runCommandReceived ⟨hashEdge program secondEdge, ["app"], none⟩, .runCommandReceived ⟨0, [], none⟩,
    .main (.taskRun fun _ => workingDisk), .main (.taskRun fun _ => workingDisk),
    .main (.taskRun fun _ => workingDisk), .onRunCommandDone]

theorem running_counter_exact_overwritten :
    ∃ runner r, SlaveMainRunner.postCreateThreads program = some runner ∧
      run step (new runner) overwritten = some r ∧ r.ran = [2] ∧
        (r.getStatus 0 0).amountOfRunningCommands = (r.received : Int) - r.ran.length := by
  have refused : (SlaveMainRunner.postCreateThreads program).bind (fun runner =>
      (run step (new runner) overwritten).map fun r => r.ran) = some [2] := by
    decide +kernel
  obtain ⟨runner, created, shape⟩ := Option.bind_eq_some_iff.mp refused
  obtain ⟨r, replay, ran⟩ := Option.map_eq_some_iff.mp shape
  exact ⟨runner, r, created, replay, ran, (running_counter_exact created replay).2.2.2 0 0⟩

end SlaveRPC

end DistributedNinja.Slave
