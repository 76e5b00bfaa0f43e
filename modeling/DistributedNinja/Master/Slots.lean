import DistributedNinja.Master.Failure

namespace DistributedNinja.Master

open Lib Rpc Proto Common Ninja

variable {Edge : Type} [DecidableEq Edge] {S : Setting Edge}

namespace MainThread

variable {m n : MainThread S} {event : MainEvent Edge} {id connection : Int}

def sentTo (m : MainThread S) (connection : Int) : Nat :=
  m.rpcPosts.countP fun request => request.starts && decide (request.connectionId = connection)

def handles (m : MainThread S) (event : MainEvent Edge) (connection : Int) : Bool :=
  match event, m.queue with
  | .taskRun _, .slave (.onRemoteCommandDone id _ _ _ _) :: _ => decide (id = connection)
  | _, _ => false

def answered (connection : Int) : MainThread S → List (MainEvent Edge) → Nat
  | _, [] => 0
  | m, event :: rest =>
    (if m.handles event connection then 1 else 0) +
      match m.step event with
      | none => 0
      | some n => answered connection n rest

def slots (m : MainThread S) (connection : Int) : Nat := m.sentTo connection + m.pendingRequests connection

theorem pendingRequests_self (count : Nat) (m : MainThread S) :
    (m.setPendingRequests id count).pendingRequests id = count := by
  simp [setPendingRequests, pendingRequests]

theorem sentTo_sendRemotely (m : MainThread S) (edge : Edge) (id connection : Int) :
    (m.sendRemotely edge id).sentTo connection ≤ m.sentTo connection + (if id = connection then 1 else 0) ∧
      (m.sendRemotely edge id).pendingRequests connection = m.pendingRequests connection := by
  unfold sendRemotely startEdgeRemotelly
  dsimp only
  split
  · refine ⟨?_, rfl⟩
    by_cases same : id = connection
    · simp [sentTo, List.countP_append, RpcRequest.starts, RpcRequest.connectionId, same]
    · simp [sentTo, List.countP_append, RpcRequest.starts, RpcRequest.connectionId, same]
  · exact ⟨Nat.le_add_right _ _, rfl⟩

theorem requestEdge_slots (m : MainThread S) (id connection : Int) :
    (m.requestEdge id).2.slots connection ≤ m.slots connection + (if id = connection then 1 else 0) ∧
      ((m.requestEdge id).1 = true ∨ m.moreToDo = false →
        (m.requestEdge id).2.pendingRequests connection = m.pendingRequests connection) := by
  unfold requestEdge
  split
  · rename_i more
    split
    · constructor
      · by_cases same : id = connection
        · subst same
          simp only [slots, pendingRequests_self, if_true]
          change m.sentTo id + _ ≤ _
          omega
        · rw [if_neg same, slots, pendingRequests_set (Ne.symm same)]
          exact Nat.le_refl _
      · rintro (sent | done)
        · cases sent
        · rw [more] at done
          cases done
    · rename_i edge n found
      obtain ⟨rest, _, rfl⟩ := findRemoteWork_takes found
      obtain ⟨sent, pending⟩ := sentTo_sendRemotely (m.taken edge rest) edge id connection
      have same : (m.taken edge rest).sentTo connection = m.sentTo connection := rfl
      have kept : (m.taken edge rest).pendingRequests connection = m.pendingRequests connection := rfl
      refine ⟨?_, fun _ => pending⟩
      simp only [slots]
      omega
  · exact ⟨Nat.le_add_right _ _, fun _ => rfl⟩

def retriesServed : List Int → MainThread S → Bool
  | [], _ => true
  | id :: rest, m =>
    if 0 < m.pendingRequests id then
      match m.requestEdge id with
      | (true, n) => retriesServed rest (n.setPendingRequests id (n.pendingRequests id - 1))
      | (false, n) => !m.moreToDo && retriesServed rest n
    else retriesServed rest m

theorem servePending_slots {requests : List Int} (served : retriesServed requests m = true) (connection : Int) :
    (m.servePending requests).slots connection ≤ m.slots connection ∧
      (m.servePending requests).pendingRequests connection ≤ m.pendingRequests connection := by
  induction requests generalizing m with
  | nil => exact ⟨Nat.le_refl _, Nat.le_refl _⟩
  | cons id rest ih =>
    unfold retriesServed at served
    unfold servePending
    split
    · rename_i waiting
      rw [if_pos waiting] at served
      by_cases more : m.moreToDo = true
      · obtain ⟨slots_le, kept⟩ := requestEdge_slots m id connection
        obtain ⟨_, own⟩ := requestEdge_slots m id id
        generalize m.requestEdge id = answer at *
        obtain ⟨found, n⟩ := answer
        cases found with
        | true =>
          obtain ⟨fewer, pending⟩ := ih served
          have unchanged : n.pendingRequests connection = m.pendingRequests connection := kept (.inl rfl)
          have itself : n.pendingRequests id = m.pendingRequests id := own (.inl rfl)
          have sent : (n.setPendingRequests id (n.pendingRequests id - 1)).sentTo connection =
            n.sentTo connection := rfl
          by_cases same : id = connection
          · subst same
            simp only [slots, pendingRequests_self, if_true] at fewer pending slots_le ⊢
            omega
          · have other := pendingRequests_set (Ne.symm same) (n.pendingRequests id - 1) n
            rw [if_neg same] at slots_le
            simp only [slots] at fewer pending slots_le ⊢
            omega
        | false => simp [more] at served
      · have unchanged : m.requestEdge id = (false, m) := if_neg more
        rw [unchanged] at served ⊢
        exact ih (Bool.and_eq_true_iff.mp served).2
    · rename_i idle
      rw [if_neg idle] at served
      exact ih served

structure KeepsSlots (m n : MainThread S) : Prop where
  posts : n.rpcPosts = m.rpcPosts
  pending : n.pendingEdgeRequest = m.pendingEdgeRequest

theorem KeepsSlots.trans {k : MainThread S} (first : KeepsSlots m n) (second : KeepsSlots n k) :
    KeepsSlots m k := ⟨second.posts.trans first.posts, second.pending.trans first.pending⟩

theorem KeepsSlots.eq (keeps : KeepsSlots m n) (connection : Int) :
    n.slots connection = m.slots connection ∧ n.pendingRequests connection = m.pendingRequests connection := by
  simp only [slots, sentTo, pendingRequests, keeps.posts, keeps.pending, and_self]

theorem finishCommand_keepsSlots {disk : Disk} {result : Result Edge} {ok : Bool}
    (finished : finishCommand disk m result = some (ok, n)) : KeepsSlots m n := by
  rcases finishCommand_cases finished with ⟨_, rfl⟩ | ⟨_, _, rfl⟩ | ⟨_, _, _, _, rfl⟩ <;> exact ⟨rfl, rfl⟩

theorem findWork_keepsSlots {edge : Edge} (found : m.findWork = some (edge, n)) : KeepsSlots m n := by
  obtain ⟨rest, _, rfl⟩ := findWork_takes found
  exact ⟨rfl, rfl⟩

theorem findLocalWork_keepsSlots {edge : Edge} (found : m.findLocalWork = some (edge, n)) : KeepsSlots m n := by
  unfold findLocalWork at found
  split at found
  · rename_i taken
    cases found
    exact findWork_keepsSlots taken
  · split at found
    · cases found
    · cases found
      exact ⟨rfl, rfl⟩

theorem startEdgeLocally_keepsSlots (disk : Edge → Disk) (m : MainThread S) (edge : Edge) :
    KeepsSlots m (m.startEdgeLocally disk edge).2 := by
  unfold startEdgeLocally
  split
  · exact ⟨rfl, rfl⟩
  · split <;> exact ⟨rfl, rfl⟩

theorem startEdges_keepsSlots {next : MainThread S → Option (Edge × MainThread S)}
    (keeps : ∀ {m edge n}, next m = some (edge, n) → KeepsSlots m n) (disk : Edge → Disk) (fuel : Nat)
    (m : MainThread S) : KeepsSlots m (m.startEdges next disk fuel).2 := by
  induction fuel generalizing m with
  | zero => exact ⟨rfl, rfl⟩
  | succ fuel ih =>
    unfold startEdges
    split
    · split
      · exact ⟨rfl, rfl⟩
      · rename_i edge n found
        have started := (keeps found).trans (startEdgeLocally_keepsSlots disk n edge)
        split
        · rename_i k local_
          rw [local_] at started
          exact started.trans (ih k)
        · rename_i k local_
          rw [local_] at started
          exact started
    · exact ⟨rfl, rfl⟩

theorem buildLoop_keepsSlots (disk : Edge → Disk) (m : MainThread S) : KeepsSlots m (m.buildLoop disk) := by
  unfold buildLoop
  split
  · have started := startEdges_keepsSlots findLocalWork_keepsSlots disk m.edgesLeft m
    split
    · rename_i k looped
      rw [looped] at started
      split
      · exact started
      · exact started.trans ⟨rfl, rfl⟩
    · rename_i k looped
      rw [looped] at started
      exact started
  · exact ⟨rfl, rfl⟩

/-- Every request that an exit retries is served. -/
def servesRetries (m : MainThread S) : MainEvent Edge → Bool
  | .exited pid status output env =>
    (m.executor.find? pid).all fun p =>
      (m.commandEdgeMap p.command).all fun edge =>
        (finishCommand (env.disk edge) m ⟨edge, status, output⟩).all fun finished =>
          retriesServed finished.2.pendingEdgeRequest.keys finished.2
  | _ => true

theorem exited_slots {pid : Nat} {status : ExitStatus} {output : String} {env : Environment Edge}
    (serves : m.servesRetries (.exited pid status output env) = true)
    (stepped : m.step (.exited pid status output env) = some n) (connection : Int) :
    n.slots connection ≤ m.slots connection ∧ n.pendingRequests connection ≤ m.pendingRequests connection := by
  cases step_effect stepped with
  | posted outside => rcases outside with ⟨impossible, _⟩ | ⟨_, impossible, _⟩ <;> cases impossible
  | @exited _ _ _ _ p edge ok k found mapped finished =>
    simp only [servesRetries, found, mapped, finished, Option.all_some] at serves
    obtain ⟨slots_le, pending_le⟩ := servePending_slots serves connection
    have before := (finishCommand_keepsSlots finished).eq connection
    have after := (buildLoop_keepsSlots env.disk (k.servePending k.pendingEdgeRequest.keys)).eq connection
    change (buildLoop env.disk _).slots connection ≤ _ ∧ (buildLoop env.disk _).pendingRequests connection ≤ _
    omega

theorem remoteDone_slots {edgeId : UInt32} {status : ExitStatus} {output : String} {md5s : List String}
    (done : m.onRemoteCommandDone id edgeId status output md5s = some n) (connection : Int) :
    n.slots connection ≤ m.slots connection + if id = connection then 1 else 0 := by
  have asked := (requestEdge_slots m id connection).1
  obtain ⟨_, rfl | ⟨fetch, info, _, _, _, _, rfl⟩⟩ := onRemoteCommandDone_cases done
  · exact asked
  · exact asked

theorem Effect.slots_le (effect : Effect m event n) (orderly : m.Orderly) (building : m.isBuilding = true)
    (serves : m.servesRetries event = true) (stepped : m.step event = some n) (connection : Int) :
    n.slots connection ≤ m.slots connection + if m.handles event connection then 1 else 0 := by
  have more : m.slots connection ≤ m.slots connection + if m.handles event connection then 1 else 0 :=
    Nat.le_add_right _ _
  cases effect with
  | posted | noted => exact more
  | rejected head =>
    refine Nat.le_trans (Nat.le_of_eq ?_) more
    simp [slots, sentTo, pendingRequests, RpcRequest.starts]
  | began slaves head known idle started =>
    rw [building] at idle
    cases idle
  | remoteDone head done =>
    have asked := remoteDone_slots done connection
    simp only [handles, head, decide_eq_true_eq]
    exact asked
  | fetchDone head listed finished =>
    rw [((finishCommand_keepsSlots finished).eq connection).1]
    exact more
  | ran head => exact absurd (head ▸ List.mem_cons_self) (orderly.queue _ _)
  | exited found mapped finished => exact Nat.le_trans (exited_slots serves stepped connection).1 more
  | fetched at_ acted =>
    unfold fetchStepped
    split <;> exact more

theorem run_slots_le {events : List (MainEvent Edge)} (orderly : m.Orderly) (building : m.isBuilding = true)
    (serves : Along step (fun m event => m.servesRetries event = true) m events)
    (replay : run step m events = some n) (connection : Int) :
    n.slots connection ≤ m.slots connection + answered connection m events := by
  induction events generalizing m with
  | nil =>
    cases replay
    exact Nat.le_refl _
  | cons event rest ih =>
    obtain ⟨k, stepped, replay⟩ := run_cons.mp replay
    have effect := step_effect stepped
    have first := effect.slots_le orderly building serves.1 stepped connection
    have later := ih (effect.orderly orderly) ((effect.runner building).1.trans building)
      (serves.2 k stepped) replay
    simp only [answered, stepped]
    omega

theorem startEdgesRemotely_pending (id : Int) (count : Nat) (m : MainThread S) :
    (m.startEdgesRemotely id count).pendingEdgeRequest = m.pendingEdgeRequest := by
  induction count generalizing m with
  | zero => rfl
  | succ count ih =>
    unfold startEdgesRemotely
    split
    · rfl
    · rename_i edge n found
      have sent : (n.sendRemotely edge id).pendingEdgeRequest = n.pendingEdgeRequest := by
        unfold sendRemotely startEdgeRemotelly
        dsimp only
        split <;> rfl
      exact (ih _).trans (sent.trans (findWork_keepsSlots found).pending)

theorem startEdgesOnSlaves_pending (slaves : List (Int × SlaveInfo)) (m : MainThread S) :
    (m.startEdgesOnSlaves slaves).pendingEdgeRequest = m.pendingEdgeRequest := by
  induction slaves generalizing m with
  | nil => rfl
  | cons slave rest ih => exact (ih _).trans (startEdgesRemotely_pending _ _ _)

theorem initialalBuild_pending (disk : Edge → Disk) (m : MainThread S) :
    (m.initialalBuild disk).pendingEdgeRequest = m.pendingEdgeRequest := by
  have started := (startEdges_keepsSlots findWork_keepsSlots disk m.edgesLeft m).pending
  unfold initialalBuild
  dsimp only
  split
  · exact (startEdgesOnSlaves_pending _ _).trans started
  · exact started

theorem startBuild_pending {env : Environment Edge} (started : m.startBuild env = some n) :
    n.pendingEdgeRequest = m.pendingEdgeRequest := by
  unfold startBuild at started
  split at started
  · cases started
    rfl
  · obtain ⟨targets, _, rfl⟩ := Option.map_eq_some_iff.mp started
    dsimp only
    split
    · rfl
    · split
      · exact initialalBuild_pending env.disk _
      · rfl

theorem Effect.unsent (effect : Effect m event n) (orderly : m.Orderly) (idle : m.isBuilding = false) :
    n.pendingEdgeRequest = m.pendingEdgeRequest ∧
      (n.isBuilding = false → ∀ connection, n.sentTo connection = m.sentTo connection) := by
  have never : m.isBuilding ≠ true := by simp [idle]
  cases effect with
  | posted | noted => exact ⟨rfl, fun _ _ => rfl⟩
  | rejected head =>
    refine ⟨rfl, fun _ connection => ?_⟩
    simp [sentTo, RpcRequest.starts]
  | began slaves head known _ started =>
    have pending := startBuild_pending started
    refine ⟨pending, fun unbuilt => ?_⟩
    obtain ⟨plan, runner, _, moves⟩ := startBuild_moves (by exact idle) started
    rw [moves.frame.isBuilding] at unbuilt
    cases unbuilt
  | remoteDone head done =>
    exact absurd (orderly.building_of_hasBuilder (onRemoteCommandDone_cases done).1) never
  | fetchDone head listed finished => exact absurd (orderly.building_of_listed listed) never
  | ran head => exact absurd (head ▸ List.mem_cons_self) (orderly.queue _ _)
  | exited found mapped finished => exact absurd (orderly.building_of_subprocess found) never
  | fetched at_ acted =>
    unfold fetchStepped
    split <;> exact ⟨rfl, fun _ _ => rfl⟩

structure Unsent (m : MainThread S) : Prop where
  orderly : m.Orderly
  pending : m.isBuilding = false → m.pendingEdgeRequest = .empty
  sent : m.isBuilding = false → ∀ connection, m.sentTo connection = 0

theorem Unsent.step (unsent : m.Unsent) (stepped : m.step event = some n) : n.Unsent := by
  have effect := step_effect stepped
  have was : n.isBuilding = false → m.isBuilding = false := by
    intro unbuilt
    by_contra building
    have still := (effect.runner (by simpa using building)).1
    rw [unbuilt] at still
    exact building still.symm
  refine ⟨effect.orderly unsent.orderly, ?_, ?_⟩
  · intro unbuilt
    have idle := was unbuilt
    exact (effect.unsent unsent.orderly idle).1.trans (unsent.pending idle)
  · intro unbuilt connection
    have idle := was unbuilt
    exact ((effect.unsent unsent.orderly idle).2 unbuilt connection).trans (unsent.sent idle connection)

/-- From the task on in which `InitialalBuild` sends its edges, and as long as every request that is retried is
    served, a slave has no more requests open and counted than `InitialalBuild` sent to it and it has answered. -/
theorem slots_conserved {before after : List (MainEvent Edge)} {idle begun : MainThread S}
    (reached : run step (MainThread.new S) before = some idle) (unbuilt : idle.isBuilding = false)
    (begins : idle.step event = some begun) (building : begun.isBuilding = true)
    (serves : Along step (fun m event => m.servesRetries event = true) begun after)
    (replay : run step begun after = some n) (connection : Int) :
    idle.sentTo connection = 0 ∧
      n.sentTo connection + n.pendingRequests connection ≤
        begun.sentTo connection + answered connection begun after ∧
      ∀ pid status output env t, n.servesRetries (.exited pid status output env) = true →
        n.step (.exited pid status output env) = some t →
          t.pendingRequests connection ≤ n.pendingRequests connection := by
  have unsent : idle.Unsent := run_invariant (fun _ _ _ unsent stepped => unsent.step stepped)
    ⟨new_orderly, fun _ => rfl, fun _ _ => rfl⟩ reached
  have effect := step_effect begins
  have none_pending : begun.pendingRequests connection = 0 := by
    have same := (effect.unsent unsent.orderly unbuilt).1
    rw [pendingRequests, same, unsent.pending unbuilt]
    rfl
  have bound := run_slots_le (effect.orderly unsent.orderly) building serves replay connection
  simp only [slots, none_pending, Nat.add_zero] at bound
  exact ⟨unsent.sent unbuilt connection, bound,
    fun pid status output env t served stepped => (exited_slots served stepped connection).2⟩

def objectAnswered : List (MainEvent (Fin 5)) := (remoteObject.drop 4).take 2

theorem slots_conserved_objects :
    ∃ idle begun n, run step (MainThread.new objects) (remoteObject.take 3) = some idle ∧
      idle.isBuilding = false ∧ idle.step (.taskRun working) = some begun ∧
      run step begun (.exited 0 .success "" working :: objectAnswered) = some n ∧
      n.pendingRequests 0 = 1 ∧ n.sentTo 0 + n.pendingRequests 0 ≤ begun.sentTo 0 + 1 := by
  have played : (run step (MainThread.new objects) (remoteObject.take 3)).map (fun idle =>
      (idle.step (.taskRun working)).map fun begun =>
        !idle.isBuilding && begun.isBuilding &&
        decide (Along step (fun m event => m.servesRetries event = true) begun
          (.exited 0 .success "" working :: objectAnswered)) &&
        decide (answered 0 begun (.exited 0 .success "" working :: objectAnswered) = 1) &&
        (run step begun (.exited 0 .success "" working :: objectAnswered)).any fun n =>
          decide (n.pendingRequests 0 = 1)) = some (some true) := by
    decide +kernel
  obtain ⟨idle, reached, shape⟩ := Option.map_eq_some_iff.mp played
  obtain ⟨begun, begins, shape⟩ := Option.map_eq_some_iff.mp shape
  simp only [Bool.and_eq_true, Bool.not_eq_true', decide_eq_true_eq, Option.any_eq_true] at shape
  obtain ⟨⟨⟨⟨unbuilt, building⟩, serves⟩, once⟩, n, replay, pending⟩ := shape
  have bound := (slots_conserved reached unbuilt begins building serves replay 0).2.1
  rw [once] at bound
  exact ⟨idle, begun, n, reached, unbuilt, begins, replay, pending, bound⟩

/-- A local command exits while the slave's request waits and there is no remote work: the request is counted
    again. -/
theorem retried_request_counted_twice :
    ¬ ∀ (before after : List (MainEvent (Fin 5))) (event : MainEvent (Fin 5)) (idle begun n : MainThread objects),
      run step (MainThread.new objects) before = some idle → idle.isBuilding = false →
        idle.step event = some begun → begun.isBuilding = true → run step begun after = some n →
          ∀ connection, n.sentTo connection + n.pendingRequests connection ≤
            begun.sentTo connection + answered connection begun after := by
  have drifted : (run step (MainThread.new objects) (remoteObject.take 3)).map (fun idle =>
      (idle.step (.taskRun working)).map fun begun =>
        !idle.isBuilding && begun.isBuilding &&
        (run step begun (objectAnswered ++ [.exited 0 .success "" working])).any fun n =>
          decide (begun.sentTo 0 + answered 0 begun (objectAnswered ++ [.exited 0 .success "" working]) <
            n.sentTo 0 + n.pendingRequests 0)) = some (some true) := by
    decide +kernel
  intro always
  obtain ⟨idle, reached, shape⟩ := Option.map_eq_some_iff.mp drifted
  obtain ⟨begun, begins, shape⟩ := Option.map_eq_some_iff.mp shape
  simp only [Bool.and_eq_true, Bool.not_eq_true', decide_eq_true_eq, Option.any_eq_true] at shape
  obtain ⟨⟨unbuilt, building⟩, n, replay, more⟩ := shape
  exact Nat.not_lt.mpr (always _ _ _ idle begun n reached unbuilt begins building replay 0) more

end MainThread

end DistributedNinja.Master
