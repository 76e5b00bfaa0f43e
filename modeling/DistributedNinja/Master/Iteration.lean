import DistributedNinja.Lib.MapWalk
import DistributedNinja.Master.Registries

namespace DistributedNinja.Master

open Lib Rpc Proto

/-- Identifiers and pointers are handed out side by side. Unlike `Sound` this also holds where an accept
    finds the connection ended. -/
structure Registry.Keyed (r : Registry) : Prop where
  counters : r.lastId = r.nextPointer
  entry : ∀ (id : Int) (pointer : Nat), r.connections.find? id = some pointer → id = pointer
  object : ∀ (pointer : Nat) (id : Int), r.ids pointer = some id → id = pointer

namespace Registry

variable {r : Registry}

theorem Keyed.allocate (keyed : r.Keyed) : r.allocate.Keyed := by
  have counters := keyed.counters
  refine ⟨?_, keyed.entry, ?_⟩
  · simp only [Registry.allocate]
    omega
  · intro pointer id found
    simp only [Registry.allocate, Function.update_apply] at found
    split at found
    · rename_i fresh
      rw [fresh, ← counters, Option.some.inj found]
    · exact keyed.object pointer id found

theorem Keyed.connect (keyed : r.Keyed) {id : Int} {pointer : Nat} (same : id = pointer) :
    (r.connect id pointer).Keyed := by
  refine ⟨keyed.counters, ?_, keyed.object⟩
  intro other target found
  simp only [Registry.connect, OrderedMap.find?_insert] at found
  split at found
  · rename_i at_
    rw [at_, same, Option.some.inj found]
  · exact keyed.entry other target found

theorem Keyed.close (keyed : r.Keyed) (id : Int) (pointer : Nat) : (r.close id pointer).Keyed := by
  refine ⟨keyed.counters, ?_, keyed.object⟩
  intro other target found
  simp only [Registry.close, OrderedMap.find?_erase] at found
  split at found
  · cases found
  · exact keyed.entry other target found

theorem Keyed.free (keyed : r.Keyed) (pointer : Nat) : (r.free pointer).Keyed := by
  refine ⟨keyed.counters, keyed.entry, ?_⟩
  intro other id found
  simp only [Registry.free, Function.update_apply] at found
  split at found
  · cases found
  · exact keyed.object other id found

end Registry

namespace RpcThread

section Reachable

variable {pointer : Nat} {t u : RpcThread}

theorem MayClose.keyed (closing : MayClose pointer t u) (keyed : t.registry.Keyed) : u.registry.Keyed := by
  cases closing with
  | stays => exact keyed
  | closes found => exact keyed.close _ _

theorem Polled.keyed {entries : List (Int × Nat)} (polled : Polled entries t u)
    (keyed : t.registry.Keyed) : u.registry.Keyed := by
  induction polled with
  | done => exact keyed
  | next entry called closing _ ih => exact ih (closing.keyed (called.registry ▸ keyed))

theorem Effect.keyed {event : RpcEvent} (effect : Effect t event u) (keyed : t.registry.Keyed) :
    u.registry.Keyed := by
  cases effect with
  | accepted reading early steady called closing =>
    apply closing.keyed
    rw [called.registry]
    have start := reading.registry.trans (registry_newConnection t _)
    have connected := early.keyed (start ▸ keyed.allocate)
    exact connected.connect keyed.counters
  | readCompleted reading closing => exact closing.keyed (reading.registry ▸ keyed)
  | writeCompleted written closing => exact closing.keyed (Quietly.registry (.single written) ▸ keyed)
  | timerFired polled => exact polled.keyed keyed
  | requestRun head found answer called closing =>
    apply closing.keyed
    rw [called.registry]
    exact keyed
  | deleted head =>
    rw [registry_deleted]
    exact keyed.free _
  | taskPosted => exact keyed

theorem registry_new_keyed : RpcThread.new.registry.Keyed := by
  constructor
  · rfl
  · intro id pointer found
    cases found
  · intro pointer id found
    cases found

theorem reachable_keyed {pb : Protobuf} {service : SlaveService} {events : List RpcEvent}
    (replay : run (step pb service) .new events = some t) : t.registry.Keyed :=
  run_invariant (fun _ _ _ keyed stepped => (step_effect stepped).keyed keyed) registry_new_keyed replay

end Reachable

/-- The two loops over `connections_`. -/
inductive Broadcast where
  | getSlavesStatus
  | cleanUp
  deriving DecidableEq

variable (pb : Protobuf) (service : SlaveService) (writes : Int → List Int)

def Broadcast.call (loop : Broadcast) (id : Int) : Call Done :=
  match loop with
  | .getSlavesStatus => .callMethod service.fullName (service.methodName .getStatus) service.statusRequest
      (some (.onSlaveStatusUpdate id))
  | .cleanUp => .callMethod service.fullName (service.methodName .quit)
      (service.quitRequest "Build finished.") none

def Broadcast.body (loop : Broadcast) (id : Int) (pointer : Nat) (t : RpcThread) : Option RpcThread :=
  match loop with
  | .getSlavesStatus => t.callStub pb service pointer .getStatus service.statusRequest
      (some (.onSlaveStatusUpdate id)) (writes id)
  | .cleanUp => t.quitSlave pb service id "Build finished." (writes id)

abbrev Broadcast.walk (loop : Broadcast) (t : RpcThread) : Walk Int RpcThread :=
  Lib.walk RpcThread.connections (loop.body pb service writes) t

/-- `MasterRPC::CleanUp` up to `connections_.clear()`. -/
def cleanUp (t : RpcThread) : Option RpcThread :=
  let walk := Broadcast.cleanUp.walk pb service writes t
  if walk.ending = .finished then some { walk.state with connections := .empty } else none

/-- The object the entry points to is there, and `DoWriteLoop` returns from the call on it without `Close`. -/
def Broadcast.GetsThrough (loop : Broadcast) (entry : Int × Nat) (t : RpcThread) : Prop :=
  ∃ c, t.heap entry.2 = some c ∧ (c.enqueue pb (loop.call service entry.1)).WritesThrough (writes entry.1)

section Bodies

variable {pb service writes} {loop : Broadcast} {t u : RpcThread} {id : Int} {pointer : Nat}

theorem body_eq (found : t.connections.find? id = some pointer) :
    loop.body pb service writes id pointer t = (t.heap pointer).bind fun c =>
      t.afterWrite pointer (c.call pb (loop.call service id) (writes id)) := by
  cases loop with
  | getSlavesStatus => rfl
  | cleanUp =>
    simp only [Broadcast.body, quitSlave, found, Option.bind_some]
    rfl

theorem call_id (c : RpcConnection Done) (request : Call Done) (answers : List Int) :
    (c.call pb request answers).1.id = c.id := by
  obtain ⟨b, pending, same⟩ := RpcConnection.doWriteLoop_written answers (c.enqueue pb request)
  rw [RpcConnection.call, same]
  cases request <;> rfl

theorem body_keeps_iff (keyed : t.registry.Keyed) (found : t.connections.find? id = some pointer) :
    loop.body pb service writes id pointer t = some u ∧ u.connections.contains id = true ↔
      ∃ c, t.heap pointer = some c ∧ (c.call pb (loop.call service id) (writes id)).2 = .returned ∧
        u = t.store pointer (c.call pb (loop.call service id) (writes id)).1 := by
  rw [body_eq found]
  constructor
  · rintro ⟨ran, kept⟩
    obtain ⟨c, object, written⟩ := Option.bind_eq_some_iff.mp ran
    refine ⟨c, object, ?_⟩
    have own : (c.call pb (loop.call service id) (writes id)).1.id = c.id := call_id c _ _
    revert own written
    rcases c.call pb (loop.call service id) (writes id) with ⟨d, outcome⟩
    intro written own
    cases outcome with
    | returned =>
      cases written
      exact ⟨rfl, rfl⟩
    | closed rv =>
      cases written
      have gone : ((t.store pointer d).onClose d.id pointer).connections.find? id = none := by
        have number : d.id = id := by
          rw [own, keyed.object pointer c.id (by simp [registry, object])]
          exact (keyed.entry id pointer found).symm
        rw [number]
        exact (OrderedMap.find?_erase _ _ _).trans (if_pos rfl)
      simp [OrderedMap.contains, gone] at kept
    | checkFailed => cases written
  · rintro ⟨c, object, returned, rfl⟩
    constructor
    · rw [object, Option.bind_some]
      revert returned
      rcases c.call pb (loop.call service id) (writes id) with ⟨d, outcome⟩
      rintro rfl
      rfl
    · exact OrderedMap.contains_iff.mpr ⟨pointer, found⟩

theorem broadcast_turns (loop : Broadcast) :
    Turns RpcThread.connections (loop.body pb service writes) (fun t => t.registry.Keyed)
      (loop.GetsThrough pb service writes) := by
  constructor
  · intro t id pointer keyed found
    simp only [body_keeps_iff keyed found, Broadcast.GetsThrough, ← RpcConnection.doWriteLoop_returned_iff]
    constructor
    · rintro ⟨c, object, through⟩
      exact ⟨_, c, object, through, rfl⟩
    · rintro ⟨u, c, object, through, rfl⟩
      exact ⟨c, object, through⟩
  · intro t u id pointer keyed found ran kept
    obtain ⟨c, object, returned, rfl⟩ := (body_keeps_iff keyed found).mp ⟨ran, kept⟩
    refine ⟨?_, rfl, ?_⟩
    · rw [registry_store object (call_id _ _ _)]
      exact keyed
    · intro entry member different
      have number := keyed.entry entry.1 entry.2 (OrderedMap.find?_of_mem member)
      have own := keyed.entry id pointer found
      have apart : entry.2 ≠ pointer := by omega
      simp only [Broadcast.GetsThrough, store, Function.update_of_ne apart]

theorem visitAll_getSlavesStatus (entries : List (Int × Nat)) (t : RpcThread) :
    visitAll RpcThread.connections (Broadcast.getSlavesStatus.body pb service writes) entries t =
      t.getSlavesStatus pb service writes entries := by
  induction entries generalizing t with
  | nil => rfl
  | cons entry rest ih =>
    simp only [visitAll, getSlavesStatus, ih]
    rfl

end Bodies

variable {pb service writes}

theorem timerFired_iff {t : RpcThread} (keyed : t.registry.Keyed) (u : RpcThread) :
    t.step pb service (.timerFired writes) = some u ↔
      (Broadcast.getSlavesStatus.walk pb service writes t).ending = .finished ∧
        (Broadcast.getSlavesStatus.walk pb service writes t).state = u := by
  rw [walk_reaches_iff (broadcast_turns _) keyed, visitAll_getSlavesStatus]
  rfl

theorem cleanUp_isSome_iff {t : RpcThread} (keyed : t.registry.Keyed) :
    (t.cleanUp pb service writes).isSome ↔
      ∀ entry ∈ t.connections.entries, Broadcast.cleanUp.GetsThrough pb service writes entry t := by
  have turns : Turns RpcThread.connections (Broadcast.cleanUp.body pb service writes) _
      (Broadcast.cleanUp.GetsThrough pb service writes) := broadcast_turns .cleanUp
  rw [← visitAll_isSome_iff turns [] keyed rfl]
  unfold cleanUp
  dsimp only
  constructor
  · intro survives
    split at survives
    · rename_i finished
      simp [(walk_reaches_iff turns keyed _).mp ⟨finished, rfl⟩]
    · cases survives
  · intro visited
    obtain ⟨u, visited⟩ := Option.isSome_iff_exists.mp visited
    rw [if_pos ((walk_reaches_iff turns keyed u).mpr visited).1]
    rfl

theorem broadcast_ends {t : RpcThread} (keyed : t.registry.Keyed) (loop : Broadcast) :
    (loop.walk pb service writes t).ending ≠ .running :=
  walk_ending_ne_running (broadcast_turns loop) keyed

/-- In every state the RPC thread reaches, and whatever the writes return, the loops of `GetSlavesStatus` and
    `CleanUp` sweep over the slaves exactly when the call to each of them gets through. -/
theorem broadcast_sweeps_iff (pb : Protobuf) (service : SlaveService) (events : List RpcEvent) (t : RpcThread)
    (replay : run (step pb service) .new events = some t) (loop : Broadcast) (writes : Int → List Int) :
    Sweeps RpcThread.connections (loop.body pb service writes) t ↔
      ∀ entry ∈ t.connections.entries, loop.GetsThrough pb service writes entry t :=
  sweeps_iff (broadcast_turns loop) (reachable_keyed replay)

def twoSlaves : List RpcEvent :=
  [.accepted "10.0.0.2" [] [49], .accepted "10.0.0.3" [] [49]]

theorem broadcast_sweeps_twoSlaves :
    ∃ t, run (step wireFormat slaveServices) .new twoSlaves = some t ∧
      (Sweeps RpcThread.connections (Broadcast.body wireFormat slaveServices (fun _ => [errIoPending]) .cleanUp) t ↔
        ∀ entry ∈ t.connections.entries,
          Broadcast.cleanUp.GetsThrough wireFormat slaveServices (fun _ => [errIoPending]) entry t) := by
  have survives : (run (step wireFormat slaveServices) .new twoSlaves).isSome := by decide +kernel
  obtain ⟨t, replay⟩ := Option.isSome_iff_exists.mp survives
  exact ⟨t, replay, broadcast_sweeps_iff wireFormat slaveServices twoSlaves t replay .cleanUp _⟩

/-- The connection of the first slave is reset when the timer fires: its entry is gone when the iterator is
    advanced, and the second slave is not called. -/
theorem reset_while_iterating :
    ¬ ∀ events t loop writes, run (step wireFormat slaveServices) .new events = some t →
      Sweeps RpcThread.connections (Broadcast.body wireFormat slaveServices writes loop) t := by
  intro always
  let writes : Int → List Int := fun id => if id = 0 then [-101] else [49]
  have cut : (run (step wireFormat slaveServices) .new twoSlaves).map
      (fun t =>
        let walk := Broadcast.getSlavesStatus.walk wireFormat slaveServices writes t
        (walk.ending, walk.log)) = some (.invalidated, [.visited 0, .erased 0]) := by
    decide +kernel
  obtain ⟨t, replay, stopped⟩ := Option.map_eq_some_iff.mp cut
  have finished := (always twoSlaves t .getSlavesStatus writes replay).ends
  rw [(Prod.mk.inj stopped).1] at finished
  cases finished

end RpcThread

end DistributedNinja.Master
