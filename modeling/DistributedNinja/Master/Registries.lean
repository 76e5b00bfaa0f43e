import DistributedNinja.Master.RpcEffects

namespace DistributedNinja.Master

open Lib Rpc Proto

structure Registry where
  lastId : Int
  nextPointer : Nat
  ids : Nat → Option Int
  idToConnection : OrderedMap Int Nat
  connections : OrderedMap Int Nat
  calls : List ObserverCall

namespace Registry

def allocate (r : Registry) : Registry :=
  { r with
    lastId := r.lastId + 1
    nextPointer := r.nextPointer + 1
    ids := Function.update r.ids r.nextPointer (some r.lastId)
    idToConnection := r.idToConnection.insert r.lastId r.nextPointer }

def connect (r : Registry) (id : Int) (pointer : Nat) : Registry :=
  { r with
    connections := r.connections.insert id pointer
    calls := r.calls ++ [.onConnect id pointer] }

def close (r : Registry) (id : Int) (pointer : Nat) : Registry :=
  { r with
    connections := r.connections.erase id
    idToConnection := r.idToConnection.erase id
    calls := r.calls ++ [.onClose id pointer] }

def free (r : Registry) (pointer : Nat) : Registry :=
  { r with ids := Function.update r.ids pointer none }

/-- Identifiers and pointers are handed out side by side, so a connection's `id` is its pointer. -/
structure Sound (r : Registry) : Prop where
  counters : r.lastId = r.nextPointer
  agree : ∀ id, r.connections.find? id = r.idToConnection.find? id
  entry : ∀ id pointer, r.idToConnection.find? id = some pointer → id = pointer ∧ pointer < r.nextPointer
  object : ∀ pointer id, r.ids pointer = some id →
    id = pointer ∧ pointer < r.nextPointer ∧ .onConnect id pointer ∈ r.calls
  told : ∀ (id : Int) (pointer : Nat), .onConnect id pointer ∈ r.calls ∨ .onClose id pointer ∈ r.calls →
    id = pointer ∧ pointer < r.nextPointer
  dropped : ∀ (id : Int) pointer, .onClose id pointer ∈ r.calls → r.idToConnection.find? id = none
  ordered : ∀ id pointer, Preceded (.onConnect id pointer) (.onClose id pointer) r.calls

variable {r : Registry}

theorem Sound.connect_new (sound : r.Sound) :
    (r.allocate.connect r.lastId r.nextPointer).Sound := by
  constructor
  · have counters := sound.counters
    simp only [connect, allocate]
    omega
  · intro id
    simp only [connect, allocate, OrderedMap.find?_insert, sound.agree id]
  · intro id pointer found
    simp only [connect, allocate, OrderedMap.find?_insert] at found ⊢
    split at found
    · rename_i same
      have counters := sound.counters
      cases found
      omega
    · have below := sound.entry id pointer found
      omega
  · intro pointer id found
    simp only [connect, allocate] at found ⊢
    by_cases at_ : pointer = r.nextPointer
    · subst at_
      rw [Function.update_self] at found
      cases found
      exact ⟨sound.counters, by omega, by simp⟩
    · rw [Function.update_of_ne at_] at found
      obtain ⟨same, below, told⟩ := sound.object pointer id found
      exact ⟨same, by omega, by simp [told]⟩
  · intro id pointer told
    simp only [connect, allocate, List.mem_append, List.mem_singleton, ObserverCall.onConnect.injEq,
      reduceCtorEq, or_false] at told ⊢
    have counters := sound.counters
    rcases told with (told | ⟨same, last⟩) | told
    · have below := sound.told id pointer (.inl told)
      omega
    · omega
    · have below := sound.told id pointer (.inr told)
      omega
  · intro id pointer told
    simp only [connect, allocate, List.mem_append, List.mem_singleton, reduceCtorEq, or_false] at told
    have below := sound.told id pointer (.inr told)
    have counters := sound.counters
    have other : id ≠ r.lastId := by omega
    simp only [connect, allocate, OrderedMap.find?_insert, other, ↓reduceIte]
    exact sound.dropped id pointer told
  · intro id pointer
    apply (sound.ordered id pointer).append
    intro same
    cases same

theorem Sound.close (sound : r.Sound) {id : Int} {pointer : Nat} (found : r.ids pointer = some id) :
    (r.close id pointer).Sound := by
  obtain ⟨same, below, connected⟩ := sound.object pointer id found
  constructor
  · exact sound.counters
  · intro other
    simp only [Registry.close, OrderedMap.find?_erase, sound.agree other]
  · intro other target found
    simp only [Registry.close, OrderedMap.find?_erase] at found
    split at found
    · cases found
    · exact sound.entry other target found
  · intro other target found
    obtain ⟨same, below, told⟩ := sound.object other target found
    exact ⟨same, below, by simp [Registry.close, told]⟩
  · intro other target told
    simp only [Registry.close, List.mem_append, List.mem_singleton, ObserverCall.onClose.injEq,
      reduceCtorEq, or_false] at told
    rcases told with told | told | ⟨rfl, rfl⟩
    · exact sound.told other target (.inl told)
    · exact sound.told other target (.inr told)
    · exact ⟨same, below⟩
  · intro other target told
    simp only [Registry.close, List.mem_append, List.mem_singleton, ObserverCall.onClose.injEq] at told
    simp only [Registry.close, OrderedMap.find?_erase]
    split
    · rfl
    · rename_i different
      rcases told with told | ⟨rfl, _⟩
      · exact sound.dropped other target told
      · exact absurd rfl different
  · intro other target
    apply (sound.ordered other target).append
    intro same
    cases same
    exact connected

theorem Sound.free (sound : r.Sound) (pointer : Nat) : (r.free pointer).Sound := by
  refine ⟨sound.counters, sound.agree, sound.entry, ?_, sound.told, sound.dropped, sound.ordered⟩
  intro other id found
  by_cases at_ : other = pointer
  · subst at_
    simp [Registry.free] at found
  · exact sound.object other id (by simpa [Registry.free, at_] using found)

end Registry

namespace RpcThread

def registry (t : RpcThread) : Registry :=
  ⟨t.lastId, t.nextPointer, fun pointer => (t.heap pointer).map RpcConnection.id, t.idToConnection,
    t.connections, t.calls⟩

variable {pointer : Nat} {t u : RpcThread}

theorem registry_store {c d : RpcConnection Done} (found : t.heap pointer = some c) (same : d.id = c.id) :
    (t.store pointer d).registry = t.registry := by
  have ids : (fun other => ((t.store pointer d).heap other).map RpcConnection.id) =
      fun other => (t.heap other).map RpcConnection.id := by
    funext other
    by_cases at_ : other = pointer
    · subst at_
      simp [store, found, same]
    · simp [store, at_]
  simp only [registry, ids]
  rfl

theorem Quietly.registry (quietly : Quietly pointer t u) : u.registry = t.registry := by
  induction quietly with
  | refl => rfl
  | tail _ quiet ih =>
    rw [← ih]
    cases quiet with
    | updated found same closures => exact registry_store found same
    | posted found registered answers known => rfl

theorem Called.registry {done : Option Done} (called : Called pointer done t u) :
    u.registry = t.registry := by
  cases called with
  | registered found same closures => exact registry_store found same

theorem MayClose.sound (closing : MayClose pointer t u) (sound : t.registry.Sound) :
    u.registry.Sound := by
  cases closing with
  | stays => exact sound
  | closes found => exact sound.close (by simp [RpcThread.registry, found])

theorem Polled.sound {entries : List (Int × Nat)} (polled : Polled entries t u)
    (sound : t.registry.Sound) : u.registry.Sound := by
  induction polled with
  | done => exact sound
  | next entry called closing _ ih => exact ih (closing.sound (called.registry ▸ sound))

theorem registry_newConnection (t : RpcThread) (peer : String) :
    (t.newConnection peer).registry = t.registry.allocate := by
  have ids : (fun other => ((t.newConnection peer).heap other).map RpcConnection.id) =
      Function.update (fun other => (t.heap other).map RpcConnection.id) t.nextPointer (some t.lastId) := by
    funext other
    by_cases at_ : other = t.nextPointer
    · subst at_
      simp [newConnection, store, RpcConnection.new]
    · simp [newConnection, store, at_]
  simp only [RpcThread.registry, ids]
  rfl

theorem registry_deleted (t : RpcThread) (pointer : Nat) (rest : List RpcTask) :
    registry { t with queue := rest, heap := Function.update t.heap pointer none } =
      t.registry.free pointer := by
  have ids : (fun other => (Function.update t.heap pointer none other).map RpcConnection.id) =
      Function.update (fun other => (t.heap other).map RpcConnection.id) pointer none := by
    funext other
    by_cases at_ : other = pointer
    · subst at_
      simp
    · simp [at_]
  simp only [RpcThread.registry, ids]
  rfl

/-- No read that `HandleAcceptResult` makes of a new connection ends it. -/
def AcceptsOpen (_ : RpcThread) : RpcEvent → Prop
  | .accepted _ reads _ => ∀ r ∈ reads, Delivers r
  | _ => True

theorem Effect.sound {event : RpcEvent} (effect : Effect t event u) (open_ : t.AcceptsOpen event)
    (sound : t.registry.Sound) : u.registry.Sound := by
  cases effect with
  | accepted reading early steady called closing =>
    obtain rfl := steady open_
    apply closing.sound
    rw [called.registry]
    have start := reading.registry.trans (registry_newConnection t _)
    have connected := sound.connect_new
    rw [← start] at connected
    exact connected
  | readCompleted reading closing => exact closing.sound (reading.registry ▸ sound)
  | writeCompleted written closing =>
    exact closing.sound (Quietly.registry (.single written) ▸ sound)
  | timerFired polled => exact polled.sound sound
  | requestRun head found answer called closing =>
    apply closing.sound
    rw [called.registry]
    exact sound
  | deleted head =>
    rw [registry_deleted]
    exact sound.free _
  | taskPosted => exact sound

/-- `connections_` and `id_to_connection_` hold the same connections, the observer hears of a connection
    before it hears of its end, and after that the connection is in neither map. -/
structure RegistriesAgree (t : RpcThread) : Prop where
  agree : ∀ id, t.connections.find? id = t.idToConnection.find? id
  ordered : ∀ id pointer, Preceded (.onConnect id pointer) (.onClose id pointer) t.calls
  dropped : ∀ id pointer, .onClose id pointer ∈ t.calls → ∀ other,
    t.connections.find? other ≠ some pointer ∧ t.idToConnection.find? other ≠ some pointer

theorem registriesAgree_of_sound (sound : t.registry.Sound) : t.RegistriesAgree := by
  refine ⟨sound.agree, sound.ordered, ?_⟩
  intro id pointer told other
  have gone : t.idToConnection.find? id = none := sound.dropped id pointer told
  have same := (sound.told id pointer (.inr told)).1
  have absent : t.idToConnection.find? other ≠ some pointer := by
    intro found
    have also_ := (sound.entry other pointer found).1
    rw [also_, ← same, gone] at found
    cases found
  exact ⟨fun found => absent (sound.agree other ▸ found), absent⟩

theorem registry_new_sound : RpcThread.new.registry.Sound := by
  constructor
  · rfl
  · intro id
    rfl
  · intro id pointer found
    cases found
  · intro pointer id found
    cases found
  · intro id pointer told
    rcases told with told | told <;> cases told
  · intro id pointer told
    cases told
  · intro id pointer before entry after shape
    simp [registry, RpcThread.new] at shape

/-- After every task of the RPC thread the two registries agree, provided no read that an accept makes
    finds the connection ended. -/
theorem registries_agree (pb : Protobuf) (service : SlaveService) (events : List RpcEvent)
    (open_ : Along (step pb service) AcceptsOpen .new events)
    (replay : run (step pb service) .new events = some t) : t.RegistriesAgree :=
  registriesAgree_of_sound (run_invariant_along
    (fun _ _ _ sound accepts stepped => (step_effect stepped).sound accepts sound)
    registry_new_sound open_ replay)

def acceptThenEnd : List RpcEvent :=
  [.accepted "10.0.0.2" [] [errIoPending], .readCompleted 0 (.ended 0) [], .taskRun []]

theorem registries_agree_acceptThenEnd :
    ∃ t, run (step wireFormat slaveServices) .new acceptThenEnd = some t ∧ t.RegistriesAgree := by
  have survives : (run (step wireFormat slaveServices) .new acceptThenEnd).isSome := by decide +kernel
  obtain ⟨t, replay⟩ := Option.isSome_iff_exists.mp survives
  refine ⟨t, replay, registries_agree wireFormat slaveServices acceptThenEnd ?_ replay⟩
  refine ⟨?_, fun _ _ => ⟨trivial, fun _ _ => ⟨trivial, fun _ _ => trivial⟩⟩⟩
  intro r member
  cases member

/-- A peer that has closed before its accept is handled: the first read returns `0`. -/
theorem stale_registration_after_accept :
    ¬ ∀ events t, run (step wireFormat slaveServices) .new events = some t → t.RegistriesAgree := by
  intro always
  have ended : (run (step wireFormat slaveServices) .new
      [.accepted "10.0.0.2" [.ended 0] [errIoPending]]).map
        (fun t => (t.connections.find? 0, t.idToConnection.find? 0)) = some (some 0, none) := by
    decide +kernel
  obtain ⟨t, replay, maps⟩ := Option.map_eq_some_iff.mp ended
  have agree := (always _ t replay).agree 0
  rw [(Prod.mk.inj maps).1, (Prod.mk.inj maps).2] at agree
  cases agree

end RpcThread

end DistributedNinja.Master
