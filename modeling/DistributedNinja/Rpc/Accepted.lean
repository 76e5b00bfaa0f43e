import DistributedNinja.Rpc.Conversation

namespace DistributedNinja.Rpc

open Lib

def Action.received : Action → Bool
  | .sent _ _ _ => false
  | .replied _ _ => false
  | .parsed _ _ => true
  | .ran _ => true

namespace Endpoint

variable {pb : Protobuf} {e u : Endpoint} {event : EndpointEvent}

/-- Every entry belongs to a request that `Append` accepted, and every reply was accepted. -/
structure Sent (e : Endpoint) : Prop where
  registered : ∀ id entry, e.connection.requestIdToResponse id = some entry →
    ∃ r, entry = some r ∧ .sent r.call id.toUInt64 true ∈ e.log
  replies : ∀ id, .replied id false ∉ e.log

/-- The frame of the call fits under the limit of the write buffer, as `Append` counts. -/
def fits (pb : Protobuf) (e : Endpoint) : EndpointEvent → Prop
  | .called request _ =>
    (e.connection.writeBuf.totalSize : Int) +
      castInt (pb.frame (e.connection.message (e.named request))).length ≤ e.connection.writeBuf.maxBufferSize
  | _ => True

theorem accepts_iff (c : RpcConnection Response) (request : Call Response) :
    c.accepts pb request = true ↔
      (c.writeBuf.totalSize : Int) + castInt (pb.frame (c.message request)).length ≤ c.writeBuf.maxBufferSize := by
  have content : (pb.frame (c.message request)).isEmpty = false := by
    rw [← Bool.not_eq_true, List.isEmpty_iff_length_eq_zero, pb.frame_length]
    omega
  rw [RpcConnection.accepts, QueuedWriteIOBuffer.append, content]
  simp only [Bool.false_eq_true, ↓reduceIte]
  split
  · rename_i large
    constructor
    · intro accepted
      cases accepted
    · intro small
      omega
  · rename_i small
    constructor
    · intro _
      omega
    · intro _
      rfl

structure Keeps (e u : Endpoint) : Prop where
  entries : ∀ id entry, u.connection.requestIdToResponse id = some entry →
    e.connection.requestIdToResponse id = some entry
  calls : u.calls = e.calls
  log : ∃ more, u.log = e.log ++ more ∧ ∀ action ∈ more, action.received = true

theorem keeps_of_eq (entries : u.connection.requestIdToResponse = e.connection.requestIdToResponse)
    (calls : u.calls = e.calls) (log : u.log = e.log) : Keeps e u :=
  ⟨fun _ _ at_ => entries ▸ at_, calls, [], log.trans (List.append_nil _).symm, nofun⟩

theorem erase_entries {id other : UInt32} {entry : Option Response}
    (at_ : (e.eraseRequest id).connection.requestIdToResponse other = some entry) :
    e.connection.requestIdToResponse other = some entry := by
  change Function.update e.connection.requestIdToResponse id none other = some entry at at_
  by_cases same : other = id
  · rw [same, Function.update_self] at at_
    cases at_
  · rwa [Function.update_of_ne same] at at_

theorem received_parsedBytes (m : RpcMessage) (r : Response) :
    ∀ action ∈ parsedBytes m r, action.received = true := by
  intro action member
  unfold parsedBytes at member
  split at member
  · cases member
  · rw [List.mem_singleton.mp member]
    rfl

theorem dispatch_keeps (e : Endpoint) (m : RpcMessage) : Keeps e (e.dispatch m) := by
  have cases := dispatch_cases e m
  generalize e.dispatch m = u at cases ⊢
  cases cases with
  | request type => exact keeps_of_eq rfl rfl rfl
  | unknown type found => exact keeps_of_eq rfl rfl rfl
  | vacant type found => exact ⟨fun _ _ => erase_entries, rfl, [], (List.append_nil _).symm, nofun⟩
  | answering type found =>
    refine ⟨fun _ _ at_ => at_, rfl, _, rfl, ?_⟩
    intro action member
    rcases List.mem_append.mp member with member | member
    · exact received_parsedBytes _ _ action member
    · rw [List.mem_singleton.mp member]
      rfl
  | silent type found => exact ⟨fun _ _ => erase_entries, rfl, _, rfl, received_parsedBytes _ _⟩

theorem step_keeps (stepped : e.step pb event = some u)
    (quiet : ∀ request answers, event ≠ .called request answers) : Keeps e u := by
  cases step_effect stepped with
  | called may written more => exact absurd rfl (quiet _ _)
  | wrote at_ written more =>
    apply keeps_of_eq
    · rw [written]
    · rfl
    · rfl
  | noRoom at_ full => exact keeps_of_eq rfl rfl rfl
  | waits at_ made => exact keeps_of_eq rfl rfl rfl
  | readEnded at_ made => exact keeps_of_eq rfl rfl rfl
  | readData at_ made read => exact keeps_of_eq rfl rfl rfl
  | completedEnded at_ => exact keeps_of_eq rfl rfl rfl
  | completedData at_ read => exact keeps_of_eq rfl rfl rfl
  | broke at_ ends => exact keeps_of_eq rfl rfl rfl
  | stuck at_ taken => exact keeps_of_eq rfl rfl rfl
  | @dispatched m next at_ taken =>
    have dispatched := dispatch_keeps (e.setReadBuf next) m
    exact ⟨dispatched.entries, dispatched.calls, dispatched.log⟩
  | served at_ => exact keeps_of_eq rfl rfl rfl
  | answered at_ => exact ⟨fun _ _ => erase_entries, rfl, [], (List.append_nil _).symm, nofun⟩

structure Registered (e : Endpoint) : Prop where
  sent : e.Sent
  old : ∀ call id accepted, .sent call id accepted ∈ e.log → call < e.calls

theorem new_registered (id : Int) (peerAddress : String) : (new id peerAddress).Registered :=
  ⟨⟨nofun, nofun⟩, nofun⟩

theorem Keeps.registered (keeps : Keeps e u) (registered : e.Registered) : u.Registered := by
  obtain ⟨entries, calls, more, log, answers⟩ := keeps
  have only : ∀ action, action.received = false → action ∈ u.log → action ∈ e.log := by
    intro action sends member
    rw [log] at member
    rcases List.mem_append.mp member with member | member
    · exact member
    · rw [answers action member] at sends
      cases sends
  constructor
  · constructor
    · intro id entry at_
      obtain ⟨r, known, accepted⟩ := registered.sent.registered id entry (entries id entry at_)
      refine ⟨r, known, ?_⟩
      rw [log]
      exact List.mem_append_left _ accepted
    · intro id refused
      exact registered.sent.replies id (only _ rfl refused)
  · intro call id accepted member
    rw [calls]
    exact registered.old call id accepted (only _ rfl member)

section Called

variable {answers : List Int} {d : RpcConnection Response} {closes : Nat} {accepted : Bool}
  {service method request response : List UInt8} {done : Option Unit} {requestId : UInt64}

theorem Registered.callMethod (registered : e.Registered)
    (written : Written (e.connection.enqueue pb (e.named (.callMethod service method request done))) d) :
    Registered { e.record true (.callMethod service method request done) with
      connection := d, closes := closes } := by
  obtain ⟨⟨entries, replies⟩, old⟩ := registered
  constructor
  · constructor
    · intro id entry at_
      change d.requestIdToResponse id = some entry at at_
      rw [entries_callMethod written] at at_
      by_cases new : id = e.connection.lastRequestId
      · rw [new, Function.update_self, Option.some.injEq] at at_
        rw [new]
        exact ⟨_, at_.symm, List.mem_append_right _ List.mem_cons_self⟩
      · rw [Function.update_of_ne new] at at_
        obtain ⟨r, known, accepted⟩ := entries id entry at_
        exact ⟨r, known, List.mem_append_left _ accepted⟩
    · intro id refused
      rcases List.mem_append.mp refused with refused | refused
      · exact replies id refused
      · cases List.mem_singleton.mp refused
  · intro call id accepted member
    show call < e.calls + 1
    rcases List.mem_append.mp member with member | member
    · exact Nat.lt_succ_of_lt (old call id accepted member)
    · cases List.mem_singleton.mp member
      exact Nat.lt_succ_self _

theorem Registered.onServiceDone (registered : e.Registered)
    (written : Written (e.connection.enqueue pb (e.named (.onServiceDone requestId service method response))) d) :
    Registered { e.record true (.onServiceDone requestId service method response) with
      connection := d, closes := closes } := by
  obtain ⟨⟨entries, replies⟩, old⟩ := registered
  constructor
  · constructor
    · intro id entry at_
      change d.requestIdToResponse id = some entry at at_
      rw [written] at at_
      obtain ⟨r, known, accepted⟩ := entries id entry at_
      exact ⟨r, known, List.mem_append_left _ accepted⟩
    · intro id refused
      rcases List.mem_append.mp refused with refused | refused
      · exact replies id refused
      · cases List.mem_singleton.mp refused
  · intro call id accepted member
    rcases List.mem_append.mp member with member | member
    · exact old call id accepted member
    · cases List.mem_singleton.mp member

theorem accepted_of_sent_callMethod (old : ∀ call id accepted, .sent call id accepted ∈ e.log → call < e.calls)
    (written : Written (e.connection.enqueue pb (e.named (.callMethod service method request done))) d)
    (sent : Sent { e.record accepted (.callMethod service method request done) with
      connection := d, closes := closes }) : accepted = true := by
  have entry : d.requestIdToResponse e.connection.lastRequestId = some (some ⟨e.calls, done.isSome⟩) := by
    rw [entries_callMethod written, Function.update_self]
  obtain ⟨r, known, logged⟩ := sent.registered _ _ entry
  obtain rfl := Option.some.inj known
  rcases List.mem_append.mp logged with earlier | now
  · exact absurd (old _ _ _ earlier) (Nat.lt_irrefl _)
  · cases List.mem_singleton.mp now
    rfl

theorem accepted_of_sent_onServiceDone
    (sent : Sent { e.record accepted (.onServiceDone requestId service method response) with
      connection := d, closes := closes }) : accepted = true := by
  cases accepted with
  | true => rfl
  | false => exact absurd (List.mem_append_right _ List.mem_cons_self) (sent.replies requestId)

end Called

theorem Registered.step (registered : e.Registered) (stepped : e.step pb event = some u)
    (fits : e.fits pb event) : u.Registered := by
  cases event with
  | called request answers =>
    cases step_effect stepped with
    | called may written more =>
      have accepted : e.connection.accepts pb (e.named request) = true := (accepts_iff _ _).mpr fits
      rw [accepted]
      cases request with
      | callMethod service method request done => exact registered.callMethod written
      | onServiceDone requestId service method response => exact registered.onServiceDone written
  | writeCompleted | readCompleted | noRoom | read | pass | returned =>
    exact (step_keeps stepped nofun).registered registered

theorem Registered.fits (registered : e.Registered) (stepped : e.step pb event = some u) (sent : u.Sent) :
    e.fits pb event := by
  cases event with
  | called request answers =>
    cases step_effect stepped with
    | called may written more =>
      apply (accepts_iff _ _).mp
      cases request with
      | callMethod service method request done => exact accepted_of_sent_callMethod registered.old written sent
      | onServiceDone requestId service method response => exact accepted_of_sent_onServiceDone sent
  | writeCompleted | readCompleted | noRoom | read | pass | returned => trivial

/-- Every entry has had its request accepted and every reply was accepted, in every state of a run, if and only
    if every call that is made fits into the write buffer. -/
theorem accepted_iff (pb : Protobuf) (id : Int) (peerAddress : String) (events : List EndpointEvent) :
    Along (step pb) (fun e event => ∀ u, e.step pb event = some u → u.Sent) (new id peerAddress) events ↔
      Along (step pb) (fun e event => (e.step pb event).isSome = true → e.fits pb event) (new id peerAddress)
        events := by
  have same : ∀ (e : Endpoint) event, e.Registered → ((∀ u, e.step pb event = some u → u.Sent) ↔
      ((e.step pb event).isSome = true → e.fits pb event)) := by
    intro e event registered
    constructor
    · intro sent happens
      obtain ⟨u, stepped⟩ := Option.isSome_iff_exists.mp happens
      exact registered.fits stepped (sent u stepped)
    · intro fits u stepped
      have happens : (e.step pb event).isSome = true := Option.isSome_iff_exists.mpr ⟨u, stepped⟩
      exact (registered.step stepped (fits happens)).sent
  apply along_congr_along _ same (new_registered id peerAddress)
  intro e event u registered sent stepped
  have happens : (e.step pb event).isSome = true := Option.isSome_iff_exists.mpr ⟨u, stepped⟩
  exact registered.step stepped ((same e event registered).mp sent happens)

theorem frame_length_of_request (id : UInt64) (body : List UInt8) :
    (wireFormat.frame ⟨id, .request, [], [], some body, none⟩).length =
      20 + (writeVarint 4 body.length).length + body.length := by
  have none : (writeVarint 4 0).length = 1 := by decide
  rw [wireFormat.frame_length]
  show 4 + (writeMessage _).length = _
  simp only [writeMessage, writeOptional, writeField, List.length_append, List.length_cons,
    List.length_reverse, Lib.bigEndianBytes_length, List.length_nil, none]
  omega

def megabyte : Call Unit := .callMethod [] [] (List.replicate (1024 * 1024) 0) (some ())

theorem megabyte_refused {e : Endpoint} (limit : e.connection.writeBuf.maxBufferSize = 1024 * 1024)
    (answers : List Int) : ¬ e.fits wireFormat (.called megabyte answers) := by
  have length : (List.replicate (1024 * 1024) (0 : UInt8)).length = 1024 * 1024 := List.length_replicate
  have varint : (writeVarint 4 (1024 * 1024)).length = 3 := by decide
  have size := frame_length_of_request e.connection.lastRequestId.toUInt64 (List.replicate (1024 * 1024) 0)
  rw [length, varint] at size
  intro fits
  change (e.connection.writeBuf.totalSize : Int) +
    castInt (wireFormat.frame ⟨_, _, _, _, _, _⟩).length ≤ _ at fits
  rw [size, castInt_small (by decide), limit] at fits
  omega

theorem exists_step_called {request : Call Unit} (may : e.mayCall = true)
    (idle : e.connection.writeCallback = false) (answers : List Int) :
    ∃ u, e.step pb (.called request answers) = some u := by
  have free : (e.connection.enqueue pb (e.named request)).writeCallback = false := by
    rw [RpcConnection.enqueue_writeCallback]
    exact idle
  have passes := (RpcConnection.doWriteLoop_idle answers _ free).1
  simp only [step, if_pos may]
  show ∃ u, afterWrite _ ((e.connection.enqueue pb (e.named request)).doWriteLoop answers) = some u
  generalize (e.connection.enqueue pb (e.named request)).doWriteLoop answers = result at passes ⊢
  obtain ⟨c, outcome⟩ := result
  cases outcome with
  | returned => exact ⟨_, rfl⟩
  | closed rv => exact ⟨_, rfl⟩
  | checkFailed => exact absurd rfl passes

/-- The request is too large for the write buffer even when nothing waits there. -/
theorem refused_call_stays_registered :
    ¬ ∀ (events : List EndpointEvent) (e : Endpoint),
      run (step wireFormat) (new 0 "10.0.0.1") events = some e → e.Sent := by
  intro always
  let e : Endpoint := { ((new 0 "10.0.0.1").setReadBuf .new).setReadCallback true with control := .idle }
  have reads : (new 0 "10.0.0.1").step wireFormat (.read errIoPending []) = some e := rfl
  obtain ⟨u, called⟩ : ∃ u, e.step wireFormat (.called megabyte []) = some u := exists_step_called rfl rfl []
  have replay : run (step wireFormat) (new 0 "10.0.0.1") [.read errIoPending [], .called megabyte []] = some u := by
    apply run_cons.mpr
    refine ⟨e, reads, run_cons.mpr ⟨u, called, rfl⟩⟩
  have registered : e.Registered := (new_registered 0 "10.0.0.1").step reads trivial
  exact megabyte_refused rfl [] (registered.fits called (always _ u replay))

end Endpoint

end DistributedNinja.Rpc
