import DistributedNinja.Rpc.Endpoint

namespace DistributedNinja.Rpc

open Lib

theorem makeRoom_eq_none_iff {b : ReadIOBuffer} (wf : b.WellFormed) :
    makeRoom b = none ↔ ReadIOBuffer.kDefaultMaxBufferSize ≤ b.getSize := by
  constructor
  · intro full
    by_contra below
    obtain ⟨room, made, _⟩ := makeRoom_some wf (Nat.not_le.mp below)
    rw [full] at made
    cases made
  · intro large
    have inside := wf.size_le_capacity
    have maximum := wf.maximum
    have limit := wf.limit
    have full : b.remainingCapacity = 0 := by
      show b.getCapacity - b.getSize = 0
      omega
    rw [makeRoom, if_pos full, ReadIOBuffer.increaseCapacity, if_pos (by omega)]

namespace Endpoint

variable {pb : Protobuf} {e u : Endpoint} {event : EndpointEvent}

/-- Where no method of the connection is on the stack, a `Read` is pending or `Close` has been called. -/
def Reading (e : Endpoint) : Prop :=
  e.control = .idle → e.connection.readCallback = true ∨ 0 < e.closes

/-- `DoReadLoop` finds a megabyte in the buffer of a connection that is not closed. -/
structure Overflows (e : Endpoint) (event : EndpointEvent) : Prop where
  event : event = .noRoom
  at_ : e.control = .reading
  opened : e.closes = 0
  full : ReadIOBuffer.kDefaultMaxBufferSize ≤ e.connection.readBuf.getSize

structure Readable (pb : Protobuf) (e : Endpoint) : Prop where
  wellFormed : e.connection.readBuf.WellFormed
  free : e.control ≠ .idle → e.connection.readCallback = false
  parted : e.control = .reading → frameBody pb.parseFromArray e.connection.readBuf = none

theorem new_readable (id : Int) (peerAddress : String) : (new id peerAddress).Readable pb := by
  refine ⟨ReadIOBuffer.new_wellFormed, fun _ => rfl, fun _ => ?_⟩
  have waits : reachesParse ReadIOBuffer.new = false := by
    simp [reachesParse, ReadIOBuffer.new_getSize]
  show frameBody pb.parseFromArray ReadIOBuffer.new = none
  rw [frameBody, waits]
  rfl

theorem Overflows.announces (readable : e.Readable pb) (overflows : e.Overflows event) :
    ReadIOBuffer.kDefaultMaxBufferSize < (frameSize e.connection.readBuf).toNat := by
  have parted := readable.parted overflows.at_
  have full := overflows.full
  have size := readable.wellFormed.size_word
  by_contra short
  have complete : reachesParse e.connection.readBuf = true := by
    apply reachesParse_iff.mpr
    simp only [ReadIOBuffer.kDefaultMaxBufferSize] at full short
    omega
  rw [frameBody, if_pos complete] at parted
  split at parted <;> cases parted

theorem written_readBuf {c d : RpcConnection Response} (written : Written c d) :
    d.readBuf = c.readBuf ∧ d.readCallback = c.readCallback := by
  rw [written]
  exact ⟨rfl, rfl⟩

theorem enqueue_readBuf (pb : Protobuf) (c : RpcConnection Response) (request : Call Response) :
    (c.enqueue pb request).readBuf = c.readBuf ∧ (c.enqueue pb request).readCallback = c.readCallback := by
  cases request <;> exact ⟨rfl, rfl⟩

theorem record_control (e : Endpoint) (accepted : Bool) (request : Call Unit) :
    (e.record accepted request).control = e.control := by
  cases request <;> rfl

theorem dispatch_readBuf (e : Endpoint) (m : RpcMessage) :
    (e.dispatch m).connection.readBuf = e.connection.readBuf ∧
      (e.dispatch m).connection.readCallback = e.connection.readCallback ∧ (e.dispatch m).closes = e.closes := by
  unfold dispatch
  split
  · exact ⟨rfl, rfl, rfl⟩
  · split
    · exact ⟨rfl, rfl, rfl⟩
    · exact ⟨rfl, rfl, rfl⟩
    · split <;> exact ⟨rfl, rfl, rfl⟩

theorem dispatch_control (e : Endpoint) (m : RpcMessage) :
    (e.dispatch m).control = e.control ∨ (e.dispatch m).control = .serving ∨
      (e.dispatch m).control = .answering m.id.toUInt32 := by
  unfold dispatch
  split
  · exact .inr (.inl rfl)
  · split
    · exact .inl rfl
    · exact .inl rfl
    · split
      · exact .inr (.inr rfl)
      · exact .inl rfl

theorem Readable.step (readable : e.Readable pb) (stepped : e.step pb event = some u) : u.Readable pb := by
  obtain ⟨wellFormed, free, parted⟩ := readable
  cases step_effect stepped with
  | @called request answers d closes may written more =>
    obtain ⟨buffer, callback⟩ := written_readBuf written
    obtain ⟨enqueued, pending⟩ := enqueue_readBuf pb e.connection (e.named request)
    constructor
    · show d.readBuf.WellFormed
      rw [buffer, enqueued]
      exact wellFormed
    · show (e.record _ request).control ≠ .idle → d.readCallback = false
      rw [record_control, callback, pending]
      exact free
    · show (e.record _ request).control = .reading → _
      rw [record_control]
      intro at_
      simp [mayCall, at_] at may
  | @wrote rv answers d closes at_ written more =>
    obtain ⟨buffer, callback⟩ := written_readBuf written
    constructor
    · show d.readBuf.WellFormed
      rw [buffer]
      exact wellFormed
    · intro busy
      exact absurd at_ busy
    · intro reading
      cases at_.symm.trans reading
  | noRoom at_ full => exact ⟨wellFormed, fun busy => absurd rfl busy, nofun⟩
  | waits at_ made => exact ⟨makeRoom_wellFormed wellFormed made, fun busy => absurd rfl busy, nofun⟩
  | readEnded at_ made => exact ⟨makeRoom_wellFormed wellFormed made, fun busy => absurd rfl busy, nofun⟩
  | readData at_ made read =>
    have filled := completeRead_wellFormed (makeRoom_wellFormed wellFormed made) read
    exact ⟨filled, fun _ => free (by rw [at_]; nofun), nofun⟩
  | completedEnded at_ => exact ⟨wellFormed, fun busy => absurd rfl busy, nofun⟩
  | completedData at_ read => exact ⟨completeRead_wellFormed wellFormed read, fun _ => rfl, nofun⟩
  | broke at_ ends => exact ⟨wellFormed, fun _ => free (by rw [at_]; nofun), fun _ => ends⟩
  | stuck at_ taken =>
    refine ⟨frameBody_wellFormed wellFormed taken, free, ?_⟩
    intro reading
    cases at_.symm.trans reading
  | @dispatched m next at_ taken =>
    obtain ⟨buffer, callback, _⟩ := dispatch_readBuf (e.setReadBuf next) m
    constructor
    · rw [buffer]
      exact frameBody_wellFormed wellFormed taken
    · intro _
      rw [callback]
      exact free (by rw [at_]; nofun)
    · intro reading
      rcases dispatch_control (e.setReadBuf next) m with same | serving | answering
      · cases at_.symm.trans (same.symm.trans reading)
      · cases serving.symm.trans reading
      · cases answering.symm.trans reading
  | served at_ => exact ⟨wellFormed, fun _ => free (by rw [at_]; nofun), nofun⟩
  | answered at_ => exact ⟨wellFormed, fun _ => free (by rw [at_]; nofun), nofun⟩

theorem Readable.noRoom_iff (readable : e.Readable pb) (stepped : e.step pb .noRoom = some u) :
    u.Reading ↔ ¬ e.Overflows .noRoom := by
  cases step_effect stepped with
  | noRoom at_ full =>
    have large := (makeRoom_eq_none_iff readable.wellFormed).mp full
    have free := readable.free (by rw [at_]; nofun)
    constructor
    · intro reading overflows
      rcases reading rfl with pending | closed
      · cases free.symm.trans pending
      · exact absurd overflows.opened (Nat.ne_of_gt closed)
    · intro fine _
      apply Or.inr
      apply Nat.pos_of_ne_zero
      intro opened
      exact fine ⟨rfl, at_, opened, large⟩

theorem Reading.step (reading : e.Reading) (stepped : e.step pb event = some u) (other : event ≠ .noRoom) :
    u.Reading := by
  cases step_effect stepped with
  | @called request answers d closes may written more =>
    intro idle
    change (e.record _ request).control = .idle at idle
    rw [record_control] at idle
    have callback := (written_readBuf written).2.trans (enqueue_readBuf pb e.connection (e.named request)).2
    rcases reading idle with pending | closed
    · exact .inl (callback.trans pending)
    · exact .inr (Nat.lt_of_lt_of_le closed more)
  | wrote at_ written more =>
    intro _
    rcases reading at_ with pending | closed
    · exact .inl ((written_readBuf written).2.trans pending)
    · exact .inr (Nat.lt_of_lt_of_le closed more)
  | noRoom at_ full => exact absurd rfl other
  | waits at_ made => exact fun _ => .inl rfl
  | readEnded at_ made => exact fun _ => .inr (Nat.succ_pos _)
  | completedEnded at_ => exact fun _ => .inr (Nat.succ_pos _)
  | readData | completedData | broke | served | answered => exact nofun
  | stuck at_ taken =>
    intro idle
    cases at_.symm.trans idle
  | @dispatched m next at_ taken =>
    intro idle
    rcases dispatch_control (e.setReadBuf next) m with same | serving | answering
    · cases at_.symm.trans (same.symm.trans idle)
    · cases serving.symm.trans idle
    · cases answering.symm.trans idle

theorem Overflows.happens (readable : e.Readable pb) (overflows : e.Overflows .noRoom) :
    e.step pb .noRoom = some { e with control := .idle } :=
  if_pos ⟨overflows.at_, (makeRoom_eq_none_iff readable.wellFormed).mpr overflows.full⟩

theorem step_reading_iff (readable : e.Readable pb) (reading : e.Reading) :
    (∀ u, e.step pb event = some u → u.Reading) ↔ ¬ e.Overflows event := by
  by_cases other : event = .noRoom
  · subst other
    constructor
    · intro stays overflows
      have stepped := overflows.happens readable
      exact (readable.noRoom_iff stepped).mp (stays _ stepped) overflows
    · intro fine u stepped
      exact (readable.noRoom_iff stepped).mpr fine
  · constructor
    · intro _ overflows
      exact other overflows.event
    · intro _ u stepped
      exact reading.step stepped other

/-- In every state of a run the connection reads or is closed, if and only if `DoReadLoop` never finds a megabyte
    in the buffer of a connection that is not closed. -/
theorem reading_or_closed_iff (pb : Protobuf) (id : Int) (peerAddress : String) (events : List EndpointEvent) :
    Along (step pb) (fun e event => ∀ u, e.step pb event = some u → u.Reading) (new id peerAddress) events ↔
      Along (step pb) (fun e event => ¬ e.Overflows event) (new id peerAddress) events := by
  have same : ∀ (e : Endpoint) event, e.Readable pb ∧ e.Reading →
      ((∀ u, e.step pb event = some u → u.Reading) ↔ ¬ e.Overflows event) := by
    intro e event inv
    exact step_reading_iff inv.1 inv.2
  have start : (new id peerAddress).Readable pb ∧ (new id peerAddress).Reading :=
    ⟨new_readable id peerAddress, nofun⟩
  apply along_congr_along _ same start
  intro e event u inv reading stepped
  exact ⟨inv.1.step stepped, reading u stepped⟩

def Announced (e : Endpoint) : Prop := e.connection.readBuf.received.take 4 = [0x7F, 0xFF, 0xFF, 0xFF]

theorem Announced.parted (pb : Protobuf) {b : ReadIOBuffer} (wellFormed : b.WellFormed)
    (announced : b.received.take 4 = [0x7F, 0xFF, 0xFF, 0xFF]) : frameBody pb.parseFromArray b = none := by
  have waits : ¬ reachesParse b = true := by
    intro complete
    have long := (reachesParse_iff.mp complete).1
    have inside := wellFormed.frameSize_le complete
    have below := wellFormed.size_le_capacity
    have maximum := wellFormed.maximum
    have header : messageLength b = 0x7FFFFFFF := by
      rw [messageLength_eq (by omega), readBigEndian, announced]
      decide
    rw [frameSize_toNat, header] at inside
    simp only [ReadIOBuffer.kDefaultMaxBufferSize, UInt32.reduceToNat] at maximum inside
    omega
  rw [frameBody, if_neg waits]

theorem read_chunk (pb : Protobuf) {room : ReadIOBuffer} {bytes : List UInt8} (at_ : e.control = .reading)
    (free : e.connection.readCallback = false) (made : makeRoom e.connection.readBuf = some room)
    (wellFormed : room.WellFormed) (some_ : 0 < bytes.length) (fits : bytes.length ≤ room.remainingCapacity)
    (announced : (room.received ++ bytes).take 4 = [0x7F, 0xFF, 0xFF, 0xFF]) :
    ∃ b, b.WellFormed ∧ b.received = room.received ++ bytes ∧
      run (step pb) e [.read bytes.length bytes, .pass] = some { e.setReadBuf b with control := .reading } := by
  obtain ⟨filled, received, _⟩ := wellFormed.didRead fits
  have read : completeRead room bytes = some ((room.fill bytes).didRead bytes.length) := if_pos ⟨some_, fits⟩
  have waits := Announced.parted pb filled (by rw [received]; exact announced)
  refine ⟨_, filled, received, ?_⟩
  have first : e.step pb (.read bytes.length bytes) =
      some { e.setReadBuf ((room.fill bytes).didRead bytes.length) with control := .parsing } := by
    have answered : ¬ (bytes.length : Int) = errIoPending := by
      unfold errIoPending
      omega
    have positive : ¬ (bytes.length : Int) ≤ 0 := by omega
    simp only [step, at_, free, and_self, ↓reduceIte, made, Option.bind_some, answered, handleReadResult, positive,
      Int.toNat_natCast]
    show (completeRead room bytes).map _ = _
    rw [read]
    rfl
  apply run_cons.mpr
  refine ⟨_, first, run_cons.mpr ⟨_, ?_, rfl⟩⟩
  simp only [step, setReadBuf, ↓reduceIte, waits]

theorem exists_full (pb : Protobuf) (wellFormed : e.connection.readBuf.WellFormed) (at_ : e.control = .reading)
    (free : e.connection.readCallback = false) (announced : e.Announced) :
    ∃ events b, run (step pb) e events = some { e.setReadBuf b with control := .idle } := by
  induction rest : ReadIOBuffer.kDefaultMaxBufferSize - e.connection.readBuf.getSize using Nat.strongRecOn
    generalizing e with
  | _ n ih =>
    by_cases full : ReadIOBuffer.kDefaultMaxBufferSize ≤ e.connection.readBuf.getSize
    · refine ⟨[.noRoom], e.connection.readBuf, run_cons.mpr ⟨_, if_pos ⟨at_, ?_⟩, rfl⟩⟩
      exact (makeRoom_eq_none_iff wellFormed).mpr full
    · obtain ⟨room, made, roomFormed, kept, free_⟩ := makeRoom_some wellFormed (Nat.not_le.mp full)
      have size : (List.replicate room.remainingCapacity (0 : UInt8)).length = room.remainingCapacity :=
        List.length_replicate
      have long : 4 ≤ e.connection.readBuf.received.length := by
        have prefix_ := congrArg List.length announced
        rw [List.length_take] at prefix_
        simp only [List.length_cons, List.length_nil] at prefix_
        omega
      have still : (room.received ++ List.replicate room.remainingCapacity 0).take 4 =
          [0x7F, 0xFF, 0xFF, 0xFF] := by
        rw [kept, List.take_append_of_le_length long]
        exact announced
      obtain ⟨b, formed, received, replay⟩ :=
        read_chunk pb at_ free made roomFormed (by omega) (Nat.le_of_eq size) still
      have larger : e.connection.readBuf.getSize < b.getSize := by
        rw [← formed.received_length, received, List.length_append, size, kept, wellFormed.received_length]
        omega
      have next : Announced { e.setReadBuf b with control := .reading } := by
        show b.received.take 4 = _
        rw [received]
        exact still
      obtain ⟨events, last, fills⟩ := ih (ReadIOBuffer.kDefaultMaxBufferSize - b.getSize) (by omega)
        (e := { e.setReadBuf b with control := .reading }) formed rfl free next rfl
      refine ⟨_ ++ events, last, run_append.mpr ⟨_, replay, fills⟩⟩

/-- A header that announces two gigabytes, and a megabyte of data: the connection is left behind. -/
theorem full_buffer_never_read_again :
    ¬ ∀ (events : List EndpointEvent) (e : Endpoint),
      run (step wireFormat) (new 0 "10.0.0.1") events = some e → e.Reading := by
  intro always
  have empty : (ReadIOBuffer.new.received ++ [0x7F, 0xFF, 0xFF, 0xFF]).take 4 = [0x7F, 0xFF, 0xFF, 0xFF] := by
    rw [ReadIOBuffer.new_received]
    rfl
  obtain ⟨b, formed, received, replay⟩ := read_chunk wireFormat (e := new 0 "10.0.0.1") rfl rfl
    (rfl : makeRoom .new = some .new) ReadIOBuffer.new_wellFormed (by decide) (by decide) empty
  have announced : Announced { (new 0 "10.0.0.1").setReadBuf b with control := .reading } := by
    show b.received.take 4 = _
    rw [received]
    exact empty
  obtain ⟨events, last, fills⟩ := exists_full wireFormat
    (e := { (new 0 "10.0.0.1").setReadBuf b with control := .reading }) formed rfl rfl announced
  have reading := always _ _ (run_append.mpr ⟨_, replay, fills⟩) rfl
  rcases reading with pending | closed
  · cases pending
  · exact absurd closed (Nat.lt_irrefl 0)

end Endpoint

end DistributedNinja.Rpc
