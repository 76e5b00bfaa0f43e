import DistributedNinja.Lib.Run
import DistributedNinja.Rpc.FrameLoop
import DistributedNinja.Rpc.Wire

namespace DistributedNinja.Rpc

open Lib

def errIoPending : Int := -1

/-- `RpcConnection`; `Done` names the closures its callers pass. Of the socket it keeps the address of the
    peer and whether `read_callback_` and `write_callback_` are set. -/
structure RpcConnection (Done : Type) where
  id : Int
  peerAddress : String
  readBuf : ReadIOBuffer
  writeBuf : QueuedWriteIOBuffer
  lastRequestId : UInt32
  requestIdToResponse : UInt32 → Option (Option Done)
  readCallback : Bool
  writeCallback : Bool

inductive WriteOutcome where
  | returned
  | closed (rv : Int)
  | checkFailed
  deriving DecidableEq, Repr

/-- What the source calls on a connection: a method of the peer, or the answer to a request of the peer. -/
inductive Call (Done : Type) where
  | callMethod (service method request : List UInt8) (done : Option Done)
  | onServiceDone (requestId : UInt64) (service method response : List UInt8)

namespace RpcConnection

variable {Done : Type}

def new (id : Int) (peerAddress : String) : RpcConnection Done :=
  ⟨id, peerAddress, .new, .new, 0, fun _ => none, false, false⟩

/-- `DoWriteLoop`, with the values `Write` returns on the way; once they run out it is still pending. -/
def doWriteLoop : List Int → RpcConnection Done → RpcConnection Done × WriteOutcome
  | answers, c =>
    if c.writeBuf.getSizeToWrite = 0 then (c, .returned)
    else if c.writeCallback then (c, .checkFailed)
    else
      match answers with
      | [] => ({ c with writeCallback := true }, .returned)
      | rv :: rest =>
        if rv = errIoPending then ({ c with writeCallback := true }, .returned)
        else if rv = 0 then (c, .returned)
        else if rv < 0 then (c, .closed rv)
        else doWriteLoop rest { c with writeBuf := c.writeBuf.didConsume rv.toNat }

def appendFrame (pb : Protobuf) (c : RpcConnection Done) (m : RpcMessage) : RpcConnection Done :=
  { c with writeBuf := (c.writeBuf.append (pb.frame m)).2 }

/-- `CallMethod` and `OnServiceDone` up to `DoWriteLoop()`. The answer of `Append` is not looked at. -/
def enqueue (pb : Protobuf) (c : RpcConnection Done) : Call Done → RpcConnection Done
  | .callMethod service method request done =>
    let m : RpcMessage := ⟨c.lastRequestId.toUInt64, .request, service, method, some request, none⟩
    let registered := { c with
      lastRequestId := c.lastRequestId + 1
      requestIdToResponse := Function.update c.requestIdToResponse m.id.toUInt32 (some done) }
    registered.appendFrame pb m
  | .onServiceDone requestId service method response =>
    c.appendFrame pb ⟨requestId, .response, service, method, none, some response⟩

def call (pb : Protobuf) (c : RpcConnection Done) (request : Call Done) (answers : List Int) :
    RpcConnection Done × WriteOutcome :=
  (c.enqueue pb request).doWriteLoop answers

def onWriteCompleted (c : RpcConnection Done) (rv : Int) (answers : List Int) :
    RpcConnection Done × WriteOutcome :=
  let c := { c with writeCallback := false }
  if rv < 0 then (c, .closed rv)
  else { c with writeBuf := c.writeBuf.didConsume rv.toNat }.doWriteLoop answers

end RpcConnection

inductive WriteEvent (Done : Type) where
  | call (request : Call Done) (answers : List Int)
  | writeCompleted (rv : Int) (answers : List Int)

namespace RpcConnection

variable {Done : Type} (pb : Protobuf)

def handleWriteEvent (c : RpcConnection Done) : WriteEvent Done → RpcConnection Done × WriteOutcome
  | .call request answers => c.call pb request answers
  | .writeCompleted rv answers => c.onWriteCompleted rv answers

/-- A failed `CHECK` aborts the process; a completion needs a pending write. -/
def writeStep (c : RpcConnection Done) (event : WriteEvent Done) : Option (RpcConnection Done) :=
  match event, c.writeCallback with
  | .writeCompleted _ _, false => none
  | _, _ =>
    match c.handleWriteEvent pb event with
    | (_, .checkFailed) => none
    | (next, _) => some next

def PendingNonempty (c : RpcConnection Done) : Prop :=
  c.writeCallback = true → c.writeBuf.getSizeToWrite ≠ 0

theorem doWriteLoop_idle (answers : List Int) (c : RpcConnection Done) (idle : c.writeCallback = false) :
    (c.doWriteLoop answers).2 ≠ .checkFailed ∧ PendingNonempty (c.doWriteLoop answers).1 := by
  have resting : PendingNonempty c := fun pending => absurd pending (by simp [idle])
  induction answers generalizing c with
  | nil =>
    unfold doWriteLoop
    by_cases drained : c.writeBuf.getSizeToWrite = 0
    · rw [if_pos drained]
      exact ⟨nofun, resting⟩
    · rw [if_neg drained, if_neg (by simp [idle])]
      exact ⟨nofun, fun _ => drained⟩
  | cons rv rest ih =>
    unfold doWriteLoop
    by_cases drained : c.writeBuf.getSizeToWrite = 0
    · rw [if_pos drained]
      exact ⟨nofun, resting⟩
    · rw [if_neg drained, if_neg (by simp [idle])]
      dsimp only
      split
      · exact ⟨nofun, fun _ => drained⟩
      · split
        · exact ⟨nofun, resting⟩
        · split
          · exact ⟨nofun, resting⟩
          · apply ih
            · exact idle
            · intro pending
              exact absurd pending (by simp [idle])

theorem doWriteLoop_pending (answers : List Int) {c : RpcConnection Done}
    (pending : c.writeCallback = true) (content : c.writeBuf.getSizeToWrite ≠ 0) :
    (c.doWriteLoop answers).2 = .checkFailed := by
  unfold doWriteLoop
  rw [if_neg content, if_pos pending]

theorem doWriteLoop_written (answers : List Int) (c : RpcConnection Done) :
    ∃ b pending, (c.doWriteLoop answers).1 = { c with writeBuf := b, writeCallback := pending } := by
  induction answers generalizing c with
  | nil =>
    unfold doWriteLoop
    dsimp only
    split_ifs <;> exact ⟨_, _, rfl⟩
  | cons rv rest ih =>
    unfold doWriteLoop
    dsimp only
    split_ifs
    · exact ⟨_, _, rfl⟩
    · exact ⟨_, _, rfl⟩
    · exact ⟨_, _, rfl⟩
    · exact ⟨_, _, rfl⟩
    · exact ⟨_, _, rfl⟩
    · obtain ⟨b, pending, same⟩ := ih { c with writeBuf := c.writeBuf.didConsume rv.toNat }
      exact ⟨b, pending, same⟩

theorem onWriteCompleted_written (c : RpcConnection Done) (rv : Int) (answers : List Int) :
    ∃ b pending, (c.onWriteCompleted rv answers).1 = { c with writeBuf := b, writeCallback := pending } := by
  unfold onWriteCompleted
  dsimp only
  split
  · exact ⟨_, _, rfl⟩
  · obtain ⟨b, pending, same⟩ := doWriteLoop_written answers
      { c with writeCallback := false, writeBuf := c.writeBuf.didConsume rv.toNat }
    exact ⟨b, pending, same⟩

theorem enqueue_writeCallback (c : RpcConnection Done) (request : Call Done) :
    (c.enqueue pb request).writeCallback = c.writeCallback := by
  cases request <;> rfl

theorem enqueue_getSizeToWrite {c : RpcConnection Done} (request : Call Done)
    (content : c.writeBuf.getSizeToWrite ≠ 0) :
    (c.enqueue pb request).writeBuf.getSizeToWrite = c.writeBuf.getSizeToWrite := by
  cases request <;> exact QueuedWriteIOBuffer.getSizeToWrite_append _ content

theorem call_idle {c : RpcConnection Done} (request : Call Done) (answers : List Int)
    (idle : c.writeCallback = false) :
    (c.call pb request answers).2 ≠ .checkFailed ∧ PendingNonempty (c.call pb request answers).1 :=
  doWriteLoop_idle answers _ ((c.enqueue_writeCallback pb request).trans idle)

theorem onWriteCompleted_idle (c : RpcConnection Done) (rv : Int) (answers : List Int) :
    (c.onWriteCompleted rv answers).2 ≠ .checkFailed ∧
      PendingNonempty (c.onWriteCompleted rv answers).1 := by
  unfold onWriteCompleted
  dsimp only
  split
  · exact ⟨nofun, nofun⟩
  · exact doWriteLoop_idle answers _ rfl

def CallsWhileIdle (c : RpcConnection Done) : WriteEvent Done → Prop
  | .call _ _ => c.writeCallback = false
  | .writeCompleted _ _ => True

theorem check_holds_iff {c : RpcConnection Done} (nonempty : PendingNonempty c)
    (event : WriteEvent Done) :
    (c.handleWriteEvent pb event).2 ≠ .checkFailed ↔ c.CallsWhileIdle event := by
  cases event with
  | writeCompleted rv answers =>
    exact ⟨fun _ => trivial, fun _ => (c.onWriteCompleted_idle rv answers).1⟩
  | call request answers =>
    constructor
    · intro holds
      by_contra pending
      have pending : c.writeCallback = true := by simpa [CallsWhileIdle] using pending
      have content := nonempty pending
      apply holds
      apply doWriteLoop_pending answers ((c.enqueue_writeCallback pb request).trans pending)
      rw [c.enqueue_getSizeToWrite pb request content]
      exact content
    · intro idle
      exact (call_idle pb request answers idle).1

theorem writeStep_cases {c next : RpcConnection Done} {event : WriteEvent Done}
    (stepped : c.writeStep pb event = some next) :
    (c.handleWriteEvent pb event).2 ≠ .checkFailed ∧ next = (c.handleWriteEvent pb event).1 := by
  unfold writeStep at stepped
  split at stepped
  · cases stepped
  · split at stepped
    · cases stepped
    · rename_i handled
      cases stepped
      rw [handled]
      exact ⟨by assumption, rfl⟩

theorem writeStep_pendingNonempty {c next : RpcConnection Done} {event : WriteEvent Done}
    (nonempty : PendingNonempty c) (stepped : c.writeStep pb event = some next) :
    PendingNonempty next := by
  obtain ⟨holds, rfl⟩ := writeStep_cases pb stepped
  have idle := (check_holds_iff pb nonempty event).mp holds
  cases event with
  | call request answers => exact (call_idle pb request answers idle).2
  | writeCompleted rv answers => exact (c.onWriteCompleted_idle rv answers).2

/-- In a history of one connection `CHECK(write_callback_.is_null())` holds at every `Write` exactly when
    no `CallMethod` and no `OnServiceDone` comes while a write is pending. -/
theorem write_check_holds_iff (id : Int) (peer : String) (events : List (WriteEvent Done)) :
    Along (writeStep pb) (fun c event => (c.handleWriteEvent pb event).2 ≠ .checkFailed)
        (RpcConnection.new id peer) events ↔
      Along (writeStep pb) CallsWhileIdle (RpcConnection.new id peer) events :=
  along_congr (fun _ _ _ nonempty stepped => writeStep_pendingNonempty pb nonempty stepped)
    (fun _ event nonempty => check_holds_iff pb nonempty event)
    (fun pending => Bool.noConfusion pending) events

def WriteFails (b : QueuedWriteIOBuffer) (answers : List Int) : Prop :=
  ∃ taken rv rest, answers = taken ++ rv :: rest ∧ (∀ size ∈ taken, 0 < size) ∧ rv < 0 ∧ rv ≠ errIoPending ∧
    ∀ sizes, sizes <+: taken →
      (sizes.foldl (fun b size => b.didConsume size.toNat) b).getSizeToWrite ≠ 0

theorem not_writeFails_nil (b : QueuedWriteIOBuffer) : ¬ WriteFails b [] := by
  rintro ⟨taken, rv, rest, shape, _⟩
  simp at shape

theorem writeFails_cons (b : QueuedWriteIOBuffer) (rv : Int) (rest : List Int) :
    WriteFails b (rv :: rest) ↔ b.getSizeToWrite ≠ 0 ∧
      (rv < 0 ∧ rv ≠ errIoPending ∨ 0 < rv ∧ WriteFails (b.didConsume rv.toNat) rest) := by
  constructor
  · rintro ⟨taken, error, later, shape, counts, negative, notPending, unfinished⟩
    refine ⟨unfinished [] (List.nil_prefix), ?_⟩
    cases taken with
    | nil =>
      cases shape
      exact .inl ⟨negative, notPending⟩
    | cons size taken =>
      cases shape
      refine .inr ⟨counts rv (by simp), taken, error, later, rfl, ?_, negative, notPending, ?_⟩
      · exact fun size member => counts size (List.mem_cons_of_mem _ member)
      · intro sizes prior
        exact unfinished (rv :: sizes) (List.cons_prefix_cons.mpr ⟨rfl, prior⟩)
  · rintro ⟨content, ⟨negative, notPending⟩ | ⟨positive, taken, error, later, rfl, counts, rest⟩⟩
    · refine ⟨[], rv, rest, rfl, by simp, negative, notPending, ?_⟩
      intro sizes prior
      rw [List.prefix_nil.mp prior]
      exact content
    · obtain ⟨negative, notPending, unfinished⟩ := rest
      refine ⟨rv :: taken, error, later, rfl, ?_, negative, notPending, ?_⟩
      · exact List.forall_mem_cons.mpr ⟨positive, counts⟩
      · intro sizes prior
        cases sizes with
        | nil => exact content
        | cons size sizes =>
          obtain ⟨rfl, shorter⟩ := List.cons_prefix_cons.mp prior
          exact unfinished sizes shorter

/-- `DoWriteLoop` comes back without closing the connection: there is nothing to write, or no write is
    pending and none fails at once. -/
def WritesThrough (c : RpcConnection Done) (answers : List Int) : Prop :=
  c.writeBuf.getSizeToWrite ≠ 0 → c.writeCallback = false ∧ ¬ WriteFails c.writeBuf answers

theorem doWriteLoop_idle_returned_iff (answers : List Int) (c : RpcConnection Done)
    (idle : c.writeCallback = false) :
    (c.doWriteLoop answers).2 = .returned ↔ ¬ WriteFails c.writeBuf answers := by
  induction answers generalizing c with
  | nil =>
    unfold doWriteLoop
    split_ifs with drained pending
    · simp [not_writeFails_nil]
    · simp [idle] at pending
    · simp [not_writeFails_nil]
  | cons rv rest ih =>
    rw [writeFails_cons]
    unfold doWriteLoop
    dsimp only
    split_ifs with drained pending waiting zero negative
    · simp [drained]
    · simp [idle] at pending
    · simp [waiting, errIoPending]
    · simp [zero]
    · simp [drained, negative, waiting]
    · have positive : 0 < rv := by omega
      have later := ih { c with writeBuf := c.writeBuf.didConsume rv.toNat } idle
      simp only [later]
      simp [drained, negative, positive]

theorem doWriteLoop_returned_iff (answers : List Int) (c : RpcConnection Done) :
    (c.doWriteLoop answers).2 = .returned ↔ c.WritesThrough answers := by
  unfold WritesThrough
  cases pending : c.writeCallback with
  | false =>
    rw [doWriteLoop_idle_returned_iff answers c pending]
    constructor
    · exact fun fine _ => ⟨rfl, fine⟩
    · rintro fine ⟨taken, rv, rest, fails⟩
      exact (fine (fails.2.2.2.2 [] List.nil_prefix)).2 ⟨taken, rv, rest, fails⟩
  | true =>
    by_cases drained : c.writeBuf.getSizeToWrite = 0
    · unfold doWriteLoop
      simp [drained]
    · simp [doWriteLoop_pending answers pending drained, drained]

theorem second_call_while_pending_fails_check :
    ¬ ∀ events : List (WriteEvent Unit),
      Along (writeStep wireFormat)
        (fun c event => (c.handleWriteEvent wireFormat event).2 ≠ .checkFailed)
        (RpcConnection.new 1 "10.0.0.2") events := by
  intro holds
  let request : WriteEvent Unit := .call (.callMethod [115] [109] [] none) [errIoPending]
  have both := holds [request, request]
  obtain ⟨next, stepped, failed⟩ : ∃ next,
      (RpcConnection.new 1 "10.0.0.2").writeStep wireFormat request = some next ∧
        (next.handleWriteEvent wireFormat request).2 = .checkFailed := by
    refine ⟨_, rfl, ?_⟩
    decide +kernel
  exact (both.2 next stepped).1 failed

end RpcConnection

end DistributedNinja.Rpc
