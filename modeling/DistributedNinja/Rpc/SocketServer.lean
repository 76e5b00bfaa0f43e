import DistributedNinja.Lib.OrderedMap
import DistributedNinja.Rpc.Connection

namespace DistributedNinja.Rpc

open Lib

variable {Done : Type}

structure SocketWrite (Done : Type) where
  pointer : Nat
  request : Call Done
  answers : List Int

/-- What one `Read` returns and, if it is positive, the bytes and the calls made from the frame loop: one
    list for each message that reaches a service or a closure. -/
structure SocketRead (Done : Type) where
  rv : Int
  bytes : List UInt8
  handlers : List (List (SocketWrite Done))

structure CloseCall where
  pointer : Nat
  registered : Bool
  deriving DecidableEq, Repr

/-- `RpcSocketServer`, the connections it allocated and the deletions it posted. A pointer is not used again,
    so it stands for one object; `closes` and `deleted` record what happened to the objects. -/
structure RpcSocketServer (Done : Type) where
  lastId : Int
  nextPointer : Nat
  heap : Nat → Option (RpcConnection Done)
  idToConnection : OrderedMap Int Nat
  posted : List Nat
  closes : List CloseCall
  deleted : List Nat

/-- The loop calls `Write` once for each of these answers. -/
def RpcConnection.answered : List Int → RpcConnection Done → Bool
  | [], _ => true
  | rv :: rest, c =>
    c.writeBuf.getSizeToWrite ≠ 0 &&
      if 0 < rv then answered rest { c with writeBuf := c.writeBuf.didConsume rv.toNat } else rest.isEmpty

def RpcConnection.answeredAfter (c : RpcConnection Done) (rv : Int) (answers : List Int) : Bool :=
  if rv < 0 then answers.isEmpty
  else { c with writeCallback := false, writeBuf := c.writeBuf.didConsume rv.toNat }.answered answers

namespace RpcSocketServer

def new : RpcSocketServer Done := ⟨0, 0, fun _ => none, .empty, [], [], []⟩

def store (s : RpcSocketServer Done) (pointer : Nat) (c : RpcConnection Done) : RpcSocketServer Done :=
  { s with heap := Function.update s.heap pointer (some c) }

def findConnection (s : RpcSocketServer Done) (id : Int) : Option Nat := s.idToConnection.find? id

/-- `OnClose`. A failed `DCHECK` does not stop it. -/
def onClose (s : RpcSocketServer Done) (id : Int) (pointer : Nat) : RpcSocketServer Done :=
  { s with
    closes := s.closes ++ [⟨pointer, (s.findConnection id).isSome⟩]
    idToConnection := s.idToConnection.erase id
    posted := s.posted ++ [pointer] }

def afterWrite (s : RpcSocketServer Done) (pointer : Nat) :
    RpcConnection Done × WriteOutcome → Option (RpcSocketServer Done)
  | (c, .returned) => some (s.store pointer c)
  | (c, .closed _) => some ((s.store pointer c).onClose c.id pointer)
  | (_, .checkFailed) => none

variable (pb : Protobuf)

/-- `none` when there is no such object any more, a `CHECK` fails or the answers are not the ones the write
    loop gets. -/
def callConnection (s : RpcSocketServer Done) (w : SocketWrite Done) : Option (RpcSocketServer Done) :=
  (s.heap w.pointer).bind fun c =>
    if (c.enqueue pb w.request).answered w.answers then
      s.afterWrite w.pointer (c.call pb w.request w.answers)
    else none

def makeCalls : List (SocketWrite Done) → RpcSocketServer Done → Option (RpcSocketServer Done)
  | [], s => some s
  | w :: rest, s => (s.callConnection pb w).bind fun s => makeCalls rest s

def eraseRequest (s : RpcSocketServer Done) (pointer : Nat) (id : UInt32) : RpcSocketServer Done :=
  { s with
    heap := Function.update s.heap pointer ((s.heap pointer).map fun c =>
      { c with requestIdToResponse := Function.update c.requestIdToResponse id none }) }

/-- `OnRequestMessage` and `OnReponseMessage` on the connection at `pointer`. What a service or a closure does
    is taken from `handlers`; for a request nobody serves that is nothing. -/
def dispatch (pointer : Nat) (state : Option (RpcSocketServer Done × List (List (SocketWrite Done))))
    (m : RpcMessage) : Option (RpcSocketServer Done × List (List (SocketWrite Done))) :=
  state.bind fun (s, handlers) =>
    match m.type with
    | .request =>
      match handlers with
      | [] => none
      | calls :: rest => (makeCalls pb calls s).map fun s => (s, rest)
    | .response =>
      match (s.heap pointer).bind fun c => c.requestIdToResponse m.id.toUInt32 with
      | none => some (s, handlers)
      | some none => some (s.eraseRequest pointer m.id.toUInt32, handlers)
      | some (some _) =>
        match handlers with
        | [] => none
        | calls :: rest => (makeCalls pb calls s).map fun s => (s.eraseRequest pointer m.id.toUInt32, rest)

def setReadBuf (s : RpcSocketServer Done) (pointer : Nat) (readBuf : ReadIOBuffer) : RpcSocketServer Done :=
  { s with
    heap := Function.update s.heap pointer ((s.heap pointer).map fun c => { c with readBuf := readBuf }) }

/-- `HandleReadResult`, with whether it returned `net::OK`; `none` for a frame loop that does not end. The
    loop does not look whether one of the calls closed the connection. -/
def handleReadResult (s : RpcSocketServer Done) (pointer : Nat) (c : RpcConnection Done)
    (read : SocketRead Done) : Option (RpcSocketServer Done × Bool) :=
  if read.rv ≤ 0 then
    if read.handlers.isEmpty then some (s.onClose c.id pointer, false) else none
  else if read.bytes.length = read.rv.toNat then
    (completeRead c.readBuf read.bytes).bind fun b =>
      match frameLoop pb.parseFromArray (dispatch pb pointer) (b.getSize + 1) b (some (s, read.handlers)) with
      | some (left, some (s, [])) => some (s.setReadBuf pointer left, true)
      | _ => none
  else none

/-- `DoReadLoop`. `Read` is called once for each of the results and is pending after the last one. -/
def doReadLoop (pointer : Nat) :
    List (SocketRead Done) → RpcSocketServer Done → Option (RpcSocketServer Done)
  | reads, s =>
    (s.heap pointer).bind fun c =>
      match makeRoom c.readBuf with
      | none => if reads.isEmpty then some s else none
      | some room =>
        if c.readCallback then none
        else
          match reads with
          | [] => some (s.store pointer { c with readBuf := room, readCallback := true })
          | read :: rest =>
            if read.rv = errIoPending then none
            else
              match (s.setReadBuf pointer room).handleReadResult pb pointer { c with readBuf := room } read with
              | some (s, true) => doReadLoop pointer rest s
              | some (s, false) => if rest.isEmpty then some s else none
              | none => none

def onReadCompleted (s : RpcSocketServer Done) (pointer : Nat) (read : SocketRead Done)
    (rest : List (SocketRead Done)) : Option (RpcSocketServer Done) :=
  (s.heap pointer).bind fun c =>
    if c.readCallback then
      let c := { c with readCallback := false }
      match (s.store pointer c).handleReadResult pb pointer c read with
      | some (s, true) => s.doReadLoop pb pointer rest
      | some (s, false) => if rest.isEmpty then some s else none
      | none => none
    else none

def onWriteCompleted (s : RpcSocketServer Done) (pointer : Nat) (rv : Int) (answers : List Int) :
    Option (RpcSocketServer Done) :=
  (s.heap pointer).bind fun c =>
    if c.writeCallback ∧ c.answeredAfter rv answers then
      s.afterWrite pointer (c.onWriteCompleted rv answers)
    else none

def newConnection (s : RpcSocketServer Done) (peer : String) : RpcSocketServer Done :=
  { s.store s.nextPointer (.new s.lastId peer) with
    lastId := s.lastId + 1
    nextPointer := s.nextPointer + 1
    idToConnection := s.idToConnection.insert s.lastId s.nextPointer }

/-- `HandleAcceptResult` for an accepted socket; `onConnect` are the calls of the observers. -/
def handleAcceptResult (s : RpcSocketServer Done) (peer : String) (reads : List (SocketRead Done))
    (onConnect : List (SocketWrite Done)) : Option (RpcSocketServer Done) :=
  ((s.newConnection peer).doReadLoop pb s.nextPointer reads).bind (makeCalls pb onConnect)

def runDeletion (s : RpcSocketServer Done) : Option (RpcSocketServer Done) :=
  match s.posted with
  | [] => none
  | pointer :: rest =>
    (s.heap pointer).map fun _ =>
      { s with
        heap := Function.update s.heap pointer none
        posted := rest
        deleted := s.deleted ++ [pointer] }

end RpcSocketServer

inductive ServerEvent (Done : Type) where
  | accepted (peer : String) (reads : List (SocketRead Done)) (onConnect : List (SocketWrite Done))
  | readCompleted (pointer : Nat) (read : SocketRead Done) (rest : List (SocketRead Done))
  | writeCompleted (pointer : Nat) (rv : Int) (answers : List Int)
  | called (write : SocketWrite Done)
  | deletionRun

/-- One task of the thread of the server; `none` when it cannot happen or the process does not survive it. -/
def RpcSocketServer.step (pb : Protobuf) (s : RpcSocketServer Done) :
    ServerEvent Done → Option (RpcSocketServer Done)
  | .accepted peer reads onConnect => s.handleAcceptResult pb peer reads onConnect
  | .readCompleted pointer read rest => s.onReadCompleted pb pointer read rest
  | .writeCompleted pointer rv answers => s.onWriteCompleted pointer rv answers
  | .called write => s.callConnection pb write
  | .deletionRun => s.runDeletion

def failing (answers : List Int) : Bool := answers.any fun rv => rv < 0 && rv ≠ errIoPending

def SocketWrite.failures (w : SocketWrite Done) : List Nat :=
  if failing w.answers then [w.pointer] else []

def SocketRead.failures (pointer : Nat) (read : SocketRead Done) : List Nat :=
  if read.rv ≤ 0 then [pointer] else read.handlers.flatten.flatMap SocketWrite.failures

/-- The connections on which a socket reports its end or an error, in order; `fresh` is the one a socket is
    accepted into. -/
def ServerEvent.failures (fresh : Nat) : ServerEvent Done → List Nat
  | .accepted _ reads onConnect =>
    reads.flatMap (SocketRead.failures fresh) ++ onConnect.flatMap SocketWrite.failures
  | .readCompleted pointer read rest => (read :: rest).flatMap (SocketRead.failures pointer)
  | .writeCompleted pointer rv answers => if rv < 0 ∨ failing answers then [pointer] else []
  | .called write => write.failures
  | .deletionRun => []

def ServerEvent.accepts : ServerEvent Done → Bool
  | .accepted _ _ _ => true
  | _ => false

def WriteOutcome.isClosed : WriteOutcome → Bool
  | .closed _ => true
  | _ => false

namespace RpcConnection

theorem doWriteLoop_closed {answers : List Int} {c : RpcConnection Done}
    (taken : c.answered answers = true) (passes : (c.doWriteLoop answers).2 ≠ .checkFailed) :
    (c.doWriteLoop answers).2.isClosed = failing answers := by
  induction answers generalizing c with
  | nil =>
    unfold doWriteLoop at passes ⊢
    dsimp only at passes ⊢
    split_ifs at passes ⊢
    · rfl
    · exact absurd rfl passes
    · rfl
  | cons rv rest ih =>
    simp only [answered, ne_eq, decide_not, Bool.and_eq_true, Bool.not_eq_eq_eq_not, Bool.not_true,
      decide_eq_false_iff_not] at taken
    obtain ⟨content, taken⟩ := taken
    unfold doWriteLoop at passes ⊢
    rw [if_neg content] at passes ⊢
    by_cases pending : c.writeCallback = true
    · rw [if_pos pending] at passes
      exact absurd rfl passes
    rw [if_neg pending] at passes ⊢
    dsimp only at passes ⊢
    by_cases positive : 0 < rv
    · rw [if_pos positive] at taken
      have different : rv ≠ errIoPending := by
        unfold errIoPending
        omega
      rw [if_neg different, if_neg (by omega), if_neg (by omega)] at passes ⊢
      rw [ih taken passes]
      have fine : ¬ rv < 0 := by omega
      simp [failing, fine]
    · rw [if_neg positive] at taken
      obtain rfl := List.isEmpty_iff.mp taken
      split_ifs at passes ⊢ with isPending zero negative
      · simp [failing, WriteOutcome.isClosed, isPending]
      · simp [failing, WriteOutcome.isClosed, zero]
      · simp [failing, WriteOutcome.isClosed, isPending, negative]
      · omega

end RpcConnection

namespace RpcSocketServer

variable {pb : Protobuf} {s t u : RpcSocketServer Done} {pointer : Nat} {c : RpcConnection Done}

/-- A connection stands at the pointer that equals its id: both are counted up together. -/
def Numbered (s : RpcSocketServer Done) : Prop := ∀ pointer c, s.heap pointer = some c → c.id = pointer

def closeAll (s : RpcSocketServer Done) (failed : List Nat) : RpcSocketServer Done :=
  failed.foldl (fun s (pointer : Nat) => s.onClose pointer pointer) s

theorem closeAll_heap (failed : List Nat) (heap : Nat → Option (RpcConnection Done)) :
    { s with heap := heap }.closeAll failed = { s.closeAll failed with heap := heap } := by
  induction failed generalizing s with
  | nil => rfl
  | cons pointer rest ih => exact ih (s := s.onClose pointer pointer)

/-- From one state to the next nothing is allocated or deleted, and besides the contents of the connections
    only the calls of `OnClose` for the failed connections show. -/
structure Effect (s t : RpcSocketServer Done) (failed : List Nat) : Prop where
  ids : ∀ pointer, (t.heap pointer).map RpcConnection.id = (s.heap pointer).map RpcConnection.id
  live : ∀ pointer ∈ failed, (s.heap pointer).isSome = true
  books : t = { s.closeAll failed with heap := t.heap }

theorem Effect.refl : Effect s s [] := ⟨fun _ => rfl, nofun, rfl⟩

theorem Effect.isSome {failed : List Nat} (effect : Effect s t failed) (pointer : Nat) :
    (t.heap pointer).isSome = (s.heap pointer).isSome := by
  have same := congrArg Option.isSome (effect.ids pointer)
  simpa only [Option.isSome_map] using same

theorem Effect.trans {first second : List Nat} (effect : Effect s t first) (next : Effect t u second) :
    Effect s u (first ++ second) := by
  constructor
  · intro pointer
    rw [next.ids, effect.ids]
  · intro pointer member
    rcases List.mem_append.mp member with member | member
    · exact effect.live pointer member
    · rw [← effect.isSome]
      exact next.live pointer member
  · rw [next.books, effect.books, closeAll_heap]
    simp only [closeAll, List.foldl_append]

theorem Effect.numbered {failed : List Nat} (effect : Effect s t failed) (numbered : s.Numbered) :
    t.Numbered := by
  intro pointer c found
  have same := effect.ids pointer
  rw [found, Option.map_some] at same
  obtain ⟨d, before, id⟩ := Option.map_eq_some_iff.mp same.symm
  rw [← id]
  exact numbered pointer d before

theorem store_effect (found : s.heap pointer = some c) {d : RpcConnection Done} (same : d.id = c.id) :
    Effect s (s.store pointer d) [] := by
  refine ⟨?_, nofun, rfl⟩
  intro other
  by_cases at_ : other = pointer
  · simp [store, at_, found, same]
  · simp [store, at_]

theorem onClose_effect (found : s.heap pointer = some c) (numbered : s.Numbered) :
    Effect s (s.onClose c.id pointer) [pointer] := by
  refine ⟨fun _ => rfl, ?_, ?_⟩
  · intro other member
    rw [List.mem_singleton.mp member, found]
    rfl
  · rw [numbered pointer c found]
    rfl

theorem afterWrite_effect (found : s.heap pointer = some c) (numbered : s.Numbered)
    {result : RpcConnection Done × WriteOutcome} (same : result.1.id = c.id)
    (after : s.afterWrite pointer result = some t) :
    result.2 ≠ .checkFailed ∧ Effect s t (if result.2.isClosed then [pointer] else []) := by
  obtain ⟨d, outcome⟩ := result
  cases outcome with
  | returned =>
    cases after
    exact ⟨nofun, store_effect found same⟩
  | closed rv =>
    cases after
    refine ⟨nofun, ?_⟩
    have stored := store_effect found same
    exact stored.trans (onClose_effect (Function.update_self ..) (stored.numbered numbered))
  | checkFailed => cases after

theorem callConnection_effect {w : SocketWrite Done} (numbered : s.Numbered)
    (called : s.callConnection pb w = some t) : Effect s t w.failures := by
  obtain ⟨c, found, called⟩ := Option.bind_eq_some_iff.mp called
  split at called
  · rename_i taken
    have same : (c.call pb w.request w.answers).1.id = c.id := by
      obtain ⟨b, pending, written⟩ := RpcConnection.doWriteLoop_written w.answers (c.enqueue pb w.request)
      rw [RpcConnection.call, written]
      cases w.request <;> rfl
    obtain ⟨passes, effect⟩ := afterWrite_effect found numbered same called
    rwa [RpcConnection.call, RpcConnection.doWriteLoop_closed taken passes] at effect
  · cases called

theorem makeCalls_effect {calls : List (SocketWrite Done)} (numbered : s.Numbered)
    (made : makeCalls pb calls s = some t) : Effect s t (calls.flatMap SocketWrite.failures) := by
  induction calls generalizing s with
  | nil =>
    cases made
    exact .refl
  | cons w rest ih =>
    obtain ⟨v, called, made⟩ := Option.bind_eq_some_iff.mp made
    have first := callConnection_effect numbered called
    exact first.trans (ih (first.numbered numbered) made)

theorem update_effect (f : RpcConnection Done → RpcConnection Done) (same : ∀ c, (f c).id = c.id) :
    Effect s { s with heap := Function.update s.heap pointer ((s.heap pointer).map f) } [] := by
  refine ⟨?_, nofun, rfl⟩
  intro other
  by_cases at_ : other = pointer
  · subst at_
    simp only [Function.update_self, Option.map_map]
    congr 1
    funext c
    exact same c
  · simp [at_]

def Dispatched (s : RpcSocketServer Done) (handlers : List (List (SocketWrite Done)))
    (state : Option (RpcSocketServer Done × List (List (SocketWrite Done)))) : Prop :=
  ∀ t left, state = some (t, left) → ∃ taken, handlers = taken ++ left ∧
    Effect s t (taken.flatten.flatMap SocketWrite.failures)

theorem dispatch_dispatched {handlers : List (List (SocketWrite Done))} (numbered : s.Numbered)
    {state : Option (RpcSocketServer Done × List (List (SocketWrite Done)))} (m : RpcMessage)
    (before : Dispatched s handlers state) : Dispatched s handlers (dispatch pb pointer state m) := by
  intro t left dispatched
  obtain ⟨⟨v, waiting⟩, rfl, handled⟩ := Option.bind_eq_some_iff.mp dispatched
  obtain ⟨taken, rfl, effect⟩ := before v waiting rfl
  have called : ∀ {calls rest w}, waiting = calls :: rest → makeCalls pb calls v = some w →
      taken ++ waiting = (taken ++ [calls]) ++ rest ∧
        Effect s w ((taken ++ [calls]).flatten.flatMap SocketWrite.failures) := by
    intro calls rest w shape made
    rw [List.flatten_append, List.flatMap_append, List.flatten_singleton, shape]
    exact ⟨by simp, effect.trans (makeCalls_effect (effect.numbered numbered) made)⟩
  have erased : ∀ w : RpcSocketServer Done, Effect w (w.eraseRequest pointer m.id.toUInt32) [] := by
    intro w
    exact update_effect _ fun _ => rfl
  dsimp only at handled
  split at handled
  · split at handled
    · cases handled
    · obtain ⟨w, made, same⟩ := Option.map_eq_some_iff.mp handled
      cases same
      exact ⟨_, called rfl made⟩
  · split at handled
    · cases handled
      exact ⟨taken, rfl, effect⟩
    · cases handled
      refine ⟨taken, rfl, ?_⟩
      simpa using effect.trans (erased v)
    · split at handled
      · cases handled
      · obtain ⟨w, made, same⟩ := Option.map_eq_some_iff.mp handled
        cases same
        obtain ⟨shape, calls⟩ := called rfl made
        refine ⟨_, shape, ?_⟩
        simpa using calls.trans (erased w)

theorem handleReadResult_effect {read : SocketRead Done} {ok : Bool} (found : s.heap pointer = some c)
    (numbered : s.Numbered) (handled : s.handleReadResult pb pointer c read = some (t, ok)) :
    Effect s t (read.failures pointer) := by
  unfold handleReadResult at handled
  unfold SocketRead.failures
  split at handled
  · rename_i ended
    split at handled
    · cases handled
      rw [if_pos ended]
      exact onClose_effect found numbered
    · cases handled
  · rename_i more
    rw [if_neg more]
    split at handled
    · obtain ⟨b, _, handled⟩ := Option.bind_eq_some_iff.mp handled
      split at handled
      · rename_i left v looped
        cases handled
        have start : Dispatched s read.handlers (some (s, read.handlers)) := by
          intro w left same
          cases same
          exact ⟨[], rfl, .refl⟩
        obtain ⟨taken, shape, effect⟩ := frameLoop_invariant (Dispatched s read.handlers)
          (fun _ m before => dispatch_dispatched numbered m before) looped start v [] rfl
        rw [shape, List.append_nil]
        have stored : Effect v (v.setReadBuf pointer left) [] := update_effect _ fun _ => rfl
        simpa using effect.trans stored
      · cases handled
    · cases handled

theorem doReadLoop_effect {reads : List (SocketRead Done)} (numbered : s.Numbered)
    (looped : doReadLoop pb pointer reads s = some t) :
    Effect s t (reads.flatMap (SocketRead.failures pointer)) := by
  induction reads generalizing s with
  | nil =>
    unfold doReadLoop at looped
    obtain ⟨c, found, looped⟩ := Option.bind_eq_some_iff.mp looped
    split at looped
    · cases looped
      exact .refl
    · split at looped
      · cases looped
      · cases looped
        exact store_effect found rfl
  | cons read rest ih =>
    unfold doReadLoop at looped
    obtain ⟨c, found, looped⟩ := Option.bind_eq_some_iff.mp looped
    split at looped
    · cases looped
    · rename_i room made
      have roomy : Effect s (s.setReadBuf pointer room) [] := update_effect _ fun _ => rfl
      have roomy_found : (s.setReadBuf pointer room).heap pointer = some { c with readBuf := room } := by
        simp [setReadBuf, found]
      dsimp only at looped
      split at looped
      · cases looped
      · split at looped
        · cases looped
        · split at looped
          · rename_i v handled
            have first := handleReadResult_effect roomy_found (roomy.numbered numbered) handled
            have so_far := roomy.trans first
            exact so_far.trans (ih (so_far.numbered numbered) looped)
          · rename_i v handled
            split at looped
            · rename_i last
              cases looped
              obtain rfl := List.isEmpty_iff.mp last
              have first := handleReadResult_effect roomy_found (roomy.numbered numbered) handled
              simpa using roomy.trans first
            · cases looped
          · cases looped

theorem onReadCompleted_effect {read : SocketRead Done} {rest : List (SocketRead Done)}
    (numbered : s.Numbered) (completed : s.onReadCompleted pb pointer read rest = some t) :
    Effect s t ((read :: rest).flatMap (SocketRead.failures pointer)) := by
  obtain ⟨c, found, completed⟩ := Option.bind_eq_some_iff.mp completed
  split at completed
  · have reset := store_effect found (rfl : { c with readCallback := false }.id = c.id)
    have reset_found : (s.store pointer { c with readCallback := false }).heap pointer =
        some { c with readCallback := false } := Function.update_self ..
    dsimp only at completed
    split at completed
    · rename_i v handled
      have first := handleReadResult_effect reset_found (reset.numbered numbered) handled
      have so_far := reset.trans first
      exact so_far.trans (doReadLoop_effect (so_far.numbered numbered) completed)
    · rename_i v handled
      split at completed
      · rename_i last
        cases completed
        obtain rfl := List.isEmpty_iff.mp last
        have first := handleReadResult_effect reset_found (reset.numbered numbered) handled
        simpa using reset.trans first
      · cases completed
    · cases completed
  · cases completed

theorem onWriteCompleted_effect {rv : Int} {answers : List Int} (numbered : s.Numbered)
    (completed : s.onWriteCompleted pointer rv answers = some t) :
    Effect s t (if rv < 0 ∨ failing answers then [pointer] else []) := by
  obtain ⟨c, found, completed⟩ := Option.bind_eq_some_iff.mp completed
  split at completed
  · rename_i taken
    have same : (c.onWriteCompleted rv answers).1.id = c.id := by
      obtain ⟨b, pending, written⟩ := c.onWriteCompleted_written rv answers
      rw [written]
    obtain ⟨passes, effect⟩ := afterWrite_effect found numbered same completed
    unfold RpcConnection.onWriteCompleted at passes effect
    by_cases negative : rv < 0
    · rw [if_pos (.inl negative)]
      rw [if_pos negative] at effect
      exact effect
    · have taken := taken.2
      rw [RpcConnection.answeredAfter, if_neg negative] at taken
      rw [if_neg negative] at passes effect
      rw [RpcConnection.doWriteLoop_closed taken passes] at effect
      simpa [negative] using effect
  · cases completed

end RpcSocketServer

end DistributedNinja.Rpc
