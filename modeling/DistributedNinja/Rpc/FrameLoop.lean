import DistributedNinja.Rpc.Message
import DistributedNinja.Rpc.ReadIOBuffer
import Mathlib.Logic.Relation

namespace DistributedNinja.Rpc

open Lib

def kSizeOfUint32 : UInt32 := 4

def messageLength (b : ReadIOBuffer) : UInt32 := readBigEndian b.startOfBuffer

def frameSize (b : ReadIOBuffer) : UInt32 := kSizeOfUint32 + messageLength b

def reachesParse (b : ReadIOBuffer) : Bool :=
  !decide (b.getSize ≤ kSizeOfUint32.toNat) && !decide (UInt32.ofNat b.getSize < frameSize b)

def parseCall (parse : Parser) (b : ReadIOBuffer) : Option RpcMessage :=
  parse (b.startOfBuffer.drop kSizeOfUint32.toNat) (messageLength b).toInt32.toInt

/-- One pass through the body of the `do … while (true)` of `HandleReadResult`: `none` is a `break`,
    otherwise the message to dispatch, if one was parsed, and the buffer at the next pass. -/
def frameBody (parse : Parser) (b : ReadIOBuffer) : Option (Option RpcMessage × ReadIOBuffer) :=
  if reachesParse b then
    match parseCall parse b with
    | some m => some (some m, b.didConsume (frameSize b).toNat)
    | none => some (none, b)
  else none

variable {S : Type}

/-- The loop itself; `dispatch` is `OnRequestMessage` or `OnReponseMessage`, neither of which touches
    the read buffer. `none` means that `fuel` passes were not enough. -/
def frameLoop (parse : Parser) (dispatch : S → RpcMessage → S) :
    Nat → ReadIOBuffer → S → Option (ReadIOBuffer × S)
  | 0, _, _ => none
  | fuel + 1, b, s =>
    match frameBody parse b with
    | none => some (b, s)
    | some (none, next) => frameLoop parse dispatch fuel next s
    | some (some m, next) => frameLoop parse dispatch fuel next (dispatch s m)

def LoopHead (parse : Parser) : ReadIOBuffer → ReadIOBuffer → Prop :=
  Relation.ReflTransGen fun b next => ∃ m, frameBody parse b = some (m, next)

theorem reachesParse_iff {b : ReadIOBuffer} : reachesParse b = true ↔
    4 < b.getSize ∧ (frameSize b).toNat ≤ (UInt32.ofNat b.getSize).toNat := by
  have four : kSizeOfUint32.toNat = 4 := rfl
  simp only [reachesParse, four, Bool.and_eq_true, Bool.not_eq_true', decide_eq_false_iff_not,
    Nat.not_le, UInt32.not_lt, UInt32.le_iff_toNat_le]

theorem ReadIOBuffer.WellFormed.size_word {b : ReadIOBuffer} (wf : b.WellFormed) :
    (UInt32.ofNat b.getSize).toNat = b.getSize := by
  have inside := wf.size_le_capacity
  have maximum := wf.maximum
  simp only [ReadIOBuffer.kDefaultMaxBufferSize] at maximum
  simp only [UInt32.toNat_ofNat']
  exact Nat.mod_eq_of_lt (by omega)

theorem ReadIOBuffer.WellFormed.frameSize_le {b : ReadIOBuffer} (wf : b.WellFormed)
    (complete : reachesParse b = true) : (frameSize b).toNat ≤ b.getSize := by
  have size := (reachesParse_iff.mp complete).2
  rwa [wf.size_word] at size

theorem frameBody_cases {parse : Parser} {b next : ReadIOBuffer} {m : Option RpcMessage}
    (pass : frameBody parse b = some (m, next)) :
    reachesParse b = true ∧ m = parseCall parse b ∧
      next = if m.isSome then b.didConsume (frameSize b).toNat else b := by
  unfold frameBody at pass
  split at pass
  · rename_i complete
    split at pass
    · rename_i parsed
      cases pass
      exact ⟨complete, parsed.symm, rfl⟩
    · rename_i failed
      cases pass
      exact ⟨complete, failed.symm, rfl⟩
  · cases pass

theorem frameBody_wellFormed {parse : Parser} {b next : ReadIOBuffer} {m : Option RpcMessage}
    (wf : b.WellFormed) (pass : frameBody parse b = some (m, next)) : next.WellFormed := by
  obtain ⟨complete, _, rfl⟩ := frameBody_cases pass
  split
  · exact (wf.didConsume (wf.frameSize_le complete)).1
  · exact wf

theorem LoopHead.wellFormed {parse : Parser} {b h : ReadIOBuffer} (head : LoopHead parse b h)
    (wf : b.WellFormed) : h.WellFormed := by
  induction head with
  | refl => exact wf
  | tail _ pass ih =>
    obtain ⟨m, pass⟩ := pass
    exact frameBody_wellFormed ih pass

theorem messageLength_eq {b : ReadIOBuffer} (header : 4 ≤ b.getSize) :
    messageLength b = readBigEndian b.received :=
  (readBigEndian_take _ _ header).symm

theorem frameSize_eq_of_received {b c : ReadIOBuffer} (wfb : b.WellFormed) (wfc : c.WellFormed)
    (same : b.received = c.received) (header : 4 ≤ b.getSize) : frameSize b = frameSize c := by
  have size : c.getSize = b.getSize := by
    rw [← wfc.received_length, ← same, wfb.received_length]
  rw [frameSize, frameSize, messageLength_eq header, messageLength_eq (by omega), same]

theorem frameSize_toNat (h : ReadIOBuffer) :
    (frameSize h).toNat = (4 + (messageLength h).toNat) % 2 ^ 32 := by
  simp only [frameSize, kSizeOfUint32, UInt32.toNat_add, UInt32.reduceToNat]

theorem frameSize_eq_zero_iff {h : ReadIOBuffer} : frameSize h = 0 ↔ messageLength h = 0xFFFFFFFC := by
  have bound := (messageLength h).toNat_lt
  rw [← UInt32.toNat_inj, ← UInt32.toNat_inj, frameSize_toNat]
  simp only [UInt32.toNat_zero, UInt32.reduceToNat]
  omega

def Stuck (parse : Parser) (h : ReadIOBuffer) : Prop :=
  reachesParse h = true ∧ (parseCall parse h = none ∨ frameSize h = 0)

theorem Stuck.pass {parse : Parser} {h : ReadIOBuffer} (wf : h.WellFormed) (stuck : Stuck parse h) :
    ∃ m next, frameBody parse h = some (m, next) ∧ next.WellFormed ∧ Stuck parse next := by
  obtain ⟨complete, reason⟩ := stuck
  cases parsed : parseCall parse h with
  | none =>
    refine ⟨none, h, ?_, wf, complete, .inl parsed⟩
    simp only [frameBody, complete, parsed, ↓reduceIte]
  | some m =>
    have zero : frameSize h = 0 := by
      rcases reason with none | zero
      · rw [parsed] at none
        cases none
      · exact zero
    have size := (reachesParse_iff.mp complete).1
    obtain ⟨next, kept⟩ := wf.didConsume (Nat.zero_le h.getSize)
    rw [List.drop_zero] at kept
    have same : frameSize (h.didConsume 0) = 0 :=
      (frameSize_eq_of_received wf next kept.symm (by omega)).symm.trans zero
    have nextSize : (h.didConsume 0).getSize = h.getSize := wf.getSize_didConsume (Nat.zero_le _)
    refine ⟨some m, h.didConsume 0, ?_, next, ?_, .inr same⟩
    · simp only [frameBody, complete, parsed, zero, ↓reduceIte]
      rfl
    · apply reachesParse_iff.mpr
      rw [same, nextSize]
      exact ⟨size, Nat.zero_le _⟩

theorem Stuck.frameLoop_eq_none {parse : Parser} {h : ReadIOBuffer} (wf : h.WellFormed)
    (stuck : Stuck parse h) (dispatch : S → RpcMessage → S) (fuel : Nat) (s : S) :
    frameLoop parse dispatch fuel h s = none := by
  induction fuel generalizing h s with
  | zero => rfl
  | succ fuel ih =>
    obtain ⟨m, next, pass, nextWF, nextStuck⟩ := stuck.pass wf
    cases m <;> simp only [frameLoop, pass] <;> exact ih nextWF nextStuck _

theorem LoopHead.frameLoop_some {parse : Parser} {b h : ReadIOBuffer} (head : LoopHead parse b h)
    {dispatch : S → RpcMessage → S} {fuel : Nat} {s : S} {result : ReadIOBuffer × S}
    (ended : frameLoop parse dispatch fuel b s = some result) :
    ∃ fuel s, frameLoop parse dispatch fuel h s = some result := by
  induction head using Relation.ReflTransGen.head_induction_on generalizing fuel s with
  | refl => exact ⟨fuel, s, ended⟩
  | head pass _ ih =>
    obtain ⟨m, pass⟩ := pass
    cases fuel with
    | zero => cases ended
    | succ fuel =>
      cases m <;> simp only [frameLoop, pass] at ended <;> exact ih ended

theorem frameLoop_invariant {parse : Parser} {dispatch : S → RpcMessage → S} (inv : S → Prop)
    (preserved : ∀ s m, inv s → inv (dispatch s m)) {fuel : Nat} {b left : ReadIOBuffer} {s t : S}
    (ended : frameLoop parse dispatch fuel b s = some (left, t)) (start : inv s) : inv t := by
  induction fuel generalizing b s with
  | zero => cases ended
  | succ fuel ih =>
    unfold frameLoop at ended
    split at ended
    · cases ended
      exact start
    · exact ih ended start
    · exact ih ended (preserved s _ start)

/-- The loop of `HandleReadResult` ends exactly when every complete frame it gets to parses and does
    not announce the one length for which header and body together wrap round to zero bytes. -/
theorem frameLoop_terminates_iff (parse : Parser) (dispatch : S → RpcMessage → S)
    (b : ReadIOBuffer) (wf : b.WellFormed) (s : S) :
    (∃ fuel result, frameLoop parse dispatch fuel b s = some result) ↔
      ∀ h, LoopHead parse b h → reachesParse h = true →
        (parseCall parse h).isSome ∧ messageLength h ≠ 0xFFFFFFFC := by
  constructor
  · rintro ⟨fuel, result, ended⟩ h head complete
    obtain ⟨fuel, s, ended⟩ := head.frameLoop_some ended
    have notStuck : ¬ Stuck parse h := by
      intro stuck
      rw [stuck.frameLoop_eq_none (head.wellFormed wf)] at ended
      cases ended
    constructor
    · apply Option.isSome_iff_ne_none.mpr
      intro failed
      exact notStuck ⟨complete, .inl failed⟩
    · intro header
      exact notStuck ⟨complete, .inr (frameSize_eq_zero_iff.mpr header)⟩
  · intro fine
    -- each pass that does not break consumes at least one byte
    induction size : b.getSize using Nat.strongRecOn generalizing b s with
    | _ n ih =>
      by_cases complete : reachesParse b = true
      · obtain ⟨parsed, header⟩ := fine b .refl complete
        obtain ⟨m, parsed⟩ := Option.isSome_iff_exists.mp parsed
        have inside := wf.frameSize_le complete
        have consumed := wf.didConsume inside
        have smaller := wf.getSize_didConsume inside
        have nonzero : (frameSize b).toNat ≠ 0 := by
          intro zero
          exact header (frameSize_eq_zero_iff.mp (UInt32.toNat_inj.mp (by simpa using zero)))
        have pass : frameBody parse b = some (some m, b.didConsume (frameSize b).toNat) := by
          simp only [frameBody, complete, parsed, ↓reduceIte]
        have long := (reachesParse_iff.mp complete).1
        obtain ⟨fuel, result, ended⟩ := ih _ (by omega) (b.didConsume (frameSize b).toNat)
          consumed.1 (dispatch s m) (fun h head => fine h (.head ⟨_, pass⟩ head)) rfl
        refine ⟨fuel + 1, result, ?_⟩
        simp only [frameLoop, pass]
        exact ended
      · refine ⟨1, (b, s), ?_⟩
        simp only [frameLoop, frameBody, complete, Bool.false_eq_true, ↓reduceIte]

def malformedFrame : ReadIOBuffer := (ReadIOBuffer.new.fill [0, 0, 0, 1, 0xFF]).didRead 5

theorem malformedFrame_wellFormed : malformedFrame.WellFormed :=
  (ReadIOBuffer.new_wellFormed.didRead (by decide : [0, 0, 0, 1, (0xFF : UInt8)].length ≤ _)).1

theorem malformed_frame_hangs :
    ¬ ∀ (parse : Parser) (b : ReadIOBuffer), b.WellFormed →
      ∃ fuel result, frameLoop parse (fun (n : Nat) _ => n + 1) fuel b 0 = some result := by
  intro ends
  obtain ⟨fuel, result, ended⟩ := ends (fun _ _ => none) malformedFrame malformedFrame_wellFormed
  have stuck : Stuck (fun _ _ => none) malformedFrame := ⟨by decide, .inl rfl⟩
  rw [stuck.frameLoop_eq_none malformedFrame_wellFormed] at ended
  cases ended

theorem frameLoop_terminates_iff_malformedFrame :
    (∃ fuel result, frameLoop (fun _ _ => none) (fun (n : Nat) _ => n + 1) fuel malformedFrame 0 =
      some result) ↔
      ∀ h, LoopHead (fun _ _ => none) malformedFrame h → reachesParse h = true →
        (parseCall (fun _ _ => none) h).isSome ∧ messageLength h ≠ 0xFFFFFFFC :=
  frameLoop_terminates_iff _ _ malformedFrame malformedFrame_wellFormed 0

/-- What `DoReadLoop` does to the buffer before it reads; `none` when the capacity is refused. -/
def makeRoom (b : ReadIOBuffer) : Option ReadIOBuffer :=
  if b.remainingCapacity = 0 then b.increaseCapacity else some b

def completeRead (b : ReadIOBuffer) (chunk : List UInt8) : Option ReadIOBuffer :=
  if 0 < chunk.length ∧ chunk.length ≤ b.remainingCapacity then
    some ((b.fill chunk).didRead chunk.length)
  else none

inductive Entered (parse : Parser) : List (List UInt8) → ReadIOBuffer → Prop where
  | first {chunk room b} : makeRoom .new = some room → completeRead room chunk = some b →
      Entered parse [chunk] b
  | next {chunks chunk b left room c} : Entered parse chunks b → LoopHead parse b left →
      frameBody parse left = none → makeRoom left = some room → completeRead room chunk = some c →
      Entered parse (chunks ++ [chunk]) c

theorem makeRoom_wellFormed {b room : ReadIOBuffer} (wf : b.WellFormed) (made : makeRoom b = some room) :
    room.WellFormed := by
  unfold makeRoom at made
  split at made
  · by_cases below : b.getCapacity < ReadIOBuffer.kDefaultMaxBufferSize
    · obtain ⟨grown, increased, grownWF, _⟩ := wf.increaseCapacity below
      rw [increased] at made
      cases made
      exact grownWF
    · have limit := wf.limit
      rw [ReadIOBuffer.increaseCapacity, if_pos (by omega)] at made
      cases made
  · cases made
    exact wf

theorem makeRoom_some {left : ReadIOBuffer} (wf : left.WellFormed)
    (below : left.getSize < ReadIOBuffer.kDefaultMaxBufferSize) :
    ∃ room, makeRoom left = some room ∧ room.WellFormed ∧ room.received = left.received ∧
      0 < room.remainingCapacity := by
  unfold makeRoom
  split
  · rename_i full
    have inside := wf.size_le_capacity
    have filled : left.getCapacity = left.getSize :=
      Nat.le_antisymm (Nat.sub_eq_zero_iff_le.mp full) inside
    obtain ⟨grown, increased, grownWF, kept, larger⟩ := wf.increaseCapacity (by omega)
    have size : grown.getSize = left.getSize := by
      rw [← grownWF.received_length, kept, wf.received_length]
    refine ⟨grown, increased, grownWF, kept, ?_⟩
    apply Nat.sub_pos_of_lt
    change grown.getSize < grown.getCapacity
    omega
  · rename_i some
    exact ⟨left, rfl, wf, rfl, Nat.pos_of_ne_zero some⟩

theorem completeRead_wellFormed {b c : ReadIOBuffer} {chunk : List UInt8} (wf : b.WellFormed)
    (read : completeRead b chunk = some c) : c.WellFormed := by
  unfold completeRead at read
  split at read
  · rename_i fits
    cases read
    exact (wf.didRead fits.2).1
  · cases read

theorem Entered.wellFormed {parse : Parser} {chunks : List (List UInt8)} {b : ReadIOBuffer}
    (entered : Entered parse chunks b) : b.WellFormed := by
  induction entered with
  | first made read =>
    exact completeRead_wellFormed (makeRoom_wellFormed ReadIOBuffer.new_wellFormed made) read
  | next _ head _ made read ih =>
    exact completeRead_wellFormed (makeRoom_wellFormed (head.wellFormed ih) made) read

/-- If the loop gets as far as `ParseFromArray`, the announced message lies inside the received data,
    its length is a non-negative `int`, and the consumption of a parsed frame is between 1 and `GetSize()`. -/
def CallInBounds (parse : Parser) (h : ReadIOBuffer) : Prop :=
  reachesParse h = true →
    4 + (messageLength h).toNat ≤ h.getSize ∧ 0 ≤ (messageLength h).toInt32.toInt ∧
      ((parseCall parse h).isSome → 1 ≤ (frameSize h).toNat ∧ (frameSize h).toNat ≤ h.getSize)

theorem callInBounds_iff {parse : Parser} {h : ReadIOBuffer} (wf : h.WellFormed) :
    CallInBounds parse h ↔ (4 < h.getSize → (messageLength h).toNat < 2 ^ 32 - 4) := by
  have size := wf.size_le_capacity
  have maximum := wf.maximum
  simp only [ReadIOBuffer.kDefaultMaxBufferSize] at maximum
  have total := frameSize_toNat h
  have bound := (messageLength h).toNat_lt
  constructor
  · intro bounded long
    by_contra large
    have complete : reachesParse h = true := by
      apply reachesParse_iff.mpr
      rw [wf.size_word]
      omega
    have inside := (bounded complete).1
    omega
  · intro small complete
    have long := (reachesParse_iff.mp complete).1
    have inside := wf.frameSize_le complete
    have noWrap := small long
    have exact_ : (frameSize h).toNat = 4 + (messageLength h).toNat := by
      rw [total, Nat.mod_eq_of_lt (by omega)]
    refine ⟨by omega, ?_, fun _ => by omega⟩
    rw [Int32.toInt, UInt32.toBitVec_toInt32, BitVec.toInt_eq_toNat_of_lt]
    · exact Int.natCast_nonneg _
    · change 2 * (messageLength h).toNat < 2 ^ 32
      omega

/-- For every stream and segmentation, the `ParseFromArray` and `DidConsume` calls of the frame loop are
    in bounds exactly when no header it reads makes `kSizeOfUint32 + message_length` wrap. -/
theorem parse_calls_in_bounds_iff (parse : Parser) (chunks : List (List UInt8)) :
    (∀ b h, Entered parse chunks b → LoopHead parse b h → CallInBounds parse h) ↔
      ∀ b h, Entered parse chunks b → LoopHead parse b h → 4 < h.getSize →
        (messageLength h).toNat < 2 ^ 32 - 4 := by
  constructor
  · intro bounded b h entered head
    exact (callInBounds_iff (head.wellFormed entered.wellFormed)).mp (bounded b h entered head)
  · intro small b h entered head
    exact (callInBounds_iff (head.wellFormed entered.wellFormed)).mpr (small b h entered head)

def wrappingFrame : ReadIOBuffer := (ReadIOBuffer.new.fill [0xFF, 0xFF, 0xFF, 0xFC, 0]).didRead 5

theorem wrapping_header_out_of_bounds :
    ¬ ∀ (parse : Parser) (chunks : List (List UInt8)) (b h : ReadIOBuffer),
      Entered parse chunks b → LoopHead parse b h → CallInBounds parse h := by
  intro bounded
  have entered : Entered (fun _ _ => none) [[0xFF, 0xFF, 0xFF, 0xFC, 0]] wrappingFrame :=
    .first (rfl : makeRoom .new = some .new) rfl
  have inside := (bounded _ _ _ _ entered .refl (by decide)).1
  revert inside
  decide

end DistributedNinja.Rpc
