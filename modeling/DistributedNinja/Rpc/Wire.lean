import DistributedNinja.Rpc.Message

namespace DistributedNinja.Rpc

open Lib

/-- A base-128 varint of at most `width + 1` bytes, low groups first. -/
def writeVarint : Nat → Nat → List UInt8
  | 0, n => [UInt8.ofNat n]
  | width + 1, n =>
    if n < 128 then [UInt8.ofNat n] else UInt8.ofNat (n % 128 + 128) :: writeVarint width (n / 128)

def readVarint : List UInt8 → Option (Nat × List UInt8)
  | [] => none
  | byte :: rest =>
    if byte.toNat < 128 then some (byte.toNat, rest)
    else (readVarint rest).map fun found => (byte.toNat - 128 + 128 * found.1, found.2)

theorem readVarint_small {n : Nat} (small : n < 128) (rest : List UInt8) :
    readVarint (UInt8.ofNat n :: rest) = some (n, rest) := by
  have byte : (UInt8.ofNat n).toNat = n := by
    simp only [UInt8.toNat_ofNat']
    omega
  simp only [readVarint, byte, small, ↓reduceIte]

theorem readVarint_writeVarint (width n : Nat) (rest : List UInt8) (fits : n < 128 ^ (width + 1)) :
    readVarint (writeVarint width n ++ rest) = some (n, rest) := by
  induction width generalizing n with
  | zero => exact readVarint_small fits rest
  | succ width ih =>
    by_cases small : n < 128
    · simp only [writeVarint, small, ↓reduceIte]
      exact readVarint_small small rest
    · have byte : (UInt8.ofNat (n % 128 + 128)).toNat = n % 128 + 128 := by
        simp only [UInt8.toNat_ofNat']
        omega
      have quotient : n / 128 < 128 ^ (width + 1) := by
        apply Nat.div_lt_of_lt_mul
        rw [Nat.mul_comm, ← Nat.pow_succ]
        exact fits
      have continued : ¬ n % 128 + 128 < 128 := by omega
      simp only [writeVarint, small, ↓reduceIte, List.cons_append, readVarint, byte, continued,
        ih _ quotient, Option.map_some]
      congr 2
      omega

def writeField (tag : UInt8) (content : List UInt8) : List UInt8 :=
  tag :: (writeVarint 4 content.length ++ content)

def readField (tag : UInt8) : List UInt8 → Option (List UInt8 × List UInt8)
  | [] => none
  | byte :: rest =>
    if byte = tag then
      (readVarint rest).bind fun (length, rest) =>
        if length ≤ rest.length then some (rest.take length, rest.drop length) else none
    else none

theorem readField_writeField (tag : UInt8) (content rest : List UInt8)
    (size : content.length < kMaxMessageSize) :
    readField tag (writeField tag content ++ rest) = some (content, rest) := by
  have fits : content.length < 128 ^ (4 + 1) := Nat.lt_trans size (by decide)
  simp only [writeField, List.cons_append, readField, ↓reduceIte, List.append_assoc,
    readVarint_writeVarint 4 _ _ fits, Option.bind_some]
  rw [if_pos (by simp), List.take_left, List.drop_left]

def writeOptional (tag : UInt8) : Option (List UInt8) → List UInt8
  | none => []
  | some content => writeField tag content

def readOptional (tag : UInt8) (bytes : List UInt8) : Option (Option (List UInt8) × List UInt8) :=
  if bytes.head? = some tag then (readField tag bytes).map fun found => (some found.1, found.2)
  else some (none, bytes)

theorem readOptional_writeOptional (tag : UInt8) (content : Option (List UInt8)) (rest : List UInt8)
    (size : (content.getD []).length < kMaxMessageSize) (other : rest.head? ≠ some tag) :
    readOptional tag (writeOptional tag content ++ rest) = some (content, rest) := by
  cases content with
  | none => simp only [writeOptional, List.nil_append, readOptional, other, ↓reduceIte]
  | some content =>
    have read := readField_writeField tag content rest size
    rw [readOptional, if_pos (by simp [writeOptional, writeField]), writeOptional, read]
    rfl

def writeType : MessageType → UInt8
  | .request => 1
  | .response => 2

def readType : UInt8 → Option MessageType
  | 1 => some .request
  | 2 => some .response
  | _ => none

/-- `RpcMessage` as `rpc_message.proto` lays it out: fields in the order of their numbers. -/
def writeMessage (m : RpcMessage) : List UInt8 :=
  0x09 :: (bigEndianBytes 8 m.id.toNat).reverse ++ (0x10 :: writeType m.type ::
    (writeField 0x1A m.service ++ (writeField 0x22 m.method ++
      (writeOptional 0x2A m.request ++ writeOptional 0x32 m.response))))

def readId : List UInt8 → Option (UInt64 × List UInt8)
  | 0x09 :: rest =>
    if 8 ≤ rest.length then some (UInt64.ofNat (bigEndian (rest.take 8).reverse), rest.drop 8) else none
  | _ => none

def readMessage (bytes : List UInt8) : Option RpcMessage :=
  match readId bytes with
  | some (id, 0x10 :: type :: rest) =>
    (readType type).bind fun type =>
    (readField 0x1A rest).bind fun (service, rest) =>
    (readField 0x22 rest).bind fun (method, rest) =>
    (readOptional 0x2A rest).bind fun (request, rest) =>
    (readOptional 0x32 rest).bind fun (response, rest) =>
    if rest.isEmpty then some ⟨id, type, service, method, request, response⟩ else none
  | _ => none

theorem readId_write (id : UInt64) (rest : List UInt8) :
    readId (0x09 :: (bigEndianBytes 8 id.toNat).reverse ++ rest) = some (id, rest) := by
  have length : (bigEndianBytes 8 id.toNat).reverse.length = 8 := by simp
  have value : id.toNat % 256 ^ 8 = id.toNat := Nat.mod_eq_of_lt id.toNat_lt
  rw [List.cons_append, readId, if_pos (by simp), List.take_left' length, List.drop_left' length,
    List.reverse_reverse, bigEndian_bigEndianBytes, value, UInt64.ofNat_toNat]

theorem readMessage_writeMessage (m : RpcMessage) (size : (writeMessage m).length < kMaxMessageSize) :
    readMessage (writeMessage m) = some m := by
  have service : m.service.length < kMaxMessageSize := by
    simp only [writeMessage, writeField, List.length_append, List.length_cons] at size
    omega
  have method : m.method.length < kMaxMessageSize := by
    simp only [writeMessage, writeField, List.length_append, List.length_cons] at size
    omega
  have optional : ∀ tag content, (writeOptional tag content).length < kMaxMessageSize →
      (content.getD []).length < kMaxMessageSize := by
    intro tag content short
    cases content with
    | none => exact Nat.lt_of_le_of_lt (Nat.zero_le _) short
    | some content =>
      simp only [writeOptional, writeField, List.length_cons, List.length_append] at short
      simp only [Option.getD_some]
      omega
  have request := optional 0x2A m.request (by
    simp only [writeMessage, List.length_append, List.length_cons] at size
    omega)
  have response := optional 0x32 m.response (by
    simp only [writeMessage, List.length_append, List.length_cons] at size
    omega)
  have type : readType (writeType m.type) = some m.type := by
    cases m.type <;> rfl
  have next : (writeOptional 0x32 m.response).head? ≠ some 0x2A := by
    cases m.response <;> simp [writeOptional, writeField]
  have last := readOptional_writeOptional 0x32 m.response [] response (by simp)
  rw [List.append_nil] at last
  rw [readMessage, writeMessage, readId_write]
  simp only [type, Option.bind_some, readField_writeField _ _ _ service,
    readField_writeField _ _ _ method, readOptional_writeOptional _ _ _ request next, last,
    List.isEmpty_nil, ↓reduceIte]

def wireFormat : Protobuf where
  serializeAsString := writeMessage
  parseFromArray memory size :=
    if 0 ≤ size ∧ size.toNat ≤ memory.length then readMessage (memory.take size.toNat) else none
  parse_serialize m rest size := by
    rw [if_pos (by simp), Int.toNat_natCast, List.take_left]
    exact readMessage_writeMessage m size
  serialize_ne_nil m := by simp [writeMessage]

end DistributedNinja.Rpc
