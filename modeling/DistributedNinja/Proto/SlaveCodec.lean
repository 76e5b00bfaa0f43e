import DistributedNinja.Proto.SlaveServices

namespace DistributedNinja.Proto

open Rpc

/-- The code protoc generates for `RunCommand` on both sides: what is parsed from the bytes of a message is that
    message, and no other method has the name. -/
structure SlaveCodec extends SlaveService where
  parseRequest : List UInt8 → RunCommandRequest
  serializeResponse : RunCommandResponse → List UInt8
  parse_request : ∀ request, (runCommandRequest request).length < kMaxMessageSize →
    parseRequest (runCommandRequest request) = request
  parse_response : ∀ response, (serializeResponse response).length < kMaxMessageSize →
    runCommandResponse (serializeResponse response) = response
  apart : ∀ method, methodName method = methodName .runCommand → method = .runCommand

theorem readChars_encoded (chars : List Char) {fuel : Nat} (enough : chars.length ≤ fuel) :
    readChars fuel (chars.flatMap String.utf8EncodeChar) = chars := by
  induction chars generalizing fuel with
  | nil => cases fuel <;> rfl
  | cons c chars ih =>
    cases fuel with
    | zero => cases enough
    | succ fuel =>
      have decoded : (String.utf8EncodeChar c ++ chars.flatMap String.utf8EncodeChar).toByteArray.utf8DecodeChar? 0 =
          some c := by
        rw [List.toByteArray_append, ByteArray.utf8DecodeChar?_utf8EncodeChar_append]
      rw [List.flatMap_cons, readChars, decoded]
      show c :: readChars fuel (List.drop c.utf8Size _) = _
      rw [← String.length_utf8EncodeChar, List.drop_left, ih (Nat.le_of_succ_le_succ enough)]

theorem length_le_textBytes (chars : List Char) : chars.length ≤ (chars.flatMap String.utf8EncodeChar).length := by
  induction chars with
  | nil => exact Nat.le_refl 0
  | cons c chars ih =>
    rw [List.flatMap_cons, List.length_append, List.length_cons, String.length_utf8EncodeChar]
    have := c.utf8Size_pos
    omega

theorem readText_textBytes (value : String) : readText (textBytes value) = value := by
  rw [readText, textBytes, readChars_encoded _ (length_le_textBytes _), String.ofList_toList]

def readRepeated (tag : UInt8) : Nat → List UInt8 → List (List UInt8) × List UInt8
  | 0, bytes => ([], bytes)
  | fuel + 1, bytes =>
    match readField tag bytes with
    | none => ([], bytes)
    | some (content, rest) => (content :: (readRepeated tag fuel rest).1, (readRepeated tag fuel rest).2)

theorem readField_other {tag : UInt8} {rest : List UInt8} (other : rest.head? ≠ some tag) :
    readField tag rest = none := by
  cases rest with
  | nil => rfl
  | cons byte rest => rw [readField, if_neg fun same => other (congrArg some same)]

theorem readRepeated_written (tag : UInt8) {contents : List (List UInt8)} {rest : List UInt8} {fuel : Nat}
    (sizes : ∀ content ∈ contents, content.length < kMaxMessageSize) (other : rest.head? ≠ some tag)
    (enough : contents.length ≤ fuel) :
    readRepeated tag fuel (contents.flatMap (writeField tag) ++ rest) = (contents, rest) := by
  induction contents generalizing fuel with
  | nil =>
    cases fuel with
    | zero => rfl
    | succ fuel =>
      rw [List.flatMap_nil, List.nil_append, readRepeated, readField_other other]
  | cons content contents ih =>
    cases fuel with
    | zero => cases enough
    | succ fuel =>
      have first := sizes content List.mem_cons_self
      have later := ih (fun content member => sizes content (List.mem_cons_of_mem _ member))
        (Nat.le_of_succ_le_succ enough)
      rw [List.flatMap_cons, List.append_assoc, readRepeated, readField_writeField tag content _ first]
      show (content :: (readRepeated tag fuel _).1, (readRepeated tag fuel _).2) = _
      rw [later]

theorem length_le_fields (tag : UInt8) (contents : List (List UInt8)) :
    contents.length ≤ (contents.flatMap (writeField tag)).length ∧
      ∀ content ∈ contents, content.length ≤ (contents.flatMap (writeField tag)).length := by
  induction contents with
  | nil => exact ⟨Nat.le_refl 0, nofun⟩
  | cons first contents ih =>
    simp only [List.flatMap_cons, List.length_append, List.length_cons, writeField, List.forall_mem_cons]
    refine ⟨by omega, by omega, ?_⟩
    intro content member
    have := ih.2 content member
    omega

def writeRequest (request : RunCommandRequest) : List UInt8 :=
  0x10 :: (writeVarint 4 request.edgeId.toNat ++ ((request.outputPaths.map textBytes).flatMap (writeField 0x1A) ++
    (writeOptional 0x22 (request.rspfile.map fun file => textBytes file.1) ++
      writeOptional 0x2A (request.rspfile.map fun file => textBytes file.2))))

def readRequest : List UInt8 → Option RunCommandRequest
  | 0x10 :: rest =>
    (readVarint rest).bind fun (edgeId, rest) =>
    let (paths, rest) := readRepeated 0x1A rest.length rest
    (readOptional 0x22 rest).bind fun (name, rest) =>
    (readOptional 0x2A rest).map fun (content, _) =>
    ⟨UInt32.ofNat edgeId, paths.map readText,
      name.map fun name => (readText name, readText (content.getD []))⟩
  | _ => none

def writeStatus : RunCommandStatus → Nat
  | .kExitSuccess => 0
  | .kExitFailure => 1
  | .kExitInterrupted => 2

def writeResponse (response : RunCommandResponse) : List UInt8 :=
  0x08 :: (writeVarint 4 (writeStatus response.status) ++ (writeField 0x12 (textBytes response.output) ++
    (0x18 :: (writeVarint 4 response.edgeId.toNat ++ (response.md5.map textBytes).flatMap (writeField 0x22)))))

def readResponse : List UInt8 → Option RunCommandResponse
  | 0x08 :: rest =>
    (readVarint rest).bind fun (status, rest) =>
    (readField 0x12 rest).bind fun (output, rest) =>
    match rest with
    | 0x18 :: rest =>
      (readVarint rest).map fun (edgeId, rest) =>
        ⟨readStatus status, readText output, UInt32.ofNat edgeId, (readRepeated 0x22 rest.length rest).1.map readText⟩
    | _ => none
  | _ => none

theorem readVarint_uint32 (n : UInt32) (rest : List UInt8) :
    readVarint (writeVarint 4 n.toNat ++ rest) = some (n.toNat, rest) :=
  readVarint_writeVarint 4 n.toNat rest (Nat.lt_trans n.toNat_lt (by decide))

theorem map_readText (values : List String) : (values.map textBytes).map readText = values := by
  rw [List.map_map]
  exact (List.map_congr_left fun value _ => readText_textBytes value).trans (List.map_id values)

theorem optional_size {tag : UInt8} {content : Option (List UInt8)} {bound : Nat}
    (short : (writeOptional tag content).length < bound) : (content.getD []).length < bound := by
  cases content with
  | none => exact Nat.lt_of_le_of_lt (Nat.zero_le _) short
  | some content =>
    simp only [writeOptional, writeField, List.length_cons, List.length_append] at short
    simp only [Option.getD_some]
    omega

theorem head_writeOptional {tag other : UInt8} (apart : tag ≠ other) (content : Option (List UInt8))
    {rest : List UInt8} (later : rest.head? ≠ some other) : (writeOptional tag content ++ rest).head? ≠ some other := by
  cases content with
  | none => exact later
  | some content => simpa [writeOptional, writeField] using apart

theorem readRequest_writeRequest (request : RunCommandRequest)
    (size : (writeRequest request).length < kMaxMessageSize) : readRequest (writeRequest request) = some request := by
  obtain ⟨edgeId, outputPaths, rspfile⟩ := request
  generalize namePart : rspfile.map (fun file => textBytes file.1) = name
  generalize contentPart : rspfile.map (fun file => textBytes file.2) = content
  obtain ⟨count, each⟩ := length_le_fields 0x1A (outputPaths.map textBytes)
  simp only [writeRequest, namePart, contentPart, List.length_cons, List.length_append] at size
  have last : (writeOptional 0x2A content).head? ≠ some 0x22 := by
    cases content <;> simp [writeOptional, writeField]
  have later : (writeOptional 0x22 name ++ writeOptional 0x2A content).head? ≠ some 0x1A :=
    head_writeOptional (by decide) name (by cases content <;> simp [writeOptional, writeField])
  have sizes : ∀ path ∈ outputPaths.map textBytes, path.length < kMaxMessageSize := by
    intro path member
    have := each path member
    omega
  have nameSize : (writeOptional 0x22 name).length < kMaxMessageSize := by omega
  have contentSize : (writeOptional 0x2A content).length < kMaxMessageSize := by omega
  have readName := readOptional_writeOptional 0x22 name (writeOptional 0x2A content)
    (optional_size nameSize) last
  have readContent := readOptional_writeOptional 0x2A content [] (optional_size contentSize) (by simp)
  rw [List.append_nil] at readContent
  have readPaths := readRepeated_written 0x1A sizes later (Nat.le_trans count (Nat.le_add_right _
    (writeOptional 0x22 name ++ writeOptional 0x2A content).length))
  rw [← List.length_append] at readPaths
  rw [writeRequest, readRequest, namePart, contentPart, readVarint_uint32]
  simp only [Option.bind_some, readPaths, readName, readContent, Option.map_some, UInt32.ofNat_toNat, map_readText]
  rw [← namePart, ← contentPart]
  cases rspfile with
  | none => rfl
  | some file => simp only [Option.map_some, Option.getD_some, readText_textBytes]

theorem readResponse_writeResponse (response : RunCommandResponse)
    (size : (writeResponse response).length < kMaxMessageSize) :
    readResponse (writeResponse response) = some response := by
  obtain ⟨status, output, edgeId, md5⟩ := response
  obtain ⟨count, each⟩ := length_le_fields 0x22 (md5.map textBytes)
  simp only [writeResponse, writeField, List.length_cons, List.length_append] at size
  have sizes : ∀ digest ∈ md5.map textBytes, digest.length < kMaxMessageSize := by
    intro digest member
    have := each digest member
    omega
  have small : writeStatus status < 128 ^ (4 + 1) := by cases status <;> decide
  have known : readStatus (writeStatus status) = status := by cases status <;> rfl
  have ends : ([] : List UInt8).head? ≠ some 0x22 := by simp
  have readDigests := readRepeated_written 0x22 sizes ends count
  rw [List.append_nil] at readDigests
  rw [writeResponse, readResponse, readVarint_writeVarint 4 _ _ small]
  simp only [Option.bind_some, readField_writeField 0x12 (textBytes output) _ (by omega), readVarint_uint32,
    Option.map_some, readDigests, UInt32.ofNat_toNat, map_readText, known, readText_textBytes]

/-- `slave_services.proto` on the wire. A request or response is read when its fields stand as this code writes them. -/
def slaveCodec : SlaveCodec where
  toSlaveService := { slaveServices with
    runCommandRequest := writeRequest
    runCommandResponse := fun bytes => (readResponse bytes).getD ⟨.kExitSuccess, "", 0, []⟩ }
  parseRequest bytes := (readRequest bytes).getD ⟨0, [], none⟩
  serializeResponse := writeResponse
  parse_request request size := by rw [readRequest_writeRequest request size, Option.getD_some]
  parse_response response size := by
    show (readResponse (writeResponse response)).getD _ = _
    rw [readResponse_writeResponse response size, Option.getD_some]
  apart method same := by
    cases method with
    | runCommand => rfl
    | systemInfo | getStatus | quit => exact absurd same (by decide +kernel)

end DistributedNinja.Proto
