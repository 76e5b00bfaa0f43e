import DistributedNinja.Rpc.Wire

namespace DistributedNinja.Proto

open Rpc

inductive ExitStatus where
  | success
  | failure
  | interrupted
  deriving DecidableEq, Repr

inductive RunCommandStatus where
  | kExitSuccess
  | kExitFailure
  | kExitInterrupted
  deriving DecidableEq, Repr

structure RunCommandRequest where
  edgeId : UInt32
  outputPaths : List String
  rspfile : Option (String × String)

structure RunCommandResponse where
  status : RunCommandStatus
  output : String
  edgeId : UInt32
  md5 : List String

structure SystemInfoResponse where
  numberOfProcessors : Int
  amountOfPhysicalMemory : Int
  amountOfVirtualMemory : Int
  operatingSystemName : String
  operatingSystemVersion : String
  operatingSystemArchitecture : String

/-- `loadAverage` holds the bits of a `double` that is only passed on. -/
structure StatusResponse where
  loadAverage : UInt64
  amountOfRunningCommands : Int
  amountOfAvailablePhysicalMemory : Int

inductive SlaveMethod where
  | systemInfo
  | runCommand
  | getStatus
  | quit
  deriving DecidableEq

/-- The code protoc generates for `slave_services.proto`. A response that does not parse keeps the fields it
    got as far as, so reading one always gives a value. -/
structure SlaveService where
  fullName : List UInt8
  methodName : SlaveMethod → List UInt8
  systemInfoRequest : List UInt8
  statusRequest : List UInt8
  runCommandRequest : RunCommandRequest → List UInt8
  quitRequest : String → List UInt8
  systemInfoResponse : List UInt8 → SystemInfoResponse
  runCommandResponse : List UInt8 → RunCommandResponse
  statusResponse : List UInt8 → StatusResponse

inductive WireValue where
  | varint (n : Nat)
  | fixed64 (bytes : List UInt8)
  | delimited (content : List UInt8)

/-- The fields of a message up to the first that cannot be read. -/
def readFields : Nat → List UInt8 → List (Nat × WireValue)
  | 0, _ => []
  | fuel + 1, bytes =>
    match readVarint bytes with
    | none => []
    | some (key, rest) =>
      match key % 8 with
      | 0 =>
        match readVarint rest with
        | none => []
        | some (n, rest) => (key / 8, .varint n) :: readFields fuel rest
      | 1 =>
        if 8 ≤ rest.length then (key / 8, .fixed64 (rest.take 8)) :: readFields fuel (rest.drop 8) else []
      | 2 =>
        match readVarint rest with
        | none => []
        | some (length, rest) =>
          if length ≤ rest.length then
            (key / 8, .delimited (rest.take length)) :: readFields fuel (rest.drop length)
          else []
      | _ => []

def fieldsOf (bytes : List UInt8) : List (Nat × WireValue) := readFields bytes.length bytes

def varintField (number : Nat) (fields : List (Nat × WireValue)) : Nat :=
  fields.foldl (fun found field =>
    match field with
    | (k, .varint n) => if k = number then n else found
    | _ => found) 0

def textBytes (value : String) : List UInt8 := value.toList.flatMap String.utf8EncodeChar

def readChars : Nat → List UInt8 → List Char
  | 0, _ => []
  | fuel + 1, bytes =>
    match bytes.toByteArray.utf8DecodeChar? 0 with
    | none => []
    | some c => c :: readChars fuel (bytes.drop c.utf8Size)

def readText (bytes : List UInt8) : String := String.ofList (readChars bytes.length bytes)

def textFields (number : Nat) (fields : List (Nat × WireValue)) : List String :=
  fields.filterMap fun field =>
    match field with
    | (k, .delimited content) => if k = number then some (readText content) else none
    | _ => none

def textField (number : Nat) (fields : List (Nat × WireValue)) : String :=
  (textFields number fields).getLast?.getD ""

def fixed64Field (number : Nat) (fields : List (Nat × WireValue)) : UInt64 :=
  fields.foldl (fun found field =>
    match field with
    | (k, .fixed64 bytes) => if k = number then UInt64.ofNat (Lib.bigEndian bytes.reverse) else found
    | _ => found) 0

def int64 (n : Nat) : Int := (BitVec.ofNat 64 n).toInt

def writeText (tag : UInt8) (value : String) : List UInt8 := writeField tag (textBytes value)

def readStatus : Nat → RunCommandStatus
  | 1 => .kExitFailure
  | 2 => .kExitInterrupted
  | _ => .kExitSuccess

def slaveServices : SlaveService where
  fullName := "slave.SlaveService".toUTF8.toList
  methodName
    | .systemInfo => "SystemInfo".toUTF8.toList
    | .runCommand => "RunCommand".toUTF8.toList
    | .getStatus => "GetStatus".toUTF8.toList
    | .quit => "Quit".toUTF8.toList
  systemInfoRequest := []
  statusRequest := []
  runCommandRequest request :=
    0x10 :: writeVarint 4 request.edgeId.toNat ++ (request.outputPaths.flatMap (writeText 0x1A) ++
      match request.rspfile with
      | none => []
      | some (name, content) => writeText 0x22 name ++ writeText 0x2A content)
  quitRequest reason := writeText 0x0A reason
  systemInfoResponse bytes :=
    let fields := fieldsOf bytes
    { numberOfProcessors := castInt (varintField 1 fields)
      amountOfPhysicalMemory := int64 (varintField 2 fields)
      amountOfVirtualMemory := int64 (varintField 3 fields)
      operatingSystemName := textField 4 fields
      operatingSystemVersion := textField 5 fields
      operatingSystemArchitecture := textField 6 fields }
  runCommandResponse bytes :=
    let fields := fieldsOf bytes
    { status := readStatus (varintField 1 fields)
      output := textField 2 fields
      edgeId := UInt32.ofNat (varintField 3 fields)
      md5 := textFields 4 fields }
  statusResponse bytes :=
    let fields := fieldsOf bytes
    { loadAverage := fixed64Field 1 fields
      amountOfRunningCommands := castInt (varintField 2 fields)
      amountOfAvailablePhysicalMemory := int64 (varintField 3 fields) }

end DistributedNinja.Proto
