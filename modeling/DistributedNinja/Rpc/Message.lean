import DistributedNinja.Lib.BigEndian
import DistributedNinja.Rpc.QueuedWriteIOBuffer

namespace DistributedNinja.Rpc

open Lib

inductive MessageType where
  | request
  | response
  deriving DecidableEq, Repr

structure RpcMessage where
  id : UInt64
  type : MessageType
  service : List UInt8
  method : List UInt8
  request : Option (List UInt8)
  response : Option (List UInt8)
  deriving DecidableEq, Repr

abbrev Parser := List UInt8 → Int → Option RpcMessage

/-- `coded_stream.h` puts the shortest message that may overflow its integers at 512 MB. -/
def kMaxMessageSize : Nat := 512 * 1024 * 1024

/-- What the connection relies on of the protobuf runtime: serializing gives bytes that parse back,
    whatever follows them in memory, and required fields make those bytes non-empty. -/
structure Protobuf where
  serializeAsString : RpcMessage → List UInt8
  parseFromArray : Parser
  parse_serialize : ∀ m rest, (serializeAsString m).length < kMaxMessageSize →
    parseFromArray (serializeAsString m ++ rest) (serializeAsString m).length = some m
  serialize_ne_nil : ∀ m, serializeAsString m ≠ []

def Protobuf.Sendable (pb : Protobuf) : Type :=
  { m : RpcMessage // (pb.serializeAsString m).length < kMaxMessageSize }

def Protobuf.frame (pb : Protobuf) (m : RpcMessage) : List UInt8 :=
  writeBigEndian (UInt32.ofNat (pb.serializeAsString m).length) ++ pb.serializeAsString m

theorem Protobuf.frame_length (pb : Protobuf) (m : RpcMessage) :
    (pb.frame m).length = 4 + (pb.serializeAsString m).length := by
  simp [Protobuf.frame]

end DistributedNinja.Rpc
