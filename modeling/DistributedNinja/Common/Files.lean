import DistributedNinja.Lib.Digest

namespace DistributedNinja.Common

open Lib

abbrev Files := String → Option (List UInt8)

/-- What the slave finds when it makes the digest of an output: whether the path exists and can be opened, what
    each `Read` gave, and whether the last one failed. -/
structure OutputFile where
  pathExists : Bool
  valid : Bool
  reads : List (List UInt8)
  failed : Bool

namespace OutputFile

def getMd5Digest (md5 : Digest) (file : OutputFile) : String :=
  if !file.valid then ""
  else if file.failed then ""
  else md5.final (file.reads.foldl md5.update md5.init)

def reported (md5 : Digest) (file : OutputFile) : String :=
  if file.pathExists then file.getMd5Digest md5 else ""

def content (file : OutputFile) : Option (List UInt8) :=
  if file.pathExists && file.valid && !file.failed then some file.reads.flatten else none

theorem reported_of_content {md5 : Digest} {file : OutputFile} {bytes : List UInt8}
    (read : file.content = some bytes) : file.reported md5 = md5.of bytes := by
  obtain ⟨pathExists, valid, reads, failed⟩ := file
  cases pathExists <;> cases valid <;> cases failed <;> cases read
  exact md5.final_chunks reads

theorem reported_eq_empty {md5 : Digest} {file : OutputFile} :
    file.reported md5 = "" ↔ file.content = none := by
  cases read : file.content with
  | some bytes =>
    rw [reported_of_content read]
    simp [md5.of_nonempty]
  | none =>
    obtain ⟨pathExists, valid, reads, failed⟩ := file
    cases pathExists <;> cases valid <;> cases failed <;>
      simp_all [reported, getMd5Digest, content]

end OutputFile

def kMd5DigestBufferSize : Nat := 512 * 1024

/-- The loop of `GetMd5Digest` from an offset on, over what the calls of `Read` return for a file with this
    content; `none` when the calls end before the loop does. -/
def readLoop (md5 : Digest) (content : List UInt8) : List Int → Nat → md5.Context → Option String
  | [], _, _ => none
  | result :: results, offset, context =>
    if result < 0 then some ""
    else if result = 0 then some (md5.final context)
    else
      let buffer := (content.drop offset).take result.toNat
      readLoop md5 content results (offset + result.toNat) (md5.update context buffer)

/-- A `Read` that does not fail fills some of the buffer with what comes next, and none of it at the end only. -/
inductive Reads (content : List UInt8) : Nat → List Int → Prop
  | atEnd (offset : Nat) : content.length ≤ offset → Reads content offset [0]
  | filled (offset size : Nat) (results : List Int) : 0 < size → size ≤ kMd5DigestBufferSize →
      offset + size ≤ content.length → Reads content (offset + size) results →
      Reads content offset (size :: results)

def buffers (content : List UInt8) : List Int → Nat → List (List UInt8)
  | [], _ => []
  | result :: results, offset =>
    if result ≤ 0 then []
    else (content.drop offset).take result.toNat :: buffers content results (offset + result.toNat)

variable {md5 : Digest} {content : List UInt8} {offset : Nat} {results : List Int}

theorem Reads.flatten_buffers (reads : Reads content offset results) :
    (buffers content results offset).flatten = content.drop offset := by
  induction reads with
  | atEnd offset finished =>
    rw [List.drop_of_length_le finished]
    rfl
  | filled offset size results positive _ _ _ ih =>
    have more : ¬ (size : Int) ≤ 0 := by omega
    rw [buffers, if_neg more, Int.toNat_natCast, List.flatten_cons, ih, ← List.drop_drop]
    exact List.take_append_drop size (content.drop offset)

theorem Reads.readLoop_eq (reads : Reads content offset results) (context : md5.Context) :
    readLoop md5 content results offset context =
      some (md5.final ((buffers content results offset).foldl md5.update context)) := by
  induction reads generalizing context with
  | atEnd offset _ => rfl
  | filled offset size results positive _ _ _ ih =>
    have notFailed : ¬ (size : Int) < 0 := by omega
    have notAtEnd : ¬ (size : Int) = 0 := by omega
    have more : ¬ (size : Int) ≤ 0 := by omega
    rw [readLoop, if_neg notFailed, if_neg notAtEnd, buffers, if_neg more, List.foldl_cons]
    exact ih _

theorem Reads.readLoop_eq_getMd5Digest (reads : Reads content 0 results) :
    readLoop md5 content results 0 md5.init =
      some (OutputFile.getMd5Digest md5 ⟨true, true, buffers content results 0, false⟩) :=
  reads.readLoop_eq md5.init

theorem Reads.readLoop_eq_of (reads : Reads content 0 results) :
    readLoop md5 content results 0 md5.init = some (md5.of content) := by
  rw [reads.readLoop_eq, md5.final_chunks, reads.flatten_buffers, List.drop_zero]

end DistributedNinja.Common
