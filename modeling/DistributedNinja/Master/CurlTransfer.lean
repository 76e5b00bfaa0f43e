import DistributedNinja.Lib.Run
import DistributedNinja.Master.CurlHelper

namespace DistributedNinja.Master

open Lib Common

structure WriteCall where
  data : List UInt8
  returned : Int

def WriteCall.complete (call : WriteCall) : Bool := call.returned = call.data.length

structure OpenFile where
  path : String
  position : Nat

structure CurlHelper (md5 : Digest) where
  md5Context : md5.Context
  file : Option OpenFile

/-- What happens outside of the program during one `Get`: whether there is a directory, whether the old file was
    deleted and the new one created, the calls curl has to make, and whether the transfer succeeds if curl can
    make them all. -/
structure Transfer where
  directory : Bool
  deleted : Bool
  created : Bool
  calls : List WriteCall
  succeeds : Bool

namespace OpenFile

def writeAtCurrentPos (file : OpenFile) (call : WriteCall) (files : Files) : OpenFile × Files :=
  let bytes := call.data.take call.returned.toNat
  let old := (files file.path).getD []
  let new := old.take file.position ++ bytes ++ old.drop (file.position + bytes.length)
  ({ file with position := file.position + bytes.length }, Function.update files file.path (some new))

end OpenFile

namespace CurlHelper

variable {md5 : Digest}

/-- The constructor leaves the context as it is. -/
def new (md5Context : md5.Context) : CurlHelper md5 := ⟨md5Context, none⟩

def writeData (h : CurlHelper md5) (call : WriteCall) (files : Files) : CurlHelper md5 × Files :=
  let context := md5.update h.md5Context call.data
  match h.file with
  | none => ({ h with md5Context := context }, files)
  | some file =>
    let (file, files) := file.writeAtCurrentPos call files
    (⟨context, some file⟩, files)

/-- `curl_easy_perform`: curl gives up when a call does not return the size of its data. -/
def perform (h : CurlHelper md5) (files : Files) : List WriteCall → Bool → Bool × CurlHelper md5 × Files
  | [], succeeds => (succeeds, h, files)
  | call :: rest, succeeds =>
    let (h, files) := h.writeData call files
    if call.complete then h.perform files rest succeeds else (false, h, files)

def receive (h : CurlHelper md5) (transfer : Transfer) (files : Files) : String × CurlHelper md5 × Files :=
  if h.file.isSome then
    match h.perform files transfer.calls transfer.succeeds with
    | (true, h, files) => (md5.final h.md5Context, { h with file := none }, files)
    | (false, h, files) => ("", h, files)
  else ("", h, files)

/-- `none` when the `CHECK` on the directory fails. -/
def get (h : CurlHelper md5) (path : String) (transfer : Transfer) (files : Files) :
    Option (String × CurlHelper md5 × Files) :=
  let h := { h with md5Context := md5.init }
  if transfer.directory then
    let files := if transfer.deleted then Function.update files path none else files
    let h := if transfer.created then { h with file := some ⟨path, 0⟩ } else h
    let files := if transfer.created then Function.update files path (some []) else files
    some (h.receive transfer files)
  else none

end CurlHelper

namespace Transfer

def made : List WriteCall → List WriteCall
  | [] => []
  | call :: rest => call :: if call.complete then made rest else []

def performed (transfer : Transfer) : Bool := transfer.succeeds && transfer.calls.all WriteCall.complete

theorem mem_of_made {calls : List WriteCall} {call : WriteCall} (member : call ∈ made calls) : call ∈ calls := by
  induction calls with
  | nil => cases member
  | cons first rest ih =>
    rw [made] at member
    split at member
    · rcases List.mem_cons.mp member with rfl | member
      · exact List.mem_cons_self
      · exact List.mem_cons_of_mem _ (ih member)
    · rw [List.mem_singleton.mp member]
      exact List.mem_cons_self

theorem made_of_complete {calls : List WriteCall} (complete : calls.all WriteCall.complete = true) :
    made calls = calls := by
  induction calls with
  | nil => rfl
  | cons first rest ih =>
    rw [List.all_cons, Bool.and_eq_true] at complete
    rw [made, if_pos complete.1, ih complete.2]

def download (transfer : Transfer) : Download where
  directory := transfer.directory
  deleted := transfer.deleted
  valid := transfer.created
  chunks := (made transfer.calls).map fun call => ⟨call.data, call.returned.toNat⟩
  performed := transfer.performed
  written := by
    intro performed chunk member
    obtain ⟨call, made, rfl⟩ := List.mem_map.mp member
    have complete := List.all_eq_true.mp (Bool.and_eq_true_iff.mp performed).2 call (mem_of_made made)
    have size : call.returned = call.data.length := of_decide_eq_true complete
    show call.returned.toNat = call.data.length
    rw [size, Int.toNat_natCast]

end Transfer

namespace CurlHelper

variable {md5 : Digest} {h : CurlHelper md5} {files : Files} {path : String} {written : List UInt8}

theorem perform_spec (calls : List WriteCall) (succeeds : Bool) (context : md5.Context)
    (content : files path = some written) :
    ∃ position, (⟨context, some ⟨path, written.length⟩⟩ : CurlHelper md5).perform files calls succeeds =
      (succeeds && calls.all WriteCall.complete,
        ⟨((Transfer.made calls).map WriteCall.data).foldl md5.update context, some ⟨path, position⟩⟩,
        Function.update files path (some (written ++
          ((Transfer.made calls).map fun call => call.data.take call.returned.toNat).flatten))) := by
  induction calls generalizing files written context with
  | nil =>
    refine ⟨written.length, ?_⟩
    rw [perform, Transfer.made, List.map_nil, List.map_nil, List.flatten_nil, List.append_nil, ← content,
      Function.update_eq_self]
    simp
  | cons call rest ih =>
    have wrote : (⟨context, some ⟨path, written.length⟩⟩ : CurlHelper md5).writeData call files =
        (⟨md5.update context call.data, some ⟨path, (written ++ call.data.take call.returned.toNat).length⟩⟩,
          Function.update files path (some (written ++ call.data.take call.returned.toNat))) := by
      have beyond : ∀ size, written.drop (written.length + size) = [] :=
        fun size => List.drop_of_length_le (Nat.le_add_right _ _)
      simp [writeData, OpenFile.writeAtCurrentPos, content, beyond]
    rw [perform, wrote, Transfer.made]
    by_cases complete : call.complete = true
    · obtain ⟨position, later⟩ := ih (md5.update context call.data)
        (Function.update_self path (some (written ++ call.data.take call.returned.toNat)) files)
      refine ⟨position, ?_⟩
      dsimp only
      rw [if_pos complete, if_pos complete, later, Function.update_idem]
      simp [complete]
    · refine ⟨(written ++ call.data.take call.returned.toNat).length, ?_⟩
      dsimp only
      rw [if_neg complete, if_neg complete]
      simp [complete]

/-- A helper without an open file does what `curlGet` does, whatever its context is. -/
theorem get_eq_curlGet (closed : h.file = none) (transfer : Transfer) (files : Files) :
    (h.get path transfer files).map (fun got => (got.1, got.2.2)) = curlGet md5 path transfer.download files := by
  unfold get curlGet receive
  by_cases directory : transfer.directory = true
  · by_cases created : transfer.created = true
    · simp only [directory, created, closed, if_true, Option.isSome_some, Transfer.download]
      obtain ⟨position, performed⟩ := perform_spec transfer.calls transfer.succeeds md5.init
        (Function.update_self path (some []) (if transfer.deleted then Function.update files path none else files))
      rw [List.length_nil] at performed
      rw [performed, Function.update_idem]
      cases done : transfer.succeeds && transfer.calls.all WriteCall.complete <;>
        simp [done, Transfer.performed, Download.inFile, Function.comp_def]
    · simp [directory, created, closed, Transfer.download]
  · simp [directory, Transfer.download]

variable {transfer : Transfer} {after : Files} {digest : String} {g : CurlHelper md5}

theorem receive_closes (received : h.receive transfer files = (digest, g, after)) (nonempty : digest ≠ "") :
    g.file = none := by
  unfold receive at received
  split at received
  · split at received
    · cases received
      rfl
    · cases received
      exact absurd rfl nonempty
  · cases received
    exact absurd rfl nonempty

theorem get_closes (got : h.get path transfer files = some (digest, g, after)) (nonempty : digest ≠ "") :
    g.file = none := by
  unfold get at got
  by_cases directory : transfer.directory = true
  · rw [if_pos directory] at got
    exact receive_closes (Option.some.inj got) nonempty
  · rw [if_neg directory] at got
    cases got

end CurlHelper

structure GetCall where
  path : String
  transfer : Transfer

namespace CurlHelper

variable {md5 : Digest}

def succeed (state : CurlHelper md5 × Files) (call : GetCall) : Option (CurlHelper md5 × Files) :=
  match state.1.get call.path call.transfer state.2 with
  | some (digest, h, files) => if digest = "" then none else some (h, files)
  | none => none

theorem succeed_closes {s t : CurlHelper md5 × Files} {call : GetCall} (succeeded : succeed s call = some t) :
    t.1.file = none := by
  unfold succeed at succeeded
  split at succeeded
  · rename_i digest h files got
    split at succeeded
    · cases succeeded
    · rename_i nonempty
      cases succeeded
      exact get_closes got nonempty
  · cases succeeded

theorem run_closed {context : md5.Context} {before after : Files} {h : CurlHelper md5} {earlier : List GetCall}
    (successful : run succeed (new context, before) earlier = some (h, after)) : h.file = none := by
  have preserved : ∀ (s : CurlHelper md5 × Files) call t, s.1.file = none → succeed s call = some t →
      t.1.file = none := fun _ _ _ _ succeeded => succeed_closes succeeded
  exact run_invariant preserved rfl successful

end CurlHelper

namespace Transfer

/-- All bytes of the source arrive, and curl writes all of them. -/
structure Brings (transfer : Transfer) (source : List UInt8) : Prop where
  directory : transfer.directory = true
  created : transfer.created = true
  succeeds : transfer.succeeds = true
  complete : ∀ call ∈ transfer.calls, call.complete = true
  arrived : (transfer.calls.map WriteCall.data).flatten = source

variable {transfer : Transfer} {source : List UInt8}

theorem Brings.performed (brings : transfer.Brings source) : transfer.performed = true :=
  Bool.and_eq_true_iff.mpr ⟨brings.succeeds, List.all_eq_true.mpr brings.complete⟩

theorem Brings.body (brings : transfer.Brings source) : transfer.download.body = source := by
  show (((made transfer.calls).map fun call => (⟨call.data, call.returned.toNat⟩ : Chunk)).map
    Chunk.data).flatten = source
  rw [made_of_complete (List.all_eq_true.mpr brings.complete), List.map_map]
  exact brings.arrived

theorem Brings.outcome (brings : transfer.Brings source) (md5 : Digest) :
    transfer.download.outcome md5 = md5.of source := by
  have valid : transfer.download.valid = true := brings.created
  have performed : transfer.download.performed = true := brings.performed
  rw [Download.outcome, valid, performed, brings.body]
  rfl

end Transfer

/-- However the source is cut on the slave and on the master, a `Get` after any number of successful ones brings
    the source and the digest of the slave, or fails, and it does what a new helper does. -/
theorem transfers_agree (md5 : Digest) (context : md5.Context) (before : Files) (earlier : List GetCall)
    (h : CurlHelper md5) (files : Files)
    (successful : run CurlHelper.succeed (.new context, before) earlier = some (h, files))
    (path : String) (transfer : Transfer) :
    (∀ source results, transfer.Brings source → Reads source 0 results →
      ∃ digest g after, h.get path transfer files = some (digest, g, after) ∧
        readLoop md5 source results 0 md5.init = some digest ∧ after path = some source) ∧
    (∀ digest g after, h.get path transfer files = some (digest, g, after) →
      (∃ call ∈ transfer.calls, call.returned ≠ call.data.length) ∨ transfer.succeeds = false → digest = "") ∧
    ∀ start : md5.Context, (h.get path transfer files).map (fun got => (got.1, got.2.2)) =
      ((CurlHelper.new start).get path transfer files).map fun got => (got.1, got.2.2) := by
  have closed := CurlHelper.run_closed successful
  have same : (h.get path transfer files).map (fun got => (got.1, got.2.2)) =
      curlGet md5 path transfer.download files := CurlHelper.get_eq_curlGet closed transfer files
  refine ⟨?_, ?_, ?_⟩
  · intro source results brings reads
    have directory : transfer.download.directory = true := brings.directory
    obtain ⟨after, downloaded⟩ := curlGet_defined md5 path files directory
    rw [downloaded, brings.outcome] at same
    obtain ⟨⟨digest, g, left⟩, got, shape⟩ := Option.map_eq_some_iff.mp same
    cases shape
    refine ⟨md5.of source, g, left, got, reads.readLoop_eq_of, ?_⟩
    rw [brings.outcome] at downloaded
    have stored : left path = some transfer.download.body :=
      (curlGet_digest downloaded (md5.of_nonempty source)).2.1
    rw [stored, brings.body]
  · intro digest g after got broken
    rw [got, Option.map_some] at same
    have outcome : digest = transfer.download.outcome md5 := curlGet_outcome same.symm
    have failed : transfer.performed = false := by
      rcases broken with ⟨call, member, short⟩ | failed
      · have incomplete : transfer.calls.all WriteCall.complete = false :=
          List.all_eq_false.mpr ⟨call, member, fun complete => short (of_decide_eq_true complete)⟩
        rw [Transfer.performed, incomplete, Bool.and_false]
      · rw [Transfer.performed, failed, Bool.false_and]
    rw [outcome, Download.outcome]
    have failed : transfer.download.performed = false := failed
    rw [failed, Bool.and_false]
    rfl
  · intro start
    exact same.trans (CurlHelper.get_eq_curlGet rfl transfer files).symm

def inTwoParts : Transfer := ⟨true, true, true, [⟨[97, 98], 2⟩, ⟨[], 0⟩, ⟨[99], 1⟩], true⟩

theorem transfers_agree_secondFile :
    ∃ h files digest g after,
      run CurlHelper.succeed ((CurlHelper.new [] : CurlHelper sampleMd5), fun _ => none) [⟨"a.o", inTwoParts⟩] =
        some (h, files) ∧
      h.get "b.o" inTwoParts files = some (digest, g, after) ∧
      readLoop sampleMd5 [97, 98, 99] [1, 2, 0] 0 sampleMd5.init = some digest ∧
      after "b.o" = some [97, 98, 99] := by
  have defined : (run CurlHelper.succeed ((CurlHelper.new [] : CurlHelper sampleMd5), fun _ => none)
      [⟨"a.o", inTwoParts⟩]).isSome = true := by decide
  obtain ⟨⟨h, files⟩, first⟩ := Option.isSome_iff_exists.mp defined
  have reads : Reads [97, 98, 99] 0 [1, 2, 0] := by
    refine .filled 0 1 _ (by decide) (by decide) (by decide) ?_
    refine .filled 1 2 _ (by decide) (by decide) (by decide) ?_
    exact .atEnd 3 (by decide)
  obtain ⟨digest, g, after, agree⟩ :=
    (transfers_agree sampleMd5 [] (fun _ => none) [⟨"a.o", inTwoParts⟩] h files first "b.o" inTwoParts).1
      [97, 98, 99] [1, 2, 0] ⟨rfl, rfl, rfl, by decide, rfl⟩ reads
  exact ⟨h, files, digest, g, after, first, agree⟩

end DistributedNinja.Master
