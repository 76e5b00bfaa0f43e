import DistributedNinja.Common.Files
import DistributedNinja.Master.MainStep

namespace DistributedNinja.Master

open Lib Proto Common

structure Chunk where
  data : List UInt8
  written : Nat

/-- What happens outside of the program during one `CurlHelper::Get`. `WriteData` tells curl how much was
    written, and curl fails when this is not all. -/
structure Download where
  directory : Bool
  deleted : Bool
  valid : Bool
  chunks : List Chunk
  performed : Bool
  written : performed = true → ∀ chunk ∈ chunks, chunk.written = chunk.data.length

namespace Download

def complete (download : Download) : Prop :=
  download.valid = true ∧ download.performed = true

def body (download : Download) : List UInt8 := (download.chunks.map Chunk.data).flatten

def inFile (download : Download) : List UInt8 :=
  (download.chunks.map fun chunk => chunk.data.take chunk.written).flatten

def outcome (md5 : Digest) (download : Download) : String :=
  if download.valid && download.performed then md5.of download.body else ""

theorem inFile_of_performed {download : Download} (performed : download.performed = true) :
    download.inFile = download.body := by
  unfold inFile body
  congr 1
  apply List.map_congr_left
  intro chunk member
  rw [download.written performed chunk member, List.take_length]

end Download

/-- `CurlHelper::Get`, with the files it leaves; `none` when the `CHECK` on the directory fails. -/
def curlGet (md5 : Digest) (path : String) (download : Download) (files : Files) : Option (String × Files) :=
  if download.directory then
    let files := if download.deleted then Function.update files path none else files
    if download.valid then
      let files := Function.update files path (some download.inFile)
      if download.performed then
        some (md5.final ((download.chunks.map Chunk.data).foldl md5.update md5.init), files)
      else some ("", files)
    else some ("", files)
  else none

/-- The loop of `FetchTargetsOnBlockingPool` over the targets and what happens to each, with whether
    `OnFetchTargetsDone` is posted. -/
def fetchLoop (md5 : Digest) (success : Bool) : List ((String × String) × Download) → Files → Option (Bool × Files)
  | [], files => some (success, files)
  | ((path, expected), download) :: rest, files =>
    (curlGet md5 path download files).bind fun (digest, files) =>
      if digest = expected then fetchLoop md5 true rest files else some (false, files)

def fetchTargetsOnBlockingPool (md5 : Digest) (status : ExitStatus)
    (fetches : List ((String × String) × Download)) (files : Files) : Option (Bool × Files) :=
  if status = .success then fetchLoop md5 false fetches files else some (false, files)

variable {md5 : Digest} {path digest : String} {download : Download} {files after : Files}

theorem curlGet_cases (got : curlGet md5 path download files = some (digest, after)) :
    ∃ cleared : Files, (∀ other, other ≠ path → cleared other = files other) ∧
      ((download.valid = false ∧ digest = "" ∧ after = cleared) ∨
        (download.performed = false ∧ digest = "" ∧ after = Function.update cleared path (some download.inFile)) ∨
        (download.complete ∧ digest = md5.of download.body ∧
          after = Function.update cleared path (some download.body))) := by
  unfold curlGet at got
  split at got
  · refine ⟨if download.deleted then Function.update files path none else files, ?_, ?_⟩
    · intro other different
      split
      · exact Function.update_of_ne different _ _
      · rfl
    · dsimp only at got
      split at got
      · rename_i valid
        right
        split at got
        · rename_i performed
          cases got
          rw [Download.inFile_of_performed performed]
          exact .inr ⟨⟨valid, performed⟩, md5.final_chunks _, rfl⟩
        · rename_i broken
          cases got
          exact .inl ⟨Bool.eq_false_iff.mpr broken, rfl, rfl⟩
      · rename_i invalid
        cases got
        exact .inl ⟨Bool.eq_false_iff.mpr invalid, rfl, rfl⟩
  · cases got

theorem curlGet_frame (got : curlGet md5 path download files = some (digest, after)) {other : String}
    (different : other ≠ path) : after other = files other := by
  obtain ⟨cleared, kept, ⟨_, _, rfl⟩ | ⟨_, _, rfl⟩ | ⟨_, _, rfl⟩⟩ := curlGet_cases got
  · exact kept other different
  · rw [Function.update_of_ne different, kept other different]
  · rw [Function.update_of_ne different, kept other different]

theorem curlGet_outcome (got : curlGet md5 path download files = some (digest, after)) :
    digest = download.outcome md5 := by
  unfold Download.outcome
  obtain ⟨_, _, ⟨invalid, rfl, _⟩ | ⟨broken, rfl, _⟩ | ⟨⟨valid, performed⟩, rfl, _⟩⟩ := curlGet_cases got
  · simp [invalid]
  · simp [broken]
  · rw [valid, performed]
    rfl

theorem curlGet_digest (got : curlGet md5 path download files = some (digest, after)) (nonempty : digest ≠ "") :
    download.complete ∧ after path = some download.body ∧ md5.of download.body = digest := by
  obtain ⟨_, _, ⟨_, rfl, _⟩ | ⟨_, rfl, _⟩ | ⟨complete, rfl, rfl⟩⟩ := curlGet_cases got
  · exact absurd rfl nonempty
  · exact absurd rfl nonempty
  · exact ⟨complete, Function.update_self _ _ _, rfl⟩

theorem fetchLoop_frame {fetches : List ((String × String) × Download)} {success posted : Bool}
    (fetched : fetchLoop md5 success fetches files = some (posted, after)) {other : String}
    (elsewhere : ∀ fetch ∈ fetches, fetch.1.1 ≠ other) : after other = files other := by
  induction fetches generalizing files success with
  | nil =>
    cases fetched
    rfl
  | cons fetch rest ih =>
    obtain ⟨⟨path, expected⟩, download⟩ := fetch
    obtain ⟨⟨digest, next⟩, got, fetched⟩ := Option.bind_eq_some_iff.mp fetched
    have first := curlGet_frame got (elsewhere _ List.mem_cons_self).symm
    dsimp only at fetched
    split at fetched
    · exact (ih fetched fun fetch member => elsewhere fetch (List.mem_cons_of_mem _ member)).trans first
    · cases fetched
      exact first

structure Report where
  path : String
  file : OutputFile

def Report.target (md5 : Digest) (report : Report) : String × String := (report.path, report.file.reported md5)

/-- The master has a file with the digest that the slave computed for an existing output. -/
def Report.Verified (md5 : Digest) (files : Files) (report : Report) : Prop :=
  ∃ bytes original, files report.path = some bytes ∧ report.file.content = some original ∧
    md5.of bytes = md5.of original

def AcceptsVerified (md5 : Digest) (reports : List Report) : Prop :=
  ∀ status fetches files after, fetches.map Prod.fst = reports.map (Report.target md5) →
    fetchTargetsOnBlockingPool md5 status fetches files = some (true, after) →
      (∀ fetch ∈ fetches, fetch.2.complete) ∧ ∀ report ∈ reports, report.Verified md5 after

theorem fetchLoop_verifies {fetches : List ((String × String) × Download)} {success : Bool}
    (fetched : fetchLoop md5 success fetches files = some (true, after))
    (nonempty : ∀ fetch ∈ fetches, fetch.1.2 ≠ "")
    (agree : ∀ first ∈ fetches, ∀ second ∈ fetches, first.1.1 = second.1.1 → first.1.2 = second.1.2) :
    ∀ fetch ∈ fetches, fetch.2.complete ∧ ∃ bytes, after fetch.1.1 = some bytes ∧ md5.of bytes = fetch.1.2 := by
  induction fetches generalizing files success with
  | nil => nofun
  | cons head rest ih =>
    obtain ⟨⟨path, expected⟩, download⟩ := head
    obtain ⟨⟨digest, left⟩, got, continued⟩ := Option.bind_eq_some_iff.mp fetched
    dsimp only at continued
    split at continued
    · rename_i same
      subst same
      obtain ⟨complete, stored, matches_⟩ := curlGet_digest got (nonempty _ List.mem_cons_self)
      have later := ih continued (fun fetch member => nonempty fetch (List.mem_cons_of_mem _ member))
        fun first member second other => agree first (List.mem_cons_of_mem _ member) second
          (List.mem_cons_of_mem _ other)
      intro fetch member
      rcases List.mem_cons.mp member with rfl | member
      · refine ⟨complete, ?_⟩
        by_cases again : ∃ second ∈ rest, second.1.1 = path
        · obtain ⟨second, listed, rfl⟩ := again
          obtain ⟨bytes, at_, digested⟩ := (later second listed).2
          refine ⟨bytes, at_, digested.trans ?_⟩
          exact agree second (List.mem_cons_of_mem _ listed) _ List.mem_cons_self rfl
        · have untouched := fetchLoop_frame continued fun second listed same => again ⟨second, listed, same⟩
          exact ⟨download.body, untouched.trans stored, matches_⟩
      · exact later fetch member
    · cases continued

def Download.delivering : Option (List UInt8) → Download
  | none => ⟨true, true, false, [], false, nofun⟩
  | some bytes => ⟨true, true, true, [⟨bytes, bytes.length⟩], true, by simp⟩

theorem Download.outcome_delivering (file : OutputFile) :
    (Download.delivering file.content).outcome md5 = file.reported md5 := by
  cases read : file.content with
  | none => exact (OutputFile.reported_eq_empty.mpr read).symm
  | some bytes =>
    rw [OutputFile.reported_of_content read]
    simp [Download.delivering, Download.outcome, Download.body]

theorem curlGet_defined (md5 : Digest) (path : String) (files : Files) (directory : download.directory = true) :
    ∃ after, curlGet md5 path download files = some (download.outcome md5, after) := by
  cases got : curlGet md5 path download files with
  | none =>
    simp only [curlGet, directory, if_true] at got
    split at got
    · split at got <;> cases got
    · cases got
  | some result => exact ⟨result.2, congrArg (fun digest => some (digest, result.2)) (curlGet_outcome got)⟩

theorem fetchLoop_delivering (md5 : Digest) (success : Bool) (reports : List Report) (files : Files) :
    ∃ after, fetchLoop md5 success (reports.map fun report =>
      (report.target md5, .delivering report.file.content)) files =
        some (success || !reports.isEmpty, after) := by
  induction reports generalizing success files with
  | nil => exact ⟨files, by simp [fetchLoop]⟩
  | cons report rest ih =>
    have directory : (Download.delivering report.file.content).directory = true := by
      cases report.file.content <;> rfl
    obtain ⟨next, got⟩ := curlGet_defined md5 report.path files directory
    obtain ⟨after, fetched⟩ := ih true next
    refine ⟨after, ?_⟩
    simp only [List.map_cons, fetchLoop, Report.target, got, Option.bind_some, Download.outcome_delivering,
      if_true]
    simpa [Report.target] using fetched

theorem AcceptsVerified.exists_verified {reports : List Report} (accepts : AcceptsVerified md5 reports) :
    ∃ after : Files, ∀ report ∈ reports, report.Verified md5 after := by
  obtain ⟨after, fetched⟩ := fetchLoop_delivering md5 false reports fun _ => none
  cases reports with
  | nil => exact ⟨after, nofun⟩
  | cons report rest =>
    have targets : ((report :: rest).map fun report =>
        (report.target md5, Download.delivering report.file.content)).map Prod.fst =
          (report :: rest).map (Report.target md5) := by
      rw [List.map_map]
      rfl
    exact ⟨after, (accepts .success _ _ after targets fetched).2⟩

theorem Report.Verified.reported_eq {first second : Report} (verified : first.Verified md5 after)
    (verifiedToo : second.Verified md5 after) (same : first.path = second.path) :
    first.file.reported md5 = second.file.reported md5 := by
  obtain ⟨bytes, original, at_, read, digested⟩ := verified
  obtain ⟨bytesToo, originalToo, atToo, readToo, digestedToo⟩ := verifiedToo
  rw [same, atToo] at at_
  cases at_
  calc first.file.reported md5 = md5.of original := OutputFile.reported_of_content read
    _ = md5.of bytes := digested.symm
    _ = md5.of originalToo := digestedToo
    _ = second.file.reported md5 := (OutputFile.reported_of_content readToo).symm

theorem acceptsVerified_of_present {reports : List Report}
    (present : ∀ report ∈ reports, report.file.content.isSome = true)
    (agree : ∀ first ∈ reports, ∀ second ∈ reports, first.path = second.path →
      first.file.reported md5 = second.file.reported md5) : AcceptsVerified md5 reports := by
  intro status fetches files after targets posted
  have reportOf : ∀ fetch ∈ fetches, ∃ report ∈ reports, report.target md5 = fetch.1 := by
    intro fetch member
    have listed : fetch.1 ∈ reports.map (Report.target md5) := targets ▸ List.mem_map_of_mem member
    exact List.mem_map.mp listed
  have fetched : fetchLoop md5 false fetches files = some (true, after) := by
    unfold fetchTargetsOnBlockingPool at posted
    split at posted
    · exact posted
    · cases posted
  have nonempty : ∀ fetch ∈ fetches, fetch.1.2 ≠ "" := by
    intro fetch member empty
    obtain ⟨report, listed, same⟩ := reportOf fetch member
    have none_read := OutputFile.reported_eq_empty.mp ((congrArg Prod.snd same).trans empty)
    have some_read := present report listed
    rw [none_read] at some_read
    cases some_read
  have consistent : ∀ first ∈ fetches, ∀ second ∈ fetches, first.1.1 = second.1.1 →
      first.1.2 = second.1.2 := by
    intro first member second other same
    obtain ⟨report, listed, target⟩ := reportOf first member
    obtain ⟨reportToo, listedToo, targetToo⟩ := reportOf second other
    rw [← target, ← targetToo] at same ⊢
    exact agree report listed reportToo listedToo same
  have checked := fetchLoop_verifies fetched nonempty consistent
  refine ⟨fun fetch member => (checked fetch member).1, ?_⟩
  intro report member
  have listed : report.target md5 ∈ fetches.map Prod.fst := targets ▸ List.mem_map_of_mem member
  obtain ⟨fetch, among, same⟩ := List.mem_map.mp listed
  obtain ⟨bytes, at_, digested⟩ := (checked fetch among).2
  obtain ⟨original, read⟩ := Option.isSome_iff_exists.mp (present report member)
  rw [same] at at_ digested
  exact ⟨bytes, original, at_, read, digested.trans (OutputFile.reported_of_content read)⟩

/-- A remote result is accepted with verified files only, whatever happens to the downloads, exactly when the
    slave had every output and has reported one digest for each path. -/
theorem acceptsVerified_iff (md5 : Digest) (reports : List Report) :
    AcceptsVerified md5 reports ↔
      (∀ report ∈ reports, report.file.content.isSome = true) ∧
        ∀ first ∈ reports, ∀ second ∈ reports, first.path = second.path →
          first.file.reported md5 = second.file.reported md5 := by
  constructor
  · intro accepts
    obtain ⟨after, verified⟩ := accepts.exists_verified
    constructor
    · intro report member
      obtain ⟨_, original, _, read, _⟩ := verified report member
      simp [read]
    · intro first member second other same
      exact (verified first member).reported_eq (verified second other) same
  · rintro ⟨present, agree⟩
    exact acceptsVerified_of_present present agree

def sampleMd5 : Digest where
  Context := List UInt8
  init := []
  update := List.append
  final bytes :=
    if bytes = [97, 98, 99] then "900150983cd24fb0d6963f7d28e17f72" else "d41d8cd98f00b204e9800998ecf8427e"
  update_nil := List.append_nil
  update_append context first second := List.append_assoc context first second
  final_nonempty bytes := by split <;> decide

/-- The slave has no output, the master cannot create the file, and the empty digests are equal. -/
theorem missing_output_accepted : ¬ ∀ (md5 : Digest) (reports : List Report), AcceptsVerified md5 reports := by
  intro always
  have verified := (always sampleMd5 [⟨"a.o", ⟨false, false, [], false⟩⟩] .success
    [(("a.o", ""), .delivering none)] (fun _ => none) _ rfl rfl).2
  obtain ⟨_, original, _, read, _⟩ := verified _ List.mem_cons_self
  cases read

section Refinement

variable {Edge : Type}

def Fetch.plays (f : Fetch Edge) : List FetchAction → Option (Fetch Edge ⊕ Bool)
  | [] => some (.inl f)
  | action :: rest =>
    (f.act action).bind fun step =>
      match step.next with
      | .inl next => next.plays rest
      | .inr posted => if rest.isEmpty then some (.inr posted) else none

def Download.actions (md5 : Digest) (download : Download) : List FetchAction :=
  if download.valid then
    .delete :: .create true :: (download.chunks.map fun _ => .write) ++ [.finish (download.outcome md5)]
  else [.delete, .create false]

def fetchActions (md5 : Digest) : List ((String × String) × Download) → List FetchAction
  | [] => [.delete]
  | ((_, expected), download) :: rest => download.actions md5 ++
    if download.outcome md5 = expected && !rest.isEmpty then fetchActions md5 rest else []

variable {f next : Fetch Edge}

theorem Fetch.plays_append {actions : List FetchAction} (played : f.plays actions = some (.inl next))
    (rest : List FetchAction) : f.plays (actions ++ rest) = next.plays rest := by
  induction actions generalizing f with
  | nil =>
    cases played
    rfl
  | cons action actions ih =>
    obtain ⟨step, acted, played⟩ := Option.bind_eq_some_iff.mp played
    simp only [List.cons_append, Fetch.plays, acted, Option.bind_some]
    cases continues : step.next with
    | inl g =>
      rw [continues] at played
      exact ih played
    | inr posted =>
      rw [continues] at played
      simp only at played
      split at played <;> cases played

theorem Fetch.plays_writes {target : String × String} {others : List (String × String)}
    (writing : f.phase = .writing) (targets : f.targets = target :: others) (chunks : List Chunk) :
    f.plays (chunks.map fun _ => .write) = some (.inl f) := by
  induction chunks with
  | nil => rfl
  | cons chunk chunks ih =>
    have acted : f.act .write = some ⟨some target.1, .inl f⟩ := by
      simp only [Fetch.act, writing, targets]
    simp only [List.map_cons, Fetch.plays, acted, Option.bind_some]
    exact ih

theorem Fetch.plays_download {target : String × String} {others : List (String × String)}
    (idle : f.phase = .idle) (success : f.result.status = .success) (targets : f.targets = target :: others)
    (download : Download) (rest : List FetchAction) :
    f.plays (download.actions md5 ++ rest) =
      match f.compare (download.outcome md5) with
      | .inl next => next.plays rest
      | .inr posted => if rest.isEmpty then some (.inr posted) else none := by
  have deleted : f.act .delete = some ⟨some target.1, .inl { f with phase := .deleted }⟩ := by
    simp only [Fetch.act, idle, targets, success, if_true]
  unfold Download.actions
  split
  · rename_i valid
    have created : Fetch.act { f with phase := .deleted } (.create true) =
        some ⟨some target.1, .inl { f with phase := .writing }⟩ := by
      simp only [Fetch.act, targets, if_true]
    have opened : f.plays [.delete, .create true] = some (.inl { f with phase := .writing }) := by
      simp only [Fetch.plays, deleted, created, Option.bind_some]
    have written : f.plays ([.delete, .create true] ++ download.chunks.map fun _ => .write) =
        some (.inl { f with phase := .writing }) := by
      rw [Fetch.plays_append opened]
      exact Fetch.plays_writes (f := { f with phase := .writing }) rfl targets download.chunks
    change f.plays (([.delete, .create true] ++ download.chunks.map fun _ => .write) ++
      [.finish (download.outcome md5)] ++ rest) = _
    rw [List.append_assoc, Fetch.plays_append written]
    simp only [List.singleton_append, Fetch.plays, Fetch.act, if_true, Option.bind_some]
    rfl
  · rename_i invalid
    have empty : download.outcome md5 = "" := by simp [Download.outcome, invalid]
    have failed : Fetch.act { f with phase := .deleted } (.create false) = some ⟨none, f.compare ""⟩ := by
      simp only [Fetch.act, Fetch.compare, targets, Bool.false_eq_true, if_false]
    simp only [List.cons_append, List.nil_append, Fetch.plays, deleted, failed, Option.bind_some, empty]

/-- The fetch of the pool does what `FetchTargetsOnBlockingPool` does with its files. -/
theorem fetchTargets_plays {fetches : List ((String × String) × Download)} {posted : Bool}
    (idle : f.phase = .idle) (success : f.result.status = .success) (targets : f.targets = fetches.map Prod.fst)
    (fetched : fetchTargetsOnBlockingPool md5 f.result.status fetches files = some (posted, after)) :
    f.plays (fetchActions md5 fetches) = some (.inr posted) := by
  rw [fetchTargetsOnBlockingPool, if_pos success] at fetched
  suffices ∀ earlier, fetchLoop md5 earlier fetches files = some (posted, after) →
      (fetches = [] → earlier = false) → f.plays (fetchActions md5 fetches) = some (.inr posted) from
    this false fetched fun _ => rfl
  clear fetched
  induction fetches generalizing f files with
  | nil =>
    intro earlier fetched first
    cases fetched
    rw [first rfl]
    simp only [fetchActions, Fetch.plays, Fetch.act, idle, targets, List.map_nil, Option.bind_some,
      List.isEmpty_nil, if_true]
  | cons fetch rest ih =>
    intro earlier fetched _
    obtain ⟨⟨path, expected⟩, download⟩ := fetch
    obtain ⟨⟨digest, left⟩, got, fetched⟩ := Option.bind_eq_some_iff.mp fetched
    obtain rfl := curlGet_outcome got
    have targets : f.targets = (path, expected) :: rest.map Prod.fst := targets
    rw [fetchActions, Fetch.plays_download idle success targets]
    simp only [Fetch.compare, targets]
    dsimp only at fetched
    split at fetched
    · rename_i same
      cases rest with
      | nil =>
        cases fetched
        simp [same]
      | cons second others =>
        have continued := ih (f := { f with targets := (second :: others).map Prod.fst, phase := .idle })
          rfl success rfl true fetched fun empty => absurd empty (List.cons_ne_nil _ _)
        simp only [same, List.map_cons, List.isEmpty_cons, Bool.not_false, decide_true, Bool.and_self, if_true,
          Bool.false_eq_true, if_false]
        exact continued
    · rename_i different
      cases fetched
      simp [different]

end Refinement

end DistributedNinja.Master
