import DistributedNinja.Master.CurlHelper

namespace DistributedNinja.Master

open Lib Proto Common Ninja

def text (bytes : List UInt8) : String := String.ofList (bytes.map fun byte => Char.ofNat byte.toNat)

/-- `ReadFile` gives the empty content for a file that does not exist. -/
def Disk.holding (disk : Disk) (files : Files) : Disk :=
  { disk with
    readFile := fun path => .ok (text ((files path).getD []))
    removeFile := fun path => if (files path).isSome then 0 else 1 }

variable {Edge : Type} [DecidableEq Edge] {S : Setting Edge}

namespace MainThread

def recordedDeps (S : Setting Edge) (disk : Disk) (result : Result Edge) : Option (List String) :=
  if result.status = .success ∧ (S.manifest.deps result.edge).isEmpty = false then
    match extractDeps S disk result.edge with
    | some (.ok nodes) => if disk.recordCommand then some nodes else none
    | _ => none
  else none

theorem finishCommand_of_recordedDeps {disk : Disk} {result : Result Edge} {nodes : List String}
    (recorded : recordedDeps S disk result = some nodes) (m : MainThread S) :
    finishCommand disk m result = some (disk.recordDeps,
      (cleanOutputs disk { m with outstandingEdgeList := m.outstandingEdgeList.erase result.edge }
        result.edge).edgeFinished result.edge) := by
  unfold recordedDeps at recorded
  split at recorded
  · rename_i reached
    split at recorded
    · rename_i extracted
      split at recorded
      · rename_i logged
        simp [finishCommand, reached.1, reached.2, extracted, logged]
      · cases recorded
    · cases recorded
  · cases recorded

def depsOf (S : Setting Edge) (content : Option (List UInt8)) : Option (List String) :=
  if (text (content.getD [])).isEmpty then some [] else (S.parseDepfile (text (content.getD []))).toOption

variable {edge : Edge}

theorem extractDeps_holding (gcc : S.manifest.deps edge = "gcc")
    (named : S.manifest.unescapedDepfile edge ≠ "") (disk : Disk) (files : Files) :
    extractDeps S (disk.holding files) edge =
      some (if (text ((files (S.manifest.unescapedDepfile edge)).getD [])).isEmpty then .ok []
        else S.parseDepfile (text ((files (S.manifest.unescapedDepfile edge)).getD []))) := by
  have removed : ¬ (if (files (S.manifest.unescapedDepfile edge)).isSome then (0 : Int) else 1) < 0 := by
    split <;> decide
  have unnamed : ¬ (S.manifest.unescapedDepfile edge).isEmpty = true := by simpa using named
  simp only [extractDeps, if_pos gcc, if_neg unnamed, Disk.holding, removed, if_false]
  split
  · rfl
  · cases S.parseDepfile _ <;> rfl

theorem recordedDeps_holding (gcc : S.manifest.deps edge = "gcc")
    (named : S.manifest.unescapedDepfile edge ≠ "") (disk : Disk) (files : Files) (output : String) :
    recordedDeps S (disk.holding files) ⟨edge, .success, output⟩ =
      if disk.recordCommand then depsOf S (files (S.manifest.unescapedDepfile edge)) else none := by
  have reached : (S.manifest.deps edge).isEmpty = false := by
    rw [gcc]
    rfl
  rw [recordedDeps, if_pos ⟨rfl, reached⟩, extractDeps_holding gcc named, depsOf]
  by_cases empty : (text ((files (S.manifest.unescapedDepfile edge)).getD [])).isEmpty = true
  · rw [if_pos empty, if_pos empty]
    rfl
  · rw [if_neg empty, if_neg empty]
    cases S.parseDepfile (text ((files (S.manifest.unescapedDepfile edge)).getD [])) with
    | ok nodes => rfl
    | error err => simp [Except.toOption]

end MainThread

theorem fetchLoop_brings {md5 : Digest} {fetches : List ((String × String) × Download)} {success : Bool}
    {files after : Files} {path : String} {content : List UInt8}
    (fetched : fetchLoop md5 success fetches files = some (true, after))
    (digested : ∀ fetch ∈ fetches, fetch.1.1 = path → fetch.1.2 ≠ "")
    (delivers : ∀ fetch ∈ fetches, fetch.1.1 = path → fetch.2.complete → fetch.2.body = content)
    (listed : ∃ fetch ∈ fetches, fetch.1.1 = path) : after path = some content := by
  induction fetches generalizing files success with
  | nil =>
    obtain ⟨fetch, impossible, _⟩ := listed
    cases impossible
  | cons head rest ih =>
    obtain ⟨⟨first, expected⟩, download⟩ := head
    obtain ⟨⟨digest, left⟩, got, continued⟩ := Option.bind_eq_some_iff.mp fetched
    dsimp only at continued
    split at continued
    · rename_i same
      by_cases again : ∃ fetch ∈ rest, fetch.1.1 = path
      · exact ih continued (fun fetch member => digested fetch (List.mem_cons_of_mem _ member))
          (fun fetch member => delivers fetch (List.mem_cons_of_mem _ member)) again
      · obtain ⟨fetch, member, at_⟩ := listed
        rcases List.mem_cons.mp member with rfl | member
        · have nonempty : digest ≠ "" := same ▸ digested _ List.mem_cons_self at_
          obtain ⟨complete, stored, _⟩ := curlGet_digest got nonempty
          have untouched := fetchLoop_frame continued fun fetch member same => again ⟨fetch, member, same⟩
          rw [untouched, ← at_, stored, delivers _ List.mem_cons_self at_ complete]
        · exact absurd ⟨fetch, member, at_⟩ again
    · cases continued

/-- A command of the edge that ran on a slave and whose outputs were fetched: the master's files before the
    fetch, those of the slave after the command, and the master's after the fetch. -/
structure RemoteRun (S : Setting Edge) (md5 : Digest) (edge : Edge) where
  files : Files
  made : Files
  fetches : List ((String × String) × Download)
  after : Files
  targets : fetches.map Prod.fst = (S.manifest.outputs edge).map fun path => (path, (made path).elim "" md5.of)
  delivers : ∀ fetch ∈ fetches, fetch.2.complete → made fetch.1.1 = some fetch.2.body
  fetched : fetchTargetsOnBlockingPool md5 .success fetches files = some (true, after)

variable {md5 : Digest} {edge : Edge}

theorem RemoteRun.depfile (remote : RemoteRun S md5 edge) {path : String} {content : List UInt8}
    (wrote : remote.made path = some content) :
    remote.after path = if path ∈ S.manifest.outputs edge then some content else remote.files path := by
  have fetched : fetchLoop md5 false remote.fetches remote.files = some (true, remote.after) := remote.fetched
  have paths : ∀ other, (∃ fetch ∈ remote.fetches, fetch.1.1 = other) ↔ other ∈ S.manifest.outputs edge := by
    intro other
    have same := congrArg (List.map Prod.fst) remote.targets
    rw [List.map_map, List.map_map] at same
    constructor
    · rintro ⟨fetch, member, rfl⟩
      have listed : fetch.1.1 ∈ remote.fetches.map (Prod.fst ∘ Prod.fst) := List.mem_map_of_mem member
      rw [same] at listed
      simpa using listed
    · intro listed
      have member : other ∈ remote.fetches.map (Prod.fst ∘ Prod.fst) := by
        rw [same]
        simpa using listed
      obtain ⟨fetch, member, at_⟩ := List.mem_map.mp member
      exact ⟨fetch, member, at_⟩
  split
  · rename_i output
    apply fetchLoop_brings fetched _ _ ((paths path).mpr output)
    · intro fetch member at_
      have target : fetch.1 ∈ remote.fetches.map Prod.fst := List.mem_map_of_mem member
      rw [remote.targets] at target
      obtain ⟨other, _, same⟩ := List.mem_map.mp target
      have own : other = path := (congrArg Prod.fst same).trans at_
      rw [← same, own, wrote]
      exact md5.of_nonempty content
    · intro fetch member at_ complete
      have brought := remote.delivers fetch member complete
      rw [at_, wrote] at brought
      exact (Option.some.inj brought).symm
  · rename_i other
    apply fetchLoop_frame fetched
    intro fetch member at_
    exact other ((paths path).mp ⟨fetch, member, at_⟩)

namespace MainThread

/-- Local and remote completion record the same dependencies exactly when the depfile is fetched as an output, or
    what the master has in its place gives the same list. -/
theorem remote_deps_eq_local_iff (gcc : S.manifest.deps edge = "gcc")
    (named : S.manifest.unescapedDepfile edge ≠ "") (remote : RemoteRun S md5 edge) {content : List UInt8}
    (wrote : remote.made (S.manifest.unescapedDepfile edge) = some content) (disk : Disk)
    (output remoteOutput : String) :
    recordedDeps S (disk.holding remote.after) ⟨edge, .success, remoteOutput⟩ =
        recordedDeps S (disk.holding
          (Function.update remote.files (S.manifest.unescapedDepfile edge) (some content)))
          ⟨edge, .success, output⟩ ↔
      disk.recordCommand = false ∨ S.manifest.unescapedDepfile edge ∈ S.manifest.outputs edge ∨
        depsOf S (remote.files (S.manifest.unescapedDepfile edge)) = depsOf S (some content) := by
  rw [recordedDeps_holding gcc named, recordedDeps_holding gcc named, Function.update_self,
    remote.depfile wrote]
  cases disk.recordCommand with
  | false => simp
  | true =>
    by_cases output : S.manifest.unescapedDepfile edge ∈ S.manifest.outputs edge
    · simp [output]
    · simp [output]

def headerManifest : Manifest (Fin 1) where
  ruleName _ := "cc"
  isPhony _ := false
  evaluateCommand _ := "cc -MD -c a.c"
  inputs _ := ["a.c"]
  outputs _ := ["a.o"]
  unescapedRspfile _ := ""
  rspfileContent _ := ""
  deps _ := "gcc"
  unescapedDepfile _ := "a.d"
  restat _ := false
  mtime _ := 0
  inEdge path := if path = "a.o" then some 0 else none
  outputs_inEdge := by decide +kernel

def header : Setting (Fin 1) where
  manifest := headerManifest
  plan := graphPlan headerManifest (by decide +kernel) (fun _ => [0]) fun _ => by decide +kernel
  hash := sumHash
  parseDepfile content := if content = "a.o: a.h" then .ok ["a.h"] else .error "expected ':' in depfile"
  processors := 1
  operatingSystemName := "Linux"
  operatingSystemArchitecture := "x86_64"
  maxSlaveAmount := 100

/-- The text "a.o: a.h". -/
def headerDeps : List UInt8 := [97, 46, 111, 58, 32, 97, 46, 104]

def headerDisk (files : Files) : Disk :=
  Disk.holding ⟨fun _ => true, fun _ _ => true, fun _ => .ok "", fun _ => 0, fun _ => 1, true, true⟩ files

def headerRun (files : Files) : RemoteRun header sampleMd5 0 where
  files := files
  made path := if path = "a.o" then some [97, 98, 99] else if path = "a.d" then some headerDeps else none
  fetches := [(("a.o", "900150983cd24fb0d6963f7d28e17f72"), .delivering (some [97, 98, 99]))]
  after := Function.update (Function.update files "a.o" none) "a.o" (some [97, 98, 99])
  targets := by decide +kernel
  delivers fetch member _ := by
    rw [List.mem_singleton.mp member]
    rfl
  fetched := rfl

theorem remote_deps_eq_local_iff_header :
    ∃ files : Files, files "a.d" = some headerDeps ∧
      recordedDeps header (headerDisk (headerRun files).after) ⟨0, .success, ""⟩ =
        recordedDeps header (headerDisk (Function.update files "a.d" (some headerDeps))) ⟨0, .success, ""⟩ := by
  have gcc : header.manifest.deps 0 = "gcc" := rfl
  refine ⟨fun path => if path = "a.d" then some headerDeps else none, rfl, ?_⟩
  exact (remote_deps_eq_local_iff gcc (by decide) (headerRun _) rfl _ "" "").mpr (.inr (.inr rfl))

/-- The master has no depfile, and the remote completion records no headers. -/
theorem remote_completion_records_no_deps :
    ¬ ∀ (remote : RemoteRun header sampleMd5 0) (content : List UInt8) (output remoteOutput : String),
      remote.made "a.d" = some content →
        recordedDeps header (headerDisk remote.after) ⟨0, .success, remoteOutput⟩ =
          recordedDeps header (headerDisk (Function.update remote.files "a.d" (some content)))
            ⟨0, .success, output⟩ := by
  intro always
  have same := always (headerRun fun _ => none) headerDeps "" "" rfl
  exact absurd same (by decide +kernel)

end MainThread

end DistributedNinja.Master
