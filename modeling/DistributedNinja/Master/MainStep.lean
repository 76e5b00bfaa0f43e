import DistributedNinja.Master.MainThread

namespace DistributedNinja.Master

open Lib Rpc Proto Common Ninja

variable {Edge : Type}

/-- A step of `CurlHelper::Get`, or of the loop of `FetchTargetsOnBlockingPool` around it: the file is
    deleted, created or not, written a chunk at a time, and the transfer ends with this digest, the empty one
    when it failed. -/
inductive FetchAction where
  | delete
  | create (valid : Bool)
  | write
  | finish (md5 : String)

/-- The file a step touches, if any, and the fetch that is left; `none` when it ended, with whether
    `OnFetchTargetsDone` is posted. -/
structure FetchStep (Edge : Type) where
  touched : Option String
  next : Fetch Edge ⊕ Bool

def Fetch.compare (f : Fetch Edge) (md5 : String) : Fetch Edge ⊕ Bool :=
  match f.targets with
  | [] => .inr false
  | (_, expected) :: rest =>
    if md5 = expected then
      if rest.isEmpty then .inr true else .inl { f with targets := rest, phase := .idle }
    else .inr false

def Fetch.act (f : Fetch Edge) : FetchAction → Option (FetchStep Edge)
  | .delete =>
    match f.phase, f.targets with
    | .idle, [] => some ⟨none, .inr false⟩
    | .idle, (path, _) :: _ =>
      if f.result.status = .success then some ⟨some path, .inl { f with phase := .deleted }⟩
      else some ⟨none, .inr false⟩
    | _, _ => none
  | .create valid =>
    match f.phase, f.targets with
    | .deleted, (path, _) :: _ =>
      if valid then some ⟨some path, .inl { f with phase := .writing }⟩ else some ⟨none, f.compare ""⟩
    | _, _ => none
  | .write =>
    match f.phase, f.targets with
    | .writing, (path, _) :: _ => some ⟨some path, .inl f⟩
    | _, _ => none
  | .finish md5 => if f.phase = .writing then some ⟨none, f.compare md5⟩ else none

theorem Fetch.act_cases {f : Fetch Edge} {action : FetchAction} {step : FetchStep Edge}
    (acted : f.act action = some step) :
    (∃ path md5 rest phase, f.targets = (path, md5) :: rest ∧
      step = ⟨some path, .inl { f with phase := phase }⟩) ∨
    step = ⟨none, .inr false⟩ ∨ ∃ md5, step = ⟨none, f.compare md5⟩ := by
  cases action with
  | delete =>
    simp only [Fetch.act] at acted
    split at acted
    · cases acted
      exact .inr (.inl rfl)
    · rename_i targets
      split at acted
      · cases acted
        exact .inl ⟨_, _, _, _, targets, rfl⟩
      · cases acted
        exact .inr (.inl rfl)
    · cases acted
  | create valid =>
    simp only [Fetch.act] at acted
    split at acted
    · rename_i targets
      split at acted
      · cases acted
        exact .inl ⟨_, _, _, _, targets, rfl⟩
      · cases acted
        exact .inr (.inr ⟨_, rfl⟩)
    · cases acted
  | write =>
    simp only [Fetch.act] at acted
    split at acted
    · rename_i targets
      cases acted
      exact .inl ⟨_, _, _, f.phase, targets, rfl⟩
    · cases acted
  | finish md5 =>
    simp only [Fetch.act] at acted
    split at acted
    · cases acted
      exact .inr (.inr ⟨md5, rfl⟩)
    · cases acted

theorem Fetch.act_touched {f : Fetch Edge} {action : FetchAction} {step : FetchStep Edge} {path : String}
    (acted : f.act action = some step) (touched : step.touched = some path) :
    ∃ target ∈ f.targets, target.1 = path := by
  rcases Fetch.act_cases acted with ⟨first, md5, rest, phase, targets, rfl⟩ | rfl | ⟨md5, rfl⟩
  · cases touched
    exact ⟨(path, md5), targets ▸ List.mem_cons_self, rfl⟩
  · cases touched
  · cases touched

theorem Fetch.compare_keeps {f next : Fetch Edge} {md5 : String} (compared : f.compare md5 = .inl next) :
    next.result = f.result ∧ next.answer = f.answer ∧ next.targets ⊆ f.targets := by
  unfold Fetch.compare at compared
  split at compared
  · cases compared
  · rename_i path expected rest targets
    split at compared
    · split at compared
      · cases compared
      · cases compared
        exact ⟨rfl, rfl, targets ▸ List.subset_cons_self _ _⟩
    · cases compared

theorem Fetch.act_keeps {f next : Fetch Edge} {action : FetchAction} {step : FetchStep Edge}
    (acted : f.act action = some step) (continues : step.next = .inl next) :
    next.result = f.result ∧ next.answer = f.answer ∧ next.targets ⊆ f.targets := by
  rcases Fetch.act_cases acted with ⟨first, md5, rest, phase, targets, rfl⟩ | rfl | ⟨md5, rfl⟩
  · cases continues
    exact ⟨rfl, rfl, List.Subset.refl _⟩
  · cases continues
  · exact Fetch.compare_keeps continues

/-- The slaves may say anything at any time, and so may the web user interface ask for a build. -/
inductive MainEvent (Edge : Type) where
  | noticePosted (notice : SlaveNotice)
  | startPosted
  | taskRun (env : Environment Edge)
  | exited (pid : Nat) (status : ExitStatus) (output : String) (env : Environment Edge)
  | fetched (job : Nat) (action : FetchAction)

namespace MainThread

variable [DecidableEq Edge] {S : Setting Edge}

def fetchStepped (m : MainThread S) (job : Nat) (f : Fetch Edge) : Fetch Edge ⊕ Bool → MainThread S
  | .inl next => { m with pool := m.pool.set job next }
  | .inr success =>
    { m with
      pool := m.pool.eraseIdx job
      queue := m.queue ++ if success then [.onFetchTargetsDone f.result f.answer] else [] }

/-- One task of MAIN, one step of the blocking pool, or one post from another thread. The loop that is to quit still
    handles what it finds before it is idle. -/
def step (m : MainThread S) : MainEvent Edge → Option (MainThread S)
  | .noticePosted notice => some { m with queue := m.queue ++ [.slave notice] }
  | .startPosted => some { m with queue := m.queue ++ [.startBuild] }
  | .taskRun env =>
    match m.queue with
    | task :: rest => runTask env { m with queue := rest } task
    | [] => none
  | .exited pid status output env => m.subprocessExitCallback env pid status output
  | .fetched job action =>
    m.pool[job]?.bind fun f => (f.act action).map fun step => m.fetchStepped job f step.next

end MainThread

end DistributedNinja.Master
