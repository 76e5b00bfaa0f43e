import Mathlib.Data.List.Basic
import Mathlib.Logic.Function.Basic
import Mathlib.Tactic.Common

namespace DistributedNinja.Ninja

structure Rule where
  name : String
  bindings : List (String × String)

structure Build where
  rule : String
  outputs : List String
  inputs : List String

structure State where
  rules : List Rule
  edges : List Build
  nodes : List String
  defaults : List String
  bindings : String → Option String
  ruled : ∀ edge ∈ edges, ∃ rule ∈ rules, rule.name = edge.rule

namespace State

def phony : String := "phony"

def initial : State := ⟨[⟨phony, []⟩], [], [], [], fun _ => none, List.forall_mem_nil _⟩

def lookupVariable (s : State) (name : String) : String := (s.bindings name).getD ""

def lookupNode (s : State) (path : String) : Option String := s.nodes.find? fun node => node = path

structure Adds (s t : State) : Prop where
  rules : s.rules ⊆ t.rules
  edges : s.edges ⊆ t.edges
  nodes : s.nodes ⊆ t.nodes
  defaults : s.defaults ⊆ t.defaults
  bindings : ∀ name, (s.bindings name).isSome = true → (t.bindings name).isSome = true

structure SameAs (s t : State) : Prop where
  rules : ∀ rule, rule ∈ s.rules ↔ rule ∈ t.rules
  edges : ∀ edge, edge ∈ s.edges ↔ edge ∈ t.edges
  nodes : ∀ node, node ∈ s.nodes ↔ node ∈ t.nodes
  defaults : s.defaults = t.defaults
  bindings : s.bindings = t.bindings

def Declares (s : State) (name : String) : Prop := ∃ rule ∈ s.rules, rule.name = name

end State

structure NinjaMain (Content BuildLog DepsLog : Type) where
  dryRun : Bool
  state : State
  disk : String → Option Content
  buildDir : String
  buildLog : BuildLog
  depsLog : DepsLog

/-- What `InitFromManifest` calls of ninja, which is not part of the repository, and what it relies on. `Plan` is
    what a `Builder` plans to do for a target. -/
structure NinjaLib (Content BuildLog DepsLog : Type) where
  Plan : Type
  load : (String → Option Content) → String → State → Except String State
  makeDirs : (String → Option Content) → String → Option (String → Option Content)
  loadBuildLog : (String → Option Content) → String → BuildLog → Option BuildLog
  openBuildLog : NinjaMain Content BuildLog DepsLog → String → Option (BuildLog × (String → Option Content))
  loadDepsLog : (String → Option Content) → String → DepsLog → State → Option (DepsLog × State)
  openDepsLog : (String → Option Content) → String → DepsLog → Option (DepsLog × (String → Option Content))
  canonicalizePath : String → Option String
  addTarget : NinjaMain Content BuildLog DepsLog → String → Option Plan × NinjaMain Content BuildLog DepsLog
  alreadyUpToDate : Plan → Bool
  build : NinjaMain Content BuildLog DepsLog → Plan → Bool × NinjaMain Content BuildLog DepsLog
  load_adds : ∀ disk file s t, load disk file s = .ok t → s.Adds t
  load_duplicate : ∀ disk file s t fresh, load disk file s = .ok t → load disk file .initial = .ok fresh →
    ∀ name, fresh.Declares name → name ≠ State.phony → ¬ s.Declares name
  loadDepsLog_rules : ∀ disk path log s log' t, loadDepsLog disk path log s = some (log', t) → t.rules = s.rules
  addTarget_rules : ∀ m path, (addTarget m path).2.state.rules = m.state.rules
  build_rules : ∀ m plan, (build m plan).2.state.rules = m.state.rules
  moreToDo : ∀ m path plan n, addTarget m path = (some plan, n) → alreadyUpToDate plan = false →
    ∃ edge ∈ m.state.edges, edge.rule ≠ State.phony

namespace NinjaMain

variable {Content BuildLog DepsLog : Type} (ninja : NinjaLib Content BuildLog DepsLog)

def ensureBuildDirExists (m : NinjaMain Content BuildLog DepsLog) : Option (NinjaMain Content BuildLog DepsLog) :=
  let m := { m with buildDir := m.state.lookupVariable "builddir" }
  if m.buildDir ≠ "" ∧ m.dryRun = false then
    (ninja.makeDirs m.disk (m.buildDir ++ "/.")).map fun disk => { m with disk := disk }
  else some m

def logPath (m : NinjaMain Content BuildLog DepsLog) (name : String) : String :=
  if m.buildDir ≠ "" then m.buildDir ++ "/" ++ name else name

def openBuildLog (m : NinjaMain Content BuildLog DepsLog) : Option (NinjaMain Content BuildLog DepsLog) :=
  let path := m.logPath ".ninja_log"
  (ninja.loadBuildLog m.disk path m.buildLog).bind fun log =>
    let m := { m with buildLog := log }
    if m.dryRun then some m
    else (ninja.openBuildLog m path).map fun (log, disk) => { m with buildLog := log, disk := disk }

def openDepsLog (m : NinjaMain Content BuildLog DepsLog) : Option (NinjaMain Content BuildLog DepsLog) :=
  let path := m.logPath ".ninja_deps"
  (ninja.loadDepsLog m.disk path m.depsLog m.state).bind fun (log, state) =>
    let m := { m with depsLog := log, state := state }
    if m.dryRun then some m
    else (ninja.openDepsLog m.disk path log).map fun (log, disk) => { m with depsLog := log, disk := disk }

def rebuildManifest (m : NinjaMain Content BuildLog DepsLog) (inputFile : String) :
    Bool × NinjaMain Content BuildLog DepsLog :=
  match (ninja.canonicalizePath inputFile).bind m.state.lookupNode with
  | none => (false, m)
  | some node =>
    match ninja.addTarget m node with
    | (none, m) => (false, m)
    | (some plan, m) => if ninja.alreadyUpToDate plan then (false, m) else ninja.build m plan

/-- `InitFromManifest` up to the rebuild. -/
def loadManifest (m : NinjaMain Content BuildLog DepsLog) (inputFile : String) :
    Except String (NinjaMain Content BuildLog DepsLog) :=
  match ninja.load m.disk inputFile m.state with
  | .error error => .error error
  | .ok state =>
    match ensureBuildDirExists ninja { m with state := state } with
    | none => .error "EnsureBuildDirExists returns error."
    | some m =>
      match (openBuildLog ninja m).bind (openDepsLog ninja) with
      | none => .error "OpenBuildLog or OpenDepsLog returns error."
      | some m => .ok m

def initFromManifest (inputFile : String) (rebuild : Bool) (m : NinjaMain Content BuildLog DepsLog) :
    Except String (NinjaMain Content BuildLog DepsLog) :=
  match loadManifest ninja m inputFile with
  | .error error => .error error
  | .ok m =>
    if _again : rebuild = true then
      match rebuildManifest ninja m inputFile with
      | (true, m) => initFromManifest inputFile (!rebuild) m
      | (false, m) => .ok m
    else .ok m
termination_by rebuild.toNat
decreasing_by simp [_again]

variable {ninja} {m n : NinjaMain Content BuildLog DepsLog} {file : String}

theorem ensureBuildDirExists_state (exists_ : ensureBuildDirExists ninja m = some n) : n.state = m.state := by
  unfold ensureBuildDirExists at exists_
  dsimp only at exists_
  split at exists_
  · obtain ⟨disk, _, rfl⟩ := Option.map_eq_some_iff.mp exists_
    rfl
  · cases exists_
    rfl

theorem openBuildLog_state (opened : openBuildLog ninja m = some n) : n.state = m.state := by
  obtain ⟨log, _, opened⟩ := Option.bind_eq_some_iff.mp opened
  dsimp only at opened
  split at opened
  · cases opened
    rfl
  · obtain ⟨_, _, rfl⟩ := Option.map_eq_some_iff.mp opened
    rfl

theorem openDepsLog_rules (opened : openDepsLog ninja m = some n) : n.state.rules = m.state.rules := by
  obtain ⟨⟨log, state⟩, loaded, opened⟩ := Option.bind_eq_some_iff.mp opened
  have rules := ninja.loadDepsLog_rules _ _ _ _ _ _ loaded
  dsimp only at opened
  split at opened
  · cases opened
    exact rules
  · obtain ⟨_, _, rfl⟩ := Option.map_eq_some_iff.mp opened
    exact rules

theorem loadManifest_rules (done : loadManifest ninja m file = .ok n) :
    ∃ t, ninja.load m.disk file m.state = .ok t ∧ n.state.rules = t.rules := by
  unfold loadManifest at done
  cases loaded : ninja.load m.disk file m.state with
  | error error =>
    rw [loaded] at done
    cases done
  | ok t =>
    rw [loaded] at done
    refine ⟨t, rfl, ?_⟩
    dsimp only at done
    split at done
    · cases done
    · rename_i made exists_
      split at done
      · cases done
      · rename_i last opened
        cases done
        obtain ⟨logged, first, second⟩ := Option.bind_eq_some_iff.mp opened
        rw [openDepsLog_rules second, openBuildLog_state first, ensureBuildDirExists_state exists_]

theorem rebuildManifest_rules : (rebuildManifest ninja m file).2.state.rules = m.state.rules := by
  unfold rebuildManifest
  split
  · rfl
  · rename_i node _
    have kept := ninja.addTarget_rules m node
    split
    · rename_i after added
      rw [added] at kept
      exact kept
    · rename_i plan after added
      rw [added] at kept
      split
      · exact kept
      · exact (ninja.build_rules after plan).trans kept

theorem rebuildManifest_declares (rebuilt : rebuildManifest ninja m file = (true, n)) :
    ∃ name, name ≠ State.phony ∧ n.state.Declares name := by
  have rules : n.state.rules = m.state.rules := by
    have kept : (rebuildManifest ninja m file).2.state.rules = m.state.rules := rebuildManifest_rules
    rw [rebuilt] at kept
    exact kept
  have ran : ∃ edge ∈ m.state.edges, edge.rule ≠ State.phony := by
    unfold rebuildManifest at rebuilt
    split at rebuilt
    · cases rebuilt
    · rename_i node _
      split at rebuilt
      · cases rebuilt
      · rename_i plan after added
        split at rebuilt
        · cases rebuilt
        · rename_i work
          exact ninja.moreToDo m node plan after added (Bool.eq_false_iff.mpr work)
  obtain ⟨edge, listed, named⟩ := ran
  obtain ⟨rule, member, same⟩ := m.state.ruled edge listed
  exact ⟨edge.rule, named, rule, rules ▸ member, same⟩

theorem initFromManifest_false : initFromManifest ninja file false m = loadManifest ninja m file := by
  rw [initFromManifest]
  cases loadManifest ninja m file with
  | error error => rfl
  | ok n => rfl

theorem initFromManifest_rebuilt {loaded rebuilt : NinjaMain Content BuildLog DepsLog}
    (first : loadManifest ninja m file = .ok loaded) (rebuild : rebuildManifest ninja loaded file = (true, rebuilt)) :
    initFromManifest ninja file true m = loadManifest ninja rebuilt file := by
  rw [initFromManifest, first]
  dsimp only
  rw [dif_pos rfl, rebuild]
  exact initFromManifest_false

/-- What the first manifest has declared stays, or the second manifest declares it too and is refused. -/
theorem initFromManifest_keeps {loaded rebuilt : NinjaMain Content BuildLog DepsLog}
    (first : loadManifest ninja m file = .ok loaded) (rebuild : rebuildManifest ninja loaded file = (true, rebuilt))
    (success : initFromManifest ninja file true m = .ok n) : ∀ rule ∈ rebuilt.state.rules, rule ∈ n.state.rules := by
  rw [initFromManifest_rebuilt first rebuild] at success
  obtain ⟨t, load, rules⟩ := loadManifest_rules success
  intro rule member
  rw [rules]
  exact (ninja.load_adds _ _ _ _ load).rules member

theorem initFromManifest_refuses {loaded rebuilt : NinjaMain Content BuildLog DepsLog} {fresh : State}
    (first : loadManifest ninja m file = .ok loaded) (rebuild : rebuildManifest ninja loaded file = (true, rebuilt))
    (load : ninja.load rebuilt.disk file .initial = .ok fresh) {name : String} (old : rebuilt.state.Declares name)
    (new : fresh.Declares name) (named : name ≠ State.phony) :
    ∃ error, initFromManifest ninja file true m = .error error := by
  rw [initFromManifest_rebuilt first rebuild]
  cases again : loadManifest ninja rebuilt file with
  | error error => exact ⟨error, rfl⟩
  | ok n =>
    obtain ⟨t, loadedAgain, _⟩ := loadManifest_rules again
    exact absurd old (ninja.load_duplicate _ _ _ _ _ loadedAgain load name new named)

end NinjaMain

section Statements

/-- The statements of a manifest without variables in its paths and without other files. -/
inductive Statement where
  | rule (rule : Rule)
  | build (build : Build)
  | default (path : String)
  | binding (name value : String)

namespace State

def addRule (s : State) (rule : Rule) : State :=
  { s with
    rules := s.rules ++ [rule]
    ruled := by
      intro edge listed
      obtain ⟨rule, member, same⟩ := s.ruled edge listed
      exact ⟨rule, List.mem_append_left _ member, same⟩ }

def addBuild (s : State) (build : Build) (ruled : ∃ rule ∈ s.rules, rule.name = build.rule) : State :=
  { s with
    edges := s.edges ++ [build]
    nodes := s.nodes ++ (build.outputs ++ build.inputs)
    ruled := by
      intro edge listed
      rcases List.mem_append.mp listed with listed | listed
      · exact s.ruled edge listed
      · rw [List.mem_singleton.mp listed]
        exact ruled }

def addStatement (s : State) : Statement → Except String State
  | .rule rule =>
    if ∃ old ∈ s.rules, old.name = rule.name then .error ("duplicate rule '" ++ rule.name ++ "'")
    else .ok (s.addRule rule)
  | .build build =>
    if ruled : ∃ rule ∈ s.rules, rule.name = build.rule then .ok (s.addBuild build ruled)
    else .error ("unknown build rule '" ++ build.rule ++ "'")
  | .default path =>
    if path ∈ s.nodes then .ok { s with defaults := s.defaults ++ [path] }
    else .error ("unknown target '" ++ path ++ "'")
  | .binding name value => .ok { s with bindings := Function.update s.bindings name (some value) }

def addStatements (s : State) : List Statement → Except String State
  | [] => .ok s
  | statement :: rest =>
    match s.addStatement statement with
    | .error error => .error error
    | .ok t => t.addStatements rest

variable {s t : State}

theorem Adds.refl (s : State) : s.Adds s := ⟨fun _ h => h, fun _ h => h, fun _ h => h, fun _ h => h, fun _ h => h⟩

theorem Adds.trans {u : State} (first : s.Adds t) (second : t.Adds u) : s.Adds u where
  rules _ member := second.rules (first.rules member)
  edges _ member := second.edges (first.edges member)
  nodes _ member := second.nodes (first.nodes member)
  defaults _ member := second.defaults (first.defaults member)
  bindings name defined := second.bindings name (first.bindings name defined)

theorem Adds.bind (s : State) (name value : String) :
    s.Adds { s with bindings := Function.update s.bindings name (some value) } := by
  refine ⟨fun _ h => h, fun _ h => h, fun _ h => h, fun _ h => h, ?_⟩
  intro other defined
  show (Function.update s.bindings name (some value) other).isSome = true
  by_cases same : other = name
  · rw [same, Function.update_self]
    rfl
  · rw [Function.update_of_ne same]
    exact defined

theorem addStatement_cases {statement : Statement} (added : s.addStatement statement = .ok t) :
    s.Adds t ∧ ((∃ rule, statement = .rule rule ∧ ¬ s.Declares rule.name ∧ t.rules = s.rules ++ [rule]) ∨
      (∀ rule, statement ≠ .rule rule) ∧ t.rules = s.rules) := by
  cases statement with
  | rule rule =>
    unfold addStatement at added
    dsimp only at added
    split at added
    · cases added
    · rename_i unused
      cases added
      refine ⟨⟨List.subset_append_left _ _, fun _ h => h, fun _ h => h, fun _ h => h, fun _ h => h⟩, .inl ?_⟩
      exact ⟨rule, rfl, unused, rfl⟩
  | build build =>
    unfold addStatement at added
    dsimp only at added
    split at added
    · cases added
      refine ⟨⟨fun _ h => h, ?_, ?_, fun _ h => h, fun _ h => h⟩, .inr ⟨fun _ same => (by cases same), rfl⟩⟩
      · exact List.subset_append_left _ _
      · exact List.subset_append_left _ _
    · cases added
  | default path =>
    unfold addStatement at added
    dsimp only at added
    split at added
    · cases added
      refine ⟨⟨fun _ h => h, fun _ h => h, fun _ h => h, ?_, fun _ h => h⟩, .inr ⟨fun _ same => (by cases same), rfl⟩⟩
      exact List.subset_append_left _ _
    · cases added
  | binding name value =>
    cases added
    exact ⟨Adds.bind s name value, .inr ⟨fun _ same => (by cases same), rfl⟩⟩

theorem addStatements_cons {statement : Statement} {rest : List Statement}
    (added : s.addStatements (statement :: rest) = .ok t) :
    ∃ u, s.addStatement statement = .ok u ∧ u.addStatements rest = .ok t := by
  rw [addStatements] at added
  cases first : s.addStatement statement with
  | error error =>
    rw [first] at added
    cases added
  | ok u =>
    rw [first] at added
    exact ⟨u, rfl, added⟩

theorem addStatements_adds {statements : List Statement} (added : s.addStatements statements = .ok t) :
    s.Adds t := by
  induction statements generalizing s with
  | nil =>
    cases added
    exact Adds.refl _
  | cons statement rest ih =>
    obtain ⟨u, first, later⟩ := addStatements_cons added
    exact (addStatement_cases first).1.trans (ih later)

theorem addStatements_new {statements : List Statement} (added : s.addStatements statements = .ok t) {rule : Rule}
    (declared : .rule rule ∈ statements) : ¬ s.Declares rule.name := by
  induction statements generalizing s with
  | nil => cases declared
  | cons statement rest ih =>
    obtain ⟨u, first, later⟩ := addStatements_cons added
    obtain ⟨adds, kind⟩ := addStatement_cases first
    rcases List.mem_cons.mp declared with rfl | declared
    · rcases kind with ⟨_, same, unused, _⟩ | ⟨other, _⟩
      · cases same
        exact unused
      · exact absurd rfl (other rule)
    · intro old
      obtain ⟨previous, member, same⟩ := old
      exact ih later declared ⟨previous, adds.rules member, same⟩

theorem addStatements_rules {statements : List Statement} (added : s.addStatements statements = .ok t) {rule : Rule}
    (member : rule ∈ t.rules) : rule ∈ s.rules ∨ .rule rule ∈ statements := by
  induction statements generalizing s with
  | nil =>
    cases added
    exact .inl member
  | cons statement rest ih =>
    obtain ⟨u, first, later⟩ := addStatements_cons added
    rcases ih later with old | declared
    · rcases (addStatement_cases first).2 with ⟨new, same, _, rules⟩ | kept
      · rw [rules] at old
        rcases List.mem_append.mp old with old | last
        · exact .inl old
        · rw [same, List.mem_singleton.mp last]
          exact .inr List.mem_cons_self
      · exact .inl (kept.2 ▸ old)
    · exact .inr (List.mem_cons_of_mem _ declared)

end State

def loadStatements (disk : String → Option (List Statement)) (file : String) (s : State) : Except String State :=
  match disk file with
  | none => .error ("loading '" ++ file ++ "': No such file or directory")
  | some statements => s.addStatements statements

theorem loadStatements_duplicate {disk : String → Option (List Statement)} {file : String} {s t fresh : State}
    (loaded : loadStatements disk file s = .ok t) (alone : loadStatements disk file .initial = .ok fresh)
    {name : String} (new : fresh.Declares name) (named : name ≠ State.phony) : ¬ s.Declares name := by
  unfold loadStatements at loaded alone
  cases found : disk file with
  | none =>
    rw [found] at loaded
    cases loaded
  | some statements =>
    rw [found] at loaded alone
    obtain ⟨rule, member, rfl⟩ := new
    rcases State.addStatements_rules alone member with builtin | declared
    · rw [List.mem_singleton.mp builtin] at named
      exact absurd rfl named
    · exact State.addStatements_new loaded declared

/-- A ninja without logs, whose commands write these statements to their outputs. -/
def statementNinja (written : List Statement) : NinjaLib (List Statement) Unit Unit where
  Plan := Build
  load := loadStatements
  makeDirs disk _ := some disk
  loadBuildLog _ _ log := some log
  openBuildLog m _ := some ((), m.disk)
  loadDepsLog _ _ log s := some (log, s)
  openDepsLog disk _ log := some (log, disk)
  canonicalizePath path := some path
  addTarget m path := (m.state.edges.find? fun edge => edge.rule ≠ State.phony ∧ path ∈ edge.outputs, m)
  alreadyUpToDate _ := false
  build m edge := (true, { m with disk := fun path => if path ∈ edge.outputs then some written else m.disk path })
  load_adds disk file s t loaded := by
    unfold loadStatements at loaded
    split at loaded
    · cases loaded
    · exact State.addStatements_adds loaded
  load_duplicate _ _ _ _ _ loaded alone _ := loadStatements_duplicate loaded alone
  loadDepsLog_rules _ _ _ _ _ _ loaded := by
    cases loaded
    rfl
  addTarget_rules _ _ := rfl
  build_rules _ _ := rfl
  moreToDo m path plan n added _ := by
    have found := (Prod.mk.inj added).1
    have chosen := List.find?_some found
    rw [decide_eq_true_eq] at chosen
    exact ⟨plan, List.mem_of_find?_eq_some found, chosen.1⟩

def oldManifest : List Statement :=
  [.rule ⟨"gen", []⟩, .build ⟨"gen", ["build.ninja"], []⟩, .build ⟨"gen", ["a"], []⟩, .default "a"]

def newManifest : List Statement :=
  [.rule ⟨"gen", []⟩, .build ⟨"gen", ["build.ninja"], []⟩, .build ⟨"gen", ["b"], []⟩, .default "b"]

def beforeInit : NinjaMain (List Statement) Unit Unit where
  dryRun := false
  state := .initial
  disk := fun path => if path = "build.ninja" then some oldManifest else none
  buildDir := ""
  buildLog := ()
  depsLog := ()

end Statements

namespace NinjaMain

/-- Once the manifest was rebuilt, the state is never that of the new manifest alone. -/
theorem rebuilt_not_fresh {Content BuildLog DepsLog : Type} (ninja : NinjaLib Content BuildLog DepsLog)
    (m loaded rebuilt : NinjaMain Content BuildLog DepsLog) (file : String) (fresh : State)
    (first : loadManifest ninja m file = .ok loaded) (rebuild : rebuildManifest ninja loaded file = (true, rebuilt))
    (load : ninja.load rebuilt.disk file .initial = .ok fresh) :
    ¬ ∃ n, initFromManifest ninja file true m = .ok n ∧ n.state.SameAs fresh := by
  rintro ⟨n, success, same⟩
  obtain ⟨name, named, old⟩ := rebuildManifest_declares rebuild
  obtain ⟨rule, member, rfl⟩ := old
  have survives := initFromManifest_keeps first rebuild success rule member
  have new : fresh.Declares rule.name := ⟨rule, (same.rules rule).mp survives, rfl⟩
  obtain ⟨error, failed⟩ := initFromManifest_refuses first rebuild load ⟨rule, member, rfl⟩ new named
  rw [failed] at success
  cases success

theorem rebuilt_not_fresh_generated : ∃ loaded rebuilt fresh,
    loadManifest (statementNinja newManifest) beforeInit "build.ninja" = .ok loaded ∧
      rebuildManifest (statementNinja newManifest) loaded "build.ninja" = (true, rebuilt) ∧
      loadStatements rebuilt.disk "build.ninja" .initial = .ok fresh ∧
      ¬ ∃ n, initFromManifest (statementNinja newManifest) "build.ninja" true beforeInit = .ok n ∧
        n.state.SameAs fresh := by
  obtain ⟨loaded, rebuilt, fresh, first, rebuild, load⟩ : ∃ loaded rebuilt fresh,
      loadManifest (statementNinja newManifest) beforeInit "build.ninja" = .ok loaded ∧
        rebuildManifest (statementNinja newManifest) loaded "build.ninja" = (true, rebuilt) ∧
        loadStatements rebuilt.disk "build.ninja" .initial = .ok fresh := ⟨_, _, _, rfl, rfl, rfl⟩
  exact ⟨loaded, rebuilt, fresh, first, rebuild, load,
    rebuilt_not_fresh (statementNinja newManifest) beforeInit loaded rebuilt "build.ninja" fresh first rebuild load⟩

/-- The new manifest declares `gen` as the old one did, and cannot be loaded beside it. -/
theorem regenerated_refused : ¬ ∀ (ninja : NinjaLib (List Statement) Unit Unit) m loaded rebuilt file fresh,
    loadManifest ninja m file = .ok loaded → rebuildManifest ninja loaded file = (true, rebuilt) →
      ninja.load rebuilt.disk file .initial = .ok fresh →
        ∃ n, initFromManifest ninja file true m = .ok n ∧ n.state.SameAs fresh := by
  intro always
  obtain ⟨loaded, rebuilt, fresh, first, rebuild, load, refused⟩ : ∃ loaded rebuilt fresh,
      loadManifest (statementNinja newManifest) beforeInit "build.ninja" = .ok loaded ∧
        rebuildManifest (statementNinja newManifest) loaded "build.ninja" = (true, rebuilt) ∧
        loadStatements rebuilt.disk "build.ninja" .initial = .ok fresh ∧
        loadManifest (statementNinja newManifest) rebuilt "build.ninja" = .error "duplicate rule 'gen'" :=
    ⟨_, _, _, rfl, rfl, rfl, rfl⟩
  obtain ⟨n, success, _⟩ := always (statementNinja newManifest) beforeInit loaded rebuilt "build.ninja" fresh
    first rebuild load
  rw [initFromManifest_rebuilt first rebuild, refused] at success
  cases success

end NinjaMain

end DistributedNinja.Ninja
