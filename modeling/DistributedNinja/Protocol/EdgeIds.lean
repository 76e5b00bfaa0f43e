import DistributedNinja.Master.Dispatch
import DistributedNinja.Ninja.NinjaMain
import DistributedNinja.Slave.SlaveEffects

namespace DistributedNinja.Protocol

open Lib Proto Ninja Slave

theorem eq_of_outputs {Edge : Type} {manifest : Manifest Edge} {first second : Edge}
    (some_output : manifest.outputs second ≠ []) (same : manifest.outputs first = manifest.outputs second) :
    first = second := by
  obtain ⟨path, member⟩ := List.exists_mem_of_ne_nil _ some_output
  have produced := manifest.outputs_inEdge first path (same ▸ member)
  exact Option.some.inj (produced.symm.trans (manifest.outputs_inEdge second path member))

variable {Edge : Type} [DecidableEq Edge]

section Lookup

variable {S : Slave.Setting Edge} {s t : SlaveMainRunner S}

theorem hashEdges_spec {edges : List Edge} {map result : UInt32 → Option Edge}
    (hashed : SlaveMainRunner.hashEdges S edges map = some result) (id : UInt32) (edge : Edge) :
    result id = some edge ↔ map id = some edge ∨ edge ∈ edges ∧ SlaveMainRunner.hashEdge S edge = id := by
  induction edges generalizing map with
  | nil =>
    cases hashed
    simp
  | cons first rest ih =>
    unfold SlaveMainRunner.hashEdges at hashed
    split at hashed
    · cases hashed
    · rename_i unused
      have free : map (SlaveMainRunner.hashEdge S first) = none := by simpa using unused
      rw [ih hashed]
      by_cases own : SlaveMainRunner.hashEdge S first = id
      · subst own
        rw [Function.update_self, free, List.mem_cons]
        constructor
        · rintro (entered | ⟨member, same⟩)
          · cases entered
            exact .inr ⟨.inl rfl, rfl⟩
          · exact .inr ⟨.inr member, same⟩
        · rintro (before | ⟨rfl | member, same⟩)
          · cases before
          · exact .inl rfl
          · exact .inr ⟨member, same⟩
      · have different : id ≠ SlaveMainRunner.hashEdge S first := Ne.symm own
        rw [Function.update_of_ne different, List.mem_cons]
        constructor
        · exact Or.imp_right fun ⟨member, same⟩ => ⟨.inr member, same⟩
        · rintro (before | ⟨rfl | member, same⟩)
          · exact .inl before
          · exact absurd same own
          · exact .inr ⟨member, same⟩

theorem step_hashEdgeMap {event : SlaveEvent Edge} (stepped : s.step event = some t) :
    t.hashEdgeMap = s.hashEdgeMap := by
  have kept : ∀ {u : SlaveMainRunner S} (disk : Edge → Disk) (command : String) (status : ExitStatus)
      (output : String),
      ((u.startReadyEdges disk u.edgesLeft).answer command status output).hashEdgeMap = u.hashEdgeMap := by
    intro u disk command status output
    rw [SlaveMainRunner.answer_keeps]
    exact (SlaveMainRunner.startReadyEdges_started disk _ u).hashEdgeMap
  cases SlaveMainRunner.step_effect stepped with
  | posted | refused | ran | digested => rfl
  | upToDate head known ready registered enters entered =>
    subst entered
    exact kept _ _ _ _
  | queued head known unready enters entered =>
    subst entered
    exact (SlaveMainRunner.startReadyEdges_started _ _ _).hashEdgeMap
  | exited found registered enters entered =>
    subst entered
    exact kept _ _ _ _

theorem hashEdgeMap_spec {start : SlaveMainRunner S} (created : SlaveMainRunner.postCreateThreads S = some start)
    {events : List (SlaveEvent Edge)} (replay : run SlaveMainRunner.step start events = some s) (id : UInt32)
    (edge : Edge) :
    s.hashEdgeMap id = some edge ↔ edge ∈ S.edges ∧ SlaveMainRunner.hashEdge S edge = id := by
  have same : s.hashEdgeMap = start.hashEdgeMap :=
    run_invariant (fun _ _ _ same stepped => (step_hashEdgeMap stepped).trans same) rfl replay
  obtain ⟨map, hashed, rfl⟩ := Option.map_eq_some_iff.mp created
  rw [same]
  simpa using hashEdges_spec hashed id edge

end Lookup

/-- The master and a slave that have loaded the same manifest, whose default targets are these nodes;
    `base::Hash` is the same function on both. The set that `GetAllEdges` fills has an order of its own. -/
structure SameManifest [Fintype Edge] (M : Master.Setting Edge) (T : Slave.Setting Edge)
    (defaultNodes : List String) : Prop where
  manifest : T.manifest = M.manifest
  hash : T.hash = M.hash
  edges : T.edges.Perm (M.manifest.getAllEdges defaultNodes)

section EdgeIds

variable [Fintype Edge] {M : Master.Setting Edge} {T : Slave.Setting Edge} {defaultNodes : List String}

theorem SameManifest.hashEdge (same : SameManifest M T defaultNodes) (edge : Edge) :
    SlaveMainRunner.hashEdge T edge = Master.MainThread.hashEdge M edge := by
  rw [SlaveMainRunner.hashEdge, Master.MainThread.hashEdge, same.manifest, same.hash]

theorem SameManifest.accepts_iff (same : SameManifest M T defaultNodes) {start s : SlaveMainRunner T}
    (created : SlaveMainRunner.postCreateThreads T = some start) {events : List (SlaveEvent Edge)}
    (replay : run SlaveMainRunner.step start events = some s) (id : UInt32) (edge : Edge) :
    s.hashEdgeMap id = some edge ↔
      M.manifest.NeededFor defaultNodes edge ∧ Master.MainThread.hashEdge M edge = id := by
  rw [hashEdgeMap_spec created replay, same.edges.mem_iff, mem_getAllEdges, same.hashEdge]

/-- In every state of a slave that has passed its startup `CHECK`, the id that the master computes for an edge
    leads to an edge with the same rule name and the same outputs, if to any, exactly when the default targets
    need that edge or none of the edges they need has its id. -/
theorem edge_id_means_same_edge_iff (same : SameManifest M T defaultNodes)
    (produces : ∀ edge, M.manifest.outputs edge ≠ []) {start s : SlaveMainRunner T}
    (created : SlaveMainRunner.postCreateThreads T = some start) (events : List (SlaveEvent Edge))
    (replay : run SlaveMainRunner.step start events = some s) (edge : Edge) :
    (∀ found, s.hashEdgeMap (Master.MainThread.hashEdge M edge) = some found →
        T.manifest.ruleName found = M.manifest.ruleName edge ∧ T.manifest.outputs found = M.manifest.outputs edge) ↔
      M.manifest.NeededFor defaultNodes edge ∨ ∀ other, M.manifest.NeededFor defaultNodes other →
        Master.MainThread.hashEdge M other ≠ Master.MainThread.hashEdge M edge := by
  have accepts := same.accepts_iff created replay (Master.MainThread.hashEdge M edge)
  rw [same.manifest]
  constructor
  · intro agrees
    by_cases clash : ∃ other, M.manifest.NeededFor defaultNodes other ∧
        Master.MainThread.hashEdge M other = Master.MainThread.hashEdge M edge
    · obtain ⟨other, needed, equal⟩ := clash
      obtain ⟨_, outputs⟩ := agrees other ((accepts other).mpr ⟨needed, equal⟩)
      exact .inl (eq_of_outputs (produces edge) outputs ▸ needed)
    · exact .inr fun other needed equal => clash ⟨other, needed, equal⟩
  · rintro (needed | unknown) found listed
    · have own := (accepts edge).mpr ⟨needed, rfl⟩
      rw [Option.some.inj (listed.symm.trans own)]
      exact ⟨rfl, rfl⟩
    · obtain ⟨needed, equal⟩ := (accepts found).mp listed
      exact absurd equal (unknown found needed)

/-- Two of the names differ only in the case. -/
def letters : Fin 5 → String
  | 0 => "b.o"
  | 1 => "c.o"
  | 2 => "d.o"
  | 3 => "A.o"
  | 4 => "a.o"

def lettersManifest : Manifest (Fin 5) where
  ruleName _ := "cc"
  isPhony _ := false
  evaluateCommand edge := "cc -c " ++ toString edge.val ++ ".c"
  inputs edge := [toString edge.val ++ ".c"]
  outputs edge := [letters edge]
  unescapedRspfile _ := ""
  rspfileContent _ := ""
  deps _ := ""
  unescapedDepfile _ := ""
  restat _ := false
  mtime _ := 0
  inEdge path := (List.finRange 5).find? fun edge => path = letters edge
  outputs_inEdge := by decide +kernel

theorem lettersManifest_prerequisites (edge : Fin 5) : lettersManifest.prerequisites edge = [] := by
  revert edge
  decide +kernel

theorem lettersManifest_hashEdge (hash : String → UInt32) :
    lettersManifest.hashEdge hash 3 = lettersManifest.hashEdge hash 4 := by
  have capital : ("cc" ++ " " ++ "A.o").toLower = "cc a.o" := by decide +kernel
  have small : ("cc" ++ " " ++ "a.o").toLower = "cc a.o" := by decide +kernel
  exact congrArg hash (capital.trans small.symm)

def lettersMaster : Master.Setting (Fin 5) where
  manifest := lettersManifest
  plan := graphPlan lettersManifest (by decide +kernel) (fun path => (lettersManifest.inEdge path).toList)
    fun _ edge _ other needed => by cases lettersManifest_prerequisites edge ▸ needed
  hash := sumHash
  parseDepfile _ := .ok []
  processors := 1
  operatingSystemName := "Linux"
  operatingSystemArchitecture := "x86_64"
  maxSlaveAmount := 100

def lettersSlave : Slave.Setting (Fin 5) where
  manifest := lettersManifest
  plan := graphReadyPlan lettersManifest (by decide +kernel) (fun path => (lettersManifest.inEdge path).toList)
    fun _ edge _ other needed => by cases lettersManifest_prerequisites edge ▸ needed
  hash := sumHash
  processors := 1
  edges := (lettersManifest.inEdge "a.o").toList

theorem lettersManifest_same : SameManifest lettersMaster lettersSlave ["a.o"] where
  manifest := rfl
  hash := rfl
  edges := by decide +kernel

theorem edge_id_means_same_edge_letters :
    ∃ start, SlaveMainRunner.postCreateThreads lettersSlave = some start ∧
      ((∀ found, start.hashEdgeMap (Master.MainThread.hashEdge lettersMaster 4) = some found →
          lettersManifest.ruleName found = lettersManifest.ruleName 4 ∧
            lettersManifest.outputs found = lettersManifest.outputs 4) ↔
        lettersManifest.NeededFor ["a.o"] 4 ∨ ∀ other, lettersManifest.NeededFor ["a.o"] other →
          Master.MainThread.hashEdge lettersMaster other ≠ Master.MainThread.hashEdge lettersMaster 4) := by
  have passed : (SlaveMainRunner.postCreateThreads lettersSlave).isSome = true := by decide +kernel
  obtain ⟨start, created⟩ := Option.isSome_iff_exists.mp passed
  have produces : ∀ edge, lettersMaster.manifest.outputs edge ≠ [] := by decide +kernel
  exact ⟨start, created, edge_id_means_same_edge_iff lettersManifest_same produces created [] rfl 4⟩

def lettersWorking : Master.Environment (Fin 5) :=
  ⟨fun _ => ⟨fun _ => true, fun _ _ => true, fun _ => .ok "", fun _ => 0, fun _ => 1, true, true⟩,
    some ["b.o", "c.o", "d.o", "A.o"], fun _ => .ok false⟩

def capitalDispatched : List (Master.MainEvent (Fin 5)) :=
  [.noticePosted (.onSlaveSystemInfoAvailable 0 ⟨1, 0, 0, "Linux", "", "x86_64", "10.0.0.2", 0, 0, 0⟩),
    .taskRun lettersWorking, .startPosted, .taskRun lettersWorking]

/-- The slave has only checked what its default targets need, and takes the id of `A.o` for that of `a.o`. -/
theorem capital_taken_for_default_target :
    ¬ ∀ (events : List (Master.MainEvent (Fin 5))) (m : Master.MainThread lettersMaster)
      (edge : Fin 5) (connectionId : Int) (start : SlaveMainRunner lettersSlave) (found : Fin 5),
      run Master.MainThread.step (Master.MainThread.new lettersMaster) events = some m →
      Master.dispatchOf lettersMaster edge connectionId ∈ m.rpcPosts →
      SlaveMainRunner.postCreateThreads lettersSlave = some start →
      start.hashEdgeMap (Master.MainThread.hashEdge lettersMaster edge) = some found →
        lettersManifest.ruleName found = lettersManifest.ruleName edge ∧
          lettersManifest.outputs found = lettersManifest.outputs edge := by
  intro always
  have sent : (run Master.MainThread.step (Master.MainThread.new lettersMaster) capitalDispatched).map
      (fun m => decide (Master.dispatchOf lettersMaster 3 0 ∈ m.rpcPosts)) = some true := by
    decide +kernel
  have accepted : (SlaveMainRunner.postCreateThreads lettersSlave).map
      (fun start => start.hashEdgeMap (SlaveMainRunner.hashEdge lettersSlave 4)) = some (some 4) := by
    decide +kernel
  obtain ⟨m, replay, posted⟩ := Option.map_eq_some_iff.mp sent
  obtain ⟨start, created, listed⟩ := Option.map_eq_some_iff.mp accepted
  have taken : start.hashEdgeMap (Master.MainThread.hashEdge lettersMaster 3) = some 4 :=
    (congrArg start.hashEdgeMap (lettersManifest_hashEdge sumHash)).trans listed
  have same := always capitalDispatched m 3 0 start 4 replay (of_decide_eq_true posted) created taken
  exact absurd same (by decide +kernel)

end EdgeIds

section AllowedEdges

variable [Fintype Edge]

/-- However `GetAllEdges` goes through the inputs and the default nodes, it comes to an end with the edges that
    the default nodes need, each once, and the slave then allows exactly the ids of these edges. -/
theorem allowed_edges_exact (manifest : Manifest Edge) (defaultNodes : List String) (inputs : Edge → List Edge)
    (roots : List Edge) (inputsOf : ∀ edge, (inputs edge).Perm (manifest.prerequisites edge))
    (rootsOf : roots.Perm (defaultNodes.filterMap manifest.inEdge)) :
    (∃ edges, Visits inputs roots [] edges) ∧ ∀ edges, Visits inputs roots [] edges →
      edges.Nodup ∧ (∀ edge, edge ∈ edges ↔ manifest.NeededFor defaultNodes edge) ∧
        ∀ (T : Slave.Setting Edge) (start s : SlaveMainRunner T) (events : List (SlaveEvent Edge)),
          T.manifest = manifest → T.edges.Perm edges → SlaveMainRunner.postCreateThreads T = some start →
          run SlaveMainRunner.step start events = some s → ∀ id, (s.hashEdgeMap id).isSome = true ↔
            ∃ edge, manifest.NeededFor defaultNodes edge ∧ manifest.hashEdge T.hash edge = id := by
  constructor
  · exact ⟨_, closure_visits roots⟩
  · intro edges visits
    have needed : ∀ edge, edge ∈ edges ↔ manifest.NeededFor defaultNodes edge :=
      fun edge => mem_of_visits inputsOf rootsOf visits
    refine ⟨visits.explores.nodup List.nodup_nil, needed, ?_⟩
    intro T start s events loaded filled created replay id
    rw [Option.isSome_iff_exists]
    apply exists_congr
    intro edge
    rw [hashEdgeMap_spec created replay, filled.mem_iff, needed, SlaveMainRunner.hashEdge, loaded]

theorem allowed_edges_exact_letters :
    ∃ start, SlaveMainRunner.postCreateThreads lettersSlave = some start ∧
      ∀ id, (start.hashEdgeMap id).isSome = true ↔
        ∃ edge, lettersManifest.NeededFor ["a.o"] edge ∧ lettersManifest.hashEdge sumHash edge = id := by
  have passed : (SlaveMainRunner.postCreateThreads lettersSlave).isSome = true := by decide +kernel
  obtain ⟨start, created⟩ := Option.isSome_iff_exists.mp passed
  obtain ⟨_, exact_⟩ := allowed_edges_exact lettersManifest ["a.o"] lettersManifest.prerequisites
    (["a.o"].filterMap lettersManifest.inEdge) (fun _ => List.Perm.refl _) (List.Perm.refl _)
  obtain ⟨_, _, allows⟩ := exact_ _ (closure_visits _)
  exact ⟨start, created, allows lettersSlave start start [] rfl lettersManifest_same.edges created rfl⟩

end AllowedEdges

end DistributedNinja.Protocol
