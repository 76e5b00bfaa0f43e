import DistributedNinja.Slave.SlaveEffects

namespace DistributedNinja.Slave

open Lib Proto Common Ninja

variable {Edge : Type} [DecidableEq Edge] {S : Setting Edge}

/-- The scan has found the outputs ready, or a subprocess with the edge's command has exited successfully. -/
def Succeeded (S : Setting Edge) (log : List (EdgeCall Edge)) (edge : Edge) : Prop :=
  S.plan.outputsReady S.plan.empty edge = true ∨
    .exited (SlaveMainRunner.commandOf S edge) .success ∈ log

def Built (S : Setting Edge) (log : List (EdgeCall Edge)) (edge : Edge) : Prop :=
  Succeeded S log edge ∨ S.plan.dirty edge = false

/-- `EdgeFinished` is for an edge that has succeeded, and neither an edge is given out nor a request answered
    on the strength of an edge that was not built. -/
def Founded (S : Setting Edge) (hashEdgeMap : UInt32 → Option Edge) (before : List (EdgeCall Edge)) :
    EdgeCall Edge → Prop
  | .finished edge => S.manifest.isPhony edge = false → Succeeded S before edge
  | .found edge => ∀ other ∈ S.manifest.prerequisites edge, S.manifest.isPhony other = false →
      Built S before other
  | .answered edgeId .kExitSuccess => ∀ edge, hashEdgeMap edgeId = some edge →
      S.manifest.isPhony edge = false → Built S before edge
  | _ => True

theorem Succeeded.append {log : List (EdgeCall Edge)} {edge : Edge} (succeeded : Succeeded S log edge)
    (more : List (EdgeCall Edge)) : Succeeded S (log ++ more) edge := by
  rcases succeeded with scanned | exited
  · exact .inl scanned
  · exact .inr (List.mem_append_left _ exited)

theorem Built.append {log : List (EdgeCall Edge)} {edge : Edge} (built : Built S log edge)
    (more : List (EdgeCall Edge)) : Built S (log ++ more) edge := by
  rcases built with succeeded | clean
  · exact .inl (succeeded.append more)
  · exact .inr clean

namespace SlaveMainRunner

variable {s t : SlaveMainRunner S} {disk : Edge → Disk}

structure Sound (map : UInt32 → Option Edge) (s : SlaveMainRunner S) : Prop where
  hashEdgeMap : s.hashEdgeMap = map
  registered : ∀ hash edge, s.commandHashEdgeMap hash = some edge → S.plan.dirty edge = true
  ready : ∀ edge, S.manifest.isPhony edge = false → S.plan.outputsReady s.plan edge = true →
    Built S s.log edge
  founded : Grounded (Founded S map) s.log

variable {map : UInt32 → Option Edge}

theorem Sound.congr (sound : s.Sound map) (edges : t.hashEdgeMap = s.hashEdgeMap) (plan : t.plan = s.plan)
    (commands : t.commandHashEdgeMap = s.commandHashEdgeMap) (log : t.log = s.log) : t.Sound map :=
  ⟨edges.trans sound.hashEdgeMap, commands ▸ sound.registered, plan ▸ log ▸ sound.ready, log ▸ sound.founded⟩

theorem Sound.logged (sound : s.Sound map) {call : EdgeCall Edge} (founded : Founded S map s.log call) :
    Sound map { s with log := s.log ++ [call] } := by
  refine ⟨sound.hashEdgeMap, sound.registered, ?_, sound.founded.append founded⟩
  intro edge real ready
  exact (sound.ready edge real ready).append _

theorem Sound.found (sound : s.Sound map) {edge : Edge} {plan : S.plan.State}
    (given : S.plan.findWork s.plan = some (edge, plan)) : (s.registered edge plan).Sound map := by
  obtain ⟨dirty, prerequisites, same⟩ := S.plan.findWork_ready _ _ _ given
  refine ⟨sound.hashEdgeMap, ?_, ?_, ?_⟩
  · intro hash other at_
    simp only [SlaveMainRunner.registered] at at_
    by_cases own : hash = S.hash (commandOf S edge)
    · rw [own, Function.update_self] at at_
      exact Option.some.inj at_ ▸ dirty
    · rw [Function.update_of_ne own] at at_
      exact sound.registered hash other at_
  · intro other real ready
    simp only [SlaveMainRunner.registered, same] at ready
    exact (sound.ready other real ready).append _
  · apply sound.founded.append
    intro other needed real
    exact sound.ready other real (prerequisites other needed)

theorem Sound.pass (sound : s.Sound map) {edge : Edge} {plan : S.plan.State}
    (given : S.plan.findWork s.plan = some (edge, plan)) (disk : Edge → Disk) :
    (s.passed disk edge plan).Sound map := by
  rw [passed_keeps]
  exact (sound.found given).congr rfl rfl rfl rfl

theorem Sound.startReadyEdges (sound : s.Sound map) (fuel : Nat) : (s.startReadyEdges disk fuel).Sound map := by
  induction fuel generalizing s with
  | zero => exact sound
  | succ fuel ih =>
    unfold SlaveMainRunner.startReadyEdges
    split
    · exact sound
    · rename_i edge plan given
      exact ih (sound.pass given disk)

theorem Sound.edgeFinished (sound : s.Sound map) {edge : Edge}
    (succeeded : S.manifest.isPhony edge = false → Succeeded S s.log edge) :
    (s.edgeFinished edge).Sound map := by
  refine ⟨sound.hashEdgeMap, sound.registered, ?_, sound.founded.append succeeded⟩
  intro other real ready
  rcases S.plan.released _ _ _ ready with rfl | before | clean
  · exact .inl ((succeeded real).append _)
  · exact (sound.ready other real before).append _
  · exact .inr clean

theorem Sound.answer (sound : s.Sound map) {command : String} {status : ExitStatus} {output : String}
    (built : ∀ context, s.runCommandContextMap (S.hash command) = some context → ∀ edge,
      map context.request.edgeId = some edge → S.manifest.isPhony edge = false → Built S s.log edge) :
    (s.answer command status output).Sound map := by
  unfold SlaveMainRunner.answer
  split
  · exact sound
  · rename_i context found
    refine (sound.logged ?_).congr rfl rfl rfl rfl
    dsimp only
    cases status with
    | success => exact built context found
    | failure => trivial
    | interrupted => trivial

theorem Sound.onCommandFinished (sound : s.Sound map) {edge : Edge} {command : String} {status : ExitStatus}
    {output : String} (succeeded : S.manifest.isPhony edge = false → Succeeded S s.log edge)
    (built : ∀ context, s.runCommandContextMap (S.hash command) = some context → ∀ edge,
      map context.request.edgeId = some edge → S.manifest.isPhony edge = false → Built S s.log edge)
    (fuel : Nat) :
    (((s.edgeFinished edge).startReadyEdges disk fuel).answer command status output).Sound map := by
  have started := startReadyEdges_started disk fuel (s.edgeFinished edge)
  obtain ⟨found, log⟩ := started.log
  apply ((sound.edgeFinished succeeded).startReadyEdges fuel).answer
  intro context waits other at_ real
  rw [started.contexts] at waits
  rw [log]
  exact ((built context waits other at_ real).append _).append _

theorem addTargets_outputsReady (plan : S.plan.State) (paths : List String) :
    S.plan.outputsReady (addTargets plan paths) = S.plan.outputsReady plan := by
  induction paths generalizing plan with
  | nil => rfl
  | cons path rest ih =>
    calc S.plan.outputsReady (addTargets (S.plan.addTarget plan path).2.2 rest)
        = S.plan.outputsReady (S.plan.addTarget plan path).2.2 := ih _
      _ = S.plan.outputsReady plan := S.plan.outputsReady_addTarget plan path

/-- Subprocesses exit successfully, and the hash of a command stands for that command: the edge that is
    registered under it and the edge of the request that waits under it have this command. A request for an
    edge with ready outputs finds that very edge registered. -/
def trustworthy (s : SlaveMainRunner S) : SlaveEvent Edge → Bool
  | .exited pid status _ _ =>
    (s.executor.find? pid).all fun p =>
      decide (status = .success) &&
        (s.commandHashEdgeMap (S.hash p.command)).all (fun edge => decide (commandOf S edge = p.command)) &&
          (s.runCommandContextMap (S.hash p.command)).all fun context =>
            (s.hashEdgeMap context.request.edgeId).all fun edge => decide (commandOf S edge = p.command)
  | .taskRun _ =>
    match s.queue with
    | .runRequest request _ :: _ =>
      (s.hashEdgeMap request.edgeId).all fun edge => !S.plan.outputsReady s.plan edge ||
        (s.commandHashEdgeMap (S.hash (commandOf S edge))).all fun other => decide (other = edge)
    | _ => true
  | _ => true

section Step

variable {request : RunCommandRequest} {done : Nat} {rest : List (SlaveTask Edge)} {edge : Edge}

theorem trustworthy_taskRun {other : Edge} (trusted : s.trustworthy (.taskRun disk) = true)
    (head : s.queue = .runRequest request done :: rest) (known : s.hashEdgeMap request.edgeId = some edge)
    (ready : S.plan.outputsReady s.plan edge = true)
    (registered : s.commandHashEdgeMap (S.hash (commandOf S edge)) = some other) : other = edge := by
  rw [trustworthy, head] at trusted
  simpa [known, ready, registered] using trusted

theorem Sound.upToDate (sound : s.Sound map) (known : s.hashEdgeMap request.edgeId = some edge)
    (ready : S.plan.outputsReady s.plan edge = true)
    (registered : s.commandHashEdgeMap (S.hash (commandOf S edge)) = some edge) (fuel : Nat) :
    ((((awaiting { s with queue := rest } edge (freshContext request done)).edgeFinished
      edge).startReadyEdges disk fuel).answer (commandOf S edge) .success "").Sound map := by
  have waits : (awaiting { s with queue := rest } edge (freshContext request done)).Sound map :=
    sound.congr rfl rfl rfl rfl
  refine waits.onCommandFinished ?_ ?_ fuel
  · intro real
    rcases sound.ready _ real ready with succeeded | clean
    · exact succeeded
    · rw [sound.registered _ _ registered] at clean
      cases clean
  · intro context found other at_ real
    simp only [awaiting, Function.update_self, Option.some.injEq] at found
    rw [← found, ← sound.hashEdgeMap] at at_
    obtain rfl := Option.some.inj (known.symm.trans at_)
    exact sound.ready edge real ready

theorem Sound.queued (sound : s.Sound map) (fuel : Nat) :
    (SlaveMainRunner.startReadyEdges disk fuel
      { awaiting { s with queue := rest } edge (freshContext request done) with
        plan := addTargets s.plan (S.manifest.outputs edge) }).Sound map := by
  apply Sound.startReadyEdges
  refine ⟨sound.hashEdgeMap, sound.registered, ?_, sound.founded⟩
  intro other real ready
  rw [addTargets_outputsReady] at ready
  exact sound.ready other real ready

theorem Sound.exited (sound : s.Sound map) {pid : Nat} {status : ExitStatus} {output : String}
    {p : Subprocess Edge} (trusted : s.trustworthy (.exited pid status output disk) = true)
    (found : s.executor.find? pid = some p)
    (registered : s.commandHashEdgeMap (S.hash p.command) = some edge) (fuel : Nat) :
    (SlaveMainRunner.answer (SlaveMainRunner.startReadyEdges disk fuel
      (SlaveMainRunner.edgeFinished { s with log := s.log ++ [.exited p.command status] } edge))
        p.command status output).Sound map := by
  simp only [trustworthy, found, registered, Option.all_some, Bool.and_eq_true, decide_eq_true_eq] at trusted
  obtain ⟨⟨rfl, same⟩, requested⟩ := trusted
  have succeeded : ∀ edge, commandOf S edge = p.command →
      Succeeded S (s.log ++ [.exited p.command .success]) edge := by
    intro edge same
    right
    rw [same]
    exact List.mem_append_right _ List.mem_cons_self
  have logged : Sound map { s with log := s.log ++ [.exited p.command .success] } := sound.logged trivial
  refine logged.onCommandFinished (fun _ => succeeded edge same) ?_ fuel
  intro context waits other at_ _
  change s.runCommandContextMap _ = some context at waits
  rw [← sound.hashEdgeMap] at at_
  rw [waits, Option.all_some, at_] at requested
  exact .inl (succeeded other (by simpa using requested))

end Step

theorem Sound.step (sound : s.Sound map) {event : SlaveEvent Edge}
    (trusted : s.trustworthy event = true) (stepped : s.step event = some t) : t.Sound map := by
  cases step_effect stepped with
  | posted => exact sound.congr rfl rfl rfl rfl
  | refused head unknown failure =>
    refine (sound.logged ?_).congr rfl rfl rfl rfl
    rw [failure]
    trivial
  | upToDate head known ready registered enters entered =>
    obtain rfl := trustworthy_taskRun trusted head known ready registered
    rw [entered]
    exact sound.upToDate known ready registered _
  | queued head known unready enters entered =>
    rw [entered]
    exact sound.queued _
  | ran head => exact sound.congr rfl rfl rfl rfl
  | exited found registered enters entered =>
    rw [entered]
    exact (sound.exited trusted found registered _).congr rfl rfl rfl rfl
  | digested at_ => exact sound.congr rfl rfl rfl rfl

theorem postCreateThreads_sound (created : postCreateThreads S = some s) : s.Sound s.hashEdgeMap := by
  obtain ⟨map, _, rfl⟩ := Option.map_eq_some_iff.mp created
  refine ⟨rfl, nofun, fun edge _ ready => .inl (.inl ready), ?_⟩
  intro before entry after shape
  simp at shape

/-- In every run of the slave in which subprocesses exit successfully and no two commands share a hash where it
    matters, `EdgeFinished` is called only for edges that have succeeded, and edges are given out and requests
    answered with success only on the strength of edges that were built. -/
theorem failed_prerequisite_never_built {start : SlaveMainRunner S}
    (created : postCreateThreads S = some start) (events : List (SlaveEvent Edge))
    (trusted : Along step (fun s event => s.trustworthy event = true) start events)
    (replay : run step start events = some s) : Grounded (Founded S start.hashEdgeMap) s.log := by
  have sound : s.Sound start.hashEdgeMap := run_invariant_along
    (fun _ _ _ sound trusted stepped => sound.step trusted stepped) (postCreateThreads_sound created)
    trusted replay
  exact sound.founded

def programManifest : Manifest (Fin 2) where
  ruleName edge := if edge = 0 then "cc" else "link"
  isPhony _ := false
  evaluateCommand edge := if edge = 0 then "cc -c a.c" else "ld a.o"
  inputs edge := if edge = 0 then ["a.c"] else ["a.o"]
  outputs edge := if edge = 0 then ["a.o"] else ["app"]
  unescapedRspfile _ := ""
  rspfileContent _ := ""
  deps _ := ""
  unescapedDepfile _ := ""
  restat _ := false
  mtime _ := 0
  inEdge path := (List.finRange 2).find? fun edge => path = if edge = 0 then "a.o" else "app"
  outputs_inEdge := by decide +kernel

def program : Setting (Fin 2) where
  manifest := programManifest
  plan := graphReadyPlan programManifest (by decide +kernel) (fun _ => [0, 1]) fun _ => by decide +kernel
  hash := sumHash
  processors := 1
  edges := [0, 1]

def firstEdge : Fin 2 := 0

def secondEdge : Fin 2 := 1

def workingDisk : Disk := ⟨fun _ => true, fun _ _ => true⟩

def linkAfter (status : ExitStatus) : List (SlaveEvent (Fin 2)) :=
  [.requestPosted ⟨hashEdge program 1, ["app"], none⟩ 0, .taskRun fun _ => workingDisk,
    .exited 0 status "" fun _ => workingDisk]

theorem failed_prerequisite_never_built_program :
    ∃ start s, postCreateThreads program = some start ∧ run step start (linkAfter .success) = some s ∧
      .found 1 ∈ s.log ∧ Grounded (Founded program start.hashEdgeMap) s.log := by
  have linked : (postCreateThreads program).map (fun start =>
      decide (Along step (fun s event => s.trustworthy event = true) start (linkAfter .success)) &&
        (run step start (linkAfter .success)).any fun s => decide (.found 1 ∈ s.log)) = some true := by
    decide +kernel
  obtain ⟨start, created, shape⟩ := Option.map_eq_some_iff.mp linked
  rw [Bool.and_eq_true, decide_eq_true_eq, Option.any_eq_true] at shape
  obtain ⟨trusted, s, replay, found⟩ := shape
  exact ⟨start, s, created, replay, of_decide_eq_true found,
    failed_prerequisite_never_built created (linkAfter .success) trusted replay⟩

/-- The object's command fails, and `EdgeFinished` is called for it all the same. -/
theorem failed_prerequisite_counts_as_built :
    ¬ ∀ (start : SlaveMainRunner program) (events : List (SlaveEvent (Fin 2))) (s : SlaveMainRunner program),
      postCreateThreads program = some start → run step start events = some s →
        Grounded (Founded program start.hashEdgeMap) s.log := by
  have failed : (postCreateThreads program).map (fun start =>
      (run step start (linkAfter .failure)).map SlaveMainRunner.log) =
        some (some [.found 0, .exited "cc -c a.c" .failure, .finished 0, .found 1]) := by
    decide +kernel
  intro always
  obtain ⟨start, created, shape⟩ := Option.map_eq_some_iff.mp failed
  obtain ⟨s, replay, log⟩ := Option.map_eq_some_iff.mp shape
  have founded := always start _ s created replay [.found 0, .exited "cc -c a.c" .failure] (.finished 0) [.found 1]
  rcases founded (by rw [log]; rfl) rfl with scanned | exited
  · exact absurd scanned (by decide +kernel)
  · exact absurd exited (by decide +kernel)

end SlaveMainRunner

end DistributedNinja.Slave
