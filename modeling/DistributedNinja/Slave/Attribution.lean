import DistributedNinja.Slave.FailedPrerequisite
import DistributedNinja.Slave.SlaveEffects

namespace DistributedNinja.Slave

open Lib Proto Common Ninja

variable {Edge : Type}

def Awaited (log : List (EdgeCall Edge)) (edge : Edge) : Prop :=
  ∃ before after, log = before ++ .found edge :: after ∧ .finished edge ∉ after

theorem awaited_found (log : List (EdgeCall Edge)) (edge : Edge) : Awaited (log ++ [.found edge]) edge :=
  ⟨log, [], rfl, nofun⟩

theorem Awaited.append {log : List (EdgeCall Edge)} {edge : Edge} {entry : EdgeCall Edge}
    (awaited : Awaited log edge) (other : entry ≠ .finished edge) : Awaited (log ++ [entry]) edge := by
  obtain ⟨before, after, rfl, unfinished⟩ := awaited
  refine ⟨before, after ++ [entry], by simp, ?_⟩
  rw [List.mem_append, List.mem_singleton]
  rintro (finished | same)
  · exact unfinished finished
  · exact other same.symm

def FinishesAwaited (log : List (EdgeCall Edge)) : Prop :=
  Grounded (fun before entry => ∀ edge, entry = .finished edge → Awaited before edge) log

theorem FinishesAwaited.append {log : List (EdgeCall Edge)} {entry : EdgeCall Edge}
    (grounded : FinishesAwaited log) (other : ∀ edge, entry ≠ .finished edge) :
    FinishesAwaited (log ++ [entry]) :=
  Grounded.append grounded fun edge same => absurd same (other edge)

variable [DecidableEq Edge] {S : Setting Edge}

namespace SlaveMainRunner

variable {s t : SlaveMainRunner S} {disk : Edge → Disk} {edge : Edge} {gone : Option Nat}

structure Expecting (gone : Option Nat) (s : SlaveMainRunner S) : Prop extends Running gone s where
  registered : ∀ hash edge, s.commandHashEdgeMap hash = some edge → S.hash (commandOf S edge) = hash
  apart : ((s.underWay gone).map fun command => S.hash command.1).Nodup
  awaited : ∀ command ∈ s.underWay gone, ∃ edge,
    s.commandHashEdgeMap (S.hash command.1) = some edge ∧ Awaited s.log edge
  finished : FinishesAwaited s.log

def startsApart (gone : Option Nat) (disk : Edge → Disk) (s : SlaveMainRunner S) (edge : Edge) : Bool :=
  !launches S (disk edge) edge ||
    (s.underWay gone).all fun command => decide (S.hash command.1 ≠ S.hash (commandOf S edge))

theorem Expecting.pass (expecting : Expecting gone s) {plan : S.plan.State}
    (apart : startsApart gone disk s edge = true) : Expecting gone (s.passed disk edge plan) := by
  have perm := underWay_passed expecting.old disk edge plan
  have map : (s.passed disk edge plan).commandHashEdgeMap =
      Function.update s.commandHashEdgeMap (S.hash (commandOf S edge)) (some edge) := by
    rw [passed_keeps]
    rfl
  have log : (s.passed disk edge plan).log = s.log ++ [.found edge] := by
    rw [passed_keeps]
    rfl
  have known : ∀ command ∈ s.underWay gone, ∃ other,
      (s.passed disk edge plan).commandHashEdgeMap (S.hash command.1) = some other ∧
        Awaited (s.passed disk edge plan).log other := by
    intro command member
    rw [map, log]
    by_cases own : S.hash command.1 = S.hash (commandOf S edge)
    · exact ⟨edge, by rw [own, Function.update_self], awaited_found _ _⟩
    · obtain ⟨other, at_, awaited⟩ := expecting.awaited command member
      exact ⟨other, by rw [Function.update_of_ne own, at_], awaited.append nofun⟩
  refine ⟨expecting.toRunning.pass disk edge plan, ?_, ?_, ?_, ?_⟩
  · intro hash other at_
    rw [map] at at_
    by_cases own : hash = S.hash (commandOf S edge)
    · rw [own, Function.update_self] at at_
      rw [own, Option.some.inj at_]
    · rw [Function.update_of_ne own] at at_
      exact expecting.registered hash other at_
  · rw [(perm.map _).nodup_iff]
    split
    · rename_i launched
      rw [List.map_cons, List.nodup_cons]
      refine ⟨?_, expecting.apart⟩
      rw [startsApart, launched, Bool.not_true, Bool.false_or, List.all_eq_true] at apart
      intro shared
      obtain ⟨command, member, same⟩ := List.mem_map.mp shared
      exact of_decide_eq_true (apart command member) same
    · exact expecting.apart
  · intro command member
    rw [perm.mem_iff] at member
    split at member
    · rcases List.mem_cons.mp member with rfl | member
      · refine ⟨edge, ?_, log ▸ awaited_found _ _⟩
        rw [map, Function.update_self]
      · exact known command member
    · exact known command member
  · rw [log]
    exact expecting.finished.append nofun

theorem Expecting.startReadyEdges (expecting : Expecting gone s) {fuel : Nat}
    (passes : eachPass (startsApart gone disk) disk fuel s = true) :
    Expecting gone (s.startReadyEdges disk fuel) :=
  startReadyEdges_invariant (fun _ _ _ _ expecting apart => expecting.pass apart) expecting passes

theorem Expecting.congr (expecting : Expecting gone s) {other : Option Nat} (running : Running other t)
    (map : t.commandHashEdgeMap = s.commandHashEdgeMap) (log : t.log = s.log)
    (perm : (t.underWay other).Perm (s.underWay gone)) : Expecting other t := by
  refine ⟨running, map ▸ expecting.registered, ?_, ?_, log ▸ expecting.finished⟩
  · exact ((perm.map _).nodup_iff).mpr expecting.apart
  · intro command member
    rw [map, log]
    exact expecting.awaited command (perm.mem_iff.mp member)

theorem Expecting.log (expecting : Expecting gone s) (entry : EdgeCall Edge)
    (other : ∀ edge, entry ≠ .finished edge) : Expecting gone { s with log := s.log ++ [entry] } := by
  refine ⟨⟨expecting.numbered, expecting.old⟩, expecting.registered, expecting.apart, ?_,
    expecting.finished.append other⟩
  intro command member
  obtain ⟨edge, at_, awaited⟩ := expecting.awaited command member
  exact ⟨edge, at_, awaited.append (other edge)⟩

theorem Expecting.finish (expecting : Expecting none s) {pid : Nat} {p : Subprocess Edge}
    (found : s.executor.find? pid = some p)
    (registered : s.commandHashEdgeMap (S.hash p.command) = some edge) :
    Expecting (some pid) (s.edgeFinished edge) := by
  have exits := expecting.toRunning.underWay_exits found
  have apart := ((exits.map fun command => S.hash command.1).nodup_iff).mp expecting.apart
  rw [List.map_cons, List.nodup_cons] at apart
  obtain ⟨own, at_, awaited⟩ := expecting.awaited _ (exits.mem_iff.mpr List.mem_cons_self)
  rw [registered] at at_
  cases at_
  refine ⟨?_, expecting.registered, apart.2, ?_, ?_⟩
  · exact ⟨expecting.numbered, (expecting.toRunning.leave found).old⟩
  · intro command member
    obtain ⟨other, at_, awaited⟩ := expecting.awaited command (exits.mem_iff.mpr (List.mem_cons_of_mem _ member))
    refine ⟨other, at_, awaited.append ?_⟩
    intro same
    cases same
    apply apart.1
    refine List.mem_map.mpr ⟨command, member, ?_⟩
    exact (expecting.registered _ _ at_).symm.trans (expecting.registered _ _ registered)
  · apply Grounded.append expecting.finished
    intro other same
    cases same
    exact awaited

theorem Expecting.answer (expecting : Expecting gone s) (command : String) (status : ExitStatus)
    (output : String) : Expecting gone (s.answer command status output) := by
  unfold SlaveMainRunner.answer
  split
  · exact expecting
  · rename_i context waits
    have logged := expecting.log (.answered context.request.edgeId (transformExitStatus status)) nofun
    exact logged.congr ⟨expecting.numbered, expecting.old⟩ rfl rfl (.refl _)

/-- No request is for an edge whose outputs are ready, and no command is run while one with the same hash is
    under way. -/
def asksUnready (s : SlaveMainRunner S) (event : SlaveEvent Edge) : Bool :=
  s.eachPassOf (startsApart event.leaving event.disk) event &&
    match event, s.queue with
    | .taskRun _, .runRequest request _ :: _ =>
      (s.hashEdgeMap request.edgeId).all fun edge => !S.plan.outputsReady s.plan edge
    | _, _ => true

theorem Expecting.step (expecting : Expecting none s) {event : SlaveEvent Edge}
    (asks : s.asksUnready event = true) (stepped : s.step event = some t) : Expecting none t := by
  obtain ⟨passes, unready⟩ := Bool.and_eq_true_iff.mp asks
  cases step_effect stepped with
  | posted => exact expecting.congr ⟨expecting.numbered, nofun⟩ rfl rfl (.of_eq (underWay_posted s _ _))
  | @refused disk request done rest response head unknown failure =>
    exact (expecting.log (.answered request.edgeId response.status) nofun).congr
      ⟨expecting.numbered, nofun⟩ rfl rfl (.of_eq (underWay_asked head rfl rfl))
  | upToDate head known ready registered enters entered =>
    simp [head, known, ready] at unready
  | @queued disk request done rest edge u head known still enters entered =>
    refine Expecting.startReadyEdges ?_ (eachPass_of_entering passes enters)
    rw [entered]
    exact expecting.congr ⟨expecting.numbered, nofun⟩ rfl rfl (.of_eq (underWay_asked head rfl rfl))
  | ran head =>
    exact expecting.congr ⟨expecting.numbered.runCommand _ _, nofun⟩ rfl rfl
      (underWay_ran expecting.toRunning head)
  | @exited pid status output disk p edge u found registered enters entered =>
    have finished : Expecting (some pid) u := by
      rw [entered]
      exact (expecting.log (.exited p.command status) nofun).finish found registered
    have after := (finished.startReadyEdges (eachPass_of_entering passes enters)).answer p.command status output
    exact after.congr (after.toRunning.removed pid) rfl rfl (underWay_removed _ pid)
  | digested at_ => exact expecting.congr ⟨expecting.numbered, nofun⟩ rfl rfl (.refl _)

theorem postCreateThreads_expecting (created : postCreateThreads S = some s) : Expecting none s := by
  obtain ⟨map, _, rfl⟩ := Option.map_eq_some_iff.mp created
  refine ⟨⟨CommandExecutor.new_numbered _, nofun⟩, nofun, List.nodup_nil, nofun, ?_⟩
  intro before entry after shape
  simp at shape

/-- In every run of the slave in which no request is for an edge that is ready and no two commands with one hash
    are under way together, `EdgeFinished` is called for awaited edges only, and the exit of a subprocess finds
    one. -/
theorem finished_edges_were_awaited {start : SlaveMainRunner S} (created : postCreateThreads S = some start)
    (events : List (SlaveEvent Edge))
    (asks : Along step (fun s event => s.asksUnready event = true) start events)
    (replay : run step start events = some s) :
    FinishesAwaited s.log ∧ ∀ pid p, s.executor.find? pid = some p →
      ∃ edge, s.commandHashEdgeMap (S.hash p.command) = some edge ∧ Awaited s.log edge := by
  have expecting : Expecting none s := run_invariant_along
    (fun _ _ _ expecting asks stepped => expecting.step asks stepped) (postCreateThreads_expecting created)
    asks replay
  refine ⟨expecting.finished, ?_⟩
  intro pid p found
  exact expecting.awaited _ (List.mem_append_left _ (CommandExecutor.mem_underWay_of_find? found))

theorem finished_edges_were_awaited_program :
    ∃ start s, postCreateThreads program = some start ∧ run step start (linkAfter .success) = some s ∧
      .finished 0 ∈ s.log ∧ FinishesAwaited s.log ∧ ∀ pid p, s.executor.find? pid = some p →
        ∃ edge, s.commandHashEdgeMap (program.hash p.command) = some edge ∧ Awaited s.log edge := by
  have linked : (postCreateThreads program).map (fun start =>
      decide (Along step (fun s event => s.asksUnready event = true) start (linkAfter .success)) &&
        (run step start (linkAfter .success)).any fun s => decide (.finished 0 ∈ s.log)) = some true := by
    decide +kernel
  obtain ⟨start, created, shape⟩ := Option.map_eq_some_iff.mp linked
  rw [Bool.and_eq_true, decide_eq_true_eq, Option.any_eq_true] at shape
  obtain ⟨asks, s, replay, finished⟩ := shape
  exact ⟨start, s, created, replay, of_decide_eq_true finished,
    finished_edges_were_awaited created (linkAfter .success) asks replay⟩

def askedTwice : List (SlaveEvent (Fin 2)) :=
  [.requestPosted ⟨hashEdge program firstEdge, ["a.o"], none⟩ 0, .taskRun fun _ => workingDisk,
    .exited 0 .success "" fun _ => workingDisk, .requestPosted ⟨hashEdge program firstEdge, ["a.o"], none⟩ 1,
    .taskRun fun _ => workingDisk]

/-- `RunCommand` calls `OnCommandFinished` for an edge that is ready, which finishes it a second time. -/
theorem ready_edge_finished_again :
    ¬ ∀ (start : SlaveMainRunner program) (events : List (SlaveEvent (Fin 2))) (s : SlaveMainRunner program),
      postCreateThreads program = some start → run step start events = some s → FinishesAwaited s.log := by
  have logged : (postCreateThreads program).map (fun start =>
      (run step start askedTwice).map SlaveMainRunner.log) =
        some (some [.found 0, .exited "cc -c a.c" .success, .finished 0, .found 1,
          .answered (hashEdge program 0) .kExitSuccess, .finished 0,
          .answered (hashEdge program 0) .kExitSuccess]) := by
    decide +kernel
  intro always
  obtain ⟨start, created, shape⟩ := Option.map_eq_some_iff.mp logged
  obtain ⟨s, replay, log⟩ := Option.map_eq_some_iff.mp shape
  have awaits := always start _ s created replay [.found 0, .exited "cc -c a.c" .success, .finished 0, .found 1,
    .answered (hashEdge program 0) .kExitSuccess] (.finished 0) [.answered (hashEdge program 0) .kExitSuccess]
  obtain ⟨before, after, split, unfinished⟩ := awaits (by rw [log]; rfl) 0 rfl
  cases before with
  | nil =>
    cases split
    simp at unfinished
  | cons first before =>
    have later : .found 0 ∈ before ++ .found 0 :: after := List.mem_append_right _ List.mem_cons_self
    rw [List.cons_append] at split
    rw [← (List.cons.inj split).2] at later
    simp at later

def answering (s : SlaveMainRunner S) : SlaveEvent Edge → Option UInt32
  | .exited pid _ _ _ => (s.executor.find? pid).map fun p => S.hash p.command
  | .taskRun _ =>
    match s.queue with
    | .runRequest request _ :: _ =>
      (s.hashEdgeMap request.edgeId).bind fun edge =>
        if S.plan.outputsReady s.plan edge then some (S.hash (commandOf S edge)) else none
    | _ => none
  | _ => none

structure Owned (gone : Option Nat) (s : SlaveMainRunner S) : Prop extends Running gone s where
  commands : ∀ command ∈ s.underWay gone, command.1 = commandOf S command.2
  registered : ∀ command ∈ s.underWay gone, s.commandHashEdgeMap (S.hash command.1) = some command.2

def ownHash (gone : Option Nat) (s : SlaveMainRunner S) (edge : Edge) : Bool :=
  (s.underWay gone).all fun command =>
    decide (S.hash command.1 = S.hash (commandOf S edge) → command.2 = edge)

theorem passed_commandHashEdgeMap (disk : Edge → Disk) (s : SlaveMainRunner S) (edge : Edge)
    (plan : S.plan.State) : (s.passed disk edge plan).commandHashEdgeMap =
      Function.update s.commandHashEdgeMap (S.hash (commandOf S edge)) (some edge) := by
  rw [passed_keeps]
  rfl

theorem Owned.pass (owned : Owned gone s) (own : ownHash gone s edge = true) (plan : S.plan.State) :
    Owned gone (s.passed disk edge plan) := by
  have perm := underWay_passed owned.old disk edge plan
  have map := passed_commandHashEdgeMap disk s edge plan
  have known : ∀ command ∈ s.underWay gone, command.1 = commandOf S command.2 ∧
      (s.passed disk edge plan).commandHashEdgeMap (S.hash command.1) = some command.2 := by
    intro command member
    refine ⟨owned.commands command member, ?_⟩
    rw [map]
    by_cases same : S.hash command.1 = S.hash (commandOf S edge)
    · have mine := of_decide_eq_true (List.all_eq_true.mp own command member) same
      rw [same, Function.update_self, mine]
    · rw [Function.update_of_ne same]
      exact owned.registered command member
  have all : ∀ command ∈ (s.passed disk edge plan).underWay gone, command.1 = commandOf S command.2 ∧
      (s.passed disk edge plan).commandHashEdgeMap (S.hash command.1) = some command.2 := by
    intro command member
    rw [perm.mem_iff] at member
    split at member
    · rcases List.mem_cons.mp member with rfl | member
      · exact ⟨rfl, by rw [map, Function.update_self]⟩
      · exact known command member
    · exact known command member
  exact ⟨owned.toRunning.pass disk edge plan, fun command member => (all command member).1,
    fun command member => (all command member).2⟩

theorem Owned.congr (owned : Owned gone s) {other : Option Nat} (running : Running other t)
    (map : t.commandHashEdgeMap = s.commandHashEdgeMap)
    (perm : (t.underWay other).Perm (s.underWay gone)) : Owned other t := by
  refine ⟨running, ?_, ?_⟩
  · intro command member
    exact owned.commands command (perm.mem_iff.mp member)
  · intro command member
    rw [map]
    exact owned.registered command (perm.mem_iff.mp member)

theorem Owned.leave (owned : Owned none s) {pid : Nat} {p : Subprocess Edge}
    (found : s.executor.find? pid = some p) : Owned (some pid) s := by
  have exits := owned.toRunning.underWay_exits found
  refine ⟨owned.toRunning.leave found, ?_, ?_⟩
  · intro command member
    exact owned.commands command (exits.mem_iff.mpr (List.mem_cons_of_mem _ member))
  · intro command member
    exact owned.registered command (exits.mem_iff.mpr (List.mem_cons_of_mem _ member))

theorem Owned.found (owned : Owned none s) {pid : Nat} {p : Subprocess Edge}
    (found : s.executor.find? pid = some p) :
    (p.command, p.cause) ∈ s.underWay none ∧ p.command = commandOf S p.cause ∧
      s.commandHashEdgeMap (S.hash p.command) = some p.cause := by
  have under : (p.command, p.cause) ∈ s.underWay none :=
    List.mem_append_left _ (CommandExecutor.mem_underWay_of_find? found)
  exact ⟨under, owned.commands _ under, owned.registered _ under⟩

/-- Besides, the request that waits under the hash of a command under way is for the same edge, but where the
    step is just answering. -/
structure Attributed (gone : Option Nat) (answering : Option UInt32) (s : SlaveMainRunner S) : Prop
    extends Owned gone s where
  requested : ∀ command ∈ s.underWay gone, answering ≠ some (S.hash command.1) → ∀ context,
    s.runCommandContextMap (S.hash command.1) = some context →
      s.hashEdgeMap context.request.edgeId = some command.2

def startsOwn (gone : Option Nat) (answering : Option UInt32) (disk : Edge → Disk) (s : SlaveMainRunner S)
    (edge : Edge) : Bool :=
  ownHash gone s edge &&
    (!launches S (disk edge) edge || decide (answering = some (S.hash (commandOf S edge))) ||
      (s.runCommandContextMap (S.hash (commandOf S edge))).all fun context =>
        decide (s.hashEdgeMap context.request.edgeId = some edge))

variable {busy : Option UInt32}

theorem Attributed.pass (attributed : Attributed gone busy s) {plan : S.plan.State}
    (own : startsOwn gone busy disk s edge = true) : Attributed gone busy (s.passed disk edge plan) := by
  obtain ⟨apart, requests⟩ := Bool.and_eq_true_iff.mp own
  have perm := underWay_passed attributed.old disk edge plan
  have started := passed_started disk s edge plan
  refine ⟨attributed.toOwned.pass apart plan, ?_⟩
  intro command member idle context waits
  rw [started.contexts] at waits
  rw [started.hashEdgeMap]
  rw [perm.mem_iff] at member
  split at member
  · rename_i launched
    rcases List.mem_cons.mp member with rfl | member
    · rw [launched, decide_eq_false idle, waits] at requests
      simpa using requests
    · exact attributed.requested command member idle context waits
  · exact attributed.requested command member idle context waits

theorem Attributed.startReadyEdges (attributed : Attributed gone busy s) {fuel : Nat}
    (passes : eachPass (startsOwn gone busy disk) disk fuel s = true) :
    Attributed gone busy (s.startReadyEdges disk fuel) :=
  startReadyEdges_invariant (fun _ _ _ _ attributed own => attributed.pass own) attributed passes

theorem Attributed.congr (attributed : Attributed gone busy s) {other : Option Nat} (running : Running other t)
    (edges : t.hashEdgeMap = s.hashEdgeMap) (map : t.commandHashEdgeMap = s.commandHashEdgeMap)
    (contexts : t.runCommandContextMap = s.runCommandContextMap)
    (perm : (t.underWay other).Perm (s.underWay gone)) : Attributed other busy t := by
  refine ⟨attributed.toOwned.congr running map perm, ?_⟩
  rw [edges, contexts]
  intro command member
  exact attributed.requested command (perm.mem_iff.mp member)

theorem Attributed.answer {command : String} (attributed : Attributed gone (some (S.hash command)) s)
    (status : ExitStatus) (output : String) : Attributed gone none (s.answer command status output) := by
  rw [answer_keeps]
  refine ⟨attributed.toOwned.congr ⟨attributed.numbered, attributed.old⟩ rfl (.refl _), ?_⟩
  intro other member _ context waits
  by_cases same : S.hash other.1 = S.hash command
  · simp only [same, Function.update_self] at waits
    cases waits
  · simp only [Function.update_of_ne same] at waits
    exact attributed.requested other member (fun own => same (Option.some.inj own).symm) context waits

theorem Attributed.answering (attributed : Attributed gone none s) (hash : UInt32) :
    Attributed gone (some hash) s :=
  ⟨attributed.toOwned, fun command member _ => attributed.requested command member nofun⟩

theorem Attributed.awaiting (attributed : Attributed gone none s) {request : RunCommandRequest} {done : Nat}
    (known : s.hashEdgeMap request.edgeId = some edge)
    (own : busy = some (S.hash (commandOf S edge)) ∨ ownHash gone s edge = true) :
    Attributed gone busy (s.awaiting edge (freshContext request done)) := by
  refine ⟨attributed.toOwned.congr ⟨attributed.numbered, attributed.old⟩ rfl (.refl _), ?_⟩
  intro command member idle context waits
  change Function.update s.runCommandContextMap (S.hash (commandOf S edge)) _ _ = some context at waits
  change s.hashEdgeMap _ = some command.2
  by_cases same : S.hash command.1 = S.hash (commandOf S edge)
  · rw [same, Function.update_self] at waits
    cases waits
    rcases own with answered | apart
    · exact absurd (same ▸ answered) idle
    · rw [of_decide_eq_true (List.all_eq_true.mp apart command member) same]
      exact known
  · rw [Function.update_of_ne same] at waits
    exact attributed.requested command member nofun context waits

theorem Attributed.leave (attributed : Attributed none busy s) {pid : Nat} {p : Subprocess Edge}
    (found : s.executor.find? pid = some p) : Attributed (some pid) busy s := by
  have exits := attributed.toRunning.underWay_exits found
  refine ⟨attributed.toOwned.leave found, ?_⟩
  intro command member
  exact attributed.requested command (exits.mem_iff.mpr (List.mem_cons_of_mem _ member))

/-- No edge is registered and no request taken up while another edge's command with the same hash is under way,
    and no command is run while another edge's request waits under its hash. -/
def keepsApart (s : SlaveMainRunner S) (event : SlaveEvent Edge) : Bool :=
  s.eachPassOf (startsOwn event.leaving (s.answering event) event.disk) event &&
    match event, s.queue with
    | .taskRun _, .runRequest request _ :: _ =>
      (s.hashEdgeMap request.edgeId).all fun edge => S.plan.outputsReady s.plan edge || ownHash none s edge
    | _, _ => true

theorem Attributed.step (attributed : Attributed none none s) {event : SlaveEvent Edge}
    (apart : s.keepsApart event = true) (stepped : s.step event = some t) : Attributed none none t := by
  obtain ⟨passes, own⟩ := Bool.and_eq_true_iff.mp apart
  have taken : ∀ {request done rest}, s.queue = .runRequest request done :: rest →
      Attributed none none { s with queue := rest } := fun head =>
    attributed.congr ⟨attributed.numbered, nofun⟩ rfl rfl rfl (.of_eq (underWay_asked head rfl rfl))
  cases step_effect stepped with
  | posted =>
    exact attributed.congr ⟨attributed.numbered, nofun⟩ rfl rfl rfl (.of_eq (underWay_posted s _ _))
  | refused head unknown failure =>
    exact attributed.congr ⟨attributed.numbered, nofun⟩ rfl rfl rfl (.of_eq (underWay_asked head rfl rfl))
  | @upToDate disk request done rest edge other u head known ready registered enters entered =>
    have answers : s.answering (.taskRun disk) = some (S.hash (commandOf S edge)) := by
      simp only [SlaveMainRunner.answering, head, known, Option.bind_some, ready, if_true]
    have waits : Attributed none (s.answering (.taskRun disk)) u := by
      rw [entered, answers]
      exact ((taken head).awaiting known (.inl rfl)).congr ⟨attributed.numbered, nofun⟩ rfl rfl rfl (.refl _)
    have after := waits.startReadyEdges (eachPass_of_entering passes enters)
    rw [answers] at after
    exact after.answer .success ""
  | @queued disk request done rest edge u head known still enters entered =>
    have answers : s.answering (.taskRun disk) = none := by
      simp only [SlaveMainRunner.answering, head, known, Option.bind_some, still, Bool.false_eq_true, if_false]
    simp only [head, known, Option.all_some, still, Bool.false_or] at own
    have same : underWay { s with queue := rest } none = s.underWay none := underWay_asked head rfl rfl
    have hashes : ownHash none { s with queue := rest } edge = true := by
      rw [ownHash, same]
      exact own
    rw [answers] at passes
    refine Attributed.startReadyEdges ?_ (eachPass_of_entering passes enters)
    rw [entered]
    exact ((taken head).awaiting known (.inr hashes)).congr ⟨attributed.numbered, nofun⟩ rfl rfl rfl (.refl _)
  | ran head =>
    exact attributed.congr ⟨attributed.numbered.runCommand _ _, nofun⟩ rfl rfl rfl
      (underWay_ran attributed.toRunning head)
  | @exited pid status output disk p edge u found registered enters entered =>
    have answers : s.answering (.exited pid status output disk) = some (S.hash p.command) := by
      simp only [SlaveMainRunner.answering, found, Option.map_some]
    have leaves : Attributed (some pid) (s.answering (.exited pid status output disk)) u := by
      rw [entered, answers]
      have before := (attributed.leave found).answering (S.hash p.command)
      exact before.congr ⟨before.numbered, before.old⟩ rfl rfl rfl (.refl _)
    have after := leaves.startReadyEdges (eachPass_of_entering passes enters)
    rw [answers] at after
    have settled := after.answer status output
    exact settled.congr (settled.toRunning.removed pid) rfl rfl rfl (underWay_removed _ pid)
  | digested at_ => exact attributed.congr ⟨attributed.numbered, nofun⟩ rfl rfl rfl (.refl _)

theorem postCreateThreads_attributed (created : postCreateThreads S = some s) : Attributed none none s := by
  obtain ⟨map, _, rfl⟩ := Option.map_eq_some_iff.mp created
  exact ⟨⟨⟨CommandExecutor.new_numbered _, nofun⟩, nofun, nofun⟩, nofun⟩

def answeredWith (context : RunCommandContext) (status : ExitStatus) (output : String) : RunCommandContext :=
  { context with response := { context.response with output := output, status := transformExitStatus status } }

/-- An exit finishes the edge its subprocess was run for and answers at most a request for this edge, with its
    own status and output; any other step answers at most a request for an edge that is ready. -/
def Delivers (s : SlaveMainRunner S) (event : SlaveEvent Edge) (t : SlaveMainRunner S) : Prop :=
  match event with
  | .exited pid status output _ => ∀ p, s.executor.find? pid = some p →
      (∃ more, t.log = s.log ++ .exited p.command status :: .finished p.cause :: more ∧
        ∀ edge, .finished edge ∉ more) ∧
      (t.pool = s.pool ∨ ∃ context, s.hashEdgeMap context.request.edgeId = some p.cause ∧
        t.pool = s.pool ++ [answeredWith context status output])
  | .taskRun _ => t.pool = s.pool ∨ ∃ request done rest edge, s.queue = .runRequest request done :: rest ∧
      s.hashEdgeMap request.edgeId = some edge ∧ S.plan.outputsReady s.plan edge = true ∧
        t.pool = s.pool ++ [answeredWith (freshContext request done) .success ""]
  | .digested job md5 => ∃ context, s.pool[job]? = some context ∧ t.pool = s.pool.eraseIdx job ∧
      t.rpcPosts = s.rpcPosts ++ [md5Outputs md5 context]
  | .requestPosted _ _ => t.pool = s.pool

theorem answer_cases (s : SlaveMainRunner S) (command : String) (status : ExitStatus) (output : String) :
    ((s.answer command status output).pool = s.pool ∧ (s.answer command status output).log = s.log) ∨
      ∃ context, s.runCommandContextMap (S.hash command) = some context ∧
        (s.answer command status output).pool = s.pool ++ [answeredWith context status output] ∧
        ∃ edgeId code, (s.answer command status output).log = s.log ++ [.answered edgeId code] := by
  unfold SlaveMainRunner.answer
  split
  · exact .inl ⟨rfl, rfl⟩
  · rename_i context waits
    exact .inr ⟨context, waits, rfl, _, _, rfl⟩

theorem Attributed.delivers_exited (attributed : Attributed none none s) {pid : Nat} {status : ExitStatus}
    {output : String} {p : Subprocess Edge} {edge : Edge} {u : SlaveMainRunner S}
    (found : s.executor.find? pid = some p) (registered : s.commandHashEdgeMap (S.hash p.command) = some edge)
    (entered : u = edgeFinished { s with log := s.log ++ [.exited p.command status] } edge) :
    Delivers s (.exited pid status output disk)
      (((u.startReadyEdges disk u.edgesLeft).answer p.command status output).subprocessRemoved pid) := by
  intro q again
  cases found.symm.trans again
  obtain ⟨under, _, at_⟩ := attributed.toOwned.found found
  have own : edge = p.cause := Option.some.inj (registered.symm.trans at_)
  have started := startReadyEdges_started disk u.edgesLeft u
  obtain ⟨edges, log⟩ := started.log
  have none_finished : ∀ other, EdgeCall.finished other ∉ edges.map EdgeCall.found := by simp
  have before : u.log = s.log ++ [.exited p.command status, .finished p.cause] := by
    rw [entered, own]
    exact List.append_assoc _ _ _
  rcases answer_cases (u.startReadyEdges disk u.edgesLeft) p.command status output with
    ⟨pool, same⟩ | ⟨context, waits, pool, edgeId, code, logged⟩
  · refine ⟨⟨edges.map .found, ?_, none_finished⟩, .inl ?_⟩
    · change (SlaveMainRunner.answer _ _ _ _).log = _
      rw [same, log, before, List.append_assoc]
      rfl
    · change (SlaveMainRunner.answer _ _ _ _).pool = _
      rw [pool, started.pool, entered]
      rfl
  · refine ⟨⟨edges.map .found ++ [.answered edgeId code], ?_, ?_⟩, .inr ⟨context, ?_, ?_⟩⟩
    · change (SlaveMainRunner.answer _ _ _ _).log = _
      rw [logged, log, before, List.append_assoc, List.append_assoc]
      rfl
    · intro other member
      rcases List.mem_append.mp member with member | member
      · exact none_finished other member
      · cases List.mem_singleton.mp member
    · rw [started.contexts, entered] at waits
      exact attributed.requested _ under nofun context waits
    · change (SlaveMainRunner.answer _ _ _ _).pool = _
      rw [pool, started.pool, entered]
      rfl

theorem Attributed.delivers (attributed : Attributed none none s) {event : SlaveEvent Edge}
    (stepped : s.step event = some t) : Delivers s event t := by
  cases step_effect stepped with
  | posted => rfl
  | refused head unknown failure => exact .inl rfl
  | @upToDate disk request done rest edge other u head known ready registered enters entered =>
    have started := startReadyEdges_started disk u.edgesLeft u
    rcases answer_cases (u.startReadyEdges disk u.edgesLeft) (commandOf S edge) .success "" with
      ⟨pool, _⟩ | ⟨context, waits, pool, _⟩
    · left
      rw [pool, started.pool, entered]
      rfl
    · right
      rw [started.contexts, entered] at waits
      simp only [edgeFinished, SlaveMainRunner.awaiting, Function.update_self, Option.some.injEq] at waits
      refine ⟨request, done, rest, edge, head, known, ready, ?_⟩
      rw [pool, started.pool, entered, ← waits]
      rfl
  | @queued disk request done rest edge u head known still enters entered =>
    left
    rw [(startReadyEdges_started disk u.edgesLeft u).pool, entered]
    rfl
  | ran head => exact .inl rfl
  | exited found registered enters entered => exact attributed.delivers_exited found registered entered
  | @digested job md5 context at_ => exact ⟨context, at_, rfl, rfl⟩

/-- In every run of the slave in which commands with one hash belong to one edge where they meet, every exit
    finishes its own edge and answers its own request. -/
theorem results_reach_their_requests {start : SlaveMainRunner S} (created : postCreateThreads S = some start)
    (events : List (SlaveEvent Edge)) (apart : Along step (fun s event => s.keepsApart event = true) start events)
    (replay : run step start events = some s) {event : SlaveEvent Edge} (stepped : s.step event = some t) :
    Delivers s event t := by
  have attributed : Attributed none none s := run_invariant_along
    (fun _ _ _ attributed apart stepped => attributed.step apart stepped)
    (postCreateThreads_attributed created) apart replay
  exact attributed.delivers stepped

theorem results_reach_their_requests_program :
    ∃ start s t, postCreateThreads program = some start ∧
      run step start [.requestPosted ⟨hashEdge program 0, ["a.o"], none⟩ 0, .taskRun fun _ => workingDisk] =
        some s ∧ s.step (.exited 0 .failure "no a.c" fun _ => workingDisk) = some t ∧
      Delivers s (.exited 0 .failure "no a.c" fun _ => workingDisk) t := by
  have asked : (postCreateThreads program).map (fun start =>
      decide (Along step (fun s event => s.keepsApart event = true) start
        [.requestPosted ⟨hashEdge program 0, ["a.o"], none⟩ 0, .taskRun fun _ => workingDisk]) &&
      (run step start [.requestPosted ⟨hashEdge program 0, ["a.o"], none⟩ 0, .taskRun fun _ => workingDisk]).any
        fun s => (s.step (.exited 0 .failure "no a.c" fun _ => workingDisk)).isSome) = some true := by
    decide +kernel
  obtain ⟨start, created, shape⟩ := Option.map_eq_some_iff.mp asked
  rw [Bool.and_eq_true, decide_eq_true_eq, Option.any_eq_true] at shape
  obtain ⟨apart, s, replay, exits⟩ := shape
  obtain ⟨t, stepped⟩ := Option.isSome_iff_exists.mp exits
  exact ⟨start, s, t, created, replay, stepped,
    results_reach_their_requests created _ apart replay stepped⟩

def twinsManifest : Manifest (Fin 2) where
  ruleName _ := "make"
  isPhony _ := false
  evaluateCommand _ := "make -s"
  inputs _ := []
  outputs edge := if edge = firstEdge then ["a"] else ["b"]
  unescapedRspfile _ := ""
  rspfileContent _ := ""
  deps _ := ""
  unescapedDepfile _ := ""
  restat _ := false
  mtime _ := 0
  inEdge path := (List.finRange 2).find? fun edge => path = if edge = firstEdge then "a" else "b"
  outputs_inEdge := by decide +kernel

def twins : Setting (Fin 2) where
  manifest := twinsManifest
  plan := graphReadyPlan twinsManifest (by decide +kernel)
    (fun path => if path = "a" then [firstEdge] else [secondEdge]) fun _ edge _ other needed => by cases needed
  hash := sumHash
  processors := 1
  edges := [firstEdge, secondEdge]

def bothAsked : List (SlaveEvent (Fin 2)) :=
  [.requestPosted ⟨hashEdge twins firstEdge, ["a"], none⟩ 0,
    .requestPosted ⟨hashEdge twins secondEdge, ["b"], none⟩ 1, .taskRun fun _ => workingDisk,
    .taskRun fun _ => workingDisk]

/-- The exit of the first edge's subprocess finishes the second edge. -/
theorem result_of_another_edge :
    ¬ ∀ (start : SlaveMainRunner twins) (events : List (SlaveEvent (Fin 2))) (s : SlaveMainRunner twins)
      (event : SlaveEvent (Fin 2)) (t : SlaveMainRunner twins),
      postCreateThreads twins = some start → run step start events = some s → s.step event = some t →
        Delivers s event t := by
  have mixed : (postCreateThreads twins).map (fun start =>
      (run step start bothAsked).bind fun s =>
        (s.executor.find? 0).bind fun p =>
          (s.step (.exited 0 .failure "no rule" fun _ => workingDisk)).map fun t =>
            (p.cause, decide (.finished 0 ∈ t.log))) = some (some (0, false)) := by
    decide +kernel
  intro always
  obtain ⟨start, created, shape⟩ := Option.map_eq_some_iff.mp mixed
  obtain ⟨s, replay, shape⟩ := Option.bind_eq_some_iff.mp shape
  obtain ⟨p, found, shape⟩ := Option.bind_eq_some_iff.mp shape
  obtain ⟨t, stepped, same⟩ := Option.map_eq_some_iff.mp shape
  obtain ⟨cause, missing⟩ := Prod.mk.inj same
  obtain ⟨⟨more, log, _⟩, _⟩ := always start _ s _ t created replay stepped p found
  apply of_decide_eq_false missing
  rw [log, cause]
  simp

end SlaveMainRunner

end DistributedNinja.Slave
