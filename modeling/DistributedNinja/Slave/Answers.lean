import DistributedNinja.Slave.Attribution

namespace DistributedNinja.Slave

open Lib Proto Common Ninja

variable {Edge : Type} [DecidableEq Edge] {S : Setting Edge}

namespace SlaveMainRunner

section Targets

def addsAll (plan : S.plan.State) : List String → Bool
  | [] => true
  | path :: rest => (S.plan.addTarget plan path).1 && addsAll (S.plan.addTarget plan path).2.2 rest

variable (demand : S.plan.Demand) {plan : S.plan.State} {paths : List String} {edge : Edge}

theorem inProgress_addTargets (plan : S.plan.State) (paths : List String) :
    S.plan.inProgress (addTargets plan paths) = S.plan.inProgress plan := by
  induction paths generalizing plan with
  | nil => rfl
  | cons path rest ih => exact (ih _).trans (S.plan.inProgress_addTarget plan path)

theorem wanted_addTargets (plan : S.plan.State) (paths : List String) :
    demand.wanted plan ⊆ demand.wanted (addTargets plan paths) := by
  induction paths generalizing plan with
  | nil => exact Finset.Subset.refl _
  | cons path rest ih => exact (demand.wanted_addTarget plan path).trans (ih _)

theorem intact_addTargets (intact : demand.intact plan) (added : addsAll plan paths = true) :
    demand.intact (addTargets plan paths) := by
  induction paths generalizing plan with
  | nil => exact intact
  | cons path rest ih =>
    obtain ⟨first, others⟩ := Bool.and_eq_true_iff.mp added
    exact ih (demand.intact_addTarget plan path intact first) others

theorem wanted_of_addTargets (added : addsAll plan paths = true) (some_path : paths ≠ [])
    (produced : ∀ path ∈ paths, S.manifest.inEdge path = some edge) (dirty : S.plan.dirty edge = true)
    (unready : S.plan.outputsReady plan edge = false) : edge ∈ demand.wanted (addTargets plan paths) := by
  cases paths with
  | nil => exact absurd rfl some_path
  | cons path rest =>
    have first := (Bool.and_eq_true_iff.mp added).1
    apply wanted_addTargets demand _ rest
    exact demand.wanted_of_addTarget plan path edge (produced path List.mem_cons_self) dirty unready first

end Targets

variable {s t : SlaveMainRunner S} {disk : Edge → Disk} {edge : Edge} {gone : Option Nat}
  {busy : Option UInt32} {demand : S.plan.Demand}

/-- Every edge in progress has a command under way, and every request that waits keeps an edge wanted, but the
    one that the step is just answering. -/
structure Answerable (demand : S.plan.Demand) (gone : Option Nat) (busy : Option UInt32)
    (s : SlaveMainRunner S) : Prop extends Owned gone s where
  intact : demand.intact s.plan
  hashes : ∀ hash edge, s.commandHashEdgeMap hash = some edge → S.hash (commandOf S edge) = hash
  taken : ∀ edge ∈ S.plan.inProgress s.plan, ∃ command ∈ s.underWay gone, command.2 = edge
  waiting : ∀ hash context, busy ≠ some hash → s.runCommandContextMap hash = some context →
    ∃ edge ∈ demand.wanted s.plan, S.hash (commandOf S edge) = hash

def startsForSure (gone : Option Nat) (disk : Edge → Disk) (s : SlaveMainRunner S) (edge : Edge) : Bool :=
  launches S (disk edge) edge && ownHash gone s edge

theorem Answerable.pass (answerable : Answerable demand gone busy s) {plan : S.plan.State}
    (given : S.plan.findWork s.plan = some (edge, plan)) (sure : startsForSure gone disk s edge = true) :
    Answerable demand gone busy (s.passed disk edge plan) := by
  obtain ⟨launched, own⟩ := Bool.and_eq_true_iff.mp sure
  have perm := underWay_passed answerable.old disk edge plan
  rw [if_pos launched] at perm
  have same : (s.passed disk edge plan).plan = plan := by
    rw [passed_keeps]
    rfl
  refine ⟨answerable.toOwned.pass own plan, ?_, ?_, ?_, ?_⟩
  · rw [same]
    exact demand.intact_findWork _ _ _ answerable.intact given
  · intro hash other at_
    rw [passed_commandHashEdgeMap] at at_
    by_cases mine : hash = S.hash (commandOf S edge)
    · rw [mine, Function.update_self] at at_
      rw [mine, Option.some.inj at_]
    · rw [Function.update_of_ne mine] at at_
      exact answerable.hashes hash other at_
  · intro other member
    rw [same, (S.plan.findWork_takes _ _ _ given).2.2, Finset.mem_insert] at member
    rcases member with rfl | member
    · exact ⟨_, perm.mem_iff.mpr List.mem_cons_self, rfl⟩
    · obtain ⟨command, under, cause⟩ := answerable.taken other member
      exact ⟨command, perm.mem_iff.mpr (List.mem_cons_of_mem _ under), cause⟩
  · intro hash context idle waits
    rw [(passed_started disk s edge plan).contexts] at waits
    obtain ⟨other, wanted, hashed⟩ := answerable.waiting hash context idle waits
    rw [same]
    exact ⟨other, demand.wanted_findWork _ _ _ given wanted, hashed⟩

theorem Answerable.startReadyEdges (answerable : Answerable demand gone busy s) {fuel : Nat}
    (passes : eachPass (startsForSure gone disk) disk fuel s = true) :
    Answerable demand gone busy (s.startReadyEdges disk fuel) :=
  startReadyEdges_invariant (fun _ _ _ given answerable sure => answerable.pass given sure) answerable passes

theorem Answerable.congr (answerable : Answerable demand gone busy s) {other : Option Nat}
    (running : Running other t) (plan : t.plan = s.plan)
    (map : t.commandHashEdgeMap = s.commandHashEdgeMap)
    (contexts : t.runCommandContextMap = s.runCommandContextMap)
    (perm : (t.underWay other).Perm (s.underWay gone)) : Answerable demand other busy t := by
  refine ⟨answerable.toOwned.congr running map perm, plan ▸ answerable.intact, map ▸ answerable.hashes, ?_, ?_⟩
  · intro edge member
    obtain ⟨command, under, cause⟩ := answerable.taken edge (plan ▸ member)
    exact ⟨command, perm.mem_iff.mpr under, cause⟩
  · rw [plan, contexts]
    exact answerable.waiting

theorem Answerable.finish (answerable : Answerable demand none none s) {hash : UInt32}
    (registered : s.commandHashEdgeMap hash = some edge)
    (left : ∀ command ∈ s.underWay none, command.2 ≠ edge → command ∈ s.underWay gone)
    (owned : Owned gone (s.edgeFinished edge)) :
    Answerable demand gone (some hash) (s.edgeFinished edge) := by
  refine ⟨owned, demand.intact_edgeFinished _ _ answerable.intact, answerable.hashes, ?_, ?_⟩
  · intro other member
    change other ∈ S.plan.inProgress (S.plan.edgeFinished s.plan edge) at member
    rw [S.plan.inProgress_edgeFinished, Finset.mem_erase] at member
    obtain ⟨command, under, cause⟩ := answerable.taken other member.2
    exact ⟨command, left command under (cause ▸ member.1), cause⟩
  · intro other context idle waits
    obtain ⟨kept, wanted, hashed⟩ := answerable.waiting other context nofun waits
    refine ⟨kept, demand.wanted_edgeFinished _ _ (Finset.mem_erase.mpr ⟨?_, wanted⟩), hashed⟩
    rintro rfl
    exact idle (congrArg some ((answerable.hashes _ _ registered).symm.trans hashed))

theorem Answerable.awaiting (answerable : Answerable demand gone (some (S.hash (commandOf S edge))) s)
    (context : RunCommandContext) :
    Answerable demand gone (some (S.hash (commandOf S edge))) (s.awaiting edge context) := by
  refine ⟨answerable.toOwned.congr ⟨answerable.numbered, answerable.old⟩ rfl (.refl _), answerable.intact,
    answerable.hashes, answerable.taken, ?_⟩
  intro hash other idle waits
  have apart : hash ≠ S.hash (commandOf S edge) := fun same => idle (congrArg some same.symm)
  simp only [SlaveMainRunner.awaiting, Function.update_of_ne apart] at waits
  exact answerable.waiting hash other idle waits

theorem Answerable.answer {command : String} (answerable : Answerable demand gone (some (S.hash command)) s)
    (status : ExitStatus) (output : String) : Answerable demand gone none (s.answer command status output) := by
  rw [answer_keeps]
  refine ⟨answerable.toOwned.congr ⟨answerable.numbered, answerable.old⟩ rfl (.refl _), answerable.intact,
    answerable.hashes, answerable.taken, ?_⟩
  intro hash context _ waits
  by_cases same : hash = S.hash command
  · simp only [same, Function.update_self] at waits
    cases waits
  · simp only [Function.update_of_ne same] at waits
    exact answerable.waiting hash context (fun own => same (Option.some.inj own).symm) waits

/-- Every edge that `StartReadyEdges` takes is run, and a request finds its hash free and its edge ready, or dirty
    and such that its outputs can be added. -/
def answersAll (s : SlaveMainRunner S) (event : SlaveEvent Edge) : Bool :=
  s.eachPassOf (startsForSure event.leaving event.disk) event &&
    match event, s.queue with
    | .taskRun _, .runRequest request _ :: _ =>
      (s.hashEdgeMap request.edgeId).all fun edge =>
        (s.runCommandContextMap (S.hash (commandOf S edge))).isNone &&
          (S.plan.outputsReady s.plan edge || (S.plan.dirty edge && !(S.manifest.outputs edge).isEmpty &&
            addsAll s.plan (S.manifest.outputs edge)))
    | _, _ => true

theorem Answerable.queued (answerable : Answerable demand none none s) (context : RunCommandContext)
    (dirty : S.plan.dirty edge = true) (unready : S.plan.outputsReady s.plan edge = false)
    (outputs : S.manifest.outputs edge ≠ []) (added : addsAll s.plan (S.manifest.outputs edge) = true) :
    Answerable demand none none
      { s.awaiting edge context with plan := addTargets s.plan (S.manifest.outputs edge) } := by
  refine ⟨answerable.toOwned.congr ⟨answerable.numbered, nofun⟩ rfl (.refl _),
    intact_addTargets demand answerable.intact added, answerable.hashes, ?_, ?_⟩
  · intro other member
    rw [inProgress_addTargets] at member
    exact answerable.taken other member
  · intro hash other _ waits
    by_cases own : hash = S.hash (commandOf S edge)
    · refine ⟨edge, ?_, own.symm⟩
      exact wanted_of_addTargets demand added outputs (S.manifest.outputs_inEdge edge) dirty unready
    · simp only [SlaveMainRunner.awaiting, Function.update_of_ne own] at waits
      obtain ⟨kept, wanted, hashed⟩ := answerable.waiting hash other (Option.some_ne_none hash).symm waits
      exact ⟨kept, wanted_addTargets demand _ _ wanted, hashed⟩

theorem Answerable.step (answerable : Answerable demand none none s) {event : SlaveEvent Edge}
    (answers : s.answersAll event = true) (stepped : s.step event = some t) :
    Answerable demand none none t := by
  obtain ⟨passes, asks⟩ := Bool.and_eq_true_iff.mp answers
  have taken : ∀ {request done rest}, s.queue = .runRequest request done :: rest →
      Answerable demand none none { s with queue := rest } := fun head =>
    answerable.congr ⟨answerable.numbered, nofun⟩ rfl rfl rfl (.of_eq (underWay_asked head rfl rfl))
  cases step_effect stepped with
  | posted =>
    exact answerable.congr ⟨answerable.numbered, nofun⟩ rfl rfl rfl (.of_eq (underWay_posted s _ _))
  | refused head unknown failure =>
    exact answerable.congr ⟨answerable.numbered, nofun⟩ rfl rfl rfl (.of_eq (underWay_asked head rfl rfl))
  | @upToDate disk request done rest edge other u head known ready registered enters entered =>
    have before := taken head
    have finished : Answerable demand none (some (S.hash (commandOf S edge))) u := by
      rw [entered]
      apply (before.finish registered (fun _ under _ => under) _).awaiting
      exact before.toOwned.congr ⟨answerable.numbered, nofun⟩ rfl (.refl _)
    exact (finished.startReadyEdges (eachPass_of_entering passes enters)).answer .success ""
  | @queued disk request done rest edge u head known unready enters entered =>
    simp only [head, known, Option.all_some, unready, Bool.false_or, Bool.and_eq_true, Bool.not_eq_true',
      List.isEmpty_eq_false_iff] at asks
    obtain ⟨_, ⟨dirty, outputs⟩, added⟩ := asks
    refine Answerable.startReadyEdges ?_ (eachPass_of_entering passes enters)
    rw [entered]
    exact (taken head).queued _ dirty unready outputs added
  | ran head =>
    exact answerable.congr ⟨answerable.numbered.runCommand _ _, nofun⟩ rfl rfl rfl
      (underWay_ran answerable.toRunning head)
  | @exited pid status output disk p edge u found registered enters entered =>
    obtain ⟨_, _, at_⟩ := answerable.toOwned.found found
    cases registered.symm.trans at_
    have exits := answerable.toRunning.underWay_exits found
    have logged : Answerable demand none none { s with log := s.log ++ [.exited p.command status] } :=
      answerable.congr ⟨answerable.numbered, nofun⟩ rfl rfl rfl (.refl _)
    have leaves := answerable.toOwned.leave found
    have finished : Answerable demand (some pid) (some (S.hash p.command)) u := by
      rw [entered]
      refine logged.finish registered ?_ (leaves.congr ⟨leaves.numbered, leaves.old⟩ rfl (.refl _))
      intro command under other
      rcases List.mem_cons.mp (exits.mem_iff.mp under) with rfl | rest
      · exact absurd rfl other
      · exact rest
    have settled := (finished.startReadyEdges (eachPass_of_entering passes enters)).answer status output
    exact settled.congr (settled.toRunning.removed pid) rfl rfl rfl (underWay_removed _ pid)
  | digested at_ => exact answerable.congr ⟨answerable.numbered, nofun⟩ rfl rfl rfl (.refl _)

theorem postCreateThreads_answerable (created : postCreateThreads S = some s) : Answerable demand none none s := by
  obtain ⟨map, _, rfl⟩ := Option.map_eq_some_iff.mp created
  refine ⟨⟨⟨CommandExecutor.new_numbered _, nofun⟩, nofun, nofun⟩, demand.intact_empty, nofun, ?_, nofun⟩
  intro edge member
  rw [S.plan.inProgress_empty] at member
  cases member

def Exhausted (s : SlaveMainRunner S) : Prop :=
  S.plan.findWork s.plan = none ∨ ∀ hash, s.runCommandContextMap hash = none

theorem Exhausted.congr (exhausted : Exhausted s) (plan : t.plan = s.plan)
    (contexts : t.runCommandContextMap = s.runCommandContextMap) : Exhausted t := by
  unfold Exhausted
  rw [plan, contexts]
  exact exhausted

theorem Exhausted.step (exhausted : Exhausted s) {event : SlaveEvent Edge} (stepped : s.step event = some t) :
    Exhausted t := by
  cases step_effect stepped with
  | posted => exact exhausted.congr rfl rfl
  | refused head unknown failure => exact exhausted.congr rfl rfl
  | @upToDate disk request done rest edge other u head known ready registered enters entered =>
    left
    rw [answer_keeps]
    exact startReadyEdges_exhausts disk u (Nat.lt_succ_self _)
  | @queued disk request done rest edge u head known unready enters entered =>
    exact .inl (startReadyEdges_exhausts disk u (Nat.lt_succ_self _))
  | ran head => exact exhausted.congr rfl rfl
  | @exited pid status output disk p edge u found registered enters entered =>
    left
    rw [subprocessRemoved, answer_keeps]
    exact startReadyEdges_exhausts disk u (Nat.lt_succ_self _)
  | digested at_ => exact exhausted.congr rfl rfl

def CarriesRequest (request : RunCommandRequest) (done : Nat) (context : RunCommandContext) : Prop :=
  context.request = request ∧ context.done = done

def Held (request : RunCommandRequest) (done : Nat) (s : SlaveMainRunner S) : Prop :=
  .runRequest request done ∈ s.queue ∨
    (∃ hash context, s.runCommandContextMap hash = some context ∧ CarriesRequest request done context) ∨
    ∃ context ∈ s.pool ++ s.rpcPosts, CarriesRequest request done context

section Held

variable {request : RunCommandRequest} {done : Nat}

theorem Held.mono (held : Held request done s)
    (queue : .runRequest request done ∈ s.queue → .runRequest request done ∈ t.queue)
    (contexts : t.runCommandContextMap = s.runCommandContextMap)
    (answered : ∀ context ∈ s.pool ++ s.rpcPosts, context ∈ t.pool ++ t.rpcPosts) : Held request done t := by
  rcases held with queued | waits | ⟨context, member, carries⟩
  · exact .inl (queue queued)
  · exact .inr (.inl (contexts ▸ waits))
  · exact .inr (.inr ⟨context, answered context member, carries⟩)

theorem Held.startReadyEdges (held : Held request done s) (fuel : Nat) :
    Held request done (s.startReadyEdges disk fuel) := by
  have started := startReadyEdges_started disk fuel s
  apply held.mono (fun queued => started.queue ▸ queued) started.contexts
  intro context member
  rw [started.pool, started.rpcPosts]
  exact member

theorem Held.answer (held : Held request done s) (command : String) (status : ExitStatus) (output : String) :
    Held request done (s.answer command status output) := by
  unfold SlaveMainRunner.answer
  split
  · exact held
  · rename_i context waits
    rcases held with queued | ⟨hash, other, at_, carries⟩ | ⟨other, member, carries⟩
    · exact .inl queued
    · by_cases same : hash = S.hash command
      · rw [same, waits] at at_
        cases at_
        refine .inr (.inr ⟨_, List.mem_append_left _ (List.mem_append_right _ List.mem_cons_self), ?_⟩)
        exact carries
      · exact .inr (.inl ⟨hash, other, (Function.update_of_ne same _ _).trans at_, carries⟩)
    · refine .inr (.inr ⟨other, ?_, carries⟩)
      rw [List.mem_append, List.mem_append]
      rw [List.mem_append] at member
      rcases member with pooled | posted
      · exact .inl (.inl pooled)
      · exact .inr posted

theorem Held.awaiting {asked : RunCommandRequest} {closure : Nat} {rest : List (SlaveTask Edge)}
    (held : Held request done s) (head : s.queue = .runRequest asked closure :: rest)
    (free : s.runCommandContextMap (S.hash (commandOf S edge)) = none) :
    Held request done (SlaveMainRunner.awaiting { s with queue := rest } edge (freshContext asked closure)) := by
  rcases held with queued | ⟨hash, context, at_, carries⟩ | answered
  · rw [head] at queued
    rcases List.mem_cons.mp queued with same | later
    · cases same
      exact .inr (.inl ⟨S.hash (commandOf S edge), freshContext request done, Function.update_self .., rfl, rfl⟩)
    · exact .inl later
  · refine .inr (.inl ⟨hash, context, ?_, carries⟩)
    have other : hash ≠ S.hash (commandOf S edge) := by
      rintro rfl
      rw [free] at at_
      cases at_
    exact (Function.update_of_ne other _ _).trans at_
  · exact .inr (.inr answered)

theorem Held.digested (held : Held request done s) {job : Nat} {md5 : String → String}
    {context : RunCommandContext} (at_ : s.pool[job]? = some context) :
    Held request done
      { s with pool := s.pool.eraseIdx job, rpcPosts := s.rpcPosts ++ [md5Outputs md5 context] } := by
  obtain ⟨inside, rfl⟩ := List.getElem?_eq_some_iff.mp at_
  rcases held with queued | waits | ⟨other, member, carries⟩
  · exact .inl queued
  · exact .inr (.inl waits)
  · right; right
    rcases List.mem_append.mp member with pooled | posted
    · have split := (List.getElem_cons_eraseIdx_perm inside).mem_iff.mpr pooled
      rcases List.mem_cons.mp split with rfl | rest
      · refine ⟨md5Outputs md5 s.pool[job], by simp, ?_⟩
        unfold md5Outputs
        split
        · exact carries
        · exact carries
      · exact ⟨other, List.mem_append_left _ rest, carries⟩
    · exact ⟨other, by simp [posted], carries⟩

def AllHeld (events : List (SlaveEvent Edge)) (s : SlaveMainRunner S) : Prop :=
  ∀ request done, .requestPosted request done ∈ events → Held request done s

theorem Held.step (held : Held request done s) {event : SlaveEvent Edge} (answers : s.answersAll event = true)
    (stepped : s.step event = some t) : Held request done t := by
  have asks := (Bool.and_eq_true_iff.mp answers).2
  cases step_effect stepped with
  | posted => exact held.mono (List.mem_append_left _) rfl fun _ member => member
  | @refused disk asked closure rest response head unknown failure =>
    rcases held with queued | waits | ⟨context, member, carries⟩
    · rw [head] at queued
      rcases List.mem_cons.mp queued with same | later
      · cases same
        exact .inr (.inr ⟨⟨request, response, done⟩, by simp, rfl, rfl⟩)
      · exact .inl later
    · exact .inr (.inl waits)
    · refine .inr (.inr ⟨context, ?_, carries⟩)
      rw [← List.append_assoc]
      exact List.mem_append_left _ member
  | @upToDate disk asked closure rest edge other u head known ready registered enters entered =>
    simp only [head, known, Option.all_some, Bool.and_eq_true, Option.isNone_iff_eq_none] at asks
    have waits : Held request done u := by
      rw [entered]
      exact (held.awaiting head asks.1).mono (fun queued => queued) rfl fun _ member => member
    exact (waits.startReadyEdges _).answer _ _ _
  | @queued disk asked closure rest edge u head known unready enters entered =>
    simp only [head, known, Option.all_some, Bool.and_eq_true, Option.isNone_iff_eq_none] at asks
    have waits : Held request done u := by
      rw [entered]
      exact (held.awaiting head asks.1).mono (fun queued => queued) rfl fun _ member => member
    exact waits.startReadyEdges _
  | @ran disk command cause rest head =>
    refine held.mono ?_ rfl fun _ member => member
    intro queued
    rw [head] at queued
    rcases List.mem_cons.mp queued with same | later
    · cases same
    · exact later
  | @exited pid status output disk p edge u found registered enters entered =>
    have before : Held request done u := by
      rw [entered]
      exact held.mono (fun queued => queued) rfl fun _ member => member
    exact ((before.startReadyEdges _).answer p.command status output).mono
      (List.mem_append_left _) rfl fun _ member => member
  | digested at_ => exact held.digested at_

end Held

theorem AllHeld.step {past : List (SlaveEvent Edge)} (held : AllHeld past s) {event : SlaveEvent Edge}
    (answers : s.answersAll event = true) (stepped : s.step event = some t) : AllHeld (past ++ [event]) t := by
  intro request done posted
  rcases List.mem_append.mp posted with before | last
  · exact (held request done before).step answers stepped
  · cases List.mem_singleton.mp last
    cases stepped
    exact .inl (List.mem_append_right _ List.mem_cons_self)

structure AtRest (s : SlaveMainRunner S) : Prop where
  queue : s.queue = []
  subprocesses : s.executor.subprocssToCommand = []
  pending : s.executor.pendingCommandQueue = []
  pool : s.pool = []

theorem Answerable.none_waits (answerable : Answerable demand none none s) (exhausted : Exhausted s)
    (rest : AtRest s) (hash : UInt32) : s.runCommandContextMap hash = none := by
  rcases exhausted with nothing | none
  · have idle : S.plan.inProgress s.plan = ∅ := by
      apply Finset.eq_empty_of_forall_notMem
      intro edge member
      obtain ⟨command, under, _⟩ := answerable.taken edge member
      rw [underWay, rest.queue, CommandExecutor.underWay, CommandExecutor.others_none, rest.subprocesses,
        rest.pending] at under
      cases under
    cases waits : s.runCommandContextMap hash with
    | none => rfl
    | some context =>
      obtain ⟨edge, wanted, _⟩ := answerable.waiting hash context (Option.some_ne_none hash).symm waits
      have given := demand.findWork_of_wanted s.plan answerable.intact (Finset.ne_empty_of_mem wanted) idle
      rw [nothing] at given
      cases given
  · exact none hash

def linked : List (SlaveEvent (Fin 2)) :=
  linkAfter .success ++ [.exited 1 .success "" fun _ => workingDisk, .digested 0 fun path => path]

end SlaveMainRunner

end DistributedNinja.Slave
