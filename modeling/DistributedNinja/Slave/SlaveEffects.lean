import DistributedNinja.Lib.Run
import DistributedNinja.Slave.SlaveMainRunner

namespace DistributedNinja.Slave

open Lib Proto Common Ninja

variable {Edge : Type} [DecidableEq Edge] {S : Setting Edge}

def SlaveTask.posted : SlaveTask Edge → Option (String × Edge)
  | .runRequest _ _ => none
  | .runCommand command cause => some (command, cause)

namespace SlaveEvent

/-- The subprocess that is still in the executor while its exit is handled. -/
def leaving : SlaveEvent Edge → Option Nat
  | .exited pid _ _ _ => some pid
  | _ => none

def disk : SlaveEvent Edge → Edge → Disk
  | .taskRun disk => disk
  | .exited _ _ _ disk => disk
  | _ => fun _ => ⟨fun _ => true, fun _ _ => true⟩

end SlaveEvent

namespace SlaveMainRunner

def freshContext (request : RunCommandRequest) (done : Nat) : RunCommandContext :=
  ⟨request, ⟨.kExitSuccess, "", request.edgeId, []⟩, done⟩

/-- The commands that were handed to the executor and have not exited. -/
def underWay (s : SlaveMainRunner S) (gone : Option Nat) : List (String × Edge) :=
  s.executor.underWay gone ++ s.queue.filterMap SlaveTask.posted

def launches (S : Setting Edge) (disk : Disk) (edge : Edge) : Bool :=
  !S.manifest.isPhony edge && ((S.manifest.outputs edge).all disk.createDirectory &&
    ((S.manifest.unescapedRspfile edge).isEmpty ||
      disk.writeFile (S.manifest.unescapedRspfile edge) (S.manifest.rspfileContent edge)))

def passed (disk : Edge → Disk) (s : SlaveMainRunner S) (edge : Edge) (plan : S.plan.State) :
    SlaveMainRunner S := (s.registered edge plan).startEdge (disk edge) edge

def eachPass (ok : SlaveMainRunner S → Edge → Bool) (disk : Edge → Disk) : Nat → SlaveMainRunner S → Bool
  | 0, _ => true
  | fuel + 1, s =>
    match S.plan.findWork s.plan with
    | none => true
    | some (edge, plan) => ok s edge && eachPass ok disk fuel (s.passed disk edge plan)

def entering (s : SlaveMainRunner S) : SlaveEvent Edge → Option (SlaveMainRunner S)
  | .exited pid status _ _ =>
    (s.executor.find? pid).bind fun p =>
      (s.commandHashEdgeMap (S.hash p.command)).map fun edge =>
        edgeFinished { s with log := s.log ++ [.exited p.command status] } edge
  | .taskRun _ =>
    match s.queue with
    | .runRequest request done :: rest =>
      (s.hashEdgeMap request.edgeId).bind fun edge =>
        let s := awaiting { s with queue := rest } edge (freshContext request done)
        if S.plan.outputsReady s.plan edge then
          (s.commandHashEdgeMap (S.hash (commandOf S edge))).map fun other => s.edgeFinished other
        else some { s with plan := addTargets s.plan (S.manifest.outputs edge) }
    | _ => none
  | _ => none

def eachPassOf (s : SlaveMainRunner S) (ok : SlaveMainRunner S → Edge → Bool) (event : SlaveEvent Edge) : Bool :=
  (s.entering event).all fun t => eachPass ok event.disk t.edgesLeft t

variable {s t : SlaveMainRunner S} {disk : Edge → Disk} {edge : Edge}

theorem startEdge_of_launches {disk : Disk} (starts : launches S disk edge = true) (s : SlaveMainRunner S) :
    s.startEdge disk edge = { s with executor := s.executor.runCommand (commandOf S edge) edge } := by
  obtain ⟨real, prepared⟩ := Bool.and_eq_true_iff.mp starts
  unfold startEdge
  rw [if_neg (by simpa using real), if_pos prepared]

theorem startEdge_of_not_launches {disk : Disk} (stays : launches S disk edge = false)
    (s : SlaveMainRunner S) : s.startEdge disk edge = s := by
  unfold startEdge
  split
  · rfl
  · rename_i real
    rw [if_neg]
    intro prepared
    simp [launches, real, prepared] at stays

theorem startReadyEdges_invariant {inv : SlaveMainRunner S → Prop} {ok : SlaveMainRunner S → Edge → Bool}
    (pass : ∀ s edge plan, S.plan.findWork s.plan = some (edge, plan) → inv s → ok s edge = true →
      inv (s.passed disk edge plan))
    {fuel : Nat} (start : inv s) (passes : eachPass ok disk fuel s = true) :
    inv (s.startReadyEdges disk fuel) := by
  induction fuel generalizing s with
  | zero => exact start
  | succ fuel ih =>
    unfold eachPass at passes
    unfold startReadyEdges
    split
    · exact start
    · rename_i edge plan given
      rw [given] at passes
      obtain ⟨meets, rest⟩ := Bool.and_eq_true_iff.mp passes
      exact ih (pass s edge plan given start meets) rest

theorem passed_keeps (disk : Edge → Disk) (s : SlaveMainRunner S) (edge : Edge) (plan : S.plan.State) :
    s.passed disk edge plan =
      { s.registered edge plan with executor := (s.passed disk edge plan).executor } := by
  unfold passed startEdge
  split
  · rfl
  · split <;> rfl

theorem startReadyEdges_exhausts (disk : Edge → Disk) {fuel : Nat} (s : SlaveMainRunner S)
    (enough : (S.plan.unreturned s.plan).card < fuel) :
    S.plan.findWork (s.startReadyEdges disk fuel).plan = none := by
  induction fuel generalizing s with
  | zero => exact absurd enough (Nat.not_lt_zero _)
  | succ fuel ih =>
    unfold startReadyEdges
    split
    · assumption
    · rename_i edge plan given
      obtain ⟨unreturned, removed, _⟩ := S.plan.findWork_takes _ _ _ given
      have fewer : (S.plan.unreturned plan).card < (S.plan.unreturned s.plan).card :=
        lt_of_le_of_lt (Finset.card_le_card removed) (Finset.card_erase_lt_of_mem unreturned)
      have same : (s.passed disk edge plan).plan = plan := by
        rw [passed_keeps]
        rfl
      apply ih (s.passed disk edge plan)
      rw [same]
      omega

theorem underWay_passed {gone : Option Nat} (old : ∀ pid, gone = some pid → pid < s.executor.nextPid)
    (disk : Edge → Disk) (edge : Edge) (plan : S.plan.State) :
    ((s.passed disk edge plan).underWay gone).Perm
      (if launches S (disk edge) edge then (commandOf S edge, edge) :: s.underWay gone else s.underWay gone) := by
  unfold passed
  split
  · rename_i starts
    rw [startEdge_of_launches starts]
    exact (CommandExecutor.underWay_runCommand old (commandOf S edge) edge).append_right _
  · rename_i stays
    rw [startEdge_of_not_launches (by simpa using stays)]
    rfl

theorem passed_executor (disk : Edge → Disk) (s : SlaveMainRunner S) (edge : Edge) (plan : S.plan.State) :
    (s.passed disk edge plan).executor = s.executor ∨
      (s.passed disk edge plan).executor = s.executor.runCommand (commandOf S edge) edge := by
  unfold passed startEdge
  split
  · exact .inl rfl
  · split
    · exact .inr rfl
    · exact .inl rfl

structure Started (s t : SlaveMainRunner S) : Prop where
  hashEdgeMap : t.hashEdgeMap = s.hashEdgeMap
  contexts : t.runCommandContextMap = s.runCommandContextMap
  queue : t.queue = s.queue
  pool : t.pool = s.pool
  rpcPosts : t.rpcPosts = s.rpcPosts
  log : ∃ found : List Edge, t.log = s.log ++ found.map .found

theorem Started.trans {u : SlaveMainRunner S} (first : Started s t) (second : Started t u) : Started s u := by
  obtain ⟨found, log⟩ := first.log
  obtain ⟨more, after⟩ := second.log
  refine ⟨second.hashEdgeMap.trans first.hashEdgeMap, second.contexts.trans first.contexts,
    second.queue.trans first.queue, second.pool.trans first.pool, second.rpcPosts.trans first.rpcPosts,
    found ++ more, ?_⟩
  rw [after, log, List.map_append, List.append_assoc]

theorem Started.refl (s : SlaveMainRunner S) : Started s s :=
  ⟨rfl, rfl, rfl, rfl, rfl, [], (List.append_nil _).symm⟩

theorem passed_started (disk : Edge → Disk) (s : SlaveMainRunner S) (edge : Edge) (plan : S.plan.State) :
    Started s (s.passed disk edge plan) := by
  rw [passed_keeps]
  exact ⟨rfl, rfl, rfl, rfl, rfl, [edge], rfl⟩

theorem startReadyEdges_started (disk : Edge → Disk) (fuel : Nat) (s : SlaveMainRunner S) :
    Started s (s.startReadyEdges disk fuel) := by
  induction fuel generalizing s with
  | zero => exact .refl s
  | succ fuel ih =>
    unfold startReadyEdges
    split
    · exact .refl s
    · rename_i edge plan given
      exact (passed_started disk s edge plan).trans (ih _)

section Entering

variable {request : RunCommandRequest} {done : Nat} {rest : List (SlaveTask Edge)} {other : Edge}

theorem entering_upToDate (head : s.queue = .runRequest request done :: rest)
    (known : s.hashEdgeMap request.edgeId = some edge) (ready : S.plan.outputsReady s.plan edge = true)
    (registered : s.commandHashEdgeMap (S.hash (commandOf S edge)) = some other) :
    s.entering (.taskRun disk) =
      some ((awaiting { s with queue := rest } edge (freshContext request done)).edgeFinished other) := by
  simp only [entering, head, known, Option.bind_some]
  exact (if_pos ready).trans (Option.map_eq_some_iff.mpr ⟨other, registered, rfl⟩)

theorem entering_queued (head : s.queue = .runRequest request done :: rest)
    (known : s.hashEdgeMap request.edgeId = some edge) (unready : S.plan.outputsReady s.plan edge = false) :
    s.entering (.taskRun disk) = some { awaiting { s with queue := rest } edge (freshContext request done) with
      plan := addTargets s.plan (S.manifest.outputs edge) } := by
  simp only [entering, head, known, Option.bind_some]
  exact if_neg (by rw [awaiting, unready]; exact Bool.false_ne_true)

theorem entering_exited {pid : Nat} {status : ExitStatus} {output : String} {p : Subprocess Edge}
    (found : s.executor.find? pid = some p)
    (registered : s.commandHashEdgeMap (S.hash p.command) = some edge) :
    s.entering (.exited pid status output disk) =
      some (edgeFinished { s with log := s.log ++ [.exited p.command status] } edge) := by
  simp only [entering, found, Option.bind_some, registered, Option.map_some]

theorem eachPass_of_entering {ok : SlaveMainRunner S → Edge → Bool} {event : SlaveEvent Edge}
    (passes : s.eachPassOf ok event = true) (enters : s.entering event = some t) :
    eachPass ok event.disk t.edgesLeft t = true := by
  rw [eachPassOf, enters] at passes
  exact passes

end Entering

/-- Everything one step of the slave can do. -/
inductive Effect (s : SlaveMainRunner S) : SlaveEvent Edge → SlaveMainRunner S → Prop where
  | posted {request : RunCommandRequest} {done : Nat} :
      Effect s (.requestPosted request done) { s with queue := s.queue ++ [.runRequest request done] }
  | refused {disk : Edge → Disk} {request : RunCommandRequest} {done : Nat} {rest : List (SlaveTask Edge)}
      {response : RunCommandResponse} (head : s.queue = .runRequest request done :: rest)
      (unknown : s.hashEdgeMap request.edgeId = none) (failure : response.status = .kExitFailure) :
      Effect s (.taskRun disk) { s with
        queue := rest
        rpcPosts := s.rpcPosts ++ [⟨request, response, done⟩]
        log := s.log ++ [.answered request.edgeId response.status] }
  | upToDate {disk : Edge → Disk} {request : RunCommandRequest} {done : Nat}
      {rest : List (SlaveTask Edge)} {edge other : Edge} {t : SlaveMainRunner S}
      (head : s.queue = .runRequest request done :: rest) (known : s.hashEdgeMap request.edgeId = some edge)
      (ready : S.plan.outputsReady s.plan edge = true)
      (registered : s.commandHashEdgeMap (S.hash (commandOf S edge)) = some other)
      (enters : s.entering (.taskRun disk) = some t)
      (entered : t = (awaiting { s with queue := rest } edge (freshContext request done)).edgeFinished other) :
      Effect s (.taskRun disk)
        ((t.startReadyEdges disk t.edgesLeft).answer (commandOf S edge) .success "")
  | queued {disk : Edge → Disk} {request : RunCommandRequest} {done : Nat} {rest : List (SlaveTask Edge)}
      {edge : Edge} {t : SlaveMainRunner S}
      (head : s.queue = .runRequest request done :: rest) (known : s.hashEdgeMap request.edgeId = some edge)
      (unready : S.plan.outputsReady s.plan edge = false) (enters : s.entering (.taskRun disk) = some t)
      (entered : t = { awaiting { s with queue := rest } edge (freshContext request done) with
        plan := addTargets s.plan (S.manifest.outputs edge) }) :
      Effect s (.taskRun disk) (t.startReadyEdges disk t.edgesLeft)
  | ran {disk : Edge → Disk} {command : String} {cause : Edge} {rest : List (SlaveTask Edge)}
      (head : s.queue = .runCommand command cause :: rest) :
      Effect s (.taskRun disk) { s with queue := rest, executor := s.executor.runCommand command cause }
  | exited {pid : Nat} {status : ExitStatus} {output : String} {disk : Edge → Disk} {p : Subprocess Edge}
      {edge : Edge} {t : SlaveMainRunner S} (found : s.executor.find? pid = some p)
      (registered : s.commandHashEdgeMap (S.hash p.command) = some edge)
      (enters : s.entering (.exited pid status output disk) = some t)
      (entered : t = edgeFinished { s with log := s.log ++ [.exited p.command status] } edge) :
      Effect s (.exited pid status output disk)
        (((t.startReadyEdges disk t.edgesLeft).answer p.command status output).subprocessRemoved pid)
  | digested {job : Nat} {md5 : String → String} {context : RunCommandContext}
      (at_ : s.pool[job]? = some context) :
      Effect s (.digested job md5)
        { s with pool := s.pool.eraseIdx job, rpcPosts := s.rpcPosts ++ [md5Outputs md5 context] }

theorem runCommand_effect {request : RunCommandRequest} {done : Nat} {rest : List (SlaveTask Edge)}
    (head : s.queue = .runRequest request done :: rest)
    (ran : runCommand disk { s with queue := rest } request done = some t) : Effect s (.taskRun disk) t := by
  unfold runCommand at ran
  dsimp only at ran
  split at ran
  · rename_i unknown
    cases ran
    exact .refused head unknown rfl
  · rename_i edge known
    split at ran
    · rename_i ready
      obtain ⟨other, registered, rfl⟩ := Option.map_eq_some_iff.mp ran
      exact .upToDate head known ready registered (entering_upToDate head known ready registered) rfl
    · rename_i unready
      cases ran
      have unready : S.plan.outputsReady s.plan edge = false := by simpa [awaiting] using unready
      exact .queued head known unready (entering_queued head known unready) rfl

theorem step_effect {event : SlaveEvent Edge} (stepped : s.step event = some t) : Effect s event t := by
  cases event with
  | requestPosted request done =>
    cases stepped
    exact .posted
  | taskRun disk =>
    simp only [step] at stepped
    split at stepped
    · cases stepped
    · rename_i task rest head
      cases task with
      | runRequest request done => exact runCommand_effect head stepped
      | runCommand command cause =>
        cases stepped
        exact .ran head
  | exited pid status output disk =>
    obtain ⟨p, found, stepped⟩ := Option.bind_eq_some_iff.mp stepped
    obtain ⟨u, finished, rfl⟩ := Option.map_eq_some_iff.mp stepped
    obtain ⟨edge, registered, rfl⟩ := Option.map_eq_some_iff.mp finished
    exact .exited found registered (entering_exited found registered) rfl
  | digested job md5 =>
    obtain ⟨context, at_, rfl⟩ := Option.map_eq_some_iff.mp stepped
    exact .digested at_

structure Running (gone : Option Nat) (s : SlaveMainRunner S) : Prop where
  numbered : s.executor.Numbered
  old : ∀ pid, gone = some pid → pid < s.executor.nextPid

variable {gone : Option Nat}

theorem Running.pass (running : Running gone s) (disk : Edge → Disk) (edge : Edge) (plan : S.plan.State) :
    Running gone (s.passed disk edge plan) := by
  rcases passed_executor disk s edge plan with same | ran
  · exact ⟨same ▸ running.numbered, same ▸ running.old⟩
  · refine ⟨ran ▸ running.numbered.runCommand _ _, ?_⟩
    intro pid leaves
    rw [ran]
    exact Nat.lt_of_lt_of_le (running.old pid leaves) (CommandExecutor.nextPid_le_runCommand _ _ _)

theorem Running.leave (running : Running none s) {pid : Nat} {p : Subprocess Edge}
    (found : s.executor.find? pid = some p) : Running (some pid) s := by
  obtain ⟨member, same⟩ := CommandExecutor.mem_of_find? found
  refine ⟨running.numbered, ?_⟩
  intro other leaves
  cases leaves
  exact same ▸ running.numbered.fresh p member

theorem Running.underWay_exits (running : Running none s) {pid : Nat} {p : Subprocess Edge}
    (found : s.executor.find? pid = some p) :
    (s.underWay none).Perm ((p.command, p.cause) :: s.underWay (some pid)) :=
  (running.numbered.underWay_exits found).append_right _

theorem Running.removed (running : Running gone s) (pid : Nat) : Running none (s.subprocessRemoved pid) :=
  ⟨running.numbered.exited pid, nofun⟩

theorem underWay_removed (s : SlaveMainRunner S) (pid : Nat) :
    ((s.subprocessRemoved pid).underWay none).Perm (s.underWay (some pid)) := by
  have posted : ((s.executor.exited pid).2.toList.map fun posted =>
      (SlaveTask.runCommand posted.1 posted.2 : SlaveTask Edge)).filterMap SlaveTask.posted =
        (s.executor.exited pid).2.toList := by
    cases (s.executor.exited pid).2 <;> rfl
  unfold underWay subprocessRemoved
  dsimp only
  rw [List.filterMap_append, posted]
  apply (List.perm_append_comm.append_left _).trans
  rw [← List.append_assoc]
  exact (CommandExecutor.underWay_exited s.executor pid).append_right _

theorem underWay_ran (running : Running none s) {command : String} {cause : Edge}
    {rest : List (SlaveTask Edge)} (head : s.queue = .runCommand command cause :: rest) :
    (underWay { s with queue := rest, executor := s.executor.runCommand command cause } none).Perm
      (s.underWay none) := by
  unfold underWay
  rw [head]
  exact ((CommandExecutor.underWay_runCommand running.old command cause).append_right _).trans
    List.perm_middle.symm

theorem underWay_posted (s : SlaveMainRunner S) (request : RunCommandRequest) (done : Nat) :
    underWay { s with queue := s.queue ++ [.runRequest request done] } gone = s.underWay gone := by
  unfold underWay
  rw [List.filterMap_append]
  exact congrArg _ (List.append_nil _)

theorem underWay_asked {request : RunCommandRequest} {done : Nat} {rest : List (SlaveTask Edge)}
    (head : s.queue = .runRequest request done :: rest) (executor : t.executor = s.executor)
    (queue : t.queue = rest) : t.underWay gone = s.underWay gone := by
  unfold underWay
  rw [executor, queue, head]
  rfl

theorem answer_keeps (s : SlaveMainRunner S) (command : String) (status : ExitStatus) (output : String) :
    s.answer command status output =
      { s with
        runCommandContextMap := Function.update s.runCommandContextMap (S.hash command) none
        pool := (s.answer command status output).pool
        log := (s.answer command status output).log } := by
  unfold answer
  split
  · rename_i none
    have same : Function.update s.runCommandContextMap (S.hash command) Option.none =
        s.runCommandContextMap := by
      rw [← none, Function.update_eq_self]
    rw [same]
  · rfl

end SlaveMainRunner

end DistributedNinja.Slave
