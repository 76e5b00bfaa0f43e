import DistributedNinja.Lib.Listing
import DistributedNinja.Slave.SlaveEffects

namespace DistributedNinja.Slave

open Lib Proto Common Ninja

variable {Edge : Type} [DecidableEq Edge] {S : Setting Edge}

def SlaveTask.request? : SlaveTask Edge → Option RunCommandRequest
  | .runRequest request _ => some request
  | .runCommand _ _ => none

def SlaveEvent.brings : SlaveEvent Edge → List RunCommandRequest
  | .requestPosted request _ => [request]
  | _ => []

/-- A request with the closure that answers it. -/
abbrev Ticket := RunCommandRequest × Nat

def RunCommandContext.ticket (context : RunCommandContext) : Ticket := (context.request, context.done)

def SlaveTask.ticket? : SlaveTask Edge → Option Ticket
  | .runRequest request done => some (request, done)
  | .runCommand _ _ => none

def SlaveEvent.tickets : SlaveEvent Edge → List Ticket
  | .requestPosted request done => [(request, done)]
  | _ => []

namespace SlaveMainRunner

variable {s t : SlaveMainRunner S} {event : SlaveEvent Edge} {bound : (RunCommandRequest → Bool) → Nat}

/-- How many of the requests that `p` picks the slave has in its queue, in the contexts listed, on the pool and
    on the way to the RPC thread. -/
def load (s : SlaveMainRunner S) (waiting : List (UInt32 × RunCommandContext)) (p : RunCommandRequest → Bool) :
    Nat :=
  (s.queue.filterMap SlaveTask.request?).countP p + waiting.countP (fun entry => p entry.2.request) +
    s.pool.countP (fun context => p context.request) + s.rpcPosts.countP (fun context => p context.request)

def Custody (bound : (RunCommandRequest → Bool) → Nat) (s : SlaveMainRunner S) : Prop :=
  ∃ waiting, Lists s.runCommandContextMap waiting ∧ ∀ p, s.load waiting p ≤ bound p

def tickets (s : SlaveMainRunner S) (waiting : List (UInt32 × RunCommandContext)) : List Ticket :=
  s.queue.filterMap SlaveTask.ticket? ++ waiting.map (fun entry => entry.2.ticket) ++
    s.pool.map RunCommandContext.ticket ++ s.rpcPosts.map RunCommandContext.ticket

theorem countP_tickets (s : SlaveMainRunner S) (waiting : List (UInt32 × RunCommandContext)) (p : Ticket → Bool) :
    (s.tickets waiting).countP p = (s.queue.filterMap SlaveTask.ticket?).countP p +
      waiting.countP (fun entry => p entry.2.ticket) + s.pool.countP (fun context => p context.ticket) +
        s.rpcPosts.countP fun context => p context.ticket := by
  simp only [tickets, List.countP_append, List.countP_map]
  rfl

def Passes (more : List Ticket) (s t : SlaveMainRunner S) : Prop :=
  ∀ waiting, Lists s.runCommandContextMap waiting → ∃ later, Lists t.runCommandContextMap later ∧
    ∀ p, (t.tickets later).countP p ≤ (s.tickets waiting).countP p + more.countP p

theorem Passes.of_eq (contexts : t.runCommandContextMap = s.runCommandContextMap)
    (queue : t.queue.filterMap SlaveTask.ticket? = s.queue.filterMap SlaveTask.ticket?)
    (pool : t.pool = s.pool) (rpcPosts : t.rpcPosts = s.rpcPosts) : Passes [] s t := by
  intro waiting lists
  refine ⟨waiting, contexts ▸ lists, ?_⟩
  intro p
  rw [tickets, queue, pool, rpcPosts]
  exact Nat.le_refl _

theorem Passes.trans {u : SlaveMainRunner S} {more : List Ticket} (first : Passes more s t)
    (second : Passes [] t u) : Passes more s u := by
  intro waiting lists
  obtain ⟨later, listed, fewer⟩ := first waiting lists
  obtain ⟨last, listed, less⟩ := second later listed
  refine ⟨last, listed, ?_⟩
  intro p
  have before := fewer p
  have after := less p
  rw [List.countP_nil] at after
  omega

theorem Started.passes (started : Started s t) : Passes [] s t :=
  .of_eq started.contexts (by rw [started.queue]) started.pool started.rpcPosts

section Head

variable {request : RunCommandRequest} {done : Nat} {rest : List (SlaveTask Edge)}

theorem countP_head (head : s.queue = .runRequest request done :: rest) (p : Ticket → Bool) :
    (s.queue.filterMap SlaveTask.ticket?).countP p =
      (rest.filterMap SlaveTask.ticket?).countP p + if p (request, done) then 1 else 0 := by
  rw [head, List.filterMap_cons, SlaveTask.ticket?, List.countP_cons]

theorem passes_awaiting (head : s.queue = .runRequest request done :: rest) (edge : Edge) :
    Passes [] s (SlaveMainRunner.awaiting { s with queue := rest } edge (freshContext request done)) := by
  intro waiting lists
  refine ⟨_, lists.update (S.hash (commandOf S edge)) (freshContext request done), ?_⟩
  intro p
  have fewer := countP_without_le (fun entry => p entry.2.ticket) (S.hash (commandOf S edge)) waiting
  rw [countP_tickets, countP_tickets, countP_head head]
  simp only [SlaveMainRunner.awaiting, List.countP_cons, freshContext, RunCommandContext.ticket] at fewer ⊢
  omega

theorem passes_refused (head : s.queue = .runRequest request done :: rest) (response : RunCommandResponse) :
    Passes [] s { s with
      queue := rest
      rpcPosts := s.rpcPosts ++ [⟨request, response, done⟩]
      log := s.log ++ [.answered request.edgeId response.status] } := by
  intro waiting lists
  refine ⟨waiting, lists, ?_⟩
  intro p
  rw [countP_tickets, countP_tickets, countP_head head]
  simp only [List.countP_append, List.countP_singleton, RunCommandContext.ticket]
  omega

end Head

theorem passes_answer (s : SlaveMainRunner S) (command : String) (status : ExitStatus) (output : String) :
    Passes [] s (s.answer command status output) := by
  unfold SlaveMainRunner.answer
  split
  · exact .of_eq rfl rfl rfl rfl
  · rename_i context waits
    intro waiting lists
    refine ⟨_, lists.erase (S.hash command), ?_⟩
    intro p
    have fewer := lists.countP_without waits fun entry => p entry.2.ticket
    rw [countP_tickets, countP_tickets]
    simp only [List.countP_append, List.countP_singleton, RunCommandContext.ticket] at fewer ⊢
    omega

theorem md5Outputs_ticket (md5 : String → String) (context : RunCommandContext) :
    (md5Outputs md5 context).ticket = context.ticket := by
  unfold md5Outputs
  split <;> rfl

theorem passes_digested {job : Nat} {context : RunCommandContext} (at_ : s.pool[job]? = some context)
    (md5 : String → String) : Passes [] s { s with
      pool := s.pool.eraseIdx job
      rpcPosts := s.rpcPosts ++ [md5Outputs md5 context] } := by
  intro waiting lists
  refine ⟨waiting, lists, ?_⟩
  intro p
  obtain ⟨inside, rfl⟩ := List.getElem?_eq_some_iff.mp at_
  have taken := (List.getElem_cons_eraseIdx_perm inside).countP_eq fun context => p context.ticket
  rw [List.countP_cons] at taken
  rw [countP_tickets, countP_tickets]
  simp only [List.countP_append, List.countP_singleton, md5Outputs_ticket]
  omega

theorem passes_removed (s : SlaveMainRunner S) (pid : Nat) : Passes [] s (s.subprocessRemoved pid) := by
  have queue : (s.subprocessRemoved pid).queue.filterMap SlaveTask.ticket? =
      s.queue.filterMap SlaveTask.ticket? := by
    apply List.filterMap_append.trans
    rw [List.filterMap_map]
    exact (congrArg _ (List.filterMap_eq_nil_iff.mpr fun _ _ => rfl)).trans (List.append_nil _)
  exact .of_eq rfl queue rfl rfl

theorem passes_step (stepped : s.step event = some t) : Passes event.tickets s t := by
  cases step_effect stepped with
  | @posted request done =>
    intro waiting lists
    refine ⟨waiting, lists, ?_⟩
    intro p
    rw [countP_tickets, countP_tickets]
    simp only [List.filterMap_append, List.filterMap_cons, List.filterMap_nil, SlaveTask.ticket?,
      List.countP_append, SlaveEvent.tickets]
    omega
  | refused head unknown failure => exact passes_refused head _
  | @upToDate disk request done rest edge other u head known ready registered enters entered =>
    have taken : Passes [] (SlaveMainRunner.awaiting { s with queue := rest } edge (freshContext request done)) u :=
      entered ▸ .of_eq rfl rfl rfl rfl
    have entering := (passes_awaiting head edge).trans taken
    exact (entering.trans (startReadyEdges_started disk _ u).passes).trans (passes_answer _ _ _ _)
  | @queued disk request done rest edge u head known unready enters entered =>
    have taken : Passes [] (SlaveMainRunner.awaiting { s with queue := rest } edge (freshContext request done)) u :=
      entered ▸ .of_eq rfl rfl rfl rfl
    exact ((passes_awaiting head edge).trans taken).trans (startReadyEdges_started disk _ u).passes
  | @ran disk command cause rest head =>
    have queue : rest.filterMap SlaveTask.ticket? = s.queue.filterMap SlaveTask.ticket? := by
      rw [head]
      rfl
    exact Passes.of_eq rfl queue rfl rfl
  | @exited pid status output disk p edge u found registered enters entered =>
    have finished : Passes [] s u := entered ▸ .of_eq rfl rfl rfl rfl
    have started := finished.trans (startReadyEdges_started disk u.edgesLeft u).passes
    exact (started.trans (passes_answer _ p.command status output)).trans (passes_removed _ pid)
  | digested at_ => exact passes_digested at_ _

theorem load_eq (s : SlaveMainRunner S) (waiting : List (UInt32 × RunCommandContext))
    (p : RunCommandRequest → Bool) : s.load waiting p = (s.tickets waiting).countP fun ticket => p ticket.1 := by
  have queued : s.queue.filterMap SlaveTask.request? =
      (s.queue.filterMap SlaveTask.ticket?).map Prod.fst := by
    rw [List.map_filterMap]
    congr 1
    funext task
    cases task <;> rfl
  rw [load, countP_tickets, queued, List.countP_map]
  rfl

theorem Custody.mono {other : (RunCommandRequest → Bool) → Nat} (custody : s.Custody bound)
    (more : ∀ p, bound p ≤ other p) : s.Custody other := by
  obtain ⟨waiting, lists, counted⟩ := custody
  exact ⟨waiting, lists, fun p => (counted p).trans (more p)⟩

theorem Custody.step (custody : s.Custody bound) (stepped : s.step event = some t) :
    t.Custody fun p => bound p + event.brings.countP p := by
  obtain ⟨waiting, lists, counted⟩ := custody
  obtain ⟨later, listed, fewer⟩ := passes_step stepped waiting lists
  refine ⟨later, listed, ?_⟩
  intro p
  have before := counted p
  have after := fewer fun ticket => p ticket.1
  have brought : event.tickets.countP (fun ticket => p ticket.1) = event.brings.countP p := by
    cases event <;> rfl
  rw [load_eq] at before ⊢
  show _ ≤ bound p + event.brings.countP p
  omega

/-- A successful response names its request and has a digest for every path of it, in order. -/
def Faithful (context : RunCommandContext) : Prop :=
  context.response.status = .kExitSuccess → context.response.edgeId = context.request.edgeId ∧
    ∃ md5, context.response.md5 = context.request.outputPaths.map md5

def Undigested (context : RunCommandContext) : Prop :=
  context.response.edgeId = context.request.edgeId ∧ context.response.md5 = []

structure Truthful (s : SlaveMainRunner S) : Prop where
  waiting : ∀ hash context, s.runCommandContextMap hash = some context → Undigested context
  pool : ∀ context ∈ s.pool, Undigested context
  posted : ∀ context ∈ s.rpcPosts, Faithful context

theorem Truthful.congr (truthful : s.Truthful) (contexts : t.runCommandContextMap = s.runCommandContextMap)
    (pool : t.pool = s.pool) (rpcPosts : t.rpcPosts = s.rpcPosts) : t.Truthful :=
  ⟨contexts ▸ truthful.waiting, pool ▸ truthful.pool, rpcPosts ▸ truthful.posted⟩

theorem Started.truthful (started : Started s t) (truthful : s.Truthful) : t.Truthful :=
  truthful.congr started.contexts started.pool started.rpcPosts

theorem Truthful.awaiting (truthful : s.Truthful) (edge : Edge) (request : RunCommandRequest) (done : Nat) :
    (s.awaiting edge (freshContext request done)).Truthful := by
  refine ⟨?_, truthful.pool, truthful.posted⟩
  intro hash context at_
  by_cases same : hash = S.hash (commandOf S edge)
  · subst same
    have fresh : freshContext request done = context := by simpa [SlaveMainRunner.awaiting] using at_
    rw [← fresh]
    exact ⟨rfl, rfl⟩
  · exact truthful.waiting hash context ((Function.update_of_ne same _ _).symm.trans at_)

theorem Truthful.answer (truthful : s.Truthful) (command : String) (status : ExitStatus) (output : String) :
    (s.answer command status output).Truthful := by
  unfold SlaveMainRunner.answer
  split
  · exact truthful
  · rename_i context waits
    refine ⟨?_, ?_, truthful.posted⟩
    · intro hash other at_
      by_cases same : hash = S.hash command
      · subst same
        cases (Function.update_self ..).symm.trans at_
      · exact truthful.waiting hash other ((Function.update_of_ne same _ _).symm.trans at_)
    · intro other member
      rcases List.mem_append.mp member with member | member
      · exact truthful.pool other member
      · rw [List.mem_singleton.mp member]
        exact truthful.waiting _ context waits

theorem Undigested.faithful {context : RunCommandContext} (undigested : Undigested context)
    (md5 : String → String) : Faithful (md5Outputs md5 context) := by
  unfold md5Outputs
  split
  · intro _
    refine ⟨undigested.1, md5, ?_⟩
    rw [undigested.2, List.nil_append]
  · rename_i failed
    intro success
    exact absurd success failed

theorem Truthful.step (truthful : s.Truthful) (stepped : s.step event = some t) : t.Truthful := by
  cases step_effect stepped with
  | posted | ran => exact truthful.congr rfl rfl rfl
  | refused head unknown failure =>
    refine ⟨truthful.waiting, truthful.pool, ?_⟩
    intro context member
    rcases List.mem_append.mp member with member | member
    · exact truthful.posted context member
    · rw [List.mem_singleton.mp member]
      intro success
      exact RunCommandStatus.noConfusion (failure.symm.trans success)
  | @upToDate disk request done rest edge other u head known ready registered enters entered =>
    apply Truthful.answer
    refine (startReadyEdges_started disk _ u).truthful ?_
    have tail : Truthful { s with queue := rest } := truthful.congr rfl rfl rfl
    rw [entered]
    exact (tail.awaiting edge request done).congr rfl rfl rfl
  | @queued disk request done rest edge u head known unready enters entered =>
    refine (startReadyEdges_started disk _ u).truthful ?_
    have tail : Truthful { s with queue := rest } := truthful.congr rfl rfl rfl
    rw [entered]
    exact (tail.awaiting edge request done).congr rfl rfl rfl
  | @exited pid status output disk p edge u found registered enters entered =>
    have finished : u.Truthful := by
      rw [entered]
      exact truthful.congr rfl rfl rfl
    have answered := ((startReadyEdges_started disk u.edgesLeft u).truthful finished).answer p.command status
      output
    exact answered.congr rfl rfl rfl
  | @digested job md5 context at_ =>
    refine ⟨truthful.waiting, ?_, ?_⟩
    · intro other member
      exact truthful.pool other (List.mem_of_mem_eraseIdx member)
    · intro other member
      rcases List.mem_append.mp member with member | member
      · exact truthful.posted other member
      · rw [List.mem_singleton.mp member]
        exact (truthful.pool context (List.mem_of_getElem? at_)).faithful md5

theorem postCreateThreads_custody (created : postCreateThreads S = some s) :
    s.Truthful ∧ s.Custody fun _ => 0 := by
  obtain ⟨map, _, rfl⟩ := Option.map_eq_some_iff.mp created
  exact ⟨⟨nofun, nofun, nofun⟩, [], nofun, fun _ => Nat.le_refl 0⟩

end SlaveMainRunner

end DistributedNinja.Slave
