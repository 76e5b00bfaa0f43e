import DistributedNinja.Master.MainStep
import Mathlib.Logic.Relation

namespace DistributedNinja.Master

open Lib Rpc Proto Common Ninja

variable {Edge : Type} [DecidableEq Edge] {S : Setting Edge}

/-- The part of MAIN that decides where edges are. -/
structure Core (S : Setting Edge) where
  plan : S.plan.State
  executor : CommandExecutor Edge
  outstandingEdgeList : List Edge
  commandEdgeMap : String → Option Edge
  log : List (EdgeCall Edge)
  buildFinishedCalls : Nat

namespace Core

def new (S : Setting Edge) : Core S := ⟨S.plan.empty, .new S.processors, [], fun _ => none, [], 0⟩

def launch (c : Core S) (edge : Edge) : Core S :=
  let command := S.manifest.evaluateCommand edge
  { c with
    commandEdgeMap := Function.update c.commandEdgeMap command (some edge)
    executor := c.executor.runCommand command edge
    log := c.log ++ [.started edge] }

def send (c : Core S) (edge : Edge) : Core S :=
  { c with outstandingEdgeList := c.outstandingEdgeList ++ [edge] }

def finish (c : Core S) (edge : Edge) : Core S :=
  { c with plan := S.plan.edgeFinished c.plan edge, log := c.log ++ [.finished edge] }

end Core

structure Takes (S : Setting Edge) (plan : S.plan.State) (edge : Edge) (rest : S.plan.State) : Prop where
  unreturned : edge ∈ S.plan.unreturned plan
  removed : S.plan.unreturned rest ⊆ (S.plan.unreturned plan).erase edge
  inProgress : S.plan.inProgress rest = insert edge (S.plan.inProgress plan)

/-- What MAIN does with edges one at a time, together with the edge it has in hand. -/
inductive Work (disk : Edge → Disk) : Option Edge × Core S → Option Edge × Core S → Prop where
  | take {c : Core S} {edge : Edge} {rest : S.plan.State} (takes : Takes S c.plan edge rest) :
      Work disk (none, c) (some edge, { c with plan := rest, log := c.log ++ [.found edge] })
  | takeBack {c : Core S} {edge : Edge} {rest : List Edge} (front : c.outstandingEdgeList = edge :: rest) :
      Work disk (none, c) (some edge, { c with outstandingEdgeList := rest })
  | send {c : Core S} {edge : Edge} : Work disk (some edge, c) (none, c.send edge)
  | launch {c : Core S} {edge : Edge} (room : c.executor.canRunMore = true)
      (command : S.manifest.isPhony edge = false) : Work disk (some edge, c) (none, c.launch edge)
  | finishPhony {c : Core S} {edge : Edge} (phony : S.manifest.isPhony edge = true) :
      Work disk (some edge, c) (none, c.finish edge)
  | drop {c : Core S} {edge : Edge} (failed : MainThread.prepareLocally S (disk edge) edge = false) :
      Work disk (some edge, c) (none, c)
  | buildFinished {c : Core S} :
      Work disk (none, c) (none, { c with buildFinishedCalls := c.buildFinishedCalls + 1 })

abbrev Works (disk : Edge → Disk) : Option Edge × Core S → Option Edge × Core S → Prop :=
  Relation.ReflTransGen (Work disk)

namespace MainThread

def core (m : MainThread S) : Core S :=
  ⟨m.plan, m.executor, m.outstandingEdgeList, m.commandEdgeMap, m.log, m.buildFinishedCalls⟩

def taken (m : MainThread S) (edge : Edge) (rest : S.plan.State) : MainThread S :=
  { m with plan := rest, log := m.log ++ [.found edge] }

def launch (m : MainThread S) (edge : Edge) : MainThread S :=
  let command := S.manifest.evaluateCommand edge
  { m with
    commandEdgeMap := Function.update m.commandEdgeMap command (some edge)
    executor := m.executor.runCommand command edge
    log := m.log ++ [.started edge] }

/-- The same on MAIN as a whole; edges are sent to the connections of `via` only, and straight from the
    plan. -/
inductive Move (disk : Edge → Disk) (via : Int → Prop) :
    Option Edge × MainThread S → Option Edge × MainThread S → Prop where
  | take {m : MainThread S} {edge : Edge} {rest : S.plan.State} (takes : Takes S m.plan edge rest) :
      Move disk via (none, m) (some edge, m.taken edge rest)
  | takeBack {m : MainThread S} {edge : Edge} {rest : List Edge}
      (front : m.outstandingEdgeList = edge :: rest) :
      Move disk via (none, m) (some edge, { m with outstandingEdgeList := rest })
  | send {m : MainThread S} {edge : Edge} {rest : S.plan.State} {connectionId : Int}
      (takes : Takes S m.plan edge rest) (allowed : via connectionId) :
      Move disk via (none, m) (none, (m.taken edge rest).sendRemotely edge connectionId)
  | launch {m : MainThread S} {edge : Edge} (room : m.executor.canRunMore = true)
      (command : S.manifest.isPhony edge = false) : Move disk via (some edge, m) (none, m.launch edge)
  | finishPhony {m : MainThread S} {edge : Edge} (phony : S.manifest.isPhony edge = true) :
      Move disk via (some edge, m) (none, m.edgeFinished edge)
  | drop {m : MainThread S} {edge : Edge} (failed : prepareLocally S (disk edge) edge = false) :
      Move disk via (some edge, m) (none, m)
  | wait {m : MainThread S} {connectionId : Int} {count : Nat} :
      Move disk via (none, m) (none, m.setPendingRequests connectionId count)
  | buildFinished {m : MainThread S} : Move disk via (none, m) (none, m.buildFinished)

def Moves (disk : Edge → Disk) (via : Int → Prop) (m n : MainThread S) : Prop :=
  Relation.ReflTransGen (Move disk via) (none, m) (none, n)

variable {disk : Edge → Disk} {via : Int → Prop} {m n : MainThread S} {edge : Edge}

theorem Moves.refl (m : MainThread S) : Moves disk via m m := Relation.ReflTransGen.refl

theorem Moves.trans {k : MainThread S} (first : Moves disk via m n) (second : Moves disk via n k) :
    Moves disk via m k := Relation.ReflTransGen.trans first second

theorem Move.moves (move : Move disk via (none, m) (none, n)) : Moves disk via m n := .single move

theorem Move.thenMove {k : MainThread S} (first : Move disk via (none, m) (some edge, n))
    (second : Move disk via (some edge, n) (none, k)) : Moves disk via m k := .tail (.single first) second

theorem findWork_takes (found : m.findWork = some (edge, n)) :
    ∃ rest, Takes S m.plan edge rest ∧ n = m.taken edge rest := by
  obtain ⟨⟨e, rest⟩, given, same⟩ := Option.map_eq_some_iff.mp found
  cases same
  obtain ⟨unreturned, removed, inProgress⟩ := S.plan.findWork_takes _ _ _ given
  exact ⟨rest, ⟨unreturned, removed, inProgress⟩, rfl⟩

theorem findRemoteWork_takes (found : m.findRemoteWork = some (edge, n)) :
    ∃ rest, Takes S m.plan edge rest ∧ n = m.taken edge rest := by
  obtain ⟨⟨e, rest⟩, given, same⟩ := Option.map_eq_some_iff.mp found
  cases same
  obtain ⟨unreturned, removed, inProgress⟩ := S.plan.findRemoteWork_takes _ _ _ given
  exact ⟨rest, ⟨unreturned, removed, inProgress⟩, rfl⟩

theorem findWork_take (found : m.findWork = some (edge, n)) :
    n.executor = m.executor ∧ Move disk via (none, m) (some edge, n) := by
  obtain ⟨rest, takes, rfl⟩ := findWork_takes found
  exact ⟨rfl, .take takes⟩

theorem findLocalWork_take (found : m.findLocalWork = some (edge, n)) :
    n.executor = m.executor ∧ Move disk via (none, m) (some edge, n) := by
  unfold findLocalWork at found
  split at found
  · rename_i taken
    cases found
    exact findWork_take taken
  · split at found
    · cases found
    · rename_i front
      cases found
      exact ⟨rfl, .takeBack front⟩

theorem startEdgeLocally_move (room : m.executor.canRunMore = true) :
    Move disk via (some edge, m) (none, (m.startEdgeLocally disk edge).2) := by
  unfold startEdgeLocally
  split
  · rename_i phony
    exact .finishPhony phony
  · rename_i command
    have command : S.manifest.isPhony edge = false := by simpa using command
    split
    · exact .launch room command
    · rename_i failed
      exact .drop (by simpa using failed)

theorem startEdgeLocally_keeps (disk : Edge → Disk) (m : MainThread S) (edge : Edge) :
    (m.startEdgeLocally disk edge).2.outstandingEdgeList = m.outstandingEdgeList ∧
      (m.startEdgeLocally disk edge).2.pool = m.pool := by
  unfold startEdgeLocally
  split
  · exact ⟨rfl, rfl⟩
  · split <;> exact ⟨rfl, rfl⟩

theorem startEdges_moves {next : MainThread S → Option (Edge × MainThread S)}
    (takes : ∀ {m edge n}, next m = some (edge, n) →
      n.executor = m.executor ∧ Move disk via (none, m) (some edge, n))
    (fuel : Nat) (m : MainThread S) : Moves disk via m (m.startEdges next disk fuel).2 := by
  induction fuel generalizing m with
  | zero => exact .refl m
  | succ fuel ih =>
    unfold startEdges
    split
    · rename_i room
      split
      · exact .refl m
      · rename_i edge n found
        obtain ⟨executor, taken⟩ := takes found
        have started : Move disk via (some edge, n) (none, (n.startEdgeLocally disk edge).2) :=
          startEdgeLocally_move (executor ▸ room)
        split
        · rename_i k local_
          rw [local_] at started
          exact (taken.thenMove started).trans (ih k)
        · rename_i k local_
          rw [local_] at started
          exact taken.thenMove started
    · exact .refl m

theorem buildLoop_moves (m : MainThread S) : Moves disk via m (m.buildLoop disk) := by
  unfold buildLoop
  split
  · have moves : Moves disk via m (m.startEdges findLocalWork disk m.edgesLeft).2 :=
      startEdges_moves findLocalWork_take m.edgesLeft m
    split
    · rename_i n started
      rw [started] at moves
      split
      · exact moves
      · exact moves.trans Move.buildFinished.moves
    · rename_i n started
      rw [started] at moves
      exact moves
  · exact Move.buildFinished.moves

theorem startEdgesRemotely_moves {connectionId : Int} (allowed : via connectionId) (count : Nat)
    (m : MainThread S) : Moves disk via m (m.startEdgesRemotely connectionId count) := by
  induction count generalizing m with
  | zero => exact .refl m
  | succ count ih =>
    unfold startEdgesRemotely
    split
    · exact .refl m
    · rename_i edge n found
      obtain ⟨left, takes, rfl⟩ := findWork_takes found
      exact (Move.send takes allowed).moves.trans (ih _)

theorem startEdgesOnSlaves_moves {slaves : List (Int × SlaveInfo)}
    (allowed : ∀ slave ∈ slaves, via slave.1) (m : MainThread S) :
    Moves disk via m (m.startEdgesOnSlaves slaves) := by
  induction slaves generalizing m with
  | nil => exact .refl m
  | cons slave rest ih =>
    obtain ⟨connectionId, info⟩ := slave
    have first : via connectionId := allowed (connectionId, info) (by simp)
    have others : ∀ slave ∈ rest, via slave.1 := fun slave member => allowed slave (by simp [member])
    exact (startEdgesRemotely_moves first _ m).trans (ih others _)

theorem requestEdge_moves {connectionId : Int} (allowed : via connectionId) (m : MainThread S) :
    Moves disk via m (m.requestEdge connectionId).2 := by
  unfold requestEdge
  split
  · split
    · exact Move.wait.moves
    · rename_i edge n found
      obtain ⟨left, takes, rfl⟩ := findRemoteWork_takes found
      exact (Move.send takes allowed).moves
  · exact .refl m

theorem pendingRequests_set {connectionId other : Int} (different : other ≠ connectionId) (count : Nat)
    (m : MainThread S) :
    (m.setPendingRequests connectionId count).pendingRequests other = m.pendingRequests other := by
  simp [setPendingRequests, pendingRequests, different]

theorem pendingRequests_requestEdge {connectionId other : Int} (different : other ≠ connectionId)
    (m : MainThread S) :
    (m.requestEdge connectionId).2.pendingRequests other = m.pendingRequests other := by
  unfold requestEdge
  split
  · split
    · exact pendingRequests_set different _ m
    · rename_i edge n found
      obtain ⟨rest, _, rfl⟩ := findRemoteWork_takes found
      unfold sendRemotely startEdgeRemotelly
      dsimp only
      split <;> rfl
  · rfl

theorem servePending_moves {requests : List Int} (distinct : requests.Nodup) (m : MainThread S)
    (allowed : ∀ id ∈ requests, 0 < m.pendingRequests id → via id) :
    Moves disk via m (m.servePending requests) := by
  induction requests generalizing m with
  | nil => exact .refl m
  | cons connectionId rest ih =>
    obtain ⟨absent, distinct⟩ := List.nodup_cons.mp distinct
    have different : ∀ id ∈ rest, id ≠ connectionId := fun id member same => absent (same ▸ member)
    unfold servePending
    split
    · rename_i waiting
      have asked : Moves disk via m (m.requestEdge connectionId).2 :=
        requestEdge_moves (allowed connectionId (by simp) waiting) m
      have others : ∀ id ∈ rest, (m.requestEdge connectionId).2.pendingRequests id = m.pendingRequests id :=
        fun id member => pendingRequests_requestEdge (different id member) m
      split
      · rename_i n answer
        rw [answer] at asked others
        apply (asked.trans Move.wait.moves).trans
        apply ih distinct
        intro id member waits
        rw [pendingRequests_set (different id member), others id member] at waits
        exact allowed id (by simp [member]) waits
      · rename_i n answer
        rw [answer] at asked others
        apply asked.trans
        apply ih distinct
        intro id member waits
        rw [others id member] at waits
        exact allowed id (by simp [member]) waits
    · exact ih distinct m fun id member => allowed id (by simp [member])

theorem core_sendRemotely (m : MainThread S) (edge : Edge) (connectionId : Int) :
    (m.sendRemotely edge connectionId).core = m.core.send edge := by
  unfold sendRemotely startEdgeRemotelly
  dsimp only
  split <;> rfl

theorem moves_works {a b : Option Edge × MainThread S}
    (moves : Relation.ReflTransGen (Move disk via) a b) :
    Works disk (a.1, a.2.core) (b.1, b.2.core) := by
  induction moves with
  | refl => exact .refl
  | tail _ move ih =>
    cases move with
    | @take m edge rest takes => exact ih.tail (.take (c := m.core) takes)
    | @takeBack m edge rest front => exact ih.tail (.takeBack (c := m.core) front)
    | @send m edge rest connectionId takes allowed =>
      rw [core_sendRemotely]
      exact (ih.tail (.take (c := m.core) takes)).tail .send
    | @launch m edge room command => exact ih.tail (.launch (c := m.core) room command)
    | @finishPhony m edge phony => exact ih.tail (.finishPhony (c := m.core) phony)
    | drop failed => exact ih.tail (.drop failed)
    | wait => exact ih
    | @buildFinished m => exact ih.tail (.buildFinished (c := m.core))

theorem Moves.works (moves : Moves disk via m n) : Works disk (none, m.core) (none, n.core) :=
  moves_works moves

structure Frame (via : Int → Prop) (m n : MainThread S) : Prop where
  slaves : n.slaveInfoIdMap = m.slaveInfoIdMap
  pool : n.pool = m.pool
  isBuilding : n.isBuilding = m.isBuilding
  hasBuilder : n.hasBuilder = m.hasBuilder
  commandRunner : n.commandRunner = m.commandRunner
  queue : ∃ count, n.queue = m.queue ++ List.replicate count .quit
  outstanding : ∀ id edge, n.outstandingEdges id = some edge →
    m.outstandingEdges id = some edge ∨ hashEdge S edge = id
  posts : ∃ new, n.rpcPosts = m.rpcPosts ++ new ∧
    ∀ request ∈ new, via request.connectionId ∧ m.slaveInfoIdMap.contains request.connectionId = true

theorem Frame.refl (m : MainThread S) : Frame via m m :=
  ⟨rfl, rfl, rfl, rfl, rfl, ⟨0, by simp⟩, fun _ _ found => .inl found, ⟨[], by simp, nofun⟩⟩

theorem Frame.of_eq (same : n = { m with
    plan := n.plan, executor := n.executor, outstandingEdgeList := n.outstandingEdgeList
    commandEdgeMap := n.commandEdgeMap, pendingEdgeRequest := n.pendingEdgeRequest, log := n.log }) :
    Frame via m n := by
  rw [same]
  exact ⟨rfl, rfl, rfl, rfl, rfl, ⟨0, by simp⟩, fun _ _ found => .inl found, ⟨[], by simp, nofun⟩⟩

theorem Frame.trans {k : MainThread S} (first : Frame via m n) (second : Frame via n k) :
    Frame via m k := by
  refine ⟨second.slaves.trans first.slaves, second.pool.trans first.pool,
    second.isBuilding.trans first.isBuilding, second.hasBuilder.trans first.hasBuilder,
    second.commandRunner.trans first.commandRunner, ?_, ?_, ?_⟩
  · obtain ⟨i, before⟩ := first.queue
    obtain ⟨j, after⟩ := second.queue
    refine ⟨i + j, ?_⟩
    rw [after, before, List.append_assoc, List.replicate_append_replicate]
  · intro id edge found
    rcases second.outstanding id edge found with found | same
    · exact first.outstanding id edge found
    · exact .inr same
  · obtain ⟨new, before, allowed⟩ := first.posts
    obtain ⟨newer, after, allowedToo⟩ := second.posts
    refine ⟨new ++ newer, by rw [after, before, List.append_assoc], ?_⟩
    intro request member
    rcases List.mem_append.mp member with member | member
    · exact allowed request member
    · rw [← first.slaves]
      exact allowedToo request member

theorem frame_sendRemotely {connectionId : Int} (allowed : via connectionId) (m : MainThread S)
    (edge : Edge) : Frame via m (m.sendRemotely edge connectionId) := by
  unfold sendRemotely startEdgeRemotelly
  dsimp only
  split
  · rename_i known
    refine ⟨rfl, rfl, rfl, rfl, rfl, ⟨0, by simp⟩, ?_, ⟨_, rfl, ?_⟩⟩
    · intro id other found
      by_cases at_ : id = hashEdge S edge
      · rw [at_] at found
        have same : edge = other := by simpa using found
        exact .inr (same ▸ at_.symm)
      · exact .inl (by simpa [at_] using found)
    · intro request member
      rw [List.mem_singleton.mp member]
      exact ⟨allowed, known⟩
  · exact .of_eq rfl

theorem frame_buildFinished (m : MainThread S) : Frame via m m.buildFinished :=
  ⟨rfl, rfl, rfl, rfl, rfl, ⟨1, rfl⟩, fun _ _ found => .inl found, ⟨[], by simp [buildFinished], nofun⟩⟩

theorem moves_frame {a b : Option Edge × MainThread S}
    (moves : Relation.ReflTransGen (Move disk via) a b) : Frame via a.2 b.2 := by
  induction moves with
  | refl => exact .refl _
  | tail _ move ih =>
    apply ih.trans
    cases move with
    | send takes allowed => exact (Frame.of_eq rfl).trans (frame_sendRemotely allowed _ _)
    | buildFinished => exact frame_buildFinished _
    | take | takeBack | launch | finishPhony | drop | wait =>
      exact .of_eq rfl

theorem Moves.frame (moves : Moves disk via m n) : Frame via m n := moves_frame moves

end MainThread

inductive Finish (disk : Disk) (c : Core S) (result : Result Edge) : Core S → Prop where
  | failed (failure : result.status ≠ .success) :
      Finish disk c result { c with buildFinishedCalls := c.buildFinishedCalls + 1 }
  | rejected {err : String} (success : result.status = .success)
      (deps : MainThread.extractDeps S disk result.edge = some (.error err)) :
      Finish disk c result
        { c with outstandingEdgeList := c.outstandingEdgeList.erase result.edge }
  | completed {plan : S.plan.State} (success : result.status = .success)
      (unreturned : S.plan.unreturned plan ⊆ S.plan.unreturned c.plan)
      (inProgress : S.plan.inProgress plan = S.plan.inProgress c.plan) :
      Finish disk c result (Core.finish { c with
        outstandingEdgeList := c.outstandingEdgeList.erase result.edge
        plan := plan } result.edge)

namespace MainThread

variable {m n : MainThread S}

theorem cleaned_plan (disk : Disk) (paths : List String) (plan : S.plan.State) :
    let cleaned := paths.foldl (fun plan path =>
      if S.manifest.mtime path = disk.stat path then S.plan.cleanNode plan path else plan) plan
    S.plan.unreturned cleaned ⊆ S.plan.unreturned plan ∧
      S.plan.inProgress cleaned = S.plan.inProgress plan := by
  induction paths generalizing plan with
  | nil => exact ⟨Finset.Subset.refl _, rfl⟩
  | cons path rest ih =>
    rw [List.foldl_cons]
    split
    · obtain ⟨unreturned, inProgress⟩ := ih (S.plan.cleanNode plan path)
      exact ⟨unreturned.trans (S.plan.unreturned_cleanNode plan path),
        inProgress.trans (S.plan.inProgress_cleanNode plan path)⟩
    · exact ih plan

theorem cleanOutputs_eq (disk : Disk) (m : MainThread S) (edge : Edge) :
    ∃ plan, cleanOutputs disk m edge = { m with plan := plan } ∧
      S.plan.unreturned plan ⊆ S.plan.unreturned m.plan ∧ S.plan.inProgress plan = S.plan.inProgress m.plan := by
  unfold cleanOutputs
  split
  · exact ⟨_, rfl, cleaned_plan disk (S.manifest.outputs edge) m.plan⟩
  · exact ⟨m.plan, rfl, Finset.Subset.refl _, rfl⟩

theorem finishCommand_cases {disk : Disk} {result : Result Edge} {ok : Bool}
    (finished : finishCommand disk m result = some (ok, n)) :
    (result.status ≠ .success ∧ n = m.buildFinished) ∨
    (result.status = .success ∧ (∃ err, extractDeps S disk result.edge = some (.error err)) ∧
      n = { m with outstandingEdgeList := m.outstandingEdgeList.erase result.edge }) ∨
    (result.status = .success ∧ ∃ plan, S.plan.unreturned plan ⊆ S.plan.unreturned m.plan ∧
      S.plan.inProgress plan = S.plan.inProgress m.plan ∧
      n = edgeFinished { m with
        outstandingEdgeList := m.outstandingEdgeList.erase result.edge
        plan := plan } result.edge) := by
  unfold finishCommand at finished
  split at finished
  · rename_i success
    right
    dsimp only at finished
    split at finished
    · cases finished
    · rename_i err extracted
      cases finished
      split at extracted
      · exact .inl ⟨success, ⟨err, extracted⟩, rfl⟩
      · cases extracted
    · cases finished
      obtain ⟨plan, cleaned, unreturned, inProgress⟩ := cleanOutputs_eq disk
        { m with outstandingEdgeList := m.outstandingEdgeList.erase result.edge } result.edge
      rw [cleaned]
      exact .inr ⟨success, plan, unreturned, inProgress, rfl⟩
  · rename_i failure
    cases finished
    exact .inl ⟨failure, rfl⟩

theorem finishCommand_finish (via : Int → Prop) {disk : Disk} {result : Result Edge} {ok : Bool}
    (finished : finishCommand disk m result = some (ok, n)) :
    Finish disk m.core result n.core ∧ Frame via m n := by
  rcases finishCommand_cases finished with
    ⟨failure, rfl⟩ | ⟨success, ⟨err, extracted⟩, rfl⟩ | ⟨success, plan, unreturned, inProgress, rfl⟩
  · exact ⟨.failed failure, frame_buildFinished m⟩
  · exact ⟨.rejected success extracted, .of_eq rfl⟩
  · exact ⟨.completed (c := m.core) success unreturned inProgress, .of_eq rfl⟩

theorem addTargets_inProgress {scan : String → Except String Bool} {targets : List String}
    {plan result : S.plan.State} (added : addTargets scan targets plan = some result) :
    S.plan.inProgress result = S.plan.inProgress plan := by
  induction targets generalizing plan with
  | nil =>
    cases added
    rfl
  | cons path rest ih =>
    unfold addTargets at added
    split at added
    · split at added
      · exact ih added
      · cases added
    · exact ih added
    · have same := S.plan.inProgress_addTarget plan path
      split at added
      rename_i ok err next target
      rw [target] at same
      split at added
      · exact (ih added).trans same
      · cases added

theorem initialalBuild_moves {disk : Edge → Disk} (m : MainThread S) :
    Moves disk (fun id => m.slaveInfoIdMap.contains id = true) m (m.initialalBuild disk) := by
  have moves : Moves disk (fun id => m.slaveInfoIdMap.contains id = true) m
      (m.startEdges findWork disk m.edgesLeft).2 := startEdges_moves findWork_take m.edgesLeft m
  unfold initialalBuild
  dsimp only
  split
  · apply moves.trans
    apply startEdgesOnSlaves_moves
    intro slave member
    have listed : slave.1 ∈ m.slaveInfoIdMap.keys :=
      List.mem_map.mpr ⟨slave, moves.frame.slaves ▸ member, rfl⟩
    exact OrderedMap.contains_iff.mpr (OrderedMap.mem_keys.mp listed)
  · exact moves.trans Move.buildFinished.moves

def begun (m : MainThread S) (plan : S.plan.State) (runner : Bool) : MainThread S :=
  { m with isBuilding := true, hasBuilder := true, commandRunner := runner, plan := plan }

theorem startBuild_moves {env : Environment Edge} (idle : m.isBuilding = false)
    (started : m.startBuild env = some n) :
    ∃ plan runner, (plan = m.plan ∨ S.plan.inProgress plan = ∅) ∧
      Moves env.disk (fun id => m.slaveInfoIdMap.contains id = true) (m.begun plan runner) n := by
  unfold startBuild at started
  rw [if_neg (by simp [idle])] at started
  obtain ⟨targets, _, rfl⟩ := Option.map_eq_some_iff.mp started
  dsimp only
  split
  · exact ⟨m.plan, m.commandRunner, .inl rfl, .refl _⟩
  · rename_i plan added
    have fresh := (addTargets_inProgress added).trans S.plan.inProgress_empty
    split
    · exact ⟨plan, true, .inr fresh, initialalBuild_moves (m.begun plan true)⟩
    · exact ⟨plan, m.commandRunner, .inr fresh, Move.buildFinished.moves⟩

def fetchPosted (m : MainThread S) (connectionId : Int) (edgeId : UInt32) (fetch : Fetch Edge)
    (info : SlaveInfo) : MainThread S :=
  { m with
    outstandingEdges := Function.update m.outstandingEdges edgeId none
    slaveInfoIdMap := m.slaveInfoIdMap.insert connectionId info
    pool := m.pool ++ [fetch] }

theorem onRemoteCommandDone_cases {id : Int} {edgeId : UInt32} {status : ExitStatus} {output : String}
    {md5s : List String} (done : m.onRemoteCommandDone id edgeId status output md5s = some n) :
    m.hasBuilder = true ∧ (n = (m.requestEdge id).2 ∨ ∃ fetch info, status = .success ∧
      (m.requestEdge id).2.outstandingEdges edgeId = some fetch.result.edge ∧ fetch.answer = edgeId ∧
      (∀ target ∈ fetch.targets, target.1 ∈ S.manifest.outputs fetch.result.edge) ∧
      n = (m.requestEdge id).2.fetchPosted id edgeId fetch info) := by
  unfold onRemoteCommandDone at done
  split at done
  · cases done
  · rename_i defined
    have builder : m.hasBuilder = true := by
      cases has : m.hasBuilder with
      | true => rfl
      | false => simp [has] at defined
    refine ⟨builder, ?_⟩
    dsimp only at done
    split at done
    · rename_i success
      obtain ⟨edge, outstanding, done⟩ := Option.bind_eq_some_iff.mp done
      split at done
      · cases done
      · cases done
        refine .inr ⟨_, _, success, outstanding, rfl, ?_, rfl⟩
        intro target member
        exact (List.of_mem_zip member).1
    · cases done
      exact .inl rfl

theorem afterFinish_moves (disk : Edge → Disk) (m : MainThread S) :
    Moves disk (fun id => 0 < m.pendingRequests id) m
      ((m.servePending m.pendingEdgeRequest.keys).buildLoop disk) :=
  (servePending_moves m.pendingEdgeRequest.keys_nodup m fun _ _ waits => waits).trans (buildLoop_moves _)

theorem asked_moves (disk : Edge → Disk) (m : MainThread S) (connectionId : Int) :
    Moves disk (fun id => id = connectionId) m (m.requestEdge connectionId).2 :=
  requestEdge_moves (by rfl) m

/-- The slaves MAIN knows after a task: those it knew, but for the one that is closed, and the one that has
    told its system information. -/
def Remembers (before : OrderedMap Int SlaveInfo) (task : MainTask Edge) (after : OrderedMap Int SlaveInfo) :
    Prop :=
  ∀ id, after.contains id = true → (before.contains id = true ∧ task ≠ .slave (.onSlaveClose id)) ∨
    ∃ info, task = .slave (.onSlaveSystemInfoAvailable id info)

/-- Everything one step of MAIN or of the blocking pool can do. -/
inductive Effect (m : MainThread S) : MainEvent Edge → MainThread S → Prop where
  | posted {event : MainEvent Edge} {task : MainTask Edge}
      (outside : (event = .startPosted ∧ task = .startBuild) ∨
        ∃ notice, event = .noticePosted notice ∧ task = .slave notice) :
      Effect m event { m with queue := m.queue ++ [task] }
  | noted {env : Environment Edge} {task : MainTask Edge} {rest : List (MainTask Edge)}
      (slaves : OrderedMap Int SlaveInfo) (quit : Bool) (head : m.queue = task :: rest)
      (known : Remembers m.slaveInfoIdMap task slaves) :
      Effect m (.taskRun env) { m with queue := rest, slaveInfoIdMap := slaves, quit := quit }
  | rejected {env : Environment Edge} {id : Int} {info : SlaveInfo} {rest : List (MainTask Edge)}
      (head : m.queue = .slave (.onSlaveSystemInfoAvailable id info) :: rest) :
      Effect m (.taskRun env)
        { m with queue := rest, rpcPosts := m.rpcPosts ++ [.quitSlave id (rejectReason S)] }
  | began {env : Environment Edge} {task : MainTask Edge} {rest : List (MainTask Edge)}
      {n : MainThread S} (slaves : OrderedMap Int SlaveInfo) (head : m.queue = task :: rest)
      (known : Remembers m.slaveInfoIdMap task slaves)
      (idle : m.isBuilding = false)
      (started : startBuild env { m with queue := rest, slaveInfoIdMap := slaves } = some n) :
      Effect m (.taskRun env) n
  | remoteDone {env : Environment Edge} {id : Int} {edgeId : UInt32} {status : ExitStatus}
      {output : String} {md5s : List String} {rest : List (MainTask Edge)} {n : MainThread S}
      (head : m.queue = .slave (.onRemoteCommandDone id edgeId status output md5s) :: rest)
      (done : onRemoteCommandDone { m with queue := rest } id edgeId status output md5s = some n) :
      Effect m (.taskRun env) n
  | fetchDone {env : Environment Edge} {result : Result Edge} {answer : UInt32}
      {rest : List (MainTask Edge)} {ok : Bool} {n : MainThread S}
      (head : m.queue = .onFetchTargetsDone result answer :: rest)
      (listed : result.edge ∈ m.outstandingEdgeList)
      (finished : finishCommand (env.disk result.edge) { m with queue := rest } result = some (ok, n)) :
      Effect m (.taskRun env) n
  | ran {env : Environment Edge} {command : String} {cause : Edge} {rest : List (MainTask Edge)}
      (head : m.queue = .runCommand command cause :: rest) :
      Effect m (.taskRun env) { m with queue := rest, executor := m.executor.runCommand command cause }
  | exited {pid : Nat} {status : ExitStatus} {output : String} {env : Environment Edge}
      {p : Subprocess Edge} {edge : Edge} {ok : Bool} {n : MainThread S}
      (found : m.executor.find? pid = some p) (mapped : m.commandEdgeMap p.command = some edge)
      (finished : finishCommand (env.disk edge) m ⟨edge, status, output⟩ = some (ok, n)) :
      Effect m (.exited pid status output env)
        (((n.servePending n.pendingEdgeRequest.keys).buildLoop env.disk).subprocessRemoved pid)
  | fetched {job : Nat} {action : FetchAction} {f : Fetch Edge} {step : FetchStep Edge}
      (at_ : m.pool[job]? = some f) (acted : f.act action = some step) :
      Effect m (.fetched job action) (m.fetchStepped job f step.next)

theorem slaveInfo_effect {env : Environment Edge} {id : Int} {info : SlaveInfo}
    {rest : List (MainTask Edge)} (head : m.queue = .slave (.onSlaveSystemInfoAvailable id info) :: rest)
    (handled : onSlaveSystemInfoAvailable env { m with queue := rest } id info = some n) :
    Effect m (.taskRun env) n := by
  have known : Remembers m.slaveInfoIdMap (.slave (.onSlaveSystemInfoAvailable id info) : MainTask Edge)
      (m.slaveInfoIdMap.insert id info) := by
    intro other contained
    by_cases same : other = id
    · exact .inr ⟨info, by rw [same]⟩
    · exact .inl ⟨by simpa [OrderedMap.contains, same] using contained, nofun⟩
  unfold onSlaveSystemInfoAvailable at handled
  split at handled
  · cases handled
    exact .noted _ m.quit head fun _ contained => .inl ⟨contained, nofun⟩
  · split at handled
    · cases handled
      exact .rejected head
    · dsimp only at handled
      split at handled
      · by_cases building : m.isBuilding = true
        · rw [startBuild, if_pos building] at handled
          cases handled
          exact .noted _ m.quit head known
        · exact .began _ head known (by simpa using building) handled
      · cases handled
        exact .noted _ m.quit head known

theorem runTask_effect {env : Environment Edge} {task : MainTask Edge} {rest : List (MainTask Edge)}
    (head : m.queue = task :: rest) (ran : runTask env { m with queue := rest } task = some n) :
    Effect m (.taskRun env) n := by
  have same : (∀ id, task ≠ .slave (.onSlaveClose id)) →
      Remembers m.slaveInfoIdMap task m.slaveInfoIdMap :=
    fun other id contained => .inl ⟨contained, other id⟩
  cases task with
  | startBuild =>
    by_cases building : m.isBuilding = true
    · change startBuild env _ = some n at ran
      rw [startBuild, if_pos building] at ran
      cases ran
      exact .noted _ m.quit head (same nofun)
    · exact .began m.slaveInfoIdMap head (same nofun) (by simpa using building) ran
  | slave notice =>
    cases notice with
    | onSlaveSystemInfoAvailable id info => exact slaveInfo_effect head ran
    | onRemoteCommandDone id edgeId status output md5s => exact .remoteDone head ran
    | onSlaveStatusUpdate id status =>
      cases ran
      unfold onSlaveStatusUpdate
      split
      · exact .noted _ m.quit head (same nofun)
      · rename_i info found
        apply Effect.noted _ m.quit head
        intro other contained
        by_cases at_ : other = id
        · exact .inl ⟨OrderedMap.contains_iff.mpr ⟨info, at_ ▸ found⟩, nofun⟩
        · exact .inl ⟨by simpa [OrderedMap.contains, at_] using contained, nofun⟩
    | onSlaveClose id =>
      cases ran
      apply Effect.noted _ m.quit head
      intro other contained
      by_cases at_ : other = id
      · simp [OrderedMap.contains, at_] at contained
      · refine .inl ⟨by simpa [OrderedMap.contains, at_] using contained, ?_⟩
        intro same
        cases same
        exact at_ rfl
  | onFetchTargetsDone result answer =>
    change onFetchTargetsDone env _ result = some n at ran
    unfold onFetchTargetsDone at ran
    split at ran
    · cases ran
      exact .noted _ m.quit head (same nofun)
    · rename_i waited
      have listed : result.edge ∈ m.outstandingEdgeList := by
        simpa [hasRemoteCommandRunLocally] using waited
      obtain ⟨⟨ok, k⟩, finished, rfl⟩ := Option.map_eq_some_iff.mp ran
      exact .fetchDone head listed finished
  | runCommand command cause =>
    cases ran
    exact .ran head
  | quit =>
    cases ran
    exact .noted _ true head (same nofun)

theorem step_effect {event : MainEvent Edge} (stepped : m.step event = some n) : Effect m event n := by
  cases event with
  | noticePosted notice =>
    cases stepped
    exact .posted (.inr ⟨notice, rfl, rfl⟩)
  | startPosted =>
    cases stepped
    exact .posted (.inl ⟨rfl, rfl⟩)
  | taskRun env =>
    simp only [step] at stepped
    split at stepped
    · rename_i task rest head
      exact runTask_effect head stepped
    · cases stepped
  | exited pid status output env =>
    obtain ⟨p, found, stepped⟩ := Option.bind_eq_some_iff.mp stepped
    obtain ⟨k, handled, rfl⟩ := Option.map_eq_some_iff.mp stepped
    obtain ⟨edge, mapped, handled⟩ := Option.bind_eq_some_iff.mp handled
    obtain ⟨⟨ok, finishedState⟩, finished, rfl⟩ := Option.map_eq_some_iff.mp handled
    exact .exited found mapped finished
  | fetched job action =>
    obtain ⟨f, at_, stepped⟩ := Option.bind_eq_some_iff.mp stepped
    obtain ⟨step, acted, rfl⟩ := Option.map_eq_some_iff.mp stepped
    exact .fetched at_ acted

end MainThread

end DistributedNinja.Master
