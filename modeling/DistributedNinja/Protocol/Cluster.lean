import DistributedNinja.Master.Disconnect
import DistributedNinja.Master.Dispatch
import DistributedNinja.Protocol.SlaveLink

namespace DistributedNinja.Protocol

open Lib Rpc Proto Master Slave

variable {Edge SlaveEdge : Type} [DecidableEq Edge] [DecidableEq SlaveEdge]

/-- The request that `MasterRPC::StartCommandRemotely` sends, and its connection. -/
def runCommandRequest : RpcRequest → Option (Int × RunCommandRequest)
  | .startCommandRemotely connectionId paths rspfileName rspfileContent edgeId =>
    some (connectionId,
      ⟨edgeId, paths, if rspfileName.isEmpty then none else some (rspfileName, rspfileContent)⟩)
  | .quitSlave _ _ => none

def remoteCommandDone (connectionId : Int) (response : RunCommandResponse) : SlaveNotice :=
  .onRemoteCommandDone connectionId response.edgeId (Master.transformExitStatus response.status)
    response.output response.md5

theorem runRequest_sends {post : RpcRequest} {id : Int} {request : RunCommandRequest}
    (sent : runCommandRequest post = some (id, request)) (pb : Protobuf) (service : SlaveService)
    (t : RpcThread) (writes : List Int) :
    t.runRequest pb service writes post = (t.connections.find? id).bind fun pointer =>
      t.callStub pb service pointer .runCommand (service.runCommandRequest request)
        (some (.onRemoteCommandDone id)) writes := by
  cases post with
  | startCommandRemotely =>
    cases sent
    rfl
  | quitSlave => cases sent

theorem runDone_posts_remoteCommandDone (service : SlaveService) (t : RpcThread) (id : Int)
    (response : List UInt8) :
    t.runDone service response (.onRemoteCommandDone id) =
      some (t.post (remoteCommandDone id (service.runCommandResponse response))) := rfl

/-- The master, its slaves and what is under way between them. `taken` says how many of the posts of MAIN its
    RPC thread has sent; `delivered` are the responses that MAIN was given, for the proofs only. -/
structure Cluster (S : Master.Setting Edge) (T : Int → Slave.Setting SlaveEdge) where
  main : MainThread S
  taken : Nat
  links : (id : Int) → SlaveLink (T id)
  delivered : List (Int × RunCommandContext)

inductive ClusterEvent (Edge SlaveEdge : Type) where
  | main (event : MainEvent Edge)
  | requestSent (accepted : Bool)
  | link (id : Int) (event : LinkEvent SlaveEdge)
  | responseReceived (id : Int)

namespace Cluster

variable {S : Master.Setting Edge} {T : Int → Slave.Setting SlaveEdge}

def new (S : Master.Setting Edge) (T : Int → Slave.Setting SlaveEdge) : Cluster S T :=
  ⟨.new S, 0, fun id => .new (T id), []⟩

/-- One step of one of the parties. The answers to `RunCommand` come from the slaves only. -/
def step (c : Cluster S T) : ClusterEvent Edge SlaveEdge → Option (Cluster S T)
  | .main event =>
    if event.brings.isEmpty then (c.main.step event).map fun main => { c with main := main } else none
  | .requestSent accepted =>
    (c.main.rpcPosts[c.taken]?).map fun post =>
      match runCommandRequest post with
      | some (id, request) =>
        { c with
          taken := c.taken + 1
          links := Function.update c.links id { c.links id with
            requests := (c.links id).requests ++ if accepted then [request] else [] } }
      | none => { c with taken := c.taken + 1 }
  | .link id event =>
    ((c.links id).step event).map fun l => { c with links := Function.update c.links id l }
  | .responseReceived id =>
    match (c.links id).responses with
    | [] => none
    | context :: rest =>
      (c.main.step (.noticePosted (remoteCommandDone id context.response))).map fun main =>
        { c with
          main := main
          links := Function.update c.links id { c.links id with responses := rest }
          delivered := c.delivered ++ [(id, context)] }

variable {c d : Cluster S T} {event : ClusterEvent Edge SlaveEdge}

def requestFor (id : Int) (post : RpcRequest) : Option RunCommandRequest :=
  (runCommandRequest post).bind fun (target, request) => if target = id then some request else none

def asked (c : Cluster S T) (id : Int) (p : RunCommandRequest → Bool) : Nat :=
  ((c.main.rpcPosts.take c.taken).filterMap (requestFor id)).countP p

def answered (c : Cluster S T) (id : Int) (p : RunCommandRequest → Bool) : Nat :=
  c.delivered.countP fun entry => decide (entry.1 = id) && p entry.2.request

def notice (entry : Int × RunCommandContext) : SlaveNotice := remoteCommandDone entry.1 entry.2.response

def SettledBy (handled : List (Int × RunCommandContext)) (edgeId : UInt32) : Prop :=
  ∃ entry ∈ handled, entry.2.response.status = .kExitSuccess ∧ entry.2.response.edgeId = edgeId

structure Consistent (c : Cluster S T) : Prop where
  sound : c.main.Sound
  sent : c.taken ≤ c.main.rpcPosts.length
  links : ∀ id, (c.links id).Carries (c.answered id) (c.asked id)
  faithful : ∀ entry ∈ c.delivered, SlaveMainRunner.Faithful entry.2
  handled : ∃ handled waiting, c.delivered = handled ++ waiting ∧ c.main.responses = waiting.map notice ∧
    c.main.Dispatched (SettledBy handled)

theorem new_consistent : (new S T).Consistent :=
  ⟨MainThread.new_sound, Nat.le_refl 0, fun _ => SlaveLink.new_carries, nofun,
    [], [], rfl, rfl, MainThread.new_dispatched⟩

theorem notice_success {entry : Int × RunCommandContext} {id : Int} {edgeId : UInt32} {output : String}
    {md5s : List String} (same : notice entry = .onRemoteCommandDone id edgeId .success output md5s) :
    entry.1 = id ∧ entry.2.response.status = .kExitSuccess ∧ entry.2.response.edgeId = edgeId ∧
      entry.2.response.md5 = md5s := by
  simp only [notice, remoteCommandDone, SlaveNotice.onRemoteCommandDone.injEq] at same
  obtain ⟨connection, named, success, _, digests⟩ := same
  refine ⟨connection, ?_, named, digests⟩
  cases status : entry.2.response.status with
  | kExitSuccess => rfl
  | kExitFailure | kExitInterrupted =>
    rw [status] at success
    cases success

theorem Consistent.mainStep (consistent : c.Consistent) (hashes : DistinctHashes S) {event : MainEvent Edge}
    {main : MainThread S} (stepped : c.main.step event = some main)
    (new : List (Int × RunCommandContext)) (brings : event.brings = new.map notice) :
    ∃ handled waiting, c.delivered ++ new = handled ++ waiting ∧ main.responses = waiting.map notice ∧
      main.Dispatched (SettledBy handled) := by
  obtain ⟨handled, waiting, split, queue, dispatched⟩ := consistent.handled
  have next := dispatched.step consistent.sound hashes stepped
  have responses := MainThread.step_responses stepped
  rcases MainThread.responses_taken c.main event with ⟨same, nothing⟩ | ⟨first, shape, settles⟩
  · refine ⟨handled, waiting ++ new, by rw [split, List.append_assoc], ?_, next.settle ?_⟩
    · rw [responses, ← same, queue, brings, List.map_append]
    · rintro edgeId (before | now)
      · exact before
      · exact absurd now (nothing edgeId)
  · cases waiting with
    | nil =>
      rw [queue] at shape
      cases shape
    | cons entry rest =>
      rw [queue, List.map_cons, List.cons.injEq] at shape
      obtain ⟨same, left⟩ := shape
      refine ⟨handled ++ [entry], rest ++ new, ?_, ?_, next.settle ?_⟩
      · rw [split, List.append_assoc, List.append_assoc]
        rfl
      · rw [responses, ← left, brings, List.map_append]
      · rintro edgeId (⟨other, member, success⟩ | now)
        · exact ⟨other, List.mem_append_left _ member, success⟩
        · obtain ⟨id, output, md5s, answer⟩ := settles edgeId now
          obtain ⟨_, success, named, _⟩ := notice_success (same.trans answer)
          exact ⟨entry, List.mem_append_right _ List.mem_cons_self, success, named⟩

theorem asked_taken {post : RpcRequest} (next : c.main.rpcPosts[c.taken]? = some post) (id : Int)
    (p : RunCommandRequest → Bool) :
    ((c.main.rpcPosts.take (c.taken + 1)).filterMap (requestFor id)).countP p =
      c.asked id p + (requestFor id post).toList.countP p := by
  rw [asked, List.take_add_one, next, List.filterMap_append, List.countP_append]
  congr 2

theorem asked_main {event : MainEvent Edge} {main : MainThread S} (stepped : c.main.step event = some main)
    (sent : c.taken ≤ c.main.rpcPosts.length) :
    main.rpcPosts.take c.taken = c.main.rpcPosts.take c.taken ∧ c.taken ≤ main.rpcPosts.length := by
  obtain ⟨new, posts, _⟩ := (MainThread.step_effect stepped).posts
  rw [posts, List.length_append]
  exact ⟨List.take_append_of_le_length sent, by omega⟩

theorem Consistent.main (consistent : c.Consistent) (hashes : DistinctHashes S) {event : MainEvent Edge}
    {main : MainThread S} (stepped : c.main.step event = some main) (silent : event.brings = []) :
    Consistent { c with main := main } := by
  obtain ⟨same, inside⟩ := asked_main stepped consistent.sent
  obtain ⟨handled, waiting, split, queue, dispatched⟩ := consistent.mainStep hashes stepped []
    silent
  rw [List.append_nil] at split
  refine ⟨consistent.sound.step stepped, inside, ?_, consistent.faithful, handled, waiting, split, queue,
    dispatched⟩
  intro id
  have asked : Cluster.asked { c with main := main } id = c.asked id := by
    funext p
    rw [Cluster.asked, Cluster.asked, same]
  rw [asked]
  exact consistent.links id

theorem Consistent.requestSent (consistent : c.Consistent) {post : RpcRequest}
    (next : c.main.rpcPosts[c.taken]? = some post)
    {links : (id : Int) → SlaveLink (T id)}
    (updated : ∀ id, ∃ new, links id = { c.links id with requests := (c.links id).requests ++ new } ∧
      new.Sublist (requestFor id post).toList) :
    Consistent { c with taken := c.taken + 1, links := links } := by
  obtain ⟨inside, _⟩ := List.getElem?_eq_some_iff.mp next
  refine ⟨consistent.sound, inside, ?_, consistent.faithful, consistent.handled⟩
  intro id
  obtain ⟨new, shape, sublist⟩ := updated id
  obtain ⟨bound, here, faithful, counted⟩ := consistent.links id
  show (links id).Carries _ _
  rw [shape]
  refine ⟨bound, here, faithful, ?_⟩
  intro p
  have before := counted p
  have fewer := sublist.countP_le (p := p)
  have after : Cluster.asked { c with taken := c.taken + 1, links := links } id p =
      c.asked id p + (requestFor id post).toList.countP p := asked_taken next id p
  rw [List.countP_append, after]
  show c.answered id p + (c.links id).responses.countP (fun context => p context.request) + bound p + _ ≤ _
  omega

theorem Consistent.link (consistent : c.Consistent) {id : Int} {l : SlaveLink (T id)}
    (carries : l.Carries (c.answered id) (c.asked id)) :
    Consistent { c with links := Function.update c.links id l } := by
  refine ⟨consistent.sound, consistent.sent, ?_, consistent.faithful, consistent.handled⟩
  intro other
  show (Function.update c.links id l other).Carries (c.answered other) (c.asked other)
  by_cases same : other = id
  · subst same
    rw [Function.update_self]
    exact carries
  · rw [Function.update_of_ne same]
    exact consistent.links other

theorem Consistent.responseReceived (consistent : c.Consistent) (hashes : DistinctHashes S) {id : Int}
    {context : RunCommandContext} {rest : List RunCommandContext}
    (first : (c.links id).responses = context :: rest) {main : MainThread S}
    (stepped : c.main.step (.noticePosted (remoteCommandDone id context.response)) = some main) :
    Consistent { c with
      main := main
      links := Function.update c.links id { c.links id with responses := rest }
      delivered := c.delivered ++ [(id, context)] } := by
  obtain ⟨same, inside⟩ := asked_main stepped consistent.sent
  obtain ⟨handled, waiting, split, queue, dispatched⟩ := consistent.mainStep hashes stepped
    [(id, context)] rfl
  refine ⟨consistent.sound.step stepped, inside, ?_, ?_, handled, waiting, split, queue, dispatched⟩
  · intro other
    obtain ⟨bound, here, faithful, counted⟩ := consistent.links other
    show (Function.update c.links id _ other).Carries _ _
    by_cases at_ : other = id
    · subst at_
      rw [Function.update_self]
      refine ⟨bound, here, ?_, ?_⟩
      · intro context member
        exact faithful context (first ▸ List.mem_cons_of_mem _ member)
      · intro p
        have before := counted p
        simp only [answered, asked, same, first, List.countP_append, List.countP_cons, List.countP_nil,
          decide_true, Bool.true_and] at before ⊢
        omega
    · rw [Function.update_of_ne at_]
      refine ⟨bound, here, faithful, ?_⟩
      intro p
      have before := counted p
      have different : id ≠ other := fun reversed => at_ reversed.symm
      simp only [answered, asked, same, List.countP_append, List.countP_cons, List.countP_nil, different,
        decide_false, Bool.false_and] at before ⊢
      exact before
  · intro entry member
    rcases List.mem_append.mp member with member | member
    · exact consistent.faithful entry member
    · rw [List.mem_singleton.mp member]
      obtain ⟨_, _, faithful, _⟩ := consistent.links id
      exact faithful context (first ▸ List.mem_cons_self)

theorem Consistent.step (consistent : c.Consistent) (hashes : DistinctHashes S)
    (stepped : c.step event = some d) : d.Consistent := by
  cases event with
  | main event =>
    simp only [Cluster.step] at stepped
    split at stepped
    · rename_i silent
      obtain ⟨main, moved, rfl⟩ := Option.map_eq_some_iff.mp stepped
      exact consistent.main hashes moved (List.isEmpty_iff.mp silent)
    · cases stepped
  | requestSent accepted =>
    obtain ⟨post, next, rfl⟩ := Option.map_eq_some_iff.mp stepped
    dsimp only
    split
    · rename_i id request made
      apply consistent.requestSent next
      intro other
      by_cases same : other = id
      · subst same
        refine ⟨_, Function.update_self .., ?_⟩
        have sent : requestFor other post = some request := by simp [requestFor, made]
        rw [sent]
        split <;> simp
      · refine ⟨[], ?_, List.nil_sublist _⟩
        rw [Function.update_of_ne same, List.append_nil]
    · rename_i none
      apply consistent.requestSent next
      intro other
      exact ⟨[], by rw [List.append_nil], List.nil_sublist _⟩
  | link id event =>
    obtain ⟨l, moved, rfl⟩ := Option.map_eq_some_iff.mp stepped
    exact consistent.link ((consistent.links id).step moved)
  | responseReceived id =>
    simp only [Cluster.step] at stepped
    split at stepped
    · cases stepped
    · rename_i context rest first
      obtain ⟨main, moved, rfl⟩ := Option.map_eq_some_iff.mp stepped
      exact consistent.responseReceived hashes first moved

theorem requestFor_some {id : Int} {post : RpcRequest} {request : RunCommandRequest}
    (made : requestFor id post = some request) :
    runCommandRequest post = some (id, request) ∧ post.edgeId? = some request.edgeId ∧
      post.connectionId = id := by
  obtain ⟨⟨target, other⟩, sent, made⟩ := Option.bind_eq_some_iff.mp made
  dsimp only at made
  split at made
  · rename_i same
    cases made
    subst same
    cases post with
    | startCommandRemotely =>
      cases sent
      exact ⟨rfl, rfl, rfl⟩
    | quitSlave => cases sent
  · cases made

theorem Consistent.sent_of_delivered (consistent : c.Consistent) {entry : Int × RunCommandContext}
    (member : entry ∈ c.delivered) :
    ∃ post ∈ c.main.rpcPosts, requestFor entry.1 post = some entry.2.request := by
  classical
  obtain ⟨bound, _, _, counted⟩ := consistent.links entry.1
  have one : 0 < c.answered entry.1 fun request => decide (request = entry.2.request) := by
    apply List.countP_pos_iff.mpr
    exact ⟨entry, member, by simp⟩
  have bounded := counted fun request => decide (request = entry.2.request)
  have sent : 0 < c.asked entry.1 fun request => decide (request = entry.2.request) := by omega
  obtain ⟨request, asked, same⟩ := List.countP_pos_iff.mp sent
  obtain ⟨post, inside, made⟩ := List.mem_filterMap.mp asked
  exact ⟨post, List.mem_of_mem_take inside, (of_decide_eq_true same) ▸ made⟩

theorem asked_le_count (posts : List RpcRequest) (id : Int) (edgeId : UInt32) :
    (posts.filterMap (requestFor id)).countP (fun request => decide (request.edgeId = edgeId)) ≤
      (posts.filterMap RpcRequest.edgeId?).count edgeId := by
  induction posts with
  | nil => exact Nat.le_refl 0
  | cons post rest ih =>
    cases made : requestFor id post with
    | none =>
      rw [List.filterMap_cons_none made]
      refine ih.trans (List.Sublist.count_le _ ?_)
      exact (List.sublist_cons_self post rest).filterMap _
    | some request =>
      obtain ⟨_, named, _⟩ := requestFor_some made
      rw [List.filterMap_cons_some made, List.filterMap_cons_some named, List.countP_cons, List.count_cons]
      simp only [decide_eq_true_eq, beq_iff_eq]
      omega

theorem Consistent.answered_once (consistent : c.Consistent) {settled : UInt32 → Prop}
    (dispatched : c.main.Dispatched settled) (id : Int) (edgeId : UInt32) :
    c.answered id (fun request => decide (request.edgeId = edgeId)) ≤ 1 := by
  obtain ⟨bound, _, _, counted⟩ := consistent.links id
  have bounded := counted fun request => decide (request.edgeId = edgeId)
  have listed := asked_le_count (c.main.rpcPosts.take c.taken) id edgeId
  have fewer : ((c.main.rpcPosts.take c.taken).filterMap RpcRequest.edgeId?).count edgeId ≤
      (c.main.rpcPosts.filterMap RpcRequest.edgeId?).count edgeId :=
    ((List.take_sublist _ _).filterMap _).count_le edgeId
  have once := List.nodup_iff_count_le_one.mp dispatched.distinct edgeId
  have asked : c.asked id (fun request => decide (request.edgeId = edgeId)) ≤ 1 := by
    unfold Cluster.asked
    omega
  omega

theorem post_unique {posts : List RpcRequest} (distinct : (posts.filterMap RpcRequest.edgeId?).Nodup)
    {first second : RpcRequest} (member : first ∈ posts) (other : second ∈ posts) {edgeId : UInt32}
    (named : first.edgeId? = some edgeId) (same : second.edgeId? = some edgeId) : first = second := by
  have apart := List.pairwise_filterMap.mp distinct
  have forward : posts.Pairwise fun a b => a.edgeId? = some edgeId → b.edgeId? = some edgeId → a = b :=
    apart.imp fun unlike left right => absurd rfl (unlike edgeId left edgeId right)
  have backward : posts.Pairwise fun a b => b.edgeId? = some edgeId → a.edgeId? = some edgeId → b = a :=
    apart.imp fun unlike left right => absurd rfl (unlike edgeId right edgeId left)
  exact forward.forall_of_forall_of_flip (fun _ _ _ _ => rfl) backward member other named same

theorem Consistent.unsettled (consistent : c.Consistent) {handled waiting : List (Int × RunCommandContext)}
    {entry : Int × RunCommandContext} (split : c.delivered = handled ++ entry :: waiting)
    (dispatched : c.main.Dispatched (SettledBy handled)) :
    ¬ SettledBy handled entry.2.request.edgeId := by
  rintro ⟨earlier, member, success, same⟩
  have before : earlier ∈ c.delivered := split ▸ List.mem_append_left _ member
  have now : entry ∈ c.delivered := split ▸ List.mem_append_right _ List.mem_cons_self
  have ids : earlier.2.request.edgeId = entry.2.request.edgeId :=
    ((consistent.faithful earlier before) success).1.symm.trans same
  obtain ⟨post, posted, made⟩ := consistent.sent_of_delivered now
  obtain ⟨old, oldPosted, oldMade⟩ := consistent.sent_of_delivered before
  obtain ⟨_, postNamed, here⟩ := requestFor_some made
  obtain ⟨_, oldNamed, there⟩ := requestFor_some oldMade
  have one : old = post := post_unique dispatched.distinct oldPosted posted (ids ▸ oldNamed) postNamed
  have connection : earlier.1 = entry.1 := by rw [← here, ← there, one]
  have once := consistent.answered_once dispatched entry.1 entry.2.request.edgeId
  have first : 0 < handled.countP fun other => decide (other.1 = entry.1) &&
      decide (other.2.request.edgeId = entry.2.request.edgeId) := by
    apply List.countP_pos_iff.mpr
    exact ⟨earlier, member, by simp [connection, ids]⟩
  rw [answered, split, List.countP_append, List.countP_cons] at once
  simp only [decide_true, Bool.and_self, ↓reduceIte] at once
  omega

/-- Whenever MAIN handles a successful response, its id is outstanding, the edge found is the one that was
    sent in the request which the slave answered, and the digests are those of its outputs, in order. -/
theorem successful_response_matches_dispatch (hashes : DistinctHashes S)
    {events : List (ClusterEvent Edge SlaveEdge)} (replay : run step (new S T) events = some c) {id : Int}
    {edgeId : UInt32} {output : String} {md5s : List String} {rest : List (MainTask Edge)}
    (head : c.main.queue = .slave (.onRemoteCommandDone id edgeId .success output md5s) :: rest) :
    ∃ edge context md5,
      (MainThread.requestEdge { c.main with queue := rest } id).2.outstandingEdges edgeId = some edge ∧
      dispatchOf S edge id ∈ c.main.rpcPosts ∧ (id, context) ∈ c.delivered ∧
      runCommandRequest (dispatchOf S edge id) = some (id, context.request) ∧
      remoteCommandDone id context.response = .onRemoteCommandDone id edgeId .success output md5s ∧
      md5s = (S.manifest.outputs edge).map md5 := by
  have consistent : c.Consistent := run_invariant
    (fun _ _ _ consistent stepped => consistent.step hashes stepped) new_consistent replay
  obtain ⟨handled, waiting, split, queue, dispatched⟩ := consistent.handled
  rw [MainThread.responses, head] at queue
  cases waiting with
  | nil => cases queue
  | cons entry later =>
    have first : SlaveNotice.onRemoteCommandDone id edgeId .success output md5s = notice entry :=
      (List.cons.inj queue).1
    obtain ⟨source, context⟩ := entry
    obtain ⟨connection, success, named, digests⟩ := notice_success first.symm
    dsimp only at connection success named digests
    subst connection
    have member : (source, context) ∈ c.delivered := split ▸ List.mem_append_right _ List.mem_cons_self
    obtain ⟨own, md5, digested⟩ := consistent.faithful _ member success
    obtain ⟨post, posted, made⟩ := consistent.sent_of_delivered member
    obtain ⟨sent, postNamed, here⟩ := requestFor_some made
    obtain ⟨edge, shape, found, kept⟩ := dispatched.sent post posted _ postNamed
    have outstanding := kept.resolve_right (consistent.unsettled split dispatched)
    rw [here] at shape
    subst shape
    have request := congrArg Prod.snd (Option.some.inj sent)
    have hash : MainThread.hashEdge S edge = edgeId :=
      (congrArg RunCommandRequest.edgeId request).trans (own.symm.trans named)
    have paths : S.manifest.outputs edge = context.request.outputPaths :=
      congrArg RunCommandRequest.outputPaths request
    refine ⟨edge, context, md5, ?_, posted, member, ?_, first.symm, ?_⟩
    · have kept : c.main.outstandingEdges (MainThread.hashEdge S edge) = some edge := by
        rw [hash, ← named, own]
        exact outstanding
      rw [← hash]
      exact MainThread.outstanding_requestEdge (m := { c.main with queue := rest }) hashes
        consistent.sound.base found kept source
    · exact sent
    · rw [paths, ← digested, digests]

section Objects

open Master.MainThread

theorem objectsManifest_ordered (edge : Fin 5) : ∀ other ∈ objectsManifest.prerequisites edge, other < edge := by
  revert edge
  decide +kernel

def objectsSlave : Slave.Setting (Fin 5) where
  manifest := objectsManifest
  plan := Ninja.graphReadyPlan objectsManifest objectsManifest_ordered
    (fun path => if path = "3.o" then (objectsManifest.inEdge "3.o").toList else List.finRange 5)
    fun path => by split <;> decide +kernel
  hash := Ninja.sumHash
  processors := 1
  edges := List.finRange 5

def slaveDisk : Fin 5 → Slave.Disk := fun _ => ⟨fun _ => true, fun _ _ => true⟩

/-- A slave joins, the build starts, and the fourth object is built on the slave. -/
def objectOnSlave : List (ClusterEvent (Fin 5) (Fin 5)) :=
  [.link 0 .slaveStarted, .main (.noticePosted (.onSlaveSystemInfoAvailable 0 linuxSlave)),
    .main (.taskRun working), .main .startPosted, .main (.taskRun working), .requestSent true,
    .link 0 (.requestReceived 0), .link 0 (.slave (.taskRun slaveDisk)),
    .link 0 (.slave (.exited 0 .success "" slaveDisk)),
    .link 0 (.slave (.digested 0 fun path => "md5 of " ++ path)), .link 0 (.responseSent true),
    .responseReceived 0]

def nextSuccess (c : Cluster S T) : Option (Int × UInt32 × String × List String) :=
  match c.main.queue with
  | .slave (.onRemoteCommandDone id edgeId .success output md5s) :: _ => some (id, edgeId, output, md5s)
  | _ => none

theorem successful_response_matches_dispatch_objects :
    ∃ (c : Cluster objects fun _ => objectsSlave) (rest : List (MainTask (Fin 5))),
      run step (new objects fun _ => objectsSlave) objectOnSlave = some c ∧
      c.main.queue = .slave (.onRemoteCommandDone 0 (hashEdge objects 3) .success "" ["md5 of 3.o"]) :: rest ∧
      ∃ edge context md5,
        (requestEdge { c.main with queue := rest } 0).2.outstandingEdges (hashEdge objects 3) = some edge ∧
        dispatchOf objects edge 0 ∈ c.main.rpcPosts ∧ (0, context) ∈ c.delivered ∧
        runCommandRequest (dispatchOf objects edge 0) = some (0, context.request) ∧
        remoteCommandDone 0 context.response =
          .onRemoteCommandDone 0 (hashEdge objects 3) .success "" ["md5 of 3.o"] ∧
        ["md5 of 3.o"] = (objects.manifest.outputs edge).map md5 := by
  have next : (run step (new objects fun _ => objectsSlave) objectOnSlave).map nextSuccess =
      some (some (0, hashEdge objects 3, "", ["md5 of 3.o"])) := by
    decide +kernel
  obtain ⟨c, replay, first⟩ := Option.map_eq_some_iff.mp next
  unfold nextSuccess at first
  split at first
  · rename_i id edgeId output md5s rest head
    cases first
    exact ⟨c, rest, replay, head, successful_response_matches_dispatch objects_distinctHashes replay head⟩
  · cases first

end Objects

end Cluster

end DistributedNinja.Protocol
