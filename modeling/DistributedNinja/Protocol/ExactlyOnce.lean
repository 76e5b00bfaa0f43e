import DistributedNinja.Protocol.Cluster
import DistributedNinja.Slave.Answers

namespace DistributedNinja.Protocol

open Lib Rpc Proto Master Slave

variable {Edge SlaveEdge : Type} [DecidableEq Edge] [DecidableEq SlaveEdge]

namespace SlaveLink

variable {T : Slave.Setting SlaveEdge} {l k : SlaveLink T} {event : LinkEvent SlaveEdge} {request : RunCommandRequest}
  {demand : T.plan.Demand}

/-- The connection holds, the response is accepted for sending, and the slave runs what it takes. -/
def delivers (l : SlaveLink T) : LinkEvent SlaveEdge → Bool
  | .slaveStarted | .requestReceived _ => true
  | .slave event => l.slave.all fun s => s.answersAll event
  | .responseSent accepted => accepted
  | .disconnected => false

def Holds (request : RunCommandRequest) (l : SlaveLink T) : Prop :=
  request ∈ l.requests ∨ (∃ s done, l.slave = some s ∧ SlaveMainRunner.Held request done s) ∨
    request ∈ l.responses.map RunCommandContext.request

def Working (demand : T.plan.Demand) (l : SlaveLink T) : Prop :=
  ∀ s, l.slave = some s → SlaveMainRunner.Answerable demand none none s ∧ s.Exhausted

structure AtRest (l : SlaveLink T) : Prop where
  requests : l.requests = []
  slave : ∀ s, l.slave = some s → s.AtRest ∧ s.rpcPosts = []
  responses : l.responses = []

theorem Holds.none_at_rest (holds : l.Holds request) (working : l.Working demand) (rest : l.AtRest) : False := by
  rcases holds with waits | ⟨s, done, here, held⟩ | answered
  · rw [rest.requests] at waits
    cases waits
  · obtain ⟨idle, posts⟩ := rest.slave s here
    obtain ⟨answerable, exhausted⟩ := working s here
    rcases held with queued | ⟨hash, context, waits, _⟩ | ⟨context, member, _⟩
    · rw [idle.queue] at queued
      cases queued
    · rw [answerable.none_waits exhausted idle hash] at waits
      cases waits
    · rw [idle.pool, posts] at member
      cases member
  · rw [rest.responses] at answered
    cases answered

section Steps

variable {s t : SlaveMainRunner T}

theorem delivers_slave {event : SlaveEvent SlaveEdge} (delivers : l.delivers (.slave event) = true)
    (here : l.slave = some s) : s.answersAll event = true := by
  rw [SlaveLink.delivers, here] at delivers
  exact delivers

theorem slave_moved {event : SlaveEvent SlaveEdge} (stepped : l.step (.slave event) = some k) :
    ∃ s t, l.slave = some s ∧ s.step event = some t ∧ k = { l with slave := some t } := by
  have taken : (l.slave.bind fun s => (s.step event).map fun s => { l with slave := some s }) = some k := by
    cases event with
    | requestPosted => cases stepped
    | taskRun | exited | digested => exact stepped
  obtain ⟨s, here, taken⟩ := Option.bind_eq_some_iff.mp taken
  obtain ⟨t, moved, rfl⟩ := Option.map_eq_some_iff.mp taken
  exact ⟨s, t, here, moved, rfl⟩

theorem request_received {done : Nat} (stepped : l.step (.requestReceived done) = some k) :
    ∃ request rest s t, l.requests = request :: rest ∧ l.slave = some s ∧
      s.step (.requestPosted request done) = some t ∧ k = { l with requests := rest, slave := some t } := by
  simp only [SlaveLink.step] at stepped
  split at stepped
  · rename_i request rest s waiting here
    obtain ⟨t, posted, rfl⟩ := Option.map_eq_some_iff.mp stepped
    exact ⟨request, rest, s, t, waiting, here, posted, rfl⟩
  · cases stepped

theorem slave_started (stepped : l.step .slaveStarted = some k) :
    ∃ s, l.slave = none ∧ SlaveMainRunner.postCreateThreads T = some s ∧ k = { l with slave := some s } := by
  simp only [SlaveLink.step] at stepped
  split at stepped
  · rename_i absent
    obtain ⟨s, created, rfl⟩ := Option.map_eq_some_iff.mp stepped
    exact ⟨s, absent, created, rfl⟩
  · cases stepped

theorem response_sent {accepted : Bool} (stepped : l.step (.responseSent accepted) = some k) :
    ∃ s context rest, l.slave = some s ∧ s.rpcPosts = context :: rest ∧
      k = { l with
        slave := some { s with rpcPosts := rest }
        responses := l.responses ++ if accepted then [context] else [] } := by
  obtain ⟨s, here, stepped⟩ := Option.bind_eq_some_iff.mp stepped
  split at stepped
  · cases stepped
  · rename_i context rest posted
    cases stepped
    exact ⟨s, context, rest, here, posted, rfl⟩

theorem answersAll_posted (s : SlaveMainRunner T) (request : RunCommandRequest) (done : Nat) :
    s.answersAll (.requestPosted request done) = true := rfl

end Steps

theorem Working.step (working : l.Working demand) (delivers : l.delivers event = true)
    (stepped : l.step event = some k) : k.Working demand := by
  cases event with
  | slaveStarted =>
    obtain ⟨s, _, created, rfl⟩ := slave_started stepped
    intro t same
    cases same
    refine ⟨SlaveMainRunner.postCreateThreads_answerable created, ?_⟩
    obtain ⟨map, _, rfl⟩ := Option.map_eq_some_iff.mp created
    exact .inr fun _ => rfl
  | requestReceived done =>
    obtain ⟨request, rest, s, t, _, here, posted, rfl⟩ := request_received stepped
    intro u same
    cases same
    obtain ⟨answerable, exhausted⟩ := working s here
    exact ⟨answerable.step (answersAll_posted s request done) posted, exhausted.step posted⟩
  | slave event =>
    obtain ⟨s, t, here, moved, rfl⟩ := slave_moved stepped
    intro u same
    cases same
    obtain ⟨answerable, exhausted⟩ := working s here
    exact ⟨answerable.step (delivers_slave delivers here) moved, exhausted.step moved⟩
  | responseSent accepted =>
    obtain ⟨s, context, rest, here, _, rfl⟩ := response_sent stepped
    intro u same
    cases same
    obtain ⟨answerable, exhausted⟩ := working s here
    exact ⟨answerable.congr ⟨answerable.numbered, answerable.old⟩ rfl rfl rfl (.refl _), exhausted.congr rfl rfl⟩
  | disconnected => cases delivers

theorem Holds.step (holds : l.Holds request) (delivers : l.delivers event = true)
    (stepped : l.step event = some k) : k.Holds request := by
  cases event with
  | slaveStarted =>
    obtain ⟨s, absent, _, rfl⟩ := slave_started stepped
    rcases holds with waits | ⟨t, done, here, _⟩ | answered
    · exact .inl waits
    · rw [absent] at here
      cases here
    · exact .inr (.inr answered)
  | requestReceived done =>
    obtain ⟨other, rest, s, t, waiting, here, posted, rfl⟩ := request_received stepped
    rcases holds with waits | ⟨u, closure, same, held⟩ | answered
    · rw [waiting] at waits
      rcases List.mem_cons.mp waits with rfl | later
      · cases posted
        exact .inr (.inl ⟨_, done, rfl, .inl (List.mem_append_right _ List.mem_cons_self)⟩)
      · exact .inl later
    · cases here.symm.trans same
      exact .inr (.inl ⟨t, closure, rfl, held.step (answersAll_posted s other done) posted⟩)
    · exact .inr (.inr answered)
  | slave event =>
    obtain ⟨s, t, here, moved, rfl⟩ := slave_moved stepped
    rcases holds with waits | ⟨u, closure, same, held⟩ | answered
    · exact .inl waits
    · cases here.symm.trans same
      exact .inr (.inl ⟨t, closure, rfl, held.step (delivers_slave delivers here) moved⟩)
    · exact .inr (.inr answered)
  | responseSent accepted =>
    cases delivers
    obtain ⟨s, context, rest, here, posted, rfl⟩ := response_sent stepped
    rcases holds with waits | ⟨u, closure, same, held⟩ | answered
    · exact .inl waits
    · cases here.symm.trans same
      rcases held with queued | waits | ⟨other, member, carries⟩
      · exact .inr (.inl ⟨_, closure, rfl, .inl queued⟩)
      · exact .inr (.inl ⟨_, closure, rfl, .inr (.inl waits)⟩)
      · rw [posted] at member
        rcases List.mem_append.mp member with pooled | sent
        · exact .inr (.inl ⟨_, closure, rfl, .inr (.inr ⟨other, List.mem_append_left _ pooled, carries⟩)⟩)
        · rcases List.mem_cons.mp sent with rfl | later
          · refine .inr (.inr ?_)
            rw [List.map_append]
            exact List.mem_append_right _ (carries.1 ▸ List.mem_cons_self)
          · exact .inr (.inl ⟨_, closure, rfl, .inr (.inr ⟨other, List.mem_append_right _ later, carries⟩)⟩)
    · refine .inr (.inr ?_)
      rw [List.map_append]
      exact List.mem_append_left _ answered
  | disconnected => cases delivers

end SlaveLink

namespace Cluster

variable {S : Master.Setting Edge} {T : Int → Slave.Setting SlaveEdge} {c d : Cluster S T}
  {event : ClusterEvent Edge SlaveEdge} {demand : (id : Int) → (T id).plan.Demand}

/-- No message is refused or lost in the step, and a slave answers what it takes as `answersAll` asks. -/
def delivers (c : Cluster S T) : ClusterEvent Edge SlaveEdge → Bool
  | .main _ | .responseReceived _ => true
  | .requestSent accepted => accepted
  | .link id event => (c.links id).delivers event

def sent (c : Cluster S T) : List (Int × RunCommandRequest) :=
  (c.main.rpcPosts.take c.taken).filterMap runCommandRequest

def answeredRequests (c : Cluster S T) : List (Int × RunCommandRequest) :=
  c.delivered.map fun entry => (entry.1, entry.2.request)

/-- Every request that was sent is still with its link, or MAIN was given the response. -/
structure Keeps (demand : (id : Int) → (T id).plan.Demand) (c : Cluster S T) : Prop where
  working : ∀ id, (c.links id).Working (demand id)
  kept : ∀ id request, (id, request) ∈ c.sent → (c.links id).Holds request ∨ (id, request) ∈ c.answeredRequests

theorem new_keeps : (new S T).Keeps demand := ⟨fun _ => nofun, nofun⟩

theorem sent_taken {post : RpcRequest} (next : c.main.rpcPosts[c.taken]? = some post) :
    (c.main.rpcPosts.take (c.taken + 1)).filterMap runCommandRequest =
      c.sent ++ (runCommandRequest post).toList := by
  rw [sent, List.take_add_one, next, List.filterMap_append]
  rfl

theorem Keeps.update (keeps : c.Keeps demand) {main : MainThread S} {taken : Nat} {id : Int} {l : SlaveLink (T id)}
    {new : List (Int × RunCommandContext)} (working : l.Working (demand id))
    (kept : ∀ request, (c.links id).Holds request →
      l.Holds request ∨ (id, request) ∈ new.map fun entry => (entry.1, entry.2.request))
    (sent : ∀ other request, (other, request) ∈ (main.rpcPosts.take taken).filterMap runCommandRequest →
      (other, request) ∈ c.sent ∨ other = id ∧ l.Holds request) :
    Keeps demand ⟨main, taken, Function.update c.links id l, c.delivered ++ new⟩ := by
  have given : answeredRequests ⟨main, taken, Function.update c.links id l, c.delivered ++ new⟩ =
      c.answeredRequests ++ new.map fun entry => (entry.1, entry.2.request) := List.map_append
  constructor
  · apply (Function.forall_update_iff c.links fun other l => l.Working (demand other)).mpr
    exact ⟨working, fun other _ => keeps.working other⟩
  · intro other request member
    rw [given]
    show (Function.update c.links id l other).Holds request ∨ _
    by_cases same : other = id
    · subst same
      rw [Function.update_self]
      rcases sent other request member with old | ⟨_, holds⟩
      · rcases keeps.kept other request old with holds | answered
        · exact (kept request holds).imp_right (List.mem_append_right _)
        · exact .inr (List.mem_append_left _ answered)
      · exact .inl holds
    · rw [Function.update_of_ne same]
      have old := (sent other request member).resolve_right fun now => same now.1
      exact (keeps.kept other request old).imp_right (List.mem_append_left _)

theorem Keeps.step (keeps : c.Keeps demand) (inside : c.taken ≤ c.main.rpcPosts.length)
    (delivers : c.delivers event = true) (stepped : c.step event = some d) : d.Keeps demand := by
  cases event with
  | main event =>
    simp only [Cluster.step, Option.ite_none_right_eq_some] at stepped
    obtain ⟨main, moved, rfl⟩ := Option.map_eq_some_iff.mp stepped.2
    have same := (asked_main moved inside).1
    refine ⟨keeps.working, ?_⟩
    intro id request member
    rw [sent, same] at member
    exact keeps.kept id request member
  | requestSent accepted =>
    cases delivers
    obtain ⟨post, next, rfl⟩ := Option.map_eq_some_iff.mp stepped
    have grown := sent_taken next
    dsimp only
    split
    · rename_i id request made
      rw [made] at grown
      rw [← List.append_nil c.delivered]
      refine keeps.update (fun s here => keeps.working id s here) ?_ ?_
      · rintro other (waits | later)
        · exact .inl (.inl (List.mem_append_left _ waits))
        · exact .inl (.inr later)
      · intro other asked member
        rw [grown] at member
        rcases List.mem_append.mp member with old | now
        · exact .inl old
        · obtain ⟨rfl, rfl⟩ := Prod.mk.inj (List.mem_singleton.mp now)
          exact .inr ⟨rfl, .inl (List.mem_append_right _ List.mem_cons_self)⟩
    · rename_i nothing
      rw [nothing, Option.toList_none, List.append_nil] at grown
      refine ⟨keeps.working, ?_⟩
      intro id request member
      rw [sent, grown] at member
      exact keeps.kept id request member
  | link id event =>
    obtain ⟨l, moved, rfl⟩ := Option.map_eq_some_iff.mp stepped
    have next : Keeps demand ⟨c.main, c.taken, Function.update c.links id l, c.delivered ++ []⟩ :=
      keeps.update ((keeps.working id).step delivers moved) (fun request holds => .inl (holds.step delivers moved))
        fun other request member => .inl member
    rwa [List.append_nil] at next
  | responseReceived id =>
    simp only [Cluster.step] at stepped
    split at stepped
    · cases stepped
    · rename_i context rest first
      obtain ⟨main, moved, rfl⟩ := Option.map_eq_some_iff.mp stepped
      have same := (asked_main moved inside).1
      refine keeps.update (fun s here => keeps.working id s here) ?_ ?_
      · rintro request (waits | here | answered)
        · exact .inl (.inl waits)
        · exact .inl (.inr (.inl here))
        · rw [first] at answered
          rcases List.mem_cons.mp answered with rfl | later
          · exact .inr List.mem_cons_self
          · exact .inl (.inr (.inr later))
      · intro other request member
        rw [same] at member
        exact .inl member

structure AtRest (c : Cluster S T) : Prop where
  taken : c.taken = c.main.rpcPosts.length
  links : ∀ post ∈ c.main.rpcPosts, (c.links post.connectionId).AtRest

theorem requested_iff (posts : List RpcRequest) (id : Int) (request : RunCommandRequest) :
    (id, request) ∈ posts.filterMap runCommandRequest ↔ ∃ post ∈ posts, requestFor id post = some request := by
  rw [List.mem_filterMap]
  constructor
  · rintro ⟨post, member, made⟩
    exact ⟨post, member, by simp [requestFor, made]⟩
  · rintro ⟨post, member, made⟩
    exact ⟨post, member, (requestFor_some made).1⟩

theorem requested_nodup {settled : UInt32 → Prop} (dispatched : c.main.Dispatched settled) :
    (c.main.rpcPosts.filterMap runCommandRequest).Nodup := by
  apply List.Nodup.of_map fun entry : Int × RunCommandRequest => entry.2.edgeId
  have ids : (c.main.rpcPosts.filterMap runCommandRequest).map (fun entry => entry.2.edgeId) =
      c.main.rpcPosts.filterMap RpcRequest.edgeId? := by
    rw [List.map_filterMap]
    apply List.filterMap_congr
    intro post _
    cases post <;> rfl
  rw [ids]
  exact dispatched.distinct

theorem Consistent.answered_nodup (consistent : c.Consistent) {settled : UInt32 → Prop}
    (dispatched : c.main.Dispatched settled) : c.answeredRequests.Nodup := by
  classical
  rw [List.nodup_iff_count_le_one]
  rintro ⟨id, request⟩
  have once := consistent.answered_once dispatched id request.edgeId
  refine Nat.le_trans ?_ once
  rw [answeredRequests, List.count_eq_countP, List.countP_map, answered]
  apply List.countP_mono_left
  intro entry _ same
  have shape : (entry.1, entry.2.request) = (id, request) := by simpa using same
  obtain ⟨rfl, rfl⟩ := Prod.mk.inj shape
  simp

theorem Keeps.answered_at_rest (keeps : c.Keeps demand) (rest : c.AtRest) {id : Int} {request : RunCommandRequest}
    (requested : (id, request) ∈ c.main.rpcPosts.filterMap runCommandRequest) :
    (id, request) ∈ c.answeredRequests := by
  have everything : c.sent = c.main.rpcPosts.filterMap runCommandRequest := by
    rw [sent, rest.taken, List.take_length]
  obtain ⟨post, posted, made⟩ := (requested_iff _ id request).mp requested
  obtain ⟨_, _, rfl⟩ := requestFor_some made
  rcases keeps.kept _ request (everything ▸ requested) with holds | answered
  · exact (holds.none_at_rest (keeps.working _) (rest.links post posted)).elim
  · exact answered

/-- No two edges have the same value of `HashEdge`, and the plans of the slaves promise what `Demand` says. Every step
    delivers: a message is accepted for sending and its connection holds, a slave launches each edge that it takes
    while no other command of that hash is under way, and a request finds its hash free and its edge ready, or dirty
    and such that its outputs can be added. Then, once the links are at rest, MAIN was given the response to each
    request it has sent, from the slave it was sent to, exactly once, and nothing else. -/
theorem requests_answered_once (hashes : DistinctHashes S) (demand : (id : Int) → (T id).plan.Demand)
    {events : List (ClusterEvent Edge SlaveEdge)} (replay : run step (new S T) events = some c)
    (delivers : Along step (fun c event => c.delivers event = true) (new S T) events) (rest : c.AtRest) :
    (c.delivered.map fun entry => (entry.1, entry.2.request)).Perm
      (c.main.rpcPosts.filterMap runCommandRequest) := by
  have preserved : ∀ (c : Cluster S T) event d, c.Consistent ∧ c.Keeps demand → c.delivers event = true →
      c.step event = some d → d.Consistent ∧ d.Keeps demand := by
    rintro c event d ⟨consistent, keeps⟩ delivers stepped
    exact ⟨consistent.step hashes stepped, keeps.step consistent.sent delivers stepped⟩
  have start : (new S T).Consistent ∧ (new S T).Keeps demand := ⟨new_consistent, new_keeps⟩
  obtain ⟨consistent, keeps⟩ := run_invariant_along preserved start delivers replay
  obtain ⟨handled, waiting, _, _, dispatched⟩ := consistent.handled
  apply (List.perm_ext_iff_of_nodup (consistent.answered_nodup dispatched) (requested_nodup dispatched)).mpr
  rintro ⟨id, request⟩
  constructor
  · intro answered
    obtain ⟨entry, member, same⟩ := List.mem_map.mp answered
    obtain ⟨rfl, rfl⟩ := Prod.mk.inj same
    exact (requested_iff _ _ _).mpr (consistent.sent_of_delivered member)
  · exact keeps.answered_at_rest rest

section Objects

open Master.MainThread

def objectsDemand : objectsSlave.plan.Demand :=
  Ninja.graphDemand objectsManifest _ _ _ fun path edge produced => by
    split
    · rename_i same
      rw [← same, produced]
      exact List.mem_cons_self
    · exact List.mem_finRange edge

theorem requests_answered_once_objects :
    ∃ c : Cluster objects fun _ => objectsSlave,
      run step (new objects fun _ => objectsSlave) objectOnSlave = some c ∧ c.delivered.length = 1 ∧ c.AtRest ∧
      (c.delivered.map fun entry => (entry.1, entry.2.request)).Perm
        (c.main.rpcPosts.filterMap runCommandRequest) := by
  have delivers : Along step (fun c event => c.delivers event = true) (new objects fun _ => objectsSlave)
      objectOnSlave := by
    decide +kernel
  have rested : (run step (new objects fun _ => objectsSlave) objectOnSlave).map (fun c =>
      (c.delivered.length, decide (c.taken = c.main.rpcPosts.length), c.main.rpcPosts.all fun post =>
        let l := c.links post.connectionId
        l.requests.isEmpty && l.responses.isEmpty && l.slave.all fun s => s.queue.isEmpty &&
          s.executor.subprocssToCommand.isEmpty && s.executor.pendingCommandQueue.isEmpty && s.pool.isEmpty &&
          s.rpcPosts.isEmpty)) = some (1, true, true) := by
    decide +kernel
  obtain ⟨c, replay, shape⟩ := Option.map_eq_some_iff.mp rested
  obtain ⟨length, shape⟩ := Prod.mk.inj shape
  obtain ⟨taken, empty⟩ := Prod.mk.inj shape
  have rest : c.AtRest := by
    refine ⟨of_decide_eq_true taken, ?_⟩
    intro post member
    have here := List.all_eq_true.mp empty post member
    simp only [Bool.and_eq_true, List.isEmpty_iff] at here
    obtain ⟨⟨requests, responses⟩, slave⟩ := here
    refine ⟨requests, ?_, responses⟩
    intro s at_
    rw [at_] at slave
    simp only [Option.all_some, Bool.and_eq_true, List.isEmpty_iff] at slave
    obtain ⟨⟨⟨⟨queue, subprocesses⟩, pending⟩, pool⟩, posts⟩ := slave
    exact ⟨⟨queue, subprocesses, pending, pool⟩, posts⟩
  exact ⟨c, replay, length, rest,
    requests_answered_once objects_distinctHashes (fun _ => objectsDemand) replay delivers rest⟩

end Objects

end Cluster

end DistributedNinja.Protocol
