import DistributedNinja.Protocol.RemoteSlave

namespace DistributedNinja.Protocol

open Lib Rpc Proto Master Slave

variable {Edge SlaveEdge : Type} [DecidableEq Edge] [DecidableEq SlaveEdge]

/-- MAIN of the master and the slaves behind their connections. `taken` says how many of the posts of MAIN the RPC
    thread has run. -/
structure RpcCluster (S : Master.Setting Edge) (T : Int → Slave.Setting SlaveEdge) where
  main : MainThread S
  taken : Nat
  slaves : (id : Int) → RemoteSlave (T id)

/-- `main` is a step of MAIN, `posted` the next of its posts to the RPC thread, `connection` another step of the RPC
    thread on a connection, and `slave` a step on the side of a slave. -/
inductive RpcClusterEvent (Edge SlaveEdge : Type) where
  | main (event : MainEvent Edge)
  | posted (answers : List Int)
  | connection (id : Int) (event : EndEvent)
  | slave (id : Int) (event : RemoteEvent SlaveEdge)

namespace RpcCluster

variable {S : Master.Setting Edge} {T : Int → Slave.Setting SlaveEdge}

def new (S : Master.Setting Edge) (T : Int → Slave.Setting SlaveEdge) (codec : SlaveCodec) (addresses : Int → String)
    (masterAddress : String) : RpcCluster S T :=
  ⟨.new S, 0, fun id => .new (T id) codec id (addresses id) masterAddress⟩

variable (pb : Protobuf) (codec : SlaveCodec)

/-- One step of one of the parties. `OnRemoteCommandDone` posts to MAIN what it finds in its response object; the
    notices that are not answers to `RunCommand` come as they like. -/
def step (c : RpcCluster S T) : RpcClusterEvent Edge SlaveEdge → Option (RpcCluster S T)
  | .main event =>
    if event.brings.isEmpty then (c.main.step event).map fun main => { c with main := main } else none
  | .posted answers =>
    (c.main.rpcPosts[c.taken]?).bind fun post =>
      ((c.slaves post.connectionId).runRequest pb codec answers post).map fun l =>
        { c with taken := c.taken + 1, slaves := Function.update c.slaves post.connectionId l }
  | .connection id event =>
    ((c.slaves id).masterStep pb codec event).bind fun l =>
      match (c.slaves id).commandDone pb event with
      | none => some { c with slaves := Function.update c.slaves id l }
      | some response =>
        (c.main.step (.noticePosted (remoteCommandDone id (codec.runCommandResponse response)))).map fun main =>
          { c with main := main, slaves := Function.update c.slaves id l }
  | .slave id event =>
    ((c.slaves id).slaveStep pb codec event).map fun l => { c with slaves := Function.update c.slaves id l }

variable {pb : Protobuf} {codec : SlaveCodec} {c n : RpcCluster S T} {d : Cluster S T}
  {event : RpcClusterEvent Edge SlaveEdge}

def calls (c : RpcCluster S T) (id : Int) : Nat := (c.slaves id).pair.near.endpoint.calls

/-- No connection has used up its 32-bit ids. -/
def FewCalls (c : RpcCluster S T) : Prop := ∀ id, c.calls id ≤ 2 ^ 32

structure Shows (pb : Protobuf) (codec : SlaveCodec) (c : RpcCluster S T) (d : Cluster S T) : Prop where
  main : d.main = c.main
  taken : d.taken = c.taken
  sound : ∀ id, (c.slaves id).Sound pb codec
  links : ∀ id, (c.slaves id).Shows codec (d.links id)

theorem new_shows (pb : Protobuf) (codec : SlaveCodec) (addresses : Int → String) (masterAddress : String) :
    (new S T codec addresses masterAddress).Shows pb codec (.new S T) :=
  ⟨rfl, rfl, fun id => RemoteSlave.new_sound pb codec id _ _, fun id => RemoteSlave.new_shows codec id _ _⟩

theorem Shows.update (shows_ : c.Shows pb codec d) {id : Int} {l : RemoteSlave (T id)} {k : SlaveLink (T id)}
    (sound : l.Sound pb codec) (later : l.Shows codec k) (main : MainThread S) (taken : Nat)
    (delivered : List (Int × RunCommandContext)) :
    Shows pb codec ⟨main, taken, Function.update c.slaves id l⟩
      ⟨main, taken, Function.update d.links id k, delivered⟩ := by
  refine ⟨rfl, rfl, ?_, ?_⟩
  · apply (Function.forall_update_iff c.slaves fun _ l => l.Sound pb codec).mpr
    exact ⟨sound, fun other _ => shows_.sound other⟩
  · apply (Function.forall_update_iff c.slaves fun other l => l.Shows codec (Function.update d.links id k other)).mpr
    constructor
    · rw [Function.update_self]
      exact later
    · intro other apart
      rw [Function.update_of_ne apart]
      exact shows_.links other

theorem FewCalls.updated {main : MainThread S} {taken : Nat} {id : Int} {l : RemoteSlave (T id)}
    (few : FewCalls ⟨main, taken, Function.update c.slaves id l⟩) : l.pair.near.endpoint.calls ≤ 2 ^ 32 := by
  have here := few id
  rwa [calls, show (RpcCluster.slaves ⟨main, taken, Function.update c.slaves id l⟩ id) = l from
    Function.update_self ..] at here

theorem Shows.step (shows_ : c.Shows pb codec d) (few : n.FewCalls) (stepped : c.step pb codec event = some n) :
    ∃ e, n.Shows pb codec e ∧ (e = d ∨ ∃ f, d.step f = some e) := by
  cases event with
  | main event =>
    simp only [RpcCluster.step, Option.ite_none_right_eq_some] at stepped
    obtain ⟨silent, stepped⟩ := stepped
    obtain ⟨main, moved, rfl⟩ := Option.map_eq_some_iff.mp stepped
    refine ⟨{ d with main := main }, ⟨rfl, shows_.taken, shows_.sound, shows_.links⟩, .inr ⟨.main event, ?_⟩⟩
    rw [Cluster.step, if_pos silent, shows_.main, moved]
    rfl
  | posted answers =>
    obtain ⟨post, next, stepped⟩ := Option.bind_eq_some_iff.mp stepped
    obtain ⟨l, ran, rfl⟩ := Option.map_eq_some_iff.mp stepped
    obtain ⟨sound, accepted, later⟩ := RemoteSlave.runRequest_shows (shows_.sound _) (shows_.links _) ran few.updated
    refine ⟨_, shows_.update sound later c.main (c.taken + 1) d.delivered, .inr ⟨.requestSent accepted, ?_⟩⟩
    rw [Cluster.step, shows_.main, shows_.taken, next, Option.map_some]
    cases post with
    | startCommandRemotely => rfl
    | quitSlave id reason =>
      -- The call of `Quit` puts nothing on the way.
      have nothing : (d.links id).requests ++ (if accepted then [] else []) = (d.links id).requests := by
        rw [ite_self, List.append_nil]
      show some (Cluster.mk c.main (c.taken + 1) d.links d.delivered) = some (Cluster.mk c.main (c.taken + 1)
        (Function.update d.links id { d.links id with
          requests := (d.links id).requests ++ if accepted then [] else [] }) d.delivered)
      rw [nothing, Function.update_eq_self]
  | connection id event =>
    obtain ⟨l, moved, stepped⟩ := Option.bind_eq_some_iff.mp stepped
    cases outcome : (c.slaves id).commandDone pb event with
    | none =>
      rw [outcome] at stepped
      cases stepped
      obtain ⟨sound, ⟨_, later⟩ | ⟨response, _, _, done, _⟩⟩ :=
        RemoteSlave.masterStep_shows (shows_.sound id) (shows_.links id) moved few.updated
      · refine ⟨_, shows_.update sound later c.main c.taken d.delivered, .inl ?_⟩
        rw [Function.update_eq_self, ← shows_.main, ← shows_.taken]
      · rw [outcome] at done
        cases done
    | some response =>
      rw [outcome] at stepped
      obtain ⟨main, handled, rfl⟩ := Option.map_eq_some_iff.mp stepped
      obtain ⟨sound, ⟨silent, _⟩ | ⟨same, context, rest, done, first, answer, later⟩⟩ :=
        RemoteSlave.masterStep_shows (shows_.sound id) (shows_.links id) moved few.updated
      · rw [outcome] at silent
        cases silent
      · obtain rfl : response = same := Option.some.inj (outcome.symm.trans done)
        refine ⟨_, shows_.update sound later main c.taken (d.delivered ++ [(id, context)]),
          .inr ⟨.responseReceived id, ?_⟩⟩
        simp only [Cluster.step, first, answer, shows_.main, shows_.taken, handled, Option.map_some]
  | slave id event =>
    obtain ⟨l, moved, rfl⟩ := Option.map_eq_some_iff.mp stepped
    obtain ⟨sound, k, later, follows⟩ := RemoteSlave.slaveStep_shows (shows_.sound id) (shows_.links id) moved
    refine ⟨_, shows_.update sound later c.main c.taken d.delivered, ?_⟩
    rcases follows with rfl | ⟨event, moved⟩
    · left
      rw [Function.update_eq_self, ← shows_.main, ← shows_.taken]
    · refine .inr ⟨.link id event, ?_⟩
      rw [Cluster.step, moved, Option.map_some, shows_.main, shows_.taken]

theorem calls_updated {main : MainThread S} {taken : Nat} {id : Int} {l : RemoteSlave (T id)}
    (counted : (c.slaves id).pair.near.endpoint.calls ≤ l.pair.near.endpoint.calls ∧
      l.pair.near.endpoint.calls ≤ (c.slaves id).pair.near.endpoint.calls + 1) (other : Int) :
    c.calls other ≤ calls ⟨main, taken, Function.update c.slaves id l⟩ other ∧
      calls ⟨main, taken, Function.update c.slaves id l⟩ other ≤ c.calls other + 1 := by
  revert other
  apply (Function.forall_update_iff c.slaves fun other l =>
    c.calls other ≤ l.pair.near.endpoint.calls ∧ l.pair.near.endpoint.calls ≤ c.calls other + 1).mpr
  exact ⟨counted, fun other _ => ⟨Nat.le_refl _, Nat.le_succ _⟩⟩

theorem step_calls (stepped : c.step pb codec event = some n) (id : Int) :
    c.calls id ≤ n.calls id ∧ n.calls id ≤ c.calls id + 1 := by
  cases event with
  | main event =>
    simp only [RpcCluster.step, Option.ite_none_right_eq_some] at stepped
    obtain ⟨main, _, rfl⟩ := Option.map_eq_some_iff.mp stepped.2
    exact ⟨Nat.le_refl _, Nat.le_succ _⟩
  | posted answers =>
    obtain ⟨post, _, stepped⟩ := Option.bind_eq_some_iff.mp stepped
    obtain ⟨l, ran, rfl⟩ := Option.map_eq_some_iff.mp stepped
    exact calls_updated (RemoteSlave.runRequest_calls ran) id
  | connection at_ event =>
    obtain ⟨l, moved, stepped⟩ := Option.bind_eq_some_iff.mp stepped
    have counted := RemoteSlave.masterStep_calls moved
    split at stepped
    · cases stepped
      exact calls_updated counted id
    · obtain ⟨main, _, rfl⟩ := Option.map_eq_some_iff.mp stepped
      exact calls_updated counted id
  | slave at_ event =>
    obtain ⟨l, moved, rfl⟩ := Option.map_eq_some_iff.mp stepped
    have same := RemoteSlave.slaveStep_near moved
    exact calls_updated (by rw [same]; omega) id

theorem FewCalls.before (few : n.FewCalls) (stepped : c.step pb codec event = some n) : c.FewCalls :=
  fun id => Nat.le_trans (step_calls stepped id).1 (few id)

def Counted (past : List (RpcClusterEvent Edge SlaveEdge)) (c : RpcCluster S T) : Prop :=
  ∀ id, c.calls id ≤ past.length

theorem Counted.step {past : List (RpcClusterEvent Edge SlaveEdge)} (counted : c.Counted past)
    (stepped : c.step pb codec event = some n) : n.Counted (past ++ [event]) := by
  intro id
  have before := counted id
  have next := (step_calls stepped id).2
  rw [List.length_append, List.length_singleton]
  omega

variable {addresses : Int → String} {masterAddress : String} {events : List (RpcClusterEvent Edge SlaveEdge)}

theorem fewCalls_of_length (replay : run (step pb codec) (new S T codec addresses masterAddress) events = some c)
    (short : events.length ≤ 2 ^ 32) : c.FewCalls := by
  have start : (new S T codec addresses masterAddress).Counted [] := fun _ => Nat.le_refl 0
  have counted : c.Counted ([] ++ events) :=
    run_history_along (fun _ _ _ _ counted (_ : True) => Counted.step counted) start
      (along_of_forall (fun _ _ _ => trivial) _) replay
  exact fun id => Nat.le_trans (counted id) short

/-- The master and its slaves over the RPC layer behave as the cluster whose links hand over requests and responses:
    whatever the order in which the threads of all parties go on and however the sockets cut the streams, the same
    MAIN and the same slaves are reached by a run of the cluster, and what is on the way there is what one end of the
    connection has sent and the other has not taken. The closure that `OnRunCommandDone` runs is that of a request
    which waits at the connection, and the request is the one the slave was given. -/
theorem refines_cluster (replay : run (step pb codec) (new S T codec addresses masterAddress) events = some c)
    (few : c.FewCalls) :
    (∃ fs d, run Cluster.step (Cluster.new S T) fs = some d ∧ d.main = c.main ∧ d.taken = c.taken ∧
      ∀ id, (c.slaves id).Shows codec (d.links id)) ∧
    ∀ id s, (c.slaves id).slave = some s → ∀ context ∈ s.rpcPosts,
      context.done ∈ (c.slaves id).pair.far.waiting ∧
      ∃ m, (c.slaves id).pair.far.inbox[context.done]? = some m ∧ commandRequest? codec m = some context.request := by
  have start : (new S T codec addresses masterAddress).FewCalls →
      (new S T codec addresses masterAddress).Shows pb codec (Cluster.new S T) :=
    fun _ => new_shows pb codec addresses masterAddress
  have follows : ∀ (c : RpcCluster S T) event n (d : Cluster S T), (c.FewCalls → c.Shows pb codec d) →
      c.step pb codec event = some n →
      ∃ e, (n.FewCalls → n.Shows pb codec e) ∧ (e = d ∨ ∃ f, d.step f = some e) := by
    intro c event n d shows_ stepped
    by_cases few : n.FewCalls
    · obtain ⟨e, later, moved⟩ := (shows_ (few.before stepped)).step few stepped
      exact ⟨e, fun _ => later, moved⟩
    · exact ⟨d, fun same => absurd same few, .inl rfl⟩
  obtain ⟨fs, d, replayed, shows_⟩ := run_follows follows start replay
  have final : c.Shows pb codec d := shows_ few
  refine ⟨⟨fs, d, replayed, final.main, final.taken, final.links⟩, ?_⟩
  intro id s running context member
  exact ((final.sound id).serving.held s running).waits member

section Objects

open Master.MainThread Cluster

/-- A slave joins and is sent the fourth object, whose response comes in two reads. -/
def objectOverRpc : List (RpcClusterEvent (Fin 5) (Fin 5)) :=
  [.slave 0 .started, .connection 0 (.read errIoPending), .slave 0 (.rpc (.read errIoPending)),
    .main (.noticePosted (.onSlaveSystemInfoAvailable 0 linuxSlave)), .main (.taskRun working), .main .startPosted,
    .main (.taskRun working), .posted [60], .slave 0 (.rpc (.readCompleted 60)), .slave 0 (.rpc .pass),
    .slave 0 (.rpc .returned), .slave 0 (.rpc .pass), .slave 0 (.rpc (.read errIoPending)),
    .slave 0 (.main (.taskRun slaveDisk)), .slave 0 (.main (.exited 0 .success "" slaveDisk)),
    .slave 0 (.main (.digested 0 fun path => "md5 of " ++ path)), .slave 0 (.onRunCommandDone [71]),
    .connection 0 (.readCompleted 30), .connection 0 .pass, .connection 0 (.read 41), .connection 0 .pass]

theorem refines_cluster_objects :
    ∃ c : RpcCluster objects fun _ => objectsSlave,
      run (step wireFormat slaveCodec) (new objects (fun _ => objectsSlave) slaveCodec (fun _ => "10.0.0.2") "10.0.0.1")
        objectOverRpc = some c ∧ c.main.responses.length = 1 ∧
      (∃ fs d, run Cluster.step (Cluster.new objects fun _ => objectsSlave) fs = some d ∧ d.main = c.main ∧
        d.taken = c.taken ∧ ∀ id, (c.slaves id).Shows slaveCodec (d.links id)) ∧
      ∀ id s, (c.slaves id).slave = some s → ∀ context ∈ s.rpcPosts,
        context.done ∈ (c.slaves id).pair.far.waiting ∧
        ∃ m, (c.slaves id).pair.far.inbox[context.done]? = some m ∧
          commandRequest? slaveCodec m = some context.request := by
  have answered : (run (step wireFormat slaveCodec)
      (new objects (fun _ => objectsSlave) slaveCodec (fun _ => "10.0.0.2") "10.0.0.1") objectOverRpc).map
        (·.main.responses.length) = some 1 := by
    decide +kernel
  obtain ⟨c, replay, posted⟩ := Option.map_eq_some_iff.mp answered
  exact ⟨c, replay, posted, refines_cluster replay (fewCalls_of_length replay (by decide))⟩

end Objects

end RpcCluster

end DistributedNinja.Protocol
