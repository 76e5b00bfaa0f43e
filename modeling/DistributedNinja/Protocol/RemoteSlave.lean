import DistributedNinja.Proto.SlaveCodec
import DistributedNinja.Protocol.Cluster
import DistributedNinja.Rpc.PendingCalls

namespace DistributedNinja.Protocol

open Lib Rpc Proto Master Slave

variable {SlaveEdge : Type} [DecidableEq SlaveEdge]

section Messages

variable (codec : SlaveCodec)

def isRunCommand (m : RpcMessage) : Bool :=
  decide (m.service = codec.fullName) && decide (m.method = codec.methodName .runCommand)

def commandRequest? (m : RpcMessage) : Option RunCommandRequest :=
  if m.type = .request ∧ isRunCommand codec m = true then some (codec.parseRequest (m.request.getD [])) else none

def commandResponse? (m : RpcMessage) : Option RunCommandResponse :=
  if m.type = .response ∧ isRunCommand codec m = true then
    some (codec.runCommandResponse (m.response.getD []))
  else none

def methods : List (List UInt8) :=
  [codec.methodName .systemInfo, codec.methodName .runCommand, codec.methodName .getStatus, codec.methodName .quit]

/-- The requests of `RunCommand` whose closures have not run, each with the place that stands for its closure. -/
def outstanding (x : End) : List Ticket :=
  x.waiting.filterMap fun place => (x.inbox[place]?.bind (commandRequest? codec)).map fun request => (request, place)

end Messages

/-- A slave behind a connection: `near` is the end of the master and `far` that of the slave. `commands` are the calls
    on it whose closure is `OnRemoteCommandDone`. -/
structure RemoteSlave (T : Slave.Setting SlaveEdge) where
  pair : Pair
  commands : List Nat
  slave : Option (SlaveMainRunner T)

/-- What happens on the side of the slave: `PostCreateThreads`, a step of its RPC connection, a task of its MAIN thread
    or its pool, and the task `OnRunCommandDone`. -/
inductive RemoteEvent (SlaveEdge : Type) where
  | started
  | rpc (event : EndEvent)
  | main (event : SlaveEvent SlaveEdge)
  | onRunCommandDone (answers : List Int)

namespace RemoteSlave

variable {T : Slave.Setting SlaveEdge}

/-- The connection is made by `InitAsync`, after `Init` has registered the service. -/
def new (T : Slave.Setting SlaveEdge) (codec : SlaveCodec) (id : Int) (slaveAddress masterAddress : String) :
    RemoteSlave T where
  pair := ⟨.new id slaveAddress, { End.new 0 masterAddress with
    services := Function.update (fun _ => none) codec.fullName (some (methods codec)) }⟩
  commands := []
  slave := none

variable (pb : Protobuf) (codec : SlaveCodec)

/-- A method of `SlaveService::Stub`, on a connection that was not closed and so is in `connections_`. -/
def callStub (l : RemoteSlave T) (method : SlaveMethod) (request : List UInt8) (done : Option Unit)
    (answers : List Int) : Option (RemoteSlave T) :=
  if l.pair.near.endpoint.closes = 0 ∧ request.length < kMaxMessageSize then
    (l.pair.step pb (.near (.called codec.fullName (codec.methodName method) request done answers))).map fun pair =>
      { l with
        pair := pair
        commands := if method = .runCommand then l.commands ++ [l.pair.near.endpoint.calls] else l.commands }
  else none

def runRequest (l : RemoteSlave T) (answers : List Int) : RpcRequest → Option (RemoteSlave T)
  | .startCommandRemotely _ paths rspfileName rspfileContent edgeId =>
    l.callStub pb codec .runCommand (codec.runCommandRequest
      ⟨edgeId, paths, if rspfileName.isEmpty then none else some (rspfileName, rspfileContent)⟩) (some ()) answers
  | .quitSlave _ reason => l.callStub pb codec .quit (codec.quitRequest reason) none answers

def masterStep (l : RemoteSlave T) (event : EndEvent) : Option (RemoteSlave T) :=
  let steps := (l.pair.step pb (.near event)).map fun pair => { l with pair := pair }
  match event with
  | .registered _ _ | .unregistered _ => none
  | .called service method _ _ _ =>
    if service = codec.fullName ∧ method = codec.methodName .runCommand then none else steps
  | _ => steps

def commandDone (l : RemoteSlave T) : EndEvent → Option (List UInt8)
  | .pass =>
    (l.pair.near.endpoint.nextMessage pb).bind fun m =>
      match m.type, l.pair.near.entries m.id.toUInt32 with
      | .response, some (some r) => if r.done && l.commands.contains r.call then some (m.response.getD []) else none
      | _, _ => none
  | _ => none

def commandTaken (l : RemoteSlave T) : EndEvent → Option RunCommandRequest
  | .pass =>
    (l.pair.far.endpoint.nextMessage pb).bind fun m => if l.pair.far.serves m then commandRequest? codec m else none
  | _ => none

/-- The slave calls nobody and keeps its service; a request of `RunCommand` is answered by `OnRunCommandDone` only. -/
def mayHappen (l : RemoteSlave T) : EndEvent → Bool
  | .registered _ _ | .unregistered _ | .called _ _ _ _ _ => false
  | .serviceDone place _ _ => !(l.pair.far.inbox[place]?.any (isRunCommand codec))
  | _ => true

/-- One step on the side of the slave. The closure of a request is named by the place of the request. -/
def slaveStep (l : RemoteSlave T) : RemoteEvent SlaveEdge → Option (RemoteSlave T)
  | .started =>
    match l.slave with
    | none => (SlaveMainRunner.postCreateThreads T).map fun s => { l with slave := some s }
    | some _ => none
  | .rpc event =>
    if l.mayHappen codec event then
      (l.pair.step pb (.far event)).bind fun pair =>
        match l.commandTaken pb codec event with
        | none => some { l with pair := pair }
        | some request =>
          l.slave.bind fun s =>
            (s.step (.requestPosted request l.pair.far.inbox.length)).map fun s =>
              { l with pair := pair, slave := some s }
    else none
  | .main (.requestPosted _ _) => none
  | .main event => l.slave.bind fun s => (s.step event).map fun s => { l with slave := some s }
  | .onRunCommandDone answers =>
    l.slave.bind fun s =>
      match s.rpcPosts with
      | [] => none
      | context :: rest =>
        if (codec.serializeResponse context.response).length < kMaxMessageSize then
          (l.pair.step pb (.far (.serviceDone context.done (codec.serializeResponse context.response) answers))).map
            fun pair => { l with pair := pair, slave := some { s with rpcPosts := rest } }
        else none

end RemoteSlave

section Underway

variable {A : Type} (f : RpcMessage → Option A) {x y z w : End}

def underway (x y : End) : List A := ((x.sent.map Sent.message).drop y.inbox.length).filterMap f

theorem underway_congr (sent : z.sent = x.sent) (inbox : w.inbox = y.inbox) : underway f z w = underway f x y := by
  rw [underway, sent, inbox, underway]

theorem underway_sent (arrived : y.inbox <+: x.sent.map Sent.message) {accepted : Bool} {made : Sent}
    (sent : z.sent = if accepted then x.sent ++ [made] else x.sent) :
    underway f z y = underway f x y ++ if accepted then (f made.message).toList else [] := by
  rw [underway, sent]
  split
  · have within := arrived.length_le
    rw [List.map_append, List.drop_append_of_le_length within, List.filterMap_append]
    cases value : f made.message <;> simp [underway, value]
  · rw [List.append_nil, underway]

theorem underway_taken {m : RpcMessage} (next : (x.sent.map Sent.message)[y.inbox.length]? = some m)
    (inbox : w.inbox = y.inbox ++ [m]) : underway f x y = (f m).toList ++ underway f x w := by
  obtain ⟨inside, rfl⟩ := List.getElem?_eq_some_iff.mp next
  rw [underway, underway, inbox, List.length_append, List.length_singleton, List.drop_eq_getElem_cons inside,
    List.filterMap_cons]
  cases f (x.sent.map Sent.message)[y.inbox.length] <;> rfl

end Underway

section Invariants

variable {pb : Protobuf} {codec : SlaveCodec} {x y z w : End} {event : EndEvent} {commands : List Nat}
  {T : Slave.Setting SlaveEdge} {e : Endpoint} {m : RpcMessage}

theorem commandRequest?_response {m : RpcMessage} (type : m.type = .response) : commandRequest? codec m = none :=
  if_neg fun command => MessageType.noConfusion (type.symm.trans command.1)

theorem commandResponse?_request {m : RpcMessage} (type : m.type = .request) : commandResponse? codec m = none :=
  if_neg fun command => MessageType.noConfusion (type.symm.trans command.1)

structure Commands (codec : SlaveCodec) (x : End) (commands : List Nat) : Prop where
  asked : ∀ call m, .request call m ∈ x.sent → (isRunCommand codec m = true ↔ call ∈ commands)
  early : ∀ call ∈ commands, call < x.endpoint.calls
  closures : ∀ id r, x.entries id = some (some r) → r.call ∈ commands → r.done = true

theorem Commands.kept (holds : Commands codec x commands) (sent : ∀ call m, .request call m ∈ z.sent →
      .request call m ∈ x.sent) (calls : x.endpoint.calls ≤ z.endpoint.calls)
    (fewer : ∀ id r, z.entries id = some (some r) → x.entries id = some (some r)) : Commands codec z commands :=
  ⟨fun call m member => holds.asked call m (sent call m member),
    fun call member => Nat.lt_of_lt_of_le (holds.early call member) calls,
    fun id r entry => holds.closures id r (fewer id r entry)⟩

theorem erased_entry {entries : UInt32 → Option (Option Response)} {key id : UInt32} {r : Response}
    (entry : Function.update entries key none id = some (some r)) : entries id = some (some r) := by
  by_cases same : id = key
  · rw [same, Function.update_self] at entry
    cases entry
  · rwa [Function.update_of_ne same] at entry

theorem took_entries {e : Endpoint} {m : RpcMessage} {id : UInt32} {r : Response}
    (entry : (e.dispatch m).connection.requestIdToResponse id = some (some r)) :
    e.connection.requestIdToResponse id = some (some r) := by
  have cases := Endpoint.dispatch_cases e m
  generalize e.dispatch m = u at cases entry
  cases cases with
  | request | unknown | answering => exact entry
  | vacant | silent => exact erased_entry entry

theorem Commands.called (holds : Commands codec x commands) (numbered : x.Numbered) {accepted done : Bool}
    {m : RpcMessage} (appends : End.Appends x z accepted (.request x.endpoint.calls m))
    (calls : z.endpoint.calls = x.endpoint.calls + 1) {last : UInt32}
    (entries : z.entries = Function.update x.entries last (some (some ⟨x.endpoint.calls, done⟩))) {more : List Nat}
    (kind : isRunCommand codec m = true ∧ done = true ∧ more = [x.endpoint.calls] ∨
      isRunCommand codec m = false ∧ more = []) : Commands codec z (commands ++ more) := by
  have added : ∀ call ∈ more, call = x.endpoint.calls ∧ done = true := by
    intro call member
    rcases kind with ⟨_, closure, rfl⟩ | ⟨_, rfl⟩
    · exact ⟨List.mem_singleton.mp member, closure⟩
    · cases member
  have fresh : x.endpoint.calls ∉ commands := fun member => Nat.lt_irrefl _ (holds.early _ member)
  have old : ∀ call, call < x.endpoint.calls → (call ∈ commands ++ more ↔ call ∈ commands) := by
    intro call before
    rw [List.mem_append, or_iff_left fun member => Nat.ne_of_lt before (added call member).1]
  have before : ∀ call request, .request call request ∈ x.sent →
      (isRunCommand codec request = true ↔ call ∈ commands ++ more) := fun call request member =>
    (holds.asked call request member).trans (old call (numbered.requests call request member).2.2).symm
  constructor
  · intro call request member
    rcases appends.mem_sent member with member | made
    · exact before call request member
    · cases made
      rcases kind with ⟨command, _, rfl⟩ | ⟨other, rfl⟩
      · simp [command]
      · simpa [other] using fresh
  · intro call member
    rw [calls]
    rcases List.mem_append.mp member with member | member
    · exact Nat.lt_succ_of_lt (holds.early call member)
    · rw [(added call member).1]
      exact Nat.lt_succ_self _
  · intro id r entry member
    rw [entries] at entry
    by_cases same : id = last
    · rw [same, Function.update_self] at entry
      cases entry
      rcases List.mem_append.mp member with member | member
      · exact absurd member fresh
      · exact (added _ member).2
    · rw [Function.update_of_ne same] at entry
      obtain ⟨s, its, _, small, _⟩ := numbered.correlated.entries id _ entry
      obtain rfl := Option.some.inj its
      exact holds.closures id r entry ((old _ small).mp member)

theorem Commands.step (holds : Commands codec x commands) (numbered : x.Numbered)
    (moves : End.Moves pb x y event z w)
    (other : ∀ service method request done answers, event = .called service method request done answers →
      ¬ (service = codec.fullName ∧ method = codec.methodName .runCommand)) : Commands codec z commands := by
  cases moves with
  | registered | unregistered => exact ⟨holds.asked, holds.early, holds.closures⟩
  | called appends waiting calls entries =>
    have apart := other _ _ _ _ _ rfl
    have next := holds.called numbered appends calls entries (.inr ⟨by simpa [isRunCommand] using apart, rfl⟩)
    rwa [List.append_nil] at next
  | answered waits at_ appends waiting calls entries =>
    refine holds.kept ?_ (Nat.le_of_eq calls.symm) fun id r entry => entries ▸ entry
    intro call m member
    rcases appends.mem_sent member with member | made
    · exact member
    · cases made
  | @took m next at_ parsed =>
    have calls : ((x.endpoint.setReadBuf next).dispatch m).calls = x.endpoint.calls :=
      Conversation.dispatch_calls _ m
    exact holds.kept (fun _ _ member => member) (Nat.le_of_eq calls.symm)
      fun id r entry => took_entries (e := x.endpoint.setReadBuf next) entry
  | quiet silent still =>
    refine holds.kept (fun call m member => still.sent ▸ member) (Nat.le_of_eq still.calls.symm) ?_
    intro id r entry
    rcases still.entries with same | ⟨key, _, erased⟩
    · exact same ▸ entry
    · rw [erased] at entry
      exact erased_entry entry

def Held (codec : SlaveCodec) (x : End) (s : SlaveMainRunner T) : Prop :=
  ∃ waiting, Lists s.runCommandContextMap waiting ∧
    ∀ p, (s.tickets waiting).countP p ≤ (outstanding codec x).countP p

structure Serving (codec : SlaveCodec) (x : End) (slave : Option (SlaveMainRunner T)) : Prop where
  copies : x.Copies
  serves : x.services codec.fullName = some (methods codec)
  held : ∀ s, slave = some s → Held codec x s

theorem outstanding_congr (waiting : z.waiting = x.waiting) (inbox : z.inbox = x.inbox) :
    outstanding codec z = outstanding codec x := by
  rw [outstanding, waiting, inbox, outstanding]

theorem Held.waits {s : SlaveMainRunner T} (held : Held codec x s) {context : RunCommandContext}
    (member : context ∈ s.rpcPosts) : context.done ∈ x.waiting ∧
      ∃ m, x.inbox[context.done]? = some m ∧ commandRequest? codec m = some context.request := by
  classical
  obtain ⟨waiting, _, fewer⟩ := held
  have inside : context.ticket ∈ s.tickets waiting :=
    List.mem_append_right _ (List.mem_map_of_mem member)
  have counted := fewer fun ticket => decide (ticket = context.ticket)
  have there : 0 < (s.tickets waiting).countP fun ticket => decide (ticket = context.ticket) :=
    List.countP_pos_iff.mpr ⟨_, inside, decide_eq_true rfl⟩
  obtain ⟨ticket, member, same⟩ := List.countP_pos_iff.mp (Nat.lt_of_lt_of_le there counted)
  obtain ⟨place, waits, found⟩ := List.mem_filterMap.mp member
  obtain ⟨request, there, rfl⟩ := Option.map_eq_some_iff.mp found
  obtain ⟨m, at_, parsed⟩ := Option.bind_eq_some_iff.mp there
  have shape : (request, place) = (context.request, context.done) := of_decide_eq_true same
  obtain ⟨rfl, rfl⟩ := Prod.mk.inj shape
  exact ⟨waits, m, at_, parsed⟩

theorem Held.passes {s t : SlaveMainRunner T} (held : Held codec x s) (passes : SlaveMainRunner.Passes [] s t) :
    Held codec x t := by
  obtain ⟨waiting, lists, fewer⟩ := held
  obtain ⟨later, listed, less⟩ := passes waiting lists
  refine ⟨later, listed, ?_⟩
  intro p
  have before := fewer p
  have after := less p
  rw [List.countP_nil] at after
  omega

theorem outstanding_took (numbered : x.Numbered) (e : Endpoint) (m : RpcMessage) :
    outstanding codec (x.took e (some m)) = outstanding codec x ++
      if x.serves m = true then ((commandRequest? codec m).map fun request => (request, x.inbox.length)).toList
      else [] := by
  have before : ∀ place ∈ x.waiting, (x.inbox ++ [m])[place]? = x.inbox[place]? := by
    intro place member
    obtain ⟨request, at_, _⟩ := numbered.waits place member
    exact List.getElem?_append_left (List.getElem?_eq_some_iff.mp at_).1
  have kept : (x.waiting.filterMap fun place => ((x.inbox ++ [m])[place]?.bind (commandRequest? codec)).map
      fun request => (request, place)) = outstanding codec x :=
    List.filterMap_congr fun place member => by rw [before place member]
  show ((if m.type = .request ∧ x.serves m = true then x.waiting ++ [x.inbox.length] else x.waiting).filterMap
    fun place => ((x.inbox ++ [m])[place]?.bind (commandRequest? codec)).map fun request => (request, place)) = _
  by_cases served : x.serves m = true
  · by_cases asks : m.type = .request
    · rw [if_pos ⟨asks, served⟩, if_pos served, List.filterMap_append, kept, List.filterMap_cons, List.filterMap_nil,
        List.getElem?_concat_length, Option.bind_some]
      cases commandRequest? codec m <;> rfl
    · rw [if_neg fun both => asks both.1, if_pos served, kept, commandRequest?, if_neg fun both => asks both.1]
      exact (List.append_nil _).symm
  · rw [if_neg fun both => served both.2, if_neg served, kept, List.append_nil]

theorem outstanding_answered {place : Nat} (waits : place ∈ x.waiting) (waiting : z.waiting = x.waiting.erase place)
    (inbox : z.inbox = x.inbox) (p : Ticket → Bool) :
    (outstanding codec x).countP p = (outstanding codec z).countP p +
      ((x.inbox[place]?.bind (commandRequest? codec)).map fun request => (request, place)).toList.countP p := by
  have moved := (List.perm_cons_erase waits).filterMap fun place =>
    (x.inbox[place]?.bind (commandRequest? codec)).map fun request => (request, place)
  rw [outstanding, moved.countP_eq, outstanding, waiting, inbox, List.filterMap_cons]
  cases (x.inbox[place]?.bind (commandRequest? codec)).map fun request => (request, place) with
  | none => exact (Nat.add_zero _).symm
  | some ticket => simp only [List.countP_cons, Option.toList_some, List.countP_nil, Nat.zero_add]

variable {slave : Option (SlaveMainRunner T)}

theorem Serving.took (serving : Serving codec x slave) (numbered : x.Numbered)
    (moves : End.Moves pb x y .pass (x.took e (some m)) w) {later : Option (SlaveMainRunner T)}
    (handed : ∀ t, later = some t → ∃ s, slave = some s ∧ SlaveMainRunner.Passes
      (if x.serves m = true then ((commandRequest? codec m).map fun request => (request, x.inbox.length)).toList
        else []) s t) : Serving codec (x.took e (some m)) later := by
  refine ⟨serving.copies.step moves, serving.serves, ?_⟩
  intro t same
  obtain ⟨s, before, passes⟩ := handed t same
  obtain ⟨waiting, lists, fewer⟩ := serving.held s before
  obtain ⟨next, listed, less⟩ := passes waiting lists
  refine ⟨next, listed, ?_⟩
  intro p
  have first := fewer p
  have second := less p
  rw [outstanding_took numbered, List.countP_append]
  omega

theorem Serving.quiet (serving : Serving codec x slave) (moves : End.Moves pb x y event z w)
    (still : End.Quiet x z) : Serving codec z slave := by
  refine ⟨serving.copies.step moves, still.services ▸ serving.serves, ?_⟩
  intro s same
  obtain ⟨waiting, lists, fewer⟩ := serving.held s same
  refine ⟨waiting, lists, ?_⟩
  rw [outstanding_congr still.waiting still.inbox]
  exact fewer

theorem Serving.answered {place : Nat} {answer : RpcMessage} {accepted : Bool} (serving : Serving codec x slave)
    (moves : End.Moves pb x y event z w) (appends : End.Appends x z accepted (.answer place answer))
    (waits : place ∈ x.waiting) (waiting : z.waiting = x.waiting.erase place) {later : Option (SlaveMainRunner T)}
    (given : ∀ t, later = some t → ∃ s, slave = some s ∧ t.runCommandContextMap = s.runCommandContextMap ∧
      ∀ contexts p, (t.tickets contexts).countP p +
        ((x.inbox[place]?.bind (commandRequest? codec)).map fun request => (request, place)).toList.countP p ≤
          (s.tickets contexts).countP p) : Serving codec z later := by
  refine ⟨serving.copies.step moves, appends.services ▸ serving.serves, ?_⟩
  intro t same
  obtain ⟨s, before, contexts, gone⟩ := given t same
  obtain ⟨listed, lists, fewer⟩ := serving.held s before
  refine ⟨listed, contexts ▸ lists, ?_⟩
  intro p
  have first := fewer p
  have second := gone listed p
  rw [outstanding_answered waits waiting appends.inbox] at first
  omega

end Invariants

namespace RemoteSlave

variable {T : Slave.Setting SlaveEdge} {pb : Protobuf} {codec : SlaveCodec} {l n : RemoteSlave T} {k : SlaveLink T}
  {near far : End} {event : EndEvent} {m : RpcMessage}

structure Sound (pb : Protobuf) (codec : SlaveCodec) (l : RemoteSlave T) : Prop where
  ends : End.Sound pb l.pair.near l.pair.far
  pending : l.pair.near.Pending
  commands : Commands codec l.pair.near l.commands
  serving : Serving codec l.pair.far l.slave

/-- The link of the abstract model: what is on the way is what one end has sent and the other has not taken. -/
structure Shows (codec : SlaveCodec) (l : RemoteSlave T) (k : SlaveLink T) : Prop where
  slave : k.slave = l.slave
  requests : k.requests = underway (commandRequest? codec) l.pair.near l.pair.far
  responses : k.responses.map RunCommandContext.response = underway (commandResponse? codec) l.pair.far l.pair.near

theorem Sound.nearStep (sound : l.Sound pb codec) (stepped : l.pair.near.step pb l.pair.far event = some (near, far))
    (few : near.endpoint.calls ≤ 2 ^ 32) {commands : List Nat} (holds : Commands codec near commands) :
    Sound pb codec { l with pair := ⟨near, far⟩, commands := commands } := by
  have moves := End.step_moves stepped
  obtain ⟨wire, rfl⟩ := moves.other
  exact ⟨sound.ends.step stepped, sound.pending.step sound.ends.own moves few, holds,
    ⟨sound.serving.copies, sound.serving.serves, sound.serving.held⟩⟩

theorem Sound.farStep (sound : l.Sound pb codec) (stepped : l.pair.far.step pb l.pair.near event = some (far, near))
    {slave : Option (SlaveMainRunner T)} (serving : Serving codec far slave) :
    Sound pb codec { l with pair := ⟨near, far⟩, slave := slave } := by
  obtain ⟨wire, rfl⟩ := (End.step_moves stepped).other
  exact ⟨(sound.ends.swap.step stepped).swap, ⟨sound.pending.entry, sound.pending.answering⟩,
    ⟨sound.commands.asked, sound.commands.early, sound.commands.closures⟩, serving⟩

theorem new_sound (pb : Protobuf) (codec : SlaveCodec) (id : Int) (slaveAddress masterAddress : String) :
    (new T codec id slaveAddress masterAddress).Sound pb codec := by
  have ends := End.new_sound pb id 0 slaveAddress masterAddress
  constructor
  · exact ⟨ends.sends, ends.receives, ends.own,
      ⟨ends.other.correlated, nofun, List.Pairwise.nil, nofun, nofun, List.nodup_nil⟩, fun _ => ⟨nofun, nofun⟩,
      fun _ => ⟨nofun, nofun⟩⟩
  · exact End.new_pending id slaveAddress
  · exact ⟨nofun, nofun, nofun⟩
  · refine ⟨nofun, ?_, nofun⟩
    show Function.update (fun _ => none) codec.fullName (some (methods codec)) codec.fullName = _
    exact Function.update_self ..

theorem new_shows (codec : SlaveCodec) (id : Int) (slaveAddress masterAddress : String) :
    (new T codec id slaveAddress masterAddress).Shows codec (.new T) := ⟨rfl, rfl, rfl⟩

theorem Shows.silent (shows_ : l.Shows codec k) {wire : List UInt8} {commands : List Nat}
    (sent : underway (commandRequest? codec) near l.pair.far = underway (commandRequest? codec) l.pair.near l.pair.far)
    (inbox : near.inbox = l.pair.near.inbox) :
    Shows codec { l with pair := ⟨near, { l.pair.far with wire := wire }⟩, commands := commands } k := by
  refine ⟨shows_.slave, shows_.requests.trans ?_, shows_.responses.trans ?_⟩
  · rw [← sent]
    exact (underway_congr _ rfl rfl).symm
  · exact (underway_congr _ rfl inbox).symm

theorem near_step {q : Pair} (stepped : l.pair.step pb (.near event) = some q) :
    ∃ near far, l.pair.near.step pb l.pair.far event = some (near, far) ∧ q = ⟨near, far⟩ := by
  obtain ⟨⟨near, far⟩, moved, rfl⟩ := Option.map_eq_some_iff.mp stepped
  exact ⟨near, far, moved, rfl⟩

theorem far_step {q : Pair} (stepped : l.pair.step pb (.far event) = some q) :
    ∃ near far, l.pair.far.step pb l.pair.near event = some (far, near) ∧ q = ⟨near, far⟩ := by
  obtain ⟨⟨far, near⟩, moved, rfl⟩ := Option.map_eq_some_iff.mp stepped
  exact ⟨near, far, moved, rfl⟩

theorem isRunCommand_stub (codec : SlaveCodec) (method : SlaveMethod) (id : UInt64) (request : List UInt8) :
    isRunCommand codec ⟨id, .request, codec.fullName, codec.methodName method, some request, none⟩ =
      decide (method = .runCommand) := by
  by_cases same : method = .runCommand
  · simp [isRunCommand, same]
  · have apart : codec.methodName method ≠ codec.methodName .runCommand := fun named => same (codec.apart method named)
    simp [isRunCommand, same, apart]

theorem callStub_shows {method : SlaveMethod} {request : List UInt8} {done : Option Unit} {answers : List Int}
    (sound : l.Sound pb codec) (shows_ : l.Shows codec k) (closure : method = .runCommand → done = some ())
    (called : l.callStub pb codec method request done answers = some n) (few : n.pair.near.endpoint.calls ≤ 2 ^ 32) :
    request.length < kMaxMessageSize ∧ n.Sound pb codec ∧ ∃ accepted : Bool,
      n.Shows codec { k with requests := k.requests ++ if accepted then
        (if method = .runCommand then [codec.parseRequest request] else []) else [] } := by
  unfold callStub at called
  simp only [Option.ite_none_right_eq_some] at called
  obtain ⟨⟨_, size⟩, called⟩ := called
  obtain ⟨q, stepped, rfl⟩ := Option.map_eq_some_iff.mp called
  obtain ⟨near, far, moved, rfl⟩ := near_step stepped
  have moves := End.step_moves moved
  have kind := isRunCommand_stub codec method l.pair.near.endpoint.connection.lastRequestId.toUInt64 request
  refine ⟨size, ?_⟩
  cases moves with
  | quiet silent => cases silent
  | @called _ _ _ _ _ _ accepted appends waiting calls entries =>
    constructor
    · apply sound.nearStep moved few
      by_cases same : method = .runCommand
      · rw [if_pos same]
        refine sound.commands.called sound.ends.own appends calls entries (.inl ⟨?_, ?_, rfl⟩)
        · rw [kind, decide_eq_true same]
        · rw [closure same]
          rfl
      · rw [if_neg same]
        have next := sound.commands.called sound.ends.own appends calls entries (.inr ⟨by simp [kind, same], rfl⟩)
        rwa [List.append_nil] at next
    · refine ⟨accepted, shows_.slave, ?_, shows_.responses.trans (underway_congr _ rfl appends.inbox).symm⟩
      refine Eq.trans ?_ (underway_sent _ sound.ends.sends.inbox_prefix appends.sent).symm
      have read : (commandRequest? codec (Sent.request l.pair.near.endpoint.calls
          ⟨l.pair.near.endpoint.connection.lastRequestId.toUInt64, .request, codec.fullName, codec.methodName method,
            some request, none⟩).message).toList =
          if method = .runCommand then [codec.parseRequest request] else [] := by
        rw [Sent.message, commandRequest?, kind]
        by_cases same : method = .runCommand <;> simp [same]
      rw [read, ← shows_.requests]

theorem runRequest_shows {answers : List Int} {post : RpcRequest} (sound : l.Sound pb codec)
    (shows_ : l.Shows codec k) (ran : l.runRequest pb codec answers post = some n)
    (few : n.pair.near.endpoint.calls ≤ 2 ^ 32) : n.Sound pb codec ∧ ∃ accepted : Bool,
      n.Shows codec { k with requests := k.requests ++ if accepted then
        ((runCommandRequest post).map Prod.snd).toList else [] } := by
  cases post with
  | startCommandRemotely id paths rspfileName rspfileContent edgeId =>
    obtain ⟨size, next, accepted, later⟩ := callStub_shows sound shows_ (fun _ => rfl) ran few
    refine ⟨next, accepted, ?_⟩
    rw [if_pos rfl, codec.parse_request _ size] at later
    exact later
  | quitSlave id reason =>
    have called : l.callStub pb codec .quit (codec.quitRequest reason) none answers = some n := ran
    obtain ⟨_, next, accepted, later⟩ :=
      callStub_shows sound shows_ (fun same => SlaveMethod.noConfusion same) called few
    exact ⟨next, accepted, later⟩

theorem pass_commandDone (sound : l.Sound pb codec) (few : l.pair.near.endpoint.calls ≤ 2 ^ 32)
    (parsed : l.pair.near.endpoint.nextMessage pb = some m) :
    (l.commandDone pb .pass).map codec.runCommandResponse = commandResponse? codec m := by
  have done : l.commandDone pb .pass =
      match m.type, l.pair.near.entries m.id.toUInt32 with
      | .response, some (some r) => if r.done && l.commands.contains r.call then some (m.response.getD []) else none
      | _, _ => none := by
    rw [commandDone, parsed]
    rfl
  cases type : m.type with
  | request =>
    rw [done, type, commandResponse?_request type]
    rfl
  | response =>
    obtain ⟨call, request, closure, asked, service, method, entry⟩ :=
      sound.ends.next_entry sound.pending sound.serving.copies few (sound.ends.next parsed) type
    have same : isRunCommand codec m = isRunCommand codec request := by rw [isRunCommand, service, method, isRunCommand]
    have known := sound.commands.asked call request asked
    rw [done, type, entry]
    show Option.map _ (if closure && l.commands.contains call then _ else _) = _
    by_cases command : isRunCommand codec request = true
    · have noted := known.mp command
      have runs : closure = true := sound.commands.closures _ _ entry noted
      simp [commandResponse?, type, same, command, runs, noted]
    · have absent : call ∉ l.commands := fun noted => command (known.mpr noted)
      simp [commandResponse?, type, same, command, absent]

theorem commandDone_quiet (nothing : event = .pass → l.pair.near.endpoint.nextMessage pb = none) :
    l.commandDone pb event = none := by
  cases event with
  | pass =>
    rw [commandDone, nothing rfl]
    rfl
  | _ => rfl

theorem masterStep_moves (stepped : l.masterStep pb codec event = some n) :
    ∃ near far, l.pair.near.step pb l.pair.far event = some (near, far) ∧ n = { l with pair := ⟨near, far⟩ } ∧
      ∀ service method request done answers, event = .called service method request done answers →
        ¬ (service = codec.fullName ∧ method = codec.methodName .runCommand) := by
  have taken : (l.pair.step pb (.near event)).map (fun pair => { l with pair := pair }) = some n ∧
      ∀ service method request done answers, event = .called service method request done answers →
        ¬ (service = codec.fullName ∧ method = codec.methodName .runCommand) := by
    cases event with
    | registered | unregistered => cases stepped
    | called service method request done answers =>
      simp only [masterStep, Option.ite_none_left_eq_some] at stepped
      refine ⟨stepped.2, ?_⟩
      intro _ _ _ _ _ same
      cases same
      exact stepped.1
    | _ => exact ⟨stepped, nofun⟩
  obtain ⟨taken, apart⟩ := taken
  obtain ⟨q, went, rfl⟩ := Option.map_eq_some_iff.mp taken
  obtain ⟨near, far, moved, rfl⟩ := near_step went
  exact ⟨near, far, moved, rfl, apart⟩

theorem masterStep_shows (sound : l.Sound pb codec) (shows_ : l.Shows codec k)
    (stepped : l.masterStep pb codec event = some n) (few : n.pair.near.endpoint.calls ≤ 2 ^ 32) :
    n.Sound pb codec ∧ ((l.commandDone pb event = none ∧ n.Shows codec k) ∨
      ∃ response context rest, l.commandDone pb event = some response ∧ k.responses = context :: rest ∧
        context.response = codec.runCommandResponse response ∧ n.Shows codec { k with responses := rest }) := by
  obtain ⟨near, far, moved, rfl, apart⟩ := masterStep_moves stepped
  have moves := End.step_moves moved
  have next := sound.nearStep moved few (sound.commands.step sound.ends.own moves apart)
  refine ⟨next, ?_⟩
  cases moves with
  | registered | unregistered => cases stepped
  | @called service method request done answers z accepted appends waiting calls entries =>
    refine .inl ⟨rfl, shows_.silent ?_ appends.inbox⟩
    rw [underway_sent _ sound.ends.sends.inbox_prefix appends.sent]
    have other := apart service method request done answers rfl
    have nothing : ∀ id, commandRequest? codec ⟨id, .request, service, method, some request, none⟩ = none :=
      fun id => if_neg fun both => other (by simpa [isRunCommand] using both.2)
    rw [Sent.message, nothing]
    simp
  | answered waits at_ appends waiting calls entries =>
    refine .inl ⟨rfl, shows_.silent ?_ appends.inbox⟩
    rw [underway_sent _ sound.ends.sends.inbox_prefix appends.sent, Sent.message, commandRequest?_response rfl]
    simp
  | @took m buffer at_ parsed =>
    have calls : ((l.pair.near.endpoint.setReadBuf buffer).dispatch m).calls = l.pair.near.endpoint.calls :=
      Conversation.dispatch_calls _ m
    have before : l.pair.near.endpoint.calls ≤ 2 ^ 32 := Nat.le_trans (Nat.le_of_eq calls.symm) few
    have done := pass_commandDone sound before parsed
    have taken := underway_taken (commandResponse? codec) (sound.ends.next parsed)
      (w := l.pair.near.took ((l.pair.near.endpoint.setReadBuf buffer).dispatch m) (some m)) rfl
    have responses := shows_.responses.trans taken
    cases outcome : l.commandDone pb .pass with
    | none =>
      rw [outcome] at done
      rw [← done] at responses
      exact .inl ⟨rfl, shows_.slave, shows_.requests, responses⟩
    | some response =>
      rw [outcome] at done
      rw [← done] at responses
      obtain ⟨context, rest, shape, answer, later⟩ := List.map_eq_cons_iff.mp responses
      exact .inr ⟨response, context, rest, rfl, shape, answer, shows_.slave, shows_.requests, later⟩
  | quiet silent still nothing =>
    refine .inl ⟨commandDone_quiet nothing, shows_.silent ?_ still.inbox⟩
    exact underway_congr _ still.sent rfl

theorem pass_commandTaken (sound : l.Sound pb codec) (parsed : l.pair.far.endpoint.nextMessage pb = some m) :
    l.commandTaken pb codec .pass = (if l.pair.far.serves m then commandRequest? codec m else none) ∧
      l.commandTaken pb codec .pass = commandRequest? codec m := by
  have taken : l.commandTaken pb codec .pass = if l.pair.far.serves m then commandRequest? codec m else none := by
    rw [commandTaken, parsed]
    rfl
  refine ⟨taken, taken.trans ?_⟩
  split
  · rfl
  · rename_i unserved
    -- The service is registered with its methods, so what it does not serve is no request of `RunCommand`.
    refine (if_neg fun both => unserved ?_).symm
    have named : m.service = codec.fullName ∧ m.method = codec.methodName .runCommand := by
      simpa [isRunCommand] using both.2
    rw [End.serves, named.1, sound.serving.serves, named.2]
    simp [methods]

theorem commandTaken_quiet (nothing : event = .pass → l.pair.far.endpoint.nextMessage pb = none) :
    l.commandTaken pb codec event = none := by
  cases event with
  | pass =>
    rw [commandTaken, nothing rfl]
    rfl
  | _ => rfl

theorem Shows.quiet (shows_ : l.Shows codec k) {wire : List UInt8}
    (sent : underway (commandResponse? codec) far l.pair.near =
      underway (commandResponse? codec) l.pair.far l.pair.near)
    (inbox : far.inbox = l.pair.far.inbox) :
    Shows codec { l with pair := ⟨{ l.pair.near with wire := wire }, far⟩ } k := by
  refine ⟨shows_.slave, shows_.requests.trans ?_, shows_.responses.trans ?_⟩
  · exact (underway_congr _ rfl inbox).symm
  · rw [← sent]
    exact (underway_congr _ rfl rfl).symm

def Follows (k j : SlaveLink T) : Prop := j = k ∨ ∃ event, k.step event = some j

theorem started_shows {s : SlaveMainRunner T} (sound : l.Sound pb codec) (shows_ : l.Shows codec k)
    (waiting : l.slave = none) (created : SlaveMainRunner.postCreateThreads T = some s) :
    Sound pb codec { l with slave := some s } ∧
      ∃ j, Shows codec { l with slave := some s } j ∧ Follows k j := by
  constructor
  · refine ⟨sound.ends, sound.pending, sound.commands, sound.serving.copies, sound.serving.serves, ?_⟩
    intro t same
    cases same
    obtain ⟨map, _, rfl⟩ := Option.map_eq_some_iff.mp created
    exact ⟨[], nofun, fun _ => Nat.zero_le _⟩
  · refine ⟨{ k with slave := some s }, ⟨rfl, shows_.requests, shows_.responses⟩, .inr ⟨.slaveStarted, ?_⟩⟩
    simp only [SlaveLink.step, shows_.slave, waiting, created, Option.map_some]

theorem main_shows {event : SlaveEvent SlaveEdge} {s t : SlaveMainRunner T} (sound : l.Sound pb codec)
    (shows_ : l.Shows codec k) (running : l.slave = some s) (silent : event.tickets = [])
    (stepped : s.step event = some t) :
    Sound pb codec { l with slave := some t } ∧
      ∃ j, Shows codec { l with slave := some t } j ∧ Follows k j := by
  constructor
  · refine ⟨sound.ends, sound.pending, sound.commands, sound.serving.copies, sound.serving.serves, ?_⟩
    intro u same
    cases same
    exact (sound.serving.held s running).passes (silent ▸ SlaveMainRunner.passes_step stepped)
  · refine ⟨{ k with slave := some t }, ⟨rfl, shows_.requests, shows_.responses⟩, .inr ⟨.slave event, ?_⟩⟩
    cases event with
    | requestPosted => cases silent
    | _ => simp only [SlaveLink.step, shows_.slave, running, Option.bind_some, stepped, Option.map_some]

theorem onRunCommandDone_shows {s : SlaveMainRunner T} {context : RunCommandContext} {rest : List RunCommandContext}
    {answers : List Int} {q : Pair} (sound : l.Sound pb codec) (shows_ : l.Shows codec k)
    (running : l.slave = some s) (posted : s.rpcPosts = context :: rest)
    (size : (codec.serializeResponse context.response).length < kMaxMessageSize)
    (stepped : l.pair.step pb
      (.far (.serviceDone context.done (codec.serializeResponse context.response) answers)) = some q) :
    Sound pb codec { l with pair := q, slave := some { s with rpcPosts := rest } } ∧
      ∃ j, Shows codec { l with pair := q, slave := some { s with rpcPosts := rest } } j ∧ Follows k j := by
  obtain ⟨near, far, moved, rfl⟩ := far_step stepped
  have moves := End.step_moves moved
  obtain ⟨_, m, there, parsed⟩ :=
    (sound.serving.held s running).waits (posted ▸ List.mem_cons_self : context ∈ s.rpcPosts)
  cases moves with
  | quiet silent => cases silent
  | @answered _ other _ _ _ accepted waits at_ appends waiting calls entries =>
    obtain rfl : m = other := Option.some.inj (there.symm.trans at_)
    have command : isRunCommand codec m = true := by
      unfold commandRequest? at parsed
      split at parsed
      · rename_i both
        exact both.2
      · cases parsed
    have answer : commandResponse? codec ⟨m.id, .response, m.service, m.method, none,
        some (codec.serializeResponse context.response)⟩ = some context.response := by
      rw [commandResponse?, if_pos ⟨rfl, command⟩, Option.getD_some, codec.parse_response _ size]
    constructor
    · refine sound.farStep moved (sound.serving.answered (End.step_moves moved) appends waits waiting ?_)
      intro t same
      cases same
      refine ⟨s, running, rfl, ?_⟩
      intro contexts p
      rw [there, Option.bind_some, parsed, SlaveMainRunner.countP_tickets, SlaveMainRunner.countP_tickets, posted]
      simp only [Option.map_some, Option.toList_some, List.countP_cons, List.countP_nil, RunCommandContext.ticket]
      omega
    · refine ⟨{ k with
        slave := some { s with rpcPosts := rest }
        responses := k.responses ++ if accepted then [context] else [] }, ⟨rfl, ?_, ?_⟩,
        .inr ⟨.responseSent accepted, ?_⟩⟩
      · exact shows_.requests.trans (underway_congr _ rfl appends.inbox).symm
      · rw [List.map_append, shows_.responses]
        refine Eq.trans ?_ (underway_sent _ sound.ends.receives.inbox_prefix appends.sent).symm
        rw [Sent.message, answer]
        cases accepted <;> rfl
      · simp only [SlaveLink.step, shows_.slave, running, Option.bind_some, posted]

theorem rpc_shows {q : Pair} (sound : l.Sound pb codec) (shows_ : l.Shows codec k)
    (may : l.mayHappen codec event = true) (stepped : l.pair.step pb (.far event) = some q) :
    (l.commandTaken pb codec event = none ∧ Sound pb codec { l with pair := q } ∧
      Shows codec { l with pair := q } k) ∨
    ∃ request, l.commandTaken pb codec event = some request ∧ ∀ s t, l.slave = some s →
      s.step (.requestPosted request l.pair.far.inbox.length) = some t →
      Sound pb codec { l with pair := q, slave := some t } ∧
        ∃ j, Shows codec { l with pair := q, slave := some t } j ∧ Follows k j := by
  obtain ⟨near, far, moved, rfl⟩ := far_step stepped
  have moves := End.step_moves moved
  cases moves with
  | registered | unregistered | called => cases may
  | @answered place m response answers z accepted waits at_ appends waiting calls entries =>
    have other : isRunCommand codec m = false := by simpa [mayHappen, at_] using may
    have unknown : commandRequest? codec m = none := if_neg fun both => by simp [other] at both
    have nothing : commandResponse? codec ⟨m.id, .response, m.service, m.method, none, some response⟩ = none :=
      if_neg fun both => by
        have command : isRunCommand codec m = true := both.2
        simp [other] at command
    refine .inl ⟨rfl, sound.farStep moved ?_, shows_.quiet ?_ appends.inbox⟩
    · refine sound.serving.answered (End.step_moves moved) appends waits waiting ?_
      intro t same
      refine ⟨t, same, rfl, ?_⟩
      intro contexts p
      rw [at_, Option.bind_some, unknown]
      exact Nat.le_refl _
    · rw [underway_sent _ sound.ends.receives.inbox_prefix appends.sent, Sent.message, nothing]
      simp
  | @took m buffer at_ parsed =>
    obtain ⟨served, command⟩ := pass_commandTaken sound parsed
    have handed : (if l.pair.far.serves m = true then
        ((commandRequest? codec m).map fun request => (request, l.pair.far.inbox.length)).toList else []) =
        ((l.commandTaken pb codec .pass).map fun request => (request, l.pair.far.inbox.length)).toList := by
      rw [served]
      split <;> rfl
    have taken := underway_taken (commandRequest? codec) (sound.ends.swap.next parsed)
      (w := l.pair.far.took ((l.pair.far.endpoint.setReadBuf buffer).dispatch m) (some m)) rfl
    rw [← shows_.requests, ← command] at taken
    cases outcome : l.commandTaken pb codec .pass with
    | none =>
      rw [outcome] at taken handed
      refine .inl ⟨rfl, sound.farStep moved ?_, shows_.slave, taken, shows_.responses⟩
      refine sound.serving.took sound.ends.other (End.step_moves moved) ?_
      rw [handed]
      exact fun t same => ⟨t, same, .of_eq rfl rfl rfl rfl⟩
    | some request =>
      rw [outcome] at taken handed
      refine .inr ⟨request, rfl, ?_⟩
      intro s t running posted
      refine ⟨sound.farStep moved ?_, { k with
        requests := underway (commandRequest? codec) l.pair.near _, slave := some t },
        ⟨rfl, rfl, shows_.responses⟩, .inr ⟨.requestReceived l.pair.far.inbox.length, ?_⟩⟩
      · refine sound.serving.took sound.ends.other (End.step_moves moved) ?_
        rw [handed]
        intro u same
        cases same
        exact ⟨s, running, SlaveMainRunner.passes_step posted⟩
      · simp only [SlaveLink.step, taken, shows_.slave, running, Option.map_some, Option.toList_some,
          List.singleton_append, posted]
  | quiet silent still nothing =>
    refine .inl ⟨commandTaken_quiet nothing, sound.farStep moved ?_, shows_.quiet ?_ still.inbox⟩
    · exact sound.serving.quiet (End.step_moves moved) still
    · exact underway_congr _ still.sent rfl

theorem slaveStep_shows {event : RemoteEvent SlaveEdge} (sound : l.Sound pb codec) (shows_ : l.Shows codec k)
    (stepped : l.slaveStep pb codec event = some n) :
    n.Sound pb codec ∧ ∃ j, n.Shows codec j ∧ Follows k j := by
  cases event with
  | started =>
    simp only [slaveStep] at stepped
    split at stepped
    · rename_i waiting
      obtain ⟨s, created, rfl⟩ := Option.map_eq_some_iff.mp stepped
      exact started_shows sound shows_ waiting created
    · cases stepped
  | rpc event =>
    simp only [slaveStep, Option.ite_none_right_eq_some] at stepped
    obtain ⟨may, stepped⟩ := stepped
    obtain ⟨q, moved, stepped⟩ := Option.bind_eq_some_iff.mp stepped
    rcases rpc_shows sound shows_ may moved with ⟨nothing, next, later⟩ | ⟨request, taken, handed⟩
    · rw [nothing] at stepped
      cases stepped
      exact ⟨next, k, later, .inl rfl⟩
    · rw [taken] at stepped
      obtain ⟨s, running, stepped⟩ := Option.bind_eq_some_iff.mp stepped
      obtain ⟨t, posted, rfl⟩ := Option.map_eq_some_iff.mp stepped
      exact handed s t running posted
  | main event =>
    have silent : event.tickets = [] ∧
        (l.slave.bind fun s => (s.step event).map fun s => { l with slave := some s }) = some n := by
      cases event with
      | requestPosted => cases stepped
      | taskRun | exited | digested => exact ⟨rfl, stepped⟩
    obtain ⟨silent, stepped⟩ := silent
    obtain ⟨s, running, stepped⟩ := Option.bind_eq_some_iff.mp stepped
    obtain ⟨t, moved, rfl⟩ := Option.map_eq_some_iff.mp stepped
    exact main_shows sound shows_ running silent moved
  | onRunCommandDone answers =>
    obtain ⟨s, running, stepped⟩ := Option.bind_eq_some_iff.mp stepped
    split at stepped
    · cases stepped
    · rename_i context rest posted
      simp only [Option.ite_none_right_eq_some] at stepped
      obtain ⟨size, stepped⟩ := stepped
      obtain ⟨q, moved, rfl⟩ := Option.map_eq_some_iff.mp stepped
      exact onRunCommandDone_shows sound shows_ running posted size moved

theorem far_near {q : Pair} (stepped : l.pair.step pb (.far event) = some q) :
    q.near.endpoint = l.pair.near.endpoint := by
  obtain ⟨near, far, moved, rfl⟩ := far_step stepped
  obtain ⟨wire, rfl⟩ := (End.step_moves moved).other
  rfl

theorem slaveStep_near {event : RemoteEvent SlaveEdge} (stepped : l.slaveStep pb codec event = some n) :
    n.pair.near.endpoint = l.pair.near.endpoint := by
  cases event with
  | started =>
    simp only [slaveStep] at stepped
    split at stepped
    · obtain ⟨s, _, rfl⟩ := Option.map_eq_some_iff.mp stepped
      rfl
    · cases stepped
  | rpc event =>
    simp only [slaveStep, Option.ite_none_right_eq_some] at stepped
    obtain ⟨_, stepped⟩ := stepped
    obtain ⟨q, moved, stepped⟩ := Option.bind_eq_some_iff.mp stepped
    split at stepped
    · cases stepped
      exact far_near moved
    · obtain ⟨s, _, stepped⟩ := Option.bind_eq_some_iff.mp stepped
      obtain ⟨t, _, rfl⟩ := Option.map_eq_some_iff.mp stepped
      exact far_near moved
  | main event =>
    cases event with
    | requestPosted => cases stepped
    | taskRun | exited | digested =>
      obtain ⟨s, _, stepped⟩ := Option.bind_eq_some_iff.mp stepped
      obtain ⟨t, _, rfl⟩ := Option.map_eq_some_iff.mp stepped
      rfl
  | onRunCommandDone answers =>
    obtain ⟨s, _, stepped⟩ := Option.bind_eq_some_iff.mp stepped
    split at stepped
    · cases stepped
    · simp only [Option.ite_none_right_eq_some] at stepped
      obtain ⟨q, moved, rfl⟩ := Option.map_eq_some_iff.mp stepped.2
      exact far_near moved

theorem masterStep_calls (stepped : l.masterStep pb codec event = some n) :
    l.pair.near.endpoint.calls ≤ n.pair.near.endpoint.calls ∧
      n.pair.near.endpoint.calls ≤ l.pair.near.endpoint.calls + 1 := by
  obtain ⟨near, far, moved, rfl, _⟩ := masterStep_moves stepped
  exact (End.step_moves moved).calls_le

theorem runRequest_calls {answers : List Int} {post : RpcRequest} (ran : l.runRequest pb codec answers post = some n) :
    l.pair.near.endpoint.calls ≤ n.pair.near.endpoint.calls ∧
      n.pair.near.endpoint.calls ≤ l.pair.near.endpoint.calls + 1 := by
  have called : ∃ method request done, l.callStub pb codec method request done answers = some n := by
    cases post with
    | startCommandRemotely => exact ⟨_, _, _, ran⟩
    | quitSlave => exact ⟨_, _, _, ran⟩
  obtain ⟨method, request, done, called⟩ := called
  simp only [callStub, Option.ite_none_right_eq_some] at called
  obtain ⟨q, stepped, rfl⟩ := Option.map_eq_some_iff.mp called.2
  obtain ⟨near, far, moved, rfl⟩ := near_step stepped
  exact (End.step_moves moved).calls_le

end RemoteSlave

end DistributedNinja.Protocol
