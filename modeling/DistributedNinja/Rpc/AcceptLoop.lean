import DistributedNinja.Lib.Run
import DistributedNinja.Net.TCPServerSocket
import DistributedNinja.Rpc.ClosedOnce

namespace DistributedNinja.Rpc

open Lib Net

variable {Done : Type}

/-- `RpcSocketServer` with its listening socket, whether the posted `DoAcceptLoop` has run, and the connections it has
    made, each with the peer of its socket. -/
structure Acceptor (Done : Type) where
  server : TCPServerSocket Unit
  started : Bool
  rpc : RpcSocketServer Done
  connections : List (Int × IPEndPoint)

/-- The answer of one call of `accept` and, if it makes a connection, what `DoReadLoop` reads of it and what the
    observers call in `OnConnect`. -/
structure Acceptance (Done : Type) where
  answer : AcceptAnswer
  reads : List (SocketRead Done)
  onConnect : List (SocketWrite Done)

/-- The calls of `accept` that follow are answered in order; after them there is nothing more to accept. `other` is
    anything else that runs on the thread. -/
inductive AcceptEvent (Done : Type) where
  | doAcceptLoop (acceptances : List (Acceptance Done)) (watch : Option SystemError)
  | canRead (acceptance : Acceptance Done) (acceptances : List (Acceptance Done)) (watch : Option SystemError)
  | other (event : ServerEvent Done)

namespace AcceptEvent

def acceptances : AcceptEvent Done → List (Acceptance Done)
  | .doAcceptLoop acceptances _ => acceptances
  | .canRead acceptance acceptances _ => acceptance :: acceptances
  | .other _ => []

def peers (event : AcceptEvent Done) : List IPEndPoint :=
  event.acceptances.filterMap fun acceptance => acceptance.answer.endpoint?

def starts : AcceptEvent Done → Bool
  | .doAcceptLoop _ _ => true
  | _ => false

def fails : AcceptEvent Done → Bool
  | .doAcceptLoop acceptances watch => acceptances.any (fun a => a.answer.fails) || watch.isSome
  | .canRead acceptance acceptances watch =>
    !acceptance.answer.waits && ((acceptance :: acceptances).any (fun a => a.answer.fails) || watch.isSome)
  | .other _ => false

end AcceptEvent

namespace Acceptor

def new (fd : Nat) : Acceptor Done :=
  ⟨⟨⟨{ SocketLibevent.new with socketFd := some fd }, none⟩, false⟩, false, .new, []⟩

def listening (s : Acceptor Done) : Bool := s.server.socket.socket.acceptSocketWatcher

-- `shown` gives the text of an address.
variable (pb : Protobuf) (shown : IPEndPoint → String)

def handleAcceptResult (s : Acceptor Done) (rv : Int) (accepted : Option IPEndPoint) (a : Acceptance Done) :
    Option (Int × Acceptor Done) :=
  if rv < 0 then some (rv, s)
  else
    accepted.bind fun peer =>
      (s.rpc.handleAcceptResult pb (shown peer) a.reads a.onConnect).map fun rpc =>
        (NetError.ok, { s with rpc := rpc, connections := s.connections ++ [(s.rpc.lastId, peer)] })

def nothingToAccept : Acceptance Done := ⟨⟨.error .eagain, none⟩, [], []⟩

/-- One turn of `DoAcceptLoop`; `ERR_IO_PENDING` ends the loop as an error does. -/
def acceptOnce (a : Acceptance Done) (watch : Option SystemError) (s : Acceptor Done) :
    Option (Int × Acceptor Done) :=
  (s.server.accept a.answer watch ()).bind fun result =>
    let s := { s with server := result.state }
    if result.rv = NetError.ioPending then some (result.rv, s)
    else s.handleAcceptResult pb shown result.rv result.accepted a

/-- `none` when the process does not survive it, or when it does not ask for all the answers. -/
def doAcceptLoop : List (Acceptance Done) → Option SystemError → Acceptor Done → Option (Acceptor Done)
  | [], watch, s =>
    (s.acceptOnce pb shown nothingToAccept watch).bind fun (rv, s) => if rv = NetError.ok then none else some s
  | a :: rest, watch, s =>
    (s.acceptOnce pb shown a watch).bind fun (rv, s) =>
      if rv = NetError.ok then doAcceptLoop rest watch s else if rest.isEmpty then some s else none

def onAcceptCompleted (s : Acceptor Done) (rv : Int) (accepted : Option IPEndPoint) (a : Acceptance Done)
    (rest : List (Acceptance Done)) (watch : Option SystemError) : Option (Acceptor Done) :=
  (s.handleAcceptResult pb shown rv accepted a).bind fun (rv, s) =>
    if rv = NetError.ok then doAcceptLoop pb shown rest watch s else if rest.isEmpty then some s else none

def step (s : Acceptor Done) : AcceptEvent Done → Option (Acceptor Done)
  | .doAcceptLoop acceptances watch =>
    if s.started then none else doAcceptLoop pb shown acceptances watch { s with started := true }
  | .canRead a rest watch =>
    if s.listening then
      (s.server.canRead a.answer).bind fun (server, result) =>
        match result with
        | none => if rest.isEmpty then some { s with server := server } else none
        | some (rv, accepted) => onAcceptCompleted pb shown { s with server := server } rv accepted a rest watch
    else none
  | .other event => if event.accepts then none else (s.rpc.step pb event).map fun rpc => { s with rpc := rpc }

end Acceptor

def Acceptance.served (shown : IPEndPoint → String) (a : Acceptance Done) : Option (ServerEvent Done) :=
  a.answer.endpoint?.map fun peer => .accepted (shown peer) a.reads a.onConnect

theorem Acceptance.served_connects {shown : IPEndPoint → String} {a : Acceptance Done} {peer : IPEndPoint}
    (known : a.answer.endpoint? = some peer) :
    a.served shown = some (.accepted (shown peer) a.reads a.onConnect) := by
  rw [served, known]
  rfl

theorem Acceptance.served_stops {shown : IPEndPoint → String} {a : Acceptance Done}
    (unknown : a.answer.endpoint? = none) : a.served shown = none := by
  rw [served, unknown]
  rfl

/-- What becomes of an event for the server that has its connections already. -/
def AcceptEvent.served (shown : IPEndPoint → String) : AcceptEvent Done → List (ServerEvent Done)
  | .other event => [event]
  | event => event.acceptances.filterMap (Acceptance.served shown)

namespace Acceptor

variable {pb : Protobuf} {shown : IPEndPoint → String} {s t u : Acceptor Done} {a : Acceptance Done}
  {rest : List (Acceptance Done)} {watch : Option SystemError} {rv : Int}

def Settled (failed : Bool) (s : Acceptor Done) : Prop :=
  if failed then s.listening = false else s.server.Listening

theorem handleAcceptResult_error (error : rv < 0) (accepted : Option IPEndPoint) (a : Acceptance Done)
    (s : Acceptor Done) : s.handleAcceptResult pb shown rv accepted a = some (rv, s) := if_pos error

theorem handleAcceptResult_ok (peer : IPEndPoint) (a : Acceptance Done) (s : Acceptor Done) :
    s.handleAcceptResult pb shown NetError.ok (some peer) a =
      (s.rpc.step pb (.accepted (shown peer) a.reads a.onConnect)).map fun rpc => (NetError.ok,
        { s with rpc := rpc, connections := s.connections ++ [(s.rpc.lastId, peer)] }) := if_neg (by decide)

theorem ne_ok_of_neg (error : rv < 0) : rv ≠ NetError.ok := by
  rintro rfl
  exact absurd error (by decide)

/-- What an answer of `accept` leads to: a new connection has been served and the loop goes on, or it stops. -/
inductive Turned (pb : Protobuf) (shown : IPEndPoint → String) (a : Acceptance Done) (watch : Option SystemError)
    (s : Acceptor Done) : Int → Acceptor Done → Prop where
  | connected {peer : IPEndPoint} {rpc : RpcSocketServer Done} {server : TCPServerSocket Unit}
      (known : a.answer.endpoint? = some peer) (idle : server.Idle)
      (served : s.rpc.step pb (.accepted (shown peer) a.reads a.onConnect) = some rpc) :
      Turned pb shown a watch s NetError.ok
        ⟨server, s.started, rpc, s.connections ++ [(s.rpc.lastId, peer)]⟩
  | stopped {rv : Int} {server : TCPServerSocket Unit} (unknown : a.answer.endpoint? = none) (other : rv ≠ NetError.ok)
      (settled : ({ s with server := server } : Acceptor Done).Settled (a.answer.fails || watch.isSome)) :
      Turned pb shown a watch s rv { s with server := server }

theorem acceptOnce_turned (idle : s.server.Idle) (turned : s.acceptOnce pb shown a watch = some (rv, t)) :
    Turned pb shown a watch s rv t := by
  obtain ⟨result, accepted, handled⟩ := Option.bind_eq_some_iff.mp turned
  cases idle.accept accepted with
  | @connected address server peer busy next =>
    dsimp only at handled
    rw [if_neg (by decide), handleAcceptResult_ok] at handled
    obtain ⟨rpc, served, same⟩ := Option.map_eq_some_iff.mp handled
    cases same
    exact .connected peer next served
  | @waits server nothing watched listening =>
    dsimp only at handled
    rw [if_pos rfl] at handled
    cases handled
    subst watched
    refine .stopped (TCPServerSocket.endpoint_of_waits nothing) (by decide) ?_
    rw [TCPServerSocket.fails_of_waits nothing]
    exact listening
  | @unwatched rv server nothing failed error callback =>
    dsimp only at handled
    rw [handleAcceptResult_error error, ite_self] at handled
    cases handled
    refine .stopped (TCPServerSocket.endpoint_of_waits nothing) (ne_ok_of_neg error) ?_
    rw [failed, Bool.or_true]
    exact callback
  | @failed rv server fails error settled next =>
    dsimp only at handled
    rw [if_neg settled, handleAcceptResult_error error] at handled
    cases handled
    refine .stopped (TCPServerSocket.endpoint_of_fails fails).2 (ne_ok_of_neg error) ?_
    rw [fails, Bool.true_or]
    exact next.watcher

structure Made (peers : List IPEndPoint) (s : Acceptor Done) : Prop where
  consistent : s.rpc.Consistent
  lastId : s.rpc.lastId = peers.length
  connections : s.connections = peers.zipIdx.map fun peer => ((peer.2 : Int), peer.1)

theorem Made.connect {peers : List IPEndPoint} {peer : IPEndPoint} {rpc : RpcSocketServer Done} (made : s.Made peers)
    (served : s.rpc.step pb (.accepted (shown peer) a.reads a.onConnect) = some rpc) (server : TCPServerSocket Unit) :
    Made (peers ++ [peer]) ⟨server, s.started, rpc, s.connections ++ [(s.rpc.lastId, peer)]⟩ := by
  refine ⟨(RpcSocketServer.step_spec made.consistent served).1, ?_, ?_⟩
  · have counted := RpcSocketServer.step_lastId made.consistent served
    simp only [ServerEvent.accepts, if_true, made.lastId] at counted
    simpa using counted
  · simp [made.connections, made.lastId, List.zipIdx_append]

structure Looped (pb : Protobuf) (shown : IPEndPoint → String) (acceptances : List (Acceptance Done))
    (watch : Option SystemError) (s t : Acceptor Done) : Prop where
  started : t.started = s.started
  served : run (RpcSocketServer.step pb) s.rpc (acceptances.filterMap (Acceptance.served shown)) = some t.rpc
  made : ∀ peers, s.Made peers → t.Made (peers ++ acceptances.filterMap fun a => a.answer.endpoint?)
  settled : t.Settled (acceptances.any (fun a => a.answer.fails) || watch.isSome)

theorem Turned.looped (turned : Turned pb shown a watch s rv t)
    (next : t.server.Idle → doAcceptLoop pb shown rest watch t = some u → Looped pb shown rest watch t u)
    (goes : (if rv = NetError.ok then doAcceptLoop pb shown rest watch t
      else if rest.isEmpty then some t else none) = some u) : Looped pb shown (a :: rest) watch s u := by
  cases turned with
  | @connected peer rpc server known idle served =>
    rw [if_pos rfl] at goes
    obtain ⟨started, replayed, made, settled⟩ := next idle goes
    refine ⟨started, ?_, ?_, ?_⟩
    · rw [List.filterMap_cons, Acceptance.served_connects known]
      exact run_cons.mpr ⟨rpc, served, replayed⟩
    · intro peers before
      have later := made _ (before.connect served server)
      rw [List.filterMap_cons, known]
      simpa [List.append_assoc] using later
    · rw [List.any_cons, TCPServerSocket.fails_of_endpoint known, Bool.false_or]
      exact settled
  | @stopped rv server unknown other settled =>
    rw [if_neg other] at goes
    simp only [Option.ite_none_right_eq_some, Option.some.injEq, List.isEmpty_iff] at goes
    obtain ⟨rfl, rfl⟩ := goes
    refine ⟨rfl, ?_, ?_, ?_⟩
    · simp [Acceptance.served_stops unknown, run]
    · intro peers made
      have same : peers ++ [a].filterMap (fun a => a.answer.endpoint?) = peers := by simp [unknown]
      rw [same]
      exact ⟨made.consistent, made.lastId, made.connections⟩
    · rw [List.any_cons, List.any_nil, Bool.or_false]
      exact settled

theorem doAcceptLoop_looped (idle : s.server.Idle) (looped : doAcceptLoop pb shown rest watch s = some t) :
    Looped pb shown rest watch s t := by
  induction rest generalizing s with
  | nil =>
    obtain ⟨⟨rv, u⟩, turned, goes⟩ := Option.bind_eq_some_iff.mp looped
    cases acceptOnce_turned idle turned with
    | connected known => cases known
    | stopped unknown other settled =>
      dsimp only at goes
      rw [if_neg other] at goes
      cases goes
      refine ⟨rfl, rfl, ?_, settled⟩
      intro peers made
      rw [List.filterMap_nil, List.append_nil]
      exact ⟨made.consistent, made.lastId, made.connections⟩
  | cons a rest ih =>
    obtain ⟨⟨rv, u⟩, turned, goes⟩ := Option.bind_eq_some_iff.mp looped
    exact (acceptOnce_turned idle turned).looped ih goes

theorem canRead_looped (listening : s.server.Listening) (stepped : s.step pb shown (.canRead a rest watch) = some t) :
    (a.answer.waits = true ∧ rest = [] ∧ t = s) ∨ (a.answer.waits = false ∧ Looped pb shown (a :: rest) watch s t) := by
  have watched : s.listening = true := listening.watcher
  simp only [step, watched, if_true] at stepped
  obtain ⟨result, told, stepped⟩ := Option.bind_eq_some_iff.mp stepped
  cases listening.canRead told with
  | waits nothing =>
    simp only [Option.ite_none_right_eq_some, Option.some.injEq, List.isEmpty_iff] at stepped
    obtain ⟨none, rfl⟩ := stepped
    exact .inl ⟨nothing, none, rfl⟩
  | @connected address server peer busy idle =>
    obtain ⟨⟨rv, u⟩, handled, goes⟩ := Option.bind_eq_some_iff.mp stepped
    rw [handleAcceptResult_ok] at handled
    obtain ⟨rpc, served, same⟩ := Option.map_eq_some_iff.mp handled
    cases same
    exact .inr ⟨busy, Turned.looped (.connected peer idle served) doAcceptLoop_looped goes⟩
  | @failed rv server fails error idle =>
    obtain ⟨⟨rv, u⟩, handled, goes⟩ := Option.bind_eq_some_iff.mp stepped
    rw [handleAcceptResult_error error] at handled
    cases handled
    obtain ⟨busy, silent⟩ := TCPServerSocket.endpoint_of_fails fails
    refine .inr ⟨busy, Turned.looped (.stopped silent (ne_ok_of_neg error) ?_) doAcceptLoop_looped goes⟩
    rw [fails, Bool.true_or]
    exact idle.watcher

structure Accepts (pb : Protobuf) (shown : IPEndPoint → String) (past : List (AcceptEvent Done)) (s : Acceptor Done) :
    Prop where
  started : s.started = past.any AcceptEvent.starts
  served : run (RpcSocketServer.step pb) .new (past.flatMap (AcceptEvent.served shown)) = some s.rpc
  made : s.Made (past.flatMap AcceptEvent.peers)
  settled : if s.started then s.Settled (past.any AcceptEvent.fails)
    else s.server.Idle ∧ past.any AcceptEvent.fails = false

theorem new_accepts (fd : Nat) : (new fd).Accepts pb shown ([] : List (AcceptEvent Done)) :=
  ⟨rfl, rfl, ⟨RpcSocketServer.new_consistent, rfl, rfl⟩, ⟨rfl, rfl, rfl, rfl⟩, rfl⟩

variable {past : List (AcceptEvent Done)} {event : AcceptEvent Done}

theorem Accepts.listening_iff (accepts : s.Accepts pb shown past) :
    s.listening = true ↔ s.started = true ∧ past.any AcceptEvent.fails = false := by
  have settled := accepts.settled
  cases started : s.started with
  | false =>
    rw [if_neg (by simp [started])] at settled
    have silent : s.listening = false := settled.1.watcher
    simp [silent]
  | true =>
    rw [if_pos started, Settled] at settled
    cases failed : past.any AcceptEvent.fails with
    | false =>
      rw [if_neg (by simp [failed])] at settled
      have watched : s.listening = true := settled.watcher
      simp [watched]
    | true =>
      rw [if_pos failed] at settled
      simp [settled]

theorem Accepts.server (accepts : s.Accepts pb shown past) (listening : s.listening = true) : s.server.Listening := by
  obtain ⟨started, fine⟩ := accepts.listening_iff.mp listening
  have settled := accepts.settled
  rw [if_pos started, Settled, fine] at settled
  exact settled

theorem Accepts.later (accepts : s.Accepts pb shown past) (started : t.started = (s.started || event.starts))
    (served : run (RpcSocketServer.step pb) s.rpc (event.served shown) = some t.rpc)
    (made : t.Made (past.flatMap AcceptEvent.peers ++ event.peers))
    (settled : if t.started then t.Settled (past.any AcceptEvent.fails || event.fails)
      else t.server.Idle ∧ (past.any AcceptEvent.fails || event.fails) = false) :
    t.Accepts pb shown (past ++ [event]) := by
  refine ⟨?_, ?_, ?_, ?_⟩
  · rw [started, accepts.started, List.any_append]
    simp
  · rw [List.flatMap_append]
    exact run_append.mpr ⟨s.rpc, accepts.served, by simpa using served⟩
  · simpa [List.flatMap_append] using made
  · simpa [List.any_append] using settled

theorem Accepts.step (accepts : s.Accepts pb shown past) (stepped : s.step pb shown event = some t) :
    t.Accepts pb shown (past ++ [event]) := by
  cases event with
  | doAcceptLoop acceptances watch =>
    simp only [Acceptor.step, Option.ite_none_left_eq_some] at stepped
    obtain ⟨fresh, looped⟩ := stepped
    have settled := accepts.settled
    rw [if_neg fresh] at settled
    have looped := doAcceptLoop_looped (s := { s with started := true }) settled.1 looped
    have started : t.started = true := looped.started
    apply accepts.later
    · rw [started]
      simp [AcceptEvent.starts]
    · exact looped.served
    · exact looped.made _ ⟨accepts.made.consistent, accepts.made.lastId, accepts.made.connections⟩
    · rw [if_pos started, settled.2, Bool.false_or]
      exact looped.settled
  | canRead a rest watch =>
    have listening : s.listening = true := by
      simp only [Acceptor.step, Option.ite_none_right_eq_some] at stepped
      exact stepped.1
    obtain ⟨started, fine⟩ := accepts.listening_iff.mp listening
    have standing := accepts.server listening
    rcases canRead_looped standing stepped with ⟨nothing, rfl, rfl⟩ | ⟨busy, looped⟩
    · have unknown := TCPServerSocket.endpoint_of_waits nothing
      apply accepts.later
      · simp [AcceptEvent.starts]
      · simp [AcceptEvent.served, AcceptEvent.acceptances, Acceptance.served, unknown, run]
      · simpa [AcceptEvent.peers, AcceptEvent.acceptances, unknown] using accepts.made
      · rw [if_pos started, fine]
        simpa [AcceptEvent.fails, nothing, Settled] using standing
    · have same : t.started = true := looped.started.trans started
      apply accepts.later
      · rw [same, started, Bool.true_or]
      · exact looped.served
      · exact looped.made _ accepts.made
      · rw [if_pos same, fine, AcceptEvent.fails, busy, Bool.false_or, Bool.not_false, Bool.true_and]
        exact looped.settled
  | other event =>
    simp only [Acceptor.step, Option.ite_none_left_eq_some] at stepped
    obtain ⟨quiet, stepped⟩ := stepped
    obtain ⟨rpc, served, rfl⟩ := Option.map_eq_some_iff.mp stepped
    have consistent := accepts.made.consistent
    have counted := RpcSocketServer.step_lastId consistent served
    rw [if_neg quiet] at counted
    apply accepts.later
    · simp [AcceptEvent.starts]
    · exact run_cons.mpr ⟨rpc, served, rfl⟩
    · have kept : s.Made (past.flatMap AcceptEvent.peers ++ []) := by simpa using accepts.made
      exact ⟨(RpcSocketServer.step_spec consistent served).1, counted.trans kept.lastId, kept.connections⟩
    · rw [AcceptEvent.fails, Bool.or_false]
      exact accepts.settled

/-- The answers are those that the calls get: all but the last make a connection, and a call that fails sets
    `errno`. -/
def Fits : List (Acceptance Done) → Prop
  | [] => True
  | a :: rest => a.answer.accepted ≠ .error .success ∧ (a.answer.endpoint? = none → rest = []) ∧ Fits rest

theorem handleAcceptResult_isSome {peer : IPEndPoint}
    (served : (s.rpc.step pb (.accepted (shown peer) a.reads a.onConnect)).isSome = true) :
    (s.handleAcceptResult pb shown NetError.ok (some peer) a).isSome = true := by
  rw [handleAcceptResult_ok, Option.isSome_map]
  exact served

theorem acceptOnce_isSome (idle : s.server.Idle) (set : a.answer.accepted ≠ .error .success)
    (told : watch ≠ some .success)
    (served : ∀ event, a.served shown = some event → (s.rpc.step pb event).isSome = true) :
    (s.acceptOnce pb shown a watch).isSome = true := by
  obtain ⟨result, accepted⟩ := Option.isSome_iff_exists.mp (idle.accept_isSome set told)
  rw [acceptOnce, accepted, Option.bind_some]
  cases idle.accept accepted with
  | @connected peer server known busy next =>
    dsimp only
    rw [if_neg (by decide)]
    apply handleAcceptResult_isSome
    exact served _ (Acceptance.served_connects known)
  | waits nothing watched listening =>
    rw [if_pos rfl]
    rfl
  | unwatched nothing failed error callback =>
    dsimp only
    rw [handleAcceptResult_error error, ite_self]
    rfl
  | failed fails error settled next =>
    dsimp only
    rw [handleAcceptResult_error error, ite_self]
    rfl

theorem Turned.goes_isSome (turned : Turned pb shown a watch s rv t) (fits : Fits (a :: rest))
    (next : t.server.Idle → (run (RpcSocketServer.step pb) t.rpc (rest.filterMap (Acceptance.served shown))).isSome →
      (doAcceptLoop pb shown rest watch t).isSome = true)
    (served : (run (RpcSocketServer.step pb) s.rpc ((a :: rest).filterMap (Acceptance.served shown))).isSome) :
    (if rv = NetError.ok then doAcceptLoop pb shown rest watch t
      else if rest.isEmpty then some t else none).isSome = true := by
  cases turned with
  | @connected peer rpc server known idle first =>
    rw [List.filterMap_cons, Acceptance.served_connects known] at served
    rw [if_pos rfl]
    apply next idle
    simpa only [run, first, Option.bind_some] using served
  | stopped unknown other settled => simp [other, fits.2.1 unknown]

theorem first_served (served : (run (RpcSocketServer.step pb) s.rpc
    ((a :: rest).filterMap (Acceptance.served shown))).isSome) (event : ServerEvent Done)
    (same : a.served shown = some event) : (s.rpc.step pb event).isSome = true := by
  obtain ⟨u, replay⟩ := Option.isSome_iff_exists.mp served
  rw [List.filterMap_cons, same] at replay
  obtain ⟨v, stepped, _⟩ := run_cons.mp replay
  rw [stepped]
  rfl

theorem doAcceptLoop_isSome (idle : s.server.Idle) (fits : Fits rest) (told : watch ≠ some .success)
    (served : (run (RpcSocketServer.step pb) s.rpc (rest.filterMap (Acceptance.served shown))).isSome) :
    (doAcceptLoop pb shown rest watch s).isSome = true := by
  induction rest generalizing s with
  | nil =>
    have set : (nothingToAccept : Acceptance Done).answer.accepted ≠ .error .success := by simp [nothingToAccept]
    have called : (s.acceptOnce pb shown nothingToAccept watch).isSome = true :=
      acceptOnce_isSome idle set told fun _ same => by cases same
    obtain ⟨⟨rv, t⟩, turned⟩ := Option.isSome_iff_exists.mp called
    rw [doAcceptLoop, turned, Option.bind_some]
    cases acceptOnce_turned idle turned with
    | connected known => cases known
    | stopped unknown other settled => simp [other]
  | cons a rest ih =>
    obtain ⟨⟨rv, t⟩, turned⟩ := Option.isSome_iff_exists.mp
      (acceptOnce_isSome idle fits.1 told (first_served served))
    rw [doAcceptLoop, turned, Option.bind_some]
    exact (acceptOnce_turned idle turned).goes_isSome fits (fun next => ih next fits.2.2) served

theorem canRead_isSome (listening : s.server.Listening) (fits : Fits (a :: rest)) (told : watch ≠ some .success)
    (served : (run (RpcSocketServer.step pb) s.rpc ((a :: rest).filterMap (Acceptance.served shown))).isSome) :
    (s.step pb shown (.canRead a rest watch)).isSome = true := by
  have watched : s.listening = true := listening.watcher
  obtain ⟨result, answered⟩ := Option.isSome_iff_exists.mp (listening.canRead_isSome fits.1)
  simp only [step, watched, if_true, answered, Option.bind_some]
  cases listening.canRead answered with
  | waits nothing => simp [fits.2.1 (TCPServerSocket.endpoint_of_waits nothing)]
  | @connected peer server known busy idle =>
    obtain ⟨rpc, first⟩ := Option.isSome_iff_exists.mp (first_served served _ (Acceptance.served_connects known))
    have turned : Turned pb shown a watch s _ _ := .connected known idle first
    have goes := turned.goes_isSome fits (fun next => doAcceptLoop_isSome next fits.2.2 told) served
    simpa only [onAcceptCompleted, handleAcceptResult_ok, first, Option.map_some, Option.bind_some] using goes
  | @failed rv server fails error idle =>
    have silent := (TCPServerSocket.endpoint_of_fails fails).2
    simp [onAcceptCompleted, handleAcceptResult_error error, ne_ok_of_neg error, fits.2.1 silent]

end Acceptor

namespace AcceptEvent

def Awaited (s : Acceptor Done) : AcceptEvent Done → Prop
  | .doAcceptLoop acceptances watch => s.started = false ∧ Acceptor.Fits acceptances ∧ watch ≠ some .success
  | .canRead a rest watch => s.listening = true ∧ Acceptor.Fits (a :: rest) ∧ watch ≠ some .success
  | .other event => event.accepts = false

end AcceptEvent

namespace Acceptor

variable {pb : Protobuf} {shown : IPEndPoint → String} {s t : Acceptor Done} {past : List (AcceptEvent Done)}
  {event : AcceptEvent Done}

theorem Accepts.step_isSome (accepts : s.Accepts pb shown past) (awaited : event.Awaited s)
    (served : (run (RpcSocketServer.step pb) s.rpc (event.served shown)).isSome = true) :
    (s.step pb shown event).isSome = true := by
  cases event with
  | doAcceptLoop acceptances watch =>
    obtain ⟨fresh, fits, told⟩ := awaited
    have settled := accepts.settled
    rw [if_neg (by simp [fresh])] at settled
    rw [Acceptor.step, if_neg (by simp [fresh])]
    exact doAcceptLoop_isSome settled.1 fits told served
  | canRead a rest watch =>
    obtain ⟨listening, fits, told⟩ := awaited
    exact canRead_isSome (accepts.server listening) fits told served
  | other event =>
    rw [Acceptor.step, if_neg (by simp [show event.accepts = false from awaited]), Option.isSome_map]
    obtain ⟨rpc, replay⟩ := Option.isSome_iff_exists.mp served
    obtain ⟨u, stepped, _⟩ := run_cons.mp replay
    rw [stepped]
    rfl

theorem Accepts.served_of_step (accepts : s.Accepts pb shown past) (stepped : s.step pb shown event = some t) :
    run (RpcSocketServer.step pb) s.rpc (event.served shown) = some t.rpc := by
  have later := (accepts.step stepped).served
  rw [List.flatMap_append] at later
  obtain ⟨rpc, before, after⟩ := run_append.mp later
  rw [accepts.served] at before
  cases before
  simpa using after

/-- In every run of the server with its listening socket, whatever `accept` answers: it makes a connection for each
    peer that it can accept, in order, with the ids from 0 on, and serves it with `DoReadLoop` and then `OnConnect`
    before it accepts the next one, so that the connections see a run of the server that is handed its sockets. It
    listens as long as no accept has failed and the message loop could watch the socket, and never again after that.
    What it waits for goes through exactly when the server gets through its part of it: the accept sockets fail no
    check, whatever `accept` answers. -/
theorem accepts_until_failure (fd : Nat) {events : List (AcceptEvent Done)}
    (replay : run (step pb shown) (new fd) events = some s) :
    s.connections = (events.flatMap AcceptEvent.peers).zipIdx.map (fun peer => ((peer.2 : Int), peer.1)) ∧
      run (RpcSocketServer.step pb) .new (events.flatMap (AcceptEvent.served shown)) = some s.rpc ∧
      (s.listening = true ↔ events.any AcceptEvent.starts = true ∧ ∀ event ∈ events, event.fails = false) ∧
      ∀ event : AcceptEvent Done, event.Awaited s → ((s.step pb shown event).isSome = true ↔
        (run (RpcSocketServer.step pb) s.rpc (event.served shown)).isSome = true) := by
  have accepts : s.Accepts pb shown ([] ++ events) :=
    run_history_along (fun _ _ _ _ accepts (_ : True) => Accepts.step accepts) (new_accepts fd)
      (along_of_forall (fun _ _ _ => trivial) _) replay
  rw [List.nil_append] at accepts
  refine ⟨accepts.made.connections, accepts.served, ?_, ?_⟩
  · rw [accepts.listening_iff, accepts.started, List.any_eq_false]
    simp
  · intro event awaited
    refine ⟨?_, accepts.step_isSome awaited⟩
    intro goes
    obtain ⟨t, stepped⟩ := Option.isSome_iff_exists.mp goes
    rw [accepts.served_of_step stepped]
    rfl

def slavePeer : SockaddrStorage := [2, 0, 0x13, 0x88, 10, 0, 0, 2, 0, 0, 0, 0, 0, 0, 0, 0]

/-- A slave connects and is asked for its system info, another one is gone before it is accepted, and then there are
    no descriptors left. -/
def exhausted : List (AcceptEvent Unit) :=
  [.doAcceptLoop [] none,
    .canRead ⟨⟨.ok (4, slavePeer), none⟩, [], [⟨0, .callMethod [115] [109] [] none, [-1]⟩]⟩ [] none,
    .canRead ⟨⟨.error .econnaborted, none⟩, [], []⟩ [] none, .other (.writeCompleted 0 12 []),
    .canRead ⟨⟨.error .emfile, none⟩, [], []⟩ [] none]

theorem accepts_until_failure_exhausted :
    ∃ s, run (step wireFormat fun _ => "10.0.0.2") (new 3) exhausted = some s ∧
      s.connections = [(0, ⟨[10, 0, 0, 2], 5000⟩)] ∧
      s.connections = (exhausted.flatMap AcceptEvent.peers).zipIdx.map (fun peer => ((peer.2 : Int), peer.1)) ∧
      run (RpcSocketServer.step wireFormat) .new (exhausted.flatMap (AcceptEvent.served fun _ => "10.0.0.2")) =
        some s.rpc ∧
      (s.listening = true ↔ exhausted.any AcceptEvent.starts = true ∧ ∀ event ∈ exhausted, event.fails = false) ∧
      ∀ event : AcceptEvent Unit, event.Awaited s →
        ((s.step wireFormat (fun _ => "10.0.0.2") event).isSome = true ↔
          (run (RpcSocketServer.step wireFormat) s.rpc (event.served fun _ => "10.0.0.2")).isSome = true) := by
  have played : (run (step wireFormat fun _ => "10.0.0.2") (new 3) exhausted).map (fun s => s.connections) =
      some [(0, ⟨[10, 0, 0, 2], 5000⟩)] := by
    decide +kernel
  obtain ⟨s, replay, connections⟩ := Option.map_eq_some_iff.mp played
  exact ⟨s, replay, connections, accepts_until_failure 3 replay⟩

end Acceptor

end DistributedNinja.Rpc
