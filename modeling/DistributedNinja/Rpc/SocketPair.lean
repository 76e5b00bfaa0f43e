import DistributedNinja.Rpc.SocketRefinement

namespace DistributedNinja.Rpc

open Lib Net

/-- One end of a connection over its socket. As in `OverSocket`, the two flags of the connection in `side` stay
    unset. -/
structure SocketEnd where
  side : End
  socket : SocketLibevent Completion

/-- What happens at one end, and what the system answers: a read gives that many bytes of those on the wire, or as
    many as there are. -/
inductive SocketEndEvent where
  | registered (service : List UInt8) (methods : List (List UInt8))
  | unregistered (service : List UInt8)
  | called (service method request : List UInt8) (done : Option Unit) (writes : List WriteCall)
  | serviceDone (place : Nat) (response : List UInt8) (writes : List WriteCall)
  | canRead (accepts : AcceptAnswer) (reads : Except SystemError Nat)
  | canWrite (connects : SystemError) (write : Except SystemError Nat) (writes : List WriteCall)
  | read (reads : Except SystemError Nat) (watch : Option SystemError)
  | noRoom
  | pass
  | returned

namespace SocketEnd

open OverSocket Endpoint

variable {pb : Protobuf}

def overSocket (x : SocketEnd) : OverSocket := ⟨x.side.endpoint, x.socket⟩

def shown (x : SocketEnd) : End := { x.side with endpoint := x.overSocket.shown }

def put (x : SocketEnd) (o : OverSocket) : SocketEnd := ⟨{ x.side with endpoint := o.endpoint }, o.socket⟩

def wrote (x : SocketEnd) (bytes : List UInt8) : SocketEnd :=
  { x with side := { x.side with wire := x.side.wire ++ bytes } }

/-- What a read of the other end is given of what is on the wire. -/
def arrived (x : SocketEnd) (reads : Except SystemError Nat) : Except SystemError (List UInt8) :=
  reads.map x.side.wire.take

def taken (x : SocketEnd) (reads : Except SystemError Nat) : SocketEnd :=
  { x with side := { x.side with wire := x.side.wire.drop (bytesRead (x.arrived reads)).length } }

def call (pb : Protobuf) (x : SocketEnd) (request : Call Unit) (writes : List WriteCall) (made : RpcMessage → Sent) :
    Option SocketEnd :=
  let named := x.side.endpoint.named request
  let m := x.side.endpoint.connection.message named
  if (pb.serializeAsString m).length < kMaxMessageSize then
    (RpcConnection.transmit (writes.map WriteCall.answer) (x.side.endpoint.connection.enqueue pb named).writeBuf).bind
      fun bytes => (x.overSocket.step pb (.called request writes)).map fun o =>
        { x.put o with
          side := { x.side with
            endpoint := o.endpoint
            wire := x.side.wire ++ bytes
            sent := if x.side.endpoint.connection.accepts pb named then x.side.sent ++ [made m] else x.side.sent } }
  else none

def step (pb : Protobuf) (x y : SocketEnd) : SocketEndEvent → Option (SocketEnd × SocketEnd)
  | .registered service methods =>
    (x.side.step pb y.side (.registered service methods)).map fun result => ({ x with side := result.1 }, y)
  | .unregistered service =>
    (x.side.step pb y.side (.unregistered service)).map fun result => ({ x with side := result.1 }, y)
  | .called service method request done writes =>
    (x.call pb (.callMethod service method request done) writes (.request x.side.endpoint.calls)).map (·, y)
  | .serviceDone place response writes =>
    if place ∈ x.side.waiting then
      x.side.inbox[place]?.bind fun m =>
        (call pb { x with side := { x.side with waiting := x.side.waiting.erase place } }
          (.onServiceDone m.id m.service m.method response) writes (.answer place)).map (·, y)
    else none
  | .canRead accepts reads =>
    (x.overSocket.step pb (.canRead accepts (y.arrived reads))).map fun o => (x.put o, y.taken reads)
  | .canWrite connects write writes =>
    (RpcConnection.transmitCompleted (SocketLibevent.transferred write) (writes.map WriteCall.answer)
      x.side.endpoint.connection.writeBuf).bind fun bytes =>
        (x.overSocket.step pb (.canWrite connects write writes)).map fun o => ((x.put o).wrote bytes, y)
  | .read reads watch =>
    (x.overSocket.step pb (.read (y.arrived reads) watch)).map fun o => (x.put o, y.taken reads)
  | .noRoom => (x.overSocket.step pb .noRoom).map fun o => (x.put o, y)
  | .pass =>
    (x.overSocket.step pb .pass).map fun o =>
      ({ side := x.side.took o.endpoint (x.side.endpoint.nextMessage pb), socket := o.socket }, y)
  | .returned => (x.overSocket.step pb .returned).map fun o => (x.put o, y)

def watched : SocketEndEvent → Prop
  | .called _ _ _ _ writes | .serviceDone _ _ writes | .canWrite _ _ writes =>
    ∀ call ∈ writes, call.watch ≠ some .eagain
  | .read _ watch => watch ≠ some .eagain
  | _ => True

variable {x y z w : SocketEnd} {o : OverSocket}

structure Moves (pb : Protobuf) (x y z w : SocketEnd) : Prop where
  backed : Backed pb z.overSocket
  other : w.overSocket = y.overSocket
  moves : (z.shown = x.shown ∧ w.shown = y.shown) ∨
    ∃ event, x.shown.step pb y.shown event = some (z.shown, w.shown)

theorem shown_put (x : SocketEnd) (o : OverSocket) : (x.put o).shown = { x.shown with endpoint := o.shown } := rfl

theorem view_message (s : SocketLibevent Completion) (e : Endpoint) (request : Call Response) :
    (view s e).connection.message request = e.connection.message request := by
  cases request <;> rfl

theorem call_shown {request : Call Unit} {writes : List WriteCall} {made : RpcMessage → Sent}
    (backed : Backed pb x.overSocket) (watches : ∀ call ∈ writes, call.watch ≠ some .eagain)
    (called : x.call pb request writes made = some z) :
    Backed pb z.overSocket ∧ ∃ answers, x.shown.call pb request answers made = some z.shown := by
  simp only [call, Option.ite_none_right_eq_some] at called
  obtain ⟨size, called⟩ := called
  obtain ⟨bytes, given, called⟩ := Option.bind_eq_some_iff.mp called
  obtain ⟨o, stepped, rfl⟩ := Option.map_eq_some_iff.mp called
  obtain ⟨after, becomes⟩ := step_called backed watches stepped
  have named : x.shown.endpoint.named request = x.side.endpoint.named request := view_named request
  have message : ∀ r, x.shown.endpoint.connection.message r = x.side.endpoint.connection.message r :=
    view_message x.socket x.side.endpoint
  have accepts : x.shown.endpoint.connection.accepts pb (x.side.endpoint.named request) =
      x.side.endpoint.connection.accepts pb (x.side.endpoint.named request) := by
    unfold RpcConnection.accepts
    rw [message]
    rfl
  have buffer : (x.shown.endpoint.connection.enqueue pb (x.side.endpoint.named request)).writeBuf =
      (x.side.endpoint.connection.enqueue pb (x.side.endpoint.named request)).writeBuf := by
    rw [enqueue_writeBuf, enqueue_writeBuf, message]
    rfl
  cases becomes with
  | @called _ _ answers taken sent given' moved =>
    have same : bytes = taken := Option.some.inj (given.symm.trans given')
    subst same
    refine ⟨after, answers, ?_⟩
    unfold End.call
    dsimp only
    rw [named, message, if_pos size, buffer, accepts]
    change RpcConnection.transmit answers
      (x.side.endpoint.connection.enqueue pb (x.side.endpoint.named request)).writeBuf = some bytes at sent
    rw [sent, Option.bind_some]
    show (x.overSocket.shown.step pb (.called request answers)).map _ = _
    rw [moved]
    rfl

theorem nothing_taken (x : SocketEnd) {reads : Except SystemError Nat} (nothing : bytesRead (x.arrived reads) = []) :
    x.taken reads = x := by
  unfold taken
  rw [nothing]
  rfl

theorem arrived_length (x : SocketEnd) (reads : Except SystemError Nat) :
    (bytesRead (x.arrived reads)).length =
      (SocketLibevent.transferred ((x.arrived reads).map List.length)).toNat := by
  cases reads with
  | error error => exact (Int.toNat_of_nonpos (mapSystemError_nonpos error)).symm
  | ok count => rfl

theorem arrived_front (x : SocketEnd) (reads : Except SystemError Nat) :
    bytesRead (x.arrived reads) =
      x.side.wire.take (SocketLibevent.transferred ((x.arrived reads).map List.length)).toNat := by
  rw [← arrived_length]
  cases reads with
  | error error => rfl
  | ok count =>
    show x.side.wire.take count = x.side.wire.take (x.side.wire.take count).length
    rw [List.length_take, ← List.take_eq_take_min]

theorem taken_shown (x : SocketEnd) (reads : Except SystemError Nat) :
    (x.taken reads).shown = { x.shown with
      wire := x.side.wire.drop (SocketLibevent.transferred ((x.arrived reads).map List.length)).toNat } := by
  rw [← arrived_length]
  rfl

theorem took_shown (x : SocketEnd) (o : OverSocket) (m : Option RpcMessage) :
    (overSocket { side := x.side.took o.endpoint m, socket := o.socket } = o) ∧
      shown { side := x.side.took o.endpoint m, socket := o.socket } = x.shown.took o.shown m := by
  cases m <;> exact ⟨rfl, rfl⟩

theorem step_moves {event : SocketEndEvent} (backed : Backed pb x.overSocket) (watches : watched event)
    (stepped : x.step pb y event = some (z, w)) : Moves pb x y z w := by
  cases event with
  | registered service methods =>
    obtain ⟨⟨a, b⟩, registered, same⟩ := Option.map_eq_some_iff.mp stepped
    cases same
    simp only [End.step, Option.ite_none_right_eq_some] at registered
    obtain ⟨free, registered⟩ := registered
    cases registered
    exact ⟨backed, rfl, .inr ⟨.registered service methods, if_pos free⟩⟩
  | unregistered service =>
    obtain ⟨⟨a, b⟩, unregistered, same⟩ := Option.map_eq_some_iff.mp stepped
    cases same
    simp only [End.step] at unregistered
    split at unregistered
    · cases unregistered
    · rename_i taken
      cases unregistered
      exact ⟨backed, rfl, .inr ⟨.unregistered service, if_neg taken⟩⟩
  | called service method request done writes =>
    obtain ⟨z, called, same⟩ := Option.map_eq_some_iff.mp stepped
    cases same
    obtain ⟨after, answers, shown⟩ := call_shown backed watches called
    refine ⟨after, rfl, .inr ⟨.called service method request done answers, ?_⟩⟩
    exact Option.map_eq_some_iff.mpr ⟨_, shown, rfl⟩
  | serviceDone place response writes =>
    simp only [step, Option.ite_none_right_eq_some] at stepped
    obtain ⟨waits, stepped⟩ := stepped
    obtain ⟨m, at_, stepped⟩ := Option.bind_eq_some_iff.mp stepped
    obtain ⟨z, called, same⟩ := Option.map_eq_some_iff.mp stepped
    cases same
    obtain ⟨after, answers, shown⟩ :=
      call_shown (x := { x with side := { x.side with waiting := x.side.waiting.erase place } }) backed watches called
    refine ⟨after, rfl, .inr ⟨.serviceDone place response answers, ?_⟩⟩
    simp only [End.step, Option.ite_none_right_eq_some]
    refine ⟨waits, Option.bind_eq_some_iff.mpr ⟨m, at_, Option.map_eq_some_iff.mpr ⟨_, shown, rfl⟩⟩⟩
  | canRead accepts reads =>
    obtain ⟨o, told, same⟩ := Option.map_eq_some_iff.mp stepped
    cases same
    obtain ⟨after, becomes⟩ := step_canRead backed told
    cases becomes with
    | waitsRead nothing same =>
      rw [nothing_taken y nothing]
      refine ⟨after, rfl, .inl ⟨?_, rfl⟩⟩
      rw [shown_put, same]
      rfl
    | readDone moved =>
      rw [arrived_front] at moved
      refine ⟨after, rfl, .inr ⟨.readCompleted _, Option.map_eq_some_iff.mpr ⟨_, moved, ?_⟩⟩⟩
      rw [taken_shown]
      rfl
  | canWrite connects write writes =>
    obtain ⟨bytes, given, stepped⟩ := Option.bind_eq_some_iff.mp stepped
    obtain ⟨o, told, same⟩ := Option.map_eq_some_iff.mp stepped
    cases same
    obtain ⟨after, becomes⟩ := step_canWrite backed watches told
    cases becomes with
    | waitsWrite nothing same =>
      rw [RpcConnection.transmitCompleted, if_pos nothing] at given
      cases given
      refine ⟨after, rfl, .inl ⟨?_, rfl⟩⟩
      show { x.shown with endpoint := o.shown, wire := x.side.wire ++ [] } = x.shown
      rw [same, List.append_nil]
      rfl
    | wrote sent given' moved =>
      have same := Option.some.inj (given.symm.trans given')
      subst same
      refine ⟨after, rfl, .inr ⟨.writeCompleted _ _, Option.bind_eq_some_iff.mpr ⟨bytes, sent, ?_⟩⟩⟩
      exact Option.map_eq_some_iff.mpr ⟨_, moved, rfl⟩
  | read reads watch =>
    obtain ⟨o, told, same⟩ := Option.map_eq_some_iff.mp stepped
    cases same
    obtain ⟨after, becomes⟩ := step_read backed watches told
    cases becomes with
    | @readNothing _ _ rv nonpositive nothing moved =>
      rw [nothing_taken y nothing]
      have none : rv.toNat = 0 := Int.toNat_of_nonpos nonpositive
      refine ⟨after, rfl, .inr ⟨.read rv, ?_⟩⟩
      simp only [End.step, none, List.take_zero, List.drop_zero]
      exact Option.map_eq_some_iff.mpr ⟨_, moved, rfl⟩
    | read moved =>
      rw [arrived_front] at moved
      refine ⟨after, rfl, .inr ⟨.read _, Option.map_eq_some_iff.mpr ⟨_, moved, ?_⟩⟩⟩
      rw [taken_shown]
      rfl
  | noRoom =>
    obtain ⟨o, left, same⟩ := Option.map_eq_some_iff.mp stepped
    cases same
    obtain ⟨after, moved⟩ := step_unasked backed .noRoom trivial (view_noRoom pb) left
    exact ⟨after, rfl, .inr ⟨.noRoom, Option.map_eq_some_iff.mpr ⟨_, moved, rfl⟩⟩⟩
  | pass =>
    obtain ⟨o, passed, same⟩ := Option.map_eq_some_iff.mp stepped
    cases same
    obtain ⟨after, moved⟩ := step_unasked backed .pass trivial (view_pass pb) passed
    obtain ⟨carried, shown⟩ := took_shown x o (x.side.endpoint.nextMessage pb)
    refine ⟨?_, rfl, .inr ⟨.pass, Option.map_eq_some_iff.mpr ⟨_, moved, ?_⟩⟩⟩
    · rw [carried]
      exact after
    · rw [shown]
      rfl
  | returned =>
    obtain ⟨o, returned, same⟩ := Option.map_eq_some_iff.mp stepped
    cases same
    obtain ⟨after, moved⟩ := step_unasked backed .returned trivial (view_returned pb) returned
    exact ⟨after, rfl, .inr ⟨.returned, Option.map_eq_some_iff.mpr ⟨_, moved, rfl⟩⟩⟩

def new (id : Int) (peerAddress : String) (fd : Nat) (peer : SockaddrStorage) : SocketEnd :=
  ⟨.new id peerAddress, ready fd peer⟩

end SocketEnd

structure SocketPair where
  near : SocketEnd
  far : SocketEnd

inductive SocketPairEvent where
  | near (event : SocketEndEvent)
  | far (event : SocketEndEvent)

def SocketPairEvent.watched : SocketPairEvent → Prop
  | .near event | .far event => SocketEnd.watched event

namespace SocketPair

open OverSocket

variable {pb : Protobuf} {p q : SocketPair} {event : SocketPairEvent}

def step (pb : Protobuf) (p : SocketPair) : SocketPairEvent → Option SocketPair
  | .near event => (p.near.step pb p.far event).map fun (near, far) => ⟨near, far⟩
  | .far event => (p.far.step pb p.near event).map fun (far, near) => ⟨near, far⟩

def shown (p : SocketPair) : Pair := ⟨p.near.shown, p.far.shown⟩

structure Backed (pb : Protobuf) (p : SocketPair) : Prop where
  near : OverSocket.Backed pb p.near.overSocket
  far : OverSocket.Backed pb p.far.overSocket

theorem step_moves (backed : Backed pb p) (watches : event.watched) (stepped : p.step pb event = some q) :
    Backed pb q ∧ (q.shown = p.shown ∨ ∃ event, True ∧ p.shown.step pb event = some q.shown) := by
  cases event with
  | near event =>
    obtain ⟨⟨near, far⟩, taken, rfl⟩ := Option.map_eq_some_iff.mp stepped
    obtain ⟨after, other, moves⟩ := SocketEnd.step_moves backed.near watches taken
    refine ⟨⟨after, ?_⟩, ?_⟩
    · rw [other]
      exact backed.far
    · rcases moves with ⟨same, still⟩ | ⟨event, moved⟩
      · exact .inl (congrArg₂ Pair.mk same still)
      · exact .inr ⟨.near event, trivial, Option.map_eq_some_iff.mpr ⟨_, moved, rfl⟩⟩
  | far event =>
    obtain ⟨⟨far, near⟩, taken, rfl⟩ := Option.map_eq_some_iff.mp stepped
    obtain ⟨after, other, moves⟩ := SocketEnd.step_moves backed.far watches taken
    refine ⟨⟨?_, after⟩, ?_⟩
    · rw [other]
      exact backed.near
    · rcases moves with ⟨same, still⟩ | ⟨event, moved⟩
      · exact .inl (congrArg₂ Pair.mk still same)
      · exact .inr ⟨.far event, trivial, Option.map_eq_some_iff.mpr ⟨_, moved, rfl⟩⟩

def new (nearId farId : Int) (nearAddress farAddress : String) (nearFd farFd : Nat)
    (nearPeer farPeer : SockaddrStorage) : SocketPair :=
  ⟨.new nearId farAddress nearFd nearPeer, .new farId nearAddress farFd farPeer⟩

/-- Two connections over their sockets, whatever the system answers and in every order of their steps, are two ends as
    `Pair` has them: what one end sends is delivered to the other. That a call gets the answer to its own request is
    said of an end that has made no more than 2^32 calls. -/
theorem refines_pair {nearId farId : Int} {nearAddress farAddress : String} {nearFd farFd : Nat}
    {nearPeer farPeer : SockaddrStorage} {events : List SocketPairEvent}
    (watches : ∀ event ∈ events, event.watched)
    (replay : run (step pb) (new nearId farId nearAddress farAddress nearFd farFd nearPeer farPeer) events = some p) :
    (∃ seen, run (Pair.step pb) (.new nearId farId nearAddress farAddress) seen = some p.shown) ∧
      p.near.shown.Delivered pb p.far.shown ∧ p.far.shown.Delivered pb p.near.shown := by
  have start : Backed pb (new nearId farId nearAddress farAddress nearFd farFd nearPeer farPeer) :=
    ⟨new_backed nearId farAddress nearFd nearPeer, new_backed farId nearAddress farFd farPeer⟩
  have simulates : ∀ p event q, Backed pb p → event.watched → step pb p event = some q → Backed pb q ∧
      (q.shown = p.shown ∨ ∃ event, True ∧ p.shown.step pb event = some q.shown) :=
    fun _ _ _ backed watches stepped => step_moves backed watches stepped
  obtain ⟨_, seen, _, moved⟩ := @run_refines _ _ (step pb) _ _ (Pair.step pb) shown (fun _ _ => True) _ _ simulates
    _ _ _ start watches replay
  have sound : End.Sound pb p.near.shown p.far.shown :=
    run_invariant (fun _ _ _ sound stepped => Pair.step_sound sound stepped)
      (End.new_sound pb nearId farId farAddress nearAddress) moved
  exact ⟨⟨seen, moved⟩, sound.delivered, sound.swap.delivered⟩

def quiet : AcceptAnswer := ⟨.error .eagain, none⟩

/-- The request goes out and comes in in two parts, and the call is answered. -/
def servedCall : List SocketPairEvent :=
  [.far (.registered [1] [[2]]), .near (.read (.error .eagain) none), .far (.read (.error .eagain) none),
    .near (.called [1] [2] [3] (some ()) [⟨.ok 10, none⟩, unready]), .far (.canRead quiet (.ok 7)), .far .pass,
    .far (.read (.error .eagain) none), .near (.canWrite .success (.ok 14) []), .far (.canRead quiet (.ok 65536)),
    .far .pass, .far (.serviceDone 0 [7] [⟨.ok 24, none⟩]), .far .returned, .far .pass,
    .far (.read (.error .eagain) none), .near (.canRead quiet (.ok 65536)), .near .pass, .near .returned, .near .pass]

theorem refines_pair_servedCall :
    ∃ p, run (step wireFormat) (new 0 0 "10.0.0.1" "10.0.0.2" 5 6 [2, 0] [2, 0]) servedCall = some p ∧
      p.near.side.endpoint.parsed = [(0, [7])] ∧
      (∃ seen, run (Pair.step wireFormat) (.new 0 0 "10.0.0.1" "10.0.0.2") seen = some p.shown) ∧
      p.near.shown.Delivered wireFormat p.far.shown ∧ p.far.shown.Delivered wireFormat p.near.shown := by
  have answered : (run (step wireFormat) (new 0 0 "10.0.0.1" "10.0.0.2" 5 6 [2, 0] [2, 0]) servedCall).map
      (·.near.side.endpoint.parsed) = some [(0, [7])] := by
    decide +kernel
  have watches : ∀ event ∈ servedCall, event.watched := by
    simp [servedCall, SocketPairEvent.watched, SocketEnd.watched, unready]
  obtain ⟨p, replay, parsed⟩ := Option.map_eq_some_iff.mp answered
  exact ⟨p, replay, parsed, refines_pair watches replay⟩

end SocketPair

end DistributedNinja.Rpc
