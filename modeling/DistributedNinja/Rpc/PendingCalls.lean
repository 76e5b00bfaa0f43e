import DistributedNinja.Lib.Listing
import DistributedNinja.Rpc.EndToEnd

namespace DistributedNinja.Rpc

open Lib

namespace End

open Endpoint

variable {pb : Protobuf} {x y z w : End} {e : Endpoint} {event : EndEvent}

def entries (x : End) : UInt32 → Option (Option Response) := x.endpoint.connection.requestIdToResponse

def plain : EndEvent → Bool
  | .registered _ _ | .unregistered _ | .called _ _ _ _ _ | .serviceDone _ _ _ => false
  | .writeCompleted _ _ | .readCompleted _ | .read _ | .noRoom | .pass | .returned => true

structure Quiet (x z : End) : Prop extends Still x z where
  services : z.services = x.services
  entries : z.entries = x.entries ∨
    ∃ id, x.endpoint.control = .answering id ∧ z.entries = Function.update x.entries id none
  answering : ∀ id, z.endpoint.control = .answering id → x.endpoint.control = .answering id

structure Appends (x z : End) (accepted : Bool) (made : Sent) : Prop where
  sent : z.sent = if accepted then x.sent ++ [made] else x.sent
  inbox : z.inbox = x.inbox
  services : z.services = x.services
  answering : z.endpoint.control = x.endpoint.control

theorem Appends.mem_sent {accepted : Bool} {made s : Sent} (appends : Appends x z accepted made)
    (member : s ∈ z.sent) : s ∈ x.sent ∨ s = made := by
  rw [appends.sent] at member
  split at member
  · exact (List.mem_append.mp member).imp_right List.mem_singleton.mp
  · exact .inl member

/-- Everything a step of an end does to what the ends have said to each other. -/
inductive Moves (pb : Protobuf) (x y : End) : EndEvent → End → End → Prop where
  | registered {service : List UInt8} {methods : List (List UInt8)} :
      Moves pb x y (.registered service methods)
        { x with services := Function.update x.services service (some methods) } y
  | unregistered {service : List UInt8} :
      Moves pb x y (.unregistered service) { x with services := Function.update x.services service none } y
  | called {service method request : List UInt8} {done : Option Unit} {answers : List Int} {z : End} {accepted : Bool}
      (appends : Appends x z accepted (.request x.endpoint.calls
        ⟨x.endpoint.connection.lastRequestId.toUInt64, .request, service, method, some request, none⟩))
      (waiting : z.waiting = x.waiting) (calls : z.endpoint.calls = x.endpoint.calls + 1)
      (entries : z.entries = Function.update x.entries x.endpoint.connection.lastRequestId
        (some (some ⟨x.endpoint.calls, done.isSome⟩))) :
      Moves pb x y (.called service method request done answers) z y
  | answered {place : Nat} {m : RpcMessage} {response : List UInt8} {answers : List Int} {z : End} {accepted : Bool}
      (waits : place ∈ x.waiting) (at_ : x.inbox[place]? = some m)
      (appends : Appends x z accepted
        (.answer place ⟨m.id, .response, m.service, m.method, none, some response⟩))
      (waiting : z.waiting = x.waiting.erase place) (calls : z.endpoint.calls = x.endpoint.calls)
      (entries : z.entries = x.entries) : Moves pb x y (.serviceDone place response answers) z y
  | took {m : RpcMessage} {next : ReadIOBuffer} (at_ : x.endpoint.control = .parsing)
      (parsed : x.endpoint.nextMessage pb = some m) :
      Moves pb x y .pass (x.took ((x.endpoint.setReadBuf next).dispatch m) (some m)) y
  | quiet {event : EndEvent} {z : End} {wire : List UInt8} (silent : plain event = true) (still : Quiet x z)
      (nothing : event = .pass → x.endpoint.nextMessage pb = none) : Moves pb x y event z { y with wire := wire }

theorem Moves.other (moves : Moves pb x y event z w) : ∃ wire, w = { y with wire := wire } := by
  cases moves with
  | quiet silent still => exact ⟨_, rfl⟩
  | _ => exact ⟨y.wire, rfl⟩

theorem Moves.calls_le (moves : Moves pb x y event z w) :
    x.endpoint.calls ≤ z.endpoint.calls ∧ z.endpoint.calls ≤ x.endpoint.calls + 1 := by
  have kept : z.endpoint.calls = x.endpoint.calls ∨ z.endpoint.calls = x.endpoint.calls + 1 := by
    cases moves with
    | registered | unregistered => exact .inl rfl
    | called appends waiting calls => exact .inr calls
    | answered waits at_ appends waiting calls => exact .inl calls
    | @took m next at_ parsed =>
      have calls : ((x.endpoint.setReadBuf next).dispatch m).calls = x.endpoint.calls :=
        Conversation.dispatch_calls _ m
      exact .inl calls
    | quiet silent still => exact .inl still.calls
  omega

theorem call_appends {request : Call Unit} {answers : List Int} {made : RpcMessage → Sent}
    (called : x.call pb request answers made = some z) :
    ∃ accepted d closes, Written (x.endpoint.connection.enqueue pb (x.endpoint.named request)) d ∧
      Appends x z accepted (made (x.endpoint.connection.message (x.endpoint.named request))) ∧
      z.waiting = x.waiting ∧
      z.endpoint = { x.endpoint.record accepted request with connection := d, closes := closes } := by
  obtain ⟨_, bytes, e, _, stepped, rfl⟩ := call_cases called
  cases step_effect stepped with
  | @called _ _ d closes may written more =>
    exact ⟨_, d, closes, written, ⟨rfl, rfl, rfl, record_control _ _ request⟩, rfl, rfl⟩

theorem quiet_of_effect {step : EndpointEvent} (reads : step.reads = true)
    (stepped : x.endpoint.step pb step = some e) : Quiet x { x with endpoint := e } := by
  obtain ⟨_, calls, log⟩ := reader_keeps reads stepped
  have still : Still x { x with endpoint := e } := ⟨rfl, rfl, rfl, calls, log⟩
  cases step_effect stepped with
  | called | wrote | noRoom | broke | stuck | dispatched => cases reads
  | waits | readEnded | readData | completedEnded | completedData => exact ⟨still, rfl, .inl rfl, nofun⟩
  | served at_ => exact ⟨still, rfl, .inl rfl, nofun⟩
  | answered at_ => exact ⟨still, rfl, .inr ⟨_, at_, rfl⟩, nofun⟩

theorem quiet_writeCompleted {rv : Int} {answers : List Int} (bytes : List UInt8)
    (stepped : x.endpoint.step pb (.writeCompleted rv answers) = some e) :
    Quiet x { x with endpoint := e, wire := x.wire ++ bytes } := by
  obtain ⟨_, still, calls, log⟩ := writeCompleted_keeps stepped
  refine ⟨⟨rfl, rfl, rfl, calls, log⟩, rfl, ?_, fun id at_ => still ▸ at_⟩
  cases step_effect stepped with
  | @wrote _ _ d closes at_ written more =>
    left
    show d.requestIdToResponse = _
    rw [written]
    rfl

theorem step_moves (stepped : x.step pb y event = some (z, w)) : Moves pb x y event z w := by
  cases step_turn stepped with
  | registered => exact .registered
  | unregistered => exact .unregistered
  | called made =>
    obtain ⟨accepted, d, closes, written, appends, waiting, shape⟩ := call_appends made
    refine .called appends waiting (by rw [shape]; rfl) ?_
    rw [End.entries, shape]
    exact entries_callMethod written
  | answered waits at_ made =>
    obtain ⟨accepted, d, closes, written, appends, waiting, shape⟩ := call_appends made
    refine .answered waits at_ ⟨appends.sent, appends.inbox, appends.services, appends.answering⟩ waiting
      (by rw [shape]; rfl) ?_
    rw [End.entries, shape]
    show d.requestIdToResponse = _
    rw [written]
    rfl
  | @wrote _ _ bytes _ sent wrote =>
    exact .quiet rfl (quiet_writeCompleted bytes wrote) fun same => absurd same (by simp)
  | completed moved | read moved | returned moved =>
    exact .quiet rfl (quiet_of_effect rfl moved) fun same => absurd same (by simp)
  | noRoom left =>
    cases step_effect left with
    | noRoom at_ full =>
      exact .quiet rfl ⟨⟨rfl, rfl, rfl, rfl, rfl⟩, rfl, .inl rfl, fun _ same => by cases same⟩
        fun same => absurd same (by simp)
  | passed passed =>
    cases step_effect passed with
    | broke at_ ends =>
      have nothing : x.endpoint.nextMessage pb = none := by
        rw [nextMessage, if_pos at_, ends]
        rfl
      rw [nothing]
      exact .quiet rfl ⟨⟨rfl, rfl, rfl, rfl, rfl⟩, rfl, .inl rfl, fun _ same => by cases same⟩ fun _ => nothing
    | stuck at_ taken =>
      have nothing := nextMessage_of_taken at_ taken
      rw [nothing]
      exact .quiet rfl ⟨⟨rfl, rfl, rfl, rfl, rfl⟩, rfl, .inl rfl, fun _ same => same⟩ fun _ => nothing
    | dispatched at_ taken =>
      have parsed := nextMessage_of_taken at_ taken
      rw [parsed]
      exact .took at_ parsed

structure Pending (x : End) : Prop where
  entry : ∀ call m, .request call m ∈ x.sent →
    (∀ reply ∈ x.inbox, reply.type = .response → reply.id.toUInt32 ≠ UInt32.ofNat call) →
    ∃ done, x.entries (UInt32.ofNat call) = some (some ⟨call, done⟩)
  answering : ∀ id, x.endpoint.control = .answering id →
    ∃ reply ∈ x.inbox, reply.type = .response ∧ reply.id.toUInt32 = id

def Copies (x : End) : Prop :=
  ∀ place reply, .answer place reply ∈ x.sent →
    ∃ request, x.inbox[place]? = some request ∧ reply.service = request.service ∧ reply.method = request.method

theorem new_pending (id : Int) (peerAddress : String) : (new id peerAddress).Pending := ⟨nofun, nofun⟩

theorem Pending.quiet (pending : x.Pending) (still : Quiet x z) : z.Pending := by
  constructor
  · intro call m member unanswered
    rw [still.sent] at member
    rw [still.inbox] at unanswered
    obtain ⟨done, entry⟩ := pending.entry call m member unanswered
    rcases still.entries with same | ⟨id, at_, erased⟩
    · exact ⟨done, same ▸ entry⟩
    · obtain ⟨reply, came, type, named⟩ := pending.answering id at_
      refine ⟨done, ?_⟩
      rw [erased, Function.update_of_ne fun same => unanswered reply came type (named.trans same.symm)]
      exact entry
  · intro id at_
    obtain ⟨reply, came, type, named⟩ := pending.answering id (still.answering id at_)
    exact ⟨reply, still.inbox ▸ came, type, named⟩

theorem Pending.called (pending : x.Pending) (numbered : x.Numbered) (few : x.endpoint.calls < 2 ^ 32)
    {accepted done : Bool} {m : RpcMessage} (appends : Appends x z accepted (.request x.endpoint.calls m))
    (entries : z.entries = Function.update x.entries x.endpoint.connection.lastRequestId
      (some (some ⟨x.endpoint.calls, done⟩))) : z.Pending := by
  rw [numbered.correlated.last] at entries
  constructor
  · intro call request member unanswered
    rw [appends.inbox] at unanswered
    by_cases new : call = x.endpoint.calls
    · subst new
      exact ⟨done, by rw [entries, Function.update_self]⟩
    · have before : .request call request ∈ x.sent := by
        rcases appends.mem_sent member with member | made
        · exact member
        · cases made
          exact absurd rfl new
      have old := (numbered.requests call request before).2.2
      obtain ⟨kept, entry⟩ := pending.entry call request before unanswered
      refine ⟨kept, ?_⟩
      rw [entries, Function.update_of_ne fun same => new (Conversation.ofNat_inj same (by omega) few)]
      exact entry
  · intro id at_
    rw [appends.inbox]
    exact pending.answering id (appends.answering ▸ at_)

theorem Pending.answered (pending : x.Pending) {accepted : Bool} {place : Nat} {m : RpcMessage}
    (appends : Appends x z accepted (.answer place m)) (entries : z.entries = x.entries) : z.Pending := by
  constructor
  · intro call request member unanswered
    rw [appends.inbox] at unanswered
    rw [entries]
    apply pending.entry call request _ unanswered
    rcases appends.mem_sent member with member | made
    · exact member
    · cases made
  · intro id at_
    rw [appends.inbox]
    exact pending.answering id (appends.answering ▸ at_)

theorem Pending.took (pending : x.Pending) (at_ : x.endpoint.control = .parsing) (m : RpcMessage)
    (next : ReadIOBuffer) : (x.took ((x.endpoint.setReadBuf next).dispatch m) (some m)).Pending := by
  have older : ∀ reply ∈ x.inbox, reply ∈ x.inbox ++ [m] := fun _ member => List.mem_append_left _ member
  have kept : ∀ call request, .request call request ∈ x.sent →
      (∀ reply ∈ x.inbox ++ [m], reply.type = .response → reply.id.toUInt32 ≠ UInt32.ofNat call) →
      ∃ done, x.entries (UInt32.ofNat call) = some (some ⟨call, done⟩) := fun call request member unanswered =>
    pending.entry call request member fun reply came => unanswered reply (older reply came)
  have erased : m.type = .response → ∀ call request, .request call request ∈ x.sent →
      (∀ reply ∈ x.inbox ++ [m], reply.type = .response → reply.id.toUInt32 ≠ UInt32.ofNat call) →
      ∃ done, Function.update x.entries m.id.toUInt32 none (UInt32.ofNat call) = some (some ⟨call, done⟩) := by
    intro type call request member unanswered
    have other := unanswered m (List.mem_append_right _ (List.mem_singleton_self m)) type
    rw [Function.update_of_ne other.symm]
    exact kept call request member unanswered
  have elsewhere : ∀ id, (x.endpoint.setReadBuf next).control ≠ .answering id := by
    intro id same
    rw [show (x.endpoint.setReadBuf next).control = .parsing from at_] at same
    cases same
  have cases := dispatch_cases (x.endpoint.setReadBuf next) m
  generalize (x.endpoint.setReadBuf next).dispatch m = u at cases ⊢
  cases cases with
  | request type => exact ⟨kept, nofun⟩
  | unknown type found => exact ⟨kept, fun id same => absurd same (elsewhere id)⟩
  | vacant type found => exact ⟨erased type, fun id same => absurd same (elsewhere id)⟩
  | answering type found =>
    refine ⟨kept, ?_⟩
    intro id same
    cases same
    exact ⟨m, List.mem_append_right _ (List.mem_singleton_self m), type, rfl⟩
  | silent type found => exact ⟨erased type, fun id same => absurd same (elsewhere id)⟩

theorem Pending.step (pending : x.Pending) (numbered : x.Numbered) (moves : Moves pb x y event z w)
    (few : z.endpoint.calls ≤ 2 ^ 32) : z.Pending := by
  cases moves with
  | registered | unregistered => exact ⟨pending.entry, pending.answering⟩
  | called appends waiting calls entries => exact pending.called numbered (by omega) appends entries
  | answered waits at_ appends waiting calls entries => exact pending.answered appends entries
  | took at_ parsed => exact pending.took at_ _ _
  | quiet silent still => exact pending.quiet still

theorem Copies.appends (copies : x.Copies) {accepted : Bool} {made : Sent} (appends : Appends x z accepted made)
    (known : ∀ place reply, made = .answer place reply → ∃ request, x.inbox[place]? = some request ∧
      reply.service = request.service ∧ reply.method = request.method) : z.Copies := by
  intro place reply member
  rw [appends.inbox]
  rcases appends.mem_sent member with member | made
  · exact copies place reply member
  · exact known place reply made.symm

theorem Copies.step (copies : x.Copies) (moves : Moves pb x y event z w) : z.Copies := by
  cases moves with
  | registered | unregistered => exact copies
  | called appends waiting calls entries => exact copies.appends appends nofun
  | @answered place m response answers z accepted waits at_ appends waiting calls entries =>
    refine copies.appends appends ?_
    intro other reply same
    cases same
    exact ⟨m, at_, rfl, rfl⟩
  | @took m next at_ parsed =>
    intro place reply member
    obtain ⟨request, there, service, method⟩ := copies place reply member
    exact ⟨request, (took_grows x _ m).place there, service, method⟩
  | quiet silent still =>
    intro place reply member
    rw [still.inbox]
    exact copies place reply (still.sent ▸ member)

theorem Sound.next (sound : Sound pb x y) {m : RpcMessage} (parsed : x.endpoint.nextMessage pb = some m) :
    (y.sent.map Sent.message)[x.inbox.length]? = some m := by
  unfold nextMessage at parsed
  split at parsed
  · rename_i at_
    obtain ⟨⟨other, left⟩, taken, rfl⟩ := Option.bind_eq_some_iff.mp parsed
    have passed : x.endpoint.step pb .pass = some ((x.endpoint.setReadBuf left).dispatch m) := by
      rw [Endpoint.step, if_pos at_, taken]
    have named : x.endpoint.nextMessage pb = some m := nextMessage_of_taken at_ taken
    rcases sound.receives.pass passed with ⟨nothing, _⟩ | ⟨other, _, next, _, _, sent, _⟩
    · rw [named] at nothing
      cases nothing
    · rw [named] at next
      cases next
      exact sent
  · cases parsed

theorem Sound.next_entry (sound : Sound pb x y) (pending : x.Pending) (copies : y.Copies)
    (few : x.endpoint.calls ≤ 2 ^ 32) {m : RpcMessage}
    (next : (y.sent.map Sent.message)[x.inbox.length]? = some m) (type : m.type = .response) :
    ∃ call request done, .request call request ∈ x.sent ∧ m.service = request.service ∧ m.method = request.method ∧
      x.entries m.id.toUInt32 = some (some ⟨call, done⟩) := by
  obtain ⟨place, answer⟩ := sent_answer sound.other next type
  have answers := List.mem_of_getElem? answer
  obtain ⟨call, request, asked, arrived, named, old⟩ :=
    answered_call sound.own sound.other sound.sends.inbox_prefix answers
  obtain ⟨copied, there, service, method⟩ := copies place m answers
  obtain rfl : request = copied := Option.some.inj (arrived.symm.trans there)
  have member := List.mem_of_getElem? asked
  obtain ⟨done, entry⟩ : ∃ done, x.entries (UInt32.ofNat call) = some (some ⟨call, done⟩) := by
    apply pending.entry call request member
    intro reply came kind same
    -- An earlier response to the call would answer the same place a second time.
    obtain ⟨i, before, rfl⟩ := List.getElem_of_mem came
    obtain ⟨more, parts⟩ := sound.receives.inbox_prefix
    have earlier : (y.sent.map Sent.message)[i]? = some x.inbox[i] := by
      rw [← parts, List.getElem?_append_left before, List.getElem?_eq_getElem before]
    obtain ⟨other, again⟩ := sent_answer sound.other earlier kind
    obtain ⟨caller, its, sent, _, its_id, small⟩ :=
      answered_call sound.own sound.other sound.sends.inbox_prefix (List.mem_of_getElem? again)
    have one : caller = call :=
      Conversation.ofNat_inj (its_id.symm.trans same) (by omega) (by omega)
    subst one
    have distinct : (x.sent.filterMap Sent.call?).Nodup := sound.own.order.imp fun less => Nat.ne_of_lt less
    have places : other = place := index_unique distinct sent asked rfl rfl
    subst places
    have once := (List.nodup_append.mp sound.other.once).1
    exact Nat.ne_of_lt before (index_unique once again answer rfl rfl)
  exact ⟨call, request, done, member, service, method, named ▸ entry⟩

end End

end DistributedNinja.Rpc
