import DistributedNinja.Rpc.Pair

namespace DistributedNinja.Rpc

open Lib

namespace Endpoint

theorem ran_of_log {e u : Endpoint} (log : u.log = e.log) : u.ran = e.ran := by rw [ran, log, Endpoint.ran]

theorem ran_dispatch {e : Endpoint} {m : RpcMessage} {call : Nat} (member : call ∈ (e.dispatch m).ran) :
    call ∈ e.ran ∨ ∃ r, e.connection.requestIdToResponse m.id.toUInt32 = some (some r) ∧ call = r.call := by
  have cases := dispatch_cases e m
  generalize e.dispatch m = u at cases member
  cases cases with
  | request type => exact .inl member
  | unknown type found => exact .inl member
  | vacant type found => exact .inl member
  | @answering r type found =>
    rw [ran_append] at member
    rcases List.mem_append.mp member with member | member
    · exact .inl member
    · have split : ran ⟨e.connection, .answering m.id.toUInt32, e.closes, e.calls, parsedBytes m r ++ [.ran r.call]⟩ =
          ran ⟨e.connection, .answering m.id.toUInt32, e.closes, e.calls, parsedBytes m r⟩ ++ [r.call] :=
        List.filterMap_append
      rw [split, ran_parsedBytes] at member
      exact .inr ⟨r, found, List.mem_singleton.mp member⟩
  | @silent r type found =>
    rw [ran_append, ran_parsedBytes, List.append_nil] at member
    exact .inl member

end Endpoint

namespace End

open Endpoint

variable {pb : Protobuf} {x y z w : End} {e : Endpoint} {event : EndEvent}

structure Grows (x z : End) : Prop where
  sent : ∀ s ∈ x.sent, s ∈ z.sent
  inbox : x.inbox <+: z.inbox

theorem Grows.refl (x : End) : x.Grows x := ⟨fun _ member => member, List.prefix_refl _⟩

theorem Grows.place (grows : x.Grows z) {place : Nat} {m : RpcMessage} (at_ : x.inbox[place]? = some m) :
    z.inbox[place]? = some m := by
  obtain ⟨more, parts⟩ := grows.inbox
  rw [← parts, List.getElem?_append_left (List.getElem?_eq_some_iff.mp at_).1]
  exact at_

theorem Answers.mono {call : Nat} {reply : RpcMessage} (answers : y.Answers x call reply) (caller : x.Grows z)
    (callee : y.Grows w) : w.Answers z call reply := by
  obtain ⟨place, request, asked, arrived, answered⟩ := answers
  exact ⟨place, request, caller.sent _ asked, callee.place arrived, callee.sent _ answered⟩

theorem Answered.mono (answered : x.Answered y) (caller : x.Grows z) (callee : y.Grows w)
    (parsed : z.endpoint.parsed = x.endpoint.parsed) (ran : z.endpoint.ran = x.endpoint.ran) : z.Answered w := by
  constructor
  · intro p member
    rw [parsed] at member
    obtain ⟨reply, answers, bytes⟩ := answered.parsed p member
    exact ⟨reply, answers.mono caller callee, bytes⟩
  · intro call member
    rw [ran] at member
    obtain ⟨reply, answers⟩ := answered.ran call member
    exact ⟨reply, answers.mono caller callee⟩

structure Still (x z : End) : Prop where
  sent : z.sent = x.sent
  inbox : z.inbox = x.inbox
  waiting : z.waiting = x.waiting
  calls : z.endpoint.calls = x.endpoint.calls
  log : z.endpoint.log = x.endpoint.log

theorem Still.grows (still : x.Still z) : x.Grows z :=
  ⟨fun _ member => still.sent ▸ member, still.inbox ▸ List.prefix_refl _⟩

theorem Numbered.still (numbered : x.Numbered) (still : x.Still z) (correlated : z.endpoint.Correlated) :
    z.Numbered := by
  constructor
  · exact correlated
  · rw [still.sent, still.calls]
    exact numbered.requests
  · rw [still.sent]
    exact numbered.order
  · rw [still.sent, still.inbox]
    exact numbered.answers
  · rw [still.waiting, still.inbox]
    exact numbered.waits
  · rw [still.sent, still.waiting]
    exact numbered.once

theorem Numbered.place_lt (numbered : x.Numbered) {place : Nat}
    (member : place ∈ x.sent.filterMap Sent.place? ++ x.waiting) : place < x.inbox.length := by
  rcases List.mem_append.mp member with member | member
  · obtain ⟨s, sent, which⟩ := List.mem_filterMap.mp member
    cases s with
    | request call m => cases which
    | answer other m =>
      cases which
      obtain ⟨_, _, request, at_, _⟩ := numbered.answers _ _ sent
      exact (List.getElem?_eq_some_iff.mp at_).1
  · obtain ⟨request, at_, _⟩ := numbered.waits _ member
    exact (List.getElem?_eq_some_iff.mp at_).1

theorem Numbered.call_lt (numbered : x.Numbered) {call : Nat} (member : call ∈ x.sent.filterMap Sent.call?) :
    call < x.endpoint.calls := by
  obtain ⟨s, sent, which⟩ := List.mem_filterMap.mp member
  cases s with
  | request other m =>
    cases which
    exact (numbered.requests _ _ sent).2.2
  | answer place m => cases which

structure Called (x z : End) (waiting : List Nat) (request : Call Unit) (accepted : Bool) (made : Sent) : Prop where
  correlated : z.endpoint.Correlated
  sent : z.sent = if accepted then x.sent ++ [made] else x.sent
  inbox : z.inbox = x.inbox
  waiting : z.waiting = waiting
  calls : z.endpoint.calls = (x.endpoint.record accepted request).calls
  parsed : z.endpoint.parsed = x.endpoint.parsed
  ran : z.endpoint.ran = x.endpoint.ran

theorem call_called {waiting : List Nat} {request : Call Unit} {answers : List Int} {made : RpcMessage → Sent}
    (correlated : x.endpoint.Correlated)
    (called : call pb { x with waiting := waiting } request answers made = some z) :
    ∃ accepted, Called x z waiting request accepted
      (made (x.endpoint.connection.message (x.endpoint.named request))) := by
  obtain ⟨_, bytes, e, _, stepped, rfl⟩ := call_cases called
  have next := correlated.step stepped
  cases step_effect stepped with
  | called may written more =>
    refine ⟨_, next, rfl, rfl, rfl, rfl, ?_, ?_⟩
    · cases request <;> exact (parsed_append _ _ _ _ _ _).trans (List.append_nil _)
    · cases request <;> exact (ran_append _ _ _ _ _ _).trans (List.append_nil _)

theorem Called.grows {waiting : List Nat} {request : Call Unit} {accepted : Bool} {made : Sent}
    (called : Called x z waiting request accepted made) : x.Grows z := by
  refine ⟨?_, called.inbox ▸ List.prefix_refl _⟩
  intro s member
  rw [called.sent]
  split
  · exact List.mem_append_left _ member
  · exact member

theorem Numbered.request (numbered : x.Numbered) {service method request : List UInt8} {done : Option Unit}
    {accepted : Bool} (called : Called x z x.waiting (.callMethod service method request done) accepted
      (.request x.endpoint.calls (x.endpoint.connection.message
        (x.endpoint.named (.callMethod service method request done))))) : z.Numbered := by
  have calls : z.endpoint.calls = x.endpoint.calls + 1 := called.calls
  cases accepted with
  | false =>
    have sent : z.sent = x.sent := called.sent
    constructor
    · exact called.correlated
    · rw [sent, calls]
      intro call m member
      obtain ⟨type, id, before⟩ := numbered.requests call m member
      exact ⟨type, id, Nat.lt_succ_of_lt before⟩
    · rw [sent]
      exact numbered.order
    · rw [sent, called.inbox]
      exact numbered.answers
    · rw [called.waiting, called.inbox]
      exact numbered.waits
    · rw [sent, called.waiting]
      exact numbered.once
  | true =>
    have sent : z.sent = x.sent ++ [.request x.endpoint.calls _] := called.sent
    constructor
    · exact called.correlated
    · rw [sent, calls]
      intro call m member
      rcases List.mem_append.mp member with member | member
      · obtain ⟨type, id, before⟩ := numbered.requests call m member
        exact ⟨type, id, Nat.lt_succ_of_lt before⟩
      · cases List.mem_singleton.mp member
        refine ⟨rfl, ?_, Nat.lt_succ_self _⟩
        show x.endpoint.connection.lastRequestId.toUInt64 = _
        rw [numbered.correlated.last]
    · rw [sent, List.filterMap_append]
      apply List.pairwise_append.mpr
      refine ⟨numbered.order, List.pairwise_singleton _ _, ?_⟩
      intro call member new same
      cases List.mem_singleton.mp same
      exact numbered.call_lt member
    · rw [sent, called.inbox]
      intro place m member
      rcases List.mem_append.mp member with member | member
      · exact numbered.answers place m member
      · cases List.mem_singleton.mp member
    · rw [called.waiting, called.inbox]
      exact numbered.waits
    · rw [sent, called.waiting, List.filterMap_append]
      show (_ ++ [] ++ _).Nodup
      rw [List.append_nil]
      exact numbered.once

theorem Numbered.answer (numbered : x.Numbered) {place : Nat} {m : RpcMessage} {response : List UInt8}
    (waits : place ∈ x.waiting) (at_ : x.inbox[place]? = some m) {accepted : Bool}
    (called : Called x z (x.waiting.erase place) (.onServiceDone m.id m.service m.method response)
      accepted (.answer place ⟨m.id, .response, m.service, m.method, none, some response⟩)) : z.Numbered := by
  have calls : z.endpoint.calls = x.endpoint.calls := called.calls
  obtain ⟨request, found, asks⟩ := numbered.waits place waits
  obtain rfl : m = request := Option.some.inj (at_.symm.trans found)
  have moved : (x.sent.filterMap Sent.place? ++ x.waiting).Perm
      (x.sent.filterMap Sent.place? ++ [place] ++ x.waiting.erase place) := by
    rw [List.append_assoc]
    exact (List.perm_cons_erase waits).append_left _
  have once := moved.nodup_iff.mp numbered.once
  cases accepted with
  | false =>
    have sent : z.sent = x.sent := called.sent
    constructor
    · exact called.correlated
    · rw [sent, calls]
      exact numbered.requests
    · rw [sent]
      exact numbered.order
    · rw [sent, called.inbox]
      exact numbered.answers
    · rw [called.waiting, called.inbox]
      exact fun other member => numbered.waits other (List.mem_of_mem_erase member)
    · rw [sent, called.waiting]
      rw [List.append_assoc] at once
      exact once.sublist ((List.sublist_append_right _ _).append_left _)
  | true =>
    have sent : z.sent = x.sent ++ [.answer place _] := called.sent
    constructor
    · exact called.correlated
    · rw [sent, calls]
      intro call other member
      rcases List.mem_append.mp member with member | member
      · exact numbered.requests call other member
      · cases List.mem_singleton.mp member
    · rw [sent, List.filterMap_append]
      show (_ ++ []).Pairwise _
      rw [List.append_nil]
      exact numbered.order
    · rw [sent, called.inbox]
      intro other reply member
      rcases List.mem_append.mp member with member | member
      · exact numbered.answers other reply member
      · cases List.mem_singleton.mp member
        exact ⟨rfl, rfl, m, at_, asks, rfl⟩
    · rw [called.waiting, called.inbox]
      exact fun other member => numbered.waits other (List.mem_of_mem_erase member)
    · rw [sent, called.waiting, List.filterMap_append]
      exact once

theorem took_grows (x : End) (e : Endpoint) (m : RpcMessage) : x.Grows (x.took e (some m)) :=
  ⟨fun _ member => member, List.prefix_append _ _⟩

theorem Numbered.took (numbered : x.Numbered) (correlated : e.Correlated) (calls : e.calls = x.endpoint.calls)
    (m : RpcMessage) : (x.took e (some m)).Numbered := by
  have grows := took_grows x e m
  constructor
  · exact correlated
  · intro call request member
    obtain ⟨type, id, before⟩ := numbered.requests call request member
    exact ⟨type, id, Nat.lt_of_lt_of_eq before calls.symm⟩
  · exact numbered.order
  · intro place reply member
    obtain ⟨type, some_, request, at_, asks⟩ := numbered.answers place reply member
    exact ⟨type, some_, request, grows.place at_, asks⟩
  · intro place member
    change place ∈ ite (m.type = .request ∧ x.serves m = true) _ _ at member
    split at member
    · rename_i served
      rcases List.mem_append.mp member with member | member
      · obtain ⟨request, at_, asks⟩ := numbered.waits place member
        exact ⟨request, grows.place at_, asks⟩
      · rw [List.mem_singleton.mp member]
        exact ⟨m, List.getElem?_concat_length, served.1⟩
    · obtain ⟨request, at_, asks⟩ := numbered.waits place member
      exact ⟨request, grows.place at_, asks⟩
  · show (x.sent.filterMap Sent.place? ++ ite (m.type = .request ∧ x.serves m = true) _ _).Nodup
    split
    · rw [← List.append_assoc]
      apply List.Nodup.append numbered.once (List.nodup_singleton _)
      intro place before new
      rw [List.mem_singleton.mp new] at before
      exact Nat.lt_irrefl _ (numbered.place_lt before)
    · exact numbered.once

theorem sent_answer (callee : y.Numbered) {place : Nat} {reply : RpcMessage}
    (sent : (y.sent.map Sent.message)[place]? = some reply) (type : reply.type = .response) :
    ∃ request, y.sent[place]? = some (.answer request reply) := by
  rw [List.getElem?_map, Option.map_eq_some_iff] at sent
  obtain ⟨s, at_, rfl⟩ := sent
  cases s with
  | request call m =>
    have asks := (callee.requests _ _ (List.mem_of_getElem? at_)).1
    rw [show m.type = .response from type] at asks
    cases asks
  | answer request m => exact ⟨request, at_⟩

theorem answered_call (caller : x.Numbered) (callee : y.Numbered) (arrived : y.inbox <+: x.sent.map Sent.message)
    {place : Nat} {reply : RpcMessage} (answer : .answer place reply ∈ y.sent) :
    ∃ call request, x.sent[place]? = some (.request call request) ∧ y.inbox[place]? = some request ∧
      reply.id.toUInt32 = UInt32.ofNat call ∧ call < x.endpoint.calls := by
  obtain ⟨_, _, request, at_, asks, id⟩ := callee.answers _ _ answer
  obtain ⟨more, parts⟩ := arrived
  have there : (x.sent.map Sent.message)[place]? = some request := by
    rw [← parts, List.getElem?_append_left (List.getElem?_eq_some_iff.mp at_).1]
    exact at_
  rw [List.getElem?_map, Option.map_eq_some_iff] at there
  obtain ⟨s, sent, rfl⟩ := there
  have member := List.mem_of_getElem? sent
  cases s with
  | request call m =>
    obtain ⟨_, known, before⟩ := caller.requests _ _ member
    refine ⟨call, m, sent, at_, ?_, before⟩
    rw [id]
    show m.id.toUInt32 = _
    rw [known, UInt32.toUInt32_toUInt64]
  | answer other m =>
    have type := (caller.answers _ _ member).1
    rw [show m.type = .request from asks] at type
    cases type

theorem entry_answers (caller : x.Numbered) (callee : y.Numbered) (arrived : y.inbox <+: x.sent.map Sent.message)
    (few : x.endpoint.calls ≤ 2 ^ 32) {m : RpcMessage} {r : Response}
    (next : (y.sent.map Sent.message)[x.inbox.length]? = some m) (type : m.type = .response)
    (found : x.endpoint.connection.requestIdToResponse m.id.toUInt32 = some (some r)) :
    y.Answers x r.call m ∧ m.response = some (m.response.getD []) := by
  obtain ⟨place, there⟩ := sent_answer callee next type
  have answer := List.mem_of_getElem? there
  obtain ⟨call, request, sent, at_, named, before⟩ := answered_call caller callee arrived answer
  obtain ⟨other, its, entry, recent, _⟩ := caller.correlated.entries _ _ found
  obtain rfl := Option.some.inj its
  have same : call = r.call := Conversation.ofNat_inj (named.symm.trans entry) (by omega) (by omega)
  obtain ⟨response, shape⟩ := Option.isSome_iff_exists.mp (callee.answers _ _ answer).2.1
  refine ⟨⟨place, request, same ▸ List.mem_of_getElem? sent, at_, answer⟩, ?_⟩
  rw [shape]
  rfl

theorem dispatch_response {e : Endpoint} {m : RpcMessage} (asks : m.type = .request) :
    (e.dispatch m).log = e.log := by
  rw [dispatch, asks]

theorem Answered.took (answered : x.Answered y) (caller : x.Numbered) (callee : y.Numbered)
    (arrived : y.inbox <+: x.sent.map Sent.message) (few : x.endpoint.calls ≤ 2 ^ 32) {m : RpcMessage}
    {buffer : ReadIOBuffer} (next : (y.sent.map Sent.message)[x.inbox.length]? = some m) :
    (x.took ((x.endpoint.setReadBuf buffer).dispatch m) (some m)).Answered y := by
  have grows := took_grows x ((x.endpoint.setReadBuf buffer).dispatch m) m
  cases type : m.type with
  | request =>
    have log : ((x.endpoint.setReadBuf buffer).dispatch m).log = x.endpoint.log := dispatch_response type
    apply answered.mono grows (Grows.refl y)
    · exact Conversation.parsed_of_log log
    · exact ran_of_log log
  | response =>
    constructor
    · intro p member
      rcases Conversation.parsed_dispatch member with member | ⟨r, found, rfl⟩
      · obtain ⟨reply, answers, bytes⟩ := answered.parsed p member
        exact ⟨reply, answers.mono grows (Grows.refl y), bytes⟩
      · obtain ⟨answers, bytes⟩ := entry_answers caller callee arrived few next type found
        exact ⟨m, answers.mono grows (Grows.refl y), bytes⟩
    · intro call member
      rcases ran_dispatch member with member | ⟨r, found, rfl⟩
      · obtain ⟨reply, answers⟩ := answered.ran call member
        exact ⟨reply, answers.mono grows (Grows.refl y)⟩
      · have answers := (entry_answers caller callee arrived few next type found).1
        exact ⟨m, answers.mono grows (Grows.refl y)⟩

structure Sound (pb : Protobuf) (x y : End) : Prop where
  sends : x.FlowsTo pb y
  receives : y.FlowsTo pb x
  own : x.Numbered
  other : y.Numbered
  answered : x.endpoint.calls ≤ 2 ^ 32 → x.Answered y
  answers : y.endpoint.calls ≤ 2 ^ 32 → y.Answered x

theorem Sound.swap (sound : Sound pb x y) : Sound pb y x :=
  ⟨sound.receives, sound.sends, sound.other, sound.own, sound.answers, sound.answered⟩

theorem new_numbered (id : Int) (peerAddress : String) : (new id peerAddress).Numbered :=
  ⟨new_correlated id peerAddress, nofun, List.Pairwise.nil, nofun, nofun, List.nodup_nil⟩

theorem new_sound (pb : Protobuf) (id other : Int) (peerAddress otherAddress : String) :
    Sound pb (new id peerAddress) (new other otherAddress) :=
  ⟨new_flowsTo pb _ _ _ _, new_flowsTo pb _ _ _ _, new_numbered _ _, new_numbered _ _, fun _ => ⟨nofun, nofun⟩,
    fun _ => ⟨nofun, nofun⟩⟩

theorem Sound.still (sound : Sound pb x y) (sends : z.FlowsTo pb w) (receives : w.FlowsTo pb z) (own : x.Still z)
    (other : y.Still w) (correlated : z.endpoint.Correlated) (same : w.endpoint = y.endpoint) : Sound pb z w := by
  constructor
  · exact sends
  · exact receives
  · exact sound.own.still own correlated
  · exact sound.other.still other (same ▸ sound.other.correlated)
  · rw [own.calls]
    exact fun few => (sound.answered few).mono own.grows other.grows
      (Conversation.parsed_of_log own.log) (ran_of_log own.log)
  · rw [other.calls]
    exact fun few => (sound.answers few).mono other.grows own.grows
      (Conversation.parsed_of_log other.log) (ran_of_log other.log)

theorem Sound.called (sound : Sound pb x y) {waiting : List Nat} {request : Call Unit} {accepted : Bool} {made : Sent}
    (called : Called x z waiting request accepted made) (sends : z.FlowsTo pb y) (receives : y.FlowsTo pb z)
    (own : z.Numbered) : Sound pb z y := by
  constructor
  · exact sends
  · exact receives
  · exact own
  · exact sound.other
  · intro few
    have before : x.endpoint.calls ≤ 2 ^ 32 := by
      have more : x.endpoint.calls ≤ z.endpoint.calls := by
        rw [called.calls]
        cases request
        · exact Nat.le_succ _
        · exact Nat.le_refl _
      omega
    exact (sound.answered before).mono called.grows (Grows.refl y) called.parsed called.ran
  · exact fun few => (sound.answers few).mono (Grows.refl y) called.grows rfl rfl

theorem Sound.step (sound : Sound pb x y) (stepped : x.step pb y event = some (z, w)) : Sound pb z w := by
  have correlated := sound.own.correlated
  cases step_turn stepped with
  | registered | unregistered =>
    exact sound.still sound.sends sound.receives ⟨rfl, rfl, rfl, rfl, rfl⟩ ⟨rfl, rfl, rfl, rfl, rfl⟩ correlated rfl
  | called made =>
    obtain ⟨accepted, effect⟩ := call_called correlated made
    exact sound.called effect (sound.sends.call (fun _ => rfl) made) (sound.receives.called made)
      (sound.own.request effect)
  | @answered place m response answers z waits at_ made =>
    obtain ⟨accepted, effect⟩ := call_called correlated made
    have sends : FlowsTo pb { x with waiting := x.waiting.erase place } y := sound.sends
    have receives : FlowsTo pb y { x with waiting := x.waiting.erase place } := sound.receives
    exact sound.called effect (sends.call (fun _ => rfl) made) (receives.called made)
      (sound.own.answer waits at_ effect)
  | wrote sent wrote =>
    obtain ⟨buffer, still, calls, log⟩ := writeCompleted_keeps wrote
    exact sound.still (sound.sends.writeCompleted sent wrote) (sound.receives.receiver buffer still)
      ⟨rfl, rfl, rfl, calls, log⟩ ⟨rfl, rfl, rfl, rfl, rfl⟩ (correlated.step wrote) rfl
  | completed read =>
    obtain ⟨buffer, calls, log⟩ := reader_keeps rfl read
    exact sound.still (sound.sends.sender buffer) (sound.receives.readCompleted read) ⟨rfl, rfl, rfl, calls, log⟩
      ⟨rfl, rfl, rfl, rfl, rfl⟩ (correlated.step read) rfl
  | read read =>
    obtain ⟨buffer, calls, log⟩ := reader_keeps rfl read
    exact sound.still (sound.sends.sender buffer) (sound.receives.read read) ⟨rfl, rfl, rfl, calls, log⟩
      ⟨rfl, rfl, rfl, rfl, rfl⟩ (correlated.step read) rfl
  | noRoom left =>
    obtain ⟨room, made, _⟩ := Flow.makeRoom_some sound.receives (.inr (noRoom_full left).1)
    rw [(noRoom_full left).2] at made
    cases made
  | passed passed =>
    rcases sound.receives.pass passed with ⟨nothing, rfl, flows⟩ | ⟨m, buffer, next, at_, rfl, sent, flows⟩
    · rw [nothing]
      exact sound.still sound.sends flows ⟨rfl, rfl, rfl, rfl, rfl⟩ ⟨rfl, rfl, rfl, rfl, rfl⟩
        (correlated.step passed) rfl
    · rw [next]
      have calls : ((x.endpoint.setReadBuf buffer).dispatch m).calls = x.endpoint.calls :=
        Conversation.dispatch_calls _ m
      constructor
      · exact sound.sends.sender (dispatch_writeBuf _ m)
      · exact flows
      · exact sound.own.took (correlated.step passed) calls m
      · exact sound.other
      · intro few
        have before : x.endpoint.calls ≤ 2 ^ 32 := Nat.le_trans (Nat.le_of_eq calls.symm) few
        exact (sound.answered before).took sound.own sound.other sound.sends.inbox_prefix before sent
      · exact fun few => (sound.answers few).mono (Grows.refl y) (took_grows x _ m) rfl rfl
  | returned returned =>
    obtain ⟨buffer, calls, log⟩ := reader_keeps rfl returned
    exact sound.still (sound.sends.sender buffer) (sound.receives.returned returned) ⟨rfl, rfl, rfl, calls, log⟩
      ⟨rfl, rfl, rfl, rfl, rfl⟩ (correlated.step returned) rfl

/-- What the calls of `x` and the messages for `y` come to. -/
structure Delivered (pb : Protobuf) (x y : End) : Prop where
  fifo : y.inbox <+: x.sent.map Sent.message
  order : (x.sent.filterMap Sent.call?).Pairwise (· < ·)
  answeredOnce : (y.sent.filterMap Sent.place?).Nodup
  ranOnce : x.endpoint.ran.Nodup
  answered : x.endpoint.calls ≤ 2 ^ 32 → x.Answered y
  complete : x.endpoint.connection.writeBuf.isEmpty = true → x.wire = [] → y.parted →
    y.inbox = x.sent.map Sent.message
  reads : y.endpoint.step pb .noRoom = none
  parses : ∀ next, frameBody pb.parseFromArray y.endpoint.connection.readBuf ≠ some (none, next)

theorem Sound.delivered (sound : Sound pb x y) : x.Delivered pb y := by
  constructor
  · exact sound.sends.inbox_prefix
  · exact sound.own.order
  · exact (List.nodup_append.mp sound.other.once).1
  · exact sound.own.correlated.ranOnce
  · exact sound.answered
  · exact fun idle silent between => Flow.drained sound.sends between idle silent
  · apply Option.eq_none_iff_forall_ne_some.mpr
    intro e left
    obtain ⟨at_, full⟩ := noRoom_full left
    obtain ⟨room, made, _⟩ := Flow.makeRoom_some sound.sends (.inr at_)
    rw [full] at made
    cases made
  · intro next stuck
    rcases Flow.frameBody_cases sound.sends with ⟨ends, _⟩ | ⟨m, other, taken, _⟩
    · rw [ends] at stuck
      cases stuck
    · rw [taken] at stuck
      cases stuck

end End

namespace Pair

open End

variable {pb : Protobuf} {p q : Pair} {event : PairEvent}

theorem step_sound (sound : Sound pb p.near p.far) (stepped : p.step pb event = some q) : Sound pb q.near q.far := by
  cases event with
  | near event =>
    obtain ⟨⟨near, far⟩, moved, rfl⟩ := Option.map_eq_some_iff.mp stepped
    exact sound.step moved
  | far event =>
    obtain ⟨⟨far, near⟩, moved, rfl⟩ := Option.map_eq_some_iff.mp stepped
    exact (sound.swap.step moved).swap

end Pair

end DistributedNinja.Rpc
