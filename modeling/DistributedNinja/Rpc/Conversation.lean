import DistributedNinja.Rpc.Correlation
import Mathlib.Data.List.Perm.Basic

namespace DistributedNinja.Rpc

open Lib

namespace Endpoint

variable {pb : Protobuf} {e u : Endpoint} {event : EndpointEvent}

def nextMessage (pb : Protobuf) (e : Endpoint) : Option RpcMessage :=
  if e.control = .parsing then (frameBody pb.parseFromArray e.connection.readBuf).bind Prod.fst else none

def EndpointEvent.isPass : EndpointEvent → Bool
  | .pass => true
  | _ => false

def bringsResponse (pb : Protobuf) (e : Endpoint) (event : EndpointEvent) : Bool :=
  EndpointEvent.isPass event && (e.nextMessage pb).any fun m => decide (m.type = .response)

structure SameCalls (e u : Endpoint) : Prop where
  entries : u.connection.requestIdToResponse = e.connection.requestIdToResponse
  parsed : u.parsed = e.parsed
  ran : u.ran = e.ran

inductive Logged (e u : Endpoint) : Prop where
  | quiet (calls : u.calls = e.calls) (log : u.log = e.log)
  | replied {id : UInt64} {accepted : Bool} (calls : u.calls = e.calls) (log : u.log = e.log ++ [.replied id accepted])
  | sent {accepted : Bool} (calls : u.calls = e.calls + 1)
      (log : u.log = e.log ++ [.sent e.calls e.connection.lastRequestId.toUInt64 accepted])

theorem nextMessage_of_taken {m : Option RpcMessage} {next : ReadIOBuffer} (at_ : e.control = .parsing)
    (taken : frameBody pb.parseFromArray e.connection.readBuf = some (m, next)) : e.nextMessage pb = m := by
  rw [nextMessage, if_pos at_, taken]
  rfl

theorem step_logged (stepped : e.step pb event = some u) (plain : e.bringsResponse pb event = false) :
    Logged e u := by
  cases step_effect stepped with
  | @called request answers d closes may written more =>
    cases request with
    | callMethod service method request done => exact .sent rfl rfl
    | onServiceDone requestId service method response => exact .replied rfl rfl
  | wrote at_ written more => exact .quiet rfl rfl
  | noRoom at_ full => exact .quiet rfl rfl
  | waits at_ made => exact .quiet rfl rfl
  | readEnded at_ made => exact .quiet rfl rfl
  | readData at_ made read => exact .quiet rfl rfl
  | completedEnded at_ => exact .quiet rfl rfl
  | completedData at_ read => exact .quiet rfl rfl
  | broke at_ ends => exact .quiet rfl rfl
  | stuck at_ taken => exact .quiet rfl rfl
  | @dispatched m next at_ taken =>
    have type : m.type = .request := by
      cases type : m.type with
      | request => rfl
      | response =>
        rw [bringsResponse, nextMessage_of_taken at_ taken] at plain
        simp [EndpointEvent.isPass, type] at plain
    apply Logged.quiet
    · rw [dispatch, type]
      rfl
    · rw [dispatch, type]
      rfl
  | served at_ => exact .quiet rfl rfl
  | answered at_ => exact .quiet rfl rfl

theorem request_spares_calls {m : RpcMessage} (next : e.nextMessage pb = some m) (type : m.type = .request)
    (stepped : e.step pb .pass = some u) : SameCalls e u := by
  cases step_effect stepped with
  | broke at_ ends => exact ⟨rfl, rfl, rfl⟩
  | stuck at_ taken => exact ⟨rfl, rfl, rfl⟩
  | @dispatched other left at_ taken =>
    rw [nextMessage_of_taken at_ taken] at next
    obtain rfl := Option.some.inj next
    have served : (e.setReadBuf left).dispatch other = { e.setReadBuf left with control := .serving } := by
      rw [dispatch, type]
    rw [served]
    exact ⟨rfl, rfl, rfl⟩

theorem reply_spares_calls {requestId : UInt64} {service method response : List UInt8} {answers : List Int}
    (stepped : e.step pb (.called (.onServiceDone requestId service method response) answers) = some u) :
    SameCalls e u := by
  cases step_effect stepped with
  | @called _ _ d closes may written more =>
    constructor
    · show d.requestIdToResponse = _
      rw [written]
      rfl
    · apply (parsed_append e _ _ _ _ _).trans
      exact List.append_nil _
    · apply (ran_append e _ _ _ _ _).trans
      exact List.append_nil _

end Endpoint

def Action.request? : Action → Option (UInt64 × Nat)
  | .sent call id true => some (id, call)
  | _ => none

/-- A connection and its peer: the requests that were accepted for sending and that the peer has not answered,
    its responses on the way, and what it has answered. The calls beside the messages are for the proofs only. -/
structure Conversation where
  endpoint : Endpoint
  requests : List (UInt64 × Nat)
  responses : List (RpcMessage × Nat)
  produced : List (Nat × List UInt8)

inductive ConversationEvent where
  | moved (event : EndpointEvent)
  | answered (request : Nat) (service method : List UInt8) (response : Option (List UInt8))
  | delivered (response : Nat)

namespace Conversation

open Endpoint

def new (id : Int) (peerAddress : String) : Conversation := ⟨.new id peerAddress, [], [], []⟩

/-- The peer answers a request once, with the id it has, and a response is parsed once; both in any order. What
    else reaches the connection, requests of the peer among it, is arbitrary. -/
def step (pb : Protobuf) (c : Conversation) : ConversationEvent → Option Conversation
  | .moved event =>
    if c.endpoint.bringsResponse pb event then none
    else
      (c.endpoint.step pb event).map fun u =>
        { c with
          endpoint := u
          requests := c.requests ++ (u.log.drop c.endpoint.log.length).filterMap Action.request? }
  | .answered request service method response =>
    c.requests[request]?.map fun (id, call) =>
      { c with
        requests := c.requests.eraseIdx request
        responses := c.responses ++ [(⟨id, .response, service, method, none, response⟩, call)]
        produced := c.produced ++ [(call, response.getD [])] }
  | .delivered response =>
    c.responses[response]?.bind fun (m, _) =>
      if c.endpoint.nextMessage pb = some m then
        (c.endpoint.step pb .pass).map fun u =>
          { c with endpoint := u, responses := c.responses.eraseIdx response }
      else none

structure Conversing (c : Conversation) : Prop where
  correlated : c.endpoint.Correlated
  requests : ∀ r ∈ c.requests, r.1 = (UInt32.ofNat r.2).toUInt64 ∧ r.2 < c.endpoint.calls
  responses : ∀ r ∈ c.responses, r.1.type = .response ∧ r.1.id = (UInt32.ofNat r.2).toUInt64 ∧
    r.2 < c.endpoint.calls ∧ (r.2, r.1.response.getD []) ∈ c.produced
  once : (c.produced.map Prod.fst ++ c.requests.map Prod.snd).Nodup
  old : ∀ p ∈ c.produced, p.1 < c.endpoint.calls
  own : c.endpoint.calls ≤ 2 ^ 32 → ∀ p ∈ c.endpoint.parsed, p ∈ c.produced

variable {pb : Protobuf} {c d : Conversation}

theorem new_conversing (id : Int) (peerAddress : String) : (new id peerAddress).Conversing :=
  ⟨new_correlated id peerAddress, nofun, nofun, List.nodup_nil, nofun, fun _ => nofun⟩

theorem parsed_of_log {e u : Endpoint} (log : u.log = e.log) : u.parsed = e.parsed := by
  rw [parsed, log, Endpoint.parsed]

theorem Conversing.still (conversing : c.Conversing) {u : Endpoint} (next : u.Correlated)
    (calls : u.calls = c.endpoint.calls) (parsed : u.parsed = c.endpoint.parsed) :
    Conversing { c with endpoint := u } := by
  obtain ⟨correlated, requests, responses, once, old, own⟩ := conversing
  constructor
  · exact next
  · show ∀ r ∈ c.requests, _ ∧ r.2 < u.calls
    rw [calls]
    exact requests
  · show ∀ r ∈ c.responses, _ ∧ _ ∧ r.2 < u.calls ∧ _
    rw [calls]
    exact responses
  · exact once
  · show ∀ p ∈ c.produced, p.1 < u.calls
    rw [calls]
    exact old
  · show u.calls ≤ 2 ^ 32 → ∀ p ∈ u.parsed, p ∈ c.produced
    rw [calls, parsed]
    exact own

theorem Conversing.sent (conversing : c.Conversing) {u : Endpoint} (next : u.Correlated)
    (calls : u.calls = c.endpoint.calls + 1) (parsed : u.parsed = c.endpoint.parsed) (accepted : Bool) :
    Conversing { c with
      endpoint := u
      requests := c.requests ++
        if accepted then [((UInt32.ofNat c.endpoint.calls).toUInt64, c.endpoint.calls)] else [] } := by
  obtain ⟨correlated, requests, responses, once, old, own⟩ := conversing
  constructor
  · exact next
  · intro r member
    show _ ∧ r.2 < u.calls
    rw [calls]
    rcases List.mem_append.mp member with member | member
    · obtain ⟨id, before⟩ := requests r member
      exact ⟨id, Nat.lt_succ_of_lt before⟩
    · split at member
      · rw [List.mem_singleton.mp member]
        exact ⟨rfl, Nat.lt_succ_self _⟩
      · cases member
  · intro r member
    obtain ⟨type, id, before, made⟩ := responses r member
    show _ ∧ _ ∧ r.2 < u.calls ∧ _
    rw [calls]
    exact ⟨type, id, Nat.lt_succ_of_lt before, made⟩
  · rw [List.map_append, ← List.append_assoc]
    split
    · apply List.Nodup.append once (List.nodup_singleton _)
      intro call before new
      rw [List.mem_singleton.mp new] at before
      rcases List.mem_append.mp before with before | before
      · obtain ⟨p, member, same⟩ := List.mem_map.mp before
        have older := old p member
        omega
      · obtain ⟨r, member, same⟩ := List.mem_map.mp before
        have older := (requests r member).2
        omega
    · rw [List.map_nil, List.append_nil]
      exact once
  · intro p member
    show p.1 < u.calls
    rw [calls]
    exact Nat.lt_succ_of_lt (old p member)
  · intro few
    change u.calls ≤ 2 ^ 32 at few
    rw [parsed]
    apply own
    omega

theorem Conversing.moved (conversing : c.Conversing) {event : EndpointEvent} {u : Endpoint}
    (stepped : c.endpoint.step pb event = some u) (plain : c.endpoint.bringsResponse pb event = false) :
    Conversing { c with
      endpoint := u
      requests := c.requests ++ (u.log.drop c.endpoint.log.length).filterMap Action.request? } := by
  have next := conversing.correlated.step stepped
  cases step_logged stepped plain with
  | quiet calls log =>
    rw [log, List.drop_length, List.filterMap_nil, List.append_nil]
    exact conversing.still next calls (parsed_of_log log)
  | @replied id accepted calls log =>
    have silent : u.parsed = c.endpoint.parsed := by
      rw [parsed, log, List.filterMap_append]
      exact List.append_nil _
    have asked : (u.log.drop c.endpoint.log.length).filterMap Action.request? = [] := by
      rw [log, List.drop_left]
      rfl
    rw [asked, List.append_nil]
    exact conversing.still next calls silent
  | @sent accepted calls log =>
    have silent : u.parsed = c.endpoint.parsed := by
      rw [parsed, log, List.filterMap_append]
      exact List.append_nil _
    have asked : (u.log.drop c.endpoint.log.length).filterMap Action.request? =
        if accepted then [((UInt32.ofNat c.endpoint.calls).toUInt64, c.endpoint.calls)] else [] := by
      rw [log, List.drop_left, conversing.correlated.last]
      cases accepted <;> rfl
    rw [asked]
    exact conversing.sent next calls silent accepted

theorem Conversing.answered (conversing : c.Conversing) {request : Nat} {id : UInt64} {call : Nat}
    (at_ : c.requests[request]? = some (id, call)) (service method : List UInt8)
    (response : Option (List UInt8)) :
    Conversing { c with
      requests := c.requests.eraseIdx request
      responses := c.responses ++ [(⟨id, .response, service, method, none, response⟩, call)]
      produced := c.produced ++ [(call, response.getD [])] } := by
  obtain ⟨correlated, requests, responses, once, old, own⟩ := conversing
  have made : (id, call) ∈ c.requests := List.mem_of_getElem? at_
  obtain ⟨known, before⟩ := requests _ made
  constructor
  · exact correlated
  · intro r member
    exact requests r (List.mem_of_mem_eraseIdx member)
  · intro r member
    rcases List.mem_append.mp member with member | member
    · obtain ⟨type, id, before, produced⟩ := responses r member
      exact ⟨type, id, before, List.mem_append_left _ produced⟩
    · rw [List.mem_singleton.mp member]
      exact ⟨rfl, known, before, List.mem_append_right _ List.mem_cons_self⟩
  · obtain ⟨inside, taken⟩ := List.getElem?_eq_some_iff.mp at_
    have parts := (List.getElem_cons_eraseIdx_perm inside).map Prod.snd
    rw [taken, List.map_cons] at parts
    rw [List.map_append, List.append_assoc]
    exact ((parts.append_left _).nodup_iff).mpr once
  · intro p member
    rcases List.mem_append.mp member with member | member
    · exact old p member
    · rw [List.mem_singleton.mp member]
      exact before
  · intro few p member
    exact List.mem_append_left _ (own few p member)

theorem ofNat_inj {call other : Nat} (same : UInt32.ofNat call = UInt32.ofNat other) (small : call < 2 ^ 32)
    (below : other < 2 ^ 32) : call = other := by
  have values := congrArg UInt32.toNat same
  rwa [UInt32.toNat_ofNat', UInt32.toNat_ofNat', Nat.mod_eq_of_lt small, Nat.mod_eq_of_lt below] at values

theorem mem_parsedBytes {m : RpcMessage} {r : Response} {e : Endpoint} (more : List Action) {p : Nat × List UInt8}
    (silent : parsed ⟨e.connection, e.control, e.closes, e.calls, more⟩ = [])
    (member : p ∈ parsed ⟨e.connection, e.control, e.closes, e.calls, parsedBytes m r ++ more⟩) :
    p = (r.call, m.response.getD []) := by
  have split : parsed ⟨e.connection, e.control, e.closes, e.calls, parsedBytes m r ++ more⟩ =
      parsed ⟨e.connection, e.control, e.closes, e.calls, parsedBytes m r⟩ ++
        parsed ⟨e.connection, e.control, e.closes, e.calls, more⟩ := List.filterMap_append
  rw [split, silent, List.append_nil] at member
  unfold parsedBytes at member
  split at member
  · cases member
  · exact List.mem_singleton.mp member

theorem parsed_dispatch {e : Endpoint} {m : RpcMessage} {p : Nat × List UInt8}
    (member : p ∈ (e.dispatch m).parsed) : p ∈ e.parsed ∨ ∃ r,
      e.connection.requestIdToResponse m.id.toUInt32 = some (some r) ∧ p = (r.call, m.response.getD []) := by
  have cases := dispatch_cases e m
  generalize e.dispatch m = u at cases member
  cases cases with
  | request type => exact .inl member
  | unknown type found => exact .inl member
  | vacant type found => exact .inl member
  | @answering r type found =>
    rw [parsed_append] at member
    rcases List.mem_append.mp member with member | member
    · exact .inl member
    · exact .inr ⟨r, found, mem_parsedBytes (e := e) _ rfl member⟩
  | @silent r type found =>
    rw [parsed_append] at member
    rcases List.mem_append.mp member with member | member
    · exact .inl member
    · refine .inr ⟨r, found, mem_parsedBytes (e := e) [] rfl ?_⟩
      rw [List.append_nil]
      exact member

theorem dispatch_calls (e : Endpoint) (m : RpcMessage) : (e.dispatch m).calls = e.calls := by
  have cases := dispatch_cases e m
  generalize e.dispatch m = u at cases ⊢
  cases cases <;> rfl

theorem Conversing.delivered (conversing : c.Conversing) {response : Nat} {m : RpcMessage} {call : Nat}
    {u : Endpoint} (listed : c.responses[response]? = some (m, call))
    (next : c.endpoint.nextMessage pb = some m) (stepped : c.endpoint.step pb .pass = some u) :
    Conversing { c with endpoint := u, responses := c.responses.eraseIdx response } := by
  obtain ⟨correlated, requests, responses, once, old, own⟩ := conversing
  have after := correlated.step stepped
  obtain ⟨type, known, before, produced⟩ := responses _ (List.mem_of_getElem? listed)
  obtain ⟨left, at_, moved⟩ : ∃ left, c.endpoint.control = .parsing ∧
      u = (c.endpoint.setReadBuf left).dispatch m := by
    cases step_effect stepped with
    | broke at_ ends => simp [nextMessage, at_, ends] at next
    | stuck at_ taken =>
      rw [nextMessage_of_taken at_ taken] at next
      cases next
    | @dispatched other left at_ taken =>
      rw [nextMessage_of_taken at_ taken] at next
      obtain rfl := Option.some.inj next
      exact ⟨left, at_, rfl⟩
  have calls : u.calls = c.endpoint.calls := by
    rw [moved, dispatch_calls]
    rfl
  constructor
  · exact after
  · show ∀ r ∈ c.requests, _ ∧ r.2 < u.calls
    rw [calls]
    exact requests
  · show ∀ r ∈ c.responses.eraseIdx response, _ ∧ _ ∧ r.2 < u.calls ∧ _
    rw [calls]
    intro r member
    exact responses r (List.mem_of_mem_eraseIdx member)
  · exact once
  · show ∀ p ∈ c.produced, p.1 < u.calls
    rw [calls]
    exact old
  · show u.calls ≤ 2 ^ 32 → ∀ p ∈ u.parsed, p ∈ c.produced
    rw [calls, moved]
    intro few p member
    rcases parsed_dispatch member with member | ⟨r, found, rfl⟩
    · exact own few p member
    · -- the id that came back leads to the entry of the very call
      obtain ⟨s, its, entry, recent, _⟩ := correlated.entries _ _ found
      obtain rfl := Option.some.inj its
      rw [known, UInt32.toUInt32_toUInt64] at entry
      have same : call = r.call := ofNat_inj entry (by omega) (by omega)
      rw [← same]
      exact produced

theorem Conversing.step {event : ConversationEvent} (conversing : c.Conversing)
    (stepped : c.step pb event = some d) : d.Conversing := by
  cases event with
  | moved event =>
    simp only [Conversation.step] at stepped
    split at stepped
    · cases stepped
    · rename_i plain
      obtain ⟨u, moved, rfl⟩ := Option.map_eq_some_iff.mp stepped
      exact conversing.moved moved (Bool.eq_false_iff.mpr plain)
  | answered request service method response =>
    obtain ⟨⟨id, call⟩, at_, rfl⟩ := Option.map_eq_some_iff.mp stepped
    exact conversing.answered at_ service method response
  | delivered response =>
    obtain ⟨⟨m, call⟩, at_, stepped⟩ := Option.bind_eq_some_iff.mp stepped
    dsimp only at stepped
    split at stepped
    · rename_i next
      obtain ⟨u, moved, rfl⟩ := Option.map_eq_some_iff.mp stepped
      exact conversing.delivered at_ next moved
    · cases stepped

/-- Whatever the peer sends, every closure runs at most once, and messages of the other direction touch no call;
    and when the peer answers each request at most once with the id it has, every response is parsed into the
    object of the call the peer has answered with it. -/
theorem calls_correlated (pb : Protobuf) (id : Int) (peerAddress : String) :
    (∀ events e, run (Endpoint.step pb) (Endpoint.new id peerAddress) events = some e → e.ran.Nodup ∧
      (∀ m u, e.nextMessage pb = some m → m.type = .request → e.step pb .pass = some u → SameCalls e u) ∧
      ∀ requestId service method response answers u,
        e.step pb (.called (.onServiceDone requestId service method response) answers) = some u → SameCalls e u) ∧
    ∀ events c, run (step pb) (new id peerAddress) events = some c → c.endpoint.calls ≤ 2 ^ 32 →
      (c.produced.map Prod.fst).Nodup ∧ ∀ p ∈ c.endpoint.parsed, p ∈ c.produced := by
  constructor
  · intro events e replay
    have correlated : e.Correlated := run_invariant (fun _ _ _ correlated stepped => correlated.step stepped)
      (new_correlated id peerAddress) replay
    refine ⟨correlated.ranOnce, ?_, ?_⟩
    · intro m u next type stepped
      exact request_spares_calls next type stepped
    · intro requestId service method response answers u stepped
      exact reply_spares_calls stepped
  · intro events c replay few
    have conversing : c.Conversing := run_invariant (fun _ _ _ conversing stepped => conversing.step stepped)
      (new_conversing id peerAddress) replay
    exact ⟨(List.nodup_append.mp conversing.once).1, conversing.own few⟩

/-- Two calls, answered in the other order. -/
def exchange : List ConversationEvent :=
  [.moved (.read errIoPending []), .moved (.called (.callMethod [1] [2] [3] (some ())) [24]),
    .moved (.called (.callMethod [1] [2] [4] (some ())) [24]), .answered 1 [1] [2] (some [7]),
    .answered 0 [1] [2] (some [6]),
    .moved (.readCompleted 48 (wireFormat.frame ⟨1, .response, [1], [2], none, some [7]⟩ ++
      wireFormat.frame ⟨0, .response, [1], [2], none, some [6]⟩)),
    .delivered 0, .moved .returned, .delivered 0, .moved .returned, .moved .pass]

theorem calls_correlated_exchange :
    ∃ c, run (step wireFormat) (new 0 "10.0.0.1") exchange = some c ∧ c.endpoint.parsed = [(1, [7]), (0, [6])] ∧
      (c.produced.map Prod.fst).Nodup ∧ ∀ p ∈ c.endpoint.parsed, p ∈ c.produced := by
  have answered : (run (step wireFormat) (new 0 "10.0.0.1") exchange).map (fun c =>
      (c.endpoint.parsed, c.endpoint.calls)) = some ([(1, [7]), (0, [6])], 2) := by
    decide +kernel
  obtain ⟨c, replay, shape⟩ := Option.map_eq_some_iff.mp answered
  obtain ⟨parsed, calls⟩ := Prod.mk.inj shape
  have few : c.endpoint.calls ≤ 2 ^ 32 := by
    rw [calls]
    decide
  exact ⟨c, replay, parsed, (calls_correlated wireFormat 0 "10.0.0.1").2 exchange c replay few⟩

end Conversation

end DistributedNinja.Rpc
