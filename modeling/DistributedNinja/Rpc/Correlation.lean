import DistributedNinja.Rpc.Endpoint
import Mathlib.Data.List.Nodup

namespace DistributedNinja.Rpc

open Lib

namespace Endpoint

variable {pb : Protobuf} {e u : Endpoint} {event : EndpointEvent}

/-- Every entry belongs to the call its id was made for, and its closure has not run, but for the one that runs
    now and is erased when it returns. -/
structure Correlated (e : Endpoint) : Prop where
  last : e.connection.lastRequestId = UInt32.ofNat e.calls
  entries : ∀ id entry, e.connection.requestIdToResponse id = some entry → ∃ r, entry = some r ∧
    id = UInt32.ofNat r.call ∧ r.call < e.calls ∧ (e.control ≠ .answering id → r.call ∉ e.ran)
  ranOnce : e.ran.Nodup
  ranOld : ∀ call ∈ e.ran, call < e.calls

theorem new_correlated (id : Int) (peerAddress : String) : (new id peerAddress).Correlated :=
  ⟨rfl, nofun, List.nodup_nil, nofun⟩

theorem Correlated.congr (correlated : e.Correlated)
    (last : u.connection.lastRequestId = e.connection.lastRequestId)
    (entries : u.connection.requestIdToResponse = e.connection.requestIdToResponse) (calls : u.calls = e.calls)
    (log : u.log = e.log) (still : ∀ id, u.control ≠ .answering id → e.control ≠ .answering id) :
    u.Correlated := by
  have ran : u.ran = e.ran := by rw [ran, log, Endpoint.ran]
  constructor
  · rw [last, calls]
    exact correlated.last
  · intro id entry at_
    rw [entries] at at_
    obtain ⟨r, known, own, old, fresh⟩ := correlated.entries id entry at_
    rw [calls, ran]
    exact ⟨r, known, own, old, fun other => fresh (still id other)⟩
  · rw [ran]
    exact correlated.ranOnce
  · rw [ran, calls]
    exact correlated.ranOld

theorem not_answering {control : Control} (at_ : e.control = control) (plain : ∀ id, control ≠ .answering id)
    (id : UInt32) : e.control ≠ .answering id := by
  rw [at_]
  exact plain id

theorem Correlated.moved (correlated : e.Correlated)
    (last : u.connection.lastRequestId = e.connection.lastRequestId)
    (entries : u.connection.requestIdToResponse = e.connection.requestIdToResponse) (calls : u.calls = e.calls)
    (log : u.log = e.log) (plain : ∀ id, e.control ≠ .answering id) : u.Correlated :=
  correlated.congr last entries calls log fun id _ => plain id

theorem Correlated.erase (correlated : e.Correlated) (id : UInt32) {control : Control}
    (still : ∀ other, other ≠ id → control ≠ .answering other → e.control ≠ .answering other) :
    Correlated { e.eraseRequest id with control := control } := by
  refine ⟨correlated.last, ?_, correlated.ranOnce, correlated.ranOld⟩
  intro other entry at_
  change Function.update e.connection.requestIdToResponse id none other = some entry at at_
  by_cases same : other = id
  · rw [same, Function.update_self] at at_
    cases at_
  · rw [Function.update_of_ne same] at at_
    obtain ⟨r, known, own, old, fresh⟩ := correlated.entries other entry at_
    exact ⟨r, known, own, old, fun elsewhere => fresh (still other same elsewhere)⟩

theorem ran_append (e : Endpoint) (more : List Action) (c : RpcConnection Response) (control : Control)
    (closes calls : Nat) :
    ran ⟨c, control, closes, calls, e.log ++ more⟩ = e.ran ++ ran ⟨c, control, closes, calls, more⟩ :=
  List.filterMap_append

theorem parsed_append (e : Endpoint) (more : List Action) (c : RpcConnection Response) (control : Control)
    (closes calls : Nat) :
    parsed ⟨c, control, closes, calls, e.log ++ more⟩ = e.parsed ++ parsed ⟨c, control, closes, calls, more⟩ :=
  List.filterMap_append

theorem ran_parsedBytes (m : RpcMessage) (r : Response) (c : RpcConnection Response) (control : Control)
    (closes calls : Nat) : ran ⟨c, control, closes, calls, parsedBytes m r⟩ = [] := by
  unfold parsedBytes
  split <;> rfl

theorem entries_callMethod {service method request : List UInt8} {done : Option Unit}
    {d : RpcConnection Response}
    (written : Written (e.connection.enqueue pb (e.named (.callMethod service method request done))) d) :
    d.requestIdToResponse = Function.update e.connection.requestIdToResponse e.connection.lastRequestId
      (some (some ⟨e.calls, done.isSome⟩)) := by
  rw [written]
  show Function.update _ e.connection.lastRequestId.toUInt64.toUInt32 _ = _
  rw [UInt32.toUInt32_toUInt64]

theorem Correlated.callMethod (correlated : e.Correlated) {service method request : List UInt8}
    {done : Option Unit} {accepted : Bool} {d : RpcConnection Response} {closes : Nat}
    (written : Written (e.connection.enqueue pb (e.named (.callMethod service method request done))) d) :
    Correlated { e.record accepted (.callMethod service method request done) with
      connection := d, closes := closes } := by
  have same : ran { e.record accepted (.callMethod service method request done) with
      connection := d, closes := closes } = e.ran := by
    apply (ran_append e _ _ _ _ _).trans
    exact List.append_nil _
  constructor
  · have last : d.lastRequestId = e.connection.lastRequestId + 1 := by
      rw [written]
      rfl
    show d.lastRequestId = UInt32.ofNat (e.calls + 1)
    rw [last, correlated.last, UInt32.ofNat_add]
    rfl
  · intro id entry at_
    change d.requestIdToResponse id = some entry at at_
    rw [entries_callMethod written] at at_
    rw [same]
    by_cases new : id = e.connection.lastRequestId
    · rw [new, Function.update_self, Option.some.injEq] at at_
      refine ⟨⟨e.calls, done.isSome⟩, at_.symm, new.trans correlated.last, Nat.lt_succ_self _, ?_⟩
      intro _ member
      exact Nat.lt_irrefl _ (correlated.ranOld _ member)
    · rw [Function.update_of_ne new] at at_
      obtain ⟨r, known, own, old, fresh⟩ := correlated.entries id entry at_
      exact ⟨r, known, own, Nat.lt_succ_of_lt old, fresh⟩
  · rw [same]
    exact correlated.ranOnce
  · rw [same]
    intro call member
    exact Nat.lt_succ_of_lt (correlated.ranOld call member)

theorem Correlated.answering (correlated : e.Correlated) (at_ : e.control = .parsing) {m : RpcMessage}
    {r : Response} (found : e.connection.requestIdToResponse m.id.toUInt32 = some (some r)) :
    Correlated { e with
      control := .answering m.id.toUInt32
      log := e.log ++ (parsedBytes m r ++ [.ran r.call]) } := by
  have same : ran { e with
      control := .answering m.id.toUInt32
      log := e.log ++ (parsedBytes m r ++ [.ran r.call]) } = e.ran ++ [r.call] := by
    rw [ran_append]
    congr 1
    apply List.filterMap_append.trans
    show ran ⟨e.connection, e.control, e.closes, e.calls, parsedBytes m r⟩ ++ _ = _
    rw [ran_parsedBytes]
    rfl
  have elsewhere : ∀ id, e.control ≠ .answering id := not_answering at_ nofun
  obtain ⟨s, known, own, old, fresh⟩ := correlated.entries _ _ found
  obtain rfl := Option.some.inj known
  have unrun := fresh (elsewhere _)
  constructor
  · exact correlated.last
  · intro id entry there
    obtain ⟨other, known, its, before, waits⟩ := correlated.entries id entry there
    refine ⟨other, known, its, before, ?_⟩
    intro different member
    rw [same] at member
    rcases List.mem_append.mp member with member | member
    · exact waits (elsewhere id) member
    · have call : other.call = _ := List.mem_singleton.mp member
      rw [call, ← own] at its
      exact different (by rw [its])
  · rw [same]
    apply List.Nodup.append correlated.ranOnce (List.nodup_singleton _)
    intro call before after
    rw [List.mem_singleton.mp after] at before
    exact unrun before
  · rw [same]
    intro call member
    rcases List.mem_append.mp member with member | member
    · exact correlated.ranOld call member
    · rw [List.mem_singleton.mp member]
      exact old

inductive Dispatch (e : Endpoint) (m : RpcMessage) : Endpoint → Prop where
  | request (type : m.type = .request) : Dispatch e m { e with control := .serving }
  | unknown (type : m.type = .response) (found : e.connection.requestIdToResponse m.id.toUInt32 = none) :
      Dispatch e m e
  | vacant (type : m.type = .response)
      (found : e.connection.requestIdToResponse m.id.toUInt32 = some none) :
      Dispatch e m (e.eraseRequest m.id.toUInt32)
  | answering {r : Response} (type : m.type = .response)
      (found : e.connection.requestIdToResponse m.id.toUInt32 = some (some r)) :
      Dispatch e m { e with
        control := .answering m.id.toUInt32
        log := e.log ++ (parsedBytes m r ++ [.ran r.call]) }
  | silent {r : Response} (type : m.type = .response)
      (found : e.connection.requestIdToResponse m.id.toUInt32 = some (some r)) :
      Dispatch e m { e.eraseRequest m.id.toUInt32 with log := e.log ++ parsedBytes m r }

theorem dispatch_cases (e : Endpoint) (m : RpcMessage) : Dispatch e m (e.dispatch m) := by
  unfold dispatch
  split
  · rename_i type
    exact .request type
  · rename_i type
    split
    · rename_i found
      exact .unknown type found
    · rename_i found
      exact .vacant type found
    · rename_i r found
      split
      · exact .answering type found
      · exact .silent type found

theorem Correlated.dispatch (correlated : e.Correlated) (at_ : e.control = .parsing) (m : RpcMessage) :
    (e.dispatch m).Correlated := by
  have elsewhere : ∀ id, e.control ≠ .answering id := not_answering at_ nofun
  have cases := dispatch_cases e m
  generalize e.dispatch m = u at cases ⊢
  cases cases with
  | request type => exact correlated.congr rfl rfl rfl rfl fun id _ => elsewhere id
  | unknown type found => exact correlated
  | vacant type found => exact correlated.erase _ fun other _ _ => elsewhere other
  | answering type found => exact correlated.answering at_ found
  | @silent r type found =>
    have erased : Correlated (e.eraseRequest m.id.toUInt32) := correlated.erase _ fun other _ _ => elsewhere other
    have same : ran { e.eraseRequest m.id.toUInt32 with log := e.log ++ parsedBytes m r } = e.ran := by
      rw [ran_append, ran_parsedBytes, List.append_nil]
    constructor
    · exact erased.last
    · rw [same]
      exact erased.entries
    · rw [same]
      exact erased.ranOnce
    · rw [same]
      exact erased.ranOld

theorem Correlated.step (correlated : e.Correlated) (stepped : e.step pb event = some u) : u.Correlated := by
  cases step_effect stepped with
  | @called request answers d closes may written more =>
    cases request with
    | callMethod service method request done => exact correlated.callMethod written
    | onServiceDone requestId service method response =>
      have entries : d.requestIdToResponse = e.connection.requestIdToResponse := by
        rw [written]
        rfl
      have last : d.lastRequestId = e.connection.lastRequestId := by
        rw [written]
        rfl
      have same : ran { e.record (e.connection.accepts pb
          (e.named (.onServiceDone requestId service method response))) (.onServiceDone requestId service
            method response) with connection := d, closes := closes } = e.ran := by
        apply (ran_append e _ _ _ _ _).trans
        exact List.append_nil _
      constructor
      · show d.lastRequestId = UInt32.ofNat e.calls
        rw [last]
        exact correlated.last
      · show ∀ id entry, d.requestIdToResponse id = some entry → _
        rw [entries, same]
        exact correlated.entries
      · rw [same]
        exact correlated.ranOnce
      · rw [same]
        exact correlated.ranOld
  | wrote at_ written more =>
    apply correlated.congr
    · rw [written]
    · rw [written]
    · rfl
    · rfl
    · exact fun _ still => still
  | noRoom at_ full => exact correlated.moved rfl rfl rfl rfl (not_answering at_ nofun)
  | waits at_ made => exact correlated.moved rfl rfl rfl rfl (not_answering at_ nofun)
  | readEnded at_ made => exact correlated.moved rfl rfl rfl rfl (not_answering at_ nofun)
  | readData at_ made read => exact correlated.moved rfl rfl rfl rfl (not_answering at_ nofun)
  | completedEnded at_ => exact correlated.moved rfl rfl rfl rfl (not_answering at_ nofun)
  | completedData at_ read => exact correlated.moved rfl rfl rfl rfl (not_answering at_ nofun)
  | broke at_ ends => exact correlated.moved rfl rfl rfl rfl (not_answering at_ nofun)
  | stuck at_ taken => exact correlated.congr rfl rfl rfl rfl fun _ still => still
  | @dispatched m next at_ taken =>
    have moved : (e.setReadBuf next).Correlated := correlated.congr rfl rfl rfl rfl fun _ still => still
    exact moved.dispatch at_ m
  | served at_ => exact correlated.moved rfl rfl rfl rfl (not_answering at_ nofun)
  | @answered id at_ =>
    apply correlated.erase id
    intro other different _ answers
    rw [at_] at answers
    cases answers
    exact different rfl

end Endpoint

end DistributedNinja.Rpc
