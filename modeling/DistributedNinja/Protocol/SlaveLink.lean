import DistributedNinja.Slave.Custody

namespace DistributedNinja.Protocol

open Lib Proto Slave

variable {SlaveEdge : Type} [DecidableEq SlaveEdge]

/-- A slave and its connection to the master: the requests and the responses that are under way. Of a context
    only the response is sent; the request stays for the proofs. -/
structure SlaveLink (T : Setting SlaveEdge) where
  requests : List RunCommandRequest
  slave : Option (SlaveMainRunner T)
  responses : List RunCommandContext

/-- What happens on the side of the slave. A message that is not accepted for sending is lost, and so is what
    is under way when the connection breaks. -/
inductive LinkEvent (SlaveEdge : Type) where
  | slaveStarted
  | requestReceived (done : Nat)
  | slave (event : SlaveEvent SlaveEdge)
  | responseSent (accepted : Bool)
  | disconnected

namespace SlaveLink

variable {T : Setting SlaveEdge}

def new (T : Setting SlaveEdge) : SlaveLink T := ⟨[], none, []⟩

def step (l : SlaveLink T) : LinkEvent SlaveEdge → Option (SlaveLink T)
  | .slaveStarted =>
    match l.slave with
    | none => (SlaveMainRunner.postCreateThreads T).map fun s => { l with slave := some s }
    | some _ => none
  | .requestReceived done =>
    match l.requests, l.slave with
    | request :: rest, some s =>
      (s.step (.requestPosted request done)).map fun s => { l with requests := rest, slave := some s }
    | _, _ => none
  | .slave (.requestPosted _ _) => none
  | .slave event => l.slave.bind fun s => (s.step event).map fun s => { l with slave := some s }
  | .responseSent accepted =>
    l.slave.bind fun s =>
      match s.rpcPosts with
      | [] => none
      | context :: rest =>
        some { l with
          slave := some { s with rpcPosts := rest }
          responses := l.responses ++ if accepted then [context] else [] }
  | .disconnected => some { l with requests := [], responses := [] }

variable {l k : SlaveLink T} {event : LinkEvent SlaveEdge} {delivered asked : (RunCommandRequest → Bool) → Nat}

/-- Of any kind of request, no more were delivered as responses or are still with the slave and on the way
    than the master has sent; and what the slave has sent is faithful. -/
def Carries (delivered asked : (RunCommandRequest → Bool) → Nat) (l : SlaveLink T) : Prop :=
  ∃ bound, (∀ s, l.slave = some s → s.Truthful ∧ s.Custody bound) ∧
    (∀ context ∈ l.responses, SlaveMainRunner.Faithful context) ∧
    ∀ p, delivered p + l.responses.countP (fun context => p context.request) + bound p +
      l.requests.countP p ≤ asked p

theorem new_carries : (new T).Carries (fun _ => 0) fun _ => 0 :=
  ⟨fun _ => 0, nofun, nofun, fun _ => Nat.le_refl 0⟩

section Steps

variable {s t : SlaveMainRunner T}

theorem Carries.start (carries : l.Carries delivered asked)
    (created : SlaveMainRunner.postCreateThreads T = some s) :
    Carries delivered asked { l with slave := some s } := by
  obtain ⟨bound, here, faithful, counted⟩ := carries
  obtain ⟨truthful, custody⟩ := SlaveMainRunner.postCreateThreads_custody created
  refine ⟨bound, ?_, faithful, counted⟩
  intro u same
  cases same
  exact ⟨truthful, custody.mono fun p => Nat.zero_le _⟩

theorem Carries.receive {request : RunCommandRequest} {rest : List RunCommandRequest} {done : Nat}
    (carries : l.Carries delivered asked) (started : l.slave = some s) (waiting : l.requests = request :: rest)
    (posted : s.step (.requestPosted request done) = some t) :
    Carries delivered asked { l with requests := rest, slave := some t } := by
  obtain ⟨bound, here, faithful, counted⟩ := carries
  obtain ⟨truthful, custody⟩ := here s started
  refine ⟨fun p => bound p + [request].countP p, ?_, faithful, ?_⟩
  · intro u same
    cases same
    exact ⟨truthful.step posted, custody.step posted⟩
  · intro p
    have before := counted p
    simp only [waiting, List.countP_cons, List.countP_nil] at before ⊢
    omega

theorem Carries.work {event : SlaveEvent SlaveEdge} (carries : l.Carries delivered asked)
    (started : l.slave = some s) (silent : event.brings = []) (moved : s.step event = some t) :
    Carries delivered asked { l with slave := some t } := by
  obtain ⟨bound, here, faithful, counted⟩ := carries
  obtain ⟨truthful, custody⟩ := here s started
  refine ⟨bound, ?_, faithful, counted⟩
  intro u same
  cases same
  have next := custody.step moved
  rw [silent] at next
  exact ⟨truthful.step moved, next⟩

theorem Carries.sendResponse {context : RunCommandContext} {rest : List RunCommandContext}
    (carries : l.Carries delivered asked) (started : l.slave = some s)
    (posted : s.rpcPosts = context :: rest) (accepted : Bool) :
    Carries delivered asked { l with
      slave := some { s with rpcPosts := rest }
      responses := l.responses ++ if accepted then [context] else [] } := by
  obtain ⟨bound, here, faithful, counted⟩ := carries
  obtain ⟨truthful, waiting, lists, held⟩ := here s started
  refine ⟨fun p => bound p - [context.request].countP p, ?_, ?_, ?_⟩
  · intro u same
    cases same
    refine ⟨⟨truthful.waiting, truthful.pool, ?_⟩, waiting, lists, ?_⟩
    · intro other member
      exact truthful.posted other (posted ▸ List.mem_cons_of_mem _ member)
    · intro p
      have before := held p
      simp only [SlaveMainRunner.load, posted, List.countP_cons, List.countP_nil] at before ⊢
      omega
  · intro other member
    rcases List.mem_append.mp member with member | member
    · exact faithful other member
    · split at member
      · rw [List.mem_singleton.mp member]
        exact truthful.posted context (posted ▸ List.mem_cons_self)
      · cases member
  · intro p
    have before := counted p
    have inside := held p
    simp only [SlaveMainRunner.load, posted, List.countP_cons] at inside
    cases accepted with
    | false =>
      simp only [Bool.false_eq_true, ↓reduceIte, List.append_nil]
      omega
    | true =>
      simp only [↓reduceIte, List.countP_append, List.countP_cons, List.countP_nil]
      omega

theorem Carries.disconnect (carries : l.Carries delivered asked) :
    Carries delivered asked { l with requests := [], responses := [] } := by
  obtain ⟨bound, here, faithful, counted⟩ := carries
  refine ⟨bound, here, nofun, ?_⟩
  intro p
  have before := counted p
  simp only [List.countP_nil]
  omega

end Steps

theorem Carries.step (carries : l.Carries delivered asked) (stepped : l.step event = some k) :
    k.Carries delivered asked := by
  cases event with
  | slaveStarted =>
    simp only [SlaveLink.step] at stepped
    split at stepped
    · obtain ⟨s, created, rfl⟩ := Option.map_eq_some_iff.mp stepped
      exact carries.start created
    · cases stepped
  | requestReceived done =>
    simp only [SlaveLink.step] at stepped
    split at stepped
    · rename_i request rest s waiting started
      obtain ⟨t, posted, rfl⟩ := Option.map_eq_some_iff.mp stepped
      exact carries.receive started waiting posted
    · cases stepped
  | slave event =>
    have silent : event.brings = [] ∧
        (l.slave.bind fun s => (s.step event).map fun s => { l with slave := some s }) = some k := by
      cases event with
      | requestPosted => cases stepped
      | taskRun | exited | digested => exact ⟨rfl, stepped⟩
    obtain ⟨silent, stepped⟩ := silent
    obtain ⟨s, started, stepped⟩ := Option.bind_eq_some_iff.mp stepped
    obtain ⟨t, moved, rfl⟩ := Option.map_eq_some_iff.mp stepped
    exact carries.work started silent moved
  | responseSent accepted =>
    obtain ⟨s, started, stepped⟩ := Option.bind_eq_some_iff.mp stepped
    split at stepped
    · cases stepped
    · rename_i context rest posted
      cases stepped
      exact carries.sendResponse started posted accepted
  | disconnected =>
    cases stepped
    exact carries.disconnect

end SlaveLink

end DistributedNinja.Protocol
