import DistributedNinja.Rpc.SocketServer

namespace DistributedNinja.Rpc.RpcSocketServer

open Lib

variable {Done : Type} {pb : Protobuf} {s t : RpcSocketServer Done} {pointer : Nat}

def closed (s : RpcSocketServer Done) : List Nat := s.closes.map CloseCall.pointer

/-- What holds in every run, however often a connection is closed: the id of a connection is registered up
    to its first `OnClose`, and every `OnClose` posts a deletion. -/
structure Consistent (s : RpcSocketServer Done) : Prop where
  counted : s.lastId = s.nextPointer
  numbered : s.Numbered
  allocated : ∀ pointer, (s.heap pointer).isSome = true → pointer < s.nextPointer ∧ pointer ∉ s.deleted
  closedBelow : ∀ pointer ∈ s.closed, pointer < s.nextPointer
  registered : ∀ pointer < s.nextPointer, (s.findConnection pointer).isSome = true ↔ pointer ∉ s.closed
  posts : s.closed = s.deleted ++ s.posted
  checks : Grounded (fun before call => call.registered = true ↔
    call.pointer ∉ before.map CloseCall.pointer) s.closes

theorem new_consistent : (new : RpcSocketServer Done).Consistent where
  counted := rfl
  numbered := nofun
  allocated := nofun
  closedBelow := nofun
  registered := nofun
  posts := rfl
  checks := fun before _ _ shape => absurd shape (by cases before <;> nofun)

theorem closed_onClose (id : Int) (pointer : Nat) : (s.onClose id pointer).closed = s.closed ++ [pointer] := by
  simp [closed, onClose]

theorem Consistent.onClose (consistent : s.Consistent) (live : (s.heap pointer).isSome = true) :
    (s.onClose pointer pointer).Consistent where
  counted := consistent.counted
  numbered := consistent.numbered
  allocated := consistent.allocated
  closedBelow := by
    intro other member
    rw [closed_onClose] at member
    rcases List.mem_append.mp member with member | member
    · exact consistent.closedBelow other member
    · rw [List.mem_singleton.mp member]
      exact (consistent.allocated pointer live).1
  registered := by
    intro other below
    have before := consistent.registered other below
    rw [closed_onClose, List.mem_append, List.mem_singleton]
    by_cases same : other = pointer
    · subst same
      simp [findConnection, RpcSocketServer.onClose]
    · have different : (other : Int) ≠ pointer := by omega
      simpa [findConnection, RpcSocketServer.onClose, same, different] using before
  posts := by
    rw [closed_onClose, consistent.posts, List.append_assoc]
    rfl
  checks := consistent.checks.append (consistent.registered pointer (consistent.allocated pointer live).1)

theorem Effect.closed {failed : List Nat} (effect : Effect s t failed) : t.closed = s.closed ++ failed := by
  have folded : (s.closeAll failed).closed = s.closed ++ failed := by
    clear effect
    induction failed generalizing s with
    | nil => simp [closeAll]
    | cons pointer rest ih =>
      rw [closeAll, List.foldl_cons]
      refine ih.trans ?_
      rw [closed_onClose, List.append_assoc]
      rfl
  rw [effect.books]
  exact folded

theorem Effect.lastId {failed : List Nat} (effect : Effect s t failed) : t.lastId = s.lastId := by
  have folded : (s.closeAll failed).lastId = s.lastId := by
    clear effect
    induction failed generalizing s with
    | nil => rfl
    | cons pointer rest ih => exact ih (s := s.onClose pointer pointer)
  rw [effect.books]
  exact folded

theorem Effect.consistent {failed : List Nat} (effect : Effect s t failed) (consistent : s.Consistent) :
    t.Consistent := by
  have folded : (s.closeAll failed).Consistent ∧ (s.closeAll failed).heap = s.heap := by
    have live := effect.live
    clear effect
    induction failed generalizing s with
    | nil => exact ⟨consistent, rfl⟩
    | cons pointer rest ih =>
      apply ih (consistent.onClose (live pointer List.mem_cons_self))
      intro other member
      exact live other (List.mem_cons_of_mem _ member)
  obtain ⟨books, heap⟩ := folded
  have numbered := effect.numbered consistent.numbered
  have allocated := effect.isSome
  rw [effect.books]
  exact {
    counted := books.counted
    numbered := numbered
    allocated := by
      intro pointer live
      apply books.allocated
      rw [heap, ← allocated]
      exact live
    closedBelow := books.closedBelow
    registered := books.registered
    posts := books.posts
    checks := books.checks }

theorem Consistent.newConnection (consistent : s.Consistent) (peer : String) :
    (s.newConnection peer).Consistent where
  counted := by
    show s.lastId + 1 = ((s.nextPointer + 1 : Nat) : Int)
    rw [consistent.counted, Int.natCast_add]
    rfl
  numbered := by
    intro pointer c found
    by_cases fresh : pointer = s.nextPointer
    · subst fresh
      simp only [RpcSocketServer.newConnection, store, Function.update_self, Option.some.injEq] at found
      rw [← found]
      exact consistent.counted
    · simp only [RpcSocketServer.newConnection, store, ne_eq, fresh, not_false_eq_true,
        Function.update_of_ne] at found
      exact consistent.numbered pointer c found
  allocated := by
    intro pointer live
    show pointer < s.nextPointer + 1 ∧ pointer ∉ s.deleted
    by_cases fresh : pointer = s.nextPointer
    · refine ⟨by omega, ?_⟩
      intro deleted
      have below := consistent.closedBelow pointer
      rw [consistent.posts] at below
      have := below (List.mem_append_left _ deleted)
      omega
    · simp only [RpcSocketServer.newConnection, store, ne_eq, fresh, not_false_eq_true,
        Function.update_of_ne] at live
      have before := consistent.allocated pointer live
      exact ⟨by omega, before.2⟩
  closedBelow := fun pointer member => Nat.lt_succ_of_lt (consistent.closedBelow pointer member)
  registered := by
    intro pointer below
    change pointer < s.nextPointer + 1 at below
    show _ ↔ pointer ∉ s.closed
    by_cases fresh : pointer = s.nextPointer
    · have absent : pointer ∉ s.closed := by
        intro member
        have := consistent.closedBelow pointer member
        omega
      simp [findConnection, RpcSocketServer.newConnection, consistent.counted, fresh, fresh ▸ absent]
    · have different : (pointer : Int) ≠ s.nextPointer := by omega
      simpa [findConnection, RpcSocketServer.newConnection, consistent.counted, different] using
        consistent.registered pointer (by omega)
  posts := consistent.posts
  checks := consistent.checks

theorem Consistent.runDeletion (consistent : s.Consistent) (ran : s.runDeletion = some t) :
    t.Consistent ∧ t.closed = s.closed := by
  unfold RpcSocketServer.runDeletion at ran
  split at ran
  · cases ran
  · rename_i pointer rest posted
    obtain ⟨c, found, rfl⟩ := Option.map_eq_some_iff.mp ran
    refine ⟨?_, rfl⟩
    have kept : ∀ {other}, (Function.update s.heap pointer none other).isSome = true →
        other ≠ pointer ∧ (s.heap other).isSome = true := by
      intro other live
      by_cases same : other = pointer
      · subst same
        simp at live
      · exact ⟨same, by simpa [same] using live⟩
    exact {
      counted := consistent.counted
      numbered := by
        intro other d at_
        obtain ⟨different, _⟩ := kept (Option.isSome_iff_exists.mpr ⟨d, at_⟩)
        exact consistent.numbered other d (by simpa [different] using at_)
      allocated := by
        intro other live
        obtain ⟨different, live⟩ := kept live
        have before := consistent.allocated other live
        exact ⟨before.1, by simp [before.2, different]⟩
      closedBelow := consistent.closedBelow
      registered := consistent.registered
      posts := by
        refine consistent.posts.trans ?_
        rw [posted, List.append_assoc]
        rfl
      checks := consistent.checks }

theorem step_spec {event : ServerEvent Done} (consistent : s.Consistent)
    (stepped : s.step pb event = some t) :
    t.Consistent ∧ t.closed = s.closed ++ event.failures s.nextPointer ∧
      ∀ pointer ∈ event.failures s.nextPointer, pointer ∉ s.deleted := by
  have of_effect : ∀ {v failed}, v.Consistent → v.closed = s.closed → v.deleted = s.deleted →
      Effect v t failed →
      t.Consistent ∧ t.closed = s.closed ++ failed ∧ ∀ pointer ∈ failed, pointer ∉ s.deleted := by
    intro v failed start closed deleted effect
    refine ⟨effect.consistent start, closed ▸ effect.closed, ?_⟩
    intro pointer member
    rw [← deleted]
    exact (start.allocated pointer (effect.live pointer member)).2
  cases event with
  | accepted peer reads onConnect =>
    obtain ⟨v, looped, made⟩ := Option.bind_eq_some_iff.mp stepped
    have start := consistent.newConnection peer
    have first := doReadLoop_effect start.numbered looped
    exact of_effect start rfl rfl (first.trans (makeCalls_effect (first.numbered start.numbered) made))
  | readCompleted pointer read rest =>
    exact of_effect consistent rfl rfl (onReadCompleted_effect consistent.numbered stepped)
  | writeCompleted pointer rv answers =>
    exact of_effect consistent rfl rfl (onWriteCompleted_effect consistent.numbered stepped)
  | called write => exact of_effect consistent rfl rfl (callConnection_effect consistent.numbered stepped)
  | deletionRun =>
    obtain ⟨after, closed⟩ := consistent.runDeletion stepped
    exact ⟨after, by rw [closed, ServerEvent.failures, List.append_nil], nofun⟩

theorem step_lastId {event : ServerEvent Done} (consistent : s.Consistent) (stepped : s.step pb event = some t) :
    t.lastId = if event.accepts then s.lastId + 1 else s.lastId := by
  have numbered := consistent.numbered
  cases event with
  | accepted peer reads onConnect =>
    obtain ⟨v, looped, made⟩ := Option.bind_eq_some_iff.mp stepped
    have start := consistent.newConnection peer
    have first := doReadLoop_effect start.numbered looped
    exact (first.trans (makeCalls_effect (first.numbered start.numbered) made)).lastId
  | readCompleted pointer read rest => exact (onReadCompleted_effect numbered stepped).lastId
  | writeCompleted pointer rv answers => exact (onWriteCompleted_effect numbered stepped).lastId
  | called write => exact (callConnection_effect numbered stepped).lastId
  | deletionRun =>
    unfold RpcSocketServer.step RpcSocketServer.runDeletion at stepped
    dsimp only at stepped
    split at stepped
    · cases stepped
    · obtain ⟨_, _, rfl⟩ := Option.map_eq_some_iff.mp stepped
      rfl

/-- `OnClose` ran at most once for a connection, its `DCHECK` held, and `DeleteSoon` was posted at most once
    for the object. -/
structure ClosedOnce (s : RpcSocketServer Done) : Prop where
  once : s.closed.Nodup
  registered : ∀ call ∈ s.closes, call.registered = true
  deletedOnce : (s.deleted ++ s.posted).Nodup

/-- The sockets report a failure at most once for a connection, and not once its deletion is posted. -/
def FailsWhileOpen (s : RpcSocketServer Done) (event : ServerEvent Done) : Prop :=
  (event.failures s.nextPointer).Nodup ∧ ∀ pointer ∈ event.failures s.nextPointer, pointer ∉ s.posted

theorem Consistent.closedOnce_iff (consistent : s.Consistent) : s.ClosedOnce ↔ s.closed.Nodup := by
  refine ⟨ClosedOnce.once, fun once => ⟨once, ?_, consistent.posts ▸ once⟩⟩
  intro call member
  obtain ⟨before, after, shape⟩ := List.append_of_mem member
  apply (consistent.checks before call after shape).mpr
  rw [closed, shape, List.map_append, List.map_cons] at once
  intro earlier
  exact (List.nodup_append.mp once).2.2 _ earlier _ List.mem_cons_self rfl

theorem run_nodup_iff {events : List (ServerEvent Done)} (consistent : s.Consistent)
    (replay : run (step pb) s events = some t) :
    t.Consistent ∧ (t.closed.Nodup ↔ s.closed.Nodup ∧ Along (step pb) FailsWhileOpen s events) := by
  induction events generalizing s with
  | nil =>
    cases replay
    exact ⟨consistent, by simp [Along]⟩
  | cons event events ih =>
    obtain ⟨u, stepped, replay⟩ := run_cons.mp replay
    obtain ⟨after, closed, live⟩ := step_spec consistent stepped
    obtain ⟨final, same⟩ := ih after replay
    refine ⟨final, same.trans ?_⟩
    have along : Along (step pb) FailsWhileOpen s (event :: events) ↔
        FailsWhileOpen s event ∧ Along (step pb) FailsWhileOpen u events := by
      refine and_congr_right fun _ => ⟨fun all => all u stepped, ?_⟩
      intro rest v again
      rw [stepped] at again
      cases again
      exact rest
    have window : u.closed.Nodup ↔ s.closed.Nodup ∧ FailsWhileOpen s event := by
      rw [closed, List.nodup_append, consistent.posts]
      refine and_congr_right fun _ => and_congr_right fun _ => ?_
      constructor
      · intro apart pointer member posted
        exact apart pointer (List.mem_append_right _ posted) pointer member rfl
      · intro open_ pointer earlier other member
        rintro rfl
        rcases List.mem_append.mp earlier with deleted | posted
        · exact live pointer member deleted
        · exact open_ pointer member posted
    rw [window, along, and_assoc]

/-- In every run a connection is closed at most once, with its id still registered and one deletion posted,
    exactly when no socket reports a second failure before the posted deletion of its connection runs. -/
theorem connections_closed_once_iff {events : List (ServerEvent Done)}
    (replay : run (step pb) new events = some s) :
    s.ClosedOnce ↔ Along (step pb) FailsWhileOpen new events := by
  obtain ⟨final, same⟩ := run_nodup_iff new_consistent replay
  rw [final.closedOnce_iff, same]
  exact and_iff_right List.nodup_nil

/-- A slave is accepted, and a request to it fails with `ERR_CONNECTION_RESET`. -/
def resetRun : List (ServerEvent Unit) :=
  [.accepted "10.0.0.2" [] [], .called ⟨0, .callMethod [115] [109] [] none, [-101]⟩]

theorem resetRun_closed_once : ∃ s : RpcSocketServer Unit,
    run (step wireFormat) new (resetRun ++ [.deletionRun]) = some s ∧
      s.closed = [0] ∧ s.deleted = [0] ∧ s.posted = [] ∧
      (s.ClosedOnce ↔ Along (step wireFormat) FailsWhileOpen new (resetRun ++ [.deletionRun])) := by
  have books : (run (step wireFormat) new (resetRun ++ [.deletionRun])).map (fun s =>
      (s.closed, s.deleted, s.posted)) = some ([0], [0], []) := by
    decide +kernel
  obtain ⟨s, replay, same⟩ := Option.map_eq_some_iff.mp books
  simp only [Prod.mk.injEq] at same
  exact ⟨s, replay, same.1, same.2.1, same.2.2, connections_closed_once_iff replay⟩

/-- The read that was pending ends before the deletion runs. -/
theorem read_end_after_reset_closes_twice :
    ¬ ∀ (events : List (ServerEvent Unit)) (s : RpcSocketServer Unit),
      run (step wireFormat) new events = some s → s.ClosedOnce := by
  intro holds
  have twice : (run (step wireFormat) new (resetRun ++ [.readCompleted 0 ⟨0, [], []⟩ []])).map (fun s =>
      s.closes) = some [⟨0, true⟩, ⟨0, false⟩] := by
    decide +kernel
  obtain ⟨s, replay, closes⟩ := Option.map_eq_some_iff.mp twice
  have registered := (holds _ s replay).registered ⟨0, false⟩ (by simp [closes])
  exact Bool.noConfusion registered

end DistributedNinja.Rpc.RpcSocketServer
