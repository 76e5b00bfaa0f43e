import DistributedNinja.Lib.Run
import DistributedNinja.Net.NetUtil

namespace DistributedNinja.Net

namespace NetError

def ok : Int := 0
def ioPending : Int := -1
def unexpected : Int := -9

end NetError

abbrev AddressList := List IPEndPoint

def AddressList.createFromIPAddress (address : IPAddressNumber) (port : UInt16) : AddressList := [⟨address, port⟩]

inductive ConnectState
  | connect
  | connectComplete
  | none
deriving DecidableEq

/-- What `OpenSocket` and the `Connect` of the socket return for an address. -/
structure Outcome where
  opened : Int
  connected : Int

/-- The members of a `TCPClientSocket` that its `Connect` uses, and the addresses that `DoConnect` was run for. -/
structure TCPClientSocket where
  valid : Bool
  addresses : AddressList
  currentAddressIndex : Int
  nextConnectState : ConnectState
  attempted : List IPEndPoint

namespace TCPClientSocket

def new (addresses : AddressList) : TCPClientSocket := ⟨false, addresses, -1, .none, []⟩

/-- `none` when the index is out of range. -/
def doConnect (s : TCPClientSocket) (outcome : Outcome) : Option (Int × TCPClientSocket) :=
  (s.addresses[s.currentAddressIndex.toNat]?).map fun endpoint =>
    let s := { s with nextConnectState := .connectComplete, attempted := s.attempted ++ [endpoint] }
    if s.valid then (outcome.connected, s)
    else if outcome.opened ≠ NetError.ok then (outcome.opened, s)
    else (outcome.connected, { s with valid := true })

def doConnectComplete (s : TCPClientSocket) (result : Int) : Int × TCPClientSocket :=
  if result = NetError.ok then (NetError.ok, s)
  else
    let s := { s with valid := false }
    if s.currentAddressIndex + 1 < (s.addresses.length : Int) then
      (NetError.ok, { s with nextConnectState := .connect, currentAddressIndex := s.currentAddressIndex + 1 })
    else (result, s)

/-- One round of the loop of `DoConnectLoop`. -/
def connectRound (s : TCPClientSocket) (outcome : Int → Outcome) (rv : Int) : Option (Int × TCPClientSocket) :=
  let t := { s with nextConnectState := .none }
  match s.nextConnectState with
  | .connect => t.doConnect (outcome s.currentAddressIndex)
  | .connectComplete => some (t.doConnectComplete rv)
  | .none => some (NetError.unexpected, t)

def rounds (s : TCPClientSocket) : Nat :=
  2 * (s.addresses.length - s.currentAddressIndex).toNat + if s.nextConnectState = .connect then 1 else 0

variable {s t : TCPClientSocket} {outcome : Int → Outcome} {rv result : Int}

theorem connectRound_cases (round : s.connectRound outcome rv = some (result, t)) :
    (s.nextConnectState = .connect ∧ ∃ endpoint, s.addresses[s.currentAddressIndex.toNat]? = some endpoint ∧
      ∃ valid, t = ⟨valid, s.addresses, s.currentAddressIndex, .connectComplete, s.attempted ++ [endpoint]⟩) ∨
    (s.nextConnectState = .connectComplete ∧ s.currentAddressIndex + 1 < s.addresses.length ∧
      result = NetError.ok ∧ t = ⟨false, s.addresses, s.currentAddressIndex + 1, .connect, s.attempted⟩) ∨
    (s.nextConnectState ≠ .connect ∧
      ∃ valid, t = ⟨valid, s.addresses, s.currentAddressIndex, .none, s.attempted⟩) := by
  unfold connectRound at round
  cases state : s.nextConnectState with
  | connect =>
    rw [state] at round
    obtain ⟨endpoint, indexed, shape⟩ := Option.map_eq_some_iff.mp round
    left
    refine ⟨rfl, endpoint, indexed, ?_⟩
    dsimp only at shape
    split at shape
    · cases shape
      exact ⟨s.valid, rfl⟩
    · split at shape
      · cases shape
        exact ⟨s.valid, rfl⟩
      · cases shape
        exact ⟨true, rfl⟩
  | connectComplete =>
    right
    simp only [state, Option.some.injEq, doConnectComplete] at round
    split at round
    · cases round
      exact .inr ⟨nofun, s.valid, rfl⟩
    · split at round
      · rename_i further
        cases round
        exact .inl ⟨rfl, further, rfl, rfl⟩
      · cases round
        exact .inr ⟨nofun, false, rfl⟩
  | none =>
    right
    right
    rw [state] at round
    cases round
    exact ⟨nofun, s.valid, rfl⟩

theorem rounds_lt (round : s.connectRound outcome rv = some (result, t)) (again : t.nextConnectState ≠ .none) :
    t.rounds < s.rounds := by
  rcases connectRound_cases round with ⟨state, _, _, _, rfl⟩ | ⟨state, further, _, rfl⟩ | ⟨_, _, rfl⟩
  · simp [rounds, state]
  · simp only [rounds, state]
    simp
    omega
  · exact absurd rfl again

def doConnectLoop (s : TCPClientSocket) (outcome : Int → Outcome) (rv : Int) : Option (Int × TCPClientSocket) :=
  match _round : s.connectRound outcome rv with
  | none => none
  | some (rv, t) =>
    if _again : rv ≠ NetError.ioPending ∧ t.nextConnectState ≠ .none then t.doConnectLoop outcome rv
    else some (rv, t)
termination_by s.rounds
decreasing_by exact rounds_lt _round _again.2

def connect (s : TCPClientSocket) (outcome : Int → Outcome) : Option (Int × TCPClientSocket) :=
  if s.valid ∧ 0 ≤ s.currentAddressIndex then some (NetError.ok, s)
  else doConnectLoop { s with nextConnectState := .connect, currentAddressIndex := 0 } outcome NetError.ok

def didCompleteConnect (outcome : Int → Outcome) (s : TCPClientSocket) (result : Int) : Option TCPClientSocket :=
  if s.nextConnectState = .connectComplete then (s.doConnectLoop outcome result).map Prod.snd else none

structure Tried (s : TCPClientSocket) : Prop where
  nonneg : 0 ≤ s.currentAddressIndex
  inRange : s.currentAddressIndex < s.addresses.length
  attempted : s.attempted =
    s.addresses.take (s.currentAddressIndex.toNat + if s.nextConnectState = .connect then 0 else 1)

theorem Tried.round (tried : s.Tried) (round : s.connectRound outcome rv = some (result, t)) : t.Tried := by
  obtain ⟨nonneg, inRange, attempted⟩ := tried
  rcases connectRound_cases round with
    ⟨state, endpoint, indexed, _, rfl⟩ | ⟨state, further, _, rfl⟩ | ⟨state, _, rfl⟩
  · refine ⟨nonneg, inRange, ?_⟩
    rw [state, if_pos rfl, Nat.add_zero] at attempted
    simp [attempted, List.take_add_one, indexed]
  · have next : (s.currentAddressIndex + 1).toNat = s.currentAddressIndex.toNat + 1 := by omega
    refine ⟨by show 0 ≤ s.currentAddressIndex + 1; omega, further, ?_⟩
    rw [state, if_neg nofun] at attempted
    simp [attempted, next]
  · refine ⟨nonneg, inRange, ?_⟩
    rw [if_neg state] at attempted
    simp [attempted]

theorem connectRound_isSome (nonneg : 0 ≤ s.currentAddressIndex)
    (inRange : s.currentAddressIndex < s.addresses.length) (outcome : Int → Outcome) (rv : Int) :
    (s.connectRound outcome rv).isSome = true := by
  have inside : s.currentAddressIndex.toNat < s.addresses.length := by omega
  unfold connectRound doConnect
  split <;> simp [inside]

theorem doConnectLoop_spec (tried : s.Tried) (outcome : Int → Outcome) (rv : Int) :
    ∃ result t, s.doConnectLoop outcome rv = some (result, t) ∧ t.Tried ∧ t.addresses = s.addresses ∧
      t.nextConnectState ≠ .connect := by
  fun_induction doConnectLoop s outcome rv with
  | case1 s rv round =>
    have defined := connectRound_isSome tried.nonneg tried.inRange outcome rv
    rw [round] at defined
    cases defined
  | case2 s rv result t round again ih =>
    obtain ⟨last, u, looped, later, same, ended⟩ := ih (tried.round round)
    refine ⟨last, u, looped, later, ?_, ended⟩
    rcases connectRound_cases round with ⟨_, _, _, _, rfl⟩ | ⟨_, _, _, rfl⟩ | ⟨_, _, rfl⟩ <;> exact same
  | case3 s rv result t round ended =>
    refine ⟨result, t, rfl, tried.round round, ?_, ?_⟩
    · rcases connectRound_cases round with ⟨_, _, _, _, rfl⟩ | ⟨_, _, _, rfl⟩ | ⟨_, _, rfl⟩ <;> rfl
    · rcases connectRound_cases round with ⟨_, _, _, _, rfl⟩ | ⟨_, _, rfl, rfl⟩ | ⟨_, _, rfl⟩
      · nofun
      · exact absurd ⟨by decide, nofun⟩ ended
      · nofun

theorem connect_new {addresses : AddressList} (nonempty : addresses ≠ []) (outcome : Int → Outcome) :
    ∃ result t, (new addresses).connect outcome = some (result, t) ∧ t.Tried ∧ t.addresses = addresses ∧
      t.nextConnectState ≠ .connect := by
  have started : Tried ⟨false, addresses, 0, .connect, []⟩ := by
    refine ⟨Int.le_refl 0, ?_, rfl⟩
    show (0 : Int) < addresses.length
    have := List.length_pos_of_ne_nil nonempty
    omega
  exact doConnectLoop_spec started outcome NetError.ok

theorem run_completions {completions : List Int} (tried : s.Tried) (ended : s.nextConnectState ≠ .connect)
    (completed : Lib.run (didCompleteConnect outcome) s completions = some t) :
    t.Tried ∧ t.addresses = s.addresses ∧ t.nextConnectState ≠ .connect := by
  have preserved : ∀ u result v, (u.Tried ∧ u.addresses = s.addresses ∧ u.nextConnectState ≠ .connect) →
      didCompleteConnect outcome u result = some v →
      v.Tried ∧ v.addresses = s.addresses ∧ v.nextConnectState ≠ .connect := by
    intro u result v ⟨tried, same, _⟩ completed
    unfold didCompleteConnect at completed
    split at completed
    · obtain ⟨last, w, looped, later, kept, ended⟩ := doConnectLoop_spec tried outcome result
      rw [looped] at completed
      cases completed
      exact ⟨later, kept.trans same, ended⟩
    · cases completed
  exact Lib.run_invariant preserved ⟨tried, rfl, ended⟩ completed

theorem Tried.attempted_of_single {endpoint : IPEndPoint} (tried : s.Tried) (single : s.addresses = [endpoint])
    (ended : s.nextConnectState ≠ .connect) : s.attempted = [endpoint] := by
  have inRange := tried.inRange
  have nonneg := tried.nonneg
  rw [single, List.length_singleton] at inRange
  have first : s.currentAddressIndex.toNat = 0 := by omega
  rw [tried.attempted, single, first, if_neg ended]
  rfl

end TCPClientSocket

end DistributedNinja.Net
