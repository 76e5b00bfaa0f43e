import DistributedNinja.Net.TCPClientSocket

namespace DistributedNinja.Rpc

open Lib Net

structure RpcSocketClient where
  serverIp : String
  port : UInt16

namespace RpcSocketClient

/-- `Connect` up to the result of the socket, which is kept with it. -/
def connect (base : BaseStrings) (client : RpcSocketClient) (outcome : Int → Outcome) :
    Option (Int × TCPClientSocket) :=
  let ipNumber := (parseIPLiteralToNumber base client.serverIp []).2
  let addressList := AddressList.createFromIPAddress ipNumber client.port
  (TCPClientSocket.new addressList).connect outcome

/-- The given address is the only one that is tried, and nothing is tried when no address is given. -/
structure ConnectsAsGiven (base : BaseStrings) (client : RpcSocketClient) (attempted : List IPEndPoint) : Prop where
  attempts : attempted ≠ [] ↔ (parseIPLiteralToNumber base client.serverIp []).1 = true
  exactly : ∀ numbers, Denotes base client.serverIp numbers →
    attempted = [⟨numbers.map UInt8.ofNat, client.port⟩] ∧
      ∃ str, (IPEndPoint.mk (numbers.map UInt8.ofNat) client.port).toStringWithoutPort base = some str ∧
        str = (".").intercalate (numbers.map base.uintToString) ∧ Denotes base str numbers

variable {base : BaseStrings} {client : RpcSocketClient}

theorem connect_attempted (base : BaseStrings) (client : RpcSocketClient) (outcome : Int → Outcome) :
    ∃ result socket, client.connect base outcome = some (result, socket) ∧
      ∀ completions later, run (TCPClientSocket.didCompleteConnect outcome) socket completions = some later →
        later.attempted = [⟨(parseIPLiteralToNumber base client.serverIp []).2, client.port⟩] := by
  obtain ⟨result, socket, connected, tried, addresses, ended⟩ :=
    TCPClientSocket.connect_new (List.cons_ne_nil
      (⟨(parseIPLiteralToNumber base client.serverIp []).2, client.port⟩ : IPEndPoint) []) outcome
  refine ⟨result, socket, connected, ?_⟩
  intro completions later completed
  obtain ⟨triedLater, same, endedLater⟩ := TCPClientSocket.run_completions tried ended completed
  exact triedLater.attempted_of_single (same.trans addresses) endedLater

/-- The client connects as given exactly when there are four components, each of them a number of one byte. -/
theorem connectsAsGiven_iff (base : BaseStrings) (client : RpcSocketClient) (outcome : Int → Outcome) :
    (∃ result socket, client.connect base outcome = some (result, socket) ∧
      ∀ completions later, run (TCPClientSocket.didCompleteConnect outcome) socket completions = some later →
        client.ConnectsAsGiven base later.attempted) ↔
      ∃ numbers, Denotes base client.serverIp numbers := by
  obtain ⟨result, socket, connected, attempted⟩ := connect_attempted base client outcome
  constructor
  · rintro ⟨result', socket', connected', given⟩
    rw [connected] at connected'
    cases connected'
    have once := attempted [] socket rfl
    have accepted := (given [] socket rfl).attempts.mp (once ▸ List.cons_ne_nil _ _)
    exact (parseIPLiteralToNumber_accepts []).mp accepted
  · intro denotes
    refine ⟨result, socket, connected, ?_⟩
    intro completions later completed
    have once := attempted completions later completed
    have accepted := (parseIPLiteralToNumber_accepts []).mpr denotes
    refine ⟨iff_of_true (once ▸ List.cons_ne_nil _ _) accepted, ?_⟩
    intro numbers denoted
    rw [parseIPLiteralToNumber_of_denotes denoted] at once
    exact ⟨once, denoted.printed client.port⟩

/-- A host name leads to an attempt at 0.0.0.0. -/
theorem hostName_attempted : ¬ ∀ base client outcome,
    ∃ result socket, connect base client outcome = some (result, socket) ∧
      ∀ completions later, run (TCPClientSocket.didCompleteConnect outcome) socket completions = some later →
        client.ConnectsAsGiven base later.attempted := by
  intro always
  have parsed : parseIPLiteralToNumber chromiumStrings "localhost" [] = (false, [0, 0, 0, 0]) := by decide
  obtain ⟨result, socket, connected, given⟩ := always chromiumStrings ⟨"localhost", 5000⟩ fun _ => ⟨0, -1⟩
  obtain ⟨result', socket', connected', attempted⟩ :=
    connect_attempted chromiumStrings ⟨"localhost", 5000⟩ fun _ => ⟨0, -1⟩
  rw [connected] at connected'
  cases connected'
  have once := attempted [] socket rfl
  have accepted := (given [] socket rfl).attempts.mp (once ▸ List.cons_ne_nil _ _)
  rw [parsed] at accepted
  cases accepted

end RpcSocketClient

end DistributedNinja.Rpc
