import DistributedNinja.Lib.BigEndian
import DistributedNinja.Net.NetUtil

namespace DistributedNinja.Net

open Lib

/-- The bytes of a `sockaddr` up to its length. -/
abbrev SockaddrStorage := List UInt8

def kIPv6AddressSize : Nat := 16

/-- `AF_INET` and `AF_INET6` as the first two bytes of a `sockaddr`, low byte first. -/
def afInet : List UInt8 := [2, 0]

def afInet6 : List UInt8 := [10, 0]

def kSockaddrInSize : Nat := 16

def kSockaddrIn6Size : Nat := 28

def hostToNet16 (port : UInt16) : List UInt8 := bigEndianBytes 2 port.toNat

def netToHost16 (bytes : List UInt8) : UInt16 := UInt16.ofNat (bigEndian bytes)

def getIPAddressFromSockAddr (sockAddr : SockaddrStorage) : Option (IPAddressNumber × UInt16) :=
  let port := netToHost16 ((sockAddr.drop 2).take 2)
  if sockAddr.take 2 = afInet then
    if sockAddr.length < kSockaddrInSize then none else some ((sockAddr.drop 4).take kIPv4AddressSize, port)
  else if sockAddr.take 2 = afInet6 then
    if sockAddr.length < kSockaddrIn6Size then none else some ((sockAddr.drop 8).take kIPv6AddressSize, port)
  else none

namespace IPEndPoint

def toSockAddr (endpoint : IPEndPoint) (addressLength : Nat) : Option SockaddrStorage :=
  if endpoint.address.length = kIPv4AddressSize then
    if addressLength < kSockaddrInSize then none
    else some (afInet ++ hostToNet16 endpoint.port ++ endpoint.address ++ List.replicate 8 0)
  else if endpoint.address.length = kIPv6AddressSize then
    if addressLength < kSockaddrIn6Size then none
    else some (afInet6 ++ hostToNet16 endpoint.port ++ List.replicate 4 0 ++ endpoint.address ++ List.replicate 4 0)
  else none

def fromSockAddr (sockAddr : SockaddrStorage) : Option IPEndPoint :=
  (getIPAddressFromSockAddr sockAddr).map fun (address, port) => ⟨address, port⟩

end IPEndPoint

theorem netToHost16_hostToNet16 (port : UInt16) : netToHost16 (hostToNet16 port) = port := by
  have bound := port.toNat_lt
  have value : port.toNat % 256 ^ 2 = port.toNat := Nat.mod_eq_of_lt (by omega)
  rw [netToHost16, hostToNet16, bigEndian_bigEndianBytes, value, UInt16.ofNat_toNat]

@[simp] theorem hostToNet16_length (port : UInt16) : (hostToNet16 port).length = 2 := bigEndianBytes_length 2 _

@[simp] theorem afInet_length : afInet.length = 2 := rfl

@[simp] theorem afInet6_length : afInet6.length = 2 := rfl

variable {endpoint : IPEndPoint} {bytes : SockaddrStorage} {room : Nat}

theorem getIPAddress_inet (port : UInt16) {address : IPAddressNumber} (four : address.length = kIPv4AddressSize) :
    getIPAddressFromSockAddr (afInet ++ hostToNet16 port ++ address ++ List.replicate 8 0) = some (address, port) := by
  have family : (afInet ++ hostToNet16 port ++ address ++ List.replicate 8 0).take 2 = afInet := by
    rw [List.append_assoc, List.append_assoc, List.take_left' afInet_length]
  have ports : ((afInet ++ hostToNet16 port ++ address ++ List.replicate 8 0).drop 2).take 2 = hostToNet16 port := by
    rw [List.append_assoc, List.append_assoc, List.drop_left' afInet_length,
      List.take_left' (hostToNet16_length port)]
  have addresses : ((afInet ++ hostToNet16 port ++ address ++ List.replicate 8 0).drop 4).take kIPv4AddressSize =
      address := by
    rw [List.append_assoc, List.drop_left' (by simp), List.take_left' four]
  have long : ¬ (afInet ++ hostToNet16 port ++ address ++ List.replicate 8 0).length < kSockaddrInSize := by
    simp [four, kIPv4AddressSize, kSockaddrInSize]
  rw [getIPAddressFromSockAddr]
  rw [if_pos family, if_neg long, ports, addresses, netToHost16_hostToNet16]

theorem getIPAddress_inet6 (port : UInt16) {address : IPAddressNumber} (sixteen : address.length = kIPv6AddressSize) :
    getIPAddressFromSockAddr (afInet6 ++ hostToNet16 port ++ List.replicate 4 0 ++ address ++ List.replicate 4 0) =
      some (address, port) := by
  have family : (afInet6 ++ hostToNet16 port ++ List.replicate 4 0 ++ address ++ List.replicate 4 0).take 2 =
      afInet6 := by
    simp only [List.append_assoc]
    rw [List.take_left' afInet6_length]
  have ports : ((afInet6 ++ hostToNet16 port ++ List.replicate 4 0 ++ address ++ List.replicate 4 0).drop 2).take 2 =
      hostToNet16 port := by
    simp only [List.append_assoc]
    rw [List.drop_left' afInet6_length, List.take_left' (hostToNet16_length port)]
  have addresses : ((afInet6 ++ hostToNet16 port ++ List.replicate 4 0 ++ address ++ List.replicate 4 0).drop 8).take
      kIPv6AddressSize = address := by
    rw [List.append_assoc, List.drop_left' (by simp), List.take_left' sixteen]
  have long : ¬ (afInet6 ++ hostToNet16 port ++ List.replicate 4 0 ++ address ++ List.replicate 4 0).length <
      kSockaddrIn6Size := by
    simp [sixteen, kIPv6AddressSize, kSockaddrIn6Size]
  have other : ¬ afInet6 = afInet := by decide
  rw [getIPAddressFromSockAddr]
  rw [family, if_neg other, if_pos rfl, if_neg long, ports, addresses, netToHost16_hostToNet16]

namespace IPEndPoint

theorem fromSockAddr_toSockAddr (written : endpoint.toSockAddr room = some bytes) :
    fromSockAddr bytes = some endpoint := by
  unfold toSockAddr at written
  split at written
  · rename_i four
    split at written
    · cases written
    · cases written
      rw [fromSockAddr, getIPAddress_inet _ four]
      rfl
  · split at written
    · rename_i sixteen
      split at written
      · cases written
      · cases written
        rw [fromSockAddr, getIPAddress_inet6 _ sixteen]
        rfl
    · cases written

theorem fromSockAddr_length (read : fromSockAddr bytes = some endpoint) :
    (endpoint.address.length = kIPv4AddressSize ∧ kSockaddrInSize ≤ bytes.length) ∨
      (endpoint.address.length = kIPv6AddressSize ∧ kSockaddrIn6Size ≤ bytes.length) := by
  obtain ⟨⟨address, port⟩, found, rfl⟩ := Option.map_eq_some_iff.mp read
  unfold getIPAddressFromSockAddr at found
  split at found
  · split at found
    · cases found
    · rename_i long
      cases found
      left
      simp only [kSockaddrInSize, kIPv4AddressSize, List.length_take, List.length_drop] at long ⊢
      omega
  · split at found
    · split at found
      · cases found
      · rename_i long
        cases found
        right
        simp only [kSockaddrIn6Size, kIPv6AddressSize, List.length_take, List.length_drop] at long ⊢
        omega
    · cases found

theorem toSockAddr_eq_some (fits : (endpoint.address.length = kIPv4AddressSize ∧ kSockaddrInSize ≤ room) ∨
    (endpoint.address.length = kIPv6AddressSize ∧ kSockaddrIn6Size ≤ room)) :
    ∃ written, endpoint.toSockAddr room = some written := by
  unfold toSockAddr
  rcases fits with ⟨four, long⟩ | ⟨sixteen, long⟩
  · exact ⟨_, by rw [if_pos four, if_neg (Nat.not_lt.mpr long)]⟩
  · have other : ¬ endpoint.address.length = kIPv4AddressSize := by
      rw [sixteen]
      decide
    exact ⟨_, by rw [if_neg other, if_pos sixteen, if_neg (Nat.not_lt.mpr long)]⟩

theorem parse_toStringWithoutPort {base : BaseStrings} (four : endpoint.address.length = kIPv4AddressSize)
    (number : IPAddressNumber) : ∃ str, endpoint.toStringWithoutPort base = some str ∧
      parseIPLiteralToNumber base str number = (true, endpoint.address) := by
  refine ⟨_, toStringWithoutPort_of_four four, ?_⟩
  have bytes : ∀ number ∈ endpoint.address.map UInt8.toNat, number ≤ 0xFF := by
    intro number member
    obtain ⟨byte, _, rfl⟩ := List.mem_map.mp member
    have := byte.toNat_lt
    omega
  have nonempty : endpoint.address.map UInt8.toNat ≠ [] := by
    intro empty
    rw [List.map_eq_nil_iff.mp empty] at four
    cases four
  have denotes : Denotes base ((".").intercalate (endpoint.address.map fun byte => base.uintToString byte.toNat))
      (endpoint.address.map UInt8.toNat) := by
    refine ⟨?_, (List.length_map _).trans four, bytes⟩
    have pieces := base.splitString_intercalate _ nonempty
    rw [List.map_map] at pieces
    change (base.splitString ((".").intercalate (endpoint.address.map (base.uintToString ∘ UInt8.toNat))) '.').map _ = _
    rw [pieces, List.map_map, List.map_map]
    apply List.map_congr_left
    intro byte _
    exact base.stringToUint_uintToString _ (by have := byte.toNat_lt; omega)
  rw [parseIPLiteralToNumber_of_denotes denotes, List.map_map]
  congr 1
  conv => rhs; rw [← List.map_id endpoint.address]
  apply List.map_congr_left
  intro byte _
  exact UInt8.ofNat_toNat

/-- An end point that is written into a `sockaddr` is the one that is read from it. What is read from a `sockaddr` has
    an address of four or of sixteen bytes and fits into as much room again; and an address of four bytes is printed as
    a literal from which the same address is read. -/
theorem sockaddr_round_trip (base : BaseStrings) (endpoint : IPEndPoint) (bytes : SockaddrStorage) :
    (∀ room, endpoint.toSockAddr room = some bytes → fromSockAddr bytes = some endpoint) ∧
      (fromSockAddr bytes = some endpoint → ∃ again, endpoint.toSockAddr bytes.length = some again ∧
        fromSockAddr again = some endpoint) ∧
      (fromSockAddr bytes = some endpoint →
        endpoint.address.length = kIPv4AddressSize ∨ endpoint.address.length = kIPv6AddressSize) ∧
      (endpoint.address.length = kIPv4AddressSize → ∀ number, ∃ str, endpoint.toStringWithoutPort base = some str ∧
        parseIPLiteralToNumber base str number = (true, endpoint.address)) := by
  refine ⟨fun room => fromSockAddr_toSockAddr, ?_, ?_, fun four number => parse_toStringWithoutPort four number⟩
  · intro read
    obtain ⟨again, written⟩ := toSockAddr_eq_some (fromSockAddr_length read)
    exact ⟨again, written, fromSockAddr_toSockAddr written⟩
  · exact fun read => (fromSockAddr_length read).imp And.left And.left

end IPEndPoint

end DistributedNinja.Net
