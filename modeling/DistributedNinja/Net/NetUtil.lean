import Mathlib.Data.List.Basic

namespace DistributedNinja.Net

/-- What is used of the strings of `base`: pieces without the white space around them, and decimal numbers of
    32 bits. -/
structure BaseStrings where
  splitString : String → Char → List String
  stringToUint : String → Option Nat
  uintToString : Nat → String
  stringToUint_uintToString : ∀ number ≤ 0xFFFFFFFF, stringToUint (uintToString number) = some number
  splitString_intercalate : ∀ numbers ≠ [],
    splitString ((".").intercalate (numbers.map uintToString)) '.' = numbers.map uintToString

abbrev IPAddressNumber := List UInt8

def kIPv4AddressSize : Nat := 4

def resize (number : IPAddressNumber) (size : Nat) : IPAddressNumber :=
  number.take size ++ List.replicate (size - number.length) 0

section Parse

variable (base : BaseStrings)

/-- The loop of `ParseIPLiteralToNumber` from component `i` on. -/
def storeComponents : List String → Nat → IPAddressNumber → Bool × IPAddressNumber
  | [], _, number => (true, number)
  | component :: rest, i, number =>
    match base.stringToUint component with
    | none => (false, number)
    | some r => if 0xFF < r then (false, number) else storeComponents rest (i + 1) (number.set i (UInt8.ofNat r))

def parseIPLiteralToNumber (literal : String) (number : IPAddressNumber) : Bool × IPAddressNumber :=
  let number := resize number 4
  let components := base.splitString literal '.'
  if components.length ≠ 4 then (false, number) else storeComponents base components 0 number

structure Denotes (literal : String) (numbers : List Nat) : Prop where
  components : (base.splitString literal '.').map base.stringToUint = numbers.map some
  four : numbers.length = 4
  bytes : ∀ number ∈ numbers, number ≤ 0xFF

end Parse

variable {base : BaseStrings} {literal : String} {numbers : List Nat}

theorem length_resize (number : IPAddressNumber) (size : Nat) : (resize number size).length = size := by
  rw [resize, List.length_append, List.length_take, List.length_replicate]
  omega

theorem storeComponents_of_numbers {components : List String} {i : Nat} {number : IPAddressNumber}
    (read : components.map base.stringToUint = numbers.map some) (bytes : ∀ number ∈ numbers, number ≤ 0xFF)
    (fits : i + components.length = number.length) :
    storeComponents base components i number = (true, number.take i ++ numbers.map UInt8.ofNat) := by
  induction components generalizing numbers i number with
  | nil =>
    cases List.map_eq_nil_iff.mp read.symm
    have whole : number.length ≤ i := by simp only [List.length_nil] at fits; omega
    rw [storeComponents, List.map_nil, List.append_nil, List.take_of_length_le whole]
  | cons component rest ih =>
    cases numbers with
    | nil => cases read
    | cons r others =>
      obtain ⟨first, later⟩ := List.cons.inj read
      have small : ¬ 0xFF < r := by
        have := bytes r List.mem_cons_self
        omega
      have inside : i < number.length := by simp only [List.length_cons] at fits; omega
      have left : i + 1 + rest.length = (number.set i (UInt8.ofNat r)).length := by
        rw [List.length_set]
        simp only [List.length_cons] at fits
        omega
      have stored : (number.set i (UInt8.ofNat r)).take (i + 1) = number.take i ++ [UInt8.ofNat r] := by
        rw [List.take_add_one, List.getElem?_set_self inside, List.take_set_of_le (Nat.le_refl i)]
        rfl
      rw [storeComponents, first]
      dsimp only
      rw [if_neg small, ih later (fun number member => bytes number (List.mem_cons_of_mem _ member)) left,
        List.map_cons, stored, List.append_assoc]
      rfl

theorem numbers_of_storeComponents {components : List String} {i : Nat} {number : IPAddressNumber}
    (accepted : (storeComponents base components i number).1 = true) :
    ∃ numbers : List Nat, components.map base.stringToUint = numbers.map some ∧
      ∀ number ∈ numbers, number ≤ 0xFF := by
  induction components generalizing i number with
  | nil => exact ⟨[], rfl, List.forall_mem_nil _⟩
  | cons component rest ih =>
    rw [storeComponents] at accepted
    cases read : base.stringToUint component with
    | none =>
      rw [read] at accepted
      cases accepted
    | some r =>
      rw [read] at accepted
      dsimp only at accepted
      by_cases large : 0xFF < r
      · rw [if_pos large] at accepted
        cases accepted
      · rw [if_neg large] at accepted
        obtain ⟨others, later, bytes⟩ := ih accepted
        refine ⟨r :: others, ?_, List.forall_mem_cons.mpr ⟨by omega, bytes⟩⟩
        rw [List.map_cons, List.map_cons, read, later]

theorem Denotes.components_length (denotes : Denotes base literal numbers) :
    (base.splitString literal '.').length = 4 := by
  have lengths := congrArg List.length denotes.components
  rw [List.length_map, List.length_map, denotes.four] at lengths
  exact lengths

theorem parseIPLiteralToNumber_of_denotes (denotes : Denotes base literal numbers) (number : IPAddressNumber) :
    parseIPLiteralToNumber base literal number = (true, numbers.map UInt8.ofNat) := by
  have four := denotes.components_length
  have fits : 0 + (base.splitString literal '.').length = (resize number 4).length := by
    rw [four, length_resize]
  rw [parseIPLiteralToNumber, if_neg (not_not.mpr four),
    storeComponents_of_numbers denotes.components denotes.bytes fits]
  rfl

theorem parseIPLiteralToNumber_accepts (number : IPAddressNumber) :
    (parseIPLiteralToNumber base literal number).1 = true ↔ ∃ numbers, Denotes base literal numbers := by
  constructor
  · intro accepted
    rw [parseIPLiteralToNumber] at accepted
    by_cases four : (base.splitString literal '.').length = 4
    · rw [if_neg (not_not.mpr four)] at accepted
      obtain ⟨numbers, components, bytes⟩ := numbers_of_storeComponents accepted
      refine ⟨numbers, components, ?_, bytes⟩
      have lengths := congrArg List.length components
      rw [List.length_map, List.length_map, four] at lengths
      exact lengths.symm
    · rw [if_pos four] at accepted
      cases accepted
  · rintro ⟨numbers, denotes⟩
    rw [parseIPLiteralToNumber_of_denotes denotes]

structure IPEndPoint where
  address : IPAddressNumber
  port : UInt16
deriving DecidableEq

namespace IPEndPoint

/-- The loop of `ToStringWithoutPort` from byte `i` on. -/
def appendBytes (base : BaseStrings) : IPAddressNumber → Nat → String → String
  | [], _, str => str
  | byte :: rest, i, str =>
    let str := str ++ base.uintToString byte.toNat
    appendBytes base rest (i + 1) (if i ≠ kIPv4AddressSize - 1 then str ++ "." else str)

/-- `none` when the `CHECK` on the size fails. -/
def toStringWithoutPort (base : BaseStrings) (endpoint : IPEndPoint) : Option String :=
  if endpoint.address.length = kIPv4AddressSize then some (appendBytes base endpoint.address 0 "") else none

theorem toStringWithoutPort_of_four {endpoint : IPEndPoint} (four : endpoint.address.length = kIPv4AddressSize) :
    endpoint.toStringWithoutPort base =
      some ((".").intercalate (endpoint.address.map fun byte => base.uintToString byte.toNat)) := by
  rw [toStringWithoutPort, if_pos four]
  obtain ⟨a, b, c, d, shape⟩ := List.length_eq_four.mp four
  simp [shape, appendBytes, kIPv4AddressSize, String.append_assoc]

end IPEndPoint

theorem toNat_ofNat_map (bytes : ∀ number ∈ numbers, number ≤ 0xFF) :
    (numbers.map UInt8.ofNat).map UInt8.toNat = numbers := by
  rw [List.map_map]
  conv => rhs; rw [← List.map_id numbers]
  apply List.map_congr_left
  intro number member
  have small := bytes number member
  show (UInt8.ofNat number).toNat = number
  rw [UInt8.toNat_ofNat']
  omega

theorem Denotes.printed (denotes : Denotes base literal numbers) (port : UInt16) :
    ∃ str, (IPEndPoint.mk (numbers.map UInt8.ofNat) port).toStringWithoutPort base = some str ∧
      str = (".").intercalate (numbers.map base.uintToString) ∧ Denotes base str numbers := by
  have four : (numbers.map UInt8.ofNat).length = kIPv4AddressSize := (List.length_map _).trans denotes.four
  refine ⟨(".").intercalate (numbers.map base.uintToString), ?_, rfl, ?_, denotes.four, denotes.bytes⟩
  · rw [IPEndPoint.toStringWithoutPort_of_four four]
    have back := congrArg (List.map base.uintToString) (toNat_ofNat_map denotes.bytes)
    rw [List.map_map] at back
    exact congrArg (fun pieces => some ((".").intercalate pieces)) back
  · have someNumber : numbers ≠ [] := by
      intro empty
      have four := denotes.four
      rw [empty] at four
      cases four
    rw [base.splitString_intercalate numbers someNumber, List.map_map]
    apply List.map_congr_left
    intro number member
    have small := denotes.bytes number member
    exact base.stringToUint_uintToString number (by omega)

section Chromium

def isAsciiWhitespace (c : Char) : Bool := c = ' ' || ('\t' ≤ c && c ≤ '\r')

def trimWhitespace (piece : List Char) : List Char :=
  ((piece.dropWhile isAsciiWhitespace).reverse.dropWhile isAsciiWhitespace).reverse

def splitString (str : String) (separator : Char) : List String :=
  let pieces := (str.toList.splitOn separator).map trimWhitespace
  if pieces = [[]] then [] else pieces.map String.ofList

def stringToUint (input : String) : Option Nat :=
  let digits := if input.toList.head? = some '+' then input.toList.tail else input.toList
  let number := Nat.ofDigitChars 10 digits 0
  if digits ≠ [] ∧ digits.all Char.isDigit ∧ number ≤ 0xFFFFFFFF then some number else none

theorem isDigit_of_mem_repr {number : Nat} {c : Char} (member : c ∈ number.repr.toList) : c.isDigit = true := by
  rw [Nat.toList_repr] at member
  exact Nat.isDigit_of_mem_toDigits (by decide) (by decide) member

theorem not_whitespace_of_isDigit {c : Char} (digit : c.isDigit = true) : isAsciiWhitespace c = false := by
  have fromZero : '0' ≤ c := by
    simp only [Char.isDigit, ge_iff_le, Bool.and_eq_true, decide_eq_true_eq] at digit
    exact digit.1
  have late : ∀ d : Char, d < '0' → c ≠ d := by
    rintro d before rfl
    exact absurd fromZero (Char.not_le.mpr before)
  have beyond : ¬ c ≤ '\r' := by
    intro early
    exact absurd (Char.le_trans fromZero early) (by decide)
  simp [isAsciiWhitespace, late ' ' (by decide), beyond]

theorem stringToUint_repr {number : Nat} (small : number ≤ 0xFFFFFFFF) : stringToUint number.repr = some number := by
  have digits : ∀ c ∈ number.repr.toList, c.isDigit = true := fun c member => isDigit_of_mem_repr member
  have nonempty : number.repr.toList ≠ [] := by
    rw [Nat.toList_repr]
    exact Nat.toDigits_ne_nil
  have unsigned : number.repr.toList.head? ≠ some '+' := by
    intro plus
    have := digits '+' (List.mem_of_head? plus)
    revert this
    decide
  have value : Nat.ofDigitChars 10 number.repr.toList 0 = number := by
    rw [Nat.toList_repr, Nat.ofDigitChars_ten_toDigits]
  rw [stringToUint, if_neg unsigned, value, if_pos ⟨nonempty, List.all_eq_true.mpr digits, small⟩]

theorem trimWhitespace_of_digits {piece : List Char} (digits : ∀ c ∈ piece, c.isDigit = true) :
    trimWhitespace piece = piece := by
  have kept : ∀ cs : List Char, (∀ c ∈ cs, c.isDigit = true) → cs.dropWhile isAsciiWhitespace = cs := by
    intro cs digits
    cases cs with
    | nil => rfl
    | cons c rest =>
      have solid := not_whitespace_of_isDigit (digits c List.mem_cons_self)
      exact List.dropWhile_cons_of_neg (by simp [solid])
  rw [trimWhitespace, kept piece digits, kept piece.reverse fun c member => digits c (List.mem_reverse.mp member),
    List.reverse_reverse]

theorem splitString_reprs {numbers : List Nat} (someNumber : numbers ≠ []) :
    splitString ((".").intercalate (numbers.map Nat.repr)) '.' = numbers.map Nat.repr := by
  have nonempty : (numbers.map Nat.repr).map String.toList ≠ [] := by
    intro empty
    exact someNumber (List.map_eq_nil_iff.mp (List.map_eq_nil_iff.mp empty))
  have undotted : ∀ piece ∈ (numbers.map Nat.repr).map String.toList, '.' ∉ piece := by
    intro piece member dot
    rw [List.map_map] at member
    obtain ⟨number, _, rfl⟩ := List.mem_map.mp member
    have := isDigit_of_mem_repr dot
    revert this
    decide
  have pieces : (((".").intercalate (numbers.map Nat.repr)).toList.splitOn '.').map trimWhitespace =
      (numbers.map Nat.repr).map String.toList := by
    rw [String.toList_intercalate]
    show (List.splitOn '.' (List.intercalate ['.'] _)).map trimWhitespace = _
    rw [List.splitOn_intercalate '.' undotted nonempty]
    conv => rhs; rw [← List.map_id ((numbers.map Nat.repr).map String.toList)]
    apply List.map_congr_left
    intro piece member
    rw [List.map_map] at member
    obtain ⟨number, _, rfl⟩ := List.mem_map.mp member
    exact trimWhitespace_of_digits fun c member => isDigit_of_mem_repr member
  have different : (numbers.map Nat.repr).map String.toList ≠ [[]] := by
    intro empty
    have member : [] ∈ (numbers.map Nat.repr).map String.toList := empty ▸ List.mem_singleton_self _
    rw [List.map_map] at member
    obtain ⟨number, _, digits⟩ := List.mem_map.mp member
    exact absurd digits (by simp [Nat.toList_repr, Nat.toDigits_ne_nil])
  rw [splitString, pieces, if_neg different, List.map_map]
  conv => rhs; rw [← List.map_id (numbers.map Nat.repr)]
  apply List.map_congr_left
  intro piece _
  exact String.ofList_toList

def chromiumStrings : BaseStrings where
  splitString := splitString
  stringToUint := stringToUint
  uintToString := Nat.repr
  stringToUint_uintToString _ small := stringToUint_repr small
  splitString_intercalate _ someNumber := splitString_reprs someNumber

end Chromium

end DistributedNinja.Net
