import Mathlib.Algebra.Group.Nat.Defs
import Mathlib.Data.List.Basic

namespace DistributedNinja.Lib

def bigEndian (bytes : List UInt8) : Nat :=
  bytes.foldl (fun acc byte => acc * 256 + byte.toNat) 0

def bigEndianBytes : Nat → Nat → List UInt8
  | 0, _ => []
  | width + 1, n => bigEndianBytes width (n / 256) ++ [UInt8.ofNat (n % 256)]

@[simp] theorem bigEndianBytes_length (width n : Nat) : (bigEndianBytes width n).length = width := by
  induction width generalizing n with
  | zero => rfl
  | succ width ih => simp [bigEndianBytes, ih]

theorem bigEndian_append_byte (bytes : List UInt8) (byte : UInt8) :
    bigEndian (bytes ++ [byte]) = bigEndian bytes * 256 + byte.toNat := by
  simp [bigEndian]

theorem bigEndian_bigEndianBytes (width n : Nat) :
    bigEndian (bigEndianBytes width n) = n % 256 ^ width := by
  induction width generalizing n with
  | zero => simp [bigEndianBytes, bigEndian, Nat.mod_one]
  | succ width ih =>
    have byte : (UInt8.ofNat (n % 256)).toNat = n % 256 := by
      simp only [UInt8.toNat_ofNat']
      omega
    rw [bigEndianBytes, bigEndian_append_byte, ih, byte, Nat.pow_succ', Nat.mod_mul]
    omega

def writeBigEndian (n : UInt32) : List UInt8 := bigEndianBytes 4 n.toNat

def readBigEndian (buffer : List UInt8) : UInt32 := UInt32.ofNat (bigEndian (buffer.take 4))

@[simp] theorem writeBigEndian_length (n : UInt32) : (writeBigEndian n).length = 4 :=
  bigEndianBytes_length 4 n.toNat

theorem readBigEndian_writeBigEndian (n : UInt32) (rest : List UInt8) :
    readBigEndian (writeBigEndian n ++ rest) = n := by
  have bound := n.toNat_lt
  have head : (writeBigEndian n ++ rest).take 4 = writeBigEndian n := by
    rw [List.take_append_of_le_length (by simp), List.take_of_length_le (by simp)]
  have value : n.toNat % 256 ^ 4 = n.toNat := Nat.mod_eq_of_lt (by omega)
  rw [readBigEndian, head, writeBigEndian, bigEndian_bigEndianBytes, value, UInt32.ofNat_toNat]

theorem readBigEndian_take (buffer : List UInt8) (n : Nat) (long : 4 ≤ n) :
    readBigEndian (buffer.take n) = readBigEndian buffer := by
  rw [readBigEndian, readBigEndian, List.take_take, Nat.min_eq_left long]

end DistributedNinja.Lib
