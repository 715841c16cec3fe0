import MachineCode.Bytes.Endian
import Mathlib.Algebra.Group.Int.Defs
import Mathlib.Data.List.Induction
import Mathlib.Data.Nat.Digits.Defs

/-!
# Bytes as digits

Bytes are digits to the base 256, and a number in bytes is what these digits spell:
the first byte is the last digit in little-endian order and the first digit in
big-endian order. Up to eight bytes fit a word of 64 bits, so nothing is lost there,
and a sign is the one that the highest bit of the bytes gives.
-/

namespace MachineCode.Bytes

/-- The number of digits to the base 256, lowest digit first. -/
def digitsValue (bs : List UInt8) : Nat :=
  Nat.ofDigits 256 (bs.map UInt8.toNat)

/-- The number that the lowest `bits` bits stand for when the highest of them is a sign. -/
def twosComplement (bits n : Nat) : Int :=
  if 2 * n < 2 ^ bits then n else n - 2 ^ bits

theorem littleEndian_eq_digitsValue (bs : List UInt8) : littleEndian bs = digitsValue bs := by
  induction bs with
  | nil => rfl
  | cons b bs ih =>
      rw [littleEndian, ih, digitsValue, digitsValue, List.map_cons, Nat.ofDigits_cons]

theorem bigEndian_eq_digitsValue (bs : List UInt8) : bigEndian bs = digitsValue bs.reverse := by
  induction bs using List.reverseRecOn with
  | nil => rfl
  | append_singleton bs b ih =>
      rw [List.reverse_concat, ← littleEndian_eq_digitsValue, littleEndian,
        littleEndian_eq_digitsValue, ← ih, bigEndian, bigEndian, List.foldl_append]
      exact Nat.add_comm _ _

theorem littleEndian_lt (bs : List UInt8) : littleEndian bs < 2 ^ (8 * bs.length) := by
  induction bs with
  | nil => exact Nat.one_pos
  | cons b bs ih =>
      have hlt := b.toNat_lt
      rw [littleEndian, List.length_cons, Nat.mul_succ, Nat.pow_add]
      omega

variable {bs : List UInt8}

theorem toNat_unsigned64 (h : bs.length ≤ 8) : (unsigned64 bs).toNat = littleEndian bs := by
  have hlt := Nat.lt_of_lt_of_le (littleEndian_lt bs)
    (Nat.pow_le_pow_right (by decide) (by omega) : _ ≤ 2 ^ 64)
  rw [unsigned64, UInt64.toNat_ofNat', Nat.mod_eq_of_lt hlt]

theorem signedValue_range (bits n : Nat) :
    -2 ^ bits ≤ 2 * signedValue bits n ∧ 2 * signedValue bits n < 2 ^ bits := by
  constructor
  · exact_mod_cast BitVec.le_two_mul_toInt
  · exact_mod_cast BitVec.two_mul_toInt_lt

theorem toInt_signed64 (h : bs.length ≤ 8) :
    (signed64 bs).toInt = signedValue (8 * bs.length) (littleEndian bs) := by
  obtain ⟨hlo, hhi⟩ := signedValue_range (8 * bs.length) (littleEndian bs)
  have hpow : (2 : Int) ^ (8 * bs.length) ≤ 2 ^ 64 := by
    exact_mod_cast Nat.pow_le_pow_right (by decide) (show 8 * bs.length ≤ 64 by omega)
  rw [signed64, Int64.toInt_ofInt]
  exact Int.bmod_eq_of_le (by simp only [Int64.size]; omega) (by simp only [Int64.size]; omega)

theorem signedValue_eq_twosComplement {bits n : Nat} (h : n < 2 ^ bits) :
    signedValue bits n = twosComplement bits n := by
  rw [signedValue, BitVec.toInt_eq_toNat_cond, BitVec.toNat_ofNat, Nat.mod_eq_of_lt h,
    twosComplement]
  rfl

end MachineCode.Bytes
