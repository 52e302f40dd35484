import Mathlib.Data.Int.Notation
import Mathlib.Data.Nat.Notation

/-!
# Machine integers and the integers they stand for

Operations on 32-bit words are exact as long as the exact result is a 32-bit signed integer, also
where C++ converts an operand to unsigned or to 64 bits on the way.  Every lemma has the exact
result as its hypothesis, so that a chain of operations is rewritten to integers from the inside
out.
-/

namespace Ngp

/-- The integers that fit in a 32-bit signed word. -/
def FitsInt32 (z : ℤ) : Prop := -2147483648 ≤ z ∧ z < 2147483648

instance (z : ℤ) : Decidable (FitsInt32 z) := inferInstanceAs (Decidable (_ ∧ _))

/-- An integer that fits is its own representative. -/
theorem FitsInt32.bmod_eq {z : ℤ} (h : FitsInt32 z) : z.bmod 4294967296 = z :=
  Int.bmod_eq_of_le h.1 h.2

/-- What a word holds fits. -/
theorem fitsInt32_toInt (a : Int32) : FitsInt32 a.toInt := ⟨a.le_toInt, a.toInt_lt⟩

/-- A word that is congruent to an integer that fits holds that integer. -/
theorem toInt_toInt32_of_emod_eq {u : UInt32} {z : ℤ} (hz : FitsInt32 z)
    (h : (u.toNat : ℤ) % 4294967296 = z % 4294967296) : u.toInt32.toInt = z := by
  have hword : u.toInt32.toInt = (u.toNat : ℤ).bmod 4294967296 := by
    rw [← Int32.toInt_toBitVec, BitVec.toInt_eq_toNat_bmod]
    rfl
  calc u.toInt32.toInt = (u.toNat : ℤ).bmod 4294967296 := hword
    _ = ((u.toNat : ℤ) % 4294967296).bmod 4294967296 := (Int.emod_bmod ..).symm
    _ = (z % 4294967296).bmod 4294967296 := by rw [h]
    _ = z.bmod 4294967296 := Int.emod_bmod ..
    _ = z := hz.bmod_eq

section Signed

variable {a b : Int32}

/-- Signed addition. -/
theorem toInt_add_of_fits (h : FitsInt32 (a.toInt + b.toInt)) :
    (a + b).toInt = a.toInt + b.toInt := by
  rw [Int32.toInt_add]
  exact h.bmod_eq

/-- Signed subtraction. -/
theorem toInt_sub_of_fits (h : FitsInt32 (a.toInt - b.toInt)) :
    (a - b).toInt = a.toInt - b.toInt := by
  rw [Int32.toInt_sub]
  exact h.bmod_eq

/-- A signed counter after `n` increments. -/
theorem toInt_add_ofNat_of_fits {n : ℕ} (h : FitsInt32 (a.toInt + n)) :
    (a + Int32.ofNat n).toInt = a.toInt + n := by
  rw [Int32.toInt_add, Int32.toInt_ofNat']
  exact (Int.add_bmod_bmod ..).trans h.bmod_eq

/-- A signed word of at least `0` is the same word read as unsigned. -/
theorem toNat_toUInt32_of_nonneg (h : 0 ≤ a.toInt) : a.toUInt32.toNat = a.toInt.toNat := by
  have hle : (0 : Int32) ≤ a := Int32.le_iff_toInt_le.mpr h
  exact Int32.toNat_toUInt32_of_le hle

end Signed

section Mixed

variable {a : Int32}

/-- An addition in which the signed operand is converted to unsigned, with the result stored in a
signed word. -/
theorem toInt_add_unsigned_of_fits {u : UInt32} (h : FitsInt32 (a.toInt + u.toNat)) :
    (a.toUInt32 + u).toInt32.toInt = a.toInt + u.toNat := by
  apply toInt_toInt32_of_emod_eq h
  have hword : (a.toUInt32.toNat : ℤ) % 4294967296 = a.toInt % 4294967296 := by
    rw [← Int32.toInt_toBitVec, BitVec.toInt_eq_toNat_bmod]
    exact (Int.bmod_emod ..).symm
  rw [UInt32.toNat_add]
  calc (((a.toUInt32.toNat + u.toNat) % 4294967296 : ℕ) : ℤ) % 4294967296
      = ((a.toUInt32.toNat : ℤ) + u.toNat) % 4294967296 := by omega
    _ = (a.toInt + u.toNat) % 4294967296 := by omega

/-- An addition in which the 32-bit operand is converted to 64 bits, with the result stored in a
32-bit word. -/
theorem toInt_add_wide_of_fits {b : Int64} (h : FitsInt32 (a.toInt + b.toInt)) :
    (a.toInt64 + b).toInt32.toInt = a.toInt + b.toInt := by
  rw [Int64.toInt32_add, Int32.toInt_add, Int32.toInt32_toInt64, Int64.toInt_toInt32]
  exact (Int.add_bmod_bmod ..).trans h.bmod_eq

/-- Shifting a signed word right divides it, rounding down. -/
theorem toInt_shiftRight_six (b : Int64) : (b >>> 6).toInt = b.toInt / 64 := by
  rw [← Int64.toInt_toBitVec, Int64.toBitVec_shiftRight, BitVec.toInt_sshiftRight',
    Int64.toInt_toBitVec]
  exact Int.shiftRight_eq_div_pow ..

end Mixed

end Ngp
