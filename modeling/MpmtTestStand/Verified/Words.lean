import Mathlib.Algebra.GroupWithZero.Nat
import Mathlib.Algebra.Ring.Int.Defs
import Mathlib.Tactic.ByContra

/-!
# Machine words as numbers

Where the operations on `UInt32`, `Int32` and `Int16` are those on the numbers.
-/

namespace MpmtTestStand.Verified.Words

theorem ne_zero_iff (x : UInt32) : x ≠ 0 ↔ 1 ≤ x.toNat := by
  constructor
  · intro h
    by_contra hlt
    exact h (UInt32.toNat_inj.mp (by simpa using hlt))
  · rintro h rfl
    exact absurd h (by decide)

/-- Below another word, adding one does not wrap. -/
theorem toNat_add_one {x y : UInt32} (h : x < y) : (x + 1).toNat = x.toNat + 1 := by
  have hlt := UInt32.lt_iff_toNat_lt.mp h
  have hy := y.toNat_lt
  rw [UInt32.toNat_add]
  show (x.toNat + 1) % 2 ^ 32 = x.toNat + 1
  omega

/-- Above another word, subtracting one does not wrap. -/
theorem toNat_sub_one {x y : UInt32} (h : y < x) : (x - 1).toNat = x.toNat - 1 := by
  have hlt := UInt32.lt_iff_toNat_lt.mp h
  have hone : (1 : UInt32).toNat = 1 := rfl
  rw [UInt32.toNat_sub_of_le, hone]
  rw [UInt32.le_iff_toNat_le, hone]
  omega

/-- Below `2^31` the unsigned and the signed reading of a word agree. -/
theorem toInt32_toInt {x : UInt32} (hx : x.toNat < 2 ^ 31) :
    x.toInt32.toInt = x.toNat := by
  show x.toBitVec.toInt = (x.toBitVec.toNat : Int)
  refine BitVec.toInt_eq_toNat_of_lt ?_
  rw [UInt32.toNat_toBitVec]
  omega

/-- A signed word that is not negative is the same number without its sign. -/
theorem toUInt32_toNat {x : Int32} (h : 0 ≤ x.toInt) : (x.toUInt32.toNat : Int) = x.toInt := by
  have hcond : x.toInt = _ := BitVec.toInt_eq_toNat_cond (x := x.toBitVec)
  have hnat : x.toUInt32.toNat = x.toBitVec.toNat := rfl
  have hlt := x.toBitVec.isLt
  split at hcond <;> omega

/-- Every word is so many times one. -/
theorem int32_ofNat_toNat (x : Int32) : Int32.ofNat x.toUInt32.toNat = x := by
  rw [← UInt32.toInt32_ofNat', UInt32.ofNat_toNat, Int32.toInt32_toUInt32]

/-! ## Words of 16 bits -/

theorem int16_toInt_add {x y : Int16} (hlow : -2 ^ 15 ≤ x.toInt + y.toInt)
    (hhigh : x.toInt + y.toInt < 2 ^ 15) : (x + y).toInt = x.toInt + y.toInt := by
  rw [Int16.toInt_add]
  exact Int.bmod_eq_of_le (by omega) (by omega)

theorem int16_toInt_sub {x y : Int16} (hlow : -2 ^ 15 ≤ x.toInt - y.toInt)
    (hhigh : x.toInt - y.toInt < 2 ^ 15) : (x - y).toInt = x.toInt - y.toInt := by
  rw [Int16.toInt_sub]
  exact Int.bmod_eq_of_le (by omega) (by omega)

theorem int16_toInt_two_mul {x : Int16} (hlow : -2 ^ 15 ≤ 2 * x.toInt)
    (hhigh : 2 * x.toInt < 2 ^ 15) : (2 * x).toInt = 2 * x.toInt := by
  have htwo : (2 : Int16).toInt = 2 := rfl
  rw [Int16.toInt_mul, htwo]
  exact Int.bmod_eq_of_le (by omega) (by omega)

end MpmtTestStand.Verified.Words
