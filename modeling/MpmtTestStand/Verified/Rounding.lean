import Mathlib.Algebra.Order.Floor.Ring
import Mathlib.Data.Int.Log
import Mathlib.Tactic.FieldSimp
import Mathlib.Tactic.Linarith
import Mathlib.Tactic.Positivity
import Mathlib.Tactic.Ring

/-!
# Rounding to numbers of `p` bits

`roundEven p x` is the number of `p` significant bits that is nearest to `x`; half way
between two of them it is the even one.  The exponent is not bounded, so that this is the
rounding of a binary floating-point format wherever its result is neither too large nor
too small for the format.
-/

namespace MpmtTestStand.Verified.Rounding

variable {K : Type*} [Field K] [LinearOrder K] [IsStrictOrderedRing K] [FloorRing K]

/-! ## Integers -/

/-- The nearest integer; half way between two, the even one. -/
def halfEven (q : K) : Int :=
  if q - ⌊q⌋ < 1 / 2 ∨ q - ⌊q⌋ = 1 / 2 ∧ ⌊q⌋ % 2 = 0 then ⌊q⌋ else ⌊q⌋ + 1

theorem halfEven_near (q : K) : |(halfEven q : K) - q| ≤ 1 / 2 := by
  have hlow : (⌊q⌋ : K) ≤ q := Int.floor_le q
  have hhigh : q < ⌊q⌋ + 1 := Int.lt_floor_add_one q
  unfold halfEven
  split_ifs with hdown
  · have hhalf : q - ⌊q⌋ ≤ 1 / 2 := by
      rcases hdown with hlt | ⟨heq, _⟩
      · exact hlt.le
      · exact heq.le
    rw [abs_le]
    constructor <;> linarith
  · have hhalf : 1 / 2 ≤ q - ⌊q⌋ := not_lt.mp fun hlt => hdown (.inl hlt)
    push_cast
    rw [abs_le]
    constructor <;> linarith

theorem halfEven_intCast (m : Int) : halfEven (m : K) = m := by
  have hfloor : ⌊(m : K)⌋ = m := Int.floor_intCast m
  unfold halfEven
  rw [hfloor, sub_self, if_pos (.inl one_half_pos)]

/-! ## Numbers of `p` bits -/

/-- How far the numbers of `p` bits around `x` are apart. -/
def ulp (p : Nat) (x : K) : K := 2 ^ (Int.log 2 |x| + 1 - p)

/-- The nearest number of `p` bits; half way between two, the even one. -/
def roundEven (p : Nat) (x : K) : K := halfEven (x / ulp p x) * ulp p x

/-- The number has `p` bits, behind which there may be zeros. -/
def Fits (p : Nat) (x : K) : Prop := ∃ m e : Int, |m| < 2 ^ p ∧ x = m * 2 ^ e

section

variable {p : Nat} {x : K}

theorem ulp_pos (p : Nat) (x : K) : 0 < ulp p x := by
  unfold ulp
  exact zpow_pos two_pos _

theorem roundEven_near (p : Nat) (x : K) : |roundEven p x - x| ≤ ulp p x / 2 := by
  have hpos := ulp_pos p x
  have hscaled : roundEven p x - x = (halfEven (x / ulp p x) - x / ulp p x) * ulp p x := by
    unfold roundEven
    field_simp
  calc |roundEven p x - x|
      = |(halfEven (x / ulp p x) : K) - x / ulp p x| * ulp p x := by
        rw [hscaled, abs_mul, abs_of_pos hpos]
    _ ≤ 1 / 2 * ulp p x := mul_le_mul_of_nonneg_right (halfEven_near _) hpos.le
    _ = ulp p x / 2 := by ring

/-- Half the distance is small in comparison with the number. -/
theorem ulp_le (p : Nat) (hx : 0 < x) : ulp p x / 2 ≤ x * 2 ^ (-(p : Int)) := by
  have hlog : (2 : K) ^ Int.log 2 x ≤ x := by
    exact_mod_cast Int.zpow_log_le_self Nat.one_lt_two hx
  have hulp : ulp p x / 2 = 2 ^ Int.log 2 x * 2 ^ (-(p : Int)) := by
    rw [ulp, abs_of_pos hx, ← zpow_add₀ two_ne_zero, div_eq_mul_inv, ← zpow_sub_one₀ two_ne_zero]
    congr 1
    omega
  rw [hulp]
  exact mul_le_mul_of_nonneg_right hlog (zpow_pos two_pos _).le

/-- Rounding loses at most one part in `2 ^ p`. -/
theorem le_roundEven (p : Nat) (hx : 0 < x) :
    (1 - 2 ^ (-(p : Int))) * x ≤ roundEven p x := by
  have hnear := (abs_le.mp (roundEven_near p x)).1
  have hulp := ulp_le p hx
  linarith

/-- A number of `p` bits is rounded to itself. -/
theorem roundEven_of_fits (h : Fits p x) : roundEven p x = x := by
  obtain ⟨m, e, hm, rfl⟩ := h
  by_cases hzero : m = 0
  · subst hzero
    have hx : ((0 : Int) : K) * 2 ^ e = 0 := by simp
    rw [hx, roundEven, zero_div]
    have hhalf := halfEven_intCast (K := K) 0
    rw [Int.cast_zero] at hhalf
    rw [hhalf, Int.cast_zero, zero_mul]
  · -- the distance is a power of two that divides `2 ^ e`
    have hcast : (m : K) ≠ 0 := by exact_mod_cast hzero
    have hpow : (0 : K) < 2 ^ e := zpow_pos two_pos e
    have hpos : 0 < |(m : K) * 2 ^ e| := by positivity
    have hlt : |(m : K) * 2 ^ e| < ((2 : Nat) : K) ^ ((p : Int) + e) := by
      have hm' : |(m : K)| < 2 ^ p := by exact_mod_cast hm
      rw [abs_mul, abs_of_pos hpow, Nat.cast_ofNat, zpow_add₀ two_ne_zero, zpow_natCast]
      exact mul_lt_mul_of_pos_right hm' hpow
    have hlog : Int.log 2 |(m : K) * 2 ^ e| < p + e :=
      (Int.lt_zpow_iff_log_lt Nat.one_lt_two hpos).mp hlt
    obtain ⟨k, hk⟩ : ∃ k : Nat, e = Int.log 2 |(m : K) * 2 ^ e| + 1 - p + k :=
      ⟨(e - (Int.log 2 |(m : K) * 2 ^ e| + 1 - p)).toNat, by omega⟩
    have hquot : (m : K) * 2 ^ e / ulp p ((m : K) * 2 ^ e) = ((m * 2 ^ k : Int) : K) := by
      have hsplit : (2 : K) ^ e = ulp p ((m : K) * 2 ^ e) * 2 ^ k := by
        rw [ulp, ← zpow_natCast, ← zpow_add₀ two_ne_zero, ← hk]
      have hulp := (ulp_pos p ((m : K) * 2 ^ e)).ne'
      rw [div_eq_iff hulp]
      push_cast
      rw [mul_assoc, mul_comm (2 ^ k : K), ← hsplit]
    rw [roundEven, hquot, halfEven_intCast, ← hquot]
    exact div_mul_cancel₀ _ (ulp_pos p _).ne'

end

end MpmtTestStand.Verified.Rounding
