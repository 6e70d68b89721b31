import MpmtTestStand.Verified.Words
import Mathlib

/-!
# Velocity profiles: `Kinematics.cpp`

`generate_vel_profile` splits a distance into an accelerating, a holding and a
decelerating part.  Its arithmetic is that of the source: products, squares and
differences in `uint32_t`, the sign applied by multiplying with a signed `-1`.

`generateVelProfile_partition` is what the motion code relies on.  The three
parts have the sign of the motion and add up to the distance, even when the
squared velocities wrap, because `dist_accel` is a quotient by `2 * accel` and
so stays below `2^31`.
-/

namespace MpmtTestStand.Ports

open MpmtTestStand.Verified.Words

/-- `VelProfile` -/
structure VelProfile where
  distAccel : Int32
  distHold : Int32
  distDecel : Int32
  deriving DecidableEq, Repr

/-- `calc_dist_accel` -/
def calcDistAccel (a v0 vf : UInt32) : UInt32 := (vf * vf - v0 * v0) / (2 * a)

/-- `int32_t dir = (neg ? -1 : 1)` -/
def profileSign (neg : Bool) : Int32 := if neg then -1 else 1

/-- `dist * dir` with an unsigned `dist`, stored into an `int32_t`. -/
def signedDist (dist : UInt32) (dir : Int32) : Int32 :=
  (dist * dir.toUInt32).toInt32

/-- `generate_vel_profile`; `none` stands for returning `false`, which leaves
`*profile_out` alone. -/
def generateVelProfile (neg : Bool) (accel vStart vHold distTotal : UInt32) :
    Option VelProfile :=
  let dir := profileSign neg
  if accel ≠ 0 ∧ vHold ≥ vStart then
    let reach := calcDistAccel accel vStart vHold
    -- not enough distance to accelerate, hold and decelerate: triangular profile
    let distAccel := if reach * 2 > distTotal then distTotal / 2 else reach
    let distHold := if reach * 2 > distTotal then 0 else distTotal - 2 * reach
    some
      { distAccel := signedDist distAccel dir
        distHold := signedDist distHold dir
        distDecel := signedDist (distTotal - distAccel - distHold) dir }
  else if vHold = vStart then
    some { distAccel := 0, distHold := signedDist distTotal dir, distDecel := 0 }
  else none

/-- `generate_vel_profile` with its output parameter: the returned value, and what
`*profile_out` holds then. -/
def generateVelProfileInto (neg : Bool) (accel vStart vHold distTotal : UInt32)
    (profileOut : VelProfile) : Bool × VelProfile :=
  let dir := profileSign neg
  if accel ≠ 0 ∧ vHold ≥ vStart then
    let reach := calcDistAccel accel vStart vHold
    let distAccel := if reach * 2 > distTotal then distTotal / 2 else reach
    let distHold := if reach * 2 > distTotal then 0 else distTotal - 2 * reach
    let profileOut := { profileOut with distAccel := signedDist distAccel dir }
    let profileOut := { profileOut with distHold := signedDist distHold dir }
    (true,
      { profileOut with distDecel := signedDist (distTotal - distAccel - distHold) dir })
  else if vHold = vStart then
    let profileOut := { profileOut with distAccel := 0 }
    let profileOut := { profileOut with distHold := signedDist distTotal dir }
    (true, { profileOut with distDecel := 0 })
  else (false, profileOut)

/-- The output parameter is either written completely or left alone. -/
theorem generateVelProfileInto_eq (neg : Bool) (accel vStart vHold distTotal : UInt32)
    (profileOut : VelProfile) :
    generateVelProfileInto neg accel vStart vHold distTotal profileOut =
      match generateVelProfile neg accel vStart vHold distTotal with
      | some profile => (true, profile)
      | none => (false, profileOut) := by
  unfold generateVelProfileInto generateVelProfile
  by_cases hramp : accel ≠ 0 ∧ vHold ≥ vStart
  · simp only [if_pos hramp]
  · by_cases hconst : vHold = vStart
    · simp only [if_neg hramp, if_pos hconst]
    · simp only [if_neg hramp, if_neg hconst]

/-- When there is no profile. -/
theorem generateVelProfile_eq_none (neg : Bool) (accel vStart vHold distTotal : UInt32) :
    generateVelProfile neg accel vStart vHold distTotal = none ↔
      vHold < vStart ∨ (accel = 0 ∧ vHold ≠ vStart) := by
  unfold generateVelProfile
  by_cases hlt : vHold < vStart
  · have hge : ¬vHold ≥ vStart := UInt32.not_le.mpr hlt
    have hne : vHold ≠ vStart := UInt32.ne_of_lt hlt
    simp [hlt, hge, hne]
  · have hge : vHold ≥ vStart := UInt32.not_lt.mp hlt
    by_cases haccel : accel = 0
    · simp [hlt, hge, haccel]
    · simp [hlt, hge, haccel]

/-- The sign of a motion as an integer. -/
def sign (neg : Bool) : Int := if neg then -1 else 1

/-! ## Signs -/

/-- Multiplying by the sign gives the signed distance. -/
theorem signedDist_toInt (neg : Bool) {dist : UInt32} (h : dist.toNat < 2 ^ 31) :
    (signedDist dist (profileSign neg)).toInt = sign neg * dist.toNat := by
  cases neg with
  | false =>
      have hone : signedDist dist (profileSign false) = dist.toInt32 := by
        show (dist * 1).toInt32 = dist.toInt32
        rw [UInt32.mul_one]
      rw [hone, toInt32_toInt h]
      simp [sign]
  | true =>
      have hneg : signedDist dist (profileSign true) = -dist.toInt32 := by
        show (dist * (-1 : UInt32)).toInt32 = -dist.toInt32
        rw [show dist * (-1 : UInt32) = -dist by grind]
        rfl
      rw [hneg, Int32.toInt_neg, toInt32_toInt h,
        Int.bmod_eq_of_le (by omega) (by omega)]
      simp [sign]

/-! ## The parts of a profile -/

/-- The distance needed to accelerate fits 31 bits, so that doubling it is
exact; nothing is assumed about the velocities. -/
theorem calcDistAccel_lt (a v0 vf : UInt32) (ha : a ≠ 0) (ha' : a ≠ 0x80000000) :
    (calcDistAccel a v0 vf).toNat < 2 ^ 31 := by
  have hlt := (vf * vf - v0 * v0).toNat_lt
  have hmul : 2 ≤ (2 * a).toNat := by
    have h0 : a.toNat ≠ 0 := fun h => ha (UInt32.toNat_inj.mp h)
    have h1 : a.toNat ≠ 2 ^ 31 := fun h => ha' (UInt32.toNat_inj.mp h)
    have := a.toNat_lt
    rw [UInt32.toNat_mul]
    show 2 ≤ 2 * a.toNat % 2 ^ 32
    omega
  rw [calcDistAccel, UInt32.toNat_div]
  calc (vf * vf - v0 * v0).toNat / (2 * a).toNat
      ≤ (vf * vf - v0 * v0).toNat / 2 := Nat.div_le_div_left hmul (by omega)
    _ < 2 ^ 31 := by omega

/-- What `generate_vel_profile` returns: three distances of the motion's sign
that add up to the whole. -/
structure Partition (neg : Bool) (total : Nat) (p : VelProfile) where
  accel : Nat
  hold : Nat
  decel : Nat
  distAccel : p.distAccel.toInt = sign neg * accel
  distHold : p.distHold.toInt = sign neg * hold
  distDecel : p.distDecel.toInt = sign neg * decel
  sum : accel + hold + decel = total
  balanced : accel ≤ decel ∧ decel ≤ accel + 1

/-- How far to accelerate and how far to hold, for a distance of `reach` that would be
needed to accelerate. -/
def trapezoid (reach total : Nat) : Nat × Nat :=
  if total < 2 * reach then (total / 2, 0) else (reach, total - 2 * reach)

theorem trapezoid_accel_le (reach total : Nat) :
    2 * (trapezoid reach total).1 + (trapezoid reach total).2 ≤ total := by
  unfold trapezoid
  split
  · show 2 * (total / 2) + 0 ≤ total
    omega
  · show 2 * reach + (total - 2 * reach) ≤ total
    omega

/-- The rest is at most one count longer than the accelerating part. -/
theorem trapezoid_rest_le (reach total : Nat) :
    total ≤ 2 * (trapezoid reach total).1 + (trapezoid reach total).2 + 1 := by
  unfold trapezoid
  split
  · show total ≤ 2 * (total / 2) + 0 + 1
    omega
  · show total ≤ 2 * reach + (total - 2 * reach) + 1
    omega

/-- Nothing is needed to accelerate to the velocity that the motion starts with. -/
theorem calcDistAccel_self (a v : UInt32) : (calcDistAccel a v v).toNat = 0 := by
  rw [calcDistAccel, UInt32.sub_self, UInt32.toNat_div]
  exact Nat.zero_div _

/-- The two words of the trapezoid. -/
theorem trapezoid_toNat {reach total : UInt32} (hreach : reach.toNat < 2 ^ 31) :
    (if reach * 2 > total then total / 2 else reach).toNat =
        (trapezoid reach.toNat total.toNat).1 ∧
      (if reach * 2 > total then 0 else total - 2 * reach).toNat =
        (trapezoid reach.toNat total.toNat).2 := by
  have hdouble : (reach * 2).toNat = 2 * reach.toNat := by
    rw [UInt32.toNat_mul]
    show reach.toNat * 2 % 2 ^ 32 = _
    omega
  have hiff : reach * 2 > total ↔ total.toNat < 2 * reach.toNat := by
    rw [gt_iff_lt, UInt32.lt_iff_toNat_lt, hdouble]
  unfold trapezoid
  by_cases hshort : total.toNat < 2 * reach.toNat
  · rw [if_pos (hiff.mpr hshort), if_pos (hiff.mpr hshort), if_pos hshort]
    exact ⟨UInt32.toNat_div _ _, rfl⟩
  · rw [if_neg (mt hiff.mp hshort), if_neg (mt hiff.mp hshort), if_neg hshort]
    refine ⟨rfl, ?_⟩
    have hdouble' : (2 * reach).toNat = 2 * reach.toNat := by
      rw [UInt32.mul_comm, hdouble]
    rw [UInt32.toNat_sub_of_le, hdouble']
    rw [UInt32.le_iff_toNat_le, hdouble']
    omega

/-- The distances of the profile, from what `calc_dist_accel` returns. -/
theorem generateVelProfile_some {neg : Bool} {accel vStart vHold distTotal : UInt32}
    {p : VelProfile} (ha : accel ≠ 0x80000000) (htotal : distTotal.toNat < 2 ^ 31)
    (h : generateVelProfile neg accel vStart vHold distTotal = some p) :
    let parts := trapezoid (calcDistAccel accel vStart vHold).toNat distTotal.toNat
    p.distAccel.toInt = sign neg * parts.1 ∧ p.distHold.toInt = sign neg * parts.2 ∧
      p.distDecel.toInt = sign neg * (distTotal.toNat - parts.1 - parts.2 : Nat) := by
  intro parts
  have hle : 2 * parts.1 + parts.2 ≤ distTotal.toNat := trapezoid_accel_le _ _
  unfold generateVelProfile at h
  dsimp only at h
  split at h
  · rename_i hcond
    have hreach := calcDistAccel_lt accel vStart vHold hcond.1 ha
    obtain ⟨hdistAccel, hdistHold⟩ := @trapezoid_toNat _ distTotal hreach
    obtain rfl := Option.some.inj h
    generalize (if calcDistAccel accel vStart vHold * 2 > distTotal then distTotal / 2
      else calcDistAccel accel vStart vHold) = distAccel at hdistAccel ⊢
    generalize (if calcDistAccel accel vStart vHold * 2 > distTotal then 0
      else distTotal - 2 * calcDistAccel accel vStart vHold) = distHold at hdistHold ⊢
    have haccel : distAccel.toNat = parts.1 := hdistAccel
    have hhold : distHold.toNat = parts.2 := hdistHold
    have hsub : (distTotal - distAccel).toNat = distTotal.toNat - parts.1 := by
      rw [UInt32.toNat_sub_of_le, haccel]
      rw [UInt32.le_iff_toNat_le, haccel]
      omega
    have hrest : (distTotal - distAccel - distHold).toNat =
        distTotal.toNat - parts.1 - parts.2 := by
      rw [UInt32.toNat_sub_of_le, hsub, hhold]
      rw [UInt32.le_iff_toNat_le, hsub, hhold]
      omega
    refine ⟨?_, ?_, ?_⟩
    · rw [signedDist_toInt neg (by omega), haccel]
    · rw [signedDist_toInt neg (by omega), hhold]
    · rw [signedDist_toInt neg (by omega), hrest]
  · split at h
    · rename_i hconst
      obtain rfl := Option.some.inj h
      have hparts : parts = (0, distTotal.toNat) := by
        show trapezoid (calcDistAccel accel vStart vHold).toNat _ = _
        rw [hconst, calcDistAccel_self]
        rfl
      rw [hparts]
      refine ⟨by simp, signedDist_toInt neg htotal, by simp⟩
    · cases h

/-- **The profile partitions the distance**, with the two ramps equal up to one
count. -/
theorem generateVelProfile_partition {neg : Bool} {accel vStart vHold distTotal : UInt32}
    {p : VelProfile} (ha : accel ≠ 0x80000000) (htotal : distTotal.toNat < 2 ^ 31)
    (h : generateVelProfile neg accel vStart vHold distTotal = some p) :
    Nonempty (Partition neg distTotal.toNat p) := by
  obtain ⟨haccel, hhold, hdecel⟩ := generateVelProfile_some ha htotal h
  have hle := trapezoid_accel_le (calcDistAccel accel vStart vHold).toNat distTotal.toNat
  have hrest := trapezoid_rest_le (calcDistAccel accel vStart vHold).toNat distTotal.toNat
  exact ⟨{
    accel := _
    hold := _
    decel := _
    distAccel := haccel
    distHold := hhold
    distDecel := hdecel
    sum := by omega
    balanced := by omega }⟩

/-- A signed distance has the sign of the motion. -/
theorem sign_mul_range (neg : Bool) (n : Nat) :
    if neg then sign neg * n ≤ 0 else 0 ≤ sign neg * n := by
  cases neg with
  | false =>
      simp only [sign, Bool.false_eq_true, if_false]
      omega
  | true =>
      simp only [sign, if_true]
      omega

theorem sign_mul_natAbs (neg : Bool) (n : Nat) : (sign neg * n).natAbs = n := by
  cases neg with
  | false =>
      simp only [sign, Bool.false_eq_true, if_false]
      omega
  | true =>
      simp only [sign, if_true]
      omega

/-- Whether there is a profile. -/
theorem generateVelProfile_isSome_iff (neg : Bool) (accel vStart vHold distTotal : UInt32) :
    (generateVelProfile neg accel vStart vHold distTotal).isSome ↔
      (accel ≠ 0 ∧ vHold ≥ vStart) ∨ vHold = vStart := by
  unfold generateVelProfile
  by_cases hramp : accel ≠ 0 ∧ vHold ≥ vStart
  · dsimp only
    rw [if_pos hramp]
    exact ⟨fun _ => .inl hramp, fun _ => rfl⟩
  · dsimp only
    rw [if_neg hramp]
    by_cases hconst : vHold = vStart
    · rw [if_pos hconst]
      exact ⟨fun _ => .inr hconst, fun _ => rfl⟩
    · rw [if_neg hconst]
      exact ⟨nofun, fun h => absurd h (not_or.mpr ⟨hramp, hconst⟩)⟩

/-- **The velocity profile partitions the distance**, whatever wraps on the way to
it; without a profile the output parameter keeps its value. -/
theorem generateVelProfileInto_partition (neg : Bool) (accel vStart vHold distTotal : UInt32)
    (profileOut : VelProfile) (haccel : accel ≠ 0x80000000)
    (htotal : distTotal.toNat ≤ 2 ^ 31 - 1) :
    let result := generateVelProfileInto neg accel vStart vHold distTotal profileOut
    let profile := result.2
    (result.1 = true ↔ (accel ≠ 0 ∧ vHold ≥ vStart) ∨ vHold = vStart) ∧
    (result.1 = true →
      (if neg then profile.distAccel.toInt ≤ 0 ∧ profile.distHold.toInt ≤ 0 ∧
          profile.distDecel.toInt ≤ 0
        else 0 ≤ profile.distAccel.toInt ∧ 0 ≤ profile.distHold.toInt ∧
          0 ≤ profile.distDecel.toInt) ∧
      profile.distAccel.toInt + profile.distHold.toInt + profile.distDecel.toInt =
        (if neg then -(distTotal.toNat : Int) else distTotal.toNat) ∧
      profile.distAccel.toInt.natAbs ≤ profile.distDecel.toInt.natAbs ∧
      profile.distDecel.toInt.natAbs ≤ profile.distAccel.toInt.natAbs + 1) ∧
    (result.1 = false → profile = profileOut) := by
  intro result profile
  have hsome := generateVelProfile_isSome_iff neg accel vStart vHold distTotal
  have hresult : result = _ :=
    generateVelProfileInto_eq neg accel vStart vHold distTotal profileOut
  cases hprofile : generateVelProfile neg accel vStart vHold distTotal with
  | none =>
      rw [hprofile] at hresult hsome
      rw [← hsome, show profile = profileOut from congrArg Prod.snd hresult,
        show result.1 = false from congrArg Prod.fst hresult]
      simp
  | some p =>
      rw [hprofile] at hresult hsome
      obtain ⟨part⟩ := generateVelProfile_partition haccel (by omega) hprofile
      rw [← hsome, show profile = p from congrArg Prod.snd hresult,
        show result.1 = true from congrArg Prod.fst hresult,
        part.distAccel, part.distHold, part.distDecel]
      refine ⟨by simp, fun _ => ⟨?_, ?_, ?_⟩, fun h => absurd h.symm Bool.false_ne_true⟩
      · have haccel := sign_mul_range neg part.accel
        have hhold := sign_mul_range neg part.hold
        have hdecel := sign_mul_range neg part.decel
        cases neg with
        | false => exact ⟨haccel, hhold, hdecel⟩
        | true => exact ⟨haccel, hhold, hdecel⟩
      · have hsum := part.sum
        cases neg with
        | false =>
            simp only [sign, Bool.false_eq_true, if_false]
            omega
        | true =>
            simp only [sign, if_true]
            omega
      · rw [sign_mul_natAbs, sign_mul_natAbs]
        exact part.balanced

/-- Ten counts backwards, so fast that the squared velocity wraps. -/
theorem generateVelProfileInto_partition_ten :
    (generateVelProfileInto true 1 0 65536 10 ⟨0, 0, 0⟩).2.distAccel.toInt +
        (generateVelProfileInto true 1 0 65536 10 ⟨0, 0, 0⟩).2.distHold.toInt +
        (generateVelProfileInto true 1 0 65536 10 ⟨0, 0, 0⟩).2.distDecel.toInt = -10 :=
  have hpartition := generateVelProfileInto_partition true 1 0 65536 10 ⟨0, 0, 0⟩
    (by decide) (by decide)
  (hpartition.2.1 (by decide)).2.1

end MpmtTestStand.Ports
