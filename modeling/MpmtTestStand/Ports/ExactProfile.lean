import MpmtTestStand.Ports.VelocityEnvelope

/-!
# The profile in unbounded integers

`start_axis` converts an acceleration and two velocities to encoder counts and
`calc_dist_accel` squares the velocities, all of it in `uint32_t`.  `NoWrap` says that
none of these products wraps; then the stored profile is the one of the same formulas
over the integers.  `start_axis` does not ask for it, nor does it use `VEL_MAX`, within
which the velocities would be small enough (`exactProfile_iff`).
-/

namespace MpmtTestStand.Ports

/-- `VEL_MAX`, the maximum allowed velocity in motor steps per second; no function
uses it. -/
def velMax : UInt32 := 25000

/-! ## The formulas without a width -/

/-- Steps to counts. -/
def exactCounts (mech : AxisMech) (steps : UInt32) : Nat :=
  steps.toNat * mech.countsPerRev.toNat / mech.stepsPerRev.toNat

/-- `calc_dist_accel` -/
def exactDistAccel (a v0 vf : Nat) : Nat := (vf ^ 2 - v0 ^ 2) / (2 * a)

/-- `VelProfile` -/
structure ExactProfile where
  distAccel : Int
  distHold : Int
  distDecel : Int
  deriving DecidableEq, Repr

/-- The profile of a motion over `total` counts. -/
def exactProfile (neg : Bool) (a v0 vf total : Nat) : ExactProfile :=
  let reach := if vf = v0 then 0 else exactDistAccel a v0 vf
  let distAccel := min reach (total / 2)
  let distHold := if total < 2 * reach then 0 else total - 2 * distAccel
  { distAccel := sign neg * distAccel
    distHold := sign neg * distHold
    distDecel := sign neg * (total - distAccel - distHold : Nat) }

/-- The profile that the unbounded formulas give for a motion. -/
def AxisMotionSpec.exactProfile (mech : AxisMech) (motion : AxisMotionSpec) : ExactProfile :=
  Ports.exactProfile (motion.dir = .negative) (exactCounts mech motion.accel)
    (exactCounts mech motion.velStart) (exactCounts mech motion.velHold)
    motion.totalCounts.toNat

/-- The distances that a profile stores. -/
def VelProfile.toExact (p : VelProfile) : ExactProfile where
  distAccel := p.distAccel.toInt
  distHold := p.distHold.toInt
  distDecel := p.distDecel.toInt

/-- No product and no square of `start_axis` and `calc_dist_accel` wraps. -/
structure NoWrap (mech : AxisMech) (motion : AxisMotionSpec) : Prop where
  accel : motion.accel.toNat * mech.countsPerRev.toNat < 2 ^ 32
  velStart : motion.velStart.toNat * mech.countsPerRev.toNat < 2 ^ 32
  velHold : motion.velHold.toNat * mech.countsPerRev.toNat < 2 ^ 32
  velStartSquare : exactCounts mech motion.velStart ^ 2 < 2 ^ 32
  velHoldSquare : exactCounts mech motion.velHold ^ 2 < 2 ^ 32
  accelTwice : 2 * exactCounts mech motion.accel < 2 ^ 32
  distAccelTwice : 2 * exactDistAccel (exactCounts mech motion.accel)
    (exactCounts mech motion.velStart) (exactCounts mech motion.velHold) < 2 ^ 32

/-! ## Exactness -/

theorem stepsToCounts_toNat {mech : AxisMech} {steps : UInt32}
    (h : steps.toNat * mech.countsPerRev.toNat < 2 ^ 32) :
    (Axis.stepsToCounts mech steps).toNat = exactCounts mech steps := by
  rw [Axis.stepsToCounts, UInt32.toNat_div, UInt32.toNat_mul, Nat.mod_eq_of_lt h]
  rfl

theorem square_toNat {v : UInt32} (h : v.toNat ^ 2 < 2 ^ 32) : (v * v).toNat = v.toNat ^ 2 := by
  rw [UInt32.toNat_mul, ← Nat.pow_two, Nat.mod_eq_of_lt h]

/-- If the squares and the divisor fit, so does everything else. -/
theorem calcDistAccel_toNat {a v0 vf : UInt32} (ha : 2 * a.toNat < 2 ^ 32)
    (hv0 : v0.toNat ^ 2 < 2 ^ 32) (hvf : vf.toNat ^ 2 < 2 ^ 32) (hle : v0 ≤ vf) :
    (calcDistAccel a v0 vf).toNat = exactDistAccel a.toNat v0.toNat vf.toNat := by
  have htwice : (2 * a).toNat = 2 * a.toNat := by
    rw [UInt32.toNat_mul]
    exact Nat.mod_eq_of_lt ha
  have hsquares : v0.toNat ^ 2 ≤ vf.toNat ^ 2 :=
    Nat.pow_le_pow_left (UInt32.le_iff_toNat_le.mp hle) 2
  have hdiff : (vf * vf - v0 * v0).toNat = vf.toNat ^ 2 - v0.toNat ^ 2 := by
    rw [UInt32.toNat_sub_of_le, square_toNat hvf, square_toNat hv0]
    rw [UInt32.le_iff_toNat_le, square_toNat hvf, square_toNat hv0]
    exact hsquares
  rw [calcDistAccel, UInt32.toNat_div, htwice, hdiff]
  rfl

/-- A motion without acceleration needs no distance for it. -/
theorem exactDistAccel_self (a v : Nat) : exactDistAccel a v v = 0 := by
  rw [exactDistAccel, Nat.sub_self, Nat.zero_div]

/-- The unbounded profile is made of the same trapezoid. -/
theorem exactProfile_trapezoid (neg : Bool) (a v0 vf total : Nat) :
    exactProfile neg a v0 vf total =
      let parts := trapezoid (exactDistAccel a v0 vf) total
      { distAccel := sign neg * parts.1
        distHold := sign neg * parts.2
        distDecel := sign neg * (total - parts.1 - parts.2 : Nat) } := by
  have hreach : (if vf = v0 then 0 else exactDistAccel a v0 vf) = exactDistAccel a v0 vf := by
    by_cases heq : vf = v0
    · rw [if_pos heq, heq, exactDistAccel_self]
    · rw [if_neg heq]
  unfold exactProfile trapezoid
  simp only [hreach]
  by_cases hshort : total < 2 * exactDistAccel a v0 vf
  · rw [if_pos hshort, if_pos hshort, Nat.min_eq_right (by omega)]
  · rw [if_neg hshort, if_neg hshort, Nat.min_eq_left (by omega)]

/-- **Without wrapping the profile is exact.** -/
theorem generateVelProfile_exact {neg : Bool} {a v0 vf total : UInt32} {p : VelProfile}
    (ha : 2 * a.toNat < 2 ^ 32) (hv0 : v0.toNat ^ 2 < 2 ^ 32) (hvf : vf.toNat ^ 2 < 2 ^ 32)
    (htotal : total.toNat < 2 ^ 31) (h : generateVelProfile neg a v0 vf total = some p) :
    p.toExact = exactProfile neg a.toNat v0.toNat vf.toNat total.toNat := by
  have hle : v0 ≤ vf := by
    by_contra hlt
    have hnone := (generateVelProfile_eq_none neg a v0 vf total).mpr
      (.inl (UInt32.not_le.mp hlt))
    rw [hnone] at h
    cases h
  have hhalf : a ≠ 0x80000000 := by
    rintro rfl
    exact absurd ha (by decide)
  obtain ⟨haccel, hhold, hdecel⟩ := generateVelProfile_some hhalf htotal h
  rw [exactProfile_trapezoid, ← calcDistAccel_toNat ha hv0 hvf hle, VelProfile.toExact, haccel,
    hhold, hdecel]

theorem NoWrap.motionProfile_exact {mech : AxisMech} {motion : AxisMotionSpec}
    {profile : VelProfile} (h : NoWrap mech motion) (htotal : motion.totalCounts.toNat < 2 ^ 31)
    (hprofile : Axis.motionProfile mech motion = some profile) :
    profile.toExact = motion.exactProfile mech := by
  have haccel := stepsToCounts_toNat h.accel
  have hvelStart := stepsToCounts_toNat h.velStart
  have hvelHold := stepsToCounts_toNat h.velHold
  rw [AxisMotionSpec.exactProfile, ← haccel, ← hvelStart, ← hvelHold]
  refine generateVelProfile_exact ?_ ?_ ?_ htotal hprofile
  · rw [haccel]
    exact h.accelTwice
  · rw [hvelStart]
    exact h.velStartSquare
  · rw [hvelHold]
    exact h.velHoldSquare

/-! ## Which motions are exact -/

/-- Within the limit, velocities in counts are below 2^14. -/
theorem exactCounts_le {mech : AxisMech} (hmech : mech = ⟨500, 800⟩) {v : UInt32}
    (h : v ≤ velMax) : v.toNat * mech.countsPerRev.toNat < 2 ^ 32 ∧ exactCounts mech v ≤ 15625 := by
  subst hmech
  have hle : v.toNat ≤ 25000 := UInt32.le_iff_toNat_le.mp h
  rw [exactCounts]
  show v.toNat * 500 < 2 ^ 32 ∧ v.toNat * 500 / 800 ≤ 15625
  omega

/-- Velocities within the limit and an acceleration whose product fits: nothing wraps. -/
theorem noWrap_of_le {mech : AxisMech} (hmech : mech = ⟨500, 800⟩) {motion : AxisMotionSpec}
    (hvelStart : motion.velStart ≤ velMax) (hvelHold : motion.velHold ≤ velMax)
    (haccel : motion.accel.toNat * 500 < 2 ^ 32) : NoWrap mech motion := by
  obtain ⟨hstart, hstart'⟩ := exactCounts_le hmech hvelStart
  obtain ⟨hhold, hhold'⟩ := exactCounts_le hmech hvelHold
  have hstartSquare := Nat.pow_le_pow_left hstart' 2
  have hholdSquare := Nat.pow_le_pow_left hhold' 2
  have hdist : exactDistAccel (exactCounts mech motion.accel) (exactCounts mech motion.velStart)
      (exactCounts mech motion.velHold) ≤ 15625 ^ 2 :=
    calc _ ≤ exactCounts mech motion.velHold ^ 2 - exactCounts mech motion.velStart ^ 2 :=
          Nat.div_le_self _ _
      _ ≤ 15625 ^ 2 := by omega
  have htwice : 2 * exactCounts mech motion.accel < 2 ^ 32 := by
    subst hmech
    show 2 * (motion.accel.toNat * 500 / 800) < 2 ^ 32
    omega
  exact
    { accel := by rw [hmech]; exact haccel
      velStart := hstart
      velHold := hhold
      velStartSquare := by omega
      velHoldSquare := by omega
      accelTwice := htwice
      distAccelTwice := by omega }

/-- **When accepted motions get the exact profile.**  Every accepted motion has the
profile of the unbounded formulas and no product of it wraps, and every motion that is
faster than `VEL_MAX` is rejected, exactly if the motion is refused, or its velocities
are within `VEL_MAX` and its acceleration in steps times 500 fits `uint32_t`. -/
theorem exactProfile_iff (axis : Axis) (motion : AxisMotionSpec)
    (hmech : axis.mech = MPMTTestStand.conf.axisMech)
    (htotal : motion.totalCounts.toNat ≤ 2 ^ 31 - 1) :
    ((∀ axis0, axis.startAxis motion = (.ok, axis0) →
        axis0.motion.profile.toExact = motion.exactProfile axis.mech ∧
          NoWrap axis.mech motion) ∧
      (velMax < motion.velStart ∨ velMax < motion.velHold →
        (axis.startAxis motion).1 ≠ .ok)) ↔
    axis.Refuses motion ∨
      (motion.velStart ≤ velMax ∧ motion.velHold ≤ velMax ∧
        motion.accel.toNat * 500 < 2 ^ 32) := by
  constructor
  · rintro ⟨hexact, hlimit⟩
    rcases axis.startAxis_or_refuses motion with ⟨axis0, hstart⟩ | hrefuses
    · right
      have hok : (axis.startAxis motion).1 = .ok := by rw [hstart]
      have hfast := mt hlimit (not_not.mpr hok)
      refine ⟨UInt32.not_lt.mp fun h => hfast (.inl h),
        UInt32.not_lt.mp fun h => hfast (.inr h), ?_⟩
      have haccel := (hexact axis0 hstart).2.accel
      rw [hmech] at haccel
      exact haccel
    · exact .inl hrefuses
  · rintro (hrefuses | ⟨hvelStart, hvelHold, haccel⟩)
    · exact ⟨fun axis0 hstart => absurd hstart hrefuses.not_ok,
        fun _ => (axis.refuses_iff motion).mp hrefuses⟩
    · have hnoWrap := noWrap_of_le hmech hvelStart hvelHold haccel
      refine ⟨fun axis0 hstart => ⟨?_, hnoWrap⟩, ?_⟩
      · obtain ⟨profile, hprofile, rfl⟩ := Axis.startAxis_ok hstart
        exact hnoWrap.motionProfile_exact (by omega) hprofile
      · rintro (h | h)
        · exact absurd hvelStart (UInt32.not_le.mpr h)
        · exact absurd hvelHold (UInt32.not_le.mpr h)

/-- A MOVE of 1000 counts with holding velocity `velHold`, under the default
calibration. -/
def moveAt (velHold : UInt32) : AxisMotionSpec :=
  MPMTTestStand.moveMotion ⟨velHold, 1000, AxisId.x.toByte, AxisDirection.positive.toByte⟩
    defaultCalibration

/-- The velocity at which the test stand moves by default. -/
theorem exactProfile_iff_default :
    (axisAtRest.startAxis (moveAt 75)).2.motion.profile.toExact = ⟨176, 648, 176⟩ := by
  have hok : (axisAtRest.startAxis (moveAt 75)).1 = .ok := by decide
  have hexact := ((exactProfile_iff axisAtRest (moveAt 75) rfl (by decide)).mpr
    (.inr (by decide))).1 (axisAtRest.startAxis (moveAt 75)).2 (Prod.ext hok rfl)
  exact hexact.1.trans (by decide)

/-- A holding velocity of 8589935 steps per second, far above `VEL_MAX`, is accepted:
in counts it wraps to zero.  The axis is not given any distance to accelerate. -/
theorem exactProfile_wraps :
    (axisAtRest.startAxis (moveAt 8589935)).1 = .ok ∧ velMax < (moveAt 8589935).velHold ∧
      (axisAtRest.startAxis (moveAt 8589935)).2.motion.profile.toExact = ⟨0, 1000, 0⟩ ∧
      (moveAt 8589935).exactProfile axisAtRest.mech = ⟨500, 0, 500⟩ ∧
      ¬NoWrap axisAtRest.mech (moveAt 8589935) := by
  refine ⟨by decide, by decide, by decide, by decide, fun h => ?_⟩
  exact absurd h.velHold (by decide)

end MpmtTestStand.Ports
