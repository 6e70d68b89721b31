import MpmtTestStand.Ports.MotionTracking
import MpmtTestStand.Ports.TestStand

/-!
# The velocities of a motion

`start_axis` decides on velocities converted to encoder counts, with the remainder
cut off; the interrupts compare the velocities as they were given, in motor steps.
`Ramp` is what the interrupts keep for any two velocities: both the current and the
pending velocity stay between the starting velocity and the larger of the two.
Whether that is the holding velocity is not what `start_axis` has checked
(`velocityEnvelope_iff`).
-/

namespace MpmtTestStand.Ports

open MpmtTestStand.Verified.Run MpmtTestStand.Verified.Words

/-! ## Which motions are accepted -/

namespace Axis

/-- What `start_axis` refuses: the axis is not ready for the motion, or there is no
profile for its velocities and its acceleration in counts. -/
def Refuses (axis : Axis) (motion : AxisMotionSpec) : Prop :=
  axis.validateMotion motion ≠ .ok ∨
    stepsToCounts axis.mech motion.velHold < stepsToCounts axis.mech motion.velStart ∨
    (stepsToCounts axis.mech motion.accel = 0 ∧
      stepsToCounts axis.mech motion.velHold ≠ stepsToCounts axis.mech motion.velStart)

theorem refuses_iff (axis : Axis) (motion : AxisMotionSpec) :
    axis.Refuses motion ↔ (axis.startAxis motion).1 ≠ .ok := by
  unfold Refuses
  rw [← generateVelProfile_eq_none (motion.dir = .negative) _ _ _ motion.totalCounts]
  change _ ∨ motionProfile axis.mech motion = none ↔ _
  rcases axis.startAxis_cases motion with ⟨profile, hvalid, hprofile, hstart⟩ | ⟨hne, hsame⟩
  · rw [hstart, hvalid, hprofile]
    simp
  · constructor
    · exact fun _ => hne
    · intro _
      by_cases hvalid : axis.validateMotion motion = .ok
      · right
        cases hprofile : motionProfile axis.mech motion with
        | none => rfl
        | some profile =>
            have hok : (axis.startAxis motion).1 = .ok := by
              rw [startAxis, hvalid, hprofile]
            exact absurd hok hne
      · exact .inl hvalid

/-- An accepted motion begins. -/
theorem startAxis_ok {axis axis0 : Axis} {motion : AxisMotionSpec}
    (hstart : axis.startAxis motion = (.ok, axis0)) :
    ∃ profile, motionProfile axis.mech motion = some profile ∧
      axis0 = axis.beginMotion motion profile := by
  rcases axis.startAxis_cases motion with ⟨profile, -, hprofile, hbegin⟩ | ⟨hne, -⟩
  · rw [hbegin] at hstart
    exact ⟨profile, hprofile, (Prod.mk.inj hstart).2.symm⟩
  · exact absurd (congrArg Prod.fst hstart) hne

/-- A motion is accepted or refused. -/
theorem startAxis_or_refuses (axis : Axis) (motion : AxisMotionSpec) :
    (∃ axis0, axis.startAxis motion = (.ok, axis0)) ∨ axis.Refuses motion := by
  by_cases hok : (axis.startAxis motion).1 = .ok
  · exact .inl ⟨_, Prod.ext hok rfl⟩
  · exact .inr ((axis.refuses_iff motion).mpr hok)

theorem Refuses.not_ok {axis axis0 : Axis} {motion : AxisMotionSpec}
    (h : axis.Refuses motion) : axis.startAxis motion ≠ (.ok, axis0) :=
  fun hstart => (axis.refuses_iff motion).mp h (congrArg Prod.fst hstart)

end Axis

/-! ## What the interrupts keep -/

/-- A velocity of the motion `motion`. -/
def InRamp (motion : AxisMotionSpec) (v : UInt32) : Prop :=
  motion.velStart.toNat ≤ v.toNat ∧
    v.toNat ≤ max motion.velStart.toNat motion.velHold.toNat

/-- An axis that executes the motion `motion`, unless it has been stopped. -/
structure Ramp (motion : AxisMotionSpec) (axis : Axis) : Prop where
  spec : axis.motion.spec = motion
  velocity : axis.state.moving = true → InRamp motion axis.state.velocity
  nextVelocity : axis.state.moving = true → InRamp motion axis.state.nextVelocity

namespace Ramp

variable {motion : AxisMotionSpec} {axis : Axis}

theorem begin (axis : Axis) (motion : AxisMotionSpec) (profile : VelProfile) :
    Ramp motion (axis.beginMotion motion profile) where
  spec := rfl
  velocity _ := ⟨Nat.le_refl _, Nat.le_max_left _ _⟩
  nextVelocity _ := ⟨Nat.le_refl _, Nat.le_max_left _ _⟩

theorem encoder (h : Ramp motion axis) : Ramp motion axis.handleIsrEncoder := by
  unfold Axis.handleIsrEncoder
  split
  · exact { h with }
  · split
    · exact { h with }
    · exact h

theorem step (h : Ramp motion axis) : Ramp motion axis.handleIsrStep := by
  unfold Axis.handleIsrStep
  split
  · exact ⟨h.spec, h.nextVelocity, h.nextVelocity⟩
  · exact h

theorem accel (h : Ramp motion axis) : Ramp motion axis.handleIsrAccel := by
  generalize hafter : axis.handleIsrAccel = after
  have heffect := axis.handleIsrAccel_effect
  rw [hafter] at heffect
  cases heffect with
  | idle => exact h
  | enterHold hmoving _ _ => exact { h with }
  | enterDecelerate hmoving _ _ => exact { h with }
  | finish _ _ _ => exact ⟨h.spec, nofun, nofun⟩
  | faster hmoving _ _ hvel =>
      refine ⟨h.spec, h.velocity, fun _ => ?_⟩
      obtain ⟨hlo, hhi⟩ := h.nextVelocity hmoving
      have hlt := UInt32.lt_iff_toNat_lt.mp hvel
      rw [h.spec] at hlt
      show InRamp motion (axis.state.nextVelocity + 1)
      rw [InRamp, toNat_add_one hvel]
      omega
  | slower hmoving _ _ hvel =>
      refine ⟨h.spec, h.velocity, fun _ => ?_⟩
      obtain ⟨hlo, hhi⟩ := h.nextVelocity hmoving
      have hlt := UInt32.lt_iff_toNat_lt.mp hvel
      rw [h.spec] at hlt
      show InRamp motion (axis.state.nextVelocity - 1)
      rw [InRamp, toNat_sub_one hvel]
      omega

theorem apply (h : Ramp motion axis) (event : MotionEvent) : Ramp motion (event.apply axis) := by
  cases event with
  | encoder => exact h.encoder
  | step => exact h.step
  | accel => exact h.accel

/-- **Between the two velocities.**  Whatever the order of the interrupts, an
accepted motion keeps its velocities in its range. -/
theorem run {axis0 : Axis} (hstart : axis.startAxis motion = (.ok, axis0))
    (events : List MotionEvent) : Ramp motion (exec MotionEvent.apply axis0 events) := by
  obtain ⟨profile, -, rfl⟩ := Axis.startAxis_ok hstart
  exact exec_invariant _ (fun _ event h => h.apply event) events (.begin axis motion profile)

end Ramp

/-- The pending velocity changes in steps of one. -/
theorem Axis.handleIsrAccel_nextVelocity (axis : Axis)
    (hmoving : axis.handleIsrAccel.state.moving = true) :
    axis.handleIsrAccel.state.nextVelocity.toNat ≤ axis.state.nextVelocity.toNat + 1 ∧
      axis.state.nextVelocity.toNat ≤ axis.handleIsrAccel.state.nextVelocity.toNat + 1 := by
  generalize hafter : axis.handleIsrAccel = after at hmoving ⊢
  have heffect := axis.handleIsrAccel_effect
  rw [hafter] at heffect
  cases heffect with
  | idle => omega
  | enterHold _ _ _ => exact ⟨Nat.le_succ _, Nat.le_succ _⟩
  | enterDecelerate _ _ _ => exact ⟨Nat.le_succ _, Nat.le_succ _⟩
  | finish _ _ _ => cases hmoving
  | faster _ _ _ hvel =>
      show (axis.state.nextVelocity + 1).toNat ≤ _ ∧ _ ≤ (axis.state.nextVelocity + 1).toNat + 1
      rw [toNat_add_one hvel]
      omega
  | slower _ _ _ hvel =>
      show (axis.state.nextVelocity - 1).toNat ≤ _ ∧ _ ≤ (axis.state.nextVelocity - 1).toNat + 1
      rw [toNat_sub_one hvel]
      omega

/-! ## The envelope -/

/-- Both velocities lie between the starting and the holding velocity. -/
structure InEnvelope (motion : AxisMotionSpec) (axis : Axis) : Prop where
  velocity : motion.velStart ≤ axis.state.velocity ∧ axis.state.velocity ≤ motion.velHold
  nextVelocity :
    motion.velStart ≤ axis.state.nextVelocity ∧ axis.state.nextVelocity ≤ motion.velHold

/-- From `axis0` on, under any interrupts, as long as the axis moves: the velocities
are in the envelope, and an acceleration interrupt changes the pending one by at most
one. -/
def KeepsEnvelope (motion : AxisMotionSpec) (axis0 : Axis) : Prop :=
  ∀ events : List MotionEvent,
    let after := exec MotionEvent.apply axis0 events
    after.state.moving = true →
      InEnvelope motion after ∧
        (after.handleIsrAccel.state.moving = true →
          after.handleIsrAccel.state.nextVelocity.toNat ≤ after.state.nextVelocity.toNat + 1 ∧
            after.state.nextVelocity.toNat ≤
              after.handleIsrAccel.state.nextVelocity.toNat + 1)

/-- With the velocities in order the range is the envelope. -/
theorem InRamp.envelope {motion : AxisMotionSpec} {v : UInt32} (h : InRamp motion v)
    (hle : motion.velStart ≤ motion.velHold) : motion.velStart ≤ v ∧ v ≤ motion.velHold := by
  rw [UInt32.le_iff_toNat_le] at hle ⊢
  rw [UInt32.le_iff_toNat_le]
  obtain ⟨hlo, hhi⟩ := h
  omega

theorem keepsEnvelope_of_le {axis axis0 : Axis} {motion : AxisMotionSpec}
    (hstart : axis.startAxis motion = (.ok, axis0)) (hle : motion.velStart ≤ motion.velHold) :
    KeepsEnvelope motion axis0 := by
  intro events after hmoving
  have hramp : Ramp motion after := .run hstart events
  refine ⟨⟨?_, ?_⟩, after.handleIsrAccel_nextVelocity⟩
  · exact (hramp.velocity hmoving).envelope hle
  · exact (hramp.nextVelocity hmoving).envelope hle

/-- A motion begins with its starting velocity. -/
theorem le_of_keepsEnvelope {axis axis0 : Axis} {motion : AxisMotionSpec}
    (hstart : axis.startAxis motion = (.ok, axis0)) (hkeeps : KeepsEnvelope motion axis0) :
    motion.velStart ≤ motion.velHold := by
  obtain ⟨profile, -, rfl⟩ := Axis.startAxis_ok hstart
  exact (hkeeps [] rfl).1.velocity.2

/-- **When a motion keeps its velocity envelope.**  Every motion that is accepted keeps
it, and none with a holding velocity below the starting velocity is accepted, exactly
if the motion is refused or its velocities are in order in motor steps. -/
theorem velocityEnvelope_iff (axis : Axis) (motion : AxisMotionSpec) :
    ((∀ axis0, axis.startAxis motion = (.ok, axis0) → KeepsEnvelope motion axis0) ∧
      (motion.velHold < motion.velStart → (axis.startAxis motion).1 ≠ .ok)) ↔
    axis.Refuses motion ∨ motion.velStart ≤ motion.velHold := by
  constructor
  · rintro ⟨hkeeps, -⟩
    rcases axis.startAxis_or_refuses motion with ⟨axis0, hstart⟩ | hrefuses
    · exact .inr (le_of_keepsEnvelope hstart (hkeeps axis0 hstart))
    · exact .inl hrefuses
  · rintro (hrefuses | hle)
    · exact ⟨fun axis0 hstart => absurd hstart hrefuses.not_ok,
        fun _ => (axis.refuses_iff motion).mp hrefuses⟩
    · exact ⟨fun axis0 hstart => keepsEnvelope_of_le hstart hle,
        fun hlt => absurd hle (UInt32.not_le.mpr hlt)⟩

/-- An axis after `setup`. -/
def axisAtRest : Axis := Axis.zero.setupAxis MPMTTestStand.conf.ioAxisX MPMTTestStand.conf.axisMech

/-- A MOVE with velocity zero. -/
def moveAtZero : AxisMotionSpec :=
  MPMTTestStand.moveMotion ⟨0, 1000, AxisId.x.toByte, AxisDirection.positive.toByte⟩
    defaultCalibration

/-- With the default calibration a MOVE with velocity zero is accepted: the starting
velocity of one step per second is zero in counts as well. -/
theorem velocityEnvelope_zero :
    (axisAtRest.startAxis moveAtZero).1 = .ok ∧ moveAtZero.velHold < moveAtZero.velStart ∧
      ¬KeepsEnvelope moveAtZero (axisAtRest.startAxis moveAtZero).2 := by
  have hok : (axisAtRest.startAxis moveAtZero).1 = .ok := by decide
  have hlt : moveAtZero.velHold < moveAtZero.velStart := by decide
  refine ⟨hok, hlt, fun hkeeps => ?_⟩
  have hle := le_of_keepsEnvelope (Prod.ext hok rfl) hkeeps
  exact absurd hle (UInt32.not_le.mpr hlt)

end MpmtTestStand.Ports
