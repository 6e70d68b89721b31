import MpmtTestStand.Ports.Axis
import MpmtTestStand.Verified.Run

/-!
# What holds of an axis between any two steps

The main loop starts, stops and resets an axis while five interrupt handlers
run underneath.  `AxisInv` is the joint invariant of the state, the two timers
and the direction pin; every step keeps it, so it holds after any sequence of
them, in particular when an interrupt arrives late.
-/

namespace MpmtTestStand.Ports

open MpmtTestStand.Verified.Run

/-- Everything that can happen to an axis. -/
inductive AxisEvent
  | start (motion : AxisMotionSpec)
  | stop
  | reset
  | isrEncoder
  | isrStep
  | isrAccel
  | isrLsHome (level : Level)
  | isrLsFar (level : Level)
  deriving DecidableEq, Repr

namespace AxisEvent

/-- The transition an event makes. -/
def apply (axis : Axis) : AxisEvent → Axis
  | .start motion => (axis.startAxis motion).2
  | .stop => axis.stopAxis
  | .reset => axis.resetAxis
  | .isrEncoder => axis.handleIsrEncoder
  | .isrStep => axis.handleIsrStep
  | .isrAccel => axis.handleIsrAccel
  | .isrLsHome level => axis.handleIsrLsHome level
  | .isrLsFar level => axis.handleIsrLsFar level

/-- The interrupt of a limit switch. -/
def isrLs : Switch → Level → AxisEvent
  | .home => .isrLsHome
  | .far => .isrLsFar

/-- The event is an interrupt. -/
def IsInterrupt : AxisEvent → Prop
  | .start _ => False
  | .stop => False
  | .reset => False
  | _ => True

instance (e : AxisEvent) : Decidable e.IsInterrupt :=
  match e with
  | .start _ => isFalse id
  | .stop => isFalse id
  | .reset => isFalse id
  | .isrEncoder => isTrue trivial
  | .isrStep => isTrue trivial
  | .isrAccel => isTrue trivial
  | .isrLsHome _ => isTrue trivial
  | .isrLsFar _ => isTrue trivial

end AxisEvent

/-- What holds of an axis between any two steps. -/
structure AxisInv (axis : Axis) : Prop where
  velocity : axis.state.moving = false → axis.state.velocity = 0
  nextVelocity : axis.state.moving = false → axis.state.nextVelocity = 0
  stopped : axis.state.moving = false →
    axis.stepTimer.Stopped ∧ axis.accelTimer.Stopped
  active : axis.state.moving = true →
    axis.stepTimer.Active ∧ axis.accelTimer.Active
  pin : axis.state.moving = true →
    axis.pinDir = some (Axis.dirLevel axis.io axis.state.dir)
  far : axis.state.moving = true → axis.state.dir = .positive →
    axis.state.lsFarPressed = false
  home : axis.state.moving = true → axis.state.dir = .negative →
    axis.state.lsHomePressed = false

namespace AxisInv

/-- The invariant holds of every axis that is stopped. -/
theorem of_stopped {axis : Axis} (hmoving : axis.state.moving = false)
    (hvel : axis.state.velocity = 0) (hnext : axis.state.nextVelocity = 0)
    (hstep : axis.stepTimer.Stopped) (haccel : axis.accelTimer.Stopped) :
    AxisInv axis where
  velocity _ := hvel
  nextVelocity _ := hnext
  stopped _ := ⟨hstep, haccel⟩
  active h := by simp [hmoving] at h
  pin h := by simp [hmoving] at h
  far h := by simp [hmoving] at h
  home h := by simp [hmoving] at h

theorem stopAxis (axis : Axis) : AxisInv axis.stopAxis :=
  of_stopped rfl rfl rfl ⟨rfl, rfl⟩ ⟨rfl, rfl⟩

theorem resetAxis (axis : Axis) : AxisInv axis.resetAxis :=
  of_stopped rfl rfl rfl ⟨rfl, rfl⟩ ⟨rfl, rfl⟩

theorem handleIsrLsHome (axis : Axis) (level : Level) :
    AxisInv (axis.handleIsrLsHome level) :=
  of_stopped rfl rfl rfl ⟨rfl, rfl⟩ ⟨rfl, rfl⟩

theorem handleIsrLsFar (axis : Axis) (level : Level) :
    AxisInv (axis.handleIsrLsFar level) :=
  of_stopped rfl rfl rfl ⟨rfl, rfl⟩ ⟨rfl, rfl⟩

theorem setupAxis (axis : Axis) (io : AxisIO) (mech : AxisMech) :
    AxisInv (axis.setupAxis io mech) :=
  resetAxis _

end AxisInv

/-! ## Starting a motion -/

/-- What `validate_motion` excludes. -/
theorem Axis.validateMotion_ok {axis : Axis} {motion : AxisMotionSpec}
    (h : axis.validateMotion motion = .ok) :
    axis.state.moving = false ∧
      (motion.dir = .positive → axis.state.lsFarPressed = false) ∧
      (motion.dir = .negative → axis.state.lsHomePressed = false) := by
  unfold Axis.validateMotion at h
  split at h
  · simp at h
  · split at h
    · simp at h
    · split at h
      · simp at h
      · simp_all

/-- `start_axis` either begins the motion it was asked for or changes nothing. -/
theorem Axis.startAxis_cases (axis : Axis) (motion : AxisMotionSpec) :
    (∃ profile, axis.validateMotion motion = .ok ∧
      motionProfile axis.mech motion = some profile ∧
      axis.startAxis motion = (.ok, axis.beginMotion motion profile)) ∨
    ((axis.startAxis motion).1 ≠ .ok ∧ (axis.startAxis motion).2 = axis) := by
  unfold Axis.startAxis
  split
  · rename_i hvalid
    split
    · rename_i profile hprofile
      exact .inl ⟨profile, hvalid, hprofile, rfl⟩
    · exact .inr ⟨by simp, rfl⟩
  · rename_i hne
    exact .inr ⟨hne, rfl⟩

theorem AxisInv.startAxis {axis : Axis} (h : AxisInv axis) (motion : AxisMotionSpec) :
    AxisInv (axis.startAxis motion).2 := by
  rcases axis.startAxis_cases motion with ⟨profile, hvalid, -, hstart⟩ | ⟨-, hsame⟩
  · obtain ⟨-, hfar, hhome⟩ := Axis.validateMotion_ok hvalid
    rw [hstart]
    exact
      { velocity := by simp [Axis.beginMotion]
        nextVelocity := by simp [Axis.beginMotion]
        stopped := by simp [Axis.beginMotion]
        active := by simp [Axis.beginMotion]
        pin := by simp [Axis.beginMotion]
        far := fun _ => hfar
        home := fun _ => hhome }
  · rwa [hsame]

/-! ## Interrupts -/

theorem AxisInv.handleIsrEncoder {axis : Axis} (h : AxisInv axis) :
    AxisInv axis.handleIsrEncoder := by
  unfold Axis.handleIsrEncoder
  split
  · exact { h with }
  · split
    · exact { h with }
    · exact h

/-- A step interrupt restarts the step timer only while the axis moves: on a
stopped axis both velocities are zero. -/
theorem AxisInv.handleIsrStep {axis : Axis} (h : AxisInv axis) :
    AxisInv axis.handleIsrStep := by
  unfold Axis.handleIsrStep
  split
  · rename_i hne
    have hmoving : axis.state.moving = true := by
      by_contra hstill
      have hfalse : axis.state.moving = false := by simpa using hstill
      exact hne ((h.nextVelocity hfalse).trans (h.velocity hfalse).symm)
    exact
      { velocity := by simp [hmoving]
        nextVelocity := by simp [hmoving]
        stopped := by simp [hmoving]
        active := fun _ => ⟨by simp, (h.active hmoving).2⟩
        pin := h.pin
        far := h.far
        home := h.home }
  · exact h

/-- A change of the ramp leaves the invariant alone while the axis moves. -/
theorem AxisInv.of_moving {axis axis' : Axis} (h : AxisInv axis)
    (hmoving : axis.state.moving = true) (hmoving' : axis'.state.moving = true)
    (hio : axis'.io = axis.io) (hstep : axis'.stepTimer = axis.stepTimer)
    (haccel : axis'.accelTimer = axis.accelTimer) (hpin : axis'.pinDir = axis.pinDir)
    (hdir : axis'.state.dir = axis.state.dir)
    (hhome : axis'.state.lsHomePressed = axis.state.lsHomePressed)
    (hfar : axis'.state.lsFarPressed = axis.state.lsFarPressed) : AxisInv axis' where
  velocity h' := by simp [hmoving'] at h'
  nextVelocity h' := by simp [hmoving'] at h'
  stopped h' := by simp [hmoving'] at h'
  active _ := by rw [hstep, haccel]; exact h.active hmoving
  pin _ := by rw [hpin, hio, hdir]; exact h.pin hmoving
  far _ := by rw [hdir, hfar]; exact h.far hmoving
  home _ := by rw [hdir, hhome]; exact h.home hmoving

/-- What an acceleration interrupt can do: nothing, change the pending
velocity, enter the next segment, or stop the axis. -/
inductive AccelEffect (axis : Axis) : Axis → Prop
  | idle : AccelEffect axis axis
  | faster (hmoving : axis.state.moving = true)
      (hseg : axis.state.velocitySegment = .accelerate) (htarget : ¬axis.atTarget)
      (hvel : axis.state.nextVelocity < axis.motion.spec.velHold) :
      AccelEffect axis { axis with state.nextVelocity := axis.state.nextVelocity + 1 }
  | enterHold (hmoving : axis.state.moving = true)
      (hseg : axis.state.velocitySegment = .accelerate) (htarget : axis.atTarget) :
      AccelEffect axis (axis.nextSegment .hold axis.motion.profile.distHold)
  | enterDecelerate (hmoving : axis.state.moving = true)
      (hseg : axis.state.velocitySegment = .hold) (htarget : axis.atTarget) :
      AccelEffect axis (axis.nextSegment .decelerate axis.motion.profile.distDecel)
  | slower (hmoving : axis.state.moving = true)
      (hseg : axis.state.velocitySegment = .decelerate) (htarget : ¬axis.atTarget)
      (hvel : axis.state.nextVelocity > axis.motion.spec.velStart) :
      AccelEffect axis { axis with state.nextVelocity := axis.state.nextVelocity - 1 }
  | finish (hmoving : axis.state.moving = true)
      (hseg : axis.state.velocitySegment = .decelerate) (htarget : axis.atTarget) :
      AccelEffect axis axis.stopAxis

theorem Axis.handleIsrAccel_effect (axis : Axis) :
    AccelEffect axis axis.handleIsrAccel := by
  unfold Axis.handleIsrAccel
  split
  · exact .idle
  · rename_i hmoving
    have hmoving : axis.state.moving = true := by simpa using hmoving
    split <;> rename_i hseg <;> split <;> rename_i htarget
    · split
      · exact .faster hmoving hseg htarget ‹_›
      · exact .idle
    · exact .enterHold hmoving hseg (not_not.mp htarget)
    · exact .enterDecelerate hmoving hseg htarget
    · exact .idle
    · split
      · exact .slower hmoving hseg htarget ‹_›
      · exact .idle
    · exact .finish hmoving hseg (not_not.mp htarget)

theorem AxisInv.handleIsrAccel {axis : Axis} (h : AxisInv axis) :
    AxisInv axis.handleIsrAccel := by
  generalize hafter : axis.handleIsrAccel = after
  have heffect := axis.handleIsrAccel_effect
  rw [hafter] at heffect
  cases heffect with
  | idle => exact h
  | faster hmoving _ _ _ => exact h.of_moving hmoving hmoving rfl rfl rfl rfl rfl rfl rfl
  | enterHold hmoving _ _ => exact h.of_moving hmoving hmoving rfl rfl rfl rfl rfl rfl rfl
  | enterDecelerate hmoving _ _ =>
      exact h.of_moving hmoving hmoving rfl rfl rfl rfl rfl rfl rfl
  | slower hmoving _ _ _ => exact h.of_moving hmoving hmoving rfl rfl rfl rfl rfl rfl rfl
  | finish _ _ _ => exact stopAxis axis

/-! ## Runs -/

/-- Every step keeps the invariant. -/
theorem AxisInv.apply {axis : Axis} (h : AxisInv axis) (event : AxisEvent) :
    AxisInv (event.apply axis) := by
  cases event with
  | start motion => exact h.startAxis motion
  | stop => exact stopAxis axis
  | reset => exact resetAxis axis
  | isrEncoder => exact h.handleIsrEncoder
  | isrStep => exact h.handleIsrStep
  | isrAccel => exact h.handleIsrAccel
  | isrLsHome level => exact AxisInv.handleIsrLsHome axis level
  | isrLsFar level => exact AxisInv.handleIsrLsFar axis level

/-- No interrupt sets a stopped axis in motion. -/
theorem AxisInv.interrupt_still {axis : Axis} (h : AxisInv axis)
    (hstill : axis.state.moving = false) {event : AxisEvent} (hevent : event.IsInterrupt) :
    (event.apply axis).state.moving = false := by
  cases event with
  | start motion => exact hevent.elim
  | stop => rfl
  | reset => rfl
  | isrEncoder =>
      simp only [AxisEvent.apply, Axis.handleIsrEncoder]
      split
      · exact hstill
      · split <;> exact hstill
  | isrStep =>
      have heq : axis.state.nextVelocity = axis.state.velocity :=
        (h.nextVelocity hstill).trans (h.velocity hstill).symm
      simpa [AxisEvent.apply, Axis.handleIsrStep, heq] using hstill
  | isrAccel => simp [AxisEvent.apply, Axis.handleIsrAccel, hstill]
  | isrLsHome level => rfl
  | isrLsFar level => rfl

/-- Only a setup changes the mechanics. -/
theorem AxisEvent.apply_mech (axis : Axis) (event : AxisEvent) :
    (event.apply axis).mech = axis.mech := by
  cases event with
  | start motion =>
      simp only [AxisEvent.apply]
      rcases axis.startAxis_cases motion with ⟨_, -, -, hstart⟩ | ⟨-, hsame⟩
      · rw [hstart]
        rfl
      · rw [hsame]
  | stop => rfl
  | reset => rfl
  | isrLsHome level => rfl
  | isrLsFar level => rfl
  | isrEncoder =>
      simp only [AxisEvent.apply, Axis.handleIsrEncoder]
      split_ifs <;> rfl
  | isrStep =>
      simp only [AxisEvent.apply, Axis.handleIsrStep]
      split_ifs <;> rfl
  | isrAccel =>
      simp only [AxisEvent.apply]
      generalize hafter : axis.handleIsrAccel = after
      have heffect := axis.handleIsrAccel_effect
      rw [hafter] at heffect
      cases heffect <;> rfl

/-- An axis that moves after an interrupt goes on with its motion. -/
theorem AxisEvent.interrupt_moving {axis : Axis} {event : AxisEvent}
    (hevent : event.IsInterrupt) (hmoving : (event.apply axis).state.moving = true) :
    axis.state.moving = true ∧ (event.apply axis).motion = axis.motion ∧
      (event.apply axis).state.dir = axis.state.dir := by
  cases event with
  | start motion => exact hevent.elim
  | stop => cases hmoving
  | reset => cases hmoving
  | isrLsHome level => cases hmoving
  | isrLsFar level => cases hmoving
  | isrEncoder =>
      simp only [AxisEvent.apply, Axis.handleIsrEncoder] at hmoving ⊢
      split_ifs at hmoving ⊢ <;> exact ⟨hmoving, rfl, rfl⟩
  | isrStep =>
      simp only [AxisEvent.apply, Axis.handleIsrStep] at hmoving ⊢
      split_ifs at hmoving ⊢ <;> exact ⟨hmoving, rfl, rfl⟩
  | isrAccel =>
      generalize hafter : axis.handleIsrAccel = after
      have heffect := axis.handleIsrAccel_effect
      rw [hafter] at heffect
      simp only [AxisEvent.apply, hafter] at hmoving ⊢
      cases heffect with
      | finish _ _ _ => cases hmoving
      | idle | faster | slower | enterHold | enterDecelerate =>
          exact ⟨by simpa [Axis.nextSegment] using hmoving, rfl, rfl⟩

/-- The state of an axis after a run from its setup. -/
def axisRun (axis : Axis) (io : AxisIO) (mech : AxisMech) (events : List AxisEvent) :
    Axis :=
  exec AxisEvent.apply (axis.setupAxis io mech) events

theorem axisRun_inv (axis : Axis) (io : AxisIO) (mech : AxisMech)
    (events : List AxisEvent) : AxisInv (axisRun axis io mech events) :=
  exec_invariant AxisEvent.apply (fun _ event h => h.apply event) events
    (AxisInv.setupAxis axis io mech)

/-- **Axis state and limit switches.**  After any sequence of requests and
interrupts: a stopped axis has zero velocities and stopped timers, a moving
one has running timers, its direction on the pin and no pressed switch ahead,
and an interrupt neither starts a stopped axis nor its step timer.  Nothing is
asked of the requested motions. -/
theorem axisRun_consistent (axis : Axis) (io : AxisIO) (mech : AxisMech)
    (events : List AxisEvent) :
    let after := axisRun axis io mech events
    (after.state.moving = false →
      after.state.velocity = 0 ∧ after.state.nextVelocity = 0 ∧
        after.stepTimer.Stopped ∧ after.accelTimer.Stopped) ∧
    (after.state.moving = true →
      after.stepTimer.Active ∧ after.accelTimer.Active ∧
        after.pinDir = some (if after.state.dir = .positive then after.io.dirPosLevel
          else after.io.dirPosLevel.not)) ∧
    (after.state.moving = true → after.state.dir = .positive →
      after.state.lsFarPressed = false) ∧
    (after.state.moving = true → after.state.dir = .negative →
      after.state.lsHomePressed = false) ∧
    ∀ event : AxisEvent, event.IsInterrupt → after.state.moving = false →
      (event.apply after).state.moving = false ∧
        (event.apply after).stepTimer.Stopped := by
  intro after
  have h : AxisInv after := axisRun_inv axis io mech events
  refine ⟨fun hstill => ?_, fun hmoving => ?_, h.far, h.home, fun event hevent hstill => ?_⟩
  · exact ⟨h.velocity hstill, h.nextVelocity hstill, h.stopped hstill⟩
  · exact ⟨(h.active hmoving).1, (h.active hmoving).2, h.pin hmoving⟩
  · have hnext := h.interrupt_still hstill hevent
    exact ⟨hnext, ((h.apply event).stopped hnext).1⟩

end MpmtTestStand.Ports
