import MpmtTestStand.Ports.VelocityEnvelope

/-!
# Which frequencies the timers are programmed with

`start_axis` programs the step timer with the starting velocity and the acceleration
timer with the acceleration; `handle_isr_step` programs the step timer with every
velocity that the ramp gets to.  None of these numbers is checked.  A frequency of zero
divides by zero, and a large one leaves no room for a pulse: `ra` becomes zero, or `rc`
does.  `timersSound_iff` says which motions are programmed properly whatever the order
of their interrupts.
-/

namespace MpmtTestStand.Ports

open MpmtTestStand.Verified.Run MpmtTestStand.Verified.Words

/-! ## Calls of the timer functions -/

/-- A call that programs one of the timers of an axis. -/
inductive TimerCall
  /-- `reset_pwm_timer` for the step timer -/
  | pwm (frequency : UInt32)
  /-- `reset_timer_interrupt` for the acceleration timer -/
  | interrupt (frequency : UInt32)
  deriving DecidableEq, Repr

namespace TimerCall

/-- What a call does to the axis. -/
def apply (axis : Axis) : TimerCall → Axis
  | .pwm frequency =>
      { axis with stepTimer := axis.stepTimer.resetPwm frequency velDutyCycle }
  | .interrupt frequency =>
      { axis with accelTimer := axis.accelTimer.resetInterrupt frequency }

/-- The call divides by a frequency other than zero, its registers are not zero, its
arithmetic does not wrap, and a pulse begins and ends in every period. -/
def Sound : TimerCall → Prop
  | .pwm frequency => frequency ≠ 0 ∧ ∀ t : TimerChannel,
      1 ≤ (t.resetPwm frequency velDutyCycle).rc ∧
        (t.resetPwm frequency velDutyCycle).rc.toNat * (100 - velDutyCycle.toNat) < 2 ^ 32 ∧
        0 < (t.resetPwm frequency velDutyCycle).ra ∧
        (t.resetPwm frequency velDutyCycle).ra < (t.resetPwm frequency velDutyCycle).rc
  | .interrupt frequency => frequency ≠ 0 ∧ ∀ t : TimerChannel,
      1 ≤ (t.resetInterrupt frequency).rc

end TimerCall

/-- The calls of `start_axis` for an accepted motion. -/
def startCalls (motion : AxisMotionSpec) : List TimerCall :=
  [.pwm motion.velStart, .interrupt motion.accel]

/-- The calls of an interrupt handler. -/
def MotionEvent.timerCalls (axis : Axis) : MotionEvent → List TimerCall
  | .step =>
      if axis.state.nextVelocity ≠ axis.state.velocity then [.pwm axis.state.nextVelocity]
      else []
  | .encoder => []
  | .accel => []

/-- These are the calls of `start_axis`. -/
theorem beginMotion_timers (axis : Axis) (motion : AxisMotionSpec) (profile : VelProfile) :
    (axis.beginMotion motion profile).stepTimer =
        (exec TimerCall.apply axis (startCalls motion)).stepTimer ∧
      (axis.beginMotion motion profile).accelTimer =
        (exec TimerCall.apply axis (startCalls motion)).accelTimer := ⟨rfl, rfl⟩

/-- These are the calls of the interrupt handlers, as long as the axis moves. -/
theorem apply_timers (axis : Axis) (event : MotionEvent)
    (hmoving : (event.apply axis).state.moving = true) :
    (event.apply axis).stepTimer =
        (exec TimerCall.apply axis (event.timerCalls axis)).stepTimer ∧
      (event.apply axis).accelTimer =
        (exec TimerCall.apply axis (event.timerCalls axis)).accelTimer := by
  cases event with
  | encoder =>
      simp only [MotionEvent.apply, Axis.handleIsrEncoder]
      split_ifs <;> exact ⟨rfl, rfl⟩
  | step =>
      simp only [MotionEvent.apply, Axis.handleIsrStep, MotionEvent.timerCalls]
      split_ifs <;> exact ⟨rfl, rfl⟩
  | accel =>
      generalize hafter : axis.handleIsrAccel = after
      have heffect := axis.handleIsrAccel_effect
      simp only [MotionEvent.apply, hafter] at heffect hmoving ⊢
      cases heffect with
      | finish _ _ _ => cases hmoving
      | idle | faster | slower | enterHold | enterDecelerate => exact ⟨rfl, rfl⟩

/-! ## Sound frequencies -/

/-- `VARIANT_MCK / TIMER_CLOCK_DIVISOR` -/
def timerClock : Nat := 656250

/-- `rc` of both functions. -/
theorem rc_toNat (frequency : UInt32) :
    (variantMck / timerClockDivisor / frequency).toNat = timerClock / frequency.toNat := by
  rw [UInt32.toNat_div]
  rfl

/-- The product in `ra` does not wrap. -/
theorem ra_toNat (frequency : UInt32) :
    (variantMck / timerClockDivisor / frequency * (100 - velDutyCycle) / 100).toNat =
      timerClock / frequency.toNat * 75 / 100 := by
  have hle : timerClock / frequency.toNat ≤ 656250 := Nat.div_le_self _ _
  rw [UInt32.toNat_div, UInt32.toNat_mul, rc_toNat]
  show timerClock / frequency.toNat * 75 % 2 ^ 32 / 100 = _
  rw [Nat.mod_eq_of_lt]
  omega

/-- `k` fits into the quotient if the divisor is small enough. -/
theorem le_timerClock_div {k f : Nat} (hf : 1 ≤ f) :
    k ≤ timerClock / f ↔ k * f ≤ timerClock :=
  Nat.le_div_iff_mul_le hf

/-- The step timer makes pulses at up to half the frequency of its clock. -/
theorem TimerCall.sound_pwm_iff (frequency : UInt32) :
    (TimerCall.pwm frequency).Sound ↔ 1 ≤ frequency.toNat ∧ frequency.toNat ≤ 328125 := by
  have hle : timerClock / frequency.toNat ≤ timerClock := Nat.div_le_self _ _
  rw [Sound, ne_zero_iff]
  refine and_congr_right fun hpos => ?_
  have htwo := le_timerClock_div (k := 2) hpos
  have hone := le_timerClock_div (k := 1) hpos
  simp only [TimerChannel.resetPwm, UInt32.le_iff_toNat_le, UInt32.lt_iff_toNat_lt, ra_toNat,
    rc_toNat]
  show (∀ _ : TimerChannel, 1 ≤ timerClock / frequency.toNat ∧
    timerClock / frequency.toNat * 75 < 2 ^ 32 ∧ 0 < timerClock / frequency.toNat * 75 / 100 ∧
      timerClock / frequency.toNat * 75 / 100 < timerClock / frequency.toNat) ↔ _
  unfold timerClock at *
  constructor
  · intro h
    have hra := (h ⟨false, false, 0, 0⟩).2.2.1
    omega
  · intro h _
    omega

/-- The acceleration timer runs at up to the frequency of its clock. -/
theorem TimerCall.sound_interrupt_iff (frequency : UInt32) :
    (TimerCall.interrupt frequency).Sound ↔
      1 ≤ frequency.toNat ∧ frequency.toNat ≤ 656250 := by
  rw [Sound, ne_zero_iff]
  refine and_congr_right fun hpos => ?_
  have hone := le_timerClock_div (k := 1) hpos
  simp only [TimerChannel.resetInterrupt, UInt32.le_iff_toNat_le, rc_toNat]
  show (∀ _ : TimerChannel, 1 ≤ timerClock / frequency.toNat) ↔ _
  unfold timerClock at *
  constructor
  · intro h
    have hrc := h ⟨false, false, 0, 0⟩
    omega
  · intro h _
    omega

/-! ## Motions that are programmed properly -/

/-- No encoder position falls short of `target` in direction `dir`. -/
def NeverShort (dir : AxisDirection) (target : Int32) : Prop :=
  (dir = .positive ∧ target = Int32.minValue) ∨ (dir = .negative ∧ target = Int32.maxValue)

/-- The starting velocity, the acceleration and, unless the axis cannot accelerate, the
holding velocity of `motion` are frequencies that the timers can be programmed with. -/
structure Programmable (axis : Axis) (motion : AxisMotionSpec) : Prop where
  velStart : 1 ≤ motion.velStart.toNat ∧ motion.velStart.toNat ≤ 328125
  accel : 1 ≤ motion.accel.toNat ∧ motion.accel.toNat ≤ 656250
  velHold : motion.velHold.toNat ≤ 328125 ∨
    ∃ profile, Axis.motionProfile axis.mech motion = some profile ∧
      NeverShort motion.dir (axis.state.encoderCurrent + profile.distAccel)

/-- Every call of a timer function is sound: those that start the motion, and those of
the interrupts, whatever came before, while the axis moves. -/
def TimersSound (motion : AxisMotionSpec) (axis0 : Axis) : Prop :=
  (∀ call ∈ startCalls motion, call.Sound) ∧
    ∀ (events : List MotionEvent) (event : MotionEvent),
      (exec MotionEvent.apply axis0 events).state.moving = true →
        ∀ call ∈ event.timerCalls (exec MotionEvent.apply axis0 events), call.Sound

theorem NeverShort.reachedTarget {dir : AxisDirection} {target : Int32}
    (h : NeverShort dir target) (cur : Int32) : Axis.reachedTarget dir cur target := by
  rcases h with ⟨hdir, rfl⟩ | ⟨hdir, rfl⟩
  · exact .inl ⟨hdir, Int32.minValue_le cur⟩
  · exact .inr ⟨hdir, Int32.le_maxValue cur⟩

/-- A motion that cannot accelerate stays at its starting velocity. -/
structure Flat (motion : AxisMotionSpec) (axis : Axis) : Prop where
  spec : axis.motion.spec = motion
  dir : axis.state.dir = motion.dir
  target : axis.state.velocitySegment = .accelerate →
    NeverShort motion.dir axis.state.encoderTarget
  velocity : axis.state.moving = true → axis.state.velocity = motion.velStart
  nextVelocity : axis.state.moving = true → axis.state.nextVelocity = motion.velStart

theorem Flat.apply {motion : AxisMotionSpec} {axis : Axis} (h : Flat motion axis)
    (event : MotionEvent) : Flat motion (event.apply axis) := by
  cases event with
  | encoder =>
      simp only [MotionEvent.apply, Axis.handleIsrEncoder]
      split_ifs <;> exact { h with }
  | step =>
      simp only [MotionEvent.apply, Axis.handleIsrStep]
      split_ifs
      · exact { h with velocity := h.nextVelocity }
      · exact h
  | accel =>
      generalize hafter : axis.handleIsrAccel = after
      have heffect := axis.handleIsrAccel_effect
      simp only [MotionEvent.apply, hafter] at heffect ⊢
      cases heffect with
      | idle => exact h
      | faster _ hseg htarget _ =>
          rw [Axis.atTarget, h.dir] at htarget
          exact absurd ((h.target hseg).reachedTarget _) htarget
      | enterHold _ _ _ => exact { h with target := fun hseg => by cases hseg }
      | enterDecelerate _ _ _ => exact { h with target := fun hseg => by cases hseg }
      | slower hmoving _ _ hvel =>
          rw [h.nextVelocity hmoving, h.spec] at hvel
          exact absurd hvel (UInt32.lt_irrefl _)
      | finish _ hseg _ =>
          exact
            { spec := h.spec
              dir := h.dir
              target := h.target
              velocity := fun hmoving => by cases hmoving
              nextVelocity := fun hmoving => by cases hmoving }

section Run

variable {axis axis0 : Axis} {motion : AxisMotionSpec}

/-- What the interrupts program is in the range of the motion. -/
theorem Programmable.sound (h : Programmable axis motion)
    (hstart : axis.startAxis motion = (.ok, axis0)) : TimersSound motion axis0 := by
  have hvelStart := (TimerCall.sound_pwm_iff _).mpr h.velStart
  refine ⟨?_, fun events event hmoving call hcall => ?_⟩
  · intro call hcall
    simp only [startCalls, List.mem_cons, List.not_mem_nil, or_false] at hcall
    rcases hcall with rfl | rfl
    · exact hvelStart
    · exact (TimerCall.sound_interrupt_iff _).mpr h.accel
  · cases event with
    | encoder => cases hcall
    | accel => cases hcall
    | step =>
        simp only [MotionEvent.timerCalls] at hcall
        split_ifs at hcall with hchanged
        · obtain rfl := List.mem_singleton.mp hcall
          rcases h.velHold with hhold | ⟨profile, hprofile, hshort⟩
          · rw [TimerCall.sound_pwm_iff]
            obtain ⟨hlo, hhi⟩ := (Ramp.run hstart events).nextVelocity hmoving
            have := h.velStart
            omega
          · -- a motion that never accelerates has no other velocity
            obtain ⟨profile', hprofile', rfl⟩ := Axis.startAxis_ok hstart
            obtain rfl : profile = profile' := Option.some.inj (hprofile.symm.trans hprofile')
            have hflat : Flat motion (axis.beginMotion motion profile) :=
              ⟨rfl, rfl, fun _ => hshort, fun _ => rfl, fun _ => rfl⟩
            have hrun := exec_invariant MotionEvent.apply (fun _ event h => h.apply event) events
              hflat
            rw [hrun.nextVelocity hmoving]
            exact hvelStart
        · cases hcall

/-! ## Every velocity of the ramp is programmed in some run -/

/-- The axis at another encoder position. -/
def Axis.movedTo (axis : Axis) (cur : Int32) : Axis :=
  { axis with state.encoderCurrent := cur }

/-- The axis with another pending velocity. -/
def Axis.pending (axis : Axis) (v : UInt32) : Axis := { axis with state.nextVelocity := v }

/-- Encoder interrupts alone, each of which moves the axis by `d`. -/
theorem exec_encoder {d : Int32}
    (hone : ∀ cur, (axis.movedTo cur).handleIsrEncoder = axis.movedTo (cur + d)) (n : Nat)
    (cur : Int32) :
    exec MotionEvent.apply (axis.movedTo cur) (List.replicate n .encoder) =
      axis.movedTo (cur + Int32.ofNat n * d) := by
  induction n generalizing cur with
  | zero =>
      have hzero : cur + Int32.ofNat 0 * d = cur := by
        show cur + 0 * d = cur
        grind
      rw [hzero]
      rfl
  | succ n ih =>
      have hsum : cur + d + Int32.ofNat n * d = cur + Int32.ofNat (n + 1) * d := by
        rw [Int32.ofNat_add]
        show _ = cur + (Int32.ofNat n + 1) * d
        grind
      rw [List.replicate_succ, exec_cons, MotionEvent.apply, hone, ih, hsum]

/-- Unless it is never short of its target, the axis can be brought short of it: the
encoder wraps. -/
theorem exists_short (h : ¬NeverShort axis.state.dir axis.state.encoderTarget) :
    ∃ n cur, exec MotionEvent.apply axis (List.replicate n .encoder) = axis.movedTo cur ∧
      ¬Axis.reachedTarget axis.state.dir cur axis.state.encoderTarget := by
  cases hdir : axis.state.dir with
  | other raw =>
      refine ⟨0, axis.state.encoderCurrent, rfl, ?_⟩
      simp [Axis.reachedTarget]
  | positive =>
      rw [hdir] at h
      have hone : ∀ cur, (axis.movedTo cur).handleIsrEncoder = axis.movedTo (cur + 1) := by
        intro cur
        simp [Axis.handleIsrEncoder, Axis.movedTo, hdir]
      refine ⟨(Int32.minValue - axis.state.encoderCurrent).toUInt32.toNat, Int32.minValue, ?_, ?_⟩
      · have hexec := exec_encoder hone
          (Int32.minValue - axis.state.encoderCurrent).toUInt32.toNat axis.state.encoderCurrent
        rw [int32_ofNat_toNat, show axis.state.encoderCurrent +
          (Int32.minValue - axis.state.encoderCurrent) * 1 = Int32.minValue by grind] at hexec
        exact hexec
      · rintro (⟨-, hreached⟩ | ⟨hother, -⟩)
        · exact h (.inl ⟨rfl, Int32.le_antisymm hreached (Int32.minValue_le _)⟩)
        · cases hother
  | negative =>
      rw [hdir] at h
      have hone : ∀ cur, (axis.movedTo cur).handleIsrEncoder = axis.movedTo (cur + -1) := by
        intro cur
        rw [show cur + -1 = cur - 1 by grind]
        simp [Axis.handleIsrEncoder, Axis.movedTo, hdir]
      refine ⟨(axis.state.encoderCurrent - Int32.maxValue).toUInt32.toNat, Int32.maxValue, ?_, ?_⟩
      · have hexec := exec_encoder hone
          (axis.state.encoderCurrent - Int32.maxValue).toUInt32.toNat axis.state.encoderCurrent
        rw [int32_ofNat_toNat, show axis.state.encoderCurrent +
          (axis.state.encoderCurrent - Int32.maxValue) * -1 = Int32.maxValue by grind] at hexec
        exact hexec
      · rintro (⟨hother, -⟩ | ⟨-, hreached⟩)
        · cases hother
        · exact h (.inr ⟨rfl, Int32.le_antisymm (Int32.le_maxValue _) hreached⟩)

/-- Acceleration interrupts alone, short of the first target. -/
theorem exec_accel (hmoving : axis.state.moving = true)
    (hseg : axis.state.velocitySegment = .accelerate) (hshort : ¬axis.atTarget) (k : Nat)
    (v : UInt32) (hk : v.toNat + k ≤ axis.motion.spec.velHold.toNat) :
    ∃ v' : UInt32, v'.toNat = v.toNat + k ∧
      exec MotionEvent.apply (axis.pending v) (List.replicate k .accel) = axis.pending v' := by
  induction k generalizing v with
  | zero => exact ⟨v, rfl, rfl⟩
  | succ k ih =>
      have hlt : v < axis.motion.spec.velHold := by
        rw [UInt32.lt_iff_toNat_lt]
        omega
      have hone : (axis.pending v).handleIsrAccel = axis.pending (v + 1) := by
        have hshort' : ¬(axis.pending v).atTarget := hshort
        have hlt' : (axis.pending v).state.nextVelocity <
            (axis.pending v).motion.spec.velHold := hlt
        unfold Axis.handleIsrAccel
        rw [if_neg (by simpa [Axis.pending] using hmoving)]
        simp only [show (axis.pending v).state.velocitySegment = .accelerate from hseg]
        rw [if_pos hshort', if_pos hlt', ← hseg]
        rfl
      have hnext := toNat_add_one hlt
      obtain ⟨v', hv', hexec⟩ := ih (v + 1) (by omega)
      refine ⟨v', by omega, ?_⟩
      rw [List.replicate_succ, exec_cons, MotionEvent.apply, hone, hexec]

/-- If the axis can accelerate, it can get to every velocity up to the holding velocity,
and then programs it. -/
theorem velHold_le_of_timersSound (hstart : axis.startAxis motion = (.ok, axis0))
    (h : TimersSound motion axis0) (hvelStart : motion.velStart.toNat ≤ 328125) :
    motion.velHold.toNat ≤ 328125 ∨
      ∃ profile, Axis.motionProfile axis.mech motion = some profile ∧
        NeverShort motion.dir (axis.state.encoderCurrent + profile.distAccel) := by
  obtain ⟨profile, hprofile, rfl⟩ := Axis.startAxis_ok hstart
  by_cases hnever : NeverShort motion.dir (axis.state.encoderCurrent + profile.distAccel)
  · exact .inr ⟨profile, hprofile, hnever⟩
  · left
    by_contra hfast
    have hreaches : ¬NeverShort (axis.beginMotion motion profile).state.dir
        (axis.beginMotion motion profile).state.encoderTarget := hnever
    obtain ⟨n, cur, hencoder, hshort⟩ := exists_short hreaches
    let before : Axis := (axis.beginMotion motion profile).movedTo cur
    have hmoving : before.state.moving = true := rfl
    -- so many acceleration interrupts that the next velocity is one too many
    obtain ⟨v, hv, haccel⟩ := exec_accel hmoving rfl hshort
      (328126 - motion.velStart.toNat) motion.velStart (by
        show motion.velStart.toNat + (328126 - motion.velStart.toNat) ≤ motion.velHold.toNat
        omega)
    have hvalue : v.toNat = 328126 := by omega
    have hrun : exec MotionEvent.apply (axis.beginMotion motion profile)
        (List.replicate n .encoder ++
          List.replicate (328126 - motion.velStart.toNat) .accel) = before.pending v := by
      rw [exec_append, hencoder]
      exact haccel
    have hchanged : v ≠ motion.velStart := by
      rintro rfl
      omega
    have hsound := h.2 _ .step (by rw [hrun]; rfl) (.pwm v) (by
      rw [hrun]
      show TimerCall.pwm v ∈ if v ≠ motion.velStart then [TimerCall.pwm v] else []
      rw [if_pos hchanged]
      exact List.mem_singleton_self _)
    rw [TimerCall.sound_pwm_iff] at hsound
    omega

end Run

/-- **When the timers are programmed properly.**  Every call of a timer function for an
accepted motion is sound, whatever the order of the interrupts, exactly if the motion is
refused or its frequencies are in the range of the timers. -/
theorem timersSound_iff (axis : Axis) (motion : AxisMotionSpec) :
    (∀ axis0, axis.startAxis motion = (.ok, axis0) → TimersSound motion axis0) ↔
      axis.Refuses motion ∨ Programmable axis motion := by
  constructor
  · intro hsound
    rcases axis.startAxis_or_refuses motion with ⟨axis0, hstart⟩ | hrefuses
    · right
      have hcalls := hsound axis0 hstart
      have hvelStart := (TimerCall.sound_pwm_iff _).mp
        (hcalls.1 (.pwm motion.velStart) (by simp [startCalls]))
      have haccel := (TimerCall.sound_interrupt_iff _).mp
        (hcalls.1 (.interrupt motion.accel) (by simp [startCalls]))
      exact ⟨hvelStart, haccel, velHold_le_of_timersSound hstart hcalls hvelStart.2⟩
    · exact .inl hrefuses
  · rintro (hrefuses | hprogrammable) axis0 hstart
    · exact absurd hstart hrefuses.not_ok
    · exact hprogrammable.sound hstart

/-- The calibration after a CALIBRATE that sets the starting velocity to zero. -/
def calibrationAtZero : Calibration := { defaultCalibration with velStart := 0 }

/-- A MOVE of the X axis under this calibration. -/
def moveFromZero : AxisMotionSpec :=
  MPMTTestStand.moveMotion ⟨75, 1000, AxisId.x.toByte, AxisDirection.positive.toByte⟩
    calibrationAtZero

/-- CALIBRATE installs a starting velocity of zero, and with it a MOVE is accepted for
which `reset_pwm_timer` divides by zero. -/
theorem timers_divide_by_zero :
    defaultCalibration.extract (TestStandCommHost.calibratePacket .gantryVelStart 0).payload =
        some calibrationAtZero ∧
      (axisAtRest.startAxis moveFromZero).1 = .ok ∧
      ¬TimersSound moveFromZero (axisAtRest.startAxis moveFromZero).2 := by
  refine ⟨by decide, by decide, fun hsound => ?_⟩
  have hzero : TimerCall.pwm 0 ∈ startCalls moveFromZero := by decide
  exact (hsound.1 _ hzero).1 rfl

end MpmtTestStand.Ports
