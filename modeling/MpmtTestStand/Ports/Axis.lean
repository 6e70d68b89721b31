import MpmtTestStand.Ports.Kinematics

/-!
# One axis of the gantry: `Axis.cpp`, `Timer.cpp`

The state of an axis together with the hardware it drives: the step timer, the
acceleration timer and the level last written to the direction pin.  Functions
and interrupt handlers are transitions of this state; each is one atomic step
here.  Pin numbers and peripheral addresses only say which hardware is meant
and are left out.

The unsigned division of the source by a frequency of zero is undefined; it is
written with `/`, which returns zero as the controller's divider does.
-/

namespace MpmtTestStand.Ports

/-! ## Timers -/

/-- A timer channel and its interrupt line. -/
structure TimerChannel where
  running : Bool
  irqEnabled : Bool
  ra : UInt32
  rc : UInt32
  deriving DecidableEq, Repr

/-- `VARIANT_MCK` of the controller board -/
def variantMck : UInt32 := 84000000
/-- `TIMER_CLOCK_DIVISOR` -/
def timerClockDivisor : UInt32 := 128
/-- `VEL_DUTY_CYCLE` -/
def velDutyCycle : UInt32 := 25

namespace TimerChannel

/-- `stop_timer` -/
def stop (t : TimerChannel) : TimerChannel :=
  { t with irqEnabled := false, running := false }

/-- `reset_pwm_timer` -/
def resetPwm (t : TimerChannel) (frequency dutyCycleOnPercent : UInt32) :
    TimerChannel :=
  let rc := variantMck / timerClockDivisor / frequency
  let ra := rc * (100 - dutyCycleOnPercent) / 100
  { t.stop with ra := ra, rc := rc, irqEnabled := true, running := true }

/-- `reset_timer_interrupt` -/
def resetInterrupt (t : TimerChannel) (frequency : UInt32) : TimerChannel :=
  let rc := variantMck / timerClockDivisor / frequency
  { t.stop with rc := rc, irqEnabled := true, running := true }

/-- The timer counts and its interrupt is enabled. -/
def Active (t : TimerChannel) : Prop := t.running = true ∧ t.irqEnabled = true

/-- The timer is stopped and its interrupt is disabled. -/
def Stopped (t : TimerChannel) : Prop := t.running = false ∧ t.irqEnabled = false

instance (t : TimerChannel) : Decidable t.Active := by
  unfold Active
  infer_instance

instance (t : TimerChannel) : Decidable t.Stopped := by
  unfold Stopped
  infer_instance

@[simp] theorem stop_stopped (t : TimerChannel) : t.stop.Stopped := ⟨rfl, rfl⟩

@[simp] theorem resetPwm_active (t : TimerChannel) (f d : UInt32) :
    (t.resetPwm f d).Active := ⟨rfl, rfl⟩

@[simp] theorem resetInterrupt_active (t : TimerChannel) (f : UInt32) :
    (t.resetInterrupt f).Active := ⟨rfl, rfl⟩

end TimerChannel

/-! ## Data -/

/-- Logic level of a pin. -/
inductive Level
  | low
  | high
  deriving DecidableEq, Repr

/-- `!level` -/
def Level.not : Level → Level
  | .low => .high
  | .high => .low

/-- Edge on which an interrupt is attached. -/
inductive EdgeMode
  | change
  | falling
  | rising
  deriving DecidableEq, Repr

/-- `AxisDirection`.  The value is cast from a message byte, so it may be
neither of the two enumerators. -/
inductive AxisDirection
  | positive
  | negative
  | other (raw : UInt8)
  deriving DecidableEq, Repr

/-- `AxisResult` -/
inductive AxisResult
  | ok
  | errAlreadyMoving
  | errLsHome
  | errLsFar
  | errInvalid
  deriving DecidableEq, Repr

/-- `AxisIO`, without pin numbers and peripherals. -/
structure AxisIO where
  dirPosLevel : Level
  lsPressedLevel : Level
  deriving DecidableEq, Repr

/-- `AxisMech` -/
structure AxisMech where
  countsPerRev : UInt32
  stepsPerRev : UInt32
  deriving DecidableEq, Repr

/-- `AxisMotionSpec` -/
structure AxisMotionSpec where
  dir : AxisDirection
  totalCounts : UInt32
  accel : UInt32
  velStart : UInt32
  velHold : UInt32
  deriving DecidableEq, Repr

/-- `VelSeg` -/
inductive VelSeg
  | accelerate
  | hold
  | decelerate
  deriving DecidableEq, Repr

/-- `AxisState` -/
structure AxisState where
  moving : Bool
  lsHomePressed : Bool
  lsFarPressed : Bool
  velocity : UInt32
  nextVelocity : UInt32
  velocitySegment : VelSeg
  encoderCurrent : Int32
  encoderTarget : Int32
  dir : AxisDirection
  deriving DecidableEq, Repr

/-- `AxisMotion` -/
structure AxisMotion where
  spec : AxisMotionSpec
  profile : VelProfile
  deriving DecidableEq, Repr

/-- Edge modes passed to `attachInterrupt`. -/
structure AttachedModes where
  enc : EdgeMode
  lsHome : EdgeMode
  lsFar : EdgeMode
  deriving DecidableEq, Repr

/-- `Axis` with its hardware; `pinDir` is the level last written to `pin_dir`,
if any. -/
structure Axis where
  io : AxisIO
  mech : AxisMech
  motion : AxisMotion
  state : AxisState
  stepTimer : TimerChannel
  accelTimer : TimerChannel
  pinDir : Option Level
  modes : Option AttachedModes
  deriving DecidableEq, Repr

/-- A zero-initialised `static Axis`; the timers have not been started. -/
def Axis.zero : Axis where
  io := ⟨.low, .low⟩
  mech := ⟨0, 0⟩
  motion := ⟨⟨.positive, 0, 0, 0, 0⟩, ⟨0, 0, 0⟩⟩
  state := ⟨false, false, false, 0, 0, .accelerate, 0, 0, .positive⟩
  stepTimer := ⟨false, false, 0, 0⟩
  accelTimer := ⟨false, false, 0, 0⟩
  pinDir := none
  modes := none

/-- The limit switches of an axis. -/
inductive Switch
  | home
  | far
  deriving DecidableEq, Repr

/-- `ls_home_pressed` or `ls_far_pressed` -/
def AxisState.lsPressed (s : AxisState) : Switch → Bool
  | .home => s.lsHomePressed
  | .far => s.lsFarPressed

/-- The switch at the end of the travel in a direction. -/
def AxisDirection.ahead : AxisDirection → Option Switch
  | .positive => some .far
  | .negative => some .home
  | .other _ => none

namespace Axis

/-! ## Operations -/

/-- `stop_axis` -/
def stopAxis (axis : Axis) : Axis :=
  { axis with
    stepTimer := axis.stepTimer.stop
    accelTimer := axis.accelTimer.stop
    state.moving := false
    state.velocity := 0
    state.nextVelocity := 0 }

/-- `reset_axis` -/
def resetAxis (axis : Axis) : Axis :=
  { axis.stopAxis with
    state.moving := false
    state.velocity := 0
    state.encoderCurrent := 0
    state.encoderTarget := 0
    state.dir := .positive }

/-- `setup_interrupts`: the edge modes that are attached. -/
def setupInterrupts (axis : Axis) : Axis :=
  { axis with
    modes := some
      { enc := .rising
        lsHome := .change
        lsFar := if axis.io.lsPressedLevel = .low then .falling else .rising } }

/-- `setup_axis` -/
def setupAxis (axis : Axis) (io : AxisIO) (mech : AxisMech) : Axis :=
  ({ axis with io := io, mech := mech } : Axis).setupInterrupts.resetAxis

/-- `validate_motion` -/
def validateMotion (axis : Axis) (motion : AxisMotionSpec) : AxisResult :=
  if axis.state.moving then .errAlreadyMoving
  else if motion.dir = .positive ∧ axis.state.lsFarPressed then .errLsFar
  else if motion.dir = .negative ∧ axis.state.lsHomePressed then .errLsHome
  else .ok

/-- Steps to counts, in 32-bit arithmetic. -/
def stepsToCounts (mech : AxisMech) (steps : UInt32) : UInt32 :=
  steps * mech.countsPerRev / mech.stepsPerRev

/-- The profile that `start_axis` asks for. -/
def motionProfile (mech : AxisMech) (motion : AxisMotionSpec) : Option VelProfile :=
  generateVelProfile (motion.dir = .negative)
    (stepsToCounts mech motion.accel)
    (stepsToCounts mech motion.velStart)
    (stepsToCounts mech motion.velHold)
    motion.totalCounts

/-- The level that drives the motor in direction `dir`. -/
def dirLevel (io : AxisIO) (dir : AxisDirection) : Level :=
  if dir = .positive then io.dirPosLevel else io.dirPosLevel.not

/-- The writes of `start_axis` once the motion is accepted. -/
def beginMotion (axis : Axis) (motion : AxisMotionSpec) (profile : VelProfile) :
    Axis :=
  { axis with
    motion := ⟨motion, profile⟩
    state.moving := true
    state.velocity := motion.velStart
    state.nextVelocity := motion.velStart
    state.velocitySegment := .accelerate
    state.encoderTarget := axis.state.encoderCurrent + profile.distAccel
    state.dir := motion.dir
    pinDir := some (dirLevel axis.io motion.dir)
    stepTimer := axis.stepTimer.resetPwm motion.velStart velDutyCycle
    accelTimer := axis.accelTimer.resetInterrupt motion.accel }

/-- `start_axis` -/
def startAxis (axis : Axis) (motion : AxisMotionSpec) : AxisResult × Axis :=
  match axis.validateMotion motion with
  | .ok =>
      match motionProfile axis.mech motion with
      | some profile => (.ok, axis.beginMotion motion profile)
      | none => (.errInvalid, axis)
  | err => (err, axis)

/-! ## Interrupt handlers -/

/-- `handle_isr_encoder` -/
def handleIsrEncoder (axis : Axis) : Axis :=
  if axis.state.dir = .positive then
    { axis with state.encoderCurrent := axis.state.encoderCurrent + 1 }
  else if axis.state.dir = .negative then
    { axis with state.encoderCurrent := axis.state.encoderCurrent - 1 }
  else axis

/-- `handle_isr_ls_home`, reading `level` at the pin. -/
def handleIsrLsHome (axis : Axis) (level : Level) : Axis :=
  { axis.stopAxis with state.lsHomePressed := level = axis.io.lsPressedLevel }

/-- `handle_isr_ls_far`, reading `level` at the pin. -/
def handleIsrLsFar (axis : Axis) (level : Level) : Axis :=
  { axis.stopAxis with state.lsFarPressed := level = axis.io.lsPressedLevel }

/-- The handler of a limit switch. -/
def handleIsrLs (axis : Axis) : Switch → Level → Axis
  | .home => axis.handleIsrLsHome
  | .far => axis.handleIsrLsFar

/-- `handle_isr_step` -/
def handleIsrStep (axis : Axis) : Axis :=
  if axis.state.nextVelocity ≠ axis.state.velocity then
    { axis with
      state.velocity := axis.state.nextVelocity
      stepTimer := axis.stepTimer.resetPwm axis.state.nextVelocity velDutyCycle }
  else axis

/-- `REACHED_TARGET` -/
def reachedTarget (dir : AxisDirection) (cur tar : Int32) : Prop :=
  (dir = .positive ∧ cur ≥ tar) ∨ (dir = .negative ∧ cur ≤ tar)

instance (dir : AxisDirection) (cur tar : Int32) :
    Decidable (reachedTarget dir cur tar) := by
  unfold reachedTarget
  infer_instance

/-- The current segment's target has been reached. -/
def atTarget (axis : Axis) : Prop :=
  reachedTarget axis.state.dir axis.state.encoderCurrent axis.state.encoderTarget

instance (axis : Axis) : Decidable axis.atTarget := by
  unfold atTarget
  infer_instance

/-- Enter `seg`, whose length is `dist`.  The overshoot of the segment before
is carried over in `error_counts`. -/
def nextSegment (axis : Axis) (seg : VelSeg) (dist : Int32) : Axis :=
  let errorCounts := axis.state.encoderTarget - axis.state.encoderCurrent
  { axis with
    state.velocitySegment := seg
    state.encoderTarget := axis.state.encoderCurrent + dist + errorCounts }

/-- `handle_isr_accel` -/
def handleIsrAccel (axis : Axis) : Axis :=
  if ¬axis.state.moving then axis
  else
    match axis.state.velocitySegment with
    | .accelerate =>
        if ¬axis.atTarget then
          if axis.state.nextVelocity < axis.motion.spec.velHold then
            { axis with state.nextVelocity := axis.state.nextVelocity + 1 }
          else axis
        else axis.nextSegment .hold axis.motion.profile.distHold
    | .hold =>
        if axis.atTarget then
          axis.nextSegment .decelerate axis.motion.profile.distDecel
        else axis
    | .decelerate =>
        if ¬axis.atTarget then
          if axis.state.nextVelocity > axis.motion.spec.velStart then
            { axis with state.nextVelocity := axis.state.nextVelocity - 1 }
          else axis
        else axis.stopAxis

end Axis

end MpmtTestStand.Ports
