import MpmtTestStand.Ports.AxisInvariant

/-!
# A limit switch in the middle of `start_axis`

`start_axis` runs in the main loop with interrupts enabled, so that a limit
switch can be handled between any two of its statements.  Elsewhere the function
is one step; here it is a list of statements, and a schedule says which handlers
run after each of them.

A handler that runs before `moving` is set has no effect that lasts, and one that
runs between that and `reset_pwm_timer` leaves the step timer running on an axis
that does not move.  `startAxisPreempted_notLost_iff` says exactly when neither
happens.
-/

namespace MpmtTestStand.Ports

open MpmtTestStand.Verified.Run

/-! ## Statements -/

/-- The statements of `start_axis`. -/
inductive StartStatement
  | validateMotion
  | generateVelProfile
  | saveSpec
  | setMoving
  | setVelocity
  | setNextVelocity
  | setVelocitySegment
  | setEncoderTarget
  | setDir
  | driveDirPin
  | resetPwmTimer
  | resetTimerInterrupt
  deriving DecidableEq, Repr

namespace StartStatement

/-- What a statement does for a motion whose profile is `profile`. -/
def apply (motion : AxisMotionSpec) (profile : VelProfile) (axis : Axis) :
    StartStatement → Axis
  | .validateMotion => axis
  | .generateVelProfile => { axis with motion.profile := profile }
  | .saveSpec => { axis with motion.spec := motion }
  | .setMoving => { axis with state.moving := true }
  | .setVelocity => { axis with state.velocity := axis.motion.spec.velStart }
  | .setNextVelocity => { axis with state.nextVelocity := axis.state.velocity }
  | .setVelocitySegment => { axis with state.velocitySegment := .accelerate }
  | .setEncoderTarget =>
      { axis with
        state.encoderTarget := axis.state.encoderCurrent + axis.motion.profile.distAccel }
  | .setDir => { axis with state.dir := axis.motion.spec.dir }
  | .driveDirPin => { axis with pinDir := some (Axis.dirLevel axis.io axis.state.dir) }
  | .resetPwmTimer =>
      { axis with stepTimer := axis.stepTimer.resetPwm axis.state.velocity velDutyCycle }
  | .resetTimerInterrupt =>
      { axis with accelTimer := axis.accelTimer.resetInterrupt axis.motion.spec.accel }

/-- Up to `moving = true`. -/
def preparing : List StartStatement := [.validateMotion, .generateVelProfile, .saveSpec]

/-- Between `moving = true` and `reset_pwm_timer`. -/
def configuring : List StartStatement :=
  [.setVelocity, .setNextVelocity, .setVelocitySegment, .setEncoderTarget, .setDir,
    .driveDirPin]

/-- The statements in the order of the source. -/
def all : List StartStatement :=
  preparing ++ .setMoving :: configuring ++ [.resetPwmTimer, .resetTimerInterrupt]

end StartStatement

/-- A limit switch interrupts, and its handler reads `level` at the pin. -/
structure LimitIsr where
  switch : Switch
  level : Level
  deriving DecidableEq, Repr

/-- The handler runs to its end. -/
def LimitIsr.apply (axis : Axis) (isr : LimitIsr) : Axis :=
  axis.handleIsrLs isr.switch isr.level

/-- The handlers that run right after each statement. -/
abbrev StartSchedule : Type := StartStatement → List LimitIsr

namespace Axis

/-- A statement and the handlers after it. -/
def startStep (motion : AxisMotionSpec) (profile : VelProfile) (schedule : StartSchedule)
    (axis : Axis) (statement : StartStatement) : Axis :=
  exec LimitIsr.apply (statement.apply motion profile axis) (schedule statement)

/-- `start_axis`, with the handlers of `schedule` between its statements. -/
def startAxisPreempted (axis : Axis) (motion : AxisMotionSpec) (schedule : StartSchedule) :
    AxisResult × Axis :=
  match axis.validateMotion motion with
  | .ok =>
      match motionProfile axis.mech motion with
      | some profile =>
          (.ok, exec (startStep motion profile schedule) axis StartStatement.all)
      | none => (.errInvalid, axis)
  | err => (err, axis)

/-- Without interrupts the statements add up to `beginMotion`. -/
theorem exec_startStep_nil (axis : Axis) (motion : AxisMotionSpec) (profile : VelProfile) :
    exec (startStep motion profile fun _ => []) axis StartStatement.all =
      axis.beginMotion motion profile := by
  simp only [StartStatement.all, StartStatement.preparing, StartStatement.configuring,
    List.cons_append, List.nil_append, exec_cons, exec_nil, startStep, StartStatement.apply,
    beginMotion]

/-- Without interrupts it is the one step of the other modules. -/
theorem startAxisPreempted_undisturbed (axis : Axis) (motion : AxisMotionSpec) :
    axis.startAxisPreempted motion (fun _ => []) = axis.startAxis motion := by
  unfold startAxisPreempted startAxis
  cases axis.validateMotion motion with
  | ok =>
      cases motionProfile axis.mech motion with
      | none => rfl
      | some profile => exact congrArg (Prod.mk _) (exec_startStep_nil axis motion profile)
  | _ => rfl

end Axis

/-! ## Handlers between statements -/

section Preemption

variable {motion : AxisMotionSpec} {profile : VelProfile} {schedule : StartSchedule}

/-- After a handler the axis is stopped, whichever handlers follow. -/
theorem LimitIsr.exec_stopped {isrs : List LimitIsr} (h : isrs ≠ []) (axis : Axis) :
    (exec LimitIsr.apply axis isrs).state.moving = false ∧
      (exec LimitIsr.apply axis isrs).stepTimer.Stopped := by
  induction isrs generalizing axis with
  | nil => exact absurd rfl h
  | cons isr isrs ih =>
      rw [exec_cons]
      by_cases hlast : isrs = []
      · subst hlast
        obtain ⟨switch, level⟩ := isr
        cases switch <;> exact ⟨rfl, rfl, rfl⟩
      · exact ih hlast _

/-- Statements without a handler in between. -/
theorem exec_startStep_quiet {statements : List StartStatement}
    (hquiet : ∀ st ∈ statements, schedule st = []) (axis : Axis) :
    (.setMoving ∉ statements →
      (exec (Axis.startStep motion profile schedule) axis statements).state.moving =
        axis.state.moving) ∧
    (.resetPwmTimer ∉ statements →
      (exec (Axis.startStep motion profile schedule) axis statements).stepTimer =
        axis.stepTimer) := by
  induction statements generalizing axis with
  | nil => exact ⟨fun _ => rfl, fun _ => rfl⟩
  | cons st statements ih =>
      have hstep : Axis.startStep motion profile schedule axis st =
          st.apply motion profile axis := by
        rw [Axis.startStep, hquiet st (by simp), exec_nil]
      obtain ⟨hmoving, htimer⟩ := ih (fun st' h => hquiet st' (by simp [h]))
        (st.apply motion profile axis)
      rw [exec_cons, hstep]
      constructor
      · intro hnot
        rw [List.mem_cons, not_or] at hnot
        rw [hmoving hnot.2]
        cases st <;> first | rfl | exact absurd rfl hnot.1
      · intro hnot
        rw [List.mem_cons, not_or] at hnot
        rw [htimer hnot.2]
        cases st <;> first | rfl | exact absurd rfl hnot.1

/-- A handler between statements stops the axis; only `moving = true` and
`reset_pwm_timer` can undo that. -/
theorem exec_startStep_disturbed {statements : List StartStatement}
    (hisr : ∃ st ∈ statements, schedule st ≠ []) (axis : Axis) :
    (.setMoving ∉ statements →
      (exec (Axis.startStep motion profile schedule) axis statements).state.moving =
        false) ∧
    (.resetPwmTimer ∉ statements →
      (exec (Axis.startStep motion profile schedule) axis statements).stepTimer.Stopped) := by
  induction statements generalizing axis with
  | nil => simp at hisr
  | cons st statements ih =>
      rw [exec_cons]
      by_cases hlater : ∃ st ∈ statements, schedule st ≠ []
      · obtain ⟨hmoving, htimer⟩ := ih hlater (Axis.startStep motion profile schedule axis st)
        constructor
        · intro hnot
          exact hmoving fun h => hnot (by simp [h])
        · intro hnot
          exact htimer fun h => hnot (by simp [h])
      · -- the last handler runs right after `st`
        have hquiet : ∀ st ∈ statements, schedule st = [] := by
          simpa using hlater
        have hhere : schedule st ≠ [] := by
          obtain ⟨st', hmem, hne⟩ := hisr
          rcases List.mem_cons.mp hmem with rfl | hmem
          · exact hne
          · exact absurd (hquiet st' hmem) hne
        have hstopped := LimitIsr.exec_stopped hhere (st.apply motion profile axis)
        obtain ⟨hmoving, htimer⟩ := @exec_startStep_quiet motion profile schedule _ hquiet
          (Axis.startStep motion profile schedule axis st)
        constructor
        · intro hnot
          rw [hmoving fun h => hnot (by simp [h])]
          exact hstopped.1
        · intro hnot
          rw [htimer fun h => hnot (by simp [h])]
          exact hstopped.2

end Preemption

/-! ## When nothing is lost -/

/-- What should hold after `start_axis`: the step timer runs only if the axis
moves, and a switch ahead that a handler recorded as pressed has stopped it. -/
def NotLost (axis : Axis) (motion : AxisMotionSpec) (schedule : StartSchedule)
    (after : Axis) : Prop :=
  (after.stepTimer.running = true → after.state.moving = true) ∧
  ((∃ st, ∃ isr ∈ schedule st, motion.dir.ahead = some isr.switch ∧
      isr.level = axis.io.lsPressedLevel) →
    after.state.moving = false ∧ after.stepTimer.Stopped)

/-- No handler runs between `moving = true` and `reset_pwm_timer`, and none that
runs before finds the switch ahead pressed. -/
structure Spared (axis : Axis) (motion : AxisMotionSpec) (schedule : StartSchedule) :
    Prop where
  configuring : ∀ st ∈ StartStatement.setMoving :: StartStatement.configuring, schedule st = []
  preparing : ∀ st ∈ StartStatement.preparing, ∀ isr ∈ schedule st,
    motion.dir.ahead = some isr.switch → isr.level ≠ axis.io.lsPressedLevel

/-- A handler runs after `reset_pwm_timer`. -/
def StoppedLate (schedule : StartSchedule) : Prop :=
  ∃ st ∈ [StartStatement.resetPwmTimer, .resetTimerInterrupt], schedule st ≠ []

section After

variable {motion : AxisMotionSpec} {profile : VelProfile} {schedule : StartSchedule}

/-- Up to `reset_pwm_timer` the axis keeps moving unless a handler runs. -/
theorem exec_configuring_moving (axis : Axis) :
    (exec (Axis.startStep motion profile schedule) axis
        (.setMoving :: StartStatement.configuring)).state.moving = true ↔
      ∀ st ∈ StartStatement.setMoving :: StartStatement.configuring, schedule st = [] := by
  have hnot : StartStatement.setMoving ∉ StartStatement.configuring := by decide
  constructor
  · intro hmoving
    by_contra! hisr
    by_cases hlater : ∃ st ∈ StartStatement.configuring, schedule st ≠ []
    · rw [exec_cons, ((exec_startStep_disturbed hlater _).1 hnot)] at hmoving
      cases hmoving
    · have hquiet : ∀ st ∈ StartStatement.configuring, schedule st = [] := by
        simpa using hlater
      obtain ⟨st, hmem, hne⟩ := hisr
      rcases List.mem_cons.mp hmem with rfl | hmem
      · rw [exec_cons, ((exec_startStep_quiet hquiet _).1 hnot), Axis.startStep,
          (LimitIsr.exec_stopped hne _).1] at hmoving
        cases hmoving
      · exact hne (hquiet st hmem)
  · intro hquiet
    rw [exec_cons, ((exec_startStep_quiet (fun st h => hquiet st (by simp [h])) _).1 hnot),
      Axis.startStep, hquiet .setMoving (by simp)]
    rfl

/-- From `reset_pwm_timer` on, the step timer runs unless a handler stops it. -/
theorem exec_finishing (axis : Axis) :
    (StoppedLate schedule →
      (exec (Axis.startStep motion profile schedule) axis
        [.resetPwmTimer, .resetTimerInterrupt]).state.moving = false ∧
      (exec (Axis.startStep motion profile schedule) axis
        [.resetPwmTimer, .resetTimerInterrupt]).stepTimer.Stopped) ∧
    (¬StoppedLate schedule →
      (exec (Axis.startStep motion profile schedule) axis
        [.resetPwmTimer, .resetTimerInterrupt]).stepTimer.running = true ∧
      (exec (Axis.startStep motion profile schedule) axis
        [.resetPwmTimer, .resetTimerInterrupt]).state.moving = axis.state.moving) := by
  constructor
  · intro hlate
    have hmoving := (@exec_startStep_disturbed motion profile schedule _ hlate axis).1
      (by decide)
    refine ⟨hmoving, ?_⟩
    by_cases hlast : schedule .resetTimerInterrupt = []
    · have hreset : schedule .resetPwmTimer ≠ [] := by
        simpa [StoppedLate, hlast] using hlate
      have hquiet : ∀ st ∈ [StartStatement.resetTimerInterrupt], schedule st = [] := by
        simpa using hlast
      rw [exec_cons, (exec_startStep_quiet hquiet _).2 (by decide)]
      exact (LimitIsr.exec_stopped hreset _).2
    · have hisr : ∃ st ∈ [StartStatement.resetTimerInterrupt], schedule st ≠ [] :=
        ⟨_, by simp, hlast⟩
      exact (exec_startStep_disturbed hisr _).2 (by decide)
  · intro hearly
    have hquiet : ∀ st ∈ [StartStatement.resetPwmTimer, .resetTimerInterrupt],
        schedule st = [] := by
      simpa [StoppedLate] using hearly
    refine ⟨?_, (exec_startStep_quiet hquiet axis).1 (by decide)⟩
    rw [exec_cons, (exec_startStep_quiet (fun st h => hquiet st (by simp [h])) _).2 (by decide),
      Axis.startStep, hquiet .resetPwmTimer (by simp)]
    rfl

end After

/-- An accepted start runs all its statements. -/
theorem startAxisPreempted_ok {axis after : Axis} {motion : AxisMotionSpec}
    {schedule : StartSchedule}
    (hstart : axis.startAxisPreempted motion schedule = (.ok, after)) :
    ∃ profile,
      after = exec (Axis.startStep motion profile schedule) axis StartStatement.all := by
  unfold Axis.startAxisPreempted at hstart
  split at hstart
  · split at hstart
    · rename_i profile _
      exact ⟨profile, (congrArg Prod.snd hstart).symm⟩
    · cases hstart
  · rename_i hne
    exact absurd (congrArg Prod.fst hstart) hne

/-- The state after `start_axis`, in terms of the handlers that ran. -/
theorem startAxisPreempted_after {axis after : Axis} {motion : AxisMotionSpec}
    {schedule : StartSchedule}
    (hstart : axis.startAxisPreempted motion schedule = (.ok, after)) :
    (StoppedLate schedule → after.state.moving = false ∧ after.stepTimer.Stopped) ∧
    (¬StoppedLate schedule → after.stepTimer.running = true ∧
      (after.state.moving = true ↔
        ∀ st ∈ StartStatement.setMoving :: StartStatement.configuring, schedule st = [])) := by
  obtain ⟨profile, rfl⟩ := startAxisPreempted_ok hstart
  have hsplit : StartStatement.all = StartStatement.preparing ++
      ((.setMoving :: StartStatement.configuring) ++
        [.resetPwmTimer, .resetTimerInterrupt]) := rfl
  rw [hsplit, exec_append, exec_append]
  generalize exec _ axis StartStatement.preparing = prepared
  have hfinish := @exec_finishing motion profile schedule
    (exec (Axis.startStep motion profile schedule) prepared
      (.setMoving :: StartStatement.configuring))
  refine ⟨hfinish.1, fun hearly => ?_⟩
  obtain ⟨htimer, hmoving⟩ := hfinish.2 hearly
  rw [hmoving]
  exact ⟨htimer, exec_configuring_moving prepared⟩

/-- **When a limit switch is not lost.**  For every state of the axis, every
accepted motion and every schedule: the step timer is left running only on a
moving axis, and a switch ahead that was recorded as pressed has stopped the axis,
exactly when a handler runs after `reset_pwm_timer` or the schedule is `Spared`. -/
theorem startAxisPreempted_notLost_iff (axis after : Axis) (motion : AxisMotionSpec)
    (schedule : StartSchedule)
    (hstart : axis.startAxisPreempted motion schedule = (.ok, after)) :
    NotLost axis motion schedule after ↔
      StoppedLate schedule ∨ Spared axis motion schedule := by
  obtain ⟨hlate, hearly⟩ := startAxisPreempted_after hstart
  constructor
  · rintro ⟨hrunning, hpressed⟩
    by_cases h : StoppedLate schedule
    · exact .inl h
    · obtain ⟨htimer, hmoving⟩ := hearly h
      refine .inr ⟨hmoving.mp (hrunning htimer), fun st _ isr hisr hahead hlevel => ?_⟩
      have hstopped := hpressed ⟨st, isr, hisr, hahead, hlevel⟩
      rw [hrunning htimer] at hstopped
      cases hstopped.1
  · intro hcases
    by_cases h : StoppedLate schedule
    · obtain ⟨hstill, hstopped⟩ := hlate h
      refine ⟨fun hrunning => ?_, fun _ => ⟨hstill, hstopped⟩⟩
      rw [hstopped.1] at hrunning
      cases hrunning
    · obtain ⟨htimer, hmoving⟩ := hearly h
      have hspared := hcases.resolve_left h
      refine ⟨fun _ => hmoving.mpr hspared.configuring, ?_⟩
      rintro ⟨st, isr, hisr, hahead, hlevel⟩
      -- every statement is one of the three groups
      cases st
      all_goals
        first
        | exact absurd hlevel (hspared.preparing _ (by decide) isr hisr hahead)
        | rw [hspared.configuring _ (by decide)] at hisr
          cases hisr
        | exact absurd ⟨_, by decide, List.ne_nil_of_mem hisr⟩ h

/-- A motion away from the home switch. -/
def awayFromHome : AxisMotionSpec := ⟨.positive, 100, 10, 1, 75⟩

/-- The far switch is pressed right after `reset_pwm_timer`. -/
theorem startAxisPreempted_notLost_late :
    let axis : Axis := { Axis.zero with mech := ⟨500, 800⟩ }
    let schedule : StartSchedule := fun st => if st = .resetPwmTimer then [⟨.far, .low⟩] else []
    NotLost axis awayFromHome schedule (axis.startAxisPreempted awayFromHome schedule).2 := by
  intro axis schedule
  exact (startAxisPreempted_notLost_iff axis _ awayFromHome schedule
    (Prod.ext (by decide) rfl)).mpr (.inl ⟨.resetPwmTimer, by decide, by decide⟩)

/-- **A limit switch is lost.**  The far switch is pressed after `moving = true` and
before `reset_pwm_timer`: the axis counts as stopped, and its motor is stepped
towards the switch. -/
theorem startAxisPreempted_lost :
    let axis : Axis := { Axis.zero with mech := ⟨500, 800⟩ }
    let schedule : StartSchedule := fun st => if st = .setMoving then [⟨.far, .low⟩] else []
    let started := axis.startAxisPreempted awayFromHome schedule
    started.1 = .ok ∧ started.2.state.lsFarPressed = true ∧ started.2.state.moving = false ∧
      started.2.stepTimer.running = true ∧ ¬NotLost axis awayFromHome schedule started.2 := by
  intro axis schedule started
  have hrunning : started.2.stepTimer.running = true := by decide
  have hstill : started.2.state.moving = false := by decide
  refine ⟨by decide, by decide, hstill, hrunning, fun h => ?_⟩
  rw [h.1 hrunning] at hstill
  cases hstill

end MpmtTestStand.Ports
