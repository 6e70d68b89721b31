import MpmtTestStand.Ports.AxisInvariant

/-!
# A motion ends where it was told to

An accepted motion runs through the segments ACCELERATE, HOLD, DECELERATE.  At
each transition `handle_isr_accel` computes the next target from the current
count, the length of the next segment and the overshoot; the overshoot cancels,
so that the targets are the partial sums of the profile whatever happened
before.  `Tracking` is that fact as an invariant of the axis and the number of
encoder interrupts so far.
-/

namespace MpmtTestStand.Ports

open MpmtTestStand.Verified.Run

/-- The interrupts of an undisturbed motion. -/
inductive MotionEvent
  | encoder
  | step
  | accel
  deriving DecidableEq, Repr

/-- The handler of an interrupt. -/
def MotionEvent.apply (axis : Axis) : MotionEvent → Axis
  | .encoder => axis.handleIsrEncoder
  | .step => axis.handleIsrStep
  | .accel => axis.handleIsrAccel

/-- The direction of a motion by its sign. -/
def signDir (neg : Bool) : AxisDirection := if neg then .negative else .positive

/-- The value fits an `int32_t`. -/
def FitsInt32 (x : Int) : Prop := -2 ^ 31 ≤ x ∧ x < 2 ^ 31

/-- `b` is `a` or the segment after it. -/
def VelSeg.Next (a b : VelSeg) : Prop :=
  b = a ∨ (a = .accelerate ∧ b = .hold) ∨ (a = .hold ∧ b = .decelerate)

/-- Encoder counts travelled when a segment ends. -/
def segmentEnd {neg : Bool} {total : Nat} {p : VelProfile} (part : Partition neg total p) :
    VelSeg → Nat
  | .accelerate => part.accel
  | .hold => part.accel + part.hold
  | .decelerate => total

/-- The state of a motion after `n` encoder interrupts: it started at `p0` and
its three targets are the partial sums of its profile. -/
structure Tracking (p0 : Int) (neg : Bool) (total : Nat) (profile : VelProfile)
    (part : Partition neg total profile) (n : Nat) (axis : Axis) : Prop where
  profile_eq : axis.motion.profile = profile
  dir : axis.state.dir = signDir neg
  current : axis.state.encoderCurrent.toInt = p0 + sign neg * n
  target : axis.state.moving = true → axis.state.encoderTarget.toInt =
    p0 + sign neg * segmentEnd part axis.state.velocitySegment
  arrived : axis.state.moving = false → total ≤ n

/-! ## Arithmetic of the encoder -/

/-- The distance from the start, in the direction of the motion. -/
theorem travelled_eq (neg : Bool) (p0 x : Int) :
    sign neg * (p0 + sign neg * x - p0) = x := by
  cases neg <;> simp only [sign, if_true, Bool.false_eq_true, if_false] <;> omega

theorem toInt_add_of_fits {a b : Int32} (h : FitsInt32 (a.toInt + b.toInt)) :
    (a + b).toInt = a.toInt + b.toInt := by
  obtain ⟨hlo, hhi⟩ := h
  rw [Int32.toInt_add, Int.bmod_eq_of_le (by omega) (by omega)]

theorem toInt_fits (a : Int32) : FitsInt32 a.toInt :=
  ⟨a.le_toInt, a.toInt_lt⟩

/-- Between two positions that fit, every position fits. -/
theorem fits_between {p0 : Int} {neg : Bool} {m n : Nat} (h0 : FitsInt32 p0)
    (hn : FitsInt32 (p0 + sign neg * n)) (hm : m ≤ n) : FitsInt32 (p0 + sign neg * m) := by
  cases neg <;> simp only [FitsInt32, sign, if_true, Bool.false_eq_true, if_false] at * <;>
    omega

/-- `REACHED_TARGET` in terms of counts travelled. -/
theorem reachedTarget_iff {neg : Bool} {cur tar : Int32} {p0 : Int} {n m : Nat}
    (hcur : cur.toInt = p0 + sign neg * n) (htar : tar.toInt = p0 + sign neg * m) :
    Axis.reachedTarget (signDir neg) cur tar ↔ m ≤ n := by
  cases neg
  · simp only [Axis.reachedTarget, signDir, Bool.false_eq_true, if_false, true_and,
      reduceCtorEq, false_and, or_false, ge_iff_le, Int32.le_iff_toInt_le, hcur, htar, sign]
    omega
  · simp only [Axis.reachedTarget, signDir, if_true, true_and, reduceCtorEq, false_and,
      false_or, Int32.le_iff_toInt_le, hcur, htar, sign]
    omega

/-! ## The start -/

/-- Converted to counts, an acceleration stays away from `2^31`. -/
theorem stepsToCounts_ne (steps : UInt32) :
    Axis.stepsToCounts ⟨500, 800⟩ steps ≠ 0x80000000 := by
  intro h
  have hlt := (steps * 500).toNat_lt
  have hval := congrArg UInt32.toNat h
  rw [Axis.stepsToCounts, UInt32.toNat_div] at hval
  change (steps * 500).toNat / 800 = 2 ^ 31 at hval
  omega

/-- The writes of an accepted start. -/
theorem beginMotion_tracking {axis : Axis} {motion : AxisMotionSpec} {neg : Bool}
    {profile : VelProfile} (hdir : motion.dir = signDir neg)
    (part : Partition neg motion.totalCounts.toNat profile)
    (hfits : FitsInt32 (axis.state.encoderCurrent.toInt + sign neg * part.accel)) :
    Tracking axis.state.encoderCurrent.toInt neg motion.totalCounts.toNat profile part 0
      (axis.beginMotion motion profile) where
  profile_eq := rfl
  dir := hdir
  current := by simp [Axis.beginMotion]
  target _ := by
    show (axis.state.encoderCurrent + profile.distAccel).toInt = _
    have hdist : profile.distAccel.toInt = sign neg * part.accel := part.distAccel
    rw [toInt_add_of_fits (by rwa [hdist]), hdist]
    rfl
  arrived h := by simp [Axis.beginMotion] at h

/-- The profile that `start_axis` asks for is a partition of the distance. -/
theorem motionProfile_partition {motion : AxisMotionSpec} {neg : Bool} {profile : VelProfile}
    (hdir : motion.dir = signDir neg) (htotal : motion.totalCounts.toNat < 2 ^ 31)
    (h : Axis.motionProfile ⟨500, 800⟩ motion = some profile) :
    Nonempty (Partition neg motion.totalCounts.toNat profile) := by
  have hneg : decide (motion.dir = .negative) = neg := by
    rw [hdir]
    cases neg <;> rfl
  rw [Axis.motionProfile, hneg] at h
  exact generateVelProfile_partition (stepsToCounts_ne _) htotal h

theorem startAxis_tracking {axis axis0 : Axis} {motion : AxisMotionSpec} {neg : Bool}
    (hmech : axis.mech = ⟨500, 800⟩) (hdir : motion.dir = signDir neg)
    (hstart : axis.startAxis motion = (.ok, axis0))
    (htotal : motion.totalCounts.toNat < 2 ^ 31)
    (hend : FitsInt32 (axis.state.encoderCurrent.toInt +
      sign neg * motion.totalCounts.toNat)) :
    axis0.state.moving = true ∧ axis0.state.velocitySegment = .accelerate ∧
      ∃ part : Partition neg motion.totalCounts.toNat axis0.motion.profile,
        Tracking axis.state.encoderCurrent.toInt neg motion.totalCounts.toNat
          axis0.motion.profile part 0 axis0 := by
  rcases axis.startAxis_cases motion with ⟨profile, -, hprofile, hbegin⟩ | ⟨hne, -⟩
  · obtain rfl : axis.beginMotion motion profile = axis0 := by
      simpa [hbegin] using hstart
    rw [hmech] at hprofile
    obtain ⟨part⟩ := motionProfile_partition hdir htotal hprofile
    have hle : part.accel ≤ motion.totalCounts.toNat := by
      have := part.sum
      omega
    exact ⟨rfl, rfl, part, beginMotion_tracking hdir part (fits_between (toInt_fits _) hend hle)⟩
  · exact absurd (congrArg Prod.fst hstart) hne

/-! ## Steps -/

section Steps

variable {p0 : Int} {neg : Bool} {total : Nat} {profile : VelProfile}
  {part : Partition neg total profile} {n : Nat} {axis : Axis}

/-- The segments end in order, the last one at the total distance. -/
theorem segmentEnd_le (part : Partition neg total profile) (seg : VelSeg) :
    segmentEnd part seg ≤ total := by
  have := part.sum
  cases seg <;> simp only [segmentEnd] <;> omega

theorem Tracking.atTarget_iff (h : Tracking p0 neg total profile part n axis)
    (hmoving : axis.state.moving = true) :
    axis.atTarget ↔ segmentEnd part axis.state.velocitySegment ≤ n := by
  rw [Axis.atTarget, h.dir]
  exact reachedTarget_iff h.current (h.target hmoving)

theorem Tracking.encoder (h : Tracking p0 neg total profile part n axis)
    (hfits : FitsInt32 (p0 + sign neg * (n + 1 : Nat))) :
    Tracking p0 neg total profile part (n + 1) axis.handleIsrEncoder := by
  obtain ⟨hlo, hhi⟩ := hfits
  have hcurrent := h.current
  cases neg
  · have hafter : axis.handleIsrEncoder =
        { axis with state.encoderCurrent := axis.state.encoderCurrent + 1 } := by
      simp [Axis.handleIsrEncoder, h.dir, signDir]
    rw [hafter]
    simp only [sign, Bool.false_eq_true, if_false, Int.one_mul] at hcurrent hlo hhi
    exact
      { profile_eq := h.profile_eq
        dir := h.dir
        current := by
          show (axis.state.encoderCurrent + 1).toInt = _
          have hone : (1 : Int32).toInt = 1 := rfl
          rw [toInt_add_of_fits ⟨by omega, by omega⟩, hcurrent, hone]
          simp only [sign, Bool.false_eq_true, if_false, Int.one_mul]
          omega
        target := h.target
        arrived := fun hstill => Nat.le_succ_of_le (h.arrived hstill) }
  · have hafter : axis.handleIsrEncoder =
        { axis with state.encoderCurrent := axis.state.encoderCurrent - 1 } := by
      simp [Axis.handleIsrEncoder, h.dir, signDir]
    rw [hafter]
    simp only [sign, if_true] at hcurrent hlo hhi
    exact
      { profile_eq := h.profile_eq
        dir := h.dir
        current := by
          show (axis.state.encoderCurrent - 1).toInt = _
          have hone : (1 : Int32).toInt = 1 := rfl
          rw [Int32.toInt_sub, Int.bmod_eq_of_le (by omega) (by omega), hcurrent, hone]
          simp only [sign, if_true]
          omega
        target := h.target
        arrived := fun hstill => Nat.le_succ_of_le (h.arrived hstill) }

theorem Tracking.step (h : Tracking p0 neg total profile part n axis) :
    Tracking p0 neg total profile part n axis.handleIsrStep := by
  unfold Axis.handleIsrStep
  split
  · exact { h with }
  · exact h

/-- The overshoot cancels: the new target is the old one plus the length of the
segment that begins. -/
theorem Axis.nextSegment_target (axis : Axis) (seg : VelSeg) (dist : Int32) :
    (axis.nextSegment seg dist).state.encoderTarget = axis.state.encoderTarget + dist := by
  show axis.state.encoderCurrent + dist +
    (axis.state.encoderTarget - axis.state.encoderCurrent) = axis.state.encoderTarget + dist
  grind

/-- Entering the segment `seg` of length `dist` keeps the targets on the partial
sums. -/
theorem Tracking.nextSegment (h : Tracking p0 neg total profile part n axis)
    (hmoving : axis.state.moving = true) (seg : VelSeg) (dist : Int32) (d : Nat)
    (hfits : FitsInt32 (p0 + sign neg * segmentEnd part seg))
    (hdist : dist.toInt = sign neg * d)
    (hsum : segmentEnd part axis.state.velocitySegment + d = segmentEnd part seg) :
    Tracking p0 neg total profile part n (axis.nextSegment seg dist) where
  profile_eq := h.profile_eq
  dir := h.dir
  current := h.current
  target _ := by
    have hexact : axis.state.encoderTarget.toInt + dist.toInt =
        p0 + sign neg * segmentEnd part seg := by
      rw [h.target hmoving, hdist, ← hsum]
      push_cast
      rw [Int.mul_add, Int.add_assoc]
    rw [Axis.nextSegment_target, toInt_add_of_fits (by rwa [hexact]), hexact]
    rfl
  arrived hstill := by
    change axis.state.moving = false at hstill
    simp [hmoving] at hstill

/-- An acceleration interrupt, if the next target can be represented. -/
theorem Tracking.accel_of_fits (h : Tracking p0 neg total profile part n axis)
    (hhold : axis.state.velocitySegment = .accelerate →
      FitsInt32 (p0 + sign neg * segmentEnd part .hold))
    (hdecel : axis.state.velocitySegment = .hold → segmentEnd part .hold ≤ n →
      FitsInt32 (p0 + sign neg * total)) :
    Tracking p0 neg total profile part n axis.handleIsrAccel := by
  generalize hafter : axis.handleIsrAccel = after
  have heffect := axis.handleIsrAccel_effect
  rw [hafter] at heffect
  cases heffect with
  | idle => exact h
  | faster _ _ _ _ => exact { h with }
  | enterHold hmoving hseg _ =>
      refine h.nextSegment hmoving .hold _ part.hold (hhold hseg) ?_ ?_
      · rw [h.profile_eq]
        exact part.distHold
      · rw [hseg]
        rfl
  | enterDecelerate hmoving hseg htarget =>
      rw [h.atTarget_iff hmoving, hseg] at htarget
      refine h.nextSegment hmoving .decelerate _ part.decel (hdecel hseg htarget) ?_ ?_
      · rw [h.profile_eq]
        exact part.distDecel
      · rw [hseg]
        exact part.sum
  | slower _ _ _ _ => exact { h with }
  | finish hmoving hseg htarget =>
      rw [h.atTarget_iff hmoving, hseg] at htarget
      exact
        { profile_eq := h.profile_eq
          dir := h.dir
          current := h.current
          target := fun hmoving' => by simp [Axis.stopAxis] at hmoving'
          arrived := fun _ => htarget }

theorem Tracking.accel (h : Tracking p0 neg total profile part n axis) (hp0 : FitsInt32 p0)
    (hend : FitsInt32 (p0 + sign neg * total)) :
    Tracking p0 neg total profile part n axis.handleIsrAccel :=
  h.accel_of_fits (fun _ => fits_between hp0 hend (segmentEnd_le part .hold)) fun _ _ => hend

/-- The segment only advances, one at a time. -/
theorem MotionEvent.apply_next (axis : Axis) (event : MotionEvent) :
    VelSeg.Next axis.state.velocitySegment (event.apply axis).state.velocitySegment := by
  cases event with
  | encoder =>
      simp only [MotionEvent.apply, Axis.handleIsrEncoder]
      split_ifs <;> exact .inl rfl
  | step =>
      simp only [MotionEvent.apply, Axis.handleIsrStep]
      split_ifs <;> exact .inl rfl
  | accel =>
      simp only [MotionEvent.apply]
      generalize hafter : axis.handleIsrAccel = after
      have heffect := axis.handleIsrAccel_effect
      rw [hafter] at heffect
      cases heffect with
      | enterHold _ hseg _ => exact .inr (.inl ⟨hseg, rfl⟩)
      | enterDecelerate _ hseg _ => exact .inr (.inr ⟨hseg, rfl⟩)
      | _ => exact .inl rfl

/-- Acceleration interrupts a motion still needs once it is past its end. -/
def accelsLeft (axis : Axis) : Nat :=
  if axis.state.moving then
    match axis.state.velocitySegment with
    | .accelerate => 3
    | .hold => 2
    | .decelerate => 1
  else 0

theorem accelsLeft_le (axis : Axis) : accelsLeft axis ≤ 3 := by
  unfold accelsLeft
  split
  · split <;> omega
  · omega

/-- Past the end, every acceleration interrupt brings the motion closer to its
stop. -/
theorem Tracking.accelsLeft_accel (h : Tracking p0 neg total profile part n axis)
    (hpast : total ≤ n) : accelsLeft axis.handleIsrAccel ≤ accelsLeft axis - 1 := by
  have hreached : ∀ seg, segmentEnd part seg ≤ n :=
    fun seg => Nat.le_trans (segmentEnd_le part seg) hpast
  cases hmoving : axis.state.moving with
  | false => simp [Axis.handleIsrAccel, accelsLeft, hmoving]
  | true =>
      have htarget : axis.atTarget := (h.atTarget_iff hmoving).mpr (hreached _)
      cases hseg : axis.state.velocitySegment <;>
        simp [Axis.handleIsrAccel, hmoving, hseg, htarget, accelsLeft, Axis.nextSegment,
          Axis.stopAxis]

theorem accelsLeft_encoder (axis : Axis) :
    accelsLeft axis.handleIsrEncoder = accelsLeft axis := by
  unfold Axis.handleIsrEncoder
  split_ifs <;> rfl

theorem accelsLeft_step (axis : Axis) : accelsLeft axis.handleIsrStep = accelsLeft axis := by
  unfold Axis.handleIsrStep
  split_ifs <;> rfl

end Steps

/-! ## Runs -/

section Runs

variable {p0 : Int} {neg : Bool} {total : Nat} {profile : VelProfile}
  {part : Partition neg total profile}

/-- Any interleaving of interrupts keeps the motion on its targets. -/
theorem Tracking.run (hp0 : FitsInt32 p0) (hend : FitsInt32 (p0 + sign neg * total))
    (events : List MotionEvent) {n : Nat} {axis : Axis}
    (h : Tracking p0 neg total profile part n axis)
    (hfits : FitsInt32 (p0 + sign neg * (n + events.count .encoder : Nat))) :
    Tracking p0 neg total profile part (n + events.count .encoder)
      (exec MotionEvent.apply axis events) := by
  induction events generalizing n axis with
  | nil => exact h
  | cons event events ih =>
      rw [exec_cons]
      cases event with
      | encoder =>
          rw [List.count_cons_self] at hfits ⊢
          have hone : FitsInt32 (p0 + sign neg * (n + 1 : Nat)) :=
            fits_between hp0 hfits (by omega)
          rw [show n + (events.count .encoder + 1) = n + 1 + events.count .encoder by
            omega] at hfits ⊢
          exact ih (h.encoder hone) hfits
      | step =>
          rw [List.count_cons_of_ne (by decide)] at hfits ⊢
          exact ih h.step hfits
      | accel =>
          rw [List.count_cons_of_ne (by decide)] at hfits ⊢
          exact ih (h.accel hp0 hend) hfits

/-- Past the end, as many acceleration interrupts as are left stop the axis. -/
theorem Tracking.run_stops (hp0 : FitsInt32 p0)
    (hend : FitsInt32 (p0 + sign neg * total)) (events : List MotionEvent) {n : Nat}
    {axis : Axis} (h : Tracking p0 neg total profile part n axis) (hpast : total ≤ n)
    (hfits : FitsInt32 (p0 + sign neg * (n + events.count .encoder : Nat)))
    (hleft : accelsLeft axis ≤ events.count .accel) :
    (exec MotionEvent.apply axis events).state.moving = false := by
  induction events generalizing n axis with
  | nil =>
      by_contra hmoving
      have hmoving : axis.state.moving = true := by simpa using hmoving
      cases hseg : axis.state.velocitySegment <;>
        simp [accelsLeft, hmoving, hseg] at hleft
  | cons event events ih =>
      rw [exec_cons]
      cases event with
      | encoder =>
          rw [List.count_cons_self] at hfits
          rw [List.count_cons_of_ne (by decide)] at hleft
          have hone : FitsInt32 (p0 + sign neg * (n + 1 : Nat)) :=
            fits_between hp0 hfits (by omega)
          rw [show n + (events.count .encoder + 1) = n + 1 + events.count .encoder by
            omega] at hfits
          exact ih (h.encoder hone) (by omega) hfits (by
            rwa [MotionEvent.apply, accelsLeft_encoder])
      | step =>
          rw [List.count_cons_of_ne (by decide)] at hfits hleft
          exact ih h.step hpast hfits (by rwa [MotionEvent.apply, accelsLeft_step])
      | accel =>
          rw [List.count_cons_of_ne (by decide)] at hfits
          rw [List.count_cons_self] at hleft
          refine ih (h.accel hp0 hend) hpast hfits ?_
          have := h.accelsLeft_accel hpast
          rw [MotionEvent.apply]
          omega

end Runs

/-- **Motion tracking.**  From an accepted start, under any interleaving of
encoder, step and acceleration interrupts that keeps the encoder in range: the
segments only advance; the target is the end of the current segment, measured
from the start position; the axis stops only past the requested distance; and
past it, three acceleration interrupts stop it. -/
theorem startAxis_motion (axis axis0 : Axis) (motion : AxisMotionSpec) (neg : Bool)
    (events : List MotionEvent) (hmech : axis.mech = ⟨500, 800⟩)
    (hdir : motion.dir = if neg then .negative else .positive)
    (hstart : axis.startAxis motion = (.ok, axis0))
    (htotal : motion.totalCounts.toNat ≤ 2 ^ 31 - 1)
    (hend : FitsInt32 (axis.state.encoderCurrent.toInt +
      sign neg * motion.totalCounts.toNat))
    (hrange : FitsInt32 (axis.state.encoderCurrent.toInt +
      sign neg * events.count .encoder)) :
    let p0 := axis.state.encoderCurrent.toInt
    let total : Int := motion.totalCounts.toNat
    let profile := axis0.motion.profile
    let after := exec MotionEvent.apply axis0 events
    (∀ pre event post, events = pre ++ event :: post →
      VelSeg.Next (exec MotionEvent.apply axis0 pre).state.velocitySegment
        (exec MotionEvent.apply axis0 (pre ++ [event])).state.velocitySegment) ∧
    (after.state.moving = true →
      after.state.encoderTarget.toInt =
        match after.state.velocitySegment with
        | .accelerate => p0 + profile.distAccel.toInt
        | .hold => p0 + profile.distAccel.toInt + profile.distHold.toInt
        | .decelerate => p0 + sign neg * total) ∧
    (after.state.moving = false →
      sign neg * (after.state.encoderCurrent.toInt - p0) ≥ total) ∧
    (∀ pre post, events = pre ++ post →
      sign neg * ((exec MotionEvent.apply axis0 pre).state.encoderCurrent.toInt - p0) ≥
        total →
      3 ≤ post.count .accel → after.state.moving = false) := by
  intro p0 total profile after
  obtain ⟨-, -, part, h0⟩ := startAxis_tracking hmech hdir hstart (by omega) hend
  have hp0 : FitsInt32 p0 := toInt_fits _
  have hafter := h0.run hp0 hend events (by rwa [Nat.zero_add])
  rw [Nat.zero_add] at hafter
  refine ⟨fun pre event post _ => ?_, fun hmoving => ?_, fun hstill => ?_,
    fun pre post hsplit hpast hthree => ?_⟩
  · rw [exec_snoc]
    exact event.apply_next _
  · rw [hafter.target hmoving]
    cases after.state.velocitySegment with
    | accelerate => rw [part.distAccel]; rfl
    | hold =>
        show p0 + sign neg * ((part.accel + part.hold : Nat) : Int) = _
        rw [part.distAccel, part.distHold]
        push_cast
        rw [Int.mul_add, Int.add_assoc]
    | decelerate => rfl
  · have harrived := hafter.arrived hstill
    rw [hafter.current, travelled_eq]
    exact Int.ofNat_le.mpr harrived
  · subst hsplit
    rw [List.count_append] at hrange
    have hpre := h0.run hp0 hend pre (fits_between hp0 hrange (by omega))
    rw [Nat.zero_add] at hpre
    rw [hpre.current, travelled_eq] at hpast
    have hleft := accelsLeft_le (exec MotionEvent.apply axis0 pre)
    rw [show after = exec MotionEvent.apply (exec MotionEvent.apply axis0 pre) post from
      exec_append ..]
    exact hpre.run_stops hp0 hend post (Int.ofNat_le.mp hpast) hrange (by omega)

/-- A motion of five counts in negative direction. -/
def fiveCounts : AxisMotionSpec := ⟨.negative, 5, 10, 1, 75⟩

/-- From count zero it is over after five counts and three acceleration
interrupts. -/
theorem startAxis_motion_five :
    let axis : Axis := { Axis.zero with mech := ⟨500, 800⟩ }
    (exec MotionEvent.apply (axis.startAxis fiveCounts).2
      (List.replicate 5 .encoder ++ List.replicate 3 .accel)).state.moving = false := by
  intro axis
  have hmotion := startAxis_motion axis (axis.startAxis fiveCounts).2 fiveCounts true
    (List.replicate 5 .encoder ++ List.replicate 3 .accel) rfl rfl
    (Prod.ext (by decide) rfl) (by decide)
    ⟨by decide, by decide⟩ ⟨by decide, by decide⟩
  exact hmotion.2.2.2 (List.replicate 5 .encoder) (List.replicate 3 .accel) rfl
    (by decide) (by decide)

end MpmtTestStand.Ports
