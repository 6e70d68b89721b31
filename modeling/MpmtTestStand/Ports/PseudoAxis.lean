import MpmtTestStand.Ports.Axis
import MpmtTestStand.Verified.Run
import MpmtTestStand.Verified.Words

/-!
# The gantry emulator: `PseudoAxis`

The emulator counts the edges of the motor pulses, passes some of them on to the encoder
channel, and follows with each count the position of an axis between two limit switches.

`toggle_encoder_output` skips the first edges of every block of `2 * steps_for_ratio`; the
edge behind a block is the first one of the next.  `countsOf` is what it should count, in
closed form, and `toggle_ratio` that it counts this as long as the edges of a block and one
more are an `int`; with more steps it does not (`toggle_overflows`).  Pressing a switch
leaves the position alone, and the count that releases it again sets the position to that
end of the axis; `Consistent` is the invariant that makes this safe in every sequence of
edges.

The pins are those of one axis, without their numbers, and all different.  An `int` of the
board has 16 bits; where C++ leaves an overflow undefined, `Int16` wraps around, as the
instructions of the board do.
-/

namespace MpmtTestStand.Ports

open MpmtTestStand.Verified.Run MpmtTestStand.Verified.Words

/-! ## State -/

/-- `LimitSwitchStatus` -/
inductive LimitSwitchStatus
  | pressed
  | unpressed
  deriving DecidableEq, Repr

/-- The value of an enumerator, written to the output pin. -/
def LimitSwitchStatus.level : LimitSwitchStatus → Level
  | .pressed => .low
  | .unpressed => .high

/-- `PseudoLimitSwitch`, with the level last written to its output pin, if there is one. -/
structure PseudoLimitSwitch where
  status : LimitSwitchStatus
  driven : Option Level
  deriving DecidableEq, Repr

/-- Store the status, and write it to the output pin. -/
def PseudoLimitSwitch.set (_ : PseudoLimitSwitch) (status : LimitSwitchStatus) :
    PseudoLimitSwitch :=
  ⟨status, some status.level⟩

/-- The output pin shows the status. -/
def PseudoLimitSwitch.Agrees (s : PseudoLimitSwitch) : Prop := s.driven = some s.status.level

/-- What becomes of a switch: nothing, or it is set and its output pin with it. -/
def PseudoLimitSwitch.Follows (before after : PseudoLimitSwitch) : Prop :=
  after = before ∨ after.Agrees

theorem PseudoLimitSwitch.Follows.trans {s t u : PseudoLimitSwitch} (hst : s.Follows t)
    (htu : t.Follows u) : s.Follows u := by
  rcases htu with rfl | hu
  · exact hst
  · exact .inr hu

/-- A switch with another status than at first has been set. -/
theorem PseudoLimitSwitch.Follows.agrees {s t : PseudoLimitSwitch} (h : s.Follows t)
    (hne : t.status ≠ s.status) : t.Agrees := by
  rcases h with rfl | ht
  · exact absurd rfl hne
  · exact ht

/-- `PseudoAxis`, with the level of the encoder's output pin. -/
structure PseudoAxis where
  axisLengthCounts : UInt32
  motorPositionCurrent : UInt32
  motorPositionDefault : UInt32
  changeCounter : Int16
  stepsForRatio : Int16
  countsForRatio : Int16
  changesToSkip : Int16
  lsHome : PseudoLimitSwitch
  lsFar : PseudoLimitSwitch
  channelA : Level
  deriving DecidableEq, Repr

namespace PseudoAxis

/-- `toggle_encoder_output`, when the motor pin is at this level. -/
def toggleEncoderOutput (a : PseudoAxis) (motorPin : Level) : PseudoAxis × Bool :=
  let a :=
    if a.changesToSkip ≠ 0 then { a with changeCounter := a.changeCounter + 1 } else a
  if a.changeCounter ≤ a.changesToSkip ∧ a.changesToSkip ≠ 0 then (a, false)
  else if a.changeCounter ≤ 2 * a.stepsForRatio ∨ a.changesToSkip = 0 then
    ({ a with channelA := motorPin }, decide (motorPin = .high))
  else ({ a with changeCounter := 1 }, false)

/-- A count in the positive direction. -/
def countUp (a : PseudoAxis) : PseudoAxis :=
  if a.motorPositionCurrent < a.axisLengthCounts then
    let a := { a with motorPositionCurrent := a.motorPositionCurrent + 1 }
    if a.lsHome.status = .pressed then
      { a with lsHome := a.lsHome.set .unpressed, motorPositionCurrent := 0 }
    else a
  else { a with lsFar := a.lsFar.set .pressed }

/-- A count in the negative direction. -/
def countDown (a : PseudoAxis) : PseudoAxis :=
  if a.motorPositionCurrent > 0 then
    let a := { a with motorPositionCurrent := a.motorPositionCurrent - 1 }
    if a.lsFar.status = .pressed then
      { a with lsFar := a.lsFar.set .unpressed, motorPositionCurrent := a.axisLengthCounts }
    else a
  else { a with lsHome := a.lsHome.set .pressed }

/-- The axis with another counter and another level of the encoder's output pin, which is all
that `toggle_encoder_output` changes. -/
def withEncoder (a : PseudoAxis) (counter : Int16) (level : Level) : PseudoAxis :=
  { a with changeCounter := counter, channelA := level }

/-- What `isr_motor_pulse` reads: the motor pin and the direction pin. -/
structure Pins where
  motor : Level
  dir : Level
  deriving DecidableEq, Repr

/-- `isr_motor_pulse` -/
def isrMotorPulse (a : PseudoAxis) (pins : Pins) : PseudoAxis :=
  let toggled := a.toggleEncoderOutput pins.motor
  if ¬toggled.2 then toggled.1
  else if pins.dir = .high then toggled.1.countUp
  else toggled.1.countDown

/-- `reset_pseudo_axis` -/
def reset (a : PseudoAxis) : PseudoAxis :=
  { a with
    changeCounter := 0
    motorPositionCurrent := a.motorPositionDefault
    lsFar := { a.lsFar with status := .unpressed }
    lsHome := { a.lsHome with status := .unpressed } }

/-- `pseudo_axis_x` in `setup`, behind `set_up_encoder`. -/
def configured : PseudoAxis where
  axisLengthCounts := 2000
  motorPositionCurrent := 0
  motorPositionDefault := 0
  changeCounter := 0
  stepsForRatio := 8
  countsForRatio := 5
  changesToSkip := 2 * (8 - 5)
  lsHome := ⟨.unpressed, none⟩
  lsFar := ⟨.unpressed, none⟩
  channelA := .low

/-! ## The ratio of steps and counts -/

/-- The counts of `n` pulses when of every `steps` pulses the last `counts` are passed on. -/
def countsOf (steps counts n : Nat) : Nat := n / steps * counts + (n % steps - (steps - counts))

/-- One more pulse is in the same block, or it completes the block. -/
theorem block_succ {steps : Nat} (hsteps : 0 < steps) (n : Nat) :
    n % steps + 1 < steps ∧ (n + 1) / steps = n / steps ∧ (n + 1) % steps = n % steps + 1 ∨
      n % steps + 1 = steps ∧ (n + 1) / steps = n / steps + 1 ∧ (n + 1) % steps = 0 := by
  have hmod : n % steps < steps := Nat.mod_lt n hsteps
  have hn : steps * (n / steps) + n % steps = n := Nat.div_add_mod n steps
  by_cases hlast : n % steps + 1 = steps
  · refine .inr ⟨hlast, (Nat.div_mod_unique hsteps).mpr ⟨?_, hsteps⟩⟩
    rw [Nat.mul_add, Nat.mul_one]
    omega
  · exact .inl ⟨by omega, (Nat.div_mod_unique hsteps).mpr ⟨by omega, by omega⟩⟩

/-- One more pulse is counted behind the skipped ones of its block. -/
theorem countsOf_succ {steps counts : Nat} (hpos : 1 ≤ counts) (hle : counts ≤ steps) (n : Nat) :
    countsOf steps counts (n + 1) =
      countsOf steps counts n + if steps - counts ≤ n % steps then 1 else 0 := by
  have hsteps : 0 < steps := by omega
  unfold countsOf
  rcases block_succ hsteps n with ⟨hin, hdiv, hmod⟩ | ⟨hlast, hdiv, hmod⟩
  · rw [hdiv, hmod]
    split <;> omega
  · rw [hdiv, hmod, Nat.succ_mul]
    split <;> omega

/-! ## Pulses -/

/-- The axis, the calls that have returned `true`, and the rising edges of the encoder's output
pin so far. -/
structure Tally where
  axis : PseudoAxis
  counted : Nat
  rising : Nat

/-- `toggle_encoder_output` at an edge of the motor pin. -/
def Tally.edge (t : Tally) (motorPin : Level) : Tally :=
  let toggled := t.axis.toggleEncoderOutput motorPin
  { axis := toggled.1
    counted := t.counted + if toggled.2 then 1 else 0
    rising := t.rising + if t.axis.channelA = .low ∧ toggled.1.channelA = .high then 1 else 0 }

/-- The levels of the motor pin at the edges of `n` pulses. -/
def pulses : Nat → List Level
  | 0 => []
  | n + 1 => pulses n ++ [.high, .low]

/-- The emulator between two pulses, `n` of which are over: the counter stands at the edges of
the block, and at the end of a block rather than at the beginning of the next one. -/
structure Between (a : PseudoAxis) (steps counts n : Nat) (t : Tally) : Prop where
  axis : ∃ counter, t.axis = a.withEncoder counter .low ∧
    (a.changesToSkip ≠ 0 → counter.toInt = 2 * (n % steps : Nat) ∨
      n % steps = 0 ∧ counter.toInt = 2 * (steps : Int))
  counted : t.counted = countsOf steps counts n
  rising : t.rising = t.counted

section Ratio

variable {a : PseudoAxis} {steps counts n : Nat} {c : Int16}

/-- Without a ratio every edge is passed on. -/
theorem toggle_all (hskip : a.changesToSkip = 0) (l motorPin : Level) :
    (a.withEncoder c l).toggleEncoderOutput motorPin =
      (a.withEncoder c motorPin, decide (motorPin = .high)) := by
  simp [toggleEncoderOutput, withEncoder, hskip]

theorem toggle_skipped (hskip : a.changesToSkip ≠ 0) (hlow : c + 1 ≤ a.changesToSkip)
    (l motorPin : Level) :
    (a.withEncoder c l).toggleEncoderOutput motorPin = (a.withEncoder (c + 1) l, false) := by
  simp [toggleEncoderOutput, withEncoder, hskip, hlow]

theorem toggle_passed (hskip : a.changesToSkip ≠ 0) (hhigh : ¬c + 1 ≤ a.changesToSkip)
    (hblock : c + 1 ≤ 2 * a.stepsForRatio) (l motorPin : Level) :
    (a.withEncoder c l).toggleEncoderOutput motorPin =
      (a.withEncoder (c + 1) motorPin, decide (motorPin = .high)) := by
  simp only [toggleEncoderOutput, withEncoder, ne_eq, hskip, not_false_eq_true, if_true,
    and_true, if_neg hhigh, hblock, true_or]

/-- The edge behind a block begins the next one. -/
theorem toggle_wrapped (hskip : a.changesToSkip ≠ 0) (hhigh : ¬c + 1 ≤ a.changesToSkip)
    (hblock : ¬c + 1 ≤ 2 * a.stepsForRatio) (l motorPin : Level) :
    (a.withEncoder c l).toggleEncoderOutput motorPin = (a.withEncoder 1 l, false) := by
  simp only [toggleEncoderOutput, withEncoder, ne_eq, hskip, not_false_eq_true, if_true,
    and_true, if_neg hhigh, hblock, or_self, if_false]

/-- An edge, in terms of what the call does. -/
theorem Tally.edge_eq {before after : PseudoAxis} {level : Level} {counted : Bool}
    (h : before.toggleEncoderOutput level = (after, counted)) (k r : Nat) :
    Tally.edge ⟨before, k, r⟩ level =
      ⟨after, k + if counted then 1 else 0,
        r + if before.channelA = .low ∧ after.channelA = .high then 1 else 0⟩ := by
  rw [edge, h]

/-- A pulse of which both edges are passed on. -/
theorem pulse_all (hskip : a.changesToSkip = 0) (k r : Nat) :
    (Tally.edge ⟨a.withEncoder c .low, k, r⟩ .high).edge .low =
      ⟨a.withEncoder c .low, k + 1, r + 1⟩ := by
  rw [Tally.edge_eq (toggle_all hskip .low .high) k r, Tally.edge_eq (toggle_all hskip .high .low)]
  rfl

/-- One more edge is counted. -/
theorem counter_succ (hint : c.toInt + 1 < 2 ^ 15) : (c + 1).toInt = c.toInt + 1 := by
  have hlow := c.le_toInt
  exact int16_toInt_add (by rw [Int16.toInt_one]; omega) (by rw [Int16.toInt_one]; omega)

theorem pulse_passed (hskip : a.changesToSkip ≠ 0) (hhigh : a.changesToSkip.toInt ≤ c.toInt)
    (hblock : c.toInt + 2 ≤ (2 * a.stepsForRatio).toInt) (k r : Nat) :
    (Tally.edge ⟨a.withEncoder c .low, k, r⟩ .high).edge .low =
      ⟨a.withEncoder (c + 1 + 1) .low, k + 1, r + 1⟩ := by
  have hmax := (2 * a.stepsForRatio).toInt_lt
  have hone : (c + 1).toInt = c.toInt + 1 := counter_succ (by omega)
  have htwo : (c + 1 + 1).toInt = (c + 1).toInt + 1 := counter_succ (by omega)
  rw [Tally.edge_eq (toggle_passed hskip (by rw [Int16.le_iff_toInt_le]; omega)
      (by rw [Int16.le_iff_toInt_le]; omega) .low .high) k r,
    Tally.edge_eq (toggle_passed hskip (by rw [Int16.le_iff_toInt_le]; omega)
      (by rw [Int16.le_iff_toInt_le]; omega) .high .low)]
  rfl

/-- A pulse of which both edges are skipped. -/
theorem pulse_skipped (hskip : a.changesToSkip ≠ 0)
    (hlow : c.toInt + 2 ≤ a.changesToSkip.toInt) (k r : Nat) :
    (Tally.edge ⟨a.withEncoder c .low, k, r⟩ .high).edge .low =
      ⟨a.withEncoder (c + 1 + 1) .low, k, r⟩ := by
  have hmax := a.changesToSkip.toInt_lt
  have hone : (c + 1).toInt = c.toInt + 1 := counter_succ (by omega)
  have htwo : (c + 1 + 1).toInt = (c + 1).toInt + 1 := counter_succ (by omega)
  rw [Tally.edge_eq (toggle_skipped hskip (by rw [Int16.le_iff_toInt_le]; omega) .low .high) k r,
    Tally.edge_eq (toggle_skipped hskip (by rw [Int16.le_iff_toInt_le]; omega) .low .low)]
  rfl

/-- A pulse behind a block; the edge that begins the next one is still counted as an `int`. -/
theorem pulse_wrapped (hskip : 2 ≤ a.changesToSkip.toInt)
    (hhigh : a.changesToSkip.toInt ≤ c.toInt)
    (hblock : (2 * a.stepsForRatio).toInt ≤ c.toInt) (hint : c.toInt + 1 < 2 ^ 15) (k r : Nat) :
    (Tally.edge ⟨a.withEncoder c .low, k, r⟩ .high).edge .low =
      ⟨a.withEncoder (1 + 1) .low, k, r⟩ := by
  have hne : a.changesToSkip ≠ 0 := by
    intro h
    rw [h] at hskip
    exact absurd hskip (by decide)
  have hone : (c + 1).toInt = c.toInt + 1 := counter_succ hint
  have htwo : (1 + 1 : Int16).toInt = 2 := rfl
  rw [Tally.edge_eq (toggle_wrapped hne (by rw [Int16.le_iff_toInt_le]; omega)
      (by rw [Int16.le_iff_toInt_le]; omega) .low .high) k r,
    Tally.edge_eq (toggle_skipped hne (by rw [Int16.le_iff_toInt_le]; omega) .low .low)]
  rfl

/-- The numbers that the settings stand for: the edges of a block, and those to be skipped. -/
structure Settings (a : PseudoAxis) (steps counts : Nat) : Prop where
  pos : 1 ≤ counts
  le : counts ≤ steps
  int : 2 * steps + 1 < 2 ^ 15
  block : (2 * a.stepsForRatio).toInt = 2 * steps
  skip : a.changesToSkip.toInt = 2 * ((steps : Int) - counts)

/-- Nothing overflows in the settings. -/
theorem Settings.of_ratio (hpos : 1 ≤ counts) (hle : counts ≤ steps)
    (hint : 2 * steps + 1 < 2 ^ 15) (hsteps : a.stepsForRatio.toInt = steps)
    (hcounts : a.countsForRatio.toInt = counts)
    (hskip : a.changesToSkip = 2 * (a.stepsForRatio - a.countsForRatio)) :
    a.Settings steps counts := by
  have hdiff : (a.stepsForRatio - a.countsForRatio).toInt = steps - counts := by
    rw [int16_toInt_sub (by omega) (by omega), hsteps, hcounts]
  refine ⟨hpos, hle, hint, ?_, ?_⟩
  · rw [int16_toInt_two_mul (by omega) (by omega), hsteps]
  · rw [hskip, int16_toInt_two_mul (by omega) (by omega), hdiff]

/-- Both edges of a pulse. -/
theorem Between.pulse {t : Tally} (h : Between a steps counts n t)
    (hset : a.Settings steps counts) :
    Between a steps counts (n + 1) ((t.edge .high).edge .low) := by
  obtain ⟨hpos, hle, hint, hsteps, hskip⟩ := hset
  obtain ⟨axis, counted, rising⟩ := t
  obtain ⟨⟨counter, haxis, hcounter⟩, hcounted, hrising⟩ := h
  dsimp only at haxis hcounted hrising
  subst haxis hrising
  have hsucc := countsOf_succ hpos hle n
  rw [← hcounted] at hsucc
  by_cases hall : a.changesToSkip = 0
  · rw [pulse_all hall]
    have heq : steps = counts := by
      rw [hall, Int16.toInt_zero] at hskip
      omega
    rw [if_pos (by omega)] at hsucc
    exact ⟨⟨counter, rfl, fun hne => absurd hall hne⟩, hsucc.symm, rfl⟩
  · have hzero : a.changesToSkip.toInt ≠ 0 := fun h =>
      hall (Int16.toInt_inj.mp (h.trans Int16.toInt_zero.symm))
    have hblock := block_succ (show 0 < steps by omega) n
    rcases hcounter hall with hin | ⟨hend, hlast⟩
    · -- neither edge is the one behind the block
      have hone : (counter + 1).toInt = counter.toInt + 1 := counter_succ (by omega)
      have htwo : (counter + 1 + 1).toInt = (counter + 1).toInt + 1 := counter_succ (by omega)
      by_cases hlow : n % steps < steps - counts
      · rw [pulse_skipped hall (by omega)]
        rw [if_neg (by omega)] at hsucc
        exact ⟨⟨_, rfl, fun _ => by omega⟩, hsucc.symm, rfl⟩
      · rw [pulse_passed hall (by omega) (by omega)]
        rw [if_pos (by omega)] at hsucc
        exact ⟨⟨_, rfl, fun _ => by omega⟩, hsucc.symm, rfl⟩
    · -- the rising edge is the one behind the block
      have htwo : (1 + 1 : Int16).toInt = 2 := rfl
      rw [pulse_wrapped (by omega) (by omega) (by omega) (by omega)]
      rw [if_neg (by omega)] at hsucc
      exact ⟨⟨_, rfl, fun _ => by omega⟩, hsucc.symm, rfl⟩

/-- **The emulator counts in the ratio of its settings.**  Of `n` motor pulses it counts
`counts` for every complete block of `steps`, and in the last block those behind the skipped
ones; the encoder's output pin rises as often.  The edges of a block, and the one behind it,
have to be numbers that an `int` can hold. -/
theorem toggle_ratio (a : PseudoAxis) (steps counts n : Nat) (hpos : 1 ≤ counts)
    (hle : counts ≤ steps) (hint : 2 * steps + 1 < 2 ^ 15)
    (hsteps : a.stepsForRatio.toInt = steps) (hcounts : a.countsForRatio.toInt = counts)
    (hskip : a.changesToSkip = 2 * (a.stepsForRatio - a.countsForRatio))
    (hcounter : a.changeCounter = 0) (hlow : a.channelA = .low) :
    (exec Tally.edge ⟨a, 0, 0⟩ (pulses n)).counted = countsOf steps counts n ∧
      (exec Tally.edge ⟨a, 0, 0⟩ (pulses n)).rising = countsOf steps counts n := by
  have hset : a.Settings steps counts := .of_ratio hpos hle hint hsteps hcounts hskip
  have hbetween : Between a steps counts n (exec Tally.edge ⟨a, 0, 0⟩ (pulses n)) := by
    induction n with
    | zero =>
        refine ⟨⟨0, ?_, fun _ => .inl ?_⟩, ?_, rfl⟩
        · rw [← hcounter, ← hlow]
          rfl
        · rw [Nat.zero_mod]
          rfl
        · show 0 = countsOf steps counts 0
          simp [countsOf]
    | succ n ih =>
        rw [pulses, exec_append]
        exact ih.pulse hset
  exact ⟨hbetween.counted, hbetween.rising.trans hbetween.counted⟩

end Ratio

/-- With the settings of the emulator a hundred pulses are 61 counts. -/
theorem toggle_ratio_configured :
    (exec Tally.edge ⟨configured.reset, 0, 0⟩ (pulses 100)).counted = 61 :=
  (toggle_ratio configured.reset 8 5 100 (by decide) (by decide) (by decide) rfl rfl rfl rfl
    rfl).1

/-- The emulator with a block whose edges are one more than an `int` can hold, of which all
but one pulse are passed on. -/
def longBlock : PseudoAxis :=
  { configured.reset with
    stepsForRatio := 16384
    countsForRatio := 16383
    changesToSkip := 2 * (16384 - 16383) }

/-- Of two pulses the second one should be counted; `2 * steps_for_ratio` is negative, and the
first edge behind the skipped ones begins a new block. -/
theorem toggle_overflows :
    longBlock.stepsForRatio.toInt = 16384 ∧ longBlock.countsForRatio.toInt = 16383 ∧
      longBlock.changesToSkip.toInt = 2 * (16384 - 16383) ∧ longBlock.changeCounter = 0 ∧
      longBlock.channelA = .low ∧ countsOf 16384 16383 2 = 1 ∧
      (exec Tally.edge ⟨longBlock, 0, 0⟩ (pulses 2)).counted = 0 ∧
      (exec Tally.edge ⟨longBlock, 0, 0⟩ (pulses 2)).rising = 0 := by
  decide

/-! ## The position and the limit switches -/

/-- `toggle_encoder_output` does not touch the position and the switches. -/
theorem toggle_withEncoder (a : PseudoAxis) (motorPin : Level) :
    ∃ counter level counted,
      a.toggleEncoderOutput motorPin = (a.withEncoder counter level, counted) := by
  by_cases hskip : a.changesToSkip = 0
  · exact ⟨_, _, _, toggle_all hskip a.channelA motorPin⟩
  · by_cases hlow : a.changeCounter + 1 ≤ a.changesToSkip
    · exact ⟨_, _, _, toggle_skipped hskip hlow a.channelA motorPin⟩
    · by_cases hblock : a.changeCounter + 1 ≤ 2 * a.stepsForRatio
      · exact ⟨_, _, _, toggle_passed hskip hlow hblock a.channelA motorPin⟩
      · exact ⟨_, _, _, toggle_wrapped hskip hlow hblock a.channelA motorPin⟩

/-- The position is on the axis, a switch is pressed at its own end only, and not both are. -/
structure Consistent (a : PseudoAxis) : Prop where
  range : a.motorPositionCurrent ≤ a.axisLengthCounts
  home : a.lsHome.status = .pressed → a.motorPositionCurrent = 0
  far : a.lsFar.status = .pressed → a.motorPositionCurrent = a.axisLengthCounts
  apart : ¬(a.lsHome.status = .pressed ∧ a.lsFar.status = .pressed)

/-- What edges come to: the axis is consistent and as long as it was, and the switches and
their output pins have changed together. -/
structure Keeps (a after : PseudoAxis) : Prop where
  consistent : after.Consistent
  length : after.axisLengthCounts = a.axisLengthCounts
  home : a.lsHome.Follows after.lsHome
  far : a.lsFar.Follows after.lsFar

/-- The positions differ by a count at most. -/
def Near (a after : PseudoAxis) : Prop :=
  after.motorPositionCurrent.toNat ≤ a.motorPositionCurrent.toNat + 1 ∧
    a.motorPositionCurrent.toNat ≤ after.motorPositionCurrent.toNat + 1

/-- What a single edge comes to: the axis also moves by a count at most. -/
structure Moves (a after : PseudoAxis) : Prop extends Keeps a after where
  near : a.Near after

section Position

variable {a : PseudoAxis}

theorem Near.of_eq {after : PseudoAxis}
    (h : after.motorPositionCurrent = a.motorPositionCurrent) : a.Near after := by
  rw [Near, h]
  exact ⟨Nat.le_add_right _ _, Nat.le_add_right _ _⟩

theorem Consistent.countUp (h : a.Consistent) (hlength : 0 < a.axisLengthCounts) :
    a.Moves a.countUp := by
  obtain ⟨hrange, hhome, hfar, hapart⟩ := h
  unfold PseudoAxis.countUp
  by_cases hlt : a.motorPositionCurrent < a.axisLengthCounts
  · rw [if_pos hlt]
    dsimp only
    by_cases hpressed : a.lsHome.status = .pressed
    · -- the count that releases the switch leaves the axis at its end
      rw [if_pos hpressed]
      refine ⟨⟨⟨UInt32.zero_le, fun h => ?_, fun h => absurd ⟨hpressed, h⟩ hapart, fun h => ?_⟩,
        rfl, .inr rfl, .inl rfl⟩, .of_eq (hhome hpressed).symm⟩
      · cases h
      · cases h.1
    · rw [if_neg hpressed]
      have hnext : (a.motorPositionCurrent + 1).toNat = a.motorPositionCurrent.toNat + 1 :=
        toNat_add_one hlt
      refine ⟨⟨⟨?_, fun h => absurd h hpressed, fun h => ?_, fun h => hpressed h.1⟩, rfl,
        .inl rfl, .inl rfl⟩, by simp only [Near]; omega⟩
      · show a.motorPositionCurrent + 1 ≤ a.axisLengthCounts
        rw [UInt32.le_iff_toNat_le, hnext]
        exact UInt32.lt_iff_toNat_lt.mp hlt
      · rw [hfar h] at hlt
        exact absurd hlt (UInt32.lt_irrefl _)
  · -- the axis is at the far end, which is not the home end
    rw [if_neg hlt]
    have hend : a.motorPositionCurrent = a.axisLengthCounts :=
      UInt32.le_antisymm hrange (UInt32.not_lt.mp hlt)
    have hhome' : a.lsHome.status ≠ .pressed := fun hp => by
      rw [← hend, hhome hp] at hlength
      exact absurd hlength (UInt32.lt_irrefl _)
    exact ⟨⟨⟨hrange, hhome, fun _ => hend, fun h => hhome' h.1⟩, rfl, .inl rfl, .inr rfl⟩,
      .of_eq rfl⟩

theorem Consistent.countDown (h : a.Consistent) (hlength : 0 < a.axisLengthCounts) :
    a.Moves a.countDown := by
  obtain ⟨hrange, hhome, hfar, hapart⟩ := h
  unfold PseudoAxis.countDown
  by_cases hlt : a.motorPositionCurrent > 0
  · rw [if_pos hlt]
    dsimp only
    by_cases hpressed : a.lsFar.status = .pressed
    · rw [if_pos hpressed]
      refine ⟨⟨⟨UInt32.le_refl _, fun h => absurd ⟨h, hpressed⟩ hapart, fun _ => rfl, fun h => ?_⟩,
        rfl, .inl rfl, .inr rfl⟩, .of_eq (hfar hpressed).symm⟩
      cases h.2
    · rw [if_neg hpressed]
      have hnext : (a.motorPositionCurrent - 1).toNat = a.motorPositionCurrent.toNat - 1 :=
        toNat_sub_one hlt
      have hrange' := UInt32.le_iff_toNat_le.mp hrange
      refine ⟨⟨⟨?_, fun h => ?_, fun h => absurd h hpressed, fun h => hpressed h.2⟩, rfl,
        .inl rfl, .inl rfl⟩, by simp only [Near]; omega⟩
      · show a.motorPositionCurrent - 1 ≤ a.axisLengthCounts
        rw [UInt32.le_iff_toNat_le, hnext]
        omega
      · rw [hhome h] at hlt
        exact absurd hlt (UInt32.lt_irrefl _)
  · -- the axis is at the home end, which is not the far end
    rw [if_neg hlt]
    have hend : a.motorPositionCurrent = 0 :=
      UInt32.le_antisymm (UInt32.not_lt.mp hlt) UInt32.zero_le
    have hfar' : a.lsFar.status ≠ .pressed := fun hp => by
      rw [← hfar hp, hend] at hlength
      exact absurd hlength (UInt32.lt_irrefl _)
    exact ⟨⟨⟨hrange, fun _ => hend, hfar, fun h => hfar' h.2⟩, rfl, .inr rfl, .inl rfl⟩,
      .of_eq rfl⟩

theorem Consistent.isrMotorPulse (h : a.Consistent) (hlength : 0 < a.axisLengthCounts)
    (pins : Pins) : a.Moves (a.isrMotorPulse pins) := by
  obtain ⟨counter, level, counted, htoggled⟩ := a.toggle_withEncoder pins.motor
  have hencoder : (a.withEncoder counter level).Consistent := { h with }
  have hmoves {after : PseudoAxis} (h : (a.withEncoder counter level).Moves after) :
      a.Moves after := { h with }
  unfold PseudoAxis.isrMotorPulse
  rw [htoggled]
  dsimp only
  by_cases hcounted : counted = true
  · rw [if_neg (not_not.mpr hcounted)]
    by_cases hdir : pins.dir = .high
    · rw [if_pos hdir]
      exact hmoves (hencoder.countUp hlength)
    · rw [if_neg hdir]
      exact hmoves (hencoder.countDown hlength)
  · rw [if_pos hcounted]
    exact ⟨⟨hencoder, rfl, .inl rfl, .inl rfl⟩, .of_eq rfl⟩

theorem Consistent.edges (h : a.Consistent) (hlength : 0 < a.axisLengthCounts)
    (events : List Pins) : a.Keeps (exec PseudoAxis.isrMotorPulse a events) := by
  induction events using List.reverseRecOn with
  | nil => exact ⟨h, rfl, .inl rfl, .inl rfl⟩
  | append_singleton events pins ih =>
      rw [exec_snoc]
      have hmoves := ih.consistent.isrMotorPulse (by rwa [ih.length]) pins
      exact ⟨hmoves.consistent, hmoves.length.trans ih.length, ih.home.trans hmoves.home,
        ih.far.trans hmoves.far⟩

/-- **The emulator stays consistent.**  Whatever edges and directions it handles, the position
stays on the axis and moves by a count at most at an edge, so it does not wrap; a switch is
pressed at its own end only, and not both are; and the output pin of a switch shows its status
from the first change on. -/
theorem emulator_consistent (a : PseudoAxis) (hlength : 0 < a.axisLengthCounts)
    (hstart : a.motorPositionCurrent ≤ a.axisLengthCounts)
    (hhome : a.lsHome.status = .unpressed) (hfar : a.lsFar.status = .unpressed)
    (events : List Pins) :
    (exec isrMotorPulse a events).Consistent ∧
      (exec isrMotorPulse a events).axisLengthCounts = a.axisLengthCounts ∧
      (∀ pre post, events = pre ++ post →
        ((exec isrMotorPulse a pre).lsHome.status ≠ a.lsHome.status →
          (exec isrMotorPulse a events).lsHome.Agrees) ∧
        ((exec isrMotorPulse a pre).lsFar.status ≠ a.lsFar.status →
          (exec isrMotorPulse a events).lsFar.Agrees)) ∧
      ∀ pins, (exec isrMotorPulse a events).Near
        ((exec isrMotorPulse a events).isrMotorPulse pins) := by
  have hhome' : a.lsHome.status ≠ .pressed := by simp [hhome]
  have hfar' : a.lsFar.status ≠ .pressed := by simp [hfar]
  have hinit : a.Consistent :=
    ⟨hstart, fun h => absurd h hhome', fun h => absurd h hfar', fun h => hhome' h.1⟩
  have hrun := hinit.edges hlength events
  refine ⟨hrun.consistent, hrun.length, fun pre post hsplit => ?_, fun pins => ?_⟩
  · have hpre := hinit.edges hlength pre
    have hpost := hpre.consistent.edges (by rwa [hpre.length]) post
    rw [hsplit, exec_append]
    -- a switch that had been set before `post` still shows its status behind it
    have hset {s t u : PseudoLimitSwitch} (hst : s.Follows t) (htu : t.Follows u)
        (hne : t.status ≠ s.status) : u.Agrees := by
      rcases htu with rfl | hu
      · exact hst.agrees hne
      · exact hu
    exact ⟨hset hpre.home hpost.home, hset hpre.far hpost.far⟩
  · exact (hrun.consistent.isrMotorPulse (by rwa [hrun.length]) pins).near

/-- Pulses in a direction. -/
def pulsesTo (dir : Level) (n : Nat) : List Pins := (pulses n).map fun level => ⟨level, dir⟩

/-- The emulator with an axis of three counts. -/
def shortAxis : PseudoAxis := { configured.reset with axisLengthCounts := 3 }

/-- Eight pulses home press the home switch, sixteen back release it and press the far one; by
then both output pins have been written. -/
theorem emulator_consistent_ends :
    let edges := pulsesTo .low 8 ++ pulsesTo .high 16
    let a := exec isrMotorPulse shortAxis edges
    a.Consistent ∧ a.lsHome.status = .unpressed ∧ a.lsHome.Agrees ∧
      a.lsFar.status = .pressed ∧ a.lsFar.Agrees := by
  intro edges a
  obtain ⟨hconsistent, -, hpins, -⟩ :=
    emulator_consistent shortAxis (by decide) (by decide) rfl rfl edges
  have hhome := (hpins (pulsesTo .low 8) (pulsesTo .high 16) rfl).1 (by decide +kernel)
  have hfar := (hpins edges [] (List.append_nil edges).symm).2 (by decide +kernel)
  exact ⟨hconsistent, by decide +kernel, hhome, by decide +kernel, hfar⟩

end Position

end PseudoAxis

end MpmtTestStand.Ports
