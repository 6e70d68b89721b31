import MpmtTestStand.Ports.ScanSequence
import Mathlib

/-!
# The measurement at a scan point

One flag of `frontend_loop` is set by requesting a move and by every reading that says
the gantry moves; the first reading that says it is at rest clears the flag and starts
the measurement.  `ScanRun` keeps the history of these observations, and `Undisturbed`
is what the flag means in terms of the history.  Hence a move away from a point is
requested only after a measurement without a disturbance (`measured_before_move`).

How long the measurement lasts at least is a `float`: the sum of the scan time and 1000
as `measurement_complete` computes it.  Where it is rounded down the measurement can be
over before the scan time and a second have passed (`measured_too_briefly`).
-/

namespace MpmtTestStand.Ports

open MpmtTestStand.Verified.Rounding MpmtTestStand.Verified.Run

/-! ## Histories -/

/-- What a run does that matters for the measurements. -/
inductive Observation
  /-- the `Moving` flag is read -/
  | reading (moving : Bool)
  /-- `start_measurement` stores the clock -/
  | startMeasurement (time : Int)
  /-- `request_move`, with the clock as `measurement_complete` has just read it -/
  | requestMove (time : Int)
  deriving DecidableEq, Repr

namespace ScanState

/-- The call of `start_measurement` in an iteration that reads that the gantry is at
rest. -/
def startNow (s : ScanState) (input : LoopInput) : List Observation :=
  if s.gantryWasMoving then [.startMeasurement input.startTime] else []

/-- The call of `request_move` in such an iteration. -/
def requestNow (s : ScanState) (input : LoopInput) : List Observation :=
  if (s.noteArrival input).pointDone input ∧ s.currentPoint < s.scanPoints.length then
    [.requestMove input.checkTime]
  else []

/-- The observations of an iteration, in order. -/
def observes (s : ScanState) (input : LoopInput) : List Observation :=
  if s.calledBor ∧ s.running then
    .reading input.moving ::
      if input.moving then [] else s.startNow input ++ s.requestNow input
  else []

end ScanState

/-- What happens to the front end. -/
inductive ScanEvent
  | beginOfRun (set : ScanSettings)
  | endOfRun
  /-- the run is paused, resumed or stopped -/
  | setRunning (running : Bool)
  | frontendLoop (input : LoopInput)

/-- The front end, with the history of the current run. -/
structure ScanRun where
  state : ScanState
  history : List Observation

namespace ScanRun

def init : ScanRun := ⟨.init, []⟩

def apply (r : ScanRun) : ScanEvent → ScanRun
  | .beginOfRun set => ⟨Ports.beginOfRun r.state set, []⟩
  | .endOfRun => ⟨Ports.endOfRun r.state, r.history⟩
  | .setRunning running => ⟨{ r.state with running := running }, r.history⟩
  | .frontendLoop input => ⟨r.state.frontendLoop input, r.history ++ r.state.observes input⟩

end ScanRun

/-! ## The `float` sum -/

/-- The sum falls short of the exact one by one part in `2 ^ 24` at most. -/
theorem le_floatAdd {x : Rat} (hx : 0 ≤ x) :
    (1 - 2 ^ (-24 : Int)) * (x + 1000) ≤ floatAdd x 1000 :=
  le_roundEven 24 (by linarith)

theorem floatAdd_pos {x : Rat} (hx : 0 ≤ x) : 0 < floatAdd x 1000 := by
  have hshort : (0 : Rat) < 1 - 2 ^ (-24 : Int) := by norm_num
  have hsum : 0 < x + 1000 := by linarith
  exact lt_of_lt_of_le (mul_pos hshort hsum) (le_floatAdd hx)

/-- The sum is exact if it is a `float` itself. -/
theorem floatAdd_of_fits {x : Rat} (h : Fits 24 (x + 1000)) : floatAdd x 1000 = x + 1000 :=
  roundEven_of_fits h

/-! ## One iteration -/

namespace ScanState

/-- An iteration as a whole: what it observes, and the state that it leaves. -/
inductive Iteration (s : ScanState) (input : LoopInput) : List Observation → ScanState → Prop
  /-- nothing is read outside of a run -/
  | skipped (hoff : ¬(s.calledBor = true ∧ s.running = true)) : Iteration s input [] s
  /-- the gantry moves -/
  | moving (hon : s.calledBor = true) :
      Iteration s input [.reading true] { s with gantryWasMoving := true }
  /-- the measurement goes on -/
  | waiting (hon : s.calledBor = true) (hdone : (s.noteArrival input).pointDone input = false) :
      Iteration s input (.reading false :: s.startNow input) (s.noteArrival input)
  /-- the measurement at the last point is over -/
  | stopped (hpast : s.scanPoints.length ≤ s.currentPoint) :
      Iteration s input (.reading false :: s.startNow input)
        { s.noteArrival input with currentPoint := 0 }.stopRun
  /-- the measurement is over, or there is none yet -/
  | requested (hon : s.calledBor = true)
      (hdone : (s.noteArrival input).pointDone input = true)
      (hnext : s.currentPoint < s.scanPoints.length) :
      Iteration s input (.reading false :: s.startNow input ++ [.requestMove input.checkTime])
        (s.noteArrival input).moveToNext

theorem iteration (s : ScanState) (input : LoopInput) :
    Iteration s input (s.observes input) (s.frontendLoop input) := by
  unfold observes frontendLoop
  by_cases hon : s.calledBor = true ∧ s.running = true
  · obtain ⟨hbor, hrun⟩ := hon
    rw [if_pos ⟨hbor, hrun⟩, if_neg (not_not.mpr hbor), if_neg (not_not.mpr hrun)]
    cases hmoving : input.moving with
    | true =>
        rw [if_pos rfl, if_neg (not_not.mpr rfl)]
        exact .moving hbor
    | false =>
        rw [if_neg Bool.false_ne_true, if_pos Bool.false_ne_true, requestNow]
        dsimp only
        cases hdone : (s.noteArrival input).pointDone input with
        | false =>
            rw [if_neg (fun h => Bool.false_ne_true h.1), if_neg Bool.false_ne_true,
              List.append_nil]
            exact .waiting hbor hdone
        | true =>
            rw [if_pos rfl]
            by_cases hpast : s.currentPoint ≥ s.scanPoints.length
            · have hpast' : (s.noteArrival input).currentPoint ≥
                  (s.noteArrival input).scanPoints.length := by
                rw [noteArrival_currentPoint, noteArrival_scanPoints]
                exact hpast
              rw [if_neg (fun h => absurd h.2 (not_lt.mpr hpast)), if_pos hpast', List.append_nil]
              exact .stopped hpast
            · have hpast' : ¬(s.noteArrival input).currentPoint ≥
                  (s.noteArrival input).scanPoints.length := by
                rw [noteArrival_currentPoint, noteArrival_scanPoints]
                exact hpast
              rw [if_pos ⟨rfl, not_le.mp hpast⟩, if_neg hpast']
              exact .requested hbor hdone (not_le.mp hpast)
  · rw [if_neg hon]
    by_cases hbor : s.calledBor = true
    · have hrun : ¬s.running = true := fun h => hon ⟨hbor, h⟩
      rw [if_neg (not_not.mpr hbor), if_pos hrun]
      exact .skipped hon
    · rw [if_pos hbor]
      exact .skipped hon

/-- An iteration does not begin with a request. -/
theorem requestMove_notMem_startNow (s : ScanState) (input : LoopInput) (time : Int) :
    .requestMove time ∉ .reading false :: s.startNow input := by
  unfold startNow
  split_ifs
  · simp
  · simp

/-- An iteration asks for a move exactly if it adds a point to the requested ones. -/
theorem requestMove_mem_observes (s : ScanState) (input : LoopInput) (time : Int) :
    .requestMove time ∈ s.observes input ↔
      time = input.checkTime ∧
        (s.frontendLoop input).requested = s.requested ++ [s.currentPoint + 1] := by
  have hiteration := s.iteration input
  generalize s.observes input = observed at hiteration ⊢
  generalize s.frontendLoop input = after at hiteration ⊢
  cases hiteration with
  | skipped _ => simp
  | moving _ => simp
  | waiting _ _ =>
      exact iff_of_false (requestMove_notMem_startNow s input time) (by simp)
  | stopped _ =>
      exact iff_of_false (requestMove_notMem_startNow s input time) (by simp [stopRun, endOfRun])
  | requested _ _ _ =>
      rw [List.mem_append, or_iff_right (requestMove_notMem_startNow s input time)]
      simp [moveToNext]

theorem noteArrival_timeStart (s : ScanState) (input : LoopInput) :
    (s.noteArrival input).timeStartMeasurement =
      if s.gantryWasMoving then input.startTime else s.timeStartMeasurement := by
  unfold noteArrival
  split_ifs <;> rfl

/-- An iteration that starts a measurement stores the clock, and no other iteration
does. -/
theorem frontendLoop_timeStart (s : ScanState) (input : LoopInput) :
    (s.frontendLoop input).timeStartMeasurement =
      if .startMeasurement input.startTime ∈ s.observes input then input.startTime
      else s.timeStartMeasurement := by
  have hiteration := s.iteration input
  have hstart : .startMeasurement input.startTime ∈ .reading false :: s.startNow input ↔
      s.gantryWasMoving = true := by
    unfold startNow
    split_ifs with hmoving
    · simp [hmoving]
    · simp [hmoving]
  generalize s.observes input = observed at hiteration ⊢
  generalize s.frontendLoop input = after at hiteration ⊢
  cases hiteration with
  | skipped _ => simp
  | moving _ => simp
  | waiting _ _ =>
      simp only [hstart]
      exact noteArrival_timeStart s input
  | stopped _ =>
      simp only [hstart]
      exact noteArrival_timeStart s input
  | requested _ _ _ =>
      simp only [List.mem_append, hstart, List.mem_singleton, reduceCtorEq, or_false]
      exact noteArrival_timeStart s input

@[simp] theorem noteArrival_scanTime (s : ScanState) (input : LoopInput) :
    (s.noteArrival input).scanTime = s.scanTime := by
  unfold noteArrival
  split_ifs <;> rfl

/-- `measurement_complete` means that the `float` sum of the scan time and a second has
passed. -/
theorem measurementComplete_elapsed {s : ScanState} {now : Int} (hscan : 0 ≤ s.scanTime)
    (h : s.measurementComplete now = true) :
    floatAdd s.scanTime 1000 * 1000000 ≤ ((now - s.timeStartMeasurement : Int) : Rat) := by
  have hms := of_decide_eq_true h
  have hsum := floatAdd_pos hscan
  generalize floatAdd s.scanTime 1000 = sum at hms hsum ⊢
  generalize now - s.timeStartMeasurement = elapsed at hms ⊢
  have hpos : 0 < elapsed.tdiv 1000000 := by
    have hpos' : (0 : Rat) < (elapsed.tdiv 1000000 : Int) := by linarith
    exact_mod_cast hpos'
  have hnonneg : 0 ≤ elapsed := by
    by_contra hneg
    have hopp : (-elapsed).tdiv 1000000 = -(elapsed.tdiv 1000000) := Int.neg_tdiv ..
    have hle := Int.tdiv_nonneg (a := -elapsed) (b := 1000000) (by omega) (by omega)
    omega
  have helapsed : elapsed.tdiv 1000000 * 1000000 ≤ elapsed := by
    rw [Int.tdiv_eq_ediv_of_nonneg hnonneg]
    exact Int.ediv_mul_le elapsed (by decide)
  have hcast : ((elapsed.tdiv 1000000 : Int) : Rat) * 1000000 ≤ (elapsed : Rat) := by
    exact_mod_cast helapsed
  linarith

end ScanState

/-! ## Undisturbed measurements -/

/-- Since the last request a measurement has been started at `start`, and every reading
since has been that the gantry is at rest. -/
def Measured (start : Int) (history : List Observation) : Prop :=
  ∃ before after, history = before ++ .reading false :: .startMeasurement start :: after ∧
    (∃ time, .requestMove time ∈ before) ∧ ∀ o ∈ after, o = .reading false

/-- What the flag means: the gantry has still to arrive at its point, or the measurement
there has not been disturbed. -/
def Undisturbed (s : ScanState) (history : List Observation) : Prop :=
  s.gantryWasMoving = true ∨ Measured s.timeStartMeasurement history

/-- What holds in every state of a run. -/
structure ScanRun.Measures (r : ScanRun) : Prop where
  lower : r.state.calledBor = true → -1 ≤ r.state.currentPoint
  requested : r.state.calledBor = true → (∃ time, .requestMove time ∈ r.history) →
    0 ≤ r.state.currentPoint
  undisturbed : r.state.calledBor = true → (∃ time, .requestMove time ∈ r.history) →
    Undisturbed r.state r.history

/-- A reading that the gantry is at rest starts the measurement or lets it go on. -/
theorem Undisturbed.noteArrival {s : ScanState} {history : List Observation}
    (h : Undisturbed s history) (hrequest : ∃ time, .requestMove time ∈ history)
    (input : LoopInput) :
    Measured (s.noteArrival input).timeStartMeasurement
      (history ++ .reading false :: s.startNow input) := by
  rw [ScanState.noteArrival_timeStart, ScanState.startNow]
  by_cases hmoving : s.gantryWasMoving = true
  · rw [if_pos hmoving, if_pos hmoving]
    exact ⟨history, [], rfl, hrequest, nofun⟩
  · rw [if_neg hmoving, if_neg hmoving]
    obtain ⟨before, after, rfl, hbefore, hafter⟩ := h.resolve_left hmoving
    refine ⟨before, after ++ [.reading false], by simp, hbefore, ?_⟩
    intro o ho
    rcases List.mem_append.mp ho with ho | ho
    · exact hafter o ho
    · exact List.mem_singleton.mp ho

/-- A run that has been begun anew, or is not going on. -/
theorem ScanRun.Measures.ofNot {r : ScanRun} (h : r.state.calledBor = false) : r.Measures where
  lower hbor := absurd (h.symm.trans hbor) Bool.false_ne_true
  requested hbor := absurd (h.symm.trans hbor) Bool.false_ne_true
  undisturbed hbor := absurd (h.symm.trans hbor) Bool.false_ne_true

/-- An iteration keeps the meaning of the flag. -/
theorem ScanRun.Measures.frontendLoop {s : ScanState} {history : List Observation}
    (h : Measures ⟨s, history⟩) (input : LoopInput) :
    Measures ⟨s.frontendLoop input, history ++ s.observes input⟩ := by
  have hiteration := s.iteration input
  generalize s.frontendLoop input = after at hiteration ⊢
  generalize s.observes input = observed at hiteration ⊢
  cases hiteration with
  | skipped _ =>
      rw [List.append_nil]
      exact h
  | moving hon =>
      have hold {time : Int} (hmem : .requestMove time ∈ history ++ [.reading true]) :
          .requestMove time ∈ history := by
        simpa using hmem
      exact
        { lower := h.lower
          requested := fun hbor ⟨time, hmem⟩ => h.requested hbor ⟨time, hold hmem⟩
          undisturbed := fun _ _ => .inl rfl }
  | waiting hon _ =>
      have hold {time : Int}
          (hmem : .requestMove time ∈ history ++ .reading false :: s.startNow input) :
          .requestMove time ∈ history :=
        (List.mem_append.mp hmem).resolve_right (ScanState.requestMove_notMem_startNow s input time)
      constructor
      · intro _
        rw [ScanState.noteArrival_currentPoint]
        exact h.lower hon
      · rintro - ⟨time, hmem⟩
        rw [ScanState.noteArrival_currentPoint]
        exact h.requested hon ⟨time, hold hmem⟩
      · rintro - ⟨time, hmem⟩
        have hold : ∃ time, .requestMove time ∈ history := ⟨time, hold hmem⟩
        exact .inr ((h.undisturbed hon hold).noteArrival hold input)
  | stopped _ => exact .ofNot rfl
  | requested hon _ _ =>
      have hlower : -1 ≤ s.currentPoint := h.lower hon
      have hpoint : (s.noteArrival input).moveToNext.currentPoint = s.currentPoint + 1 :=
        congrArg (· + 1) (ScanState.noteArrival_currentPoint s input)
      constructor
      · intro _
        show -1 ≤ (s.noteArrival input).moveToNext.currentPoint
        omega
      · rintro - -
        show 0 ≤ (s.noteArrival input).moveToNext.currentPoint
        omega
      · exact fun _ _ => .inl rfl

theorem ScanRun.Measures.apply {r : ScanRun} (h : r.Measures) (event : ScanEvent) :
    (r.apply event).Measures := by
  cases event with
  | beginOfRun set =>
      exact
        { lower := fun _ => Int.le_refl _
          requested := fun _ ⟨_, hmem⟩ => absurd hmem List.not_mem_nil
          undisturbed := fun _ ⟨_, hmem⟩ => absurd hmem List.not_mem_nil }
  | endOfRun => exact .ofNot rfl
  | setRunning running => exact { h with }
  | frontendLoop input => exact h.frontendLoop input

/-- **Every point is measured undisturbed before the next move.**  In every run of the
front end, at every request of a move other than the first one of its run: after the
last request before it a measurement has been started, in an iteration that read that
the gantry was at rest, at least the `float` sum of the scan time and a second earlier,
which is the exact sum if that is a `float`; there has been no other measurement since,
and every reading since has been that the gantry is at rest. -/
theorem measured_before_move (events : List ScanEvent) (input : LoopInput) (time : Int)
    (hscan : 0 ≤ (exec ScanRun.apply .init events).state.scanTime)
    (hrequest : .requestMove time ∈ (exec ScanRun.apply .init events).state.observes input)
    (hlater : ∃ t, .requestMove t ∈ (exec ScanRun.apply .init events).history) :
    let r := exec ScanRun.apply .init events
    ∃ (before : List Observation) (start : Int) (after : List Observation),
      r.history ++ r.state.observes input =
        before ++ .reading false :: .startMeasurement start :: after ++ [.requestMove time] ∧
      (∃ t, .requestMove t ∈ before) ∧
      (∀ o ∈ after, o = .reading false) ∧
      (start : Rat) + floatAdd r.state.scanTime 1000 * 1000000 ≤ time ∧
      (Fits 24 (r.state.scanTime + 1000) →
        (start : Rat) + (r.state.scanTime + 1000) * 1000000 ≤ time) := by
  intro r
  have hmeasures : r.Measures :=
    exec_invariant ScanRun.apply (fun _ event h => h.apply event) events (.ofNot rfl)
  have hiteration := r.state.iteration input
  change .requestMove time ∈ r.state.observes input at hrequest
  generalize r.state.observes input = observed at hrequest hiteration ⊢
  generalize r.state.frontendLoop input = next at hiteration
  cases hiteration with
  | skipped _ => cases hrequest
  | moving _ => simp at hrequest
  | waiting _ _ => exact absurd hrequest (ScanState.requestMove_notMem_startNow r.state input time)
  | stopped _ => exact absurd hrequest (ScanState.requestMove_notMem_startNow r.state input time)
  | requested hon hdone _ =>
      have htime : time = input.checkTime := by
        rcases List.mem_append.mp hrequest with hstart | hmove
        · exact absurd hstart (ScanState.requestMove_notMem_startNow r.state input time)
        · exact Observation.requestMove.inj (List.mem_singleton.mp hmove)
      obtain ⟨before, after, hhistory, hbefore, hafter⟩ :=
        (hmeasures.undisturbed hon hlater).noteArrival hlater input
      -- this is not the first request, so the measurement has been completed
      have hpoint : ¬r.state.currentPoint < 0 := not_lt.mpr (hmeasures.requested hon hlater)
      have hcomplete : (r.state.noteArrival input).measurementComplete input.checkTime = true := by
        simpa [ScanState.pointDone, hpoint] using hdone
      have helapsed := ScanState.measurementComplete_elapsed (by
        rw [ScanState.noteArrival_scanTime]
        exact hscan) hcomplete
      rw [ScanState.noteArrival_scanTime] at helapsed
      have hlasts : ((r.state.noteArrival input).timeStartMeasurement : Rat) +
          floatAdd r.state.scanTime 1000 * 1000000 ≤ time := by
        rw [htime]
        push_cast at helapsed
        linarith
      refine ⟨before, (r.state.noteArrival input).timeStartMeasurement, after, ?_, hbefore,
        hafter, hlasts, fun hfits => ?_⟩
      · rw [htime, ← hhistory, List.append_assoc]
      · rw [← floatAdd_of_fits hfits]
        exact hlasts

/-- Two points, the first one measured for six seconds after a disturbance. -/
def disturbedScan : List ScanEvent :=
  [ .beginOfRun ⟨10, (50, 50), (0, 20), 5000⟩
  , .frontendLoop ⟨false, 0, 0⟩
  , .frontendLoop ⟨false, 1000000000, 1000000000⟩
  , .frontendLoop ⟨true, 0, 0⟩
  , .frontendLoop ⟨false, 3000000000, 3000000000⟩ ]

/-- The move to the second point is requested six seconds after the second start. -/
theorem measured_before_move_disturbed :
    let r := exec ScanRun.apply .init disturbedScan
    ∃ (before : List Observation) (start : Int) (after : List Observation),
      r.history ++ r.state.observes ⟨false, 0, 9000000000⟩ =
        before ++ .reading false :: .startMeasurement start :: after ++
          [.requestMove 9000000000] ∧
      (∃ t, .requestMove t ∈ before) ∧
      (∀ o ∈ after, o = .reading false) ∧
      (start : Rat) + floatAdd r.state.scanTime 1000 * 1000000 ≤ (9000000000 : Int) ∧
      (Fits 24 (r.state.scanTime + 1000) →
        (start : Rat) + (r.state.scanTime + 1000) * 1000000 ≤ (9000000000 : Int)) :=
  measured_before_move disturbedScan ⟨false, 0, 9000000000⟩ 9000000000 (by decide +kernel)
    (by decide +kernel) ⟨0, by decide +kernel⟩

/-- Two points; the scan time in milliseconds is the last odd `float` but one, and its sum
with 1000 lies half way between two `float`s. -/
def longScan : List ScanEvent :=
  [ .beginOfRun ⟨10, (50, 50), (0, 20), 16777213⟩
  , .frontendLoop ⟨false, 0, 0⟩
  , .frontendLoop ⟨true, 0, 0⟩
  , .frontendLoop ⟨false, 0, 0⟩ ]

/-- The move to the second point of `longScan` is requested 16778212 milliseconds after the
only start of a measurement, which is one millisecond less than the scan time and a second. -/
theorem measured_too_briefly :
    let r := exec ScanRun.apply .init longScan
    let input : LoopInput := ⟨false, 16778212000000, 16778212000000⟩
    0 ≤ r.state.scanTime ∧ .requestMove 16778212000000 ∈ r.state.observes input ∧
      (∃ t, .requestMove t ∈ r.history) ∧
      ¬∃ (before : List Observation) (start : Int) (after : List Observation),
        r.history ++ r.state.observes input =
          before ++ .reading false :: .startMeasurement start :: after ++
            [.requestMove 16778212000000] ∧
        (∃ t, .requestMove t ∈ before) ∧
        (∀ o ∈ after, o = .reading false) ∧
        (start : Rat) + (r.state.scanTime + 1000) * 1000000 ≤ (16778212000000 : Int) := by
  have hhistory : (exec ScanRun.apply .init longScan).history ++
      (exec ScanRun.apply .init longScan).state.observes
        ⟨false, 16778212000000, 16778212000000⟩ =
      [.reading false, .requestMove 0, .reading true, .reading false, .startMeasurement 0,
        .reading false, .requestMove 16778212000000] := by
    decide +kernel
  have hscan : (exec ScanRun.apply .init longScan).state.scanTime = 16777213 := by
    decide +kernel
  refine ⟨by decide +kernel, by decide +kernel, ⟨0, by decide +kernel⟩, ?_⟩
  rintro ⟨before, start, after, hsplit, -, -, hlasts⟩
  have hstart : .startMeasurement start ∈
      (exec ScanRun.apply .init longScan).history ++
        (exec ScanRun.apply .init longScan).state.observes
          ⟨false, 16778212000000, 16778212000000⟩ := by
    rw [hsplit]
    simp
  have hzero : start = 0 := by simpa [hhistory] using hstart
  rw [hzero, hscan] at hlasts
  norm_num at hlasts

end MpmtTestStand.Ports
