import MpmtTestStand.Verified.Rounding
import MpmtTestStand.Verified.Run
import Mathlib.Data.Rat.Floor

/-!
# The scan front end: `feScan.cxx`

`begin_of_run` lays out the scan points, `frontend_loop` is called over and
over, moves to the points one after the other and measures at each.  The
globals of the program are the fields of `ScanState`; one iteration reads the
`Moving` flag and the clock from its `LoopInput`.  Positions and the scan time
are the rationals that they denote, clock readings are in nanoseconds.  The grid is
computed exactly; the sum in `measurement_complete` is one of two `float`s and is
rounded to a `float` (`floatAdd`).

`requested` records the index of every access `gScanPoints[gbl_current_point]`;
each access is followed by a move request for the point that was read.
-/

namespace MpmtTestStand.Ports

open MpmtTestStand.Verified.Rounding MpmtTestStand.Verified.Run

/-- `gScanStatus` -/
inductive ScanStatus
  | stopped
  | started
  | moving
  | measuring
  deriving DecidableEq, Repr

/-- Globals of `feScan.cxx`, the state of the run and the accesses so far. -/
structure ScanState where
  calledBor : Bool
  gantryWasMoving : Bool
  currentPoint : Int
  newScanningPoint : Bool
  newMoveStarted : Bool
  scanPoints : List (Rat × Rat)
  scanTime : Rat
  timeStartMeasurement : Int
  scanStatus : ScanStatus
  running : Bool
  requested : List Int
  deriving DecidableEq, Repr

/-- The globals as the program starts; `frontend_init` sets the status. -/
def ScanState.init : ScanState where
  calledBor := false
  gantryWasMoving := false
  currentPoint := -1
  newScanningPoint := false
  newMoveStarted := false
  scanPoints := []
  scanTime := 0
  timeStartMeasurement := 0
  scanStatus := .stopped
  running := false
  requested := []

/-- The settings that `begin_of_run` reads from the database. -/
structure ScanSettings where
  stepSize : Rat
  startPosition : Rat × Rat
  distance : Rat × Rat
  scanTime : Rat
  deriving DecidableEq, Repr

/-! ## `begin_of_run` -/

/-- The bound on the number of scan points. -/
def maxScanPoints : Nat := 100000

/-- The loop of `begin_of_run`; `room` is how many points may still be added. -/
def scanLoop (set : ScanSettings) : Nat → Bool → Rat → Rat → List (Rat × Rat)
  | 0, _, _, _ => []
  | room + 1, movingForward, x, y =>
      if y < set.startPosition.2 + set.distance.2 then
        (x, y) ::
          if movingForward then
            if x + set.stepSize - set.startPosition.1 > set.distance.1 then
              scanLoop set room false x (y + set.stepSize)
            else scanLoop set room true (x + set.stepSize) y
          else
            if x - set.stepSize - set.startPosition.1 < 0 then
              scanLoop set room true x (y + set.stepSize)
            else scanLoop set room false (x - set.stepSize) y
      else []

/-- `gScanPoints` after the loop. -/
def scanGrid (set : ScanSettings) : List (Rat × Rat) :=
  scanLoop set maxScanPoints true set.startPosition.1 set.startPosition.2

/-- The assignments of `begin_of_run` for a given list of points.  The run is
then in state `STATE_RUNNING`. -/
def ScanState.begin (s : ScanState) (points : List (Rat × Rat)) (scanTime : Rat) :
    ScanState :=
  { s with
    scanStatus := .started
    newScanningPoint := false
    newMoveStarted := false
    scanTime := scanTime
    scanPoints := points
    currentPoint := -1
    gantryWasMoving := false
    calledBor := true
    running := true
    requested := [] }

/-- `begin_of_run` with all settings present in the database. -/
def beginOfRun (s : ScanState) (set : ScanSettings) : ScanState :=
  s.begin (scanGrid set) set.scanTime

/-- `end_of_run` -/
def endOfRun (s : ScanState) : ScanState :=
  { s with calledBor := false, gantryWasMoving := false, scanStatus := .stopped }

/-! ## `frontend_loop` -/

/-- What one iteration reads: the `Moving` flag, and the clock in
`start_measurement` and in `measurement_complete`. -/
structure LoopInput where
  moving : Bool
  startTime : Int
  checkTime : Int
  deriving DecidableEq, Repr

/-- The sum of two `float`s: the exact sum, rounded to the 24 bits of a `float`.  The
exponent need not be bounded: no `float` plus 1000 is too large or too small for one. -/
def floatAdd (x y : Rat) : Rat := roundEven 24 (x + y)

namespace ScanState

/-- `measurement_complete`; whole milliseconds, which are exact as a `double`, are
compared with a `float`. -/
def measurementComplete (s : ScanState) (now : Int) : Bool :=
  ((now - s.timeStartMeasurement).tdiv 1000000 : Rat) ≥ floatAdd s.scanTime 1000

/-- The gantry is at rest: start the measurement if it has just arrived. -/
def noteArrival (s : ScanState) (input : LoopInput) : ScanState :=
  let s :=
    if s.gantryWasMoving then
      { s with
        timeStartMeasurement := input.startTime
        scanStatus := .measuring
        newScanningPoint := true }
    else s
  { s with gantryWasMoving := false }

/-- The measurement at the current point is over, or there is none yet. -/
def pointDone (s : ScanState) (input : LoopInput) : Bool :=
  s.measurementComplete input.checkTime || decide (s.currentPoint < 0)

/-- `cm_transition(TR_STOP)` ends the run. -/
def stopRun (s : ScanState) : ScanState := endOfRun { s with running := false }

/-- Request the move to the next point; `request_move` always succeeds. -/
def moveToNext (s : ScanState) : ScanState :=
  let s := { s with currentPoint := s.currentPoint + 1 }
  { s with
    requested := s.requested ++ [s.currentPoint]
    scanStatus := .moving
    gantryWasMoving := true
    newMoveStarted := true }

/-- `frontend_loop` -/
def frontendLoop (s : ScanState) (input : LoopInput) : ScanState :=
  if ¬s.calledBor then s
  else if ¬s.running then s
  else if ¬input.moving then
    let s := s.noteArrival input
    if s.pointDone input then
      if s.currentPoint ≥ s.scanPoints.length then
        { s with currentPoint := 0 }.stopRun
      else s.moveToNext
    else s
  else { s with gantryWasMoving := true }

/-- The iteration is neither moving nor still measuring. -/
def ready (s : ScanState) (input : LoopInput) : Bool :=
  s.calledBor && s.running && !input.moving && (s.noteArrival input).pointDone input

end ScanState

end MpmtTestStand.Ports
