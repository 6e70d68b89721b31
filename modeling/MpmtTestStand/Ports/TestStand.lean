import MpmtTestStand.Ports.AxisInvariant
import MpmtTestStand.Ports.TestStandComm

/-!
# The controller's main program: `mPMTTestStand`

`setup` and `execute` as programs.  Besides communicating, the main program reads
and writes its own variables, reads the state of the axes and calls the axis
functions; each of these is one operation (`StandOp`), so that interrupts can
come between any two of them.

The switch of `execute` on the identifier of a received message is an operation
of its own, `dispatch`: it has no effect and marks the moment at which a message
is dispatched.  C++ leaves open which argument of a call is evaluated first; where
this matters, the answer to `firstArgument` is the choice.
-/

namespace MpmtTestStand.Ports

open MpmtTestStand.Verified

/-! ## Operations -/

/-- What the main program does besides communicating.  The axis of `axis_start`
is cast from a message byte. -/
inductive StandOp
  | dispatch (p : Packet)
  | axisSetup (id : AxisId) (io : AxisIO) (mech : AxisMech)
  | axisStart (axis : UInt8) (motion : AxisMotionSpec)
  | axisStop (id : AxisId)
  | axisReset (id : AxisId)
  | moving (id : AxisId)
  | lsHomePressed (id : AxisId)
  | lsFarPressed (id : AxisId)
  | encoderCurrent (id : AxisId)
  | getStatus
  | setStatus (status : Status)
  | getHomeADone
  | setHomeADone (done : Bool)
  | getCal
  | setCal (cal : Calibration)
  | readTempData
  | firstArgument
  deriving DecidableEq, Repr

/-- The answer to each operation. -/
abbrev StandOp.Res : StandOp → Type
  | .axisStart _ _ => AxisResult
  | .moving _ => Bool
  | .lsHomePressed _ => Bool
  | .lsFarPressed _ => Bool
  | .encoderCurrent _ => Int32
  | .getStatus => Status
  | .getHomeADone => Bool
  | .getCal => Calibration
  | .readTempData => TempMsgData
  | .firstArgument => AxisId
  | _ => Unit

/-- The operations of the main program. -/
abbrev standSig : Sig := ⟨StandOp, StandOp.Res⟩

/-- Programs of the controller. -/
abbrev StandProg (α : Type) : Type := LinkProg standSig α

/-- Perform an operation of the main program. -/
def stand (o : StandOp) : StandProg o.Res := .op (.act o) .ret

/-- The axes and the variables of the main program. -/
structure TestStand where
  axisX : Axis
  axisY : Axis
  status : Status
  homeADone : Bool
  cal : Calibration
  deriving DecidableEq, Repr

/-- What the main program finds outside of the test stand: the temperatures that the
thermistors show, and the axis whose argument is evaluated first. -/
structure Outside where
  temp : TempMsgData
  first : AxisId
  deriving DecidableEq, Repr

/-- `default_calibration`; the temperature constants are the representations of
0.001127354682, 0.0002343978227, 0.00000008674847738 and 10000.0. -/
def defaultCalibration : Calibration where
  accel := 10
  velStart := 1
  velHome := 75
  c1 := 0x3F527877DF5F2656
  c2 := 0x3F2EB915F72B059E
  c3 := 0x3E77494F5A674D79
  resistor := 0x40C3880000000000

namespace TestStand

/-- The constructor `mPMTTestStand`. -/
def init (cal : Calibration) : TestStand := ⟨.zero, .zero, .idle, false, cal⟩

/-- `get_axis` -/
def axis (s : TestStand) : AxisId → Axis
  | .x => s.axisX
  | .y => s.axisY

def setAxis (s : TestStand) (id : AxisId) (axis : Axis) : TestStand :=
  match id with
  | .x => { s with axisX := axis }
  | .y => { s with axisY := axis }

@[simp] theorem axis_setAxis (s : TestStand) (id : AxisId) (axis : Axis) :
    (s.setAxis id axis).axis id = axis := by
  cases id <;> rfl

theorem axis_setAxis_ne (s : TestStand) {id id' : AxisId} (axis : Axis) (h : id' ≠ id) :
    (s.setAxis id axis).axis id' = s.axis id' := by
  cases id <;> cases id' <;> first | rfl | exact absurd rfl h

@[simp] theorem status_setAxis (s : TestStand) (id : AxisId) (axis : Axis) :
    (s.setAxis id axis).status = s.status := by
  cases id <;> rfl

@[simp] theorem homeADone_setAxis (s : TestStand) (id : AxisId) (axis : Axis) :
    (s.setAxis id axis).homeADone = s.homeADone := by
  cases id <;> rfl

@[simp] theorem cal_setAxis (s : TestStand) (id : AxisId) (axis : Axis) :
    (s.setAxis id axis).cal = s.cal := by
  cases id <;> rfl

@[simp] theorem axis_setStatus (s : TestStand) (status : Status) (id : AxisId) :
    ({ s with status := status } : TestStand).axis id = s.axis id := by
  cases id <;> rfl

@[simp] theorem axis_setHomeADone (s : TestStand) (done : Bool) (id : AxisId) :
    ({ s with homeADone := done } : TestStand).axis id = s.axis id := by
  cases id <;> rfl

/-- The effect of an operation and its answer.  Starting an axis that does not exist
has no defined effect: `get_axis` returns a null pointer. -/
def perform (s : TestStand) (around : Outside) : (o : StandOp) → Option (o.Res × TestStand)
  | .dispatch _ => some ((), s)
  | .axisSetup id io mech => some ((), s.setAxis id ((s.axis id).setupAxis io mech))
  | .axisStart raw motion =>
      match AxisId.ofByte? raw with
      | some id =>
          let started := (s.axis id).startAxis motion
          some (started.1, s.setAxis id started.2)
      | none => none
  | .axisStop id => some ((), s.setAxis id (s.axis id).stopAxis)
  | .axisReset id => some ((), s.setAxis id (s.axis id).resetAxis)
  | .moving id => some ((s.axis id).state.moving, s)
  | .lsHomePressed id => some ((s.axis id).state.lsHomePressed, s)
  | .lsFarPressed id => some ((s.axis id).state.lsFarPressed, s)
  | .encoderCurrent id => some ((s.axis id).state.encoderCurrent, s)
  | .getStatus => some (s.status, s)
  | .setStatus status => some ((), { s with status := status })
  | .getHomeADone => some (s.homeADone, s)
  | .setHomeADone done => some ((), { s with homeADone := done })
  | .getCal => some (s.cal, s)
  | .setCal cal => some ((), { s with cal := cal })
  | .readTempData => some (around.temp, s)
  | .firstArgument => some (around.first, s)

end TestStand

/-! ## Handlers -/

namespace MPMTTestStand

/-- `INT32_MAX` -/
def int32Max : UInt32 := 0x7FFFFFFF

/-- `axis_start` on an axis known by name. -/
def axisStart (id : AxisId) (motion : AxisMotionSpec) : StandProg AxisResult :=
  stand (.axisStart id.toByte motion)

/-- The motion of either part of the homing routine. -/
def homingMotion (dir : AxisDirection) (cal : Calibration) : AxisMotionSpec where
  dir := dir
  totalCounts := int32Max
  accel := cal.accel
  velStart := cal.velStart
  velHold := cal.velHome

/-- `handle_echo` -/
def handleEcho : StandProg Unit := do
  let _ ← TestStandComm.recvEcho

/-- `handle_home_a` -/
def handleHomeA : StandProg Unit := do
  let cal ← stand .getCal
  let _ ← axisStart .x (homingMotion .negative cal)
  let _ ← axisStart .y (homingMotion .negative cal)
  stand (.setHomeADone false)
  stand (.setStatus .homing)

/-- `handle_home_b` -/
def handleHomeB : StandProg Unit := do
  let cal ← stand .getCal
  let _ ← axisStart .x (homingMotion .positive cal)
  let _ ← axisStart .y (homingMotion .positive cal)
  stand (.setHomeADone true)
  stand (.setStatus .homing)

/-- The motion that a MOVE asks for. -/
def moveMotion (data : MoveMsgData) (cal : Calibration) : AxisMotionSpec where
  dir := .ofByte data.dir
  totalCounts := data.distCounts
  accel := cal.accel
  velStart := cal.velStart
  velHold := data.velHold

/-- `handle_move` -/
def handleMove : StandProg Unit := do
  let r ← look
  match TestStandCommController.recvMove r.msg with
  | some data =>
      let cal ← stand .getCal
      let res ← stand (.axisStart data.axis (moveMotion data cal))
      if res = .ok then stand (.setStatus .moving)
      let _ ← TestStandCommController.axisResult res
  | none =>
      let _ ← TestStandCommController.axisResult .errInvalid

/-- `handle_stop` -/
def handleStop : StandProg Unit := do
  stand (.axisStop .x)
  stand (.axisStop .y)
  stand (.setStatus .idle)

/-- `handle_get_status` -/
def handleGetStatus : StandProg Unit := do
  let status ← stand .getStatus
  let _ ← TestStandCommController.status status

/-- `handle_get_position`; the two counters are the arguments of one call. -/
def handleGetPosition : StandProg Unit := do
  match ← stand .firstArgument with
  | .x =>
      let xCounts ← stand (.encoderCurrent .x)
      let yCounts ← stand (.encoderCurrent .y)
      let _ ← TestStandCommController.position ⟨xCounts, yCounts⟩
  | .y =>
      let yCounts ← stand (.encoderCurrent .y)
      let xCounts ← stand (.encoderCurrent .x)
      let _ ← TestStandCommController.position ⟨xCounts, yCounts⟩

/-- `handle_get_axis_state` has no body. -/
def handleGetAxisState : StandProg Unit := return ()

/-- `handle_get_temp` -/
def handleGetTemp : StandProg Unit := do
  let temp ← stand .readTempData
  let _ ← TestStandCommController.temp temp

/-- `handle_calibrate` -/
def handleCalibrate : StandProg Unit := do
  let r ← look
  let cal ← stand .getCal
  match TestStandCommController.recvCalibrate r.msg cal with
  | some cal => stand (.setCal cal)
  | none => return ()

/-- The handler for an identifier. -/
def handle (id : UInt8) : StandProg Unit :=
  if id = msgIdEcho then handleEcho
  else if id = msgIdHome then handleHomeA
  else if id = msgIdMove then handleMove
  else if id = msgIdStop then handleStop
  else if id = msgIdGetStatus then handleGetStatus
  else if id = msgIdGetPosition then handleGetPosition
  else if id = msgIdGetAxisState then handleGetAxisState
  else if id = msgIdGetTemp then handleGetTemp
  else if id = msgIdCalibrate then handleCalibrate
  else return ()

/-! ## `execute` -/

/-- `x_state->moving || y_state->moving` -/
def anyMoving : StandProg Bool := stand (.moving .x) <||> stand (.moving .y)

/-- The limit switches that `execute` looks at when a motion is over.  The last
operand is the far switch of the X axis once more. -/
def anyLsPressed : StandProg Bool :=
  stand (.lsHomePressed .x) <||> stand (.lsFarPressed .x) <||>
    stand (.lsHomePressed .y) <||> stand (.lsFarPressed .x)

/-- The first part of `execute`: update the status. -/
def updateStatus : StandProg Unit := do
  match ← stand .getStatus with
  | .idle => return ()
  | .moving =>
      if ← anyMoving then stand (.setStatus .moving)
      else if ← anyLsPressed then stand (.setStatus .fault)
      else stand (.setStatus .idle)
  | .homing =>
      if !(← stand .getHomeADone) then
        if ← anyMoving then stand (.setStatus .homing)
        else if ← stand (.lsHomePressed .x) <&&> stand (.lsHomePressed .y) then handleHomeB
        else stand (.setStatus .fault)
      else
        if ← anyMoving then stand (.setStatus .homing)
        else
          stand (.axisReset .x)
          stand (.axisReset .y)
          stand (.setStatus .idle)
          stand (.setHomeADone false)
  | .fault => return ()

/-- The second part of `execute`, once `check_for_message` has returned. -/
def serve (res : SerialResult) : StandProg Unit :=
  if res = .ok then do
    let r ← look
    stand (.dispatch r.msg.packet)
    handle r.msg.id
  else return ()

/-- `mPMTTestStand::execute` -/
def execute : StandProg Unit := do
  updateStatus
  serve (← SerialSession.checkForMessage)

/-! ## The main loop -/

/-- The loop that the controller is in. -/
inductive Phase
  /-- the loop of `setup` that waits for the host -/
  | connecting
  /-- the calls of `execute` -/
  | running
  deriving DecidableEq, Repr

/-- The parts of the configuration that `setup` passes on. -/
structure Config where
  ioAxisX : AxisIO
  ioAxisY : AxisIO
  axisMech : AxisMech
  deriving DecidableEq, Repr

/-- `conf` -/
def conf : Config := ⟨⟨.low, .low⟩, ⟨.low, .low⟩, ⟨500, 800⟩⟩

/-- One round of the loop of `setup`. -/
def connect : StandProg Phase := do
  if (← TestStandComm.ping) = .ok then
    stand (.setStatus .idle)
    return .running
  else return .connecting

/-- `mPMTTestStand::setup`, with the first round of its loop. -/
def setup (conf : Config) : StandProg Phase := do
  stand (.axisSetup .x conf.ioAxisX conf.axisMech)
  stand (.axisSetup .y conf.ioAxisY conf.axisMech)
  connect

/-- One round of the loop. -/
def Phase.prog : Phase → StandProg Phase
  | .connecting => connect
  | .running => do
      execute
      return .running

end MPMTTestStand

/-! ## The controller -/

/-- The main program at some point, and the test stand. -/
structure Controller where
  node : Node standSig MPMTTestStand.Phase
  stand : TestStand

/-- An operation that was performed, and its answer. -/
structure Acted where
  op : StandOp
  res : op.Res

namespace Controller

/-- Perform the operation at hand. -/
def act (c : Controller) (around : Outside) : Option (Controller × Acted) :=
  match c.node.prog with
  | .op (.act o) k =>
      match c.stand.perform around o with
      | some (r, stand) => some (⟨Node.resume c.node.rx (k r), stand⟩, ⟨o, r⟩)
      | none => none
  | _ => none

/-- Begin another round of the loop. -/
def loop (c : Controller) : Option Controller :=
  match c.node.prog with
  | .ret phase => some { c with node := Node.resume c.node.rx phase.prog }
  | .op _ _ => none

/-- An interrupt handler runs. -/
def interrupt (c : Controller) (id : AxisId) (e : AxisEvent) : Option Controller :=
  if e.IsInterrupt then
    some { c with stand := c.stand.setAxis id (e.apply (c.stand.axis id)) }
  else none

end Controller

/-- The program goes on until it returns or communicates, and nothing interrupts
it. -/
def undisturbed {α : Type} (rx : Receiver) (around : Outside) :
    StandProg α → TestStand → Option (StandProg α × TestStand)
  | .op (.act o) k, s =>
      match s.perform around o with
      | some (r, s') => undisturbed rx around (k r) s'
      | none => none
  | .op .look k, s => undisturbed rx around (k rx) s
  | p, s => some (p, s)

end MpmtTestStand.Ports
