import MpmtTestStand.Ports.Payloads
import MpmtTestStand.Ports.SerialSession

/-!
# The application layer: `TestStandComm`, `TestStandCommHost`, `TestStandCommController`

Most functions of the host send a request and, unless its acknowledgement is all
there is to it, wait for one response (`exchange`).  The functions of the
controller send responses and decode requests.
-/

namespace MpmtTestStand.Ports

open MpmtTestStand.Verified

variable {A : Sig}

/-! ## `TestStandComm` -/

namespace TestStandComm

/-- `TestStandComm::send_basic_msg` -/
def sendBasicMsg (id : UInt8) : LinkProg A SerialResult := SerialSession.sendMessage (.basic id)

/-- `TestStandComm::ping` -/
def ping : LinkProg A SerialResult := sendBasicMsg msgIdPing

/-- The message of `TestStandComm::echo` -/
def echoPacket (data : List UInt8) (fits : data.length < 256) : Packet :=
  ⟨msgIdEcho, data, fits⟩

/-- `TestStandComm::echo` -/
def echo (data : List UInt8) (fits : data.length < 256) : LinkProg A SerialResult :=
  SerialSession.sendMessage (echoPacket data fits)

/-- The answer to an ECHO: the same data under another identifier. -/
def echoedPacket (p : Packet) : Packet := { p with id := msgIdEchoed }

/-- `TestStandComm::recv_echo` -/
def recvEcho : LinkProg A SerialResult := do
  let r ← look
  SerialSession.sendMessage (echoedPacket r.msg.packet)

/-- `TestStandComm::recv_message` -/
def recvMessage (expectId expectLength : UInt8) (timeoutMs : UInt32) :
    LinkProg A SerialResult := do
  let res ← SerialSession.recvMessage timeoutMs
  if res ≠ .ok then return res
  let r ← look
  if r.msg.id ≠ expectId then return .errWrongMsg
  if r.msg.length ≠ expectLength then return .errDataLength
  return .ok

end TestStandComm

/-! ## Calls of the host -/

/-- What a call hands to its caller besides the result code.  Enumerations are
the byte that was received, cast to the type. -/
inductive HostValue
  | none
  | status (raw : UInt8)
  | axisResult (raw : UInt8)
  | position (d : PositionMsgData)
  | temp (d : TempMsgData)
  | axisState (raw : List UInt8)
  deriving DecidableEq, Repr

/-- Programs of the host. -/
abbrev HostProg : Type := LinkProg noOps (SerialResult × HostValue)

/-- Send `request`; the acknowledgement is the answer. -/
def sendOnly (request : Packet) : HostProg := do
  let res ← SerialSession.sendMessage request
  return (res, .none)

/-- The response that a call waits for, and what it makes of it. -/
structure Response where
  id : UInt8
  length : UInt8
  timeoutMs : UInt32
  result : ReceivedMessage → SerialResult × HostValue

/-- Send `request` and wait for the response. -/
def exchange (request : Packet) (response : Response) : HostProg := do
  let res ← SerialSession.sendMessage request
  if res ≠ .ok then return (res, .none)
  let res ← TestStandComm.recvMessage response.id response.length response.timeoutMs
  if res ≠ .ok then return (res, .none)
  let r ← look
  return response.result r.msg

namespace TestStandComm

/-- Every byte value below `MSG_DATA_LENGTH_MAX`. -/
def linkCheckData : List UInt8 := (List.range msgDataLengthMax).map UInt8.ofNat

theorem linkCheckData_length_eq : linkCheckData.length = msgDataLengthMax := by
  rw [linkCheckData, List.length_map, List.length_range]

theorem linkCheckData_length : linkCheckData.length < 256 := by
  rw [linkCheckData_length_eq]
  decide

/-- The response to the ECHO of a link check. -/
def linkCheckResponse (timeoutMs : UInt32) : Response where
  id := msgIdEchoed
  length := 0xFF
  timeoutMs := timeoutMs
  result msg :=
    if msg.data.toList ≠ linkCheckData then (.errDataCorrupt, .none) else (.ok, .none)

/-- `TestStandComm::link_check` -/
def linkCheck (timeoutMs : UInt32) : HostProg :=
  exchange (echoPacket linkCheckData linkCheckData_length) (linkCheckResponse timeoutMs)

end TestStandComm

namespace TestStandCommHost

def statusResponse (timeoutMs : UInt32) : Response :=
  ⟨msgIdStatus, 1, timeoutMs, fun msg => (.ok, .status (msg.data.toList.getD 0 0))⟩

/-- `TestStandCommHost::get_status` -/
def getStatus (timeoutMs : UInt32) : HostProg :=
  exchange (.basic msgIdGetStatus) (statusResponse timeoutMs)

/-- `TestStandCommHost::home` -/
def home : HostProg := sendOnly (.basic msgIdHome)

/-- The message of `TestStandCommHost::move` -/
def movePacket (axis : AxisId) (dir : AxisDirection) (velHold distCounts : UInt32) : Packet where
  id := msgIdMove
  payload := MoveMsgData.toBytes ⟨velHold, distCounts, axis.toByte, dir.toByte⟩
  fits := by rw [MoveMsgData.toBytes_length]; decide

def axisResultResponse (timeoutMs : UInt32) : Response :=
  ⟨msgIdAxisResult, 1, timeoutMs, fun msg => (.ok, .axisResult (msg.data.toList.getD 0 0))⟩

/-- `TestStandCommHost::move` -/
def move (axis : AxisId) (dir : AxisDirection) (velHold distCounts timeoutMs : UInt32) :
    HostProg :=
  exchange (movePacket axis dir velHold distCounts) (axisResultResponse timeoutMs)

/-- `TestStandCommHost::stop` -/
def stop : HostProg := sendOnly (.basic msgIdStop)

def positionResponse (timeoutMs : UInt32) : Response :=
  ⟨msgIdPosition, PositionMsgData.size, timeoutMs,
    fun msg => (.ok, .position (.ofBytes msg.data.toList))⟩

/-- `TestStandCommHost::get_position` -/
def getPosition (timeoutMs : UInt32) : HostProg :=
  exchange (.basic msgIdGetPosition) (positionResponse timeoutMs)

def tempResponse (timeoutMs : UInt32) : Response :=
  ⟨msgIdTemp, TempMsgData.size, timeoutMs, fun msg => (.ok, .temp (.ofBytes msg.data.toList))⟩

/-- `TestStandCommHost::get_temp`, before the temperatures are scaled back. -/
def getTemp (timeoutMs : UInt32) : HostProg :=
  exchange (.basic msgIdGetTemp) (tempResponse timeoutMs)

def axisStateResponse (timeoutMs : UInt32) : Response :=
  ⟨msgIdAxisState, stateMsgDataSize, timeoutMs,
    fun msg => (.ok, .axisState (msg.data.toList.take stateMsgDataSize.toNat))⟩

/-- `TestStandCommHost::get_axis_state` -/
def getAxisState (timeoutMs : UInt32) : HostProg :=
  exchange (.basic msgIdGetAxisState) (axisStateResponse timeoutMs)

/-- The message of `TestStandCommHost::calibrate` -/
def calibratePacket (key : CalibrationKey) (value : UInt64) : Packet where
  id := msgIdCalibrate
  payload := key.toByte :: key.valueBytes value
  fits := by
    have := key.valueBytes_length value
    rw [List.length_cons]
    omega

/-- `TestStandCommHost::calibrate` -/
def calibrate (key : CalibrationKey) (value : UInt64) : HostProg :=
  sendOnly (calibratePacket key value)

end TestStandCommHost

/-- A call of the host application layer. -/
inductive HostCall
  | ping
  | echo (data : List UInt8) (fits : data.length < 256)
  | linkCheck (timeoutMs : UInt32)
  | getStatus (timeoutMs : UInt32)
  | home
  | move (axis : AxisId) (dir : AxisDirection) (velHold distCounts timeoutMs : UInt32)
  | stop
  | getPosition (timeoutMs : UInt32)
  | getTemp (timeoutMs : UInt32)
  | getAxisState (timeoutMs : UInt32)
  | calibrate (key : CalibrationKey) (value : UInt64)
  deriving Repr

namespace HostCall

/-- The program of a call. -/
def prog : HostCall → HostProg
  | .ping => do return (← TestStandComm.ping, .none)
  | .echo data fits => do return (← TestStandComm.echo data fits, .none)
  | .linkCheck timeoutMs => TestStandComm.linkCheck timeoutMs
  | .getStatus timeoutMs => TestStandCommHost.getStatus timeoutMs
  | .home => TestStandCommHost.home
  | .move axis dir velHold distCounts timeoutMs =>
      TestStandCommHost.move axis dir velHold distCounts timeoutMs
  | .stop => TestStandCommHost.stop
  | .getPosition timeoutMs => TestStandCommHost.getPosition timeoutMs
  | .getTemp timeoutMs => TestStandCommHost.getTemp timeoutMs
  | .getAxisState timeoutMs => TestStandCommHost.getAxisState timeoutMs
  | .calibrate key value => TestStandCommHost.calibrate key value

/-- The message that a call sends. -/
def request : HostCall → Packet
  | .ping => .basic msgIdPing
  | .echo data fits => TestStandComm.echoPacket data fits
  | .linkCheck _ =>
      TestStandComm.echoPacket TestStandComm.linkCheckData TestStandComm.linkCheckData_length
  | .getStatus _ => .basic msgIdGetStatus
  | .home => .basic msgIdHome
  | .move axis dir velHold distCounts _ =>
      TestStandCommHost.movePacket axis dir velHold distCounts
  | .stop => .basic msgIdStop
  | .getPosition _ => .basic msgIdGetPosition
  | .getTemp _ => .basic msgIdGetTemp
  | .getAxisState _ => .basic msgIdGetAxisState
  | .calibrate key value => TestStandCommHost.calibratePacket key value

/-- The response that a call waits for, if any. -/
def response : HostCall → Option Response
  | .linkCheck timeoutMs => some (TestStandComm.linkCheckResponse timeoutMs)
  | .getStatus timeoutMs => some (TestStandCommHost.statusResponse timeoutMs)
  | .move _ _ _ _ timeoutMs => some (TestStandCommHost.axisResultResponse timeoutMs)
  | .getPosition timeoutMs => some (TestStandCommHost.positionResponse timeoutMs)
  | .getTemp timeoutMs => some (TestStandCommHost.tempResponse timeoutMs)
  | .getAxisState timeoutMs => some (TestStandCommHost.axisStateResponse timeoutMs)
  | _ => none

/-- Every call sends one request and waits for one response or for none. -/
theorem prog_eq (c : HostCall) :
    c.prog = match c.response with
      | none => sendOnly c.request
      | some response => exchange c.request response := by
  cases c <;> rfl

/-- No request looks like an acknowledgement. -/
theorem request_id (c : HostCall) : ¬(c.request.id = msgIdAck ∨ c.request.id = msgIdNack) := by
  cases c <;>
    simp only [request, Packet.basic, TestStandComm.echoPacket, TestStandCommHost.movePacket,
      TestStandCommHost.calibratePacket] <;>
    decide

end HostCall

/-! ## `TestStandCommController` -/

namespace TestStandCommController

/-- The message of `TestStandCommController::status` -/
def statusPacket (status : Status) : Packet := ⟨msgIdStatus, [status.toByte], by simp⟩

/-- The message of `TestStandCommController::position` -/
def positionPacket (d : PositionMsgData) : Packet where
  id := msgIdPosition
  payload := d.toBytes
  fits := by rw [d.toBytes_length]; decide

/-- The message of `TestStandCommController::temp` -/
def tempPacket (d : TempMsgData) : Packet where
  id := msgIdTemp
  payload := d.toBytes
  fits := by rw [d.toBytes_length]; decide

/-- The message of `TestStandCommController::axis_result` -/
def axisResultPacket (result : AxisResult) : Packet :=
  ⟨msgIdAxisResult, [result.toByte], by simp⟩

/-- `TestStandCommController::status` -/
def status (status : Status) : LinkProg A SerialResult :=
  SerialSession.sendMessage (statusPacket status)

/-- `TestStandCommController::position` -/
def position (d : PositionMsgData) : LinkProg A SerialResult :=
  SerialSession.sendMessage (positionPacket d)

/-- `TestStandCommController::temp` -/
def temp (d : TempMsgData) : LinkProg A SerialResult := SerialSession.sendMessage (tempPacket d)

/-- `TestStandCommController::axis_result` -/
def axisResult (result : AxisResult) : LinkProg A SerialResult :=
  SerialSession.sendMessage (axisResultPacket result)

/-- `TestStandCommController::recv_move`; `none` stands for returning `false`. -/
def recvMove (msg : ReceivedMessage) : Option MoveMsgData :=
  if msg.length ≠ MoveMsgData.size then none else some (.ofBytes msg.data.toList)

/-- `recv_move` in terms of the payload. -/
theorem recvMove_payload (msg : ReceivedMessage) :
    recvMove msg =
      if msg.packet.payload.length ≠ MoveMsgData.size.toNat then none
      else some (.ofBytes msg.packet.payload) := by
  have hlength : msg.packet.payload.length = msg.length.toNat := by
    rw [msg.length_eq, Packet.length_toNat]
  unfold recvMove
  by_cases hsize : msg.length = MoveMsgData.size
  · have hpayload : msg.packet.payload = msg.data.toList.take 10 := by
      rw [ReceivedMessage.packet_payload, hsize]
      rfl
    rw [if_neg (not_not.mpr hsize), if_neg (by rw [hlength, hsize]; exact not_not.mpr rfl),
      hpayload, MoveMsgData.ofBytes_take]
  · rw [if_pos hsize, if_pos]
    rw [hlength]
    exact fun heq => hsize (UInt8.toNat_inj.mp heq)

/-- `TestStandCommController::recv_calibrate`; `none` stands for returning `false`,
which leaves the calibration alone. -/
def recvCalibrate (msg : ReceivedMessage) (cal : Calibration) : Option Calibration :=
  if msg.length < 1 then none else cal.extract msg.data.toList

end TestStandCommController

end MpmtTestStand.Ports
