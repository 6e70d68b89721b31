import MpmtTestStand.Ports.Axis
import MpmtTestStand.Ports.Messages
import MpmtTestStand.Verified.BigEndian

/-!
# Payloads of the application messages

`TestStandMessages.h` and the conversions between the packed structs, in network
byte order, and their fields.  A decoder reads the receive buffer wherever the
source does, whatever the length field says.  Floating-point values are the
eight bytes of their representation.
-/

namespace MpmtTestStand.Ports

open MpmtTestStand.Verified

/-! ## Byte order -/

/-- The bytes of `htonl(v)` -/
def htonl (v : UInt32) : List UInt8 := BigEndian.encode 4 v.toNat

/-- `ntohl` of a word with these bytes -/
def ntohl (bytes : List UInt8) : UInt32 := UInt32.ofNat (BigEndian.decode bytes)

/-- The bytes of `htond(v)` -/
def htond (v : UInt64) : List UInt8 := BigEndian.encode 8 v.toNat

/-- `ntohd` of a double with these bytes -/
def ntohd (bytes : List UInt8) : UInt64 := UInt64.ofNat (BigEndian.decode bytes)

@[simp] theorem htonl_length (v : UInt32) : (htonl v).length = 4 := BigEndian.encode_length ..

@[simp] theorem htond_length (v : UInt64) : (htond v).length = 8 := BigEndian.encode_length ..

@[simp] theorem ntohl_htonl (v : UInt32) : ntohl (htonl v) = v := by
  have hlt : v.toNat < 256 ^ 4 := v.toNat_lt
  rw [ntohl, htonl, BigEndian.decode_encode, Nat.mod_eq_of_lt hlt, UInt32.ofNat_toNat]

@[simp] theorem ntohd_htond (v : UInt64) : ntohd (htond v) = v := by
  have hlt : v.toNat < 256 ^ 8 := v.toNat_lt
  rw [ntohd, htond, BigEndian.decode_encode, Nat.mod_eq_of_lt hlt, UInt64.ofNat_toNat]

/-! ## Enumerations in one byte -/

/-- `AxisId` -/
inductive AxisId
  | x
  | y
  deriving DecidableEq, Repr

def AxisId.toByte : AxisId → UInt8
  | .x => 0
  | .y => 1

/-- The axis of a value cast from a byte, if it is one of the enumerators. -/
def AxisId.ofByte? (b : UInt8) : Option AxisId :=
  if b = 0 then some .x else if b = 1 then some .y else none

@[simp] theorem AxisId.ofByte?_toByte (id : AxisId) : ofByte? id.toByte = some id := by
  cases id <;> rfl

theorem AxisId.ofByte?_eq_some {raw : UInt8} {id : AxisId} :
    ofByte? raw = some id ↔ raw = id.toByte := by
  constructor
  · intro h
    unfold ofByte? at h
    split at h
    · obtain rfl := Option.some.inj h
      assumption
    · split at h
      · obtain rfl := Option.some.inj h
        assumption
      · cases h
  · rintro rfl
    exact ofByte?_toByte id

theorem AxisId.toByte_inj {id id' : AxisId} : id.toByte = id'.toByte ↔ id = id' := by
  cases id <;> cases id' <;> decide

def AxisDirection.toByte : AxisDirection → UInt8
  | .positive => 0
  | .negative => 1
  | .other raw => raw

/-- `(AxisDirection)b` -/
def AxisDirection.ofByte (b : UInt8) : AxisDirection :=
  if b = 0 then .positive else if b = 1 then .negative else .other b

/-- `Status` -/
inductive Status
  | idle
  | homing
  | moving
  | fault
  deriving DecidableEq, Repr

def Status.toByte : Status → UInt8
  | .idle => 0
  | .homing => 1
  | .moving => 2
  | .fault => 3

def AxisResult.toByte : AxisResult → UInt8
  | .ok => 0
  | .errAlreadyMoving => 1
  | .errLsHome => 2
  | .errLsFar => 3
  | .errInvalid => 4

/-! ## Packed structs -/

/-- `MoveMsgData` -/
structure MoveMsgData where
  velHold : UInt32
  distCounts : UInt32
  axis : UInt8
  dir : UInt8
  deriving DecidableEq, Repr

namespace MoveMsgData

/-- `sizeof(MoveMsgData)` -/
def size : UInt8 := 10

/-- The struct in network byte order. -/
def toBytes (d : MoveMsgData) : List UInt8 :=
  htonl d.velHold ++ htonl d.distCounts ++ [d.axis, d.dir]

/-- The struct that `memcpy` finds at `data`, its words converted. -/
def ofBytes (data : List UInt8) : MoveMsgData where
  velHold := ntohl (data.take 4)
  distCounts := ntohl ((data.drop 4).take 4)
  axis := data.getD 8 0
  dir := data.getD 9 0

@[simp] theorem toBytes_length (d : MoveMsgData) : d.toBytes.length = 10 := by
  simp [toBytes]

theorem ofBytes_toBytes (d : MoveMsgData) (rest : List UInt8) :
    ofBytes (d.toBytes ++ rest) = d := by
  simp [ofBytes, toBytes, List.getElem?_append_right]

/-- Only the first ten bytes count. -/
theorem ofBytes_take (data : List UInt8) : ofBytes (data.take 10) = ofBytes data := by
  simp [ofBytes, List.take_take, List.drop_take]

end MoveMsgData

/-- `PositionMsgData` -/
structure PositionMsgData where
  xCounts : Int32
  yCounts : Int32
  deriving DecidableEq, Repr

namespace PositionMsgData

/-- `sizeof(PositionMsgData)` -/
def size : UInt8 := 8

def toBytes (d : PositionMsgData) : List UInt8 :=
  htonl d.xCounts.toUInt32 ++ htonl d.yCounts.toUInt32

def ofBytes (data : List UInt8) : PositionMsgData where
  xCounts := (ntohl (data.take 4)).toInt32
  yCounts := (ntohl ((data.drop 4).take 4)).toInt32

@[simp] theorem toBytes_length (d : PositionMsgData) : d.toBytes.length = 8 := by
  simp [toBytes]

theorem ofBytes_toBytes (d : PositionMsgData) (rest : List UInt8) :
    ofBytes (d.toBytes ++ rest) = d := by
  simp [ofBytes, toBytes]

/-- Only the first eight bytes count. -/
theorem ofBytes_take (data : List UInt8) : ofBytes (data.take 8) = ofBytes data := by
  simp [ofBytes, List.take_take, List.drop_take]

end PositionMsgData

/-- `TempMsgData`: temperatures multiplied by `temp_data_scaler` and rounded. -/
structure TempMsgData where
  tempAmbient : Int32
  tempMotorX : Int32
  tempMotorY : Int32
  tempMpmt : Int32
  tempOptical : Int32
  deriving DecidableEq, Repr

namespace TempMsgData

/-- `sizeof(TempMsgData)` -/
def size : UInt8 := 20

def toBytes (d : TempMsgData) : List UInt8 :=
  htonl d.tempAmbient.toUInt32 ++ htonl d.tempMotorX.toUInt32 ++
    htonl d.tempMotorY.toUInt32 ++ htonl d.tempMpmt.toUInt32 ++
    htonl d.tempOptical.toUInt32

def ofBytes (data : List UInt8) : TempMsgData where
  tempAmbient := (ntohl (data.take 4)).toInt32
  tempMotorX := (ntohl ((data.drop 4).take 4)).toInt32
  tempMotorY := (ntohl ((data.drop 8).take 4)).toInt32
  tempMpmt := (ntohl ((data.drop 12).take 4)).toInt32
  tempOptical := (ntohl ((data.drop 16).take 4)).toInt32

@[simp] theorem toBytes_length (d : TempMsgData) : d.toBytes.length = 20 := by
  simp [toBytes]

theorem ofBytes_toBytes (d : TempMsgData) (rest : List UInt8) :
    ofBytes (d.toBytes ++ rest) = d := by
  simp [ofBytes, toBytes, List.drop_append, List.drop_of_length_le]

/-- Only the first twenty bytes count. -/
theorem ofBytes_take (data : List UInt8) : ofBytes (data.take 20) = ofBytes data := by
  simp [ofBytes, List.take_take, List.drop_take]

end TempMsgData

/-- `sizeof(StateMsgData)` -/
def stateMsgDataSize : UInt8 := 6

/-! ## Calibration -/

/-- `Calibration`; the temperature constants are doubles. -/
structure Calibration where
  accel : UInt32
  velStart : UInt32
  velHome : UInt32
  c1 : UInt64
  c2 : UInt64
  c3 : UInt64
  resistor : UInt64
  deriving DecidableEq, Repr

/-- `CalibrationKey` -/
inductive CalibrationKey
  | gantryAccel
  | gantryVelStart
  | gantryVelHome
  | tempAllC1
  | tempAllC2
  | tempAllC3
  | tempAllResistor
  deriving DecidableEq, Repr

namespace CalibrationKey

def toByte : CalibrationKey → UInt8
  | .gantryAccel => 0
  | .gantryVelStart => 1
  | .gantryVelHome => 2
  | .tempAllC1 => 3
  | .tempAllC2 => 4
  | .tempAllC3 => 5
  | .tempAllResistor => 6

/-- The bytes of the value that `value` points to; `value` is the 64-bit word
found there, of which a gantry constant is the low half. -/
def valueBytes (key : CalibrationKey) (value : UInt64) : List UInt8 :=
  match key with
  | .gantryAccel => htonl value.toUInt32
  | .gantryVelStart => htonl value.toUInt32
  | .gantryVelHome => htonl value.toUInt32
  | .tempAllC1 => htond value
  | .tempAllC2 => htond value
  | .tempAllC3 => htond value
  | .tempAllResistor => htond value

theorem valueBytes_length (key : CalibrationKey) (value : UInt64) :
    (key.valueBytes value).length ≤ 8 := by
  cases key <;> simp [valueBytes]

/-- The key of a value cast from a byte, if it is one of the enumerators. -/
def ofByte? : UInt8 → Option CalibrationKey
  | 0 => some .gantryAccel
  | 1 => some .gantryVelStart
  | 2 => some .gantryVelHome
  | 3 => some .tempAllC1
  | 4 => some .tempAllC2
  | 5 => some .tempAllC3
  | 6 => some .tempAllResistor
  | _ => none

/-- The size of the value under a key. -/
def size : CalibrationKey → Nat
  | .gantryAccel => 4
  | .gantryVelStart => 4
  | .gantryVelHome => 4
  | .tempAllC1 => 8
  | .tempAllC2 => 8
  | .tempAllC3 => 8
  | .tempAllResistor => 8

end CalibrationKey

/-- The `switch` of `recv_calibrate` over `data`; `none` for an unknown key. -/
def Calibration.extract (cal : Calibration) (data : List UInt8) : Option Calibration :=
  let word := ntohl ((data.drop 1).take 4)
  let double := ntohd ((data.drop 1).take 8)
  match data.getD 0 0 with
  | 0 => some { cal with accel := word }
  | 1 => some { cal with velStart := word }
  | 2 => some { cal with velHome := word }
  | 3 => some { cal with c1 := double }
  | 4 => some { cal with c2 := double }
  | 5 => some { cal with c3 := double }
  | 6 => some { cal with resistor := double }
  | _ => none

/-- `EXTRACT` for the value under a key. -/
def Calibration.store (cal : Calibration) (value : List UInt8) : CalibrationKey → Calibration
  | .gantryAccel => { cal with accel := ntohl value }
  | .gantryVelStart => { cal with velStart := ntohl value }
  | .gantryVelHome => { cal with velHome := ntohl value }
  | .tempAllC1 => { cal with c1 := ntohd value }
  | .tempAllC2 => { cal with c2 := ntohd value }
  | .tempAllC3 => { cal with c3 := ntohd value }
  | .tempAllResistor => { cal with resistor := ntohd value }

/-- The `switch` takes the key from the first byte and as many bytes as its value has. -/
theorem Calibration.extract_eq (cal : Calibration) (data : List UInt8) :
    cal.extract data = (CalibrationKey.ofByte? (data.getD 0 0)).map fun key =>
      cal.store ((data.drop 1).take key.size) key := by
  unfold extract CalibrationKey.ofByte?
  dsimp only
  split <;> rfl

end MpmtTestStand.Ports
