import Mathlib.Data.List.Basic

/-!
# Messages and result codes

`Messages.h`, `TestStandMessages.h` and `SerialResult.h`.  The C struct
`Message` holds a pointer to its payload; a message to be sent carries the
bytes behind that pointer (`Message`), while the one message a party receives
into owns the fixed 255-byte buffer `received_data` (`ReceivedMessage`).
`Packet` is what travels: an identifier and at most 255 payload bytes.
-/

namespace MpmtTestStand.Ports

/-! ## Constants -/

/-- `MSG_DATA_LENGTH_MAX` -/
abbrev msgDataLengthMax : Nat := 0xFF

/-- `MSG_DELIM_START` -/
def msgDelimStart : UInt8 := 0x7B
/-- `MSG_DELIM_END` -/
def msgDelimEnd : UInt8 := 0x7D

def msgIdAck : UInt8 := 0x01
def msgIdNack : UInt8 := 0x02

def msgIdPing : UInt8 := 0x10
def msgIdEcho : UInt8 := 0x11
def msgIdEchoed : UInt8 := 0x12

def msgIdGetStatus : UInt8 := 0x40
def msgIdHome : UInt8 := 0x41
def msgIdMove : UInt8 := 0x42
def msgIdStop : UInt8 := 0x43
def msgIdGetPosition : UInt8 := 0x44
def msgIdGetAxisState : UInt8 := 0x45
def msgIdGetTemp : UInt8 := 0x46
def msgIdCalibrate : UInt8 := 0x47

def msgIdStatus : UInt8 := 0x81
def msgIdPosition : UInt8 := 0x82
def msgIdAxisState : UInt8 := 0x83
def msgIdTemp : UInt8 := 0x84
def msgIdAxisResult : UInt8 := 0x85

/-- `SerialResult` -/
inductive SerialResult
  | ok
  | okNoMsg
  | errNoMsg
  | errTimeout
  | errMsgInProgress
  | errSendFailed
  | errNoAck
  | errAckFailed
  | errWrongMsg
  | errDataLength
  | errDataCorrupt
  deriving DecidableEq, Repr

/-! ## Packets -/

/-- An identifier and a payload that fits the 8-bit length field. -/
structure Packet where
  id : UInt8
  payload : List UInt8
  fits : payload.length < 256
  deriving DecidableEq, Repr

namespace Packet

/-- The value of the length field. -/
def length (p : Packet) : UInt8 := UInt8.ofNat p.payload.length

theorem length_toNat (p : Packet) : p.length.toNat = p.payload.length :=
  UInt8.toNat_ofNat_of_lt' p.fits

@[ext] theorem ext {p q : Packet} (hid : p.id = q.id)
    (hpayload : p.payload = q.payload) : p = q := by
  cases p
  cases q
  simp_all

/-- A packet without payload. -/
def basic (id : UInt8) : Packet := ⟨id, [], by decide⟩

end Packet

/-! ## Messages -/

/-- `Message`, as handed to the sending side: `data` are the bytes behind the
pointer, of which the first `length` are sent. -/
structure Message where
  id : UInt8
  length : UInt8
  data : List UInt8
  deriving DecidableEq, Repr

/-- The message whose payload is the whole packet. -/
def Packet.toMessage (p : Packet) : Message := ⟨p.id, p.length, p.payload⟩

/-- `received_msg` with its buffer `received_data[MSG_DATA_LENGTH_MAX]`. -/
structure ReceivedMessage where
  id : UInt8
  length : UInt8
  data : Vector UInt8 msgDataLengthMax
  deriving DecidableEq, Repr

namespace ReceivedMessage

/-- The packet that the buffer holds: its first `length` bytes count. -/
def packet (m : ReceivedMessage) : Packet where
  id := m.id
  payload := m.data.toList.take m.length.toNat
  fits := by
    have := m.length.toNat_lt
    simp only [List.length_take]
    omega

@[simp] theorem packet_id (m : ReceivedMessage) : m.packet.id = m.id := rfl

theorem packet_payload (m : ReceivedMessage) :
    m.packet.payload = m.data.toList.take m.length.toNat := rfl

/-- The buffer is long enough for every length the field can hold. -/
theorem length_eq (m : ReceivedMessage) : m.length = m.packet.length := by
  have := m.length.toNat_lt
  simp only [Packet.length, packet_payload, List.length_take, Vector.length_toList,
    msgDataLengthMax]
  rw [Nat.min_eq_left (by omega), UInt8.ofNat_toNat]

/-- The received message passed on as a message to send (`recv_echo`). -/
def toMessage (m : ReceivedMessage) : Message := ⟨m.id, m.length, m.data.toList⟩

end ReceivedMessage

end MpmtTestStand.Ports
