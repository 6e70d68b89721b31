import MpmtTestStand.Ports.Framing
import MpmtTestStand.Ports.SerialSession

/-!
# LOG messages: `TestStandCommController::log`

`log` lets `vsnprintf` format into the send buffer behind the level byte, and announces as
many bytes as `vsnprintf` returns.  That is the length of the whole text, stored or not, and
it is narrowed to eight bits before the level byte and the NUL are counted.  What the peer
receives is the beginning of the buffer that the announced length covers
(`logMessage_payload`); `logCarried_iff` says for which texts it is the text.
-/

namespace MpmtTestStand.Ports

open MpmtTestStand.Verified

/-- `LogLevel` -/
inductive LogLevel
  | debug
  | info
  | warning
  | error
  | critical
  deriving DecidableEq, Repr

/-- The value of an enumerator. -/
def LogLevel.toByte : LogLevel → UInt8
  | .debug => 0
  | .info => 1
  | .warning => 2
  | .error => 3
  | .critical => 4

/-- `MSG_ID_LOG` -/
def msgIdLog : UInt8 := 0x80

/-- `vsnprintf` for a format and arguments that make `text`: the bytes that it stores into a
buffer of `size` bytes, and what it returns. -/
def vsnprintf (size : Nat) (text : List UInt8) : List UInt8 × Nat :=
  (if size = 0 then [] else text.take (size - 1) ++ [0], text.length)

/-- `data` is stored into `buf`, from index `i` on. -/
def store (buf : List UInt8) (i : Nat) (data : List UInt8) : List UInt8 :=
  buf.take i ++ data ++ buf.drop (i + data.length)

/-- The packet that a message is on the wire: the first `length` bytes behind its pointer. -/
def Message.packet (msg : Message) : Packet where
  id := msg.id
  payload := msg.data.take msg.length.toNat
  fits := by
    have := msg.length.toNat_lt
    rw [List.length_take]
    omega

namespace TestStandCommController

/-- The message of `TestStandCommController::log`; `sendBuf` is what `send_buf` holds before. -/
def logMessage (sendBuf : Vector UInt8 msgDataLengthMax) (level : LogLevel)
    (text : List UInt8) : Message :=
  let buf := store sendBuf.toList 0 [level.toByte]
  let printed := vsnprintf (msgDataLengthMax - 1) text
  let buf := store buf 1 printed.1
  let length : UInt8 := UInt8.ofNat printed.2
  { id := msgIdLog
    length := 1 + length + 1
    data := buf }

/-- `TestStandCommController::log` -/
def log {A : Sig} (sendBuf : Vector UInt8 msgDataLengthMax) (level : LogLevel)
    (text : List UInt8) : LinkProg A SerialResult :=
  SerialSession.sendMessage (logMessage sendBuf level text).packet

end TestStandCommController

open TestStandCommController

/-! ## The frame -/

theorem Message.length_packet (msg : Message) (h : msg.length.toNat ≤ msg.data.length) :
    msg.packet.length = msg.length := by
  show UInt8.ofNat (msg.data.take msg.length.toNat).length = msg.length
  rw [List.length_take, Nat.min_eq_left h, UInt8.ofNat_toNat]

/-- A message whose buffer holds what it announces is sent as its packet. -/
theorem Message.framePieces_packet (msg : Message) (h : msg.length.toNat ≤ msg.data.length) :
    framePieces msg.packet.toMessage = framePieces msg := by
  simp only [framePieces, Packet.toMessage, msg.length_packet h]
  simp only [Message.packet, List.take_take, Nat.min_self]

section Log

variable (sendBuf : Vector UInt8 msgDataLengthMax) (level : LogLevel) (text : List UInt8)

/-- The text as it should arrive: as much of it as there is room for, and a NUL. -/
def logText : List UInt8 := text.take 253 ++ [0]

theorem length_logText : (logText text).length = min text.length 253 + 1 := by
  rw [logText, List.length_append, List.length_take, Nat.min_comm]
  rfl

/-- What is stored in the middle of a buffer leaves it as long as it was. -/
theorem length_store {buf data : List UInt8} {i : Nat} (h : i + data.length ≤ buf.length) :
    (store buf i data).length = buf.length := by
  simp only [store, List.length_append, List.length_take, List.length_drop]
  omega

theorem logMessage_data :
    (logMessage sendBuf level text).data =
      store (level.toByte :: sendBuf.toList.drop 1) 1 (logText text) := rfl

/-- The buffer is as long as ever. -/
theorem length_logMessage_data :
    (logMessage sendBuf level text).data.length = msgDataLengthMax := by
  have hbuf : (level.toByte :: sendBuf.toList.drop 1).length = msgDataLengthMax := by
    rw [List.length_cons, List.length_drop, Vector.length_toList]
    rfl
  have hroom : 1 + (logText text).length ≤ (level.toByte :: sendBuf.toList.drop 1).length := by
    rw [hbuf, length_logText, msgDataLengthMax]
    omega
  rw [logMessage_data, length_store hroom, hbuf]

/-- What `log` announces: the level, the whole text and the NUL, in eight bits. -/
theorem logMessage_length :
    (logMessage sendBuf level text).length.toNat = (text.length + 2) % 256 := by
  show (1 + UInt8.ofNat text.length + 1).toNat = _
  simp only [UInt8.toNat_add, UInt8.toNat_ofNat']
  show ((1 + text.length % 256) % 256 + 1) % 256 = _
  omega

/-- **What the announced length covers** is part of the level and the text, and never anything
behind them. -/
theorem logMessage_payload :
    (logMessage sendBuf level text).packet.payload =
      (level.toByte :: logText text).take ((text.length + 2) % 256) := by
  have hlen := length_logText text
  have hcovers : (text.length + 2) % 256 ≤ (level.toByte :: logText text).length := by
    rw [List.length_cons, hlen]
    omega
  show (logMessage sendBuf level text).data.take
    (logMessage sendBuf level text).length.toNat = _
  rw [logMessage_length, logMessage_data]
  exact List.take_append_of_le_length hcovers

/-! ## The text and its length -/

/-- The LOG frame carries the text: however its bytes arrive, a peer between two frames
receives one message, with the level, the text as far as there is room for it, and the NUL. -/
def LogCarried : Prop :=
  ∀ (outcomes : List (Option Nat)) (out : SerialOut) (msg : ReceivedMessage)
    (chunks : List (List UInt8)) (idle : Nat),
    sendMessage (logMessage sendBuf level text) ⟨[], outcomes⟩ = (true, out) →
    chunks.flatten = out.wire → 1 < idle →
    (checkChunks ⟨.fresh, msg⟩ [] (chunks ++ List.replicate idle [])).delivered.map
        (fun m => (m.id, m.length.toNat, m.data.toList.take m.length.toNat)) =
      [(msgIdLog, min text.length 253 + 2, level.toByte :: logText text)]

/-- The peer receives the message up to what it announces. -/
theorem log_received {outcomes : List (Option Nat)} {out : SerialOut}
    (hsent : sendMessage (logMessage sendBuf level text) ⟨[], outcomes⟩ = (true, out))
    (msg : ReceivedMessage) {chunks : List (List UInt8)} (hchunks : chunks.flatten = out.wire)
    {idle : Nat} (hidle : 1 < idle) :
    (checkChunks ⟨.fresh, msg⟩ [] (chunks ++ List.replicate idle [])).delivered.map
        (fun m => (m.id, m.length.toNat, m.data.toList.take m.length.toNat)) =
      [(msgIdLog, (text.length + 2) % 256,
        (level.toByte :: logText text).take ((text.length + 2) % 256))] := by
  have hroom : (logMessage sendBuf level text).length.toNat ≤
      (logMessage sendBuf level text).data.length := by
    rw [length_logMessage_data]
    have := (logMessage sendBuf level text).length.toNat_lt
    simp only [msgDataLengthMax]
    omega
  have hwire : chunks.flatten =
      [(logMessage sendBuf level text).packet].flatMap Packet.frame := by
    rw [hchunks, writePieces_true hsent, List.flatMap_singleton, Packet.frame,
      Message.framePieces_packet _ hroom]
    rfl
  obtain ⟨-, hall⟩ := feed_frames (.start msg) [(logMessage sendBuf level text).packet]
  have hlength : (Mealy.feed Receiver.receive ⟨.fresh, msg⟩ chunks.flatten).2.length < idle := by
    have hone := congrArg List.length hall
    rw [List.length_map] at hone
    rwa [hwire, hone]
  obtain ⟨-, hfeed⟩ := checkChunks_all ⟨.fresh, msg⟩ chunks idle hlength
  rw [hwire] at hfeed
  rw [hfeed] at hall
  dsimp only at hall
  obtain ⟨m, hdelivered, hm⟩ := List.map_eq_singleton_iff.mp hall
  have hannounced : m.length.toNat = (text.length + 2) % 256 := by
    rw [← logMessage_length sendBuf level, m.length_eq, hm, Message.length_packet _ hroom]
  have hbytes : m.data.toList.take m.length.toNat = _ :=
    (congrArg Packet.payload hm).trans (logMessage_payload sendBuf level text)
  have hid : m.id = msgIdLog := congrArg Packet.id hm
  rw [hdelivered, List.map_singleton, hbytes, hannounced, hid]

/-- The text is carried exactly if what is announced is what is there. -/
theorem logCarried_iff_length :
    LogCarried sendBuf level text ↔ (text.length + 2) % 256 = min text.length 253 + 2 := by
  have hall : (level.toByte :: logText text).take (min text.length 253 + 2) =
      level.toByte :: logText text := by
    rw [List.take_of_length_le]
    rw [List.length_cons, length_logText]
  constructor
  · intro h
    have hsent : sendMessage (logMessage sendBuf level text) ⟨[], []⟩ =
        (true, (sendMessage (logMessage sendBuf level text) ⟨[], []⟩).2) := rfl
    have hcarried := h [] _ Receiver.fresh.msg [_] 2 hsent List.flatten_singleton (by decide)
    rw [log_received sendBuf level text hsent Receiver.fresh.msg List.flatten_singleton
      (by decide)] at hcarried
    exact congrArg (fun m => m.2.1) (List.singleton_inj.mp hcarried)
  · intro h outcomes out msg chunks idle hsent hchunks hidle
    rw [log_received sendBuf level text hsent msg hchunks hidle, h, hall]

/-- **When a LOG message carries its text**: when the text fits, or happens to be a multiple of
256 longer than the longest one that fits. -/
theorem logCarried_iff :
    LogCarried sendBuf level text ↔ text.length ≤ 253 ∨ text.length % 256 = 253 := by
  rw [logCarried_iff_length]
  omega

end Log

/-- Of a text that is one character too long for the buffer nothing is sent, not even the level. -/
theorem log_lost :
    ¬LogCarried (Vector.replicate _ 0) .error (List.replicate 254 0x41) ∧
      (logMessage (Vector.replicate _ 0) .error (List.replicate 254 0x41)).length = 0 := by
  have hlength : (List.replicate 254 (0x41 : UInt8)).length = 254 := List.length_replicate
  constructor
  · rw [logCarried_iff_length, hlength]
    decide
  · show 1 + UInt8.ofNat (List.replicate 254 (0x41 : UInt8)).length + 1 = 0
    rw [hlength]
    decide

end MpmtTestStand.Ports
