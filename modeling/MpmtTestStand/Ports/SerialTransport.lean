import MpmtTestStand.Ports.Messages
import MpmtTestStand.Verified.Mealy

/-!
# The transport layer: `SerialTransport`

`SerialTransport::check_for_message` is a six-segment state machine that is
resumed at every call wherever the previous call ran out of bytes.
`Receiver.readByte` is one round of its loop, `checkForMessage` the loop.  The
device is represented by its answers (`DeviceAnswer`), one for each time the
loop asks it; this covers bytes that arrive between two calls as well as bytes
that arrive during one.

`Partial r tail` is the invariant that carries every result about the receiver:
`r` is the state of a receiver that is in the middle of a frame of which it has
read exactly the bytes `tail`.  `readByte_partial` says once and for all what a
byte can do to such a receiver.
-/

namespace MpmtTestStand.Ports

open MpmtTestStand.Verified

/-! ## State -/

/-- `SerialTransport::MessageSegment` -/
inductive MessageSegment
  | segStart
  | segId
  | segLength
  | segData
  | segCrc
  | segEnd
  deriving DecidableEq, Repr

/-- `SerialTransport::PendingMessage` -/
structure PendingMessage where
  currentSegment : MessageSegment
  bytesRead : UInt8
  msgLength : UInt8
  crc : UInt16
  deriving DecidableEq, Repr

/-- The receiving half of a `SerialTransport`. -/
structure SerialTransport where
  pendingMessage : PendingMessage
  msgInProgress : Bool
  deriving DecidableEq, Repr

/-- `SerialTransport::reset` assigns every field. -/
def SerialTransport.reset (_ : SerialTransport) : SerialTransport where
  pendingMessage :=
    { currentSegment := .segStart
      bytesRead := 0
      msgLength := 0
      crc := 0 }
  msgInProgress := false

/-- A transport as its constructor leaves it. -/
def SerialTransport.fresh : SerialTransport where
  pendingMessage := ⟨.segStart, 0, 0, 0⟩
  msgInProgress := false

@[simp] theorem SerialTransport.reset_eq (t : SerialTransport) :
    t.reset = .fresh := rfl

/-- A transport together with the message it receives into. -/
structure Receiver where
  transport : SerialTransport
  msg : ReceivedMessage
  deriving DecidableEq, Repr

/-- A freshly constructed party; the buffer starts out zeroed. -/
def Receiver.fresh : Receiver := ⟨.fresh, ⟨0, 0, Vector.replicate _ 0⟩⟩

/-! ## One byte -/

/-- `((uint8_t *)&crc)[i] = b` on a little-endian machine. -/
def setCrcByte (crc : UInt16) (i b : UInt8) : UInt16 :=
  if i = 0 then (crc &&& (0xFF00 : UInt16)) ||| b.toUInt16
  else (crc &&& (0x00FF : UInt16)) ||| (b.toUInt16 <<< 8)

namespace Receiver

/-- Continue in segment `seg`. -/
def enter (r : Receiver) (seg : MessageSegment) : Receiver :=
  { r with transport.pendingMessage.currentSegment := seg }

/-- One round of the loop of `SerialTransport::check_for_message`: what the
`switch` does with `byteIn`, and whether the call returns `true`. -/
def readByte (r : Receiver) (byteIn : UInt8) : Receiver × Bool :=
  let pending := r.transport.pendingMessage
  match pending.currentSegment with
  | .segStart =>
      if byteIn = msgDelimStart then
        (({ r with transport.msgInProgress := true } : Receiver).enter .segId, false)
      else (r, false)
  | .segId => (({ r with msg.id := byteIn } : Receiver).enter .segLength, false)
  | .segLength =>
      (({ r with
          msg.length := byteIn
          transport.pendingMessage.msgLength := byteIn
          transport.pendingMessage.bytesRead := 0 } : Receiver).enter
        (if byteIn = 0 then .segCrc else .segData), false)
  | .segData =>
      let r : Receiver :=
        { r with
          msg.data := r.msg.data.setIfInBounds pending.bytesRead.toNat byteIn
          transport.pendingMessage.bytesRead := pending.bytesRead + 1 }
      if pending.bytesRead + 1 = pending.msgLength then
        (({ r with transport.pendingMessage.bytesRead := 0 } : Receiver).enter .segCrc,
          false)
      else (r, false)
  | .segCrc =>
      let r : Receiver :=
        { r with
          transport.pendingMessage.crc :=
            setCrcByte pending.crc pending.bytesRead byteIn
          transport.pendingMessage.bytesRead := pending.bytesRead + 1 }
      if pending.bytesRead + 1 = 2 then
        (({ r with transport.pendingMessage.bytesRead := 0 } : Receiver).enter .segEnd,
          false)
      else (r, false)
  | .segEnd =>
      ({ r with transport := r.transport.reset }, byteIn == msgDelimEnd)

/-- `readByte` as a reader: the output is the message struct at the moment the
call returns `true`. -/
def receive (r : Receiver) (byteIn : UInt8) : Receiver × Option ReceivedMessage :=
  ((r.readByte byteIn).1,
    if (r.readByte byteIn).2 then some (r.readByte byteIn).1.msg else none)

end Receiver

/-! ## One call -/

/-- What the device answers when the loop asks for the next byte. -/
inductive DeviceAnswer
  /-- `ser_available()` is zero -/
  | nothing
  /-- `ser_available()` is positive but `ser_read` fails -/
  | readFailed
  /-- `ser_read` delivers a byte -/
  | byte (b : UInt8)
  deriving DecidableEq, Repr

/-- The byte that an answer delivers, if any. -/
def DeviceAnswer.byte? : DeviceAnswer → Option UInt8
  | .nothing => none
  | .readFailed => none
  | .byte b => some b

/-- The bytes delivered by a sequence of answers. -/
def bytesOf (answers : List DeviceAnswer) : List UInt8 :=
  (answers.map DeviceAnswer.byte?).reduceOption

/-- Outcome of a call: the returned boolean, the receiver, and the answers the
device has not given yet. -/
structure CheckResult where
  complete : Bool
  receiver : Receiver
  rest : List DeviceAnswer
  deriving DecidableEq, Repr

/-- `SerialTransport::check_for_message`.  Once the listed answers have been
given, the device has nothing available. -/
def checkForMessage (r : Receiver) : List DeviceAnswer → CheckResult
  | [] => ⟨false, r, []⟩
  | .nothing :: rest => ⟨false, r, rest⟩
  | .readFailed :: rest => ⟨false, r, rest⟩
  | .byte byteIn :: rest =>
      if (r.readByte byteIn).2 then ⟨true, (r.readByte byteIn).1, rest⟩
      else checkForMessage (r.readByte byteIn).1 rest

/-- The loop is the generic call of the reader `receive`. -/
theorem checkForMessage_eq_poll (r : Receiver) (answers : List DeviceAnswer) :
    Mealy.poll Receiver.receive r (answers.map DeviceAnswer.byte?) =
      ((checkForMessage r answers).receiver,
        (if (checkForMessage r answers).complete then
          some (checkForMessage r answers).receiver.msg else none),
        (checkForMessage r answers).rest.map DeviceAnswer.byte?) := by
  induction answers generalizing r with
  | nil => rfl
  | cons answer rest ih =>
      cases answer with
      | nothing => rfl
      | readFailed => rfl
      | byte byteIn =>
          rcases hread : r.readByte byteIn with ⟨r', _ | _⟩
          · have hstep : r.receive byteIn = (r', none) := by
              simp [Receiver.receive, hread]
            simpa [DeviceAnswer.byte?, Mealy.poll_silent _ hstep, checkForMessage,
              hread] using ih r'
          · have hstep : r.receive byteIn = (r', some r'.msg) := by
              simp [Receiver.receive, hread]
            simp [DeviceAnswer.byte?, Mealy.poll_output _ hstep, checkForMessage,
              hread]

/-- What a sequence of calls delivers: the message struct at each `true`. -/
structure CallsResult where
  delivered : List ReceivedMessage
  receiver : Receiver
  rest : List DeviceAnswer
  deriving DecidableEq, Repr

/-- `n` calls of `check_for_message` one after the other. -/
def checkCalls : Nat → Receiver → List DeviceAnswer → CallsResult
  | 0, r, answers => ⟨[], r, answers⟩
  | n + 1, r, answers =>
      let call := checkForMessage r answers
      let later := checkCalls n call.receiver call.rest
      ⟨(if call.complete then [call.receiver.msg] else []) ++ later.delivered,
        later.receiver, later.rest⟩

theorem checkCalls_eq_polls (n : Nat) (r : Receiver) (answers : List DeviceAnswer) :
    Mealy.polls Receiver.receive n r (answers.map DeviceAnswer.byte?) =
      ((checkCalls n r answers).receiver, (checkCalls n r answers).delivered,
        (checkCalls n r answers).rest.map DeviceAnswer.byte?) := by
  induction n generalizing r answers with
  | zero => rfl
  | succ n ih =>
      simp only [Mealy.polls, checkForMessage_eq_poll, ih, checkCalls]
      cases (checkForMessage r answers).complete <;> rfl

/-- A sequence of calls is the reader run over the bytes it consumed. -/
theorem checkCalls_feed (n : Nat) (r : Receiver) (answers : List DeviceAnswer) :
    ∃ read, bytesOf answers = read ++ bytesOf (checkCalls n r answers).rest ∧
      Mealy.feed Receiver.receive r read =
        ((checkCalls n r answers).receiver, (checkCalls n r answers).delivered) := by
  obtain ⟨read, hread, hfeed⟩ :=
    Mealy.polls_feed Receiver.receive n r (answers.map DeviceAnswer.byte?)
  rw [checkCalls_eq_polls] at hread hfeed
  exact ⟨read, hread, hfeed⟩

/-- As many calls as there are answers consume them all. -/
theorem checkCalls_rest_eq_nil (n : Nat) (r : Receiver) (answers : List DeviceAnswer)
    (hn : answers.length ≤ n) : (checkCalls n r answers).rest = [] := by
  have h := Mealy.polls_rest_eq_nil Receiver.receive n r
    (answers.map DeviceAnswer.byte?) (by simpa using hn)
  rw [checkCalls_eq_polls] at h
  simpa using h

/-- The loop of `SerialTransport::recv_message`.  A round is a call of
`check_for_message` followed, when it returns `false`, by a look at the clock;
`none` when the rounds run out before the function returns. -/
def recvRounds (timeStart timeoutMs : UInt32) (r : Receiver) :
    List (List DeviceAnswer × UInt64) → Option (Bool × Receiver)
  | [] => none
  | (answers, millis) :: rounds =>
      let call := checkForMessage r answers
      if call.complete then some (true, call.receiver)
      else if millis - timeStart.toUInt64 > timeoutMs.toUInt64 then
        some (false, { call.receiver with transport := call.receiver.transport.reset })
      else recvRounds timeStart timeoutMs call.receiver rounds

/-- `SerialTransport::recv_message`, entered at `millis`. -/
def recvMessage (timeoutMs : UInt32) (millis : UInt64) (r : Receiver)
    (rounds : List (List DeviceAnswer × UInt64)) : Option (Bool × Receiver) :=
  recvRounds millis.toUInt32 timeoutMs r rounds

/-! ## The sending half -/

/-- The device as the sender sees it: what has reached the wire, and how the
coming `ser_write` calls end.  `none` is success, `some k` a failure after `k`
bytes; once the list is used up every call succeeds. -/
structure SerialOut where
  wire : List UInt8
  outcomes : List (Option Nat)
  deriving DecidableEq, Repr

/-- `ser_write` -/
def SerialOut.serWrite (dev : SerialOut) (data : List UInt8) : Bool × SerialOut :=
  match dev.outcomes with
  | [] => (true, { dev with wire := dev.wire ++ data })
  | none :: rest => (true, ⟨dev.wire ++ data, rest⟩)
  | some k :: rest => (false, ⟨dev.wire ++ data.take k, rest⟩)

/-- The arguments of the seven `ser_write` calls of
`SerialTransport::send_message`, in order. -/
def framePieces (msg : Message) : List (List UInt8) :=
  [ [msgDelimStart]
  , [msg.id]
  , [msg.length]
  , msg.data.take msg.length.toNat
  , [0]
  , [0]
  , [msgDelimEnd] ]

/-- Write the pieces in order; the first failure ends the function. -/
def writePieces : List (List UInt8) → SerialOut → Bool × SerialOut
  | [], dev => (true, dev)
  | piece :: rest, dev =>
      match dev.serWrite piece with
      | (true, dev) => writePieces rest dev
      | (false, dev) => (false, dev)

/-- `SerialTransport::send_message` -/
def sendMessage (msg : Message) (dev : SerialOut) : Bool × SerialOut :=
  writePieces (framePieces msg) dev

/-- A successful `ser_write` puts all its bytes on the wire. -/
theorem serWrite_true {dev dev' : SerialOut} {data : List UInt8}
    (h : dev.serWrite data = (true, dev')) : dev'.wire = dev.wire ++ data := by
  unfold SerialOut.serWrite at h
  split at h <;> simp_all <;> (subst h; rfl)

theorem writePieces_true {pieces : List (List UInt8)} {dev dev' : SerialOut}
    (h : writePieces pieces dev = (true, dev')) :
    dev'.wire = dev.wire ++ pieces.flatten := by
  induction pieces generalizing dev with
  | nil =>
      obtain rfl : dev = dev' := by simpa [writePieces] using h
      simp
  | cons piece rest ih =>
      rcases hwrite : dev.serWrite piece with ⟨_ | _, mid⟩
      · simp [writePieces, hwrite] at h
      · rw [writePieces, hwrite] at h
        rw [ih h, serWrite_true hwrite, List.flatten_cons, List.append_assoc]

/-- The bytes of a packet on the wire. -/
def Packet.frame (p : Packet) : List UInt8 := (framePieces p.toMessage).flatten

theorem Packet.frame_eq (p : Packet) :
    p.frame = msgDelimStart :: p.id :: p.length :: p.payload ++
      [0, 0, msgDelimEnd] := by
  simp [Packet.frame, framePieces, Packet.toMessage, p.length_toNat]

/-- Send the messages one after the other, as long as that succeeds. -/
def sendAll : List Message → SerialOut → Bool × SerialOut
  | [], dev => (true, dev)
  | msg :: rest, dev =>
      match sendMessage msg dev with
      | (true, dev) => sendAll rest dev
      | (false, dev) => (false, dev)

/-- Sent successfully, packets are on the wire back to back. -/
theorem sendAll_wire {packets : List Packet} {dev dev' : SerialOut}
    (h : sendAll (packets.map Packet.toMessage) dev = (true, dev')) :
    dev'.wire = dev.wire ++ packets.flatMap Packet.frame := by
  induction packets generalizing dev with
  | nil =>
      obtain rfl : dev = dev' := by simpa [sendAll] using h
      simp
  | cons p rest ih =>
      rcases hsend : sendMessage p.toMessage dev with ⟨_ | _, mid⟩
      · simp [sendAll, hsend] at h
      · rw [List.map_cons, sendAll, hsend] at h
        rw [ih h, writePieces_true hsend, List.flatMap_cons, List.append_assoc]
        rfl

/-! ## The receiver in mid-frame -/

/-- A transport that has read the start delimiter and is now in segment `seg`. -/
def SerialTransport.inFrame (seg : MessageSegment) (bytesRead msgLength : UInt8)
    (crc : UInt16) : SerialTransport :=
  ⟨⟨seg, bytesRead, msgLength, crc⟩, true⟩

/-- `Partial r tail`: `r` has read exactly the bytes `tail` of an unfinished
frame (none of a frame when `tail` is empty). -/
inductive Partial : Receiver → List UInt8 → Prop
  | start (msg : ReceivedMessage) : Partial ⟨.fresh, msg⟩ []
  | id (msg : ReceivedMessage) :
      Partial ⟨.inFrame .segId 0 0 0, msg⟩ [msgDelimStart]
  | length (msg : ReceivedMessage) :
      Partial ⟨.inFrame .segLength 0 0 0, msg⟩ [msgDelimStart, msg.id]
  | data (msg : ReceivedMessage) (n : Nat) (hn : n < msg.length.toNat) :
      Partial ⟨.inFrame .segData (UInt8.ofNat n) msg.length 0, msg⟩
        (msgDelimStart :: msg.id :: msg.length :: msg.data.toList.take n)
  | crcLow (msg : ReceivedMessage) :
      Partial ⟨.inFrame .segCrc 0 msg.length 0, msg⟩
        (msgDelimStart :: msg.id :: msg.length :: msg.packet.payload)
  | crcHigh (msg : ReceivedMessage) (c0 : UInt8) :
      Partial ⟨.inFrame .segCrc 1 msg.length (setCrcByte 0 0 c0), msg⟩
        (msgDelimStart :: msg.id :: msg.length :: msg.packet.payload ++ [c0])
  | stop (msg : ReceivedMessage) (c0 c1 : UInt8) :
      Partial ⟨.inFrame .segEnd 0 msg.length (setCrcByte (setCrcByte 0 0 c0) 1 c1), msg⟩
        (msgDelimStart :: msg.id :: msg.length :: msg.packet.payload ++ [c0, c1])

/-- What one byte does to a receiver that has read `tail` of a frame. -/
inductive ByteEffect (r : Receiver) (tail : List UInt8) (b : UInt8) :
    Receiver × Bool → Prop
  /-- the byte belongs to no frame -/
  | junk (htail : tail = []) (hb : b ≠ msgDelimStart) : ByteEffect r tail b (r, false)
  /-- the frame continues -/
  | more {r' : Receiver} (h : Partial r' (tail ++ [b])) : ByteEffect r tail b (r', false)
  /-- the frame ends; it counts only when it ends in the end delimiter -/
  | done (c0 c1 : UInt8)
      (htail : tail = msgDelimStart :: r.msg.id :: r.msg.length ::
        r.msg.packet.payload ++ [c0, c1]) :
      ByteEffect r tail b (⟨.fresh, r.msg⟩, b == msgDelimEnd)

/-- Storing byte `n` of the payload extends the part already stored. -/
theorem take_setIfInBounds (v : Vector UInt8 msgDataLengthMax) (n : Nat) (b : UInt8)
    (hn : n < msgDataLengthMax) :
    (v.setIfInBounds n b).toList.take (n + 1) = v.toList.take n ++ [b] := by
  have hlen : n < v.toList.length := by simpa using hn
  rw [Vector.toList_setIfInBounds, List.take_add_one, List.take_set_of_le (Nat.le_refl n),
    List.getElem?_set_self hlen]
  rfl

/-- Counting one more payload byte does not wrap below the announced length. -/
private theorem ofNat_succ (n : Nat) : UInt8.ofNat n + 1 = UInt8.ofNat (n + 1) :=
  (UInt8.ofNat_add n 1).symm

private theorem ofNat_succ_eq_iff {n : Nat} {len : UInt8} (hn : n < len.toNat) :
    UInt8.ofNat n + 1 = len ↔ n + 1 = len.toNat := by
  have hlt := len.toNat_lt
  rw [ofNat_succ, ← UInt8.toNat_inj, UInt8.toNat_ofNat_of_lt' (by
    simp only [UInt8.size]; omega)]

/-- **What a byte can do to a receiver in mid-frame.** -/
theorem readByte_partial {r : Receiver} {tail : List UInt8} (h : Partial r tail)
    (b : UInt8) : ByteEffect r tail b (r.readByte b) := by
  cases h with
  | start msg =>
      by_cases hb : b = msgDelimStart
      · subst hb
        exact .more (.id msg)
      · rw [show Receiver.readByte ⟨.fresh, msg⟩ b = (⟨.fresh, msg⟩, false) by
          simp [Receiver.readByte, SerialTransport.fresh, hb]]
        exact .junk rfl hb
  | id msg => exact .more (.length { msg with id := b })
  | length msg =>
      by_cases hb : b = 0
      · subst hb
        exact .more (.crcLow { msg with length := 0 })
      · have hpos : 0 < b.toNat := by
          rw [Nat.pos_iff_ne_zero]
          exact fun hz => hb (UInt8.toNat_inj.mp hz)
        rw [show Receiver.readByte ⟨.inFrame .segLength 0 0 0, msg⟩ b =
            (⟨.inFrame .segData 0 b 0, { msg with length := b }⟩, false) by
          simp [Receiver.readByte, Receiver.enter, SerialTransport.inFrame, hb]]
        exact .more (.data { msg with length := b } 0 hpos)
  | data msg n hn =>
      have hlt := msg.length.toNat_lt
      have htoNat : (UInt8.ofNat n).toNat = n :=
        UInt8.toNat_ofNat_of_lt' (by simp only [UInt8.size]; omega)
      let msg' : ReceivedMessage :=
        { msg with data := msg.data.setIfInBounds n b }
      have htake : msg'.data.toList.take (n + 1) = msg.data.toList.take n ++ [b] :=
        take_setIfInBounds msg.data n b (by simp only [msgDataLengthMax]; omega)
      by_cases hlast : n + 1 = msg.length.toNat
      · have hread : Receiver.readByte
            ⟨.inFrame .segData (UInt8.ofNat n) msg.length 0, msg⟩ b =
              (⟨.inFrame .segCrc 0 msg'.length 0, msg'⟩, false) := by
          simp [Receiver.readByte, Receiver.enter, SerialTransport.inFrame,
            (ofNat_succ_eq_iff hn).mpr hlast, htoNat, msg']
        rw [hread]
        refine .more ?_
        have := Partial.crcLow msg'
        rwa [ReceivedMessage.packet_payload, ← show n + 1 = msg'.length.toNat from hlast,
          htake] at this
      · have hread : Receiver.readByte
            ⟨.inFrame .segData (UInt8.ofNat n) msg.length 0, msg⟩ b =
              (⟨.inFrame .segData (UInt8.ofNat (n + 1)) msg'.length 0, msg'⟩, false) := by
          simp [Receiver.readByte, SerialTransport.inFrame,
            mt (ofNat_succ_eq_iff hn).mp hlast, htoNat, msg']
        rw [hread]
        refine .more ?_
        have := Partial.data msg' (n + 1) (by show n + 1 < msg.length.toNat; omega)
        rwa [htake] at this
  | crcLow msg => exact .more (.crcHigh msg b)
  | crcHigh msg c0 =>
      refine .more ?_
      rw [List.append_assoc]
      exact .stop msg c0 b
  | stop msg c0 c1 => exact .done c0 c1 rfl

/-- A complete message leaves the transport reset. -/
theorem readByte_done_fresh {r : Receiver} {b : UInt8} (h : (r.readByte b).2 = true) :
    (r.readByte b).1.transport = .fresh := by
  cases hseg : r.transport.pendingMessage.currentSegment with
  | segEnd => simp [Receiver.readByte, hseg]
  | segId | segLength => simp [Receiver.readByte, hseg] at h
  | segStart | segData | segCrc =>
      simp only [Receiver.readByte, hseg] at h
      split at h <;> simp at h

theorem readByte_done_idle {r : Receiver} {b : UInt8} (h : (r.readByte b).2 = true) :
    (r.readByte b).1.transport.msgInProgress = false := by
  rw [readByte_done_fresh h]
  rfl

/-- A call of `check_for_message` that delivers a message leaves the transport reset. -/
theorem checkForMessage_complete {r : Receiver} {answers : List DeviceAnswer}
    (h : (checkForMessage r answers).complete = true) :
    (checkForMessage r answers).receiver.transport = .fresh := by
  induction answers generalizing r with
  | nil => cases h
  | cons answer rest ih =>
      cases answer with
      | nothing => cases h
      | readFailed => cases h
      | byte b =>
          rw [checkForMessage] at h ⊢
          by_cases hdone : (r.readByte b).2 = true
          · rw [if_pos hdone]
            exact readByte_done_fresh hdone
          · rw [if_neg hdone] at h ⊢
            exact ih h

/-- A fresh transport has read nothing of a frame. -/
theorem Partial.fresh_tail {r : Receiver} (h : Partial r []) :
    r.transport = .fresh := by
  cases h
  rfl

/-- A receiver is at `MSG_SEG_START` exactly when it has read nothing of a
frame, and exactly then no message is in progress. -/
theorem Partial.start_iff {r : Receiver} {tail : List UInt8} (h : Partial r tail) :
    (r.transport.pendingMessage.currentSegment = .segStart ↔ tail = []) ∧
      (r.transport.msgInProgress = false ↔ tail = []) := by
  cases h <;> simp [SerialTransport.fresh, SerialTransport.inFrame]

end MpmtTestStand.Ports
