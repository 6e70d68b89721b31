import MpmtTestStand.Ports.HostCalls
import MpmtTestStand.Ports.ReportedStatus

/-!
# What the decoders read of the receive buffer

Both ends receive every frame into one buffer of 255 bytes, so behind the payload of
a message there is whatever earlier frames have left.  Every decoder checks the length
field before it copies a struct, except `recv_calibrate`: it asks for one byte, and
then takes as many more as the value of the key has.
`onMessage` is what a program does with a message until it reads the next one;
`decoders_depend_iff` says for which messages this depends on the message only.
-/

namespace MpmtTestStand.Ports

open MpmtTestStand.Verified
open MpmtTestStand.Verified.Run

variable {A : Sig} {α β : Type}

/-! ## Handling a message -/

/-- What a program does with a message that has just been received.  Until the
transport reads on, the receiver is as `check_for_message` left it. -/
def onMessage (msg : ReceivedMessage) : LinkProg A α → LinkProg A α
  | .op .look k => onMessage msg (k ⟨.fresh, msg⟩)
  | .op (.serWrite data) k => .op (.serWrite data) fun r => onMessage msg (k r)
  | .op (.act o) k => .op (.act o) fun r => onMessage msg (k r)
  | p => p

section OnMessage

variable {msg msg' : ReceivedMessage}

theorem onMessage_writePieces (pieces : List (List UInt8)) (f : Bool → LinkProg A α) :
    onMessage msg (SerialTransport.writePieces pieces >>= f) =
      SerialTransport.writePieces pieces >>= fun sent => onMessage msg (f sent) := by
  induction pieces with
  | nil => rfl
  | cons piece rest ih =>
      refine congrArg (Prog.op _) (funext fun r => ?_)
      cases r with
      | true => exact ih
      | false => rfl

/-- Sending does not depend on what is in the buffer. -/
theorem onMessage_sendMessage (p : Packet) (f : SerialResult → LinkProg A α)
    (h : ∀ res, onMessage msg (f res) = onMessage msg' (f res)) :
    onMessage msg (SerialSession.sendMessage p >>= f) =
      onMessage msg' (SerialSession.sendMessage p >>= f) := by
  have hsend : ∀ msg, onMessage msg (SerialSession.sendMessage p >>= f) =
      onMessage msg ((Activity.send p).prog >>= f) := fun _ => rfl
  rw [hsend, hsend, Activity.send, Activity.prog, Prog.bind_bind, onMessage_writePieces,
    onMessage_writePieces]
  refine congrArg (_ >>= ·) (funext fun sent => ?_)
  cases sent with
  | true => rfl
  | false => exact h .errSendFailed

/-- The acknowledgement is written before anything else. -/
theorem onMessage_checkReceivedMsg (f : SerialResult → LinkProg A α) :
    onMessage msg (SerialSession.checkReceivedMsg >>= f) =
      if msg.id = msgIdAck ∨ msg.id = msgIdNack then onMessage msg (f .errWrongMsg)
      else SerialSession.ack >>= fun sent =>
        onMessage msg (f (if sent then .ok else .errAckFailed)) := by
  have hlook : onMessage msg (SerialSession.checkReceivedMsg >>= f) =
      onMessage msg ((if msg.id = msgIdAck ∨ msg.id = msgIdNack then .ret .errWrongMsg
        else SerialSession.ack >>= Activity.afterAck) >>= f) := rfl
  rw [hlook]
  by_cases hid : msg.id = msgIdAck ∨ msg.id = msgIdNack
  · rw [if_pos hid, if_pos hid]
    rfl
  · rw [if_neg hid, if_neg hid, Prog.bind_bind]
    refine (onMessage_writePieces _ _).trans (congrArg (_ >>= ·) (funext fun sent => ?_))
    cases sent <;> rfl

end OnMessage

/-! ## The decoders of the host -/

section Host

variable {msg msg' : ReceivedMessage} {r : Response}

/-- The checks of the host compare the identifier and the length. -/
theorem onMessage_received (hid : msg.id = msg'.id) (hlength : msg.length = msg'.length)
    (hresult : msg.length = r.length → r.result msg = r.result msg') (res : SerialResult) :
    onMessage msg (r.received res) = onMessage msg' (r.received res) := by
  by_cases hres : res = .ok
  · by_cases hid' : msg.id = r.id
    · by_cases hlength' : msg.length = r.length
      · simp [Response.received, onMessage, hres, ← hid, ← hlength, hid', hlength', hresult hlength']
      · simp [Response.received, onMessage, hres, ← hid, ← hlength, hid', hlength']
    · simp [Response.received, onMessage, hres, ← hid, hid']
  · simp [Response.received, onMessage, hres]

/-- What a call makes of a response lies within the length that it checks. -/
theorem response_result {c : HostCall} (hresponse : c.response = some r)
    (hdata : msg.data.toList.take r.length.toNat = msg'.data.toList.take r.length.toNat) :
    r.result msg = r.result msg' := by
  have hfirst : ∀ msg : ReceivedMessage,
      msg.data.toList.getD 0 0 = (msg.data.toList.take 1).getD 0 0 := fun msg => by
    simp [List.getD_eq_getElem?_getD]
  cases c with
  | ping | echo | home | stop | calibrate => simp [HostCall.response] at hresponse
  | linkCheck t =>
      obtain rfl := Option.some.inj hresponse
      have hall : ∀ msg : ReceivedMessage, msg.data.toList.take 255 = msg.data.toList :=
        fun msg => List.take_of_length_le (by simp [msgDataLengthMax])
      have hsame : msg.data.toList = msg'.data.toList :=
        (hall msg).symm.trans (Eq.trans hdata (hall msg'))
      simp only [TestStandComm.linkCheckResponse, hsame]
  | getStatus t =>
      obtain rfl := Option.some.inj hresponse
      have hsame : msg.data.toList.take 1 = msg'.data.toList.take 1 := hdata
      simp only [TestStandCommHost.statusResponse, hfirst, hsame]
  | move axis dir velHold distCounts t =>
      obtain rfl := Option.some.inj hresponse
      have hsame : msg.data.toList.take 1 = msg'.data.toList.take 1 := hdata
      simp only [TestStandCommHost.axisResultResponse, hfirst, hsame]
  | getPosition t =>
      obtain rfl := Option.some.inj hresponse
      have hsame : msg.data.toList.take 8 = msg'.data.toList.take 8 := hdata
      have hvalue : PositionMsgData.ofBytes msg.data.toList = .ofBytes msg'.data.toList := by
        rw [← PositionMsgData.ofBytes_take, hsame, PositionMsgData.ofBytes_take]
      simp only [TestStandCommHost.positionResponse, hvalue]
  | getTemp t =>
      obtain rfl := Option.some.inj hresponse
      have hsame : msg.data.toList.take 20 = msg'.data.toList.take 20 := hdata
      have hvalue : TempMsgData.ofBytes msg.data.toList = .ofBytes msg'.data.toList := by
        rw [← TempMsgData.ofBytes_take, hsame, TempMsgData.ofBytes_take]
      simp only [TestStandCommHost.tempResponse, hvalue]
  | getAxisState t =>
      obtain rfl := Option.some.inj hresponse
      have hsame : msg.data.toList.take stateMsgDataSize.toNat =
          msg'.data.toList.take stateMsgDataSize.toNat := hdata
      simp only [TestStandCommHost.axisStateResponse, hsame]

/-- **The host decodes nothing but the response.**  This is what a call does when the
`recv_message` it waits in (`HostCall.sent_some`) has received a message. -/
theorem onMessage_response {c : HostCall} (hresponse : c.response = some r)
    (hpacket : msg.packet = msg'.packet) :
    onMessage msg (Activity.afterRecv true >>= r.received) =
      onMessage msg' (Activity.afterRecv true >>= r.received) := by
  have hid : msg.id = msg'.id := congrArg Packet.id hpacket
  have hlength : msg.length = msg'.length := by
    rw [msg.length_eq, msg'.length_eq, hpacket]
  have hreceived := fun res => onMessage_received hid hlength (fun hsize => by
    refine response_result hresponse ?_
    rw [← hsize]
    have hpayload := congrArg Packet.payload hpacket
    rwa [ReceivedMessage.packet_payload, ReceivedMessage.packet_payload, ← hlength] at hpayload)
    res
  show onMessage msg (SerialSession.checkReceivedMsg >>= r.received) =
    onMessage msg' (SerialSession.checkReceivedMsg >>= r.received)
  rw [onMessage_checkReceivedMsg, onMessage_checkReceivedMsg, hid]
  simp only [hreceived]

end Host

/-! ## The decoders of the controller -/

section Controller

open TestStandCommController

variable {msg msg' : ReceivedMessage}

theorem onMessage_recvEcho (hpacket : msg.packet = msg'.packet) :
    onMessage msg (TestStandComm.recvEcho : LinkProg A SerialResult) =
      onMessage msg' TestStandComm.recvEcho := by
  have hecho : ∀ msg, onMessage msg (TestStandComm.recvEcho : LinkProg A SerialResult) =
      onMessage msg (SerialSession.sendMessage (TestStandComm.echoedPacket msg.packet) >>=
        .ret) := by
    intro msg
    rw [Prog.bind_ret]
    rfl
  rw [hecho, hecho, hpacket]
  exact onMessage_sendMessage _ _ fun _ => rfl

theorem recvMove_packet (hpacket : msg.packet = msg'.packet) : recvMove msg = recvMove msg' := by
  rw [recvMove_payload, recvMove_payload, hpacket]

/-- Without a key there is nothing to extract. -/
theorem recvCalibrate_nil (h : msg.packet.payload = []) (cal : Calibration) :
    recvCalibrate msg cal = none := by
  have hlength : msg.length.toNat = 0 := by
    rw [msg.length_eq, Packet.length_toNat, h]
    rfl
  unfold recvCalibrate
  rw [if_pos]
  rw [UInt8.lt_iff_toNat_lt, hlength]
  decide

/-- The bytes behind the key are taken from the buffer. -/
theorem recvCalibrate_cons {key : UInt8} {rest : List UInt8}
    (h : msg.packet.payload = key :: rest) (cal : Calibration) :
    recvCalibrate msg cal = (CalibrationKey.ofByte? key).map fun k =>
      cal.store ((msg.data.toList.drop 1).take k.size) k := by
  have hlength : msg.length.toNat = rest.length + 1 := by
    rw [msg.length_eq, Packet.length_toNat, h]
    rfl
  obtain ⟨-, -, stale, hdata⟩ := ReceivedMessage.of_packet (rfl : msg.packet = msg.packet)
  unfold recvCalibrate
  rw [if_neg, Calibration.extract_eq, hdata, h]
  · rfl
  · rw [UInt8.lt_iff_toNat_lt, hlength]
    show ¬rest.length + 1 < 1
    omega

end Controller

/-! ## The messages that are decoded on their own -/

/-- If a CALIBRATE names a key, its value fits in the message. -/
def Covered (payload : List UInt8) : Prop :=
  ∀ key rest k, payload = key :: rest → CalibrationKey.ofByte? key = some k →
    k.size ≤ rest.length

/-- If a CALIBRATE names a key, its value is all there is behind it. -/
def Sized (payload : List UInt8) : Prop :=
  ∀ key rest k, payload = key :: rest → CalibrationKey.ofByte? key = some k →
    rest.length = k.size

/-- The decoders find the same in any two buffers that hold the message `p`. -/
structure DependOnMessage (p : Packet) : Prop where
  recvMove : ∀ msg msg' : ReceivedMessage, msg.packet = p → msg'.packet = p →
    TestStandCommController.recvMove msg = TestStandCommController.recvMove msg'
  recvCalibrate : p.id = msgIdCalibrate → ∀ msg msg' : ReceivedMessage, msg.packet = p →
    msg'.packet = p → ∀ cal, TestStandCommController.recvCalibrate msg cal =
      TestStandCommController.recvCalibrate msg' cal
  recvEcho : ∀ msg msg' : ReceivedMessage, msg.packet = p → msg'.packet = p →
    onMessage msg (TestStandComm.recvEcho : StandProg SerialResult) =
      onMessage msg' TestStandComm.recvEcho
  response : ∀ (c : HostCall) r, c.response = some r → ∀ msg msg' : ReceivedMessage,
    msg.packet = p → msg'.packet = p →
    onMessage msg (Activity.afterRecv true >>= r.received) =
      onMessage msg' (Activity.afterRecv true >>= r.received)

/-- `recv_calibrate` refuses a value of the wrong size. -/
def RefusesUnsized (p : Packet) : Prop :=
  p.id = msgIdCalibrate → ¬Sized p.payload → ∀ msg : ReceivedMessage, msg.packet = p →
    ∀ cal, TestStandCommController.recvCalibrate msg cal = none

/-- Behind the payload of a message anything can be left. -/
theorem exists_content (p : Packet) {stale : List UInt8}
    (h : p.payload.length + stale.length = msgDataLengthMax) :
    ∃ msg : ReceivedMessage, msg.packet = p ∧ msg.data.toList = p.payload ++ stale := by
  have hsize : (p.payload ++ stale).toArray.size = msgDataLengthMax := by simpa using h
  refine ⟨⟨p.id, p.length, ⟨(p.payload ++ stale).toArray, hsize⟩⟩, ?_, rfl⟩
  obtain ⟨id, payload, fits⟩ := p
  simp [ReceivedMessage.packet, Packet.length_toNat]

/-- The last byte of a value matters. -/
theorem ntohl_last (bytes : List UInt8) : ntohl (bytes ++ [0]) ≠ ntohl (bytes ++ [1]) := by
  intro h
  have hnat := congrArg UInt32.toNat h
  simp only [ntohl, BigEndian.decode_append_singleton, UInt32.toNat_ofNat'] at hnat
  have hzero : (0 : UInt8).toNat = 0 := rfl
  have hone : (1 : UInt8).toNat = 1 := rfl
  omega

theorem ntohd_last (bytes : List UInt8) : ntohd (bytes ++ [0]) ≠ ntohd (bytes ++ [1]) := by
  intro h
  have hnat := congrArg UInt64.toNat h
  simp only [ntohd, BigEndian.decode_append_singleton, UInt64.toNat_ofNat'] at hnat
  have hzero : (0 : UInt8).toNat = 0 := rfl
  have hone : (1 : UInt8).toNat = 1 := rfl
  omega

theorem store_last (cal : Calibration) (bytes : List UInt8) (k : CalibrationKey) :
    cal.store (bytes ++ [0]) k ≠ cal.store (bytes ++ [1]) k := by
  cases k with
  | gantryAccel => exact fun h => ntohl_last bytes (congrArg Calibration.accel h)
  | gantryVelStart => exact fun h => ntohl_last bytes (congrArg Calibration.velStart h)
  | gantryVelHome => exact fun h => ntohl_last bytes (congrArg Calibration.velHome h)
  | tempAllC1 => exact fun h => ntohd_last bytes (congrArg Calibration.c1 h)
  | tempAllC2 => exact fun h => ntohd_last bytes (congrArg Calibration.c2 h)
  | tempAllC3 => exact fun h => ntohd_last bytes (congrArg Calibration.c3 h)
  | tempAllResistor => exact fun h => ntohd_last bytes (congrArg Calibration.resistor h)

/-- A value that does not fit in the message is taken from what is left in the
buffer. -/
theorem recvCalibrate_stale {p : Packet} {key : UInt8} {rest : List UInt8} {k : CalibrationKey}
    (hpayload : p.payload = key :: rest) (hkey : CalibrationKey.ofByte? key = some k)
    (hshort : rest.length < k.size) (cal : Calibration) :
    ∃ msg msg' : ReceivedMessage, msg.packet = p ∧ msg'.packet = p ∧
      TestStandCommController.recvCalibrate msg cal ≠
        TestStandCommController.recvCalibrate msg' cal := by
  have hsize : k.size ≤ 8 := by cases k <;> decide
  obtain ⟨missing, hmissing⟩ : ∃ missing, k.size = rest.length + missing + 1 :=
    ⟨k.size - rest.length - 1, by omega⟩
  -- the last byte of the value is left from an earlier frame
  have hleft : ∀ b : UInt8, ∃ msg : ReceivedMessage, msg.packet = p ∧
      TestStandCommController.recvCalibrate msg cal =
        some (cal.store (rest ++ List.replicate missing 0 ++ [b]) k) := by
    intro b
    let value := rest ++ List.replicate missing 0 ++ [b]
    have hfits : p.payload.length +
        (List.replicate missing 0 ++ b :: List.replicate (254 - k.size) 0).length =
          msgDataLengthMax := by
      simp only [hpayload, List.length_cons, List.length_append, List.length_replicate,
        msgDataLengthMax]
      omega
    obtain ⟨msg, hpacket, hdata⟩ := exists_content p hfits
    have hvalue : (msg.data.toList.drop 1).take k.size = value := by
      have hbuffer : msg.data.toList.drop 1 = value ++ List.replicate (254 - k.size) 0 := by
        simp [hdata, hpayload, value]
      rw [hbuffer]
      refine List.take_left' ?_
      simp only [value, List.length_append, List.length_replicate, List.length_singleton]
      omega
    refine ⟨msg, hpacket, ?_⟩
    rw [recvCalibrate_cons (hpacket ▸ hpayload), hkey, Option.map_some, hvalue]
  obtain ⟨msg, hpacket, hmsg⟩ := hleft 0
  obtain ⟨msg', hpacket', hmsg'⟩ := hleft 1
  refine ⟨msg, msg', hpacket, hpacket', ?_⟩
  rw [hmsg, hmsg']
  exact fun heq => store_last cal _ k (Option.some.inj heq)

/-- **When the decoders depend on the message only.** -/
theorem dependOnMessage_iff (p : Packet) :
    DependOnMessage p ↔ (p.id = msgIdCalibrate → Covered p.payload) := by
  constructor
  · intro h hid key rest k hpayload hkey
    by_contra hshort
    obtain ⟨msg, msg', hpacket, hpacket', hne⟩ :=
      recvCalibrate_stale hpayload hkey (by omega) defaultCalibration
    exact hne (h.recvCalibrate hid msg msg' hpacket hpacket' defaultCalibration)
  · intro hcovered
    refine ⟨fun msg msg' h h' => recvMove_packet (h.trans h'.symm), ?_,
      fun msg msg' h h' => onMessage_recvEcho (h.trans h'.symm),
      fun c r hresponse msg msg' h h' => onMessage_response hresponse (h.trans h'.symm)⟩
    intro hid msg msg' h h' cal
    have hp := hcovered hid
    cases hpayload : p.payload with
    | nil => rw [recvCalibrate_nil (h ▸ hpayload), recvCalibrate_nil (h' ▸ hpayload)]
    | cons key rest =>
        rw [recvCalibrate_cons (h ▸ hpayload), recvCalibrate_cons (h' ▸ hpayload)]
        cases hkey : CalibrationKey.ofByte? key with
        | none => rfl
        | some k =>
            have hfits := hp key rest k hpayload hkey
            have hvalue : ∀ msg : ReceivedMessage, msg.packet = p →
                (msg.data.toList.drop 1).take k.size = rest.take k.size := by
              intro msg h
              obtain ⟨-, -, stale, hdata⟩ := ReceivedMessage.of_packet h
              rw [hdata, hpayload]
              exact List.take_append_of_le_length hfits
            rw [Option.map_some, Option.map_some, hvalue msg h, hvalue msg' h']

/-- **When `recv_calibrate` refuses every value of the wrong size.** -/
theorem refusesUnsized_iff (p : Packet) :
    RefusesUnsized p ↔ (p.id = msgIdCalibrate → Sized p.payload) := by
  constructor
  · intro h hid key rest k hpayload hkey
    by_contra hsize
    have hunsized : ¬Sized p.payload := fun hsized => hsize (hsized key rest k hpayload hkey)
    have hfits : p.payload.length +
        (List.replicate (255 - p.payload.length) (0 : UInt8)).length = msgDataLengthMax := by
      have := p.fits
      simp only [List.length_replicate, msgDataLengthMax]
      omega
    obtain ⟨msg, hpacket, -⟩ := exists_content p hfits
    have hnone := h hid hunsized msg hpacket defaultCalibration
    rw [recvCalibrate_cons (hpacket ▸ hpayload), hkey] at hnone
    cases hnone
  · exact fun hsized hid hunsized => absurd (hsized hid) hunsized

/-- **What the decoders depend on.**  All of them depend on the message alone, and
`recv_calibrate` refuses every value of the wrong size, if and only if the message is
not a CALIBRATE whose key stands before a value of another size.  They depend on
more, on what earlier frames have left, exactly if it is one whose value does not fit
in the message. -/
theorem decoders_depend_iff (p : Packet) :
    (DependOnMessage p ∧ RefusesUnsized p ↔ (p.id = msgIdCalibrate → Sized p.payload)) ∧
    (DependOnMessage p ↔ (p.id = msgIdCalibrate → Covered p.payload)) := by
  have hcovered : (p.id = msgIdCalibrate → Sized p.payload) →
      (p.id = msgIdCalibrate → Covered p.payload) := by
    intro hsized hid key rest k hpayload hkey
    exact Nat.le_of_eq (hsized hid key rest k hpayload hkey).symm
  rw [dependOnMessage_iff, refusesUnsized_iff]
  exact ⟨⟨fun h => h.2, fun h => ⟨hcovered h, h⟩⟩, Iff.rfl⟩

namespace MPMTTestStand

/-- A CALIBRATE that ends with its key. -/
def calibrateAccel : Packet := ⟨msgIdCalibrate, [0], by decide⟩

/-- It is the first message. -/
def calibratedFirst : List ControllerEvent := connected ++ request calibrateAccel 3

/-- There was an ECHO before it. -/
def calibratedLater : List ControllerEvent :=
  connected ++ request (TestStandComm.echoPacket [9, 0, 0, 0, 5] (by decide)) 1 ++ answered ++
    .loop :: operations 1 ++ request calibrateAccel 3

set_option maxRecDepth 4000 in
/-- **A calibration from another message.**  The same CALIBRATE gives two calibrations,
with the four bytes that an ECHO has left and without. -/
theorem calibrate_stale :
    ∃ m m', run Recorder.step (.init conf defaultCalibration) calibratedFirst = some m ∧
      run Recorder.step (.init conf defaultCalibration) calibratedLater = some m' ∧
      m.controller.node.rx.msg.packet = calibrateAccel ∧
      m'.controller.node.rx.msg.packet = calibrateAccel ∧
      m.controller.stand.cal.accel = 0 ∧ m'.controller.stand.cal.accel = 5 ∧
      ¬(DependOnMessage calibrateAccel ∧ RefusesUnsized calibrateAccel) := by
  refine ⟨_, _, rfl, rfl, rfl, rfl, rfl, rfl, fun h => ?_⟩
  have hsized := (refusesUnsized_iff calibrateAccel).mp h.2 rfl
  exact absurd (hsized 0 [] .gantryAccel rfl rfl) (by decide)

end MPMTTestStand

end MpmtTestStand.Ports
