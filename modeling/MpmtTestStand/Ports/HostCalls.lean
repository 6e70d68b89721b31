import MpmtTestStand.Ports.ControllerPoints

/-!
# What the host makes of a response

A call of the host sends its request and, if it expects a response, waits for
it.  `HostCall.sent` and `Response.received` are the rest of a call after
either step.  `Computes` says, call by call, what the controller does for a
request and which value the caller gets; `Answers.computes` shows that this is
what comes out of the handler, the two codecs and the checks of the host.
-/

namespace MpmtTestStand.Ports

open MpmtTestStand.Verified
open MPMTTestStand

/-! ## The rest of a call -/

/-- What follows `recv_message` in a call that waits for `r`. -/
def Response.received (r : Response) (res : SerialResult) : HostProg := do
  let res ← (do
    if res ≠ .ok then return res
    let rx ← look
    if rx.msg.id ≠ r.id then return .errWrongMsg
    if rx.msg.length ≠ r.length then return .errDataLength
    return SerialResult.ok : LinkProg noOps SerialResult)
  if res ≠ .ok then return (res, .none)
  let rx ← look
  return r.result rx.msg

/-- What follows `send_message` in a call. -/
def HostCall.sent (c : HostCall) (res : SerialResult) : HostProg :=
  match c.response with
  | none => .ret (res, .none)
  | some r =>
      if res ≠ .ok then .ret (res, .none)
      else SerialSession.recvMessage r.timeoutMs >>= r.received

namespace HostCall

/-- Every call begins by sending its request. -/
theorem prog_sent (c : HostCall) :
    c.prog = SerialSession.sendMessage c.request >>= c.sent := by
  rw [c.prog_eq]
  unfold sent
  cases c.response with
  | none => rfl
  | some r =>
      simp only [exchange, TestStandComm.recvMessage, Prog.bind_bind]
      rfl

/-- A call that is begun between two messages starts to send its request. -/
theorem resume_prog {rx : Receiver} (hidle : rx.transport.msgInProgress = false)
    (c : HostCall) :
    Node.resume rx c.prog = ⟨rx, (Activity.send c.request).prog >>= c.sent⟩ := by
  have hstart : SessionCall.start rx (.sendMessage c.request) = .goes (.send c.request) := by
    simp [SessionCall.start, hidle]
  have hcall := Node.resume_call rx (.sendMessage c.request) c.sent
  rw [hstart] at hcall
  rw [c.prog_sent]
  exact hcall

/-- A call whose request is not acknowledged returns that. -/
theorem sent_failed {rx : Receiver} {res : SerialResult} (hres : res ≠ .ok) (c : HostCall) :
    (Next.returns res).prog rx c.sent = .ret (res, .none) := by
  unfold sent Next.prog
  cases c.response with
  | none => rfl
  | some r => simp [hres]

/-- A call without a response is over with the acknowledgement. -/
theorem sent_none {rx : Receiver} {c : HostCall} (hresponse : c.response = none) :
    (Next.returns .ok).prog rx c.sent = .ret (.ok, .none) := by
  simp [Next.prog, sent, hresponse]

/-- The other calls wait for their response. -/
theorem sent_some {rx : Receiver} {c : HostCall} {r : Response}
    (hresponse : c.response = some r) (hidle : rx.transport.msgInProgress = false) :
    (Next.returns .ok).prog rx c.sent =
      (Activity.receiving r.timeoutMs).prog >>= r.received := by
  have hstart : SessionCall.start rx (.recvMessage r.timeoutMs) =
      .goes (.receiving r.timeoutMs) := by
    simp [SessionCall.start, hidle]
  have hcall := congrArg Node.prog
    (Node.resume_call rx (.recvMessage r.timeoutMs) r.received)
  rw [hstart] at hcall
  simp only [Next.prog, sent, hresponse, ne_eq, not_true_eq_false, if_false]
  exact hcall

end HostCall

namespace Response

/-- A wait for a message that fails ends the call. -/
theorem received_failed {rx : Receiver} {res : SerialResult} (hres : res ≠ .ok)
    (r : Response) : (Next.returns res).prog rx r.received = .ret (res, .none) := by
  simp [Next.prog, received, hres]

/-- The expected response is decoded. -/
theorem received_ok {rx : Receiver} {r : Response} (hid : rx.msg.id = r.id)
    (hlength : rx.msg.length = r.length) :
    (Next.returns .ok).prog rx r.received = .ret (r.result rx.msg) := by
  simp [Next.prog, received, Prog.settle, answerLook, hid, hlength]

end Response

/-! ## Requests and responses -/

namespace MPMTTestStand

section Answers

variable {p q : Packet} {ops : List Acted}

/-- No response looks like an acknowledgement. -/
theorem Answers.reply_id (h : Answers p ops q) : ¬(q.id = msgIdAck ∨ q.id = msgIdNack) := by
  have hids : ∀ id ∈ [msgIdEchoed, msgIdStatus, msgIdPosition, msgIdTemp, msgIdAxisResult],
      ¬(id = msgIdAck ∨ id = msgIdNack) := by
    simp only [List.mem_cons, List.not_mem_nil, or_false, forall_eq_or_imp, forall_eq]
    decide
  apply hids
  cases h <;> simp [TestStandComm.echoedPacket, TestStandCommController.statusPacket,
    TestStandCommController.positionPacket, TestStandCommController.tempPacket,
    TestStandCommController.axisResultPacket]

theorem Answers.of_echo (h : Answers p ops q) (hp : p.id = msgIdEcho) :
    ops = [] ∧ q = TestStandComm.echoedPacket p := by
  cases h with
  | echo => exact ⟨rfl, rfl⟩
  | status h | position h | temp h | move h | malformed h =>
      exact absurd (hp.symm.trans h) (by decide)

theorem Answers.of_getStatus (h : Answers p ops q) (hp : p.id = msgIdGetStatus) :
    ∃ status, ops = [⟨.getStatus, status⟩] ∧
      q = TestStandCommController.statusPacket status := by
  cases h with
  | status _ status => exact ⟨status, rfl, rfl⟩
  | echo h | position h | temp h | move h | malformed h =>
      exact absurd (hp.symm.trans h) (by decide)

theorem Answers.of_getPosition (h : Answers p ops q) (hp : p.id = msgIdGetPosition) :
    ∃ x y first, ops = positionOps x y first ∧
      q = TestStandCommController.positionPacket ⟨x, y⟩ := by
  cases h with
  | position _ x y first => exact ⟨x, y, first, rfl, rfl⟩
  | echo h | status h | temp h | move h | malformed h =>
      exact absurd (hp.symm.trans h) (by decide)

theorem Answers.of_getTemp (h : Answers p ops q) (hp : p.id = msgIdGetTemp) :
    ∃ temp, ops = [⟨.readTempData, temp⟩] ∧ q = TestStandCommController.tempPacket temp := by
  cases h with
  | temp _ temp => exact ⟨temp, rfl, rfl⟩
  | echo h | status h | position h | move h | malformed h =>
      exact absurd (hp.symm.trans h) (by decide)

theorem Answers.of_move (h : Answers p ops q) (hp : p.id = msgIdMove)
    (hlength : p.length = MoveMsgData.size) :
    ∃ cal res, ops = moveOps (.ofBytes p.payload) cal res ∧
      q = TestStandCommController.axisResultPacket res := by
  cases h with
  | move _ _ cal res => exact ⟨cal, res, rfl, rfl⟩
  | malformed _ hlen => exact absurd hlength hlen
  | echo h | status h | position h | temp h =>
      exact absurd (hp.symm.trans h) (by decide)

end Answers

end MPMTTestStand

theorem not_responds_getAxisState : ¬Responds msgIdGetAxisState := by
  unfold Responds
  decide

/-- Only a bare ECHO gets a response that the call does not wait for. -/
theorem HostCall.silent_of_none {c : HostCall} (hresponse : c.response = none)
    (hecho : ∀ data fits, c ≠ .echo data fits) : ¬Responds c.request.id := by
  unfold Responds
  cases c with
  | echo data fits => exact absurd rfl (hecho data fits)
  | ping | home | stop => decide
  | calibrate key value =>
      simp only [request, TestStandCommHost.calibratePacket]
      decide
  | linkCheck | getStatus | move | getPosition | getTemp | getAxisState =>
      simp [response] at hresponse

/-- What the controller does for a call, and the value that the call returns. -/
inductive Computes : HostCall → List Acted → HostValue → Prop
  | linkCheck (timeoutMs : UInt32) : Computes (.linkCheck timeoutMs) [] .none
  | status (timeoutMs : UInt32) (status : Status) :
      Computes (.getStatus timeoutMs) [⟨.getStatus, status⟩] (.status status.toByte)
  | position (timeoutMs : UInt32) (x y : Int32) (first : AxisId) :
      Computes (.getPosition timeoutMs) (positionOps x y first) (.position ⟨x, y⟩)
  | temp (timeoutMs : UInt32) (temp : TempMsgData) :
      Computes (.getTemp timeoutMs) [⟨.readTempData, temp⟩] (.temp temp)
  | move (axis : AxisId) (dir : AxisDirection) (velHold distCounts timeoutMs : UInt32)
      (cal : Calibration) (res : AxisResult) :
      Computes (.move axis dir velHold distCounts timeoutMs)
        (moveOps ⟨velHold, distCounts, axis.toByte, dir.toByte⟩ cal res)
        (.axisResult res.toByte)

/-- The fields of a message in the buffer. -/
theorem ReceivedMessage.of_packet {msg : ReceivedMessage} {q : Packet} (h : msg.packet = q) :
    msg.id = q.id ∧ msg.length = q.length ∧ ∃ rest, msg.data.toList = q.payload ++ rest := by
  subst h
  refine ⟨rfl, msg.length_eq, msg.data.toList.drop msg.length.toNat, ?_⟩
  rw [ReceivedMessage.packet_payload, List.take_append_drop]

/-- The echo of the data of `link_check` fills the whole buffer and passes. -/
theorem TestStandComm.linkCheckResponse_received {rx : Receiver} {rest : List UInt8} (t : UInt32)
    (hid : rx.msg.id = msgIdEchoed) (hsize : rx.msg.length = 0xFF)
    (hdata : rx.msg.data.toList = linkCheckData ++ rest) :
    (Next.returns .ok).prog rx (linkCheckResponse t).received = .ret (.ok, .none) := by
  have hrest : rest = [] := by
    have hlen := congrArg List.length hdata
    have hfull : linkCheckData.length = msgDataLengthMax := linkCheckData_length_eq
    rw [Vector.length_toList, List.length_append, hfull] at hlen
    exact List.length_eq_zero_iff.mp (by omega)
  have hall : rx.msg.data.toList = linkCheckData := by
    rw [hdata, hrest, List.append_nil]
  have hreceived : (Next.returns .ok).prog rx (linkCheckResponse t).received =
      .ret ((linkCheckResponse t).result rx.msg) := Response.received_ok hid hsize
  rw [hreceived]
  exact congrArg Prog.ret (if_neg (not_not.mpr hall))

/-- The controller reads the fields of a MOVE as the host has written them. -/
theorem HostCall.ofBytes_move (axis : AxisId) (dir : AxisDirection)
    (velHold distCounts t : UInt32) :
    MoveMsgData.ofBytes (HostCall.move axis dir velHold distCounts t).request.payload =
      ⟨velHold, distCounts, axis.toByte, dir.toByte⟩ := by
  have hround := MoveMsgData.ofBytes_toBytes
    ⟨velHold, distCounts, axis.toByte, dir.toByte⟩ []
  rwa [List.append_nil] at hround

theorem HostCall.length_move (axis : AxisId) (dir : AxisDirection)
    (velHold distCounts t : UInt32) :
    (HostCall.move axis dir velHold distCounts t).request.length = MoveMsgData.size := by
  have hlen := MoveMsgData.toBytes_length ⟨velHold, distCounts, axis.toByte, dir.toByte⟩
  exact congrArg UInt8.ofNat hlen

/-- **The response to a request passes the checks of the host**, and its value
is the one the controller computed. -/
theorem MPMTTestStand.Answers.computes {c : HostCall} {r : Response} {rx : Receiver}
    {ops : List Acted} {q : Packet} (h : Answers c.request ops q)
    (hresponse : c.response = some r) (hmsg : rx.msg.packet = q) :
    ∃ v, (Next.returns .ok).prog rx r.received = .ret (.ok, v) ∧ Computes c ops v := by
  obtain ⟨hid, hlength, rest, hdata⟩ := ReceivedMessage.of_packet hmsg
  cases c with
  | ping | echo | home | stop | calibrate => simp [HostCall.response] at hresponse
  | getAxisState t => exact absurd h.responds not_responds_getAxisState
  | linkCheck t =>
      obtain rfl := Option.some.inj hresponse
      obtain ⟨rfl, rfl⟩ := h.of_echo rfl
      have hsize : rx.msg.length = 0xFF := by
        rw [hlength, Packet.length]
        exact congrArg UInt8.ofNat TestStandComm.linkCheckData_length_eq
      exact ⟨.none, TestStandComm.linkCheckResponse_received t hid hsize hdata, .linkCheck t⟩
  | getStatus t =>
      obtain rfl := Option.some.inj hresponse
      obtain ⟨status, rfl, rfl⟩ := h.of_getStatus rfl
      refine ⟨_, ?_, .status t status⟩
      rw [Response.received_ok hid hlength]
      simp only [TestStandCommHost.statusResponse, hdata]
      rfl
  | getPosition t =>
      obtain rfl := Option.some.inj hresponse
      obtain ⟨x, y, first, rfl, rfl⟩ := h.of_getPosition rfl
      refine ⟨_, ?_, .position t x y first⟩
      rw [Response.received_ok hid hlength]
      simp only [TestStandCommHost.positionResponse, hdata,
        TestStandCommController.positionPacket, PositionMsgData.ofBytes_toBytes]
  | getTemp t =>
      obtain rfl := Option.some.inj hresponse
      obtain ⟨temp, rfl, rfl⟩ := h.of_getTemp rfl
      refine ⟨_, ?_, .temp t temp⟩
      rw [Response.received_ok hid hlength]
      simp only [TestStandCommHost.tempResponse, hdata,
        TestStandCommController.tempPacket, TempMsgData.ofBytes_toBytes]
  | move axis dir velHold distCounts t =>
      obtain rfl := Option.some.inj hresponse
      obtain ⟨cal, res, rfl, rfl⟩ :=
        h.of_move rfl (HostCall.length_move axis dir velHold distCounts t)
      rw [HostCall.ofBytes_move]
      refine ⟨_, ?_, .move axis dir velHold distCounts t cal res⟩
      rw [Response.received_ok hid hlength]
      simp only [TestStandCommHost.axisResultResponse, hdata]
      rfl

end MpmtTestStand.Ports
