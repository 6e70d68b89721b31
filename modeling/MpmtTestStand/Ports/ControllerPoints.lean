import MpmtTestStand.Ports.TestStand

/-!
# Where the controller's program is

The points of the main program at which it waits for a signal or performs an
operation, and how it gets from one to the next.  `At` says that a program is at
a point; the step lemmas below are all that later modules use of the text of
`setup`, `execute` and the handlers.

What a handler does is summed up by two relations between the message, the
operations performed and the outcome: `Answers` for handlers that send a
response, `Silent` for those that do not.
-/

namespace MpmtTestStand.Ports

open MpmtTestStand.Verified

namespace MPMTTestStand

/-! ## Handlers -/

/-- The operations of `handle_stop`. -/
def stopOps : List Acted := [⟨.axisStop .x, ()⟩, ⟨.axisStop .y, ()⟩, ⟨.setStatus .idle, ()⟩]

/-- The operations of `handle_move` for a message of the right size. -/
def moveOps (data : MoveMsgData) (cal : Calibration) (res : AxisResult) : List Acted :=
  [⟨.getCal, cal⟩, ⟨.axisStart data.axis (moveMotion data cal), res⟩] ++
    if res = .ok then [⟨.setStatus .moving, ()⟩] else []

/-- The operations of `handle_get_position`, by the argument that is evaluated first. -/
def positionOps (x y : Int32) : AxisId → List Acted
  | .x => [⟨.firstArgument, AxisId.x⟩, ⟨.encoderCurrent .x, x⟩, ⟨.encoderCurrent .y, y⟩]
  | .y => [⟨.firstArgument, AxisId.y⟩, ⟨.encoderCurrent .y, y⟩, ⟨.encoderCurrent .x, x⟩]

/-- The handler for `p`, having performed `ops`, sends the response `q`. -/
inductive Answers (p : Packet) : List Acted → Packet → Prop
  | echo (h : p.id = msgIdEcho) : Answers p [] (TestStandComm.echoedPacket p)
  | status (h : p.id = msgIdGetStatus) (status : Status) :
      Answers p [⟨.getStatus, status⟩] (TestStandCommController.statusPacket status)
  | position (h : p.id = msgIdGetPosition) (x y : Int32) (first : AxisId) :
      Answers p (positionOps x y first) (TestStandCommController.positionPacket ⟨x, y⟩)
  | temp (h : p.id = msgIdGetTemp) (temp : TempMsgData) :
      Answers p [⟨.readTempData, temp⟩] (TestStandCommController.tempPacket temp)
  | move (h : p.id = msgIdMove) (hlen : p.length = MoveMsgData.size) (cal : Calibration)
      (res : AxisResult) :
      Answers p (moveOps (.ofBytes p.payload) cal res)
        (TestStandCommController.axisResultPacket res)
  | malformed (h : p.id = msgIdMove) (hlen : p.length ≠ MoveMsgData.size) :
      Answers p [] (TestStandCommController.axisResultPacket .errInvalid)

/-- The identifiers of the messages that get a response. -/
def Responds (id : UInt8) : Prop :=
  id = msgIdEcho ∨ id = msgIdGetStatus ∨ id = msgIdGetPosition ∨ id = msgIdGetTemp ∨
    id = msgIdMove

/-- The handler for `p`, having performed `ops`, is done without a response. -/
structure Silent (p : Packet) (ops : List Acted) : Prop where
  id : ¬Responds p.id
  stop : p.id = msgIdStop → ops = stopOps

theorem not_responds_stop : ¬Responds msgIdStop := by
  unfold Responds
  decide

theorem Answers.responds {p q : Packet} {ops : List Acted} (h : Answers p ops q) :
    Responds p.id := by
  cases h with
  | echo h => exact .inl h
  | status h => exact .inr (.inl h)
  | position h => exact .inr (.inr (.inl h))
  | temp h => exact .inr (.inr (.inr (.inl h)))
  | move h => exact .inr (.inr (.inr (.inr h)))
  | malformed h => exact .inr (.inr (.inr (.inr h)))

/-- An operation of the main program other than a dispatch. -/
def Own (o : LinkOp standSig) : Prop := ∃ s : StandOp, o = .act s ∧ ∀ q, s ≠ .dispatch q

/-- What is left of the handler for `p`, which has performed `ops`, as long as
the receiver is `rx`. -/
inductive Handler (rx : Receiver) (p : Packet) : List Acted → StandProg Unit → Prop
  | act (ops : List Acted) (o : StandOp) (k : o.Res → StandProg Unit)
      (ho : ∀ q, o ≠ .dispatch q)
      (hstop : ∀ r, p.id = msgIdStop → ops ++ [⟨o, r⟩] <+: stopOps)
      (hk : ∀ r, Handler rx p (ops ++ [⟨o, r⟩]) ((k r).settle (answerLook rx))) :
      Handler rx p ops (.op (.act o) k)
  | reply (ops : List Acted) (q : Packet) (h : Answers p ops q) :
      Handler rx p ops ((Activity.send q).prog >>= fun _ => .ret ())
  | done (ops : List Acted) (h : Silent p ops) : Handler rx p ops (.ret ())

section Handlers

variable {rx : Receiver} {p : Packet}

/-- A reply with the receiver between two messages. -/
theorem Handler.of_send {ops : List Acted} {q : Packet} (hidle : rx.transport.msgInProgress = false)
    (h : Answers p ops q) :
    Handler rx p ops
      ((SerialSession.sendMessage q >>= fun _ => .ret ()).settle (answerLook rx)) := by
  have hcall := Node.resume_call rx (.sendMessage q) fun _ => (.ret () : StandProg Unit)
  have hprog := congrArg Node.prog hcall
  rw [show SessionCall.start rx (.sendMessage q) = .goes (.send q) by
    simp [SessionCall.start, hidle]] at hprog
  rw [show (SerialSession.sendMessage q >>= fun _ => (.ret () : StandProg Unit)).settle
    (answerLook rx) = (Activity.send q).prog >>= fun _ => .ret () from hprog]
  exact .reply ops q h

/-- The handler of a message that gets no response may go on as it likes, unless
the message is a STOP. -/
theorem Handler.of_only {ops : List Acted} {h : StandProg Unit} (hid : ¬Responds p.id)
    (hstop : p.id ≠ msgIdStop)
    (honly : Prog.Only Own h) :
    Handler rx p ops (h.settle (answerLook rx)) := by
  induction honly generalizing ops with
  | ret u => exact .done ops ⟨hid, fun h => absurd h hstop⟩
  | op ho _ ih =>
      obtain ⟨s, rfl, hs⟩ := ho
      exact .act ops s _ hs (fun _ h => absurd h hstop) fun r => ih r

theorem handler_echo (hidle : rx.transport.msgInProgress = false)
    (hid : rx.msg.id = msgIdEcho) :
    Handler rx rx.msg.packet [] (handleEcho.settle (answerLook rx)) :=
  .of_send hidle (.echo hid)

theorem handler_move (hidle : rx.transport.msgInProgress = false)
    (hid : rx.msg.id = msgIdMove) :
    Handler rx rx.msg.packet [] (handleMove.settle (answerLook rx)) := by
  have hother : rx.msg.id ≠ msgIdStop := by
    rw [hid]
    decide
  by_cases hlen : rx.msg.length = MoveMsgData.size
  · have hdata : TestStandCommController.recvMove rx.msg =
        some (.ofBytes rx.msg.packet.payload) := by
      have hpayload : rx.msg.packet.payload = rx.msg.data.toList.take 10 := by
        rw [ReceivedMessage.packet_payload, hlen]
        rfl
      rw [hpayload, MoveMsgData.ofBytes_take]
      simp [TestStandCommController.recvMove, hlen]
    have hsize : rx.msg.packet.length = MoveMsgData.size := by
      rw [← rx.msg.length_eq, hlen]
    have hanswers := fun cal res => Answers.move (p := rx.msg.packet) hid hsize cal res
    simp only [handleMove, look_bind, Prog.settle, answerLook, hdata]
    refine .act _ .getCal _ (by simp) (fun _ h => absurd h hother) fun cal => ?_
    refine .act _ (.axisStart _ _) _ (by simp) (fun _ h => absurd h hother) fun res => ?_
    change Handler _ _ _ (Prog.settle _ (if res = .ok then _ else _))
    by_cases hres : res = .ok
    · rw [if_pos hres]
      refine .act _ (.setStatus .moving) _ (by simp) (fun _ h => absurd h hother) fun _ => ?_
      refine .of_send hidle ?_
      simpa [moveOps, hres] using hanswers cal res
    · rw [if_neg hres]
      refine .of_send hidle ?_
      simpa [moveOps, hres] using hanswers cal res
  · have hdata : TestStandCommController.recvMove rx.msg = none := by
      simp [TestStandCommController.recvMove, hlen]
    have hsize : rx.msg.packet.length ≠ MoveMsgData.size := by
      rwa [← rx.msg.length_eq]
    have hprog : handleMove.settle (answerLook rx) =
        (SerialSession.sendMessage
          (TestStandCommController.axisResultPacket .errInvalid) >>= fun _ =>
            .ret ()).settle (answerLook rx) := by
      simp only [handleMove, look_bind, Prog.settle, answerLook, hdata]
      rfl
    rw [hprog]
    exact .of_send hidle (.malformed hid hsize)

theorem handler_stop (hid : rx.msg.id = msgIdStop) :
    Handler rx rx.msg.packet [] (handleStop.settle (answerLook rx)) := by
  have hsilent : ¬Responds rx.msg.packet.id := by
    rw [ReceivedMessage.packet_id, hid]
    exact not_responds_stop
  refine .act _ (.axisStop .x) _ (by simp) (fun _ _ => ⟨_, rfl⟩) fun _ => ?_
  refine .act _ (.axisStop .y) _ (by simp) (fun _ _ => ⟨_, rfl⟩) fun _ => ?_
  refine .act _ (.setStatus .idle) _ (by simp) (fun _ _ => ⟨_, rfl⟩) fun _ => ?_
  exact .done _ ⟨hsilent, fun _ => rfl⟩

theorem handler_getStatus (hidle : rx.transport.msgInProgress = false)
    (hid : rx.msg.id = msgIdGetStatus) :
    Handler rx rx.msg.packet [] (handleGetStatus.settle (answerLook rx)) := by
  have hother : rx.msg.id ≠ msgIdStop := by
    rw [hid]
    decide
  refine .act _ .getStatus _ (by simp) (fun _ h => absurd h hother) fun status => ?_
  exact .of_send hidle (.status hid status)

theorem handler_getPosition (hidle : rx.transport.msgInProgress = false)
    (hid : rx.msg.id = msgIdGetPosition) :
    Handler rx rx.msg.packet [] (handleGetPosition.settle (answerLook rx)) := by
  have hother : rx.msg.id ≠ msgIdStop := by
    rw [hid]
    decide
  refine .act _ .firstArgument _ (by simp) (fun _ h => absurd h hother) fun first => ?_
  cases first with
  | x =>
      refine .act _ (.encoderCurrent .x) _ (by simp) (fun _ h => absurd h hother) fun x => ?_
      refine .act _ (.encoderCurrent .y) _ (by simp) (fun _ h => absurd h hother) fun y => ?_
      exact .of_send hidle (.position hid x y .x)
  | y =>
      refine .act _ (.encoderCurrent .y) _ (by simp) (fun _ h => absurd h hother) fun y => ?_
      refine .act _ (.encoderCurrent .x) _ (by simp) (fun _ h => absurd h hother) fun x => ?_
      exact .of_send hidle (.position hid x y .y)

theorem handler_getTemp (hidle : rx.transport.msgInProgress = false)
    (hid : rx.msg.id = msgIdGetTemp) :
    Handler rx rx.msg.packet [] (handleGetTemp.settle (answerLook rx)) := by
  have hother : rx.msg.id ≠ msgIdStop := by
    rw [hid]
    decide
  refine .act _ .readTempData _ (by simp) (fun _ h => absurd h hother) fun temp => ?_
  exact .of_send hidle (.temp hid temp)

/-- A single operation that is not a dispatch. -/
theorem only_stand (o : StandOp) (ho : ∀ q, o ≠ .dispatch q) : Prog.Only Own (stand o) :=
  .perform (S := linkSig standSig) ⟨o, rfl, ho⟩

theorem only_homeA : Prog.Only Own handleHomeA := by
  refine (only_stand .getCal (by simp)).bind fun cal => ?_
  refine (only_stand (.axisStart _ _) (by simp)).bind fun _ => ?_
  refine (only_stand (.axisStart _ _) (by simp)).bind fun _ => ?_
  refine (only_stand (.setHomeADone false) (by simp)).bind fun _ => ?_
  exact only_stand (.setStatus .homing) (by simp)

/-- A calibration is decoded from the message in the buffer. -/
theorem handler_calibrate (hid : rx.msg.id = msgIdCalibrate) :
    Handler rx rx.msg.packet [] (handleCalibrate.settle (answerLook rx)) := by
  have hother : rx.msg.packet.id ≠ msgIdStop := by
    rw [ReceivedMessage.packet_id, hid]
    decide
  have hsilent : ¬Responds rx.msg.packet.id := by
    rw [ReceivedMessage.packet_id, hid]
    unfold Responds
    decide
  refine .act _ .getCal _ (by simp) (fun _ h => absurd h hother) fun cal => ?_
  refine .of_only hsilent hother ?_
  dsimp only [Prog.bind]
  split
  · exact only_stand _ (by simp)
  · exact .ret ()

/-- **Every handler** either sends the one response to its message or none. -/
theorem handler_start (hidle : rx.transport.msgInProgress = false) :
    Handler rx rx.msg.packet [] ((handle rx.msg.id).settle (answerLook rx)) := by
  unfold handle
  by_cases hecho : rx.msg.id = msgIdEcho
  · rw [if_pos hecho]
    exact handler_echo hidle hecho
  rw [if_neg hecho]
  by_cases hhome : rx.msg.id = msgIdHome
  · rw [if_pos hhome]
    refine .of_only ?_ ?_ only_homeA <;> rw [ReceivedMessage.packet_id, hhome]
    · unfold Responds
      decide
    · decide
  rw [if_neg hhome]
  by_cases hmove : rx.msg.id = msgIdMove
  · rw [if_pos hmove]
    exact handler_move hidle hmove
  rw [if_neg hmove]
  by_cases hstop : rx.msg.id = msgIdStop
  · rw [if_pos hstop]
    exact handler_stop hstop
  rw [if_neg hstop]
  by_cases hstatus : rx.msg.id = msgIdGetStatus
  · rw [if_pos hstatus]
    exact handler_getStatus hidle hstatus
  rw [if_neg hstatus]
  by_cases hposition : rx.msg.id = msgIdGetPosition
  · rw [if_pos hposition]
    exact handler_getPosition hidle hposition
  rw [if_neg hposition]
  -- the messages that are left get no response
  by_cases htemp : rx.msg.id = msgIdGetTemp
  · rw [if_neg (by rw [htemp]; decide), if_pos htemp]
    exact handler_getTemp hidle htemp
  have hsilent : ¬Responds rx.msg.packet.id := by
    rintro (h | h | h | h | h)
    · exact hecho h
    · exact hstatus h
    · exact hposition h
    · exact htemp h
    · exact hmove h
  by_cases hstate : rx.msg.id = msgIdGetAxisState
  · rw [if_pos hstate]
    exact .of_only hsilent hstop (.ret ())
  rw [if_neg hstate, if_neg htemp]
  by_cases hcal : rx.msg.id = msgIdCalibrate
  · rw [if_pos hcal]
    exact handler_calibrate hcal
  rw [if_neg hcal]
  exact .of_only hsilent hstop (.ret ())

end Handlers

/-! ## Points of the main program -/

/-- What follows `check_for_message` in a round. -/
def afterPoll (res : SerialResult) : StandProg Phase := serve res >>= fun _ => .ret .running

/-- What follows the PING of `connect`. -/
def afterPing (res : SerialResult) : StandProg Phase :=
  if res = .ok then stand (.setStatus .idle) >>= fun _ => .ret .running
  else .ret .connecting

/-- The points of the main program.  A message is acknowledged, dispatched and
handled; between two messages the program is `idle`, which includes the PINGs of
the connecting phase. -/
inductive Point
  | idle (phase : Phase)
  | acking (p : Packet) (a : Activity)
  | dispatching (p : Packet)
  | handling (p : Packet) (ops : List Acted)
  | replying (p : Packet) (ops : List Acted) (q : Packet) (a : Activity)

/-- The session call at a point of the program, and what follows it. -/
inductive Calls (rx : Receiver) : Point → Activity → (SerialResult → StandProg Phase) → Prop
  | poll : Calls rx (.idle .running) .polling afterPoll
  | ping (a : Activity) (ha : a.sending = true) : Calls rx (.idle .connecting) a afterPing
  | ack (p : Packet) (piece : List UInt8) (rest : List (List UInt8))
      (hmsg : rx.msg.packet = p) (hidle : rx.transport.msgInProgress = false) :
      Calls rx (.acking p (.acking piece rest)) (.acking piece rest) afterPoll
  | reply (p : Packet) (ops : List Acted) (q : Packet) (a : Activity) (ha : a.sending = true)
      (h : Answers p ops q) :
      Calls rx (.replying p ops q a) a fun _ => .ret .running

/-- The rest of the program at each point. -/
inductive At (rx : Receiver) : Point → StandProg Phase → Prop
  | between (phase : Phase) : At rx (.idle phase) (.ret phase)
  | own (phase : Phase) (o : StandOp) (k : o.Res → StandProg Phase)
      (ho : ∀ q, o ≠ .dispatch q)
      (hk : ∀ r, At rx (.idle phase) ((k r).settle (answerLook rx))) :
      At rx (.idle phase) (.op (.act o) k)
  | call {pt : Point} {a : Activity} {k : SerialResult → StandProg Phase}
      (h : Calls rx pt a k) : At rx pt (a.prog >>= k)
  | dispatching (p : Packet) (k : Unit → StandProg Phase) (h : StandProg Unit)
      (hh : Handler rx p [] h)
      (hk : (k ()).settle (answerLook rx) = h >>= fun _ => .ret .running) :
      At rx (.dispatching p) (.op (.act (.dispatch p)) k)
  | handling (p : Packet) (ops : List Acted) (o : StandOp) (k : o.Res → StandProg Unit)
      (hh : Handler rx p ops (.op (.act o) k)) :
      At rx (.handling p ops) (.op (.act o) k >>= fun _ => .ret .running)

/-- Where a handler that has performed `ops` gets to. -/
inductive Continues (p : Packet) (ops : List Acted) : Point → Prop
  | goes : Continues p ops (.handling p ops)
  | replies (q : Packet) (h : Answers p ops q) :
      Continues p ops (.replying p ops q (.send q))
  | ends (h : Silent p ops) : Continues p ops (.idle .running)

/-- What an operation of the main program does. -/
inductive Acts : Point → Acted → Point → Prop
  | own (phase : Phase) (a : Acted) (ha : ∀ q, a.op ≠ .dispatch q) :
      Acts (.idle phase) a (.idle phase)
  | dispatch (p : Packet) (pt : Point) (h : Continues p [] pt) :
      Acts (.dispatching p) ⟨.dispatch p, ()⟩ pt
  | handle (p : Packet) (ops : List Acted) (a : Acted) (pt : Point)
      (ha : ∀ q, a.op ≠ .dispatch q) (hstop : p.id = msgIdStop → ops ++ [a] <+: stopOps)
      (h : Continues p (ops ++ [a]) pt) :
      Acts (.handling p ops) a pt

section Points

variable {rx : Receiver} {pt : Point} {prog : StandProg Phase} {p : Packet} {ops : List Acted}

theorem At.of_handler {h : StandProg Unit} (hh : Handler rx p ops h) :
    ∃ pt, Continues p ops pt ∧ At rx pt (h >>= fun _ => .ret .running) := by
  cases hh with
  | act _ o k ho hstop hk =>
      exact ⟨_, .goes, .handling p ops o k (.act ops o k ho hstop hk)⟩
  | reply _ q h =>
      rw [Prog.bind_bind]
      exact ⟨_, .replies q h, .call (.reply p ops q _ rfl h)⟩
  | done _ h => exact ⟨_, .ends h, .between .running⟩

/-- A handler is at an operation that takes time. -/
theorem Handler.settle_bind {h : StandProg Unit} (hh : Handler rx p ops h) :
    (h >>= fun _ => Prog.ret Phase.running).settle (answerLook rx) =
      h >>= fun _ => .ret .running := by
  cases hh with
  | act => rfl
  | reply _ q h =>
      rw [Prog.bind_bind]
      exact Node.settle_prog rx _ _
  | done => rfl

/-- Operations of the main program before it goes on with `next`. -/
theorem At.of_only {phase : Phase} {u : StandProg Unit} {next : StandProg Phase}
    (honly : Prog.Only Own u) (hnext : At rx (.idle phase) (next.settle (answerLook rx))) :
    At rx (.idle phase) ((u >>= fun _ => next).settle (answerLook rx)) := by
  induction honly with
  | ret _ => exact hnext
  | op ho _ ih =>
      obtain ⟨o, rfl, ho⟩ := ho
      exact .own phase o _ ho ih

/-- **What an operation of the main program does**, from every point. -/
theorem At.act {c c' : Controller} {around : Outside} {a : Acted}
    (hat : At c.node.rx pt c.node.prog) (h : c.act around = some (c', a)) :
    c'.node.rx = c.node.rx ∧ ∃ pt', Acts pt a pt' ∧ At c'.node.rx pt' c'.node.prog := by
  obtain ⟨⟨rx, prog⟩, stand⟩ := c
  -- what is left of `Controller.act` once the operation is known
  have hperform : ∀ {o : StandOp} {k : o.Res → StandProg Phase}, prog = .op (.act o) k →
      ∃ r, a = ⟨o, r⟩ ∧ c'.node = Node.resume rx (k r) := by
    rintro o k rfl
    rcases hres : stand.perform around o with _ | ⟨r, stand'⟩
    · simp [Controller.act, hres] at h
    · simp only [Controller.act, hres, Option.some.injEq, Prod.mk.injEq] at h
      obtain ⟨rfl, rfl⟩ := h
      exact ⟨r, rfl, rfl⟩
  cases hat with
  | between phase => simp [Controller.act] at h
  | own phase o k ho hk =>
      obtain ⟨r, rfl, hnode⟩ := hperform rfl
      rw [hnode]
      exact ⟨rfl, _, .own phase _ ho, hk r⟩
  | @call _ b k hcalls => cases b <;> cases h
  | dispatching p k h hh hk =>
      obtain ⟨r, rfl, hnode⟩ := hperform rfl
      obtain ⟨pt', hpt, hat⟩ := At.of_handler hh
      rw [hnode]
      refine ⟨rfl, pt', .dispatch p pt' hpt, ?_⟩
      rwa [← hk] at hat
  | handling p ops o k hh =>
      obtain ⟨r, rfl, hnode⟩ := hperform rfl
      cases hh with
      | act _ _ _ ho hstop hk =>
          obtain ⟨pt', hpt, hat⟩ := At.of_handler (hk r)
          rw [hnode]
          refine ⟨rfl, pt', .handle p ops _ pt' ho (hstop r) hpt, ?_⟩
          rw [← (hk r).settle_bind, ← Prog.settle_bind] at hat
          exact hat

/-! ## The end of a call -/

/-- A message has been received and acknowledged. -/
theorem At.polled (hmsg : rx.msg.packet = p) (hidle : rx.transport.msgInProgress = false) :
    At rx (.dispatching p) ((Next.returns .ok).prog rx afterPoll) := by
  subst hmsg
  have hh := handler_start hidle
  refine .dispatching rx.msg.packet _ _ hh ?_
  rw [← hh.settle_bind, ← Prog.settle_bind]
  rfl

/-- There is no message to dispatch. -/
theorem At.not_polled {res : SerialResult} (hres : res ≠ .ok) :
    At rx (.idle .running) ((Next.returns res).prog rx afterPoll) := by
  have hprog : (Next.returns res).prog rx afterPoll = .ret .running := by
    simp only [Next.prog, afterPoll, serve, if_neg hres]
    rfl
  rw [hprog]
  exact .between _

/-- A PING has been answered or not. -/
theorem At.pinged (rx : Receiver) (res : SerialResult) :
    ∃ phase, At rx (.idle phase) ((Next.returns res).prog rx afterPing) := by
  simp only [Next.prog, afterPing]
  split
  · exact ⟨.running, .own .running (.setStatus .idle) _ (by simp) fun _ => .between _⟩
  · exact ⟨.connecting, .between _⟩

/-! ## The rounds of the loops -/

theorem only_anyMoving : Prog.Only Own anyMoving :=
  (only_stand (.moving .x) (by simp)).orM (only_stand (.moving .y) (by simp))

theorem only_anyLsPressed : Prog.Only Own anyLsPressed := by
  refine (only_stand (.lsHomePressed .x) (by simp)).orM ?_
  refine (only_stand (.lsFarPressed .x) (by simp)).orM ?_
  refine (only_stand (.lsHomePressed .y) (by simp)).orM ?_
  exact only_stand (.lsFarPressed .x) (by simp)

theorem only_homeB : Prog.Only Own handleHomeB := by
  refine (only_stand .getCal (by simp)).bind fun cal => ?_
  refine (only_stand (.axisStart _ _) (by simp)).bind fun _ => ?_
  refine (only_stand (.axisStart _ _) (by simp)).bind fun _ => ?_
  refine (only_stand (.setHomeADone true) (by simp)).bind fun _ => ?_
  exact only_stand (.setStatus .homing) (by simp)

theorem only_updateStatus : Prog.Only Own updateStatus := by
  have hset := fun status => only_stand (.setStatus status) (by simp)
  refine (only_stand .getStatus (by simp)).bind fun status => ?_
  cases status with
  | idle => exact .ret ()
  | fault => exact .ret ()
  | moving =>
      refine only_anyMoving.bind fun _ => .ite (hset .moving) ?_
      exact only_anyLsPressed.bind fun _ => .ite (hset .fault) (hset .idle)
  | homing =>
      refine (only_stand .getHomeADone (by simp)).bind fun _ => .ite ?_ ?_
      · refine only_anyMoving.bind fun _ => .ite (hset .homing) ?_
        refine .bind ?_ fun _ => .ite only_homeB (hset .fault)
        exact (only_stand (.lsHomePressed .x) (by simp)).andM
          (only_stand (.lsHomePressed .y) (by simp))
      · refine only_anyMoving.bind fun _ => .ite (hset .homing) ?_
        refine (only_stand (.axisReset .x) (by simp)).bind fun _ => ?_
        refine (only_stand (.axisReset .y) (by simp)).bind fun _ => ?_
        refine (hset .idle).bind fun _ => ?_
        exact only_stand (.setHomeADone false) (by simp)

/-- A PING is about to be sent, or given up at once. -/
theorem At.connect (rx : Receiver) :
    At rx (.idle .connecting) (MPMTTestStand.connect.settle (answerLook rx)) := by
  have hcall := congrArg Node.prog
    (Node.resume_call rx (.sendMessage (.basic msgIdPing)) afterPing)
  change MPMTTestStand.connect.settle (answerLook rx) = _ at hcall
  rw [hcall]
  simp only [SessionCall.start]
  split
  · exact .between _
  · exact .call (.ping (.send _) rfl)

/-- A round of a loop begins. -/
theorem At.round (rx : Receiver) (phase : Phase) :
    At rx (.idle phase) (phase.prog.settle (answerLook rx)) := by
  cases phase with
  | connecting => exact .connect rx
  | running =>
      have hprog : Phase.running.prog =
          updateStatus >>= fun _ => Activity.polling.prog >>= afterPoll := by
        simp only [Phase.prog, execute, Prog.bind_bind]
        rfl
      rw [hprog]
      exact .of_only only_updateStatus (.call .poll)

/-- The start of the controller. -/
theorem At.setup (rx : Receiver) (conf : Config) :
    At rx (.idle .connecting) ((MPMTTestStand.setup conf).settle (answerLook rx)) := by
  refine .own _ (.axisSetup .x _ _) _ (by simp) fun _ => ?_
  refine .own _ (.axisSetup .y _ _) _ (by simp) fun _ => ?_
  exact .connect rx

/-- **A round begins** only between two messages. -/
theorem At.loop {c c' : Controller} (hat : At c.node.rx pt c.node.prog)
    (h : c.loop = some c') :
    ∃ phase, pt = .idle phase ∧ c'.node.rx = c.node.rx ∧
      At c'.node.rx (.idle phase) c'.node.prog := by
  obtain ⟨⟨rx, prog⟩, stand⟩ := c
  cases hat with
  | between phase =>
      simp only [Controller.loop, Option.some.injEq] at h
      subst h
      exact ⟨phase, rfl, rfl, .round rx phase⟩
  | @call _ a _ _ => cases a <;> cases h
  | own | dispatching | handling => cases h

/-- The controller reacts to signals at the points of its calls only. -/
theorem At.signals {n n' : Node standSig Phase} {s : Signal} {out : List UInt8}
    (hat : At n.rx pt n.prog) (h : n.signal s = some (n', out)) :
    ∃ a k, Calls n.rx pt a k ∧ n.prog = a.prog >>= k := by
  obtain ⟨rx, prog⟩ := n
  cases hat with
  | call hcalls => exact ⟨_, _, hcalls, rfl⟩
  | between | own | dispatching | handling => cases s <;> cases h

end Points

end MPMTTestStand

end MpmtTestStand.Ports
