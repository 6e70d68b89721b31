import MpmtTestStand.Ports.ReportedStatus

/-!
# What a MOVE may ask for

`recv_move` checks the length of a MOVE, and nobody checks its last two bytes.  The
axis byte is cast and looked up, and `start_axis` does not ask whether `get_axis`
found an axis.  The direction byte is cast as well: a value that is no direction
passes `validate_motion` as soon as the axis is at rest, gives a profile of positive
distances, drives the motor away from the positive side, and makes the encoder
interrupt count nothing.
`move_refused` says which MOVEs are treated as they should be.
-/

namespace MpmtTestStand.Ports

open MpmtTestStand.Verified
open MpmtTestStand.Verified.Run

/-- The value is one of the two enumerators. -/
def AxisDirection.Valid : AxisDirection → Prop
  | .positive => True
  | .negative => True
  | .other _ => False

instance (dir : AxisDirection) : Decidable dir.Valid :=
  match dir with
  | .positive => isTrue trivial
  | .negative => isTrue trivial
  | .other _ => isFalse fun h => h

namespace MPMTTestStand

/-! ## What a program sends -/

/-- The bytes that a program writes next, as long as `ser_write` succeeds. -/
def written {α : Type} : StandProg α → List UInt8
  | .op (.serWrite data) k => data ++ written (k true)
  | _ => []

section Sending

variable {α : Type} {msg : ReceivedMessage} {around : Outside} {s : TestStand}

theorem written_writePieces (pieces : List (List UInt8)) (f : Bool → StandProg α) :
    written (SerialTransport.writePieces pieces >>= f) =
      pieces.flatten ++ written (f true) := by
  induction pieces with
  | nil => rfl
  | cons piece rest ih =>
      rw [List.flatten_cons, List.append_assoc, ← ih]
      rfl

/-- Once a message has been received, `send_message` comes to its first
`ser_write`. -/
theorem undisturbed_sendMessage (p : Packet) (f : SerialResult → StandProg α) :
    ∃ prog, undisturbed ⟨.fresh, msg⟩ around (SerialSession.sendMessage p >>= f) s =
      some (prog, s) ∧ written prog = p.frame := by
  refine ⟨(Activity.send p).prog >>= f, rfl, ?_⟩
  rw [Activity.send, Activity.prog, Prog.bind_bind, written_writePieces]
  exact List.append_nil _

end Sending

/-! ## One MOVE -/

section Request

variable {msg : ReceivedMessage} (around : Outside) {s : TestStand}

/-- A MOVE of another size is refused. -/
theorem handleMove_size (h : TestStandCommController.recvMove msg = none) :
    ∃ prog, undisturbed ⟨.fresh, msg⟩ around handleMove s = some (prog, s) ∧
      written prog = (TestStandCommController.axisResultPacket .errInvalid).frame := by
  have hprog : undisturbed ⟨.fresh, msg⟩ around handleMove s =
      undisturbed ⟨.fresh, msg⟩ around
        (TestStandCommController.axisResult .errInvalid >>= fun _ => .ret ()) s := by
    simp [undisturbed, handleMove, h]
  rw [hprog]
  exact undisturbed_sendMessage _ _

/-- A MOVE of an axis that does not exist makes `start_axis` work on a null pointer. -/
theorem handleMove_noAxis {data : MoveMsgData}
    (h : TestStandCommController.recvMove msg = some data)
    (haxis : AxisId.ofByte? data.axis = none) :
    undisturbed ⟨.fresh, msg⟩ around handleMove s = none := by
  simp [undisturbed, handleMove, stand, TestStand.perform, h, haxis]

/-- Any other MOVE is for `start_axis` to judge. -/
theorem handleMove_axis {data : MoveMsgData} {id : AxisId}
    (h : TestStandCommController.recvMove msg = some data)
    (haxis : AxisId.ofByte? data.axis = some id) {started : AxisResult × Axis}
    (hstart : (s.axis id).startAxis (moveMotion data s.cal) = started) :
    ∃ prog s', undisturbed ⟨.fresh, msg⟩ around handleMove s = some (prog, s') ∧
      s' = { s.setAxis id started.2 with
        status := if started.1 = .ok then .moving else s.status } ∧
      written prog = (TestStandCommController.axisResultPacket started.1).frame := by
  obtain ⟨res, axis⟩ := started
  by_cases hok : res = .ok
  · subst hok
    have hprog : undisturbed ⟨.fresh, msg⟩ around handleMove s =
        undisturbed ⟨.fresh, msg⟩ around
          (TestStandCommController.axisResult .ok >>= fun _ => .ret ())
          { s.setAxis id axis with status := .moving } := by
      simp [undisturbed, handleMove, stand, TestStand.perform, h, haxis, hstart]
    obtain ⟨prog, heq, hwritten⟩ := undisturbed_sendMessage _ _
    exact ⟨prog, _, hprog.trans heq, by simp, hwritten⟩
  · have hprog : undisturbed ⟨.fresh, msg⟩ around handleMove s =
        undisturbed ⟨.fresh, msg⟩ around
          (TestStandCommController.axisResult res >>= fun _ => .ret ())
          (s.setAxis id axis) := by
      simp [undisturbed, handleMove, stand, TestStand.perform, h, haxis, hstart, hok]
    obtain ⟨prog, heq, hwritten⟩ := undisturbed_sendMessage _ _
    exact ⟨prog, _, hprog.trans heq, by cases id <;> simp [TestStand.setAxis, hok], hwritten⟩

/-- A MOVE that is of another size, or that names no axis, or no direction. -/
def Malformed (payload : List UInt8) : Prop :=
  payload.length ≠ MoveMsgData.size.toNat ∨
    AxisId.ofByte? (MoveMsgData.ofBytes payload).axis = none ∨
    ¬(AxisDirection.ofByte (MoveMsgData.ofBytes payload).dir).Valid

/-- The MOVE is handled without a null pointer; and if it is malformed, the answer is
`AXIS_ERR_INVALID`, and the axes and the status stay as they are. -/
def RefusesMalformed (msg : ReceivedMessage) (around : Outside) (s : TestStand) : Prop :=
  ∃ prog s', undisturbed ⟨.fresh, msg⟩ around handleMove s = some (prog, s') ∧
    (Malformed msg.packet.payload →
      written prog = (TestStandCommController.axisResultPacket .errInvalid).frame ∧
      (∀ id, s'.axis id = s.axis id) ∧ s'.status = s.status)

/-- In counts, no profile leads from the start velocity to `velHold`: it is below the
start velocity, or it differs from it and there is no acceleration. -/
def NoRamp (mech : AxisMech) (c : Calibration) (velHold : UInt32) : Prop :=
  Axis.stepsToCounts mech velHold < Axis.stepsToCounts mech c.velStart ∨
    (Axis.stepsToCounts mech c.accel = 0 ∧
      Axis.stepsToCounts mech velHold ≠ Axis.stepsToCounts mech c.velStart)

/-- A MOVE of the right size names an axis; and it names a direction, unless the axis
is at rest and there is no profile for the velocities. -/
def MoveSound (payload : List UInt8) (s : TestStand) : Prop :=
  let data := MoveMsgData.ofBytes payload
  payload.length = MoveMsgData.size.toNat →
    ∃ id, AxisId.ofByte? data.axis = some id ∧
      ((AxisDirection.ofByte data.dir).Valid ∨
        ((s.axis id).state.moving = false ∧ NoRamp (s.axis id).mech s.cal data.velHold))

instance (mech : AxisMech) (c : Calibration) (velHold : UInt32) :
    Decidable (NoRamp mech c velHold) := by
  unfold NoRamp
  infer_instance

theorem motionProfile_eq_none (mech : AxisMech) (data : MoveMsgData) (c : Calibration) :
    Axis.motionProfile mech (moveMotion data c) = none ↔ NoRamp mech c data.velHold :=
  generateVelProfile_eq_none ..

/-- No check of `validate_motion` concerns a value that is no direction, except that
the axis must be at rest. -/
theorem startAxis_invalid {axis : Axis} {motion : AxisMotionSpec} (hdir : ¬motion.dir.Valid) :
    axis.startAxis motion =
      if axis.state.moving then (.errAlreadyMoving, axis)
      else match Axis.motionProfile axis.mech motion with
        | some profile => (.ok, axis.beginMotion motion profile)
        | none => (.errInvalid, axis) := by
  have hpositive : motion.dir ≠ .positive := by
    intro heq
    rw [heq] at hdir
    exact hdir trivial
  have hnegative : motion.dir ≠ .negative := by
    intro heq
    rw [heq] at hdir
    exact hdir trivial
  cases hmoving : axis.state.moving with
  | true => simp [Axis.startAxis, Axis.validateMotion, hmoving]
  | false =>
      simp only [Axis.startAxis, Axis.validateMotion, hmoving, hpositive, hnegative]
      cases Axis.motionProfile axis.mech motion <;> rfl

/-- The host can tell the results apart. -/
theorem axisResult_frame_inj {res res' : AxisResult}
    (h : (TestStandCommController.axisResultPacket res).frame =
      (TestStandCommController.axisResultPacket res').frame) : res = res' := by
  revert h
  cases res <;> cases res' <;> decide

/-- What is asked of `handle_move` is asked of `start_axis`, if there is an axis. -/
theorem refusesMalformed_axis {data : MoveMsgData} {id : AxisId}
    (h : TestStandCommController.recvMove msg = some data)
    (haxis : AxisId.ofByte? data.axis = some id) {started : AxisResult × Axis}
    (hstart : (s.axis id).startAxis (moveMotion data s.cal) = started) :
    RefusesMalformed msg around s ↔
      (Malformed msg.packet.payload → started.1 = .errInvalid ∧ started.2 = s.axis id) := by
  obtain ⟨prog, s', hrun, heq, hwritten⟩ := handleMove_axis around h haxis hstart
  constructor
  · rintro ⟨prog', s'', hrun', hrefuses⟩ hmalformed
    rw [hrun] at hrun'
    obtain ⟨rfl, rfl⟩ := Prod.mk.inj (Option.some.inj hrun')
    obtain ⟨hanswer, hsame, -⟩ := hrefuses hmalformed
    refine ⟨axisResult_frame_inj (hwritten.symm.trans hanswer), ?_⟩
    rw [← hsame id, heq, TestStand.axis_setStatus, TestStand.axis_setAxis]
  · refine fun hrefuses => ⟨prog, s', hrun, fun hmalformed => ?_⟩
    obtain ⟨hinvalid, hsame⟩ := hrefuses hmalformed
    refine ⟨by rw [hwritten, hinvalid], fun id' => ?_, by simp [heq, hinvalid]⟩
    rw [heq, hsame, TestStand.axis_setStatus]
    cases id <;> cases id' <;> rfl

/-- **When `handle_move` refuses a malformed MOVE.** -/
theorem refusesMalformed_iff (msg : ReceivedMessage) (s : TestStand) :
    RefusesMalformed msg around s ↔ MoveSound msg.packet.payload s := by
  have hrecv := TestStandCommController.recvMove_payload msg
  by_cases hsize : msg.packet.payload.length = MoveMsgData.size.toNat
  · rw [if_neg (not_not.mpr hsize)] at hrecv
    generalize hdata : MoveMsgData.ofBytes msg.packet.payload = data at hrecv
    cases haxis : AxisId.ofByte? data.axis with
    | none =>
        constructor
        · rintro ⟨prog, s', hrun, -⟩
          rw [handleMove_noAxis around hrecv haxis] at hrun
          cases hrun
        · intro hsound
          obtain ⟨id, hid, -⟩ := hsound hsize
          rw [hdata, haxis] at hid
          cases hid
    | some id =>
        have hsound : MoveSound msg.packet.payload s ↔
            ((AxisDirection.ofByte data.dir).Valid ∨ ((s.axis id).state.moving = false ∧
              NoRamp (s.axis id).mech s.cal data.velHold)) := by
          simp [MoveSound, hsize, hdata, haxis]
        have hmalformed : Malformed msg.packet.payload ↔
            ¬(AxisDirection.ofByte data.dir).Valid := by
          simp [Malformed, hsize, hdata, haxis]
        rw [refusesMalformed_axis around hrecv haxis rfl, hsound, hmalformed]
        by_cases hdir : (AxisDirection.ofByte data.dir).Valid
        · simp [hdir]
        · have hinvalid : ¬(moveMotion data s.cal).dir.Valid := hdir
          simp only [hdir, not_false_eq_true, true_implies, false_or]
          rw [startAxis_invalid hinvalid, ← motionProfile_eq_none]
          cases (s.axis id).state.moving with
          | true => simp
          | false =>
              cases Axis.motionProfile (s.axis id).mech (moveMotion data s.cal) with
              | none => simp
              | some profile => simp
  · rw [if_pos hsize] at hrecv
    obtain ⟨prog, hrun, hwritten⟩ := @handleMove_size msg around s hrecv
    constructor
    · exact fun _ heq => absurd heq hsize
    · exact fun _ => ⟨prog, s, hrun, fun _ => ⟨hwritten, fun _ => rfl, rfl⟩⟩

end Request

/-! ## The directions of moving axes -/

/-- A moving axis has a direction. -/
def Directed (stand : TestStand) : Prop :=
  ∀ id, (stand.axis id).state.moving = true → (stand.axis id).state.dir.Valid

/-- Every MOVE that was dispatched was sound. -/
def MovesSound (history : List Entry) : Prop :=
  ∀ e ∈ history, ∀ p, e.event = .acted ⟨.dispatch p, ()⟩ → p.id = msgIdMove →
    MoveSound p.payload e.before

/-- As long as the MOVEs are sound, moving axes have a direction. -/
def DirectedIfSound (stand : TestStand) (history : List Entry) : Prop :=
  MovesSound history → Directed stand

theorem MovesSound.tail {e : Entry} {history : List Entry} (h : MovesSound (e :: history)) :
    MovesSound history := fun x hx => h x (.tail _ hx)

theorem MovesSound.of_passes {cal : Calibration} {P : Happening → Prop} {s t : Record cal}
    (h : MovesSound t.history) (ht : Passes P s t) : MovesSound s.history := by
  obtain ⟨new, hhistory, -⟩ := ht
  rw [hhistory] at h
  exact fun e he => h e (List.mem_append_right _ he)

/-- Only a start gives an axis a direction. -/
theorem Happens.directed {s s' : TestStand} {ev : Happening} (h : Happens s ev s')
    (hstart : ∀ (id : AxisId) motion, ev = .acted ⟨.axisStart id.toByte motion, .ok⟩ →
      motion.dir.Valid) (hs : Directed s) : Directed s' := by
  intro id hmoving
  by_cases hstarts : ev.Starts id
  · obtain ⟨motion, rfl⟩ := hstarts.eq
    obtain ⟨profile, -, heq⟩ := h.accepted
    rw [heq]
    exact hstart id motion rfl
  · obtain ⟨hbefore, -, hdir⟩ := h.moves_on hstarts hmoving
    rw [hdir]
    exact hs id hbefore

/-- What an axis is started with has a direction. -/
def DirectedOp : LinkOp standSig → Prop
  | .act (.axisStart _ motion) => motion.dir.Valid
  | _ => True

section Directions

variable {cal : Calibration} {s t : Record cal}

/-- The invariant between the functions of the main program, and at every point. -/
def DirectedInv (s : Record cal) : Prop := DirectedIfSound s.stand s.history

theorem DirectedInv.happen (h : DirectedInv s) {ev : Happening}
    {now : TestStand} (hhappens : Happens s.stand ev now)
    (hstart : MovesSound s.history → ∀ (id : AxisId) motion,
      ev = .acted ⟨.axisStart id.toByte motion, .ok⟩ → motion.dir.Valid) :
    DirectedInv (s.happen hhappens) := fun hsound =>
  hhappens.directed (hstart hsound.tail) (h hsound.tail)

theorem DirectedInv.quiet (h : DirectedInv s) (ht : Passes Happening.Quiet s t) :
    DirectedInv t :=
  ht.induct (motive := DirectedIfSound) h fun _ _ _ _ hev hhappens ih hsound =>
    hhappens.directed (fun id motion heq => by
      subst heq
      exact absurd rfl hev) (ih hsound.tail)

/-- Programs that give every motion a direction. -/
theorem DirectedInv.program {p : StandProg Unit} (hp : Prog.Only DirectedOp p)
    (h : DirectedInv s) : SafeProg DirectedIfSound (fun _ => DirectedInv) p s := by
  refine World.Safe.of_only hp ?_ ?_ (fun _ h => h) h
  · rintro s t hs ⟨id, e, he, rfl⟩
    exact DirectedInv.happen hs (.interrupt id e he) fun _ _ _ heq => by cases heq
  · intro o s r t ho hs hdoes
    cases o with
    | look =>
        obtain ⟨-, rfl⟩ := hdoes
        exact hs
    | serWrite _ | checkForMessage | recvMessage _ =>
        obtain ⟨rx, rfl⟩ := hdoes
        exact hs
    | act o =>
        obtain ⟨now, hhappens, rfl⟩ := hdoes
        refine DirectedInv.happen hs hhappens fun _ id motion heq => ?_
        cases heq
        exact ho

/-- A MOVE that is sound when it is dispatched and starts an axis names a direction. -/
theorem MoveSound.valid {msg : ReceivedMessage} {data : MoveMsgData} {now : TestStand}
    (h : MoveSound msg.packet.payload s.stand)
    (hdata : TestStandCommController.recvMove msg = some data)
    (ht : Passes Happening.Passive s t)
    (hhappens : Happens t.stand
      (.acted ⟨.axisStart data.axis (moveMotion data t.stand.cal), .ok⟩) now) :
    (AxisDirection.ofByte data.dir).Valid := by
  rw [TestStandCommController.recvMove_payload] at hdata
  split_ifs at hdata with hsize
  obtain rfl := Option.some.inj hdata
  obtain ⟨id, haxis, hvalid | ⟨hstill, hramp⟩⟩ := h (not_not.mp hsize)
  · exact hvalid
  · -- nothing has changed that the profile depends on
    rw [AxisId.ofByte?_eq_some.mp haxis] at hhappens
    obtain ⟨profile, hprofile, -⟩ := hhappens.accepted
    rw [ht.quiet.mech id, ht.cal_eq] at hprofile
    rw [(motionProfile_eq_none ..).mpr hramp] at hprofile
    cases hprofile

/-- A sound MOVE. -/
theorem DirectedInv.move (h : DirectedInv s)
    (hsound : MovesSound s.history → MoveSound s.rx.msg.packet.payload s.stand) :
    SafeProg DirectedIfSound (fun _ => DirectedInv) handleMove s := by
  refine safe_handleMove (fun t ht => ⟨h.quiet ht, h.quiet ht⟩) ?_
  intro t data now hstart ht hdata
  have hinv : DirectedInv (t.happen hstart) := by
    refine (h.quiet ht.quiet).happen hstart fun hsounds id motion heq => ?_
    obtain ⟨-, rfl⟩ := StandOp.axisStart.inj (congrArg Acted.op (Happening.acted.inj heq))
    exact (hsound (hsounds.of_passes ht)).valid hdata ht hstart
  refine (hinv.program (.perform (S := linkSig standSig) trivial)).mono ?_
  intro _ u (hu : DirectedInv u) v hv
  exact ⟨hu.quiet hv, hu.quiet hv⟩

end Directions

theorem maintains_directed (conf : Config) (cal : Calibration) :
    Maintains conf cal DirectedIfSound (fun _ => DirectedInv) where
  quiet _ _ _ hs ht := hs.quiet ht.of_phase
  holds _ _ hs := hs
  setup := by
    have hstart : DirectedInv (Recorder.start cal) := fun _ id hmoving => by
      cases id <;> cases hmoving
    exact hstart.program (.op trivial fun _ => .op trivial .ret)
  connected s hs := hs.program (.perform (S := linkSig standSig) trivial)
  update s hs _ := by
    have hdone : ∀ {p : StandProg Unit} t, Prog.Only DirectedOp p → Passes Happening.Passive s t →
        SafeProg DirectedIfSound (fun _ => DirectedInv) p t := fun t hp ht =>
      (hs.quiet ht.quiet).program hp
    have hstore : ∀ t status, Passes Happening.Passive s t →
        SafeProg DirectedIfSound (fun _ => DirectedInv) (stand (.setStatus status)) t :=
      fun t status => hdone t (.perform (S := linkSig standSig) trivial)
    refine safe_updateStatus (fun t ht => hs.quiet ht.quiet) (fun t ht _ => hs.quiet ht.quiet)
      (fun t status ht _ _ _ => hstore t status ht) (fun t ht _ _ => hstore t _ ht)
      (fun t ht _ _ _ => hstore t _ ht) ?_ ?_
    · intro t ht _ _ _ _
      exact hdone t (.op trivial fun _ => .op trivial fun _ => .op trivial fun _ =>
        .op trivial fun _ => .op trivial .ret) ht
    · intro t ht _ _ _
      exact hdone t (.op trivial fun _ => .op trivial fun _ => .op trivial fun _ =>
        .op trivial .ret) ht
  serve s h hs hid := by
    have hs' : DirectedInv (s.happen h) := hs.happen h fun _ _ _ heq => by cases heq
    rcases hid with hid | hid | hid
    · simp only [hid]
      exact hs'.program (.op trivial fun _ => .op trivial fun _ => .op trivial fun _ =>
        .op trivial fun _ => .op trivial .ret)
    · simp only [hid]
      exact hs'.move fun hsounds => hsounds ⟨_, _⟩ (.head _) _ rfl hid
    · simp only [hid]
      exact hs'.program (.op trivial fun _ => .op trivial fun _ => .op trivial .ret)

/-- The encoder interrupt counts in the direction in which the motor is driven. -/
def CountsAsDriven (axis : Axis) : Prop :=
  (axis.pinDir = some axis.io.dirPosLevel ∧
    axis.handleIsrEncoder.state.encoderCurrent = axis.state.encoderCurrent + 1) ∨
  (axis.pinDir = some axis.io.dirPosLevel.not ∧
    axis.handleIsrEncoder.state.encoderCurrent = axis.state.encoderCurrent - 1)

/-- A moving axis with a direction counts as it is driven. -/
theorem AxisInv.countsAsDriven {axis : Axis} (h : AxisInv axis)
    (hmoving : axis.state.moving = true) (hdir : axis.state.dir.Valid) :
    CountsAsDriven axis := by
  have hpin := h.pin hmoving
  unfold CountsAsDriven
  cases hd : axis.state.dir with
  | positive =>
      rw [hd] at hpin
      exact .inl ⟨hpin, by simp [Axis.handleIsrEncoder, hd]⟩
  | negative =>
      rw [hd] at hpin
      exact .inr ⟨hpin, by simp [Axis.handleIsrEncoder, hd]⟩
  | other raw =>
      rw [hd] at hdir
      exact hdir.elim

/-- **Which malformed MOVEs are refused.**  In every state, `handle_move` uses no null
pointer and refuses a malformed MOVE without effect if and only if the MOVE is sound
there.  In every run of the controller in which the MOVEs are sound when they are
dispatched, a moving axis has a direction, and its encoder interrupt counts in the
direction in which the motor is driven. -/
theorem move_refused (conf : Config) (cal : Calibration) (events : List ControllerEvent)
    (m : Recorder) (hrun : run Recorder.step (.init conf cal) events = some m) :
    (∀ msg around s, RefusesMalformed msg around s ↔ MoveSound msg.packet.payload s) ∧
    (MovesSound m.history → ∀ id, (m.controller.stand.axis id).state.moving = true →
      (m.controller.stand.axis id).state.dir.Valid ∧
        CountsAsDriven (m.controller.stand.axis id)) := by
  constructor
  · exact fun msg around s => refusesMalformed_iff around msg s
  · intro hsound id hmoving
    have hdir := (maintains_directed conf cal).run hrun hsound id hmoving
    let reached : Record cal := ⟨.fresh, _, _, Recorder.leads hrun⟩
    exact ⟨hdir, AxisInv.countsAsDriven (reached.axisInv id) hmoving hdir⟩

/-- The X axis is moved. -/
def moved : List ControllerEvent := connected ++ request moveX 4

/-- The X axis is to move in a direction that does not exist. -/
def movedNowhere : List ControllerEvent :=
  connected ++ request (TestStandCommHost.movePacket .x (.other 2) 75 1000) 4

/-- A MOVE with these two bytes at the end. -/
def moveMessage (axis dir : UInt8) : ReceivedMessage where
  id := msgIdMove
  length := MoveMsgData.size
  data := .ofFn fun i => (MoveMsgData.toBytes ⟨75, 1000, axis, dir⟩).getD i 0

set_option maxRecDepth 4000 in
theorem move_refused_moved :
    ∃ m, run Recorder.step (.init conf defaultCalibration) moved = some m ∧
      MovesSound m.history ∧ m.controller.stand.axisX.state.moving = true ∧
      m.controller.stand.axisX.state.dir.Valid ∧ CountsAsDriven m.controller.stand.axisX := by
  have hmoves : ∀ m, run Recorder.step (.init conf defaultCalibration) moved = some m →
      MovesSound m.history := by
    intro m hrun
    obtain rfl := Option.some.inj hrun
    have hother : ∀ {e : Entry}, (∀ p, e.event ≠ .acted ⟨.dispatch p, ()⟩) →
        ∀ p, e.event = .acted ⟨.dispatch p, ()⟩ → p.id = msgIdMove →
          MoveSound p.payload e.before := fun h p heq => absurd heq (h p)
    refine List.forall_iff_forall_mem.mp ⟨hother nofun, hother nofun, hother nofun, ?_,
      hother nofun, hother nofun, hother nofun, hother nofun, hother nofun⟩
    intro p heq _ _
    cases heq
    exact ⟨.x, rfl, .inl trivial⟩
  exact ⟨_, rfl, hmoves _ rfl, rfl,
    (move_refused conf defaultCalibration moved _ rfl).2 (hmoves _ rfl) .x rfl⟩

set_option maxRecDepth 4000 in
/-- **Malformed MOVEs that are not refused.**  An axis byte of 2 leads to a null
pointer; a direction byte of 2 is accepted, and the axis moves without counting. -/
theorem move_not_refused :
    ∃ m m', run Recorder.step (.init conf defaultCalibration) connected = some m ∧
      (∀ around, ¬RefusesMalformed (moveMessage 2 0) around m.controller.stand ∧
        ¬RefusesMalformed (moveMessage 0 2) around m.controller.stand) ∧
      run Recorder.step (.init conf defaultCalibration) movedNowhere = some m' ∧
      m'.controller.stand.axisX.state.moving = true ∧
      ¬m'.controller.stand.axisX.state.dir.Valid ∧
      ¬CountsAsDriven m'.controller.stand.axisX := by
  refine ⟨_, _, rfl, fun around => ⟨?_, ?_⟩, rfl, rfl, fun h => h, ?_⟩
  · rw [refusesMalformed_iff]
    intro h
    obtain ⟨id, hid, -⟩ := h rfl
    cases hid
  · rw [refusesMalformed_iff]
    intro h
    obtain ⟨id, -, hvalid | ⟨-, hramp⟩⟩ := h rfl
    · exact hvalid
    · cases id <;> exact absurd hramp (by decide)
  · rintro (⟨-, h⟩ | ⟨-, h⟩)
    · exact absurd h (by decide)
    · exact absurd h (by decide)

end MPMTTestStand

end MpmtTestStand.Ports
