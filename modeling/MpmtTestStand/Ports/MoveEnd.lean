import MpmtTestStand.Ports.ReportedStatus

/-!
# How a MOVE ends

The status leaves MOVING when both axes have stopped, for IDLE or for FAULT,
depending on the flags of the limit switches as they are found then.  The history
says what became of the motions in between: interrupts ended them, and a switch
that was pressed when it cut a motion short has been released again.

One of the four flags is never read: the condition names the far switch of the X
axis twice, and that of the Y axis not at all.
-/

namespace MpmtTestStand.Ports

open MpmtTestStand.Verified
open MpmtTestStand.Verified.Run

namespace MPMTTestStand

/-! ## What `execute` has found out when it stores IDLE -/

/-- A status other than MOVING is stored. -/
def Happening.Leaves : Happening → Prop
  | .acted ⟨.setStatus status, _⟩ => status ≠ .moving
  | _ => False

/-- Since the status was last stored as something other than MOVING, the program
has not halted an axis. -/
def Unhalted : List Entry → Prop
  | [] => True
  | e :: history => e.event.Leaves ∨ (¬e.event.Halts ∧ Unhalted history)

theorem Unhalted.split {mid old : List Entry} (h : Unhalted (mid ++ old))
    (hmid : ∀ e ∈ mid, ¬e.event.Leaves) : ∀ e ∈ mid, ¬e.event.Halts := by
  induction mid with
  | nil => simp
  | cons x mid ih =>
      have hx := h.resolve_left (hmid x (by simp))
      intro e he
      rcases List.mem_cons.mp he with rfl | he
      · exact hx.1
      · exact ih hx.2 (fun e he => hmid e (by simp [he])) e he

/-- What allows the status to change from MOVING to IDLE: a STOP, or both axes
found stopped and the switches released, all but the far one of the Y axis. -/
def MayIdle (history : List Entry) : Prop :=
  ServesStop history ∨
    (Unhalted history ∧ ∀ id sw, (id, sw) ≠ (.y, .far) → Checked id sw false history)

/-- Whoever has just stored IDLE for MOVING was allowed to. -/
abbrev IdleFound : List Entry → Prop := IdleAfter .moving MayIdle

section Moves

variable {cal : Calibration} {s t : Record cal}

theorem Passes.unhalted (h : Passes Happening.Quiet s t) (hs : Unhalted s.history) :
    Unhalted t.history :=
  h.induct (motive := fun _ history => Unhalted history) hs
    fun _ _ _ _ hev _ ih => .inr ⟨hev.not_halts, ih⟩

theorem MayIdle.passes (hs : MayIdle s.history) (h : Passes Happening.Passive s t) :
    MayIdle t.history := by
  rcases hs with ⟨p, hp, hid⟩ | ⟨hunhalted, hchecked⟩
  · exact .inl ⟨p, h.served.trans hp, hid⟩
  · exact .inr ⟨h.quiet.unhalted hunhalted, fun id sw hne => (hchecked id sw hne).passes h⟩

/-- The invariant between the functions of the main program. -/
structure MoveInv (phase : MPMTTestStand.Phase) (s : Record cal) : Prop where
  found : IdleFound s.history
  connecting : phase = .connecting → s.stand.status = .idle
  unhalted : phase = .running → Unhalted s.history

theorem MoveInv.quiet {phase : Phase} (h : MoveInv phase s) (ht : Passes Happening.Quiet s t) :
    MoveInv phase t where
  found := ht.idleAfter h.found
  connecting hphase := ht.status.trans (h.connecting hphase)
  unhalted hphase := ht.unhalted (h.unhalted hphase)

/-! ## The functions of the main program -/

/-- Operations that neither halt an axis nor store IDLE. -/
def Onward : LinkOp standSig → Prop
  | .act (.setStatus status) => status ≠ .idle
  | .act (.axisSetup _ _ _) => False
  | .act (.axisStop _) => False
  | .act (.axisReset _) => False
  | _ => True

theorem QuietOp.onward {o : LinkOp standSig} (h : QuietOp o) : Onward o := by
  cases o with
  | act o => cases o <;> trivial
  | _ => trivial

/-- Programs that go onward keep the invariant. -/
theorem MoveInv.onward {p : StandProg Unit} (hp : Prog.Only Onward p)
    (h : MoveInv .running s) :
    SafeProg (fun _ history => IdleFound history) (fun _ => MoveInv .running) p s := by
  refine World.Safe.of_only hp ?_ ?_ (fun _ h => h.found) h
  · rintro s t hs ⟨id, e, he, rfl⟩
    exact hs.quiet ((Passes.refl _ s).happen (.interrupt id e he) trivial)
  · intro o s r t ho hs hdoes
    cases o with
    | look =>
        obtain ⟨-, rfl⟩ := hdoes
        exact hs
    | serWrite _ | checkForMessage | recvMessage _ =>
        obtain ⟨rx, rfl⟩ := hdoes
        exact { hs with }
    | act o =>
        obtain ⟨now, hhappens, rfl⟩ := hdoes
        have hidle : o ≠ .setStatus .idle := by
          rintro rfl
          exact ho rfl
        have hhalts : ¬(Happening.acted ⟨o, r⟩).Halts := by
          cases o <;> first | exact id | exact ho.elim
        exact ⟨.of_op hidle, by simp, fun _ => .inr ⟨hhalts, hs.unhalted rfl⟩⟩

/-- Storing IDLE. -/
theorem safe_setIdle {phase : Phase} (hs : IdleFound s.history)
    (hidle : s.stand.status = .moving → MayIdle s.history) :
    SafeProg (fun _ history => IdleFound history) (fun _ => MoveInv phase)
      (stand (.setStatus .idle)) s := by
  refine .act fun t ht _ => ⟨ht.passive.quiet.idleAfter hs, fun r now hhappens => ?_⟩
  have hleaves : Status.idle ≠ .moving := by decide
  have hinv : MoveInv phase (t.happen hhappens) := by
    refine ⟨fun hmoving => ?_, fun _ => ?_, fun _ => .inl hleaves⟩
    · rw [ht.passive.quiet.status] at hmoving
      exact (hidle hmoving).passes ht.passive
    · exact congrArg TestStand.status hhappens.setStatus_eq
  exact .ret fun u hu => ⟨(hinv.quiet hu.quiet).found, hinv.quiet hu.quiet⟩

theorem only_handleMove : Prog.Only Onward handleMove := by
  have hsend : ∀ res, Prog.Only Onward
      (TestStandCommController.axisResult res >>= fun _ => (.ret () : StandProg Unit)) :=
    fun res => ((only_sendMessage _).mono fun _ => QuietOp.onward).bind fun _ => .ret ()
  refine .op trivial fun r => ?_
  dsimp only [Prog.bind]
  split
  · refine .op trivial fun cal => .op trivial fun res => ?_
    dsimp only [Prog.bind]
    split
    · exact .op (by simp [Onward]) fun _ => hsend res
    · exact hsend res
  · exact hsend .errInvalid

theorem only_handleHomeA : Prog.Only Onward handleHomeA :=
  .op trivial fun _ => .op trivial fun _ => .op trivial fun _ => .op trivial fun _ =>
    .op (by simp [Onward]) .ret

theorem only_handleHomeB : Prog.Only Onward handleHomeB :=
  .op trivial fun _ => .op trivial fun _ => .op trivial fun _ => .op trivial fun _ =>
    .op (by simp [Onward]) .ret

theorem MoveInv.stop (h : MoveInv .running s) (hserved : ServesStop s.history) :
    SafeProg (fun _ history => IdleFound history) (fun _ => MoveInv .running) handleStop s := by
  refine World.Safe.bind ((safe_halt (o := .axisStop .x) trivial h.found).mono ?_)
  rintro - t ⟨ht, -, hst⟩
  refine World.Safe.bind ((safe_halt (o := .axisStop .y) trivial ht).mono ?_)
  rintro - u ⟨hu, -, htu⟩
  refine safe_setIdle hu fun _ => .inl ?_
  obtain ⟨p, hp, hid⟩ := hserved
  exact ⟨p, htu.trans (hst.trans hp), hid⟩

theorem MoveInv.finishHoming (h : MoveInv .running s) (hhoming : s.stand.status = .homing) :
    SafeProg (fun _ history => IdleFound history) (fun _ => MoveInv .running)
      finishHoming s := by
  refine World.Safe.bind ((safe_halt (o := .axisReset .x) trivial h.found).mono ?_)
  rintro - t ⟨ht, hst, -⟩
  refine World.Safe.bind ((safe_halt (o := .axisReset .y) trivial ht).mono ?_)
  rintro - u ⟨hu, htu, -⟩
  have hidle : u.stand.status = .moving → MayIdle u.history := by
    intro hmoving
    rw [htu, hst, hhoming] at hmoving
    cases hmoving
  refine World.Safe.bind ((safe_setIdle hu hidle).mono fun _ v (hv : MoveInv .running v) => ?_)
  exact hv.onward (.perform (S := linkSig standSig) trivial)

end Moves

theorem maintains_idleFound (conf : Config) (cal : Calibration) :
    Maintains conf cal (fun _ history => IdleFound history) MoveInv where
  quiet _ _ _ hs ht := hs.quiet ht.of_phase
  holds _ _ hs := hs.found
  setup := by
    have hstart : IdleFound (Recorder.start cal).history := trivial
    refine World.Safe.bind ((safe_halt (o := .axisSetup .x _ _) trivial hstart).mono ?_)
    rintro - t ⟨ht, hst, -⟩
    refine (safe_halt (o := .axisSetup .y _ _) trivial ht).mono ?_
    rintro - u ⟨hu, htu, -⟩
    exact ⟨hu, fun _ => htu.trans hst, by simp⟩
  connected s hs := safe_setIdle hs.found fun hmoving => by
    rw [hs.connecting rfl] at hmoving
    cases hmoving
  update s hs _ := by
    have hI := fun t (ht : Passes Happening.Passive s t) => hs.quiet ht.quiet
    have hstore : ∀ t status, Passes Happening.Passive s t → status ≠ .idle →
        SafeProg (fun _ history => IdleFound history) (fun _ => MoveInv .running)
          (stand (.setStatus status)) t := fun t status ht hne =>
      (hI t ht).onward (.perform (S := linkSig standSig) hne)
    refine safe_updateStatus (fun t ht => (hI t ht).found) (fun t ht _ => hI t ht) ?_ ?_ ?_ ?_ ?_
    · intro t status ht _ hstatus _
      exact hstore t status ht (by rcases hstatus with rfl | rfl <;> simp)
    · exact fun t ht _ _ => hstore t .fault ht (by simp)
    · intro t ht _ _ hchecked
      exact safe_setIdle (hI t ht).found fun _ => .inr ⟨(hI t ht).unhalted rfl, hchecked⟩
    · exact fun t ht _ _ _ _ => (hI t ht).onward only_handleHomeB
    · exact fun t ht hhoming _ _ => (hI t ht).finishHoming (ht.quiet.status.trans hhoming)
  serve s h hs hid := by
    have hs' : MoveInv .running (s.happen h) :=
      ⟨.of_op (by simp), by simp, fun _ => .inr ⟨id, hs.unhalted rfl⟩⟩
    have hserved : served (s.happen h).history = some s.rx.msg.packet := rfl
    rcases hid with hid | hid | hid
    · simp only [hid]
      exact hs'.onward only_handleHomeA
    · simp only [hid]
      exact hs'.onward only_handleMove
    · simp only [hid]
      exact hs'.stop ⟨_, hserved, hid⟩

/-! ## What has become of a motion -/

section Ends

variable {cal : Calibration} {s : TestStand} {history newer older : List Entry} {x : Entry}
  {id : AxisId} {sw : Switch}

/-- What has been checked is a state in the past. -/
theorem Checked.still {pressed : Bool} (h : Checked id sw pressed history)
    (hleads : Leads (.init cal) history s) : Still s := by
  obtain ⟨pass, b, old, rfl, hpass, hb⟩ := h
  obtain ⟨s1, hold, hread, hnew⟩ := hleads.entry
  obtain rfl := hread.reads (by cases sw <;> trivial)
  have hpasses : @Passes cal Happening.Passive ⟨.fresh, _, old, hold⟩
      ⟨.fresh, s, pass ++ old, hold.append hnew⟩ := ⟨pass, rfl, hpass, hnew⟩
  exact hpasses.quiet.still_all hb

/-- A switch that stopped an axis and was found released later has been recorded
as released in between. -/
theorem Checked.released (h : Checked id sw false history)
    (hleads : Leads (.init cal) history s) (hsplit : history = newer ++ x :: older)
    (hx : x.Records id sw true) (hmoving : (x.before.axis id).state.moving = true) :
    ∃ y ∈ newer, y.Records id sw false := by
  obtain ⟨pass, b, old, rfl, hpass, hb⟩ := h
  have hne : x ≠ ⟨b, .acted (readFlag id sw false)⟩ := by
    rintro rfl
    obtain ⟨level, hev, -⟩ := hx
    cases hev
  rcases List.append_eq_append_iff.mp hsplit with ⟨mid, rfl, hold⟩ | ⟨mid, rfl, hnew⟩
  · -- the handler ran before the flag was read
    cases mid with
    | nil => exact absurd (List.cons.inj hold).1.symm hne
    | cons r mid =>
        obtain ⟨rfl, rfl⟩ := List.cons.inj hold
        obtain ⟨s1, hbefore, hread, -⟩ := hleads.entry
        obtain ⟨s2, -, hhappens, hmid⟩ := hbefore.entry
        have hflag := (hread.readFlag_eq).symm
        obtain ⟨y, hy, hrecords⟩ := hmid.recorded (hx.flag hhappens) hflag
        exact ⟨y, by simp [hy], hrecords⟩
  · -- the handler ran after that, but then the axis was stopped already
    cases mid with
    | nil => exact absurd (List.cons.inj hnew).1 hne
    | cons x' mid =>
        obtain ⟨rfl, rfl⟩ := List.cons.inj hnew
        have hbefore : Leads (.init cal) (mid ++ ⟨b, .acted (readFlag id sw false)⟩ :: old)
            x.before := by
          rw [List.append_assoc] at hleads
          exact hleads.entry.choose_spec.1
        have hchecked : Checked id sw false
            (mid ++ ⟨b, .acted (readFlag id sw false)⟩ :: old) :=
          ⟨mid, b, old, rfl, fun e he => hpass e (by simp [he]), hb⟩
        rw [hchecked.still hbefore id] at hmoving
        cases hmoving

end Ends

/-! ## The verdict on a MOVE -/

/-- A limit switch is pressed, as far as its flag says. -/
def AnyPressed (s : TestStand) : Prop := ∃ id sw, (s.axis id).state.lsPressed sw = true

/-- Of the four flags, only that of the far switch of the Y axis is set. -/
def OnlyYFar (s : TestStand) : Prop :=
  ∀ id sw, (s.axis id).state.lsPressed sw = true ↔ (id, sw) = (.y, .far)

/-- The status after the first part of `execute`, when nothing interrupts it. -/
def updatedStatus (around : Outside) (s : TestStand) : Option Status :=
  (undisturbed .fresh around updateStatus s).map fun r => r.2.status

/-- The update in terms of the flags that it reads. -/
theorem updatedStatus_moving (around : Outside) {s : TestStand} (hstatus : s.status = .moving)
    (hstill : Still s) :
    updatedStatus around s = some
      (if (s.axis .x).state.lsPressed .home || (s.axis .x).state.lsPressed .far ||
        (s.axis .y).state.lsPressed .home then .fault else .idle) := by
  have hx : s.axisX.state.moving = false := hstill .x
  have hy : s.axisY.state.moving = false := hstill .y
  cases hxHome : s.axisX.state.lsHomePressed <;> cases hxFar : s.axisX.state.lsFarPressed <;>
    cases hyHome : s.axisY.state.lsHomePressed <;>
      simp [updatedStatus, updateStatus, anyMoving, anyLsPressed, orM, stand, undisturbed,
        TestStand.perform, TestStand.axis, AxisState.lsPressed, Bind.bind, Prog.bind, toBool,
        hstatus, hx, hy, hxHome, hxFar, hyHome]

theorem anyPressed_iff (s : TestStand) : AnyPressed s ↔
    (s.axis .x).state.lsPressed .home = true ∨ (s.axis .x).state.lsPressed .far = true ∨
      (s.axis .y).state.lsPressed .home = true ∨ (s.axis .y).state.lsPressed .far = true := by
  constructor
  · rintro ⟨_ | _, _ | _, h⟩ <;> simp [h]
  · rintro (h | h | h | h) <;> exact ⟨_, _, h⟩

theorem onlyYFar_iff (s : TestStand) : OnlyYFar s ↔
    (s.axis .x).state.lsPressed .home = false ∧ (s.axis .x).state.lsPressed .far = false ∧
      (s.axis .y).state.lsPressed .home = false ∧
      (s.axis .y).state.lsPressed .far = true := by
  constructor
  · intro h
    exact ⟨by simpa using h .x .home, by simpa using h .x .far, by simpa using h .y .home,
      by simpa using h .y .far⟩
  · rintro ⟨h1, h2, h3, h4⟩ (_ | _) (_ | _) <;> simp [*]

/-- What is known whenever `execute` itself stores IDLE for MOVING. -/
theorem idle_stored {conf : Config} {cal : Calibration} {events : List ControllerEvent}
    {m : Recorder} (hrun : run Recorder.step (.init conf cal) events = some m)
    {new old : List Entry} {b : TestStand}
    (hhistory : m.history = new ++ ⟨b, .acted ⟨.setStatus .idle, ()⟩⟩ :: old)
    (hmoving : b.status = .moving) (hstop : ¬ServesStop old) :
    Leads (.init cal) old b ∧ Unhalted old ∧
      ∀ id sw, (id, sw) ≠ (.y, .far) → Checked id sw false old := by
  obtain ⟨earlier, m1, hrun1, hhistory1, -⟩ := Recorder.earlier hrun hhistory
  have hfound : IdleFound m1.history := (maintains_idleFound conf cal).run hrun1
  have hleads := Recorder.leads hrun1
  rw [hhistory1] at hfound hleads
  exact ⟨hleads.1, (hfound hmoving).resolve_left hstop⟩

/-- **The verdict on a MOVE.**  In every run of the controller: in every state with
status MOVING in which both axes are stopped, the update yields FAULT exactly if
one of the four switches is pressed, and IDLE exactly if none is, unless the far
switch of the Y axis is the only one that is.  And when the status changes from
MOVING to IDLE without a STOP, and that switch is not pressed, every switch that
stopped an axis has been recorded as released since. -/
theorem move_verdict (conf : Config) (cal : Calibration) (events : List ControllerEvent)
    (m : Recorder) (hrun : run Recorder.step (.init conf cal) events = some m) :
    (∀ around, m.controller.stand.status = .moving → Still m.controller.stand →
      (((updatedStatus around m.controller.stand = some .fault ↔ AnyPressed m.controller.stand) ∧
        (updatedStatus around m.controller.stand = some .idle ↔
          ¬AnyPressed m.controller.stand)) ↔ ¬OnlyYFar m.controller.stand)) ∧
    ∀ new b old, m.history = new ++ ⟨b, .acted ⟨.setStatus .idle, ()⟩⟩ :: old →
      b.status = .moving → ¬ServesStop old → (b.axis .y).state.lsPressed .far = false →
      ∀ id sw newer x older, old = newer ++ x :: older → x.Records id sw true →
        (x.before.axis id).state.moving = true → ∃ y ∈ newer, y.Records id sw false := by
  constructor
  · intro around hstatus hstill
    rw [updatedStatus_moving around hstatus hstill, anyPressed_iff, onlyYFar_iff]
    generalize (m.controller.stand.axis .x).state.lsPressed .home = xHome
    generalize (m.controller.stand.axis .x).state.lsPressed .far = xFar
    generalize (m.controller.stand.axis .y).state.lsPressed .home = yHome
    generalize (m.controller.stand.axis .y).state.lsPressed .far = yFar
    cases xHome <;> cases xFar <;> cases yHome <;> cases yFar <;> decide
  · intro new b old hhistory hmoving hstop hyFar id sw newer x older hold hx hxmoving
    obtain ⟨hleads, -, hchecked⟩ := idle_stored hrun hhistory hmoving hstop
    by_cases hne : (id, sw) = (.y, .far)
    · obtain ⟨rfl, rfl⟩ := Prod.mk.inj hne
      rw [hold] at hleads
      obtain ⟨s1, -, hhappens, hnewer⟩ := hleads.entry
      exact hnewer.recorded (hx.flag hhappens) hyFar
    · exact (hchecked id sw hne).released hleads hold hx hxmoving

/-- A MOVE of the X axis towards the home switch. -/
def moveHome : Packet := TestStandCommHost.movePacket .x .negative 75 1000

/-- The home switch stops a MOVE. -/
def homePressed : List ControllerEvent :=
  connected ++ request moveHome 4 ++ answered ++ [.interrupt .x (.isrLsHome .low)]

/-- It is released before the next round. -/
def homeTouched : List ControllerEvent :=
  homePressed ++ .interrupt .x (.isrLsHome .high) :: .loop :: operations 8

set_option maxRecDepth 4000 in
/-- The home switch of the X axis stops a MOVE.  If it is still pressed when the
status is updated the MOVE ends in FAULT, and otherwise in IDLE. -/
theorem move_verdict_home :
    (∃ m, run Recorder.step (.init conf defaultCalibration) homePressed = some m ∧
      ∀ around, updatedStatus around m.controller.stand = some .fault) ∧
    ∃ m b newer x older, run Recorder.step (.init conf defaultCalibration) homeTouched = some m ∧
      m.history = ⟨b, .acted ⟨.setStatus .idle, ()⟩⟩ :: (newer ++ x :: older) ∧
      x.Records .x .home true ∧ ∃ y ∈ newer, y.Records .x .home false := by
  constructor
  · refine ⟨_, rfl, fun around => ?_⟩
    have hverdict := (move_verdict conf defaultCalibration homePressed _ rfl).1 around rfl
      (fun id => by cases id <;> rfl)
    exact (hverdict.mpr fun honly => absurd ((honly .x .home).mp rfl) (by simp)).1.mpr
      ⟨.x, .home, rfl⟩
  · refine ⟨_, _, [_, _, _, _, _, _, _, _, _], _, _, rfl, rfl, ⟨.low, rfl, rfl⟩, ?_⟩
    exact (move_verdict conf defaultCalibration homeTouched _ rfl).2 [] _ _ rfl rfl (not_servesStop rfl)
      rfl .x .home _ _ _ rfl ⟨.low, rfl, rfl⟩ rfl

/-- A MOVE of the Y axis away from the home switch. -/
def moveY : Packet := TestStandCommHost.movePacket .y .positive 75 1000

/-- The far switch of the Y axis stops a MOVE. -/
def yFarPressed : List ControllerEvent :=
  connected ++ request moveY 4 ++ answered ++ [.interrupt .y (.isrLsFar .low)]

set_option maxRecDepth 4000 in
/-- **The far switch of the Y axis is overlooked.**  It has stopped a MOVE and is
still pressed, and the status changes to IDLE. -/
theorem move_verdict_yFar :
    ∃ m m', run Recorder.step (.init conf defaultCalibration) yFarPressed = some m ∧
      m.controller.stand.status = .moving ∧ Still m.controller.stand ∧
      AnyPressed m.controller.stand ∧
      (∀ around, updatedStatus around m.controller.stand = some .idle) ∧
      run Recorder.step m (.loop :: operations 8) = some m' ∧
      m'.controller.stand.status = .idle ∧ AnyPressed m'.controller.stand :=
  ⟨_, _, rfl, rfl, fun id => by cases id <;> rfl, ⟨.y, .far, rfl⟩, fun _ => rfl, rfl, rfl,
    ⟨.y, .far, rfl⟩⟩

/-- **How a MOVE that led to IDLE ended.**  In every run of the controller: when
the status changes from MOVING to IDLE without a STOP, every motion that was
started since the status last was something else was ended by `handle_isr_accel`
at its final target, or by the handler of a limit switch.  If that recorded the
switch as pressed, then the switch was recorded as released later; the far switch
of the Y axis is left out here. -/
theorem move_ended (conf : Config) (cal : Calibration) (events : List ControllerEvent)
    (m : Recorder) (hrun : run Recorder.step (.init conf cal) events = some m)
    {new mid old : List Entry} {b : TestStand} {st : Entry} {id : AxisId}
    {motion : AxisMotionSpec}
    (hhistory : m.history =
      new ++ ⟨b, .acted ⟨.setStatus .idle, ()⟩⟩ :: (mid ++ st :: old))
    (hmoving : b.status = .moving) (hstop : ¬ServesStop (mid ++ st :: old))
    (hst : st.event = .acted ⟨.axisStart id.toByte motion, .ok⟩)
    (hmid : ∀ e ∈ mid, ¬e.event.Leaves) :
    ∃ newer e older, mid = newer ++ e :: older ∧
      (∀ x ∈ older, (x.before.axis id).state.moving = true) ∧
      (e.before.axis id).state.moving = true ∧
      (e.Finishes id ∨ ∃ sw pressed, e.Records id sw pressed ∧
        (pressed = true → (id, sw) ≠ (.y, .far) → ∃ y ∈ newer, y.Records id sw false)) := by
  obtain ⟨hleads, hunhalted, hchecked⟩ := idle_stored hrun hhistory hmoving hstop
  have hstill : Still b := (hchecked .x .home (by simp)).still hleads
  obtain ⟨s1, -, hstart, hrest⟩ := hleads.entry
  rw [hst] at hstart
  obtain ⟨newer, e, older, s2, rfl, -, holder, he, -, -, hend⟩ :=
    hrest.ended (hstart.started) (hstill id)
  refine ⟨newer, e, older, rfl, holder, he, ?_⟩
  rcases hend with hfinishes | ⟨sw, pressed, hrecords⟩ | hhalts
  · exact .inl hfinishes
  · refine .inr ⟨sw, pressed, hrecords, ?_⟩
    rintro rfl hne
    have hsplit : newer ++ e :: older ++ st :: old = newer ++ e :: (older ++ st :: old) := by simp
    exact (hchecked id sw hne).released hleads hsplit hrecords he
  · exact absurd hhalts (hunhalted.split hmid e (by simp))

/-- The status has changed from MOVING to IDLE without a STOP, and the handler of
the home switch ended a motion of the X axis that was started since the status
last was something else. -/
def CutShort (pressed : Bool) (history : List Entry) : Prop :=
  ∃ b newer e older st old motion,
    history = ⟨b, .acted ⟨.setStatus .idle, ()⟩⟩ :: (newer ++ e :: older ++ st :: old) ∧
      b.status = .moving ∧ ¬ServesStop (newer ++ e :: older ++ st :: old) ∧
      st.event = .acted ⟨.axisStart AxisId.x.toByte motion, .ok⟩ ∧
      (∀ e' ∈ newer ++ e :: older, ¬e'.event.Leaves) ∧
      (∀ x ∈ older, (x.before.axis .x).state.moving = true) ∧
      (e.before.axis .x).state.moving = true ∧ e.Records .x .home pressed

/-- The X axis leaves its home switch, which stops it by being released. -/
def homeReleased : List ControllerEvent :=
  connected ++ .interrupt .x (.isrLsHome .low) :: request moveX 4 ++ answered ++
    .interrupt .x (.isrLsHome .high) :: .loop :: operations 8

set_option maxRecDepth 4000 in
/-- **IDLE without having arrived.**  The home switch stops a motion when it is
released, and it also does when it is pressed only for a moment. -/
theorem move_cut_short :
    (∃ m, run Recorder.step (.init conf defaultCalibration) homeReleased = some m ∧
      CutShort false m.history) ∧
    ∃ m, run Recorder.step (.init conf defaultCalibration) homeTouched = some m ∧
      CutShort true m.history := by
  constructor
  · exact ⟨_, rfl, _, [_, _, _, _, _, _, _, _], _, [_], _, _, _, rfl, rfl, not_servesStop rfl, rfl,
      List.forall_iff_forall_mem.mp ⟨id, id, id, id, id, id, id, id, id, fun h => h rfl⟩,
      List.forall_iff_forall_mem.mp rfl, rfl, .high, rfl, rfl⟩
  · exact ⟨_, rfl, _, [_, _, _, _, _, _, _, _, _], _, [_], _, _, _, rfl, rfl, not_servesStop rfl, rfl,
      List.forall_iff_forall_mem.mp ⟨id, id, id, id, id, id, id, id, id, id, fun h => h rfl⟩,
      List.forall_iff_forall_mem.mp rfl, rfl, .low, rfl, rfl⟩

set_option maxRecDepth 4000 in
/-- The MOVE that the home switch has stopped for a moment. -/
theorem move_ended_home :
    ∃ m b mid st old, run Recorder.step (.init conf defaultCalibration) homeTouched = some m ∧
      m.history = ⟨b, .acted ⟨.setStatus .idle, ()⟩⟩ :: (mid ++ st :: old) ∧
      ∃ newer e older, mid = newer ++ e :: older ∧
        (∀ x ∈ older, (x.before.axis .x).state.moving = true) ∧
        (e.before.axis .x).state.moving = true ∧
        (e.Finishes .x ∨ ∃ sw pressed, e.Records .x sw pressed ∧
          (pressed = true → (AxisId.x, sw) ≠ (.y, .far) →
            ∃ y ∈ newer, y.Records .x sw false)) := by
  refine ⟨_, _, [_, _, _, _, _, _, _, _, _, _, _], _, _, rfl, rfl, ?_⟩
  exact @move_ended conf defaultCalibration homeTouched _ rfl [] _ _ _ _ .x _ rfl rfl (not_servesStop rfl)
    rfl (List.forall_iff_forall_mem.mp
      ⟨id, id, id, id, id, id, id, id, id, id, fun h => h rfl⟩)

end MPMTTestStand

end MpmtTestStand.Ports
