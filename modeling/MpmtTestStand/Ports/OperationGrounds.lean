import MpmtTestStand.Ports.HomingEnd
import MpmtTestStand.Ports.ReachedStates

/-!
# Why the controller does what it does

Whatever of consequence the main program does, a message or the state of the axes
is the reason.  `Grounded` says for each operation what has to be the case when it
is performed: which message is being handled, or what the update of the status has
found.  `operations_grounded` proves it for every operation of every run.
-/

namespace MpmtTestStand.Ports

open MpmtTestStand.Verified
open MpmtTestStand.Verified.Run

namespace MPMTTestStand

/-! ## Grounds -/

/-- A message with this identifier is being handled. -/
def Handles (id : UInt8) (history : List Entry) : Prop :=
  ∃ p, served history = some p ∧ p.id = id

/-- The reasons for that part of the homing routine: a HOME, or part A is over and
both home switches have been found pressed. -/
def HomingPart (b : TestStand) (old : List Entry) : Bool → Prop
  | false => Handles msgIdHome old
  | true => served old = none ∧ b.status = .homing ∧ b.homeADone = false ∧ ∀ id, Ready id old

/-- Waiting, and setting up an axis. -/
def Happening.InSetup : Happening → Prop
  | .acted ⟨.axisSetup _ _ _, _⟩ => True
  | ev => ev.Waiting

/-- `setup` has not returned: the program has done nothing but set up axes and wait for
the host. -/
def InSetup (old : List Entry) : Prop := ∀ x ∈ old, x.event.InSetup

/-- The position of the axis has been set to zero since the last HOME. -/
def Zeroed (id : AxisId) (old : List Entry) : Prop :=
  ∃ new b older, old = new ++ ⟨b, .acted ⟨.axisReset id, ()⟩⟩ :: older ∧
    ∀ x ∈ new, ¬x.event.BeginsHoming

/-- Why an axis is started. -/
inductive StartGrounds (b : TestStand) (old : List Entry) : UInt8 → AxisMotionSpec → Prop
  | move (p : Packet) (hserved : served old = some p) (hid : p.id = msgIdMove) :
      StartGrounds b old (MoveMsgData.ofBytes p.payload).axis
        (moveMotion (.ofBytes p.payload) b.cal)
  | homing (done : Bool) (id : AxisId) (h : HomingPart b old done) :
      StartGrounds b old id.toByte (homingMotion (homingDir done) b.cal)

/-- Why a status is stored. -/
inductive StatusGrounds (b : TestStand) (old : List Entry) : Status → Prop
  | connected (hsetup : InSetup old) (hstatus : b.status = .idle) : StatusGrounds b old .idle
  | stays (hserved : served old = none) (hstatus : b.status = .moving ∨ b.status = .homing)
      (hseen : SeenMoving old) : StatusGrounds b old b.status
  | stop (h : ServesStop old) (hstill : Still b) : StatusGrounds b old .idle
  | move (h : Handles msgIdMove old) (hstarting : Starting old) : StatusGrounds b old .moving
  | home (h : Handles msgIdHome old) (hdone : b.homeADone = false) :
      StatusGrounds b old .homing
  | homeB (hserved : served old = none) (hstatus : b.status = .homing)
      (hdone : b.homeADone = true) (hready : ∀ id, Ready id old) : StatusGrounds b old .homing
  | arrived (hserved : served old = none) (hstatus : b.status = .moving) (hstill : Still b)
      (hchecked : ∀ id sw, (id, sw) ≠ (.y, .far) → Checked id sw false old) :
      StatusGrounds b old .idle
  | homed (hserved : served old = none) (hstatus : b.status = .homing)
      (hdone : b.homeADone = true) (hstill : Still b) (hzeroed : ∀ id, Zeroed id old) :
      StatusGrounds b old .idle
  | blocked (hserved : served old = none) (hstill : Still b) (hblocked : Blocked b old) :
      StatusGrounds b old .fault

/-- Why `home_a_done` is stored. -/
inductive DoneGrounds (b : TestStand) (old : List Entry) : Bool → Prop
  | part (done : Bool) (h : HomingPart b old done) : DoneGrounds b old done
  | homed (hserved : served old = none) (hstatus : b.status = .idle) : DoneGrounds b old false

/-- What has to be the case when an operation is performed at `b`. -/
def Grounded (b : TestStand) (old : List Entry) : Acted → Prop
  | ⟨.axisSetup _ _ _, _⟩ => InSetup old ∧ b.status = .idle ∧ Still b
  | ⟨.axisStart raw motion, res⟩ => res = .ok → StartGrounds b old raw motion
  | ⟨.axisStop _, _⟩ => ServesStop old
  | ⟨.axisReset _, _⟩ =>
      served old = none ∧ b.status = .homing ∧ b.homeADone = true ∧ Still b
  | ⟨.setStatus status, _⟩ => StatusGrounds b old status
  | ⟨.setHomeADone done, _⟩ => DoneGrounds b old done
  | _ => True

/-- The operation that has just been performed was grounded. -/
def JustGrounded : List Entry → Prop
  | ⟨b, .acted a⟩ :: old => Grounded b old a
  | _ => True

/-! ## Quiet happenings -/

theorem Happening.Quiet.justGrounded {b : TestStand} {ev : Happening} {old : List Entry}
    (h : ev.Quiet) : JustGrounded (⟨b, ev⟩ :: old) := by
  cases ev with
  | round => trivial
  | interrupt id e => trivial
  | acted a =>
      obtain ⟨o, r⟩ := a
      cases o with
      | axisStart raw motion => exact fun hok => absurd hok h
      | axisSetup | axisStop | axisReset | setStatus | setHomeADone => exact h.elim
      | _ => trivial

section Grounds

variable {cal : Calibration} {s t : Record cal} {α : Type} {post : α → Record cal → Prop}

theorem Passes.justGrounded (h : Passes Happening.Quiet s t) (hs : JustGrounded s.history) :
    JustGrounded t.history :=
  h.induct (motive := fun _ history => JustGrounded history) hs
    fun _ _ _ _ hev _ _ => hev.justGrounded

theorem Passes.handles {id : UInt8} (h : Passes Happening.Passive s t)
    (hs : Handles id s.history) : Handles id t.history := by
  obtain ⟨p, hp, hid⟩ := hs
  exact ⟨p, h.served.trans hp, hid⟩

theorem Passes.homingPart {done : Bool} (h : Passes Happening.Passive s t)
    (hs : HomingPart s.stand s.history done) : HomingPart t.stand t.history done := by
  cases done with
  | false => exact h.handles hs
  | true =>
      obtain ⟨hserved, hstatus, hdone, hready⟩ := hs
      exact ⟨h.served.trans hserved, h.quiet.status.trans hstatus,
        h.quiet.homeADone.trans hdone, fun id => h.quiet.ready (hready id)⟩

theorem Happening.Waiting.inSetup {ev : Happening} (h : ev.Waiting) : ev.InSetup := by
  cases ev <;> first | exact h.elim | trivial

theorem Passes.inSetup (h : Passes Happening.Waiting s t) (hs : InSetup s.history) :
    InSetup t.history :=
  h.induct (motive := fun _ history => InSetup history) hs fun _ _ _ _ hev _ ih =>
    List.forall_mem_cons.mpr ⟨hev.inSetup, ih⟩

theorem Zeroed.cons {id : AxisId} {old : List Entry} {e : Entry} (h : Zeroed id old)
    (he : ¬e.event.BeginsHoming) : Zeroed id (e :: old) := by
  obtain ⟨new, b, older, rfl, hnew⟩ := h
  exact ⟨e :: new, b, older, rfl, List.forall_mem_cons.mpr ⟨he, hnew⟩⟩

theorem Passes.zeroed {id : AxisId} (h : Passes Happening.Passive s t)
    (hs : Zeroed id s.history) : Zeroed id t.history :=
  h.quiet.induct (motive := fun _ history => Zeroed id history) hs
    fun _ _ _ _ hev _ ih => ih.cons hev.not_begins

/-- An operation with its grounds. -/
theorem SafeProg.grounded {o : StandOp} {k : o.Res → StandProg α} (hs : JustGrounded s.history)
    (hground : ∀ t r, Passes Happening.External s t → Grounded t.stand t.history ⟨o, r⟩)
    (h : ∀ t r now (hhappens : Happens t.stand (.acted ⟨o, r⟩) now),
      Passes Happening.External s t → JustGrounded (t.happen hhappens).history →
      SafeProg (fun _ history => JustGrounded history) post (k r) (t.happen hhappens)) :
    SafeProg (fun _ history => JustGrounded history) post (.op (.act o) k) s :=
  .act fun t ht _ => ⟨ht.passive.quiet.justGrounded hs, fun r now hhappens =>
    h t r now hhappens ht (hground t r ht)⟩

/-- The end of a program. -/
theorem SafeProg.retGrounded {a : α} (hs : JustGrounded s.history)
    (h : ∀ t, Passes Happening.Passive s t → post a t) :
    SafeProg (fun _ history => JustGrounded history) post (.ret a) s :=
  .ret fun t ht => ⟨ht.quiet.justGrounded hs, h t ht⟩

/-! ## The functions of the main program -/

/-- The invariant between the functions. -/
structure GroundsInv (phase : MPMTTestStand.Phase) (s : Record cal) : Prop where
  grounded : JustGrounded s.history
  connecting : phase = .connecting → InSetup s.history ∧ s.stand.status = .idle

variable {phase : Phase}

theorem GroundsInv.quiet (h : GroundsInv phase s) (ht : Passes phase.Quiet s t) :
    GroundsInv phase t where
  grounded := ht.of_phase.justGrounded h.grounded
  connecting hphase := by
    subst hphase
    obtain ⟨hsetup, hidle⟩ := h.connecting rfl
    exact ⟨Passes.inSetup ht hsetup, ht.of_phase.status.trans hidle⟩

theorem GroundsInv.of_running (h : JustGrounded s.history) : GroundsInv .running s :=
  ⟨h, by simp⟩

/-- Storing a status. -/
theorem safe_groundStatus {status : Status} (hs : JustGrounded s.history)
    (hground : ∀ t, Passes Happening.External s t → StatusGrounds t.stand t.history status) :
    SafeProg (fun _ history => JustGrounded history)
      (fun _ t => JustGrounded t.history ∧ t.stand.status = status ∧
        t.stand.homeADone = s.stand.homeADone ∧ served t.history = served s.history)
      (stand (.setStatus status)) s := by
  refine .grounded hs (fun t _ ht => hground t ht) fun t r now hhappens ht hgrounded => ?_
  refine .retGrounded hgrounded fun u hu => ⟨hu.quiet.justGrounded hgrounded, ?_, ?_, ?_⟩
  · exact hu.quiet.status.trans (congrArg TestStand.status hhappens.setStatus_eq)
  · have hnow : now.homeADone = t.stand.homeADone := by
      rw [hhappens.setStatus_eq]
    exact hu.quiet.homeADone.trans (hnow.trans ht.passive.quiet.homeADone)
  · exact hu.served.trans ht.passive.served

/-- Storing a status as the last operation of a function. -/
theorem safe_lastStatus {status : Status} (hs : JustGrounded s.history)
    (hground : ∀ t, Passes Happening.External s t → StatusGrounds t.stand t.history status) :
    SafeProg (fun _ history => JustGrounded history) (fun _ => GroundsInv .running)
      (stand (.setStatus status)) s :=
  (safe_groundStatus hs hground).mono fun _ _ ht => .of_running ht.1

/-- What holds while a part of the homing routine is begun. -/
structure Beginning (done : Bool) (c : Calibration) (s : Record cal) : Prop where
  grounded : JustGrounded s.history
  part : HomingPart s.stand s.history done
  cal_eq : s.stand.cal = c

theorem Beginning.external {done : Bool} {c : Calibration} (h : Beginning done c s)
    (ht : Passes Happening.External s t) : Beginning done c t where
  grounded := ht.passive.quiet.justGrounded h.grounded
  part := ht.passive.homingPart h.part
  cal_eq := ht.passive.cal_eq.trans h.cal_eq

/-- A start, accepted or not. -/
theorem Beginning.start {done : Bool} {c : Calibration} {id : AxisId} {res : AxisResult}
    {now : TestStand} (h : Beginning done c s)
    (hhappens : Happens s.stand
      (.acted ⟨.axisStart id.toByte (homingMotion (homingDir done) c), res⟩) now)
    (hgrounded : JustGrounded (s.happen hhappens).history) :
    Beginning done c (s.happen hhappens) := by
  obtain ⟨-, hpart, hcal⟩ := h
  refine ⟨hgrounded, ?_, ?_⟩
  · cases done with
    | false => exact hpart
    | true =>
        obtain ⟨hserved, hstatus, hdone, hready⟩ := hpart
        have hnow : now.status = s.stand.status ∧ now.homeADone = s.stand.homeADone := by
          obtain ⟨_, -, -, rfl⟩ := hhappens.axisStart_eq
          exact ⟨TestStand.status_setAxis .., TestStand.homeADone_setAxis ..⟩
        exact ⟨hserved, hnow.1.trans hstatus, hnow.2.trans hdone,
          fun id => (hready id).cons fun hbegins => hbegins⟩
  · obtain ⟨_, -, -, rfl⟩ := hhappens.axisStart_eq
    exact (TestStand.cal_setAxis ..).trans hcal

/-- A start in the homing routine has its grounds. -/
theorem Beginning.startGrounds {done : Bool} {c : Calibration} (h : Beginning done c s)
    (id : AxisId) : StartGrounds s.stand s.history id.toByte (homingMotion (homingDir done) c) := by
  rw [← h.cal_eq]
  exact .homing done id h.part

/-- Both starts of a part of the homing routine, and the writes after them. -/
theorem Beginning.startBoth {done : Bool} {c : Calibration} (h : Beginning done c s) :
    SafeProg (fun _ history => JustGrounded history) (fun _ => GroundsInv .running)
      (do
        let _ ← axisStart .x (homingMotion (homingDir done) c)
        let _ ← axisStart .y (homingMotion (homingDir done) c)
        stand (.setHomeADone done)
        stand (.setStatus .homing)) s := by
  refine .grounded h.grounded (fun t _ ht _ => (h.external ht).startGrounds .x)
    fun t res now hx ht hgrounded => ?_
  have hbx := (h.external ht).start hx hgrounded
  refine .grounded hbx.grounded (fun u _ hu _ => (hbx.external hu).startGrounds .y)
    fun u res' now hy hu hgrounded => ?_
  have hby := (hbx.external hu).start hy hgrounded
  refine .grounded hby.grounded (fun v _ hv => .part done (hby.external hv).part)
    fun v r now hdone hv hgrounded => ?_
  refine safe_lastStatus hgrounded fun w hw => ?_
  have hpart := (hby.external hv).part
  have hset : w.stand.homeADone = done :=
    hw.passive.quiet.homeADone.trans (congrArg TestStand.homeADone hdone.setHomeADone_eq)
  cases done with
  | false =>
      obtain ⟨p, hp, hid⟩ := hpart
      exact .home ⟨p, hw.passive.served.trans hp, hid⟩ hset
  | true =>
      obtain ⟨hserved, hstatus, -, hready⟩ := hpart
      have hnow : (v.happen hdone).stand.status = v.stand.status := by
        obtain rfl := hdone.setHomeADone_eq
        rfl
      have hserved' : served (v.happen hdone).history = none := hserved
      exact .homeB (hw.passive.served.trans hserved')
        (hw.passive.quiet.status.trans (hnow.trans hstatus)) hset
        fun id => hw.passive.quiet.ready ((hready id).cons fun hbegins => hbegins)

theorem safe_groundHomeA (hs : JustGrounded s.history) (hhome : Handles msgIdHome s.history) :
    SafeProg (fun _ history => JustGrounded history) (fun _ => GroundsInv .running)
      handleHomeA s := by
  refine .grounded hs (fun _ _ _ => trivial) fun t c now hget ht hgrounded => ?_
  obtain rfl := hget.reads trivial
  have hbeginning : Beginning false c (t.happen hget) :=
    ⟨hgrounded, ht.passive.handles hhome, hget.getCal_eq.symm⟩
  exact hbeginning.startBoth

theorem safe_groundHomeB (hs : JustGrounded s.history) (hpart : HomingPart s.stand s.history true) :
    SafeProg (fun _ history => JustGrounded history) (fun _ => GroundsInv .running)
      handleHomeB s := by
  refine .grounded hs (fun _ _ _ => trivial) fun t c now hget ht hgrounded => ?_
  obtain rfl := hget.reads trivial
  have hbeginning : Beginning true c (t.happen hget) :=
    ⟨hgrounded, (ht.passive.happen hget trivial).homingPart hpart, hget.getCal_eq.symm⟩
  exact hbeginning.startBoth

theorem GroundsInv.move (h : GroundsInv .running s) {p : Packet}
    (hserved : served s.history = some p) (hp : s.rx.msg.packet = p) (hid : p.id = msgIdMove) :
    SafeProg (fun _ history => JustGrounded history) (fun _ => GroundsInv .running)
      handleMove s := by
  refine safe_handleMove (fun t ht => ⟨(h.quiet ht).grounded, h.quiet ht⟩) ?_
  intro t data now hstart ht hdata
  have hserved' : served t.history = some p := ht.served.trans hserved
  have hgrounded : JustGrounded (t.happen hstart).history := by
    intro _
    obtain rfl : MoveMsgData.ofBytes p.payload = data := by
      rw [TestStandCommController.recvMove_payload] at hdata
      split at hdata
      · cases hdata
      · rw [← hp]
        exact Option.some.inj hdata
    exact .move p hserved' hid
  refine (safe_groundStatus hgrounded fun u hu => ?_).mono fun _ u hu v hv =>
    ⟨hv.justGrounded hu.1, .of_running (hv.justGrounded hu.1)⟩
  have hstarting : Starting (t.happen hstart).history := .inl rfl
  exact .move ⟨p, hu.passive.served.trans hserved', hid⟩ (hstarting.external hu)

/-- Stopping both axes. -/
theorem safe_groundStop (hs : JustGrounded s.history) (hstop : ServesStop s.history) :
    SafeProg (fun _ history => JustGrounded history) (fun _ => GroundsInv .running)
      handleStop s := by
  obtain ⟨p, hp, hid⟩ := hstop
  refine .grounded hs (fun t _ ht => ⟨p, ht.passive.served.trans hp, hid⟩)
    fun t r now hx ht hgrounded => ?_
  have htx : served (t.happen hx).history = some p := ht.passive.served.trans hp
  refine .grounded hgrounded (fun u _ hu => ⟨p, hu.passive.served.trans htx, hid⟩)
    fun u r now hy hu hgrounded => ?_
  have huy : served (u.happen hy).history = some p := hu.passive.served.trans htx
  refine safe_lastStatus hgrounded fun v hv => .stop ⟨p, hv.passive.served.trans huy, hid⟩ ?_
  -- the X axis was stopped first and has not been started since
  refine hv.passive.quiet.still_all ?_
  obtain rfl := hy.axisStop_eq
  refine .setAxis rfl fun id hne => ?_
  have hidx : id = .x := by cases id <;> first | rfl | exact absurd rfl hne
  subst hidx
  refine hu.passive.quiet.still ?_
  obtain rfl := hx.axisStop_eq
  show ((t.stand.setAxis .x (t.stand.axis .x).stopAxis).axis .x).state.moving = false
  rw [TestStand.axis_setAxis]
  rfl

/-- What holds while the homing routine is finished. -/
structure Finishing (s : Record cal) : Prop where
  grounded : JustGrounded s.history
  served_eq : served s.history = none
  status : s.stand.status = .homing
  done : s.stand.homeADone = true
  still : Still s.stand

theorem Finishing.external (h : Finishing s) (ht : Passes Happening.External s t) :
    Finishing t where
  grounded := ht.passive.quiet.justGrounded h.grounded
  served_eq := ht.passive.served.trans h.served_eq
  status := ht.passive.quiet.status.trans h.status
  done := ht.passive.quiet.homeADone.trans h.done
  still := ht.passive.quiet.still_all h.still

/-- An axis is reset. -/
theorem Finishing.reset (h : Finishing s) {id : AxisId} {r : Unit} {now : TestStand}
    (hhappens : Happens s.stand (.acted ⟨.axisReset id, r⟩) now)
    (hgrounded : JustGrounded (s.happen hhappens).history) :
    Finishing (s.happen hhappens) := by
  obtain ⟨hstatus, hdone⟩ := hhappens.halt trivial
  refine ⟨hgrounded, h.served_eq, hstatus.trans h.status, hdone.trans h.done, ?_⟩
  obtain rfl := hhappens.axisReset_eq
  exact .setAxis rfl fun id' _ => h.still id'

theorem Finishing.finish (h : Finishing s) :
    SafeProg (fun _ history => JustGrounded history) (fun _ => GroundsInv .running)
      finishHoming s := by
  have hground : ∀ {t : Record cal}, Finishing t →
      served t.history = none ∧ t.stand.status = .homing ∧ t.stand.homeADone = true ∧
        Still t.stand := fun ht => ⟨ht.served_eq, ht.status, ht.done, ht.still⟩
  refine .grounded h.grounded (fun t _ ht => hground (h.external ht))
    fun t r now hx ht hgrounded => ?_
  have hfx := (h.external ht).reset hx hgrounded
  have hzx : Zeroed .x (t.happen hx).history := ⟨[], _, _, rfl, by simp⟩
  refine .grounded hfx.grounded (fun u _ hu => hground (hfx.external hu))
    fun u r now hy hu hgrounded => ?_
  have hfy := (hfx.external hu).reset hy hgrounded
  have hzeroed : ∀ id, Zeroed id (u.happen hy).history
    | .x => (hu.passive.zeroed hzx).cons fun hbegins => hbegins
    | .y => ⟨[], _, _, rfl, by simp⟩
  show SafeProg _ _ (stand (.setStatus .idle) >>= fun _ => stand (.setHomeADone false)) _
  refine World.Safe.bind ((safe_groundStatus hgrounded fun v hv => ?_).mono ?_)
  · have hfv := hfy.external hv
    exact .homed hfv.served_eq hfv.status hfv.done hfv.still fun id => hv.passive.zeroed (hzeroed id)
  · rintro - v ⟨hgrounded, hstatus, -, hserved⟩
    have hnone : served v.history = none := hserved.trans hfy.served_eq
    refine SafeProg.grounded hgrounded (fun w _ hw => .homed (hw.passive.served.trans hnone)
      (hw.passive.quiet.status.trans hstatus)) fun w r now hdone hw hgrounded => ?_
    exact .retGrounded hgrounded fun y hy => .of_running (hy.quiet.justGrounded hgrounded)

/-- The two calls of `axis_setup`. -/
theorem safe_groundSetup {conf : Config} (hs : JustGrounded s.history)
    (hsetup : InSetup s.history) (hidle : s.stand.status = .idle) (hstill : Still s.stand) :
    SafeProg (fun _ history => JustGrounded history) (fun _ => GroundsInv .connecting)
      (setupAxes conf) s := by
  refine .grounded hs (fun t _ ht => ⟨ht.waiting.inSetup hsetup,
      ht.passive.quiet.status.trans hidle, ht.passive.quiet.still_all hstill⟩)
    fun t r now hx ht hgrounded => ?_
  have hxSetup : InSetup (t.happen hx).history :=
    List.forall_mem_cons.mpr ⟨trivial, ht.waiting.inSetup hsetup⟩
  have hxIdle : (t.happen hx).stand.status = .idle :=
    (hx.halt trivial).1.trans (ht.passive.quiet.status.trans hidle)
  have hxStill : Still (t.happen hx).stand := by
    have ht' := ht.passive.quiet.still_all hstill
    obtain rfl := hx.axisSetup_eq
    exact .setAxis rfl fun id _ => ht' id
  refine .grounded hgrounded (fun u _ hu => ⟨hu.waiting.inSetup hxSetup,
      hu.passive.quiet.status.trans hxIdle, hu.passive.quiet.still_all hxStill⟩)
    fun u r now hy hu hgrounded => ?_
  have hySetup : InSetup (u.happen hy).history :=
    List.forall_mem_cons.mpr ⟨trivial, hu.waiting.inSetup hxSetup⟩
  have hyIdle : (u.happen hy).stand.status = .idle :=
    (hy.halt trivial).1.trans (hu.passive.quiet.status.trans hxIdle)
  intro v hv
  have hpassed := (Passes.refl Happening.External _).rely (fun _ _ => trivial) hv
  have hv' := hpassed.passive.quiet.justGrounded hgrounded
  exact ⟨hv', hv', fun _ =>
    ⟨hpassed.waiting.inSetup hySetup, hpassed.passive.quiet.status.trans hyIdle⟩⟩

end Grounds

/-! ## Runs -/

theorem maintains_justGrounded (conf : Config) (cal : Calibration) :
    Maintains conf cal (fun _ history => JustGrounded history) GroundsInv where
  quiet _ _ _ hs ht := hs.quiet ht
  holds _ _ hs := hs.grounded
  setup := safe_groundSetup trivial (by simp [InSetup, Recorder.start]) rfl
    fun id => by cases id <;> rfl
  connected s hs := by
    obtain ⟨hsetup, hidle⟩ := hs.connecting rfl
    exact safe_lastStatus hs.grounded fun t ht =>
      .connected (ht.waiting.inSetup hsetup) (ht.passive.quiet.status.trans hidle)
  update s hs hserved := by
    have hI := fun t (ht : Passes Happening.Passive s t) => ht.quiet.justGrounded hs.grounded
    refine safe_updateStatus hI (fun t ht _ => .of_running (hI t ht)) ?_ ?_ ?_ ?_ ?_
    · intro t status ht hstatus hkept hseen
      refine safe_lastStatus (hI t ht) fun u hu => ?_
      have hsu := ht.trans hu.passive
      have hnow : u.stand.status = status := hsu.quiet.status.trans hstatus
      rw [← hnow] at hkept ⊢
      exact .stays (hsu.served.trans hserved) hkept (hseen.passes hu.passive)
    · intro t ht hblocked hstill
      have hblocked' : Blocked t.stand t.history := by
        unfold Blocked
        rwa [ht.quiet.status, ht.quiet.homeADone]
      refine safe_lastStatus (hI t ht) fun u hu => ?_
      exact .blocked ((ht.trans hu.passive).served.trans hserved)
        (hu.passive.quiet.still_all hstill) (hblocked'.passes hu.passive)
    · intro t ht hstatus hstill hchecked
      refine safe_lastStatus (hI t ht) fun u hu => ?_
      have hsu := ht.trans hu.passive
      exact .arrived (hsu.served.trans hserved) (hsu.quiet.status.trans hstatus)
        (hu.passive.quiet.still_all hstill) fun id sw hne => (hchecked id sw hne).passes hu.passive
    · intro t ht hstatus hdone _ hchecked
      exact safe_groundHomeB (hI t ht) ⟨ht.served.trans hserved, ht.quiet.status.trans hstatus,
        ht.quiet.homeADone.trans hdone, fun id => (hchecked id).ready⟩
    · intro t ht hstatus hdone hstill
      exact Finishing.finish ⟨hI t ht, ht.served.trans hserved, ht.quiet.status.trans hstatus,
        ht.quiet.homeADone.trans hdone, hstill⟩
  serve s h hs hid := by
    have hgrounded : JustGrounded (s.happen h).history := trivial
    rcases hid with hid | hid | hid <;> simp only [hid]
    · exact safe_groundHomeA hgrounded ⟨_, rfl, hid⟩
    · exact (GroundsInv.of_running hgrounded).move rfl rfl hid
    · exact safe_groundStop hgrounded ⟨_, rfl, hid⟩

/-- Every operation in the history of a state that is reached. -/
theorem Recorder.Reached.grounded {conf : Config} {cal : Calibration} {m : Recorder}
    (hm : Recorder.Reached conf cal m) {new old : List Entry} {b : TestStand} {a : Acted}
    (hsplit : m.history = new ++ ⟨b, .acted a⟩ :: old) : Grounded b old a := by
  obtain ⟨m1, hm1, hhistory⟩ := hm.suffix hsplit
  have hgrounded := (maintains_justGrounded conf cal).reached hm1
  rwa [hhistory] at hgrounded

end MPMTTestStand

end MpmtTestStand.Ports
