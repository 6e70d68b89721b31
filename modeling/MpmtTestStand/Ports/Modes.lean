import MpmtTestStand.Ports.OperationGrounds
import MpmtTestStand.Verified.Simulation

/-!
# The modes of the controller

What the controller is for, in five modes: it waits for a command, carries out a
MOVE, is in either part of the homing routine, or has found a fault.  `Mode.next` is
the whole of its behaviour, and says nothing of polling, interrupts or the writes of
a handler.

`modes_refine`: every run of the controller is a run of this machine.  Each change of
mode is one of its orders, given at an entry of the history that warrants it: a
message that is being handled, or what the update of the status has found out about
the axes and their switches.
-/

namespace MpmtTestStand.Ports

open MpmtTestStand.Verified
open MpmtTestStand.Verified.Run

namespace MPMTTestStand

/-! ## The machine -/

/-- The modes of the controller. -/
inductive Mode
  | idle
  | moving
  | homingA
  | homingB
  | fault
  deriving DecidableEq, Repr

/-- What changes the mode. -/
inductive Order
  | stop
  | home
  | move
  /-- the axes of a MOVE have stopped, and no switch is in the way -/
  | arrived
  /-- the axes have stopped where they should not have -/
  | blocked
  /-- both axes are at their home switches -/
  | bothHome
  /-- both axes have left their home switches -/
  | homed
  deriving DecidableEq, Repr

/-- The mode after an order.  Commands are taken in every mode. -/
def Mode.next : Mode → Order → Option Mode
  | _, .stop => some .idle
  | _, .home => some .homingA
  | _, .move => some .moving
  | .moving, .arrived => some .idle
  | .moving, .blocked => some .fault
  | .homingA, .blocked => some .fault
  | .homingA, .bothHome => some .homingB
  | .homingB, .homed => some .idle
  | _, _ => none

end MPMTTestStand

open MPMTTestStand

/-- The mode that the variables of the main program stand for. -/
def TestStand.mode (s : TestStand) : Mode :=
  match s.status with
  | .idle => .idle
  | .moving => .moving
  | .homing => if s.homeADone then .homingB else .homingA
  | .fault => .fault

/-- The status that a mode is reported as. -/
def MPMTTestStand.Mode.status : Mode → Status
  | .idle => .idle
  | .moving => .moving
  | .homingA | .homingB => .homing
  | .fault => .fault

@[simp] theorem TestStand.status_mode (s : TestStand) : s.mode.status = s.status := by
  unfold mode
  cases s.status with
  | homing => cases s.homeADone <;> rfl
  | _ => rfl

theorem TestStand.mode_congr {s s' : TestStand} (hstatus : s'.status = s.status)
    (hdone : s.status = .homing → s'.homeADone = s.homeADone) : s'.mode = s.mode := by
  unfold mode
  rw [hstatus]
  cases hs : s.status with
  | homing => simp only [hdone hs]
  | _ => rfl

namespace MPMTTestStand

/-- What has to be the case when an order is given at `b`. -/
def Order.Warranted (b : TestStand) (old : List Entry) : Order → Prop
  | .stop => ServesStop old ∧ Still b
  | .home => Handles msgIdHome old
  | .move => Handles msgIdMove old ∧ Starting old
  | .arrived => served old = none ∧ Still b ∧
      ∀ id sw, (id, sw) ≠ (.y, .far) → Checked id sw false old
  | .blocked => served old = none ∧ Still b ∧ Blocked b old
  | .bothHome => served old = none ∧ ∀ id, Ready id old
  | .homed => served old = none ∧ Still b ∧ ∀ id, Zeroed id old

/-- An order that an entry of the history gives. -/
def Entry.Gives (e : Entry) (old : List Entry) (order : Order) (s : TestStand) : Prop :=
  e.before.mode.next order = some s.mode ∧ order.Warranted e.before old

/-! ## One entry -/

/-- Commands are taken in every mode. -/
theorem Mode.next_stop (mode : Mode) : mode.next .stop = some .idle := by
  cases mode <;> rfl

theorem Mode.next_home (mode : Mode) : mode.next .home = some .homingA := by
  cases mode <;> rfl

theorem Mode.next_move (mode : Mode) : mode.next .move = some .moving := by
  cases mode <;> rfl

section Changes

variable {s s' : TestStand} {old : List Entry}

/-- A status is stored for a reason. -/
theorem StatusGrounds.mode {status : Status} (h : StatusGrounds s old status)
    (hs' : s' = { s with status := status }) :
    s'.mode = s.mode ∨ ∃ order, s.mode.next order = some s'.mode ∧ order.Warranted s old := by
  subst hs'
  cases h with
  | connected _ hstatus => exact .inl (TestStand.mode_congr hstatus.symm fun _ => rfl)
  | stays => exact .inl rfl
  | homeB _ hstatus => exact .inl (TestStand.mode_congr hstatus.symm fun _ => rfl)
  | stop hstop hstill => exact .inr ⟨.stop, s.mode.next_stop, hstop, hstill⟩
  | move hmove hstarting => exact .inr ⟨.move, s.mode.next_move, hmove, hstarting⟩
  | home hhome hdone =>
      refine .inr ⟨.home, s.mode.next_home.trans (congrArg some ?_), hhome⟩
      simp [TestStand.mode, hdone]
  | arrived hserved hstatus hstill hchecked =>
      refine .inr ⟨.arrived, ?_, hserved, hstill, hchecked⟩
      simp [TestStand.mode, hstatus, Mode.next]
  | homed hserved hstatus hdone hstill hzeroed =>
      refine .inr ⟨.homed, ?_, hserved, hstill, hzeroed⟩
      simp [TestStand.mode, hstatus, hdone, Mode.next]
  | blocked hserved hstill hblocked =>
      refine .inr ⟨.blocked, ?_, hserved, hstill, hblocked⟩
      rcases hblocked with ⟨hstatus, -⟩ | ⟨hstatus, hdone, -⟩
      · simp [TestStand.mode, hstatus, Mode.next]
      · simp [TestStand.mode, hstatus, hdone, Mode.next]

/-- `home_a_done` is stored for a reason. -/
theorem DoneGrounds.mode {done : Bool} (h : DoneGrounds s old done)
    (hs' : s' = { s with homeADone := done }) :
    s'.mode = s.mode ∨ ∃ order, s.mode.next order = some s'.mode ∧ order.Warranted s old := by
  subst hs'
  by_cases hhoming : s.status = .homing
  · cases h with
    | homed _ hstatus =>
        rw [hstatus] at hhoming
        cases hhoming
    | part _ hpart =>
        cases done with
        | false =>
            refine .inr ⟨.home, s.mode.next_home.trans (congrArg some ?_), hpart⟩
            simp [TestStand.mode, hhoming]
        | true =>
            obtain ⟨hserved, -, hdone, hready⟩ := hpart
            refine .inr ⟨.bothHome, ?_, hserved, hready⟩
            simp [TestStand.mode, hhoming, hdone, Mode.next]
  · exact .inl (TestStand.mode_congr rfl fun h => absurd h hhoming)

/-- What the main program only reads, or does to an axis, is no change of mode. -/
theorem Happens.mode_eq {ev : Happening} (h : Happens s ev s')
    (hstatus : ∀ status r, ev ≠ .acted ⟨.setStatus status, r⟩)
    (hdone : ∀ done r, ev ≠ .acted ⟨.setHomeADone done, r⟩) : s'.mode = s.mode := by
  cases h with
  | round => rfl
  | interrupt id e _ =>
      exact TestStand.mode_congr (TestStand.status_setAxis ..)
        fun _ => TestStand.homeADone_setAxis ..
  | acted a around _ h =>
      have hhappens := Happens.acted a around s' h
      obtain ⟨o, r⟩ := a
      cases o with
      | setStatus status => exact absurd rfl (hstatus status r)
      | setHomeADone done => exact absurd rfl (hdone done r)
      | axisStart raw motion =>
          obtain ⟨id, -, -, rfl⟩ := hhappens.axisStart_eq
          exact TestStand.mode_congr (TestStand.status_setAxis ..)
            fun _ => TestStand.homeADone_setAxis ..
      | axisSetup | axisStop | axisReset =>
          obtain ⟨hsame, hdone⟩ := hhappens.halt trivial
          exact TestStand.mode_congr hsame fun _ => hdone
      | dispatch p =>
          rw [hhappens.dispatch]
      | setCal c =>
          obtain ⟨-, rfl⟩ := Prod.mk.inj (Option.some.inj h)
          rfl
      | _ => rw [hhappens.reads trivial]

end Changes

/-- **What an entry of the history does to the mode.** -/
theorem Recorder.Reached.mode_change {conf : Config} {cal : Calibration} {m : Recorder}
    (hm : Recorder.Reached conf cal m) {new old : List Entry} {e : Entry} {s' : TestStand}
    (hsplit : m.history = new ++ e :: old) (hhappens : Happens e.before e.event s') :
    s'.mode = e.before.mode ∨ ∃ order, e.Gives old order s' := by
  obtain ⟨b, ev⟩ := e
  by_cases hstatus : ∃ status r, ev = .acted ⟨.setStatus status, r⟩
  · obtain ⟨status, r, rfl⟩ := hstatus
    have hgrounds : StatusGrounds b old status := hm.grounded hsplit
    exact hgrounds.mode hhappens.setStatus_eq
  · by_cases hdone : ∃ done r, ev = .acted ⟨.setHomeADone done, r⟩
    · obtain ⟨done, r, rfl⟩ := hdone
      have hgrounds : DoneGrounds b old done := hm.grounded hsplit
      exact hgrounds.mode hhappens.setHomeADone_eq
    · exact .inl (hhappens.mode_eq (fun status r h => hstatus ⟨status, r, h⟩)
        fun done r h => hdone ⟨done, r, h⟩)

/-! ## Runs -/

/-- After `base`, the history leads from `s0` to `s`, and its changes of mode are these
orders, oldest first. -/
inductive Obeys (s0 : TestStand) (base : List Entry) :
    List Entry → TestStand → List Order → Prop
  | nil : Obeys s0 base [] s0 []
  | keeps (e : Entry) (old : List Entry) (s : TestStand) (orders : List Order)
      (h : Obeys s0 base old e.before orders) (hhappens : Happens e.before e.event s)
      (hmode : s.mode = e.before.mode) : Obeys s0 base (e :: old) s orders
  | gives (e : Entry) (old : List Entry) (s : TestStand) (orders : List Order) (order : Order)
      (h : Obeys s0 base old e.before orders) (hhappens : Happens e.before e.event s)
      (hgives : e.Gives (old ++ base) order s) : Obeys s0 base (e :: old) s (orders ++ [order])

section Obeys

variable {conf : Config} {cal : Calibration} {s0 s : TestStand} {base history : List Entry}
  {orders : List Order}

/-- The orders are a run of the machine. -/
theorem Obeys.run (h : Obeys s0 base history s orders) :
    Run.run Mode.next s0.mode orders = some s.mode := by
  induction h with
  | nil => rfl
  | keeps e old s orders _ _ hmode ih => rw [ih, hmode]
  | gives e old s orders order _ _ hgives ih =>
      rw [run_append, ih, Option.bind_some, run_cons, hgives.1]
      rfl

/-- An order was given somewhere in the history. -/
theorem Obeys.given {order : Order} (h : Obeys s0 base history s orders) (ho : order ∈ orders) :
    ∃ new e old s', history = new ++ e :: old ∧ e.Gives (old ++ base) order s' := by
  induction h with
  | nil => cases ho
  | keeps e old s orders _ _ _ ih =>
      obtain ⟨new, e', old', s', rfl, hgives⟩ := ih ho
      exact ⟨e :: new, e', old', s', rfl, hgives⟩
  | gives e old s orders order' _ _ hgives ih =>
      rcases List.mem_append.mp ho with ho | ho
      · obtain ⟨new, e', old', s', rfl, hgives'⟩ := ih ho
        exact ⟨e :: new, e', old', s', rfl, hgives'⟩
      · obtain rfl := List.mem_singleton.mp ho
        exact ⟨[], e, old, s, rfl, hgives⟩

/-- The newer part of a history obeys orders. -/
theorem Recorder.Reached.obeys {m : Recorder} (hm : Recorder.Reached conf cal m)
    (hsplit : m.history = history ++ base) (hleads : Leads s0 history m.controller.stand) :
    ∃ orders, Obeys s0 base history m.controller.stand orders := by
  have hrule : ∀ new mid s, history = new ++ mid → Leads s0 mid s →
      ∃ orders, Obeys s0 base mid s orders := by
    intro new mid
    induction mid generalizing new with
    | nil =>
        rintro s - hs
        obtain rfl : s = s0 := hs
        exact ⟨[], .nil⟩
    | cons e mid ih =>
        intro s hhistory hs
        obtain ⟨orders, hobeys⟩ := ih (new ++ [e]) e.before (by simp [hhistory]) hs.1
        have hentry : m.history = new ++ e :: (mid ++ base) := by simp [hsplit, hhistory]
        rcases hm.mode_change hentry hs.2 with hmode | ⟨order, hgives⟩
        · exact ⟨orders, .keeps _ _ _ _ hobeys hs.2 hmode⟩
        · exact ⟨orders ++ [order], .gives _ _ _ _ order hobeys hs.2 hgives⟩
  exact hrule [] history _ rfl hleads

end Obeys

/-- **The controller is a machine of five modes.**  In every run, with any messages and
any interrupts at any moment: the changes of mode are orders that take the machine from
IDLE to the present mode, and each was warranted when it was given. -/
theorem modes_refine (conf : Config) (cal : Calibration) (events : List ControllerEvent)
    (m : Recorder) (hrun : Run.run Recorder.step (.init conf cal) events = some m) :
    ∃ orders, Obeys (.init cal) [] m.history m.controller.stand orders ∧
      Run.run Mode.next .idle orders = some m.controller.stand.mode := by
  have hm := Recorder.Reached.of_run hrun
  obtain ⟨orders, hobeys⟩ := hm.obeys (List.append_nil _).symm hm.leads
  exact ⟨orders, hobeys, hobeys.run⟩

set_option maxRecDepth 4000 in
/-- A homing routine takes the machine back to IDLE. -/
theorem modes_refine_homing :
    ∃ m, Run.run Recorder.step (.init conf defaultCalibration) homingRun = some m ∧
      ∃ orders, Obeys (.init defaultCalibration) [] m.history m.controller.stand orders ∧
        Run.run Mode.next .idle orders = some .idle :=
  ⟨_, rfl, modes_refine conf defaultCalibration homingRun _ rfl⟩

end MPMTTestStand

end MpmtTestStand.Ports
