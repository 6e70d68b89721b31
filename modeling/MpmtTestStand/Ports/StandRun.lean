import MpmtTestStand.Ports.LimitSwitch
import MpmtTestStand.Ports.StopHandling
import MpmtTestStand.Verified.Rely

/-!
# Runs of the test stand and their history

The controller from the start of `setup` on, with everything that happens to the
test stand written down: the rounds of the main loop, the operations of the main
program and the interrupts.  The newest entry of a history comes first, and each
entry keeps the state that it found.

What an entry does to an axis does not depend on the program (`Happens.axis`).
What the program does in which order is proved with `World.Safe`: `Recorder.safe`
turns a proof about the text of `setup` and of one round into a fact about every
point of every run.
-/

namespace MpmtTestStand.Ports

open MpmtTestStand.Verified
open MpmtTestStand.Verified.Run

namespace MPMTTestStand

/-! ## Histories -/

/-- What can happen to the test stand. -/
inductive Happening
  /-- another round of the main loop begins -/
  | round
  | acted (a : Acted)
  | interrupt (id : AxisId) (e : AxisEvent)

/-- A happening and the state that it finds. -/
structure Entry where
  before : TestStand
  event : Happening

/-- The test stand after a happening. -/
inductive Happens (s : TestStand) : Happening → TestStand → Prop
  | round : Happens s .round s
  | acted (a : Acted) (around : Outside) (s' : TestStand)
      (h : s.perform around a.op = some (a.res, s')) : Happens s (.acted a) s'
  | interrupt (id : AxisId) (e : AxisEvent) (h : e.IsInterrupt) :
      Happens s (.interrupt id e) (s.setAxis id (e.apply (s.axis id)))

/-- The history leads from `s0` to `s`. -/
def Leads (s0 : TestStand) : List Entry → TestStand → Prop
  | [], s => s = s0
  | e :: h, s => Leads s0 h e.before ∧ Happens e.before e.event s

/-- A history splits anywhere. -/
theorem Leads.split {s0 s : TestStand} {new old : List Entry} (h : Leads s0 (new ++ old) s) :
    ∃ s1, Leads s0 old s1 ∧ Leads s1 new s := by
  induction new generalizing s with
  | nil => exact ⟨s, h, rfl⟩
  | cons e new ih =>
      obtain ⟨s1, hold, hnew⟩ := ih h.1
      exact ⟨s1, hold, hnew, h.2⟩

/-- The states before and after an entry. -/
theorem Leads.entry {s0 s : TestStand} {new old : List Entry} {e : Entry}
    (h : Leads s0 (new ++ e :: old) s) :
    ∃ s', Leads s0 old e.before ∧ Happens e.before e.event s' ∧ Leads s' new s := by
  obtain ⟨s', hold, hnew⟩ := h.split
  exact ⟨s', hold.1, hold.2, hnew⟩

theorem Leads.append {s0 s1 s : TestStand} {new old : List Entry} (hold : Leads s0 old s1)
    (hnew : Leads s1 new s) : Leads s0 (new ++ old) s := by
  induction new generalizing s with
  | nil =>
      obtain rfl : s = s1 := hnew
      exact hold
  | cons e new ih => exact ⟨ih hnew.1, hnew.2⟩

/-! ## One axis -/

/-- What a happening other than a setup does to the axis `id`. -/
def Happening.onAxis (id : AxisId) : Happening → Option AxisEvent
  | .acted ⟨.axisStart raw motion, _⟩ => if raw = id.toByte then some (.start motion) else none
  | .acted ⟨.axisStop id', _⟩ => if id' = id then some .stop else none
  | .acted ⟨.axisReset id', _⟩ => if id' = id then some .reset else none
  | .interrupt id' e => if id' = id then some e else none
  | _ => none

/-- The two ways in which an event of the axis `id'` bears on the axis `id`. -/
private theorem setAxis_cases (s : TestStand) (id id' : AxisId) (e : AxisEvent)
    {ev : Happening} (hev : ev.onAxis id = if id' = id then some e else none) :
    (ev.onAxis id = none ∧ (s.setAxis id' (e.apply (s.axis id'))).axis id = s.axis id) ∨
    ∃ e', ev.onAxis id = some e' ∧
      (s.setAxis id' (e.apply (s.axis id'))).axis id = e'.apply (s.axis id) := by
  by_cases hid : id' = id
  · subst hid
    exact .inr ⟨e, by rw [hev, if_pos rfl], TestStand.axis_setAxis ..⟩
  · exact .inl ⟨by rw [hev, if_neg hid], TestStand.axis_setAxis_ne s _ (Ne.symm hid)⟩

/-- **What a happening does to an axis.** -/
theorem Happens.axis {s s' : TestStand} {ev : Happening} (h : Happens s ev s')
    (id : AxisId) :
    (∃ io mech r, ev = .acted ⟨.axisSetup id io mech, r⟩ ∧
      s'.axis id = (s.axis id).setupAxis io mech) ∨
    (ev.onAxis id = none ∧ s'.axis id = s.axis id) ∨
    ∃ e, ev.onAxis id = some e ∧ s'.axis id = e.apply (s.axis id) := by
  cases h with
  | round => exact .inr (.inl ⟨rfl, rfl⟩)
  | interrupt id' e he => exact .inr (setAxis_cases s id id' e rfl)
  | acted a around s' h =>
      obtain ⟨o, r⟩ := a
      cases o with
      | axisSetup id' io mech =>
          simp only [TestStand.perform, Option.some.injEq, Prod.mk.injEq] at h
          obtain ⟨-, rfl⟩ := h
          by_cases hid : id' = id
          · subst hid
            exact .inl ⟨io, mech, r, rfl, TestStand.axis_setAxis ..⟩
          · exact .inr (.inl ⟨rfl, TestStand.axis_setAxis_ne s _ (Ne.symm hid)⟩)
      | axisStart raw motion =>
          rcases hraw : AxisId.ofByte? raw with _ | id'
          · simp [TestStand.perform, hraw] at h
          · simp only [TestStand.perform, hraw, Option.some.injEq, Prod.mk.injEq] at h
            obtain ⟨-, rfl⟩ := h
            obtain rfl := AxisId.ofByte?_eq_some.mp hraw
            refine .inr (setAxis_cases s id id' (.start motion) ?_)
            simp only [Happening.onAxis, AxisId.toByte_inj]
      | axisStop id' =>
          simp only [TestStand.perform, Option.some.injEq, Prod.mk.injEq] at h
          obtain ⟨-, rfl⟩ := h
          exact .inr (setAxis_cases s id id' .stop rfl)
      | axisReset id' =>
          simp only [TestStand.perform, Option.some.injEq, Prod.mk.injEq] at h
          obtain ⟨-, rfl⟩ := h
          exact .inr (setAxis_cases s id id' .reset rfl)
      | _ =>
          simp only [TestStand.perform, Option.some.injEq, Prod.mk.injEq] at h
          obtain ⟨-, rfl⟩ := h
          exact .inr (.inl ⟨rfl, by cases id <;> rfl⟩)

/-- Every axis keeps its invariant. -/
theorem Happens.axisInv {s s' : TestStand} {ev : Happening} (h : Happens s ev s')
    (hs : ∀ id, AxisInv (s.axis id)) (id : AxisId) : AxisInv (s'.axis id) := by
  rcases h.axis id with ⟨io, mech, _, -, heq⟩ | ⟨-, heq⟩ | ⟨e, -, heq⟩
  · rw [heq]
    exact .setupAxis ..
  · rw [heq]
    exact hs id
  · rw [heq]
    exact (hs id).apply e

theorem Leads.axisInv {s0 s : TestStand} {h : List Entry} (hlead : Leads s0 h s)
    (h0 : ∀ id, AxisInv (s0.axis id)) : ∀ id, AxisInv (s.axis id) := by
  induction h generalizing s with
  | nil =>
      obtain rfl : s = s0 := hlead
      exact h0
  | cons e h ih => exact hlead.2.axisInv (ih hlead.1)

/-- Where a property that held is lost for the first time. -/
theorem Leads.first_change {P : TestStand → Prop} {s0 s : TestStand} {mid : List Entry}
    (h : Leads s0 mid s) (h0 : P s0) (hs : ¬P s) :
    ∃ newer e older s', mid = newer ++ e :: older ∧ Leads s0 older e.before ∧
      (∀ x ∈ older, P x.before) ∧ P e.before ∧ Happens e.before e.event s' ∧ ¬P s' ∧
      Leads s' newer s := by
  induction mid using List.reverseRecOn generalizing s0 with
  | nil =>
      obtain rfl : s = s0 := h
      exact absurd h0 hs
  | append_singleton mid e ih =>
      obtain ⟨s1, hfirst, hrest⟩ := h.split
      obtain ⟨hbefore, hhappens⟩ := hfirst
      obtain rfl : e.before = s0 := hbefore
      by_cases h1 : P s1
      · obtain ⟨newer, e', older, s', rfl, hold, hall, hP, hev, hnot, hnew⟩ := ih hrest h1
        refine ⟨newer, e', older ++ [e], s', by simp, Leads.append ⟨rfl, hhappens⟩ hold, ?_, hP,
          hev, hnot, hnew⟩
        intro x hx
        rcases List.mem_append.mp hx with hx | hx
        · exact hall x hx
        · obtain rfl := List.mem_singleton.mp hx
          exact h0
      · exact ⟨mid, e, [], s1, rfl, rfl, by simp, h0, hhappens, h1, hrest⟩

/-! ## How a motion ends -/

/-- The handler of a limit switch recorded whether the switch is pressed. -/
def Entry.Records (id : AxisId) (sw : Switch) (pressed : Bool) (e : Entry) : Prop :=
  ∃ level, e.event = .interrupt id (.isrLs sw level) ∧
    pressed = decide (level = (e.before.axis id).io.lsPressedLevel)

/-- `handle_isr_accel` stopped the axis, in DECELERATE and at the final target. -/
def Entry.Finishes (id : AxisId) (e : Entry) : Prop :=
  e.event = .interrupt id .isrAccel ∧
    (e.before.axis id).state.velocitySegment = .decelerate ∧ (e.before.axis id).atTarget

/-- The program stops the axis, resets it or sets it up. -/
def Happening.Halts : Happening → Prop
  | .acted ⟨.axisSetup _ _ _, _⟩ => True
  | .acted ⟨.axisStop _, _⟩ => True
  | .acted ⟨.axisReset _, _⟩ => True
  | _ => False

/-- The operation of the axis that an event comes from, if it is not an interrupt. -/
theorem Happening.onAxis_program {id : AxisId} {ev : Happening} {e : AxisEvent}
    (h : ev.onAxis id = some e) : ev = .interrupt id e ∨
      (e = .stop ∧ ev.Halts) ∨ (e = .reset ∧ ev.Halts) ∨
      ∃ motion res, e = .start motion ∧ ev = .acted ⟨.axisStart id.toByte motion, res⟩ := by
  cases ev with
  | round => cases h
  | interrupt id' e' =>
      simp only [Happening.onAxis] at h
      split at h
      · obtain rfl := Option.some.inj h
        subst id'
        exact .inl rfl
      · cases h
  | acted a =>
      obtain ⟨o, r⟩ := a
      cases o with
      | axisStart raw motion =>
          simp only [Happening.onAxis] at h
          split at h
          · obtain rfl := Option.some.inj h
            subst raw
            exact .inr (.inr (.inr ⟨motion, r, rfl, rfl⟩))
          · cases h
      | axisStop id' =>
          simp only [Happening.onAxis] at h
          split at h
          · exact .inr (.inl ⟨(Option.some.inj h).symm, trivial⟩)
          · cases h
      | axisReset id' =>
          simp only [Happening.onAxis] at h
          split at h
          · exact .inr (.inr (.inl ⟨(Option.some.inj h).symm, trivial⟩))
          · cases h
      | _ => cases h

/-- A moving axis refuses every start. -/
theorem Axis.startAxis_moving {axis : Axis} (motion : AxisMotionSpec)
    (h : axis.state.moving = true) : (axis.startAxis motion).2 = axis := by
  rcases axis.startAxis_cases motion with ⟨_, hvalid, -, -⟩ | ⟨-, hsame⟩
  · rw [(Axis.validateMotion_ok hvalid).1] at h
    cases h
  · exact hsame

/-- **What ends a motion.** -/
theorem Entry.ends {e : Entry} {s' : TestStand} (h : Happens e.before e.event s') {id : AxisId}
    (hmoving : (e.before.axis id).state.moving = true)
    (hstill : (s'.axis id).state.moving = false) :
    e.Finishes id ∨ (∃ sw pressed, e.Records id sw pressed) ∨ e.event.Halts := by
  rcases h.axis id with ⟨io, mech, r, hev, -⟩ | ⟨-, heq⟩ | ⟨ae, hon, heq⟩
  · rw [hev]
    exact .inr (.inr trivial)
  · rw [heq, hmoving] at hstill
    cases hstill
  · rw [heq] at hstill
    rcases Happening.onAxis_program hon with hev | ⟨-, hhalts⟩ | ⟨-, hhalts⟩ | ⟨motion, _, rfl, -⟩
    · have hinterrupt : ae.IsInterrupt := by
        rw [hev] at h
        cases h
        assumption
      cases ae with
      | isrLsHome level => exact .inr (.inl ⟨.home, _, level, hev, rfl⟩)
      | isrLsFar level => exact .inr (.inl ⟨.far, _, level, hev, rfl⟩)
      | isrAccel =>
          generalize hafter : (e.before.axis id).handleIsrAccel = after
          have heffect := (e.before.axis id).handleIsrAccel_effect
          rw [hafter] at heffect
          simp only [AxisEvent.apply, hafter] at hstill
          cases heffect with
          | finish _ hseg htarget => exact .inl ⟨hev, hseg, htarget⟩
          | idle | faster | slower | enterHold | enterDecelerate =>
              exact absurd hmoving (by simpa [Axis.nextSegment] using hstill)
      | isrEncoder =>
          simp only [AxisEvent.apply, Axis.handleIsrEncoder] at hstill
          split_ifs at hstill <;> simp [hmoving] at hstill
      | isrStep =>
          simp only [AxisEvent.apply, Axis.handleIsrStep] at hstill
          split_ifs at hstill <;> simp [hmoving] at hstill
      | start | stop | reset => exact hinterrupt.elim
    · exact .inr (.inr hhalts)
    · exact .inr (.inr hhalts)
    · rw [AxisEvent.apply, Axis.startAxis_moving motion hmoving, hmoving] at hstill
      cases hstill

/-- Only its handler changes the flag of a switch. -/
theorem Happens.flag {s s' : TestStand} {ev : Happening} (h : Happens s ev s') {id : AxisId}
    {sw : Switch} (hchange : (s'.axis id).state.lsPressed sw ≠ (s.axis id).state.lsPressed sw) :
    Entry.Records id sw ((s'.axis id).state.lsPressed sw) ⟨s, ev⟩ := by
  rcases h.axis id with ⟨io, mech, r, -, heq⟩ | ⟨-, heq⟩ | ⟨ae, hon, heq⟩
  · rw [heq] at hchange
    exact absurd (by cases sw <;> rfl) hchange
  · rw [heq] at hchange
    exact absurd rfl hchange
  · cases hls : ae.isLimitSwitch with
    | false =>
        have hsame := AxisEvent.apply_sameSwitches (s.axis id) ae hls
        rw [heq] at hchange
        cases sw with
        | home => exact absurd hsame.home hchange
        | far => exact absurd hsame.far hchange
    | true =>
        have hev : ev = .interrupt id ae := by
          rcases Happening.onAxis_program hon with hev | ⟨rfl, -⟩ | ⟨rfl, -⟩ | ⟨_, _, rfl, -⟩
          · exact hev
          all_goals cases hls
        rw [heq] at hchange ⊢
        cases ae with
        | isrLsHome level =>
            cases sw with
            | home => exact ⟨level, hev, rfl⟩
            | far => exact absurd rfl hchange
        | isrLsFar level =>
            cases sw with
            | home => exact absurd rfl hchange
            | far => exact ⟨level, hev, rfl⟩
        | _ => cases hls

/-- What a handler records is what the flag says afterwards. -/
theorem Entry.Records.flag {e : Entry} {s' : TestStand} {id : AxisId} {sw : Switch}
    {pressed : Bool} (h : e.Records id sw pressed) (hhappens : Happens e.before e.event s') :
    (s'.axis id).state.lsPressed sw = pressed := by
  obtain ⟨level, hev, rfl⟩ := h
  rw [hev] at hhappens
  cases hhappens
  rw [TestStand.axis_setAxis]
  cases sw <;> rfl

/-- A flag that has changed was recorded. -/
theorem Leads.recorded {s0 s : TestStand} {mid : List Entry} (h : Leads s0 mid s) {id : AxisId}
    {sw : Switch} {pressed : Bool} (h0 : (s0.axis id).state.lsPressed sw = !pressed)
    (hs : (s.axis id).state.lsPressed sw = pressed) : ∃ e ∈ mid, e.Records id sw pressed := by
  obtain ⟨newer, e, older, s', rfl, -, -, hP, hhappens, hnot, -⟩ :=
    h.first_change (P := fun s => (s.axis id).state.lsPressed sw = !pressed) h0 (by simp [hs])
  have hnow : (s'.axis id).state.lsPressed sw = pressed := by simpa using hnot
  have hchange : (s'.axis id).state.lsPressed sw ≠ (e.before.axis id).state.lsPressed sw := by
    rw [hP, hnow]
    simp
  have hrecords := hhappens.flag hchange
  rw [hnow] at hrecords
  exact ⟨e, by simp, hrecords⟩

/-- The switch was last recorded as released. -/
def LastReleased (id : AxisId) (sw : Switch) : List Entry → Prop
  | [] => False
  | e :: history =>
      e.Records id sw false ∨ (¬e.Records id sw true ∧ LastReleased id sw history)

theorem LastReleased.flag {s0 s : TestStand} {mid : List Entry} {id : AxisId} {sw : Switch}
    (h : LastReleased id sw mid) (hleads : Leads s0 mid s) :
    (s.axis id).state.lsPressed sw = false := by
  induction mid generalizing s with
  | nil => exact h.elim
  | cons e mid ih =>
      rcases h with hreleased | ⟨hpressed, h⟩
      · exact hreleased.flag hleads.2
      · have hbefore := ih h hleads.1
        by_contra hflag
        have hchange : (s.axis id).state.lsPressed sw ≠
            (e.before.axis id).state.lsPressed sw := by
          rw [hbefore]
          exact hflag
        have hnow : (s.axis id).state.lsPressed sw = true := by simpa using hflag
        have hrecords := hleads.2.flag hchange
        rw [hnow] at hrecords
        exact hpressed hrecords

/-- How a motion that was under way has ended. -/
theorem Leads.ended {s0 s : TestStand} {mid : List Entry} (h : Leads s0 mid s) {id : AxisId}
    (h0 : (s0.axis id).state.moving = true) (hs : (s.axis id).state.moving = false) :
    ∃ newer e older s', mid = newer ++ e :: older ∧ Leads s0 older e.before ∧
      (∀ x ∈ older, (x.before.axis id).state.moving = true) ∧
      (e.before.axis id).state.moving = true ∧ Happens e.before e.event s' ∧
      Leads s' newer s ∧
      (e.Finishes id ∨ (∃ sw pressed, e.Records id sw pressed) ∨ e.event.Halts) := by
  obtain ⟨newer, e, older, s', hmid, hold, hall, hP, hhappens, hnot, hnew⟩ :=
    h.first_change (P := fun s => (s.axis id).state.moving = true) h0 (by simp [hs])
  exact ⟨newer, e, older, s', hmid, hold, hall, hP, hhappens, hnew,
    Entry.ends hhappens hP (by simpa using hnot)⟩

/-! ## The controller with its history -/

/-- The controller and what has happened to the test stand. -/
structure Recorder where
  controller : Controller
  history : List Entry

namespace Recorder

/-- The controller, as constructed, at the start of `setup`. -/
def init (conf : Config) (cal : Calibration) : Recorder where
  controller := ⟨Node.resume .fresh (setup conf), .init cal⟩
  history := []

/-- The controller goes on, and `ev` happens to the test stand. -/
def happen (m : Recorder) (ev : Happening) (c : Controller) : Recorder :=
  ⟨c, ⟨m.controller.stand, ev⟩ :: m.history⟩

def step (m : Recorder) : ControllerEvent → Option Recorder
  | .signal s =>
      (m.controller.node.signal s).map fun r =>
        ⟨{ m.controller with node := r.1 }, m.history⟩
  | .act around => (m.controller.act around).map fun r => m.happen (.acted r.2) r.1
  | .loop => m.controller.loop.map (m.happen .round)
  | .interrupt id e => (m.controller.interrupt id e).map (m.happen (.interrupt id e))

end Recorder

namespace Recorder

variable {conf : Config} {cal : Calibration} {events : List ControllerEvent} {m m' : Recorder}

/-- What a step adds to the history. -/
theorem step_history {e : ControllerEvent} (hstep : m.step e = some m') :
    (m'.history = m.history ∧ m'.controller.stand = m.controller.stand) ∨
    ∃ ev, m'.history = ⟨m.controller.stand, ev⟩ :: m.history ∧
      Happens m.controller.stand ev m'.controller.stand := by
  obtain ⟨⟨⟨rx, prog⟩, stand⟩, history⟩ := m
  cases e with
  | signal sig =>
      obtain ⟨r, hs, rfl⟩ := Option.map_eq_some_iff.mp hstep
      exact .inl ⟨rfl, rfl⟩
  | act around =>
      obtain ⟨⟨c, a⟩, hs, rfl⟩ := Option.map_eq_some_iff.mp hstep
      refine .inr ⟨.acted a, rfl, ?_⟩
      cases prog with
      | ret phase => cases hs
      | op o k =>
          cases o with
          | act o =>
              rcases hres : stand.perform around o with _ | ⟨r, stand'⟩
              · simp [Controller.act, hres] at hs
              · simp only [Controller.act, hres, Option.some.injEq, Prod.mk.injEq] at hs
                obtain ⟨rfl, rfl⟩ := hs
                exact .acted ⟨o, r⟩ around stand' hres
          | _ => cases hs
  | loop =>
      obtain ⟨c, hs, rfl⟩ := Option.map_eq_some_iff.mp hstep
      refine .inr ⟨.round, rfl, ?_⟩
      cases prog with
      | op o k => cases hs
      | ret phase =>
          simp only [Controller.loop, Option.some.injEq] at hs
          subst hs
          exact .round
  | interrupt id e =>
      obtain ⟨c, hs, rfl⟩ := Option.map_eq_some_iff.mp hstep
      refine .inr ⟨.interrupt id e, rfl, ?_⟩
      unfold Controller.interrupt at hs
      split at hs
      · obtain rfl := Option.some.inj hs
        exact .interrupt id e ‹_›
      · cases hs

/-- The history leads from the constructor to the present state. -/
theorem leads
    (hrun : run step (init conf cal) events = some m) :
    Leads (.init cal) m.history m.controller.stand := by
  have hstep : ∀ m e m', True → step m e = some m' →
      Leads (.init cal) m.history m.controller.stand →
      Leads (.init cal) m'.history m'.controller.stand := by
    intro m e m' _ hstep h
    rcases step_history hstep with ⟨hhistory, hstand⟩ | ⟨ev, hhistory, hhappens⟩
    · rwa [hhistory, hstand]
    · rw [hhistory]
      exact ⟨h, hhappens⟩
  exact run_invariant step (fun _ => True) hstep (fun _ _ => trivial) hrun rfl

/-- Every part of the history was once the whole. -/
theorem earlier
    (hrun : run step (init conf cal) events = some m) {new old : List Entry}
    (hsplit : m.history = new ++ old) :
    ∃ earlier m1, run step (init conf cal) earlier = some m1 ∧ m1.history = old ∧
      Leads m1.controller.stand new m.controller.stand := by
  induction events using List.reverseRecOn generalizing m new with
  | nil =>
      obtain rfl : init conf cal = m := by simpa using hrun
      obtain ⟨rfl, rfl⟩ := List.nil_eq_append_iff.mp hsplit
      exact ⟨[], _, rfl, rfl, rfl⟩
  | append_singleton events e ih =>
      rw [run_append] at hrun
      obtain ⟨m0, hbefore, hlast⟩ := Option.bind_eq_some_iff.mp hrun
      obtain ⟨m1, hstep, hend⟩ := run_cons_some _ hlast
      obtain rfl : m1 = m := by simpa using hend
      rcases step_history hstep with ⟨hhistory, hstand⟩ | ⟨ev, hhistory, hhappens⟩
      · rw [hhistory] at hsplit
        obtain ⟨earlier, m2, hm2, hold, hlead⟩ := ih hbefore hsplit
        exact ⟨earlier, m2, hm2, hold, hstand ▸ hlead⟩
      · rw [hhistory] at hsplit
        cases new with
        | nil =>
            refine ⟨events ++ [e], m1, ?_, hhistory.trans hsplit, rfl⟩
            rw [run_append, hbefore]
            exact hlast
        | cons x new =>
            obtain ⟨rfl, hrest⟩ := List.cons.inj hsplit
            obtain ⟨earlier, m2, hm2, hold, hlead⟩ := ih hbefore hrest
            exact ⟨earlier, m2, hm2, hold, hlead, hhappens⟩

end Recorder

/-! ## Proofs about the program -/

/-- What a program of the controller can see, and the history that led there. -/
structure Record (cal : Calibration) where
  rx : Receiver
  stand : TestStand
  history : List Entry
  leads : Leads (.init cal) history stand

namespace Record

variable {cal : Calibration}

/-- Something happens. -/
def happen (s : Record cal) {ev : Happening} {stand : TestStand}
    (h : Happens s.stand ev stand) : Record cal where
  rx := s.rx
  stand := stand
  history := ⟨s.stand, ev⟩ :: s.history
  leads := ⟨s.leads, h⟩

/-- What an operation does. -/
def Does (s : Record cal) : (o : LinkOp standSig) → o.Res → Record cal → Prop
  | .look, r, s' => r = s.rx ∧ s' = s
  | .act o, r, s' => ∃ stand, ∃ h : Happens s.stand (.acted ⟨o, r⟩) stand, s' = s.happen h
  | .serWrite _, _, s' => ∃ rx, s' = { s with rx := rx }
  | .checkForMessage, _, s' => ∃ rx, s' = { s with rx := rx }
  | .recvMessage _, _, s' => ∃ rx, s' = { s with rx := rx }

/-- An interrupt. -/
def Disturbs (s s' : Record cal) : Prop :=
  ∃ id, ∃ e : AxisEvent, ∃ he : e.IsInterrupt, s' = s.happen (.interrupt id e he)

theorem axisInv (s : Record cal) : ∀ id, AxisInv (s.stand.axis id) := by
  refine s.leads.axisInv fun id => ?_
  cases id <;> exact .of_stopped rfl rfl rfl ⟨rfl, rfl⟩ ⟨rfl, rfl⟩

end Record

/-- The main program among the interrupts. -/
def standWorld (cal : Calibration) : World (linkSig standSig) (Record cal) :=
  ⟨Record.Does, Record.Disturbs⟩

section Safe

variable {cal : Calibration} {I : TestStand → List Entry → Prop} {α : Type}
  {post : α → Record cal → Prop} {s s' : Record cal}

/-- `I` holds until `p` returns, and then `post`. -/
abbrev SafeProg (I : TestStand → List Entry → Prop) (post : α → Record cal → Prop)
    (p : StandProg α) (s : Record cal) : Prop :=
  (standWorld cal).Safe (fun s => I s.stand s.history) post p s

/-- Interrupts do not depend on the receiver. -/
theorem Record.rely_rx (rx : Receiver) (h : (standWorld cal).Rely { s with rx := rx } s') :
    ∃ t, (standWorld cal).Rely s t ∧ s' = { t with rx := rx } := by
  induction h with
  | refl => exact ⟨s, .refl, rfl⟩
  | tail _ hstep ih =>
      obtain ⟨t, ht, rfl⟩ := ih
      obtain ⟨id, e, he, rfl⟩ := hstep
      exact ⟨t.happen (.interrupt id e he), ht.tail ⟨id, e, he, rfl⟩, rfl⟩

/-- An operation that waits may find the receiver changed. -/
theorem SafeProg.rx {o : LinkOp standSig} {k : o.Res → StandProg α}
    (h : SafeProg I post (.op o k) s)
    (ho : ∀ (t t' : Record cal) r rx, Record.Does { t with rx := rx } o r t' →
      Record.Does t o r t')
    (rx : Receiver) : SafeProg I post (.op o k) { s with rx := rx } := by
  intro s' hs
  obtain ⟨t, ht, rfl⟩ := Record.rely_rx rx hs
  obtain ⟨hinv, hnext⟩ := h t ht
  exact ⟨hinv, fun r s'' hr => hnext r s'' (ho t s'' r rx hr)⟩

theorem SafeProg.resume {p : StandProg α} (h : SafeProg I post p s) :
    SafeProg I post (Node.resume s.rx p).prog s := by
  refine h.settle fun o r hr => ?_
  cases o with
  | look => exact ⟨(Option.some.inj hr).symm, rfl⟩
  | _ => cases hr

/-- A signal keeps the program safe. -/
theorem SafeProg.signal {n n' : Node standSig α} {sig : Signal} {out : List UInt8}
    (h : SafeProg I post n.prog s) (hrx : s.rx = n.rx) (hs : n.signal sig = some (n', out)) :
    SafeProg I post n'.prog { s with rx := n'.rx } := by
  obtain ⟨rx, prog⟩ := n
  obtain rfl : s.rx = rx := hrx
  -- the operation is over, and the program goes on
  have hresume : ∀ {o : LinkOp standSig} {k : o.Res → StandProg α} (r : o.Res) (rx : Receiver),
      prog = .op o k → Record.Does s o r { s with rx := rx } →
        SafeProg I post (Node.resume rx (k r)).prog { s with rx := rx } := by
    rintro o k r rx rfl hdoes
    exact SafeProg.resume (h.does hdoes)
  cases prog with
  | ret a => cases sig <;> cases hs
  | op o k =>
      cases o with
      | look => cases sig <;> cases hs
      | act o => cases sig <;> cases hs
      | serWrite data =>
          cases sig with
          | wrote =>
              obtain ⟨rfl, -⟩ := Prod.mk.inj (Option.some.inj hs)
              exact hresume true s.rx rfl ⟨_, rfl⟩
          | writeFailed j =>
              obtain ⟨rfl, -⟩ := Prod.mk.inj (Option.some.inj hs)
              exact hresume false s.rx rfl ⟨_, rfl⟩
          | _ => cases hs
      | checkForMessage =>
          cases sig with
          | byte b =>
              obtain ⟨rfl, -⟩ := Prod.mk.inj (Option.some.inj hs)
              unfold Node.hear
              split
              · exact hresume true _ rfl ⟨_, rfl⟩
              · exact h.rx (fun _ _ _ _ hdoes => hdoes) _
          | quiet =>
              obtain ⟨rfl, -⟩ := Prod.mk.inj (Option.some.inj hs)
              exact hresume false s.rx rfl ⟨_, rfl⟩
          | _ => cases hs
      | recvMessage t =>
          cases sig with
          | byte b =>
              obtain ⟨rfl, -⟩ := Prod.mk.inj (Option.some.inj hs)
              unfold Node.hear
              split
              · exact hresume true _ rfl ⟨_, rfl⟩
              · exact h.rx (fun _ _ _ _ hdoes => hdoes) _
          | timeout =>
              obtain ⟨rfl, -⟩ := Prod.mk.inj (Option.some.inj hs)
              exact hresume false _ rfl ⟨_, rfl⟩
          | _ => cases hs

end Safe

namespace Recorder

variable {conf : Config} {cal : Calibration} {events : List ControllerEvent}
  {I : TestStand → List Entry → Prop} {post : Phase → Record cal → Prop} {m m' : Recorder}

/-- The program of the recorder is safe. -/
def IsSafe (I : TestStand → List Entry → Prop) (post : Phase → Record cal → Prop)
    (m : Recorder) : Prop :=
  ∃ h : Leads (.init cal) m.history m.controller.stand,
    SafeProg I post m.controller.node.prog ⟨m.controller.node.rx, _, _, h⟩

/-- A step keeps the program safe, if every round is. -/
theorem IsSafe.step {e : ControllerEvent}
    (hround : ∀ phase s, post phase s →
      SafeProg I post phase.prog (s.happen .round))
    (hstep : m.step e = some m') (h : m.IsSafe I post) : m'.IsSafe I post := by
  obtain ⟨⟨⟨rx, prog⟩, stand⟩, history⟩ := m
  obtain ⟨hleads, h⟩ := h
  cases e with
  | signal sig =>
      obtain ⟨⟨n', out⟩, hs, rfl⟩ := Option.map_eq_some_iff.mp hstep
      exact ⟨hleads, h.signal rfl hs⟩
  | act around =>
      obtain ⟨⟨c, a⟩, hs, rfl⟩ := Option.map_eq_some_iff.mp hstep
      cases prog with
      | ret phase => cases hs
      | op o k =>
          cases o with
          | act o =>
              rcases hres : stand.perform around o with _ | ⟨r, stand'⟩
              · simp [Controller.act, hres] at hs
              · simp only [Controller.act, hres, Option.some.injEq, Prod.mk.injEq] at hs
                obtain ⟨rfl, rfl⟩ := hs
                have hhappens : Happens stand (.acted ⟨o, r⟩) stand' :=
                  .acted ⟨o, r⟩ around stand' hres
                exact ⟨⟨hleads, hhappens⟩, SafeProg.resume (h.does ⟨stand', hhappens, rfl⟩)⟩
          | _ => cases hs
  | loop =>
      obtain ⟨c, hs, rfl⟩ := Option.map_eq_some_iff.mp hstep
      cases prog with
      | op o k => cases hs
      | ret phase =>
          simp only [Controller.loop, Option.some.injEq] at hs
          subst hs
          exact ⟨⟨hleads, .round⟩, SafeProg.resume (hround phase _ h.returns)⟩
  | interrupt id e =>
      obtain ⟨c, hs, rfl⟩ := Option.map_eq_some_iff.mp hstep
      unfold Controller.interrupt at hs
      split at hs
      · obtain rfl := Option.some.inj hs
        exact ⟨⟨hleads, .interrupt id e ‹_›⟩, h.disturb ⟨id, e, ‹_›, rfl⟩⟩
      · cases hs

/-- The controller as constructed. -/
def start (cal : Calibration) : Record cal := ⟨.fresh, .init cal, [], rfl⟩

/-- **Rounds that are safe make runs that are safe.** -/
theorem safe (hsetup : SafeProg I post (setup conf) (start cal))
    (hround : ∀ phase s, post phase s → SafeProg I post phase.prog (s.happen .round))
    (hrun : run step (init conf cal) events = some m) : m.IsSafe I post :=
  run_invariant Recorder.step (fun _ => True) (fun _ _ _ _ hstep h => h.step hround hstep)
    (fun _ _ => trivial) hrun ⟨rfl, SafeProg.resume hsetup⟩

end Recorder

end MPMTTestStand

end MpmtTestStand.Ports
