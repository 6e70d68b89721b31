import MpmtTestStand.Ports.Ledger
import MpmtTestStand.Ports.Modes

/-!
# The controller in the whole system

Whatever the host does, and however the lossless channels delay the bytes, what the
controller does is a run of the controller alone: `Recounts` relates a state of the whole
system to the recorder that has performed the same operations, and `recounts_simulates`
shows that it is a simulation.  So what holds of the states that the controller reaches holds in the
whole system, and the log tells which message is being served (`Recounts.served`).

A session begins with the controller between two rounds, after anything that has
happened to it before (`Standing`).

## Main results

* `link_refines` — a run of host and controller is, for the controller, a run of its own.
-/

namespace MpmtTestStand.Ports

open MpmtTestStand.Verified
open MpmtTestStand.Verified.Run
open MPMTTestStand

/-! ## Operations of a history -/

/-- The message that an operation dispatches. -/
def Acted.dispatch? (a : Acted) : Option Packet :=
  match a.op with
  | .dispatch p => some p
  | _ => none

/-- The messages that the operations in a log dispatch. -/
theorem dispatches_fst (log : List Obs) :
    ((performed log).map Prod.fst).filterMap Acted.dispatch? = (dispatches log).map Prod.fst := by
  unfold performed dispatches
  rw [List.map_filterMap, List.filterMap_filterMap, List.map_filterMap]
  refine List.filterMap_congr fun o _ => ?_
  cases o with
  | begun | returned => rfl
  | acted a got =>
      obtain ⟨op, res⟩ := a
      cases op <;> rfl

namespace MPMTTestStand

/-- The operation of an entry. -/
def Entry.acted? (e : Entry) : Option Acted :=
  match e.event with
  | .acted a => some a
  | _ => none

/-- The operations of a history, newest first. -/
def actedOps (history : List Entry) : List Acted := history.filterMap Entry.acted?

theorem actedOps_append (new old : List Entry) :
    actedOps (new ++ old) = actedOps new ++ actedOps old :=
  List.filterMap_append

/-- The message that is served is the one dispatched last. -/
theorem served_dispatched {history : List Entry} {p : Packet} (h : served history = some p) :
    ((actedOps history).filterMap Acted.dispatch?).head? = some p := by
  induction history with
  | nil => cases h
  | cons e history ih =>
      obtain ⟨b, ev⟩ := e
      cases ev with
      | round => cases h
      | interrupt id e => exact ih h
      | acted a =>
          obtain ⟨o, r⟩ := a
          cases o with
          | dispatch q =>
              obtain rfl : q = p := Option.some.inj h
              rfl
          | _ => exact ih h

/-- The message that is served has been dispatched since the round began. -/
theorem served_since {new old : List Entry} {p : Packet} (h : served (new ++ old) = some p)
    (hround : ∃ e ∈ new, e.event = .round) :
    ((actedOps new).filterMap Acted.dispatch?).head? = some p := by
  induction new with
  | nil =>
      obtain ⟨e, he, -⟩ := hround
      cases he
  | cons e new ih =>
      obtain ⟨b, ev⟩ := e
      have hlater : ev ≠ .round → ∃ e ∈ new, e.event = .round := by
        intro hev
        obtain ⟨e, he, hround⟩ := hround
        rcases List.mem_cons.mp he with rfl | he
        · exact absurd hround hev
        · exact ⟨e, he, hround⟩
      cases ev with
      | round => cases h
      | interrupt id e => exact ih h (hlater (by simp))
      | acted a =>
          obtain ⟨o, r⟩ := a
          cases o with
          | dispatch q =>
              obtain rfl : q = p := Option.some.inj h
              rfl
          | _ => exact ih h (hlater (by simp))

/-- Since `m0` a round has begun, or the program is still between two rounds. -/
def IdleOrRound (m0 m : Recorder) : Prop :=
  ∃ new, m.history = new ++ m0.history ∧
    ((∃ phase, m.controller.node.prog = .ret phase) ∨ ∃ e ∈ new, e.event = .round)

/-- After a moment between two rounds, the program goes on with a round only. -/
theorem Recorder.round_since {m0 m : Recorder} {phase : Phase} {events : List ControllerEvent}
    (hprog : m0.controller.node.prog = .ret phase)
    (hrun : Run.run Recorder.step m0 events = some m)
    (hbusy : ∀ phase, m.controller.node.prog ≠ .ret phase) :
    ∃ new, m.history = new ++ m0.history ∧ ∃ e ∈ new, e.event = .round := by
  have hstep : ∀ m e m', True → Recorder.step m e = some m' →
      IdleOrRound m0 m → IdleOrRound m0 m' := by
    rintro m e m' - hstep ⟨new, hnew, hsince⟩
    rcases hsince with ⟨phase, hphase⟩ | ⟨x, hx, hround⟩
    · obtain ⟨⟨⟨rx, prog⟩, stand⟩, history⟩ := m
      obtain rfl : prog = .ret phase := hphase
      cases e with
      | signal s => simp [Recorder.step, Node.signal] at hstep
      | act around => simp [Recorder.step, Controller.act] at hstep
      | loop =>
          simp only [Recorder.step, Option.map_eq_some_iff] at hstep
          obtain ⟨c, -, rfl⟩ := hstep
          exact ⟨_ :: new, congrArg (List.cons _) hnew, .inr ⟨_, List.mem_cons_self .., rfl⟩⟩
      | interrupt id e =>
          simp only [Recorder.step, Option.map_eq_some_iff] at hstep
          obtain ⟨c, hc, rfl⟩ := hstep
          refine ⟨_ :: new, congrArg (List.cons _) hnew, .inl ⟨phase, ?_⟩⟩
          unfold Controller.interrupt at hc
          split at hc
          · obtain rfl := Option.some.inj hc
            rfl
          · cases hc
    · rcases Recorder.step_history hstep with ⟨hsame, -⟩ | ⟨ev, hcons, -⟩
      · exact ⟨new, hsame.trans hnew, .inr ⟨x, hx, hround⟩⟩
      · exact ⟨_ :: new, hcons.trans (congrArg (List.cons _) hnew),
          .inr ⟨x, List.mem_cons_of_mem _ hx, hround⟩⟩
  obtain ⟨new, hnew, hsince⟩ := run_invariant Recorder.step (fun _ => True) hstep
    (fun _ _ => trivial) hrun ⟨[], rfl, .inl ⟨phase, hprog⟩⟩
  refine ⟨new, hnew, hsince.resolve_left ?_⟩
  rintro ⟨phase, h⟩
  exact hbusy phase h

/-- Right after a dispatch nothing has been started. -/
theorem not_starting {history : List Entry} {a : Acted}
    (h : (actedOps history).head? = some a) {p : Packet} (ha : a.dispatch? = some p) :
    ¬Starting history := by
  induction history with
  | nil => exact id
  | cons e history ih =>
      obtain ⟨b, ev⟩ := e
      cases ev with
      | round => exact id
      | interrupt id e => exact ih h
      | acted a' =>
          obtain rfl : a' = a := Option.some.inj h
          obtain ⟨o, r⟩ := a'
          cases o with
          | axisStart | setHomeADone => cases ha
          | _ => exact id

/-- The start that a handler has made, in the same round and without a change of
status. -/
theorem Starting.start {s0 s : TestStand} {history : List Entry} (h : Starting history)
    (hleads : Leads s0 history s) :
    ∃ new b raw motion old, history = new ++ ⟨b, .acted ⟨.axisStart raw motion, .ok⟩⟩ :: old ∧
      served history = served old ∧ s.status = b.status := by
  induction history generalizing s with
  | nil => exact h.elim
  | cons e history ih =>
      obtain ⟨b, ev⟩ := e
      obtain ⟨hold, hhappens⟩ := hleads
      have hearlier : Starting history → s.status = b.status →
          served (⟨b, ev⟩ :: history) = served history →
          ∃ new b' raw motion old,
            ⟨b, ev⟩ :: history = new ++ ⟨b', .acted ⟨.axisStart raw motion, .ok⟩⟩ :: old ∧
              served (⟨b, ev⟩ :: history) = served old ∧ s.status = b'.status := by
        intro hstarting hstatus hserved
        obtain ⟨new, b', raw, motion, old, rfl, hserved', hstatus'⟩ := ih hstarting hold
        exact ⟨⟨b, ev⟩ :: new, b', raw, motion, old, rfl, hserved.trans hserved',
          hstatus.trans hstatus'⟩
      cases ev with
      | round => exact h.elim
      | interrupt id e =>
          refine hearlier h ?_ rfl
          cases hhappens
          exact TestStand.status_setAxis ..
      | acted a =>
          obtain ⟨o, r⟩ := a
          cases o with
          | setHomeADone done =>
              refine hearlier h ?_ rfl
              rw [show s = _ from hhappens.setHomeADone_eq]
          | axisStart raw motion =>
              have hstatus : s.status = b.status := by
                obtain ⟨id, -, -, rfl⟩ := hhappens.axisStart_eq
                exact TestStand.status_setAxis ..
              rcases h with hok | h
              · obtain rfl : r = .ok := hok
                exact ⟨[], b, raw, motion, history, rfl, rfl, hstatus⟩
              · exact hearlier h hstatus rfl
          | _ => exact h.elim

end MPMTTestStand

/-! ## The simulation -/

/-- The recorder has the controller of the whole system, and has performed the operations
in the log on top of `base`. -/
structure Recounts (base : List Acted) (l : HostLink) (m : Recorder) : Prop where
  controller : m.controller = l.controller
  acted : actedOps m.history = ((performed l.log).map Prod.fst).reverse ++ base

section Recounts

variable {base : List Acted} {l l' : HostLink} {m : Recorder}

/-- The controller stays as it is. -/
theorem Recounts.stutter (h : Recounts base l m) (hcontroller : l'.controller = l.controller)
    (hlog : performed l'.log = performed l.log) : Recounts base l' m where
  controller := h.controller.trans hcontroller.symm
  acted := by
    rw [hlog]
    exact h.acted

/-- Something happens that is no operation. -/
theorem Recounts.happens {ev : Happening} {c : Controller} (h : Recounts base l m)
    (hev : ∀ a, ev ≠ .acted a) (hcontroller : c = l'.controller)
    (hlog : performed l'.log = performed l.log) : Recounts base l' (m.happen ev c) where
  controller := hcontroller
  acted := by
    have hnone : Entry.acted? ⟨m.controller.stand, ev⟩ = none := by
      cases ev with
      | acted a => exact absurd rfl (hev a)
      | _ => rfl
    rw [hlog, ← h.acted]
    exact List.filterMap_cons_none hnone

/-- What an event of the whole system is for the test stand. -/
inductive LinkEvent.Causes : LinkEvent → Happening → Prop
  | act (around : Outside) (a : Acted) : Causes (.act around) (.acted a)
  | loop : Causes .loop .round
  | interrupt (id : AxisId) (e : AxisEvent) : Causes (.interrupt id e) (.interrupt id e)

/-- **A step of the whole system**: the controller does not act, or takes one step. -/
theorem Recounts.step {e : LinkEvent} (h : Recounts base l m) (hstep : l.step e = some l') :
    (Recounts base l' m ∧ l'.controller = l.controller) ∨
    ∃ ce m', m.step ce = some m' ∧ Recounts base l' m' ∧
      ((m'.history = m.history ∧ m'.controller.stand = m.controller.stand) ∨
        ∃ ev, e.Causes ev ∧ m'.history = ⟨m.controller.stand, ev⟩ :: m.history) := by
  cases HostLink.step_cases hstep with
  | call c res hret =>
      refine .inl ⟨h.stutter rfl ?_, rfl⟩
      rw [performed_append]
      show performed l.log ++ performed (Node.results _ c) = _
      rw [performed_results, List.append_nil]
  | host e host out heard hparty =>
      refine .inl ⟨h.stutter rfl ?_, rfl⟩
      rw [performed_append, performed_results, List.append_nil]
  | controller e party inbox heard hparty =>
      obtain ⟨s, node, data, hsignal, hnode⟩ : ∃ s node data,
          l.controller.node.signal s = some (node, data) ∧ party.node = node := by
        cases Party.step_cases hparty with
        | wrote node data hsignal => exact ⟨_, node, data, hsignal, rfl⟩
        | deliver _ _ node data _ hsignal => exact ⟨_, node, data, hsignal, rfl⟩
        | quiet node data hsignal => exact ⟨_, node, data, hsignal, rfl⟩
        | timeout node data hsignal => exact ⟨_, node, data, hsignal, rfl⟩
      refine .inr ⟨.signal s, ⟨{ m.controller with node := node }, m.history⟩, ?_, ⟨?_, h.acted⟩,
        .inl ⟨rfl, rfl⟩⟩
      · rw [← h.controller] at hsignal
        simp only [Recorder.step, hsignal, Option.map_some]
      · rw [h.controller, ← hnode]
        rfl
  | act around controller a hact =>
      refine .inr ⟨.act around, m.happen (.acted a) controller, ?_, ⟨rfl, ?_⟩,
        .inr ⟨_, .act around a, rfl⟩⟩
      · rw [← h.controller] at hact
        simp only [Recorder.step, hact, Option.map_some]
      · have hlog : performed (l.log ++ [.acted a l.host.out.got]) =
            performed l.log ++ [(a, l.host.out.got)] := performed_append ..
        show a :: actedOps m.history = _
        rw [hlog, h.acted]
        simp
  | loop controller hloop =>
      refine .inr ⟨.loop, m.happen .round controller, ?_, h.happens (by simp) rfl rfl,
        .inr ⟨_, .loop, rfl⟩⟩
      rw [← h.controller] at hloop
      simp only [Recorder.step, hloop, Option.map_some]
  | interrupt id e controller hinterrupt =>
      refine .inr ⟨.interrupt id e, m.happen (.interrupt id e) controller, ?_,
        h.happens (by simp) rfl rfl, .inr ⟨_, .interrupt id e, rfl⟩⟩
      rw [← h.controller] at hinterrupt
      simp only [Recorder.step, hinterrupt, Option.map_some]

/-- The whole system is simulated by the controller alone. -/
theorem recounts_simulates (base : List Acted) :
    Simulates HostLink.step Recorder.step (Recounts base) := by
  intro l e l' m h hstep
  rcases h.step hstep with ⟨h', -⟩ | ⟨ce, m', hm', h', -⟩
  · exact ⟨[], m, rfl, h'⟩
  · exact ⟨[ce], m', run_single hm', h'⟩

/-- The message that is served is the last one in the log. -/
theorem Recounts.served {p : Packet} (h : Recounts base l m)
    (hserved : MPMTTestStand.served m.history = some p) {front : List (Packet × Nat)}
    {q : Packet} {n : Nat} (hlast : dispatches l.log = front ++ [(q, n)]) : p = q := by
  have hdispatched := served_dispatched hserved
  rw [h.acted, List.filterMap_append, List.filterMap_reverse, dispatches_fst, hlast] at hdispatched
  simpa using hdispatched.symm

end Recounts

/-! ## Sessions -/

/-- The controller can be between two rounds with this test stand, and has performed
`base`. -/
def Standing (conf : Config) (cal : Calibration) (stand : TestStand) (base : List Acted) : Prop :=
  ∃ m, Recorder.Reached conf cal m ∧ m.controller.node.prog = .ret .running ∧
    m.controller.stand = stand ∧ actedOps m.history = base

section Sessions

variable {conf : Config} {cal : Calibration} {stand : TestStand} {base : List Acted}
  {l l' : HostLink} {events : List LinkEvent}

/-- A state of a session, with what the controller has done. -/
def Recounted (conf : Config) (cal : Calibration) (base : List Acted) (l : HostLink)
    (m : Recorder) : Prop :=
  Recorder.Reached conf cal m ∧ Recounts base l m

/-- The session goes on. -/
theorem Recounted.run {m : Recorder} (h : Recounted conf cal base l m)
    (hrun : Run.run HostLink.step l events = some l') :
    ∃ m', Recounted conf cal base l' m' ∧
      ∃ ds, Run.run Recorder.step m ds = some m' := by
  obtain ⟨ds, m', hm', h'⟩ := (recounts_simulates base).run h.2 hrun
  exact ⟨m', ⟨h.1.steps hm', h'⟩, ds, hm'⟩

/-- The host connects. -/
theorem Standing.recounted (h : Standing conf cal stand base) :
    ∃ m, Recounted conf cal base (.init stand) m := by
  obtain ⟨m, hm, hprog, rfl, hacted⟩ := h
  refine ⟨m.withRx .fresh, hm.resume .fresh hprog, ?_, hacted⟩
  show (⟨⟨.fresh, m.controller.node.prog⟩, m.controller.stand⟩ : Controller) = _
  rw [hprog]
  rfl

/-- A session, and the run of the controller alone from where it began. -/
structure Session (conf : Config) (cal : Calibration) (stand : TestStand) (base : List Acted)
    (l : HostLink) (m0 m : Recorder) (ds : List ControllerEvent) : Prop where
  init : m0.controller = (HostLink.init stand).controller
  leads : Leads (.init cal) m0.history m0.controller.stand
  run : Run.run Recorder.step m0 ds = some m
  recounted : Recounted conf cal base l m
  recent : ∀ new, m.history = new ++ m0.history →
    actedOps new = ((performed l.log).map Prod.fst).reverse

theorem Standing.session (h : Standing conf cal stand base)
    (hrun : Run.run HostLink.step (.init stand) events = some l) :
    ∃ m0 m ds, Session conf cal stand base l m0 m ds := by
  obtain ⟨m0, hm0⟩ := h.recounted
  obtain ⟨m, hm, ds, hds⟩ := hm0.run hrun
  refine ⟨m0, m, ds, hm0.2.controller, hm0.1.leads, hds, hm, fun new hnew => ?_⟩
  have hacted := hm.2.acted
  rw [hnew, actedOps_append, show actedOps m0.history = base from hm0.2.acted] at hacted
  exact List.append_cancel_right hacted

section Session

variable {m0 m : Recorder} {ds : List ControllerEvent}

/-- The session begins between two rounds. -/
theorem Session.idle (h : Session conf cal stand base l m0 m ds) :
    m0.controller.node.prog = .ret .running := by
  rw [h.init]
  rfl

/-- The messages that the history of a session dispatches. -/
theorem Session.messages_eq (h : Session conf cal stand base l m0 m ds)
    {new : List MPMTTestStand.Entry} (hnew : m.history = new ++ m0.history) :
    (actedOps new).filterMap Acted.dispatch? = ((dispatches l.log).map Prod.fst).reverse := by
  rw [h.recent new hnew, List.filterMap_reverse, dispatches_fst]

/-- The message that the program is serving has been dispatched in this session. -/
theorem Session.served_recent (h : Session conf cal stand base l m0 m ds)
    (hbusy : ∀ phase, l.controller.node.prog ≠ .ret phase) {p : Packet}
    (hserved : MPMTTestStand.served m.history = some p) :
    ∃ front n, dispatches l.log = front ++ [(p, n)] := by
  rw [← h.recounted.2.controller] at hbusy
  obtain ⟨new, hnew, hround⟩ := Recorder.round_since h.idle h.run hbusy
  rw [hnew] at hserved
  have hhead := served_since hserved hround
  rw [h.messages_eq hnew, List.head?_reverse] at hhead
  rcases List.eq_nil_or_concat (dispatches l.log) with hnil | ⟨front, ⟨p', n⟩, hlast⟩
  · simp [hnil] at hhead
  · rw [List.concat_eq_append] at hlast
    rw [hlast, List.map_append, List.map_singleton, List.getLast?_concat] at hhead
    obtain rfl := Option.some.inj hhead
    exact ⟨front, n, hlast⟩

end Session

theorem Standing.run (h : Standing conf cal stand base)
    (hrun : Run.run HostLink.step (.init stand) events = some l) :
    ∃ m, Recounted conf cal base l m := by
  obtain ⟨m0, hm0⟩ := h.recounted
  obtain ⟨m, hm, -⟩ := hm0.run hrun
  exact ⟨m, hm⟩

/-- **What the controller does in the whole system is a run of its own.**  A session begins
after anything that has happened to the controller before.  On the lossless channels no write
and no read fails; whatever the host does, and whatever is delayed or times out, there is a
run of the controller alone, with the same operations in the same order, that ends in the
same state; so the modes of the controller are a run of the five-mode machine here too. -/
theorem link_refines (conf : Config) (cal : Calibration) (stand : TestStand)
    (base : List Acted) (hstand : Standing conf cal stand base) (events : List LinkEvent)
    (l : HostLink) (hrun : Run.run HostLink.step (.init stand) events = some l) :
    ∃ m0 m ds, Recorder.Reached conf cal m0 ∧ m0.controller.stand = stand ∧
      actedOps m0.history = base ∧ Run.run Recorder.step m0 ds = some m ∧
      m.controller = l.controller ∧
      actedOps m.history = ((performed l.log).map Prod.fst).reverse ++ base ∧
      ∃ orders, Obeys (.init cal) [] m.history l.controller.stand orders ∧
        Run.run Mode.next .idle orders = some l.controller.stand.mode := by
  obtain ⟨m, hm, hprog, rfl, rfl⟩ := hstand
  have hm0 := hm.resume .fresh hprog
  have hinit : Recounts (actedOps m.history) (.init m.controller.stand) (m.withRx .fresh) := by
    refine ⟨?_, rfl⟩
    show (⟨⟨.fresh, m.controller.node.prog⟩, m.controller.stand⟩ : Controller) = _
    rw [hprog]
    rfl
  obtain ⟨ds, m', hrun', h'⟩ := (recounts_simulates _).run hinit hrun
  have hm' := hm0.steps hrun'
  obtain ⟨orders, hobeys⟩ := hm'.obeys (List.append_nil _).symm hm'.leads
  rw [h'.controller] at hobeys
  exact ⟨m.withRx .fresh, m', ds, hm0, rfl, rfl, hrun', h'.controller, h'.acted, orders, hobeys,
    hobeys.run⟩

end Sessions

/-- The host has connected, and the controller has finished its first round. -/
def firstRound : List ControllerEvent := connected ++ [.signal .quiet]

/-- The test stand as `setup` leaves it. -/
def readyStand : TestStand :=
  ((TestStand.init defaultCalibration).setAxis .x
    (Axis.zero.setupAxis conf.ioAxisX conf.axisMech)).setAxis .y
      (Axis.zero.setupAxis conf.ioAxisY conf.axisMech)

/-- The operations until then. -/
def readyOps : List Acted :=
  [ ⟨.getStatus, .idle⟩
  , ⟨.setStatus .idle, ()⟩
  , ⟨.axisSetup .y conf.ioAxisY conf.axisMech, ()⟩
  , ⟨.axisSetup .x conf.ioAxisX conf.axisMech, ()⟩ ]

set_option maxRecDepth 4000 in
/-- A first session begins like this. -/
theorem standing_ready : Standing conf defaultCalibration readyStand readyOps := by
  obtain ⟨m, hm, hprog, hstand, hacted⟩ : ∃ m,
      Run.run Recorder.step (.init conf defaultCalibration) firstRound = some m ∧
        m.controller.node.prog = .ret .running ∧ m.controller.stand = readyStand ∧
        actedOps m.history = readyOps :=
    ⟨_, rfl, rfl, rfl, rfl⟩
  exact ⟨m, .of_run hm, hprog, hstand, hacted⟩

set_option maxRecDepth 4000 in
/-- A call for the status, after the host has connected. -/
theorem link_refines_status :
    ∃ l, Run.run HostLink.step (.init readyStand) statusAnswered = some l ∧
      ∃ m0 m ds, Recorder.Reached conf defaultCalibration m0 ∧
        m0.controller.stand = readyStand ∧ actedOps m0.history = readyOps ∧
        Run.run Recorder.step m0 ds = some m ∧ m.controller = l.controller ∧
        actedOps m.history = ((performed l.log).map Prod.fst).reverse ++ readyOps ∧
        ∃ orders, Obeys (.init defaultCalibration) [] m.history l.controller.stand orders ∧
          Run.run Mode.next .idle orders = some l.controller.stand.mode := by
  obtain ⟨l, hrun⟩ : ∃ l, Run.run HostLink.step (.init readyStand) statusAnswered = some l :=
    ⟨_, rfl⟩
  exact ⟨l, hrun, link_refines conf defaultCalibration readyStand readyOps standing_ready
    statusAnswered l hrun⟩

end MpmtTestStand.Ports
