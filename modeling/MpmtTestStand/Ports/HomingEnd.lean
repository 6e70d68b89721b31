import MpmtTestStand.Ports.HomingDirection
import MpmtTestStand.Ports.HomingDistance
import MpmtTestStand.Ports.MoveRequest

/-!
# How the homing routine ends

`execute` takes both axes being stopped in part B for the end of the homing
routine, and resets the counters.  It does not look at the results of the two
`axis_start` of `handle_home_b`, nor at what has stopped the axes.
`homing_completed`: the routine does end at the home position if the flags and the
velocities that `handle_home_b` finds allow it to start the axes, and the switches
then do what they do when an axis leaves its home position.
-/

namespace MpmtTestStand.Ports

open MpmtTestStand.Verified
open MpmtTestStand.Verified.Run

namespace MPMTTestStand

/-! ## What `execute` has done when it stores IDLE -/

/-- In this homing routine `execute` has read the home switch as pressed. -/
def Ready (id : AxisId) (history : List Entry) : Prop :=
  ∃ mid rd older, history = mid ++ rd :: older ∧
    rd.event = .acted (readFlag id .home true) ∧ ∀ x ∈ mid, ¬x.event.BeginsHoming

/-- A HOME has been dispatched. -/
def Begun (history : List Entry) : Prop := ∃ x ∈ history, x.event.BeginsHoming

/-- Then `handle_home_b` has called `axis_start`, which found the axis stopped, and has
not halted the axis since. -/
def PartB (id : AxisId) (history : List Entry) : Prop :=
  ∃ later st older res, history = later ++ st :: older ∧
    st.event = .acted ⟨.axisStart id.toByte (homingMotion .positive st.before.cal), res⟩ ∧
    served older = none ∧ Begun older ∧ Ready id older ∧
    (st.before.axis id).state.moving = false ∧
    ∀ x ∈ later, ¬x.event.BeginsHoming ∧ ¬x.event.Halts

/-- Both axes were found stopped after part B. -/
def FoundHomed (history : List Entry) : Prop :=
  ∃ tail e older, history = tail ++ e :: older ∧ Still e.before ∧
    (∀ x ∈ tail ++ [e], ¬x.event.BeginsHoming) ∧ ∀ id, PartB id older

/-- What allows the status to change from HOMING to IDLE. -/
def MayFinish (history : List Entry) : Prop := ServesStop history ∨ FoundHomed history

/-- Whoever has just stored IDLE for HOMING was allowed to. -/
abbrev FinishFound : List Entry → Prop := IdleAfter .homing MayFinish

theorem Ready.cons {id : AxisId} {history : List Entry} {e : Entry} (h : Ready id history)
    (he : ¬e.event.BeginsHoming) : Ready id (e :: history) := by
  obtain ⟨mid, rd, older, rfl, hrd, hmid⟩ := h
  refine ⟨e :: mid, rd, older, rfl, hrd, ?_⟩
  intro x hx
  rcases List.mem_cons.mp hx with rfl | hx
  · exact he
  · exact hmid x hx

theorem PartB.cons {id : AxisId} {history : List Entry} {e : Entry} (h : PartB id history)
    (he : ¬e.event.BeginsHoming) (hhalts : ¬e.event.Halts) : PartB id (e :: history) := by
  obtain ⟨later, st, older, res, rfl, hst, hserved, hbegun, hready, hstill, hlater⟩ := h
  refine ⟨e :: later, st, older, res, rfl, hst, hserved, hbegun, hready, hstill, ?_⟩
  intro x hx
  rcases List.mem_cons.mp hx with rfl | hx
  · exact ⟨he, hhalts⟩
  · exact hlater x hx

theorem FoundHomed.cons {history : List Entry} {e : Entry} (h : FoundHomed history)
    (he : ¬e.event.BeginsHoming) : FoundHomed (e :: history) := by
  obtain ⟨tail, e', older, rfl, hstill, htail, hpart⟩ := h
  refine ⟨e :: tail, e', older, rfl, hstill, ?_, hpart⟩
  intro x hx
  rcases List.mem_cons.mp hx with rfl | hx
  · exact he
  · exact htail x hx

theorem Happening.Quiet.not_begins {ev : Happening} (h : ev.Quiet) : ¬ev.BeginsHoming := by
  cases ev with
  | acted a =>
      obtain ⟨o, r⟩ := a
      cases o with
      | dispatch p => exact h.1
      | _ => exact fun hbegins => hbegins
  | _ => exact fun hbegins => hbegins

theorem Checked.ready {id : AxisId} {history : List Entry} (h : Checked id .home true history) :
    Ready id history := by
  obtain ⟨new, b, old, rfl, hnew, -⟩ := h
  exact ⟨new, _, old, rfl, rfl, fun x hx => (hnew x hx).quiet.not_begins⟩

section Finish

variable {cal : Calibration} {s t : Record cal} {id : AxisId}

theorem Begun.cons {history : List Entry} {e : Entry} (h : Begun history) :
    Begun (e :: history) := by
  obtain ⟨x, hx, hbegins⟩ := h
  exact ⟨x, .tail _ hx, hbegins⟩

theorem Passes.begun (h : Passes Happening.Quiet s t) (hs : Begun s.history) :
    Begun t.history :=
  h.induct (motive := fun _ history => Begun history) hs fun _ _ _ _ _ _ ih => ih.cons

theorem Passes.ready (h : Passes Happening.Quiet s t) (hs : Ready id s.history) :
    Ready id t.history :=
  h.induct (motive := fun _ history => Ready id history) hs
    fun _ _ _ _ hev _ ih => ih.cons hev.not_begins

theorem Passes.partB (h : Passes Happening.Quiet s t) (hs : PartB id s.history) :
    PartB id t.history :=
  h.induct (motive := fun _ history => PartB id history) hs
    fun _ _ _ _ hev _ ih => ih.cons hev.not_begins hev.not_halts

theorem Passes.foundHomed (h : Passes Happening.Quiet s t) (hs : FoundHomed s.history) :
    FoundHomed t.history :=
  h.induct (motive := fun _ history => FoundHomed history) hs
    fun _ _ _ _ hev _ ih => ih.cons hev.not_begins

/-- The invariant between the functions of the main program. -/
structure FinishInv (phase : MPMTTestStand.Phase) (s : Record cal) : Prop where
  found : FinishFound s.history
  connecting : phase = .connecting → s.stand.status = .idle
  begun : s.stand.status = .homing → Begun s.history
  partB : s.stand.status = .homing → s.stand.homeADone = true → ∀ id, PartB id s.history

variable {phase : Phase}

theorem FinishInv.quiet (h : FinishInv phase s) (ht : Passes Happening.Quiet s t) :
    FinishInv phase t where
  found := ht.idleAfter h.found
  connecting hphase := ht.status.trans (h.connecting hphase)
  begun hstatus := ht.begun (h.begun (ht.status.symm.trans hstatus))
  partB hstatus hdone id :=
    ht.partB (h.partB (ht.status.symm.trans hstatus) (ht.homeADone.symm.trans hdone) id)

theorem FinishInv.of_status (hfound : FinishFound s.history) (h : s.stand.status = .idle) :
    FinishInv phase s :=
  ⟨hfound, fun _ => h, fun hstatus => by simp [h] at hstatus,
    fun hstatus => by simp [h] at hstatus⟩

theorem FinishInv.of_running (hfound : FinishFound s.history) (h : s.stand.status ≠ .homing) :
    FinishInv .running s :=
  ⟨hfound, by simp, fun hstatus => absurd hstatus h, fun hstatus => absurd hstatus h⟩

/-! ## The functions of the main program -/

/-- Storing a status other than IDLE. -/
theorem FinishInv.store {status : Status} (h : FinishInv .running s) (hidle : status ≠ .idle)
    (hstatus : status = .homing → s.stand.status = .homing) :
    SafeProg (fun _ history => FinishFound history) (fun _ => FinishInv .running)
      (stand (.setStatus status)) s := by
  refine .notIdle (by simp [hidle]) h.found fun t r now hhappens ht hfound => ?_
  have ht' := h.quiet ht.passive.quiet
  have hinv : FinishInv .running (t.happen hhappens) := by
    obtain rfl := hhappens.setStatus_eq
    refine ⟨hfound, by simp, fun hhoming => ?_, fun hhoming hdone id => ?_⟩
    · exact (ht'.begun (ht.passive.quiet.status.trans (hstatus hhoming))).cons
    · have hbefore := ht.passive.quiet.status.trans (hstatus hhoming)
      exact (ht'.partB hbefore hdone id).cons (fun hbegins => hbegins) fun hhalts => hhalts
  exact .retIdle hfound fun u hu => hinv.quiet hu.quiet

/-- Storing IDLE. -/
theorem safe_storeIdle (hs : FinishFound s.history)
    (hfinish : s.stand.status = .homing → MayFinish s.history) :
    SafeProg (fun _ history => FinishFound history)
      (fun _ t => FinishFound t.history ∧ t.stand.status = .idle) (stand (.setStatus .idle)) s := by
  refine .act fun t ht _ => ⟨ht.passive.quiet.idleAfter hs, fun r now hhappens => ?_⟩
  have hfound : FinishFound (t.happen hhappens).history := by
    intro hhoming
    rw [ht.passive.quiet.status] at hhoming
    rcases hfinish hhoming with ⟨p, hp, hid⟩ | hhomed
    · exact .inl ⟨p, ht.passive.served.trans hp, hid⟩
    · exact .inr (ht.passive.quiet.foundHomed hhomed)
  have hidle : (t.happen hhappens).stand.status = .idle :=
    congrArg TestStand.status hhappens.setStatus_eq
  exact .retIdle hfound fun u hu => ⟨hu.quiet.idleAfter hfound, hu.quiet.status.trans hidle⟩

/-- What `handle_home_b` goes by, and the calibration that it has read. -/
structure BothHome (c : Calibration) (s : Record cal) : Prop where
  served_eq : served s.history = none
  begun : Begun s.history
  ready : ∀ id, Ready id s.history
  still : Still s.stand
  cal_eq : s.stand.cal = c

theorem BothHome.passes {c : Calibration} (h : BothHome c s)
    (ht : Passes Happening.Passive s t) : BothHome c t where
  served_eq := ht.served.trans h.served_eq
  begun := ht.quiet.begun h.begun
  ready id := ht.quiet.ready (h.ready id)
  still := ht.quiet.still_all h.still
  cal_eq := ht.cal_eq.trans h.cal_eq

/-- Its start of an axis. -/
theorem BothHome.partB {c : Calibration} {res : AxisResult} {now : TestStand}
    (h : BothHome c s) (hhappens : Happens s.stand
      (.acted ⟨.axisStart id.toByte (homingMotion .positive c), res⟩) now) :
    PartB id (s.happen hhappens).history := by
  obtain ⟨hserved, hbegun, hready, hstill, rfl⟩ := h
  exact ⟨[], _, s.history, res, rfl, rfl, hserved, hbegun, hready id, hstill id, by simp⟩

/-- The start of the X axis leaves everything as it was for the Y axis. -/
theorem BothHome.startX {c : Calibration} {res : AxisResult} {motion : AxisMotionSpec}
    {now : TestStand} (h : BothHome c s)
    (hhappens : Happens s.stand (.acted ⟨.axisStart AxisId.x.toByte motion, res⟩) now) :
    served (s.happen hhappens).history = none ∧ Begun (s.happen hhappens).history ∧
      Ready .y (s.happen hhappens).history ∧
      ((s.happen hhappens).stand.axis .y).state.moving = false ∧
      (s.happen hhappens).stand.cal = c := by
  refine ⟨h.served_eq, h.begun.cons, (h.ready .y).cons fun hbegins => hbegins, ?_, ?_⟩
  all_goals
    obtain ⟨id', hraw, -, hnow⟩ := hhappens.axisStart_eq
    obtain rfl : AxisId.x = id' := AxisId.toByte_inj.mp hraw
    have hstand : (s.happen hhappens).stand = _ := hnow
    rw [hstand]
  · rw [TestStand.axis_setAxis_ne s.stand _ (by decide)]
    exact h.still .y
  · exact (TestStand.cal_setAxis ..).trans h.cal_eq

/-- Both starts of a part of the homing routine, and the writes after them. -/
theorem safe_part {dir : AxisDirection} {done : Bool} {c : Calibration}
    (hs : FinishFound s.history) (hbegun : Begun s.history)
    (hB : done = true → dir = .positive ∧ BothHome c s) :
    SafeProg (fun _ history => FinishFound history) (fun _ => FinishInv .running)
      (do
        let _ ← axisStart .x (homingMotion dir c)
        let _ ← axisStart .y (homingMotion dir c)
        stand (.setHomeADone done)
        stand (.setStatus .homing)) s := by
  refine .notIdle (by simp) hs fun t res now hx ht hfound => ?_
  refine .notIdle (by simp) hfound fun u res' now hy hu hfound => ?_
  refine .notIdle (by simp) hfound fun v r now hdone hv hfound => ?_
  refine .notIdle (by simp) hfound fun w r' now hstatus hw hfound => ?_
  have hinv : FinishInv .running (w.happen hstatus) := by
    refine ⟨hfound, by simp, fun _ => ?_, fun _ hdone' id => ?_⟩
    · have hu' := hu.passive.quiet.begun (ht.passive.quiet.begun hbegun).cons
      exact (hw.passive.quiet.begun (hv.passive.quiet.begun hu'.cons).cons).cons
    have hset : w.stand.homeADone = done :=
      hw.passive.quiet.homeADone.trans (congrArg TestStand.homeADone hdone.setHomeADone_eq)
    have hnow : (w.happen hstatus).stand.homeADone = w.stand.homeADone := by
      obtain rfl := hstatus.setStatus_eq
      rfl
    obtain ⟨rfl, hboth⟩ := hB (hset.symm.trans (hnow.symm.trans hdone'))
    have hbothx := hboth.passes ht.passive
    have hy' : PartB id (u.happen hy).history := by
      cases id with
      | x =>
          exact (hu.passive.quiet.partB (hbothx.partB hx)).cons (fun hbegins => hbegins)
            fun hhalts => hhalts
      | y =>
          obtain ⟨hserved, hbegun, hready, hstill, hcal⟩ := hbothx.startX hx
          rw [← hu.passive.cal_eq] at hcal
          subst hcal
          exact ⟨[], _, u.history, res', rfl, rfl, hu.passive.served.trans hserved,
            hu.passive.quiet.begun hbegun, hu.passive.quiet.ready hready,
            hu.passive.quiet.still hstill, by simp⟩
    have hv' : PartB id (v.happen hdone).history :=
      (hv.passive.quiet.partB hy').cons (fun hbegins => hbegins) fun hhalts => hhalts
    exact (hw.passive.quiet.partB hv').cons (fun hbegins => hbegins) fun hhalts => hhalts
  exact .retIdle hfound fun y hy => hinv.quiet hy.quiet

theorem safe_homeA (hs : FinishFound s.history) (hbegun : Begun s.history) :
    SafeProg (fun _ history => FinishFound history) (fun _ => FinishInv .running)
      handleHomeA s :=
  .notIdle (by simp) hs fun _ _ _ _ ht hfound =>
    safe_part hfound (ht.passive.quiet.begun hbegun).cons fun hdone => by cases hdone

theorem FinishInv.homeB (h : FinishInv .running s) (hboth : BothHome s.stand.cal s) :
    SafeProg (fun _ history => FinishFound history) (fun _ => FinishInv .running)
      handleHomeB s := by
  refine .notIdle (by simp) h.found fun t c now hget ht hfound => ?_
  obtain rfl := hget.reads trivial
  have hst := ht.passive.happen hget trivial
  obtain rfl : c = s.stand.cal := hget.getCal_eq.trans ht.passive.cal_eq
  exact safe_part hfound (hst.quiet.begun hboth.begun) fun _ => ⟨rfl, hboth.passes hst⟩

theorem FinishInv.move (h : FinishInv .running s) :
    SafeProg (fun _ history => FinishFound history) (fun _ => FinishInv .running)
      handleMove s := by
  refine safe_handleMove (fun t ht => ⟨(h.quiet ht).found, h.quiet ht⟩) ?_
  intro t data now hstart _ _
  have hfound : FinishFound (t.happen hstart).history := .of_op (by simp)
  refine .notIdle (by simp) hfound fun u r now hstatus _ hfound => ?_
  have hinv : FinishInv .running (u.happen hstatus) := by
    obtain rfl := hstatus.setStatus_eq
    exact .of_running hfound (by simp [Record.happen])
  exact .retIdle hfound fun v hv w hw =>
    ⟨(hinv.quiet (hv.quiet.trans hw)).found, hinv.quiet (hv.quiet.trans hw)⟩

theorem safe_stop (hs : FinishFound s.history) (hstop : ServesStop s.history) :
    SafeProg (fun _ history => FinishFound history) (fun _ => FinishInv .running)
      handleStop s := by
  refine World.Safe.bind ((safe_halt (o := .axisStop .x) trivial hs).mono ?_)
  rintro - t ⟨ht, -, hst⟩
  refine World.Safe.bind ((safe_halt (o := .axisStop .y) trivial ht).mono ?_)
  rintro - u ⟨hu, -, htu⟩
  obtain ⟨p, hp, hid⟩ := hstop
  have hstop' : ServesStop u.history := ⟨p, htu.trans (hst.trans hp), hid⟩
  refine (safe_storeIdle hu fun _ => .inl hstop').mono ?_
  rintro - v ⟨hv, hidle⟩
  exact .of_status hv hidle

/-- The end of the homing routine. -/
theorem FinishInv.finish (h : FinishInv .running s) (hstill : Still s.stand)
    (hpart : ∀ id, PartB id s.history) :
    SafeProg (fun _ history => FinishFound history) (fun _ => FinishInv .running)
      finishHoming s := by
  refine .notIdle (by simp) h.found fun t r now hx ht hfound => ?_
  have hhomed : FoundHomed (t.happen hx).history :=
    ⟨[], _, t.history, rfl, ht.passive.quiet.still_all hstill, by simp [Happening.BeginsHoming],
      fun id => ht.passive.quiet.partB (hpart id)⟩
  refine .notIdle (by simp) hfound fun u r now hy hu hfound => ?_
  have hhomed' : FoundHomed (u.happen hy).history :=
    (hu.passive.quiet.foundHomed hhomed).cons fun hbegins => hbegins
  show SafeProg _ _ (stand (.setStatus .idle) >>= fun _ => stand (.setHomeADone false)) _
  refine World.Safe.bind ((safe_storeIdle hfound fun _ => .inr hhomed').mono ?_)
  rintro - v ⟨hv, hidle⟩
  refine SafeProg.notIdle (by simp) hv fun w r now hdone hw hfound => .retIdle hfound fun y hy => ?_
  have hinv : FinishInv .running (w.happen hdone) := by
    refine .of_status hfound ?_
    obtain rfl := hdone.setHomeADone_eq
    exact hw.passive.quiet.status.trans hidle
  exact hinv.quiet hy.quiet

end Finish

theorem maintains_finishFound (conf : Config) (cal : Calibration) :
    Maintains conf cal (fun _ history => FinishFound history) FinishInv where
  quiet _ _ _ hs ht := hs.quiet ht.of_phase
  holds _ _ hs := hs.found
  setup := by
    have hstart : FinishFound (Recorder.start cal).history := trivial
    refine World.Safe.bind ((safe_halt (o := .axisSetup .x _ _) trivial hstart).mono ?_)
    rintro - t ⟨ht, hst, -⟩
    refine (safe_halt (o := .axisSetup .y _ _) trivial ht).mono ?_
    rintro - u ⟨hu, htu, -⟩
    exact .of_status hu (htu.trans hst)
  connected s hs := by
    refine (safe_storeIdle hs.found fun hhoming => ?_).mono fun _ t ht => .of_status ht.1 ht.2
    rw [hs.connecting rfl] at hhoming
    cases hhoming
  update s hs hserved := by
    have hI := fun t (ht : Passes Happening.Passive s t) => hs.quiet ht.quiet
    refine safe_updateStatus (fun t ht => (hI t ht).found) (fun t ht _ => hI t ht) ?_ ?_ ?_ ?_ ?_
    · intro t status ht hstatus hkept _
      refine (hI t ht).store ?_ fun hhoming => ?_
      · rcases hkept with rfl | rfl <;> simp
      · exact ht.quiet.status.trans (hstatus.trans hhoming)
    · exact fun t ht _ _ => (hI t ht).store (by simp) (by simp)
    · intro t ht hmoving _ _
      refine (safe_storeIdle (hI t ht).found fun hhoming => ?_).mono
        fun _ u hu => .of_status hu.1 hu.2
      rw [ht.quiet.status, hmoving] at hhoming
      cases hhoming
    · exact fun t ht hhoming _ hstill hchecked => (hI t ht).homeB
        ⟨ht.served.trans hserved, (hI t ht).begun (ht.quiet.status.trans hhoming),
          fun id => (hchecked id).ready, hstill, rfl⟩
    · intro t ht hhoming hdone hstill
      refine (hI t ht).finish hstill ((hI t ht).partB ?_ ?_)
      · exact ht.quiet.status.trans hhoming
      · exact ht.quiet.homeADone.trans hdone
  serve s h hs hid := by
    have hfound : FinishFound (s.happen h).history := .of_op (by simp)
    rcases hid with hid | hid | hid
    · simp only [hid]
      exact safe_homeA hfound ⟨_, .head _, hid⟩
    · have hbegins : ¬(Happening.acted ⟨.dispatch s.rx.msg.packet, ()⟩).BeginsHoming := by
        show ¬s.rx.msg.id = msgIdHome
        rw [hid]
        decide
      have hs' : FinishInv .running (s.happen h) :=
        ⟨hfound, by simp, fun hhoming => (hs.begun hhoming).cons, fun hhoming hdone id =>
          (hs.partB hhoming hdone id).cons hbegins fun hhalts => hhalts⟩
      simp only [hid]
      exact hs'.move
    · simp only [hid]
      exact safe_stop hfound ⟨_, rfl, hid⟩

/-! ## What an axis needs for part B -/

/-- What `handle_home_b` has to find when it starts the axis: the far switch is not
recorded as pressed, the velocities have a profile, and there is room for the targets. -/
structure FitToLeave (id : AxisId) (b : TestStand) : Prop where
  far : (b.axis id).state.lsFarPressed = false
  ramp : ¬NoRamp (b.axis id).mech b.cal b.cal.velHome
  room : Roomy false b.cal (b.axis id).state.encoderCurrent.toInt

/-- What the switches and the encoder have to do after it: the far switch does not
interrupt the motion, the home switch is not reported as pressed, and the axis makes
fewer than `2^30` counts. -/
structure LeavesHome (id : AxisId) (later : List Entry) : Prop where
  far : ∀ x ∈ later, (x.before.axis id).state.moving = true →
    ∀ pressed, ¬x.Records id .far pressed
  home : ∀ x ∈ later, ¬x.Records id .home true
  counts : pulses id later < 2 ^ 30

/-- The steps since the last HOME, which found the home switch not recorded as pressed,
are what the axis needs; `later` is what has happened since this history. -/
def CleanHoming (id : AxisId) (later : List Entry) : List Entry → Prop
  | [] => True
  | e :: history =>
      (e.event.BeginsHoming ∧ (e.before.axis id).state.lsHomePressed = false) ∨
      (¬e.event.BeginsHoming ∧
        (∀ motion res, e.event = .acted ⟨.axisStart id.toByte motion, res⟩ →
          served history = none → FitToLeave id e.before ∧ LeavesHome id later) ∧
        CleanHoming id (later ++ [e]) history)

/-- The axis has been homed: since the HOME its home switch was reported pressed,
`handle_home_b` then started it in the positive direction, the handler of the home
switch stopped it, reporting the switch released, and it is released still. -/
def Homed (id : AxisId) (b : TestStand) (old : List Entry) : Prop :=
  ∃ newer stop mid st between press partA home before,
    old = newer ++ stop :: (mid ++ st :: (between ++ press :: (partA ++ home :: before))) ∧
    home.event.BeginsHoming ∧
    (∀ x ∈ newer ++ stop :: (mid ++ st :: (between ++ press :: partA)),
      ¬x.event.BeginsHoming) ∧
    press.Records id .home true ∧
    st.event = .acted ⟨.axisStart id.toByte (homingMotion .positive st.before.cal), .ok⟩ ∧
    served (between ++ press :: (partA ++ home :: before)) = none ∧
    (stop.before.axis id).state.moving = true ∧ stop.Records id .home false ∧
    (b.axis id).state.lsHomePressed = false

theorem homingProfile_eq_none (mech : AxisMech) (dir : AxisDirection) (c : Calibration) :
    Axis.motionProfile mech (homingMotion dir c) = none ↔ NoRamp mech c c.velHome :=
  generateVelProfile_eq_none ..

section Clean

variable {id : AxisId} {later new older history : List Entry} {b : TestStand}

/-- The start is accepted. -/
theorem FitToLeave.accepted {s' : TestStand} {res : AxisResult} (h : FitToLeave id b)
    (hmoving : (b.axis id).state.moving = false)
    (hstart : Happens b (.acted ⟨.axisStart id.toByte (homingMotion .positive b.cal), res⟩) s') :
    res = .ok := by
  obtain ⟨id', hraw, rfl, -⟩ := hstart.axisStart_eq
  obtain rfl := AxisId.toByte_inj.mp hraw
  have hvalid : (b.axis id).validateMotion (homingMotion .positive b.cal) = .ok := by
    simp [Axis.validateMotion, hmoving, h.far, homingMotion]
  obtain ⟨profile, hprofile⟩ : ∃ profile,
      Axis.motionProfile (b.axis id).mech (homingMotion .positive b.cal) = some profile :=
    Option.ne_none_iff_exists'.mp (mt (homingProfile_eq_none ..).mp h.ramp)
  simp only [Axis.startAxis, hvalid, hprofile]

theorem LastReleased.of_mem {sw : Switch} (hpressed : ∀ x ∈ later, ¬x.Records id sw true)
    (hreleased : ∃ x ∈ later, x.Records id sw false) : LastReleased id sw later := by
  induction later with
  | nil =>
      obtain ⟨x, hx, -⟩ := hreleased
      cases hx
  | cons x later ih =>
      by_cases hx : x.Records id sw false
      · exact .inl hx
      · refine .inr ⟨hpressed x (by simp), ih (fun y hy => hpressed y (by simp [hy])) ?_⟩
        obtain ⟨y, hy, hrecords⟩ := hreleased
        rcases List.mem_cons.mp hy with rfl | hy
        · exact absurd hrecords hx
        · exact ⟨y, hy, hrecords⟩

theorem CleanHoming.drop (h : CleanHoming id later (new ++ older))
    (hnew : ∀ x ∈ new, ¬x.event.BeginsHoming) : CleanHoming id (later ++ new) older := by
  induction new generalizing later with
  | nil =>
      rw [List.append_nil]
      exact h
  | cons x new ih =>
      have hrest := h.resolve_left fun hx => hnew x (by simp) hx.1
      have hdrop := ih hrest.2.2 fun y hy => hnew y (by simp [hy])
      rwa [List.append_assoc] at hdrop

/-- The HOME. -/
theorem CleanHoming.home (h : CleanHoming id later history) (hbegun : Begun history) :
    ∃ newer home before, history = newer ++ home :: before ∧
      (∀ x ∈ newer, ¬x.event.BeginsHoming) ∧ home.event.BeginsHoming ∧
      (home.before.axis id).state.lsHomePressed = false := by
  induction history generalizing later with
  | nil =>
      obtain ⟨x, hx, -⟩ := hbegun
      cases hx
  | cons e history ih =>
      rcases h with ⟨hbegins, hflag⟩ | ⟨hnot, -, hrest⟩
      · exact ⟨[], e, history, rfl, by simp, hbegins, hflag⟩
      · obtain ⟨x, hx, hbegins⟩ := hbegun
        have hmem : x ∈ history := by
          rcases List.mem_cons.mp hx with rfl | hx
          · exact absurd hbegins hnot
          · exact hx
        obtain ⟨newer, home, before, rfl, hnewer, hhome⟩ := ih hrest ⟨x, hmem, hbegins⟩
        exact ⟨e :: newer, home, before, rfl, List.forall_mem_cons.mpr ⟨hnot, hnewer⟩, hhome⟩

/-- The handler has reported the home switch as pressed since the HOME, because
`execute` has read it as pressed. -/
theorem CleanHoming.press {s0 : TestStand} (h : CleanHoming id later history)
    (hbegun : Begun history) (hready : Ready id history) (hleads : Leads s0 history b) :
    ∃ between press partA home before,
      history = between ++ press :: (partA ++ home :: before) ∧
      home.event.BeginsHoming ∧ (∀ x ∈ between ++ press :: partA, ¬x.event.BeginsHoming) ∧
      press.Records id .home true := by
  obtain ⟨mid, rd, read, rfl, hrd, hmid⟩ := hready
  have hrd' : ¬rd.event.BeginsHoming := by
    rw [hrd]
    exact fun hbegins => hbegins
  have hnew : ∀ x ∈ mid ++ [rd], ¬x.event.BeginsHoming := by
    intro x hx
    rcases List.mem_append.mp hx with hx | hx
    · exact hmid x hx
    · obtain rfl := List.mem_singleton.mp hx
      exact hrd'
  have hold : CleanHoming id (later ++ (mid ++ [rd])) read :=
    CleanHoming.drop (by simpa using h) hnew
  have hbegunRead : Begun read := by
    obtain ⟨x, hx, hbegins⟩ := hbegun
    refine ⟨x, ?_, hbegins⟩
    rw [List.append_cons] at hx
    exact (List.mem_append.mp hx).resolve_left fun hx => hnew x hx hbegins
  obtain ⟨newer, home, before, rfl, hnewer, hhome, hflag⟩ := hold.home hbegunRead
  -- the flag was clear when the HOME was dispatched, and set when it was read
  obtain ⟨_, hread, hreads, -⟩ := hleads.entry
  rw [hrd] at hreads
  have hset : (rd.before.axis id).state.lsPressed .home = true := hreads.readFlag_eq.symm
  obtain ⟨s1, -, hdispatch, hsince⟩ := hread.entry
  have hsinceHome : Leads home.before (newer ++ [home]) rd.before :=
    Leads.append ⟨rfl, hdispatch⟩ hsince
  have hclear : (home.before.axis id).state.lsPressed .home = !true := hflag
  obtain ⟨press, hpress, hrecords⟩ := hsinceHome.recorded hclear hset
  have hmem : press ∈ newer := by
    rcases List.mem_append.mp hpress with hpress | hpress
    · exact hpress
    · obtain rfl := List.mem_singleton.mp hpress
      obtain ⟨level, hev, -⟩ := hrecords
      rw [hev] at hhome
      exact hhome.elim
  obtain ⟨between, partA, rfl⟩ := List.append_of_mem hmem
  refine ⟨mid ++ rd :: between, press, partA, home, before, by simp, hhome, ?_, hrecords⟩
  intro x hx
  rcases List.mem_append.mp (show x ∈ (mid ++ [rd]) ++ (between ++ press :: partA) by
    simpa using hx) with hx | hx
  · exact hnew x hx
  · exact hnewer x hx

/-- The motion ends: the home switch is reported released. -/
theorem LeavesHome.released {s0 s1 s2 : TestStand} {st : Entry} {tail older : List Entry}
    (h : LeavesHome id (tail ++ later)) (hfit : FitToLeave id st.before)
    (hmech : (st.before.axis id).mech = conf.axisMech)
    (hst : st.event = .acted ⟨.axisStart id.toByte (homingMotion .positive st.before.cal), .ok⟩)
    (hstarted : Leads s0 (st :: older) s1) (hlater : Leads s1 later s2)
    (hhalts : ∀ x ∈ later, ¬x.event.Halts) (hstill : (s2.axis id).state.moving = false) :
    ∃ newer stop mid, later = newer ++ stop :: mid ∧
      (stop.before.axis id).state.moving = true ∧ stop.Records id .home false := by
  have hstart := hstarted.2
  rw [hst] at hstart
  obtain ⟨newer, stop, mid, s3, rfl, hmid, hmidMoving, hstopMoving, -, -, hend⟩ :=
    hlater.ended hstart.started hstill
  have hpulses : pulses id mid < 2 ^ 30 := by
    have hall := h.counts
    simp only [pulses, List.countP_append, List.countP_cons] at hall ⊢
    omega
  have hnotFinish : ¬stop.Finishes id := by
    have hmidStart : ∀ x ∈ mid, ¬x.event.Starts id := by
      intro x hx
      obtain ⟨newer', older', rfl⟩ := List.append_of_mem hx
      obtain ⟨_, -, hhappens, -⟩ := hmid.entry
      exact hhappens.not_starts (hmidMoving x hx)
    have hstPos : st.event =
        .acted ⟨.axisStart id.toByte (homingMotion (signDir false) st.before.cal), .ok⟩ := hst
    exact (hstarted.append hmid).not_finished hmech hstPos hmidStart hstopMoving hpulses hfit.room
  have hmem : stop ∈ tail ++ (newer ++ stop :: mid) := by simp
  refine ⟨newer, stop, mid, rfl, hstopMoving, ?_⟩
  rcases hend with hend | ⟨sw, pressed, hend⟩ | hend
  · exact absurd hend hnotFinish
  · cases sw with
    | far => exact absurd hend (h.far stop hmem hstopMoving pressed)
    | home =>
        cases pressed with
        | true => exact absurd hend (h.home stop hmem)
        | false => exact hend
  · exact absurd hend (hhalts stop (by simp))

end Clean

/-! ## Runs -/

/-- An axis that is started has been set up. -/
theorem Recorder.started_mech {conf : Config} {cal : Calibration} {events : List ControllerEvent}
    {m : Recorder} (hrun : run Recorder.step (.init conf cal) events = some m)
    {new old : List Entry} {st : Entry} (hhistory : m.history = new ++ st :: old) {id : AxisId}
    (hst : st.event.Starts id) : (st.before.axis id).mech = conf.axisMech := by
  obtain ⟨_, m1, hrun1, hhistory1, -⟩ := Recorder.earlier hrun hhistory
  have hproper : Proper conf m1.history := (maintains_proper conf cal).run hrun1
  rw [hhistory1] at hproper
  exact hproper.1 id hst

/-- **Homing completes at the home position.**  In every run of the controller: when
the status changes from HOMING to IDLE without a STOP, an axis for which the HOME,
`handle_home_b` and what came after it were as they should be has been homed. -/
theorem homing_completed (cal : Calibration) (events : List ControllerEvent) (m : Recorder)
    (hrun : run Recorder.step (.init conf cal) events = some m)
    {new old : List Entry} {b : TestStand}
    (hhistory : m.history = new ++ ⟨b, .acted ⟨.setStatus .idle, ()⟩⟩ :: old)
    (hhoming : b.status = .homing) (hstop : ¬ServesStop old)
    (id : AxisId) (hclean : CleanHoming id [] old) : Homed id b old := by
  obtain ⟨earlier, m1, hrun1, hhistory1, -⟩ := Recorder.earlier hrun hhistory
  have hfound : FinishFound m1.history := (maintains_finishFound conf cal).run hrun1
  have hleads := Recorder.leads hrun1
  rw [hhistory1] at hfound hleads
  obtain ⟨tail, e, history, rfl, hstill, htail, hpart⟩ := (hfound hhoming).resolve_left hstop
  obtain ⟨later, st, older, res, rfl, hst, hserved, hbegun, hready, hmoving, hlater⟩ := hpart id
  have hbegins : ∀ x ∈ tail ++ e :: later, ¬x.event.BeginsHoming := by
    intro x hx
    rcases List.mem_append.mp hx with hx | hx
    · exact htail x (by simp [hx])
    · rcases List.mem_cons.mp hx with rfl | hx
      · exact htail x (by simp)
      · exact (hlater x hx).1
  have hnot : ¬st.event.BeginsHoming := by
    rw [hst]
    exact fun hbegins => hbegins
  have hatStart : CleanHoming id (tail ++ e :: later) (st :: older) := by
    have hsplit : CleanHoming id [] ((tail ++ e :: later) ++ st :: older) := by simpa using hclean
    simpa using hsplit.drop hbegins
  obtain ⟨-, hneeds, holder⟩ := hatStart.resolve_left fun h => hnot h.1
  obtain ⟨hfit, hleaves⟩ := hneeds _ res hst hserved
  -- the start was accepted
  obtain ⟨s1, hbefore, he, hafter⟩ := hleads.1.entry
  obtain ⟨s2, hpast, hstart, hmotion⟩ := hbefore.entry
  rw [hst] at hstart
  obtain rfl := hfit.accepted hmoving hstart
  have hmech : (st.before.axis id).mech = conf.axisMech := by
    have hsplit : m.history = (new ++ ⟨b, .acted ⟨.setStatus .idle, ()⟩⟩ ::
        (tail ++ e :: later)) ++ st :: older := by simp [hhistory]
    refine Recorder.started_mech hrun hsplit ?_
    rw [hst]
    exact ⟨rfl, rfl⟩
  -- the motion was over when `execute` found both axes stopped
  have htailLater : LeavesHome id ((tail ++ [e]) ++ later) := by simpa using hleaves
  obtain ⟨newer, stop, mid, rfl, hstopMoving, hrecords⟩ := htailLater.released hfit hmech hst
    ⟨hpast, hst ▸ hstart⟩ hmotion (fun x hx => (hlater x hx).2) (hstill id)
  have hstopMem : stop ∈ tail ++ e :: (newer ++ stop :: mid) := by simp
  have hflag : (b.axis id).state.lsPressed .home = false := by
    have hreleased : LastReleased id .home (tail ++ e :: (newer ++ stop :: mid)) :=
      .of_mem hleaves.home ⟨stop, hstopMem, hrecords⟩
    have hrest : Leads s2 (e :: (newer ++ stop :: mid)) s1 := ⟨hmotion, he⟩
    exact hreleased.flag (hrest.append hafter)
  obtain ⟨between, press, partA, home, before, rfl, hhome, hpart, hpress⟩ :=
    holder.press hbegun hready hpast
  refine ⟨tail ++ e :: newer, stop, mid, st, between, press, partA, home, before, by simp,
    hhome, ?_, hpress, hst, hserved, hstopMoving, hrecords, hflag⟩
  intro x hx
  simp only [List.append_assoc, List.cons_append, List.mem_append, List.mem_cons] at hx hbegins hpart
  grind

/-- Part A: both axes run into their home switches, and part B begins. -/
def partBBegun : List ControllerEvent :=
  request homePacket 6 ++ .interrupt .x (.isrLsHome .low) :: .interrupt .y (.isrLsHome .low) ::
    .loop :: operations 11 ++ [.signal .quiet]

/-- A homing routine as it should be. -/
def homingRun : List ControllerEvent :=
  connected ++ partBBegun ++ .interrupt .x (.isrLsHome .high) ::
    .interrupt .y (.isrLsHome .high) :: .loop :: operations 7

theorem CleanHoming.other {id : AxisId} {later history : List Entry} {e : Entry}
    (hbegins : ¬e.event.BeginsHoming)
    (hstart : ∀ motion res, e.event ≠ .acted ⟨.axisStart id.toByte motion, res⟩)
    (h : CleanHoming id (later ++ [e]) history) : CleanHoming id later (e :: history) :=
  .inr ⟨hbegins, fun motion res hev => absurd hev (hstart motion res), h⟩

theorem start_ne {id id' : AxisId} (hne : id' ≠ id) (motion : AxisMotionSpec) (res : AxisResult)
    (motion' : AxisMotionSpec) (res' : AxisResult) :
    Happening.acted ⟨.axisStart id'.toByte motion, res⟩ ≠
      .acted ⟨.axisStart id.toByte motion', res'⟩ := by
  intro h
  have hop := StandOp.axisStart.inj (congrArg Acted.op (Happening.acted.inj h))
  exact hne (AxisId.toByte_inj.mp hop.1)

/-- The entry is no interrupt of the far switch, and reports no pressed home switch. -/
def Harmless (id : AxisId) (x : Entry) : Prop :=
  (∀ pressed, ¬x.Records id .far pressed) ∧ ¬x.Records id .home true

theorem Harmless.of_program {id : AxisId} {x : Entry} (h : ∀ e, x.event ≠ .interrupt id e) :
    Harmless id x :=
  ⟨fun _ ⟨_, hev, _⟩ => h _ hev, fun ⟨_, hev, _⟩ => h _ hev⟩

theorem Harmless.of_released {id id' : AxisId} {b : TestStand} {level : Level}
    (h : level ≠ (b.axis id').io.lsPressedLevel) :
    Harmless id ⟨b, .interrupt id' (.isrLsHome level)⟩ := by
  refine ⟨?_, ?_⟩
  · rintro pressed ⟨level', hev, -⟩
    cases hev
  · rintro ⟨level', hev, hpressed⟩
    cases hev
    exact h (by simpa using hpressed)

theorem LeavesHome.of_harmless {id : AxisId} {later : List Entry}
    (h : ∀ x ∈ later, Harmless id x) (hpulses : pulses id later < 2 ^ 30) :
    LeavesHome id later :=
  ⟨fun x hx _ => (h x hx).1, fun x hx => (h x hx).2, hpulses⟩

set_option maxRecDepth 4000 in
/-- Both axes are homed by this run. -/
theorem homing_completed_run :
    ∃ m b old, run Recorder.step (.init conf defaultCalibration) homingRun = some m ∧
      m.history = ⟨b, .acted ⟨.setStatus .idle, ()⟩⟩ :: old ∧ ∀ id, Homed id b old := by
  refine ⟨_, _, _, rfl, rfl, fun id => @homing_completed defaultCalibration homingRun _ rfl
    [] _ _ rfl rfl (not_servesStop rfl) id ?_⟩
  have hprogram : ∀ {id} {b : TestStand} {a : Acted}, Harmless id ⟨b, .acted a⟩ :=
    .of_program (by simp)
  have hround : ∀ {id} {b : TestStand}, Harmless id ⟨b, .round⟩ := .of_program (by simp)
  have hreleased : ∀ {id id'} {b : TestStand}, (b.axis id').io.lsPressedLevel = .low →
      Harmless id ⟨b, .interrupt id' (.isrLsHome .high)⟩ := fun h => .of_released (by simp [h])
  cases id with
  | x =>
      iterate 11 refine .other (fun h => h) (fun _ _ h => by cases h) ?_
      refine .other (fun h => h) (start_ne (by decide) _ _) ?_
      refine .inr ⟨fun h => h, fun _ _ _ _ => ⟨⟨rfl, by decide, roomy_zero false _⟩, ?_⟩, ?_⟩
      · refine .of_harmless (List.forall_iff_forall_mem.mp ?_) (by decide)
        exact ⟨hprogram, hprogram, hprogram, hprogram, hprogram, hprogram, hround, hreleased rfl,
          hreleased rfl, hprogram, hprogram, hprogram⟩
      -- part A, back to the HOME
      iterate 12 refine .other (fun h => h) (fun _ _ h => by cases h) ?_
      refine .other (fun h => h) (start_ne (by decide) _ _) ?_
      refine .inr ⟨fun h => h, fun _ _ _ hserved => absurd hserved (Option.some_ne_none _), ?_⟩
      refine .other (fun h => h) (fun _ _ h => by cases h) ?_
      exact .inl ⟨rfl, rfl⟩
  | y =>
      iterate 11 refine .other (fun h => h) (fun _ _ h => by cases h) ?_
      refine .inr ⟨fun h => h, fun _ _ _ _ => ⟨⟨rfl, by decide, roomy_zero false _⟩, ?_⟩, ?_⟩
      · refine .of_harmless (List.forall_iff_forall_mem.mp ?_) (by decide)
        exact ⟨hprogram, hprogram, hprogram, hprogram, hprogram, hprogram, hround, hreleased rfl,
          hreleased rfl, hprogram, hprogram⟩
      refine .other (fun h => h) (start_ne (by decide) _ _) ?_
      iterate 12 refine .other (fun h => h) (fun _ _ h => by cases h) ?_
      refine .inr ⟨fun h => h, fun _ _ _ hserved => absurd hserved (Option.some_ne_none _), ?_⟩
      refine .other (fun h => h) (start_ne (by decide) _ _) ?_
      refine .other (fun h => h) (fun _ _ h => by cases h) ?_
      exact .inl ⟨rfl, rfl⟩

/-- The far switch of the X axis is pressed, so that its start in part B is refused. -/
def homingRefused : List ControllerEvent :=
  connected ++ .interrupt .x (.isrLsFar .low) :: partBBegun ++
    .interrupt .y (.isrLsHome .high) :: .loop :: operations 7

set_option maxRecDepth 4000 in
/-- **Homing away from the home position.**  The X axis is never started in part B,
and its home switch is still pressed when the status changes to IDLE. -/
theorem homing_unfinished :
    ∃ m b old, run Recorder.step (.init conf defaultCalibration) homingRefused = some m ∧
      m.history = ⟨b, .acted ⟨.setStatus .idle, ()⟩⟩ :: old ∧ b.status = .homing ∧
      ¬ServesStop old ∧ (b.axis .x).state.lsHomePressed = true :=
  ⟨_, _, _, rfl, rfl, rfl, not_servesStop rfl, rfl⟩

end MPMTTestStand

end MpmtTestStand.Ports
