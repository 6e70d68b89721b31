import MpmtTestStand.Ports.ReportedStatus

/-!
# Which way homing drives the axes

Part A of the homing routine drives both axes in the negative direction, and part
B in the positive one.  `home_a_done` says which part the routine is in, but
nothing ties it to the motions: a HOME that arrives while an axis moves is refused
by the axis and accepted by the status.  `homing_direction`: as long as every HOME
finds each axis stopped or on a motion of part A, an axis that moves during the
homing routine executes the motion of the part that the routine is in.
-/

namespace MpmtTestStand.Ports

open MpmtTestStand.Verified
open MpmtTestStand.Verified.Run

namespace MPMTTestStand

/-! ## The motions of the homing routine -/

/-- The direction of part A, and of part B once part A is done. -/
def homingDir (done : Bool) : AxisDirection := if done then .positive else .negative

/-- A HOME starts part A, and `execute` itself starts part B. -/
def HomingServes : Bool → List Entry → Prop
  | false, history => ∃ p, served history = some p ∧ p.id = msgIdHome
  | true, history => served history = none

/-- The axis was last started by that part of the homing routine. -/
def Homes (done : Bool) (id : AxisId) (history : List Entry) : Prop :=
  ∃ newer st older cal, history = newer ++ st :: older ∧
    st.event = .acted ⟨.axisStart id.toByte (homingMotion (homingDir done) cal), .ok⟩ ∧
    HomingServes done older ∧ ∀ e ∈ newer, ¬e.event.Starts id

/-- Every axis that moves was started by that part of the homing routine. -/
def AllHome (done : Bool) (stand : TestStand) (history : List Entry) : Prop :=
  ∀ id, (stand.axis id).state.moving = true → Homes done id history

/-- In the homing routine every axis that moves was started by the current part. -/
def RightWay (stand : TestStand) (history : List Entry) : Prop :=
  stand.status = .homing → AllHome stand.homeADone stand history

/-- A HOME is dispatched. -/
def Happening.BeginsHoming : Happening → Prop
  | .acted ⟨.dispatch p, _⟩ => p.id = msgIdHome
  | _ => False

/-- Every HOME that has been dispatched found each axis stopped or on a motion of
part A. -/
def FoundReady : List Entry → Prop
  | [] => True
  | e :: history =>
      (e.event.BeginsHoming → AllHome false e.before history) ∧ FoundReady history

theorem Homes.cons {done : Bool} {id : AxisId} {history : List Entry} {e : Entry}
    (h : Homes done id history) (he : ¬e.event.Starts id) : Homes done id (e :: history) := by
  obtain ⟨newer, st, older, cal, rfl, hst, hserves, hnewer⟩ := h
  refine ⟨e :: newer, st, older, cal, rfl, hst, hserves, ?_⟩
  intro e' he'
  rcases List.mem_cons.mp he' with rfl | he'
  · exact he
  · exact hnewer e' he'

theorem AllHome.happen {done : Bool} {stand stand' : TestStand} {history : List Entry}
    {ev : Happening} (h : AllHome done stand history) (hhappens : Happens stand ev stand')
    (hev : ∀ id, ¬ev.Starts id) : AllHome done stand' (⟨stand, ev⟩ :: history) := by
  intro id hmoving
  exact (h id (hhappens.moves_on (hev id) hmoving).1).cons (hev id)

theorem AllHome.of_still {done : Bool} {stand : TestStand} {history : List Entry}
    (h : Still stand) : AllHome done stand history := by
  intro id hmoving
  rw [h id] at hmoving
  cases hmoving

/-! ## Inside the handlers -/

/-- The invariant at every point. -/
def OnWay (stand : TestStand) (history : List Entry) : Prop :=
  FoundReady history → Starting history ∨ RightWay stand history

section Homing

variable {cal : Calibration} {done : Bool} {s t : Record cal}

/-- The invariant between the functions of the main program. -/
def WayInv (_ : MPMTTestStand.Phase) (s : Record cal) : Prop :=
  FoundReady s.history → RightWay s.stand s.history

theorem Passes.foundReady (h : Passes Happening.Quiet s t) (ht : FoundReady t.history) :
    FoundReady s.history :=
  h.induct (motive := fun _ history => FoundReady history → FoundReady s.history) id
    (fun _ _ _ _ _ _ ih hready => ih hready.2) ht

theorem Passes.allHome (h : Passes Happening.Quiet s t) (hs : AllHome done s.stand s.history) :
    AllHome done t.stand t.history :=
  h.induct hs fun _ _ _ _ hev hhappens ih => ih.happen hhappens hev.not_starts

theorem Passes.rightWay (h : Passes Happening.Quiet s t) (hs : RightWay s.stand s.history) :
    RightWay t.stand t.history := by
  intro hstatus
  rw [h.homeADone]
  exact h.allHome (hs (h.status.symm.trans hstatus))

variable {phase : Phase}

theorem WayInv.quiet (h : WayInv phase s) (ht : Passes Happening.Quiet s t) :
    WayInv phase t :=
  fun hready => ht.rightWay (h (ht.foundReady hready))

theorem WayInv.onWay (h : WayInv phase s) : OnWay s.stand s.history :=
  fun hready => .inr (h hready)

theorem WayInv.of_status (h : s.stand.status ≠ .homing) : WayInv phase s :=
  fun _ hstatus => absurd hstatus h

theorem OnWay.external (h : OnWay s.stand s.history) (ht : Passes Happening.External s t) :
    OnWay t.stand t.history := by
  intro hready
  rcases h (ht.passive.quiet.foundReady hready) with hstarting | hway
  · exact .inl (hstarting.external ht)
  · exact .inr (ht.passive.quiet.rightWay hway)

/-- Storing a status other than HOMING. -/
theorem safe_leaveHoming {status : Status} (hs : OnWay s.stand s.history)
    (hstatus : status ≠ .homing) :
    SafeProg OnWay (fun _ t => t.stand.status = status) (stand (.setStatus status)) s := by
  refine .act fun t ht _ => ⟨hs.external ht, fun _ now hhappens => .ret fun u hu => ?_⟩
  have hnow : (t.happen hhappens).stand.status = status :=
    congrArg TestStand.status hhappens.setStatus_eq
  have hu' : u.stand.status = status := hu.quiet.status.trans hnow
  have hinv : WayInv .running u := .of_status (hu' ▸ hstatus)
  exact ⟨hinv.onWay, hu'⟩

/-- Storing the status anew. -/
theorem safe_keepStatus {status : Status} (hs : WayInv phase s)
    (hstatus : s.stand.status = status) :
    SafeProg OnWay (fun _ => WayInv phase) (stand (.setStatus status)) s := by
  refine .act fun t ht _ => ⟨(hs.quiet ht.passive.quiet).onWay, fun _ now hhappens => ?_⟩
  have hinv : WayInv phase (t.happen hhappens) := by
    intro hready hhoming
    have hway := hs.quiet ht.passive.quiet hready.2
    have hsame : t.stand.status = status := ht.passive.quiet.status.trans hstatus
    have hall := (hway (hsame.trans ?_)).happen hhappens fun _ => id
    · obtain rfl := hhappens.setStatus_eq
      exact hall
    · obtain rfl := hhappens.setStatus_eq
      exact hhoming
  exact .ret fun u hu => ⟨(hinv.quiet hu.quiet).onWay, hinv.quiet hu.quiet⟩

/-- Halting an axis. -/
theorem WayInv.halt {o : StandOp} (ho : o.Halts) (hs : WayInv phase s) :
    SafeProg OnWay (fun _ => WayInv phase) (stand o) s := by
  refine .act fun t ht _ => ⟨(hs.quiet ht.passive.quiet).onWay, fun r now hhappens => ?_⟩
  have hev : ∀ id, ¬(Happening.acted ⟨o, r⟩).Starts id := by
    intro id
    cases o <;> first | exact fun hstart => hstart | exact ho.elim
  have hinv : WayInv phase (t.happen hhappens) := by
    intro hready hhoming
    obtain ⟨hstatus, hdone⟩ := hhappens.halt ho
    have hway := hs.quiet ht.passive.quiet hready.2 (hstatus.symm.trans hhoming)
    have hall := hway.happen hhappens hev
    rw [← hdone] at hall
    exact hall
  exact .ret fun u hu => ⟨(hinv.quiet hu.quiet).onWay, hinv.quiet hu.quiet⟩

/-! ### The two parts of the homing routine -/

/-- What holds while that part of the routine starts the axes. -/
structure Driving (done : Bool) (s : Record cal) : Prop where
  onWay : OnWay s.stand s.history
  all : FoundReady s.history → AllHome done s.stand s.history
  serves : HomingServes done s.history

theorem Driving.external (h : Driving done s) (ht : Passes Happening.External s t) :
    Driving done t where
  onWay := h.onWay.external ht
  all hready := ht.passive.quiet.allHome (h.all (ht.passive.quiet.foundReady hready))
  serves := by
    have hserves := h.serves
    cases done with
    | false =>
        obtain ⟨p, hp, hid⟩ := hserves
        exact ⟨p, ht.passive.served.trans hp, hid⟩
    | true => exact ht.passive.served.trans hserves

/-- A start, accepted or not. -/
theorem Driving.start (h : Driving done s) {id : AxisId} {res : AxisResult} {c : Calibration}
    {now : TestStand} (hhappens : Happens s.stand
      (.acted ⟨.axisStart id.toByte (homingMotion (homingDir done) c), res⟩) now) :
    Driving done (s.happen hhappens) := by
  have hserves : HomingServes done (s.happen hhappens).history := by
    have hserves := h.serves
    cases done <;> exact hserves
  by_cases hres : res = .ok
  · subst hres
    refine ⟨fun _ => .inl (.inl rfl), fun hready id' hmoving => ?_, hserves⟩
    by_cases hid : id' = id
    · subst hid
      exact ⟨[], _, s.history, c, rfl, rfl, h.serves, by simp⟩
    · have hstart : ¬(Happening.acted
          ⟨.axisStart id.toByte (homingMotion (homingDir done) c), .ok⟩).Starts id' :=
        fun hstart => hid (AxisId.toByte_inj.mp hstart.1).symm
      exact (h.all hready.2 id' (hhappens.moves_on hstart hmoving).1).cons hstart
  · have hev : ∀ id', ¬(Happening.acted
        ⟨.axisStart id.toByte (homingMotion (homingDir done) c), res⟩).Starts id' :=
      fun _ hstart => hres hstart.2
    refine ⟨fun hready => ?_, fun hready => ?_, hserves⟩
    · rcases h.onWay hready.2 with hstarting | hway
      · exact .inl (.inr hstarting)
      · have hquiet : Passes Happening.Quiet s (s.happen hhappens) :=
          (Passes.refl _ s).happen hhappens hres
        exact .inr (hquiet.rightWay hway)
    · exact (h.all hready.2).happen hhappens hev

/-- Both starts and the writes after them. -/
theorem Driving.safe {c : Calibration} (h : Driving done s) :
    SafeProg OnWay (fun _ => WayInv .running)
      (do
        let _ ← axisStart .x (homingMotion (homingDir done) c)
        let _ ← axisStart .y (homingMotion (homingDir done) c)
        stand (.setHomeADone done)
        stand (.setStatus .homing)) s := by
  refine .act fun t ht _ => ⟨(h.external ht).onWay, fun _ now hx => ?_⟩
  have htx := (h.external ht).start hx
  refine .act fun u hu _ => ⟨(htx.external hu).onWay, fun _ now hy => ?_⟩
  have huy := (htx.external hu).start hy
  refine .act fun v hv _ => ⟨(huy.external hv).onWay, fun _ now hdone => ?_⟩
  have hall : FoundReady (v.happen hdone).history →
      AllHome done (v.happen hdone).stand (v.happen hdone).history := fun hready =>
    ((huy.external hv).all hready.2).happen hdone fun _ => id
  have hnow : (v.happen hdone).stand.homeADone = done :=
    congrArg TestStand.homeADone hdone.setHomeADone_eq
  -- from here on `home_a_done` fits the motions
  have hfits : ∀ {w : Record cal}, (FoundReady w.history → AllHome done w.stand w.history) →
      w.stand.homeADone = done → WayInv .running w := by
    intro w hw hdone hready _
    rw [hdone]
    exact hw hready
  refine .act fun w hw _ => ?_
  have hallw : FoundReady w.history → AllHome done w.stand w.history := fun hready =>
    hw.passive.quiet.allHome (hall (hw.passive.quiet.foundReady hready))
  have hdonew := hw.passive.quiet.homeADone.trans hnow
  refine ⟨(hfits hallw hdonew).onWay, fun _ now hstatus => ?_⟩
  have hinv : WayInv .running (w.happen hstatus) := by
    refine hfits (fun hready => (hallw hready.2).happen hstatus fun _ => id) ?_
    obtain rfl := hstatus.setStatus_eq
    exact hdonew
  exact .ret fun y hy => ⟨(hinv.quiet hy.quiet).onWay, hinv.quiet hy.quiet⟩

/-- **`handle_home_a`** -/
theorem WayInv.homeA (h : WayInv .running s)
    (hall : FoundReady s.history → AllHome false s.stand s.history)
    (hserves : HomingServes false s.history) :
    SafeProg OnWay (fun _ => WayInv .running) handleHomeA s := by
  refine .read (o := .getCal) trivial (fun _ ht => (h.quiet ht.quiet).onWay) ?_
  intro c t hget ht
  have hst := ht.happen hget trivial
  have hdriving : Driving false (t.happen hget) := by
    refine ⟨(h.quiet hst.quiet).onWay, fun hready => ?_, ?_⟩
    · exact hst.quiet.allHome (hall (hst.quiet.foundReady hready))
    · obtain ⟨p, hp, hid⟩ := hserves
      exact ⟨p, hst.served.trans hp, hid⟩
  exact hdriving.safe

/-- **`handle_home_b`** -/
theorem WayInv.homeB (h : WayInv .running s) (hstill : Still s.stand)
    (hserves : HomingServes true s.history) :
    SafeProg OnWay (fun _ => WayInv .running) handleHomeB s := by
  refine .read (o := .getCal) trivial (fun _ ht => (h.quiet ht.quiet).onWay) ?_
  intro c t hget ht
  have hst := ht.happen hget trivial
  have hdriving : Driving true (t.happen hget) := by
    refine ⟨(h.quiet hst.quiet).onWay, fun _ => ?_, ?_⟩
    · exact .of_still (hst.quiet.still_all hstill)
    · exact hst.served.trans hserves
  exact hdriving.safe

theorem WayInv.move (h : WayInv .running s) :
    SafeProg OnWay (fun _ => WayInv .running) handleMove s := by
  refine safe_handleMove (fun t ht => ⟨(h.quiet ht).onWay, h.quiet ht⟩) ?_
  intro t data now hstart ht _
  have hway : OnWay (t.happen hstart).stand (t.happen hstart).history :=
    fun _ => .inl (.inl rfl)
  refine (safe_leaveHoming hway (by simp)).mono fun _ u hu v hv => ?_
  have hinv : WayInv .running v := (WayInv.of_status (by simp [hu])).quiet hv
  exact ⟨hinv.onWay, hinv⟩

theorem WayInv.stop (h : WayInv .running s) :
    SafeProg OnWay (fun _ => WayInv .running) handleStop s := by
  refine World.Safe.bind ((h.halt (o := .axisStop .x) trivial).mono fun _ t ht => ?_)
  refine World.Safe.bind ((ht.halt (o := .axisStop .y) trivial).mono fun _ u hu => ?_)
  exact (safe_leaveHoming hu.onWay (by simp)).mono fun _ v hv => .of_status (by simp [hv])

/-- The end of the homing routine. -/
theorem WayInv.finishHoming (h : WayInv .running s) :
    SafeProg OnWay (fun _ => WayInv .running) finishHoming s := by
  refine World.Safe.bind ((h.halt (o := .axisReset .x) trivial).mono fun _ t ht => ?_)
  refine World.Safe.bind ((ht.halt (o := .axisReset .y) trivial).mono fun _ u hu => ?_)
  refine World.Safe.bind ((safe_leaveHoming hu.onWay (by simp)).mono fun _ v hv => ?_)
  refine SafeProg.act fun w hw _ => ?_
  have hidle : w.stand.status = .idle := hw.passive.quiet.status.trans hv
  have hinv : WayInv .running w := .of_status (by simp [hidle])
  refine ⟨hinv.onWay, fun _ now hdone => ?_⟩
  have hinv' : WayInv .running (w.happen hdone) := by
    refine .of_status ?_
    obtain rfl := hdone.setHomeADone_eq
    simp [Record.happen, hidle]
  exact .ret fun y hy => ⟨(hinv'.quiet hy.quiet).onWay, hinv'.quiet hy.quiet⟩

end Homing

/-! ## Runs -/

theorem maintains_onWay (conf : Config) (cal : Calibration) :
    Maintains conf cal OnWay WayInv where
  quiet _ _ _ hs ht := hs.quiet ht.of_phase
  holds _ _ hs := hs.onWay
  setup := by
    have hstart : WayInv .connecting (Recorder.start cal) :=
      .of_status (by simp [Recorder.start, TestStand.init])
    refine World.Safe.bind ((hstart.halt (o := .axisSetup .x _ _) trivial).mono fun _ t ht => ?_)
    exact ht.halt (o := .axisSetup .y _ _) trivial
  connected s hs :=
    (safe_leaveHoming hs.onWay (by simp)).mono fun _ t ht => .of_status (by simp [ht])
  update s hs hserved := by
    have hI := fun t (ht : Passes Happening.Passive s t) => hs.quiet ht.quiet
    have hleave : ∀ t status, Passes Happening.Passive s t → status ≠ .homing →
        SafeProg OnWay (fun _ => WayInv .running) (stand (.setStatus status)) t :=
      fun t status ht hne => (safe_leaveHoming (hI t ht).onWay hne).mono
        fun _ u hu => .of_status (by rwa [hu])
    refine safe_updateStatus (fun t ht => (hI t ht).onWay) (fun t ht _ => hI t ht) ?_ ?_ ?_ ?_ ?_
    · intro t status ht hstatus _ _
      exact safe_keepStatus (hI t ht) (ht.quiet.status.trans hstatus)
    · exact fun t ht _ _ => hleave t .fault ht (by simp)
    · exact fun t ht _ _ _ => hleave t .idle ht (by simp)
    · exact fun t ht _ _ hstill _ => (hI t ht).homeB hstill (ht.served.trans hserved)
    · exact fun t ht _ _ _ => (hI t ht).finishHoming
  serve s h hs hid := by
    have hdispatch : ∀ id, ¬(Happening.acted ⟨.dispatch s.rx.msg.packet, ()⟩).Starts id :=
      fun _ => id
    have hs' : WayInv .running (s.happen h) := fun hready hstatus =>
      (hs hready.2 hstatus).happen h hdispatch
    rcases hid with hid | hid | hid
    · simp only [hid]
      refine hs'.homeA (fun hready => ?_) ⟨_, rfl, hid⟩
      have hall : AllHome false s.stand s.history := hready.1 hid
      exact hall.happen h hdispatch
    · simp only [hid]
      exact hs'.move
    · simp only [hid]
      exact hs'.stop

/-- **Homing drives both axes the right way.**  In every run of the controller in
which every HOME found each axis stopped or on a motion of part A: while the status
is HOMING, an axis that moves was started by the current part of the homing
routine, and executes that motion in its direction.  The points are left out at
which a handler has started an axis and not stored the status yet. -/
theorem homing_direction (conf : Config) (cal : Calibration) (events : List ControllerEvent)
    (m : Recorder) (hrun : run Recorder.step (.init conf cal) events = some m)
    (hready : FoundReady m.history) (hpoint : ¬Starting m.history)
    (hstatus : m.controller.stand.status = .homing) (id : AxisId)
    (hmoving : (m.controller.stand.axis id).state.moving = true) :
    (m.controller.stand.axis id).state.dir = homingDir m.controller.stand.homeADone ∧
      Homes m.controller.stand.homeADone id m.history ∧
      ∃ c, (m.controller.stand.axis id).motion.spec =
        homingMotion (homingDir m.controller.stand.homeADone) c := by
  have hway := ((maintains_onWay conf cal).run hrun hready).resolve_left hpoint
  have hhomes := hway hstatus id hmoving
  have hsplit := hhomes
  obtain ⟨newer, st, older, c, hhistory, hst, -, hnewer⟩ := hsplit
  have hleads := Recorder.leads hrun
  rw [hhistory] at hleads
  obtain ⟨s1, -, hstart, hrest⟩ := hleads.entry
  rw [hst] at hstart
  obtain ⟨profile, -, hbegin⟩ := hstart.accepted
  obtain ⟨-, hmotion, hdir⟩ := hrest.moves_on hnewer hmoving
  rw [hbegin] at hmotion hdir
  exact ⟨hdir, hhomes, c, congrArg AxisMotion.spec hmotion⟩

/-- A HOME. -/
def homePacket : Packet := .basic msgIdHome

/-- A HOME when both axes are stopped. -/
def homed : List ControllerEvent := connected ++ request homePacket 6

set_option maxRecDepth 4000 in
/-- The X axis on its way to the home switch. -/
theorem homing_direction_homed :
    ∃ m, run Recorder.step (.init conf defaultCalibration) homed = some m ∧
      (m.controller.stand.axis .x).state.dir = homingDir false ∧ Homes false .x m.history ∧
      ∃ c, (m.controller.stand.axis .x).motion.spec = homingMotion (homingDir false) c := by
  refine ⟨_, rfl, homing_direction conf defaultCalibration homed _ rfl ?_ id rfl .x rfl⟩
  exact ⟨False.elim, False.elim, False.elim, False.elim, False.elim,
    fun _ => .of_still fun id => by cases id <;> rfl,
    False.elim, False.elim, False.elim, False.elim, False.elim, trivial⟩

/-- A HOME during a MOVE. -/
def homeWhileMoving : List ControllerEvent :=
  connected ++ request moveX 4 ++ answered ++ .loop :: operations 3 ++ request homePacket 6

set_option maxRecDepth 4000 in
/-- **The wrong way.**  A HOME arrives while the X axis moves away from the home
switch.  The axis refuses the start and goes on with the MOVE, and the status is
HOMING. -/
theorem homing_wrong_way :
    ∃ m, run Recorder.step (.init conf defaultCalibration) homeWhileMoving = some m ∧
      ¬Starting m.history ∧ m.controller.stand.status = .homing ∧
      m.controller.stand.homeADone = false ∧
      (m.controller.stand.axis .x).state.moving = true ∧
      (m.controller.stand.axis .x).state.dir = .positive :=
  ⟨_, rfl, id, rfl, rfl, rfl, rfl⟩

end MPMTTestStand

end MpmtTestStand.Ports
