import MpmtTestStand.Ports.StandRules

/-!
# What the status says about motion

The status is a summary that the main program stores and does not keep up while
interrupts stop the axes.  `status_still`: whenever it is IDLE or FAULT no axis
moves, except inside the handlers that start an axis first and store the status
afterwards.
-/

namespace MpmtTestStand.Ports

open MpmtTestStand.Verified
open MpmtTestStand.Verified.Run

namespace MPMTTestStand

/-- A start has been accepted, and the handler has not stored the status yet. -/
def Starting : List Entry → Prop
  | ⟨_, .interrupt _ _⟩ :: history => Starting history
  | ⟨_, .acted ⟨.setHomeADone _, _⟩⟩ :: history => Starting history
  | ⟨_, .acted ⟨.axisStart _ _, res⟩⟩ :: history => res = .ok ∨ Starting history
  | _ => False

/-- The status says that no axis moves. -/
def SaysStill (status : Status) : Prop := status = .idle ∨ status = .fault

/-- What the status says about motion is true. -/
def Truthful (stand : TestStand) (history : List Entry) : Prop :=
  SaysStill stand.status → Still stand ∨ Starting history

/-- Between the functions of the main program there is no exception. -/
def AtRest {cal : Calibration} (phase : MPMTTestStand.Phase) (s : Record cal) : Prop :=
  phase = .connecting ∨ SaysStill s.stand.status → Still s.stand

section Status

variable {cal : Calibration} {phase : Phase} {s t : Record cal}

theorem AtRest.quiet (h : AtRest phase s) (ht : Passes Happening.Quiet s t) :
    AtRest phase t := by
  intro hstatus
  rw [ht.status] at hstatus
  exact ht.still_all (h hstatus)

theorem AtRest.truthful (h : AtRest phase s) : Truthful s.stand s.history :=
  fun hstatus => .inl (h (.inr hstatus))

theorem AtRest.of_still (h : Still s.stand) : AtRest phase s := fun _ => h

/-! ## Inside the handlers -/

theorem Starting.external (h : Starting s.history) (ht : Passes Happening.External s t) :
    Starting t.history := by
  refine ht.induct (motive := fun _ history => Starting history) h ?_
  intro stand history ev stand' hev _ ih
  cases ev with
  | interrupt id e => exact ih
  | _ => exact hev.elim

theorem Truthful.external (h : Truthful s.stand s.history)
    (ht : Passes Happening.External s t) : Truthful t.stand t.history := by
  intro hstatus
  rw [ht.passive.quiet.status] at hstatus
  rcases h hstatus with hstill | hstarting
  · exact .inl (ht.passive.quiet.still_all hstill)
  · exact .inr (hstarting.external ht)

/-- A start, accepted or not. -/
theorem Truthful.axisStart {raw : UInt8} {motion : AxisMotionSpec} {res : AxisResult}
    {stand : TestStand} (h : Truthful s.stand s.history)
    (hhappens : Happens s.stand (.acted ⟨.axisStart raw motion, res⟩) stand) :
    Truthful stand (s.happen hhappens).history := by
  intro hstatus
  by_cases hres : res = .ok
  · exact .inr (.inl hres)
  · obtain rfl := hhappens.refused hres
    rcases h hstatus with hstill | hstarting
    · exact .inl hstill
    · exact .inr (.inr hstarting)

/-- Storing a status that allows the axes to move. -/
theorem safe_setStatus {status : Status} (hs : Truthful s.stand s.history)
    (hstatus : SaysStill status → Still s.stand) :
    SafeProg Truthful (fun _ => AtRest .running) (stand (.setStatus status)) s := by
  refine .act fun t ht _ => ⟨hs.external ht, fun _ stand hhappens => ?_⟩
  have hrest : AtRest .running (t.happen hhappens) := by
    intro hclaim
    obtain rfl := hhappens.setStatus_eq
    have hstill := ht.passive.quiet.still_all (hstatus (hclaim.resolve_left (by simp)))
    exact hstill.setStatus status
  exact .ret fun u hu => ⟨(hrest.quiet hu.quiet).truthful, hrest.quiet hu.quiet⟩

/-- Both starts of a homing routine. -/
theorem safe_startBoth {motion : AxisMotionSpec} {done : Bool}
    (hs : Truthful s.stand s.history) :
    SafeProg Truthful (fun _ => AtRest .running)
      (do
        let _ ← axisStart .x motion
        let _ ← axisStart .y motion
        stand (.setHomeADone done)
        stand (.setStatus .homing)) s := by
  refine .act fun t ht _ => ⟨hs.external ht, fun _ stand hx => ?_⟩
  have htx := (hs.external ht).axisStart hx
  refine .act fun u hu _ => ⟨htx.external hu, fun _ stand hy => ?_⟩
  have huy := (htx.external hu).axisStart hy
  refine .act fun v hv _ => ⟨huy.external hv, fun _ stand hdone => ?_⟩
  refine safe_setStatus ?_ fun h => ?_
  · obtain rfl := hdone.setHomeADone_eq
    intro hstatus
    rcases huy.external hv hstatus with hstill | hstarting
    · exact .inl (hstill.setHomeADone done)
    · exact .inr hstarting
  · rcases h with h | h <;> cases h

theorem AtRest.homeA (h : AtRest .running s) :
    SafeProg Truthful (fun _ => AtRest .running) handleHomeA s :=
  .read (o := .getCal) trivial (fun _ ht => (h.quiet ht.quiet).truthful)
    fun _ _ hget ht => safe_startBoth
      (h.quiet (ht.happen hget trivial).quiet).truthful

theorem AtRest.homeB (h : AtRest .running s) :
    SafeProg Truthful (fun _ => AtRest .running) handleHomeB s :=
  .read (o := .getCal) trivial (fun _ ht => (h.quiet ht.quiet).truthful)
    fun _ _ hget ht => safe_startBoth
      (h.quiet (ht.happen hget trivial).quiet).truthful

theorem AtRest.move (h : AtRest .running s) :
    SafeProg Truthful (fun _ => AtRest .running) handleMove s := by
  refine safe_handleMove (fun t ht => ⟨(h.quiet ht).truthful, h.quiet ht⟩) ?_
  intro t data now hstart ht _
  refine (safe_setStatus ((h.quiet ht.quiet).truthful.axisStart hstart) ?_).mono
    fun _ u hu v hv => ⟨(hu.quiet hv).truthful, hu.quiet hv⟩
  rintro (h | h) <;> cases h

/-- Stopping an axis. -/
theorem Truthful.axisStop {id : AxisId} {r : Unit} {stand : TestStand}
    (h : SaysStill s.stand.status → Still s.stand)
    (hhappens : Happens s.stand (.acted ⟨.axisStop id, r⟩) stand) :
    SaysStill stand.status → Still stand := by
  obtain rfl := hhappens.axisStop_eq
  intro hstatus
  rw [TestStand.status_setAxis] at hstatus
  exact .setAxis rfl fun id' _ => h hstatus id'

theorem AtRest.stop (h : AtRest .running s) :
    SafeProg Truthful (fun _ => AtRest .running) handleStop s := by
  refine .act fun t ht _ => ⟨(h.quiet ht.passive.quiet).truthful, fun _ now hx => ?_⟩
  have hclaim := Truthful.axisStop (fun hs => h.quiet ht.passive.quiet (.inr hs)) hx
  refine .act fun u hu _ => ?_
  have hclaim' : SaysStill u.stand.status → Still u.stand := by
    intro hstatus
    rw [hu.passive.quiet.status] at hstatus
    exact hu.passive.quiet.still_all (hclaim hstatus)
  refine ⟨fun hstatus => .inl (hclaim' hstatus), fun _ now hy => ?_⟩
  have hclaim'' := Truthful.axisStop hclaim' hy
  refine safe_setStatus (fun hstatus => .inl (hclaim'' hstatus)) fun _ => ?_
  -- both axes have been stopped
  obtain rfl := hy.axisStop_eq
  refine .setAxis rfl fun id hid => ?_
  have hidx : id = .x := by cases id <;> first | rfl | exact absurd rfl hid
  subst hidx
  refine hu.passive.quiet.still ?_
  obtain rfl := hx.axisStop_eq
  show ((t.stand.setAxis .x (t.stand.axis .x).stopAxis).axis .x).state.moving = false
  rw [TestStand.axis_setAxis]
  rfl

/-- The end of the homing routine. -/
theorem safe_finishHoming (hs : Still s.stand) :
    SafeProg Truthful (fun _ => AtRest .running) finishHoming s := by
  have hreset : ∀ {t : Record cal} {id : AxisId} {r : Unit} {now : TestStand},
      Still t.stand → Happens t.stand (.acted ⟨.axisReset id, r⟩) now → Still now := by
    intro t id r now ht hhappens
    obtain rfl := hhappens.axisReset_eq
    exact .setAxis rfl fun id' _ => ht id'
  refine .act fun t ht _ => ?_
  have ht' := ht.passive.quiet.still_all hs
  refine ⟨fun _ => .inl ht', fun _ now hx => ?_⟩
  have hx' := hreset ht' hx
  refine .act fun u hu _ => ?_
  have hu' := hu.passive.quiet.still_all hx'
  refine ⟨fun _ => .inl hu', fun _ now hy => ?_⟩
  have hy' := hreset hu' hy
  show SafeProg Truthful _ (stand (.setStatus .idle) >>= fun _ =>
    stand (.setHomeADone false)) _
  refine World.Safe.bind ((safe_setStatus (fun _ => .inl hy') fun _ => hy').mono
    fun _ v hv => ?_)
  refine SafeProg.act fun w hw _ => ?_
  have hw' := hv.quiet hw.passive.quiet
  refine ⟨hw'.truthful, fun _ now hdone => ?_⟩
  have hrest : AtRest .running (w.happen hdone) := by
    obtain rfl := hdone.setHomeADone_eq
    exact fun hstatus => (hw' hstatus).setHomeADone false
  exact SafeProg.ret fun y hy => ⟨(hrest.quiet hy.quiet).truthful, hrest.quiet hy.quiet⟩

/-- The two calls of `axis_setup`. -/
theorem safe_setupAxes (conf : Config) (hs : Still s.stand) :
    SafeProg Truthful (fun _ => AtRest .connecting) (setupAxes conf) s := by
  have hsetup : ∀ {t : Record cal} {id : AxisId} {io : AxisIO} {mech : AxisMech} {r : Unit}
      {now : TestStand}, Still t.stand → Happens t.stand (.acted ⟨.axisSetup id io mech, r⟩) now →
      Still now := by
    intro t id io mech r now ht hhappens
    obtain rfl := hhappens.axisSetup_eq
    exact .setAxis rfl fun id' _ => ht id'
  refine .act fun t ht _ => ?_
  have ht' := ht.passive.quiet.still_all hs
  refine ⟨fun _ => .inl ht', fun _ now hx => ?_⟩
  have hx' := hsetup ht' hx
  refine .act fun u hu _ => ?_
  have hu' := hu.passive.quiet.still_all hx'
  refine ⟨fun _ => .inl hu', fun _ now hy => ?_⟩
  have hy' := hsetup hu' hy
  refine .ret fun v hv => ?_
  have hv' := hv.quiet.still_all hy'
  exact ⟨fun _ => .inl hv', .of_still hv'⟩

end Status

/-! ## Runs -/

theorem maintains_truthful (conf : Config) (cal : Calibration) :
    Maintains conf cal Truthful AtRest where
  quiet _ _ _ hs ht := hs.quiet ht.of_phase
  holds _ _ hs := hs.truthful
  setup := safe_setupAxes conf fun id => by cases id <;> rfl
  connected s hs := safe_setStatus hs.truthful fun _ => hs (.inl rfl)
  update s hs _ := by
    have hI := fun t (ht : Passes Happening.Passive s t) => hs.quiet ht.quiet
    refine safe_updateStatus (fun t ht => (hI t ht).truthful) (fun t ht _ => hI t ht) ?_ ?_ ?_ ?_ ?_
    · intro t status ht _ hstatus _
      refine safe_setStatus (hI t ht).truthful fun hclaim => ?_
      rcases hstatus with rfl | rfl <;> rcases hclaim with h | h <;> cases h
    · exact fun t ht _ hstill => safe_setStatus (hI t ht).truthful fun _ => hstill
    · exact fun t ht _ hstill _ => safe_setStatus (hI t ht).truthful fun _ => hstill
    · exact fun t ht _ _ _ _ => (hI t ht).homeB
    · exact fun t _ _ _ hstill => safe_finishHoming hstill
  serve s h hs hid := by
    have hs' : AtRest .running (s.happen h) := hs
    rcases hid with hid | hid | hid <;> simp only [hid]
    · exact hs'.homeA
    · exact hs'.move
    · exact hs'.stop

/-- **The status is truthful about motion.**  In every run of the controller: when
the status is IDLE or FAULT, neither axis moves, unless a handler has started one
and not stored the status yet. -/
theorem status_still (conf : Config) (cal : Calibration) (events : List ControllerEvent)
    (m : Recorder) (hrun : run Recorder.step (.init conf cal) events = some m)
    (hstatus : m.controller.stand.status = .idle ∨ m.controller.stand.status = .fault) :
    (∀ id, (m.controller.stand.axis id).state.moving = false) ∨ Starting m.history :=
  (maintains_truthful conf cal).run hrun hstatus

/-- A message comes in and is acknowledged, and the next `n` operations are
performed. -/
def request (p : Packet) (n : Nat) : List ControllerEvent := frameIn p ++ frameOut ++ operations n

/-- An answer goes out and is acknowledged. -/
def answered : List ControllerEvent := frameOut ++ frameIn ackPacket

/-- A MOVE of the X axis away from the home switch. -/
def moveX : Packet := TestStandCommHost.movePacket .x .positive 75 1000

/-- A MOVE that the far switch puts an end to. -/
def moveIntoFar : List ControllerEvent :=
  connected ++ request moveX 4 ++ answered ++ .interrupt .x (.isrLsFar .low) ::
    .loop :: operations 6

set_option maxRecDepth 4000 in
/-- The far switch ends a MOVE, and the status becomes FAULT. -/
theorem status_still_fault :
    ∃ m, run Recorder.step (.init conf defaultCalibration) moveIntoFar = some m ∧
      m.controller.stand.status = .fault ∧
      ((∀ id, (m.controller.stand.axis id).state.moving = false) ∨ Starting m.history) :=
  ⟨_, rfl, rfl, status_still conf defaultCalibration moveIntoFar _ rfl (.inr rfl)⟩

end MPMTTestStand

end MpmtTestStand.Ports
