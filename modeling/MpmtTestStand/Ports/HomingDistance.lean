import MpmtTestStand.Ports.MotionTracking
import MpmtTestStand.Ports.MoveEnd

/-!
# How far homing drives an axis

The motions of the homing routine ask for `INT32_MAX` counts, so that a switch or a
STOP ends them.  But the targets are positions: the second one is the start plus
all but the last segment, and where this leaves the range of `int32_t` it wraps to
the other end, and the motion is past it at once.  Then it is past the third one
too, and `handle_isr_accel` stops the axis.
`homing_not_finished`: if there is room for the second target, this does not happen
within `2^30` counts.
-/

namespace MpmtTestStand.Ports

open MpmtTestStand.Verified
open MpmtTestStand.Verified.Run

namespace MPMTTestStand

/-! ## Motions in the history -/

/-- An encoder interrupt of the axis. -/
def Happening.isPulse (id : AxisId) : Happening → Bool
  | .interrupt id' .isrEncoder => id' = id
  | _ => false

/-- The number of encoder interrupts of the axis. -/
def pulses (id : AxisId) (history : List Entry) : Nat :=
  history.countP fun e => e.event.isPulse id

theorem pulses_cons (id : AxisId) (e : Entry) (history : List Entry) :
    pulses id (e :: history) = pulses id history + if e.event.isPulse id then 1 else 0 := by
  unfold pulses
  rw [List.countP_cons]

section Tracking

variable {p0 : Int} {neg : Bool} {total : Nat} {profile : VelProfile}
  {part : Partition neg total profile} {n : Nat} {id : AxisId}

/-- While the axis moves, whatever happens keeps the motion on its targets, if they
can be represented. -/
theorem Happens.tracking {s s' : TestStand} {ev : Happening} (h : Happens s ev s')
    (hstart : ¬ev.Starts id) (hmoving : (s'.axis id).state.moving = true)
    (ht : Tracking p0 neg total profile part n (s.axis id))
    (hnext : ev.isPulse id = true → FitsInt32 (p0 + sign neg * (n + 1 : Nat)))
    (hhold : FitsInt32 (p0 + sign neg * segmentEnd part .hold))
    (hdecel : segmentEnd part .hold ≤ n → FitsInt32 (p0 + sign neg * total)) :
    Tracking p0 neg total profile part (n + if ev.isPulse id then 1 else 0) (s'.axis id) := by
  rcases h.axis id with ⟨io, mech, r, -, heq⟩ | ⟨hon, heq⟩ | ⟨ae, hon, heq⟩
  · rw [heq] at hmoving
    cases hmoving
  · have hpulse : ev.isPulse id = false := by
      cases ev with
      | interrupt id' ae =>
          cases ae with
          | isrEncoder =>
              by_contra hpulse
              have hid : id' = id := by simpa [Happening.isPulse] using hpulse
              simp [Happening.onAxis, hid] at hon
          | _ => rfl
      | _ => rfl
    rw [heq, hpulse]
    exact ht
  · rcases Happening.onAxis_program hon with rfl | ⟨rfl, -⟩ | ⟨rfl, -⟩ | ⟨motion, res, rfl, rfl⟩
    · rw [heq] at hmoving ⊢
      cases ae with
      | isrEncoder =>
          have hpulse : (Happening.interrupt id .isrEncoder).isPulse id = true := by
            simp [Happening.isPulse]
          rw [hpulse]
          exact ht.encoder (hnext hpulse)
      | isrStep => exact ht.step
      | isrAccel => exact ht.accel_of_fits (fun _ => hhold) fun _ => hdecel
      | isrLsHome level => cases hmoving
      | isrLsFar level => cases hmoving
      | start motion =>
          cases h with
          | interrupt _ _ he => exact he.elim
      | stop => cases hmoving
      | reset => cases hmoving
    · rw [heq] at hmoving
      cases hmoving
    · rw [heq] at hmoving
      cases hmoving
    · obtain rfl := h.refused fun hres => hstart ⟨rfl, hres⟩
      exact ht

/-- The same along a history. -/
theorem Leads.tracking {s0 s : TestStand} {mid : List Entry} (h : Leads s0 mid s)
    (hstart : ∀ e ∈ mid, ¬e.event.Starts id) (hmoving : (s.axis id).state.moving = true)
    (h0 : Tracking p0 neg total profile part 0 (s0.axis id))
    (hnext : ∀ n, n ≤ pulses id mid → FitsInt32 (p0 + sign neg * n))
    (hhold : FitsInt32 (p0 + sign neg * segmentEnd part .hold))
    (hdecel : segmentEnd part .hold ≤ pulses id mid → FitsInt32 (p0 + sign neg * total)) :
    Tracking p0 neg total profile part (pulses id mid) (s.axis id) := by
  induction mid generalizing s with
  | nil =>
      obtain rfl : s = s0 := h
      exact h0
  | cons e mid ih =>
      have he := hstart e (by simp)
      have hbefore := (h.2.moves_on he hmoving).1
      rw [pulses_cons] at hnext hdecel ⊢
      have ht := ih h.1 (fun x hx => hstart x (by simp [hx])) hbefore
        (fun n hn => hnext n (by omega)) fun hle => hdecel (by omega)
      refine h.2.tracking he hmoving ht (fun hpulse => ?_) hhold fun hle => hdecel (by omega)
      rw [hpulse, if_pos rfl] at hnext
      exact hnext _ (Nat.le_refl _)

end Tracking

/-! ## The motions of the homing routine -/

/-- How far from its start a motion of the homing routine looks within `2^30`
counts: to the end of HOLD, or to the very end if HOLD ends before. -/
def homingReach (profile : VelProfile) : Nat :=
  let hold := (profile.distAccel.toInt + profile.distHold.toInt).natAbs
  if 2 ^ 30 ≤ hold then hold else 2 ^ 31 - 1

/-- There is room for the targets of a motion of the homing routine from `p0`. -/
def Roomy (neg : Bool) (c : Calibration) (p0 : Int) : Prop :=
  ∀ profile, Axis.motionProfile conf.axisMech (homingMotion (signDir neg) c) = some profile →
    FitsInt32 (p0 + sign neg * homingReach profile)

theorem homingReach_eq {neg : Bool} {total : Nat} {profile : VelProfile}
    (part : Partition neg total profile) :
    homingReach profile =
      if 2 ^ 30 ≤ segmentEnd part .hold then segmentEnd part .hold else 2 ^ 31 - 1 := by
  have habs : (profile.distAccel.toInt + profile.distHold.toInt).natAbs =
      segmentEnd part .hold := by
    rw [part.distAccel, part.distHold, ← Int.mul_add, Int.natAbs_mul]
    have hsign : (sign neg).natAbs = 1 := by cases neg <;> rfl
    rw [hsign, Nat.one_mul, segmentEnd]
    omega
  rw [homingReach, habs]

theorem homingMotion_total (dir : AxisDirection) (c : Calibration) :
    (homingMotion dir c).totalCounts.toNat = 2 ^ 31 - 1 := rfl

/-- From position zero there always is. -/
theorem roomy_zero (neg : Bool) (c : Calibration) : Roomy neg c 0 := by
  intro profile hprofile
  have htotal := homingMotion_total (signDir neg) c
  obtain ⟨part⟩ := motionProfile_partition rfl (by omega) hprofile
  have hend := segmentEnd_le part .hold
  have hle : homingReach profile ≤ 2 ^ 31 - 1 := by
    rw [homingReach_eq part]
    split <;> omega
  cases neg <;> simp only [FitsInt32, sign, if_true, Bool.false_eq_true, if_false] <;> omega

/-- **A motion of the homing routine is not ended by its target.** -/
theorem Leads.not_finished {s0 : TestStand} {st fin : Entry} {mid old : List Entry}
    {id : AxisId} {neg : Bool} {c : Calibration}
    (h : Leads s0 (mid ++ st :: old) fin.before) (hmech : (st.before.axis id).mech = conf.axisMech)
    (hst : st.event = .acted ⟨.axisStart id.toByte (homingMotion (signDir neg) c), .ok⟩)
    (hmid : ∀ e ∈ mid, ¬e.event.Starts id)
    (hmoving : (fin.before.axis id).state.moving = true)
    (hpulses : pulses id mid < 2 ^ 30)
    (hroom : Roomy neg c (st.before.axis id).state.encoderCurrent.toInt) :
    ¬fin.Finishes id := by
  rintro ⟨-, hseg, htarget⟩
  obtain ⟨s1, -, hstart, hrest⟩ := h.entry
  rw [hst] at hstart
  obtain ⟨profile, hprofile, hbegin⟩ := hstart.accepted
  rw [hmech] at hprofile
  have htotal := homingMotion_total (signDir neg) c
  obtain ⟨part⟩ := motionProfile_partition rfl (by omega) hprofile
  have hp0 := toInt_fits (st.before.axis id).state.encoderCurrent
  have hreach := hroom profile hprofile
  have hend := segmentEnd_le part .hold
  have haccel : part.accel ≤ segmentEnd part .hold := Nat.le_add_right ..
  rw [homingReach_eq part] at hreach
  generalize hfar : (if 2 ^ 30 ≤ segmentEnd part .hold then segmentEnd part .hold
    else 2 ^ 31 - 1) = far at hreach
  have hlong : 2 ^ 30 ≤ far ∧ segmentEnd part .hold ≤ far := by
    rw [← hfar]
    split <;> constructor <;> omega
  have h0 : Tracking (st.before.axis id).state.encoderCurrent.toInt neg _ profile part 0
      (s1.axis id) := by
    rw [hbegin]
    exact beginMotion_tracking rfl part (fits_between hp0 hreach (by omega))
  have ht := hrest.tracking hmid hmoving h0 (fun n hn => fits_between hp0 hreach (by omega))
    (fits_between hp0 hreach hlong.2) fun hle => by
      -- HOLD has ended, so the reach is the whole distance
      rw [if_neg (by omega)] at hfar
      rwa [htotal, hfar]
  have hpast := (ht.atTarget_iff hmoving).mp htarget
  rw [hseg, segmentEnd] at hpast
  omega

/-! ## What the program does to a motion -/

/-- When an axis has just been started, it had been set up; when one has just been
halted, both were stopped or a STOP is being handled. -/
def Proper (conf : Config) : List Entry → Prop
  | [] => True
  | e :: history =>
      (∀ id, e.event.Starts id → (e.before.axis id).mech = conf.axisMech) ∧
      (e.event.Halts → Still e.before ∨
        (ServesStop history ∧ ∃ id, e.event = .acted ⟨.axisStop id, ()⟩))

/-- Both axes have been set up. -/
def SetUp (conf : Config) (stand : TestStand) : Prop :=
  ∀ id, (stand.axis id).mech = conf.axisMech

/-- The mechanics of an axis after an operation that halts one. -/
def mechAfter (id : AxisId) (mech : AxisMech) : StandOp → AxisMech
  | .axisSetup id' _ mech' => if id' = id then mech' else mech
  | _ => mech

/-- What an operation that halts an axis does to the axes. -/
theorem Happens.halt_axes {s s' : TestStand} {o : StandOp} {r : o.Res}
    (h : Happens s (.acted ⟨o, r⟩) s') (ho : o.Halts) :
    (Still s → Still s') ∧ ∀ id, (s'.axis id).mech = mechAfter id (s.axis id).mech o := by
  have hset : ∀ (id : AxisId) (axis : Axis), axis.state.moving = false →
      Still s → Still (s.setAxis id axis) := fun id axis haxis hs => .setAxis haxis fun id' _ => hs id'
  cases o with
  | axisSetup id io mech =>
      rw [h.axisSetup_eq]
      refine ⟨hset id _ rfl, fun id' => ?_⟩
      by_cases hid : id = id'
      · subst hid
        rw [TestStand.axis_setAxis, mechAfter, if_pos rfl]
        rfl
      · rw [TestStand.axis_setAxis_ne s _ (Ne.symm hid), mechAfter, if_neg hid]
  | axisStop id =>
      rw [h.axisStop_eq]
      refine ⟨hset id _ rfl, fun id' => ?_⟩
      by_cases hid : id = id'
      · subst hid
        rw [TestStand.axis_setAxis]
        rfl
      · rw [TestStand.axis_setAxis_ne s _ (Ne.symm hid)]
        rfl
  | axisReset id =>
      rw [h.axisReset_eq]
      refine ⟨hset id _ rfl, fun id' => ?_⟩
      by_cases hid : id = id'
      · subst hid
        rw [TestStand.axis_setAxis]
        rfl
      · rw [TestStand.axis_setAxis_ne s _ (Ne.symm hid)]
        rfl
  | _ => exact ho.elim

section Proper

variable {conf : Config} {cal : Calibration} {s t : Record cal}

/-- The invariant between the functions of the main program. -/
structure ProperInv (conf : Config) (phase : MPMTTestStand.Phase) (s : Record cal) : Prop where
  proper : Proper conf s.history
  setUp : SetUp conf s.stand

variable {phase : Phase}

theorem Passes.proper (h : Passes Happening.Quiet s t) (hs : Proper conf s.history) :
    Proper conf t.history :=
  h.induct (motive := fun _ history => Proper conf history) hs fun _ _ _ _ hev _ _ =>
    ⟨fun id hstart => absurd hstart (hev.not_starts id), fun hhalts => absurd hhalts hev.not_halts⟩

theorem ProperInv.quiet (h : ProperInv conf phase s) (ht : Passes Happening.Quiet s t) :
    ProperInv conf phase t :=
  ⟨ht.proper h.proper, fun id => (ht.mech id).trans (h.setUp id)⟩

/-- Any happening that does not halt an axis. -/
theorem ProperInv.happen (h : ProperInv conf phase s) {ev : Happening} {now : TestStand}
    (hhappens : Happens s.stand ev now) (hev : ¬ev.Halts) :
    ProperInv conf phase (s.happen hhappens) :=
  ⟨⟨fun id _ => h.setUp id, fun hhalts => absurd hhalts hev⟩,
    fun id => (hhappens.mech hev id).trans (h.setUp id)⟩

/-- Programs that go onward keep the invariant. -/
theorem ProperInv.onward {p : StandProg Unit} (hp : Prog.Only Onward p)
    (h : ProperInv conf phase s) :
    SafeProg (fun _ history => Proper conf history) (fun _ => ProperInv conf phase) p s := by
  refine World.Safe.of_only hp ?_ ?_ (fun _ h => h.proper) h
  · rintro s t hs ⟨id, e, he, rfl⟩
    exact hs.happen (.interrupt id e he) fun hhalts => hhalts
  · intro o s r t ho hs hdoes
    cases o with
    | look =>
        obtain ⟨-, rfl⟩ := hdoes
        exact hs
    | serWrite _ | checkForMessage | recvMessage _ =>
        obtain ⟨rx, rfl⟩ := hdoes
        exact { hs with }
    | act o =>
        obtain ⟨now, hhappens, rfl⟩ := hdoes
        refine hs.happen hhappens ?_
        cases o <;> first | exact fun hhalts => hhalts | exact ho.elim

/-- Storing IDLE. -/
theorem ProperInv.storeIdle (h : ProperInv conf phase s) :
    SafeProg (fun _ history => Proper conf history) (fun _ => ProperInv conf phase)
      (stand (.setStatus .idle)) s := by
  refine .act fun t ht _ => ⟨ht.passive.quiet.proper h.proper, fun r now hhappens => ?_⟩
  have hinv := (h.quiet ht.passive.quiet).happen hhappens fun hhalts => hhalts
  exact .ret fun u hu => ⟨(hinv.quiet hu.quiet).proper, hinv.quiet hu.quiet⟩

/-- Halting an axis that is stopped, or because of a STOP. -/
theorem safe_haltProperly {o : StandOp} (ho : o.Halts) (hs : Proper conf s.history)
    (hok : Still s.stand ∨ (ServesStop s.history ∧ ∃ id, o = .axisStop id)) :
    SafeProg (fun _ history => Proper conf history)
      (fun _ t => Proper conf t.history ∧ (Still s.stand → Still t.stand) ∧
        served t.history = served s.history ∧
        ∀ id, (t.stand.axis id).mech = mechAfter id (s.stand.axis id).mech o)
      (stand o) s := by
  refine .act fun t ht _ => ⟨ht.passive.quiet.proper hs, fun r now hhappens => ?_⟩
  have hserved : served (t.happen hhappens).history = served t.history := by
    cases o <;> first | rfl | exact ho.elim
  have hnow : Proper conf (t.happen hhappens).history := by
    refine ⟨fun id hstart => ?_, fun _ => ?_⟩
    · cases o <;> first | exact hstart.elim | exact ho.elim
    · rcases hok with hstill | ⟨⟨p, hp, hid⟩, id, rfl⟩
      · exact .inl (ht.passive.quiet.still_all hstill)
      · exact .inr ⟨⟨p, ht.passive.served.trans hp, hid⟩, id, rfl⟩
  obtain ⟨hstill, hmech⟩ := hhappens.halt_axes ho
  refine .ret fun u hu => ⟨hu.quiet.proper hnow, hu.quiet.proper hnow, fun hs => ?_, ?_, fun id => ?_⟩
  · exact hu.quiet.still_all (hstill (ht.passive.quiet.still_all hs))
  · exact hu.served.trans (hserved.trans ht.passive.served)
  · rw [hu.quiet.mech id]
    exact (hmech id).trans (by rw [ht.passive.quiet.mech id])

theorem ProperInv.stop (h : ProperInv conf .running s) (hstop : ServesStop s.history) :
    SafeProg (fun _ history => Proper conf history) (fun _ => ProperInv conf .running)
      handleStop s := by
  obtain ⟨p, hp, hid⟩ := hstop
  refine World.Safe.bind ((safe_haltProperly (o := .axisStop .x) trivial h.proper
    (.inr ⟨⟨p, hp, hid⟩, _, rfl⟩)).mono ?_)
  rintro - t ⟨ht, -, hst, hmech⟩
  refine World.Safe.bind ((safe_haltProperly (o := .axisStop .y) trivial ht
    (.inr ⟨⟨p, hst.trans hp, hid⟩, _, rfl⟩)).mono ?_)
  rintro - u ⟨hu, -, -, hmech'⟩
  have hinv : ProperInv conf .running u :=
    ⟨hu, fun id => (hmech' id).trans ((hmech id).trans (h.setUp id))⟩
  exact hinv.storeIdle

theorem ProperInv.finish (h : ProperInv conf .running s) (hstill : Still s.stand) :
    SafeProg (fun _ history => Proper conf history) (fun _ => ProperInv conf .running)
      finishHoming s := by
  refine World.Safe.bind ((safe_haltProperly (o := .axisReset .x) trivial h.proper
    (.inl hstill)).mono ?_)
  rintro - t ⟨ht, hst, -, hmech⟩
  refine World.Safe.bind ((safe_haltProperly (o := .axisReset .y) trivial ht
    (.inl (hst hstill))).mono ?_)
  rintro - u ⟨hu, -, -, hmech'⟩
  have hinv : ProperInv conf .running u :=
    ⟨hu, fun id => (hmech' id).trans ((hmech id).trans (h.setUp id))⟩
  refine World.Safe.bind (hinv.storeIdle.mono fun _ v hv => ?_)
  exact hv.onward (.perform (S := linkSig standSig) trivial)

end Proper

theorem maintains_proper (conf : Config) (cal : Calibration) :
    Maintains conf cal (fun _ history => Proper conf history) (ProperInv conf) where
  quiet _ _ _ hs ht := hs.quiet ht.of_phase
  holds _ _ hs := hs.proper
  setup := by
    have hproper : Proper conf (Recorder.start cal).history := trivial
    have hstill : Still (Recorder.start cal).stand := fun id => by cases id <;> rfl
    refine World.Safe.bind ((safe_haltProperly (o := .axisSetup .x _ _) trivial hproper
      (.inl hstill)).mono ?_)
    rintro - t ⟨ht, hst, -, hmech⟩
    refine (safe_haltProperly (o := .axisSetup .y _ _) trivial ht (.inl (hst hstill))).mono ?_
    rintro - u ⟨hu, -, -, hmech'⟩
    refine ⟨hu, fun id => ?_⟩
    rw [hmech' id, hmech id]
    cases id <;> rfl
  connected s hs := by
    have hinv : ProperInv conf .running s := { hs with }
    exact hinv.storeIdle
  update s hs _ := by
    have hI := fun t (ht : Passes Happening.Passive s t) => hs.quiet ht.quiet
    have hstore : ∀ t status, Passes Happening.Passive s t → status ≠ .idle →
        SafeProg (fun _ history => Proper conf history) (fun _ => ProperInv conf .running)
          (stand (.setStatus status)) t := fun t status ht hne =>
      (hI t ht).onward (.perform (S := linkSig standSig) hne)
    refine safe_updateStatus (fun t ht => (hI t ht).proper) (fun t ht _ => hI t ht) ?_ ?_ ?_ ?_ ?_
    · intro t status ht _ hstatus _
      exact hstore t status ht (by rcases hstatus with rfl | rfl <;> simp)
    · exact fun t ht _ _ => hstore t .fault ht (by simp)
    · exact fun t ht _ _ _ => (hI t ht).storeIdle
    · exact fun t ht _ _ _ _ => (hI t ht).onward only_handleHomeB
    · exact fun t ht _ _ hstill => (hI t ht).finish hstill
  serve s h hs hid := by
    have hs' : ProperInv conf .running (s.happen h) := hs.happen h fun hhalts => hhalts
    rcases hid with hid | hid | hid
    · simp only [hid]
      exact hs'.onward only_handleHomeA
    · simp only [hid]
      exact hs'.onward only_handleMove
    · simp only [hid]
      exact hs'.stop ⟨_, rfl, hid⟩

/-- **Homing motions run until a switch or a STOP ends them.**  In every run of the
controller: a motion of the homing routine that began at a position with room for
its targets, with fewer than `2^30` encoder interrupts since, is not ended by
`handle_isr_accel`.  What ends it is the handler of a limit switch, or `stop_axis`
for a STOP. -/
theorem homing_not_finished (cal : Calibration) (events : List ControllerEvent) (m : Recorder)
    (hrun : run Recorder.step (.init conf cal) events = some m)
    {new mid old : List Entry} {st fin : Entry} {id : AxisId} {neg : Bool} {c : Calibration}
    (hhistory : m.history = new ++ fin :: (mid ++ st :: old))
    (hst : st.event = .acted ⟨.axisStart id.toByte (homingMotion (signDir neg) c), .ok⟩)
    (hmid : ∀ e ∈ mid, ¬e.event.Starts id)
    (hmoving : (fin.before.axis id).state.moving = true) (hpulses : pulses id mid < 2 ^ 30)
    (hroom : Roomy neg c (st.before.axis id).state.encoderCurrent.toInt) :
    ¬fin.Finishes id ∧
      ∀ s', Happens fin.before fin.event s' → (s'.axis id).state.moving = false →
        (∃ sw pressed, fin.Records id sw pressed) ∨
        (ServesStop (mid ++ st :: old) ∧ ∃ id', fin.event = .acted ⟨.axisStop id', ()⟩) := by
  have hproper : ∀ {new old : List Entry}, m.history = new ++ old → Proper conf old := by
    intro new old hsplit
    obtain ⟨earlier, m1, hrun1, hhistory1, -⟩ := Recorder.earlier hrun hsplit
    rw [← hhistory1]
    exact (maintains_proper conf cal).run hrun1
  have hleads := Recorder.leads hrun
  rw [hhistory] at hleads
  obtain ⟨-, hbefore, -, -⟩ := hleads.entry
  have hsplit : m.history = (new ++ fin :: mid) ++ st :: old := by simp [hhistory]
  have hmech : (st.before.axis id).mech = conf.axisMech := by
    refine (hproper hsplit).1 id ?_
    rw [hst]
    exact ⟨rfl, rfl⟩
  have hfinish := Leads.not_finished hbefore hmech hst hmid hmoving hpulses hroom
  refine ⟨hfinish, fun s' hhappens hstill => ?_⟩
  rcases Entry.ends hhappens hmoving hstill with hend | hrecords | hhalts
  · exact absurd hend hfinish
  · exact .inl hrecords
  · rcases (hproper hhistory).2 hhalts with hstill' | hstop
    · rw [hstill' id] at hmoving
      cases hmoving
    · exact .inr hstop

/-- The X axis runs into its home switch. -/
def homedPressed : List ControllerEvent :=
  connected ++ request (.basic msgIdHome) 6 ++ [.interrupt .x (.isrLsHome .low)]

set_option maxRecDepth 4000 in
/-- Here the home switch ends the motion. -/
theorem homing_not_finished_pressed :
    ∃ m fin mid st old, run Recorder.step (.init conf defaultCalibration) homedPressed = some m ∧
      m.history = fin :: (mid ++ st :: old) ∧ ¬fin.Finishes .x ∧
      ∀ s', Happens fin.before fin.event s' → (s'.axis .x).state.moving = false →
        (∃ sw pressed, fin.Records .x sw pressed) ∨
        (ServesStop (mid ++ st :: old) ∧ ∃ id', fin.event = .acted ⟨.axisStop id', ()⟩) := by
  refine ⟨_, _, [_, _, _], _, _, rfl, rfl, ?_⟩
  refine @homing_not_finished defaultCalibration homedPressed _ rfl [] _ _ _ _ .x true _ rfl rfl
    (List.forall_iff_forall_mem.mp ⟨?_, ?_, ?_⟩) rfl (by decide) (roomy_zero true _)
  · exact fun hstart => hstart
  · exact fun hstart => hstart
  · exact fun hstart => absurd hstart.1 (by decide)

/-- The start velocity becomes that of the homing routine, the X axis is moved two
counts back, and then a HOME comes in.  The acceleration timer fires three times. -/
def homeFromBehind : List ControllerEvent :=
  connected ++ request (TestStandCommHost.calibratePacket .gantryVelStart 75) 3 ++
    .loop :: operations 1 ++ request (TestStandCommHost.movePacket .x .negative 75 2) 4 ++
    answered ++ [.interrupt .x .isrAccel, .interrupt .x .isrEncoder, .interrupt .x .isrEncoder,
      .interrupt .x .isrAccel, .interrupt .x .isrAccel, .loop] ++ operations 8 ++
    request (.basic msgIdHome) 6 ++
    [.interrupt .x .isrAccel, .interrupt .x .isrAccel, .interrupt .x .isrAccel]

set_option maxRecDepth 4000 in
/-- **A homing motion that reaches its target.**  It started at position -2; there
has been no encoder interrupt since, and `handle_isr_accel` ends it. -/
theorem homing_finished :
    ∃ m fin mid st old c,
      run Recorder.step (.init conf defaultCalibration) homeFromBehind = some m ∧
      m.history = fin :: (mid ++ st :: old) ∧
      st.event = .acted ⟨.axisStart AxisId.x.toByte (homingMotion .negative c), .ok⟩ ∧
      (st.before.axis .x).state.encoderCurrent = -2 ∧ pulses .x mid = 0 ∧
      (∀ e ∈ mid, ¬e.event.Starts .x) ∧ (fin.before.axis .x).state.moving = true ∧
      fin.Finishes .x := by
  refine ⟨_, _, [_, _, _, _, _], _, _, _, rfl, rfl, rfl, rfl, rfl,
    List.forall_iff_forall_mem.mp ⟨id, id, id, id, ?_⟩, rfl, rfl, rfl, ?_⟩
  · exact fun hstart => absurd hstart.1 (by decide)
  · decide +kernel

end MPMTTestStand

end MpmtTestStand.Ports
