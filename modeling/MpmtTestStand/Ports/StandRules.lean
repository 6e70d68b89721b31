import MpmtTestStand.Ports.StandRun

/-!
# Rules for the main program

The rules of `World.Safe` at the operations of the main program, and one lemma
for each function of `execute`.  Most of what the program does leaves the status
and the motions alone (`Quiet`); what it finds out by reading holds on, because
interrupts only ever stop an axis.  The lemmas below ask the caller about the
points at which something is written.
-/

namespace MpmtTestStand.Ports

open MpmtTestStand.Verified
open MpmtTestStand.Verified.Run

/-- An operation that only looks at the test stand. -/
def StandOp.Reads : StandOp → Prop
  | .moving _ => True
  | .lsHomePressed _ => True
  | .lsFarPressed _ => True
  | .encoderCurrent _ => True
  | .getStatus => True
  | .getHomeADone => True
  | .getCal => True
  | .readTempData => True
  | .firstArgument => True
  | _ => False

/-- Operations that halt an axis. -/
def StandOp.Halts : StandOp → Prop
  | .axisSetup _ _ _ => True
  | .axisStop _ => True
  | .axisReset _ => True
  | _ => False

namespace MPMTTestStand

/-! ## Happenings without consequence -/

/-- The program is interrupted. -/
def Happening.External : Happening → Prop
  | .interrupt _ _ => True
  | _ => False

/-- The program reads, or is interrupted. -/
def Happening.Passive : Happening → Prop
  | .round => False
  | .acted a => a.op.Reads
  | .interrupt _ _ => True

/-- The program neither starts or stops an axis nor stores a status. -/
def Happening.Quiet : Happening → Prop
  | .round => True
  | .acted ⟨.dispatch p, _⟩ => p.id ≠ msgIdHome ∧ p.id ≠ msgIdMove ∧ p.id ≠ msgIdStop
  | .acted ⟨.axisStart _ _, res⟩ => res ≠ .ok
  | .acted ⟨.setCal _, _⟩ => True
  | .acted a => a.op.Reads
  | .interrupt _ _ => True

/-- The program does nothing but wait for the host. -/
def Happening.Waiting : Happening → Prop
  | .acted _ => False
  | _ => True

theorem Happening.Waiting.quiet {ev : Happening} (h : ev.Waiting) : ev.Quiet := by
  cases ev <;> first | exact h.elim | trivial

theorem Happening.External.passive {ev : Happening} (h : ev.External) : ev.Passive := by
  cases ev <;> first | exact h.elim | trivial

theorem Happening.Passive.quiet {ev : Happening} (h : ev.Passive) : ev.Quiet := by
  cases ev with
  | round => trivial
  | interrupt id e => trivial
  | acted a =>
      obtain ⟨o, r⟩ := a
      cases o <;> first | exact h | exact h.elim

/-- What is read is there, and stays. -/
theorem Happens.reads {s s' : TestStand} {a : Acted} (h : Happens s (.acted a) s')
    (ha : a.op.Reads) : s' = s := by
  cases h with
  | acted _ around _ h =>
      obtain ⟨o, r⟩ := a
      cases o <;> first
        | exact ha.elim
        | simpa [TestStand.perform, eq_comm] using (Prod.mk.inj (Option.some.inj h)).2

/-! ### The effect of each write -/

theorem Happens.setStatus_eq {s s' : TestStand} {status : Status} {r : Unit}
    (h : Happens s (.acted ⟨.setStatus status, r⟩) s') : s' = { s with status := status } := by
  cases h with
  | acted _ _ _ h => exact (Prod.mk.inj (Option.some.inj h)).2.symm

theorem Happens.setHomeADone_eq {s s' : TestStand} {done : Bool} {r : Unit}
    (h : Happens s (.acted ⟨.setHomeADone done, r⟩) s') :
    s' = { s with homeADone := done } := by
  cases h with
  | acted _ _ _ h => exact (Prod.mk.inj (Option.some.inj h)).2.symm

theorem Happens.axisSetup_eq {s s' : TestStand} {id : AxisId} {io : AxisIO} {mech : AxisMech}
    {r : Unit} (h : Happens s (.acted ⟨.axisSetup id io mech, r⟩) s') :
    s' = s.setAxis id ((s.axis id).setupAxis io mech) := by
  cases h with
  | acted _ _ _ h => exact (Prod.mk.inj (Option.some.inj h)).2.symm

theorem Happens.axisStop_eq {s s' : TestStand} {id : AxisId} {r : Unit}
    (h : Happens s (.acted ⟨.axisStop id, r⟩) s') :
    s' = s.setAxis id (s.axis id).stopAxis := by
  cases h with
  | acted _ _ _ h => exact (Prod.mk.inj (Option.some.inj h)).2.symm

theorem Happens.axisReset_eq {s s' : TestStand} {id : AxisId} {r : Unit}
    (h : Happens s (.acted ⟨.axisReset id, r⟩) s') :
    s' = s.setAxis id (s.axis id).resetAxis := by
  cases h with
  | acted _ _ _ h => exact (Prod.mk.inj (Option.some.inj h)).2.symm

theorem Happens.halt {s s' : TestStand} {o : StandOp} {r : o.Res}
    (h : Happens s (.acted ⟨o, r⟩) s') (ho : o.Halts) :
    s'.status = s.status ∧ s'.homeADone = s.homeADone := by
  cases o with
  | axisSetup id io mech =>
      rw [h.axisSetup_eq]
      exact ⟨TestStand.status_setAxis .., TestStand.homeADone_setAxis ..⟩
  | axisStop id =>
      rw [h.axisStop_eq]
      exact ⟨TestStand.status_setAxis .., TestStand.homeADone_setAxis ..⟩
  | axisReset id =>
      rw [h.axisReset_eq]
      exact ⟨TestStand.status_setAxis .., TestStand.homeADone_setAxis ..⟩
  | _ => exact ho.elim

theorem Happens.axisStart_eq {s s' : TestStand} {raw : UInt8} {motion : AxisMotionSpec}
    {res : AxisResult} (h : Happens s (.acted ⟨.axisStart raw motion, res⟩) s') :
    ∃ id : AxisId, raw = id.toByte ∧ res = ((s.axis id).startAxis motion).1 ∧
      s' = s.setAxis id ((s.axis id).startAxis motion).2 := by
  cases h with
  | acted _ around _ h =>
      rcases hraw : AxisId.ofByte? raw with _ | id
      · simp [TestStand.perform, hraw] at h
      · simp only [TestStand.perform, hraw, Option.some.injEq, Prod.mk.injEq] at h
        exact ⟨id, AxisId.ofByte?_eq_some.mp hraw, h.1.symm, h.2.symm⟩

/-- A start that is accepted. -/
theorem Happens.accepted {s s' : TestStand} {id : AxisId} {motion : AxisMotionSpec}
    (h : Happens s (.acted ⟨.axisStart id.toByte motion, .ok⟩) s') :
    ∃ profile, Axis.motionProfile (s.axis id).mech motion = some profile ∧
      s'.axis id = (s.axis id).beginMotion motion profile := by
  obtain ⟨id', hraw, hres, rfl⟩ := h.axisStart_eq
  obtain rfl := AxisId.toByte_inj.mp hraw
  rcases (s.axis id).startAxis_cases motion with ⟨profile, -, hprofile, hstart⟩ | ⟨hne, -⟩
  · exact ⟨profile, hprofile, by rw [TestStand.axis_setAxis, hstart]⟩
  · exact absurd hres.symm hne

theorem Happens.started {s s' : TestStand} {id : AxisId} {motion : AxisMotionSpec}
    (h : Happens s (.acted ⟨.axisStart id.toByte motion, .ok⟩) s') :
    (s'.axis id).state.moving = true := by
  obtain ⟨profile, -, heq⟩ := h.accepted
  rw [heq]
  rfl

/-- A start that is refused changes nothing. -/
theorem Happens.refused {s s' : TestStand} {raw : UInt8} {motion : AxisMotionSpec}
    {res : AxisResult} (h : Happens s (.acted ⟨.axisStart raw motion, res⟩) s')
    (hres : res ≠ .ok) : s' = s := by
  obtain ⟨id, -, rfl, rfl⟩ := h.axisStart_eq
  rcases (s.axis id).startAxis_cases motion with ⟨_, -, -, hstart⟩ | ⟨-, hsame⟩
  · rw [hstart] at hres
    exact absurd rfl hres
  · rw [hsame]
    cases id <;> rfl

/-- A start of the axis is accepted. -/
def Happening.Starts (id : AxisId) : Happening → Prop
  | .acted ⟨.axisStart raw _, res⟩ => raw = id.toByte ∧ res = .ok
  | _ => False

theorem Happening.Starts.eq {id : AxisId} {ev : Happening} (h : ev.Starts id) :
    ∃ motion, ev = .acted ⟨.axisStart id.toByte motion, .ok⟩ := by
  cases ev with
  | acted a =>
      obtain ⟨o, r⟩ := a
      cases o with
      | axisStart raw motion =>
          obtain ⟨rfl, rfl⟩ := h
          exact ⟨motion, rfl⟩
      | _ => exact h.elim
  | _ => exact h.elim

theorem Happening.Quiet.not_starts {ev : Happening} (h : ev.Quiet) (id : AxisId) :
    ¬ev.Starts id := by
  cases ev with
  | acted a =>
      obtain ⟨o, r⟩ := a
      cases o with
      | axisStart raw motion => exact fun hstart => h hstart.2
      | _ => exact fun hstart => hstart
  | _ => exact fun hstart => hstart

theorem Happening.Quiet.not_halts {ev : Happening} (h : ev.Quiet) : ¬ev.Halts := by
  cases ev with
  | acted a =>
      obtain ⟨o, r⟩ := a
      cases o <;> first | exact id | exact h.elim
  | _ => exact id

/-- Only a setup changes the mechanics of an axis. -/
theorem Happens.mech {s s' : TestStand} {ev : Happening} (h : Happens s ev s')
    (hev : ¬ev.Halts) (id : AxisId) : (s'.axis id).mech = (s.axis id).mech := by
  rcases h.axis id with ⟨io, mech, r, rfl, -⟩ | ⟨-, heq⟩ | ⟨ae, -, heq⟩
  · exact absurd trivial hev
  · rw [heq]
  · rw [heq]
    exact ae.apply_mech (s.axis id)

/-- A moving axis cannot be started. -/
theorem Happens.not_starts {s s' : TestStand} {ev : Happening} (h : Happens s ev s') {id : AxisId}
    (hmoving : (s.axis id).state.moving = true) : ¬ev.Starts id := by
  intro hstarts
  obtain ⟨motion, rfl⟩ := hstarts.eq
  obtain ⟨id', hraw, hres, -⟩ := h.axisStart_eq
  obtain rfl := AxisId.toByte_inj.mp hraw
  rcases (s.axis id).startAxis_cases motion with ⟨_, hvalid, -, -⟩ | ⟨hne, -⟩
  · rw [(Axis.validateMotion_ok hvalid).1] at hmoving
    cases hmoving
  · exact hne hres.symm

/-- A moving axis goes on with its motion until it is started again. -/
theorem Happens.moves_on {s s' : TestStand} {ev : Happening} (h : Happens s ev s') {id : AxisId}
    (hstart : ¬ev.Starts id) (hmoving : (s'.axis id).state.moving = true) :
    (s.axis id).state.moving = true ∧ (s'.axis id).motion = (s.axis id).motion ∧
      (s'.axis id).state.dir = (s.axis id).state.dir := by
  rcases h.axis id with ⟨io, mech, r, -, heq⟩ | ⟨-, heq⟩ | ⟨e, hon, heq⟩
  · rw [heq] at hmoving
    cases hmoving
  · rw [heq] at hmoving ⊢
    exact ⟨hmoving, rfl, rfl⟩
  · rcases Happening.onAxis_program hon with hev | ⟨rfl, -⟩ | ⟨rfl, -⟩ | ⟨motion, res, rfl, rfl⟩
    · rw [hev] at h
      rw [heq] at hmoving ⊢
      cases h with
      | interrupt _ _ he => exact AxisEvent.interrupt_moving he hmoving
    · rw [heq] at hmoving
      cases hmoving
    · rw [heq] at hmoving
      cases hmoving
    · obtain rfl := h.refused fun hres => hstart ⟨rfl, hres⟩
      exact ⟨hmoving, rfl, rfl⟩

theorem Leads.moves_on {s0 s : TestStand} {mid : List Entry} (h : Leads s0 mid s) {id : AxisId}
    (hstart : ∀ e ∈ mid, ¬e.event.Starts id) (hmoving : (s.axis id).state.moving = true) :
    (s0.axis id).state.moving = true ∧ (s.axis id).motion = (s0.axis id).motion ∧
      (s.axis id).state.dir = (s0.axis id).state.dir := by
  induction mid generalizing s with
  | nil =>
      obtain rfl : s = s0 := h
      exact ⟨hmoving, rfl, rfl⟩
  | cons e mid ih =>
      obtain ⟨hbefore, hmotion, hdir⟩ := h.2.moves_on (hstart e (by simp)) hmoving
      obtain ⟨h0, hmotion0, hdir0⟩ := ih h.1 (fun x hx => hstart x (by simp [hx])) hbefore
      exact ⟨h0, hmotion.trans hmotion0, hdir.trans hdir0⟩

/-- **What a quiet happening does.** -/
theorem Happens.quiet {s s' : TestStand} {ev : Happening} (h : Happens s ev s')
    (hev : ev.Quiet) :
    s'.status = s.status ∧ s'.homeADone = s.homeADone ∧
      ∀ id, s'.axis id = s.axis id ∨
        ∃ e : AxisEvent, e.IsInterrupt ∧ s'.axis id = e.apply (s.axis id) := by
  cases h with
  | round => exact ⟨rfl, rfl, fun _ => .inl rfl⟩
  | interrupt id e he =>
      refine ⟨by simp, by simp, fun id' => ?_⟩
      by_cases hid : id' = id
      · subst hid
        exact .inr ⟨e, he, by simp⟩
      · exact .inl (TestStand.axis_setAxis_ne s _ hid)
  | acted a around _ h =>
      have hhappens := Happens.acted a around s' h
      obtain ⟨o, r⟩ := a
      cases o with
      | dispatch p =>
          obtain ⟨-, rfl⟩ := Prod.mk.inj (Option.some.inj h)
          exact ⟨rfl, rfl, fun _ => .inl rfl⟩
      | setCal cal =>
          obtain ⟨-, rfl⟩ := Prod.mk.inj (Option.some.inj h)
          exact ⟨rfl, rfl, fun id => .inl (by cases id <;> rfl)⟩
      | axisStart raw motion =>
          obtain rfl := hhappens.refused hev
          exact ⟨rfl, rfl, fun _ => .inl rfl⟩
      | _ =>
          first
          | exact False.elim hev
          | obtain rfl := hhappens.reads hev
            exact ⟨rfl, rfl, fun _ => .inl rfl⟩

/-! ## From one point to a later one -/

section Passes

variable {cal : Calibration} {P Q : Happening → Prop} {s t u : Record cal}

/-- From `s` to `t` only happenings with `P`. -/
def Passes (P : Happening → Prop) (s t : Record cal) : Prop :=
  ∃ new, t.history = new ++ s.history ∧ (∀ e ∈ new, P e.event) ∧
    Leads s.stand new t.stand

namespace Passes

theorem refl (P : Happening → Prop) (s : Record cal) : Passes P s s :=
  ⟨[], rfl, by simp, rfl⟩

theorem happen (h : Passes P s t) {ev : Happening} {stand : TestStand}
    (hhappens : Happens t.stand ev stand) (hev : P ev) : Passes P s (t.happen hhappens) := by
  obtain ⟨new, hhistory, hnew, hleads⟩ := h
  refine ⟨⟨t.stand, ev⟩ :: new, congrArg (List.cons _) hhistory, ?_, hleads, hhappens⟩
  intro e he
  rcases List.mem_cons.mp he with rfl | he
  · exact hev
  · exact hnew e he

theorem mono (h : Passes P s t) (hPQ : ∀ ev, P ev → Q ev) : Passes Q s t := by
  obtain ⟨new, hhistory, hnew, hleads⟩ := h
  exact ⟨new, hhistory, fun e he => hPQ _ (hnew e he), hleads⟩

theorem trans (h : Passes P s t) (h' : Passes P t u) : Passes P s u := by
  obtain ⟨new, hhistory, hnew, hleads⟩ := h
  obtain ⟨new', hhistory', hnew', hleads'⟩ := h'
  refine ⟨new' ++ new, by rw [hhistory', hhistory, List.append_assoc], ?_,
    hleads.append hleads'⟩
  intro e he
  rcases List.mem_append.mp he with he | he
  · exact hnew' e he
  · exact hnew e he

theorem passive (h : Passes Happening.External s t) : Passes Happening.Passive s t :=
  h.mono fun _ => Happening.External.passive

theorem quiet (h : Passes Happening.Passive s t) : Passes Happening.Quiet s t :=
  h.mono fun _ => Happening.Passive.quiet

theorem waiting (h : Passes Happening.External s t) : Passes Happening.Waiting s t :=
  h.mono fun ev hev => by cases ev <;> first | exact hev.elim | trivial

/-- Interrupts come on top. -/
theorem rely (h : Passes P s t) (hP : ∀ id e, P (.interrupt id e))
    (ht : (standWorld cal).Rely t u) : Passes P s u := by
  induction ht with
  | refl => exact h
  | tail _ hstep ih =>
      obtain ⟨id, e, he, rfl⟩ := hstep
      exact ih.happen (.interrupt id e he) (hP id e)

/-- What every single happening preserves is preserved. -/
theorem induct {motive : TestStand → List Entry → Prop} (h : Passes P s t)
    (hstart : motive s.stand s.history)
    (hstep : ∀ stand history ev stand', P ev → Happens stand ev stand' →
      motive stand history → motive stand' (⟨stand, ev⟩ :: history)) :
    motive t.stand t.history := by
  obtain ⟨new, hhistory, hnew, hleads⟩ := h
  rw [hhistory]
  clear hhistory
  induction new generalizing t with
  | nil =>
      have heq : t.stand = s.stand := hleads
      rw [heq]
      exact hstart
  | cons e new ih =>
      have hbefore := ih (t := ⟨t.rx, e.before, _, s.leads.append hleads.1⟩)
        (fun x hx => hnew x (by simp [hx])) hleads.1
      exact hstep _ _ _ _ (hnew e (by simp)) hleads.2 hbefore

theorem status (h : Passes Happening.Quiet s t) : t.stand.status = s.stand.status :=
  h.induct (motive := fun stand _ => stand.status = s.stand.status) rfl
    fun _ _ _ _ hev hhappens ih => (hhappens.quiet hev).1.trans ih

theorem homeADone (h : Passes Happening.Quiet s t) : t.stand.homeADone = s.stand.homeADone :=
  h.induct (motive := fun stand _ => stand.homeADone = s.stand.homeADone) rfl
    fun _ _ _ _ hev hhappens ih => (hhappens.quiet hev).2.1.trans ih

theorem cal_eq (h : Passes Happening.Passive s t) : t.stand.cal = s.stand.cal := by
  refine h.induct (motive := fun stand _ => stand.cal = s.stand.cal) rfl ?_
  intro stand history ev stand' hev hhappens ih
  cases hhappens with
  | round => exact ih
  | interrupt id e _ => exact (TestStand.cal_setAxis ..).trans ih
  | acted a around _ h =>
      obtain rfl := (Happens.acted a around stand' h).reads hev
      exact ih

theorem mech (h : Passes Happening.Quiet s t) (id : AxisId) :
    (t.stand.axis id).mech = (s.stand.axis id).mech :=
  h.induct (motive := fun stand _ => (stand.axis id).mech = (s.stand.axis id).mech) rfl
    fun _ _ _ _ hev hhappens ih => (hhappens.mech hev.not_halts id).trans ih

/-- A stopped axis stays so. -/
theorem still (h : Passes Happening.Quiet s t) {id : AxisId}
    (hs : (s.stand.axis id).state.moving = false) :
    (t.stand.axis id).state.moving = false := by
  refine (h.induct (motive := fun stand _ => (∀ id, AxisInv (stand.axis id)) ∧
    (stand.axis id).state.moving = false) ⟨s.axisInv, hs⟩ ?_).2
  intro stand history ev stand' hev hhappens ih
  refine ⟨hhappens.axisInv ih.1, ?_⟩
  rcases (hhappens.quiet hev).2.2 id with heq | ⟨e, he, heq⟩
  · rw [heq]
    exact ih.2
  · rw [heq]
    exact (ih.1 id).interrupt_still ih.2 he

end Passes

end Passes

/-! ## Rules for operations -/

section Rules

variable {cal : Calibration} {I : TestStand → List Entry → Prop} {α β : Type}
  {post : α → Record cal → Prop} {s : Record cal}

theorem SafeProg.ret {a : α}
    (h : ∀ t, Passes Happening.Passive s t → I t.stand t.history ∧ post a t) :
    SafeProg I post (.ret a) s :=
  fun t ht => h t ((Passes.refl _ s).rely (fun _ _ => trivial) ht)

/-- Interrupts leave the receiver alone. -/
theorem Record.rx_of_rely {t : Record cal} (h : (standWorld cal).Rely s t) : t.rx = s.rx := by
  induction h with
  | refl => rfl
  | tail _ hstep ih =>
      obtain ⟨id, e, he, rfl⟩ := hstep
      exact ih

/-- An operation of the main program. -/
theorem SafeProg.act {o : StandOp} {k : o.Res → StandProg α}
    (h : ∀ t, Passes Happening.External s t → t.rx = s.rx → I t.stand t.history ∧
      ∀ r stand (hhappens : Happens t.stand (.acted ⟨o, r⟩) stand),
        SafeProg I post (k r) (t.happen hhappens)) :
    SafeProg I post (.op (.act o) k) s := by
  intro t ht
  obtain ⟨hI, hnext⟩ := h t ((Passes.refl _ s).rely (fun _ _ => trivial) ht)
    (Record.rx_of_rely ht)
  refine ⟨hI, fun r u hdoes => ?_⟩
  obtain ⟨stand, hhappens, rfl⟩ := hdoes
  exact hnext r stand hhappens

/-- An operation that reads. -/
theorem SafeProg.read {o : StandOp} {k : o.Res → StandProg α} (ho : o.Reads)
    (hI : ∀ t, Passes Happening.Passive s t → I t.stand t.history)
    (h : ∀ r t (hhappens : Happens t.stand (.acted ⟨o, r⟩) t.stand),
      Passes Happening.Passive s t → SafeProg I post (k r) (t.happen hhappens)) :
    SafeProg I post (.op (.act o) k) s := by
  refine .act fun t ht _ => ⟨hI t ht.passive, fun r stand hhappens => ?_⟩
  obtain rfl := hhappens.reads ho
  exact h r t hhappens ht.passive

/-- Looking at the receiver. -/
theorem SafeProg.look {k : Receiver → StandProg α}
    (hI : ∀ t, Passes Happening.Passive s t → I t.stand t.history)
    (h : ∀ t, Passes Happening.Passive s t → t.rx = s.rx → SafeProg I post (k t.rx) t) :
    SafeProg I post (.op .look k) s := by
  intro t ht
  have hst := (Passes.refl Happening.Passive s).rely (fun _ _ => trivial) ht
  refine ⟨hI t hst, ?_⟩
  rintro r u ⟨rfl, rfl⟩
  exact h u hst (Record.rx_of_rely ht)

/-- Communication, and operations without consequence. -/
def QuietOp : LinkOp standSig → Prop
  | .act (.setCal _) => True
  | .act o => o.Reads
  | _ => True

theorem Record.Does.passes {o : LinkOp standSig} {r : o.Res} {t u : Record cal}
    (h : t.Does o r u) (ho : QuietOp o) (hs : Passes Happening.Quiet s t) :
    Passes Happening.Quiet s u := by
  cases o with
  | act o =>
      obtain ⟨stand, hhappens, rfl⟩ := h
      refine hs.happen hhappens ?_
      cases o <;> first | exact ho | exact ho.elim
  | look =>
      obtain ⟨-, rfl⟩ := h
      exact hs
  | serWrite _ | checkForMessage | recvMessage _ =>
      obtain ⟨rx, rfl⟩ := h
      exact hs

/-- Communication. -/
def TalkOp : LinkOp standSig → Prop
  | .act _ => False
  | _ => True

theorem TalkOp.quiet {o : LinkOp standSig} (h : TalkOp o) : QuietOp o := by
  cases o <;> first | exact h.elim | trivial

/-- A program that does nothing but communicate. -/
theorem SafeProg.talk {p : StandProg α} (hp : Prog.Only TalkOp p)
    (hI : ∀ t, Passes Happening.Waiting s t → I t.stand t.history)
    (hpost : ∀ a t, Passes Happening.Waiting s t → post a t) : SafeProg I post p s := by
  refine World.Safe.mono (World.Safe.of_only hp ?_ ?_ hI (Passes.refl _ s)) hpost
  · rintro t u ht ⟨id, e, he, rfl⟩
    exact ht.happen (.interrupt id e he) trivial
  · intro o t r u ho ht hdoes
    cases o with
    | act o => exact ho.elim
    | look =>
        obtain ⟨-, rfl⟩ := hdoes
        exact ht
    | serWrite _ | checkForMessage | recvMessage _ =>
        obtain ⟨rx, rfl⟩ := hdoes
        exact ht

/-- A program that does nothing of consequence. -/
theorem SafeProg.quiet {p : StandProg α} (hp : Prog.Only QuietOp p)
    (hI : ∀ t, Passes Happening.Quiet s t → I t.stand t.history)
    (hpost : ∀ a t, Passes Happening.Quiet s t → post a t) : SafeProg I post p s := by
  refine World.Safe.mono (World.Safe.of_only hp ?_ ?_ hI (Passes.refl _ s)) hpost
  · rintro t u ht ⟨id, e, he, rfl⟩
    exact ht.happen (.interrupt id e he) trivial
  · exact fun o t r u ho ht hdoes => hdoes.passes ho ht

/-- What is read. -/
theorem Happens.moving_eq {s s' : TestStand} {id : AxisId} {r : Bool}
    (h : Happens s (.acted ⟨.moving id, r⟩) s') : r = (s.axis id).state.moving := by
  cases h with
  | acted _ _ _ h => exact (Prod.mk.inj (Option.some.inj h)).1.symm

theorem Happens.getCal_eq {s s' : TestStand} {r : Calibration}
    (h : Happens s (.acted ⟨.getCal, r⟩) s') : r = s.cal := by
  cases h with
  | acted _ _ _ h => exact (Prod.mk.inj (Option.some.inj h)).1.symm

theorem Happens.getStatus_eq {s s' : TestStand} {r : Status}
    (h : Happens s (.acted ⟨.getStatus, r⟩) s') : r = s.status := by
  cases h with
  | acted _ _ _ h => exact (Prod.mk.inj (Option.some.inj h)).1.symm

theorem Happens.getHomeADone_eq {s s' : TestStand} {r : Bool}
    (h : Happens s (.acted ⟨.getHomeADone, r⟩) s') : r = s.homeADone := by
  cases h with
  | acted _ _ _ h => exact (Prod.mk.inj (Option.some.inj h)).1.symm

end Rules

/-! ## Reading the axes -/

/-- The operation that reads the flag of a switch, with its answer. -/
def readFlag (id : AxisId) : Switch → Bool → Acted
  | .home, pressed => ⟨.lsHomePressed id, pressed⟩
  | .far, pressed => ⟨.lsFarPressed id, pressed⟩

theorem Happens.readFlag_eq {s s' : TestStand} {id : AxisId} {sw : Switch} {pressed : Bool}
    (h : Happens s (.acted (readFlag id sw pressed)) s') :
    pressed = (s.axis id).state.lsPressed sw := by
  cases sw <;> cases h with
  | acted _ _ _ h => exact (Prod.mk.inj (Option.some.inj h)).1.symm

/-- Both axes are stopped. -/
def Still (s : TestStand) : Prop := ∀ id, (s.axis id).state.moving = false

/-- Both axes were stopped when the program read the flag of a switch, and it has
only been reading since. -/
def Checked (id : AxisId) (sw : Switch) (pressed : Bool) (history : List Entry) : Prop :=
  ∃ new b old, history = new ++ ⟨b, .acted (readFlag id sw pressed)⟩ :: old ∧
    (∀ e ∈ new, e.event.Passive) ∧ Still b

/-- The program read that an axis moves, and it has only been reading since. -/
def SeenMoving (history : List Entry) : Prop :=
  ∃ id new b old, history = new ++ ⟨b, .acted ⟨.moving id, true⟩⟩ :: old ∧
    (∀ e ∈ new, e.event.Passive) ∧ (b.axis id).state.moving = true

theorem Still.setStatus {s : TestStand} (h : Still s) (status : Status) :
    Still { s with status := status } := fun id => by simpa using h id

theorem Still.setHomeADone {s : TestStand} (h : Still s) (done : Bool) :
    Still { s with homeADone := done } := fun id => by simpa using h id

/-- An axis is stopped, and the other one already was. -/
theorem Still.setAxis {s : TestStand} {id : AxisId} {axis : Axis}
    (haxis : axis.state.moving = false)
    (hother : ∀ id', id' ≠ id → (s.axis id').state.moving = false) :
    Still (s.setAxis id axis) := by
  intro id'
  by_cases hid : id' = id
  · subst hid
    rwa [TestStand.axis_setAxis]
  · rw [TestStand.axis_setAxis_ne s axis hid]
    exact hother id' hid

section Reading

variable {cal : Calibration} {I : TestStand → List Entry → Prop} {s t : Record cal}

theorem Passes.still_all (h : Passes Happening.Quiet s t) (hs : Still s.stand) :
    Still t.stand := fun id => h.still (hs id)

theorem Checked.passes {id : AxisId} {sw : Switch} {pressed : Bool}
    (h : Checked id sw pressed s.history) (hs : Passes Happening.Passive s t) :
    Checked id sw pressed t.history := by
  obtain ⟨new, b, old, hhistory, hnew, hb⟩ := h
  obtain ⟨new', hhistory', hnew', -⟩ := hs
  refine ⟨new' ++ new, b, old, by rw [hhistory', hhistory, List.append_assoc], ?_, hb⟩
  intro e he
  rcases List.mem_append.mp he with he | he
  · exact hnew' e he
  · exact hnew e he

theorem SeenMoving.passes (h : SeenMoving s.history) (hs : Passes Happening.Passive s t) :
    SeenMoving t.history := by
  obtain ⟨id, new, b, old, hhistory, hnew, hb⟩ := h
  obtain ⟨new', hhistory', hnew', -⟩ := hs
  refine ⟨id, new' ++ new, b, old, by rw [hhistory', hhistory, List.append_assoc], ?_, hb⟩
  intro e he
  rcases List.mem_append.mp he with he | he
  · exact hnew' e he
  · exact hnew e he

/-- `x_state->moving || y_state->moving` -/
theorem safe_anyMoving (hI : ∀ t, Passes Happening.Passive s t → I t.stand t.history) :
    SafeProg I (fun moving t => Passes Happening.Passive s t ∧
      (moving = false → Still t.stand) ∧ (moving = true → SeenMoving t.history)) anyMoving s := by
  refine .read (o := .moving .x) trivial hI fun moving t hx ht => ?_
  have ht' := ht.happen hx trivial
  cases moving with
  | true =>
      have hseen : SeenMoving (t.happen hx).history :=
        ⟨.x, [], t.stand, t.history, rfl, by simp, hx.moving_eq.symm⟩
      exact .ret fun u hu => ⟨hI u (ht'.trans hu), ht'.trans hu, by simp, fun _ => hseen.passes hu⟩
  | false =>
      refine .read (o := .moving .y) trivial (fun u hu => hI u (ht'.trans hu))
        fun moving u hy hu => ?_
      have hu' := (ht'.trans hu).happen hy trivial
      refine .ret fun v hv => ⟨hI v (hu'.trans hv), hu'.trans hv, fun hstill => ?_, fun hmoving => ?_⟩
      · subst hstill
        rintro (_ | _)
        · exact ((hu.happen hy trivial).trans hv).quiet.still hx.moving_eq.symm
        · exact hv.quiet.still hy.moving_eq.symm
      · subst hmoving
        have hseen : SeenMoving (u.happen hy).history :=
          ⟨.y, [], u.stand, u.history, rfl, by simp, hy.moving_eq.symm⟩
        exact hseen.passes hv

/-- `p || q` -/
theorem SafeProg.orM {post : Bool → Record cal → Prop} {p q : StandProg Bool}
    (hp : SafeProg I (fun r t => SafeProg I post (if r then .ret true else q) t) p s) :
    SafeProg I post (p <||> q) s := by
  refine World.Safe.bind (hp.mono fun r t h => ?_)
  cases r <;> exact h

/-- `p && q` -/
theorem SafeProg.andM {post : Bool → Record cal → Prop} {p q : StandProg Bool}
    (hp : SafeProg I (fun r t => SafeProg I post (if r then q else .ret false) t) p s) :
    SafeProg I post (p <&&> q) s := by
  refine World.Safe.bind (hp.mono fun r t h => ?_)
  cases r <;> exact h

/-- The operand of `execute`'s conditions that reads a flag. -/
def flag (id : AxisId) : Switch → StandProg Bool
  | .home => stand (.lsHomePressed id)
  | .far => stand (.lsFarPressed id)

/-- What a flag says when both axes are stopped. -/
theorem safe_flag (id : AxisId) (sw : Switch) (hs : Still s.stand)
    (hI : ∀ t, Passes Happening.Passive s t → I t.stand t.history) :
    SafeProg I (fun pressed t => Passes Happening.Passive s t ∧
      Checked id sw pressed t.history) (flag id sw) s := by
  have hret : ∀ (pressed : Bool) (t : Record cal)
      (h : Happens t.stand (.acted (readFlag id sw pressed)) t.stand),
      Passes Happening.Passive s t →
      SafeProg I (fun pressed t => Passes Happening.Passive s t ∧
        Checked id sw pressed t.history) (.ret pressed) (t.happen h) := by
    intro pressed t h ht
    have hread : Checked id sw pressed (t.happen h).history :=
      ⟨[], t.stand, t.history, rfl, by simp, ht.quiet.still_all hs⟩
    have ht' := ht.happen h (by cases sw <;> trivial)
    exact .ret fun u hu => ⟨hI u (ht'.trans hu), ht'.trans hu, hread.passes hu⟩
  cases sw with
  | home => exact .read (o := .lsHomePressed id) trivial hI hret
  | far => exact .read (o := .lsFarPressed id) trivial hI hret

/-- What the long condition of `execute` has found.  The far switch of the Y axis is not
read. -/
structure LsFound (pressed : Bool) (history : List Entry) : Prop where
  none : pressed = false → ∀ id sw, (id, sw) ≠ (.y, .far) → Checked id sw false history
  some : pressed = true → ∃ id sw, (id, sw) ≠ (.y, .far) ∧ Checked id sw true history

theorem safe_anyLsPressed (hs : Still s.stand)
    (hI : ∀ t, Passes Happening.Passive s t → I t.stand t.history) :
    SafeProg I (fun pressed t => Passes Happening.Passive s t ∧ LsFound pressed t.history)
      anyLsPressed s := by
  have hdone : ∀ t id sw, Passes Happening.Passive s t → (id, sw) ≠ (.y, .far) →
      Checked id sw true t.history →
      SafeProg I (fun pressed t => Passes Happening.Passive s t ∧ LsFound pressed t.history)
        (.ret true) t := fun t id sw ht hne hchecked =>
    .ret fun u hu => ⟨hI u (ht.trans hu), ht.trans hu, by simp,
      fun _ => ⟨id, sw, hne, hchecked.passes hu⟩⟩
  refine .orM ((safe_flag .x .home hs hI).mono ?_)
  rintro pressed t ⟨ht, hxHome⟩
  cases pressed with
  | true => exact hdone t .x .home ht (by simp) hxHome
  | false =>
      refine .orM ((safe_flag .x .far (ht.quiet.still_all hs)
        fun u hu => hI u (ht.trans hu)).mono ?_)
      rintro pressed u ⟨hu, hxFar⟩
      have hsu := ht.trans hu
      cases pressed with
      | true => exact hdone u .x .far hsu (by simp) hxFar
      | false =>
          refine .orM ((safe_flag .y .home (hsu.quiet.still_all hs)
            fun v hv => hI v (hsu.trans hv)).mono ?_)
          rintro pressed v ⟨hv, hyHome⟩
          have hsv := hsu.trans hv
          cases pressed with
          | true => exact hdone v .y .home hsv (by simp) hyHome
          | false =>
              refine (safe_flag .x .far (hsv.quiet.still_all hs)
                fun w hw => hI w (hsv.trans hw)).mono ?_
              rintro pressed w ⟨hw, hxFar'⟩
              refine ⟨hsv.trans hw, ?_, ?_⟩
              · rintro - (_ | _) (_ | _) hne
                · exact hxHome.passes ((hu.trans hv).trans hw)
                · exact hxFar.passes (hv.trans hw)
                · exact hyHome.passes hw
                · exact absurd rfl hne
              · rintro rfl
                exact ⟨.x, .far, by simp, hxFar'⟩

end Reading

/-! ## The parts of a round -/

/-- Why `execute` stores FAULT: a MOVE has ended with a switch pressed that it looks at, or
part A of the homing routine with a home switch that is not pressed. -/
def Blocked (s : TestStand) (history : List Entry) : Prop :=
  (s.status = .moving ∧ ∃ id sw, (id, sw) ≠ (.y, .far) ∧ Checked id sw true history) ∨
    (s.status = .homing ∧ s.homeADone = false ∧ ∃ id, Checked id .home false history)


section Rounds

variable {cal : Calibration} {I : TestStand → List Entry → Prop}
  {post : Unit → Record cal → Prop} {s : Record cal}

/-- The end of part B of the homing routine. -/
def finishHoming : StandProg Unit := do
  stand (.axisReset .x)
  stand (.axisReset .y)
  stand (.setStatus .idle)
  stand (.setHomeADone false)

theorem Blocked.passes {t u : Record cal} (h : Blocked t.stand t.history)
    (ht : Passes Happening.Passive t u) : Blocked u.stand u.history := by
  unfold Blocked
  rw [ht.quiet.status, ht.quiet.homeADone]
  rcases h with ⟨hstatus, id, sw, hne, hchecked⟩ | ⟨hstatus, hdone, id, hchecked⟩
  · exact .inl ⟨hstatus, id, sw, hne, hchecked.passes ht⟩
  · exact .inr ⟨hstatus, hdone, id, hchecked.passes ht⟩

/-- Keep the status while an axis moves. -/
theorem safe_unlessMoving {status : Status} {rest : StandProg Unit}
    (hI : ∀ t, Passes Happening.Passive s t → I t.stand t.history)
    (hstay : ∀ t, Passes Happening.Passive s t → SeenMoving t.history →
      SafeProg I post (stand (.setStatus status)) t)
    (hrest : ∀ t, Passes Happening.Passive s t → Still t.stand → SafeProg I post rest t) :
    SafeProg I post (do if ← anyMoving then stand (.setStatus status) else rest) s := by
  refine World.Safe.bind ((safe_anyMoving hI).mono ?_)
  rintro moving t ⟨ht, hstill, hseen⟩
  cases moving with
  | true => exact hstay t ht (hseen rfl)
  | false => exact hrest t ht (hstill rfl)

/-- The condition for the second part of the homing routine. -/
theorem safe_bothHomePressed (hs : Still s.stand)
    (hI : ∀ t, Passes Happening.Passive s t → I t.stand t.history) :
    SafeProg I (fun pressed t => Passes Happening.Passive s t ∧
      (pressed = true → ∀ id, Checked id .home true t.history) ∧
      (pressed = false → ∃ id, Checked id .home false t.history))
      (stand (.lsHomePressed .x) <&&> stand (.lsHomePressed .y)) s := by
  refine .andM ((safe_flag .x .home hs hI).mono ?_)
  rintro pressed t ⟨ht, hx⟩
  cases pressed with
  | false =>
      exact .ret fun u hu => ⟨hI u (ht.trans hu), ht.trans hu, by simp, fun _ => ⟨.x, hx.passes hu⟩⟩
  | true =>
      refine (safe_flag .y .home (ht.quiet.still_all hs) fun u hu => hI u (ht.trans hu)).mono ?_
      rintro pressed u ⟨hu, hy⟩
      refine ⟨ht.trans hu, ?_, ?_⟩
      · rintro rfl (_ | _)
        · exact hx.passes hu
        · exact hy
      · rintro rfl
        exact ⟨.y, hy⟩


/-- **`execute` up to its first write.**  What it has found out when it writes. -/
theorem safe_updateStatus
    (hI : ∀ t, Passes Happening.Passive s t → I t.stand t.history)
    (hsame : ∀ t, Passes Happening.Passive s t →
      s.stand.status = .idle ∨ s.stand.status = .fault → post () t)
    (hstay : ∀ t status, Passes Happening.Passive s t → s.stand.status = status →
      status = .moving ∨ status = .homing → SeenMoving t.history →
      SafeProg I post (stand (.setStatus status)) t)
    (hfault : ∀ t, Passes Happening.Passive s t → Blocked s.stand t.history →
      Still t.stand → SafeProg I post (stand (.setStatus .fault)) t)
    (hidle : ∀ t, Passes Happening.Passive s t → s.stand.status = .moving → Still t.stand →
      (∀ id sw, (id, sw) ≠ (.y, .far) → Checked id sw false t.history) →
      SafeProg I post (stand (.setStatus .idle)) t)
    (hhomeB : ∀ t, Passes Happening.Passive s t → s.stand.status = .homing →
      s.stand.homeADone = false → Still t.stand →
      (∀ id, Checked id .home true t.history) → SafeProg I post handleHomeB t)
    (hhomed : ∀ t, Passes Happening.Passive s t → s.stand.status = .homing →
      s.stand.homeADone = true → Still t.stand → SafeProg I post finishHoming t) :
    SafeProg I post updateStatus s := by
  refine .read (o := .getStatus) trivial hI fun status t hget ht => ?_
  have hstatus : s.stand.status = status := (hget.getStatus_eq.trans ht.quiet.status).symm
  have ht' := ht.happen hget trivial
  cases status with
  | idle => exact .ret fun u hu => ⟨hI u (ht'.trans hu), hsame u (ht'.trans hu) (.inl hstatus)⟩
  | fault =>
      exact .ret fun u hu => ⟨hI u (ht'.trans hu), hsame u (ht'.trans hu) (.inr hstatus)⟩
  | moving =>
      refine safe_unlessMoving (fun u hu => hI u (ht'.trans hu))
        (fun u hu => hstay u _ (ht'.trans hu) hstatus (.inl rfl)) fun u hu hstill => ?_
      have hsu := ht'.trans hu
      refine World.Safe.bind ((safe_anyLsPressed hstill fun v hv => hI v (hsu.trans hv)).mono ?_)
      rintro pressed v ⟨hv, hfound⟩
      have hstill' := hv.quiet.still_all hstill
      cases pressed with
      | true => exact hfault v (hsu.trans hv) (.inl ⟨hstatus, hfound.some rfl⟩) hstill'
      | false => exact hidle v (hsu.trans hv) hstatus hstill' (hfound.none rfl)
  | homing =>
      refine .read (o := .getHomeADone) trivial (fun u hu => hI u (ht'.trans hu))
        fun done u hget' hu => ?_
      have hdone : s.stand.homeADone = done :=
        (hget'.getHomeADone_eq.trans (ht'.trans hu).quiet.homeADone).symm
      have hsu := (ht'.trans hu).happen hget' trivial
      cases done with
      | true =>
          exact safe_unlessMoving (fun v hv => hI v (hsu.trans hv))
            (fun v hv => hstay v _ (hsu.trans hv) hstatus (.inr rfl))
            fun v hv hstill => hhomed v (hsu.trans hv) hstatus hdone hstill
      | false =>
          refine safe_unlessMoving (fun v hv => hI v (hsu.trans hv))
            (fun v hv => hstay v _ (hsu.trans hv) hstatus (.inr rfl)) fun v hv hstill => ?_
          have hsv := hsu.trans hv
          refine World.Safe.bind ((safe_bothHomePressed hstill
            fun w hw => hI w (hsv.trans hw)).mono ?_)
          rintro pressed w ⟨hw, hchecked, hunpressed⟩
          have hstill' := hw.quiet.still_all hstill
          cases pressed with
          | false =>
              exact hfault w (hsv.trans hw) (.inr ⟨hstatus, hdone, hunpressed rfl⟩) hstill'
          | true => exact hhomeB w (hsv.trans hw) hstatus hdone hstill' (hchecked rfl)

/-! ### Communication -/

theorem talk_writePieces (pieces : List (List UInt8)) :
    Prog.Only TalkOp (SerialTransport.writePieces pieces : StandProg Bool) := by
  induction pieces with
  | nil => exact .ret true
  | cons piece rest ih => exact .op trivial fun _ => .ite ih (.ret false)

theorem talk_sendMessage (p : Packet) :
    Prog.Only TalkOp (SerialSession.sendMessage p : StandProg SerialResult) := by
  refine .op trivial fun r => ?_
  refine .ite (.ret _) ((talk_writePieces _).bind fun sent => ?_)
  refine .ite (.op trivial fun received => ?_) (.ret _)
  exact .ite (.op trivial fun r => .ite (.ret _) (.ret _)) (.ret _)

theorem only_sendMessage (p : Packet) :
    Prog.Only QuietOp (SerialSession.sendMessage p : StandProg SerialResult) :=
  (talk_sendMessage p).mono fun _ => TalkOp.quiet

theorem only_checkForMessage :
    Prog.Only QuietOp (SerialSession.checkForMessage : StandProg SerialResult) := by
  refine .op trivial fun complete => ?_
  refine .ite (.op trivial fun r => ?_) (.ret _)
  have hpieces : ∀ pieces, Prog.Only QuietOp
      (SerialTransport.writePieces pieces : StandProg Bool) :=
    fun pieces => (talk_writePieces pieces).mono fun _ => TalkOp.quiet
  exact .ite (.ret _) ((hpieces _).bind fun _ => .ite (.ret _) (.ret _))

theorem only_act {o : StandOp} (ho : QuietOp (.act o)) : Prog.Only QuietOp (stand o) :=
  .perform (S := linkSig standSig) ho

/-- The handlers that do nothing of consequence. -/
theorem only_quiet_handle {id : UInt8} (hhome : id ≠ msgIdHome) (hmove : id ≠ msgIdMove)
    (hstop : id ≠ msgIdStop) : Prog.Only QuietOp (handle id) := by
  have hsend : ∀ p, Prog.Only QuietOp
      ((SerialSession.sendMessage p : StandProg SerialResult) >>= fun _ => .ret ()) :=
    fun p => (only_sendMessage p).bind fun _ => .ret ()
  unfold handle
  refine .ite (.op trivial fun _ => hsend _) ?_
  rw [if_neg hhome, if_neg hmove, if_neg hstop]
  refine .ite ((only_act (o := .getStatus) trivial).bind fun _ => hsend _) ?_
  refine .ite ?_ (.ite (.ret ()) (.ite ?_ (.ite ?_ (.ret ()))))
  · refine (only_act (o := .firstArgument) trivial).bind fun first => ?_
    cases first with
    | x =>
        refine (only_act (o := .encoderCurrent .x) trivial).bind fun _ => ?_
        exact (only_act (o := .encoderCurrent .y) trivial).bind fun _ => hsend _
    | y =>
        refine (only_act (o := .encoderCurrent .y) trivial).bind fun _ => ?_
        exact (only_act (o := .encoderCurrent .x) trivial).bind fun _ => hsend _
  · exact (only_act (o := .readTempData) trivial).bind fun _ => hsend _
  · refine .op trivial fun r => (only_act (o := .getCal) trivial).bind fun cal => ?_
    split
    · exact only_act (o := .setCal _) trivial
    · exact .ret ()

/-! ### Messages -/

/-- The messages that start or stop an axis. -/
def Consequential (id : UInt8) : Prop := id = msgIdHome ∨ id = msgIdMove ∨ id = msgIdStop

instance (id : UInt8) : Decidable (Consequential id) := by
  unfold Consequential
  infer_instance

theorem Happens.dispatch {s s' : TestStand} {p : Packet}
    (h : Happens s (.acted ⟨.dispatch p, ()⟩) s') : s' = s := by
  cases h with
  | acted _ _ _ h => exact (Prod.mk.inj (Option.some.inj h)).2.symm

/-- **`execute` once `check_for_message` has returned.**  A message with
consequences is handled with the receiver as it was when it was dispatched. -/
theorem safe_serve {res : SerialResult}
    (hI : ∀ t, Passes Happening.Quiet s t → I t.stand t.history)
    (hpost : ∀ t, Passes Happening.Quiet s t → post () t)
    (hserve : ∀ t (h : Happens t.stand (.acted ⟨.dispatch t.rx.msg.packet, ()⟩) t.stand),
      Passes Happening.Quiet s t → Consequential t.rx.msg.id →
      SafeProg I post (handle t.rx.msg.id) (t.happen h)) :
    SafeProg I post (serve res) s := by
  unfold serve
  split
  · refine .look (fun t ht => hI t ht.quiet) fun t ht _ => ?_
    refine .act fun u hu hrx => ⟨hI u (ht.trans hu.passive).quiet, fun _ stand hhappens => ?_⟩
    obtain rfl := hhappens.dispatch
    have hsu := (ht.trans hu.passive).quiet
    obtain ⟨rx, now, history, leads⟩ := u
    obtain rfl : rx = t.rx := hrx
    by_cases hid : Consequential t.rx.msg.id
    · exact hserve _ hhappens hsu hid
    · simp only [Consequential, not_or] at hid
      have hsu' := hsu.happen hhappens hid
      exact .quiet (only_quiet_handle hid.1 hid.2.1 hid.2.2) (fun v hv => hI v (hsu'.trans hv))
        fun _ v hv => hpost v (hsu'.trans hv)
  · exact .ret fun t ht => ⟨hI t ht.quiet, hpost t ht.quiet⟩

/-- An answer to the host. -/
theorem safe_axisResult (res : AxisResult)
    (h : ∀ t, Passes Happening.Quiet s t → I t.stand t.history ∧ post () t) :
    SafeProg I post (TestStandCommController.axisResult res >>= fun _ => .ret ()) s :=
  .quiet ((only_sendMessage _).bind fun _ => .ret ()) (fun t ht => (h t ht).1)
    fun _ t ht => (h t ht).2

/-- **`handle_move`** is quiet unless it starts an axis. -/
theorem safe_handleMove (h : ∀ t, Passes Happening.Quiet s t → I t.stand t.history ∧ post () t)
    (hstart : ∀ t data (now : TestStand)
      (hhappens : Happens t.stand
        (.acted ⟨.axisStart data.axis (moveMotion data t.stand.cal), .ok⟩) now),
      Passes Happening.Passive s t → TestStandCommController.recvMove s.rx.msg = some data →
      SafeProg I (fun _ u => ∀ v, Passes Happening.Quiet u v → I v.stand v.history ∧ post () v)
        (stand (.setStatus .moving)) (t.happen hhappens)) :
    SafeProg I post handleMove s := by
  refine .look (fun t ht => (h t ht.quiet).1) fun t ht hrx => ?_
  dsimp only [Prog.bind]
  split
  · rename_i data hdata
    rw [hrx] at hdata
    refine .act fun u hu _ => ⟨(h u (ht.trans hu.passive).quiet).1, fun cal _ hget => ?_⟩
    obtain rfl := hget.reads trivial
    have hsu := ht.trans (hu.passive.happen hget trivial)
    refine .act fun v hv _ => ⟨(h v (hsu.trans hv.passive).quiet).1, fun res _ hhappens => ?_⟩
    have hsv := hsu.trans hv.passive
    obtain rfl : cal = v.stand.cal := hget.getCal_eq.trans hv.passive.cal_eq.symm
    dsimp only [Prog.bind]
    by_cases hres : res = .ok
    · subst hres
      rw [if_pos rfl]
      exact World.Safe.bind ((hstart v data _ hhappens hsv hdata).mono fun _ w hw =>
        safe_axisResult .ok hw)
    · rw [if_neg hres]
      exact safe_axisResult res fun w hw => h w ((hsv.quiet.happen hhappens hres).trans hw)
  · exact safe_axisResult .errInvalid fun u hu => h u (ht.quiet.trans hu)

end Rounds

/-! ## Invariants of runs -/

/-- The message that the program is handling or has handled in this round, if
any. -/
def served : List Entry → Option Packet
  | [] => none
  | ⟨_, .round⟩ :: _ => none
  | ⟨_, .acted ⟨.dispatch p, _⟩⟩ :: _ => some p
  | _ :: history => served history

theorem Passes.served {cal : Calibration} {s t : Record cal}
    (h : Passes Happening.Passive s t) : MPMTTestStand.served t.history =
      MPMTTestStand.served s.history := by
  refine h.induct (motive := fun _ history => MPMTTestStand.served history =
    MPMTTestStand.served s.history) rfl ?_
  intro stand history ev stand' hev _ ih
  cases ev with
  | round => exact hev.elim
  | interrupt id e => exact ih
  | acted a =>
      obtain ⟨o, r⟩ := a
      cases o <;> first | exact ih | exact hev.elim

/-! ## Storing IDLE -/

/-- A STOP is being handled. -/
def ServesStop (history : List Entry) : Prop :=
  ∃ p, served history = some p ∧ p.id = msgIdStop

theorem not_servesStop {history : List Entry} (h : served history = none) :
    ¬ServesStop history := by
  rintro ⟨p, hp, -⟩
  rw [h] at hp
  cases hp

/-- If IDLE has just been stored for `status`, then `P` held of the history. -/
def IdleAfter (status : Status) (P : List Entry → Prop) : List Entry → Prop
  | ⟨b, .acted ⟨.setStatus .idle, _⟩⟩ :: history => b.status = status → P history
  | _ => True

section Idle

variable {cal : Calibration} {status : Status} {P : List Entry → Prop} {s t : Record cal}
  {α : Type} {post : α → Record cal → Prop}

theorem IdleAfter.of_ne {b : TestStand} {ev : Happening} {history : List Entry}
    (h : ∀ r, ev ≠ .acted ⟨.setStatus .idle, r⟩) : IdleAfter status P (⟨b, ev⟩ :: history) := by
  unfold IdleAfter
  split
  · rename_i heq
    have hev := congrArg Entry.event (List.cons.inj heq).1
    exact absurd hev (h _)
  · trivial

theorem IdleAfter.of_op {b : TestStand} {o : StandOp} {r : o.Res} {history : List Entry}
    (h : o ≠ .setStatus .idle) : IdleAfter status P (⟨b, .acted ⟨o, r⟩⟩ :: history) :=
  .of_ne fun _ heq => h (congrArg Acted.op (Happening.acted.inj heq))

theorem Happening.Quiet.not_idle {ev : Happening} (h : ev.Quiet) (r : Unit) :
    ev ≠ .acted ⟨.setStatus .idle, r⟩ := by
  rintro rfl
  exact h

theorem Passes.idleAfter (h : Passes Happening.Quiet s t) (hs : IdleAfter status P s.history) :
    IdleAfter status P t.history :=
  h.induct (motive := fun _ history => IdleAfter status P history) hs
    fun _ _ _ _ hev _ _ => .of_ne hev.not_idle

/-- An operation that does not store IDLE. -/
theorem SafeProg.notIdle {o : StandOp} {k : o.Res → StandProg α} (ho : o ≠ .setStatus .idle)
    (hs : IdleAfter status P s.history)
    (h : ∀ t r now (hhappens : Happens t.stand (.acted ⟨o, r⟩) now),
      Passes Happening.External s t → IdleAfter status P (t.happen hhappens).history →
      SafeProg (fun _ history => IdleAfter status P history) post (k r) (t.happen hhappens)) :
    SafeProg (fun _ history => IdleAfter status P history) post (.op (.act o) k) s :=
  .act fun t ht _ => ⟨ht.passive.quiet.idleAfter hs, fun r now hhappens =>
    h t r now hhappens ht (.of_op ho)⟩

/-- The end of a program. -/
theorem SafeProg.retIdle {a : α} (hs : IdleAfter status P s.history)
    (h : ∀ t, Passes Happening.Passive s t → post a t) :
    SafeProg (fun _ history => IdleAfter status P history) post (.ret a) s :=
  .ret fun t ht => ⟨ht.quiet.idleAfter hs, h t ht⟩

/-- Halting an axis is no business of the status. -/
theorem safe_halt {o : StandOp} (ho : o.Halts) (hs : IdleAfter status P s.history) :
    SafeProg (fun _ history => IdleAfter status P history)
      (fun _ t => IdleAfter status P t.history ∧ t.stand.status = s.stand.status ∧
        served t.history = served s.history) (stand o) s := by
  have hne : o ≠ .setStatus .idle := by
    rintro rfl
    exact ho
  refine .notIdle hne hs fun t r now hhappens ht hfound => ?_
  have hserved : served (t.happen hhappens).history = served t.history := by
    cases o <;> first | rfl | exact ho.elim
  refine .retIdle hfound fun u hu => ⟨hu.quiet.idleAfter hfound, ?_, ?_⟩
  · exact hu.quiet.status.trans ((hhappens.halt ho).1.trans ht.passive.quiet.status)
  · exact hu.served.trans (hserved.trans ht.passive.served)

end Idle

/-- The two calls of `axis_setup`. -/
def setupAxes (conf : Config) : StandProg Unit := do
  stand (.axisSetup .x conf.ioAxisX conf.axisMech)
  stand (.axisSetup .y conf.ioAxisY conf.axisMech)

/-- What a loop of the main program does on its own: `setup` only waits for the host. -/
def Phase.Quiet : Phase → Happening → Prop
  | .connecting => Happening.Waiting
  | .running => Happening.Quiet

theorem Passes.of_phase {cal : Calibration} {s t : Record cal} {phase : Phase}
    (h : Passes phase.Quiet s t) : Passes Happening.Quiet s t := by
  cases phase with
  | connecting => exact h.mono fun _ => Happening.Waiting.quiet
  | running => exact h

theorem Passes.external {cal : Calibration} {s t : Record cal} (phase : Phase)
    (h : Passes Happening.External s t) : Passes phase.Quiet s t := by
  cases phase with
  | connecting => exact h.waiting
  | running => exact h.passive.quiet

/-- `J` holds between the functions of the main program, and `I` at every point.
Quiet happenings do not disturb `J`. -/
structure Maintains (conf : Config) (cal : Calibration) (I : TestStand → List Entry → Prop)
    (J : Phase → Record cal → Prop) : Prop where
  quiet : ∀ phase s t, J phase s → Passes phase.Quiet s t → J phase t
  holds : ∀ phase s, J phase s → I s.stand s.history
  setup : SafeProg I (fun _ => J .connecting) (setupAxes conf) (Recorder.start cal)
  connected : ∀ s, J .connecting s →
    SafeProg I (fun _ => J .running) (stand (.setStatus .idle)) s
  update : ∀ s, J .running s → served s.history = none →
    SafeProg I (fun _ => J .running) updateStatus s
  serve : ∀ s (h : Happens s.stand (.acted ⟨.dispatch s.rx.msg.packet, ()⟩) s.stand),
    J .running s → Consequential s.rx.msg.id →
    SafeProg I (fun _ => J .running) (handle s.rx.msg.id) (s.happen h)

namespace Maintains

variable {cal : Calibration} {I : TestStand → List Entry → Prop}
  {J : Phase → Record cal → Prop} {conf : Config}

/-- A function is over. -/
theorem ret (h : Maintains conf cal I J) {phase : Phase} {s : Record cal} (hs : J phase s) :
    SafeProg I J (.ret phase) s :=
  fun t ht =>
    have hexternal := (Passes.refl Happening.External s).rely (fun _ _ => trivial) ht
    have ht' := h.quiet _ s t hs (hexternal.external phase)
    ⟨h.holds _ t ht', ht'⟩

theorem connect (h : Maintains conf cal I J) {s : Record cal} (hs : J .connecting s) :
    SafeProg I J connect s := by
  refine World.Safe.bind (SafeProg.talk (talk_sendMessage _)
    (fun t ht => h.holds .connecting t (h.quiet _ s t hs ht)) fun res t ht => ?_)
  have ht' := h.quiet .connecting s t hs ht
  split
  · exact World.Safe.bind ((h.connected t ht').mono fun _ u hu => h.ret hu)
  · exact h.ret ht'

theorem execute (h : Maintains conf cal I J) {s : Record cal} (hs : J .running s)
    (hround : served s.history = none) :
    SafeProg I (fun _ => J .running) execute s := by
  refine World.Safe.bind ((h.update s hs hround).mono fun _ t ht => ?_)
  refine World.Safe.bind (SafeProg.quiet only_checkForMessage
    (fun u hu => h.holds .running u (h.quiet _ t u ht hu)) fun res u hu => ?_)
  have hu' := h.quiet .running t u ht hu
  exact safe_serve (fun v hv => h.holds .running v (h.quiet _ u v hu' hv))
    (fun v hv => h.quiet .running u v hu' hv)
    fun v hdispatch hv hid => h.serve v hdispatch (h.quiet .running u v hu' hv) hid

/-- A round of either loop. -/
theorem round (h : Maintains conf cal I J) (phase : Phase) (s : Record cal) (hs : J phase s) :
    SafeProg I J phase.prog (s.happen .round) := by
  have hround := h.quiet phase s _ hs
    ((Passes.refl _ s).happen .round (by cases phase <;> trivial))
  cases phase with
  | connecting => exact h.connect hround
  | running => exact World.Safe.bind ((h.execute hround rfl).mono fun _ t ht => h.ret ht)

/-- The program is safe at every point of a run. -/
theorem isSafe (h : Maintains conf cal I J) {events : List ControllerEvent} {m : Recorder}
    (hrun : Run.run Recorder.step (.init conf cal) events = some m) : m.IsSafe I J := by
  have hsetup : SafeProg I J (setupAxes conf >>= fun _ => MPMTTestStand.connect)
      (Recorder.start cal) := World.Safe.bind (h.setup.mono fun _ t ht => h.connect ht)
  exact Recorder.safe hsetup h.round hrun

/-- **An invariant of the rounds is one of the runs.** -/
theorem run (h : Maintains conf cal I J) {events : List ControllerEvent} {m : Recorder}
    (hrun : Run.run Recorder.step (.init conf cal) events = some m) :
    I m.controller.stand m.history :=
  let ⟨_, hsafe⟩ := h.isSafe hrun
  hsafe.holds

end Maintains

end MPMTTestStand

end MpmtTestStand.Ports
