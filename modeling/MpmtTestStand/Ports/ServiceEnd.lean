import MpmtTestStand.Ports.Modes

/-!
# When a command has been served

A command that gets no response is over when the next round begins or the next message
is dispatched.  By then its handler has run to its end (`Outcome`): after a HOME the
controller is in part A of the homing routine, after a STOP it is idle.
-/

namespace MpmtTestStand.Ports

open MpmtTestStand.Verified
open MpmtTestStand.Verified.Run

namespace MPMTTestStand

/-! ## Outcomes -/

/-- What the handler of the message served has come to. -/
structure Outcome (b : TestStand) (old : List Entry) : Prop where
  home : Handles msgIdHome old → b.mode = .homingA
  stop : Handles msgIdStop old → b.mode = .idle

/-- A round or a dispatch ends the service of the message before. -/
def Happening.EndsService : Happening → Prop
  | .round => True
  | .acted ⟨.dispatch _, _⟩ => True
  | _ => False

/-- The service that has just ended had this outcome. -/
def JustServed : List Entry → Prop
  | ⟨b, .round⟩ :: old => Outcome b old
  | ⟨b, .acted ⟨.dispatch _, _⟩⟩ :: old => Outcome b old
  | _ => True

theorem JustServed.of_goes {b : TestStand} {ev : Happening} {old : List Entry}
    (hev : ¬ev.EndsService) : JustServed (⟨b, ev⟩ :: old) := by
  cases ev with
  | round => exact absurd trivial hev
  | interrupt id e => trivial
  | acted a =>
      obtain ⟨o, r⟩ := a
      cases o with
      | dispatch p => exact absurd trivial hev
      | _ => trivial

theorem served_of_goes {b : TestStand} {ev : Happening} {old : List Entry}
    (hev : ¬ev.EndsService) : served (⟨b, ev⟩ :: old) = served old := by
  cases ev with
  | round => exact absurd trivial hev
  | interrupt id e => rfl
  | acted a =>
      obtain ⟨o, r⟩ := a
      cases o with
      | dispatch p => exact absurd trivial hev
      | _ => rfl

/-- Nothing of consequence is served. -/
theorem Outcome.of_served {b : TestStand} {old : List Entry}
    (h : ∀ p, served old = some p → ¬Consequential p.id) : Outcome b old where
  home := by
    rintro ⟨p, hp, hid⟩
    exact absurd (.inl hid) (h p hp)
  stop := by
    rintro ⟨p, hp, hid⟩
    exact absurd (.inr (.inr hid)) (h p hp)

section Service

variable {cal : Calibration} {s t : Record cal}

/-- What holds between the functions of the main program. -/
structure ServiceInv (phase : MPMTTestStand.Phase) (s : Record cal) : Prop where
  outcome : Outcome s.stand s.history
  just : JustServed s.history
  connecting : phase = .connecting → ∀ p, served s.history = some p → ¬Consequential p.id

variable {phase : Phase}

theorem ServiceInv.quiet (h : ServiceInv phase s) (ht : Passes Happening.Quiet s t) :
    ServiceInv phase t := by
  have hall : (Outcome t.stand t.history ∧ JustServed t.history) ∧
      (phase = .connecting → ∀ p, served t.history = some p → ¬Consequential p.id) := by
    refine ht.induct (motive := fun stand history =>
      (Outcome stand history ∧ JustServed history) ∧
        (phase = .connecting → ∀ p, served history = some p → ¬Consequential p.id))
      ⟨⟨h.outcome, h.just⟩, h.connecting⟩ ?_
    rintro stand history ev stand' hev hhappens ⟨⟨houtcome, -⟩, hconnecting⟩
    by_cases hends : ev.EndsService
    · -- the service is over, and nothing of consequence has been dispatched
      have hserved : ∀ p, served (⟨stand, ev⟩ :: history) = some p → ¬Consequential p.id := by
        intro p hp
        cases ev with
        | round => cases hp
        | interrupt id e => exact hends.elim
        | acted a =>
            obtain ⟨o, r⟩ := a
            cases o with
            | dispatch q =>
                obtain rfl : q = p := Option.some.inj hp
                rintro (hid | hid | hid)
                · exact hev.1 hid
                · exact hev.2.1 hid
                · exact hev.2.2 hid
            | _ => exact hends.elim
      refine ⟨⟨.of_served hserved, ?_⟩, fun _ => hserved⟩
      cases ev with
      | round => exact houtcome
      | interrupt id e => exact hends.elim
      | acted a =>
          obtain ⟨o, r⟩ := a
          cases o with
          | dispatch q => exact houtcome
          | _ => exact hends.elim
    · have hserved : served (⟨stand, ev⟩ :: history) = served history := served_of_goes hends
      have hmode : stand'.mode = stand.mode := by
        obtain ⟨hstatus, hdone, -⟩ := hhappens.quiet hev
        exact TestStand.mode_congr hstatus fun _ => hdone
      refine ⟨⟨⟨?_, ?_⟩, .of_goes hends⟩, ?_⟩
      · rintro ⟨p, hp, hid⟩
        exact hmode.trans (houtcome.home ⟨p, hserved.symm.trans hp, hid⟩)
      · rintro ⟨p, hp, hid⟩
        exact hmode.trans (houtcome.stop ⟨p, hserved.symm.trans hp, hid⟩)
      · rw [hserved]
        exact hconnecting
  exact ⟨hall.1.1, hall.1.2, hall.2⟩

/-- An operation other than a dispatch. -/
def NotDispatch (o : LinkOp standSig) : Prop := ∀ p, o ≠ .act (.dispatch p)

theorem not_endsService {o : StandOp} (ho : NotDispatch (.act o)) (r : o.Res) :
    ¬(Happening.acted ⟨o, r⟩).EndsService := by
  cases o with
  | dispatch p => exact absurd rfl (ho p)
  | _ => exact id

/-- A program that dispatches nothing goes on with the message that it serves. -/
theorem safe_undispatched {α : Type} {p : StandProg α} (hp : Prog.Only NotDispatch p)
    (hs : JustServed s.history) :
    SafeProg (fun _ history => JustServed history)
      (fun _ t => JustServed t.history ∧ served t.history = served s.history) p s := by
  let inv (t : Record cal) : Prop :=
    JustServed t.history ∧ served t.history = served s.history
  have hdisturb : ∀ t u, inv t → (standWorld cal).disturbs t u → inv u := by
    rintro t u ⟨-, hserved⟩ ⟨id, e, he, rfl⟩
    exact ⟨trivial, hserved⟩
  have hdoes : ∀ o t r u, NotDispatch o → inv t → (standWorld cal).does t o r u → inv u := by
    rintro o t r u ho ⟨hjust, hserved⟩ hdoes
    cases o with
    | look =>
        obtain ⟨-, rfl⟩ := hdoes
        exact ⟨hjust, hserved⟩
    | act o =>
        obtain ⟨stand, hhappens, rfl⟩ := hdoes
        have hends := not_endsService ho r
        exact ⟨.of_goes hends, (served_of_goes hends).trans hserved⟩
    | serWrite data | checkForMessage | recvMessage t =>
        obtain ⟨rx, rfl⟩ := hdoes
        exact ⟨hjust, hserved⟩
  exact World.Safe.of_only hp hdisturb hdoes (fun _ ht => ht.1) ⟨hs, rfl⟩

/-- Nothing of consequence has been served. -/
theorem ServiceInv.of_served (hjust : JustServed s.history)
    (h : ∀ p, served s.history = some p → ¬Consequential p.id) : ServiceInv phase s :=
  ⟨.of_served h, hjust, fun _ => h⟩

/-! ## Handlers -/

theorem only_own {p : StandProg Unit} (h : Prog.Only Own p) : Prog.Only NotDispatch p := by
  refine h.mono fun o ho q hq => ?_
  obtain ⟨o', rfl, hne⟩ := ho
  exact hne q (LinkOp.act.inj hq)

theorem Passes.justServed (h : Passes Happening.Passive s t) (hs : JustServed s.history) :
    JustServed t.history := by
  refine h.induct (motive := fun _ history => JustServed history) hs ?_
  intro b history ev b' hev _ _
  cases ev with
  | round => exact hev.elim
  | interrupt id e => trivial
  | acted a =>
      obtain ⟨o, r⟩ := a
      cases o with
      | dispatch p => exact hev.elim
      | _ => trivial

/-- An operation other than a dispatch. -/
theorem SafeProg.goes {α : Type} {post : α → Record cal → Prop} {o : StandOp}
    {k : o.Res → StandProg α} (ho : NotDispatch (.act o)) (hs : JustServed s.history)
    (h : ∀ t r now (hhappens : Happens t.stand (.acted ⟨o, r⟩) now),
      Passes Happening.External s t → JustServed (t.happen hhappens).history →
      served (t.happen hhappens).history = served s.history →
      SafeProg (fun _ history => JustServed history) post (k r) (t.happen hhappens)) :
    SafeProg (fun _ history => JustServed history) post (.op (.act o) k) s :=
  .act fun t ht _ => ⟨ht.passive.justServed hs, fun r now hhappens =>
    have hends := not_endsService ho r
    h t r now hhappens ht (.of_goes hends) ((served_of_goes hends).trans ht.passive.served)⟩

/-- The status is stored last, and stands for `mode`. -/
theorem safe_lastMode {status : Status} {mode : Mode} (hs : JustServed s.history)
    (hmode : ∀ t, Passes Happening.External s t →
      TestStand.mode { t.stand with status := status } = mode) :
    SafeProg (fun _ history => JustServed history)
      (fun _ t => JustServed t.history ∧ served t.history = served s.history ∧
        t.stand.mode = mode) (stand (.setStatus status)) s := by
  refine .goes (by simp [NotDispatch]) hs fun t r now hhappens ht hjust hserved => ?_
  refine .ret fun u hu => ⟨hu.justServed hjust, hu.justServed hjust, hu.served.trans hserved, ?_⟩
  have hnow : u.stand.mode = now.mode :=
    TestStand.mode_congr hu.quiet.status fun _ => hu.quiet.homeADone
  rw [hnow, hhappens.setStatus_eq]
  exact hmode t ht

/-- `handle_home_a` -/
theorem safe_servedHome (hs : JustServed s.history) :
    SafeProg (fun _ history => JustServed history)
      (fun _ t => JustServed t.history ∧ served t.history = served s.history ∧
        t.stand.mode = .homingA) handleHomeA s := by
  have hop : ∀ o : StandOp, (∀ p, o ≠ .dispatch p) → NotDispatch (.act o) := by
    intro o ho p hp
    exact ho p (LinkOp.act.inj hp)
  refine .goes (hop _ (by simp)) hs fun t c now _ _ hjust ht => ?_
  refine .goes (hop _ (by simp)) hjust fun u r now _ _ hjust hu => ?_
  refine .goes (hop _ (by simp)) hjust fun v r now _ _ hjust hv => ?_
  refine .goes (hop _ (by simp)) hjust fun w r now hdone _ hjust hw => ?_
  have hserved := hw.trans (hv.trans (hu.trans ht))
  have hmode : ∀ x, Passes Happening.External (w.happen hdone) x →
      TestStand.mode { x.stand with status := .homing } = .homingA := by
    intro x hx
    have hset : x.stand.homeADone = false :=
      hx.passive.quiet.homeADone.trans (congrArg TestStand.homeADone hdone.setHomeADone_eq)
    simp [TestStand.mode, hset]
  exact (safe_lastMode hjust hmode).mono fun _ y hy =>
    ⟨hy.1, hy.2.1.trans hserved, hy.2.2⟩

/-- `handle_stop` -/
theorem safe_servedStop (hs : JustServed s.history) :
    SafeProg (fun _ history => JustServed history)
      (fun _ t => JustServed t.history ∧ served t.history = served s.history ∧
        t.stand.mode = .idle) handleStop s := by
  refine .goes (by simp [NotDispatch]) hs fun t r now _ _ hjust ht => ?_
  refine .goes (by simp [NotDispatch]) hjust fun u r now hhappens _ hjust hu => ?_
  have hmode : ∀ x, Passes Happening.External (u.happen hhappens) x →
      TestStand.mode { x.stand with status := .idle } = .idle := fun _ _ => rfl
  exact (safe_lastMode hjust hmode).mono fun _ y hy =>
    ⟨hy.1, hy.2.1.trans (hu.trans ht), hy.2.2⟩

theorem notDispatch_handleMove : Prog.Only NotDispatch handleMove := by
  have hquiet : ∀ {α} {p : StandProg α}, Prog.Only QuietOp p → Prog.Only NotDispatch p := by
    intro α p hp
    refine hp.mono fun o ho q hq => ?_
    subst hq
    exact ho
  have hsend : ∀ res, Prog.Only NotDispatch
      (TestStandCommController.axisResult res >>= fun _ => .ret () : StandProg Unit) :=
    fun res => (hquiet (only_sendMessage _)).bind fun _ => .ret ()
  have hop : ∀ o : StandOp, (∀ p, o ≠ .dispatch p) → NotDispatch (.act o) := by
    intro o ho p hp
    exact ho p (LinkOp.act.inj hp)
  refine .op (by simp [NotDispatch]) fun r => ?_
  dsimp only [Prog.bind]
  split
  · refine .op (hop _ (by simp)) fun c => .op (hop _ (by simp)) fun res => ?_
    dsimp only [Prog.bind]
    split
    · exact .op (hop _ (by simp)) fun _ => hsend res
    · exact hsend res
  · exact hsend .errInvalid

end Service

/-! ## Runs -/

theorem maintains_justServed (conf : Config) (cal : Calibration) :
    Maintains conf cal (fun _ history => JustServed history) ServiceInv where
  quiet _ _ _ hs ht := hs.quiet ht.of_phase
  holds _ _ hs := hs.just
  setup := by
    have hjust : JustServed (Recorder.start cal).history := trivial
    refine (safe_undispatched ?_ hjust).mono fun _ t ht => .of_served ht.1 ?_
    · exact .op (by simp [NotDispatch]) fun _ => .op (by simp [NotDispatch]) fun _ => .ret ()
    · rw [ht.2]
      exact fun p hp => absurd hp.symm (Option.some_ne_none p)
  connected s hs := by
    refine (safe_undispatched ?_ hs.just).mono fun _ t ht => .of_served ht.1 ?_
    · exact .op (by simp [NotDispatch]) fun _ => .ret ()
    · rw [ht.2]
      exact hs.connecting rfl
  update s hs hserved := by
    refine (safe_undispatched (only_own only_updateStatus) hs.just).mono fun _ t ht =>
      .of_served ht.1 ?_
    rw [ht.2, hserved]
    exact fun p hp => absurd hp.symm (Option.some_ne_none p)
  serve s h hs hid := by
    have hjust : JustServed (s.happen h).history := hs.outcome
    have hne : ∀ {t : Record cal} {id : UInt8}, served t.history = served (s.happen h).history →
        s.rx.msg.id ≠ id → ¬Handles id t.history := by
      rintro t id ht hid ⟨p, hp, rfl⟩
      obtain rfl : s.rx.msg.packet = p := Option.some.inj (ht.symm.trans hp)
      exact hid rfl
    rcases hid with hid | hid | hid <;> simp only [hid]
    · refine (safe_servedHome hjust).mono fun _ t ht => ⟨⟨fun _ => ht.2.2, fun hstop => ?_⟩, ht.1,
        by simp⟩
      exact absurd hstop (hne ht.2.1 (by rw [hid]; decide))
    · refine (safe_undispatched notDispatch_handleMove hjust).mono fun _ t ht =>
        ⟨⟨fun hhome => ?_, fun hstop => ?_⟩, ht.1, by simp⟩
      · exact absurd hhome (hne ht.2 (by rw [hid]; decide))
      · exact absurd hstop (hne ht.2 (by rw [hid]; decide))
    · refine (safe_servedStop hjust).mono fun _ t ht => ⟨⟨fun hhome => ?_, fun _ => ht.2.2⟩, ht.1,
        by simp⟩
      exact absurd hhome (hne ht.2.1 (by rw [hid]; decide))

/-- **A command has been carried out** when its service ends. -/
theorem Recorder.Reached.outcome {conf : Config} {cal : Calibration} {m : Recorder}
    (hm : Recorder.Reached conf cal m) {new old : List Entry} {e : Entry}
    (hsplit : m.history = new ++ e :: old) (he : e.event.EndsService) : Outcome e.before old := by
  obtain ⟨m1, hm1, hhistory⟩ := hm.suffix hsplit
  have hjust := (maintains_justServed conf cal).reached hm1
  rw [hhistory] at hjust
  obtain ⟨b, ev⟩ := e
  cases ev with
  | round => exact hjust
  | interrupt id e => exact he.elim
  | acted a =>
      obtain ⟨o, r⟩ := a
      cases o with
      | dispatch p => exact hjust
      | _ => exact he.elim

end MPMTTestStand

end MpmtTestStand.Ports
