import MpmtTestStand.Ports.Codecs
import MpmtTestStand.Ports.OwnOrders

/-!
# The calibration as a register

The controller keeps its calibration in one variable, which CALIBRATE writes and the
starts of the axes read.  `calibrated` is what a history of messages should have made of
it.  Whenever no CALIBRATE is being handled, that is what the variable holds
(`Recorder.calibration`): no message is lost on the way to it, and nothing else
writes it.

A CALIBRATE that is too short for its value is decoded from what an earlier message has
left in the buffer, so it is left out here (`Covered`).
-/

namespace MpmtTestStand.Ports

open MpmtTestStand.Verified
open MpmtTestStand.Verified.Run

/-! ## Messages -/

/-- What a message makes of the calibration. -/
def Packet.calibrates (p : Packet) (cal : Calibration) : Calibration :=
  if p.id = msgIdCalibrate ∧ p.payload ≠ [] then (cal.extract p.payload).getD cal else cal

theorem Packet.calibrates_of_ne {p : Packet} (h : p.id ≠ msgIdCalibrate) (cal : Calibration) :
    p.calibrates cal = cal := if_neg fun hboth => h hboth.1

/-- What `handle_calibrate` stores, if anything, is what the message makes of the
calibration, wherever the rest of the buffer comes from. -/
theorem recvCalibrate_covered {msg : ReceivedMessage} (hid : msg.id = msgIdCalibrate)
    (hcovered : Covered msg.packet.payload) (cal : Calibration) :
    (TestStandCommController.recvCalibrate msg cal).getD cal = msg.packet.calibrates cal := by
  unfold Packet.calibrates
  rcases hpayload : msg.packet.payload with _ | ⟨key, rest⟩
  · rw [recvCalibrate_nil hpayload, if_neg (by simp)]
    rfl
  · obtain ⟨-, -, stale, hdata⟩ := ReceivedMessage.of_packet (rfl : msg.packet = msg.packet)
    rw [recvCalibrate_cons hpayload, if_pos ⟨hid, by simp⟩, Calibration.extract_eq]
    show (Option.map _ (CalibrationKey.ofByte? key)).getD cal =
      (Option.map _ (CalibrationKey.ofByte? key)).getD cal
    rcases hkey : CalibrationKey.ofByte? key with _ | k
    · rfl
    · have hsize := hcovered key rest k hpayload hkey
      have htake : List.take k.size (rest ++ stale) = List.take k.size rest :=
        List.take_append_of_le_length hsize
      rw [Option.map_some, Option.map_some, hdata, hpayload]
      exact congrArg (fun value => cal.store value k) htake

namespace MPMTTestStand

/-- The calibration that the messages of a history should have led to. -/
def calibrated (cal : Calibration) : List Entry → Calibration
  | [] => cal
  | ⟨_, .acted ⟨.dispatch p, _⟩⟩ :: old => p.calibrates (calibrated cal old)
  | _ :: old => calibrated cal old

/-- Every CALIBRATE among the messages covers its value. -/
def AllCovered (history : List Entry) : Prop :=
  ∀ b p r, ⟨b, .acted ⟨.dispatch p, r⟩⟩ ∈ history → p.id = msgIdCalibrate → Covered p.payload

/-- Since `base`, when it was `cal`, the calibration is what the messages have made of it. -/
def Registers (cal : Calibration) (base : List Entry) (s : TestStand) (history : List Entry) :
    Prop :=
  ∃ new, history = new ++ base ∧ (AllCovered new → s.cal = calibrated cal new)

section Registers

variable {cal cal0 : Calibration} {base history : List Entry} {s s' : TestStand} {ev : Happening}

theorem AllCovered.tail {e : Entry} (h : AllCovered (e :: history)) : AllCovered history :=
  fun b p r hmem => h b p r (List.mem_cons_of_mem _ hmem)

/-- The program writes the calibration, or begins to serve a CALIBRATE. -/
def Happening.Calibrates : Happening → Prop
  | .acted ⟨.dispatch p, _⟩ => p.id = msgIdCalibrate
  | .acted ⟨.setCal _, _⟩ => True
  | _ => False

theorem Happens.cal_eq (h : Happens s ev s') (hev : ∀ c r, ev ≠ .acted ⟨.setCal c, r⟩) :
    s'.cal = s.cal := by
  cases h with
  | round => rfl
  | interrupt id e _ => exact TestStand.cal_setAxis ..
  | acted a around _ h =>
      have hhappens := Happens.acted a around s' h
      obtain ⟨o, r⟩ := a
      cases o with
      | setCal c => exact absurd rfl (hev c r)
      | setStatus status => rw [hhappens.setStatus_eq]
      | setHomeADone done => rw [hhappens.setHomeADone_eq]
      | axisSetup id io mech => exact hhappens.axisSetup_eq ▸ TestStand.cal_setAxis ..
      | axisStop id => exact hhappens.axisStop_eq ▸ TestStand.cal_setAxis ..
      | axisReset id => exact hhappens.axisReset_eq ▸ TestStand.cal_setAxis ..
      | axisStart raw motion =>
          obtain ⟨id, -, -, rfl⟩ := hhappens.axisStart_eq
          exact TestStand.cal_setAxis ..
      | dispatch p => rw [hhappens.dispatch]
      | _ => rw [hhappens.reads trivial]

/-- What is no business of the calibration. -/
theorem calibrated_cons {b : TestStand} (hev : ¬ev.Calibrates) :
    calibrated cal (⟨b, ev⟩ :: history) = calibrated cal history := by
  cases ev with
  | round => rfl
  | interrupt id e => rfl
  | acted a =>
      obtain ⟨o, r⟩ := a
      cases o with
      | dispatch p => exact Packet.calibrates_of_ne hev _
      | _ => rfl

theorem Registers.cons (h : Registers cal base s history) (hhappens : Happens s ev s')
    (hev : ¬ev.Calibrates) : Registers cal base s' (⟨s, ev⟩ :: history) := by
  obtain ⟨new, rfl, hnew⟩ := h
  refine ⟨⟨s, ev⟩ :: new, rfl, fun hcovered => ?_⟩
  have hne : ∀ c r, ev ≠ .acted ⟨.setCal c, r⟩ := by
    rintro c r rfl
    exact hev trivial
  rw [hhappens.cal_eq hne, calibrated_cons hev]
  exact hnew hcovered.tail

end Registers

/-! ## Programs -/

/-- An operation that neither dispatches a message nor writes the calibration. -/
def Calm : LinkOp standSig → Prop
  | .act (.dispatch _) => False
  | .act (.setCal _) => False
  | _ => True

theorem calm_stand {o : StandOp} (ho : Calm (.act o)) : Prog.Only Calm (stand o) :=
  .perform (S := linkSig standSig) ho

theorem calm_writePieces (pieces : List (List UInt8)) :
    Prog.Only Calm (SerialTransport.writePieces pieces : StandProg Bool) := by
  induction pieces with
  | nil => exact .ret true
  | cons piece rest ih => exact .op trivial fun _ => .ite ih (.ret false)

theorem calm_sendMessage (p : Packet) :
    Prog.Only Calm (SerialSession.sendMessage p : StandProg SerialResult) := by
  refine .op trivial fun r => ?_
  refine .ite (.ret _) ((calm_writePieces _).bind fun sent => ?_)
  refine .ite (.op trivial fun received => ?_) (.ret _)
  exact .ite (.op trivial fun r => .ite (.ret _) (.ret _)) (.ret _)

theorem calm_checkForMessage :
    Prog.Only Calm (SerialSession.checkForMessage : StandProg SerialResult) := by
  refine .op trivial fun complete => ?_
  refine .ite (.op trivial fun r => ?_) (.ret _)
  exact .ite (.ret _) ((calm_writePieces _).bind fun _ => .ite (.ret _) (.ret _))

theorem calm_connect : Prog.Only Calm connect := by
  refine (calm_sendMessage _).bind fun res => .ite ?_ (.ret _)
  exact (calm_stand (o := .setStatus .idle) trivial).bind fun _ => .ret _

/-- Either part of the homing routine is begun. -/
theorem calm_beginHoming (done : Bool) (cal : Calibration) : Prog.Only Calm (do
    let _ ← axisStart .x (homingMotion (homingDir done) cal)
    let _ ← axisStart .y (homingMotion (homingDir done) cal)
    stand (.setHomeADone done)
    stand (.setStatus .homing)) := by
  refine (calm_stand (o := .axisStart _ _) trivial).bind fun _ => ?_
  refine (calm_stand (o := .axisStart _ _) trivial).bind fun _ => ?_
  exact (calm_stand (o := .setHomeADone _) trivial).bind fun _ => calm_stand trivial

theorem calm_updateStatus : Prog.Only Calm updateStatus := by
  have hset := fun status => calm_stand (o := .setStatus status) trivial
  have hany : Prog.Only Calm anyMoving :=
    (calm_stand (o := .moving .x) trivial).orM (calm_stand (o := .moving .y) trivial)
  refine (calm_stand (o := .getStatus) trivial).bind fun status => ?_
  cases status with
  | idle | fault => exact .ret ()
  | moving =>
      refine hany.bind fun _ => .ite (hset .moving) ?_
      refine .bind ?_ fun _ => .ite (hset .fault) (hset .idle)
      refine (calm_stand (o := .lsHomePressed .x) trivial).orM ?_
      refine (calm_stand (o := .lsFarPressed .x) trivial).orM ?_
      exact (calm_stand (o := .lsHomePressed .y) trivial).orM
        (calm_stand (o := .lsFarPressed .x) trivial)
  | homing =>
      refine (calm_stand (o := .getHomeADone) trivial).bind fun _ => .ite ?_ ?_
      · refine hany.bind fun _ => .ite (hset .homing) (.bind ?_ fun _ => .ite ?_ (hset .fault))
        · exact (calm_stand (o := .lsHomePressed .x) trivial).andM
            (calm_stand (o := .lsHomePressed .y) trivial)
        · exact (calm_stand (o := .getCal) trivial).bind fun cal => calm_beginHoming true cal
      · refine hany.bind fun _ => .ite (hset .homing) ?_
        refine (calm_stand (o := .axisReset .x) trivial).bind fun _ => ?_
        refine (calm_stand (o := .axisReset .y) trivial).bind fun _ => ?_
        exact (hset .idle).bind fun _ => calm_stand (o := .setHomeADone false) trivial

/-- The other handlers leave the calibration alone. -/
theorem calm_handle {id : UInt8} (hid : id ≠ msgIdCalibrate) : Prog.Only Calm (handle id) := by
  have hsend : ∀ p, Prog.Only Calm
      ((SerialSession.sendMessage p : StandProg SerialResult) >>= fun _ => .ret ()) :=
    fun p => (calm_sendMessage p).bind fun _ => .ret ()
  unfold handle
  refine .ite (.op trivial fun _ => hsend _) (.ite ?_ (.ite ?_ (.ite ?_ (.ite ?_ (.ite ?_
    (.ite (.ret ()) (.ite ?_ ?_)))))))
  · exact (calm_stand (o := .getCal) trivial).bind fun cal => calm_beginHoming false cal
  · refine .op trivial fun r => ?_
    dsimp only [Prog.bind]
    split
    · refine .op trivial fun cal => .op trivial fun res => ?_
      dsimp only [Prog.bind]
      split
      · exact .op trivial fun _ => hsend _
      · exact hsend _
    · exact hsend _
  · exact .op trivial fun _ => .op trivial fun _ => calm_stand (o := .setStatus .idle) trivial
  · exact (calm_stand (o := .getStatus) trivial).bind fun _ => hsend _
  · refine (calm_stand (o := .firstArgument) trivial).bind fun first => ?_
    cases first with
    | x =>
        refine (calm_stand (o := .encoderCurrent .x) trivial).bind fun _ => ?_
        exact (calm_stand (o := .encoderCurrent .y) trivial).bind fun _ => hsend _
    | y =>
        refine (calm_stand (o := .encoderCurrent .y) trivial).bind fun _ => ?_
        exact (calm_stand (o := .encoderCurrent .x) trivial).bind fun _ => hsend _
  · exact (calm_stand (o := .readTempData) trivial).bind fun _ => hsend _
  · rw [if_neg hid]
    exact .ret ()

/-- Whenever no CALIBRATE is being handled, the calibration is what the messages have made
of it. -/
def Current (cal0 : Calibration) (base : List Entry) (s : TestStand) (history : List Entry) :
    Prop :=
  ¬Handles msgIdCalibrate history → Registers cal0 base s history

/-- The CALIBRATE `p` has been dispatched, and is still to be stored. -/
def Pending (cal0 : Calibration) (base : List Entry) (p : Packet) (s : TestStand)
    (history : List Entry) : Prop :=
  ∃ new, history = new ++ base ∧
    (AllCovered new → Covered p.payload ∧ p.calibrates s.cal = calibrated cal0 new)

section Safe

variable {cal cal0 : Calibration} {base : List Entry} {s t : Record cal} {p : Packet}

theorem Pending.cons {b b' : TestStand} {ev : Happening} {history : List Entry}
    (h : Pending cal0 base p b history) (hhappens : Happens b ev b') (hev : ¬ev.Calibrates) :
    Pending cal0 base p b' (⟨b, ev⟩ :: history) := by
  obtain ⟨new, rfl, hnew⟩ := h
  refine ⟨⟨b, ev⟩ :: new, rfl, fun hcovered => ?_⟩
  have hne : ∀ c r, ev ≠ .acted ⟨.setCal c, r⟩ := by
    rintro c r rfl
    exact hev trivial
  rw [hhappens.cal_eq hne, calibrated_cons hev]
  exact hnew hcovered.tail

/-- The message is stored. -/
theorem Pending.store {b b' : TestStand} {c : Calibration} {r : Unit} {history : List Entry}
    (h : Pending cal0 base p b history) (hhappens : Happens b (.acted ⟨.setCal c, r⟩) b')
    (hc : Covered p.payload → c = p.calibrates b.cal) :
    Registers cal0 base b' (⟨b, .acted ⟨.setCal c, r⟩⟩ :: history) := by
  obtain ⟨new, rfl, hnew⟩ := h
  refine ⟨⟨b, .acted ⟨.setCal c, r⟩⟩ :: new, rfl, fun hcovered => ?_⟩
  obtain ⟨hp, hcal⟩ := hnew hcovered.tail
  have hstored : b'.cal = c := by
    cases hhappens with
    | acted _ _ _ h => exact (Prod.mk.inj (Option.some.inj h)).2 ▸ rfl
  exact hstored.trans ((hc hp).trans hcal)

/-- The message names no field. -/
theorem Pending.skip {b : TestStand} {history : List Entry} (h : Pending cal0 base p b history)
    (hskip : Covered p.payload → p.calibrates b.cal = b.cal) : Registers cal0 base b history := by
  obtain ⟨new, rfl, hnew⟩ := h
  refine ⟨new, rfl, fun hcovered => ?_⟩
  obtain ⟨hp, hcal⟩ := hnew hcovered
  exact (hskip hp).symm.trans hcal

theorem Happening.Passive.not_calibrates {ev : Happening} (h : ev.Passive) : ¬ev.Calibrates := by
  cases ev with
  | round => exact h.elim
  | interrupt _ e => exact id
  | acted a =>
      obtain ⟨o, r⟩ := a
      cases o <;> first | exact id | exact h.elim

theorem Passes.pending (h : Passes Happening.Passive s t)
    (hs : Pending cal0 base p s.stand s.history) : Pending cal0 base p t.stand t.history :=
  h.induct (motive := fun stand history => Pending cal0 base p stand history) hs
    fun _ _ _ _ hev hhappens ih => ih.cons hhappens hev.not_calibrates

theorem Passes.registers (h : Passes Happening.Passive s t)
    (hs : Registers cal0 base s.stand s.history) : Registers cal0 base t.stand t.history :=
  h.induct (motive := fun stand history => Registers cal0 base stand history) hs
    fun _ _ _ _ hev hhappens ih => ih.cons hhappens hev.not_calibrates

/-- A program that does not calibrate. -/
theorem safe_calm {α : Type} {p : StandProg α} (hp : Prog.Only Calm p)
    (hs : Registers cal0 base s.stand s.history) :
    SafeProg (Current cal0 base) (fun _ t => Registers cal0 base t.stand t.history) p s := by
  let inv (t : Record cal) : Prop := Registers cal0 base t.stand t.history
  have hdisturb : ∀ t u, inv t → (standWorld cal).disturbs t u → inv u := by
    rintro t u ht ⟨id, e, he, rfl⟩
    exact ht.cons (.interrupt id e he) fun hev => hev
  have hdoes : ∀ o t r u, Calm o → inv t → (standWorld cal).does t o r u → inv u := by
    rintro o t r u ho ht hdoes
    cases o with
    | look =>
        obtain ⟨-, rfl⟩ := hdoes
        exact ht
    | act o =>
        obtain ⟨stand, hhappens, rfl⟩ := hdoes
        refine ht.cons hhappens ?_
        cases o <;> first | exact id | exact ho.elim
    | serWrite data | checkForMessage | recvMessage t =>
        obtain ⟨rx, rfl⟩ := hdoes
        exact ht
  exact World.Safe.of_only hp hdisturb hdoes (fun _ ht _ => ht) hs

/-- `handle_calibrate` -/
theorem safe_calibrate (hid : s.rx.msg.id = msgIdCalibrate)
    (hserved : served s.history = some s.rx.msg.packet)
    (hs : Pending cal0 base s.rx.msg.packet s.stand s.history) :
    SafeProg (Current cal0 base) (fun _ t => Registers cal0 base t.stand t.history)
      handleCalibrate s := by
  have hbusy : ∀ {t}, Passes Happening.Passive s t → Current cal0 base t.stand t.history :=
    fun ht hno => absurd (ht.handles ⟨_, hserved, hid⟩) hno
  refine .look (fun t ht => hbusy ht) fun t ht hrx => ?_
  rw [hrx]
  refine .read (o := .getCal) trivial (fun u hu => hbusy (ht.trans hu)) fun c u hget hu => ?_
  obtain rfl : c = u.stand.cal := hget.getCal_eq
  have hsu := (ht.trans hu).happen hget trivial
  have hpending := hsu.pending hs
  have hdecoded := fun hcovered => recvCalibrate_covered hid hcovered u.stand.cal
  dsimp only [Prog.bind]
  split
  · rename_i c hc
    refine .act fun v hv _ => ⟨hbusy (hsu.trans hv.passive), fun r now hhappens => ?_⟩
    have hstored : Registers cal0 base now (v.happen hhappens).history := by
      refine (hv.passive.pending hpending).store hhappens fun hcovered => ?_
      have hsame : v.stand.cal = u.stand.cal := hv.passive.cal_eq
      rw [hsame, ← hdecoded hcovered, hc]
      rfl
    exact .ret fun w hw => ⟨fun _ => hw.registers hstored, hw.registers hstored⟩
  · rename_i hnone
    have hskipped : Registers cal0 base u.stand (u.happen hget).history := by
      refine hpending.skip fun hcovered => (hdecoded hcovered).symm.trans ?_
      rw [hnone]
      rfl
    exact .ret fun w hw => ⟨fun _ => hw.registers hskipped, hw.registers hskipped⟩

/-- The second part of `execute`. -/
theorem safe_calibrateServe {res : SerialResult} (hs : Registers cal0 base s.stand s.history) :
    SafeProg (Current cal0 base) (fun _ t => Registers cal0 base t.stand t.history)
      (serve res) s := by
  unfold serve
  split
  · refine .look (fun t ht _ => ht.registers hs) fun t ht _ => ?_
    have hts := ht.registers hs
    refine .act fun u hu hrx => ⟨fun _ => hu.passive.registers hts, fun _ stand hdispatch => ?_⟩
    obtain rfl := hdispatch.dispatch
    have hus := hu.passive.registers hts
    by_cases hid : t.rx.msg.id = msgIdCalibrate
    · have hhandle : handle t.rx.msg.id = handleCalibrate := by
        rw [hid]
        rfl
      have hmsg : (u.happen hdispatch).rx.msg = t.rx.msg := congrArg Receiver.msg hrx
      have hserved : served (u.happen hdispatch).history =
          some (u.happen hdispatch).rx.msg.packet := by
        rw [hmsg]
        rfl
      rw [hhandle]
      refine safe_calibrate ((congrArg ReceivedMessage.id hmsg).trans hid) hserved ?_
      rw [hmsg]
      obtain ⟨new, hnew, hcal⟩ := hus
      refine ⟨_ :: new, congrArg (List.cons _) hnew, fun hcovered => ⟨?_, ?_⟩⟩
      · exact hcovered _ _ _ (List.mem_cons_self ..) hid
      · exact congrArg (Packet.calibrates _) (hcal hcovered.tail)
    · exact safe_calm (calm_handle hid) (hus.cons hdispatch hid)
  · exact .ret fun t ht => ⟨fun _ => ht.registers hs, ht.registers hs⟩

/-- A round of either loop. -/
theorem safe_calibrateRound (phase : Phase) (hs : Registers cal0 base s.stand s.history) :
    SafeProg (Current cal0 base) (fun _ t => Registers cal0 base t.stand t.history)
      phase.prog (s.happen .round) := by
  have hround : Registers cal0 base (s.happen .round).stand (s.happen .round).history :=
    hs.cons .round fun hev => hev
  cases phase with
  | connecting => exact safe_calm calm_connect hround
  | running =>
      refine World.Safe.bind (World.Safe.bind ((safe_calm calm_updateStatus hround).mono ?_))
      refine fun _ t ht => World.Safe.bind ((safe_calm calm_checkForMessage ht).mono ?_)
      refine fun res u hu => (safe_calibrateServe hu).mono fun _ v hv => ?_
      exact SafeProg.ret fun w hw => ⟨fun _ => hw.registers hv, hw.registers hv⟩

end Safe

/-! ## Runs -/

/-- **The calibration is a register.**  After a moment between two rounds, whenever no
CALIBRATE is being handled, the calibration is what the messages since have made of it. -/
theorem Recorder.calibration {cal : Calibration} {m0 m : Recorder} {phase : Phase}
    {events : List ControllerEvent}
    (hleads : Leads (.init cal) m0.history m0.controller.stand)
    (hprog : m0.controller.node.prog = .ret phase)
    (hrun : Run.run Recorder.step m0 events = some m) :
    Current m0.controller.stand.cal m0.history m.controller.stand m.history := by
  let post : Phase → Record cal → Prop := fun _ t =>
    Registers m0.controller.stand.cal m0.history t.stand t.history
  have hbegin : m0.IsSafe (Current m0.controller.stand.cal m0.history) post := by
    refine ⟨hleads, ?_⟩
    rw [hprog]
    have hreg : Registers m0.controller.stand.cal m0.history m0.controller.stand m0.history :=
      ⟨[], rfl, fun _ => rfl⟩
    exact .ret fun t ht => ⟨fun _ => ht.registers hreg, ht.registers hreg⟩
  have hsafe : m.IsSafe (Current m0.controller.stand.cal m0.history) post :=
    run_invariant Recorder.step (fun _ => True)
      (fun _ _ _ _ hstep h => h.step (fun phase s hs => safe_calibrateRound phase hs) hstep)
      (fun _ _ => trivial) hrun hbegin
  obtain ⟨_, hsafe⟩ := hsafe
  exact hsafe.holds

end MPMTTestStand

end MpmtTestStand.Ports
