import MpmtTestStand.Ports.Moments

/-!
# What the host learns about the axes

The host sees the axes through `get_status` only, and the answer is old when it arrives.
Still it says something: the status was true at a moment of the call
(`status_was_true`), and IDLE and FAULT stay true until the host commands otherwise
(`still_until_commanded`).
-/

namespace MpmtTestStand.Ports

open MpmtTestStand.Verified
open MpmtTestStand.Verified.Run
open MPMTTestStand

/-! ## One call -/

section Verdicts

variable {conf : Config} {cal : Calibration} {base : List Acted} {stand : TestStand}
  {l q q' : HostLink} {events : List LinkEvent} {pre post : List Obs} {m : Recorder}

/-- What the status said about motion was true when it was read. -/
theorem Recounted.truthful (h : Recounted conf cal base l m)
    (hstatus : SaysStill l.controller.stand.status) :
    Still l.controller.stand ∨ Starting m.history := by
  have htruthful := (maintains_truthful conf cal).reached h.1
  rw [h.2.controller] at htruthful
  exact htruthful hstatus

/-- Between `q` and `q'`, the controller reads the status for a `get_status`. -/
structure StatusRead (pre front back : List Obs) (timeoutMs : UInt32) (sent : Nat)
    (status : Status) (q q' : HostLink) : Prop where
  served : ServedAt pre front back (.getStatus timeoutMs) sent [⟨.getStatus, status⟩]
  before : q.log = front ++ [.acted ⟨.dispatch (.basic msgIdGetStatus), ()⟩
    ((HostCall.getStatus timeoutMs).requestEnd sent)]
  after : q'.log = q.log ++ [.acted ⟨.getStatus, status⟩
    ((HostCall.getStatus timeoutMs).requestEnd sent)]
  status_eq : q.controller.stand.status = status
  same : q'.controller.stand = q.controller.stand

/-- **The moment at which the status was read.** -/
theorem HostLink.status_read (hstand : Standing conf cal stand base)
    (hrun : run HostLink.step (.init stand) events = some l) {timeoutMs : UInt32} {b : UInt8}
    (hlog : l.log = pre ++ .returned (.getStatus timeoutMs) .ok (.status b) :: post)
    (hfine : Fine pre) :
    ∃ earlier around later q q' front back sent status,
      events = earlier ++ .act around :: later ∧ run HostLink.step (.init stand) earlier = some q ∧
      q.step (.act around) = some q' ∧ run HostLink.step q' later = some l ∧
      StatusRead pre front back timeoutMs sent status q q' ∧ b = status.toByte := by
  obtain ⟨front, back, sent, ops, hserved, hcomputes⟩ :=
    HostLink.served_at hrun hlog hfine (by simp [HostCall.response])
  obtain ⟨status, rfl, rfl⟩ : ∃ status, ops = [⟨.getStatus, status⟩] ∧ b = status.toByte := by
    cases hcomputes with
    | status _ status => exact ⟨status, rfl, rfl⟩
  generalize hn : (HostCall.getStatus timeoutMs).requestEnd sent = n
  have hrequest : (HostCall.getStatus timeoutMs).request = .basic msgIdGetStatus := rfl
  have hsplit : l.log = (HostLink.init stand).log ++
      ((front ++ [.acted ⟨.dispatch (.basic msgIdGetStatus), ()⟩ n]) ++
        .acted ⟨.getStatus, status⟩ n ::
          (back ++ .returned (.getStatus timeoutMs) .ok (.status status.toByte) :: post)) := by
    have hhandled : handled (.basic msgIdGetStatus) n [⟨.getStatus, status⟩] =
        [.acted ⟨.dispatch (.basic msgIdGetStatus), ()⟩ n, .acted ⟨.getStatus, status⟩ n] := rfl
    have hinit : (HostLink.init stand).log = [] := rfl
    rw [hlog, hserved.log_eq, hn, hrequest, hhandled, hinit]
    simp only [List.append_assoc, List.cons_append, List.nil_append]
  obtain ⟨earlier, around, later, q, q', hevents, hearlier, hstep, hlater, hq, hq'⟩ :=
    HostLink.acted_at hrun hsplit
  have hlast : q'.log = q.log ++ [.acted ⟨.getStatus, status⟩ n] := by
    simp only [hq', hq, List.append_assoc]
  obtain ⟨m, hm⟩ := hstand.run hearlier
  obtain ⟨m', -, -, hhappens⟩ := hm.act hstep hlast
  refine ⟨earlier, around, later, q, q', front, back, sent, status, hevents, hearlier, hstep,
    hlater, ⟨hserved, ?_, ?_, hhappens.getStatus_eq.symm, hhappens.reads trivial⟩, rfl⟩
  · rw [hn]
    exact hq
  · rw [hn]
    exact hlast

/-- When the status is read, no handler has started an axis without storing the status. -/
theorem StatusRead.still {front back : List Obs} {timeoutMs : UInt32} {sent : Nat}
    {status : Status} (h : StatusRead pre front back timeoutMs sent status q q')
    (hm : Recounted conf cal base q m) (hstatus : SaysStill status) :
    Still q.controller.stand := by
  rw [← h.status_eq] at hstatus
  refine (hm.truthful hstatus).resolve_right ?_
  have hhead : (actedOps m.history).head? = some ⟨.dispatch (.basic msgIdGetStatus), ()⟩ := by
    rw [hm.2.acted, h.before, performed_append, List.map_append, List.reverse_append]
    rfl
  exact not_starting hhead rfl

/-- **The status that a call returns was true during the call.**  A session begins after
anything that has happened to the controller before; timeouts of the controller may fire
at any time.  When `get_status` returns `SERIAL_OK` and no call has failed before: the log
names the point at which this very call has begun, and since then nothing but operations
of the controller.  At a moment between the two the controller had the status that is
returned, and if it is IDLE or FAULT, neither axis was moving. -/
theorem status_was_true (conf : Config) (cal : Calibration) (stand : TestStand)
    (base : List Acted) (hstand : Standing conf cal stand base) (events : List LinkEvent)
    (l : HostLink) (hrun : run HostLink.step (.init stand) events = some l)
    (pre post : List Obs) (timeoutMs : UInt32) (b : UInt8)
    (hlog : l.log = pre ++ .returned (.getStatus timeoutMs) .ok (.status b) :: post)
    (hfine : Fine pre) :
    ∃ start sent since, pre = start ++ .begun (.getStatus timeoutMs) sent :: since ∧
      (∀ o ∈ since, ∃ a got, o = .acted a got) ∧
      ∃ earlier later q mid status, events = earlier ++ later ∧
        run HostLink.step (.init stand) earlier = some q ∧
        q.log = start ++ .begun (.getStatus timeoutMs) sent :: mid ∧ mid <+: since ∧
        b = status.toByte ∧ q.controller.stand.status = status ∧
        (status = .idle ∨ status = .fault →
          ∀ id, (q.controller.stand.axis id).state.moving = false) := by
  obtain ⟨earlier, around, later, q, q', front, back, sent, status, hevents, hearlier, -, -, hread,
    hb⟩ := HostLink.status_read hstand hrun hlog hfine
  obtain ⟨m, hm⟩ := hstand.run hearlier
  obtain ⟨start, mid, hfront, hpre, hsince⟩ := hread.served.since
  refine ⟨start, sent, _, hpre, hsince, earlier, _, q, mid ++ [.acted ⟨.dispatch
    (.basic msgIdGetStatus), ()⟩ ((HostCall.getStatus timeoutMs).requestEnd sent)], status,
    hevents, hearlier, ?_, ?_, hb, hread.status_eq, fun hstatus => hread.still hm hstatus⟩
  · rw [hread.before, hfront, List.append_assoc, List.cons_append]
  · rw [List.append_assoc]
    exact (List.prefix_append_right_inj _).mpr ⟨_, rfl⟩

set_option maxRecDepth 4000 in
/-- A call for the status, after the host has connected. -/
theorem status_was_true_answered :
    ∃ l, run HostLink.step (.init readyStand) statusAnswered = some l ∧
      ∃ start sent since,
        statusLog.take 4 = start ++ .begun (.getStatus 1000) sent :: since ∧
        (∀ o ∈ since, ∃ a got, o = .acted a got) ∧
        ∃ earlier later q mid status, statusAnswered = earlier ++ later ∧
          run HostLink.step (.init readyStand) earlier = some q ∧
          q.log = start ++ .begun (.getStatus 1000) sent :: mid ∧ mid <+: since ∧
          0 = status.toByte ∧ q.controller.stand.status = status ∧
          (status = .idle ∨ status = .fault →
            ∀ id, (q.controller.stand.axis id).state.moving = false) := by
  obtain ⟨l, hrun, hlog⟩ : ∃ l,
      run HostLink.step (.init readyStand) statusAnswered = some l ∧ l.log = statusLog :=
    ⟨_, rfl, rfl⟩
  exact ⟨l, hrun, status_was_true conf defaultCalibration readyStand readyOps standing_ready
    statusAnswered l hrun (statusLog.take 4) (statusLog.drop 5) 1000 0 hlog
    (by simp [statusLog, Fine, Obs.Fine])⟩

/-! ## Between two commands -/

/-- The message that is served is one of those dispatched since `log0`, or the last one
before. -/
theorem Recounts.serves {P : Packet → Prop} {log0 more : List Obs}
    {front : List (Packet × Nat)} {p0 p : Packet} {n0 : Nat} (h : Recounts base q m)
    (hlog : q.log = log0 ++ more) (hlast : dispatches log0 = front ++ [(p0, n0)]) (hp0 : P p0)
    (hmore : ∀ x ∈ dispatches more, P x.1)
    (hserved : MPMTTestStand.served m.history = some p) : P p := by
  rcases List.eq_nil_or_concat (dispatches more) with hnil | ⟨rest, ⟨p1, n1⟩, hrest⟩
  · have hall : dispatches q.log = front ++ [(p0, n0)] := by
      rw [hlog, dispatches_append, hnil, List.append_nil, hlast]
    rwa [h.served hserved hall]
  · have hall : dispatches q.log = (dispatches log0 ++ rest) ++ [(p1, n1)] := by
      rw [hlog, dispatches_append, hrest, List.concat_eq_append, List.append_assoc]
    rw [h.served hserved hall]
    exact hmore (p1, n1) (by simp [hrest])

/-- The same at a moment of a run from `q0` to `l`. -/
theorem Recounts.serves_within {P : Packet → Prop} {q0 : HostLink} {es fs : List LinkEvent}
    {after : List Obs} {front : List (Packet × Nat)} {p0 : Packet} {n0 : Nat}
    (h : Recounts base q m) (hes : run HostLink.step q0 es = some q)
    (hfs : run HostLink.step q fs = some l) (hlog : l.log = q0.log ++ after)
    (hlast : dispatches q0.log = front ++ [(p0, n0)]) (hp0 : P p0)
    (hafter : ∀ x ∈ dispatches after, P x.1) :
    ∀ p, MPMTTestStand.served m.history = some p → P p := by
  intro p hp
  obtain ⟨more, hmore⟩ := HostLink.log_grows hes
  obtain ⟨rest, hrest⟩ := HostLink.log_grows hfs
  have hboth : q0.log ++ after = q0.log ++ (more ++ rest) := by
    rw [← hlog, hrest, hmore, List.append_assoc]
  refine h.serves hmore hlast hp0 (fun x hx => hafter x ?_) hp
  rw [List.append_cancel_left hboth, dispatches_append]
  exact List.mem_append_left _ hx

/-- What the status says about motion, in terms of the mode. -/
theorem saysStill_iff (s : TestStand) :
    SaysStill s.status ↔ s.mode = .idle ∨ s.mode = .fault := by
  unfold SaysStill TestStand.mode
  cases s.status with
  | homing => cases s.homeADone <;> simp
  | _ => simp

/-- Without a HOME or a MOVE, IDLE and FAULT stay, or IDLE is stored. -/
theorem Recounted.status_step {e : LinkEvent} (h : Recounted conf cal base q m)
    (hstep : q.step e = some q')
    (hserves : ∀ p, MPMTTestStand.served m.history = some p → StartsNone p)
    (hstatus : SaysStill q.controller.stand.status) :
    q'.controller.stand.status = q.controller.stand.status ∨
      q'.controller.stand.status = .idle := by
  rcases h.2.step hstep with ⟨-, hsame⟩ | ⟨ce, m', hm', h', ⟨-, hsame⟩ | ⟨ev, -, hhistory⟩⟩
  · exact .inl (congrArg (fun c => c.stand.status) hsame)
  · rw [← h'.controller, hsame, h.2.controller]
    exact .inl rfl
  · have hreached := h.1.step ce hm'
    have hleads := hreached.leads
    rw [hhistory] at hleads
    have hsplit : m'.history = [] ++ ⟨m.controller.stand, ev⟩ :: m.history := hhistory
    rw [← h.2.controller] at hstatus ⊢
    rw [← h'.controller]
    rcases hreached.mode_change hsplit hleads.2 with hmode | ⟨order, hnext, hwarranted⟩
    · exact .inl (by rw [← TestStand.status_mode, hmode, TestStand.status_mode])
    · -- only a command is taken in these modes
      have hserved : ∀ id, Handles id m.history → ∃ p, StartsNone p ∧ p.id = id := by
        rintro id ⟨p, hp, hid⟩
        exact ⟨p, hserves p hp, hid⟩
      rw [← TestStand.status_mode m'.controller.stand]
      refine .inr (congrArg Mode.status (?_ : _ = Mode.idle))
      rcases (saysStill_iff _).mp hstatus with hmode | hmode <;> rw [hmode] at hnext <;>
        cases order <;> simp only [Mode.next, Option.some.injEq, reduceCtorEq] at hnext
      case' inl.home | inr.home =>
        obtain ⟨p, hp, hid⟩ := hserved _ hwarranted
        exact absurd hid hp.1
      case' inl.move | inr.move =>
        obtain ⟨p, hp, hid⟩ := hserved _ hwarranted.1
        exact absurd hid hp.2
      all_goals exact hnext.symm

/-- Without a HOME or a MOVE no handler has started an axis. -/
theorem Recounted.still (h : Recounted conf cal base q m)
    (hserves : ∀ p, served m.history = some p → StartsNone p)
    (hstatus : SaysStill q.controller.stand.status) : Still q.controller.stand := by
  refine (h.truthful hstatus).resolve_right fun hstarting => ?_
  obtain ⟨new, b, raw, motion, old, hsplit, hserved, hsame⟩ := hstarting.start h.1.leads
  have hgrounds : StartGrounds b old raw motion := h.1.grounded hsplit rfl
  rw [hserved] at hserves
  cases hgrounds with
  | move p hp hid => exact (hserves p hp).2 hid
  | homing done id hpart =>
      cases done with
      | false =>
          obtain ⟨p, hp, hid⟩ := hpart
          exact (hserves p hp).1 hid
      | true =>
          have hhoming := hsame.trans hpart.2.1
          rw [h.2.controller] at hhoming
          rcases hstatus with hstatus | hstatus <;> rw [hhoming] at hstatus <;> cases hstatus

/-- What is dispatched after a call has returned its response is requested after it. -/
theorem dispatched_later {later : List Obs} (hsettled : requests pre = dispatches pre)
    (hdispatched : dispatches (pre ++ later) <+: requests (pre ++ later)) :
    ∀ x ∈ dispatches later, x ∈ requests later := by
  rw [dispatches_append, requests_append, hsettled] at hdispatched
  exact fun x hx => ((List.prefix_append_right_inj _).mp hdispatched).subset hx

/-- What the status said about motion stays true as long as the host begins no HOME and
no MOVE. -/
theorem StatusRead.lasts {earlier later : List LinkEvent} {front back : List Obs}
    {around : Outside} {timeoutMs : UInt32} {sent : Nat} {b : UInt8} {status : Status}
    (h : StatusRead pre front back timeoutMs sent status q q')
    (hstand : Standing conf cal stand base)
    (hrun : run HostLink.step (.init stand) events = some l)
    (hearlier : run HostLink.step (.init stand) earlier = some q)
    (hstep : q.step (.act around) = some q') (hlater : run HostLink.step q' later = some l)
    (hlog : l.log = pre ++ .returned (.getStatus timeoutMs) .ok (.status b) :: post)
    (hplain : Plain l.log) (hpost : ∀ c n, .begun c n ∈ post → ¬c.Starts)
    (hstatus : SaysStill status) :
    Still l.controller.stand ∧
      (l.controller.stand.status = status ∨ l.controller.stand.status = .idle) := by
  let Stays (q : HostLink) : Prop :=
    q.controller.stand.status = status ∨ q.controller.stand.status = .idle
  have hsaysStill : ∀ {q}, Stays q → SaysStill q.controller.stand.status := by
    rintro q (hq | hq)
    · rwa [hq]
    · exact .inl hq
  have hread : Stays q' := .inl (by rw [h.same, h.status_eq])
  -- what is dispatched from there on
  obtain ⟨more, hmore⟩ := HostLink.log_grows hlater
  have hdispatched : ∀ x ∈ dispatches more, StartsNone x.1 := by
    have hplace := (HostLink.inPlace hrun hplain).dispatched
    rw [hlog] at hplace
    have hrequested := dispatched_later h.served.settled hplace
    have heq : more = back ++ .returned (.getStatus timeoutMs) .ok (.status b) :: post := by
      have hq' : l.log = q'.log ++
          (back ++ .returned (.getStatus timeoutMs) .ok (.status b) :: post) := by
        rw [hlog, h.served.log_eq, h.after, h.before]
        simp only [List.append_assoc]
        rfl
      exact List.append_cancel_left (hmore.symm.trans hq')
    intro x hx
    rw [heq, dispatches_append, h.served.quiet, List.nil_append] at hx
    exact requests_forall (fun c n hc => HostCall.startsNone (hpost c n (by simpa using hc)))
      x (hrequested x hx)
  have hlast : dispatches q'.log = dispatches front ++
      [(.basic msgIdGetStatus, (HostCall.getStatus timeoutMs).requestEnd sent)] := by
    rw [h.after, h.before, dispatches_append, dispatches_append]
    exact List.append_nil _
  have hstays : Stays l := by
    by_contra hlost
    obtain ⟨es, e, fs, q1, q2, -, hes, he, hfs, hq1, hq2⟩ :=
      run_first_change (P := Stays) hlater hread hlost
    obtain ⟨m1, hm1⟩ := hstand.run (run_trans (run_snoc hearlier hstep) hes)
    have hserves := hm1.2.serves_within (P := StartsNone) hes (run_trans (run_single he) hfs) hmore
      hlast (by decide) hdispatched
    refine hq2 ?_
    rcases hm1.status_step he hserves (hsaysStill hq1) with hsame | hidle
    · exact hq1.imp hsame.trans hsame.trans
    · exact .inr hidle
  obtain ⟨m, hm⟩ := hstand.run hrun
  have hserves := hm.2.serves_within (P := StartsNone) hlater (run_nil _ _) hmore hlast (by decide)
    hdispatched
  exact ⟨hm.still hserves (hsaysStill hstays), hstays⟩

/-- **IDLE and FAULT last until the next command.**  Once `get_status` has returned IDLE or
FAULT, as long as the host begins no HOME and no MOVE and no call fails: no axis moves, and
the status is still the one that was returned, or IDLE. -/
theorem still_until_commanded (conf : Config) (cal : Calibration) (stand : TestStand)
    (base : List Acted) (hstand : Standing conf cal stand base) (events : List LinkEvent)
    (l : HostLink) (hrun : run HostLink.step (.init stand) events = some l)
    (pre post : List Obs) (timeoutMs : UInt32) (b : UInt8)
    (hlog : l.log = pre ++ .returned (.getStatus timeoutMs) .ok (.status b) :: post)
    (hfine : Fine l.log)
    (hecho : ∀ c v, .returned c .ok v ∈ l.log → ∀ data fits, c ≠ .echo data fits)
    (hpost : ∀ c sent, .begun c sent ∈ post → ¬c.Starts)
    (hb : b = Status.idle.toByte ∨ b = Status.fault.toByte) :
    (∀ id, (l.controller.stand.axis id).state.moving = false) ∧
      (l.controller.stand.status.toByte = b ∨ l.controller.stand.status = .idle) := by
  have hpre : Fine pre := fun o ho => hfine o (by simp [hlog, ho])
  obtain ⟨earlier, around, later, q, q', front, back, sent, status, -, hearlier, hstep, hlater,
    hread, rfl⟩ := HostLink.status_read hstand hrun hlog hpre
  have hstatus : SaysStill status := by
    revert hb
    unfold SaysStill
    cases status <;> decide
  obtain ⟨hstill, hlasts⟩ :=
    hread.lasts hstand hrun hearlier hstep hlater hlog ⟨hfine, hecho⟩ hpost hstatus
  exact ⟨hstill, hlasts.imp_left (congrArg Status.toByte)⟩

/-- The status is asked for, and the controller updates it with `own` operations first. -/
def statusSteps (own : Nat) : List LinkEvent :=
  .call (.getStatus 1000) :: hostSteps 7 .wrote ++ .loop :: mainSteps own ++
    controllerSteps 6 .deliver ++ controllerSteps 7 .wrote ++ mainSteps 2 ++
    controllerSteps 7 .wrote ++ hostSteps 13 .deliver ++ hostSteps 7 .wrote

/-- The X axis is started by a MOVE and stopped, the status is asked for, and then the
temperatures. -/
def stopThenCalls : List LinkEvent :=
  moveAnswered ++ .call .stop :: hostSteps 7 .wrote ++ .loop :: mainSteps 3 ++
    controllerSteps 6 .deliver ++ controllerSteps 7 .wrote ++ mainSteps 4 ++
    hostSteps 6 .deliver ++ statusSteps 1 ++ controllerSteps 6 .deliver ++
    requestSteps (.getTemp 1000) 0 ++ mainSteps 2 ++ controllerSteps 7 .wrote ++
    hostSteps 32 .deliver ++ hostSteps 7 .wrote

/-- What is observed of the MOVE. -/
def moveLog : List Obs :=
  .begun moveX 0 :: .acted ⟨.getStatus, .idle⟩ 0 :: handled moveX.request 16
    (moveOps ⟨1000, 2000, AxisId.x.toByte, AxisDirection.positive.toByte⟩ defaultCalibration
      .ok) ++
  [.returned moveX .ok (.axisResult AxisResult.ok.toByte)]

/-- What is observed from the beginning of STOP to the end of the call for the status. -/
def stopLog : List Obs :=
  [ .acted ⟨.getStatus, .moving⟩ 22
  , .acted ⟨.moving .x, true⟩ 22
  , .acted ⟨.setStatus .moving, ()⟩ 22 ] ++ handled HostCall.stop.request 28 stopOps ++
  [ .returned .stop .ok .none
  , .begun (.getStatus 1000) 28
  , .acted ⟨.getStatus, .idle⟩ 28 ] ++
  handled (.basic msgIdGetStatus) 34 [⟨.getStatus, .idle⟩]

/-- What is observed of the call for the temperatures. -/
def tempLog : List Obs :=
  .begun (.getTemp 1000) 40 :: .acted ⟨.getStatus, .idle⟩ 40 ::
    handled (.basic msgIdGetTemp) 46 [⟨.readTempData, ⟨2000, 2000, 2000, 2000, 2000⟩⟩] ++
  [.returned (.getTemp 1000) .ok (.temp ⟨2000, 2000, 2000, 2000, 2000⟩)]

/-- All of this. -/
def stopThenCallsLog : List Obs :=
  moveLog ++ .begun .stop 22 ::
    (stopLog ++ .returned (.getStatus 1000) .ok (.status 0) :: tempLog)

theorem stopThenCallsLog_plain : Plain stopThenCallsLog := by
  constructor
  · simp [stopThenCallsLog, moveLog, stopLog, tempLog, handled, moveOps, stopOps, Fine, Obs.Fine]
  · rintro c v hmem data fits rfl
    simp [stopThenCallsLog, moveLog, stopLog, tempLog, handled, moveOps, stopOps, moveX] at hmem

set_option maxRecDepth 8000 in
/-- The X axis moves, and is stopped. -/
theorem stopThenCalls_run :
    (∃ q, run HostLink.step (.init readyStand) moveAnswered = some q ∧
      (q.controller.stand.axis .x).state.moving = true) ∧
    ∃ l, run HostLink.step (.init readyStand) stopThenCalls = some l ∧
      l.log = stopThenCallsLog :=
  ⟨⟨_, rfl, rfl⟩, _, rfl, rfl⟩

/-- The host has stopped an axis that was moving, has asked for the status, and goes on with
another call. -/
theorem still_until_commanded_stopped :
    (∃ q, run HostLink.step (.init readyStand) moveAnswered = some q ∧
      (q.controller.stand.axis .x).state.moving = true) ∧
    ∃ l, run HostLink.step (.init readyStand) stopThenCalls = some l ∧
      (∀ id, (l.controller.stand.axis id).state.moving = false) ∧
      (l.controller.stand.status.toByte = Status.idle.toByte ∨
        l.controller.stand.status = .idle) := by
  obtain ⟨hmoving, l, hrun, hlog⟩ := stopThenCalls_run
  have hplain : Plain l.log := hlog ▸ stopThenCallsLog_plain
  have hsplit : l.log = (moveLog ++ .begun .stop 22 :: stopLog) ++
      .returned (.getStatus 1000) .ok (.status 0) :: tempLog := by
    rw [hlog, stopThenCallsLog, List.append_assoc]
    rfl
  refine ⟨hmoving, l, hrun, still_until_commanded conf defaultCalibration readyStand readyOps
    standing_ready stopThenCalls l hrun _ tempLog 1000 0 hsplit hplain.1 hplain.2 ?_ (.inl rfl)⟩
  simp [tempLog, handled, HostCall.Starts]

end Verdicts

end MpmtTestStand.Ports
