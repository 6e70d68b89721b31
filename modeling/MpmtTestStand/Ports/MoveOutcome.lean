import MpmtTestStand.Ports.CommandOutcomes

/-!
# What an accepted MOVE has come to

A MOVE is answered, so the host knows from the response that the axis has been started.
The status that it reads next says how the motion went.

## Main results

* `arrived_unobstructed` — IDLE after an accepted MOVE: since then every limit switch
  that the controller looks at has been found released.
-/

namespace MpmtTestStand.Ports

open MpmtTestStand.Verified
open MpmtTestStand.Verified.Run
open MPMTTestStand

/-- The last element of a kind is at one place. -/
theorem last_eq {α : Type} {P : α → Prop} {xs us ys vs : List α} {x y : α}
    (h : xs ++ x :: us = ys ++ y :: vs) (hx : P x) (hy : P y) (hus : ∀ u ∈ us, ¬P u)
    (hvs : ∀ v ∈ vs, ¬P v) : x = y ∧ us = vs := by
  rcases split_append h with ⟨mid, rfl, rfl⟩ | ⟨mid, rfl, hmid⟩
  · exact absurd hx (hvs x (by simp))
  · cases mid with
    | nil => exact List.cons.inj hmid
    | cons z mid =>
        obtain ⟨rfl, rfl⟩ := List.cons.inj hmid
        exact absurd hy (hus y (by simp))

section Moves

variable {conf : Config} {cal : Calibration} {base : List Acted} {stand : TestStand}
  {l q q' : HostLink} {events : List LinkEvent} {pre since back front post : List Obs}
  {c : HostCall} {sent : Nat} {v : HostValue} {m : Recorder}

/-- A call that has returned its response was served after it had begun. -/
theorem HostLink.served_since (hrun : run HostLink.step (.init stand) events = some l)
    (hlog : l.log = pre ++ .begun c sent :: (since ++ .returned c .ok v :: post))
    (hfine : Fine (pre ++ .begun c sent :: since)) (hresponse : c.response ≠ none)
    (hc : c.Commands) (hsince : ∀ c' n, .begun c' n ∈ since → ¬c'.Commands) :
    ∃ mid ops back, since = mid ++ handled c.request (c.requestEnd sent) ops ++ back ∧
      dispatches back = [] ∧ Computes c ops v ∧ requests since = [] ∧
      requests (pre ++ .begun c sent :: since) = dispatches (pre ++ .begun c sent :: since) := by
  have hlog' : l.log = (pre ++ .begun c sent :: since) ++ .returned c .ok v :: post := by
    rw [hlog, List.append_assoc]
    rfl
  obtain ⟨front, back, sent', ops, hserved, hcomputes⟩ :=
    HostLink.served_at hrun hlog' hfine hresponse
  obtain ⟨mid, hunderway⟩ := hserved.begun
  obtain ⟨pre', rfl⟩ := hunderway.log_eq
  let Commanding (o : Obs) : Prop := ∃ c' n, o = .begun c' n ∧ c'.Commands
  have hempty : requests (mid ++ (handled c.request (c.requestEnd sent') ops ++ back)) = [] := by
    have hissued := hserved.issued
    rw [hserved.log_eq, List.append_assoc, requests_append] at hissued
    rw [requests_append, requests_acted hunderway.acted, List.append_right_eq_self.mp hissued,
      List.append_nil]
  have hnone : ∀ o ∈ mid ++ (handled c.request (c.requestEnd sent') ops ++ back),
      ¬Commanding o := by
    rintro o ho ⟨c', n, rfl, -⟩
    have hrequest : (c'.request, c'.requestEnd n) ∈
        requests (mid ++ (handled c.request (c.requestEnd sent') ops ++ back)) :=
      List.mem_filterMap.mpr ⟨_, ho, rfl⟩
    rw [hempty] at hrequest
    exact absurd hrequest List.not_mem_nil
  have hsplit := hserved.log_eq
  simp only [List.append_assoc, List.cons_append] at hsplit
  obtain ⟨hbegun, hmid⟩ := last_eq (P := Commanding) hsplit ⟨c, sent, rfl, hc⟩
    ⟨c, sent', rfl, hc⟩ (by rintro o ho ⟨c', n, rfl, hc'⟩; exact hsince c' n ho hc') hnone
  obtain ⟨-, rfl⟩ := Obs.begun.inj hbegun
  exact ⟨mid, ops, back, by rw [hmid, List.append_assoc], hserved.quiet, hcomputes,
    by rw [hmid, hempty], hserved.settled⟩

/-- The status that is returned later has been read after the response. -/
theorem StatusRead.after_response {later : List Obs} {timeoutMs : UInt32} {sent' : Nat}
    {status : Status} (hc : c.Commands) (hsince : requests since = [])
    (hsettled : requests (pre ++ .begun c sent :: since) =
      dispatches (pre ++ .begun c sent :: since))
    (h : StatusRead ((pre ++ .begun c sent :: since) ++ .returned c .ok v :: later) front back
      timeoutMs sent' status q q') :
    ∃ more, q.log = (pre ++ .begun c sent :: since) ++ more ∧
      more <+: .returned c .ok v :: later ∧ dispatches more = requests later := by
  have hall : dispatches q.log = dispatches (pre ++ .begun c sent :: since) ++ requests later := by
    have hboth := h.served.settled
    have hskip : requests (.returned c .ok v :: later) = requests later := rfl
    rw [requests_append, hsettled, hskip, h.dispatches_eq] at hboth
    rw [hboth, h.before, dispatches_append]
    rfl
  obtain ⟨rest, hrest⟩ := h.logged
  rcases List.append_eq_append_iff.mp hrest with ⟨mid, hpre, -⟩ | ⟨more, hmore, hlater⟩
  · -- otherwise the last request would be that of the command
    have hnone : requests later = [] := by
      have hlen := congrArg (fun log => (dispatches log).length) hpre
      simp only [dispatches_append, hall, List.length_append] at hlen
      exact List.length_eq_zero_iff.mp (by omega)
    have hlast : dispatches q.log = requests pre ++ [(c.request, c.requestEnd sent)] := by
      have hone : requests (.begun c sent :: since) =
          (c.request, c.requestEnd sent) :: requests since := rfl
      rw [hall, hnone, List.append_nil, ← hsettled, requests_append, hone, hsince]
    rw [h.before, dispatches_append] at hlast
    obtain ⟨-, hid⟩ := List.append_inj' hlast rfl
    have hcommand := c.commands_iff.mpr hc
    rw [← congrArg (fun x => x.1.id) (List.cons.inj hid).1] at hcommand
    exact absurd hcommand (show ¬Consequential msgIdGetStatus by decide)
  · refine ⟨more, hmore, ⟨rest, hlater.symm⟩, ?_⟩
    rw [hmore, dispatches_append] at hall
    exact List.append_cancel_left hall

/-- The controller has performed an accepted MOVE with its own fields. -/
theorem Computes.accepted {axis : AxisId} {dir : AxisDirection} {velHold distCounts t : UInt32}
    {ops : List Acted} (h : Computes (.move axis dir velHold distCounts t) ops
      (.axisResult AxisResult.ok.toByte)) :
    ∃ used, ops = moveOps ⟨velHold, distCounts, axis.toByte, dir.toByte⟩ used .ok := by
  generalize hv : HostValue.axisResult AxisResult.ok.toByte = v at h
  cases h with
  | move _ _ _ _ _ used res =>
      have hres : res = .ok := by
        revert hv
        cases res <;> simp [AxisResult.toByte]
      exact ⟨used, by rw [hres]⟩

/-- In `q` the controller reads the status for a call after a MOVE that was accepted: `own`
is what it has performed since on its own, `more` what has come after the response. -/
structure ReadAfterMove (pre since later : List Obs) (c : HostCall) (sent : Nat)
    (data : MoveMsgData) (q : HostLink) (mid : List Obs) (used : Calibration)
    (own more : List Obs) : Prop where
  since_eq : since = mid ++ handled c.request (c.requestEnd sent) (moveOps data used .ok) ++ own
  log_eq : q.log = (pre ++ .begun c sent :: mid) ++
    handled c.request (c.requestEnd sent) (moveOps data used .ok) ++ (own ++ more)
  later_read : more <+: .returned c .ok (.axisResult AxisResult.ok.toByte) :: later
  dispatches_eq : dispatches (own ++ more) = requests later

/-- **The status after an accepted MOVE.** -/
theorem Standing.read_after_move (hstand : Standing conf cal stand base)
    (hrun : Run.run HostLink.step (.init stand) events = some l) {later : List Obs}
    {axis : AxisId} {dir : AxisDirection} {velHold distCounts moveTimeoutMs timeoutMs : UInt32}
    {b : UInt8} (hc : c = .move axis dir velHold distCounts moveTimeoutMs)
    (hlog : l.log = pre ++ .begun c sent ::
      (since ++ .returned c .ok (.axisResult AxisResult.ok.toByte) ::
        (later ++ .returned (.getStatus timeoutMs) .ok (.status b) :: post)))
    (hfine : Fine ((pre ++ .begun c sent :: since) ++
      .returned c .ok (.axisResult AxisResult.ok.toByte) :: later))
    (hsince : ∀ c' n, .begun c' n ∈ since → ¬c'.Commands) :
    ∃ earlier around last q q' front back sent' status mid used own more,
      events = earlier ++ .act around :: last ∧
      Run.run HostLink.step (.init stand) earlier = some q ∧ q.step (.act around) = some q' ∧
      Run.run HostLink.step q' last = some l ∧
      StatusRead ((pre ++ .begun c sent :: since) ++
        .returned c .ok (.axisResult AxisResult.ok.toByte) :: later) front back timeoutMs sent'
          status q q' ∧ b = status.toByte ∧
      ReadAfterMove pre since later c sent ⟨velHold, distCounts, axis.toByte, dir.toByte⟩ q mid
        used own more := by
  have hcommand : c.Commands := hc ▸ trivial
  have hlog' : l.log = ((pre ++ .begun c sent :: since) ++
      .returned c .ok (.axisResult AxisResult.ok.toByte) :: later) ++
        .returned (.getStatus timeoutMs) .ok (.status b) :: post := by
    rw [hlog]
    simp only [List.append_assoc, List.cons_append]
  obtain ⟨earlier, around, last, q, q', front, back, sent', status, rfl, hearlier, hstep, hlast,
    hread, rfl⟩ := HostLink.status_read hstand hrun hlog' hfine
  obtain ⟨mid, ops, own, hmid, hown, hcomputes, hempty, hsettled⟩ := HostLink.served_since hrun
    hlog (fine_append.mp hfine).1 (by rw [hc]; simp [HostCall.response]) hcommand hsince
  obtain ⟨more, hq, hmore, hdispatches⟩ := hread.after_response hcommand hempty hsettled
  obtain ⟨used, rfl⟩ := (hc ▸ hcomputes).accepted
  refine ⟨earlier, around, last, q, q', front, back, sent', status, mid, used, own, more, rfl,
    hearlier, hstep, hlast, hread, rfl, hmid, ?_, hmore, ?_⟩
  · rw [hq, hmid]
    simp only [List.append_assoc, List.cons_append]
  · rw [dispatches_append, hown, List.nil_append, hdispatches]

/-- The entry of an operation in the log. -/
theorem Recounts.split {front back : List Obs} {a : Acted} {n : Nat} (h : Recounts base q m)
    (hlog : q.log = front ++ .acted a n :: back) :
    ∃ new b old, m.history = new ++ ⟨b, .acted a⟩ :: old ∧
      actedOps new = ((performed back).map Prod.fst).reverse ∧
      actedOps old = ((performed front).map Prod.fst).reverse ++ base := by
  refine actedOps_split ?_
  have hone : performed (.acted a n :: back) = (a, n) :: performed back := rfl
  rw [h.acted, hlog, performed_append, hone]
  simp

/-- After an accepted MOVE, the controller is in its hands until the next command. -/
theorem Recounted.moves {data : MoveMsgData} {used : Calibration} {n : Nat}
    {before after : List Obs} (hm : Recounted conf cal base q m) (hid : c.request.id = msgIdMove)
    (hlog : q.log = before ++ handled c.request n (moveOps data used .ok) ++ after)
    (hafter : ∀ x ∈ dispatches after, ¬Consequential x.1.id) :
    ∃ new b old s0 orders, m.history = new ++ ⟨b, .acted ⟨.setStatus .moving, ()⟩⟩ :: old ∧
      (∀ a ∈ actedOps new, ∃ n, .acted a n ∈ after) ∧
      Obeys s0 (⟨b, .acted ⟨.setStatus .moving, ()⟩⟩ :: old) new q.controller.stand orders ∧
      (∀ o ∈ orders, o ≠ .home ∧ o ≠ .stop) ∧
      Run.run Mode.next .moving orders = some q.controller.stand.mode := by
  have hsplit : q.log = (before ++ [.acted ⟨.dispatch c.request, ()⟩ n, .acted ⟨.getCal, used⟩ n,
      .acted ⟨.axisStart data.axis (moveMotion data used), .ok⟩ n]) ++
        .acted ⟨.setStatus .moving, ()⟩ n :: after := by
    rw [hlog]
    simp only [List.append_assoc]
    rfl
  obtain ⟨new, b, old, hhistory, hnew, hold⟩ := hm.2.split hsplit
  have hmem : ∀ a ∈ actedOps new, ∃ n, .acted a n ∈ after := by
    rw [hnew]
    exact fun a ha => mem_performed ha
  have hleads := hm.1.leads
  rw [hhistory] at hleads
  obtain ⟨s0, -, hstored, hmoves⟩ := hleads.entry
  obtain ⟨orders, hobeys⟩ := hm.1.obeys hhistory hmoves
  have hmode : s0.mode = .moving := by
    rw [hstored.setStatus_eq]
    rfl
  have hrun := hobeys.run
  rw [hmode] at hrun
  rw [hm.2.controller] at hobeys hrun
  refine ⟨new, b, old, s0, orders, hhistory, hmem, hobeys, ?_, hrun⟩
  -- nothing but the MOVE and what is no command has been served
  have hserves : ∀ {recent older p}, new = recent ++ older →
      served (older ++ ⟨b, .acted ⟨.setStatus .moving, ()⟩⟩ :: old) = some p →
      p.id ≠ msgIdHome ∧ p.id ≠ msgIdStop := by
    rintro recent older p rfl hp
    rcases served_append hp with hserved | ⟨a, ha, hdispatch⟩
    · have hlast := served_dispatched (show served old = some p from hserved)
      have hops : actedOps old = ⟨.axisStart data.axis (moveMotion data used), .ok⟩ ::
          ⟨.getCal, used⟩ :: ⟨.dispatch c.request, ()⟩ ::
            (((performed before).map Prod.fst).reverse ++ base) := by
        rw [hold, performed_append, List.map_append, List.reverse_append]
        rfl
      rw [hops] at hlast
      obtain rfl : c.request = p := Option.some.inj hlast
      rw [hid]
      decide
    · obtain ⟨n', hn'⟩ := hmem a (by simp [actedOps_append, ha])
      have hno := hafter _ (mem_dispatches hn' hdispatch)
      simp only [Consequential, not_or] at hno
      exact ⟨hno.1, hno.2.2⟩
  intro o ho
  obtain ⟨recent, e, older, s', hrecent, -, hwarranted⟩ := hobeys.given ho
  have hrecent' : new = (recent ++ [e]) ++ older := by rw [hrecent, List.append_assoc]; rfl
  constructor
  · rintro rfl
    obtain ⟨p, hp, hid⟩ := hwarranted
    exact (hserves hrecent' hp).1 hid
  · rintro rfl
    obtain ⟨⟨p, hp, hid⟩, -⟩ := hwarranted
    exact (hserves hrecent' hp).2 hid

/-- **IDLE after an accepted MOVE means that no switch was in the way.**  A session begins
after anything that has happened to the controller before.  The host sends a MOVE, which
is accepted, begins no other command, and then gets the status.  When no call has failed:
the status is not HOMING; and if it is IDLE, then since the MOVE the controller has found
every limit switch released but the far one of the Y axis, which it does not look at, and
no axis moves as long as the host begins no HOME and no MOVE. -/
theorem arrived_unobstructed (conf : Config) (cal : Calibration) (stand : TestStand)
    (base : List Acted) (hstand : Standing conf cal stand base) (events : List LinkEvent)
    (l : HostLink) (hrun : run HostLink.step (.init stand) events = some l)
    (axis : AxisId) (dir : AxisDirection) (velHold distCounts moveTimeoutMs timeoutMs : UInt32)
    (pre since later post : List Obs) (sent : Nat) (b : UInt8)
    (hlog : l.log = pre ++ .begun (.move axis dir velHold distCounts moveTimeoutMs) sent ::
      (since ++ .returned (.move axis dir velHold distCounts moveTimeoutMs) .ok
        (.axisResult AxisResult.ok.toByte) ::
          (later ++ .returned (.getStatus timeoutMs) .ok (.status b) :: post)))
    (hfine : Fine l.log)
    (hecho : ∀ c v, .returned c .ok v ∈ l.log → ∀ data fits, c ≠ .echo data fits)
    (hsince : ∀ c n, .begun c n ∈ since ++ later → ¬c.Commands)
    (hpost : ∀ c n, .begun c n ∈ post → ¬c.Starts) :
    b ≠ Status.homing.toByte ∧
      (b = Status.idle.toByte →
        (∀ id sw, (id, sw) ≠ (.y, .far) → ∃ n, .acted (readFlag id sw false) n ∈ since ++ later) ∧
        (∀ id, (l.controller.stand.axis id).state.moving = false) ∧
        l.controller.stand.status = .idle) := by
  generalize hc : HostCall.move axis dir velHold distCounts moveTimeoutMs = c at hlog
  have hlog' : l.log = ((pre ++ .begun c sent :: since) ++
      .returned c .ok (.axisResult AxisResult.ok.toByte) :: later) ++
        .returned (.getStatus timeoutMs) .ok (.status b) :: post := by
    rw [hlog]
    simp only [List.append_assoc, List.cons_append]
  have hplain : Plain ((pre ++ .begun c sent :: since) ++
      .returned c .ok (.axisResult AxisResult.ok.toByte) :: later) :=
    .of_append (hlog' ▸ (⟨hfine, hecho⟩ : Plain l.log))
  obtain ⟨earlier, around, rest, q, q', front, back, sent', status, mid, used, own, more, -,
    hearlier, hstep, hrest, hread, rfl, ⟨rfl, hq, hmore, hdispatches⟩⟩ :=
      hstand.read_after_move hrun hc.symm hlog hplain.fine fun c' n hc' =>
        hsince c' n (by simp [hc'])
  obtain ⟨m, hm⟩ := hstand.run hearlier
  have hafter : ∀ x ∈ dispatches (own ++ more), ¬Consequential x.1.id := by
    rw [hdispatches]
    exact requests_forall (P := fun p => ¬Consequential p.id)
      fun c' n hc' => mt c'.commands_iff.mp (hsince c' n (by simp [hc']))
  obtain ⟨new, b', old, s0, orders, -, hops, hobeys, horders, hmode⟩ :=
    hm.moves (c := c) (by rw [← hc]; rfl) hq hafter
  obtain ⟨hend, harrived⟩ := Mode.moved (.inl rfl) horders hmode
  have hstatus : status = q.controller.stand.mode.status :=
    hread.status_eq.symm.trans (TestStand.status_mode _).symm
  rcases hend with hend | hend | hend <;> rw [hend] at hstatus <;> subst hstatus
  · exact ⟨by decide, fun hidle => absurd hidle (by decide)⟩
  · refine ⟨by decide, fun _ => ⟨fun id sw hne => ?_, ?_⟩⟩
    · obtain ⟨recent, e, older, s', rfl, -, -, -, hchecked⟩ :=
        hobeys.given ((harrived hend).resolve_left (by decide))
      obtain ⟨passive, b1, history, hhistory, hpassive, -⟩ := hchecked id sw hne
      have hmem : ⟨b1, .acted (readFlag id sw false)⟩ ∈ older := by
        refine mem_recent (P := fun x => x.event.Passive) hhistory (fun h => h) ?_ hpassive
        intro heq
        cases sw <;> cases (MPMTTestStand.Entry.mk.inj heq).2
      obtain ⟨n, hn⟩ := hops _ (mem_actedOps (b := b1) (List.mem_append_right _
        (List.mem_cons_of_mem _ hmem)))
      refine ⟨n, ?_⟩
      rcases List.mem_append.mp hn with hn | hn
      · simp [hn]
      · rcases List.mem_cons.mp (hmore.subset hn) with hn | hn
        · cases hn
        · simp [hn]
    · obtain ⟨hstill, hlasts⟩ :=
        hread.lasts hstand hrun hearlier hstep hrest hlog' ⟨hfine, hecho⟩ hpost (.inl rfl)
      exact ⟨hstill, hlasts.elim id id⟩
  · exact ⟨by decide, fun hidle => absurd hidle (by decide)⟩

end Moves

/-- The home switch stops a MOVE and is released again, and then the status is asked for. -/
def moveThenStatus : List LinkEvent :=
  requestSteps moveX 10 ++ mainSteps 4 ++ controllerSteps 7 .wrote ++ hostSteps 13 .deliver ++
    hostSteps 7 .wrote ++ controllerSteps 6 .deliver ++
    [.interrupt .x (.isrLsHome .low), .interrupt .x (.isrLsHome .high)] ++ statusSteps 8

/-- What the update of the status performs when a MOVE is over. -/
def endMove : List Acted :=
  [ ⟨.getStatus, .moving⟩, ⟨.moving .x, false⟩, ⟨.moving .y, false⟩, ⟨.lsHomePressed .x, false⟩
  , ⟨.lsFarPressed .x, false⟩, ⟨.lsHomePressed .y, false⟩, ⟨.lsFarPressed .x, false⟩
  , ⟨.setStatus .idle, ()⟩ ]

/-- The log of this, from the end of the MOVE to the end of the last call. -/
def moveThenStatusLog : List Obs :=
  .begun (.getStatus 1000) 22 :: endMove.map (Obs.acted · 22) ++
    handled (.basic msgIdGetStatus) 28 [⟨.getStatus, .idle⟩]

set_option maxRecDepth 4000 in
/-- Touching the switch is not enough for a FAULT. -/
theorem arrived_unobstructed_touched :
    ∃ l since, run HostLink.step (.init readyStand) moveThenStatus = some l ∧
      (∀ id sw, (id, sw) ≠ (.y, .far) →
        ∃ n, .acted (readFlag id sw false) n ∈ since ++ moveThenStatusLog) ∧
      (∀ id, (l.controller.stand.axis id).state.moving = false) ∧
      l.controller.stand.status = .idle := by
  obtain ⟨l, hrun, hlog⟩ : ∃ l, run HostLink.step (.init readyStand) moveThenStatus = some l ∧
      l.log = [] ++ .begun moveX 0 ::
        (([.acted ⟨.getStatus, .idle⟩ 0] ++ handled moveX.request 16
          (moveOps ⟨1000, 2000, AxisId.x.toByte, AxisDirection.positive.toByte⟩
            defaultCalibration .ok)) ++
          .returned moveX .ok (.axisResult AxisResult.ok.toByte) ::
            (moveThenStatusLog ++ .returned (.getStatus 1000) .ok (.status 0) :: [])) :=
    ⟨_, rfl, rfl⟩
  refine ⟨l, _, hrun, (arrived_unobstructed conf defaultCalibration readyStand readyOps
    standing_ready moveThenStatus l hrun .x .positive 1000 2000 1000 1000 [] _ moveThenStatusLog
    [] 0 0 hlog ?_ ?_ ?_ (by simp)).2 rfl⟩
  · simp [hlog, moveThenStatusLog, endMove, moveOps, Fine, Obs.Fine, handled]
  · rintro c v hmem data fits rfl
    simp [hlog, moveThenStatusLog, moveX, handled] at hmem
  · simp [moveThenStatusLog, moveOps, handled, HostCall.Commands, HostCall.Starts]

end MpmtTestStand.Ports
