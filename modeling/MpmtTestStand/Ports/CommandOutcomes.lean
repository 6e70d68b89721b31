import MpmtTestStand.Ports.HostVerdicts
import MpmtTestStand.Ports.OwnOrders

/-!
# What a command has come to

STOP and HOME get no response, so the host knows of them only by the status that it
reads next.  `Overtaken`: by then the command has been dispatched, and its service is
over.  From there on the controller has been on its own, so the status says what the
command has come to.

## Main results

* `stopped_for_good` — after STOP the status is IDLE, and no axis moves until the next
  HOME or MOVE.
* `homed_at_home` — IDLE after HOME: both home switches have been found pressed, and both
  positions set to zero.
-/

namespace MpmtTestStand.Ports

open MpmtTestStand.Verified
open MpmtTestStand.Verified.Run
open MPMTTestStand

/-! ## The dispatch of a command -/

/-- The request of `c` has been dispatched after the call had begun, and then others,
none of them a command. -/
structure Overtaken (pre : List Obs) (c : HostCall) (sent : Nat) (log later : List Obs) :
    Prop where
  log_eq : ∃ mid, log = pre ++ .begun c sent ::
    (mid ++ .acted ⟨.dispatch c.request, ()⟩ (c.requestEnd sent) :: later)
  uncommanded : ∀ x ∈ dispatches later, ¬Consequential x.1.id
  overtaken : dispatches later ≠ []

/-- The dispatch of a message in a log. -/
theorem dispatches_split {log : List Obs} {before after : List (Packet × Nat)} {p : Packet}
    {n : Nat} (h : dispatches log = before ++ (p, n) :: after) :
    ∃ mid later, log = mid ++ .acted ⟨.dispatch p, ()⟩ n :: later ∧ dispatches later = after := by
  obtain ⟨first, rest, rfl, -, hrest⟩ := List.filterMap_eq_append_iff.mp h
  obtain ⟨quiet, o, later, rfl, -, ho, hlater⟩ := List.filterMap_eq_cons_iff.mp hrest
  refine ⟨first ++ quiet, later, ?_, hlater⟩
  obtain rfl : o = .acted ⟨.dispatch p, ()⟩ n := by
    cases o with
    | begun | returned => cases ho
    | acted a got =>
        obtain ⟨op, r⟩ := a
        cases op with
        | dispatch q =>
            obtain ⟨rfl, rfl⟩ := Prod.mk.inj (Option.some.inj ho)
            rfl
        | _ => cases ho
  rw [List.append_assoc]

section Session

variable {conf : Config} {cal : Calibration} {base : List Acted} {stand : TestStand}
  {l q q' : HostLink} {events : List LinkEvent} {pre since front back more : List Obs}
  {c : HostCall} {sent sent' : Nat} {timeoutMs : UInt32} {status : Status} {m : Recorder}

/-- All that has been dispatched when a status has been returned. -/
theorem StatusRead.dispatches_eq (h : StatusRead pre front back timeoutMs sent' status q q') :
    dispatches pre = dispatches front ++
      [(.basic msgIdGetStatus, (HostCall.getStatus timeoutMs).requestEnd sent')] := by
  rw [h.served.log_eq, dispatches_append, dispatches_append, h.served.quiet, List.append_nil]
  rfl

theorem StatusRead.logged (h : StatusRead pre front back timeoutMs sent' status q q') :
    q.log <+: pre := by
  rw [h.served.log_eq, h.before, List.append_assoc]
  exact (List.prefix_append_right_inj _).mpr ⟨_, rfl⟩

/-- **The command has been overtaken** when the status is read. -/
theorem StatusRead.overtaken (hrun : run HostLink.step (.init stand) events = some l)
    (hlog : l.log = (pre ++ .begun c sent :: since) ++ more)
    (hplain : Plain (pre ++ .begun c sent :: since)) (hc : c.Commands)
    (hsince : ∀ c' n, .begun c' n ∈ since → ¬c'.Commands)
    (hread : StatusRead (pre ++ .begun c sent :: since) front back timeoutMs sent' status q q') :
    ∃ later, Overtaken pre c sent q.log later := by
  have hsettled := hread.served.settled
  rw [hread.dispatches_eq, requests_append] at hsettled
  have hsettled : requests pre ++ (c.request, c.requestEnd sent) :: requests since =
      dispatches front ++
        [(.basic msgIdGetStatus, (HostCall.getStatus timeoutMs).requestEnd sent')] := hsettled
  -- the status was asked for after the command
  obtain ⟨asked, hasked, hfront⟩ : ∃ asked, requests since = asked ++
        [(.basic msgIdGetStatus, (HostCall.getStatus timeoutMs).requestEnd sent')] ∧
      dispatches front = requests pre ++ (c.request, c.requestEnd sent) :: asked := by
    rcases List.eq_nil_or_concat (requests since) with hnil | ⟨asked, y, hasked⟩
    · rw [hnil] at hsettled
      obtain ⟨-, hlast⟩ := List.append_inj' hsettled rfl
      have hid : c.request.id = msgIdGetStatus :=
        congrArg (fun x => x.1.id) (List.cons.inj hlast).1
      have hcommand := c.commands_iff.mpr hc
      rw [hid] at hcommand
      exact absurd hcommand (by decide)
    · rw [List.concat_eq_append] at hasked
      rw [hasked, ← List.cons_append, ← List.append_assoc] at hsettled
      obtain ⟨hfront, hlast⟩ := List.append_inj' hsettled rfl
      exact ⟨asked, hasked.trans (congrArg _ hlast), hfront.symm⟩
  -- it was not dispatched before it had begun
  obtain ⟨waiting, hwaiting⟩ : dispatches pre <+: requests pre := by
    have hsplit : l.log = (HostLink.init stand).log ++ (pre ++ .begun c sent :: (since ++ more)) :=
      hlog.trans (List.append_assoc ..)
    obtain ⟨earlier, q0, hearlier, hq0⟩ := HostLink.begun_at hrun hsplit
    have hq0 : q0.log = pre := hq0
    have hplace := (HostLink.inPlace hearlier (hq0 ▸ hplain.of_append)).dispatched
    rwa [hq0] at hplace
  obtain ⟨after, rfl⟩ : ∃ after, front = pre ++ .begun c sent :: after := by
    have hprefix : front <+: pre ++ .begun c sent :: since :=
      ⟨_, (List.append_assoc ..).symm.trans hread.served.log_eq.symm⟩
    have hbegun : pre ++ [.begun c sent] <+: pre ++ .begun c sent :: since :=
      ⟨since, by simp⟩
    rcases List.prefix_or_prefix_of_prefix hprefix hbegun with ⟨rest, hrest⟩ | ⟨after, hafter⟩
    · have hlen := congrArg List.length (congrArg dispatches hrest)
      have hnone : dispatches [.begun c sent] = [] := rfl
      rw [dispatches_append, dispatches_append, hnone, hfront, ← hwaiting] at hlen
      simp only [List.length_append, List.length_cons, List.length_nil] at hlen
      omega
    · exact ⟨after, by rw [← hafter, List.append_assoc]; rfl⟩
  have hafter : dispatches after = waiting ++ (c.request, c.requestEnd sent) :: asked := by
    rw [dispatches_append, ← hwaiting, List.append_assoc] at hfront
    exact List.append_cancel_left hfront
  obtain ⟨mid, later, rfl, hlater⟩ := dispatches_split hafter
  have hall : dispatches (later ++ [.acted ⟨.dispatch (.basic msgIdGetStatus), ()⟩
      ((HostCall.getStatus timeoutMs).requestEnd sent')]) = requests since := by
    rw [dispatches_append, hlater, hasked]
    rfl
  refine ⟨later ++ [.acted ⟨.dispatch (.basic msgIdGetStatus), ()⟩
    ((HostCall.getStatus timeoutMs).requestEnd sent')], ⟨mid, ?_⟩, ?_, ?_⟩
  · rw [hread.before]
    simp only [List.append_assoc, List.cons_append]
  · intro x hx
    rw [hall] at hx
    exact requests_forall (P := fun p => ¬Consequential p.id)
      (fun c' n hc' => mt c'.commands_iff.mp (hsince c' n hc')) x hx
  · rw [hall, hasked]
    simp

/-- What has happened after the dispatch is logged after the call had begun. -/
theorem Overtaken.mem {later : List Obs} (h : Overtaken pre c sent q.log later)
    (hlog : q.log <+: pre ++ .begun c sent :: since) {o : Obs} (ho : o ∈ later) : o ∈ since := by
  obtain ⟨mid, hq⟩ := h.log_eq
  obtain ⟨rest, hrest⟩ := hlog
  rw [hq, List.append_assoc] at hrest
  obtain ⟨-, rfl⟩ := List.cons.inj (List.append_cancel_left hrest)
  simp [ho]

/-- An operation that has been performed is in the log. -/
theorem mem_performed {log : List Obs} {a : Acted}
    (h : a ∈ ((performed log).map Prod.fst).reverse) : ∃ n, .acted a n ∈ log := by
  obtain ⟨⟨a', n⟩, hmem, rfl⟩ := List.mem_map.mp (List.mem_reverse.mp h)
  obtain ⟨o, ho, hacted⟩ := List.mem_filterMap.mp hmem
  cases o with
  | acted a' n' =>
      obtain ⟨rfl, rfl⟩ := Prod.mk.inj (Option.some.inj hacted)
      exact ⟨_, ho⟩
  | begun | returned => cases hacted

theorem mem_dispatches {log : List Obs} {a : Acted} {n : Nat} {p : Packet}
    (h : .acted a n ∈ log) (ha : a.dispatch? = some p) : (p, n) ∈ dispatches log := by
  refine List.mem_filterMap.mpr ⟨_, h, ?_⟩
  obtain ⟨o, r⟩ := a
  cases o with
  | dispatch q =>
      obtain rfl : q = p := Option.some.inj ha
      rfl
  | _ => cases ha

/-- The service of the command is over, and then the controller has been on its own. -/
theorem Overtaken.on_its_own {later : List Obs} (h : Overtaken pre c sent q.log later)
    (hm : Recounted conf cal base q m) :
    ∃ since e mid b old s0 orders,
      m.history = since ++ e :: (mid ++ ⟨b, .acted ⟨.dispatch c.request, ()⟩⟩ :: old) ∧
      (∀ a ∈ actedOps (since ++ e :: mid), ∃ n, .acted a n ∈ later) ∧
      served (mid ++ ⟨b, .acted ⟨.dispatch c.request, ()⟩⟩ :: old) = some c.request ∧
      Outcome e.before (mid ++ ⟨b, .acted ⟨.dispatch c.request, ()⟩⟩ :: old) ∧
      Obeys s0 (e :: (mid ++ ⟨b, .acted ⟨.dispatch c.request, ()⟩⟩ :: old)) since
        q.controller.stand orders ∧
      (∀ o ∈ orders, o.Own) ∧
      Run.run Mode.next e.before.mode orders = some q.controller.stand.mode := by
  obtain ⟨⟨before, hlog⟩, huncommanded, hovertaken⟩ := h
  have hacted : actedOps m.history = ((performed later).map Prod.fst).reverse ++
      ⟨.dispatch c.request, ()⟩ :: (((performed (pre ++ .begun c sent :: before)).map
        Prod.fst).reverse ++ base) := by
    have hperformed : performed q.log = performed (pre ++ .begun c sent :: before) ++
        (⟨.dispatch c.request, ()⟩, c.requestEnd sent) :: performed later := by
      rw [hlog, ← List.cons_append, ← List.append_assoc, performed_append]
      rfl
    rw [hm.2.acted, hperformed]
    simp
  have hlater : ∃ a ∈ ((performed later).map Prod.fst).reverse, ∃ p, a.dispatch? = some p := by
    obtain ⟨⟨p, n⟩, hp⟩ := List.exists_mem_of_ne_nil _ hovertaken
    obtain ⟨o, ho, hdispatch⟩ := List.mem_filterMap.mp hp
    cases o with
    | begun | returned => cases hdispatch
    | acted a got =>
        refine ⟨a, List.mem_reverse.mpr (List.mem_map.mpr ⟨(a, got), ?_, rfl⟩), p, ?_⟩
        · exact List.mem_filterMap.mpr ⟨_, ho, rfl⟩
        · obtain ⟨op, r⟩ := a
          cases op with
          | dispatch p' =>
              obtain ⟨rfl, -⟩ := Prod.mk.inj (Option.some.inj hdispatch)
              rfl
          | _ => cases hdispatch
  obtain ⟨since, e, mid, b, old, hsplit, hops, he, hserved⟩ := service_over hacted hlater
  have hmem : ∀ a ∈ actedOps (since ++ e :: mid), ∃ n, .acted a n ∈ later := by
    rw [hops]
    exact fun a ha => mem_performed ha
  obtain ⟨s0, orders, hobeys, hown, hrun⟩ := hm.1.on_its_own hsplit he fun a ha p hp => by
    have ha' : a ∈ actedOps (since ++ e :: mid) := by
      rw [← List.singleton_append, ← List.append_assoc, actedOps_append]
      exact List.mem_append_left _ ha
    obtain ⟨n, hn⟩ := hmem a ha'
    exact huncommanded (p, n) (mem_dispatches hn hp)
  rw [hm.2.controller] at hobeys hrun
  exact ⟨since, e, mid, b, old, s0, orders, hsplit, hmem, hserved, hm.1.outcome hsplit he, hobeys,
    hown, hrun⟩

/-- **The status after a command** that no other has followed: it was read when the
controller had done nothing since but on its own, and if it says that nothing moves, that
lasts as long as the host begins no HOME and no MOVE. -/
theorem Standing.read_after_command (hstand : Standing conf cal stand base)
    (hrun : Run.run HostLink.step (.init stand) events = some l) {post : List Obs} {b : UInt8}
    (hlog : l.log = pre ++ .begun c sent ::
      (since ++ .returned (.getStatus timeoutMs) .ok (.status b) :: post))
    (hplain : Plain l.log) (hc : c.Commands) (hsince : ∀ c' n, .begun c' n ∈ since → ¬c'.Commands)
    (hpost : ∀ c' n, .begun c' n ∈ post → ¬c'.Starts) :
    ∃ q m later status, Recounted conf cal base q m ∧ q.log <+: pre ++ .begun c sent :: since ∧
      Overtaken pre c sent q.log later ∧ b = status.toByte ∧
      status = q.controller.stand.mode.status ∧
      (SaysStill status → Still l.controller.stand ∧
        (l.controller.stand.status = status ∨ l.controller.stand.status = .idle)) := by
  have hlog' : l.log = (pre ++ .begun c sent :: since) ++
      .returned (.getStatus timeoutMs) .ok (.status b) :: post := by
    rw [hlog, List.append_assoc]
    rfl
  have hbefore : Plain (pre ++ .begun c sent :: since) := .of_append (hlog' ▸ hplain)
  obtain ⟨earlier, around, later, q, q', front, back, sent', status, -, hearlier, hstep, hlater,
    hread, rfl⟩ := HostLink.status_read hstand hrun hlog' hbefore.fine
  obtain ⟨after, hovertaken⟩ := hread.overtaken hrun hlog' hbefore hc hsince
  obtain ⟨m, hm⟩ := hstand.run hearlier
  exact ⟨q, m, after, status, hm, hread.logged, hovertaken, rfl,
    hread.status_eq.symm.trans (TestStand.status_mode _).symm,
    hread.lasts hstand hrun hearlier hstep hlater hlog' hplain hpost⟩

/-! ## STOP -/

/-- **A STOP is for good.**  A session begins after anything that has happened to the
controller before.  The host begins a STOP, begins no other command, and then gets the
status.  When no call has failed: the status is IDLE, and stays so, and no axis moves, as long as
the host begins no HOME and no MOVE. -/
theorem stopped_for_good (conf : Config) (cal : Calibration) (stand : TestStand)
    (base : List Acted) (hstand : Standing conf cal stand base) (events : List LinkEvent)
    (l : HostLink) (hrun : run HostLink.step (.init stand) events = some l)
    (pre since post : List Obs) (sent : Nat) (timeoutMs : UInt32) (b : UInt8)
    (hlog : l.log = pre ++ .begun .stop sent ::
      (since ++ .returned (.getStatus timeoutMs) .ok (.status b) :: post))
    (hfine : Fine l.log)
    (hecho : ∀ c v, .returned c .ok v ∈ l.log → ∀ data fits, c ≠ .echo data fits)
    (hsince : ∀ c n, .begun c n ∈ since → ¬c.Commands)
    (hpost : ∀ c n, .begun c n ∈ post → ¬c.Starts) :
    b = Status.idle.toByte ∧
      (∀ id, (l.controller.stand.axis id).state.moving = false) ∧
      l.controller.stand.status = .idle := by
  obtain ⟨q, m, after, status, hm, -, hovertaken, rfl, hstatus, hlasts⟩ :=
    hstand.read_after_command hrun hlog ⟨hfine, hecho⟩ trivial hsince hpost
  obtain ⟨_, e, mid, b, old, s0, orders, -, -, hserved, houtcome, -, hown, hmode⟩ :=
    hovertaken.on_its_own hm
  rw [houtcome.stop ⟨_, hserved, rfl⟩] at hmode
  obtain rfl := Mode.own_waits (.inl rfl) hown hmode
  obtain rfl : status = .idle := by
    rw [hstatus, ← Option.some.inj hmode]
    rfl
  obtain ⟨hstill, hidle⟩ := hlasts (.inl rfl)
  exact ⟨rfl, hstill, hidle.elim id id⟩

/-- A STOP of an axis that moves, a call for the status, and another call. -/
theorem stopped_for_good_moving :
    (∃ q, run HostLink.step (.init readyStand) moveAnswered = some q ∧
      (q.controller.stand.axis .x).state.moving = true) ∧
    ∃ l, run HostLink.step (.init readyStand) stopThenCalls = some l ∧
      0 = Status.idle.toByte ∧
      (∀ id, (l.controller.stand.axis id).state.moving = false) ∧
      l.controller.stand.status = .idle := by
  obtain ⟨hmoving, l, hrun, hlog⟩ := stopThenCalls_run
  have hplain : Plain l.log := hlog ▸ stopThenCallsLog_plain
  refine ⟨hmoving, l, hrun, stopped_for_good conf defaultCalibration readyStand readyOps
    standing_ready stopThenCalls l hrun moveLog stopLog tempLog 22 1000 0 hlog hplain.1 hplain.2
    ?_ ?_⟩
  · simp [stopLog, handled, stopOps, HostCall.Commands, HostCall.Starts]
  · simp [tempLog, handled, HostCall.Starts]

/-! ## HOME -/

/-- What has happened since `d` for the last time is more recent than any `d`. -/
theorem mem_recent {α : Type} {P : α → Prop} {recent old new older : List α} {d x : α}
    (h : recent ++ d :: old = new ++ x :: older) (hd : ¬P d) (hx : x ≠ d)
    (hnew : ∀ y ∈ new, P y) : x ∈ recent := by
  rcases split_append h with ⟨mid, rfl, -⟩ | ⟨mid, rfl, hmid⟩
  · simp
  · cases mid with
    | nil => exact absurd (List.cons.inj hmid).1.symm hx
    | cons y mid =>
        obtain ⟨rfl, -⟩ := List.cons.inj hmid
        exact absurd (hnew d (by simp)) hd

/-- **IDLE after HOME means that both axes have been at home.**  A session begins after
anything that has happened to the controller before.  The host begins a HOME, begins no
other command, and then gets the status.  When no call has failed: the status is not
MOVING; and if it is IDLE, then since the HOME the controller has found both home switches
pressed and has set both positions to zero, and no axis moves as long as the host begins
no HOME and no MOVE. -/
theorem homed_at_home (conf : Config) (cal : Calibration) (stand : TestStand)
    (base : List Acted) (hstand : Standing conf cal stand base) (events : List LinkEvent)
    (l : HostLink) (hrun : run HostLink.step (.init stand) events = some l)
    (pre since post : List Obs) (sent : Nat) (timeoutMs : UInt32) (b : UInt8)
    (hlog : l.log = pre ++ .begun .home sent ::
      (since ++ .returned (.getStatus timeoutMs) .ok (.status b) :: post))
    (hfine : Fine l.log)
    (hecho : ∀ c v, .returned c .ok v ∈ l.log → ∀ data fits, c ≠ .echo data fits)
    (hsince : ∀ c n, .begun c n ∈ since → ¬c.Commands)
    (hpost : ∀ c n, .begun c n ∈ post → ¬c.Starts) :
    b ≠ Status.moving.toByte ∧
      (b = Status.idle.toByte →
        (∀ id, (∃ n, .acted ⟨.lsHomePressed id, true⟩ n ∈ since) ∧
          ∃ n, .acted ⟨.axisReset id, ()⟩ n ∈ since) ∧
        (∀ id, (l.controller.stand.axis id).state.moving = false) ∧
        l.controller.stand.status = .idle) := by
  obtain ⟨q, m, after, status, hm, hlogged, hovertaken, rfl, hstatus, hlasts⟩ :=
    hstand.read_after_command hrun hlog ⟨hfine, hecho⟩ trivial hsince hpost
  obtain ⟨recent, e, mid, b, old, s0, orders, -, hops, hserved, houtcome, hobeys, hown, hmode⟩ :=
    hovertaken.on_its_own hm
  rw [houtcome.home ⟨_, hserved, rfl⟩] at hmode
  rcases Mode.own_homingA hown hmode with hend | hend | hend | ⟨hend, hbothHome, hhomed⟩ <;>
    rw [hend] at hstatus <;> subst hstatus
  · exact ⟨by decide, fun hidle => absurd hidle (by decide)⟩
  · exact ⟨by decide, fun hidle => absurd hidle (by decide)⟩
  · exact ⟨by decide, fun hidle => absurd hidle (by decide)⟩
  · -- whatever part of the history is taken, what was done since the HOME is in the log
    have hdone : ∀ {new' old' new older : List MPMTTestStand.Entry} {e' : MPMTTestStand.Entry}
        {b' : TestStand} {a : Acted},
        recent = new' ++ e' :: old' →
        old' ++ e :: (mid ++ ⟨b, .acted ⟨.dispatch (.basic msgIdHome), ()⟩⟩ :: old) =
          new ++ ⟨b', .acted a⟩ :: older →
        (∀ x ∈ new, ¬x.event.BeginsHoming) → a.dispatch? = none → ∃ n, .acted a n ∈ since := by
      intro new' old' new older e' b' a hrecent hhistory hnew ha
      have hne : (⟨b', .acted a⟩ : MPMTTestStand.Entry) ≠
          ⟨b, .acted ⟨.dispatch (.basic msgIdHome), ()⟩⟩ := by
        rintro heq
        obtain rfl := Happening.acted.inj (MPMTTestStand.Entry.mk.inj heq).2
        cases ha
      have hmem : ⟨b', .acted a⟩ ∈ old' ++ e :: mid :=
        mem_recent (P := fun x => ¬x.event.BeginsHoming)
          (d := ⟨b, .acted ⟨.dispatch (.basic msgIdHome), ()⟩⟩) (by simpa using hhistory)
          (not_not_intro rfl) hne hnew
      obtain ⟨n, hn⟩ := hops a (mem_actedOps (b := b') (by
        rw [hrecent]
        simp only [List.mem_append, List.mem_cons] at hmem ⊢
        tauto))
      exact ⟨n, hovertaken.mem hlogged hn⟩
    refine ⟨by decide, fun _ => ⟨fun id => ⟨?_, ?_⟩, ?_⟩⟩
    · obtain ⟨new', e', old', s', hrecent, -, -, hready⟩ := hobeys.given hbothHome
      obtain ⟨new, ⟨b', ev⟩, older, hhistory, rfl, hnew⟩ := hready id
      exact hdone hrecent hhistory hnew rfl
    · obtain ⟨new', e', old', s', hrecent, -, -, -, hzeroed⟩ := hobeys.given hhomed
      obtain ⟨new, b', older, hhistory, hnew⟩ := hzeroed id
      exact hdone hrecent hhistory hnew rfl
    · obtain ⟨hstill, hidle⟩ := hlasts (.inl rfl)
      exact ⟨hstill, hidle.elim id id⟩

end Session

/-- A homing routine as it should be, and then a call for the status. -/
def homeThenStatus : List LinkEvent :=
  requestSteps .home 0 ++ mainSteps 6 ++ hostSteps 6 .deliver ++
    [.interrupt .x (.isrLsHome .low), .interrupt .y (.isrLsHome .low)] ++
    .loop :: mainSteps 11 ++ controllerSteps 1 .quiet ++
    [.interrupt .x (.isrLsHome .high), .interrupt .y (.isrLsHome .high)] ++ statusSteps 8

/-- The operations of either part of this routine. -/
def homingPartOps (done : Bool) : List Acted :=
  [ ⟨.getCal, defaultCalibration⟩
  , ⟨.axisStart AxisId.x.toByte (homingMotion (homingDir done) defaultCalibration), .ok⟩
  , ⟨.axisStart AxisId.y.toByte (homingMotion (homingDir done) defaultCalibration), .ok⟩
  , ⟨.setHomeADone done, ()⟩
  , ⟨.setStatus .homing, ()⟩ ]

/-- What the update of the status performs before part B. -/
def beginPartB : List Acted :=
  [ ⟨.getStatus, .homing⟩, ⟨.getHomeADone, false⟩, ⟨.moving .x, false⟩, ⟨.moving .y, false⟩
  , ⟨.lsHomePressed .x, true⟩, ⟨.lsHomePressed .y, true⟩ ]

/-- What it performs when part B is over. -/
def endPartB : List Acted :=
  [ ⟨.getStatus, .homing⟩, ⟨.getHomeADone, true⟩, ⟨.moving .x, false⟩, ⟨.moving .y, false⟩
  , ⟨.axisReset .x, ()⟩, ⟨.axisReset .y, ()⟩, ⟨.setStatus .idle, ()⟩, ⟨.setHomeADone false, ()⟩ ]

/-- The log of this, between the beginning of HOME and the end of the last call. -/
def homeThenStatusLog : List Obs :=
  [.acted ⟨.getStatus, .idle⟩ 0] ++ handled HostCall.home.request 6 (homingPartOps false) ++
    .returned .home .ok .none ::
    (beginPartB ++ homingPartOps true).map (Obs.acted · 6) ++
    .begun (.getStatus 1000) 6 :: endPartB.map (Obs.acted · 6) ++
    handled (.basic msgIdGetStatus) 12 [⟨.getStatus, .idle⟩]

set_option maxRecDepth 4000 in
/-- A homing routine takes both axes home. -/
theorem homed_at_home_routine :
    ∃ l, run HostLink.step (.init readyStand) homeThenStatus = some l ∧
      ((∀ id, (∃ n, .acted ⟨.lsHomePressed id, true⟩ n ∈ homeThenStatusLog) ∧
          ∃ n, .acted ⟨.axisReset id, ()⟩ n ∈ homeThenStatusLog) ∧
        (∀ id, (l.controller.stand.axis id).state.moving = false) ∧
        l.controller.stand.status = .idle) := by
  obtain ⟨l, hrun, hlog⟩ : ∃ l, run HostLink.step (.init readyStand) homeThenStatus = some l ∧
      l.log = [] ++ .begun .home 0 ::
        (homeThenStatusLog ++ .returned (.getStatus 1000) .ok (.status 0) :: []) :=
    ⟨_, rfl, rfl⟩
  exact ⟨l, hrun, (homed_at_home conf defaultCalibration readyStand readyOps standing_ready
    homeThenStatus l hrun [] homeThenStatusLog [] 0 1000 0 hlog
    (by simp [hlog, homeThenStatusLog, homingPartOps, beginPartB, endPartB, Fine, Obs.Fine, handled])
    (by rintro c v hmem data fits rfl; simp [hlog, homeThenStatusLog, handled] at hmem)
    (by simp [homeThenStatusLog, handled, HostCall.Commands, HostCall.Starts])
    (by simp)).2 rfl⟩

end MpmtTestStand.Ports
