import MpmtTestStand.Ports.ArduinoMove
import MpmtTestStand.Ports.HomingDistance
import MpmtTestStand.Ports.MoveOutcome

/-!
# How far a MOVE goes

A MOVE is over some time after it has been answered, and the host learns of that from
the status.  `Goes` follows the motion through the whole system, from its start to the
interrupt that ends it (`HostLink.goes_on`): the position is the number of encoder
interrupts, and as long as not all counts of the MOVE have been made, the axis is on the
targets of its profile.

## Main results

* `moved_all_the_way` — IDLE or FAULT after `arduino_move`: each axis has made at least the
  counts from the position that was read to its destination, or a limit switch of it has
  been touched.
-/

namespace MpmtTestStand.Ports

open MpmtTestStand.Verified
open MpmtTestStand.Verified.Run
open MPMTTestStand

/-! ## One axis -/

namespace MPMTTestStand

/-- The position `n` counts away from `start`. -/
def counted (neg : Bool) (start : Int32) (n : Nat) : Int32 :=
  if neg then start - Int32.ofNat n else start + Int32.ofNat n

theorem counted_zero (neg : Bool) (start : Int32) : counted neg start 0 = start := by
  cases neg <;> simp [counted]

theorem counted_succ (neg : Bool) (start : Int32) (n : Nat) :
    counted neg start (n + 1) = if neg then counted neg start n - 1 else counted neg start n + 1 := by
  cases neg
  · simp only [counted, Bool.false_eq_true, if_false, Int32.ofNat_add]
    grind
  · simp only [counted, if_true, Int32.ofNat_add]
    grind

/-- The axis has made `n` counts since it was started at `start`, and still moves; as long
as these are not all, it is on its targets. -/
structure Goes (neg : Bool) (total : Nat) (profile : VelProfile)
    (part : Partition neg total profile) (start : Int32) (n : Nat) (axis : Axis) : Prop where
  moving : axis.state.moving = true
  dir : axis.state.dir = signDir neg
  position : axis.state.encoderCurrent = counted neg start n
  tracking : FitsInt32 (start.toInt + sign neg * total) →
    total ≤ n ∨ Tracking start.toInt neg total profile part n axis

section Axis

variable {neg : Bool} {total : Nat} {profile : VelProfile} {part : Partition neg total profile}
  {start : Int32} {n : Nat} {id : AxisId} {s s' : TestStand} {ev : Happening}

/-- What does not concern the axis is no count. -/
theorem Happening.not_pulse (h : ev.onAxis id = none) : ev.isPulse id = false := by
  cases ev with
  | interrupt id' e =>
      cases e with
      | isrEncoder =>
          by_contra hpulse
          have hid : id' = id := by simpa [Happening.isPulse] using hpulse
          simp [Happening.onAxis, hid] at h
      | _ => rfl
  | _ => rfl

/-- While it moves, an axis counts the interrupts of its encoder. -/
theorem Happens.counts (h : Happens s ev s') (hmoving : (s'.axis id).state.moving = true)
    (hbefore : (s.axis id).state.moving = true) (hdir : (s.axis id).state.dir = signDir neg)
    (hposition : (s.axis id).state.encoderCurrent = counted neg start n) :
    (s'.axis id).state.encoderCurrent =
      counted neg start (n + if ev.isPulse id then 1 else 0) := by
  rcases h.axis id with ⟨io, mech, r, -, heq⟩ | ⟨hon, heq⟩ | ⟨ae, hon, heq⟩
  · rw [heq] at hmoving
    cases hmoving
  · rw [heq, Happening.not_pulse hon]
    exact hposition
  · rcases Happening.onAxis_program hon with rfl | ⟨rfl, -⟩ | ⟨rfl, -⟩ | ⟨motion, res, rfl, rfl⟩
    · rw [heq] at hmoving ⊢
      cases ae with
      | isrEncoder =>
          have hpulse : (Happening.interrupt id .isrEncoder).isPulse id = true := by
            simp [Happening.isPulse]
          rw [hpulse, if_pos rfl, counted_succ, ← hposition]
          cases neg <;> simp [AxisEvent.apply, Axis.handleIsrEncoder, hdir, signDir]
      | isrStep =>
          refine Eq.trans ?_ hposition
          show (Axis.handleIsrStep _).state.encoderCurrent = _
          unfold Axis.handleIsrStep
          split <;> rfl
      | isrAccel =>
          refine Eq.trans ?_ hposition
          show (Axis.handleIsrAccel _).state.encoderCurrent = _
          generalize hafter : (s.axis id).handleIsrAccel = after
          have heffect := (s.axis id).handleIsrAccel_effect
          rw [hafter] at heffect
          cases heffect <;> rfl
      | isrLsHome level | isrLsFar level | stop | reset => cases hmoving
      | start motion =>
          cases h with
          | interrupt _ _ he => exact he.elim
    · rw [heq] at hmoving
      cases hmoving
    · rw [heq] at hmoving
      cases hmoving
    · rw [heq, AxisEvent.apply, Axis.startAxis_moving motion hbefore]
      exact hposition

/-- **One happening**, after which the axis still moves. -/
theorem Happens.goes (h : Happens s ev s') (hgoes : Goes neg total profile part start n (s.axis id))
    (hmoving : (s'.axis id).state.moving = true) :
    Goes neg total profile part start (n + if ev.isPulse id then 1 else 0) (s'.axis id) where
  moving := hmoving
  dir := (h.moves_on (h.not_starts hgoes.moving) hmoving).2.2.trans hgoes.dir
  position := h.counts hmoving hgoes.moving hgoes.dir hgoes.position
  tracking hfits := by
    by_cases hall : total ≤ n
    · exact .inl (by omega)
    · have ht := (hgoes.tracking hfits).resolve_left hall
      have hbetween {m : Nat} (hm : m ≤ total) : FitsInt32 (start.toInt + sign neg * m) :=
        fits_between (toInt_fits start) hfits hm
      exact .inr (h.tracking (h.not_starts hgoes.moving) hmoving ht
        (fun _ => hbetween (by omega)) (hbetween (segmentEnd_le part .hold)) fun _ => hfits)

/-- **The end of a motion**, unless the program halts the axis. -/
theorem Happens.ends (h : Happens s ev s') (hgoes : Goes neg total profile part start n (s.axis id))
    (hstill : (s'.axis id).state.moving = false) (hhalts : ¬ev.Halts) :
    (s'.axis id).state.encoderCurrent = counted neg start n ∧
      ((∃ sw level, ev = .interrupt id (.isrLs sw level)) ∨
        ev = .interrupt id .isrAccel ∧ (FitsInt32 (start.toInt + sign neg * total) → total ≤ n)) := by
  rcases Entry.ends (e := ⟨s, ev⟩) h hgoes.moving hstill with
    ⟨hev, hseg, htarget⟩ | ⟨sw, _, level, hev, -⟩ | hend
  · obtain rfl : ev = .interrupt id .isrAccel := hev
    refine ⟨?_, .inr ⟨rfl, fun hfits => ?_⟩⟩
    · rw [← hgoes.position]
      cases h with
      | interrupt _ _ _ =>
          rw [TestStand.axis_setAxis]
          show (Axis.handleIsrAccel _).state.encoderCurrent = _
          generalize hafter : (s.axis id).handleIsrAccel = after
          have heffect := (s.axis id).handleIsrAccel_effect
          rw [hafter] at heffect
          cases heffect <;> rfl
    · rcases hgoes.tracking hfits with hall | ht
      · exact hall
      · have hpast := (ht.atTarget_iff hgoes.moving).mp htarget
        rwa [hseg] at hpast
  · obtain rfl : ev = .interrupt id (.isrLs sw level) := hev
    refine ⟨?_, .inl ⟨sw, level, rfl⟩⟩
    rw [← hgoes.position]
    cases h with
    | interrupt _ _ _ =>
        rw [TestStand.axis_setAxis]
        cases sw <;> rfl
  · exact absurd hend hhalts

/-- An accepted start with the mechanics of the program. -/
theorem Happens.begins {motion : AxisMotionSpec}
    (h : Happens s (.acted ⟨.axisStart id.toByte motion, .ok⟩) s')
    (hmech : (s.axis id).mech = conf.axisMech) (hdir : motion.dir = signDir neg)
    (htotal : motion.totalCounts.toNat < 2 ^ 31) :
    ∃ profile part, Goes neg motion.totalCounts.toNat profile part
      (s.axis id).state.encoderCurrent 0 (s'.axis id) := by
  obtain ⟨profile, hprofile, hbegin⟩ := h.accepted
  rw [hmech] at hprofile
  obtain ⟨part⟩ := motionProfile_partition hdir htotal hprofile
  have hle : part.accel ≤ motion.totalCounts.toNat := by
    have := part.sum
    omega
  refine ⟨profile, part, ?_⟩
  rw [hbegin]
  exact
    { moving := rfl
      dir := hdir
      position := (counted_zero neg _).symm
      tracking := fun hfits => .inr
        (beginMotion_tracking hdir part (fits_between (toInt_fits _) hfits hle)) }

end Axis

end MPMTTestStand

/-! ## The whole system -/

/-- An encoder interrupt of the axis. -/
def LinkEvent.isPulse (id : AxisId) : LinkEvent → Bool
  | .interrupt id' .isrEncoder => id' = id
  | _ => false

/-- What an event does to the test stand; an operation is logged. -/
theorem HostLink.step_happens {q q' : HostLink} {e : LinkEvent} (h : q.step e = some q') :
    ∃ ev, Happens q.controller.stand ev q'.controller.stand ∧
      (∀ id, ev.isPulse id = e.isPulse id) ∧
      (∀ a, ev = .acted a → ∃ around n, e = .act around ∧ q'.log = q.log ++ [.acted a n]) ∧
      ∀ id ae, ev = .interrupt id ae → e = .interrupt id ae := by
  have hnothing {s : TestStand} : Happens s .round s := .round
  cases HostLink.step_cases h with
  | call c res hret => exact ⟨.round, hnothing, fun _ => rfl, nofun, nofun⟩
  | host e host out heard hparty => exact ⟨.round, hnothing, fun _ => rfl, nofun, nofun⟩
  | controller e party inbox heard hparty =>
      exact ⟨.round, hnothing, fun _ => rfl, nofun, nofun⟩
  | loop controller hloop =>
      refine ⟨.round, ?_, fun _ => rfl, nofun, nofun⟩
      unfold Controller.loop at hloop
      split at hloop
      · obtain rfl := Option.some.inj hloop
        exact hnothing
      · cases hloop
  | act around controller a hact =>
      refine ⟨.acted a, ?_, fun _ => rfl, ?_, nofun⟩
      · unfold Controller.act at hact
        split at hact
        · split at hact
          · rename_i hperform
            obtain ⟨rfl, rfl⟩ := Prod.mk.inj (Option.some.inj hact)
            exact .acted _ around _ hperform
          · cases hact
        · cases hact
      · rintro _ ⟨⟩
        exact ⟨around, _, rfl, rfl⟩
  | interrupt id ae controller hinterrupt =>
      refine ⟨.interrupt id ae, ?_, fun _ => by cases ae <;> rfl, nofun, ?_⟩
      · unfold Controller.interrupt at hinterrupt
        split at hinterrupt
        · rename_i hae
          obtain rfl := Option.some.inj hinterrupt
          exact .interrupt id ae hae
        · cases hinterrupt
      · rintro _ _ ⟨⟩
        rfl

section Motion

variable {neg : Bool} {total : Nat} {profile : VelProfile} {part : Partition neg total profile}
  {start : Int32} {n : Nat} {id : AxisId} {q l : HostLink} {events : List LinkEvent}

/-- **A motion goes on until an event ends it.** -/
theorem HostLink.goes_on (hrun : run HostLink.step q events = some l)
    (hgoes : Goes neg total profile part start n (q.controller.stand.axis id))
    (hstill : (l.controller.stand.axis id).state.moving = false) :
    ∃ between e later q1 q', events = between ++ e :: later ∧
      run HostLink.step q between = some q1 ∧ q1.step e = some q' ∧
      run HostLink.step q' later = some l ∧
      Goes neg total profile part start (n + between.countP (·.isPulse id))
        (q1.controller.stand.axis id) ∧
      (q'.controller.stand.axis id).state.moving = false := by
  induction events generalizing q n with
  | nil =>
      obtain rfl : q = l := by simpa using hrun
      rw [hgoes.moving] at hstill
      cases hstill
  | cons e events ih =>
      obtain ⟨q', hhead, htail⟩ := run_cons_some HostLink.step hrun
      obtain ⟨ev, hhappens, hpulse, -⟩ := HostLink.step_happens hhead
      cases hmoving : (q'.controller.stand.axis id).state.moving with
      | false => exact ⟨[], e, events, q, q', rfl, rfl, hhead, htail, hgoes, hmoving⟩
      | true =>
          have hgoes' := hhappens.goes hgoes hmoving
          rw [hpulse id] at hgoes'
          obtain ⟨between, e', later, q1, q2, rfl, hbetween, hstep, hlater, hend, hq2⟩ :=
            ih htail hgoes'
          refine ⟨e :: between, e', later, q1, q2, rfl, ?_, hstep, hlater, ?_, hq2⟩
          · rw [run_cons, hhead]
            exact hbetween
          · rw [List.countP_cons, Nat.add_comm (between.countP _), ← Nat.add_assoc]
            exact hend

end Motion

/-- The motion of the axis, from its start on `motion`, which is logged after `log` when the
controller has read `got` bytes, to the event `e`, which ends it: a limit switch is touched,
or all of the counts have been made. -/
structure Travels (id : AxisId) (neg : Bool) (total : Nat) (motion : AxisMotionSpec) (got : Nat)
    (log : List Obs) (q : HostLink) (between : List LinkEvent) (e : LinkEvent) (q' : HostLink) :
    Prop where
  started : q.log = log ++ [.acted ⟨.axisStart id.toByte motion, .ok⟩ got]
  run : Run.run HostLink.step q (between ++ [e]) = some q'
  moving : (q.controller.stand.axis id).state.moving = true
  ends : (q'.controller.stand.axis id).state.moving = false
  position : (q'.controller.stand.axis id).state.encoderCurrent =
    counted neg (q.controller.stand.axis id).state.encoderCurrent
      (between.countP (·.isPulse id))
  cause : (∃ sw level, e = .interrupt id (.isrLs sw level)) ∨
    e = .interrupt id .isrAccel ∧
      (FitsInt32 ((q.controller.stand.axis id).state.encoderCurrent.toInt + sign neg * total) →
        total ≤ between.countP (·.isPulse id))

section Travels

variable {cal : Calibration} {base : List Acted} {stand : TestStand} {l q q' : HostLink}
  {events : List LinkEvent} {pre since later post : List Obs} {c : HostCall} {sent : Nat}
  {id : AxisId} {neg : Bool} {m : Recorder} {e : LinkEvent} {ev : Happening}

theorem HostCall.eq_stop (h : c.request.id = msgIdStop) : c = .stop := by
  cases c with
  | stop => rfl
  | ping => exact absurd h (show msgIdPing ≠ msgIdStop by decide)
  | echo | linkCheck => exact absurd h (show msgIdEcho ≠ msgIdStop by decide)
  | getStatus => exact absurd h (show msgIdGetStatus ≠ msgIdStop by decide)
  | home => exact absurd h (show msgIdHome ≠ msgIdStop by decide)
  | move => exact absurd h (show msgIdMove ≠ msgIdStop by decide)
  | getPosition => exact absurd h (show msgIdGetPosition ≠ msgIdStop by decide)
  | getTemp => exact absurd h (show msgIdGetTemp ≠ msgIdStop by decide)
  | getAxisState => exact absurd h (show msgIdGetAxisState ≠ msgIdStop by decide)
  | calibrate => exact absurd h (show msgIdCalibrate ≠ msgIdStop by decide)

/-- The program halts no axis that moves, unless for a STOP. -/
theorem Recounted.not_halts (hm : Recounted conf cal base q m) (hstep : q.step e = some q')
    (hmoving : (q.controller.stand.axis id).state.moving = true)
    (hacted : ∀ a, ev = .acted a → ∃ around n, e = .act around ∧ q'.log = q.log ++ [.acted a n])
    (hserves : ∀ p, served m.history = some p → p.id ≠ msgIdStop) : ¬ev.Halts := by
  intro hhalts
  cases ev with
  | round | interrupt => exact hhalts
  | acted a =>
      obtain ⟨around, n, rfl, hlog⟩ := hacted a rfl
      obtain ⟨m', hm', hhistory, -⟩ := hm.act hstep hlog
      have hproper := (maintains_proper conf cal).reached hm'.1
      rw [hhistory] at hproper
      rcases hproper.2 hhalts with hstill | ⟨⟨p, hp, hid⟩, -⟩
      · have hid : (q.controller.stand.axis id).state.moving = false := hstill id
        rw [hid] at hmoving
        cases hmoving
      · exact hserves p hp hid

/-- The moment of an accepted start, from which the axis goes. -/
theorem Standing.goes (hstand : Standing conf cal stand base)
    (hrun : Run.run HostLink.step (.init stand) events = some l) {upTo onward : List Obs}
    {motion : AxisMotionSpec} {n : Nat}
    (hlog : l.log = upTo ++ .acted ⟨.axisStart id.toByte motion, .ok⟩ n :: onward)
    (hdir : motion.dir = signDir neg) (htotal : motion.totalCounts.toNat < 2 ^ 31) :
    ∃ first around since q0 q profile part, events = first ++ .act around :: since ∧
      Run.run HostLink.step (.init stand) first = some q0 ∧ q0.step (.act around) = some q ∧
      Run.run HostLink.step q since = some l ∧
      q.log = upTo ++ [.acted ⟨.axisStart id.toByte motion, .ok⟩ n] ∧
      Goes neg motion.totalCounts.toNat profile part
        (q0.controller.stand.axis id).state.encoderCurrent 0 (q.controller.stand.axis id) := by
  have hsplit : l.log = (HostLink.init stand).log ++
      (upTo ++ .acted ⟨.axisStart id.toByte motion, .ok⟩ n :: onward) := hlog
  obtain ⟨first, around, since, q0, q, rfl, hfirst, hstart, hsince, hq0, hq⟩ :=
    HostLink.acted_at hrun hsplit
  have hone : q.log = q0.log ++ [.acted ⟨.axisStart id.toByte motion, .ok⟩ n] := by
    rw [hq, hq0, List.append_assoc]
  obtain ⟨m0, hm0⟩ := hstand.run hfirst
  obtain ⟨m1, hm1, hhistory, hhappens⟩ := hm0.act hstart hone
  have hproper := (maintains_proper conf cal).reached hm1.1
  rw [hhistory] at hproper
  obtain ⟨profile, part, hgoes⟩ := hhappens.begins (hproper.1 id ⟨rfl, rfl⟩) hdir htotal
  exact ⟨first, around, since, q0, q, profile, part, rfl, hfirst, hstart, hsince, hq, hgoes⟩

/-- **From the start of a MOVE to the end of its motion.** -/
theorem Standing.travels (hstand : Standing conf cal stand base)
    (hrun : Run.run HostLink.step (.init stand) events = some l) {front after : List Obs}
    {p : Packet} {n : Nat} {data : MoveMsgData} {used : Calibration}
    (hlog : l.log = front ++ handled p n (moveOps data used .ok) ++ after)
    (hp : p.id ≠ msgIdStop) (hafter : ∀ x ∈ dispatches after, x.1.id ≠ msgIdStop)
    (haxis : data.axis = id.toByte) (hdir : AxisDirection.ofByte data.dir = signDir neg)
    (htotal : data.distCounts.toNat < 2 ^ 31)
    (hstill : (l.controller.stand.axis id).state.moving = false) :
    ∃ earlier between e rest log q q', events = earlier ++ between ++ e :: rest ∧
      Run.run HostLink.step (.init stand) earlier = some q ∧ front <+: log ∧
      q'.log <+: l.log ∧
      Travels id neg data.distCounts.toNat (moveMotion data used) n log q between e q' := by
  obtain ⟨velHold, distCounts, axis, dir⟩ := data
  obtain rfl : axis = id.toByte := haxis
  let upTo : List Obs := front ++ [.acted ⟨.dispatch p, ()⟩ n, .acted ⟨.getCal, used⟩ n]
  let motion : AxisMotionSpec := moveMotion ⟨velHold, distCounts, id.toByte, dir⟩ used
  let onward : List Obs := .acted ⟨.setStatus .moving, ()⟩ n :: after
  have hsplit : l.log = upTo ++ .acted ⟨.axisStart id.toByte motion, .ok⟩ n :: onward := by
    rw [hlog]
    simp [upTo, motion, onward, handled, moveOps]
  obtain ⟨first, around, since, q0, q, profile, part, rfl, hfirst, hstart, hsince, hq, hgoes⟩ :=
    hstand.goes hrun hsplit hdir htotal
  -- it moves until
  obtain ⟨between, e, later, q1, q', rfl, hbetween, hend, hlater, hgoes1, hstill1⟩ :=
    HostLink.goes_on hsince hgoes hstill
  obtain ⟨ev, hhappens1, -, hacted, hinterrupt⟩ := HostLink.step_happens hend
  obtain ⟨m, hm⟩ := hstand.run (run_trans (run_snoc hfirst hstart) hbetween)
  have hserves : ∀ p, served m.history = some p → p.id ≠ msgIdStop := by
    have hall : l.log = q.log ++ onward := by
      rw [hsplit, hq, List.append_cons upTo]
    have hlast : dispatches q.log = dispatches front ++ [(p, n)] := by
      rw [hq, dispatches_append, dispatches_append]
      exact List.append_nil _
    exact hm.2.serves_within (P := fun p => p.id ≠ msgIdStop) hbetween
      (run_trans (run_single hend) hlater) hall hlast hp hafter
  obtain ⟨hposition, hcause⟩ :=
    hhappens1.ends hgoes1 hstill1 (hm.not_halts hend hgoes1.moving hacted hserves)
  have hzero : (q.controller.stand.axis id).state.encoderCurrent =
      (q0.controller.stand.axis id).state.encoderCurrent :=
    hgoes.position.trans (counted_zero neg _)
  rw [Nat.zero_add, ← hzero] at hposition hcause
  refine ⟨first ++ [.act around], between, e, later, upTo, q, q', by simp, run_snoc hfirst hstart,
    ⟨_, rfl⟩, ?_, hq, run_snoc hbetween hend, hgoes.moving, hstill1, hposition, ?_⟩
  · obtain ⟨rest, hrest⟩ := HostLink.log_grows hlater
    exact ⟨rest, hrest.symm⟩
  · rcases hcause with ⟨sw, level, hev⟩ | ⟨hev, hall⟩
    · exact .inl ⟨sw, level, hinterrupt _ _ hev⟩
    · exact .inr ⟨hinterrupt _ _ hev, hall⟩

/-- **An accepted MOVE is over** when IDLE or FAULT is read. -/
theorem Standing.move_travels (hstand : Standing conf cal stand base)
    (hrun : Run.run HostLink.step (.init stand) events = some l)
    {velHold distCounts moveTimeoutMs timeoutMs : UInt32} {b : UInt8}
    (hc : c = .move id (signDir neg) velHold distCounts moveTimeoutMs)
    (hlog : l.log = pre ++ .begun c sent ::
      (since ++ .returned c .ok (.axisResult AxisResult.ok.toByte) ::
        (later ++ .returned (.getStatus timeoutMs) .ok (.status b) :: post)))
    (hfine : Fine ((pre ++ .begun c sent :: since) ++
      .returned c .ok (.axisResult AxisResult.ok.toByte) :: later))
    (hsince : ∀ o ∈ since, o.IsActed) (hlater : ∀ n, .begun .stop n ∉ later)
    (hb : b = Status.idle.toByte ∨ b = Status.fault.toByte)
    (htotal : distCounts.toNat < 2 ^ 31) :
    ∃ used earlier between e rest log q q', events = earlier ++ between ++ e :: rest ∧
      Run.run HostLink.step (.init stand) earlier = some q ∧ pre <+: log ∧
      q'.log <+: (pre ++ .begun c sent :: since) ++
        .returned c .ok (.axisResult AxisResult.ok.toByte) :: later ∧
      Travels id neg distCounts.toNat
        (moveMotion ⟨velHold, distCounts, id.toByte, (signDir neg).toByte⟩ used)
        (c.requestEnd sent) log q between e q' := by
  obtain ⟨first, around, last, qs, qs', front, back, sent', status, mid, used, own, more, rfl,
    hfirst, -, -, hread, rfl, ⟨rfl, hqs, -, hdispatches⟩⟩ :=
      hstand.read_after_move hrun hc hlog hfine fun c' n hc' => by
        obtain ⟨a, got, hacted⟩ := hsince _ hc'
        cases hacted
  have hstatus : SaysStill status := by
    revert hb
    unfold SaysStill
    cases status <;> decide
  obtain ⟨m, hm⟩ := hstand.run hfirst
  have hafter : ∀ x ∈ dispatches (own ++ more), x.1.id ≠ msgIdStop := by
    rw [hdispatches]
    refine requests_forall (P := fun p => p.id ≠ msgIdStop) fun c' n hbegun hid => ?_
    exact hlater n (HostCall.eq_stop hid ▸ hbegun)
  have hdir : AxisDirection.ofByte (signDir neg).toByte = signDir neg := by cases neg <;> rfl
  have hmove : c.request.id ≠ msgIdStop := by
    rw [hc]
    exact show msgIdMove ≠ msgIdStop by decide
  obtain ⟨earlier, between, e, rest, log, q, q', rfl, hearlier, hq, hq', htravels⟩ :=
    hstand.travels hfirst hqs hmove hafter rfl hdir htotal (hread.still hm hstatus id)
  refine ⟨used, earlier, between, e, rest ++ .act around :: last, log, q, q', by simp, hearlier,
    (List.prefix_append pre _).trans hq, hq'.trans hread.logged, htravels⟩

end Travels

/-! ## `arduino_move` -/

/-- The direction and the distance of a displacement that fits. -/
theorem moveAxisArgs_displacement {target cur : Int32} {d : Int}
    (hd : d = target.toInt - cur.toInt) (hlo : -2 ^ 31 < d) (hhi : d < 2 ^ 31) :
    (moveAxisArgs target cur).1 = signDir (d < 0) ∧
      (moveAxisArgs target cur).2.toNat = d.natAbs := by
  have hsum := moveAxisArgs_sum (hd ▸ hlo) (hd ▸ hhi)
  have hdisp : (target - cur).toInt = d := by
    rw [Int32.toInt_sub, Int.bmod_eq_of_le (by omega) (by omega), hd]
  have hdir : (moveAxisArgs target cur).1 = signDir (d < 0) := by
    show getDirection (target - cur) = _
    have hneg : target - cur < 0 ↔ d < 0 := by
      rw [Int32.lt_iff_toInt_lt, hdisp]
      rfl
    simp only [getDirection, signDir, hneg, decide_eq_true_eq]
  refine ⟨hdir, ?_⟩
  rw [hdir] at hsum
  by_cases hneg : d < 0
  · simp only [signDir, hneg, decide_true, if_true, AxisDirection.sign] at hsum
    omega
  · simp only [signDir, hneg, decide_false, Bool.false_eq_true, if_false,
      AxisDirection.sign] at hsum
    omega

section ArduinoMove

variable {F : Type} {ops : FloatOps F} {destMm velMmS : AxisId → F} {seg : List Obs}

/-- What is observed of an accepted MOVE in `seg`. -/
structure Accepted (seg : List Obs) (c : HostCall) (front : List Obs) (sent : Nat)
    (since back : List Obs) : Prop where
  seg_eq : seg = front ++ .begun c sent ::
    (since ++ .returned c .ok (.axisResult AxisResult.ok.toByte) :: back)
  acted : ∀ o ∈ since, o.IsActed
  no_stop : ∀ n, .begun .stop n ∉ back

theorem mem_begins {log : List Obs} {c : HostCall} {sent : Nat} (h : .begun c sent ∈ log) :
    (c, sent) ∈ begins log := List.mem_filterMap.mpr ⟨_, h, rfl⟩

/-- The first call is an accepted MOVE. -/
theorem FirstCall.accepted {c : HostCall} {part front : List Obs} {sent : Nat}
    {idle mid rest : List Obs}
    (h : FirstCall c part sent .ok (.axisResult AxisResult.ok.toByte) idle mid rest)
    (hseg : seg = front ++ part) (hrest : ∀ n, (.stop, n) ∉ begins rest) :
    Accepted seg c (front ++ idle) sent mid rest where
  seg_eq := by
    rw [hseg, h.seg_eq]
    simp only [List.append_assoc, List.cons_append]
  acted := h.mid_acted
  no_stop n hn := hrest n (mem_begins hn)

/-- After its last call a helper only waits. -/
theorem Follows.ret_acted {α : Type} {a b : α} {part : List Obs} (h : Follows (.ret b) part a) :
    ∀ o ∈ part, o.IsActed := by
  cases h with
  | ret _ _ hacted => exact hacted

/-- `arduino_move` returns `true` when all of its calls have been successful. -/
theorem Follows.both_accepted (h : Follows (arduinoMove ops destMm velMmS) seg true) :
    Fine seg ∧ ∃ sent value idle mid rest,
      FirstCall (.getPosition msgReceiveTimeoutMs) seg sent .ok value idle mid rest ∧
      ∀ id, ∃ front sent since back,
        Accepted seg (axisCall ops destMm velMmS value.positionData id) front sent since back := by
  rcases hvalid : validateMoveParams ops destMm velMmS with _ | _
  · rw [arduinoMove_invalid hvalid] at h
    cases h.of_ret.1
  rw [arduinoMove_valid hvalid] at h
  obtain ⟨sent, res, value, idle, mid, rest, hpos, h⟩ := h.of_call
  by_cases hres : res = .ok
  swap
  · rw [if_neg fun hok => hres (handleSerialResult_iff.mp hok)] at h
    cases h.of_ret.1
  subst hres
  rw [if_pos (handleSerialResult_iff.mpr rfl)] at h
  obtain ⟨sentX, resX, valueX, idleX, midX, restX, hx, h⟩ := h.of_call
  obtain ⟨sentY, resY, valueY, idleY, midY, restY, hy, h⟩ := h.of_call
  obtain ⟨hboth, hnone⟩ := h.of_ret
  have hacted := h.ret_acted
  simp only [Bool.true_eq, Bool.and_eq_true, handleSerialResult_iff, handleAxisResult_iff] at hboth
  obtain ⟨⟨rfl, rfl⟩, rfl, rfl⟩ := hboth
  obtain ⟨done, hseg, hdone⟩ := hpos.next
  obtain ⟨doneX, hrest, hdoneX⟩ := hx.next
  obtain ⟨doneY, hrestX, hdoneY⟩ := hy.next
  refine ⟨?_, sent, value, idle, mid, rest, hpos, fun id => ?_⟩
  · rw [hseg, hrest, hrestX]
    exact fine_append.mpr ⟨hdone rfl, fine_append.mpr ⟨hdoneX rfl,
      fine_append.mpr ⟨hdoneY rfl, fine_acted hacted⟩⟩⟩
  · have hsegY : seg = (done ++ doneX) ++ restX := by rw [hseg, hrest, List.append_assoc]
    cases id with
    | x =>
        refine ⟨_, _, _, _, hx.accepted hseg fun n hn => ?_⟩
        rw [hy.begins_eq, hnone] at hn
        obtain ⟨hstop, -⟩ := Prod.mk.inj (List.mem_singleton.mp hn)
        cases hstop
    | y =>
        refine ⟨_, _, _, _, hy.accepted hsegY fun n hn => ?_⟩
        rw [hnone] at hn
        cases hn

/-- **When IDLE or FAULT is read after `arduino_move`, both axes have gone all the way**, or
have been stopped by a switch.  A session begins after anything that has happened to the
controller before.  The host calls `arduino_move`, which returns `true`, and does not begin
a STOP before it gets the status IDLE or FAULT; no call has failed.  With `cur` the
position that `arduino_move` has read, for an axis that is less than 2^31 counts from its
destination: by now it has been started for its MOVE, with the motion of that MOVE, and
the motion has been ended by the interrupt of a limit switch of this axis, or after at
least as many interrupts of its encoder as there are counts from `cur` to the destination;
its position then is that at the start, plus or minus the number of these interrupts. -/
theorem moved_all_the_way {F : Type} (ops : FloatOps F) (destMm velMmS : AxisId → F)
    (cal : Calibration) (stand : TestStand) (base : List Acted)
    (hstand : Standing conf cal stand base) (events : List LinkEvent) (l : HostLink)
    (hrun : run HostLink.step (.init stand) events = some l) (pre seg later post : List Obs)
    (timeoutMs : UInt32) (b : UInt8)
    (hlog : l.log = pre ++ seg ++ later ++
      .returned (.getStatus timeoutMs) .ok (.status b) :: post)
    (hmove : Follows (arduinoMove ops destMm velMmS) seg true) (hfine : Fine (pre ++ later))
    (hlater : ∀ n, .begun .stop n ∉ later)
    (hb : b = Status.idle.toByte ∨ b = Status.fault.toByte) :
    ∃ (cur : PositionMsgData) (first : AxisId), PerformedFor l.log seg
        (.getPosition msgReceiveTimeoutMs) (positionOps cur.xCounts cur.yCounts first) ∧
      ∀ id (d : Int), d = (ops.mmToCts (destMm id)).toInt - (cur.counts id).toInt →
        -2 ^ 31 < d → d < 2 ^ 31 →
        ∃ sent used earlier between e rest log q q',
          .begun (axisCall ops destMm velMmS cur id) sent ∈ seg ∧
          events = earlier ++ between ++ e :: rest ∧
          run HostLink.step (.init stand) earlier = some q ∧ pre <+: log ∧
          q'.log <+: pre ++ seg ++ later ∧
          Travels id (d < 0) d.natAbs
            (moveMotion (.ofBytes (axisCall ops destMm velMmS cur id).request.payload) used)
            ((axisCall ops destMm velMmS cur id).requestEnd sent) log q between e q' := by
  obtain ⟨hpre, hlaterFine⟩ := fine_append.mp hfine
  obtain ⟨hseg, sent, value, idle, mid, rest, hpos, hboth⟩ := hmove.both_accepted
  have hlog' : l.log = pre ++ seg ++
      (later ++ .returned (.getStatus timeoutMs) .ok (.status b) :: post) := by
    rw [hlog, List.append_assoc]
  obtain ⟨first, hread⟩ := hpos.position_read hrun hlog' hpre
  refine ⟨value.positionData, first, hread, fun id d hd hlo hhi => ?_⟩
  obtain ⟨front, sent', since, back, haccepted⟩ := hboth id
  obtain ⟨hdir, hdist⟩ := moveAxisArgs_displacement hd hlo hhi
  generalize hc : axisCall ops destMm velMmS value.positionData id = c at haccepted
  have hcall : c = .move id (signDir (d < 0)) (ops.mmToSteps (velMmS id))
      (moveAxisArgs (ops.mmToCts (destMm id)) (value.positionData.counts id)).2
        msgReceiveTimeoutMs := by
    rw [← hc, ← hdir]
    rfl
  have hsplit : pre ++ seg ++ later = ((pre ++ front) ++ .begun c sent' :: since) ++
      .returned c .ok (.axisResult AxisResult.ok.toByte) :: (back ++ later) := by
    rw [haccepted.seg_eq]
    simp only [List.append_assoc, List.cons_append]
  have hall : l.log = (pre ++ front) ++ .begun c sent' ::
      (since ++ .returned c .ok (.axisResult AxisResult.ok.toByte) ::
        ((back ++ later) ++ .returned (.getStatus timeoutMs) .ok (.status b) :: post)) := by
    rw [hlog, hsplit]
    simp only [List.append_assoc, List.cons_append]
  have hnone : ∀ n, .begun .stop n ∉ back ++ later := fun n hn =>
    (List.mem_append.mp hn).elim (haccepted.no_stop n) (hlater n)
  obtain ⟨used, earlier, between, e, rest', log, q, q', hevents, hearlier, hq, hq', htravels⟩ :=
    hstand.move_travels hrun hcall hall
      (hsplit ▸ fine_append.mpr ⟨fine_append.mpr ⟨hpre, hseg⟩, hlaterFine⟩) haccepted.acted hnone hb
      (by omega)
  have hdata : MoveMsgData.ofBytes c.request.payload = ⟨ops.mmToSteps (velMmS id),
      (moveAxisArgs (ops.mmToCts (destMm id)) (value.positionData.counts id)).2, id.toByte,
        (signDir (d < 0)).toByte⟩ := by
    rw [hcall, HostCall.ofBytes_move]
  rw [hdist, ← hdata] at htravels
  refine ⟨sent', used, earlier, between, e, rest', log, q, q', ?_, hevents, hearlier,
    (List.prefix_append pre _).trans hq, hsplit ▸ hq', htravels⟩
  rw [haccepted.seg_eq]
  simp

end ArduinoMove

/-! ## A run -/

/-- Both axes are to go to 1 mm. -/
def toOneMm (id : AxisId) : HostCall := .move id .positive 150 9 msgReceiveTimeoutMs

/-- The axis makes its nine counts, and the three segments of its motion end. -/
def arrives (id : AxisId) : List LinkEvent :=
  List.replicate 9 (.interrupt id .isrEncoder) ++ List.replicate 3 (.interrupt id .isrAccel)

/-- `arduino_move`, the motion of both axes, and a call for the status. -/
def oneMmThenStatus : List LinkEvent :=
  hostSends (.getPosition msgReceiveTimeoutMs) ++ controllerServes 1 0 4 ++ hostReads 8 ++
    controllerSteps 6 .deliver ++
    hostSends (toOneMm .x) ++ controllerServes 1 10 4 ++ hostReads 1 ++
    controllerSteps 6 .deliver ++
    hostSends (toOneMm .y) ++ controllerServes 3 10 4 ++ hostReads 1 ++
    controllerSteps 6 .deliver ++ arrives .x ++ arrives .y ++ statusSteps 8

/-- The operations for a MOVE to 1 mm. -/
def handledOneMm (id : AxisId) (got : Nat) : List Obs :=
  handled (toOneMm id).request got
    (moveOps ⟨150, 9, id.toByte, AxisDirection.positive.toByte⟩ defaultCalibration .ok)

/-- What is observed of `arduino_move`. -/
def oneMmSeg : List Obs :=
  .begun (.getPosition msgReceiveTimeoutMs) 0 :: .acted ⟨.getStatus, .idle⟩ 0 ::
    handledPosition 6 ++
  [ .returned (.getPosition msgReceiveTimeoutMs) .ok (.position ⟨0, 0⟩)
  , .begun (toOneMm .x) 12
  , .acted ⟨.getStatus, .idle⟩ 12 ] ++ handledOneMm .x 28 ++
  [ .returned (toOneMm .x) .ok (.axisResult AxisResult.ok.toByte)
  , .begun (toOneMm .y) 34
  , .acted ⟨.getStatus, .moving⟩ 34
  , .acted ⟨.moving .x, true⟩ 34
  , .acted ⟨.setStatus .moving, ()⟩ 34 ] ++ handledOneMm .y 50 ++
  [.returned (toOneMm .y) .ok (.axisResult AxisResult.ok.toByte)]

/-- What is observed afterwards. -/
def oneMmLater : List Obs :=
  .begun (.getStatus 1000) 56 :: endMove.map (Obs.acted · 56) ++
    handled (.basic msgIdGetStatus) 62 [⟨.getStatus, .idle⟩]

theorem oneMmSeg_follows :
    Follows (arduinoMove wholeMm (fun _ => 1) (fun _ => 10)) oneMmSeg true := by
  rw [arduinoMove_valid rfl]
  have hpos := acted_cons ⟨.getStatus, .idle⟩ 0 (handledPosition_acted 6)
  have hx := acted_cons ⟨.getStatus, .idle⟩ 12 (handled_acted (toOneMm .x).request 28
    (moveOps ⟨150, 9, AxisId.x.toByte, AxisDirection.positive.toByte⟩ defaultCalibration .ok))
  have hy := acted_cons ⟨.getStatus, .moving⟩ 34 (acted_cons ⟨.moving .x, true⟩ 34
    (acted_cons ⟨.setStatus .moving, ()⟩ 34 (handled_acted (toOneMm .y).request 50
      (moveOps ⟨150, 9, AxisId.y.toByte, AxisDirection.positive.toByte⟩ defaultCalibration .ok))))
  exact .call _ _ [] _ _ 0 .ok _ _ acted_nil hpos (.call _ _ [] _ _ 12 .ok _ _ acted_nil hx
    (.call _ _ [] _ _ 34 .ok _ _ acted_nil hy (.ret _ [] acted_nil)))

set_option maxRecDepth 8000 in
/-- Both axes go to 1 mm. -/
theorem moved_all_the_way_oneMm :
    ∃ l, run HostLink.step (.init readyStand) oneMmThenStatus = some l ∧
      ∃ (cur : PositionMsgData) (first : AxisId), PerformedFor l.log oneMmSeg
          (.getPosition msgReceiveTimeoutMs) (positionOps cur.xCounts cur.yCounts first) ∧
        ∀ id (d : Int), d = (wholeMm.mmToCts 1).toInt - (cur.counts id).toInt →
          -2 ^ 31 < d → d < 2 ^ 31 →
          ∃ sent used earlier between e rest log q q',
            .begun (axisCall wholeMm (fun _ => 1) (fun _ => 10) cur id) sent ∈ oneMmSeg ∧
            oneMmThenStatus = earlier ++ between ++ e :: rest ∧
            run HostLink.step (.init readyStand) earlier = some q ∧ [] <+: log ∧
            q'.log <+: [] ++ oneMmSeg ++ oneMmLater ∧
            Travels id (d < 0) d.natAbs (moveMotion (.ofBytes (axisCall wholeMm (fun _ => 1)
              (fun _ => 10) cur id).request.payload) used)
              ((axisCall wholeMm (fun _ => 1) (fun _ => 10) cur id).requestEnd sent) log q between
              e q' := by
  obtain ⟨l, hrun, hlog⟩ : ∃ l, run HostLink.step (.init readyStand) oneMmThenStatus = some l ∧
      l.log = [] ++ oneMmSeg ++ oneMmLater ++
        .returned (.getStatus 1000) .ok (.status 0) :: [] :=
    ⟨_, rfl, rfl⟩
  refine ⟨l, hrun, moved_all_the_way wholeMm (fun _ => 1) (fun _ => 10) defaultCalibration
    readyStand readyOps standing_ready oneMmThenStatus l hrun [] oneMmSeg oneMmLater [] 1000 0 hlog
    oneMmSeg_follows ?_ ?_ (.inl rfl)⟩
  · simp [oneMmLater, endMove, handled, Fine, Obs.Fine]
  · simp [oneMmLater, endMove, handled]

end MpmtTestStand.Ports
