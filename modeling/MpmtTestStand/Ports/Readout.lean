import MpmtTestStand.Ports.ArduinoMove
import MpmtTestStand.Ports.HostVerdicts

/-!
# The event of the frontend

The frontend reads the status, the position and the temperatures one call after the other,
and puts what it gets into one event.  While it does so the controller goes on, so the
parts of an event are from different moments, and so are the two coordinates of its
position, whichever of them the controller reads first.  What an event says about motion
still goes for the moments at which the position was read.

## Main results

* `readout_true` — a complete event: there are moments of the readout, in order, at which
  its parts were true, and if it says IDLE or FAULT, no axis was recorded as moving when the
  status and the position were read.
-/

namespace MpmtTestStand.Ports

open MpmtTestStand.Verified
open MpmtTestStand.Verified.Run
open MPMTTestStand

/-! ## The helpers -/

/-- The conversions of the program: `cts_to_mm`, and a word of a TEMP message divided by
`temp_data_scaler`. -/
structure ReadoutOps (F D : Type) where
  ctsToMm : Int32 → F
  unscaled : Int32 → D

/-- `TempData` -/
structure TempData (D : Type) where
  tempAmbient : D
  tempMotorX : D
  tempMotorY : D
  tempMpmt : D
  tempOptical : D
  deriving DecidableEq, Repr

/-- The banks `STAT`, `GANT` and `TEMP`. -/
inductive StateBank (F D : Type)
  | status (status : UInt32)
  | gantry (xMm yMm : F)
  | temp (temp : TempData D)
  deriving DecidableEq, Repr

/-- What `get_status` has stored when it returns `SERIAL_OK`. -/
def HostValue.statusData : HostValue → UInt8
  | .status raw => raw
  | _ => 0

/-- The words that `get_temp` has received when it returns `SERIAL_OK`. -/
def HostValue.tempMsgData : HostValue → TempMsgData
  | .temp d => d
  | _ => ⟨0, 0, 0, 0, 0⟩

/-- A helper that makes one call and reads its value. -/
def HelperProg.fetch {α : Type} (c : HostCall) (read : HostValue → α) : HelperProg (Option α) := do
  let (res, value) ← HelperProg.make c
  if ¬handleSerialResult res then return none
  return some (read value)

section Readout

variable {F D : Type} (ops : ReadoutOps F D)

/-- What `get_temp` makes of a message. -/
def ReadoutOps.tempData (d : TempMsgData) : TempData D where
  tempAmbient := ops.unscaled d.tempAmbient
  tempMotorX := ops.unscaled d.tempMotorX
  tempMotorY := ops.unscaled d.tempMotorY
  tempMpmt := ops.unscaled d.tempMpmt
  tempOptical := ops.unscaled d.tempOptical

/-- `arduino_get_status` -/
def arduinoGetStatus : HelperProg (Option UInt32) :=
  HelperProg.fetch (.getStatus msgReceiveTimeoutMs) fun value => value.statusData.toUInt32

/-- `arduino_get_position` -/
def arduinoGetPosition : HelperProg (Option (F × F)) :=
  HelperProg.fetch (.getPosition msgReceiveTimeoutMs) fun value =>
    (ops.ctsToMm value.positionData.xCounts, ops.ctsToMm value.positionData.yCounts)

/-- `arduino_get_temp` -/
def arduinoGetTemp : HelperProg (Option (TempData D)) :=
  HelperProg.fetch (.getTemp msgReceiveTimeoutMs) fun value => ops.tempData value.tempMsgData

/-- `read_arduino_state`: a bank for each helper that has returned `true`. -/
def readArduinoState : HelperProg (List (StateBank F D)) := do
  let status ← arduinoGetStatus
  let position ← arduinoGetPosition ops
  let temp ← arduinoGetTemp ops
  return (status.map .status).toList ++ (position.map fun p => .gantry p.1 p.2).toList ++
    (temp.map .temp).toList

/-- The three calls. -/
theorem readArduinoState_eq :
    readArduinoState ops =
      (HelperProg.fetch (.getStatus msgReceiveTimeoutMs) fun value =>
        value.statusData.toUInt32).bind fun status =>
      (HelperProg.fetch (.getPosition msgReceiveTimeoutMs) fun value =>
        (ops.ctsToMm value.positionData.xCounts, ops.ctsToMm value.positionData.yCounts)).bind
          fun position =>
      (HelperProg.fetch (.getTemp msgReceiveTimeoutMs) fun value =>
        ops.tempData value.tempMsgData).bind fun temp =>
      .ret ((status.map .status).toList ++ (position.map fun p => .gantry p.1 p.2).toList ++
        (temp.map .temp).toList) := rfl

end Readout

/-- A helper that makes one call. -/
theorem Follows.of_fetch {α β : Type} {c : HostCall} {read : HostValue → α}
    {k : Option α → HelperProg β} {seg : List Obs} {b : β}
    (h : Follows ((HelperProg.fetch c read).bind k) seg b) :
    ∃ sent res value idle mid rest, FirstCall c seg sent res value idle mid rest ∧
      Follows (k (if res = .ok then some (read value) else none)) rest b := by
  have hfetch : (HelperProg.fetch c read).bind k =
      .op c fun r => k (if r.1 = .ok then some (read r.2) else none) := by
    show Prog.op _ _ = _
    congr 1
    funext r
    obtain ⟨res, value⟩ := r
    by_cases hres : res = .ok
    · rw [if_pos hres, hres]
      rfl
    · have hfails : ¬handleSerialResult res := mt handleSerialResult_iff.mp hres
      show Prog.bind (if ¬handleSerialResult res then .ret none else .ret _) k = _
      rw [if_neg hres, if_pos hfails]
      rfl
  rw [hfetch] at h
  exact h.of_call

/-- A complete event has been got from three successful calls. -/
theorem Follows.event_read {F D : Type} {ops : ReadoutOps F D} {seg : List Obs} {s : UInt32}
    {x y : F} {t : TempData D}
    (h : Follows (readArduinoState ops) seg [.status s, .gantry x y, .temp t]) :
    ∃ sentS valueS idleS midS restS sentP valueP idleP midP restP sentT valueT idleT midT restT,
      FirstCall (.getStatus msgReceiveTimeoutMs) seg sentS .ok valueS idleS midS restS ∧
      FirstCall (.getPosition msgReceiveTimeoutMs) restS sentP .ok valueP idleP midP restP ∧
      FirstCall (.getTemp msgReceiveTimeoutMs) restP sentT .ok valueT idleT midT restT ∧
      (∀ o ∈ restT, o.IsActed) ∧ s = valueS.statusData.toUInt32 ∧
      x = ops.ctsToMm valueP.positionData.xCounts ∧ y = ops.ctsToMm valueP.positionData.yCounts ∧
      t = ops.tempData valueT.tempMsgData := by
  rw [readArduinoState_eq] at h
  obtain ⟨sentS, resS, valueS, idleS, midS, restS, hS, h⟩ := h.of_fetch
  obtain ⟨sentP, resP, valueP, idleP, midP, restP, hP, h⟩ := h.of_fetch
  obtain ⟨sentT, resT, valueT, idleT, midT, restT, hT, h⟩ := h.of_fetch
  have hevent := h.of_ret.1
  by_cases hresS : resS = .ok <;> by_cases hresP : resP = .ok <;> by_cases hresT : resT = .ok <;>
    simp [hresS, hresP, hresT] at hevent
  subst hresS hresP hresT
  obtain ⟨hs, ⟨hx, hy⟩, ht⟩ := hevent
  cases h with
  | ret _ _ hacted =>
      exact ⟨_, _, _, _, _, _, _, _, _, _, _, _, _, _, _, hS, hP, hT, hacted, hs, hx, hy, ht⟩

/-! ## Moments -/

/-- The position that is read is the present one. -/
theorem MPMTTestStand.Happens.encoderCurrent_eq {s s' : TestStand} {id : AxisId} {r : Int32}
    (h : Happens s (.acted ⟨.encoderCurrent id, r⟩) s') :
    r = (s.axis id).state.encoderCurrent := by
  cases h with
  | acted _ _ _ h => exact (Prod.mk.inj (Option.some.inj h)).1.symm

theorem Plain.append {log new : List Obs} (h : Plain log) (hnew : Plain new) :
    Plain (log ++ new) where
  fine := fine_append.mpr ⟨h.fine, hnew.fine⟩
  no_echo c v hmem := (List.mem_append.mp hmem).elim (h.no_echo c v) (hnew.no_echo c v)

theorem Plain.of_prefix {log log' : List Obs} (h : Plain log') (hlog : log <+: log') :
    Plain log := by
  obtain ⟨new, rfl⟩ := hlog
  exact h.of_append

theorem plain_acted {log : List Obs} (h : ∀ o ∈ log, o.IsActed) : Plain log where
  fine := fine_acted h
  no_echo c v hmem := by
    obtain ⟨a, got, hacted⟩ := h _ hmem
    cases hacted

/-- A call that returns `SERIAL_OK` and is no bare ECHO. -/
theorem FirstCall.plain {c : HostCall} {seg : List Obs} {sent : Nat} {value : HostValue}
    {idle mid rest : List Obs} (h : FirstCall c seg sent .ok value idle mid rest)
    (hc : ∀ data fits, c ≠ .echo data fits) (hrest : Plain rest) : Plain seg := by
  have hone : Plain [.begun c sent] := ⟨fine_begun (by simp), by simp⟩
  have hend : Plain [.returned c .ok value] := by
    refine ⟨fun o ho => ?_, fun c' v hmem => ?_⟩
    · obtain rfl := List.mem_singleton.mp ho
      exact .inl rfl
    · obtain ⟨rfl, -⟩ : c' = c ∧ v = value := by simpa using hmem
      exact hc
  rw [h.seg_eq]
  exact ((plain_acted h.idle_acted).append (hone.append (plain_acted h.mid_acted))).append
    (hend.append hrest)

section Moments

variable {cal : Calibration} {base : List Acted} {stand : TestStand} {l q q' s : HostLink}
  {es fs : List LinkEvent} {pre front back gap post : List Obs}

/-- The temperatures that are read are those of this moment. -/
theorem HostLink.temp_read {around : Outside} {d : TempMsgData} {n : Nat}
    (hstep : q.step (.act around) = some q')
    (hlog : q'.log = q.log ++ [.acted ⟨.readTempData, d⟩ n]) : d = around.temp := by
  cases HostLink.step_cases hstep with
  | act _ controller a hact =>
      obtain ⟨rfl, -⟩ : a = ⟨.readTempData, d⟩ ∧ q.host.out.got = n := by simpa using hlog
      unfold Controller.act at hact
      split at hact
      · split at hact
        · rename_i o _ _ _ _ hperform
          obtain ⟨-, ha⟩ := Prod.mk.inj (Option.some.inj hact)
          cases ha
          exact (Prod.mk.inj (Option.some.inj hperform)).1.symm
        · cases hact
      · cases hact

/-- **The moment at which a position was read**, in the run from `s` to `l`. -/
theorem Standing.count_read (hstand : Standing conf cal stand base)
    (hbefore : Run.run HostLink.step (.init stand) es = some s)
    (hrun : Run.run HostLink.step s fs = some l) {id : AxisId} {count : Int32} {n : Nat}
    (hlog : l.log = s.log ++ (gap ++ .acted ⟨.encoderCurrent id, count⟩ n :: post)) :
    ∃ earlier around later q q', fs = earlier ++ .act around :: later ∧
      Run.run HostLink.step s earlier = some q ∧ q.step (.act around) = some q' ∧
      Run.run HostLink.step q' later = some l ∧ q.log = s.log ++ gap ∧
      q'.log = s.log ++ (gap ++ [.acted ⟨.encoderCurrent id, count⟩ n]) ∧
      count = (q.controller.stand.axis id).state.encoderCurrent := by
  obtain ⟨earlier, around, later, q, q', rfl, hearlier, hstep, hlater, hq, hq'⟩ :=
    HostLink.acted_at hrun hlog
  have hone : q'.log = q.log ++ [.acted ⟨.encoderCurrent id, count⟩ n] := by
    rw [hq', hq, List.append_assoc]
  obtain ⟨m, hm⟩ := hstand.run (run_trans hbefore hearlier)
  obtain ⟨m', -, -, hhappens⟩ := hm.act hstep hone
  exact ⟨earlier, around, later, q, q', rfl, hearlier, hstep, hlater, hq, hq',
    hhappens.encoderCurrent_eq⟩

/-- The moments at which two counters and the temperatures were read, one after the other,
in the run from `s` to `l`. -/
theorem Standing.counts_read (hstand : Standing conf cal stand base)
    (hbefore : Run.run HostLink.step (.init stand) es = some s)
    (hrun : Run.run HostLink.step s fs = some l) {a a' : AxisId} {count count' : Int32}
    {d : TempMsgData} {third : List Obs} {n n' : Nat}
    (hlog : l.log = s.log ++ (gap ++ .acted ⟨.encoderCurrent a, count⟩ n ::
      .acted ⟨.encoderCurrent a', count'⟩ n :: (third ++ .acted ⟨.readTempData, d⟩ n' :: post))) :
    ∃ e1 e2 et around rest q1 q2 qt qt', fs = e1 ++ e2 ++ et ++ .act around :: rest ∧
      Run.run HostLink.step s e1 = some q1 ∧ Run.run HostLink.step q1 e2 = some q2 ∧
      Run.run HostLink.step q2 et = some qt ∧ qt.step (.act around) = some qt' ∧
      q1.log = s.log ++ gap ∧
      q2.log = s.log ++ (gap ++ [.acted ⟨.encoderCurrent a, count⟩ n]) ∧
      qt'.log = qt.log ++ [.acted ⟨.readTempData, d⟩ n'] ∧ l.log = qt'.log ++ post ∧
      count = (q1.controller.stand.axis a).state.encoderCurrent ∧
      count' = (q2.controller.stand.axis a').state.encoderCurrent ∧ d = around.temp := by
  obtain ⟨e1, around1, f1, q1, q1', rfl, he1, hstep1, hf1, hq1, hq1', hcount⟩ :=
    hstand.count_read hbefore hrun hlog
  have hlog1 : l.log = q1'.log ++ ([] ++ .acted ⟨.encoderCurrent a', count'⟩ n ::
      (third ++ .acted ⟨.readTempData, d⟩ n' :: post)) := by
    rw [hlog, hq1']
    simp only [List.append_assoc, List.cons_append, List.nil_append]
  obtain ⟨e2, around2, f2, q2, q2', rfl, he2, hstep2, hf2, hq2, hq2', hcount'⟩ :=
    hstand.count_read (run_trans hbefore (run_snoc he1 hstep1)) hf1 hlog1
  have hlog2 : l.log = q2'.log ++ (third ++ .acted ⟨.readTempData, d⟩ n' :: post) := by
    rw [hlog1, hq2']
    simp only [List.append_assoc, List.cons_append, List.nil_append]
  obtain ⟨et, around, rest, qt, qt', rfl, het, hstep, -, hqt, hqt'⟩ :=
    HostLink.acted_at hf2 hlog2
  have hone : qt'.log = qt.log ++ [.acted ⟨.readTempData, d⟩ n'] := by
    rw [hqt', hqt, List.append_assoc]
  refine ⟨e1, .act around1 :: e2, .act around2 :: et, around, rest, q1, q2, qt, qt', by simp, he1,
    ?_, ?_, hstep, hq1, ?_, hone, ?_, hcount, hcount', HostLink.temp_read hstep hone⟩
  · rw [run_cons, hstep1]
    exact he2
  · rw [run_cons, hstep2]
    exact het
  · rw [hq2, hq1', List.append_nil]
  · rw [hlog2, hqt']
    simp only [List.append_assoc, List.cons_append, List.nil_append]

/-- What has been logged up to the return of the call, after the status was read. -/
theorem StatusRead.log_eq {timeoutMs : UInt32} {sent : Nat} {status : Status}
    (h : StatusRead pre front back timeoutMs sent status q q') : pre = q'.log ++ back := by
  rw [h.served.log_eq, h.after, h.before]
  simp only [List.append_assoc]
  rfl

/-- The status is read after the call has begun. -/
theorem StatusRead.since_begun {timeoutMs : UInt32} {sent sent' : Nat} {status : Status}
    {before idle mid : List Obs} {c : HostCall}
    (h : StatusRead pre front back timeoutMs sent status q q')
    (hpre : pre = before ++ (idle ++ .begun c sent' :: mid)) : before <+: q.log := by
  have hfront : front <+: pre := ⟨_, (h.served.log_eq.trans (List.append_assoc ..)).symm⟩
  have hq : front <+: q.log := by
    rw [h.before]
    exact List.prefix_append ..
  rcases List.prefix_or_prefix_of_prefix hfront ⟨_, hpre.symm⟩ with ⟨new, hnew⟩ | hbefore
  · -- otherwise the request of the call would not have been issued
    have hissued := h.served.issued
    have hone : requests (.begun c sent' :: mid) =
        (c.request, c.requestEnd sent') :: requests mid := rfl
    rw [hpre, ← hnew, requests_append, requests_append, requests_append, hone] at hissued
    have hlength := congrArg List.length hissued
    simp only [List.length_append, List.length_cons] at hlength
    omega
  · exact hbefore.trans hq

end Moments

/-! ## The event -/

/-- Moments of the readout `seg`, in order: at the last one the temperatures are read. -/
structure ReadoutMoments (stand : TestStand) (events : List LinkEvent) (pre seg : List Obs)
    (q q1 q2 qt : HostLink) (around : Outside) : Prop where
  order : ∃ es e1 e2 et rest, events = es ++ e1 ++ e2 ++ et ++ .act around :: rest ∧
    run HostLink.step (.init stand) es = some q ∧ run HostLink.step q e1 = some q1 ∧
    run HostLink.step q1 e2 = some q2 ∧ run HostLink.step q2 et = some qt
  after_pre : pre <+: q.log
  within : ∃ q' n, qt.step (.act around) = some q' ∧
    q'.log = qt.log ++ [.acted ⟨.readTempData, around.temp⟩ n] ∧ q'.log <+: pre ++ seg

/-- What is observed of a readout with a complete event, cut where the controller reads what
is returned, the counter of the axis `a` first. -/
structure ReadoutLog (seg : List Obs) (b : UInt8) (cur : PositionMsgData) (d : TempMsgData)
    (a a' : AxisId) (first second third tail : List Obs) (n n' : Nat) : Prop where
  seg_eq : seg = first ++ .returned (.getStatus msgReceiveTimeoutMs) .ok (.status b) ::
    (second ++ .acted ⟨.encoderCurrent a, cur.counts a⟩ n ::
      .acted ⟨.encoderCurrent a', cur.counts a'⟩ n ::
        (third ++ .acted ⟨.readTempData, d⟩ n' :: tail))
  other : a' ≠ a
  plain : Plain seg
  begun : ∃ idle sent mid, first = idle ++ .begun (.getStatus msgReceiveTimeoutMs) sent :: mid
  starts_none : ∀ c k, .begun c k ∈ second → ¬c.Starts

/-- The two readings of a GET_POSITION, one after the other. -/
theorem positionOps_eq (cur : PositionMsgData) (first : AxisId) : ∃ a a', a' ≠ a ∧
    positionOps cur.xCounts cur.yCounts first = [⟨.firstArgument, first⟩,
      ⟨.encoderCurrent a, cur.counts a⟩, ⟨.encoderCurrent a', cur.counts a'⟩] := by
  cases first with
  | x => exact ⟨.x, .y, by decide, rfl⟩
  | y => exact ⟨.y, .x, by decide, rfl⟩

/-- The controller has served the three calls. -/
theorem Follows.readout_log {F D : Type} {ops : ReadoutOps F D} {stand : TestStand}
    {events : List LinkEvent} {l : HostLink} {pre seg post : List Obs} {s : UInt32} {x y : F}
    {t : TempData D} (h : Follows (readArduinoState ops) seg [.status s, .gantry x y, .temp t])
    (hrun : run HostLink.step (.init stand) events = some l) (hlog : l.log = pre ++ seg ++ post)
    (hfine : Fine pre) :
    ∃ b cur d a a' first second third tail n n',
      ReadoutLog seg b cur d a a' first second third tail n n' ∧ s = b.toUInt32 ∧
      x = ops.ctsToMm (cur.counts .x) ∧ y = ops.ctsToMm (cur.counts .y) ∧
      t = ops.tempData d := by
  obtain ⟨sentS, valueS, idleS, midS, restS, sentP, valueP, idleP, midP, restP, sentT, valueT,
    idleT, midT, restT, hS, hP, hT, hend, rfl, rfl, rfl, rfl⟩ := h.event_read
  obtain ⟨doneS, hsegS, hdoneS⟩ := hS.next
  obtain ⟨doneP, hsegP, hdoneP⟩ := hP.next
  have hlogP : l.log = (pre ++ doneS) ++ restS ++ post := by
    rw [hlog, hsegS, ← List.append_assoc pre]
  have hlogT : l.log = (pre ++ doneS ++ doneP) ++ restP ++ post := by
    rw [hlogP, hsegP, ← List.append_assoc (pre ++ doneS)]
  have hfineP : Fine (pre ++ doneS) := fine_append.mpr ⟨hfine, hdoneS rfl⟩
  obtain ⟨opsS, -, hcomputesS⟩ := hS.served hrun hlog hfine (by simp [HostCall.response])
  obtain ⟨opsP, ⟨beforeP, afterP, hmidP⟩, hcomputesP⟩ :=
    hP.served hrun hlogP hfineP (by simp [HostCall.response])
  obtain ⟨opsT, ⟨beforeT, afterT, hmidT⟩, hcomputesT⟩ :=
    hT.served hrun hlogT (fine_append.mpr ⟨hfineP, hdoneP rfl⟩) (by simp [HostCall.response])
  cases hcomputesS with
  | status _ status =>
  cases hcomputesP with
  | position _ xCounts yCounts arg =>
  cases hcomputesT with
  | temp _ d =>
  obtain ⟨a, a', hother, hops⟩ := positionOps_eq ⟨xCounts, yCounts⟩ arg
  change positionOps xCounts yCounts arg = _ at hops
  rw [hops] at hmidP
  generalize hnP : (HostCall.getPosition msgReceiveTimeoutMs).requestEnd sentP = nP at hmidP
  generalize hnT : (HostCall.getTemp msgReceiveTimeoutMs).requestEnd sentT = nT at hmidT
  refine ⟨status.toByte, ⟨xCounts, yCounts⟩, d, a, a',
    idleS ++ .begun (.getStatus msgReceiveTimeoutMs) sentS :: midS,
    idleP ++ .begun (.getPosition msgReceiveTimeoutMs) sentP ::
      (beforeP ++ [ .acted ⟨.dispatch (HostCall.getPosition msgReceiveTimeoutMs).request, ()⟩ nP
        , .acted ⟨.firstArgument, arg⟩ nP ]),
    afterP ++ .returned (.getPosition msgReceiveTimeoutMs) .ok (.position ⟨xCounts, yCounts⟩) ::
      (idleT ++ .begun (.getTemp msgReceiveTimeoutMs) sentT ::
        (beforeT ++ [.acted ⟨.dispatch (HostCall.getTemp msgReceiveTimeoutMs).request, ()⟩ nT])),
    afterT ++ .returned (.getTemp msgReceiveTimeoutMs) .ok (.temp d) :: restT,
    nP, nT, ⟨?_, hother, ?_, ⟨_, _, _, rfl⟩, ?_⟩, rfl, rfl, rfl, rfl⟩
  · rw [hS.seg_eq, hP.seg_eq, hmidP, hT.seg_eq, hmidT]
    simp [handled]
  · exact hS.plain (by simp) (hP.plain (by simp) (hT.plain (by simp) (plain_acted hend)))
  · -- the position is asked for, and else the controller acts
    intro c k hmem
    have hidle : .begun c k ∉ idleP := fun h => by
      obtain ⟨a, got, hacted⟩ := hP.idle_acted _ h
      cases hacted
    have hbefore : .begun c k ∉ beforeP := fun h => by
      obtain ⟨a, got, hacted⟩ := hP.mid_acted (.begun c k) (by simp [hmidP, h])
      cases hacted
    obtain ⟨rfl, -⟩ : c = .getPosition msgReceiveTimeoutMs ∧ k = sentP := by
      simpa [hidle, hbefore] using hmem
    exact id

/-- The moments at which the parts of an event were read, the counter of the axis `a`
first. -/
theorem ReadoutLog.moments {cal : Calibration} {stand : TestStand} {base : List Acted}
    (hstand : Standing conf cal stand base) {events : List LinkEvent} {l : HostLink}
    (hrun : run HostLink.step (.init stand) events = some l) {pre seg post : List Obs}
    {b : UInt8} {cur : PositionMsgData} {d : TempMsgData} {a a' : AxisId}
    {first second third tail : List Obs} {n n' : Nat}
    (hreads : ReadoutLog seg b cur d a a' first second third tail n n')
    (hlog : l.log = pre ++ seg ++ post) (hplain : Plain (pre ++ seg)) :
    ∃ q q1 q2 qt around status, ReadoutMoments stand events pre seg q q1 q2 qt around ∧
      b = status.toByte ∧ q.controller.stand.status = status ∧
      cur.counts a = (q1.controller.stand.axis a).state.encoderCurrent ∧
      cur.counts a' = (q2.controller.stand.axis a').state.encoderCurrent ∧
      d = around.temp ∧
      (status = .idle ∨ status = .fault →
        ∀ p ∈ [q, q1, q2], ∀ id, (p.controller.stand.axis id).state.moving = false) := by
  obtain ⟨idle, sentS, mid, hfirst⟩ := hreads.begun
  have hpre : pre ++ seg = (pre ++ first) ++ .returned (.getStatus msgReceiveTimeoutMs) .ok
      (.status b) :: (second ++ .acted ⟨.encoderCurrent a, cur.counts a⟩ n ::
        .acted ⟨.encoderCurrent a', cur.counts a'⟩ n ::
          (third ++ .acted ⟨.readTempData, d⟩ n' :: tail)) := by
    rw [hreads.seg_eq, List.append_assoc]
  -- the status was read
  have hlogS : l.log = (pre ++ first) ++ .returned (.getStatus msgReceiveTimeoutMs) .ok
      (.status b) :: (second ++ .acted ⟨.encoderCurrent a, cur.counts a⟩ n ::
        .acted ⟨.encoderCurrent a', cur.counts a'⟩ n ::
          (third ++ .acted ⟨.readTempData, d⟩ n' :: tail) ++ post) := by
    rw [hlog, hpre]
    simp only [List.append_assoc, List.cons_append]
  have hfineS : Fine (pre ++ first) := by
    have hall := hplain.fine
    rw [hpre] at hall
    exact (fine_append.mp hall).1
  obtain ⟨es, around0, fs, q, q', front, back, sent, status, rfl, hes, hstep, hfs, hread, rfl⟩ :=
    HostLink.status_read hstand hrun hlogS hfineS
  -- then the counters and the temperatures
  have hlog' : l.log = q'.log ++ ((back ++ .returned (.getStatus msgReceiveTimeoutMs) .ok
      (.status status.toByte) :: second) ++ .acted ⟨.encoderCurrent a, cur.counts a⟩ n ::
        .acted ⟨.encoderCurrent a', cur.counts a'⟩ n ::
          (third ++ .acted ⟨.readTempData, d⟩ n' :: (tail ++ post))) := by
    rw [hlogS, hread.log_eq]
    simp only [List.append_assoc, List.cons_append]
  obtain ⟨e1, e2, et, around, rest, q1, q2, qt, qt', rfl, he1, he2, het, hstepT, hq1, hq2, hqt',
    hall, hcount, hcount', rfl⟩ := hstand.counts_read (run_snoc hes hstep) hfs hlog'
  have hnew1 : q1.log = (pre ++ first) ++ .returned (.getStatus msgReceiveTimeoutMs) .ok
      (.status status.toByte) :: second := by
    rw [hq1, hread.log_eq, List.append_assoc q'.log]
  have hnew2 : q2.log = (pre ++ first) ++ .returned (.getStatus msgReceiveTimeoutMs) .ok
      (.status status.toByte) ::
        (second ++ [.acted ⟨.encoderCurrent a, cur.counts a⟩ n]) := by
    rw [hq2, hread.log_eq]
    simp only [List.append_assoc, List.cons_append]
  have hend : pre ++ seg = qt'.log ++ tail := by
    have hsame : (pre ++ seg) ++ post = (qt'.log ++ tail) ++ post := by
      rw [← hlog, hall, List.append_assoc]
    exact List.append_cancel_right hsame
  refine ⟨q, q1, q2, qt, around, status, ⟨⟨es, .act around0 :: e1, e2, et, rest, by simp, hes, ?_,
    he2, het⟩, ?_, ⟨qt', n', hstepT, hqt', _, hend.symm⟩⟩, rfl, hread.status_eq, hcount, hcount',
    rfl, ?_⟩
  · rw [run_cons, hstep]
    exact he1
  · exact hread.since_begun (congrArg (pre ++ ·) hfirst)
  · intro hstatus p hp
    obtain ⟨m, hm⟩ := hstand.run hes
    have hes1 := run_trans (run_snoc hes hstep) he1
    have hplain1 : Plain q1.log := hplain.of_prefix (by rw [hnew1, hpre]; exact ⟨_, by simp; rfl⟩)
    have hplain2 : Plain q2.log := hplain.of_prefix (by rw [hnew2, hpre]; exact ⟨_, by simp; rfl⟩)
    have hstill1 := (hread.lasts hstand hes1 hes hstep he1 hnew1 hplain1 hreads.starts_none
      hstatus).1
    have hstill2 := (hread.lasts hstand (run_trans hes1 he2) hes hstep (run_trans he1 he2) hnew2
      hplain2 (fun c k hmem => hreads.starts_none c k (by simpa using hmem)) hstatus).1
    simp only [List.mem_cons, List.not_mem_nil, or_false] at hp
    rcases hp with rfl | rfl | rfl
    · exact hread.still hm hstatus
    · exact hstill1
    · exact hstill2

/-- **A complete event was true during its readout.**  A session begins after anything that
has happened to the controller before; no call has failed.  When `read_arduino_state` makes
an event with all three banks, there are moments of the readout, one after the other: at the
first one the status was that of `STAT`, at the next two each axis was at its position in
`GANT`, in either order, and at the last one the temperatures of `TEMP` were read.  If the
status is IDLE or FAULT, neither axis was recorded as moving at the first three of them. -/
theorem readout_true {F D : Type} (ops : ReadoutOps F D) (cal : Calibration) (stand : TestStand)
    (base : List Acted) (hstand : Standing conf cal stand base) (events : List LinkEvent)
    (l : HostLink) (hrun : run HostLink.step (.init stand) events = some l)
    (pre seg post : List Obs) (s : UInt32) (x y : F) (t : TempData D)
    (hlog : l.log = pre ++ seg ++ post)
    (hreadout : Follows (readArduinoState ops) seg [.status s, .gantry x y, .temp t])
    (hfine : Fine pre)
    (hecho : ∀ c v, .returned c .ok v ∈ pre → ∀ data fits, c ≠ .echo data fits) :
    ∃ q q1 q2 qt qx qy around status, ReadoutMoments stand events pre seg q q1 q2 qt around ∧
      (qx = q1 ∧ qy = q2 ∨ qx = q2 ∧ qy = q1) ∧
      s = status.toByte.toUInt32 ∧ q.controller.stand.status = status ∧
      x = ops.ctsToMm (qx.controller.stand.axis .x).state.encoderCurrent ∧
      y = ops.ctsToMm (qy.controller.stand.axis .y).state.encoderCurrent ∧
      t = ops.tempData around.temp ∧
      (status = .idle ∨ status = .fault →
        ∀ p ∈ [q, qx, qy], ∀ id, (p.controller.stand.axis id).state.moving = false) := by
  obtain ⟨b, cur, d, a, a', first, second, third, tail, n, n', hreads, rfl, rfl, rfl, rfl⟩ :=
    hreadout.readout_log hrun hlog hfine
  obtain ⟨q, q1, q2, qt, around, status, hmoments, rfl, hstatus, hcount1, hcount2, rfl, hstill⟩ :=
    hreads.moments hstand hrun hlog (Plain.append ⟨hfine, hecho⟩ hreads.plain)
  have hother := hreads.other
  cases a with
  | x =>
      obtain rfl : a' = .y := by cases a' <;> first | rfl | exact absurd rfl hother
      exact ⟨q, q1, q2, qt, q1, q2, around, status, hmoments, .inl ⟨rfl, rfl⟩, rfl, hstatus,
        congrArg ops.ctsToMm hcount1, congrArg ops.ctsToMm hcount2, rfl, hstill⟩
  | y =>
      obtain rfl : a' = .x := by cases a' <;> first | rfl | exact absurd rfl hother
      refine ⟨q, q1, q2, qt, q2, q1, around, status, hmoments, .inr ⟨rfl, rfl⟩, rfl, hstatus,
        congrArg ops.ctsToMm hcount2, congrArg ops.ctsToMm hcount1, rfl, fun h p hp => ?_⟩
      exact hstill h p (by simpa [or_comm] using hp)

/-! ## A run -/

/-- A call, the answer of the controller, and its return: the controller performs `ops`
operations and sends `len` bytes of data. -/
def callSteps (c : HostCall) (ops len : Nat) : List LinkEvent :=
  hostSends c ++ controllerServes 1 0 ops ++ hostReads len ++ controllerSteps 6 .deliver

/-- The temperatures that are read. -/
def pushTemp : TempMsgData := ⟨2000, 2000, 2000, 2000, 2000⟩

/-- A call for the position: the Y axis comes first, and before the X axis is read it is
pushed by one count. -/
def pushedPosition : List LinkEvent :=
  hostSends (.getPosition msgReceiveTimeoutMs) ++ .loop :: mainSteps 1 ++
    controllerSteps 6 .deliver ++ controllerSteps 7 .wrote ++ mainSteps 1 ++
    [.act ⟨pushTemp, .y⟩, .act ⟨pushTemp, .y⟩, .interrupt .x .isrEncoder] ++ mainSteps 1 ++
    controllerSteps 7 .wrote ++ hostReads 8 ++ controllerSteps 6 .deliver

/-- A readout. -/
def readoutSteps : List LinkEvent :=
  callSteps (.getStatus msgReceiveTimeoutMs) 2 1 ++ pushedPosition ++
    callSteps (.getTemp msgReceiveTimeoutMs) 2 20

/-- What is observed of one call. -/
def callSeg (c : HostCall) (sent got : Nat) (ops : List Acted) (value : HostValue)
    (rest : List Obs) : List Obs :=
  [] ++ .begun c sent :: (.acted ⟨.getStatus, .idle⟩ sent :: handled c.request got ops) ++
    .returned c .ok value :: rest

/-- What is observed of the readout. -/
def readoutSeg : List Obs :=
  callSeg (.getStatus msgReceiveTimeoutMs) 0 6 [⟨.getStatus, .idle⟩] (.status 0) <|
    callSeg (.getPosition msgReceiveTimeoutMs) 12 18 (positionOps 1 0 .y) (.position ⟨1, 0⟩) <|
        callSeg (.getTemp msgReceiveTimeoutMs) 24 30
          [⟨.readTempData, pushTemp⟩] (.temp pushTemp) []

/-- Counts and words as they are. -/
def plainOps : ReadoutOps Int32 Int32 := ⟨id, id⟩

theorem Follows.fetch {α β : Type} {c : HostCall} {read : HostValue → α}
    {k : Option α → HelperProg β} {rest : List Obs} {b : β} {sent got : Nat} {ops : List Acted}
    {value : HostValue} (h : Follows (k (some (read value))) rest b) :
    Follows ((HelperProg.fetch c read).bind k) (callSeg c sent got ops value rest) b :=
  .call _ _ [] _ _ sent .ok value _ acted_nil
    (acted_cons ⟨.getStatus, .idle⟩ sent (handled_acted c.request got ops)) h

theorem readoutSeg_follows : Follows (readArduinoState plainOps) readoutSeg
    [.status 0, .gantry 1 0, .temp (plainOps.tempData pushTemp)] := by
  rw [readArduinoState_eq]
  exact .fetch (.fetch (.fetch (.ret _ [] acted_nil)))

set_option maxRecDepth 8000 in
/-- An event that says IDLE, with the position of the X axis after the push. -/
theorem readout_true_pushed :
    ∃ l, run HostLink.step (.init readyStand) readoutSteps = some l ∧
      ∃ q q1 q2 qt qx qy around status,
        ReadoutMoments readyStand readoutSteps [] readoutSeg q q1 q2 qt around ∧
        (qx = q1 ∧ qy = q2 ∨ qx = q2 ∧ qy = q1) ∧
        0 = status.toByte.toUInt32 ∧ q.controller.stand.status = status ∧
        1 = plainOps.ctsToMm (qx.controller.stand.axis .x).state.encoderCurrent ∧
        0 = plainOps.ctsToMm (qy.controller.stand.axis .y).state.encoderCurrent ∧
        plainOps.tempData pushTemp = plainOps.tempData around.temp ∧
        (status = .idle ∨ status = .fault →
          ∀ p ∈ [q, qx, qy], ∀ id, (p.controller.stand.axis id).state.moving = false) := by
  obtain ⟨l, hrun, hlog⟩ : ∃ l, run HostLink.step (.init readyStand) readoutSteps = some l ∧
      l.log = [] ++ readoutSeg ++ [] := ⟨_, rfl, rfl⟩
  exact ⟨l, hrun, readout_true plainOps defaultCalibration readyStand readyOps standing_ready
    readoutSteps l hrun [] readoutSeg [] 0 1 0 _ hlog readoutSeg_follows (by simp [Fine])
    (by simp)⟩

end MpmtTestStand.Ports
