import MpmtTestStand.Ports.ArduinoMove
import MpmtTestStand.Ports.CalibrationRegister
import MpmtTestStand.Ports.Moments

/-!
# The calibration that is used

A CALIBRATE has no response: when its call returns, the message has been received, and
nothing more is known.  Still the host can rely on it, as the controller serves one
message after the other, and whatever it starts later is started with it.

## Main results

* `starts_calibrated` — every accepted start is for the MOVE that is being handled or for
  the part of the homing routine under way, and uses the calibration that the messages
  dispatched until then have made.
* `calibrated_moves` — after `arduino_calibrate` has returned `true`, a MOVE that returns
  its result has been started with the calibration that the controller was given.
-/

namespace MpmtTestStand.Ports

open MpmtTestStand.Verified
open MpmtTestStand.Verified.Run
open MPMTTestStand

/-! ## Calls -/

/-- What a call makes of the calibration. -/
def HostCall.calibrates (c : HostCall) (cal : Calibration) : Calibration :=
  match c with
  | .calibrate key value => cal.set key value
  | _ => cal

/-- What the messages make of the calibration, in this order. -/
def settings (ps : List Packet) (cal : Calibration) : Calibration :=
  ps.foldl (fun cal p => p.calibrates cal) cal

/-- What the calls that begin in the log make of the calibration. -/
def calibratedBy (log : List Obs) (cal : Calibration) : Calibration :=
  ((begins log).map Prod.fst).foldl (fun cal c => c.calibrates cal) cal

theorem settings_append (ps qs : List Packet) (cal : Calibration) :
    settings (ps ++ qs) cal = settings qs (settings ps cal) :=
  List.foldl_append ..

theorem calibratedBy_append (log new : List Obs) (cal : Calibration) :
    calibratedBy (log ++ new) cal = calibratedBy new (calibratedBy log cal) := by
  rw [calibratedBy, begins_append, List.map_append]
  exact List.foldl_append ..

/-- A log in which nothing is calibrated. -/
theorem calibratedBy_eq {log : List Obs}
    (h : ∀ key value n, .begun (.calibrate key value) n ∉ log) (cal : Calibration) :
    calibratedBy log cal = cal := by
  unfold calibratedBy
  refine List.foldlRecOn _ _ (motive := fun c => c = cal) rfl ?_
  rintro _ rfl c hc
  obtain ⟨⟨c', n⟩, hmem, rfl⟩ := List.mem_map.mp hc
  obtain ⟨o, ho, hbegun⟩ := List.mem_filterMap.mp hmem
  cases o with
  | begun c n =>
      obtain ⟨rfl, rfl⟩ := Prod.mk.inj (Option.some.inj hbegun)
      cases c with
      | calibrate key value => exact absurd ho (h key value n)
      | _ => rfl
  | _ => cases hbegun

/-- The message of a `calibrate` sets the field that its key names. -/
theorem HostCall.calibrates_request (c : HostCall) (cal : Calibration) :
    c.request.calibrates cal = c.calibrates cal := by
  cases c with
  | calibrate key value =>
      have hrequest : (HostCall.calibrate key value).request =
          TestStandCommHost.calibratePacket key value := rfl
      have htake : List.take key.size (key.valueBytes value) = key.valueBytes value :=
        List.take_of_length_le (valueBytes_size key value).le
      rw [hrequest, Packet.calibrates, if_pos ⟨rfl, List.cons_ne_nil _ _⟩, Calibration.extract_eq]
      show ((CalibrationKey.ofByte? key.toByte).map _).getD cal = cal.set key value
      rw [ofByte?_toByte, Option.map_some]
      show cal.store (List.take key.size (key.valueBytes value)) key = cal.set key value
      rw [htake, store_valueBytes]
  | ping => exact Packet.calibrates_of_ne (show msgIdPing ≠ msgIdCalibrate by decide) cal
  | echo | linkCheck =>
      exact Packet.calibrates_of_ne (show msgIdEcho ≠ msgIdCalibrate by decide) cal
  | getStatus =>
      exact Packet.calibrates_of_ne (show msgIdGetStatus ≠ msgIdCalibrate by decide) cal
  | home => exact Packet.calibrates_of_ne (show msgIdHome ≠ msgIdCalibrate by decide) cal
  | move => exact Packet.calibrates_of_ne (show msgIdMove ≠ msgIdCalibrate by decide) cal
  | stop => exact Packet.calibrates_of_ne (show msgIdStop ≠ msgIdCalibrate by decide) cal
  | getPosition =>
      exact Packet.calibrates_of_ne (show msgIdGetPosition ≠ msgIdCalibrate by decide) cal
  | getTemp => exact Packet.calibrates_of_ne (show msgIdGetTemp ≠ msgIdCalibrate by decide) cal
  | getAxisState =>
      exact Packet.calibrates_of_ne (show msgIdGetAxisState ≠ msgIdCalibrate by decide) cal

/-- The host sends the whole value. -/
theorem HostCall.covered (c : HostCall) (hid : c.request.id = msgIdCalibrate) :
    Covered c.request.payload := by
  cases c with
  | calibrate key value =>
      intro byte rest k hpayload hkey
      obtain ⟨rfl, rfl⟩ := List.cons.inj (show key.toByte :: key.valueBytes value = _ from hpayload)
      obtain rfl := Option.some.inj ((ofByte?_toByte key).symm.trans hkey)
      exact (valueBytes_size key value).ge
  | ping => exact absurd hid (show msgIdPing ≠ msgIdCalibrate by decide)
  | echo | linkCheck => exact absurd hid (show msgIdEcho ≠ msgIdCalibrate by decide)
  | getStatus => exact absurd hid (show msgIdGetStatus ≠ msgIdCalibrate by decide)
  | home => exact absurd hid (show msgIdHome ≠ msgIdCalibrate by decide)
  | move => exact absurd hid (show msgIdMove ≠ msgIdCalibrate by decide)
  | stop => exact absurd hid (show msgIdStop ≠ msgIdCalibrate by decide)
  | getPosition => exact absurd hid (show msgIdGetPosition ≠ msgIdCalibrate by decide)
  | getTemp => exact absurd hid (show msgIdGetTemp ≠ msgIdCalibrate by decide)
  | getAxisState => exact absurd hid (show msgIdGetAxisState ≠ msgIdCalibrate by decide)

/-- The requests make of the calibration what their calls do. -/
theorem settings_requests (log : List Obs) (cal : Calibration) :
    settings ((requests log).map Prod.fst) cal = calibratedBy log cal := by
  have hmap : (requests log).map Prod.fst =
      ((begins log).map Prod.fst).map HostCall.request := by
    unfold requests begins
    rw [List.map_filterMap, List.map_filterMap, List.map_filterMap]
    refine List.filterMap_congr fun o _ => ?_
    cases o <;> rfl
  rw [hmap, settings, List.foldl_map, calibratedBy]
  exact congrArg (fun f => List.foldl f cal _)
    (funext₂ fun cal c => HostCall.calibrates_request c cal)

/-- What a log requests covers its values. -/
theorem requests_covered (log : List Obs) :
    ∀ x ∈ requests log, x.1.id = msgIdCalibrate → Covered x.1.payload :=
  requests_forall (P := fun p => p.id = msgIdCalibrate → Covered p.payload)
    fun c _ _ => c.covered

/-! ## Moments -/

/-- The messages of a history. -/
theorem MPMTTestStand.calibrated_eq (cal : Calibration) (history : List MPMTTestStand.Entry) :
    calibrated cal history = settings ((actedOps history).filterMap Acted.dispatch?).reverse cal := by
  induction history with
  | nil => rfl
  | cons e history ih =>
      obtain ⟨b, ev⟩ := e
      cases ev with
      | round | interrupt => exact ih
      | acted a =>
          obtain ⟨o, r⟩ := a
          cases o with
          | dispatch p =>
              have hmessages : ((actedOps (⟨b, .acted ⟨.dispatch p, r⟩⟩ :: history)).filterMap
                  Acted.dispatch?).reverse =
                    ((actedOps history).filterMap Acted.dispatch?).reverse ++ [p] :=
                List.reverse_cons
              rw [hmessages, settings_append, ← ih]
              rfl
          | _ => exact ih

section Moments

variable {conf : Config} {cal : Calibration} {base : List Acted} {stand : TestStand}
  {l q : HostLink} {events : List LinkEvent} {pre front back post : List Obs}

/-- **The calibration at a moment of a session.** -/
theorem Session.calibrated {m0 m : Recorder} {ds : List ControllerEvent}
    (h : Session conf cal stand base q m0 m ds)
    (hcovered : ∀ x ∈ dispatches q.log, x.1.id = msgIdCalibrate → Covered x.1.payload)
    (hno : ¬Handles msgIdCalibrate m.history) :
    q.controller.stand.cal = settings ((dispatches q.log).map Prod.fst) stand.cal := by
  obtain ⟨new, hnew, hcal⟩ := Recorder.calibration h.leads h.idle h.run hno
  have hmessages := congrArg List.reverse (h.messages_eq hnew)
  rw [List.reverse_reverse] at hmessages
  have hall : AllCovered new := by
    intro b p r hmem hid
    have hdispatch : p ∈ (actedOps new).filterMap Acted.dispatch? :=
      List.mem_filterMap.mpr ⟨_, mem_actedOps hmem, rfl⟩
    rw [← List.mem_reverse, hmessages] at hdispatch
    obtain ⟨x, hx, rfl⟩ := List.mem_map.mp hdispatch
    exact hcovered x hx hid
  rw [← h.recounted.2.controller, hcal hall, h.init, calibrated_eq, hmessages]
  rfl

/-- The last message says what is being handled. -/
theorem Recounts.handles {m : Recorder} {id : UInt8} {ps : List (Packet × Nat)} {p : Packet}
    {n : Nat} (h : Recounts base q m) (hlast : dispatches q.log = ps ++ [(p, n)])
    (hhandles : Handles id m.history) : p.id = id := by
  obtain ⟨p', hserved, hid⟩ := hhandles
  rwa [h.served hserved hlast] at hid

/-- Why an axis is started, when the log is `log`, the controller is at `b` with this
history, and the calibration is `c`: for the MOVE or the HOME that has been dispatched
last, or as part A of the homing routine is over and both home switches have been found
pressed. -/
inductive StartsFor (log : List Obs) (b : TestStand) (history : List MPMTTestStand.Entry)
    (c : Calibration) : UInt8 → AxisMotionSpec → Prop
  | move (front : List (Packet × Nat)) (p : Packet) (n : Nat)
      (hlast : dispatches log = front ++ [(p, n)]) (hid : p.id = msgIdMove) :
      StartsFor log b history c (MoveMsgData.ofBytes p.payload).axis
        (moveMotion (.ofBytes p.payload) c)
  | homeA (front : List (Packet × Nat)) (p : Packet) (n : Nat) (id : AxisId)
      (hlast : dispatches log = front ++ [(p, n)]) (hid : p.id = msgIdHome) :
      StartsFor log b history c id.toByte (homingMotion (homingDir false) c)
  | homeB (id : AxisId) (hserved : served history = none) (hstatus : b.status = .homing)
      (hdone : b.homeADone = false) (hready : ∀ id, Ready id history) :
      StartsFor log b history c id.toByte (homingMotion (homingDir true) c)

/-- **Every start uses the calibration that has been sent.**  A session begins after
anything that has happened to the controller before.  Whenever the controller starts an
axis, and no call has failed before and none was a bare ECHO: the motion is that of the
MOVE that is being handled, with the axis, the velocity, the distance and the direction of
its payload, or that of the part of the homing routine under way; and its constants are
those that the messages dispatched so far have made of the calibration that the session
began with. -/
theorem starts_calibrated (conf : Config) (cal : Calibration) (stand : TestStand)
    (base : List Acted) (hstand : Standing conf cal stand base) (events : List LinkEvent)
    (l : HostLink) (hrun : run HostLink.step (.init stand) events = some l)
    (pre post : List Obs) (raw : UInt8) (motion : AxisMotionSpec) (n : Nat)
    (hlog : l.log = pre ++ .acted ⟨.axisStart raw motion, .ok⟩ n :: post) (hfine : Fine pre)
    (hecho : ∀ c v, .returned c .ok v ∈ pre → ∀ data fits, c ≠ .echo data fits) :
    ∃ earlier later q m, events = earlier ++ later ∧
      run HostLink.step (.init stand) earlier = some q ∧ q.log = pre ∧
      Recounted conf cal base q m ∧
      StartsFor pre q.controller.stand m.history
        (settings ((dispatches pre).map Prod.fst) stand.cal) raw motion := by
  obtain ⟨earlier, around, later, q, q', hevents, hearlier, hstep, -, hq, hq'⟩ :=
    HostLink.acted_at (s := .init stand) hrun hlog
  obtain rfl : q.log = pre := hq
  have hcovered : ∀ x ∈ dispatches q.log, x.1.id = msgIdCalibrate → Covered x.1.payload :=
    fun x hx => requests_covered q.log x
      ((HostLink.inPlace hearlier ⟨hfine, hecho⟩).dispatched.subset hx)
  obtain ⟨m0, m, ds, hsession⟩ := hstand.session hearlier
  have hm := hsession.recounted
  refine ⟨earlier, _, q, m, hevents, hearlier, rfl, hm, ?_⟩
  obtain ⟨m', hm', hhistory, -⟩ := hm.act hstep hq'
  have hsplit : m'.history =
      [] ++ ⟨q.controller.stand, .acted ⟨.axisStart raw motion, .ok⟩⟩ :: m.history := hhistory
  have hgrounds : StartGrounds q.controller.stand m.history raw motion := hm'.1.grounded hsplit rfl
  have hbusy : ∀ phase, q.controller.node.prog ≠ .ret phase :=
    fun phase hret => by simp [HostLink.step, Controller.act, hret] at hstep
  have hcal : ∀ {id}, Handles id m.history → id ≠ msgIdCalibrate → q.controller.stand.cal =
      settings ((dispatches q.log).map Prod.fst) stand.cal := by
    rintro id ⟨p, hp, rfl⟩ hne
    refine hsession.calibrated hcovered ?_
    rintro ⟨p', hp', hid⟩
    obtain rfl : p = p' := Option.some.inj (hp.symm.trans hp')
    exact hne hid
  cases hgrounds with
  | move p hserved hid =>
      obtain ⟨front, n', hlast⟩ := hsession.served_recent hbusy hserved
      rw [hcal ⟨p, hserved, hid⟩ (by decide)]
      exact .move front p n' hlast hid
  | homing done id hpart =>
      cases done with
      | false =>
          rw [hcal hpart (by decide)]
          obtain ⟨p, hserved, hid⟩ := hpart
          obtain ⟨front, n', hlast⟩ := hsession.served_recent hbusy hserved
          exact .homeA front p n' id hlast hid
      | true =>
          obtain ⟨hserved, hstatus, hdone, hready⟩ := hpart
          have hno : ¬Handles msgIdCalibrate m.history := by
            rintro ⟨p, hp, -⟩
            rw [hserved] at hp
            cases hp
          rw [hsession.calibrated hcovered hno]
          exact .homeB id hserved hstatus hdone hready

/-- The controller has handled a MOVE that has returned its response with the calibration
that the host has sent. -/
theorem Standing.move_calibrated (hstand : Standing conf cal stand base)
    (hrun : Run.run HostLink.step (.init stand) events = some l) {axis : AxisId}
    {dir : AxisDirection} {velHold distCounts timeoutMs : UInt32} {v : HostValue}
    (hlog : l.log = pre ++ .returned (.move axis dir velHold distCounts timeoutMs) .ok v :: post)
    (hfine : Fine pre) :
    ∃ front back sent res, v = .axisResult (AxisResult.toByte res) ∧
      ServedAt pre front back (.move axis dir velHold distCounts timeoutMs) sent
        (moveOps ⟨velHold, distCounts, axis.toByte, dir.toByte⟩ (calibratedBy pre stand.cal)
          res) := by
  obtain ⟨front, back, sent, ops, hserved, hcomputes⟩ :=
    HostLink.served_at hrun hlog hfine (by simp [HostCall.response])
  cases hcomputes with
  | move _ _ _ _ _ used res =>
      refine ⟨front, back, sent, res, rfl, ?_⟩
      generalize hc : HostCall.move axis dir velHold distCounts timeoutMs = c at *
      generalize hdata : MoveMsgData.mk velHold distCounts axis.toByte dir.toByte = data at *
      have hid : c.request.id = msgIdMove := by
        rw [← hc]
        rfl
      obtain ⟨rest, hops⟩ : ∃ rest, moveOps data used res = ⟨.getCal, used⟩ :: rest := ⟨_, rfl⟩
      have hsplit : l.log = (HostLink.init stand).log ++
          ((front ++ [.acted ⟨.dispatch c.request, ()⟩ (c.requestEnd sent)]) ++
            .acted ⟨.getCal, used⟩ (c.requestEnd sent) ::
              (rest.map (Obs.acted · (c.requestEnd sent)) ++ back ++
                .returned c .ok (.axisResult res.toByte) :: post)) := by
        rw [hlog, hserved.log_eq, hops]
        simp [handled, HostLink.init]
      obtain ⟨earlier, around, later, q, q', -, hearlier, hstep, -, hq, hq'⟩ :=
        HostLink.acted_at hrun hsplit
      have hlast : dispatches q.log =
          dispatches front ++ [(c.request, c.requestEnd sent)] := by
        rw [hq]
        show dispatches (front ++ _) = _
        rw [dispatches_append]
        rfl
      have hall : dispatches q.log = requests pre := by
        have hhandled : dispatches (handled c.request (c.requestEnd sent)
            (moveOps data used res)) = [(c.request, c.requestEnd sent)] := by
          cases res <;> rfl
        rw [hserved.settled, hlast]
        conv_rhs => rw [hserved.log_eq]
        rw [dispatches_append, dispatches_append, hserved.quiet, List.append_nil, hhandled]
      obtain ⟨m0, m, ds, hsession⟩ := hstand.session hearlier
      have hone : q'.log = q.log ++ [.acted ⟨.getCal, used⟩ (c.requestEnd sent)] := by
        rw [hq', hq, ← List.append_assoc]
      obtain ⟨m', -, -, hhappens⟩ := hsession.recounted.act hstep hone
      have hno : ¬Handles msgIdCalibrate m.history := by
        intro hhandles
        have hwrong := hsession.recounted.2.handles hlast hhandles
        rw [hid] at hwrong
        exact absurd hwrong (by decide)
      have hcal := hsession.calibrated (by
        rw [hall]
        exact requests_covered pre) hno
      rw [hall, settings_requests] at hcal
      rw [← hcal, ← hhappens.getCal_eq]
      exact hserved

end Moments

/-! ## `arduino_calibrate` -/

/-- `arduino_calibrate` for the keys, in this order; `value` is the word found at the field
of a key. -/
def calibrateKeys (value : CalibrationKey → UInt64) : List CalibrationKey → HelperProg Bool
  | [] => return true
  | key :: keys => do
      let (res, _) ← HelperProg.make (.calibrate key (value key))
      if ¬handleSerialResult res then return false
      calibrateKeys value keys

/-- The keys in the order of `arduino_calibrate`. -/
def calibrationKeys : List CalibrationKey :=
  [ .gantryAccel, .gantryVelStart, .gantryVelHome, .tempAllC1, .tempAllC2, .tempAllC3
  , .tempAllResistor ]

/-- `arduino_calibrate` -/
def arduinoCalibrate (value : CalibrationKey → UInt64) : HelperProg Bool :=
  calibrateKeys value calibrationKeys

/-- The words found at the fields of a calibration; a gantry constant is the low half of
its word. -/
structure Calibration.FoundAs (c : Calibration) (value : CalibrationKey → UInt64) : Prop where
  accel : (value .gantryAccel).toUInt32 = c.accel
  velStart : (value .gantryVelStart).toUInt32 = c.velStart
  velHome : (value .gantryVelHome).toUInt32 = c.velHome
  c1 : value .tempAllC1 = c.c1
  c2 : value .tempAllC2 = c.c2
  c3 : value .tempAllC3 = c.c3
  resistor : value .tempAllResistor = c.resistor

section Calibrate

variable {value : CalibrationKey → UInt64} {keys : List CalibrationKey} {seg : List Obs}
  {success : Bool}

theorem calibrateKeys_cons (value : CalibrationKey → UInt64) (key : CalibrationKey)
    (keys : List CalibrationKey) :
    calibrateKeys value (key :: keys) = .op (.calibrate key (value key)) fun r =>
      if handleSerialResult r.1 then calibrateKeys value keys else .ret false :=
  congrArg (Prog.op _) (funext fun r => ite_not (handleSerialResult r.1 = true) _ _)

/-- What the helper has called: for all keys, if it returns `true`, and otherwise up to the
call that has failed. -/
theorem Follows.calibrated (h : Follows (calibrateKeys value keys) seg success) :
    ∃ done rest, keys = done ++ rest ∧
      (begins seg).map Prod.fst = done.map (fun key => .calibrate key (value key)) ∧
      (success = true → Fine seg ∧ rest = []) := by
  induction keys generalizing seg with
  | nil =>
      cases h with
      | ret _ _ hacted =>
          exact ⟨[], [], rfl, by rw [begins_acted hacted]; rfl, fun _ => ⟨fine_acted hacted, rfl⟩⟩
  | cons key keys ih =>
      rw [calibrateKeys_cons] at h
      obtain ⟨sent, res, v, idle, mid, rest, hcall, h⟩ := h.of_call
      have hfirst : (begins seg).map Prod.fst =
          .calibrate key (value key) :: (begins rest).map Prod.fst := by
        rw [hcall.begins_eq]
        rfl
      by_cases hres : res = .ok
      · rw [if_pos (handleSerialResult_iff.mpr hres)] at h
        obtain ⟨done, later, rfl, hbegins, hsuccess⟩ := ih h
        refine ⟨key :: done, later, rfl, by rw [hfirst, hbegins]; rfl, fun hs => ?_⟩
        obtain ⟨hfine, hlater⟩ := hsuccess hs
        obtain ⟨front, hseg, hfront⟩ := hcall.next
        exact ⟨hseg ▸ fine_append.mpr ⟨hfront hres, hfine⟩, hlater⟩
      · rw [if_neg fun hok => hres (handleSerialResult_iff.mp hok)] at h
        obtain ⟨rfl, hnone⟩ := h.of_ret
        exact ⟨[key], keys, rfl, by rw [hfirst, hnone]; rfl, by simp⟩

/-- Whatever the calibration was, all fields are set. -/
theorem Follows.calibratedBy_eq {c : Calibration} (hvalue : c.FoundAs value)
    (h : Follows (arduinoCalibrate value) seg true) (cal : Calibration) :
    calibratedBy seg cal = c := by
  obtain ⟨done, rest, hkeys, hbegins, hsuccess⟩ := Follows.calibrated h
  obtain ⟨-, rfl⟩ := hsuccess rfl
  rw [List.append_nil] at hkeys
  rw [calibratedBy, hbegins, ← hkeys]
  obtain ⟨accel, velStart, velHome, c1, c2, c3, resistor⟩ := c
  obtain ⟨rfl, rfl, rfl, rfl, rfl, rfl, rfl⟩ := hvalue
  rfl

end Calibrate

/-- A call that has begun, with nothing but operations since, has begun after the other
calls. -/
theorem begun_later {c : HostCall} {sent : Nat} {log later start since : List Obs}
    (h : log ++ later = start ++ .begun c sent :: since)
    (hsince : ∀ o ∈ since, ∃ a got, o = .acted a got)
    (hlast : ∀ front c' n, begins log = front ++ [(c', n)] → c' ≠ c) :
    ∃ front, later = front ++ .begun c sent :: since := by
  rcases List.append_eq_append_iff.mp h with ⟨front, -, hlater⟩ | ⟨tail, hlog, hlater⟩
  · exact ⟨front, hlater⟩
  · cases tail with
    | nil => exact ⟨[], hlater.symm⟩
    | cons o tail =>
        obtain ⟨rfl, rfl⟩ := List.cons.inj hlater
        refine absurd rfl (hlast (begins start) c sent ?_)
        have htail : begins tail = [] := begins_acted fun o ho =>
          hsince o (List.mem_append_left _ ho)
        rw [hlog, begins_append]
        exact congrArg (begins start ++ (c, sent) :: ·) htail

/-- **A MOVE is started with the calibration that the host has set.**  A session begins
after anything that has happened to the controller before.  The host calls
`arduino_calibrate` for `c`, which returns `true`, and calibrates nothing afterwards; later
a MOVE returns `SERIAL_OK`, and no call has failed.  Since this call of MOVE has begun, which
was after `arduino_calibrate`, the controller has handled its request with a motion made of
its four fields and `c`, whatever the calibration was before, and the value that the MOVE
returns is the result of this start. -/
theorem calibrated_moves (conf : Config) (cal : Calibration) (stand : TestStand)
    (base : List Acted) (hstand : Standing conf cal stand base) (events : List LinkEvent)
    (l : HostLink) (hrun : run HostLink.step (.init stand) events = some l) (c : Calibration)
    (value : CalibrationKey → UInt64) (hvalue : c.FoundAs value) (pre seg later post : List Obs)
    (axis : AxisId) (dir : AxisDirection) (velHold distCounts timeoutMs : UInt32) (v : HostValue)
    (hlog : l.log = pre ++ seg ++ later ++
      .returned (.move axis dir velHold distCounts timeoutMs) .ok v :: post)
    (hcalibrate : Follows (arduinoCalibrate value) seg true)
    (hfine : Fine (pre ++ later))
    (hlater : ∀ key value n, .begun (.calibrate key value) n ∉ later) :
    ∃ front sent mid own res,
      later = front ++ .begun (.move axis dir velHold distCounts timeoutMs) sent ::
        (mid ++ handled (HostCall.move axis dir velHold distCounts timeoutMs).request
          ((HostCall.move axis dir velHold distCounts timeoutMs).requestEnd sent)
          (moveOps ⟨velHold, distCounts, axis.toByte, dir.toByte⟩ c res) ++ own) ∧
      (∀ o ∈ mid ++ own, ∃ a got, o = .acted a got) ∧
      v = .axisResult (AxisResult.toByte res) := by
  obtain ⟨done, rest, hkeys, hbegins, hsuccess⟩ := Follows.calibrated hcalibrate
  obtain ⟨hpre, hlaterFine⟩ := fine_append.mp hfine
  have hall : Fine (pre ++ seg ++ later) :=
    fine_append.mpr ⟨fine_append.mpr ⟨hpre, (hsuccess rfl).1⟩, hlaterFine⟩
  have hused : calibratedBy (pre ++ seg ++ later) stand.cal = c := by
    rw [calibratedBy_append, calibratedBy_append, calibratedBy_eq hlater,
      Follows.calibratedBy_eq hvalue hcalibrate]
  obtain ⟨_, own, sent, res, hv, hserved⟩ := hstand.move_calibrated hrun hlog hall
  rw [hused] at hserved
  obtain ⟨start, mid, -, hsplit, hsince⟩ := hserved.since
  -- the last call of `arduino_calibrate` is no MOVE
  have hlast : ∀ front c' n, begins (pre ++ seg) = front ++ [(c', n)] →
      c' ≠ .move axis dir velHold distCounts timeoutMs := by
    intro front c' n h
    obtain rfl := (hsuccess rfl).2
    rw [List.append_nil] at hkeys
    have hmap := congrArg (List.map Prod.fst) h
    rw [begins_append, List.map_append, hbegins, ← hkeys, List.map_append] at hmap
    have hend := congrArg List.getLast? hmap
    simp only [calibrationKeys, List.map_cons, List.map_nil, List.getLast?_append,
      List.getLast?_cons_cons, List.getLast?_singleton] at hend
    rw [← Option.some.inj hend]
    simp
  obtain ⟨front, hfront⟩ := begun_later hsplit hsince hlast
  refine ⟨front, sent, mid, own, res, hfront, fun o ho => hsince o ?_, hv⟩
  rcases List.mem_append.mp ho with ho | ho
  · exact List.mem_append_left _ (List.mem_append_left _ ho)
  · exact List.mem_append_right _ ho

/-! ## A run -/

/-- A calibration that differs from `default_calibration` in every field. -/
def otherCalibration : Calibration := ⟨20, 2, 60, 1, 2, 3, 4⟩

/-- The words at its fields, as they stand in memory: the next field follows. -/
def otherWords : CalibrationKey → UInt64
  | .gantryAccel => 20 + 2 * 2 ^ 32
  | .gantryVelStart => 2 + 60 * 2 ^ 32
  | .gantryVelHome => 60
  | .tempAllC1 => 1
  | .tempAllC2 => 2
  | .tempAllC3 => 3
  | .tempAllResistor => 4

/-- A CALIBRATE is sent, acknowledged and handled. -/
def calibrateSteps (key : CalibrationKey) : List LinkEvent :=
  requestSteps (.calibrate key (otherWords key)) (1 + key.size) ++ mainSteps 3 ++
    hostSteps 6 .deliver

/-- What is observed of it, when the calibration is `c`. -/
def calibrateLog (c : Calibration) (sent : Nat) (key : CalibrationKey) : List Obs :=
  .begun (.calibrate key (otherWords key)) sent :: .acted ⟨.getStatus, .idle⟩ sent ::
    handled (HostCall.calibrate key (otherWords key)).request (sent + 7 + key.size)
      [⟨.getCal, c⟩, ⟨.setCal (c.set key (otherWords key)), ()⟩] ++
  [.returned (.calibrate key (otherWords key)) .ok .none]

/-- What is observed of one after the other. -/
def calibrationLog (c : Calibration) (sent : Nat) : List CalibrationKey → List Obs
  | [] => []
  | key :: keys => calibrateLog c sent key ++
      calibrationLog (c.set key (otherWords key)) (sent + 7 + key.size) keys

theorem calibrationLog_follows (c : Calibration) (sent : Nat) (keys : List CalibrationKey) :
    Follows (calibrateKeys otherWords keys) (calibrationLog c sent keys) true := by
  induction keys generalizing c sent with
  | nil => exact .ret true [] acted_nil
  | cons key keys ih =>
      rw [calibrateKeys_cons]
      have hacted := acted_cons ⟨.getStatus, .idle⟩ sent (handled_acted
        (HostCall.calibrate key (otherWords key)).request (sent + 7 + key.size)
        [⟨.getCal, c⟩, ⟨.setCal (c.set key (otherWords key)), ()⟩])
      have hsplit : calibrationLog c sent (key :: keys) = [] ++
          .begun (.calibrate key (otherWords key)) sent ::
            (.acted ⟨.getStatus, .idle⟩ sent ::
              handled (HostCall.calibrate key (otherWords key)).request (sent + 7 + key.size)
                [⟨.getCal, c⟩, ⟨.setCal (c.set key (otherWords key)), ()⟩]) ++
          .returned (.calibrate key (otherWords key)) .ok .none ::
            calibrationLog (c.set key (otherWords key)) (sent + 7 + key.size) keys := by
        rw [calibrationLog, calibrateLog, List.append_assoc]
        rfl
      rw [hsplit]
      exact .call _ _ [] _ _ sent .ok _ _ acted_nil hacted (ih ..)

/-- All constants are set, and then the X axis is moved. -/
def calibrateThenMove : List LinkEvent :=
  calibrationKeys.flatMap calibrateSteps ++ requestSteps moveX 10 ++ mainSteps 4 ++
    controllerSteps 7 .wrote ++ hostSteps 13 .deliver ++ hostSteps 7 .wrote

/-- What is observed of the MOVE. -/
def movedAfterwards : List Obs :=
  .begun moveX 93 :: .acted ⟨.getStatus, .idle⟩ 93 :: handled moveX.request 109
    (moveOps ⟨1000, 2000, AxisId.x.toByte, AxisDirection.positive.toByte⟩ otherCalibration .ok)

set_option maxRecDepth 8000 in
theorem calibrateThenMove_run :
    ∃ l, run HostLink.step (.init readyStand) calibrateThenMove = some l ∧
      l.log = calibrationLog defaultCalibration 0 calibrationKeys ++ movedAfterwards ++
        [.returned moveX .ok (.axisResult AxisResult.ok.toByte)] :=
  ⟨_, rfl, rfl⟩

/-- What is observed until the X axis is started. -/
def beforeStart : List Obs :=
  calibrationLog defaultCalibration 0 calibrationKeys ++
    [ .begun moveX 93
    , .acted ⟨.getStatus, .idle⟩ 93
    , .acted ⟨.dispatch moveX.request, ()⟩ 109
    , .acted ⟨.getCal, otherCalibration⟩ 109 ]

/-- The motion on which the X axis is started. -/
def otherMotion : AxisMotionSpec :=
  moveMotion ⟨1000, 2000, AxisId.x.toByte, AxisDirection.positive.toByte⟩ otherCalibration

set_option maxRecDepth 2000 in
/-- The X axis is started with the new constants. -/
theorem starts_calibrated_other :
    ∃ l, run HostLink.step (.init readyStand) calibrateThenMove = some l ∧
      settings ((dispatches beforeStart).map Prod.fst) readyStand.cal = otherCalibration ∧
      ∃ earlier later q m, calibrateThenMove = earlier ++ later ∧
        run HostLink.step (.init readyStand) earlier = some q ∧ q.log = beforeStart ∧
        Recounted conf defaultCalibration readyOps q m ∧
        StartsFor beforeStart q.controller.stand m.history
          (settings ((dispatches beforeStart).map Prod.fst) readyStand.cal) AxisId.x.toByte
          otherMotion := by
  obtain ⟨l, hrun, hlog⟩ := calibrateThenMove_run
  have hsplit : l.log = beforeStart ++ .acted ⟨.axisStart AxisId.x.toByte otherMotion, .ok⟩ 109 ::
      [ .acted ⟨.setStatus .moving, ()⟩ 109
      , .returned moveX .ok (.axisResult AxisResult.ok.toByte) ] := by
    rw [hlog]
    rfl
  refine ⟨l, hrun, rfl, starts_calibrated conf defaultCalibration readyStand readyOps
    standing_ready calibrateThenMove l hrun beforeStart _ AxisId.x.toByte otherMotion 109 hsplit
    ?_ ?_⟩
  · simp [beforeStart, calibrationLog, calibrationKeys, calibrateLog, handled, Fine, Obs.Fine]
  · rintro c v hmem data fits rfl
    simp [beforeStart, calibrationLog, calibrationKeys, calibrateLog, moveX, handled] at hmem

/-- The MOVE is started with the new constants. -/
theorem calibrated_moves_other :
    ∃ l front sent mid own res,
      run HostLink.step (.init readyStand) calibrateThenMove = some l ∧
      movedAfterwards = front ++ .begun moveX sent ::
        (mid ++ handled moveX.request (moveX.requestEnd sent) (moveOps ⟨1000, 2000,
          AxisId.x.toByte, AxisDirection.positive.toByte⟩ otherCalibration res) ++ own) ∧
      (∀ o ∈ mid ++ own, ∃ a got, o = .acted a got) ∧
      .axisResult AxisResult.ok.toByte = HostValue.axisResult (AxisResult.toByte res) := by
  obtain ⟨l, hrun, hlog⟩ := calibrateThenMove_run
  obtain ⟨front, sent, mid, own, res, hsplit, hacted, hres⟩ := calibrated_moves conf
    defaultCalibration readyStand readyOps standing_ready calibrateThenMove l hrun otherCalibration
    otherWords ⟨by decide, by decide, by decide, rfl, rfl, rfl, rfl⟩ []
    (calibrationLog defaultCalibration 0 calibrationKeys) movedAfterwards [] .x .positive 1000 2000
    1000 (.axisResult AxisResult.ok.toByte) hlog (calibrationLog_follows ..)
    (by simp [movedAfterwards, moveX, moveOps, handled, Fine, Obs.Fine])
    (by simp [movedAfterwards, moveX, moveOps, handled])
  exact ⟨l, front, sent, mid, own, res, hrun, hsplit, hacted, hres⟩

end MpmtTestStand.Ports
