import MpmtTestStand.Ports.DispatchOnce
import MpmtTestStand.Ports.RequestResponse
import MpmtTestStand.Ports.Codecs

/-!
# Moving both axes: `arduino_move`

`arduino_move` reads the position and then asks for one MOVE after the other, also when the
first one has been refused, and nothing takes back what the controller has started.
`arduino_move_outcome` says what its result means for each axis.

The helper is a program over the calls of the host, and `Follows` says that a part of a log is
what is observed while the helper runs.  Floats are a parameter: they are compared with the
bounds and converted to counts and steps, and nothing else depends on them.
-/

namespace MpmtTestStand.Ports

open MpmtTestStand.Verified
open MpmtTestStand.Verified.Run
open MPMTTestStand

/-! ## The helper -/

/-- The floats of the program: `<`, its constants, `mm_to_cts` and `mm_to_steps`. -/
structure FloatOps (F : Type) where
  lt : F → F → Bool
  ofNat : Nat → F
  mmToCts : F → Int32
  mmToSteps : F → UInt32

/-- `gantry_x_min_mm` -/
def gantryXMinMm : Nat := 0

/-- `gantry_x_max_mm` -/
def gantryXMaxMm : Nat := 1200

/-- `gantry_y_min_mm` -/
def gantryYMinMm : Nat := 0

/-- `gantry_y_max_mm` -/
def gantryYMaxMm : Nat := 1200

/-- `gantry_vel_min_mm_s` -/
def gantryVelMinMmS : Nat := 0

/-- `gantry_vel_max_mm_s` -/
def gantryVelMaxMmS : Nat := 50

/-- `MSG_RECEIVE_TIMEOUT_MS` -/
def msgReceiveTimeoutMs : UInt32 := 250

/-- The calls of the host, with their results. -/
abbrev callSig : Sig := ⟨HostCall, fun _ => SerialResult × HostValue⟩

/-- Programs over the calls of the host. -/
abbrev HelperProg (α : Type) : Type := Prog callSig α

/-- `handle_serial_result` -/
def handleSerialResult (res : SerialResult) : Bool := res = .ok

/-- `handle_axis_result`, for the value of a MOVE that has returned `SERIAL_OK`. -/
def handleAxisResult : HostValue → Bool
  | .axisResult raw => raw = AxisResult.ok.toByte
  | _ => false

/-- What `get_position` has stored when it returns `SERIAL_OK`. -/
def HostValue.positionData : HostValue → PositionMsgData
  | .position d => d
  | _ => ⟨0, 0⟩

/-- The field of an axis. -/
def PositionMsgData.counts (d : PositionMsgData) : AxisId → Int32
  | .x => d.xCounts
  | .y => d.yCounts

section Helper

variable {F : Type} (ops : FloatOps F)

/-- The value is outside of the bounds. -/
def FloatOps.outside (min max : Nat) (value : F) : Bool :=
  ops.lt value (ops.ofNat min) || ops.lt (ops.ofNat max) value

/-- `validate_move_params` -/
def validateMoveParams (destMm velMmS : AxisId → F) : Bool :=
  if ops.outside gantryXMinMm gantryXMaxMm (destMm .x) then false
  else if ops.outside gantryYMinMm gantryYMaxMm (destMm .y) then false
  else if ops.outside gantryVelMinMmS gantryVelMaxMmS (velMmS .x) ||
      ops.outside gantryVelMinMmS gantryVelMaxMmS (velMmS .y) then false
  else true

/-- The call of `move_axis`. -/
def moveAxisCall (axis : AxisId) (curPosCounts : Int32) (destMm velMmS : F) : HostCall :=
  let args := moveAxisArgs (ops.mmToCts destMm) curPosCounts
  .move axis args.1 (ops.mmToSteps velMmS) args.2 msgReceiveTimeoutMs

/-- One call. -/
def HelperProg.make (c : HostCall) : HelperProg (SerialResult × HostValue) :=
  Prog.perform (S := callSig) c

/-- `move_axis` -/
def moveAxis (axis : AxisId) (curPosCounts : Int32) (destMm velMmS : F) : HelperProg Bool := do
  let (res, value) ← HelperProg.make (moveAxisCall ops axis curPosCounts destMm velMmS)
  return handleSerialResult res && handleAxisResult value

/-- `arduino_move` -/
def arduinoMove (destMm velMmS : AxisId → F) : HelperProg Bool := do
  if ¬validateMoveParams ops destMm velMmS then return false
  let (res, value) ← HelperProg.make (.getPosition msgReceiveTimeoutMs)
  if ¬handleSerialResult res then return false
  let curPosCounts := value.positionData
  let xSuccess ← moveAxis ops .x curPosCounts.xCounts (destMm .x) (velMmS .x)
  let ySuccess ← moveAxis ops .y curPosCounts.yCounts (destMm .y) (velMmS .y)
  return xSuccess && ySuccess

end Helper

theorem handleSerialResult_iff {res : SerialResult} : handleSerialResult res = true ↔ res = .ok :=
  decide_eq_true_iff

theorem handleAxisResult_iff {value : HostValue} :
    handleAxisResult value = true ↔ value = .axisResult AxisResult.ok.toByte := by
  cases value <;> simp [handleAxisResult]

section Text

variable {F : Type} {ops : FloatOps F} {destMm velMmS : AxisId → F}

/-- The MOVE for an axis, when the position is `cur`. -/
def axisCall (ops : FloatOps F) (destMm velMmS : AxisId → F) (cur : PositionMsgData)
    (id : AxisId) : HostCall :=
  moveAxisCall ops id (cur.counts id) (destMm id) (velMmS id)

theorem arduinoMove_invalid (hvalid : validateMoveParams ops destMm velMmS = false) :
    arduinoMove ops destMm velMmS = .ret false := by
  simp [arduinoMove, hvalid]

/-- The calls of `arduino_move`. -/
theorem arduinoMove_valid (hvalid : validateMoveParams ops destMm velMmS = true) :
    arduinoMove ops destMm velMmS = .op (.getPosition msgReceiveTimeoutMs) fun r =>
      if handleSerialResult r.1 then
        .op (axisCall ops destMm velMmS r.2.positionData .x) fun rx =>
        .op (axisCall ops destMm velMmS r.2.positionData .y) fun ry =>
        .ret (handleSerialResult rx.1 && handleAxisResult rx.2 &&
          (handleSerialResult ry.1 && handleAxisResult ry.2))
      else .ret false := by
  rw [arduinoMove, hvalid]
  exact congrArg (Prog.op _) (funext fun r => ite_not (handleSerialResult r.1 = true) _ _)

end Text

/-! ## What is observed -/

/-- An operation of the controller. -/
def Obs.IsActed (o : Obs) : Prop := ∃ a got, o = .acted a got

/-- The host runs the helper, from its first call to its return with `a`, and observes `seg`;
the controller may act at any time. -/
inductive Follows {α : Type} : HelperProg α → List Obs → α → Prop
  | ret (a : α) (seg : List Obs) (hacted : ∀ o ∈ seg, o.IsActed) : Follows (.ret a) seg a
  | call (c : HostCall) (k : SerialResult × HostValue → HelperProg α) (idle mid rest : List Obs)
      (sent : Nat) (res : SerialResult) (value : HostValue) (a : α)
      (hidle : ∀ o ∈ idle, o.IsActed) (hmid : ∀ o ∈ mid, o.IsActed)
      (h : Follows (k (res, value)) rest a) :
      Follows (.op c k) (idle ++ .begun c sent :: mid ++ .returned c res value :: rest) a

/-- The calls that have begun, each with the number of bytes that had been written. -/
def begins (log : List Obs) : List (HostCall × Nat) :=
  log.filterMap fun
    | .begun c sent => some (c, sent)
    | _ => none

/-- The call `c` has begun in `seg`, and in `log`, then or later, the controller dispatches its
request and performs `ops` for it. -/
def PerformedFor (log seg : List Obs) (c : HostCall) (ops : List Acted) : Prop :=
  ∃ sent, (c, sent) ∈ begins seg ∧
    performed (handled c.request (c.requestEnd sent) ops) <:+: performed log

/-- `axis_start` has returned `AXIS_OK` for the MOVE `c` that has begun in `seg`. -/
def Started (log seg : List Obs) (c : HostCall) : Prop :=
  ∃ cal, PerformedFor log seg c (moveOps (.ofBytes c.request.payload) cal .ok)

/-- A MOVE that has begun in `seg` has set the axis in motion. -/
def SetInMotion (log seg : List Obs) (id : AxisId) : Prop :=
  ∃ dir velHold distCounts timeoutMs, Started log seg (.move id dir velHold distCounts timeoutMs)

theorem begins_append (log new : List Obs) : begins (log ++ new) = begins log ++ begins new :=
  List.filterMap_append

/-- While only the controller acts, no call begins. -/
theorem begins_acted {log : List Obs} (hacted : ∀ o ∈ log, o.IsActed) : begins log = [] := by
  refine List.filterMap_eq_nil_iff.mpr fun o ho => ?_
  obtain ⟨a, got, rfl⟩ := hacted o ho
  rfl

theorem fine_acted {log : List Obs} (hacted : ∀ o ∈ log, o.IsActed) : Fine log := by
  intro o ho
  obtain ⟨a, got, rfl⟩ := hacted o ho
  trivial

/-- A call is not over yet. -/
theorem fine_begun {log : List Obs} {c : HostCall} {sent : Nat} (hacted : ∀ o ∈ log, o.IsActed) :
    Fine (.begun c sent :: log) := by
  intro o ho
  rcases List.mem_cons.mp ho with rfl | ho
  · trivial
  · exact fine_acted hacted o ho

/-! ## One call -/

/-- The first call in `seg` is `c`, and `rest` follows its return. -/
structure FirstCall (c : HostCall) (seg : List Obs) (sent : Nat) (res : SerialResult)
    (value : HostValue) (idle mid rest : List Obs) : Prop where
  seg_eq : seg = idle ++ .begun c sent :: mid ++ .returned c res value :: rest
  idle_acted : ∀ o ∈ idle, o.IsActed
  mid_acted : ∀ o ∈ mid, o.IsActed

section Calls

variable {α : Type} {c : HostCall} {seg : List Obs} {k : SerialResult × HostValue → HelperProg α}
  {a b : α}

/-- A helper that returns makes no more calls. -/
theorem Follows.of_ret (h : Follows (.ret b) seg a) : a = b ∧ begins seg = [] := by
  cases h with
  | ret _ _ hacted => exact ⟨rfl, begins_acted hacted⟩

/-- A helper that makes a call waits for its return. -/
theorem Follows.of_call (h : Follows (.op c k) seg a) :
    ∃ sent res value idle mid rest, FirstCall c seg sent res value idle mid rest ∧
      Follows (k (res, value)) rest a := by
  cases h with
  | call _ _ idle mid rest sent res value _ hidle hmid h =>
      exact ⟨sent, res, value, idle, mid, rest, ⟨rfl, hidle, hmid⟩, h⟩

variable {sent : Nat} {res : SerialResult} {value : HostValue} {idle mid rest : List Obs}

theorem FirstCall.begins_eq (h : FirstCall c seg sent res value idle mid rest) :
    begins seg = (c, sent) :: begins rest := by
  have hone : begins (.begun c sent :: mid) = (c, sent) :: begins mid := rfl
  have hreturned : begins (.returned c res value :: rest) = begins rest := rfl
  rw [h.seg_eq, begins_append, begins_append, begins_acted h.idle_acted, hone,
    begins_acted h.mid_acted, hreturned]
  rfl

theorem FirstCall.returned (h : FirstCall c seg sent res value idle mid rest) :
    .returned c res value ∈ seg := by
  rw [h.seg_eq]
  simp

/-- The part up to the return is without failures if the call is. -/
theorem FirstCall.next (h : FirstCall c seg sent res value idle mid rest) :
    ∃ done, seg = done ++ rest ∧ (res = .ok → Fine done) := by
  refine ⟨idle ++ .begun c sent :: mid ++ [.returned c res value], by simp [h.seg_eq], ?_⟩
  rintro rfl
  have hreturned : Fine [.returned c .ok value] := by
    intro o ho
    obtain rfl := List.mem_singleton.mp ho
    exact .inl rfl
  exact fine_append.mpr
    ⟨fine_append.mpr ⟨fine_acted h.idle_acted, fine_begun h.mid_acted⟩, hreturned⟩

end Calls

/-! ## What the controller has done for it -/

/-- A log with only operations behind the last call says which call that was. -/
theorem Underway.unique {log mid mid' : List Obs} {c : HostCall} {sent sent' : Nat}
    (h : Underway log c sent mid) (h' : Underway log c sent' mid') : sent = sent' ∧ mid = mid' := by
  obtain ⟨pre, hlog⟩ := h.log_eq
  obtain ⟨pre', hlog'⟩ := h'.log_eq
  have hbegun {new : List Obs} (hacted : ∀ o ∈ new, ∃ a got, o = .acted a got) (c : HostCall)
      (sent : Nat) : .begun c sent ∉ new := by
    intro hmem
    obtain ⟨a, got, heq⟩ := hacted _ hmem
    cases heq
  rw [hlog] at hlog'
  rcases List.append_eq_append_iff.mp hlog' with ⟨as, -, has⟩ | ⟨as, -, has⟩
  · cases as with
    | nil =>
        obtain ⟨hhead, htail⟩ := List.cons.inj has
        exact ⟨(Obs.begun.inj hhead).2, htail⟩
    | cons o as =>
        obtain ⟨-, htail⟩ := List.cons.inj has
        exact absurd (by simp [htail]) (hbegun h.acted c sent')
  · cases as with
    | nil =>
        obtain ⟨hhead, htail⟩ := List.cons.inj has
        exact ⟨(Obs.begun.inj hhead).2.symm, htail.symm⟩
    | cons o as =>
        obtain ⟨-, htail⟩ := List.cons.inj has
        exact absurd (by simp [htail]) (hbegun h'.acted c sent)

section Served

variable {stand : TestStand} {events : List LinkEvent} {l : HostLink} {c : HostCall}
  {front seg post idle mid rest : List Obs} {sent : Nat} {res : SerialResult} {value : HostValue}

/-- After a history without failures a call that returns `SERIAL_OK` has been served. -/
theorem FirstCall.served (hrun : run HostLink.step (.init stand) events = some l)
    (hlog : l.log = front ++ seg ++ post) (hcall : FirstCall c seg sent .ok value idle mid rest)
    (hfine : Fine front) (hresponse : c.response ≠ none) : Served c sent mid value := by
  have hmatched : l.Matched := run_invariant HostLink.step (fun _ => True)
    (fun _ _ _ _ hstep h => h.step hstep) (fun _ _ => trivial) hrun (.init stand)
  have hsplit : l.log =
      (front ++ idle ++ .begun c sent :: mid) ++ .returned c .ok value :: (rest ++ post) := by
    rw [hlog, hcall.seg_eq]
    simp
  have hbefore : Fine (front ++ idle ++ .begun c sent :: mid) :=
    fine_append.mpr
      ⟨fine_append.mpr ⟨hfine, fine_acted hcall.idle_acted⟩, fine_begun hcall.mid_acted⟩
  obtain ⟨sent', mid', hunderway, hserved⟩ := hmatched.answered _ _ _ _ hsplit hbefore
  have hthis : Underway (front ++ idle ++ .begun c sent :: mid) c sent mid :=
    ⟨⟨_, rfl⟩, hcall.mid_acted⟩
  obtain ⟨rfl, rfl⟩ := hthis.unique hunderway
  exact hserved.resolve_left hresponse

/-- What the controller has computed for the call, found in the whole log. -/
theorem FirstCall.performed (hrun : run HostLink.step (.init stand) events = some l)
    (hlog : l.log = front ++ seg ++ post) (hcall : FirstCall c seg sent .ok value idle mid rest)
    (hfine : Fine front) (hresponse : c.response ≠ none) :
    ∃ ops, Computes c ops value ∧ performed (handled c.request (c.requestEnd sent) ops) <:+:
      performed l.log := by
  obtain ⟨ops, ⟨before, after, hmid⟩, hcomputes⟩ := hcall.served hrun hlog hfine hresponse
  refine ⟨ops, hcomputes, ?_⟩
  have hinfix : handled c.request (c.requestEnd sent) ops <:+: l.log := by
    refine ⟨front ++ idle ++ .begun c sent :: before,
      after ++ .returned c .ok value :: rest ++ post, ?_⟩
    rw [hlog, hcall.seg_eq, hmid]
    simp
  exact hinfix.filterMap _

end Served

/-! ## The result of a GET_POSITION and of a MOVE -/

/-- What the controller does for one call is one list. -/
theorem PerformedFor.comparable {log seg : List Obs} {c : HostCall} {ops ops' : List Acted}
    (hends : (dispatchEnds (performed log)).Pairwise (· < ·))
    (hone : ∀ sent sent', (c, sent) ∈ begins seg → (c, sent') ∈ begins seg → sent = sent')
    (h : PerformedFor log seg c ops) (h' : PerformedFor log seg c ops') :
    ops <+: ops' ∨ ops' <+: ops := by
  obtain ⟨sent, hmem, before, after, hsplit⟩ := h
  obtain ⟨sent', hmem', before', after', hsplit'⟩ := h'
  obtain rfl := hone sent sent' hmem hmem'
  rw [performed_handled, List.map_cons, List.append_assoc] at hsplit hsplit'
  have hsame : (ops.map fun a => (a, c.requestEnd sent)) ++ after =
      (ops'.map fun a => (a, c.requestEnd sent)) ++ after' :=
    (List.cons.inj (split_unique hends rfl rfl hsplit.symm hsplit'.symm)).2
  have hops := congrArg (List.map Prod.fst) hsame
  have hfst (ops : List Acted) :
      (ops.map fun a => (a, c.requestEnd sent)).map Prod.fst = ops := by
    rw [List.map_map]
    exact List.map_id ops
  rw [List.map_append, List.map_append, hfst, hfst] at hops
  have hprefix : ops' <+: ops ++ after.map Prod.fst := ⟨_, hops.symm⟩
  exact List.prefix_or_prefix_of_prefix (List.prefix_append _ _) hprefix

/-- The operations of `handle_move` tell what `axis_start` has returned. -/
theorem moveOps_result {data : MoveMsgData} {cal cal' : Calibration} {res res' : AxisResult}
    (h : moveOps data cal res <+: moveOps data cal' res') : res = res' := by
  obtain ⟨rest, h⟩ := h
  simp only [moveOps, List.cons_append, List.cons.injEq] at h
  obtain ⟨hcal, hstart, -⟩ := h
  obtain rfl : cal = cal' := by cases hcal; rfl
  cases hstart
  rfl

section Results

variable {stand : TestStand} {events : List LinkEvent} {l : HostLink} {front part post : List Obs}
  {sent : Nat} {value : HostValue} {idle mid rest : List Obs} {axis : AxisId} {dir : AxisDirection}
  {velHold distCounts timeoutMs : UInt32}

/-- After a history without failures the position is what the controller reads for this call. -/
theorem FirstCall.position_read (hrun : run HostLink.step (.init stand) events = some l)
    (hlog : l.log = front ++ part ++ post)
    (hcall : FirstCall (.getPosition timeoutMs) part sent .ok value idle mid rest)
    (hfine : Fine front) :
    ∃ first, PerformedFor l.log part (.getPosition timeoutMs)
      (positionOps value.positionData.xCounts value.positionData.yCounts first) := by
  obtain ⟨acted, hcomputes, hperformed⟩ :=
    hcall.performed hrun hlog hfine (by simp [HostCall.response])
  have hmem : (HostCall.getPosition timeoutMs, sent) ∈ begins part := by
    rw [hcall.begins_eq]
    exact List.mem_cons_self
  cases hcomputes with
  | position _ x y first => exact ⟨first, sent, hmem, hperformed⟩

theorem AxisResult.toByte_injective {a b : AxisResult} (h : a.toByte = b.toByte) : a = b := by
  cases a <;> cases b <;> first | rfl | exact absurd h (by decide)

/-- **The result of a MOVE** that returns after a history without failures: the axis has been
started exactly if the result is `AXIS_OK`. -/
theorem FirstCall.started_iff (seg : List Obs)
    (hrun : run HostLink.step (.init stand) events = some l)
    (hlog : l.log = front ++ part ++ post)
    (hcall : FirstCall (.move axis dir velHold distCounts timeoutMs) part sent .ok value
      idle mid rest)
    (hfine : Fine front)
    (hone : ∀ sent', (.move axis dir velHold distCounts timeoutMs, sent') ∈ begins seg ↔
      sent' = sent) :
    Started l.log seg (.move axis dir velHold distCounts timeoutMs) ↔
      value = .axisResult AxisResult.ok.toByte := by
  obtain ⟨ops, hcomputes, hperformed⟩ :=
    hcall.performed hrun hlog hfine (by simp [HostCall.response])
  obtain ⟨cal, res, rfl, rfl⟩ : ∃ cal res,
      ops = moveOps ⟨velHold, distCounts, axis.toByte, dir.toByte⟩ cal res ∧
        value = .axisResult res.toByte := by
    cases hcomputes with
    | move _ _ _ _ _ cal res => exact ⟨cal, res, rfl, rfl⟩
  have hthis : PerformedFor l.log seg (.move axis dir velHold distCounts timeoutMs)
      (moveOps ⟨velHold, distCounts, axis.toByte, dir.toByte⟩ cal res) :=
    ⟨sent, (hone sent).mpr rfl, hperformed⟩
  simp only [Started, HostCall.ofBytes_move]
  constructor
  · rintro ⟨cal', hok⟩
    have hends := HostLink.dispatchEnds_increasing hrun
    have hres : res = .ok := by
      rcases hthis.comparable hends
          (fun a b ha hb => ((hone a).mp ha).trans ((hone b).mp hb).symm) hok with h | h
      · exact moveOps_result h
      · exact (moveOps_result h).symm
    rw [hres]
  · intro hvalue
    obtain rfl := AxisResult.toByte_injective (HostValue.axisResult.inj hvalue)
    exact ⟨cal, hthis⟩

end Results

/-! ## The outcome of `arduino_move` -/

section Outcome

variable {F : Type} (ops : FloatOps F) (destMm velMmS : AxisId → F)

/-- `arduino_move` is observed as `seg`, in a run with the log `log`, of which `pre` comes
before; it has read the position `cur`, has issued one MOVE for each axis, and these have
returned `res` and `value`. -/
structure BothIssued (log pre seg : List Obs) (success : Bool) (cur : PositionMsgData)
    (res : AxisId → SerialResult) (value : AxisId → HostValue) : Prop where
  calls : (begins seg).map Prod.fst = [.getPosition msgReceiveTimeoutMs,
    axisCall ops destMm velMmS cur .x, axisCall ops destMm velMmS cur .y]
  returned : ∀ id, .returned (axisCall ops destMm velMmS cur id) (res id) (value id) ∈ seg
  success_iff : success = true ↔
    ∀ id, res id = .ok ∧ value id = .axisResult AxisResult.ok.toByte
  /-- the position has been received -/
  received : ∃ v, .returned (.getPosition msgReceiveTimeoutMs) .ok v ∈ seg ∧ v.positionData = cur
  /-- the position is what the controller has read in this call -/
  position : Fine pre → ∃ first, PerformedFor log seg (.getPosition msgReceiveTimeoutMs)
    (positionOps cur.xCounts cur.yCounts first)
  /-- an axis that moves has been started by its own MOVE, -/
  own : ∀ id, SetInMotion log seg id → Started log seg (axisCall ops destMm velMmS cur id)
  /-- which leads to its own target -/
  toward : ∀ id, ∃ dir velHold distCounts,
    axisCall ops destMm velMmS cur id = .move id dir velHold distCounts msgReceiveTimeoutMs ∧
    (-2 ^ 31 < (ops.mmToCts (destMm id)).toInt - (cur.counts id).toInt →
      (ops.mmToCts (destMm id)).toInt - (cur.counts id).toInt < 2 ^ 31 →
      (cur.counts id).toInt + dir.sign * distCounts.toNat = (ops.mmToCts (destMm id)).toInt)
  x_started : Fine pre → res .x = .ok →
    (SetInMotion log seg .x ↔ value .x = .axisResult AxisResult.ok.toByte)
  y_started : Fine pre → res .x = .ok → res .y = .ok →
    (SetInMotion log seg .y ↔ value .y = .axisResult AxisResult.ok.toByte)

variable {ops destMm velMmS}

section Issued

variable {log seg : List Obs} {cur : PositionMsgData} {sentPos : Nat} {sent : AxisId → Nat}
  {id : AxisId}

/-- The calls that begin are a readout of the position and one MOVE for each axis. -/
def IssuedAs (ops : FloatOps F) (destMm velMmS : AxisId → F) (seg : List Obs)
    (cur : PositionMsgData) (sentPos : Nat) (sent : AxisId → Nat) : Prop :=
  begins seg = [(.getPosition msgReceiveTimeoutMs, sentPos),
    (axisCall ops destMm velMmS cur .x, sent .x), (axisCall ops destMm velMmS cur .y, sent .y)]

/-- The only MOVE for an axis is its own. -/
theorem IssuedAs.move_begun {dir : AxisDirection} {velHold distCounts timeoutMs : UInt32} {s : Nat}
    (hissued : IssuedAs ops destMm velMmS seg cur sentPos sent)
    (h : (.move id dir velHold distCounts timeoutMs, s) ∈ begins seg) :
    .move id dir velHold distCounts timeoutMs = axisCall ops destMm velMmS cur id ∧
      s = sent id := by
  rw [hissued] at h
  simp only [List.mem_cons, Prod.mk.injEq, List.not_mem_nil, or_false] at h
  rcases h with ⟨hcall, -⟩ | ⟨hcall, hsent⟩ | ⟨hcall, hsent⟩
  · cases hcall
  · obtain rfl : id = .x := (HostCall.move.inj hcall).1
    exact ⟨hcall, hsent⟩
  · obtain rfl : id = .y := (HostCall.move.inj hcall).1
    exact ⟨hcall, hsent⟩

/-- It has begun once. -/
theorem IssuedAs.once (hissued : IssuedAs ops destMm velMmS seg cur sentPos sent) (id : AxisId)
    (s : Nat) : (axisCall ops destMm velMmS cur id, s) ∈ begins seg ↔ s = sent id := by
  refine ⟨fun h => (hissued.move_begun h).2, ?_⟩
  rintro rfl
  rw [hissued]
  cases id <;> simp

/-- What sets the axis in motion is its own MOVE. -/
theorem IssuedAs.setInMotion_iff (hissued : IssuedAs ops destMm velMmS seg cur sentPos sent)
    (id : AxisId) :
    SetInMotion log seg id ↔ Started log seg (axisCall ops destMm velMmS cur id) := by
  refine ⟨?_, fun h => ⟨_, _, _, _, h⟩⟩
  rintro ⟨dir, velHold, distCounts, timeoutMs, hstarted⟩
  obtain ⟨cal, s, hmem, hperformed⟩ := hstarted
  rw [← (hissued.move_begun hmem).1]
  exact ⟨cal, s, hmem, hperformed⟩

/-- Without a MOVE no axis is set in motion. -/
theorem not_setInMotion (hmoves : ∀ x ∈ begins seg, x.1 = .getPosition msgReceiveTimeoutMs) :
    ¬SetInMotion log seg id := by
  rintro ⟨dir, velHold, distCounts, timeoutMs, cal, s, hmem, -⟩
  cases hmoves _ hmem

/-- The MOVE for an axis leads to its target. -/
theorem axisCall_toward (id : AxisId) : ∃ dir velHold distCounts,
    axisCall ops destMm velMmS cur id = .move id dir velHold distCounts msgReceiveTimeoutMs ∧
    (-2 ^ 31 < (ops.mmToCts (destMm id)).toInt - (cur.counts id).toInt →
      (ops.mmToCts (destMm id)).toInt - (cur.counts id).toInt < 2 ^ 31 →
      (cur.counts id).toInt + dir.sign * distCounts.toNat = (ops.mmToCts (destMm id)).toInt) :=
  ⟨_, _, _, rfl, moveAxisArgs_sum⟩

end Issued

/-- The helper has issued both MOVEs. -/
theorem Follows.both_issued {stand : TestStand} {events : List LinkEvent} {l : HostLink}
    {pre seg post : List Obs} {sentPos sentX sentY : Nat} {valuePos valueX valueY : HostValue}
    {resX resY : SerialResult} {idle mid rest idleX midX restX idleY midY restY : List Obs}
    {success : Bool} (hrun : run HostLink.step (.init stand) events = some l)
    (hlog : l.log = pre ++ seg ++ post)
    (hpos : FirstCall (.getPosition msgReceiveTimeoutMs) seg sentPos .ok valuePos idle mid rest)
    (hx : FirstCall (axisCall ops destMm velMmS valuePos.positionData .x) rest sentX resX valueX
      idleX midX restX)
    (hy : FirstCall (axisCall ops destMm velMmS valuePos.positionData .y) restX sentY resY valueY
      idleY midY restY)
    (h : Follows (.ret (handleSerialResult resX && handleAxisResult valueX &&
      (handleSerialResult resY && handleAxisResult valueY))) restY success) :
    BothIssued ops destMm velMmS l.log pre seg success valuePos.positionData
      (fun | .x => resX | .y => resY) (fun | .x => valueX | .y => valueY) := by
  obtain ⟨rfl, hrest⟩ := h.of_ret
  obtain ⟨done, hseg, hdone⟩ := hpos.next
  obtain ⟨doneX, hrestX, hdoneX⟩ := hx.next
  have hissued : IssuedAs ops destMm velMmS seg valuePos.positionData sentPos
      (fun | .x => sentX | .y => sentY) := by
    rw [IssuedAs, hpos.begins_eq, hx.begins_eq, hy.begins_eq, hrest]
  have hlogX : l.log = (pre ++ done) ++ rest ++ post := by
    rw [hlog, hseg, ← List.append_assoc pre]
  have hlogY : l.log = (pre ++ done ++ doneX) ++ restX ++ post := by
    rw [hlogX, hrestX, ← List.append_assoc (pre ++ done)]
  refine ⟨?_, ?_, ?_, ⟨valuePos, hpos.returned, rfl⟩,
    fun hfine => hpos.position_read hrun hlog hfine,
    fun id => (hissued.setInMotion_iff id).mp, axisCall_toward, ?_, ?_⟩
  · rw [hissued]
    rfl
  · intro id
    cases id with
    | x =>
        rw [hseg]
        exact List.mem_append_right _ hx.returned
    | y =>
        rw [hseg, hrestX]
        exact List.mem_append_right _ (List.mem_append_right _ hy.returned)
  · simp only [Bool.and_eq_true, handleSerialResult_iff, handleAxisResult_iff]
    exact ⟨fun ⟨hx, hy⟩ id => by cases id <;> assumption, fun h => ⟨h .x, h .y⟩⟩
  · rintro hfine rfl
    have hfineX : Fine (pre ++ done) := fine_append.mpr ⟨hfine, hdone rfl⟩
    rw [hissued.setInMotion_iff]
    exact FirstCall.started_iff seg hrun hlogX hx hfineX (hissued.once .x)
  · rintro hfine rfl rfl
    have hfineY : Fine (pre ++ done ++ doneX) :=
      fine_append.mpr ⟨fine_append.mpr ⟨hfine, hdone rfl⟩, hdoneX rfl⟩
    rw [hissued.setInMotion_iff]
    exact FirstCall.started_iff seg hrun hlogY hy hfineY (hissued.once .y)

/-- **What the result of `arduino_move` means**, in every run.

Without valid parameters and a position it returns `false`, and issues no MOVE, so that neither
axis has been set in motion.  Otherwise it has received the position, issues one MOVE for each
axis and returns `true` exactly if both return `SERIAL_OK` and `AXIS_OK`; an axis whose MOVE has
been answered moves exactly if the answer is `AXIS_OK`, until a call of the host has failed.  So
`true` means that both axes have been started, each towards its own target, but `false` does not
mean that none has. -/
theorem arduino_move_outcome {F : Type} (ops : FloatOps F) (destMm velMmS : AxisId → F)
    (stand : TestStand) (events : List LinkEvent) (l : HostLink)
    (hrun : run HostLink.step (.init stand) events = some l) (pre seg post : List Obs)
    (success : Bool) (hlog : l.log = pre ++ seg ++ post)
    (hmove : Follows (arduinoMove ops destMm velMmS) seg success) :
    (success = false ∧ (∀ x ∈ begins seg, x.1 = .getPosition msgReceiveTimeoutMs) ∧
        (∀ id, ¬SetInMotion l.log seg id) ∧
        (validateMoveParams ops destMm velMmS = false ∨
          ∃ res value, .returned (.getPosition msgReceiveTimeoutMs) res value ∈ seg ∧
            res ≠ .ok) ∨
      validateMoveParams ops destMm velMmS = true ∧
        ∃ cur res value, BothIssued ops destMm velMmS l.log pre seg success cur res value) ∧
    (Fine pre → success = true → ∀ id, SetInMotion l.log seg id) := by
  rcases hvalid : validateMoveParams ops destMm velMmS with _ | _
  · rw [arduinoMove_invalid hvalid] at hmove
    obtain ⟨rfl, hnone⟩ := hmove.of_ret
    have hcalls : ∀ x ∈ begins seg, x.1 = .getPosition msgReceiveTimeoutMs := by simp [hnone]
    exact ⟨.inl ⟨rfl, hcalls, fun id => not_setInMotion hcalls, .inl rfl⟩, fun _ h => by cases h⟩
  · rw [arduinoMove_valid hvalid] at hmove
    obtain ⟨sent, res, value, idle, mid, rest, hpos, hmove⟩ := hmove.of_call
    by_cases hres : res = .ok
    · subst hres
      rw [if_pos (handleSerialResult_iff.mpr rfl)] at hmove
      obtain ⟨sentX, resX, valueX, idleX, midX, restX, hx, hmove⟩ := hmove.of_call
      obtain ⟨sentY, resY, valueY, idleY, midY, restY, hy, hmove⟩ := hmove.of_call
      have hissued := hmove.both_issued hrun hlog hpos hx hy
      refine ⟨.inr ⟨rfl, _, _, _, hissued⟩, fun hfine hsuccess id => ?_⟩
      have hok := hissued.success_iff.mp hsuccess
      cases id with
      | x => exact (hissued.x_started hfine (hok .x).1).mpr (hok .x).2
      | y => exact (hissued.y_started hfine (hok .x).1 (hok .y).1).mpr (hok .y).2
    · rw [if_neg fun h => hres (handleSerialResult_iff.mp h)] at hmove
      obtain ⟨rfl, hnone⟩ := hmove.of_ret
      have hcalls : ∀ x ∈ begins seg, x.1 = .getPosition msgReceiveTimeoutMs := by
        simp [hpos.begins_eq, hnone]
      exact ⟨.inl ⟨rfl, hcalls, fun id => not_setInMotion hcalls,
        .inr ⟨res, value, hpos.returned, hres⟩⟩, fun _ h => by cases h⟩

end Outcome

/-! ## Two runs -/

/-- Whole millimetres, on a pulley with a circumference of 53.4071 mm. -/
def wholeMm : FloatOps Nat where
  lt a b := decide (a < b)
  ofNat n := n
  mmToCts n := Int32.ofNat ((10000000 * n + 534071) / 1068142)
  mmToSteps n := UInt32.ofNat ((16000000 * n + 534071) / 1068142)

/-- The host begins a call and sends its request. -/
def hostSends (c : HostCall) : List LinkEvent := .call c :: hostSteps 7 .wrote

/-- The controller receives a request with `len` bytes of data and answers it, after `own`
operations of its own and with `ops` for the request. -/
def controllerServes (own len ops : Nat) : List LinkEvent :=
  .loop :: mainSteps own ++ controllerSteps (6 + len) .deliver ++ controllerSteps 7 .wrote ++
    mainSteps ops ++ controllerSteps 7 .wrote

/-- The host reads an acknowledgement and a response with `len` bytes of data. -/
def hostReads (len : Nat) : List LinkEvent :=
  hostSteps (12 + len) .deliver ++ hostSteps 7 .wrote

/-- The Y axis stands on its far switch. -/
def yOnFarSwitch : TestStand where
  axisX := .zero
  axisY := { Axis.zero with state := { Axis.zero.state with lsFarPressed := true } }
  status := .idle
  homeADone := false
  cal := defaultCalibration

/-- Both axes are to go to 10 mm. -/
def toTenMm (id : AxisId) : HostCall := .move id .positive 150 94 msgReceiveTimeoutMs

/-- One exchange after the other. -/
def yRefused : List LinkEvent :=
  hostSends (.getPosition msgReceiveTimeoutMs) ++ controllerServes 1 0 4 ++ hostReads 8 ++
    controllerSteps 6 .deliver ++
    hostSends (toTenMm .x) ++ controllerServes 1 10 4 ++ hostReads 1 ++
    controllerSteps 6 .deliver ++
    hostSends (toTenMm .y) ++ controllerServes 3 10 3 ++ hostReads 1

/-- The operations for a GET_POSITION, with both axes at 0. -/
def handledPosition (got : Nat) : List Obs :=
  handled (.basic msgIdGetPosition) got (positionOps 0 0 .x)

/-- The operations for a MOVE to 10 mm. -/
def handledMove (id : AxisId) (got : Nat) (res : AxisResult) : List Obs :=
  handled (toTenMm id).request got
    (moveOps ⟨150, 94, id.toByte, AxisDirection.positive.toByte⟩ defaultCalibration res)

/-- What is observed until the X axis is started. -/
def yRefusedBefore : List Obs :=
  .begun (.getPosition msgReceiveTimeoutMs) 0 :: .acted ⟨.getStatus, .idle⟩ 0 ::
    handledPosition 6 ++
  [ .returned (.getPosition msgReceiveTimeoutMs) .ok (.position ⟨0, 0⟩)
  , .begun (toTenMm .x) 12
  , .acted ⟨.getStatus, .idle⟩ 12 ]

/-- What is observed afterwards: the Y axis refuses. -/
def yRefusedAfter : List Obs :=
  [ .returned (toTenMm .x) .ok (.axisResult AxisResult.ok.toByte)
  , .begun (toTenMm .y) 34
  , .acted ⟨.getStatus, .moving⟩ 34
  , .acted ⟨.moving .x, true⟩ 34
  , .acted ⟨.setStatus .moving, ()⟩ 34 ] ++ handledMove .y 50 .errLsFar ++
  [.returned (toTenMm .y) .ok (.axisResult AxisResult.errLsFar.toByte)]

def yRefusedLog : List Obs := yRefusedBefore ++ handledMove .x 28 .ok ++ yRefusedAfter

theorem handledPosition_acted (got : Nat) : ∀ o ∈ handledPosition got, o.IsActed :=
  handled_acted _ _ _

theorem handledMove_acted (id : AxisId) (got : Nat) (res : AxisResult) :
    ∀ o ∈ handledMove id got res, o.IsActed :=
  handled_acted _ _ _

theorem acted_cons {log : List Obs} (a : Acted) (got : Nat) (hlog : ∀ o ∈ log, o.IsActed) :
    ∀ o ∈ .acted a got :: log, o.IsActed :=
  List.forall_mem_cons.mpr ⟨⟨a, got, rfl⟩, hlog⟩

theorem acted_nil : ∀ o ∈ ([] : List Obs), o.IsActed := fun _ ho => absurd ho List.not_mem_nil

set_option maxRecDepth 8000 in
/-- The X axis has been started by a call that returns `false`. -/
theorem yRefused_run :
    ∃ l, run HostLink.step (.init yOnFarSwitch) yRefused = some l ∧ l.log = yRefusedLog ∧
      Follows (arduinoMove wholeMm (fun _ => 10) (fun _ => 10)) yRefusedLog false ∧
      SetInMotion yRefusedLog yRefusedLog .x := by
  refine ⟨_, rfl, rfl, ?_, .positive, 150, 94, msgReceiveTimeoutMs, defaultCalibration, 12, ?_, ?_⟩
  · rw [arduinoMove_valid rfl]
    have hpos := acted_cons ⟨.getStatus, .idle⟩ 0 (handledPosition_acted 6)
    have hx := acted_cons ⟨.getStatus, .idle⟩ 12 (handledMove_acted .x 28 .ok)
    have hy := acted_cons ⟨.getStatus, .moving⟩ 34 (acted_cons ⟨.moving .x, true⟩ 34
      (acted_cons ⟨.setStatus .moving, ()⟩ 34 (handledMove_acted .y 50 .errLsFar)))
    exact .call _ _ [] _ _ 0 .ok _ _ acted_nil hpos (.call _ _ [] _ _ 12 .ok _ _ acted_nil hx
      (.call _ _ [] _ _ 34 .ok _ _ acted_nil hy (.ret _ [] acted_nil)))
  · simp [yRefusedLog, yRefusedBefore, begins, toTenMm]
  · have hinfix : handledMove .x 28 .ok <:+: yRefusedLog := ⟨yRefusedBefore, yRefusedAfter, rfl⟩
    rw [HostCall.ofBytes_move]
    exact hinfix.filterMap _

/-- The outcome of the call in which the Y axis refuses. -/
theorem arduino_move_outcome_refused :
    ∃ l, run HostLink.step (.init yOnFarSwitch) yRefused = some l ∧
      ∃ cur res value, BothIssued wholeMm (fun _ => 10) (fun _ => 10) l.log [] yRefusedLog false
        cur res value := by
  obtain ⟨l, hrun, hlog, hmove, hx⟩ := yRefused_run
  have hsplit : l.log = [] ++ yRefusedLog ++ [] := by rw [hlog, List.nil_append, List.append_nil]
  obtain ⟨houtcome, -⟩ := arduino_move_outcome wholeMm (fun _ => 10) (fun _ => 10) yOnFarSwitch
    yRefused l hrun [] yRefusedLog [] false hsplit hmove
  rcases houtcome with ⟨-, -, hnone, -⟩ | ⟨-, hissued⟩
  · rw [hlog] at hnone
    exact absurd hx (hnone .x)
  · exact ⟨l, hrun, hissued⟩

/-- Both axes are to go to 20 mm. -/
def toTwentyMm (id : AxisId) : HostCall := .move id .positive 150 187 msgReceiveTimeoutMs

/-- Neither side waits any longer. -/
def bothTimeOut : List LinkEvent := [.host .timeout, .controller .timeout]

/-- A readout of the position and the MOVEs to 10 mm time out; so the MOVEs to 20 mm find their
responses. -/
def lateResponses : List LinkEvent :=
  hostSends (.getPosition msgReceiveTimeoutMs) ++ controllerServes 1 0 4 ++ bothTimeOut ++
    hostSends (.getPosition msgReceiveTimeoutMs) ++ hostReads 8 ++ controllerServes 1 0 4 ++
    controllerSteps 6 .deliver ++
    hostSends (toTenMm .x) ++ controllerServes 1 10 4 ++ bothTimeOut ++
    hostSends (toTenMm .y) ++ controllerServes 3 10 4 ++ bothTimeOut ++
    hostSends (.getPosition msgReceiveTimeoutMs) ++ hostReads 8 ++
    hostSends (toTwentyMm .x) ++ hostReads 1 ++ hostSends (toTwentyMm .y) ++ hostReads 1

/-- What is observed before the second `arduino_move`. -/
def lateBefore : List Obs :=
  .begun (.getPosition msgReceiveTimeoutMs) 0 :: .acted ⟨.getStatus, .idle⟩ 0 ::
    handledPosition 6 ++
  [ .returned (.getPosition msgReceiveTimeoutMs) .errNoMsg .none
  , .begun (.getPosition msgReceiveTimeoutMs) 6
  , .returned (.getPosition msgReceiveTimeoutMs) .ok (.position ⟨0, 0⟩)
  , .acted ⟨.getStatus, .idle⟩ 6 ] ++ handledPosition 12 ++
  [ .begun (toTenMm .x) 18
  , .acted ⟨.getStatus, .idle⟩ 18 ] ++ handledMove .x 34 .ok ++
  [ .returned (toTenMm .x) .errNoMsg .none
  , .begun (toTenMm .y) 34
  , .acted ⟨.getStatus, .moving⟩ 34
  , .acted ⟨.moving .x, true⟩ 34
  , .acted ⟨.setStatus .moving, ()⟩ 34 ] ++ handledMove .y 50 .ok ++
  [.returned (toTenMm .y) .errNoMsg .none]

/-- What is observed of the second `arduino_move`. -/
def lateSeg : List Obs :=
  [ .begun (.getPosition msgReceiveTimeoutMs) 50
  , .returned (.getPosition msgReceiveTimeoutMs) .ok (.position ⟨0, 0⟩)
  , .begun (toTwentyMm .x) 62
  , .returned (toTwentyMm .x) .ok (.axisResult AxisResult.ok.toByte)
  , .begun (toTwentyMm .y) 84
  , .returned (toTwentyMm .y) .ok (.axisResult AxisResult.ok.toByte) ]

/-- A request that has not been read sets nothing in motion. -/
theorem not_setInMotion_of_unread {log seg : List Obs} {n : Nat}
    (hread : ∀ x ∈ performed log, x.2 ≤ n) (hsent : ∀ x ∈ begins seg, n ≤ x.2) (id : AxisId) :
    ¬SetInMotion log seg id := by
  rintro ⟨dir, velHold, distCounts, timeoutMs, cal, sent, hmem, hperformed⟩
  rw [performed_handled] at hperformed
  have hend := hread _ (hperformed.subset List.mem_cons_self)
  have hbegun := hsent _ hmem
  have hlen : 0 < (HostCall.move id dir velHold distCounts timeoutMs).request.frame.length :=
    Nat.succ_pos _
  have hlast : sent + (HostCall.move id dir velHold distCounts timeoutMs).request.frame.length ≤ n :=
    hend
  omega

set_option maxRecDepth 8000 in
/-- No axis has been started by a call that returns `true`. -/
theorem lateResponses_run :
    ∃ l, run HostLink.step (.init (.init defaultCalibration)) lateResponses = some l ∧
      l.log = lateBefore ++ lateSeg ∧
      Follows (arduinoMove wholeMm (fun _ => 20) (fun _ => 10)) lateSeg true ∧
      ∀ id, ¬SetInMotion (lateBefore ++ lateSeg) lateSeg id := by
  have hread : ∀ x ∈ performed (lateBefore ++ lateSeg), x.2 ≤ 50 := by decide
  have hsent : ∀ x ∈ begins lateSeg, 50 ≤ x.2 := by decide
  refine ⟨_, rfl, rfl, ?_, not_setInMotion_of_unread hread hsent⟩
  rw [arduinoMove_valid rfl]
  exact .call _ _ [] [] _ 50 .ok _ _ acted_nil acted_nil
    (.call _ _ [] [] _ 62 .ok _ _ acted_nil acted_nil
      (.call _ _ [] [] _ 84 .ok _ _ acted_nil acted_nil (.ret _ [] acted_nil)))

/-- **A move of both axes is not all or nothing**: `arduino_move` returns `false` although it has
set the X axis in motion, as the Y axis stands on its far switch; and it returns `true` although
its MOVEs have not been read, after calls that have timed out. -/
theorem move_not_all_or_nothing :
    (∃ l, run HostLink.step (.init yOnFarSwitch) yRefused = some l ∧
      Follows (arduinoMove wholeMm (fun _ => 10) (fun _ => 10)) l.log false ∧
      SetInMotion l.log l.log .x) ∧
    (∃ l, run HostLink.step (.init (.init defaultCalibration)) lateResponses = some l ∧
      l.log = lateBefore ++ lateSeg ∧
      Follows (arduinoMove wholeMm (fun _ => 20) (fun _ => 10)) lateSeg true ∧
      ∀ id, ¬SetInMotion l.log lateSeg id) := by
  obtain ⟨l, hrun, hlog, hmove, hx⟩ := yRefused_run
  obtain ⟨l', hrun', hlog', hmove', hnone⟩ := lateResponses_run
  rw [← hlog] at hmove hx
  rw [← hlog'] at hnone
  exact ⟨⟨l, hrun, hmove, hx⟩, l', hrun', hlog', hmove', hnone⟩

end MpmtTestStand.Ports
