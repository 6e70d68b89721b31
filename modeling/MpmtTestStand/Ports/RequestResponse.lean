import MpmtTestStand.Ports.UnreadResponse

/-!
# Requests and their responses

Without faults every call succeeds, and returns what the controller computed
for it (`fault_free`).  With timeouts a response can outlive the call that it
belongs to and be taken for that of the next one (`stale_result`); but until a
call of the host has failed, every response is the right one
(`response_of_request`), whatever timeouts fire at the controller.
-/

namespace MpmtTestStand.Ports

open MpmtTestStand.Verified
open MpmtTestStand.Verified.Run
open MPMTTestStand

/-! ## The log -/

/-- Every successful call after a history `Good` is fulfilled. -/
def Answered (good : List Obs → Prop) (log : List Obs) : Prop :=
  ∀ pre c v post, log = pre ++ .returned c .ok v :: post → good pre → Fulfilled pre c v

section Answered

variable {good : List Obs → Prop} {log new : List Obs}

/-- Nothing has returned. -/
theorem Answered.append (h : Answered good log) (hnew : ∀ o ∈ new, ∀ c v, o ≠ .returned c .ok v) :
    Answered good (log ++ new) := by
  intro pre c v post hsplit hgood
  rcases split_append hsplit with ⟨mid, hold, -⟩ | ⟨mid, rfl, rfl⟩
  · exact h pre c v mid hold hgood
  · exact absurd rfl (hnew _ (by simp) c v)

/-- The steps of the controller return nothing. -/
theorem not_returned (hnew : ∀ o ∈ new, ∃ a got, o = Obs.acted a got) :
    ∀ o ∈ new, ∀ c res v, o ≠ .returned c res v := by
  intro o ho c res v heq
  obtain ⟨a, got, rfl⟩ := hnew o ho
  cases heq

/-- A call has returned. -/
theorem Answered.returned {c : HostCall} {v : HostValue} (h : Answered good log)
    (hv : Fulfilled log c v) : Answered good (log ++ [.returned c .ok v]) := by
  intro pre c' v' post hsplit hgood
  rcases split_append hsplit with ⟨mid, hold, -⟩ | ⟨mid, rfl, hnew⟩
  · exact h pre c' v' mid hold hgood
  · cases mid with
    | nil =>
        obtain ⟨hhead, -⟩ := List.cons.inj hnew
        obtain ⟨rfl, -, rfl⟩ := Obs.returned.inj hhead
        rw [List.append_nil]
        exact hv
    | cons o mid => simp at hnew

/-- After a history that can no more become `good`, anything may happen. -/
theorem Answered.spoiled (h : Answered good log) (hspoiled : ∀ mid, ¬good (log ++ mid)) :
    Answered good (log ++ new) := by
  intro pre c v post hsplit hgood
  rcases split_append hsplit with ⟨mid, hold, -⟩ | ⟨mid, rfl, -⟩
  · exact h pre c v mid hold hgood
  · exact absurd hgood (hspoiled mid)

end Answered

/-! ## Without faults -/

/-- The calls whose response, if any, is sent by the controller and read by the
host: all but a bare ECHO and `get_axis_state`. -/
def HostCall.Regular : HostCall → Prop
  | .echo _ _ => False
  | .getAxisState _ => False
  | _ => True

/-- No timeout fires, and only regular calls are made. -/
def LinkEvent.FaultFree : LinkEvent → Prop
  | .call c => c.Regular
  | .host e => e ≠ .timeout
  | .controller e => e ≠ .timeout
  | _ => True

/-- No call is outstanding, the controller is polling and nothing is in
flight. -/
structure HostLink.Quiescent (l : HostLink) : Prop where
  host : ∃ res, l.host.node.prog = .ret res
  controller : ∃ k, l.controller.node.prog = .op .checkForMessage k
  leaving : l.host.out.queue = []
  coming : l.out.queue = []

/-- The transport is at `MSG_SEG_START`, with no message in progress. -/
structure Receiver.AtStart (rx : Receiver) : Prop where
  segment : rx.transport.pendingMessage.currentSegment = .segStart
  idle : rx.transport.msgInProgress = false

/-- Nothing of a message has been read. -/
theorem Partial.atStart {rx : Receiver} (h : Partial rx []) : rx.AtStart where
  segment := h.start_iff.1.mpr rfl
  idle := h.start_iff.2.mpr rfl

/-- The invariant of a run without faults. -/
structure HostLink.Regular (l : HostLink) : Prop where
  in_step : ∃ unwritten pt leaving coming, InStep l unwritten pt leaving coming
  call : ∀ data fits, l.call ≠ .echo data fits
  succeeds : ∀ c res v, .returned c res v ∈ l.log → res = .ok
  answered : Answered (fun _ => True) l.log

section Regular

variable {l l' : HostLink} {unwritten : List UInt8} {pt : Point}
  {leaving coming : List (Packet × Nat)}

/-- Nothing returns. -/
theorem HostLink.Regular.goes {new : List Obs} (h : l.Regular)
    (hin : InStep l' unwritten pt leaving coming) (hlog : l'.log = l.log ++ new)
    (hnew : ∀ o ∈ new, ∀ c res v, o ≠ .returned c res v)
    (hcall : ∀ data fits, l'.call ≠ .echo data fits) : l'.Regular where
  in_step := ⟨_, _, _, _, hin⟩
  call := hcall
  succeeds c res v hmem := by
    rw [hlog] at hmem
    rcases List.mem_append.mp hmem with hmem | hmem
    · exact h.succeeds c res v hmem
    · exact absurd rfl (hnew _ hmem c res v)
  answered := by
    rw [hlog]
    exact h.answered.append fun o ho c v => hnew o ho c .ok v

/-- A call succeeds. -/
theorem HostLink.Regular.returns {v : HostValue} (h : l.Regular)
    (hin : InStep l' unwritten pt leaving coming)
    (hlog : l'.log = l.log ++ [.returned l.call .ok v]) (hv : Fulfilled l.log l.call v)
    (hcall : l'.call = l.call) : l'.Regular where
  in_step := ⟨_, _, _, _, hin⟩
  call := by
    rw [hcall]
    exact h.call
  succeeds c res v' hmem := by
    rw [hlog] at hmem
    rcases List.mem_append.mp hmem with hmem | hmem
    · exact h.succeeds c res v' hmem
    · obtain ⟨-, rfl, -⟩ := Obs.returned.inj (List.mem_singleton.mp hmem)
      rfl
  answered := by
    rw [hlog]
    exact h.answered.returned hv

theorem HostLink.Regular.step {e : LinkEvent} (he : e.FaultFree)
    (hstep : l.step e = some l') (h : l.Regular) : l'.Regular := by
  obtain ⟨unwritten, pt, leaving, coming, hin⟩ := h.in_step
  have hcontroller : (∀ c, e ≠ .call c) → (∀ e', e ≠ .host e') → l'.Regular := by
    intro hcall hhost
    obtain ⟨pt', leaving', coming', new, hin', hlog, hnew, hsame⟩ :=
      hin.controller hcall hhost hstep
    refine h.goes hin' hlog (not_returned hnew) ?_
    rw [hsame]
    exact h.call
  cases e with
  | controller | act | loop | interrupt => exact hcontroller (by simp) (by simp)
  | call c =>
      obtain ⟨⟨unwritten', leaving', hin'⟩, hlog, hcall⟩ := hin.call hstep
      refine h.goes hin' hlog (by simp) fun data fits heq => ?_
      rw [← hcall, heq] at he
      exact he
  | host e =>
      obtain ⟨houtcome, hcall⟩ := hin.host he hstep
      cases houtcome with
      | goes _ _ _ _ hlog hin' =>
          rw [← List.append_nil l.log] at hlog
          refine h.goes hin' hlog (by simp) ?_
          rw [hcall]
          exact h.call
      | returns _ _ v hlog hv hin' => exact h.returns hin' hlog hv hcall
      | echoed _ _ _ _ _ _ _ hecho =>
          obtain ⟨data, fits, heq⟩ := hecho
          exact absurd heq (h.call data fits)

end Regular

theorem HostLink.Regular.init (stand : TestStand) : (HostLink.init stand).Regular where
  in_step := ⟨_, _, _, _, InStep.init stand⟩
  call _ _ := nofun
  succeeds _ _ _ hmem := by simp [HostLink.init] at hmem
  answered pre c v post hsplit := by simp [HostLink.init] at hsplit

/-- A call that may still send does not poll. -/
theorem Activity.prog_ne_poll {a : Activity} (ha : a.sending = true)
    (k : SerialResult → StandProg Phase) (k' : Bool → StandProg Phase) :
    a.prog >>= k ≠ .op .checkForMessage k' := by
  intro hprog
  cases a with
  | polling | receiving | acking => simp [Activity.sending] at ha
  | writing | waiting => cases hprog

/-- Where a quiescent controller is. -/
theorem MPMTTestStand.At.of_polling {rx : Receiver} {pt : Point} {prog : StandProg Phase}
    {k : Bool → StandProg Phase} (h : At rx pt prog) (hprog : prog = .op .checkForMessage k) :
    pt.owed = [] ∧ pt.unwritten = [] := by
  cases h with
  | between | own | dispatching | handling => cases hprog
  | call hcalls =>
      cases hcalls with
      | poll => exact ⟨rfl, rfl⟩
      | ack => cases hprog
      | ping _ ha => exact absurd hprog (Activity.prog_ne_poll ha _ _)
      | reply _ _ _ _ ha => exact absurd hprog (Activity.prog_ne_poll ha _ _)

/-- **Without faults** every call that returns succeeds with the value that the
controller computed for it; the controller dispatches the requests that the host
has issued, in this order, and all of them by the time that the system comes to
rest, with both transports between two messages. -/
theorem fault_free (stand : TestStand) (events : List LinkEvent) (l : HostLink)
    (hrun : run HostLink.step (.init stand) events = some l)
    (hfault : ∀ e ∈ events, e.FaultFree) :
    (∀ pre c res v post, l.log = pre ++ .returned c res v :: post →
      res = .ok ∧ Fulfilled pre c v) ∧
    dispatched l.log <+: issued l.log ∧
    (l.Quiescent → dispatched l.log = issued l.log ∧
      l.host.node.rx.AtStart ∧ l.controller.node.rx.AtStart) := by
  have hregular : l.Regular := run_invariant HostLink.step LinkEvent.FaultFree
    (fun _ _ _ he hstep h => h.step he hstep) hfault hrun (.init stand)
  obtain ⟨unwritten, pt, leaving, coming, hin⟩ := hregular.in_step
  refine ⟨fun pre c res v post hsplit => ?_, ?_, fun hquiet => ?_⟩
  · obtain rfl := hregular.succeeds c res v (by simp [hsplit])
    exact ⟨rfl, hregular.answered pre c v post hsplit trivial⟩
  · rw [hin.ledger, List.append_assoc]
    exact List.prefix_append _ _
  · obtain ⟨k, hpolling⟩ := hquiet.controller
    obtain ⟨howed, hwritten⟩ := hin.packets.at_point.of_polling hpolling
    obtain ⟨res, hret⟩ := hquiet.host
    obtain ⟨rfl, -, -⟩ := hin.stage.of_ret hret
    have hleaving := hin.packets.leaving
    have hcoming := hin.packets.coming
    rw [hquiet.leaving, List.append_nil] at hleaving
    rw [hquiet.coming, hwritten, List.append_nil] at hcoming
    obtain ⟨rfl, hcontroller⟩ := hleaving.of_nil
    obtain ⟨-, hhost⟩ := hcoming.of_nil
    refine ⟨?_, hhost.atStart, hcontroller.atStart⟩
    rw [hin.ledger, howed]
    simp

/-- Steps of the host in the transport. -/
def hostSteps (n : Nat) (e : PartyEvent) : List LinkEvent := List.replicate n (.host e)

/-- Steps of the controller in the transport. -/
def controllerSteps (n : Nat) (e : PartyEvent) : List LinkEvent :=
  List.replicate n (.controller e)

/-- Operations of the main program, at 20 degrees. -/
def mainSteps (n : Nat) : List LinkEvent :=
  List.replicate n (.act ⟨⟨2000, 2000, 2000, 2000, 2000⟩, .x⟩)

/-- A request with `len` bytes of data is sent and received, and its
acknowledgement is sent. -/
def requestSteps (c : HostCall) (len : Nat) : List LinkEvent :=
  .call c :: hostSteps 7 .wrote ++ .loop :: mainSteps 1 ++
    controllerSteps (6 + len) .deliver ++ controllerSteps 7 .wrote

/-- The host asks for the status, and waits for the answer. -/
def statusAnswered : List LinkEvent :=
  requestSteps (.getStatus 1000) 0 ++ mainSteps 2 ++ controllerSteps 7 .wrote ++
    hostSteps 13 .deliver ++ hostSteps 7 .wrote ++ controllerSteps 6 .deliver ++
    .loop :: mainSteps 1

/-- The log of this. -/
def statusLog : List Obs :=
  [ .begun (.getStatus 1000) 0
  , .acted ⟨.getStatus, .idle⟩ 0
  , .acted ⟨.dispatch (.basic msgIdGetStatus), ()⟩ 6
  , .acted ⟨.getStatus, .idle⟩ 6
  , .returned (.getStatus 1000) .ok (.status 0)
  , .acted ⟨.getStatus, .idle⟩ 12 ]

/-- The X axis is to move, and then the Y axis. -/
def moveX : HostCall := .move .x .positive 1000 2000 1000

def moveY : HostCall := .move .y .positive 1000 2000 1000

/-- The X axis is started by a MOVE, which is answered. -/
def moveAnswered : List LinkEvent :=
  requestSteps moveX 10 ++ mainSteps 4 ++ controllerSteps 7 .wrote ++ hostSteps 13 .deliver ++
    hostSteps 7 .wrote ++ controllerSteps 6 .deliver

/-- The host asks for the status, and then moves the X axis. -/
def statusThenMove : List LinkEvent :=
  statusAnswered ++ controllerSteps 1 .quiet ++ moveAnswered ++ .loop :: mainSteps 3

set_option maxRecDepth 8000 in
/-- The system comes to rest after two calls. -/
theorem fault_free_statusThenMove :
    ∃ l, run HostLink.step (.init (.init defaultCalibration)) statusThenMove = some l ∧
      issued l.log = [.basic msgIdGetStatus, moveX.request] ∧ dispatched l.log = issued l.log ∧
      l.host.node.rx.AtStart ∧ l.controller.node.rx.AtStart := by
  obtain ⟨l, hrun, hissued, hquiet⟩ : ∃ l,
      run HostLink.step (.init (.init defaultCalibration)) statusThenMove = some l ∧
        issued l.log = [.basic msgIdGetStatus, moveX.request] ∧ l.Quiescent :=
    ⟨_, rfl, rfl, ⟨_, rfl⟩, ⟨_, rfl⟩, rfl, rfl⟩
  have hfault : ∀ e ∈ statusThenMove, e.FaultFree := by
    simp [statusThenMove, statusAnswered, moveAnswered, requestSteps, hostSteps, controllerSteps,
      mainSteps, LinkEvent.FaultFree, HostCall.Regular, moveX]
  exact ⟨l, hrun, hissued,
    (fault_free (.init defaultCalibration) statusThenMove l hrun hfault).2.2 hquiet⟩

/-! ## With timeouts -/

/-- No call has failed; but a `get_axis_state`, which is never answered, may have
timed out. -/
def Obs.Fine : Obs → Prop
  | .returned c res _ => res = .ok ∨ (res = .errTimeout ∧ ∃ timeoutMs, c = .getAxisState timeoutMs)
  | _ => True

/-- A history without failures. -/
def Fine (log : List Obs) : Prop := ∀ o ∈ log, o.Fine

theorem fine_append {log new : List Obs} : Fine (log ++ new) ↔ Fine log ∧ Fine new :=
  List.forall_mem_append

/-- A doomed call fails. -/
theorem Fails.not_fine {c : HostCall} {res : SerialResult} {v : HostValue} (h : Fails res) :
    ¬Obs.Fine (.returned c res v) := by
  rintro (rfl | ⟨rfl, -⟩)
  · exact h.ne_ok rfl
  · simp [Fails] at h

/-- Nobody has lost track, or the next call fails. -/
def HostLink.Tracked (l : HostLink) : Prop :=
  (∃ unwritten pt leaving coming, InStep l unwritten pt leaving coming) ∨ Doomed l

/-- The invariant of a run with timeouts. -/
structure HostLink.Matched (l : HostLink) : Prop where
  answered : Answered Fine l.log
  tracked : Fine l.log → l.Tracked

section Matched

variable {l l' : HostLink}

/-- The log only grows. -/
theorem HostLink.step_log {e : LinkEvent} (hstep : l.step e = some l') :
    ∃ new, l'.log = l.log ++ new := by
  cases HostLink.step_cases hstep with
  | call | host | act => exact ⟨_, rfl⟩
  | controller | loop | interrupt => exact ⟨[], (List.append_nil l.log).symm⟩

/-- Once a call has failed, nothing is claimed. -/
theorem HostLink.Matched.spoiled {e : LinkEvent} (h : l.Matched) (hfine : ¬Fine l.log)
    (hstep : l.step e = some l') : l'.Matched := by
  obtain ⟨new, hlog⟩ := HostLink.step_log hstep
  refine ⟨?_, fun hfine' => ?_⟩
  · rw [hlog]
    exact h.answered.spoiled fun mid hmid => hfine (fine_append.mp hmid).1
  · rw [hlog] at hfine'
    exact absurd (fine_append.mp hfine').1 hfine

/-- Nothing returns. -/
theorem HostLink.Matched.goes {new : List Obs} (h : l.Matched) (hlog : l'.log = l.log ++ new)
    (hnew : ∀ o ∈ new, ∀ c res v, o ≠ .returned c res v) (htracked : l'.Tracked) :
    l'.Matched := by
  refine ⟨?_, fun _ => htracked⟩
  rw [hlog]
  exact h.answered.append fun o ho c v => hnew o ho c .ok v

/-- A call succeeds. -/
theorem HostLink.Matched.returns {v : HostValue} (h : l.Matched)
    (hlog : l'.log = l.log ++ [.returned l.call .ok v]) (hv : Fulfilled l.log l.call v)
    (htracked : l'.Tracked) : l'.Matched := by
  refine ⟨?_, fun _ => htracked⟩
  rw [hlog]
  exact h.answered.returned hv

/-- A call fails. -/
theorem HostLink.Matched.fails {c : HostCall} {res : SerialResult} (h : l.Matched)
    (new : List Obs) (hlog : l'.log = l.log ++ (new ++ [.returned c res .none]))
    (hnew : ∀ o ∈ new, ∀ c res v, o ≠ .returned c res v) (hres : res ≠ .ok)
    (htracked : Obs.Fine (.returned c res .none) → l'.Tracked) : l'.Matched := by
  refine ⟨?_, fun hfine => htracked ?_⟩
  · rw [hlog]
    refine h.answered.append fun o ho c' v heq => ?_
    rcases List.mem_append.mp ho with ho | ho
    · exact hnew o ho c' .ok v heq
    · rw [List.mem_singleton.mp ho] at heq
      exact hres (Obs.returned.inj heq).2.1
  · exact hfine _ (by simp [hlog])

/-- From a state in which host and controller are in step. -/
theorem HostLink.Matched.step_in_step {e : LinkEvent} {unwritten : List UInt8} {pt : Point}
    {leaving coming : List (Packet × Nat)} (h : l.Matched)
    (hin : InStep l unwritten pt leaving coming) (hstep : l.step e = some l') : l'.Matched := by
  have hcontroller : (∀ c, e ≠ .call c) → (∀ e', e ≠ .host e') → l'.Matched := by
    intro hcall hhost
    obtain ⟨pt', leaving', coming', new, hin', hlog, hnew, -⟩ :=
      hin.controller hcall hhost hstep
    exact h.goes hlog (not_returned hnew) (.inl ⟨_, _, _, _, hin'⟩)
  cases e with
  | controller | act | loop | interrupt => exact hcontroller (by simp) (by simp)
  | call c =>
      obtain ⟨⟨unwritten', leaving', hin'⟩, hlog, -⟩ := hin.call hstep
      exact h.goes hlog (by simp) (.inl ⟨_, _, _, _, hin'⟩)
  | host e =>
      by_cases he : e = .timeout
      · subst he
        obtain ⟨res, hres, hlog, -, hstays⟩ := hin.timeout hstep
        refine h.fails [] hlog (by simp) hres fun hfine => ?_
        rcases hfine with hok | ⟨htimeout, hstate⟩
        · exact absurd hok hres
        · exact .inl ⟨_, _, _, _, hstays htimeout hstate⟩
      · obtain ⟨houtcome, -⟩ := hin.host he hstep
        cases houtcome with
        | goes _ _ _ _ hlog hin' =>
            rw [← List.append_nil l.log] at hlog
            exact h.goes hlog (by simp) (.inl ⟨_, _, _, _, hin'⟩)
        | returns _ _ v hlog hv hin' => exact h.returns hlog hv (.inl ⟨_, _, _, _, hin'⟩)
        | echoed pt coming sent mid v hlog hv hecho hprog hpackets hserves =>
            -- the response will be taken for an acknowledgement
            have hresponds : Responds l.call.request.id := by
              obtain ⟨data, fits, hcall⟩ := hecho
              rw [hcall]
              exact .inl rfl
            exact h.returns hlog hv (.inr (.of_echoed hpackets (.rest hprog) hserves hresponds))

/-- A doomed call cannot succeed. -/
theorem HostLink.Matched.step_doomed {e : LinkEvent} (h : l.Matched) (hdoomed : Doomed l)
    (hstep : l.step e = some l') : l'.Matched := by
  have hcontroller : (∀ c, e ≠ .call c) → (∀ e', e ≠ .host e') → l'.Matched := by
    intro hcall hhost
    obtain ⟨hdoomed', new, hlog, hnew⟩ := hdoomed.controller hcall hhost hstep
    exact h.goes hlog (not_returned hnew) (.inr hdoomed')
  cases e with
  | controller | act | loop | interrupt => exact hcontroller (by simp) (by simp)
  | call c =>
      obtain ⟨new, hlog, ⟨hdoomed', rfl⟩ | ⟨res, hres, rfl⟩⟩ := hdoomed.call hstep
      · exact h.goes hlog (by simp) (.inr hdoomed')
      · exact h.fails [.begun c l.host.out.sent] hlog (by simp) hres.ne_ok
          fun hfine => absurd hfine hres.not_fine
  | host e =>
      rcases hdoomed.host hstep with ⟨hdoomed', hlog⟩ | ⟨res, hres, hlog⟩
      · rw [← List.append_nil l.log] at hlog
        exact h.goes hlog (by simp) (.inr hdoomed')
      · exact h.fails [] hlog (by simp) hres.ne_ok
          fun hfine => absurd hfine hres.not_fine

theorem HostLink.Matched.step {e : LinkEvent} (hstep : l.step e = some l') (h : l.Matched) :
    l'.Matched := by
  by_cases hfine : Fine l.log
  · rcases h.tracked hfine with ⟨unwritten, pt, leaving, coming, hin⟩ | hdoomed
    · exact h.step_in_step hin hstep
    · exact h.step_doomed hdoomed hstep
  · exact h.spoiled hfine hstep

end Matched

theorem HostLink.Matched.init (stand : TestStand) : (HostLink.init stand).Matched where
  answered pre c v post hsplit := by simp [HostLink.init] at hsplit
  tracked _ := .inl ⟨_, _, _, _, InStep.init stand⟩

/-- **Until a call fails, responses match their requests.**  Timeouts of the
controller may fire at any time.  When a call that waits for a response returns
`SERIAL_OK`, the controller has dispatched this very request since the call
began, and the value is what it computed for it. -/
theorem response_of_request (stand : TestStand) (events : List LinkEvent) (l : HostLink)
    (hrun : run HostLink.step (.init stand) events = some l) (pre post : List Obs)
    (c : HostCall) (v : HostValue) (hlog : l.log = pre ++ .returned c .ok v :: post)
    (hfine : Fine pre) (hresponse : c.response ≠ none) :
    ∃ sent mid, Underway pre c sent mid ∧ Served c sent mid v := by
  have hmatched : l.Matched := run_invariant HostLink.step (fun _ => True)
    (fun _ _ _ _ hstep h => h.step hstep) (fun _ _ => trivial) hrun (.init stand)
  obtain ⟨sent, mid, hunderway, hserved⟩ := hmatched.answered pre c v post hlog hfine
  exact ⟨sent, mid, hunderway, hserved.resolve_left hresponse⟩

/-- The host asks for the status, and the controller gives up waiting for the
acknowledgement of its answer before the host reads anything. -/
def statusDespiteTimeout : List LinkEvent :=
  requestSteps (.getStatus 1000) 0 ++ mainSteps 2 ++ controllerSteps 7 .wrote ++
    .controller .timeout :: hostSteps 13 .deliver ++ hostSteps 7 .wrote

set_option maxRecDepth 2000 in
/-- The host gets the status all the same. -/
theorem response_of_request_status :
    ∃ sent mid,
      Underway
        [ .begun (.getStatus 1000) 0
        , .acted ⟨.getStatus, .idle⟩ 0
        , .acted ⟨.dispatch (.basic msgIdGetStatus), ()⟩ 6
        , .acted ⟨.getStatus, .idle⟩ 6 ] (.getStatus 1000) sent mid ∧
      Served (.getStatus 1000) sent mid (.status Status.idle.toByte) := by
  obtain ⟨l, hrun, hlog⟩ : ∃ l,
      run HostLink.step (.init (.init defaultCalibration)) statusDespiteTimeout = some l ∧
        l.log =
          [ .begun (.getStatus 1000) 0
          , .acted ⟨.getStatus, .idle⟩ 0
          , .acted ⟨.dispatch (.basic msgIdGetStatus), ()⟩ 6
          , .acted ⟨.getStatus, .idle⟩ 6
          , .returned (.getStatus 1000) .ok (.status Status.idle.toByte) ] :=
    ⟨_, rfl, rfl⟩
  exact response_of_request (.init defaultCalibration) statusDespiteTimeout l hrun _ []
    (.getStatus 1000) _ hlog (by simp [Fine, Obs.Fine]) (by simp [HostCall.response])

/-- The acknowledgement of the first MOVE comes too late for the host, which
sends the second one, and finds what the controller has sent for the first. -/
def moveAfterTimeout : List LinkEvent :=
  requestSteps moveX 10 ++ mainSteps 4 ++ controllerSteps 7 .wrote ++
    .host .timeout :: .call moveY :: hostSteps 7 .wrote ++ hostSteps 13 .deliver ++
    hostSteps 7 .wrote

set_option maxRecDepth 4000 in
/-- **The result of an earlier call** is returned as that of the second MOVE,
which the controller has not read a byte of. -/
theorem stale_result :
    ∃ l, run HostLink.step (.init (.init defaultCalibration)) moveAfterTimeout = some l ∧
      l.log = [.begun moveX 0, .acted ⟨.getStatus, .idle⟩ 0] ++
        handled moveX.request 16
          (moveOps ⟨1000, 2000, AxisId.x.toByte, AxisDirection.positive.toByte⟩
            defaultCalibration .ok) ++
        [ .returned moveX .errNoMsg .none
        , .begun moveY 16
        , .returned moveY .ok (.axisResult AxisResult.ok.toByte) ] ∧
      dispatched l.log = [moveX.request] ∧ moveX.request ≠ moveY.request :=
  ⟨_, rfl, rfl, rfl, by decide⟩

end MpmtTestStand.Ports
