import MpmtTestStand.Ports.LinkHistory
import MpmtTestStand.Ports.ServiceEnd

/-!
# The moments of a session

Where in a session something has happened that the log tells of: the operation of the
controller (`HostLink.acted_at`), the start of a call (`HostLink.begun_at`), and the
service of a call that has returned its response (`HostLink.served_at`).
-/

namespace MpmtTestStand.Ports

open MpmtTestStand.Verified
open MpmtTestStand.Verified.Run
open MPMTTestStand

/-! ## Calls that command the axes -/

/-- The calls that start an axis. -/
def HostCall.Starts : HostCall → Prop
  | .home => True
  | .move _ _ _ _ _ => True
  | _ => False

/-- The calls that start or stop an axis. -/
def HostCall.Commands : HostCall → Prop
  | .stop => True
  | c => c.Starts

/-- The message starts no axis. -/
def StartsNone (p : Packet) : Prop := p.id ≠ msgIdHome ∧ p.id ≠ msgIdMove

instance (p : Packet) : Decidable (StartsNone p) := by
  unfold StartsNone
  infer_instance

theorem HostCall.commands_iff (c : HostCall) : Consequential c.request.id ↔ c.Commands := by
  cases c with
  | home => exact iff_of_true (.inl rfl) trivial
  | move => exact iff_of_true (.inr (.inl rfl)) trivial
  | stop => exact iff_of_true (.inr (.inr rfl)) trivial
  | ping => exact iff_of_false (show ¬Consequential msgIdPing by decide) id
  | echo | linkCheck => exact iff_of_false (show ¬Consequential msgIdEcho by decide) id
  | getStatus => exact iff_of_false (show ¬Consequential msgIdGetStatus by decide) id
  | getPosition => exact iff_of_false (show ¬Consequential msgIdGetPosition by decide) id
  | getAxisState => exact iff_of_false (show ¬Consequential msgIdGetAxisState by decide) id
  | getTemp => exact iff_of_false (show ¬Consequential msgIdGetTemp by decide) id
  | calibrate => exact iff_of_false (show ¬Consequential msgIdCalibrate by decide) id

theorem HostCall.startsNone {c : HostCall} (h : ¬c.Starts) : StartsNone c.request := by
  by_cases hcommands : c.Commands
  · cases c with
    | home | move => exact absurd trivial h
    | stop => exact show StartsNone (.basic msgIdStop) by decide
    | _ => exact hcommands.elim
  · have hid := mt c.commands_iff.mp hcommands
    simp only [Consequential, not_or] at hid
    exact ⟨hid.1, hid.2.1⟩

/-- What a log requests comes from the calls that begin in it. -/
theorem requests_forall {P : Packet → Prop} {log : List Obs}
    (h : ∀ c sent, .begun c sent ∈ log → P c.request) : ∀ x ∈ requests log, P x.1 := by
  intro x hx
  obtain ⟨o, ho, hrequest⟩ := List.mem_filterMap.mp hx
  cases o with
  | begun c sent =>
      obtain rfl := Option.some.inj hrequest
      exact h c sent ho
  | _ => cases hrequest

/-! ## Operations -/

section Moments

variable {conf : Config} {cal : Calibration} {base : List Acted} {stand : TestStand}
  {s l : HostLink} {events : List LinkEvent} {pre post : List Obs}

theorem HostLink.log_grows (hrun : run HostLink.step s events = some l) :
    ∃ new, l.log = s.log ++ new :=
  run_log_grows HostLink.step HostLink.log (fun _ _ _ hstep => HostLink.step_log hstep) hrun

/-- **The moment of an operation.** -/
theorem HostLink.acted_at {a : Acted} {n : Nat}
    (hrun : run HostLink.step s events = some l)
    (hlog : l.log = s.log ++ (pre ++ .acted a n :: post)) :
    ∃ earlier around later q q', events = earlier ++ .act around :: later ∧
      run HostLink.step s earlier = some q ∧ q.step (.act around) = some q' ∧
      run HostLink.step q' later = some l ∧ q.log = s.log ++ pre ∧
      q'.log = s.log ++ (pre ++ [.acted a n]) := by
  obtain ⟨earlier, e, later, q, q', old, new, rest, rfl, hearlier, hstep, hlater, hq, rfl, hq'⟩ :=
    run_logged HostLink.step HostLink.log (fun _ _ _ hstep => HostLink.step_log hstep) hrun hlog
  have hresults : ∀ (node : Node noOps (SerialResult × HostValue)) (c : HostCall),
      .acted a n ∉ node.results c := by
    intro node c hmem
    unfold Node.results at hmem
    split at hmem <;> simp at hmem
  have hmem : ∀ {more}, q'.log = q.log ++ more → .acted a n ∈ more := by
    intro more hmore
    rw [List.append_cancel_left (hmore.symm.trans hq')]
    simp
  have hnone : q'.log ≠ q.log := by
    rw [hq']
    simp
  cases HostLink.step_cases hstep with
  | call c res hret =>
      rcases List.mem_cons.mp (hmem rfl) with hbegun | hres
      · cases hbegun
      · exact absurd hres (hresults _ _)
  | host e host out heard hparty => exact absurd (hmem rfl) (hresults _ _)
  | controller | loop | interrupt => exact absurd rfl hnone
  | act around controller a' hact =>
      have hone : [.acted a' q.host.out.got] = new ++ .acted a n :: rest :=
        List.append_cancel_left hq'
      cases new with
      | nil =>
          obtain ⟨hhead, -⟩ := List.cons.inj hone
          refine ⟨earlier, around, later, q, _, rfl, hearlier, hstep, hlater, ?_, ?_⟩
          · rw [hq, List.append_nil]
          · rw [hhead, hq, List.append_nil, List.append_assoc]
      | cons o new => simp at hone

/-- **The moment at which a call begins.** -/
theorem HostLink.begun_at {c : HostCall} {sent : Nat}
    (hrun : run HostLink.step s events = some l)
    (hlog : l.log = s.log ++ (pre ++ .begun c sent :: post)) :
    ∃ earlier q, run HostLink.step s earlier = some q ∧ q.log = s.log ++ pre := by
  obtain ⟨earlier, e, later, q, q', old, new, rest, rfl, hearlier, hstep, -, hq, rfl, hq'⟩ :=
    run_logged HostLink.step HostLink.log (fun _ _ _ hstep => HostLink.step_log hstep) hrun hlog
  have hresults : ∀ (node : Node noOps (SerialResult × HostValue)) (c' : HostCall),
      .begun c sent ∉ node.results c' := by
    intro node c' hmem
    unfold Node.results at hmem
    split at hmem <;> simp at hmem
  have hmore : ∀ {more}, q'.log = q.log ++ more → more = new ++ .begun c sent :: rest :=
    fun hmore => List.append_cancel_left (hmore.symm.trans hq')
  obtain rfl : new = [] := by
    cases HostLink.step_cases hstep with
    | call c' res hret =>
        have hone := hmore rfl
        cases new with
        | nil => rfl
        | cons o new =>
            refine absurd ?_ (hresults (Node.resume q.host.node.rx c'.prog) c')
            rw [(List.cons.inj hone).2]
            exact List.mem_append_right _ (List.mem_cons_self ..)
    | host e host out heard hparty =>
        refine absurd ?_ (hresults host.node q.call)
        rw [hmore rfl]
        exact List.mem_append_right _ (List.mem_cons_self ..)
    | act around controller a hact =>
        have hmem : .begun c sent ∈ [Obs.acted a q.host.out.got] := by
          rw [hmore rfl]
          simp
        simp at hmem
    | controller | loop | interrupt =>
        have hnone := hmore (List.append_nil _).symm
        simp at hnone
  exact ⟨earlier, q, hearlier, by rw [hq, List.append_nil]⟩

/-- What an operation does to the controller and its history. -/
theorem Recounted.act {m : Recorder} {around : Outside} {q q' : HostLink} {a : Acted} {n : Nat}
    (h : Recounted conf cal base q m) (hstep : q.step (.act around) = some q')
    (hlog : q'.log = q.log ++ [.acted a n]) :
    ∃ m', Recounted conf cal base q' m' ∧
      m'.history = ⟨q.controller.stand, .acted a⟩ :: m.history ∧
      Happens q.controller.stand (.acted a) q'.controller.stand := by
  obtain ⟨hreached, hrecounts⟩ := h
  rcases hrecounts.step hstep with ⟨h', -⟩ | ⟨ce, m', hm', h', hhistory⟩
  · have hacted := h'.acted
    rw [hlog, performed_append, hrecounts.acted] at hacted
    simp [performed] at hacted
  · have hreached' := hreached.step ce hm'
    have hacted := h'.acted
    rw [hlog, performed_append, List.map_append, List.reverse_append, List.append_assoc,
      ← hrecounts.acted] at hacted
    have hacted : actedOps m'.history = a :: actedOps m.history := hacted
    rcases hhistory with ⟨hsame, -⟩ | ⟨ev, hcauses, hcons⟩
    · rw [hsame] at hacted
      simp at hacted
    · cases hcauses with
      | act _ a' =>
          rw [hcons] at hacted
          obtain ⟨rfl, -⟩ := List.cons.inj (show a' :: actedOps m.history = _ from hacted)
          refine ⟨m', ⟨hreached', h'⟩, ?_, ?_⟩
          · rw [hcons, hrecounts.controller]
          · have hleads := hreached'.leads
            rw [hcons] at hleads
            have hhappens := hleads.2
            rwa [hrecounts.controller, h'.controller] at hhappens

/-! ## Calls with a response -/

/-- What a call with a response has seen of the controller: since it began, its request was
dispatched and `ops` were performed for it, and no other message has been dispatched since. -/
structure ServedAt (pre front back : List Obs) (c : HostCall) (sent : Nat) (ops : List Acted) :
    Prop where
  log_eq : pre = front ++ handled c.request (c.requestEnd sent) ops ++ back
  /-- the last call that has begun -/
  call : ∃ start mid, front = start ++ .begun c sent :: mid ∧
    ∀ o ∈ mid ++ back, ∃ a got, o = .acted a got
  issued : requests pre = requests front
  settled : requests pre = dispatches pre
  quiet : dispatches back = []

section ServedAt

variable {front back : List Obs} {c : HostCall} {sent : Nat} {ops : List Acted}

theorem ServedAt.begun (h : ServedAt pre front back c sent ops) :
    ∃ mid, Underway front c sent mid := by
  obtain ⟨start, mid, hfront, hacted⟩ := h.call
  exact ⟨mid, ⟨start, hfront⟩, fun o ho => hacted o (List.mem_append_left _ ho)⟩

/-- All that the log says since the call has begun. -/
theorem ServedAt.since (h : ServedAt pre front back c sent ops) :
    ∃ start mid, front = start ++ .begun c sent :: mid ∧
      pre = start ++ .begun c sent ::
        (mid ++ handled c.request (c.requestEnd sent) ops ++ back) ∧
      ∀ o ∈ mid ++ handled c.request (c.requestEnd sent) ops ++ back,
        ∃ a got, o = .acted a got := by
  obtain ⟨start, mid, hfront, hacted⟩ := h.call
  refine ⟨start, mid, hfront, by simp [h.log_eq, hfront], fun o ho => ?_⟩
  rcases List.mem_append.mp ho with ho | ho
  · rcases List.mem_append.mp ho with ho | ho
    · exact hacted o (List.mem_append_left _ ho)
    · exact handled_acted _ _ _ o ho
  · exact hacted o (List.mem_append_right _ ho)

end ServedAt

/-- The last entry of a list in order. -/
private theorem last_unique {xs front before after : List (Packet × Nat)} {x y : Packet × Nat}
    (h : (xs.map Prod.snd).Pairwise (· < ·)) (hlast : xs = front ++ [x])
    (hsplit : xs = before ++ y :: after) (hxy : y.2 = x.2) : after = [] := by
  rcases List.eq_nil_or_concat after with rfl | ⟨after, z, rfl⟩
  · rfl
  · have hends : front ++ [x] = (before ++ y :: after) ++ [z] := by
      rw [← hlast, hsplit]
      simp
    obtain ⟨-, hz⟩ := List.append_inj' hends rfl
    obtain rfl : x = z := (List.cons.inj hz).1
    rw [hsplit, List.map_append, List.map_cons] at h
    have hlt : y.2 < x.2 := List.rel_of_pairwise_cons (List.pairwise_append.mp h).2.1
      (List.mem_map_of_mem (by simp))
    omega

/-- **The moment at which a call was served.** -/
theorem HostLink.served_at {c : HostCall} {v : HostValue}
    (hrun : run HostLink.step (.init stand) events = some l)
    (hlog : l.log = pre ++ .returned c .ok v :: post) (hfine : Fine pre)
    (hresponse : c.response ≠ none) :
    ∃ front back sent ops, ServedAt pre front back c sent ops ∧ Computes c ops v := by
  obtain ⟨earlier, later, l1, pt, leaving, -, hrun1, -, hl1, hv, hplaced, hclear⟩ :=
    HostLink.returned hrun hlog hfine hresponse
  have hsettled := HostLink.returned_settled hrun hlog hfine hresponse
  obtain ⟨sent, mid, hunderway, hserved⟩ := hv
  obtain ⟨ops, ⟨before, after, hmid⟩, hcomputes⟩ := hserved.resolve_left hresponse
  obtain ⟨front, hlast⟩ := hunderway.requests
  obtain ⟨pre0, hpre⟩ := hunderway.log_eq
  have hincreasing := HostLink.dispatchEnds_increasing hrun1
  rw [hl1, ← dispatches_snd, dispatches_returned] at hincreasing
  have hacted : ∀ o ∈ before ++ after, ∃ a got, o = Obs.acted a got := by
    intro o ho
    refine hunderway.acted o ?_
    rw [hmid]
    rcases List.mem_append.mp ho with ho | ho <;> simp [ho]
  have hsplit : pre = (pre0 ++ .begun c sent :: before) ++
      handled c.request (c.requestEnd sent) ops ++ after := by
    rw [hpre, hmid]
    simp
  have hdispatches : dispatches pre = dispatches (pre0 ++ .begun c sent :: before) ++
      (c.request, c.requestEnd sent) ::
        dispatches (ops.map (Obs.acted · (c.requestEnd sent)) ++ after) := by
    rw [hsplit, List.append_assoc, dispatches_append]
    rfl
  have hnone := last_unique hincreasing (hsettled ▸ hlast) hdispatches rfl
  have hback : dispatches after = [] := by
    rw [dispatches_append] at hnone
    exact (List.append_eq_nil_iff.mp hnone).2
  have hissued : requests pre = requests (pre0 ++ .begun c sent :: before) := by
    have hops : requests (handled c.request (c.requestEnd sent) ops) = [] :=
      requests_acted (handled_acted _ _ _)
    have hafter : requests after = [] := requests_acted fun o ho => hacted o (by simp [ho])
    rw [hsplit, requests_append, requests_append, hops, hafter, List.append_nil, List.append_nil]
  exact ⟨_, after, sent, ops,
    ⟨hsplit, ⟨pre0, before, rfl, hacted⟩, hissued, hsettled, hback⟩, hcomputes⟩

end Moments

end MpmtTestStand.Ports
