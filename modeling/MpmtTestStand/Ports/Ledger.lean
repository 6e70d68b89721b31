import MpmtTestStand.Ports.DispatchOnce
import MpmtTestStand.Ports.RequestResponse
import MpmtTestStand.Verified.Simulation

/-!
# Every request in its place

A request is complete when the host has written a certain number of bytes, and a
message is dispatched when the controller has read a certain number.  `Placed` is
the ledger of both: the requests so far are the dispatches so far, then the message
that the controller has received, then those on their way, each at its place.

By the time that a call with a response returns nothing is on its way any more
(`settled`), so the request and its dispatch are the last ones of the ledger.

## Main results

* `requests_in_place` — requests are dispatched in order, each when its last byte has
  been read, and all of them by the time that a response is returned.
-/

namespace MpmtTestStand.Ports

open MpmtTestStand.Verified
open MpmtTestStand.Verified.Run
open MPMTTestStand

/-! ## The ledger -/

/-- The request of a call that begins, and where it ends. -/
def Obs.request? : Obs → Option (Packet × Nat)
  | .begun c sent => some (c.request, c.requestEnd sent)
  | _ => none

/-- The message that is dispatched, and what had been read. -/
def Obs.dispatch? : Obs → Option (Packet × Nat)
  | .acted a got =>
      match a.op with
      | .dispatch p => some (p, got)
      | _ => none
  | _ => none

/-- The requests of the host. -/
def requests (log : List Obs) : List (Packet × Nat) := log.filterMap Obs.request?

/-- The dispatches of the controller. -/
def dispatches (log : List Obs) : List (Packet × Nat) := log.filterMap Obs.dispatch?

/-- What the controller owes, when it has read `got` bytes. -/
def MPMTTestStand.Point.owedAt (pt : Point) (got : Nat) : List (Packet × Nat) :=
  pt.owed.map (·, got)

theorem requests_append (log new : List Obs) :
    requests (log ++ new) = requests log ++ requests new :=
  List.filterMap_append

theorem dispatches_append (log new : List Obs) :
    dispatches (log ++ new) = dispatches log ++ dispatches new :=
  List.filterMap_append

section Turns

variable {got got' : Nat} {new : List Obs} {pt pt' : Point}
  {leaving leaving' added : List (Packet × Nat)}

theorem requests_acted (hnew : ∀ o ∈ new, ∃ a got, o = Obs.acted a got) : requests new = [] := by
  refine List.filterMap_eq_nil_iff.mpr fun o ho => ?_
  obtain ⟨a, got, rfl⟩ := hnew o ho
  rfl

theorem dispatches_of_ne {a : Acted} (ha : ∀ q, a.op ≠ .dispatch q) :
    dispatches [.acted a got] = [] := by
  have hnone : Obs.dispatch? (.acted a got) = none := by
    cases hop : a.op with
    | dispatch q => exact absurd hop (ha q)
    | _ => simp [Obs.dispatch?, hop]
  simp [dispatches, hnone]

theorem dispatches_returned (log : List Obs) (c : HostCall) (res : SerialResult)
    (v : HostValue) : dispatches (log ++ [.returned c res v]) = dispatches log :=
  (dispatches_append ..).trans (List.append_nil _)

theorem requests_returned (log : List Obs) (c : HostCall) (res : SerialResult) (v : HostValue) :
    requests (log ++ [.returned c res v]) = requests log :=
  (requests_append ..).trans (List.append_nil _)

/-- The message that is owed is dispatched at its place. -/
theorem Performs.placed {p : Packet} {a : Acted} {ops : List Acted} (h : Performs p pt a ops)
    (got : Nat) : pt.owedAt got = dispatches [.acted a got] := by
  cases h with
  | dispatch => rfl
  | handle ops a ha => exact (dispatches_of_ne ha).symm

/-- The controller keeps every message at its place. -/
theorem Turn.placed (hturn : Turn got got' pt leaving new pt' leaving' added) :
    pt.owedAt got ++ wantAck leaving =
      dispatches new ++ pt'.owedAt got' ++ wantAck leaving' := by
  cases hturn with
  | keep _ _ hgot | ack _ _ _ _ hgot | acked _ _ _ hgot =>
      subst hgot
      rfl
  | poll | reply => rfl
  | receive p ps m hid =>
      rw [wantAck_cons_of hid]
      rfl
  | stray p ps hid =>
      rw [wantAck_cons_of_not hid]
      rfl
  | own a ps ha =>
      rw [dispatches_of_ne ha]
      rfl
  | handle p pt a ops ps h | finish p pt a ops ps h | answer p pt a ops q ps m h =>
      rw [h.placed got]
      simp [Point.owedAt, Point.owed]
  | replied =>
      rw [wantAck_cons_of_not (.inl rfl)]
      rfl
  | gaveUp p ops q ps ps' hlost =>
      rcases hlost with rfl | ⟨m, rfl⟩
      · rfl
      · rw [wantAck_cons_of_not (.inl rfl)]
        rfl

end Turns

/-- Host and controller are in step, and every message is at its place. -/
structure Placed (l : HostLink) (unwritten : List UInt8) (pt : Point)
    (leaving coming : List (Packet × Nat)) : Prop where
  in_step : InStep l unwritten pt leaving coming
  ledger : requests l.log = dispatches l.log ++ pt.owedAt l.host.out.got ++ wantAck leaving

/-! ## Steps -/

section Steps

variable {l l' : HostLink} {unwritten : List UInt8} {pt : Point}
  {leaving coming : List (Packet × Nat)}

/-- The controller takes a step. -/
theorem Placed.turn {e : LinkEvent} (h : Placed l unwritten pt leaving coming)
    (hcall : ∀ c, e ≠ .call c) (hhost : ∀ e', e ≠ .host e') (hstep : l.step e = some l') :
    ∃ pt' leaving' coming', Placed l' unwritten pt' leaving' coming' := by
  obtain ⟨pt', leaving', added, new, hturn, hin, hlog, -⟩ := h.in_step.turn hcall hhost hstep
  refine ⟨pt', leaving', _, hin, ?_⟩
  rw [hlog, requests_append, dispatches_append, requests_acted hturn.acted, List.append_nil,
    h.ledger, List.append_assoc, hturn.placed]
  simp only [List.append_assoc]

/-- A step of the host moves no byte out of the channel that the controller reads. -/
theorem HostLink.host_got {e : PartyEvent} (hstep : l.step (.host e) = some l') :
    l'.host.out.got = l.host.out.got := by
  cases HostLink.step_cases hstep with
  | host _ host out heard hparty =>
      obtain ⟨data, hout⟩ := Party.step_push hparty
      show host.out.got = l.host.out.got
      rw [hout]
      rfl

/-- A call begins. -/
theorem Placed.call {c : HostCall} (h : Placed l unwritten pt leaving coming)
    (hstep : l.step (.call c) = some l') :
    ∃ unwritten leaving, Placed l' unwritten pt leaving [] := by
  obtain ⟨⟨unwritten', hin⟩, hlog, -⟩ := h.in_step.begins hstep
  have hgot : l'.host.out.got = l.host.out.got := by
    cases HostLink.step_cases hstep with
    | call => rfl
  refine ⟨unwritten', _, hin, ?_⟩
  have hnone : dispatches [.begun c l.host.out.sent] = [] := rfl
  have hone : requests [.begun c l.host.out.sent] =
      [(c.request, c.requestEnd l.host.out.sent)] := rfl
  rw [hlog, requests_append, dispatches_append, hnone, hone, h.ledger, hgot, wantAck_append,
    wantAck_cons_of c.request_id, wantAck_nil]
  simp

/-- The host takes a step that is no timeout; or the ledger is over with the response to
a bare ECHO. -/
theorem Placed.host {e : PartyEvent} (h : Placed l unwritten pt leaving coming)
    (he : e ≠ .timeout) (hstep : l.step (.host e) = some l') :
    (l'.log = l.log ∧ ∃ unwritten leaving coming, Placed l' unwritten pt leaving coming) ∨
    (∃ v leaving, l'.log = l.log ++ [.returned l.call .ok v] ∧ Fulfilled l.log l.call v ∧
      Placed l' [] pt leaving []) ∨
    (∃ v, l'.log = l.log ++ [.returned l.call .ok v] ∧ Doomed l' ∧
      ∃ data fits, l.call = .echo data fits) := by
  have hgot := l.host_got hstep
  obtain ⟨hhost, -⟩ := h.in_step.host_step he hstep
  cases hhost with
  | goes unwritten leaving coming hwant hlog hin =>
      refine .inl ⟨hlog, unwritten, leaving, coming, hin, ?_⟩
      rw [hlog, hgot, hwant, h.ledger]
  | returns leaving v hwant hlog hv hin =>
      refine .inr (.inl ⟨v, leaving, hlog, hv, hin, ?_⟩)
      rw [hlog, requests_returned, dispatches_returned, hgot, hwant, h.ledger]
  | echoed coming sent mid v hlog hv hecho hprog hpackets hserves =>
      have hresponds : Responds l.call.request.id := by
        obtain ⟨data, fits, hcall⟩ := hecho
        rw [hcall]
        exact .inl rfl
      exact .inr (.inr ⟨v, hlog, .of_echoed hpackets (.rest hprog) hserves hresponds, hecho⟩)

/-- The host gives up on a `get_axis_state`. -/
theorem Placed.timeout (h : Placed l unwritten pt leaving coming)
    (hstep : l.step (.host .timeout) = some l') (hfine : Fine l'.log) :
    Placed l' [] pt leaving [] := by
  obtain ⟨res, hres, hlog, -, hstays⟩ := h.in_step.timeout hstep
  have hlast : Obs.Fine (.returned l.call res .none) := hfine _ (by simp [hlog])
  obtain ⟨rfl, hstate⟩ := hlast.resolve_left hres
  refine ⟨hstays rfl hstate, ?_⟩
  rw [hlog, requests_returned, dispatches_returned, l.host_got hstep, h.ledger]

end Steps

/-! ## Runs -/

/-- Every message is at its place, or no call can succeed any more. -/
def HostLink.IsPlaced (l : HostLink) : Prop :=
  (∃ unwritten pt leaving coming, Placed l unwritten pt leaving coming) ∨ Doomed l

section Runs

variable {l l' : HostLink}

theorem HostLink.IsPlaced.init (stand : TestStand) : (HostLink.init stand).IsPlaced :=
  .inl ⟨_, _, _, _, InStep.init stand, rfl⟩

theorem HostLink.IsPlaced.step {e : LinkEvent} (h : l.IsPlaced) (hstep : l.step e = some l')
    (hfine : Fine l'.log) : l'.IsPlaced := by
  rcases h with ⟨unwritten, pt, leaving, coming, h⟩ | hdoomed
  · have hcontroller : (∀ c, e ≠ .call c) → (∀ e', e ≠ .host e') → l'.IsPlaced :=
      fun hcall hhost =>
        let ⟨pt', leaving', coming', h'⟩ := h.turn hcall hhost hstep
        .inl ⟨_, _, _, _, h'⟩
    cases e with
    | controller | act | loop | interrupt => exact hcontroller (by simp) (by simp)
    | call c =>
        obtain ⟨unwritten', leaving', h'⟩ := h.call hstep
        exact .inl ⟨_, _, _, _, h'⟩
    | host e =>
        by_cases he : e = .timeout
        · subst he
          exact .inl ⟨_, _, _, _, h.timeout hstep hfine⟩
        · rcases h.host he hstep with ⟨-, _, _, _, h'⟩ | ⟨_, _, -, -, h'⟩ | ⟨_, -, hdoomed, -⟩
          · exact .inl ⟨_, _, _, _, h'⟩
          · exact .inl ⟨_, _, _, _, h'⟩
          · exact .inr hdoomed
  · have hcontroller : (∀ c, e ≠ .call c) → (∀ e', e ≠ .host e') → l'.IsPlaced :=
      fun hcall hhost => .inr (hdoomed.controller hcall hhost hstep).1
    cases e with
    | controller | act | loop | interrupt => exact hcontroller (by simp) (by simp)
    | call c =>
        obtain ⟨new, hlog, ⟨hdoomed', -⟩ | ⟨res, hres, rfl⟩⟩ := hdoomed.call hstep
        · exact .inr hdoomed'
        · have hlast : Obs.Fine (.returned c res .none) := hfine _ (by simp [hlog])
          exact absurd hlast hres.not_fine
    | host e =>
        rcases hdoomed.host hstep with ⟨hdoomed', -⟩ | ⟨res, hres, hlog⟩
        · exact .inr hdoomed'
        · have hlast : Obs.Fine (.returned l.call res .none) := hfine _ (by simp [hlog])
          exact absurd hlast hres.not_fine

theorem HostLink.isPlaced {stand : TestStand} {events : List LinkEvent}
    (hrun : run HostLink.step (.init stand) events = some l) (hfine : Fine l.log) :
    l.IsPlaced := by
  let inv (q : HostLink) : Prop := Fine q.log → q.IsPlaced
  have hstep : ∀ q e q', True → q.step e = some q' → inv q → inv q' := by
    intro q e q' _ hstep h hfine
    obtain ⟨new, hlog⟩ := HostLink.step_log hstep
    have hboth := hfine
    rw [hlog, fine_append] at hboth
    exact (h hboth.1).step hstep hfine
  have hinv : inv l := run_invariant HostLink.step (fun _ => True) hstep (fun _ _ => trivial) hrun
    fun _ => .init stand
  exact hinv hfine

/-! ## When a call returns -/

/-- What the host logs is the result of a call that has ended. -/
theorem Node.results_ne_nil {n : Node noOps (SerialResult × HostValue)} {c : HostCall}
    (h : n.results c ≠ []) : ∃ res, n.prog = .ret res := by
  unfold Node.results at h
  split at h
  · exact ⟨_, ‹_›⟩
  · exact absurd rfl h

/-- Only the end of a call logs a result. -/
theorem Placed.returned {e : LinkEvent} {unwritten : List UInt8} {pt : Point}
    {leaving coming : List (Packet × Nat)} {new rest : List Obs} {c : HostCall} {v : HostValue}
    (h : Placed l unwritten pt leaving coming) (hstep : l.step e = some l')
    (hlog : l'.log = l.log ++ (new ++ .returned c .ok v :: rest)) (hresponse : c.response ≠ none) :
    new = [] ∧ rest = [] ∧ Fulfilled l.log c v ∧ (∃ res, l'.host.node.prog = .ret res) ∧
      ∃ leaving, Placed l' [] pt leaving [] := by
  have hsplit : ∀ {more}, l'.log = l.log ++ more → .returned c .ok v ∈ more := by
    intro more hmore
    rw [List.append_cancel_left (hmore.symm.trans hlog)]
    simp
  have hcontroller : (∀ c, e ≠ .call c) → (∀ e', e ≠ .host e') → False := by
    intro hcall hhost
    obtain ⟨_, _, _, more, -, hmore, hacted, -⟩ := h.in_step.controller hcall hhost hstep
    exact not_returned hacted _ (hsplit hmore) _ _ _ rfl
  cases e with
  | controller | act | loop | interrupt => exact (hcontroller (by simp) (by simp)).elim
  | call c' =>
      obtain ⟨-, hmore, -⟩ := h.in_step.call hstep
      have hmem := hsplit hmore
      simp at hmem
  | host e =>
      by_cases he : e = .timeout
      · subst he
        obtain ⟨res, hres, hmore, -⟩ := h.in_step.timeout hstep
        have hmem := hsplit hmore
        simp only [List.mem_singleton, Obs.returned.injEq] at hmem
        exact absurd hmem.2.1.symm hres
      · have hone : ∀ {v'}, l'.log = l.log ++ [.returned l.call .ok v'] →
            new = [] ∧ rest = [] ∧ c = l.call ∧ v = v' := by
          intro v' hmore
          have heq := List.append_cancel_left (hlog.symm.trans hmore)
          cases new with
          | nil =>
              obtain ⟨hhead, hrest⟩ := List.cons.inj heq
              obtain ⟨hc, -, hv⟩ := Obs.returned.inj hhead
              exact ⟨rfl, hrest, hc, hv⟩
          | cons o new => simp at heq
        rcases h.host he hstep with ⟨hsame, -⟩ | ⟨v', leaving', hmore, hv, h'⟩ |
          ⟨v', hmore, -, data, fits, hecho⟩
        · rw [← List.append_nil l.log] at hsame
          exact absurd (hsplit hsame) List.not_mem_nil
        · obtain ⟨rfl, rfl, rfl, rfl⟩ := hone hmore
          refine ⟨rfl, rfl, hv, ?_, leaving', h'⟩
          cases HostLink.step_cases hstep with
          | host _ host out heard hparty =>
              refine Node.results_ne_nil (c := l.call) fun hnone => ?_
              rw [hnone, List.append_nil] at hmore
              simp at hmore
        · obtain ⟨-, -, rfl, -⟩ := hone hmore
          rw [hecho] at hresponse
          exact absurd rfl hresponse

/-- A doomed call does not succeed. -/
theorem Doomed.not_returned {e : LinkEvent} {new rest : List Obs} {c : HostCall} {v : HostValue}
    (h : Doomed l) (hstep : l.step e = some l') :
    l'.log ≠ l.log ++ (new ++ .returned c .ok v :: rest) := by
  intro hlog
  have hsplit : ∀ {more}, l'.log = l.log ++ more → .returned c .ok v ∈ more := by
    intro more hmore
    rw [List.append_cancel_left (hmore.symm.trans hlog)]
    simp
  have hfails : ∀ {c' res}, Fails res → .returned c .ok v ≠ Obs.returned c' res .none := by
    intro c' res hres heq
    exact hres.ne_ok (Obs.returned.inj heq).2.1.symm
  have hcontroller : (∀ c, e ≠ .call c) → (∀ e', e ≠ .host e') → False := by
    intro hcall hhost
    obtain ⟨-, more, hmore, hacted⟩ := h.controller hcall hhost hstep
    exact Ports.not_returned hacted _ (hsplit hmore) _ _ _ rfl
  cases e with
  | controller | act | loop | interrupt => exact hcontroller (by simp) (by simp)
  | call c' =>
      obtain ⟨more, hmore, ⟨-, rfl⟩ | ⟨res, hres, rfl⟩⟩ := h.call hstep
      · exact absurd (hsplit hmore) (by simp)
      · rcases List.mem_cons.mp (hsplit hmore) with hbegun | hmem
        · cases hbegun
        · exact hfails hres (List.mem_singleton.mp hmem)
  | host e =>
      rcases h.host hstep with ⟨-, hmore⟩ | ⟨res, hres, hmore⟩
      · rw [← List.append_nil l.log] at hmore
        exact absurd (hsplit hmore) List.not_mem_nil
      · exact hfails hres (List.mem_singleton.mp (hsplit hmore))

/-- **The moment at which a call returns its response**: it is fulfilled, and every message
is at its place. -/
theorem HostLink.returned {stand : TestStand} {events : List LinkEvent}
    (hrun : run HostLink.step (.init stand) events = some l) {pre post : List Obs} {c : HostCall}
    {v : HostValue} (hlog : l.log = pre ++ .returned c .ok v :: post) (hfine : Fine pre)
    (hresponse : c.response ≠ none) :
    ∃ earlier later l1 pt leaving, events = earlier ++ later ∧
      run HostLink.step (.init stand) earlier = some l1 ∧ run HostLink.step l1 later = some l ∧
      l1.log = pre ++ [.returned c .ok v] ∧ Fulfilled pre c v ∧ Placed l1 [] pt leaving [] ∧
      Clear pt leaving := by
  obtain ⟨earlier, e, later, q, q', old, new, rest, rfl, hearlier, hstep, hlater, hq, rfl, hq'⟩ :=
    run_logged HostLink.step HostLink.log (fun _ _ _ hstep => HostLink.step_log hstep) hrun
      (s := .init stand) hlog
  obtain rfl : q.log = old := hq
  rcases HostLink.isPlaced hearlier (fine_append.mp hfine).1 with
    ⟨unwritten, pt, leaving, coming, h⟩ | hdoomed
  · obtain ⟨rfl, rfl, hv, ⟨res, hret⟩, leaving', h'⟩ := h.returned hstep hq' hresponse
    obtain ⟨-, -, hclear⟩ := h'.in_step.stage.of_ret hret
    refine ⟨earlier ++ [e], later, q', pt, leaving', by simp, ?_, hlater, ?_, ?_, h', hclear⟩
    · rw [run_append, hearlier]
      exact (run_cons ..).trans (by rw [hstep]; rfl)
    · rw [hq', List.append_nil, List.nil_append]
    · rw [List.append_nil]
      exact hv
  · exact absurd hq' (hdoomed.not_returned hstep)

end Runs

/-! ## The ledger when a call returns -/

/-- The request of a call under way is the last one. -/
theorem Underway.requests {log mid : List Obs} {c : HostCall} {sent : Nat}
    (h : Underway log c sent mid) :
    ∃ front, Ports.requests log = front ++ [(c.request, c.requestEnd sent)] := by
  obtain ⟨pre, rfl⟩ := h.log_eq
  refine ⟨Ports.requests pre, ?_⟩
  have hone : Ports.requests (.begun c sent :: mid) =
      (c.request, c.requestEnd sent) :: Ports.requests mid := rfl
  rw [requests_append, hone, requests_acted h.acted]

/-- A call that is answered has a request that gets a response. -/
theorem Computes.responds {c : HostCall} {ops : List Acted} {v : HostValue}
    (h : Computes c ops v) : Responds c.request.id := by
  cases h with
  | linkCheck => exact .inl rfl
  | status => exact .inr (.inl rfl)
  | position => exact .inr (.inr (.inl rfl))
  | temp => exact .inr (.inr (.inr (.inl rfl)))
  | move => exact .inr (.inr (.inr (.inr rfl)))

/-- **Nothing is on its way any more** when the last request was one that is answered. -/
theorem Placed.settled {l : HostLink} {pt : Point} {leaving : List (Packet × Nat)}
    (h : Placed l [] pt leaving []) (hclear : Clear pt leaving) {front : List (Packet × Nat)}
    {p : Packet} {n : Nat} (hlast : requests l.log = front ++ [(p, n)]) (hp : Responds p.id) :
    requests l.log = dispatches l.log := by
  have hledger := h.ledger
  -- the message that is owed would be this one
  have howed : ∀ q, pt.owedAt l.host.out.got ++ wantAck leaving = [(q, l.host.out.got)] →
      Responds q.id := by
    intro q hq
    rw [List.append_assoc, hq, hlast] at hledger
    obtain ⟨-, hlast⟩ := List.append_inj' hledger rfl
    obtain ⟨rfl, -⟩ := Prod.mk.inj (List.cons.inj hlast).1
    exact hp
  cases hclear with
  | idle | lateAck | handling | replying => simpa [Point.owedAt, Point.owed] using hledger
  | acking q _ hsilent | dispatching q hsilent => exact absurd (howed q rfl) hsilent

/-- The ledger of a log at whose end a response is returned. -/
theorem HostLink.returned_settled {l : HostLink} {stand : TestStand} {events : List LinkEvent}
    (hrun : run HostLink.step (.init stand) events = some l) {pre post : List Obs} {c : HostCall}
    {v : HostValue} (hlog : l.log = pre ++ .returned c .ok v :: post) (hfine : Fine pre)
    (hresponse : c.response ≠ none) : requests pre = dispatches pre := by
  obtain ⟨-, -, l1, pt, leaving, -, -, -, hl1, hv, hplaced, hclear⟩ :=
    HostLink.returned hrun hlog hfine hresponse
  obtain ⟨sent, mid, hunderway, hserved⟩ := hv
  obtain ⟨ops, -, hcomputes⟩ := hserved.resolve_left hresponse
  obtain ⟨front, hlast⟩ := hunderway.requests
  have hsettled := hplaced.settled hclear (p := c.request)
    (by rw [hl1, requests_returned]; exact hlast) hcomputes.responds
  rwa [hl1, requests_returned, dispatches_returned] at hsettled

/-! ## Positions -/

theorem stamp_le {start : Nat} {ps : List Packet} {x : Packet × Nat} (hx : x ∈ stamp start ps) :
    x.2 ≤ start + (ps.flatMap Packet.frame).length := by
  induction ps generalizing start with
  | nil => cases hx
  | cons p ps ih =>
      rw [List.flatMap_cons, List.length_append]
      rcases List.mem_cons.mp hx with rfl | hx
      · exact Nat.add_le_add_left (Nat.le_add_right ..) start
      · have hle := ih hx
        omega

/-- A packet on its way is complete with what is on its way. -/
theorem Carries.le {rx : Receiver} {got : Nat} {bytes : List UInt8} {ps : List (Packet × Nat)}
    (h : Carries rx got bytes ps) {x : Packet × Nat} (hx : x ∈ ps) :
    x.2 ≤ got + bytes.length := by
  induction h with
  | @frames tail bytes start ps _ hbytes =>
      have hle := stamp_le hx
      rw [← hbytes, List.length_append] at hle
      omega
  | junk _ _ _ ih =>
      have hle := ih hx
      rw [List.length_cons]
      omega

theorem dispatches_snd (log : List Obs) :
    (dispatches log).map Prod.snd = dispatchEnds (performed log) := by
  unfold dispatches dispatchEnds performed
  rw [List.map_filterMap, List.filterMap_filterMap]
  refine List.filterMap_congr fun o _ => ?_
  cases o with
  | begun | returned => rfl
  | acted a got =>
      obtain ⟨op, res⟩ := a
      cases op <;> rfl

/-- Between two calls, every request has been written. -/
theorem Placed.written {l : HostLink} {pt pt' : Point} {leaving coming : List (Packet × Nat)}
    (h : Placed l [] pt leaving coming) (hordered : l.Ordered pt') {x : Packet × Nat}
    (hx : x ∈ requests l.log) : x.2 ≤ l.host.out.sent := by
  have hsent : l.host.out.sent = l.host.out.got + l.host.out.queue.length := rfl
  rw [h.ledger] at hx
  rcases List.mem_append.mp hx with hx | hx
  · rcases List.mem_append.mp hx with hx | hx
    · have hread := hordered.read x.2 (by rw [← dispatches_snd]; exact List.mem_map_of_mem hx)
      omega
    · obtain ⟨p, -, rfl⟩ := List.mem_map.mp hx
      show l.host.out.got ≤ _
      omega
  · have hleaving := h.in_step.packets.leaving
    rw [List.append_nil] at hleaving
    have hle := hleaving.le (List.mem_of_mem_filter hx)
    omega

/-! ## Runs without a bare ECHO -/

/-- No call has failed, and none was a bare ECHO. -/
structure Plain (log : List Obs) : Prop where
  fine : Fine log
  no_echo : ∀ c v, .returned c .ok v ∈ log → ∀ data fits, c ≠ .echo data fits

theorem Plain.of_append {log new : List Obs} (h : Plain (log ++ new)) : Plain log where
  fine := (fine_append.mp h.fine).1
  no_echo c v hmem := h.no_echo c v (List.mem_append_left _ hmem)

/-- Every message is at its place, and the places of the requests increase. -/
structure HostLink.InPlace (l : HostLink) : Prop where
  placed : ∃ unwritten pt leaving coming, Placed l unwritten pt leaving coming
  ordered : ∃ pt, l.Ordered pt
  increasing : (requests l.log).Pairwise fun x y => x.2 < y.2

section InPlace

variable {l l' : HostLink}

/-- Nothing has been requested. -/
theorem HostLink.InPlace.keep {e : LinkEvent} (h : l.InPlace) (hstep : l.step e = some l')
    (hplaced : ∃ unwritten pt leaving coming, Placed l' unwritten pt leaving coming)
    (hlog : requests l'.log = requests l.log) : l'.InPlace where
  placed := hplaced
  ordered := let ⟨_, hordered⟩ := h.ordered; hordered.step hstep
  increasing := by
    rw [hlog]
    exact h.increasing

theorem HostLink.InPlace.step {e : LinkEvent} (h : l.InPlace) (hstep : l.step e = some l')
    (hplain : Plain l'.log) : l'.InPlace := by
  obtain ⟨unwritten, pt, leaving, coming, hplaced⟩ := h.placed
  have hcontroller : (∀ c, e ≠ .call c) → (∀ e', e ≠ .host e') → l'.InPlace := by
    intro hcall hhost
    obtain ⟨_, _, _, more, -, hmore, hacted, -⟩ :=
      hplaced.in_step.controller hcall hhost hstep
    obtain ⟨pt', leaving', coming', hplaced'⟩ := hplaced.turn hcall hhost hstep
    refine h.keep hstep ⟨_, _, _, _, hplaced'⟩ ?_
    rw [hmore, requests_append, requests_acted hacted, List.append_nil]
  cases e with
  | controller | act | loop | interrupt => exact hcontroller (by simp) (by simp)
  | call c =>
      obtain ⟨unwritten', leaving', hplaced'⟩ := hplaced.call hstep
      obtain ⟨-, hlog, -⟩ := hplaced.in_step.call hstep
      obtain ⟨pt', hordered⟩ := h.ordered
      obtain ⟨res, hret⟩ : ∃ res, l.host.node.prog = .ret res := by
        cases HostLink.step_cases hstep with
        | call _ res hret => exact ⟨res, hret⟩
      obtain ⟨rfl, rfl, -⟩ := hplaced.in_step.stage.of_ret hret
      refine ⟨⟨_, _, _, _, hplaced'⟩, hordered.step hstep, ?_⟩
      rw [hlog, requests_append]
      refine List.pairwise_append.mpr ⟨h.increasing, List.pairwise_singleton .., ?_⟩
      intro x hx y hy
      obtain rfl : y = (c.request, c.requestEnd l.host.out.sent) := List.mem_singleton.mp hy
      have hwritten := hplaced.written hordered hx
      have hframe : 0 < c.request.frame.length := by
        rw [Packet.frame_eq_word]
        exact Nat.succ_pos _
      exact hwritten.trans_lt (Nat.lt_add_of_pos_right hframe)
  | host e =>
      by_cases he : e = .timeout
      · subst he
        obtain ⟨res, -, hlog, -⟩ := hplaced.in_step.timeout hstep
        refine h.keep hstep ⟨_, _, _, _, hplaced.timeout hstep hplain.fine⟩ ?_
        rw [hlog, requests_returned]
      · rcases hplaced.host he hstep with ⟨hlog, _, _, _, h'⟩ | ⟨_, _, hlog, -, h'⟩ |
          ⟨v, hlog, -, data, fits, hecho⟩
        · exact h.keep hstep ⟨_, _, _, _, h'⟩ (congrArg requests hlog)
        · refine h.keep hstep ⟨_, _, _, _, h'⟩ ?_
          rw [hlog, requests_returned]
        · exact absurd hecho (hplain.no_echo l.call v (by simp [hlog]) data fits)

theorem HostLink.InPlace.init (stand : TestStand) : (HostLink.init stand).InPlace where
  placed := ⟨_, _, _, _, InStep.init stand, rfl⟩
  ordered := ⟨_, .init stand⟩
  increasing := .nil

end InPlace

/-- Without a failure and without a bare ECHO every message is at its place. -/
theorem HostLink.inPlace {l : HostLink} {stand : TestStand} {events : List LinkEvent}
    (hrun : run HostLink.step (.init stand) events = some l) (hplain : Plain l.log) :
    l.InPlace := by
  let inv (q : HostLink) : Prop := Plain q.log → q.InPlace
  have hstep : ∀ q e q', True → q.step e = some q' → inv q → inv q' := by
    intro q e q' _ hstep h hplain
    obtain ⟨new, hlog⟩ := HostLink.step_log hstep
    have hbefore := hplain
    rw [hlog] at hbefore
    exact (h hbefore.of_append).step hstep hplain
  have hinv : inv l :=
    run_invariant HostLink.step (fun _ => True) hstep (fun _ _ => trivial) hrun
      fun _ => .init stand
  exact hinv hplain

theorem HostLink.InPlace.dispatched {l : HostLink} (h : l.InPlace) :
    dispatches l.log <+: requests l.log := by
  obtain ⟨unwritten, pt, leaving, coming, hplaced⟩ := h.placed
  rw [hplaced.ledger, List.append_assoc]
  exact List.prefix_append ..

/-- **Requests are dispatched in their places.**  As long as no call has failed, and the
host makes no bare ECHO, whatever timeouts fire at the controller: what has been
dispatched are the first requests, in order, each dispatched when exactly its last byte
has been read, and no two requests end at one place.  By the time that a call with a
response returns, every request has been dispatched. -/
theorem requests_in_place (stand : TestStand) (events : List LinkEvent) (l : HostLink)
    (hrun : run HostLink.step (.init stand) events = some l) (hfine : Fine l.log)
    (hecho : ∀ c v, .returned c .ok v ∈ l.log → ∀ data fits, c ≠ .echo data fits) :
    dispatches l.log <+: requests l.log ∧
    ((requests l.log).Pairwise fun x y => x.2 < y.2) ∧
    ∀ pre c v post, l.log = pre ++ .returned c .ok v :: post → c.response ≠ none →
      requests pre = dispatches pre := by
  have hplace := HostLink.inPlace hrun ⟨hfine, hecho⟩
  refine ⟨hplace.dispatched, hplace.increasing, fun pre c v post hlog hresponse => ?_⟩
  have hpre : Fine pre := fun o ho => hfine o (by simp [hlog, ho])
  exact HostLink.returned_settled hrun hlog hpre hresponse

set_option maxRecDepth 2000 in
/-- One call, with a timeout of the controller. -/
theorem requests_in_place_status :
    ∃ l, run HostLink.step (.init (.init defaultCalibration)) statusDespiteTimeout = some l ∧
      dispatches l.log = [(.basic msgIdGetStatus, 6)] ∧
      dispatches l.log <+: requests l.log ∧
      ((requests l.log).Pairwise fun x y => x.2 < y.2) ∧
      ∀ pre c v post, l.log = pre ++ .returned c .ok v :: post → c.response ≠ none →
        requests pre = dispatches pre := by
  obtain ⟨l, hrun, hlog⟩ : ∃ l,
      run HostLink.step (.init (.init defaultCalibration)) statusDespiteTimeout = some l ∧
        l.log =
          [ .begun (.getStatus 1000) 0
          , .acted ⟨.getStatus, .idle⟩ 0
          , .acted ⟨.dispatch (.basic msgIdGetStatus), ()⟩ 6
          , .acted ⟨.getStatus, .idle⟩ 6
          , .returned (.getStatus 1000) .ok (.status Status.idle.toByte) ] :=
    ⟨_, rfl, rfl⟩
  refine ⟨l, hrun, by rw [hlog]; rfl, ?_⟩
  exact requests_in_place (.init defaultCalibration) statusDespiteTimeout l hrun
    (by simp [hlog, Fine, Obs.Fine]) (by simp [hlog])

end MpmtTestStand.Ports
