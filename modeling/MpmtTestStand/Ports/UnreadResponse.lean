import MpmtTestStand.Ports.Exchange

/-!
# A response that nobody reads

A bare ECHO returns as soon as it is acknowledged, but the controller answers it
all the same.  The host does not read while it is between two calls, so the
answer is the first thing that the next call finds when it waits for its
acknowledgement, and the call fails (`Doomed`).  What the controller makes of
the bytes of that call does not matter.
-/

namespace MpmtTestStand.Ports

open MpmtTestStand.Verified
open MPMTTestStand

/-! ## The invariant -/

/-- The host is between two calls, or sends a request. -/
inductive Asking (l : HostLink) : List UInt8 → Prop
  | rest (hprog : ∃ res, l.host.node.prog = .ret res) : Asking l []
  | sending (a : Activity) (ha : a.sending = true)
      (hprog : l.host.node.prog = a.prog >>= l.call.sent) : Asking l a.unwritten

/-- The controller will send a response, or is writing it. -/
inductive Owes : Point → List (Packet × Nat) → Prop
  | acking (p : Packet) (a : Activity) (h : Responds p.id) : Owes (.acking p a) []
  | dispatching (p : Packet) (h : Responds p.id) : Owes (.dispatching p) []
  | handling (p : Packet) (ops : List Acted) (h : Responds p.id) : Owes (.handling p ops) []
  | writing (p : Packet) (ops : List Acted) (q : Packet) (piece : List UInt8)
      (rest : List (List UInt8)) (m : Nat) (hq : q.id ≠ msgIdAck) :
      Owes (.replying p ops q (.writing piece rest)) [(q, m)]

/-- The next message that the host reads is not an acknowledgement. -/
inductive Doomed (l : HostLink) : Prop
  /-- it has yet to be written -/
  | pending (unwritten : List UInt8) (pt : Point) (leaving coming : List (Packet × Nat))
      (hpackets : l.Packets unwritten pt leaving coming) (howes : Owes pt coming)
      (hhost : Asking l unwritten)
  /-- it has been written, with anything behind it -/
  | written (unwritten front rest : List UInt8) (q : Packet) (m : Nat)
      (hqueue : l.out.queue = front ++ rest)
      (hcarries : Carries l.host.node.rx l.out.got front [(q, m)]) (hq : q.id ≠ msgIdAck)
      (hhost : Asking l unwritten)

section Steps

variable {l l' : HostLink} {unwritten : List UInt8} {pt : Point}
  {leaving coming : List (Packet × Nat)}

/-- A response that the controller has begun to send. -/
theorem Doomed.of_replying {p q : Packet} {ops : List Acted} {a : Activity} {m : Nat}
    (hpackets : l.Packets unwritten (.replying p ops q a) leaving [(q, m)])
    (hq : q.id ≠ msgIdAck) (hhost : Asking l unwritten) : Doomed l := by
  have hsending : a.sending = true := by
    have hat := hpackets.at_point
    generalize l.controller.node.prog = prog at hat
    cases hat with
    | call hcalls =>
        cases hcalls with
        | reply _ _ _ _ ha => exact ha
  cases a with
  | writing piece rest => exact .pending _ _ _ _ hpackets (.writing p ops q piece rest m hq) hhost
  | waiting =>
      have hcoming := hpackets.coming
      rw [show (Point.replying p ops q .waiting).unwritten = [] from rfl] at hcoming
      exact .written unwritten _ [] q m (by simp) hcoming hq hhost
  | polling | receiving | acking => simp [Activity.sending] at hsending

/-- The call of a bare ECHO returns. -/
theorem Doomed.of_echoed {c : HostCall} {sent got : Nat} {mid : List Obs}
    (hpackets : l.Packets unwritten pt leaving coming) (hhost : Asking l unwritten)
    (hserves : Serves c sent got mid pt coming) (hresponds : Responds c.request.id) :
    Doomed l := by
  have hnoAck : ∀ {ops q}, Answers c.request ops q → q.id ≠ msgIdAck :=
    fun hq hid => hq.reply_id (.inl hid)
  cases hserves with
  | acking _ a => exact .pending _ _ _ _ hpackets (.acking _ a hresponds) hhost
  | dispatching => exact .pending _ _ _ _ hpackets (.dispatching _ hresponds) hhost
  | handling _ ops => exact .pending _ _ _ _ hpackets (.handling _ ops hresponds) hhost
  | silent _ hsilent => exact absurd hresponds hsilent
  | replying _ ops q a m _ hq => exact .of_replying hpackets (hnoAck hq) hhost
  | replied _ ops q m _ hq =>
      have hcoming := hpackets.coming
      rw [show (Point.idle .running).unwritten = [] from rfl] at hcoming
      exact .written unwritten _ [] q m (by simp) hcoming (hnoAck hq) hhost

/-! ## Steps of the controller -/

theorem Asking.same (h : Asking l unwritten) (hnode : l'.host.node = l.host.node)
    (hcall : l'.call = l.call) : Asking l' unwritten := by
  cases h with
  | rest hprog =>
      rw [← hnode] at hprog
      exact .rest hprog
  | sending a ha hprog =>
      rw [← hnode, ← hcall] at hprog
      exact .sending a ha hprog

theorem Owes.turn {got got' : Nat} {new : List Obs} {pt' : Point}
    {leaving' added : List (Packet × Nat)} (h : Owes pt coming)
    (hturn : Turn got got' pt leaving new pt' leaving' added) :
    Owes pt' (coming ++ added) ∨
      ∃ p ops q a m, pt' = .replying p ops q a ∧ coming ++ added = [(q, m)] ∧
        q.id ≠ msgIdAck := by
  cases hturn with
  | keep =>
      rw [List.append_nil]
      exact .inl h
  | poll | receive | stray | own | replied | gaveUp => cases h
  | ack p a b =>
      cases h with
      | acking _ _ hresponds => exact .inl (.acking p b hresponds)
  | acked p a =>
      cases h with
      | acking _ _ hresponds => exact .inl (.dispatching p hresponds)
  | handle p pt a ops ps hperforms =>
      cases hperforms with
      | dispatch =>
          cases h with
          | dispatching _ hresponds => exact .inl (.handling p [] hresponds)
      | handle ops =>
          cases h with
          | handling _ _ hresponds => exact .inl (.handling p _ hresponds)
  | finish p pt a ops ps hperforms hsilent =>
      cases hperforms with
      | dispatch =>
          cases h with
          | dispatching _ hresponds => exact absurd hresponds hsilent.id
      | handle =>
          cases h with
          | handling _ _ hresponds => exact absurd hresponds hsilent.id
  | answer p pt a ops q ps m hperforms hq =>
      have hnothing : coming = [] := by
        cases hperforms <;> cases h <;> rfl
      subst hnothing
      exact .inr ⟨p, ops, q, _, m, rfl, rfl, fun hid => hq.reply_id (.inl hid)⟩
  | reply p ops q a b =>
      cases h with
      | writing _ _ _ _ _ m hq => exact .inr ⟨p, ops, q, b, m, rfl, rfl, hq⟩

/-- **The controller takes a step.** -/
theorem Doomed.controller {e : LinkEvent} (h : Doomed l) (hcall : ∀ c, e ≠ .call c)
    (hhost : ∀ e', e ≠ .host e') (hstep : l.step e = some l') :
    Doomed l' ∧ ∃ new, l'.log = l.log ++ new ∧ ∀ o ∈ new, ∃ a got, o = Obs.acted a got := by
  cases h with
  | pending unwritten pt leaving coming hpackets howes hasking =>
      have hpt : pt ≠ .idle .connecting := by
        rintro rfl
        cases howes
      have hexpects : Expects pt leaving := by
        rintro p ops q rfl
        cases howes
      obtain ⟨new, pt', leaving', added, hturn, hpackets', hlog, hsame⟩ :=
        l.controller_turn hpackets hpt hexpects hcall hhost hstep
      have hasking' := hasking.same hsame.node hsame.call
      refine ⟨?_, new, hlog, hturn.acted⟩
      rcases howes.turn hturn with howes' | ⟨p, ops, q, a, m, rfl, hcoming, hq⟩
      · exact .pending _ _ _ _ hpackets' howes' hasking'
      · rw [hcoming] at hpackets'
        exact .of_replying hpackets' hq hasking'
  | written unwritten front rest q m hqueue hcarries hq hasking =>
      obtain ⟨data, new, hout, hnode, hcall', hlog, hnew⟩ :=
        l.controller_frame hcall hhost hstep
      refine ⟨?_, new, hlog, hnew⟩
      have hqueue' : l'.out.queue = front ++ (rest ++ data) := by
        rw [hout, Channel.push_queue, hqueue, List.append_assoc]
      have hcarries' : Carries l'.host.node.rx l'.out.got front [(q, m)] := by
        rw [hnode, hout]
        exact hcarries
      exact .written unwritten front _ q m hqueue' hcarries' hq (hasking.same hnode hcall')

/-! ## Steps of the host -/

theorem Asking.of_ret (h : Asking l unwritten) {res : SerialResult × HostValue}
    (hret : l.host.node.prog = .ret res) : unwritten = [] := by
  cases h with
  | rest => rfl
  | sending a _ hprog =>
      exact absurd (hprog.symm.trans hret) (Activity.prog_ne_ret _ _ _)

/-- The results of a call that is doomed. -/
def Fails (res : SerialResult) : Prop :=
  res = .errNoMsg ∨ res = .errNoAck ∨ res = .errMsgInProgress

theorem Fails.ne_ok {res : SerialResult} (h : Fails res) : res ≠ .ok := by
  rintro rfl
  simp [Fails] at h

/-- The host goes on with its request, or finds the response. -/
theorem Doomed.pending_host {e : PartyEvent} {a : Activity}
    (hpackets : l.Packets a.unwritten pt leaving coming) (howes : Owes pt coming)
    (ha : a.sending = true) (hprog : l.host.node.prog = a.prog >>= l.call.sent)
    (he : e ≠ .timeout) (hstep : l.step (.host e) = some l') :
    (Doomed l' ∧ l'.log = l.log) ∨
      ∃ res, Fails res ∧ l'.log = l.log ++ [.returned l.call res .none] := by
  obtain ⟨next, added, rest, hf⟩ := l.host_flow hpackets hprog he hstep
  obtain ⟨heard, hflow⟩ := hf.flow
  have hgoes : ∀ b, next = .goes b → b.sending = true → rest = coming →
      Doomed l' ∧ l'.log = l.log := by
    rintro b rfl hb rfl
    have hprog' := hf.prog
    rw [← hf.call] at hprog'
    exact ⟨.pending _ _ _ _ hf.packets howes (.sending b hb hprog'), hf.log_goes⟩
  cases hflow with
  | wrote _ next rest => exact .inl (hgoes _ rfl rfl rfl)
  | wroteLast => exact .inl (hgoes _ rfl rfl rfl)
  | more => exact .inl (hgoes _ rfl ha rfl)
  | acked | ackedLast | quiet => simp [Activity.sending] at ha
  | received _ _ _ hpoll | stray _ _ _ hpoll =>
      rcases hpoll with rfl | ⟨t, rfl⟩ <;> simp [Activity.sending] at ha
  | acknowledged p rest hp hid =>
      have hcoming := hp.coming_eq
      cases howes with
      | writing _ _ q _ _ m hq =>
          obtain ⟨rfl, -⟩ := Prod.mk.inj (List.cons.inj hcoming).1
          exact absurd hid hq
      | acking | dispatching | handling => cases hcoming
  | notAcknowledged p rest hp hid =>
      have hret : (Next.returns .errNoAck).prog l'.host.node.rx l.call.sent =
          .ret (.errNoAck, .none) := HostCall.sent_failed (by decide) l.call
      exact .inr ⟨.errNoAck, .inr (.inl rfl), hf.log_returns hret⟩

/-- The host reads a byte of the response. -/
theorem hear_response {n n' : Node noOps (SerialResult × HostValue)} {a : Activity}
    {k : SerialResult → HostProg} {b : UInt8} {front out : List UInt8} {got m : Nat}
    {q : Packet} (hprog : n.prog = a.prog >>= k) (ha : a.sending = true)
    (hcarries : Carries n.rx got (b :: front) [(q, m)]) (hq : q.id ≠ msgIdAck)
    (hsignal : n.signal (.byte b) = some (n', out)) :
    (n'.prog = a.prog >>= k ∧ Carries n'.rx (got + 1) front [(q, m)]) ∨
      n'.prog = (Next.returns .errNoAck).prog n'.rx k := by
  obtain ⟨rx, next, heffect, rfl⟩ := Node.signal_effect hprog hsignal
  rcases hcarries.read with ⟨hmore, hcarries⟩ | ⟨hdone, rest, hhead, -⟩
  · cases heffect with
    | more => exact .inl ⟨rfl, hcarries⟩
    | received _ _ _ hdone | stray _ _ _ hdone | acknowledged _ hdone
    | notAcknowledged _ hdone => simp [hmore] at hdone
  · obtain ⟨hpacket, -⟩ := Prod.mk.inj (List.cons.inj hhead).1
    cases heffect with
    | more _ _ _ hmore => simp [hmore] at hdone
    | received _ _ hpoll | stray _ _ hpoll =>
        rcases hpoll with rfl | ⟨t, rfl⟩ <;> simp [Activity.sending] at ha
    | acknowledged _ _ hid =>
        rw [hpacket] at hq
        exact absurd hid hq
    | notAcknowledged => exact .inr rfl

/-- The same when the response has been written. -/
theorem Doomed.written_host {e : PartyEvent} {a : Activity} {front rest : List UInt8}
    {q : Packet} {m : Nat} (hqueue : l.out.queue = front ++ rest)
    (hcarries : Carries l.host.node.rx l.out.got front [(q, m)]) (hq : q.id ≠ msgIdAck)
    (ha : a.sending = true) (hprog : l.host.node.prog = a.prog >>= l.call.sent)
    (he : e ≠ .timeout) (hstep : l.step (.host e) = some l') :
    (Doomed l' ∧ l'.log = l.log) ∨
      ∃ res, Fails res ∧ l'.log = l.log ++ [.returned l.call res .none] := by
  cases HostLink.step_cases hstep with
  | host _ host out heard hparty =>
      have hgoes : ∀ (b : Activity) (front : List UInt8), b.sending = true →
          host.node.prog = b.prog >>= l.call.sent → out.queue = front ++ rest →
          Carries host.node.rx out.got front [(q, m)] →
          Doomed { l with host := host, out := out, log := l.log ++ host.node.results l.call } ∧
            l.log ++ host.node.results l.call = l.log := by
        intro b front hb hprog' hqueue' hcarries'
        refine ⟨.written b.unwritten front rest q m hqueue' hcarries' hq (.sending b hb hprog'), ?_⟩
        rw [HostLink.results_goes hprog', List.append_nil]
      cases Party.step_cases hparty with
      | timeout => exact absurd rfl he
      | quiet node data hsignal =>
          obtain ⟨rx, next, heffect, -⟩ := Node.signal_effect hprog hsignal
          cases heffect
          simp [Activity.sending] at ha
      | wrote node data hsignal =>
          obtain ⟨rx, next, heffect, rfl⟩ := Node.signal_effect hprog hsignal
          cases heffect with
          | wrote _ next pieces =>
              exact .inl (hgoes (.writing next pieces) front rfl rfl hqueue hcarries)
          | wroteLast => exact .inl (hgoes .waiting front rfl rfl hqueue hcarries)
          | acked | ackedLast => simp [Activity.sending] at ha
      | deliver b queue node data hinbox hsignal =>
          rw [hinbox] at hqueue
          cases front with
          | nil => cases hcarries.of_nil.1
          | cons b' front =>
              obtain ⟨rfl, rfl⟩ := List.cons.inj hqueue
              rcases hear_response hprog ha hcarries hq hsignal with
                ⟨hprog', hcarries'⟩ | hprog'
              · exact .inl (hgoes a front ha hprog' rfl hcarries')
              · rw [HostCall.sent_failed (by decide)] at hprog'
                exact .inr ⟨.errNoAck, .inr (.inl rfl), by
                  rw [HostLink.results_ret hprog']⟩

/-- **The host takes a step.** -/
theorem Doomed.host {e : PartyEvent} (h : Doomed l) (hstep : l.step (.host e) = some l') :
    (Doomed l' ∧ l'.log = l.log) ∨
      ∃ res, Fails res ∧ l'.log = l.log ++ [.returned l.call res .none] := by
  have hrest : ∀ {res}, l.host.node.prog = .ret res → False := by
    intro res hret
    rw [HostLink.host_none hret] at hstep
    cases hstep
  by_cases he : e = .timeout
  · subst he
    obtain ⟨unwritten, hhost⟩ : ∃ unwritten, Asking l unwritten := by
      cases h with
      | pending _ _ _ _ _ _ hhost => exact ⟨_, hhost⟩
      | written _ _ _ _ _ _ _ _ hhost => exact ⟨_, hhost⟩
    cases hhost with
    | rest hprog => exact (hrest hprog.choose_spec).elim
    | sending a ha hprog =>
        obtain ⟨hlog, -⟩ := HostLink.sending_timeout ha hprog hstep
        exact .inr ⟨.errNoMsg, .inl rfl, hlog⟩
  · cases h with
    | pending unwritten pt leaving coming hpackets howes hhost =>
        cases hhost with
        | rest hprog => exact (hrest hprog.choose_spec).elim
        | sending a ha hprog => exact Doomed.pending_host hpackets howes ha hprog he hstep
    | written unwritten front rest q m hqueue hcarries hq hhost =>
        cases hhost with
        | rest hprog => exact (hrest hprog.choose_spec).elim
        | sending a ha hprog =>
            exact Doomed.written_host hqueue hcarries hq ha hprog he hstep

/-- **The host begins a call.** -/
theorem Doomed.call {c : HostCall} (h : Doomed l) (hstep : l.step (.call c) = some l') :
    ∃ new, l'.log = l.log ++ .begun c l.host.out.sent :: new ∧
      ((Doomed l' ∧ new = []) ∨ ∃ res, Fails res ∧ new = [.returned c res .none]) := by
  cases HostLink.step_cases hstep with
  | call _ res hret =>
      refine ⟨_, rfl, ?_⟩
      cases hprogress : l.host.node.rx.transport.msgInProgress with
      | true =>
          have hnode := Node.resume_call l.host.node.rx (.sendMessage c.request) c.sent
          have hstart : SessionCall.start l.host.node.rx (.sendMessage c.request) =
              .returns .errMsgInProgress := by
            simp [SessionCall.start, hprogress]
          rw [hstart, HostCall.sent_failed (by decide)] at hnode
          have hresults : (Node.resume l.host.node.rx c.prog).results c =
              [.returned c .errMsgInProgress .none] := by
            rw [c.prog_sent]
            exact HostLink.results_ret (congrArg Node.prog hnode) c
          exact .inr ⟨.errMsgInProgress, .inr (.inr rfl), hresults⟩
      | false =>
          have hnode := HostCall.resume_prog hprogress c
          have hresults : (Node.resume l.host.node.rx c.prog).results c = [] :=
            HostLink.results_goes (by rw [hnode]) c
          refine .inl ⟨?_, hresults⟩
          rw [hnode]
          cases h with
          | pending unwritten pt leaving coming hpackets howes hhost =>
              obtain rfl := hhost.of_ret hret
              have hleaving := hpackets.leaving
              rw [List.append_nil] at hleaving
              exact .pending (Activity.send c.request).unwritten pt _ coming
                ⟨hpackets.at_point, hleaving.append c.request, hpackets.coming⟩ howes
                (.sending (.send c.request) rfl rfl)
          | written unwritten front rest q m hqueue hcarries hq hhost =>
              exact .written (Activity.send c.request).unwritten front rest q m hqueue hcarries
                hq (.sending (.send c.request) rfl rfl)

end Steps

end MpmtTestStand.Ports
