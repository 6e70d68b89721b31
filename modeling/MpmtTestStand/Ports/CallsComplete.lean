import MpmtTestStand.Ports.ExistingAxes

/-!
# Calls can be completed

From every state of a session that has gone well so far, the call of the host can be
brought to its end: by events in which nobody gives up, nothing is interrupted and no
further call is begun.  So host and controller never wait for each other.

The controller can always get to a point at which it reads (`Going.listens`), and so read
what has been sent (`Going.drains`).  When everything has been read and the host still
waits for an acknowledgement or a response, that is on its way (`Going.incoming`).

## Main results

* `calls_complete` — a call under way can be brought to return `SERIAL_OK`.
-/

namespace MpmtTestStand.Ports

open MpmtTestStand.Verified
open MpmtTestStand.Verified.Run
open MPMTTestStand

/-! ## Events that help -/

/-- Host and controller go on, and nobody gives up. -/
def LinkEvent.Helps : LinkEvent → Prop
  | .host e => e ≠ .timeout
  | .controller e => e ≠ .timeout
  | .act _ => True
  | .loop => True
  | .call _ => False
  | .interrupt _ _ => False

/-- Host and controller are in step, and the call of the host is one that is answered if
it waits for a response. -/
structure HostLink.Going (l : HostLink) : Prop where
  in_step : ∃ unwritten pt leaving coming, InStep l unwritten pt leaving coming
  performable : l.controller.Performable
  regular : l.call.Regular

/-- A step that helps, and in which no call returns. -/
structure HostLink.Helped (l l' : HostLink) : Prop where
  step : ∃ e : LinkEvent, e.Helps ∧ l.step e = some l'
  log : ∃ new, l'.log = l.log ++ new ∧ ∀ o ∈ new, ∃ a got, o = Obs.acted a got

namespace HostLink

/-- Such steps lead from the one state to the other. -/
abbrev GetsTo : HostLink → HostLink → Prop := Relation.ReflTransGen Helped

variable {l l' : HostLink}

theorem Helped.call (h : l.Helped l') : l'.call = l.call := by
  obtain ⟨e, he, hstep⟩ := h.step
  cases step_cases hstep with
  | call => exact he.elim
  | host | controller | act | loop | interrupt => rfl

theorem GetsTo.call (h : l.GetsTo l') : l'.call = l.call := by
  induction h with
  | refl => rfl
  | tail _ hstep ih => exact hstep.call.trans ih

/-- The events of the steps. -/
theorem GetsTo.run (h : l.GetsTo l') :
    ∃ events new, (∀ e ∈ events, e.Helps) ∧ Run.run HostLink.step l events = some l' ∧
      l'.log = l.log ++ new ∧ ∀ o ∈ new, ∃ a got, o = Obs.acted a got := by
  induction h with
  | refl => exact ⟨[], [], by simp, rfl, (List.append_nil _).symm, by simp⟩
  | tail _ hlast ih =>
      obtain ⟨events, new, hhelps, hrun, hlog, hnew⟩ := ih
      obtain ⟨e, he, hstep⟩ := hlast.step
      obtain ⟨more, hmore, hacted⟩ := hlast.log
      refine ⟨events ++ [e], new ++ more, ?_, run_snoc hrun hstep, ?_, ?_⟩
      · exact List.forall_mem_append.mpr ⟨hhelps, List.forall_mem_singleton.mpr he⟩
      · rw [hmore, hlog, List.append_assoc]
      · exact List.forall_mem_append.mpr ⟨hnew, hacted⟩

/-- **Events that help** keep host and controller going. -/
theorem Going.step {e : LinkEvent} (h : l.Going) (he : e.Helps) (hstep : l.step e = some l') :
    l'.Going := by
  obtain ⟨unwritten, pt, leaving, coming, hin⟩ := h.in_step
  have hcan := hin.performable h.performable hstep
  have hcontroller : (∀ c, e ≠ .call c) → (∀ e', e ≠ .host e') → l'.Going := by
    intro hcall hhost
    obtain ⟨_, _, _, _, hin', -, -, hsame⟩ := hin.controller hcall hhost hstep
    exact ⟨⟨_, _, _, _, hin'⟩, hcan, hsame ▸ h.regular⟩
  cases e with
  | call | interrupt => exact he.elim
  | controller | act | loop => exact hcontroller (by simp) (by simp)
  | host e =>
      obtain ⟨houtcome, hcall⟩ := hin.host he hstep
      cases houtcome with
      | goes _ _ _ _ _ hin' => exact ⟨⟨_, _, _, _, hin'⟩, hcan, hcall ▸ h.regular⟩
      | returns _ _ _ _ _ hin' => exact ⟨⟨_, _, _, _, hin'⟩, hcan, hcall ▸ h.regular⟩
      | echoed _ _ _ _ _ _ _ hecho =>
          obtain ⟨data, fits, heq⟩ := hecho
          have hregular := h.regular
          rw [heq] at hregular
          exact hregular.elim

theorem Going.getsTo (h : l.Going) (hgets : l.GetsTo l') : l'.Going := by
  induction hgets with
  | refl => exact h
  | tail _ hlast ih =>
      obtain ⟨e, he, hstep⟩ := hlast.step
      exact ih.step he hstep

end HostLink

/-- A call that is answered has a request that the controller answers. -/
theorem HostCall.Regular.responds {c : HostCall} {r : Response} (h : c.Regular)
    (hresponse : c.response = some r) : Responds c.request.id := by
  cases c with
  | linkCheck => exact .inl rfl
  | getStatus => exact .inr (.inl rfl)
  | getPosition => exact .inr (.inr (.inl rfl))
  | getTemp => exact .inr (.inr (.inr (.inl rfl)))
  | move => exact .inr (.inr (.inr (.inr rfl)))
  | getAxisState => exact h.elim
  | ping | echo | home | stop | calibrate => cases hresponse

/-- A call that finds a message in progress does not wait for its response. -/
theorem HostCall.sent_busy {rx : Receiver} {c : HostCall} {r : Response}
    (hresponse : c.response = some r) (hbusy : rx.transport.msgInProgress = true) :
    (Next.returns .ok).prog rx c.sent = .ret (.errMsgInProgress, .none) := by
  have hstart : SessionCall.start rx (.recvMessage r.timeoutMs) =
      .returns .errMsgInProgress := by
    simp [SessionCall.start, hbusy]
  have hcall := congrArg Node.prog
    (Node.resume_call rx (.recvMessage r.timeoutMs) r.received)
  rw [hstart] at hcall
  simp only [Next.prog, sent, hresponse, ne_eq, not_true_eq_false, if_false]
  exact hcall.trans (Response.received_failed (by decide) r)

/-- Once a message has been received, the call returns. -/
theorem Response.received_returns (r : Response) (res : SerialResult) (rx : Receiver) :
    ∃ out, (Next.returns res).prog rx r.received = .ret out := by
  by_cases hres : res = .ok
  · subst hres
    by_cases hid : rx.msg.id = r.id
    · by_cases hlength : rx.msg.length = r.length
      · exact ⟨_, received_ok hid hlength⟩
      · exact ⟨(.errDataLength, .none),
          by simp [Next.prog, received, Prog.settle, answerLook, hid, hlength]⟩
    · exact ⟨(.errWrongMsg, .none),
        by simp [Next.prog, received, Prog.settle, answerLook, hid]⟩
  · exact ⟨_, received_failed hres r⟩

/-! ## What the controller does -/

namespace MPMTTestStand

/-- The program waits for a byte. -/
def Listens : StandProg Phase → Prop
  | .op .checkForMessage _ => True
  | .op (.recvMessage _) _ => True
  | _ => False

/-- At a point of the main program nothing is left to look at. -/
theorem At.settled {rx : Receiver} {pt : Point} {prog : StandProg Phase} (h : At rx pt prog) :
    prog.settle (answerLook rx) = prog := by
  cases h with
  | call h => exact Node.settle_prog rx _ _
  | between | own | dispatching | handling => rfl

/-- Where a controller that waits for a byte is. -/
theorem At.listens {rx : Receiver} {pt : Point} {prog : StandProg Phase} (h : At rx pt prog)
    (hlistens : Listens prog) :
    (∃ phase, pt = .idle phase) ∨ ∃ p ops q, pt = .replying p ops q .waiting := by
  cases h with
  | between | own | dispatching | handling => exact hlistens.elim
  | @call _ a _ h =>
      cases h with
      | poll => exact .inl ⟨_, rfl⟩
      | ping => exact .inl ⟨_, rfl⟩
      | ack => exact hlistens.elim
      | reply p ops q _ ha =>
          cases a with
          | waiting => exact .inr ⟨p, ops, q, rfl⟩
          | writing => exact hlistens.elim
          | polling | receiving | acking => simp [Activity.sending] at ha

end MPMTTestStand

namespace HostLink

section Controller

variable {l : HostLink}

/-- The controller performs the operation at hand. -/
theorem helped_act {o : StandOp} {k : o.Res → StandProg Phase} (hcan : l.controller.Performable)
    (hprog : l.controller.node.prog = .op (.act o) k) :
    ∃ r l', l.Helped l' ∧ l'.controller.node = Node.resume l.controller.node.rx (k r) ∧
      l'.host = l.host ∧ l'.controller.Performable := by
  obtain ⟨r, l', hstep, hnode, hhost, hlog⟩ := hcan.performs hprog ⟨⟨0, 0, 0, 0, 0⟩, .x⟩
  have hhelps : (LinkEvent.act ⟨⟨0, 0, 0, 0, 0⟩, .x⟩).Helps := trivial
  refine ⟨r, l', ⟨⟨_, hhelps, hstep⟩, _, hlog, by simp⟩, hnode, hhost, ?_⟩
  unfold Controller.Performable at hcan ⊢
  rw [hprog] at hcan
  rw [hnode]
  exact (hcan.2 r).settle

/-- The controller writes the piece at hand. -/
theorem helped_wrote {data : List UInt8} {k : Bool → StandProg Phase}
    (hcan : l.controller.Performable)
    (hprog : l.controller.node.prog = .op (.serWrite data) k) :
    ∃ l', l.Helped l' ∧ l'.controller.node = Node.resume l.controller.node.rx (k true) ∧
      l'.host = l.host ∧ l'.controller.Performable := by
  have hsignal : l.controller.node.signal .wrote =
      some (Node.resume l.controller.node.rx (k true), data) := by
    simp only [Node.signal, hprog]
  have hstep : l.step (.controller .wrote) = some (l.setParty
      ⟨Node.resume l.controller.node.rx (k true), l.out.push data⟩ l.host.out) := by
    simp only [HostLink.step, Party.step, hsignal]
  have hhelps : PartyEvent.wrote ≠ .timeout := by simp
  have hheard : ∀ b, Signal.wrote ≠ .byte b := by simp
  refine ⟨_, ⟨⟨.controller .wrote, hhelps, hstep⟩, [], (List.append_nil _).symm, by simp⟩, rfl,
    rfl, ?_⟩
  exact MPMTTestStand.Performable.signal hcan hsignal fun b hb => absurd hb (hheard b)

/-- The controller gets to where it reads, or to the end of its round. -/
theorem listens_or_returns (p : StandProg Phase) (hcan : l.controller.Performable)
    (hprog : l.controller.node.prog = p.settle (answerLook l.controller.node.rx)) :
    ∃ l', l.GetsTo l' ∧ l'.host = l.host ∧ l'.controller.Performable ∧
      (Listens l'.controller.node.prog ∨ ∃ phase, l'.controller.node.prog = .ret phase) := by
  induction p generalizing l with
  | ret phase => exact ⟨l, .refl, rfl, hcan, .inr ⟨phase, hprog⟩⟩
  | op o k ih =>
      cases o with
      | look => exact ih _ hcan hprog
      | checkForMessage | recvMessage =>
          exact ⟨l, .refl, rfl, hcan, .inl (by rw [hprog]; trivial)⟩
      | act o =>
          obtain ⟨r, l1, hhelped, hnode, hhost, hcan1⟩ := helped_act hcan hprog
          obtain ⟨l', hgets, hhost', hcan', hend⟩ := ih r hcan1 (by rw [hnode]; rfl)
          exact ⟨l', .head hhelped hgets, hhost'.trans hhost, hcan', hend⟩
      | serWrite data =>
          obtain ⟨l1, hhelped, hnode, hhost, hcan1⟩ := helped_wrote hcan hprog
          obtain ⟨l', hgets, hhost', hcan', hend⟩ := ih true hcan1 (by rw [hnode]; rfl)
          exact ⟨l', .head hhelped hgets, hhost'.trans hhost, hcan', hend⟩

/-- The controller performs operations of the main program, and goes on with `next`. -/
theorem acts_on {u : StandProg Unit} (hu : Prog.Only Own u) {next : StandProg Phase}
    (hcan : l.controller.Performable)
    (hprog : l.controller.node.prog =
      (u >>= fun _ => next).settle (answerLook l.controller.node.rx)) :
    ∃ l', l.GetsTo l' ∧ l'.host = l.host ∧
      l'.controller.node.prog = next.settle (answerLook l'.controller.node.rx) := by
  induction hu generalizing l with
  | ret _ => exact ⟨l, .refl, rfl, hprog⟩
  | op ho _ ih =>
      obtain ⟨o, rfl, -⟩ := ho
      obtain ⟨r, l1, hhelped, hnode, hhost, hcan1⟩ := helped_act hcan hprog
      obtain ⟨l', hgets, hhost', hprog'⟩ := ih r hcan1 (by rw [hnode]; rfl)
      exact ⟨l', .head hhelped hgets, hhost'.trans hhost, hprog'⟩

/-- A round begins, and the controller polls. -/
theorem polls (hprog : l.controller.node.prog = .ret .running) :
    ∃ l', l.GetsTo l' ∧ l'.host = l.host ∧ Listens l'.controller.node.prog := by
  obtain ⟨c, hc⟩ : ∃ c : Controller, c =
      ⟨Node.resume l.controller.node.rx Phase.running.prog, l.controller.stand⟩ := ⟨_, rfl⟩
  have hloop : l.controller.loop = some c := by
    simp only [Controller.loop, hprog, hc]
  have hstep : l.step .loop = some { l with controller := c } := by
    simp only [HostLink.step, hloop, Option.map_some]
  have hround : Phase.running.prog =
      updateStatus >>= fun _ => Activity.polling.prog >>= afterPoll := by
    simp only [Phase.prog, execute, Prog.bind_bind]
    rfl
  have hhelps : LinkEvent.loop.Helps := trivial
  have hprog1 : c.node.prog =
      (updateStatus >>= fun _ => Activity.polling.prog >>= afterPoll).settle
        (answerLook c.node.rx) := by
    rw [← hround, hc]
    rfl
  obtain ⟨l', hgets, hhost, hprog'⟩ := acts_on (l := { l with controller := c })
    only_updateStatus (.loop hloop) hprog1
  refine ⟨l', .head ⟨⟨_, hhelps, hstep⟩, [], (List.append_nil _).symm, by simp⟩ hgets, hhost, ?_⟩
  rw [hprog']
  trivial

/-- **The controller gets to a point at which it reads.** -/
theorem Going.listens (h : l.Going) :
    ∃ l', l.GetsTo l' ∧ l'.host = l.host ∧ Listens l'.controller.node.prog := by
  obtain ⟨_, _, _, _, hin⟩ := h.in_step
  obtain ⟨l1, hgets, hhost, -, hlistens | ⟨phase, hprog⟩⟩ :=
    listens_or_returns _ h.performable hin.packets.at_point.settled.symm
  · exact ⟨l1, hgets, hhost, hlistens⟩
  · -- the next round begins
    obtain ⟨_, pt, _, _, hin1⟩ := (h.getsTo hgets).in_step
    have hat := hin1.packets.at_point
    have hrunning := hin1.stage.running
    rw [hprog] at hat
    obtain rfl : phase = .running := by
      generalize hret : (Prog.ret phase : StandProg Phase) = prog at hat
      cases hat with
      | between =>
          obtain rfl := Prog.ret.inj hret
          cases phase with
          | connecting => exact absurd rfl hrunning
          | running => rfl
      | call => exact absurd hret.symm (Activity.prog_ne_ret _ _ _)
      | own | dispatching | handling => cases hret
    obtain ⟨l', hgets', hhost', hlistens⟩ := polls hprog
    exact ⟨l', hgets.trans hgets', hhost'.trans hhost, hlistens⟩

/-- A byte that is on its way is read. -/
theorem helped_deliver {b : UInt8} {queue : List UInt8}
    (hlistens : Listens l.controller.node.prog) (hqueue : l.host.out.queue = b :: queue) :
    ∃ l', l.Helped l' ∧ l'.host.node = l.host.node ∧ l'.host.out.queue = queue := by
  obtain ⟨node, hsignal⟩ : ∃ node, l.controller.node.signal (.byte b) = some (node, []) := by
    generalize hprog : l.controller.node.prog = prog at hlistens
    unfold Node.signal
    rw [hprog]
    cases prog with
    | ret => exact hlistens.elim
    | op o k =>
        cases o with
        | checkForMessage | recvMessage => exact ⟨_, rfl⟩
        | act | look | serWrite => exact hlistens.elim
  have hstep : l.step (.controller .deliver) =
      some (l.setParty ⟨node, l.out⟩ ⟨queue, l.host.out.got + 1⟩) := by
    simp only [HostLink.step, Party.step, hqueue, hsignal]
  have hhelps : PartyEvent.deliver ≠ .timeout := by simp
  exact ⟨_, ⟨⟨.controller .deliver, hhelps, hstep⟩, [], (List.append_nil _).symm, by simp⟩, rfl,
    rfl⟩

/-- **The controller reads everything that has been sent.** -/
theorem Going.drains (h : l.Going) :
    ∃ l', l.GetsTo l' ∧ l'.host.node = l.host.node ∧ l'.host.out.queue = [] ∧
      Listens l'.controller.node.prog := by
  generalize hn : l.host.out.queue.length = n
  induction n using Nat.strong_induction_on generalizing l with
  | _ n ih =>
      obtain ⟨l1, hgets, hhost, hlistens⟩ := h.listens
      cases hqueue : l1.host.out.queue with
      | nil => exact ⟨l1, hgets, congrArg Party.node hhost, hqueue, hlistens⟩
      | cons b queue =>
          obtain ⟨l2, hhelped, hnode, hqueue2⟩ := helped_deliver hlistens hqueue
          have hgets2 : l.GetsTo l2 := hgets.tail hhelped
          have hlt : l2.host.out.queue.length < n := by
            rw [← hn, ← hhost, hqueue, hqueue2]
            exact Nat.lt_succ_self _
          obtain ⟨l', hgets', hnode', hdone⟩ := ih _ hlt (h.getsTo hgets2) rfl
          exact ⟨l', hgets2.trans hgets', hnode'.trans (hnode.trans (congrArg Party.node hhost)),
            hdone⟩

end Controller

/-! ## What the host does -/

section Host

variable {l : HostLink}

/-- **What a waiting host waits for is on its way**, once the controller has read
everything. -/
theorem Going.incoming (h : l.Going) {t : UInt32} {k : Bool → HostProg}
    (hprog : l.host.node.prog = .op (.recvMessage t) k)
    (hlistens : Listens l.controller.node.prog) (hqueue : l.host.out.queue = []) :
    l.out.queue ≠ [] := by
  obtain ⟨unwritten, pt, leaving, coming, hin⟩ := h.in_step
  have hat := hin.packets.at_point.listens hlistens
  have hsilent : pt.unwritten = [] := by
    rcases hat with ⟨phase, rfl⟩ | ⟨p, ops, q, rfl⟩ <;> rfl
  -- nothing is coming in
  intro hnone
  have hleaving := hin.packets.leaving
  have hcoming := hin.packets.coming
  rw [hqueue, List.nil_append] at hleaving
  rw [hnone, hsilent] at hcoming
  obtain ⟨rfl, -⟩ := hcoming.of_nil
  cases hin.stage with
  | rest _ _ hret =>
      obtain ⟨res, hret⟩ := hret
      rw [hret] at hprog
      cases hprog
  | asked a sent mid _ left ha hprog' =>
      cases a with
      | waiting =>
          have hempty := hleaving.of_nil.1
          simp at hempty
      | writing =>
          rw [hprog'] at hprog
          cases hprog
      | polling | receiving | acking => simp [Activity.sending] at ha
  | awaiting r sent mid _ _ hresponse _ _ hserves =>
      have hresponds := h.regular.responds hresponse
      cases hserves with
      | acking | dispatching | handling => simp at hat
      | silent _ hnot => exact hnot hresponds
  | answering _ _ _ _ _ _ _ _ _ hprog' =>
      rw [hprog'] at hprog
      cases hprog

/-- The host reads a byte. -/
theorem host_deliver {t : UInt32} {k : Bool → HostProg} {b : UInt8} {queue : List UInt8}
    (hprog : l.host.node.prog = .op (.recvMessage t) k) (hqueue : l.out.queue = b :: queue) :
    ∃ l', l.step (.host .deliver) = some l' ∧ l'.host.node = l.host.node.hear k b ∧
      l'.host.out = l.host.out ∧ l'.out.queue = queue ∧ l'.controller = l.controller ∧
      l'.log = l.log ++ l'.host.node.results l.call := by
  have hsignal : l.host.node.signal (.byte b) = some (l.host.node.hear k b, []) := by
    simp only [Node.signal, hprog]
  have hparty : l.host.step l.out .deliver = some (⟨l.host.node.hear k b, l.host.out⟩,
      ⟨queue, l.out.got + 1⟩, l.host.node.rx.heard b) := by
    simp only [Party.step, hqueue, hsignal]
  have hstep : l.step (.host .deliver) = some { l with
      host := ⟨l.host.node.hear k b, l.host.out⟩
      out := ⟨queue, l.out.got + 1⟩
      log := l.log ++ (l.host.node.hear k b).results l.call } := by
    simp only [HostLink.step, hparty]
  exact ⟨_, hstep, rfl, rfl, rfl, rfl, rfl⟩

/-- The host writes a piece. -/
theorem host_wrote {data : List UInt8} {k : Bool → HostProg}
    (hprog : l.host.node.prog = .op (.serWrite data) k) :
    ∃ l', l.step (.host .wrote) = some l' ∧
      l'.host.node = Node.resume l.host.node.rx (k true) ∧
      l'.log = l.log ++ l'.host.node.results l.call := by
  have hsignal : l.host.node.signal .wrote =
      some (Node.resume l.host.node.rx (k true), data) := by
    simp only [Node.signal, hprog]
  have hparty : l.host.step l.out .wrote = some (⟨Node.resume l.host.node.rx (k true),
      l.host.out.push data⟩, l.out, none) := by
    simp only [Party.step, hsignal]
  have hstep : l.step (.host .wrote) = some { l with
      host := ⟨Node.resume l.host.node.rx (k true), l.host.out.push data⟩
      log := l.log ++ (Node.resume l.host.node.rx (k true)).results l.call } := by
    simp only [HostLink.step, hparty]
  exact ⟨_, hstep, rfl, rfl⟩

/-- The call goes on. -/
theorem Helped.of_goes {e : PartyEvent} {l' : HostLink} (he : e ≠ .timeout)
    (hstep : l.step (.host e) = some l') (hlog : l'.log = l.log ++ l'.host.node.results l.call)
    (hgoes : l'.host.node.results l.call = []) : l.Helped l' where
  step := ⟨.host e, he, hstep⟩
  log := ⟨[], by rw [hlog, hgoes], by simp⟩

/-- **A waiting host gets to the end of a message.** -/
theorem Going.hears (h : l.Going) {t : UInt32} {k : Bool → HostProg}
    (hprog : l.host.node.prog = .op (.recvMessage t) k) :
    ∃ l' b queue, l.GetsTo l' ∧ l'.host.node.prog = .op (.recvMessage t) k ∧
      l'.out.queue = b :: queue ∧ (l'.host.node.rx.readByte b).2 = true := by
  obtain ⟨l1, hgets, hnode, hread, hlistens⟩ := h.drains
  suffices hend : ∃ l' b queue, l1.GetsTo l' ∧ l'.host.node.prog = .op (.recvMessage t) k ∧
      l'.out.queue = b :: queue ∧ (l'.host.node.rx.readByte b).2 = true by
    obtain ⟨l', b, queue, hgets', hend⟩ := hend
    exact ⟨l', b, queue, hgets.trans hgets', hend⟩
  have h1 := h.getsTo hgets
  rw [← hnode] at hprog
  clear h hgets hnode
  generalize hbytes : l1.out.queue = bytes
  induction bytes generalizing l1 with
  | nil => exact absurd hbytes (h1.incoming hprog hlistens hread)
  | cons b bytes ih =>
      cases hdone : (l1.host.node.rx.readByte b).2 with
      | true => exact ⟨l1, b, bytes, .refl, hprog, hbytes, hdone⟩
      | false =>
          obtain ⟨l2, hstep, hnode, hout, hqueue, hcontroller, hlog⟩ := host_deliver hprog hbytes
          have hprog2 : l2.host.node.prog = .op (.recvMessage t) k := by
            rw [hnode, Node.hear, hdone, ← hprog]
            rfl
          have hhelped : l1.Helped l2 :=
            .of_goes (by decide) hstep hlog (by simp only [Node.results, hprog2])
          obtain ⟨l', b', queue, hgets, hend⟩ := ih l2 hprog2 (by rw [hout, hread])
            (by rw [hcontroller]; exact hlistens) (h1.getsTo (.single hhelped)) hqueue
          exact ⟨l', b', queue, .head hhelped hgets, hend⟩

/-- The call gets to return `SERIAL_OK`. -/
def Completes (l : HostLink) : Prop :=
  ∃ (l1 : HostLink) (e : LinkEvent) (l2 : HostLink) (v : HostValue), l.GetsTo l1 ∧ e.Helps ∧
    l1.step e = some l2 ∧ l2.log = l1.log ++ [.returned l.call .ok v]

theorem Completes.of_getsTo {l' : HostLink} (hgets : l.GetsTo l') (h : l'.Completes) :
    l.Completes := by
  obtain ⟨l1, e, l2, v, hgets', he, hstep, hlog⟩ := h
  exact ⟨l1, e, l2, v, hgets.trans hgets', he, hstep, by rw [hlog, hgets.call]⟩

/-- A call that returns without giving up has succeeded. -/
theorem Going.returns (h : l.Going) {e : PartyEvent} {l' : HostLink} {res : SerialResult}
    {v : HostValue} (he : e ≠ .timeout) (hstep : l.step (.host e) = some l')
    (hlog : l'.log = l.log ++ l'.host.node.results l.call)
    (hret : l'.host.node.prog = .ret (res, v)) : res = .ok ∧ l.Completes := by
  rw [results_ret hret] at hlog
  obtain ⟨_, _, _, _, hin⟩ := h.in_step
  have hok : ∀ {v'}, l'.log = l.log ++ [.returned l.call .ok v'] → res = .ok := by
    intro v' hsame
    have heq := List.append_cancel_left (hlog.symm.trans hsame)
    exact (Obs.returned.inj (List.cons.inj heq).1).2.1
  have hres : res = .ok := by
    cases (hin.host he hstep).1 with
    | goes _ _ _ _ hsame =>
        rw [hsame] at hlog
        simp at hlog
    | returns _ _ _ hsame => exact hok hsame
    | echoed _ _ _ _ _ hsame => exact hok hsame
  subst hres
  exact ⟨rfl, l, .host e, l', v, .refl, he, hstep, hlog⟩

/-- **The response is acknowledged.** -/
theorem Going.answers (h : l.Going) {r : Response} (piece : List UInt8)
    (rest : List (List UInt8))
    (hprog : l.host.node.prog = (Activity.acking piece rest).prog >>= r.received) :
    l.Completes := by
  induction rest generalizing l piece with
  | nil =>
      obtain ⟨l', hstep, hnode, hlog⟩ := host_wrote hprog
      obtain ⟨⟨res, v⟩, hret⟩ := r.received_returns .ok l.host.node.rx
      exact (h.returns (by decide) hstep hlog (by rw [hnode]; exact hret)).2
  | cons next rest ih =>
      obtain ⟨l', hstep, hnode, hlog⟩ := host_wrote hprog
      have hprog' : l'.host.node.prog = (Activity.acking next rest).prog >>= r.received := by
        rw [hnode]
        rfl
      have hhelped : l.Helped l' := .of_goes (by decide) hstep hlog (results_goes hprog' _)
      exact (ih (h.getsTo (.single hhelped)) next hprog').of_getsTo (.single hhelped)

/-- **The response is received.** -/
theorem Going.receives (h : l.Going) {r : Response}
    (hprog : l.host.node.prog = (Activity.receiving r.timeoutMs).prog >>= r.received) :
    l.Completes := by
  obtain ⟨l1, b, queue, hgets, hprog1, hqueue, hdone⟩ := h.hears hprog
  obtain ⟨l2, hstep, hnode, -, -, -, hlog⟩ := host_deliver hprog1 hqueue
  have h1 := h.getsTo hgets
  refine Completes.of_getsTo hgets ?_
  rw [Node.hear, if_pos hdone] at hnode
  have hnext := hnode.trans (Node.resume_checkReceivedMsg _ r.received)
  have hprog2 := congrArg Node.prog hnext
  unfold Node.checkNext at hprog2
  split at hprog2
  · rw [Response.received_failed (by decide)] at hprog2
    exact (h1.returns (by decide) hstep hlog hprog2).2
  · have hhelped : l1.Helped l2 := .of_goes (by decide) hstep hlog (results_goes hprog2 _)
    exact Completes.of_getsTo (.single hhelped)
      ((h1.getsTo (.single hhelped)).answers _ _ hprog2)

/-- **The request is acknowledged.** -/
theorem Going.waits (h : l.Going) {c : HostCall}
    (hprog : l.host.node.prog = Activity.waiting.prog >>= c.sent) : l.Completes := by
  obtain ⟨l1, b, queue, hgets, hprog1, hqueue, hdone⟩ := h.hears hprog
  obtain ⟨l2, hstep, hnode, -, -, -, hlog⟩ := host_deliver hprog1 hqueue
  have h1 := h.getsTo hgets
  refine Completes.of_getsTo hgets ?_
  rw [Node.hear, if_pos hdone] at hnode
  have hnext := hnode.trans (Node.resume_afterWait _ c.sent)
  have hprog2 := congrArg Node.prog hnext
  unfold Node.waitNext at hprog2
  split at hprog2
  · rw [HostCall.sent_failed (by decide)] at hprog2
    exact (h1.returns (by decide) hstep hlog hprog2).2
  · rcases hresponse : c.response with _ | r
    · rw [HostCall.sent_none hresponse] at hprog2
      exact (h1.returns (by decide) hstep hlog hprog2).2
    · cases hidle : (l1.host.node.rx.readByte b).1.transport.msgInProgress with
      | true =>
          rw [HostCall.sent_busy hresponse hidle] at hprog2
          exact (h1.returns (by decide) hstep hlog hprog2).2
      | false =>
          rw [HostCall.sent_some hresponse hidle] at hprog2
          have hhelped : l1.Helped l2 := .of_goes (by decide) hstep hlog (results_goes hprog2 _)
          exact Completes.of_getsTo (.single hhelped)
            ((h1.getsTo (.single hhelped)).receives hprog2)

/-- **The request is sent.** -/
theorem Going.sends (h : l.Going) {c : HostCall} (piece : List UInt8)
    (rest : List (List UInt8))
    (hprog : l.host.node.prog = (Activity.writing piece rest).prog >>= c.sent) :
    l.Completes := by
  induction rest generalizing l piece with
  | nil =>
      obtain ⟨l', hstep, hnode, hlog⟩ := host_wrote hprog
      have hprog' : l'.host.node.prog = Activity.waiting.prog >>= c.sent := by
        rw [hnode]
        rfl
      have hhelped : l.Helped l' := .of_goes (by decide) hstep hlog (results_goes hprog' _)
      exact ((h.getsTo (.single hhelped)).waits hprog').of_getsTo (.single hhelped)
  | cons next rest ih =>
      obtain ⟨l', hstep, hnode, hlog⟩ := host_wrote hprog
      have hprog' : l'.host.node.prog = (Activity.writing next rest).prog >>= c.sent := by
        rw [hnode]
        rfl
      have hhelped : l.Helped l' := .of_goes (by decide) hstep hlog (results_goes hprog' _)
      exact (ih (h.getsTo (.single hhelped)) next hprog').of_getsTo (.single hhelped)

/-- **A call under way completes**, wherever it is. -/
theorem Going.completes (h : l.Going) (hbusy : ∀ res, l.host.node.prog ≠ .ret res) :
    l.Completes := by
  obtain ⟨unwritten, pt, leaving, coming, hin⟩ := h.in_step
  have hsending : ∀ a : Activity, a.sending = true →
      l.host.node.prog = a.prog >>= l.call.sent → l.Completes := by
    intro a ha hprog
    cases a with
    | writing piece rest => exact h.sends piece rest hprog
    | waiting => exact h.waits hprog
    | polling | receiving | acking => simp [Activity.sending] at ha
  cases hin.stage with
  | rest _ _ hret =>
      obtain ⟨res, hret⟩ := hret
      exact absurd hret (hbusy res)
  | asked a _ _ _ _ ha hprog => exact hsending a ha hprog
  | accepted a _ _ _ _ _ ha hprog => exact hsending a ha hprog
  | awaiting r _ _ _ _ _ hprog => exact h.receives hprog
  | answering r piece rest _ _ _ _ _ _ hprog => exact h.answers piece rest hprog

end Host

end HostLink

/-- **A call under way can always be completed.**  No call has failed so far, and none was a
bare ECHO; whatever timeouts have fired at the controller, and wherever host and controller
are: if the call of the host is not a bare ECHO and not `get_axis_state`, there are events
that bring it to return `SERIAL_OK`, in which nobody gives up, no interrupt handler runs
and no further call is begun. -/
theorem calls_complete (stand : TestStand) (events : List LinkEvent) (l : HostLink)
    (hrun : run HostLink.step (.init stand) events = some l) (hfine : Fine l.log)
    (hecho : ∀ c v, .returned c .ok v ∈ l.log → ∀ data fits, c ≠ .echo data fits)
    (hbusy : ∀ res, l.host.node.prog ≠ .ret res) (hcall : l.call.Regular) :
    ∃ help new v l', (∀ e ∈ help, e.Helps) ∧ run HostLink.step l help = some l' ∧
      l'.log = l.log ++ new ++ [.returned l.call .ok v] ∧
      ∀ o ∈ new, ∃ a got, o = Obs.acted a got := by
  obtain ⟨_, _, _, _, hplaced⟩ := (HostLink.inPlace hrun ⟨hfine, hecho⟩).placed
  have hgoing : l.Going :=
    ⟨⟨_, _, _, _, hplaced.in_step⟩, HostLink.performable hrun ⟨hfine, hecho⟩, hcall⟩
  obtain ⟨l1, e, l', v, hgets, he, hstep, hlast⟩ := hgoing.completes hbusy
  obtain ⟨help, new, hhelps, hrun1, hlog, hnew⟩ := hgets.run
  refine ⟨help ++ [e], new, v, l', ?_, run_snoc hrun1 hstep, ?_, hnew⟩
  · exact List.forall_mem_append.mpr ⟨hhelps, List.forall_mem_singleton.mpr he⟩
  · rw [hlast, hlog]

/-- The host waits for the response, which the controller has sent, and for whose
acknowledgement it does not wait any more. -/
def givenUp : List LinkEvent :=
  requestSteps (.getStatus 1000) 0 ++ mainSteps 2 ++ controllerSteps 7 .wrote ++
    [.controller .timeout]

set_option maxRecDepth 2000 in
/-- The call is completed all the same. -/
theorem calls_complete_givenUp :
    ∃ l, run HostLink.step (.init (.init defaultCalibration)) givenUp = some l ∧
      ∃ help new v l', (∀ e ∈ help, e.Helps) ∧ run HostLink.step l help = some l' ∧
        l'.log = l.log ++ new ++ [.returned (.getStatus 1000) .ok v] ∧
        ∀ o ∈ new, ∃ a got, o = Obs.acted a got := by
  obtain ⟨l, hrun, hlog, hcall, o, k, hprog⟩ : ∃ l,
      run HostLink.step (.init (.init defaultCalibration)) givenUp = some l ∧
        l.log =
          [ .begun (.getStatus 1000) 0
          , .acted ⟨.getStatus, .idle⟩ 0
          , .acted ⟨.dispatch (.basic msgIdGetStatus), ()⟩ 6
          , .acted ⟨.getStatus, .idle⟩ 6 ] ∧
        l.call = .getStatus 1000 ∧ ∃ o k, l.host.node.prog = .op o k :=
    ⟨_, rfl, rfl, rfl, _, _, rfl⟩
  refine ⟨l, hrun, ?_⟩
  rw [← hcall]
  exact calls_complete (.init defaultCalibration) givenUp l hrun
    (by simp [hlog, Fine, Obs.Fine]) (by simp [hlog]) (by simp [hprog])
    (by rw [hcall]; trivial)

end MpmtTestStand.Ports
