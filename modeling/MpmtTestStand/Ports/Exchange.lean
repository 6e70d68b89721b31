import MpmtTestStand.Ports.HostLink
import MpmtTestStand.Verified.Run

/-!
# Host and controller in step

As long as no call of the host has given up, there is one request at most
between the host and the controller, or one acknowledgement and one response on
their way back.  `Stage` is the joint invariant: where the call of the host is,
where the controller is, and what is on its way in both directions.  A timeout
of the controller does not leave the invariant: the acknowledgement it waited
for is skipped later, or lost.

A bare ECHO ends the peace: the host never reads its response, which the next
call takes for a wrong acknowledgement.  `Doomed` is the invariant from there on:
no call can succeed any more.
-/

namespace MpmtTestStand.Ports

open MpmtTestStand.Verified
open MpmtTestStand.Verified.Run
open MPMTTestStand

/-! ## Observations -/

/-- The request of a call that begins. -/
def Obs.issued? : Obs → Option Packet
  | .begun c _ => some c.request
  | _ => none

/-- The message that is dispatched. -/
def Obs.dispatched? : Obs → Option Packet
  | .acted a _ =>
      match a.op with
      | .dispatch p => some p
      | _ => none
  | _ => none

/-- The requests that the host has issued. -/
def issued (log : List Obs) : List Packet := log.filterMap Obs.issued?

/-- The messages that the controller has dispatched. -/
def dispatched (log : List Obs) : List Packet := log.filterMap Obs.dispatched?

theorem issued_append (log new : List Obs) : issued (log ++ new) = issued log ++ issued new :=
  List.filterMap_append

theorem dispatched_append (log new : List Obs) :
    dispatched (log ++ new) = dispatched log ++ dispatched new :=
  List.filterMap_append

/-- The dispatch of `p`, when the controller had read `got` bytes, and the
operations of its handler. -/
def handled (p : Packet) (got : Nat) (ops : List Acted) : List Obs :=
  (⟨.dispatch p, ()⟩ :: ops).map (Obs.acted · got)

theorem handled_snoc (p : Packet) (got : Nat) (ops : List Acted) (a : Acted) :
    handled p got ops ++ [.acted a got] = handled p got (ops ++ [a]) := by
  simp [handled]

theorem handled_acted (p : Packet) (got : Nat) (ops : List Acted) :
    ∀ o ∈ handled p got ops, ∃ a got, o = Obs.acted a got := by
  intro o ho
  obtain ⟨a, -, rfl⟩ := List.mem_map.mp ho
  exact ⟨a, got, rfl⟩

/-- The number of bytes that the host has written when the request of a call is
complete that began at `sent`. -/
def HostCall.requestEnd (c : HostCall) (sent : Nat) : Nat := sent + c.request.frame.length

/-- The call `c` has begun at `sent`, and since then the controller has done
`mid`. -/
structure Underway (log : List Obs) (c : HostCall) (sent : Nat) (mid : List Obs) : Prop where
  log_eq : ∃ pre, log = pre ++ .begun c sent :: mid
  acted : ∀ o ∈ mid, ∃ a got, o = .acted a got

/-- Among `mid`, the controller has dispatched this very request and performed
the operations `ops` for it. -/
def Handled (c : HostCall) (sent : Nat) (mid : List Obs) (ops : List Acted) : Prop :=
  ∃ before after, mid = before ++ handled c.request (c.requestEnd sent) ops ++ after

/-- The value `v` of the call is what the controller computed for it. -/
def Served (c : HostCall) (sent : Nat) (mid : List Obs) (v : HostValue) : Prop :=
  ∃ ops, Handled c sent mid ops ∧ Computes c ops v

/-! ## The joint invariant -/

/-- The controller owes the host nothing, and at most the acknowledgement of its
last response is coming in. -/
inductive Clear : Point → List (Packet × Nat) → Prop
  | idle : Clear (.idle .running) []
  | lateAck (m : Nat) : Clear (.idle .running) [(ackPacket, m)]
  | acking (p : Packet) (a : Activity) (h : ¬Responds p.id) : Clear (.acking p a) []
  | dispatching (p : Packet) (h : ¬Responds p.id) : Clear (.dispatching p) []
  | handling (p : Packet) (ops : List Acted) (h : ¬Responds p.id) : Clear (.handling p ops) []
  | replying (p : Packet) (ops : List Acted) (q : Packet) (a : Activity) (m : Nat) :
      Clear (.replying p ops q a) [(ackPacket, m)]

/-- The controller serves the request of the call `c`; it has done `mid` since
the call began at `sent`, has read `got` bytes, and the response is on its way
or not. -/
inductive Serves (c : HostCall) (sent got : Nat) :
    List Obs → Point → List (Packet × Nat) → Prop
  | acking (mid : List Obs) (a : Activity) (hgot : got = c.requestEnd sent) :
      Serves c sent got mid (.acking c.request a) []
  | dispatching (mid : List Obs) (hgot : got = c.requestEnd sent) :
      Serves c sent got mid (.dispatching c.request) []
  | handling (before : List Obs) (ops : List Acted) (hgot : got = c.requestEnd sent) :
      Serves c sent got (before ++ handled c.request (c.requestEnd sent) ops)
        (.handling c.request ops) []
  | silent (mid : List Obs) (h : ¬Responds c.request.id) :
      Serves c sent got mid (.idle .running) []
  | replying (mid : List Obs) (ops : List Acted) (q : Packet) (a : Activity) (m : Nat)
      (h : Handled c sent mid ops) (hq : Answers c.request ops q) :
      Serves c sent got mid (.replying c.request ops q a) [(q, m)]
  | replied (mid : List Obs) (ops : List Acted) (q : Packet) (m : Nat)
      (h : Handled c sent mid ops) (hq : Answers c.request ops q) :
      Serves c sent got mid (.idle .running) [(q, m)]

/-- Where the host is: `unwritten` of its frame is yet to be written, `leaving`
and `coming` are the packets on their way to and from the controller, which is at
`pt`. -/
inductive Stage (l : HostLink) :
    List UInt8 → Point → List (Packet × Nat) → List (Packet × Nat) → Prop
  /-- between two calls -/
  | rest (pt : Point) (leaving : List (Packet × Nat))
      (hprog : ∃ res, l.host.node.prog = .ret res) (hclear : Clear pt leaving) :
      Stage l [] pt leaving []
  /-- sending a request that has not been received -/
  | asked (a : Activity) (sent : Nat) (mid : List Obs) (pt : Point)
      (leaving : List (Packet × Nat)) (ha : a.sending = true)
      (hprog : l.host.node.prog = a.prog >>= l.call.sent)
      (hunderway : Underway l.log l.call sent mid) (hclear : Clear pt leaving) :
      Stage l a.unwritten pt
        (leaving ++ [(l.call.request, l.call.requestEnd sent)]) []
  /-- sending a request that has been received and acknowledged -/
  | accepted (a : Activity) (sent : Nat) (mid : List Obs) (pt : Point) (m : Nat)
      (coming : List (Packet × Nat)) (ha : a.sending = true)
      (hprog : l.host.node.prog = a.prog >>= l.call.sent)
      (hunderway : Underway l.log l.call sent mid)
      (hserves : Serves l.call sent l.host.out.got mid pt coming) :
      Stage l a.unwritten pt [] ((ackPacket, m) :: coming)
  /-- waiting for the response -/
  | awaiting (r : Response) (sent : Nat) (mid : List Obs) (pt : Point)
      (coming : List (Packet × Nat)) (hresponse : l.call.response = some r)
      (hprog : l.host.node.prog = (Activity.receiving r.timeoutMs).prog >>= r.received)
      (hunderway : Underway l.log l.call sent mid)
      (hserves : Serves l.call sent l.host.out.got mid pt coming) :
      Stage l [] pt [] coming
  /-- acknowledging the response -/
  | answering (r : Response) (piece : List UInt8) (rest : List (List UInt8)) (sent : Nat)
      (mid : List Obs) (ops : List Acted) (pt : Point) (leaving : List (Packet × Nat))
      (hresponse : l.call.response = some r)
      (hprog : l.host.node.prog = (Activity.acking piece rest).prog >>= r.received)
      (hunderway : Underway l.log l.call sent mid) (hhandled : Handled l.call sent mid ops)
      (hq : Answers l.call.request ops l.host.node.rx.msg.packet) (hclear : Clear pt leaving) :
      Stage l (Activity.acking piece rest).unwritten pt leaving []

/-- The message that the controller has received and has yet to dispatch. -/
def MPMTTestStand.Point.owed : Point → List Packet
  | .acking p _ => [p]
  | .dispatching p => [p]
  | _ => []

/-- Host and controller are in step: no request has been lost, duplicated or
reordered, and each call is at its stage. -/
structure InStep (l : HostLink) (unwritten : List UInt8) (pt : Point)
    (leaving coming : List (Packet × Nat)) : Prop where
  packets : l.Packets unwritten pt leaving coming
  stage : Stage l unwritten pt leaving coming
  ledger : issued l.log = dispatched l.log ++ pt.owed ++ (wantAck leaving).map Prod.fst

/-! ## Steps of the controller -/

section Turns

variable {c : HostCall} {sent got got' : Nat} {mid new : List Obs} {pt pt' : Point}
  {leaving leaving' coming added extra : List (Packet × Nat)}

/-- A controller that owes nothing receives the next request at most. -/
theorem Clear.turn (h : Clear pt leaving)
    (hturn : Turn got got' pt (leaving ++ extra) new pt' leaving' added)
    (hextra : ∀ x ∈ extra, ¬(x.1.id = msgIdAck ∨ x.1.id = msgIdNack)) :
    (∃ left, leaving' = left ++ extra ∧ Clear pt' left ∧ added = []) ∨
      ∃ p m, extra = (p, got') :: leaving' ∧ pt' = .acking p .ack ∧
        added = [(ackPacket, m)] ∧ new = [] := by
  generalize hps : leaving ++ extra = ps at hturn
  cases hturn with
  | keep | poll => exact .inl ⟨leaving, hps.symm, h, rfl⟩
  | receive p rest m hid =>
      cases h with
      | idle => exact .inr ⟨p, m, hps, rfl, rfl, rfl⟩
      | lateAck n =>
          obtain ⟨rfl, -⟩ := Prod.mk.inj (List.cons.inj hps).1
          exact absurd (.inl rfl) hid
  | stray p rest hid =>
      cases h with
      | idle =>
          rw [List.nil_append] at hps
          exact absurd hid (hextra (p, got') (by simp [hps]))
      | lateAck n => exact .inl ⟨[], (List.cons.inj hps).2.symm, .idle, rfl⟩
  | ack p a b =>
      cases h with
      | acking _ _ hsilent => exact .inl ⟨[], hps.symm, .acking p b hsilent, rfl⟩
  | acked p a =>
      cases h with
      | acking _ _ hsilent => exact .inl ⟨[], hps.symm, .dispatching p hsilent, rfl⟩
  | own a =>
      cases h with
      | idle => exact .inl ⟨[], hps.symm, .idle, rfl⟩
      | lateAck n => exact .inl ⟨[(ackPacket, n)], hps.symm, .lateAck n, rfl⟩
  | handle p pt a ops ps hperforms =>
      cases hperforms with
      | dispatch =>
          cases h with
          | dispatching _ hsilent => exact .inl ⟨[], hps.symm, .handling p [] hsilent, rfl⟩
      | handle ops =>
          cases h with
          | handling _ _ hsilent => exact .inl ⟨[], hps.symm, .handling p _ hsilent, rfl⟩
  | finish p pt a ops ps hperforms =>
      cases hperforms with
      | dispatch => cases h with
          | dispatching => exact .inl ⟨[], hps.symm, .idle, rfl⟩
      | handle => cases h with
          | handling => exact .inl ⟨[], hps.symm, .idle, rfl⟩
  | answer p pt a ops q ps m hperforms hq =>
      cases hperforms with
      | dispatch => cases h with
          | dispatching _ hsilent => exact absurd hq.responds hsilent
      | handle => cases h with
          | handling _ _ hsilent => exact absurd hq.responds hsilent
  | reply p ops q a b =>
      cases h with
      | replying _ _ _ _ m => exact .inl ⟨_, hps.symm, .replying p ops q b m, rfl⟩
  | replied p ops q ps =>
      cases h with
      | replying => exact .inl ⟨[], (List.cons.inj hps).2.symm, .idle, rfl⟩
  | gaveUp p ops q ps ps' hlost =>
      cases h with
      | replying _ _ _ _ m =>
          rcases hlost with rfl | ⟨n, rfl⟩
          · exact .inl ⟨_, hps.symm, .lateAck m, rfl⟩
          · exact .inl ⟨[], (List.cons.inj hps).2.symm, .idle, rfl⟩

/-- What has been done stays done. -/
theorem Handled.append {ops : List Acted} (h : Handled c sent mid ops) (new : List Obs) :
    Handled c sent (mid ++ new) ops := by
  obtain ⟨before, after, rfl⟩ := h
  exact ⟨before, after ++ new, by simp⟩

/-- The operations for the request that is being served. -/
theorem Serves.performs {a : Acted} {ops : List Acted} {p : Packet}
    (h : Serves c sent got mid pt coming) (hperforms : Performs p pt a ops) :
    p = c.request ∧ coming = [] ∧ got = c.requestEnd sent ∧
      ∃ before, mid ++ [.acted a got] =
        before ++ handled c.request (c.requestEnd sent) ops := by
  cases hperforms with
  | dispatch =>
      cases h with
      | dispatching _ hgot =>
          subst hgot
          exact ⟨rfl, rfl, rfl, mid, rfl⟩
  | handle ops a =>
      cases h with
      | handling before _ hgot =>
          subst hgot
          refine ⟨rfl, rfl, rfl, before, ?_⟩
          rw [List.append_assoc, handled_snoc]

/-- A controller that serves a request goes on with it. -/
theorem Serves.turn (h : Serves c sent got mid pt coming)
    (hturn : Turn got got' pt [] new pt' leaving' added) :
    leaving' = [] ∧ Serves c sent got' (mid ++ new) pt' (coming ++ added) := by
  obtain ⟨ps, hps⟩ : ∃ ps : List (Packet × Nat), ps = [] := ⟨[], rfl⟩
  rw [← hps] at hturn
  cases hturn with
  | keep _ _ hgot =>
      rw [List.append_nil, List.append_nil, hgot]
      exact ⟨hps, h⟩
  | poll =>
      rw [List.append_nil, List.append_nil]
      cases h with
      | silent _ hsilent => exact ⟨hps, .silent mid hsilent⟩
      | replied _ ops q m hhandled hq => exact ⟨hps, .replied mid ops q m hhandled hq⟩
  | receive | stray | replied => cases hps
  | ack p a b ps hgot =>
      rw [List.append_nil, List.append_nil, hgot]
      cases h with
      | acking _ _ hend => exact ⟨hps, .acking mid b hend⟩
  | acked p a ps hgot =>
      rw [List.append_nil, List.append_nil, hgot]
      cases h with
      | acking _ _ hend => exact ⟨hps, .dispatching mid hend⟩
  | own a =>
      rw [List.append_nil]
      cases h with
      | silent _ hsilent => exact ⟨hps, .silent _ hsilent⟩
      | replied _ ops q m hhandled hq =>
          exact ⟨hps, .replied _ ops q m (hhandled.append _) hq⟩
  | handle p pt a ops ps hperforms hgot =>
      obtain ⟨rfl, rfl, hend, before, hmid⟩ := h.performs hperforms
      rw [List.append_nil, hmid, hgot]
      exact ⟨hps, .handling before ops hend⟩
  | finish p pt a ops ps hperforms hsilent =>
      obtain ⟨rfl, rfl, -, -⟩ := h.performs hperforms
      rw [List.append_nil]
      exact ⟨hps, .silent _ hsilent.id⟩
  | answer p pt a ops q ps m hperforms hq =>
      obtain ⟨rfl, rfl, -, before, hmid⟩ := h.performs hperforms
      rw [List.nil_append, hmid]
      refine ⟨hps, .replying _ ops q _ m ⟨before, [], ?_⟩ hq⟩
      rw [List.append_nil]
  | reply p ops q a b =>
      rw [List.append_nil, List.append_nil]
      cases h with
      | replying _ _ _ _ m hhandled hq =>
          exact ⟨hps, .replying mid ops q b m hhandled hq⟩
  | gaveUp p ops q ps ps' hlost =>
      rw [List.append_nil, List.append_nil]
      subst hps
      have hnone : leaving' = [] := by
        rcases hlost with rfl | ⟨n, hn⟩
        · rfl
        · cases hn
      cases h with
      | replying _ _ _ _ m hhandled hq => exact ⟨hnone, .replied mid ops q m hhandled hq⟩

/-- A step of the controller is not one of the host. -/
theorem Turn.acted (hturn : Turn got got' pt leaving new pt' leaving' added) :
    ∀ o ∈ new, ∃ a got, o = Obs.acted a got := by
  cases hturn with
  | own a | handle _ _ a | finish _ _ a | answer _ _ a =>
      intro o ho
      exact ⟨a, got, List.mem_singleton.mp ho⟩
  | _ => simp

/-- Only a dispatch counts. -/
theorem dispatched_of_ne {a : Acted} (ha : ∀ q, a.op ≠ .dispatch q) :
    dispatched [.acted a got] = [] := by
  have hnone : Obs.dispatched? (.acted a got) = none := by
    cases hop : a.op with
    | dispatch q => exact absurd hop (ha q)
    | _ => simp [Obs.dispatched?, hop]
  simp [dispatched, hnone]

/-- The message of an operation has been received, and is dispatched once. -/
theorem Performs.ledger {p : Packet} {a : Acted} {ops : List Acted}
    (h : Performs p pt a ops) (got : Nat) : pt.owed = dispatched [.acted a got] := by
  cases h with
  | dispatch => rfl
  | handle ops a ha => exact (dispatched_of_ne ha).symm

/-- The controller neither loses nor duplicates requests. -/
theorem Turn.ledger (hturn : Turn got got' pt leaving new pt' leaving' added) :
    pt.owed ++ (wantAck leaving).map Prod.fst =
      dispatched new ++ pt'.owed ++ (wantAck leaving').map Prod.fst := by
  cases hturn with
  | keep | poll | ack | acked | reply => rfl
  | receive p ps m hid => rw [wantAck_cons_of hid]; rfl
  | stray p ps hid => rw [wantAck_cons_of_not hid]; rfl
  | own a ps ha => rw [dispatched_of_ne ha]; rfl
  | handle p pt a ops ps h | finish p pt a ops ps h | answer p pt a ops q ps m h =>
      rw [h.ledger got]
      simp [Point.owed]
  | replied => rw [wantAck_cons_of_not (.inl rfl)]; rfl
  | gaveUp p ops q ps ps' hlost =>
      rcases hlost with rfl | ⟨m, rfl⟩
      · rfl
      · rw [wantAck_cons_of_not (.inl rfl)]; rfl

theorem Turn.issued (hturn : Turn got got' pt leaving new pt' leaving' added) :
    Ports.issued new = [] := by
  refine List.filterMap_eq_nil_iff.mpr fun o ho => ?_
  obtain ⟨a, got, rfl⟩ := hturn.acted o ho
  rfl

theorem Underway.append {log : List Obs} (h : Underway log c sent mid)
    (hnew : ∀ o ∈ new, ∃ a got, o = .acted a got) :
    Underway (log ++ new) c sent (mid ++ new) where
  log_eq := by
    obtain ⟨pre, rfl⟩ := h.log_eq
    exact ⟨pre, by simp⟩
  acted o ho := by
    rcases List.mem_append.mp ho with ho | ho
    · exact h.acted o ho
    · exact hnew o ho

/-- A controller that owes nothing but waits has its acknowledgement coming. -/
theorem Clear.expects (h : Clear pt leaving) : Expects pt (leaving ++ extra) := by
  rintro p ops q rfl
  cases h with
  | replying _ _ _ _ m => exact .inr ⟨m, extra, rfl⟩

section Stages

variable {l l' : HostLink} {unwritten : List UInt8}

theorem Stage.expects (h : Stage l unwritten pt leaving coming) : Expects pt leaving := by
  cases h with
  | rest _ _ _ hclear =>
      rw [← List.append_nil leaving]
      exact hclear.expects
  | asked _ _ _ _ _ _ _ _ hclear => exact hclear.expects
  | accepted | awaiting => exact fun _ _ _ _ => .inl rfl
  | answering _ _ _ _ _ _ _ _ _ _ _ _ _ hclear =>
      rw [← List.append_nil leaving]
      exact hclear.expects

theorem Clear.running (h : Clear pt leaving) : pt ≠ .idle .connecting := by
  rintro rfl
  cases h

theorem Serves.running (h : Serves c sent got mid pt coming) : pt ≠ .idle .connecting := by
  rintro rfl
  cases h

theorem Stage.running (h : Stage l unwritten pt leaving coming) : pt ≠ .idle .connecting := by
  cases h with
  | rest _ _ _ hclear => exact hclear.running
  | asked _ _ _ _ _ _ _ _ hclear => exact hclear.running
  | accepted _ _ _ _ _ _ _ _ _ hserves => exact hserves.running
  | awaiting _ _ _ _ _ _ _ _ hserves => exact hserves.running
  | answering _ _ _ _ _ _ _ _ _ _ _ _ _ hclear => exact hclear.running

theorem Underway.turn (h : Underway l.log l.call sent mid)
    (hturn : Turn got got' pt leaving new pt' leaving' added)
    (hlog : l'.log = l.log ++ new) (hsame : HostLink.Same l l') :
    Underway l'.log l'.call sent (mid ++ new) := by
  rw [hlog, hsame.call]
  exact h.append hturn.acted

/-- The stages go on as the controller does. -/
theorem Stage.turn (h : Stage l unwritten pt leaving coming)
    (hturn : Turn l.host.out.got l'.host.out.got pt leaving new pt' leaving' added)
    (hlog : l'.log = l.log ++ new) (hsame : HostLink.Same l l') :
    Stage l' unwritten pt' leaving' (coming ++ added) := by
  cases h with
  | rest _ _ hprog hclear =>
      rw [← List.append_nil leaving] at hturn
      rcases hclear.turn hturn (by simp) with ⟨left, rfl, hclear, rfl⟩ | ⟨p, m, hnil, -⟩
      · rw [List.append_nil]
        rw [← hsame.node] at hprog
        exact .rest pt' left hprog hclear
      · cases hnil
  | asked a sent mid _ left ha hprog hunderway hclear =>
      have hextra : ∀ x ∈ [(l.call.request, l.call.requestEnd sent)],
          ¬(x.1.id = msgIdAck ∨ x.1.id = msgIdNack) := by
        intro x hx
        rw [List.mem_singleton.mp hx]
        exact l.call.request_id
      have hunderway := hunderway.turn hturn hlog hsame
      rw [← hsame.node, ← hsame.call] at hprog
      rcases hclear.turn hturn hextra with
        ⟨left, rfl, hclear, rfl⟩ | ⟨p, m, hreceived, rfl, rfl, rfl⟩
      · rw [← hsame.call]
        exact .asked a sent _ pt' left ha hprog hunderway hclear
      · obtain ⟨hhead, rfl⟩ := List.cons.inj hreceived
        obtain ⟨rfl, hend⟩ := Prod.mk.inj hhead
        rw [← hsame.call] at hend ⊢
        exact .accepted a sent _ _ m [] ha hprog hunderway (.acking _ .ack hend.symm)
  | accepted a sent mid _ m coming ha hprog hunderway hserves =>
      obtain ⟨rfl, hserves⟩ := hserves.turn hturn
      have hunderway := hunderway.turn hturn hlog hsame
      rw [← hsame.node, ← hsame.call] at hprog
      rw [← hsame.call] at hserves
      exact .accepted a sent _ pt' m _ ha hprog hunderway hserves
  | awaiting r sent mid _ coming hresponse hprog hunderway hserves =>
      obtain ⟨rfl, hserves⟩ := hserves.turn hturn
      have hunderway := hunderway.turn hturn hlog hsame
      rw [← hsame.node] at hprog
      rw [← hsame.call] at hserves hresponse
      exact .awaiting r sent _ pt' _ hresponse hprog hunderway hserves
  | answering r piece rest sent mid ops _ _ hresponse hprog hunderway hhandled hq hclear =>
      rw [← List.append_nil leaving] at hturn
      have hunderway := hunderway.turn hturn hlog hsame
      have hhandled := hhandled.append new
      rw [← hsame.call] at hhandled hresponse hq
      rw [← hsame.node] at hprog hq
      rcases hclear.turn hturn (by simp) with ⟨left, rfl, hclear, rfl⟩ | ⟨p, m, hnil, -⟩
      · rw [List.append_nil]
        exact .answering r piece rest sent _ ops pt' left hresponse hprog hunderway hhandled
          hq hclear
      · cases hnil

/-- The controller takes a step, and host and controller stay in step. -/
theorem InStep.turn {e : LinkEvent} (h : InStep l unwritten pt leaving coming)
    (hcall : ∀ c, e ≠ .call c) (hhost : ∀ e', e ≠ .host e') (hstep : l.step e = some l') :
    ∃ pt' leaving' added new,
      Turn l.host.out.got l'.host.out.got pt leaving new pt' leaving' added ∧
        InStep l' unwritten pt' leaving' (coming ++ added) ∧ l'.log = l.log ++ new ∧
        l'.call = l.call := by
  obtain ⟨new, pt', leaving', added, hturn, hpackets, hlog, hsame⟩ :=
    l.controller_turn h.packets h.stage.running h.stage.expects hcall hhost hstep
  refine ⟨pt', leaving', added, new, hturn, ?_, hlog, hsame.call⟩
  exact
    { packets := hpackets
      stage := h.stage.turn hturn hlog hsame
      ledger := by
        rw [hlog, issued_append, dispatched_append, hturn.issued, List.append_nil, h.ledger,
          List.append_assoc, hturn.ledger]
        simp only [List.append_assoc] }

/-- **The controller takes a step**, and host and controller stay in step. -/
theorem InStep.controller {e : LinkEvent} (h : InStep l unwritten pt leaving coming)
    (hcall : ∀ c, e ≠ .call c) (hhost : ∀ e', e ≠ .host e') (hstep : l.step e = some l') :
    ∃ pt' leaving' coming' new, InStep l' unwritten pt' leaving' coming' ∧
      l'.log = l.log ++ new ∧ (∀ o ∈ new, ∃ a got, o = .acted a got) ∧ l'.call = l.call := by
  obtain ⟨pt', leaving', added, new, hturn, hin, hlog, hsame⟩ := h.turn hcall hhost hstep
  exact ⟨pt', leaving', coming ++ added, new, hin, hlog, hturn.acted, hsame⟩

end Stages

end Turns

/-! ## Steps of the host -/

/-- The call has begun in this log, and its value, if it has one, is what the
controller computed for it. -/
def Fulfilled (log : List Obs) (c : HostCall) (v : HostValue) : Prop :=
  ∃ sent mid, Underway log c sent mid ∧ (c.response = none ∨ Served c sent mid v)

/-- What a step of the host comes to. -/
inductive HostOutcome (l l' : HostLink) : Prop
  | goes (unwritten : List UInt8) (pt : Point) (leaving coming : List (Packet × Nat))
      (hlog : l'.log = l.log) (h : InStep l' unwritten pt leaving coming)
  | returns (pt : Point) (leaving : List (Packet × Nat)) (v : HostValue)
      (hlog : l'.log = l.log ++ [.returned l.call .ok v]) (hv : Fulfilled l.log l.call v)
      (h : InStep l' [] pt leaving [])
  /-- the response to a bare ECHO is on its way or will be -/
  | echoed (pt : Point) (coming : List (Packet × Nat)) (sent : Nat) (mid : List Obs)
      (v : HostValue) (hlog : l'.log = l.log ++ [.returned l.call .ok v])
      (hv : Fulfilled l.log l.call v) (hecho : ∃ data fits, l.call = .echo data fits)
      (hprog : ∃ res, l'.host.node.prog = .ret res)
      (hpackets : l'.Packets [] pt [] coming)
      (hserves : Serves l.call sent l'.host.out.got mid pt coming)

/-- The same, where the controller is at `pt` and the messages on their way to it are
`wanted`: a step of the host changes neither. -/
inductive HostStep (l l' : HostLink) (pt : Point) (wanted : List (Packet × Nat)) : Prop
  | goes (unwritten : List UInt8) (leaving coming : List (Packet × Nat))
      (hwant : wantAck leaving = wanted) (hlog : l'.log = l.log)
      (h : InStep l' unwritten pt leaving coming)
  | returns (leaving : List (Packet × Nat)) (v : HostValue) (hwant : wantAck leaving = wanted)
      (hlog : l'.log = l.log ++ [.returned l.call .ok v]) (hv : Fulfilled l.log l.call v)
      (h : InStep l' [] pt leaving [])
  | echoed (coming : List (Packet × Nat)) (sent : Nat) (mid : List Obs)
      (v : HostValue) (hlog : l'.log = l.log ++ [.returned l.call .ok v])
      (hv : Fulfilled l.log l.call v) (hecho : ∃ data fits, l.call = .echo data fits)
      (hprog : ∃ res, l'.host.node.prog = .ret res)
      (hpackets : l'.Packets [] pt [] coming)
      (hserves : Serves l.call sent l'.host.out.got mid pt coming)

theorem HostStep.outcome {l l' : HostLink} {pt : Point} {wanted : List (Packet × Nat)}
    (h : HostStep l l' pt wanted) : HostOutcome l l' := by
  cases h with
  | goes unwritten leaving coming _ hlog h => exact .goes unwritten pt leaving coming hlog h
  | returns leaving v _ hlog hv h => exact .returns pt leaving v hlog hv h
  | echoed coming sent mid v hlog hv hecho hprog hpackets hserves =>
      exact .echoed pt coming sent mid v hlog hv hecho hprog hpackets hserves

section Host

variable {l l' : HostLink} {unwritten : List UInt8} {pt : Point}
  {leaving coming : List (Packet × Nat)} {c : HostCall} {sent got : Nat} {mid : List Obs}

/-- A call under way has to wait. -/
theorem Activity.prog_ne_ret {A : Sig} {α : Type} (a : Activity)
    (k : SerialResult → LinkProg A α) (res : α) : a.prog >>= k ≠ .ret res := by
  cases a <;> exact nofun

/-- Between two calls the host is at rest. -/
theorem Stage.of_ret (h : Stage l unwritten pt leaving coming)
    {res : SerialResult × HostValue} (hret : l.host.node.prog = .ret res) :
    unwritten = [] ∧ coming = [] ∧ Clear pt leaving := by
  cases h with
  | rest _ _ _ hclear => exact ⟨rfl, rfl, hclear⟩
  | asked _ _ _ _ _ _ hprog | accepted _ _ _ _ _ _ _ hprog
  | awaiting _ _ _ _ _ _ hprog | answering _ _ _ _ _ _ _ _ _ hprog =>
      exact absurd (hprog.symm.trans hret) (Activity.prog_ne_ret _ _ _)

/-- The host begins a call, and its request is the last message on its way. -/
theorem InStep.begins (h : InStep l unwritten pt leaving coming)
    (hstep : l.step (.call c) = some l') :
    (∃ unwritten, InStep l' unwritten pt
        (leaving ++ [(c.request, c.requestEnd l.host.out.sent)]) []) ∧
      l'.log = l.log ++ [.begun c l.host.out.sent] ∧ l'.call = c := by
  cases HostLink.step_cases hstep with
  | call _ res hret =>
      obtain ⟨rfl, rfl, hclear⟩ := h.stage.of_ret hret
      have hstart : Partial l.host.node.rx [] := h.packets.coming.start_of_none
      have hidle : l.host.node.rx.transport.msgInProgress = false := hstart.start_iff.2.mpr rfl
      have hnode := HostCall.resume_prog hidle c
      have hresults : (Node.resume l.host.node.rx c.prog).results c = [] :=
        HostLink.results_goes (by rw [hnode]) c
      rw [hresults]
      refine ⟨⟨(Activity.send c.request).unwritten, ?_⟩, rfl, rfl⟩
      have hunderway : Underway (l.log ++ [.begun c l.host.out.sent]) c l.host.out.sent [] :=
        ⟨⟨l.log, rfl⟩, by simp⟩
      have hleaving := h.packets.leaving
      have hcoming := h.packets.coming
      rw [List.append_nil] at hleaving
      exact
        { packets := by
            refine ⟨h.packets.at_point, hleaving.append c.request, ?_⟩
            rw [hnode]
            exact hcoming
          stage := .asked (.send c.request) l.host.out.sent [] pt leaving rfl (by rw [hnode])
            hunderway hclear
          ledger := by
            have hnew : issued [.begun c l.host.out.sent] = [c.request] := rfl
            have hnone : dispatched [.begun c l.host.out.sent] = [] := rfl
            rw [issued_append, dispatched_append, hnew, hnone, wantAck_append,
              wantAck_cons_of c.request_id, wantAck_nil, h.ledger]
            simp }

/-- **The host begins a call.** -/
theorem InStep.call (h : InStep l unwritten pt leaving coming)
    (hstep : l.step (.call c) = some l') :
    (∃ unwritten leaving, InStep l' unwritten pt leaving []) ∧
      l'.log = l.log ++ [.begun c l.host.out.sent] ∧ l'.call = c := by
  obtain ⟨⟨unwritten, hin⟩, hlog, hcall⟩ := h.begins hstep
  exact ⟨⟨unwritten, _, hin⟩, hlog, hcall⟩

/-- Without a response to come, a request that is served owes the host nothing. -/
theorem Serves.clear (h : Serves c sent got mid pt coming) (hsilent : ¬Responds c.request.id) :
    coming = [] ∧ Clear pt [] := by
  cases h with
  | acking _ a => exact ⟨rfl, .acking _ a hsilent⟩
  | dispatching => exact ⟨rfl, .dispatching _ hsilent⟩
  | handling _ ops => exact ⟨rfl, .handling _ ops hsilent⟩
  | silent => exact ⟨rfl, .idle⟩
  | replying _ _ _ _ _ _ hq => exact absurd hq.responds hsilent
  | replied _ _ _ _ _ hq => exact absurd hq.responds hsilent

/-- A response that is coming is the one to the request. -/
theorem Serves.response {p : Packet} {m n : Nat} {rest : List (Packet × Nat)}
    (h : Serves c sent got mid pt ((p, m) :: rest)) :
    rest = [] ∧ Clear pt [(ackPacket, n)] ∧
      ∃ ops, Handled c sent mid ops ∧ Answers c.request ops p := by
  cases h with
  | replying _ ops q a _ hhandled hq =>
      exact ⟨rfl, .replying _ ops _ a n, ops, hhandled, hq⟩
  | replied _ ops q _ hhandled hq => exact ⟨rfl, .lateAck n, ops, hhandled, hq⟩

/-- What the host has observed is neither a request nor a dispatch. -/
theorem ledger_returned {log : List Obs} {res : SerialResult} {v : HostValue} :
    issued (log ++ [.returned c res v]) = issued log ∧
      dispatched (log ++ [.returned c res v]) = dispatched log := by
  have hissued : issued [Obs.returned c res v] = [] := rfl
  have hdispatched : dispatched [Obs.returned c res v] = [] := rfl
  rw [issued_append, dispatched_append, hissued, hdispatched, List.append_nil, List.append_nil]
  exact ⟨rfl, rfl⟩

section Stages

variable {e : PartyEvent} {a b : Activity} {k : SerialResult → HostProg} {next : Next}
  {added rest : List (Packet × Nat)}

/-- A call that goes on is still under way. -/
theorem HostLink.HostFlow.underway
    (hf : HostLink.HostFlow l l' e pt leaving coming a k (.goes b) added rest)
    (h : Underway l.log l.call sent mid) : Underway l'.log l'.call sent mid := by
  rw [hf.log_goes, hf.call]
  exact h

/-- The call of the host goes on, and no request has come or gone. -/
theorem InStep.goes (h : InStep l unwritten pt leaving coming)
    (hf : HostLink.HostFlow l l' e pt leaving coming a k (.goes b) added rest)
    (hstage : Stage l' b.unwritten pt (leaving ++ added) rest)
    (hwant : wantAck (leaving ++ added) = wantAck leaving) :
    HostStep l l' pt (wantAck leaving) := by
  have hledger := h.ledger
  rw [← hwant, ← hf.log_goes] at hledger
  exact .goes _ _ _ hwant hf.log_goes ⟨hf.packets, hstage, hledger⟩

/-- The call of the host is over. -/
theorem InStep.over {res : SerialResult} {v : HostValue} (h : InStep l unwritten pt leaving coming)
    (hlog : l'.log = l.log ++ [.returned c res v]) (hpackets : l'.Packets [] pt leaving [])
    (hprog : ∃ res, l'.host.node.prog = .ret res) (hclear : Clear pt leaving) :
    InStep l' [] pt leaving [] where
  packets := hpackets
  stage := .rest pt leaving hprog hclear
  ledger := by
    rw [hlog, ledger_returned.1, ledger_returned.2]
    exact h.ledger

/-- A request that has not been received is not answered. -/
theorem InStep.asked {left : List (Packet × Nat)}
    (h : InStep l a.unwritten pt (left ++ [(l.call.request, l.call.requestEnd sent)]) [])
    (hf : HostLink.HostFlow l l' e pt (left ++ [(l.call.request, l.call.requestEnd sent)]) [] a
      l.call.sent next added rest)
    (ha : a.sending = true) (hunderway : Underway l.log l.call sent mid)
    (hclear : Clear pt left) :
    HostStep l l' pt (wantAck (left ++ [(l.call.request, l.call.requestEnd sent)])) := by
  have hgoes : ∀ b, next = .goes b → b.sending = true → added = [] → rest = [] →
      HostStep l l' pt (wantAck (left ++ [(l.call.request, l.call.requestEnd sent)])) := by
    rintro b rfl hb rfl rfl
    have hprog := hf.prog
    have hunderway := hf.underway hunderway
    refine h.goes hf ?_ (by rw [List.append_nil])
    rw [List.append_nil, ← hf.call]
    rw [← hf.call] at hprog
    exact .asked b sent mid pt left hb hprog hunderway hclear
  obtain ⟨heard, hflow⟩ := hf.flow
  cases hflow with
  | wrote | wroteLast => exact hgoes _ rfl rfl rfl rfl
  | more => exact hgoes _ rfl ha rfl rfl
  | acked | ackedLast | quiet => simp [Activity.sending] at ha
  | received _ _ _ _ hp | stray _ _ _ _ hp | acknowledged _ _ hp | notAcknowledged _ _ hp =>
      cases hp.coming_eq

/-- The acknowledgement of the request arrives. -/
theorem InStep.accepted_returns {m : Nat}
    (h : InStep l a.unwritten pt [] ((ackPacket, m) :: coming))
    (hf : HostLink.HostFlow l l' e pt [] ((ackPacket, m) :: coming) a l.call.sent
      (.returns .ok) [] coming)
    (hidle : l'.host.node.rx.transport.msgInProgress = false)
    (hunderway : Underway l.log l.call sent mid)
    (hserves : Serves l.call sent l.host.out.got mid pt coming) : HostStep l l' pt [] := by
  rw [← hf.got] at hserves
  rcases hresponse : l.call.response with _ | r
  · have hret : (Next.returns .ok).prog l'.host.node.rx l.call.sent = .ret (.ok, .none) :=
      HostCall.sent_none hresponse
    have hlog := hf.log_returns hret
    have hv : Fulfilled l.log l.call .none := ⟨sent, mid, hunderway, .inl hresponse⟩
    have hprog : ∃ res, l'.host.node.prog = .ret res := ⟨_, hf.prog.trans hret⟩
    by_cases hecho : ∃ data fits, l.call = .echo data fits
    · exact .echoed coming sent mid .none hlog hv hecho hprog hf.packets hserves
    · have hsilent : ¬Responds l.call.request.id :=
        HostCall.silent_of_none hresponse fun data fits heq => hecho ⟨data, fits, heq⟩
      obtain ⟨rfl, hclear⟩ := hserves.clear hsilent
      exact .returns [] .none rfl hlog hv (h.over hlog hf.packets hprog hclear)
  · have hprog := hf.prog
    rw [HostCall.sent_some hresponse hidle] at hprog
    have hlog : l'.log = l.log := by
      rw [hf.log, HostLink.results_goes hprog, List.append_nil]
    refine .goes [] [] coming rfl hlog ?_
    exact
      { packets := hf.packets
        stage := by
          rw [← hlog, ← hf.call] at hunderway
          rw [← hf.call] at hresponse hserves
          exact .awaiting r sent mid pt coming hresponse hprog hunderway hserves
        ledger := by
          rw [hlog]
          exact h.ledger }

/-- A request that has been received is acknowledged. -/
theorem InStep.accepted {m : Nat}
    (h : InStep l a.unwritten pt [] ((ackPacket, m) :: coming))
    (hf : HostLink.HostFlow l l' e pt [] ((ackPacket, m) :: coming) a l.call.sent next added
      rest)
    (ha : a.sending = true) (hunderway : Underway l.log l.call sent mid)
    (hserves : Serves l.call sent l.host.out.got mid pt coming) : HostStep l l' pt [] := by
  have hgoes : ∀ b, next = .goes b → b.sending = true → added = [] →
      rest = (ackPacket, m) :: coming → HostStep l l' pt [] := by
    rintro b rfl hb rfl rfl
    have hprog := hf.prog
    have hunderway := hf.underway hunderway
    rw [← hf.call] at hprog
    rw [← hf.call, ← hf.got] at hserves
    exact h.goes hf (.accepted b sent mid pt m coming hb hprog hunderway hserves) rfl
  obtain ⟨heard, hflow⟩ := hf.flow
  cases hflow with
  | wrote | wroteLast => exact hgoes _ rfl rfl rfl rfl
  | more => exact hgoes _ rfl ha rfl rfl
  | acked | ackedLast | quiet => simp [Activity.sending] at ha
  | received _ _ _ hpoll | stray _ _ _ hpoll =>
      rcases hpoll with rfl | ⟨t, rfl⟩ <;> simp [Activity.sending] at ha
  | acknowledged p rest hp =>
      obtain rfl := (List.cons.inj hp.coming_eq).2
      have hidle := hp.start.start_iff.2.mpr rfl
      exact h.accepted_returns hf hidle hunderway hserves
  | notAcknowledged p rest hp hid =>
      obtain ⟨rfl, -⟩ := Prod.mk.inj (List.cons.inj hp.coming_eq).1
      exact absurd rfl hid

/-- The host waits for the response, or receives it. -/
theorem InStep.awaiting {r : Response}
    (h : InStep l [] pt [] coming)
    (hf : HostLink.HostFlow l l' e pt [] coming (.receiving r.timeoutMs) r.received next added
      rest)
    (hresponse : l.call.response = some r) (hunderway : Underway l.log l.call sent mid)
    (hserves : Serves l.call sent l.host.out.got mid pt coming) : HostStep l l' pt [] := by
  obtain ⟨heard, hflow⟩ := hf.flow
  rw [← hf.call] at hresponse
  cases hflow with
  | more =>
      have hunderway := hf.underway hunderway
      rw [← hf.call, ← hf.got] at hserves
      exact h.goes hf (.awaiting r sent mid pt coming hresponse hf.prog hunderway hserves) rfl
  | received _ p rest _ hr hid =>
      rw [hr.coming_eq] at hserves
      obtain ⟨rfl, hclear, ops, hhandled, hq⟩ :=
        hserves.response (n := l'.host.out.sent + ackPacket.frame.length)
      have hunderway := hf.underway hunderway
      rw [← hr.buffer] at hq
      rw [← hf.call] at hhandled hq
      exact h.goes hf (.answering r _ _ sent mid ops pt _ hresponse hf.prog hunderway hhandled
        hq hclear) rfl
  | stray _ p rest _ hr hid =>
      rw [hr.coming_eq] at hserves
      obtain ⟨-, -, ops, -, hq⟩ := hserves.response (n := 0)
      exact absurd hid hq.reply_id

/-- The host acknowledges the response and returns its value. -/
theorem InStep.answering {r : Response} {piece : List UInt8} {pieces : List (List UInt8)}
    {ops : List Acted} (h : InStep l (Activity.acking piece pieces).unwritten pt leaving [])
    (hf : HostLink.HostFlow l l' e pt leaving [] (.acking piece pieces) r.received next added
      rest)
    (hresponse : l.call.response = some r) (hunderway : Underway l.log l.call sent mid)
    (hhandled : Handled l.call sent mid ops)
    (hq : Answers l.call.request ops l.host.node.rx.msg.packet) (hclear : Clear pt leaving) :
    HostStep l l' pt (wantAck leaving) := by
  obtain ⟨heard, hflow⟩ := hf.flow
  cases hflow with
  | more _ hlisten => cases hlisten
  | received _ _ _ hpoll | stray _ _ _ hpoll => simp at hpoll
  | acked _ next pieces =>
      have hunderway := hf.underway hunderway
      rw [← hf.wrote rfl, ← hf.call] at hq
      rw [← hf.call] at hresponse hhandled
      refine h.goes hf ?_ (by rw [List.append_nil])
      rw [List.append_nil]
      exact .answering r next pieces sent mid ops pt leaving hresponse hf.prog hunderway
        hhandled hq hclear
  | ackedLast =>
      have hpackets := hf.packets
      rw [List.append_nil] at hpackets
      rw [← hf.wrote rfl] at hq
      obtain ⟨v, hret, hcomputes⟩ := hq.computes hresponse rfl
      have hlog := hf.log_returns hret
      have hv : Fulfilled l.log l.call v :=
        ⟨sent, mid, hunderway, .inr ⟨ops, hhandled, hcomputes⟩⟩
      exact .returns leaving v rfl hlog hv
        (h.over hlog hpackets ⟨_, hf.prog.trans hret⟩ hclear)

/-- Between two calls the host reacts to nothing. -/
theorem HostLink.host_none {res : SerialResult × HostValue}
    (hret : l.host.node.prog = .ret res) : l.step (.host e) = none := by
  rcases hstep : l.step (.host e) with _ | l'
  · rfl
  · cases step_cases hstep with
    | host _ host out heard hparty =>
        obtain ⟨s, n, data, hsignal⟩ := Party.step_signal hparty
        cases s <;> simp [Node.signal, hret] at hsignal

/-- The host takes a step that is no timeout. -/
theorem InStep.host_step (h : InStep l unwritten pt leaving coming) (he : e ≠ .timeout)
    (hstep : l.step (.host e) = some l') :
    HostStep l l' pt (wantAck leaving) ∧ l'.call = l.call := by
  cases h.stage with
  | rest _ _ hprog =>
      obtain ⟨res, hret⟩ := hprog
      rw [HostLink.host_none hret] at hstep
      cases hstep
  | asked a sent mid _ left ha hprog hunderway hclear =>
      obtain ⟨next, added, rest, hf⟩ := l.host_flow h.packets hprog he hstep
      exact ⟨h.asked hf ha hunderway hclear, hf.call⟩
  | accepted a sent mid _ m coming ha hprog hunderway hserves =>
      obtain ⟨next, added, rest, hf⟩ := l.host_flow h.packets hprog he hstep
      exact ⟨h.accepted hf ha hunderway hserves, hf.call⟩
  | awaiting r sent mid _ _ hresponse hprog hunderway hserves =>
      obtain ⟨next, added, rest, hf⟩ :=
        l.host_flow (a := .receiving r.timeoutMs) h.packets hprog he hstep
      exact ⟨h.awaiting hf hresponse hunderway hserves, hf.call⟩
  | answering r piece pieces sent mid ops _ _ hresponse hprog hunderway hhandled hq hclear =>
      obtain ⟨next, added, rest, hf⟩ := l.host_flow h.packets hprog he hstep
      exact ⟨h.answering hf hresponse hunderway hhandled hq hclear, hf.call⟩

/-- **The host takes a step** that is no timeout. -/
theorem InStep.host (h : InStep l unwritten pt leaving coming) (he : e ≠ .timeout)
    (hstep : l.step (.host e) = some l') : HostOutcome l l' ∧ l'.call = l.call := by
  obtain ⟨hhost, hcall⟩ := h.host_step he hstep
  exact ⟨hhost.outcome, hcall⟩

/-- A call that gives up while it sends. -/
theorem HostLink.sending_timeout (ha : a.sending = true)
    (hprog : l.host.node.prog = a.prog >>= l.call.sent)
    (hstep : l.step (.host .timeout) = some l') :
    l'.log = l.log ++ [.returned l.call .errNoMsg .none] ∧ l'.call = l.call := by
  obtain ⟨res, hres, -, hprog', hlog, -, -, -, hcall⟩ := l.host_timeout hprog hstep
  obtain rfl : res = .errNoMsg := by
    rcases hres with ⟨⟨t, rfl⟩, -⟩ | ⟨-, hres⟩
    · simp [Activity.sending] at ha
    · exact hres
  rw [HostCall.sent_failed (by decide)] at hprog'
  rw [HostLink.results_ret hprog'] at hlog
  exact ⟨hlog, hcall⟩

/-- **The host gives up.**  The call fails; but nothing is left behind by a
`get_axis_state` that waits for a response that is never sent. -/
theorem InStep.timeout (h : InStep l unwritten pt leaving coming)
    (hstep : l.step (.host .timeout) = some l') :
    ∃ res, res ≠ .ok ∧ l'.log = l.log ++ [.returned l.call res .none] ∧ l'.call = l.call ∧
      (res = .errTimeout → (∃ t, l.call = .getAxisState t) → InStep l' [] pt leaving []) := by
  cases h.stage with
  | rest _ _ hprog =>
      obtain ⟨res, hret⟩ := hprog
      rw [HostLink.host_none hret] at hstep
      cases hstep
  | asked _ _ _ _ _ ha hprog | accepted _ _ _ _ _ _ ha hprog =>
      obtain ⟨hlog, hcall⟩ := HostLink.sending_timeout ha hprog hstep
      exact ⟨.errNoMsg, by decide, hlog, hcall, nofun⟩
  | answering r piece pieces _ _ _ _ _ _ hprog =>
      obtain ⟨res, hres, -⟩ := l.host_timeout hprog hstep
      simp at hres
  | awaiting r sent mid _ _ hresponse hprog hunderway hserves =>
      obtain ⟨res, hres, hrx, hprog', hlog, hhost, hout, hcontroller, hcall⟩ :=
        l.host_timeout (a := .receiving r.timeoutMs) hprog hstep
      obtain rfl : res = .errTimeout := by simpa using hres
      rw [Response.received_failed (by decide)] at hprog'
      rw [HostLink.results_ret hprog'] at hlog
      refine ⟨.errTimeout, by decide, hlog, hcall, fun _ hstate => ?_⟩
      have hsilent : ¬Responds l.call.request.id := by
        obtain ⟨t, ht⟩ := hstate
        rw [ht]
        exact not_responds_getAxisState
      obtain ⟨rfl, hclear⟩ := hserves.clear hsilent
      have hpackets := h.packets
      rw [Carries.reset_of_start hpackets.coming.start_of_none] at hrx
      refine h.over hlog ⟨?_, ?_, ?_⟩ ⟨_, hprog'⟩ hclear
      · rw [hcontroller]
        exact hpackets.at_point
      · rw [hcontroller, hhost]
        exact hpackets.leaving
      · rw [hrx, hout]
        exact hpackets.coming

end Stages

end Host

/-- Before the first call. -/
theorem InStep.init (stand : TestStand) :
    InStep (HostLink.init stand) [] (.idle .running) [] [] where
  packets := ⟨.between .running, .nil (.start _), .nil (.start _)⟩
  stage := .rest _ _ ⟨_, rfl⟩ .idle
  ledger := rfl

end MpmtTestStand.Ports
