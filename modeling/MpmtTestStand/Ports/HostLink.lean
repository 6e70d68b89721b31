import MpmtTestStand.Ports.HostCalls
import MpmtTestStand.Ports.Party

/-!
# The host and the controller

The whole system: a host that makes calls of the application layer, one after
the other and with any arguments, and a controller that loops on `execute`, on
two lossless channels with arbitrary delays, whose writes and reads do not fail.
Timeouts may fire on either side at any moment, and so may the interrupts of the
axes.

`HostLink.controller_turn` says what a step of the controller does, in terms of
the point of its program and of the packets on their way (`Turn`).
-/

namespace MpmtTestStand.Ports

open MpmtTestStand.Verified
open MPMTTestStand

/-! ## State -/

/-- What is observed: a call begins, when the host has written `sent` bytes; the
controller performs an operation, when it has read `got` bytes; a call
returns. -/
inductive Obs
  | begun (c : HostCall) (sent : Nat)
  | acted (a : Acted) (got : Nat)
  | returned (c : HostCall) (res : SerialResult) (value : HostValue)

/-- The host with its current or latest call, the controller, the channel that
either of them writes to, and what has been observed, oldest first. -/
structure HostLink where
  host : Party noOps (SerialResult × HostValue)
  call : HostCall
  controller : Controller
  out : Channel
  log : List Obs

namespace HostLink

/-- Both transports are at `MSG_SEG_START`, and the channels are empty. -/
def init (stand : TestStand) : HostLink where
  host := ⟨⟨.fresh, .ret (.ok, .none)⟩, .empty⟩
  call := .ping
  controller := ⟨⟨.fresh, .ret .running⟩, stand⟩
  out := .empty
  log := []

end HostLink

/-! ## Steps -/

/-- The host begins a call or goes on with it; the controller goes on in the
transport, performs an operation or begins another round; an interrupt handler
runs. -/
inductive LinkEvent
  | call (c : HostCall)
  | host (e : PartyEvent)
  | controller (e : PartyEvent)
  | act (around : Outside)
  | loop
  | interrupt (id : AxisId) (e : AxisEvent)

/-- The result of a call that has ended. -/
def Node.results (n : Node noOps (SerialResult × HostValue)) (c : HostCall) : List Obs :=
  match n.prog with
  | .ret (res, value) => [.returned c res value]
  | .op _ _ => []

namespace HostLink

/-- The controller has taken a step in the transport. -/
def setParty (l : HostLink) (party : Party standSig Phase) (inbox : Channel) : HostLink :=
  { l with
    host := ⟨l.host.node, inbox⟩
    controller := { l.controller with node := party.node }
    out := party.out }

def step (l : HostLink) : LinkEvent → Option HostLink
  | .call c =>
      match l.host.node.prog with
      | .ret _ =>
          let node := Node.resume l.host.node.rx c.prog
          some { l with
            host := ⟨node, l.host.out⟩
            call := c
            log := l.log ++ .begun c l.host.out.sent :: node.results c }
      | .op _ _ => none
  | .host e =>
      match l.host.step l.out e with
      | some (host, out, _) =>
          some { l with host := host, out := out, log := l.log ++ host.node.results l.call }
      | none => none
  | .controller e =>
      match (Party.mk l.controller.node l.out).step l.host.out e with
      | some (party, inbox, _) => some (l.setParty party inbox)
      | none => none
  | .act around =>
      match l.controller.act around with
      | some (controller, a) =>
          some { l with controller := controller, log := l.log ++ [.acted a l.host.out.got] }
      | none => none
  | .loop => l.controller.loop.map fun c => { l with controller := c }
  | .interrupt id e => (l.controller.interrupt id e).map fun c => { l with controller := c }

/-- What a step is. -/
inductive Steps (l : HostLink) : LinkEvent → HostLink → Prop
  | call (c : HostCall) (res : SerialResult × HostValue) (hret : l.host.node.prog = .ret res) :
      Steps l (.call c) { l with
        host := ⟨Node.resume l.host.node.rx c.prog, l.host.out⟩
        call := c
        log := l.log ++ .begun c l.host.out.sent ::
          (Node.resume l.host.node.rx c.prog).results c }
  | host (e : PartyEvent) (host : Party noOps (SerialResult × HostValue)) (out : Channel)
      (heard : Option Packet) (hparty : l.host.step l.out e = some (host, out, heard)) :
      Steps l (.host e)
        { l with host := host, out := out, log := l.log ++ host.node.results l.call }
  | controller (e : PartyEvent) (party : Party standSig Phase) (inbox : Channel)
      (heard : Option Packet)
      (hparty : (Party.mk l.controller.node l.out).step l.host.out e =
        some (party, inbox, heard)) :
      Steps l (.controller e) (l.setParty party inbox)
  | act (around : Outside) (controller : Controller) (a : Acted)
      (hact : l.controller.act around = some (controller, a)) :
      Steps l (.act around)
        { l with controller := controller, log := l.log ++ [.acted a l.host.out.got] }
  | loop (controller : Controller) (hloop : l.controller.loop = some controller) :
      Steps l .loop { l with controller := controller }
  | interrupt (id : AxisId) (e : AxisEvent) (controller : Controller)
      (hinterrupt : l.controller.interrupt id e = some controller) :
      Steps l (.interrupt id e) { l with controller := controller }

theorem step_cases {l l' : HostLink} {e : LinkEvent} (h : l.step e = some l') :
    l.Steps e l' := by
  cases e with
  | call c =>
      rcases hret : l.host.node.prog with res | ⟨o, k⟩
      · simp only [step, hret, Option.some.injEq] at h
        subst h
        exact .call c res hret
      · simp [step, hret] at h
  | host e =>
      rcases hparty : l.host.step l.out e with _ | ⟨host, out, heard⟩
      · simp [step, hparty] at h
      · simp only [step, hparty, Option.some.injEq] at h
        subst h
        exact .host e host out heard hparty
  | controller e =>
      rcases hparty : (Party.mk l.controller.node l.out).step l.host.out e with
        _ | ⟨party, inbox, heard⟩
      · simp [step, hparty] at h
      · simp only [step, hparty, Option.some.injEq] at h
        subst h
        exact .controller e party inbox heard hparty
  | act around =>
      rcases hact : l.controller.act around with _ | ⟨controller, a⟩
      · simp [step, hact] at h
      · simp only [step, hact, Option.some.injEq] at h
        subst h
        exact .act around controller a hact
  | loop =>
      obtain ⟨c, hloop, rfl⟩ := Option.map_eq_some_iff.mp h
      exact .loop c hloop
  | interrupt id e =>
      obtain ⟨c, hinterrupt, rfl⟩ := Option.map_eq_some_iff.mp h
      exact .interrupt id e c hinterrupt

end HostLink

/-! ## The packets on their way -/

/-- What the controller has yet to write of its frame. -/
def MPMTTestStand.Point.unwritten : Point → List UInt8
  | .acking _ a => a.unwritten
  | .replying _ _ _ a => a.unwritten
  | _ => []

/-- Where the controller is, and what is on its way in both directions; the host
has yet to write `unwritten` of its frame. -/
structure HostLink.Packets (l : HostLink) (unwritten : List UInt8) (pt : Point)
    (leaving coming : List (Packet × Nat)) : Prop where
  at_point : At l.controller.node.rx pt l.controller.node.prog
  leaving : Carries l.controller.node.rx l.host.out.got (l.host.out.queue ++ unwritten) leaving
  coming : Carries l.host.node.rx l.out.got (l.out.queue ++ pt.unwritten) coming

/-- An operation that belongs to the message `p`; with it, the handler has
performed `ops`. -/
inductive Performs (p : Packet) : Point → Acted → List Acted → Prop
  | dispatch : Performs p (.dispatching p) ⟨.dispatch p, ()⟩ []
  | handle (ops : List Acted) (a : Acted) (ha : ∀ q, a.op ≠ .dispatch q) :
      Performs p (.handling p ops) a (ops ++ [a])

/-- A step of the controller, which has read `got` bytes before and `got'` bytes
after it: which of the packets that were coming are still to come, what is
observed, and which packet it begins to send. -/
inductive Turn (got got' : Nat) : Point → List (Packet × Nat) → List Obs → Point →
    List (Packet × Nat) → List (Packet × Nat) → Prop
  /-- nothing changes -/
  | keep (pt : Point) (ps : List (Packet × Nat)) (hgot : got' = got) :
      Turn got got' pt ps [] pt ps []
  /-- a byte is read -/
  | poll (ps : List (Packet × Nat)) :
      Turn got got' (.idle .running) ps [] (.idle .running) ps []
  | receive (p : Packet) (ps : List (Packet × Nat)) (m : Nat)
      (hid : ¬(p.id = msgIdAck ∨ p.id = msgIdNack)) :
      Turn got got' (.idle .running) ((p, got') :: ps) [] (.acking p .ack) ps [(ackPacket, m)]
  | stray (p : Packet) (ps : List (Packet × Nat)) (hid : p.id = msgIdAck ∨ p.id = msgIdNack) :
      Turn got got' (.idle .running) ((p, got') :: ps) [] (.idle .running) ps []
  | ack (p : Packet) (a b : Activity) (ps : List (Packet × Nat)) (hgot : got' = got) :
      Turn got got' (.acking p a) ps [] (.acking p b) ps []
  | acked (p : Packet) (a : Activity) (ps : List (Packet × Nat)) (hgot : got' = got) :
      Turn got got' (.acking p a) ps [] (.dispatching p) ps []
  | own (a : Acted) (ps : List (Packet × Nat)) (ha : ∀ q, a.op ≠ .dispatch q)
      (hgot : got' = got) :
      Turn got got' (.idle .running) ps [.acted a got] (.idle .running) ps []
  | handle (p : Packet) (pt : Point) (a : Acted) (ops : List Acted) (ps : List (Packet × Nat))
      (h : Performs p pt a ops) (hgot : got' = got) :
      Turn got got' pt ps [.acted a got] (.handling p ops) ps []
  | finish (p : Packet) (pt : Point) (a : Acted) (ops : List Acted) (ps : List (Packet × Nat))
      (h : Performs p pt a ops) (hsilent : Silent p ops) :
      Turn got got' pt ps [.acted a got] (.idle .running) ps []
  | answer (p : Packet) (pt : Point) (a : Acted) (ops : List Acted) (q : Packet)
      (ps : List (Packet × Nat)) (m : Nat) (h : Performs p pt a ops) (hq : Answers p ops q) :
      Turn got got' pt ps [.acted a got] (.replying p ops q (.send q)) ps [(q, m)]
  | reply (p : Packet) (ops : List Acted) (q : Packet) (a b : Activity)
      (ps : List (Packet × Nat)) :
      Turn got got' (.replying p ops q a) ps [] (.replying p ops q b) ps []
  | replied (p : Packet) (ops : List Acted) (q : Packet) (ps : List (Packet × Nat)) :
      Turn got got' (.replying p ops q .waiting) ((ackPacket, got') :: ps) []
        (.idle .running) ps []
  /-- the wait for the acknowledgement ends; one that was coming in is lost -/
  | gaveUp (p : Packet) (ops : List Acted) (q : Packet) (ps ps' : List (Packet × Nat))
      (h : ps' = ps ∨ ∃ m, ps = (ackPacket, m) :: ps') :
      Turn got got' (.replying p ops q .waiting) ps [] (.idle .running) ps' []

/-! ## What the controller does -/

/-- While the controller waits for an acknowledgement, nothing else is coming
in before it. -/
def Expects (pt : Point) (ps : List (Packet × Nat)) : Prop :=
  ∀ p ops q, pt = .replying p ops q .waiting → ps = [] ∨ ∃ m rest, ps = (ackPacket, m) :: rest

namespace HostLink

/-- What a step of the controller leaves alone. -/
structure Same (l l' : HostLink) : Prop where
  node : l'.host.node = l.host.node
  call : l'.call = l.call
  sent : l'.host.out.sent = l.host.out.sent

section Turns

variable {l l' : HostLink} {unwritten : List UInt8} {pt : Point}
  {leaving coming : List (Packet × Nat)}

/-- What is left to write at a point is left to write of its call. -/
theorem unwritten_of_calls {rx : Receiver} {a : Activity} {k : SerialResult → StandProg Phase}
    (h : Calls rx pt a k) (hpt : pt ≠ .idle .connecting) : pt.unwritten = a.unwritten := by
  cases h with
  | poll => rfl
  | ping => exact absurd rfl hpt
  | ack => rfl
  | reply => rfl

/-- A step of a call of the controller that does not give up. -/
theorem turn_of_flow {rx rx' : Receiver} {a : Activity} {k : SerialResult → StandProg Phase}
    {e : PartyEvent} {sent got got' : Nat} {heard : Option Packet} {next : Next}
    {added rest : List (Packet × Nat)} (hcalls : Calls rx pt a k)
    (hpt : pt ≠ .idle .connecting) (hexpects : Expects pt leaving)
    (hflow : Flow rx' sent got' leaving a e heard next added rest)
    (hwrote : e = .wrote → got' = got ∧ rx' = rx) :
    ∃ pt', At rx' pt' (next.prog rx' k) ∧ pt'.unwritten = next.unwritten ∧
      Turn got got' pt leaving [] pt' rest added := by
  cases hcalls with
  | ping => exact absurd rfl hpt
  | poll =>
      cases hflow with
      | more => exact ⟨_, .call .poll, rfl, .poll _⟩
      | received _ p rest _ hp hid =>
          have hidle : rx'.transport.msgInProgress = false := hp.start.start_iff.2.mpr rfl
          rw [hp.coming_eq]
          exact ⟨_, .call (.ack p _ _ hp.buffer hidle), rfl, .receive p rest _ hid⟩
      | stray _ p rest _ hp hid =>
          rw [hp.coming_eq]
          exact ⟨_, .not_polled (by simp), rfl, .stray p rest hid⟩
      | quiet => exact ⟨_, .not_polled (by simp), rfl, .poll _⟩
  | ack p piece rest hmsg hidle =>
      cases hflow with
      | acked _ next rest =>
          obtain ⟨rfl, rfl⟩ := hwrote rfl
          exact ⟨_, .call (.ack p next rest hmsg hidle), rfl, .ack p _ _ _ rfl⟩
      | ackedLast =>
          obtain ⟨rfl, rfl⟩ := hwrote rfl
          exact ⟨_, .polled hmsg hidle, rfl, .acked p _ _ rfl⟩
      | more _ ha => cases ha
      | received _ _ _ ha => simp at ha
      | stray _ _ _ ha => simp at ha
  | reply p ops q a ha hq =>
      cases hflow with
      | wrote _ next rest =>
          exact ⟨_, .call (.reply p ops q (.writing next rest) rfl hq), rfl,
            .reply p ops q _ _ _⟩
      | wroteLast =>
          exact ⟨_, .call (.reply p ops q .waiting rfl hq), rfl, .reply p ops q _ _ _⟩
      | acked | ackedLast | quiet => simp [Activity.sending] at ha
      | more => exact ⟨_, .call (.reply p ops q a ha hq), rfl, .reply p ops q a a _⟩
      | received _ _ _ hpoll => rcases hpoll with rfl | ⟨t, rfl⟩ <;> simp [Activity.sending] at ha
      | stray _ _ _ hpoll => rcases hpoll with rfl | ⟨t, rfl⟩ <;> simp [Activity.sending] at ha
      | acknowledged r rest hr hid =>
          rcases hexpects p ops q rfl with hnil | ⟨m, rest', hack⟩
          · simp [hr.coming_eq] at hnil
          · obtain ⟨hhead, rfl⟩ := List.cons.inj (hr.coming_eq.symm.trans hack)
            obtain ⟨rfl, -⟩ := Prod.mk.inj hhead
            rw [hr.coming_eq]
            exact ⟨_, .between _, rfl, .replied p ops q rest⟩
      | notAcknowledged r rest hr hid =>
          rcases hexpects p ops q rfl with hnil | ⟨m, rest', hack⟩
          · simp [hr.coming_eq] at hnil
          · obtain ⟨hhead, -⟩ := List.cons.inj (hr.coming_eq.symm.trans hack)
            obtain ⟨rfl, -⟩ := Prod.mk.inj hhead
            exact absurd rfl hid

/-- The controller goes on in the transport. -/
theorem controller_flow {e : PartyEvent} (hp : l.Packets unwritten pt leaving coming)
    (hpt : pt ≠ .idle .connecting) (hexpects : Expects pt leaving) (he : e ≠ .timeout)
    (h : l.step (.controller e) = some l') :
    ∃ pt' leaving' added,
      Turn l.host.out.got l'.host.out.got pt leaving [] pt' leaving' added ∧
        l'.Packets unwritten pt' leaving' (coming ++ added) ∧ l'.log = l.log ∧ Same l l' := by
  cases step_cases h with
  | controller _ party inbox heard hparty =>
      obtain ⟨s, n, out, hsignal⟩ := Party.step_signal hparty
      obtain ⟨a, k, hcalls, hprog⟩ := hp.at_point.signals hsignal
      have hcoming := hp.coming
      rw [unwritten_of_calls hcalls hpt] at hcoming
      obtain ⟨next, added, rest, hflow, hflowed⟩ :=
        Party.step_flow hprog hp.leaving hcoming he hparty
      have hwrote : e = .wrote → inbox.got = l.host.out.got ∧
          party.node.rx = l.controller.node.rx := by
        rintro rfl
        obtain ⟨rfl, hrx⟩ := Party.step_wrote hprog hparty
        exact ⟨rfl, hrx⟩
      obtain ⟨pt', hat, hunwritten, hturn⟩ :=
        turn_of_flow hcalls hpt hexpects hflow hwrote
      rw [← hflowed.prog] at hat
      have hleaving := hflowed.leaving
      rw [← hunwritten] at hleaving
      exact ⟨pt', rest, added, hturn, ⟨hat, hflowed.coming, hleaving⟩, rfl,
        ⟨rfl, rfl, hflowed.inbox_sent⟩⟩

/-- The controller gives up waiting for an acknowledgement. -/
theorem controller_timeout (hp : l.Packets unwritten pt leaving coming)
    (hpt : pt ≠ .idle .connecting) (hexpects : Expects pt leaving)
    (h : l.step (.controller .timeout) = some l') :
    ∃ pt' leaving' added,
      Turn l.host.out.got l'.host.out.got pt leaving [] pt' leaving' added ∧
        l'.Packets unwritten pt' leaving' (coming ++ added) ∧ l'.log = l.log ∧ Same l l' := by
  cases step_cases h with
  | controller _ party inbox heard hparty =>
      obtain ⟨s, n, out, hsignal⟩ := Party.step_signal hparty
      obtain ⟨a, k, hcalls, hprog⟩ := hp.at_point.signals hsignal
      obtain ⟨res, hres, rfl, -, hout, hrx, hprog'⟩ := Party.step_timeout hprog hparty
      cases hcalls with
      | poll | ack => simp at hres
      | ping => exact absurd rfl hpt
      | reply p ops q a ha hq =>
          obtain rfl : a = .waiting := by
            rcases hres with ⟨⟨t, rfl⟩, -⟩ | ⟨rfl, -⟩
            · simp [Activity.sending] at ha
            · rfl
          have hat : At party.node.rx (.idle .running) party.node.prog := by
            rw [hprog']
            exact .between _
          have hcoming : Carries l.host.node.rx party.out.got
              (party.out.queue ++ (Point.idle .running).unwritten) coming := by
            rw [hout]
            exact hp.coming
          obtain ⟨leaving', hlost, hleaving⟩ := hp.leaving.reset_waiting (hexpects p ops q rfl)
          rw [← hrx] at hleaving
          refine ⟨.idle .running, leaving', [], .gaveUp p ops q leaving leaving' hlost, ?_, rfl,
            ⟨rfl, rfl, rfl⟩⟩
          rw [List.append_nil]
          exact ⟨hat, hleaving, hcoming⟩

/-- The controller performs an operation. -/
theorem controller_act {around : Outside} (hp : l.Packets unwritten pt leaving coming)
    (hpt : pt ≠ .idle .connecting) (h : l.step (.act around) = some l') :
    ∃ new pt' leaving' added,
      Turn l.host.out.got l'.host.out.got pt leaving new pt' leaving' added ∧
        l'.Packets unwritten pt' leaving' (coming ++ added) ∧ l'.log = l.log ++ new ∧
        Same l l' := by
  cases step_cases h with
  | act _ controller a hact =>
      obtain ⟨hrx, pt', hacts, hat⟩ := hp.at_point.act hact
      have hleaving := hp.leaving
      rw [← hrx] at hleaving
      -- the operations before a response write nothing
      have hsilent : pt.unwritten = [] := by
        cases hacts <;> rfl
      have hcoming := hp.coming
      rw [hsilent, List.append_nil] at hcoming
      have hquiet : pt'.unwritten = [] →
          Packets { l with controller := controller, log := l.log ++ [.acted a l.host.out.got] }
            unwritten pt' leaving (coming ++ []) := by
        intro hnothing
        refine ⟨hat, hleaving, ?_⟩
        rw [hnothing, List.append_nil, List.append_nil]
        exact hcoming
      have hcontinues : ∀ p ops, Performs p pt a ops → Continues p ops pt' →
          ∃ added, Turn l.host.out.got l.host.out.got pt leaving [.acted a l.host.out.got] pt'
              leaving added ∧
            Packets { l with controller := controller, log := l.log ++ [.acted a l.host.out.got] }
              unwritten pt' leaving (coming ++ added) := by
        intro p ops hperforms hcontinues
        cases hcontinues with
        | goes => exact ⟨[], .handle p pt a ops leaving hperforms rfl, hquiet rfl⟩
        | ends hsilent => exact ⟨[], .finish p pt a ops leaving hperforms hsilent, hquiet rfl⟩
        | replies q hq =>
            exact ⟨_, .answer p pt a ops q leaving _ hperforms hq, hat, hleaving,
              hcoming.append q⟩
      cases hacts with
      | own phase _ ha =>
          cases phase with
          | connecting => exact absurd rfl hpt
          | running => exact ⟨_, _, _, _, .own a leaving ha rfl, hquiet rfl, rfl, ⟨rfl, rfl, rfl⟩⟩
      | dispatch p _ hnext =>
          obtain ⟨added, hturn, hpackets⟩ := hcontinues p [] .dispatch hnext
          exact ⟨_, _, _, added, hturn, hpackets, rfl, ⟨rfl, rfl, rfl⟩⟩
      | handle p ops _ _ ha _ hnext =>
          obtain ⟨added, hturn, hpackets⟩ := hcontinues p _ (.handle ops a ha) hnext
          exact ⟨_, _, _, added, hturn, hpackets, rfl, ⟨rfl, rfl, rfl⟩⟩

/-- **What a step of the controller does.** -/
theorem controller_turn {e : LinkEvent} (hp : l.Packets unwritten pt leaving coming)
    (hpt : pt ≠ .idle .connecting) (hexpects : Expects pt leaving)
    (hcall : ∀ c, e ≠ .call c) (hhost : ∀ e', e ≠ .host e') (h : l.step e = some l') :
    ∃ new pt' leaving' added,
      Turn l.host.out.got l'.host.out.got pt leaving new pt' leaving' added ∧
        l'.Packets unwritten pt' leaving' (coming ++ added) ∧ l'.log = l.log ++ new ∧
        Same l l' := by
  cases step_cases h with
  | call c => exact absurd rfl (hcall c)
  | host e => exact absurd rfl (hhost e)
  | controller e =>
      rw [← List.append_nil l.log]
      by_cases he : e = .timeout
      · subst he
        obtain ⟨pt', leaving', added, hturn, hpackets, hlog, hsame⟩ :=
          controller_timeout hp hpt hexpects h
        exact ⟨[], pt', leaving', added, hturn, hpackets, by simpa using hlog, hsame⟩
      · obtain ⟨pt', leaving', added, hturn, hpackets, hlog, hsame⟩ :=
          controller_flow hp hpt hexpects he h
        exact ⟨[], pt', leaving', added, hturn, hpackets, by simpa using hlog, hsame⟩
  | act => exact controller_act hp hpt h
  | loop c hloop =>
      obtain ⟨phase, rfl, hrx, hat⟩ := hp.at_point.loop hloop
      refine ⟨[], .idle phase, leaving, [], .keep _ _ rfl, ?_, by simp, ⟨rfl, rfl, rfl⟩⟩
      have hleaving := hp.leaving
      rw [← hrx] at hleaving
      rw [List.append_nil]
      exact ⟨hat, hleaving, hp.coming⟩
  | interrupt id e c hinterrupt =>
      have hnode : c.node = l.controller.node := by
        unfold Controller.interrupt at hinterrupt
        split at hinterrupt
        · obtain rfl := Option.some.inj hinterrupt
          rfl
        · cases hinterrupt
      refine ⟨[], pt, leaving, [], .keep _ _ rfl, ?_, by simp, ⟨rfl, rfl, rfl⟩⟩
      have hat := hp.at_point
      have hleaving := hp.leaving
      rw [← hnode] at hat hleaving
      rw [List.append_nil]
      exact ⟨hat, hleaving, hp.coming⟩

end Turns

section Frame

variable {l l' : HostLink}

/-- Whatever the controller does, it only appends to what it has written. -/
theorem controller_frame {e : LinkEvent} (hcall : ∀ c, e ≠ .call c)
    (hhost : ∀ e', e ≠ .host e') (h : l.step e = some l') :
    ∃ data new, l'.out = l.out.push data ∧ l'.host.node = l.host.node ∧ l'.call = l.call ∧
      l'.log = l.log ++ new ∧ ∀ o ∈ new, ∃ a got, o = Obs.acted a got := by
  cases step_cases h with
  | call c => exact absurd rfl (hcall c)
  | host e => exact absurd rfl (hhost e)
  | controller _ _ _ _ hparty =>
      obtain ⟨data, hout⟩ := Party.step_push hparty
      exact ⟨data, [], hout, rfl, rfl, by simp [setParty], by simp⟩
  | act _ _ a =>
      exact ⟨[], [.acted a l.host.out.got], l.out.push_nil.symm, rfl, rfl, rfl, by simp⟩
  | loop | interrupt => exact ⟨[], [], l.out.push_nil.symm, rfl, rfl, by simp, by simp⟩

end Frame

/-! ## What the host does -/

section Host

variable {l l' : HostLink} {pt : Point} {leaving coming : List (Packet × Nat)} {a : Activity}
  {k : SerialResult → HostProg}

/-- The result is observed when a call returns. -/
theorem results_ret {n : Node noOps (SerialResult × HostValue)} {res : SerialResult}
    {value : HostValue} (h : n.prog = .ret (res, value)) (c : HostCall) :
    n.results c = [.returned c res value] := by
  simp [Node.results, h]

theorem results_goes {n : Node noOps (SerialResult × HostValue)} (h : n.prog = a.prog >>= k)
    (c : HostCall) : n.results c = [] := by
  cases a <;> simp only [Node.results, h] <;> rfl

/-- What a step of the host comes to: the stage of its call, and the packets on
their way. -/
structure HostFlow (l l' : HostLink) (e : PartyEvent) (pt : Point)
    (leaving coming : List (Packet × Nat)) (a : Activity) (k : SerialResult → HostProg)
    (next : Next) (added rest : List (Packet × Nat)) : Prop where
  flow : ∃ heard, Flow l'.host.node.rx l'.host.out.sent l'.out.got coming a e heard next
    added rest
  packets : l'.Packets next.unwritten pt (leaving ++ added) rest
  prog : l'.host.node.prog = next.prog l'.host.node.rx k
  log : l'.log = l.log ++ l'.host.node.results l.call
  call : l'.call = l.call
  got : l'.host.out.got = l.host.out.got
  wrote : e = .wrote → l'.host.node.rx = l.host.node.rx

theorem HostFlow.log_goes {e : PartyEvent} {b : Activity} {added rest : List (Packet × Nat)}
    (h : HostFlow l l' e pt leaving coming a k (.goes b) added rest) : l'.log = l.log := by
  rw [h.log, results_goes h.prog, List.append_nil]

theorem HostFlow.log_returns {e : PartyEvent} {next : Next} {added rest : List (Packet × Nat)}
    {res : SerialResult} {v : HostValue}
    (h : HostFlow l l' e pt leaving coming a k next added rest)
    (hret : next.prog l'.host.node.rx k = .ret (res, v)) :
    l'.log = l.log ++ [.returned l.call res v] := by
  rw [h.log, results_ret (h.prog.trans hret)]

/-- **What a step of the host does**, unless it gives up. -/
theorem host_flow {e : PartyEvent} (hp : l.Packets a.unwritten pt leaving coming)
    (hprog : l.host.node.prog = a.prog >>= k) (he : e ≠ .timeout)
    (h : l.step (.host e) = some l') :
    ∃ next added rest, HostFlow l l' e pt leaving coming a k next added rest := by
  cases step_cases h with
  | host _ host out heard hparty =>
      obtain ⟨next, added, rest, hflow, hflowed⟩ :=
        Party.step_flow hprog hp.coming hp.leaving he hparty
      refine ⟨next, added, rest, ?_⟩
      exact
        { flow := ⟨heard, hflow⟩
          packets := ⟨hp.at_point, hflowed.leaving, hflowed.coming⟩
          prog := hflowed.prog
          log := rfl
          call := rfl
          got := hflowed.out_got
          wrote := fun hwrote => by
            subst hwrote
            exact (Party.step_wrote hprog hparty).2 }

/-- The host gives up waiting. -/
theorem host_timeout (hprog : l.host.node.prog = a.prog >>= k)
    (h : l.step (.host .timeout) = some l') :
    ∃ res, ((∃ t, a = .receiving t) ∧ res = .errTimeout ∨ a = .waiting ∧ res = .errNoMsg) ∧
      l'.host.node.rx = { l.host.node.rx with transport := .fresh } ∧
      l'.host.node.prog = (Next.returns res).prog l'.host.node.rx k ∧
      l'.log = l.log ++ l'.host.node.results l.call ∧
      l'.host.out = l.host.out ∧ l'.out = l.out ∧ l'.controller = l.controller ∧
      l'.call = l.call := by
  cases step_cases h with
  | host _ host out heard hparty =>
      obtain ⟨res, hres, rfl, -, hout, hrx, hprog'⟩ := Party.step_timeout hprog hparty
      exact ⟨res, hres, hrx, hprog', rfl, hout, rfl, rfl, rfl⟩

end Host

end HostLink

end MpmtTestStand.Ports
