import MpmtTestStand.Ports.SessionLink

/-!
# What a successful `send_message` tells the caller

Acknowledgements carry no identity, so `send_message` takes any that arrives
for the one it waits for.  As long as the caller has never given up waiting,
none can be left over from an earlier message: there is at most one message of
the caller on its way that the peer will acknowledge, or one acknowledgement on
its way back (`Ticket`).  `send_ok_received` draws the conclusion;
`stale_ack` is a schedule in which an earlier timeout makes it false.
-/

namespace MpmtTestStand.Ports

open MpmtTestStand.Verified
open MpmtTestStand.Verified.Run

/-! ## The statement -/

/-- `r` is the reception of the message `p` by the peer of `s`, in
`check_for_message` or `recv_message`; the frame of `p` ends where `s` had
written `sent` bytes, and the acknowledgement that the peer writes next ends
where `s` has read `got` bytes. -/
structure Entry.Acknowledges (r : Entry) (s : Side) (p : Packet) (sent got : Nat) : Prop where
  side : r.side = s.other
  what : r.what = .received p
  call : ∀ q, r.call ≠ .sendMessage q
  position : r.got = sent
  ack : got = r.sent + ackPacket.frame.length

/-- Nothing in this entry can leave an acknowledgement behind that `s` would
later take for another: no `send_message` of `s` gave up waiting, no timeout
gave up a message in progress, and the peer of `s` sent no message that looks
like an acknowledgement. -/
structure Entry.Calm (e : Entry) (s : Side) : Prop where
  answered : e.side = s → ∀ p, e.call = .sendMessage p →
    e.what ≠ .returned .errNoMsg ∧ e.what ≠ .returned .errNoAck
  whole : e.what ≠ .abandoned
  genuine : e.side = s.other → e.what = .begun → ∀ p, e.call = .sendMessage p →
    p.id ≠ msgIdAck

/-! ## Where a call is -/

/-- The point belongs to the call. -/
def Activity.Of : Activity → SessionCall → Prop
  | .polling, .checkForMessage => True
  | .receiving _, .recvMessage _ => True
  | .waiting, .sendMessage _ => True
  | .writing _ _, .sendMessage _ => True
  | .acking _ _, .checkForMessage => True
  | .acking _ _, .recvMessage _ => True
  | _, _ => False

theorem Activity.Of.sending_iff {a : Activity} {c : SessionCall} (h : a.Of c) :
    a.sending = true ↔ ∃ p, c = .sendMessage p := by
  cases a <;> cases c <;> simp_all [Of, sending]

/-- What is logged when a call gets there. -/
def Next.whats : Next → List What
  | .goes _ => []
  | .returns res => [.returned res]

/-- A party between two calls (`none`) or at a point of its call. -/
def Station.At (st : Station) : Option Activity → Prop
  | some a => st.party.node.prog = a.prog >>= .ret ∧ a.Of st.call
  | none => ∃ res, st.party.node.prog = .ret res

theorem Next.prog_returned {rx : Receiver} {n : Node noOps SerialResult} {next : Next}
    (h : n.prog = next.prog rx .ret) : n.returned = next.whats := by
  cases next with
  | goes a => cases a <;> simp only [Node.returned, h] <;> rfl
  | returns res => simp only [Node.returned, h]; rfl

theorem Station.At.of_next {st : Station} {next : Next} {rx : Receiver}
    (hprog : st.party.node.prog = next.prog rx .ret)
    (hof : ∀ a, next = .goes a → a.Of st.call) : st.At next.activity := by
  cases next with
  | goes a => exact ⟨hprog, hof a rfl⟩
  | returns res => exact ⟨res, hprog⟩

section Steps

variable {me peer me' peer' : Station} {a : Option Activity} {whats : List What}

/-- Beginning a call. -/
theorem Station.step_call {c : SessionCall} (hat : me.At a)
    (h : me.step peer (.call c) = some (me', peer', whats)) :
    a = none ∧ peer' = peer ∧
      me' = ⟨⟨⟨me.party.node.rx, (c.start me.party.node.rx).prog me.party.node.rx .ret⟩,
        me.party.out⟩, c⟩ ∧
      whats = .begun :: (c.start me.party.node.rx).whats := by
  cases a with
  | some a =>
      cases a <;> simp [step, hat.1, Activity.prog, SerialTransport.writePieces,
        SerialSession.checkForMessage] at h
  | none =>
      obtain ⟨res, hres⟩ := hat
      have hresume := Node.resume_call me.party.node.rx c (.ret : _ → LinkProg noOps _)
      rw [Prog.bind_ret] at hresume
      simp only [step, hres, hresume, Option.some.injEq, Prod.mk.injEq] at h
      obtain ⟨rfl, rfl, rfl⟩ := h
      exact ⟨rfl, rfl, rfl, by rw [Next.prog_returned rfl]⟩

/-- Going on with a call. -/
theorem Station.step_transport {e : PartyEvent} (hat : me.At a)
    (h : me.step peer (.transport e) = some (me', peer', whats)) :
    ∃ a₀ inbox heard, a = some a₀ ∧
      me.party.step peer.party.out e = some (me'.party, inbox, heard) ∧
      me'.call = me.call ∧ peer' = ⟨⟨peer.party.node, inbox⟩, peer.call⟩ ∧
      whats = me.party.node.abandons e ++ heard.toList.map .received ++
        me'.party.node.returned := by
  rcases hstep : me.party.step peer.party.out e with _ | ⟨party, inbox, heard⟩
  · simp [step, hstep] at h
  · simp only [step, hstep, Option.some.injEq, Prod.mk.injEq] at h
    obtain ⟨rfl, rfl, rfl⟩ := h
    cases a with
    | some a => exact ⟨a, inbox, heard, rfl, rfl, rfl, rfl, rfl⟩
    | none =>
        obtain ⟨res, hres⟩ := hat
        have hnone : ∀ sig, me.party.node.signal sig = none := fun sig => by
          simp [Node.signal, hres]
        cases e with
        | deliver =>
            simp only [Party.step, hnone] at hstep
            split at hstep <;> simp at hstep
        | _ => simp [Party.step, hnone] at hstep

end Steps

/-! ## The invariant -/

/-- The packets that a waiting `send_message` takes for an acknowledgement. -/
def acks (ps : List (Packet × Nat)) : List (Packet × Nat) :=
  ps.filter fun p => p.1.id = msgIdAck

/-- What is under way for a caller whose call is at `a`, in terms of the packets
on their way that want an acknowledgement (`wants`) and of the acknowledgements
on their way back (`replies`).  The frame at hand ends where the caller will have
written `total` bytes. -/
inductive Ticket (s : Side) (log : List Entry) (call : SessionCall) (a : Option Activity)
    (total : Nat) : List (Packet × Nat) → List (Packet × Nat) → Prop
  /-- nothing is under way -/
  | none : Ticket s log call a total [] []
  /-- the message being sent has not been read -/
  | sent (p : Packet) (hcall : call = .sendMessage p)
      (ha : ∃ b, a = some b ∧ b.sending = true) : Ticket s log call a total [(p, total)] []
  /-- the message being sent has been received and acknowledged -/
  | answered (p q : Packet) (got : Nat) (hcall : call = .sendMessage p)
      (ha : ∃ b, a = some b ∧ b.sending = true)
      (hr : ∃ r ∈ log, r.Acknowledges s p total got) :
      Ticket s log call a total [] [(q, got)]

/-- The invariant of a link in which everything has been calm, seen from the side
`s`: where the calls of both parties are, what is on its way in both directions,
and the ticket of the caller. -/
structure Flows (s : Side) (log : List Entry) (caller peer : Station)
    (a b : Option Activity) (fs gs : List (Packet × Nat)) : Prop where
  caller_at : caller.At a
  peer_at : peer.At b
  leaving : Carries peer.party.node.rx caller.party.out.got
    (caller.party.out.queue ++ unwrittenAt a) fs
  coming : Carries caller.party.node.rx peer.party.out.got
    (peer.party.out.queue ++ unwrittenAt b) gs
  ticket : Ticket s log caller.call a
    (caller.party.out.sent + (unwrittenAt a).length) (wantAck fs) (acks gs)

section Packets

variable {p : Packet} {n : Nat} {ps qs : List (Packet × Nat)}

theorem acks_cons_of (h : p.id = msgIdAck) : acks ((p, n) :: ps) = (p, n) :: acks ps := by
  simp [acks, h]

theorem acks_cons_of_not (h : p.id ≠ msgIdAck) : acks ((p, n) :: ps) = acks ps := by
  simp [acks, h]

theorem acks_eq_nil_of_cons (h : acks ((p, n) :: ps) = []) : acks ps = [] :=
  List.filter_eq_nil_iff.mpr fun q hq =>
    List.filter_eq_nil_iff.mp h q (List.mem_cons_of_mem _ hq)

theorem acks_append : acks (ps ++ qs) = acks ps ++ acks qs :=
  List.filter_append ..

@[simp] theorem acks_ack : acks [(ackPacket, n)] = [(ackPacket, n)] := rfl

@[simp] theorem acks_nil : acks [] = [] := rfl

end Packets

namespace Ticket

variable {s : Side} {log log' : List Entry} {call : SessionCall} {a : Option Activity}
  {total : Nat} {wants replies : List (Packet × Nat)}

/-- Tickets stay valid as the log grows. -/
theorem mono (h : Ticket s log call a total wants replies)
    (hlog : ∀ r ∈ log, r ∈ log') : Ticket s log' call a total wants replies := by
  cases h with
  | none => exact .none
  | sent p hcall ha => exact .sent p hcall ha
  | answered p q got hcall ha hr =>
      obtain ⟨r, hr, hack⟩ := hr
      exact .answered p q got hcall ha ⟨r, hlog r hr, hack⟩

/-- `send_message` goes on. -/
theorem goes (h : Ticket s log call a total wants replies) {b : Activity}
    (hb : b.sending = true) : Ticket s log call (some b) total wants replies := by
  cases h with
  | none => exact .none
  | sent p hcall _ => exact .sent p hcall ⟨b, rfl, hb⟩
  | answered p q got hcall _ hr => exact .answered p q got hcall ⟨b, rfl, hb⟩ hr

/-- Outside `send_message` nothing is under way. -/
theorem of_not_sending (h : Ticket s log call a total wants replies)
    (ha : ∀ b, a = some b → b.sending = false) : wants = [] ∧ replies = [] := by
  cases h with
  | none => exact ⟨rfl, rfl⟩
  | sent p _ hb =>
      obtain ⟨b, rfl, hb⟩ := hb
      simp [ha b rfl] at hb
  | answered p q got _ hb =>
      obtain ⟨b, rfl, hb⟩ := hb
      simp [ha b rfl] at hb

/-- A message on its way that wants an acknowledgement is the one being sent. -/
theorem of_wants {p : Packet} {n : Nat}
    (h : Ticket s log call a total ((p, n) :: wants) replies) :
    call = .sendMessage p ∧ (∃ b, a = some b ∧ b.sending = true) ∧ n = total ∧
      wants = [] ∧ replies = [] := by
  cases h with
  | sent p hcall ha => exact ⟨hcall, ha, rfl, rfl, rfl⟩

/-- An acknowledgement on its way back answers the message being sent. -/
theorem of_replies {q : Packet} {n : Nat}
    (h : Ticket s log call a total wants ((q, n) :: replies)) :
    wants = [] ∧ replies = [] ∧
      ∃ p, call = .sendMessage p ∧ ∃ r ∈ log, r.Acknowledges s p total n := by
  cases h with
  | answered p q got hcall ha hr => exact ⟨rfl, rfl, p, hcall, hr⟩

end Ticket

/-! ## What the caller does -/

section Caller

variable {s : Side} {log : List Entry} {call : SessionCall} {a : Activity} {e : PartyEvent}
  {rx : Receiver} {sent got total : Nat} {fs gs rest added : List (Packet × Nat)}
  {heard : Option Packet} {next : Next}

/-- A call stays one call. -/
theorem Flow.of (h : Flow rx sent got gs a e heard next added rest) (hof : a.Of call) :
    ∀ b, next = .goes b → b.Of call := by
  cases h with
  | received a p rest ha _ _ =>
      rintro b ⟨⟩
      rcases ha with rfl | ⟨t, rfl⟩ <;> cases call <;> simp_all [Activity.Of, Activity.ack]
  | wrote | wroteLast | acked | more =>
      rintro b ⟨⟩
      cases call <;> simp_all [Activity.Of]
  | ackedLast | stray | acknowledged | notAcknowledged | quiet => rintro b ⟨⟩

/-- The caller takes a step and does not give up. -/
theorem Ticket.caller_flow (h : Flow rx sent got gs a e heard next added rest)
    (ht : Ticket s log call (some a) total (wantAck fs) (acks gs))
    (htotal : added = [] → sent + next.unwritten.length = total)
    (hanswered : next ≠ .returns .errNoAck) :
    Ticket s log call next.activity (sent + next.unwritten.length)
      (wantAck (fs ++ added)) (acks rest) := by
  cases h with
  | wrote piece next rest =>
      rw [List.append_nil, htotal rfl]
      exact ht.goes rfl
  | wroteLast piece =>
      rw [List.append_nil, htotal rfl]
      exact ht.goes rfl
  | acked piece next rest =>
      obtain ⟨hfs, hgs⟩ := ht.of_not_sending (by simp [Activity.sending])
      rw [List.append_nil, hfs, hgs]
      exact .none
  | ackedLast piece =>
      obtain ⟨hfs, hgs⟩ := ht.of_not_sending (by simp [Activity.sending])
      rw [List.append_nil, hfs, hgs]
      exact .none
  | more a ha =>
      rw [List.append_nil, htotal rfl]
      exact ht
  | received a p rest ha hp hid =>
      obtain ⟨hfs, hgs⟩ := ht.of_not_sending (by
        rcases ha with rfl | ⟨t, rfl⟩ <;> simp [Activity.sending])
      rw [hp.coming_eq, acks_cons_of_not (fun h => hid (.inl h))] at hgs
      rw [wantAck_append, hfs, hgs]
      exact .none
  | stray a p rest ha hp hid =>
      obtain ⟨hfs, hgs⟩ := ht.of_not_sending (by
        rcases ha with rfl | ⟨t, rfl⟩ <;> simp [Activity.sending])
      rw [List.append_nil, hfs, acks_eq_nil_of_cons (hp.coming_eq ▸ hgs)]
      exact .none
  | acknowledged p rest hp hid =>
      rw [hp.coming_eq, acks_cons_of hid] at ht
      obtain ⟨hfs, hrest, -⟩ := ht.of_replies
      rw [List.append_nil, hfs, hrest]
      exact .none
  | notAcknowledged p rest hp hid => exact absurd rfl hanswered
  | quiet =>
      obtain ⟨hfs, hgs⟩ := ht.of_not_sending (by simp [Activity.sending])
      rw [List.append_nil, hfs, hgs]
      exact .none

/-- What the caller learns when `send_message` succeeds. -/
theorem Ticket.caller_answered (h : Flow rx sent got gs a e heard (.returns .ok) added rest)
    (ha : a.sending = true) (ht : Ticket s log call (some a) total (wantAck fs) (acks gs))
    (htotal : added = [] → sent = total) :
    ∃ p, call = .sendMessage p ∧ ∃ r ∈ log, r.Acknowledges s p sent got := by
  cases h with
  | ackedLast piece => simp [Activity.sending] at ha
  | acknowledged p rest hp hid =>
      rw [hp.coming_eq, acks_cons_of hid] at ht
      obtain ⟨-, -, hsent⟩ := ht.of_replies
      rwa [← htotal rfl] at hsent

end Caller

/-! ## What the peer does -/

section Peer

variable {s : Side} {log log' : List Entry} {call peerCall : SessionCall}
  {a : Option Activity} {b : Activity} {e : PartyEvent} {rx : Receiver}
  {sent got total : Nat} {fs gs rest added : List (Packet × Nat)} {heard : Option Packet}
  {next : Next}

/-- A message that the peer reads while it waits for an acknowledgement itself
is lost; one that it reads elsewhere is acknowledged. -/
theorem Ticket.drop {p : Packet} (ht : Ticket s log call a total (wantAck fs) (acks gs))
    (hfs : fs = (p, got) :: rest) :
    Ticket s log call a total (wantAck rest) (acks gs) := by
  subst hfs
  by_cases hid : p.id = msgIdAck ∨ p.id = msgIdNack
  · rwa [wantAck_cons_of_not hid] at ht
  · rw [wantAck_cons_of hid] at ht
    obtain ⟨-, -, -, hrest, hgs⟩ := ht.of_wants
    rw [hrest, hgs]
    exact .none

/-- The peer takes a step. -/
theorem Ticket.peer_flow (h : Flow rx sent got fs b e heard next added rest)
    (ht : Ticket s log call a total (wantAck fs) (acks gs)) (hof : b.Of peerCall)
    (hlog : ∀ r ∈ log, r ∈ log')
    (hheard : ∀ p, heard = some p →
      (⟨s.other, peerCall, .received p, sent, got⟩ : Entry) ∈ log') :
    Ticket s log' call a total (wantAck rest) (acks (gs ++ added)) := by
  cases h with
  | wrote | wroteLast | acked | ackedLast | more | quiet =>
      rw [List.append_nil]
      exact ht.mono hlog
  | received b p rest hb hp hid =>
      rw [hp.coming_eq, wantAck_cons_of hid] at ht
      obtain ⟨hcall, ha, rfl, hrest, hgs⟩ := ht.of_wants
      rw [hrest, acks_append, hgs]
      refine .answered p ackPacket _ hcall ha ⟨_, hheard p rfl, ?_⟩
      exact
        { side := rfl
          what := rfl
          call := fun q hq => by
            rcases hb with rfl | ⟨t, rfl⟩ <;> simp_all [Activity.Of]
          position := rfl
          ack := rfl }
  | stray b p rest hb hp hid =>
      rw [List.append_nil]
      exact (ht.drop hp.coming_eq).mono hlog
  | acknowledged p rest hp hid =>
      rw [List.append_nil]
      exact (ht.drop hp.coming_eq).mono hlog
  | notAcknowledged p rest hp hid =>
      rw [List.append_nil]
      exact (ht.drop hp.coming_eq).mono hlog

end Peer

/-! ## Steps of the link -/

/-- Where a call starts belongs to it. -/
theorem SessionCall.start_of (c : SessionCall) (rx : Receiver) :
    ∀ a, c.start rx = .goes a → a.Of c := by
  intro a h
  cases c <;> simp only [start] at h <;> (try split at h) <;> cases h <;> trivial

/-- Only `send_message` starts by writing. -/
theorem SessionCall.start_cases (c : SessionCall) (rx : Receiver) :
    ((c.start rx).unwritten = [] ∧
      ∀ b, (c.start rx).activity = some b → b.sending = false) ∨
    ∃ p, c = .sendMessage p ∧ c.start rx = .goes (.send p) := by
  cases c with
  | checkForMessage => exact .inl ⟨rfl, by rintro b ⟨⟩; rfl⟩
  | recvMessage t =>
      refine .inl ?_
      simp only [start]
      split
      · exact ⟨rfl, by rintro b ⟨⟩⟩
      · exact ⟨rfl, by rintro b ⟨⟩; rfl⟩
  | sendMessage p =>
      simp only [start]
      split
      · exact .inl ⟨rfl, by rintro b ⟨⟩⟩
      · exact .inr ⟨p, rfl, rfl⟩

/-- No call succeeds as it begins. -/
theorem SessionCall.start_ne_ok (c : SessionCall) (rx : Receiver) :
    .returned .ok ∉ (c.start rx).whats := by
  cases c <;> simp only [start] <;> (try split) <;> simp [Next.whats]

namespace Flows

variable {s : Side} {log log' : List Entry} {caller peer caller' peer' : Station}
  {a b : Option Activity} {fs gs : List (Packet × Nat)} {whats : List What}

/-- The caller begins a call. -/
theorem caller_call {c : SessionCall} (h : Flows s log caller peer a b fs gs)
    (hs : caller.step peer (.call c) = some (caller', peer', whats)) :
    ∃ a' fs', Flows s log' caller' peer' a' b fs' gs := by
  obtain ⟨rfl, rfl, rfl, -⟩ := Station.step_call h.caller_at hs
  obtain ⟨hfs, hgs⟩ := h.ticket.of_not_sending (by rintro b ⟨⟩)
  have hleaving := h.leaving
  simp only [unwrittenAt, List.append_nil] at hleaving
  rcases c.start_cases caller.party.node.rx with ⟨hsilent, hidle⟩ | ⟨p, rfl, hstart⟩
  · refine ⟨(c.start caller.party.node.rx).activity, fs, ?_⟩
    exact
      { caller_at := .of_next rfl (c.start_of _)
        peer_at := h.peer_at
        leaving := by rwa [Next.unwrittenAt_activity, hsilent, List.append_nil]
        coming := h.coming
        ticket := by
          rw [hfs, hgs]
          exact .none }
  · refine ⟨some (.send p), fs ++ [(p, caller.party.out.sent + p.frame.length)], ?_⟩
    exact
      { caller_at := by
          rw [hstart]
          exact ⟨rfl, trivial⟩
        peer_at := h.peer_at
        leaving := hleaving.append p
        coming := h.coming
        ticket := by
          rw [wantAck_append, hfs, hgs]
          by_cases hid : p.id = msgIdAck ∨ p.id = msgIdNack
          · rw [wantAck_cons_of_not hid]
            exact .none
          · rw [wantAck_cons_of hid]
            exact .sent p rfl ⟨_, rfl, rfl⟩ }

/-- In a calm step a timeout finds no message in progress. -/
private theorem idle_of_calm {me me' peer' : Station} {t : Side}
    (hcalm : ∀ w ∈ me.party.node.abandons .timeout ++ ([] : List What) ++ whats,
      (Station.entry t me' peer' w).Calm s) :
    me.party.node.rx.transport.msgInProgress = false := by
  by_contra hprogress
  have hprogress : me.party.node.rx.transport.msgInProgress = true := by
    simpa using hprogress
  exact (hcalm .abandoned (by simp [Node.abandons, hprogress])).whole rfl

/-- The caller goes on with its call. -/
theorem caller_transport {e : PartyEvent} (h : Flows s log caller peer a b fs gs)
    (hs : caller.step peer (.transport e) = some (caller', peer', whats))
    (hlog : ∀ r ∈ log, r ∈ log')
    (hcalm : ∀ w ∈ whats, (Station.entry s caller' peer' w).Calm s) :
    ∃ a' fs' gs', Flows s log' caller' peer' a' b fs' gs' := by
  obtain ⟨a, inbox, heard, rfl, hparty, hcall, rfl, rfl⟩ :=
    Station.step_transport h.caller_at hs
  obtain ⟨hprog, hof⟩ := h.caller_at
  by_cases he : e = .timeout
  · subst he
    obtain ⟨res, hres, rfl, rfl, hout, hrx, hprog'⟩ := Party.step_timeout hprog hparty
    rw [Next.prog_returned hprog'] at hcalm
    rcases hres with ⟨⟨t, rfl⟩, rfl⟩ | ⟨rfl, rfl⟩
    · -- between two messages a timeout only ends the call
      rw [Carries.reset_of_start (h.coming.start_of_idle (idle_of_calm hcalm))] at hrx
      obtain ⟨hfs, hgs⟩ := h.ticket.of_not_sending (by rintro b ⟨⟩; rfl)
      refine ⟨none, fs, gs, ?_⟩
      exact
        { caller_at := ⟨_, hprog'⟩
          peer_at := h.peer_at
          leaving := by rw [hout]; exact h.leaving
          coming := by rw [hrx]; exact h.coming
          ticket := by
            rw [hfs, hgs]
            exact .none }
    · -- the caller of `send_message` would have given up waiting
      obtain ⟨p, hp⟩ := hof.sending_iff.mp rfl
      rw [← hcall] at hp
      have := (hcalm (.returned .errNoMsg) (by simp [Next.whats])).answered rfl p hp
      exact absurd rfl this.1
  · obtain ⟨next, added, rest, hflow, hflowed⟩ :=
      Party.step_flow hprog h.coming h.leaving he hparty
    rw [Next.prog_returned hflowed.prog] at hcalm
    have hanswered : next ≠ .returns .errNoAck := by
      rintro rfl
      have ha : a.sending = true := by
        cases hflow
        rfl
      obtain ⟨p, hp⟩ := hof.sending_iff.mp ha
      rw [← hcall] at hp
      have := (hcalm (.returned .errNoAck) (by simp [Next.whats])).answered rfl p hp
      exact this.2 rfl
    refine ⟨next.activity, fs ++ added, rest, ?_⟩
    exact
      { caller_at := .of_next hflowed.prog (by
          rw [hcall]
          exact hflow.of hof)
        peer_at := h.peer_at
        leaving := by
          rw [Next.unwrittenAt_activity]
          exact hflowed.leaving
        coming := hflowed.coming
        ticket := by
          rw [hcall, Next.unwrittenAt_activity]
          exact (h.ticket.caller_flow hflow hflowed.total hanswered).mono hlog }

/-- The caller's `send_message` succeeds. -/
theorem caller_answered {e : StationEvent} {p : Packet}
    (h : Flows s log caller peer a b fs gs)
    (hs : caller.step peer e = some (caller', peer', whats))
    (hp : caller'.call = .sendMessage p) (hok : .returned .ok ∈ whats) :
    ∃ r ∈ log, r.Acknowledges s p caller'.party.out.sent peer'.party.out.got := by
  cases e with
  | call c =>
      obtain ⟨-, -, -, rfl⟩ := Station.step_call h.caller_at hs
      simp [c.start_ne_ok] at hok
  | transport e =>
      obtain ⟨a, inbox, heard, rfl, hparty, hcall, rfl, rfl⟩ :=
        Station.step_transport h.caller_at hs
      obtain ⟨hprog, hof⟩ := h.caller_at
      rw [hcall] at hp
      by_cases he : e = .timeout
      · subst he
        obtain ⟨res, hres, rfl, rfl, -, -, hprog'⟩ := Party.step_timeout hprog hparty
        rw [Next.prog_returned hprog'] at hok
        rcases hres with ⟨-, rfl⟩ | ⟨-, rfl⟩ <;> simp [Next.whats, Node.abandons] at hok
      · obtain ⟨next, added, rest, hflow, hflowed⟩ :=
          Party.step_flow hprog h.coming h.leaving he hparty
        rw [Next.prog_returned hflowed.prog] at hok
        have hnext : next = .returns .ok := by
          cases next <;> cases e <;> simp_all [Next.whats, Node.abandons]
        subst hnext
        obtain ⟨p', hp', hr⟩ := h.ticket.caller_answered hflow
          (hof.sending_iff.mpr ⟨p, hp⟩) hflowed.total
        obtain rfl : p' = p := SessionCall.sendMessage.inj (hp'.symm.trans hp)
        exact hr

/-- The peer begins a call. -/
theorem peer_call {c : SessionCall} (h : Flows s log caller peer a b fs gs)
    (hs : peer.step caller (.call c) = some (peer', caller', whats))
    (hlog : ∀ r ∈ log, r ∈ log')
    (hcalm : ∀ w ∈ whats, (Station.entry s.other peer' caller' w).Calm s) :
    ∃ b' gs', Flows s log' caller' peer' a b' fs gs' := by
  obtain ⟨rfl, rfl, rfl, rfl⟩ := Station.step_call h.peer_at hs
  have hcoming := h.coming
  simp only [unwrittenAt, List.append_nil] at hcoming
  rcases c.start_cases peer.party.node.rx with ⟨hsilent, -⟩ | ⟨p, rfl, hstart⟩
  · refine ⟨(c.start peer.party.node.rx).activity, gs, ?_⟩
    exact
      { caller_at := h.caller_at
        peer_at := .of_next rfl (c.start_of _)
        leaving := h.leaving
        coming := by rwa [Next.unwrittenAt_activity, hsilent, List.append_nil]
        ticket := h.ticket.mono hlog }
  · refine ⟨some (.send p), gs ++ [(p, peer.party.out.sent + p.frame.length)], ?_⟩
    have hid : p.id ≠ msgIdAck := (hcalm .begun (by simp)).genuine rfl rfl p rfl
    exact
      { caller_at := h.caller_at
        peer_at := by
          rw [hstart]
          exact ⟨rfl, trivial⟩
        leaving := h.leaving
        coming := hcoming.append p
        ticket := by
          rw [acks_append, acks_cons_of_not hid, acks_nil, List.append_nil]
          exact h.ticket.mono hlog }

/-- The peer goes on with its call. -/
theorem peer_transport {e : PartyEvent} (h : Flows s log caller peer a b fs gs)
    (hs : peer.step caller (.transport e) = some (peer', caller', whats))
    (hlog : ∀ r ∈ log, r ∈ log')
    (hnew : ∀ w ∈ whats, Station.entry s.other peer' caller' w ∈ log')
    (hcalm : ∀ w ∈ whats, (Station.entry s.other peer' caller' w).Calm s) :
    ∃ b' fs' gs', Flows s log' caller' peer' a b' fs' gs' := by
  obtain ⟨b, inbox, heard, rfl, hparty, hcall, rfl, rfl⟩ :=
    Station.step_transport h.peer_at hs
  obtain ⟨hprog, hof⟩ := h.peer_at
  by_cases he : e = .timeout
  · subst he
    obtain ⟨res, hres, rfl, rfl, hout, hrx, hprog'⟩ := Party.step_timeout hprog hparty
    rw [Carries.reset_of_start (h.leaving.start_of_idle (idle_of_calm hcalm))] at hrx
    refine ⟨none, fs, gs, ?_⟩
    have hsilent : b.unwritten = [] := by
      rcases hres with ⟨⟨t, rfl⟩, -⟩ | ⟨rfl, -⟩ <;> rfl
    exact
      { caller_at := h.caller_at
        peer_at := ⟨_, hprog'⟩
        leaving := by rw [hrx]; exact h.leaving
        coming := by
          rw [hout]
          have := h.coming
          rwa [unwrittenAt, hsilent] at this
        ticket := h.ticket.mono hlog }
  · obtain ⟨next, added, rest, hflow, hflowed⟩ :=
      Party.step_flow hprog h.leaving h.coming he hparty
    refine ⟨next.activity, rest, gs ++ added, ?_⟩
    exact
      { caller_at := h.caller_at
        peer_at := .of_next hflowed.prog (by
          rw [hcall]
          exact hflow.of hof)
        leaving := hflowed.coming
        coming := by
          rw [Next.unwrittenAt_activity]
          exact hflowed.leaving
        ticket := by
          show Ticket s log' caller.call a (inbox.sent + _) _ _
          rw [hflowed.inbox_sent]
          refine h.ticket.peer_flow hflow hof hlog fun p hp => ?_
          have := hnew (.received p) (by simp [hp])
          rwa [Station.entry, hcall] at this }

end Flows

/-! ## Runs -/

/-- What a step of the link consists of. -/
theorem Link.step_eq {l l' : Link} {t : Side} {e : StationEvent}
    (h : l.step (t, e) = some l') :
    ∃ me peer whats, (l.station t).step (l.station t.other) e = some (me, peer, whats) ∧
      l'.station t = me ∧ l'.station t.other = peer ∧
      l'.log = l.log ++ whats.map (Station.entry t me peer) := by
  rcases hs : (l.station t).step (l.station t.other) e with _ | ⟨me, peer, whats⟩
  · simp [step, hs] at h
  · simp only [step, hs, Option.some.injEq] at h
    subst h
    exact ⟨me, peer, whats, rfl, if_pos rfl, if_neg t.other_ne, rfl⟩

/-- Every `send_message` of `s` that succeeded after a calm history was received,
and it is its own acknowledgement that has been consumed. -/
def Justified (s : Side) (log : List Entry) : Prop :=
  ∀ pre x post p, log = pre ++ x :: post → x.side = s → x.call = .sendMessage p →
    x.what = .returned .ok → (∀ y ∈ pre, y.Calm s) →
    ∃ r ∈ pre, r.Acknowledges s p x.sent x.got

/-- The invariant of the link. -/
structure Link.Inv (s : Side) (l : Link) : Prop where
  justified : Justified s l.log
  flows : (∀ x ∈ l.log, x.Calm s) → ∃ a b fs gs,
    Flows s l.log (l.station s) (l.station s.other) a b fs gs

/-- The log grows by entries that are justified by it. -/
theorem Justified.append {s : Side} {log new : List Entry} (h : Justified s log)
    (hnew : (∀ y ∈ log, y.Calm s) → ∀ x ∈ new, ∀ p, x.side = s →
      x.call = .sendMessage p → x.what = .returned .ok →
      ∃ r ∈ log, r.Acknowledges s p x.sent x.got) :
    Justified s (log ++ new) := by
  intro pre x post p hsplit hside hcall hwhat hcalm
  rcases split_append hsplit with ⟨mid, hold, -⟩ | ⟨mid, rfl, rfl⟩
  · exact h pre x mid p hold hside hcall hwhat hcalm
  · obtain ⟨r, hr, hack⟩ := hnew (fun y hy => hcalm y (by simp [hy])) x (by simp) p hside
      hcall hwhat
    exact ⟨r, by simp [hr], hack⟩

theorem Link.inv_step {s : Side} {l l' : Link} {e : Side × StationEvent}
    (h : l.step e = some l') (hinv : l.Inv s) : l'.Inv s := by
  obtain ⟨t, e⟩ := e
  obtain ⟨me, peer, whats, hs, hme, hpeer, hlog⟩ := Link.step_eq h
  have hold : ∀ r ∈ l.log, r ∈ l'.log := fun r hr => by simp [hlog, hr]
  have hnew : ∀ w ∈ whats, Station.entry t me peer w ∈ l'.log := fun w hw => by
    rw [hlog]
    exact List.mem_append_right _ (List.mem_map_of_mem hw)
  rcases s.eq_or_eq_other t with rfl | rfl
  · refine ⟨?_, fun hcalm => ?_⟩
    · rw [hlog]
      refine hinv.justified.append fun hcalm x hx p _ hcall hwhat => ?_
      obtain ⟨w, hw, rfl⟩ := List.mem_map.mp hx
      obtain ⟨a, b, fs, gs, hflows⟩ := hinv.flows hcalm
      obtain rfl : w = .returned .ok := hwhat
      exact hflows.caller_answered hs hcall hw
    · obtain ⟨a, b, fs, gs, hflows⟩ := hinv.flows fun x hx => hcalm x (hold x hx)
      rw [hme, hpeer]
      cases e with
      | call c =>
          obtain ⟨a', fs', hflows'⟩ := hflows.caller_call hs
          exact ⟨a', b, fs', gs, hflows'⟩
      | transport e =>
          obtain ⟨a', fs', gs', hflows'⟩ := hflows.caller_transport hs hold
            fun w hw => hcalm _ (hnew w hw)
          exact ⟨a', b, fs', gs', hflows'⟩
  · rw [Side.other_other] at hs hpeer
    refine ⟨?_, fun hcalm => ?_⟩
    · rw [hlog]
      refine hinv.justified.append fun _ x hx _ hside => ?_
      obtain ⟨w, -, rfl⟩ := List.mem_map.mp hx
      exact absurd hside s.other_ne
    · obtain ⟨a, b, fs, gs, hflows⟩ := hinv.flows fun x hx => hcalm x (hold x hx)
      rw [hme, hpeer]
      cases e with
      | call c =>
          obtain ⟨b', gs', hflows'⟩ := hflows.peer_call hs hold
            fun w hw => hcalm _ (hnew w hw)
          exact ⟨a, b', fs, gs', hflows'⟩
      | transport e =>
          obtain ⟨b', fs', gs', hflows'⟩ := hflows.peer_transport hs hold hnew
            fun w hw => hcalm _ (hnew w hw)
          exact ⟨a, b', fs', gs', hflows'⟩

theorem Link.inv_init (s : Side) : Link.init.Inv s where
  justified pre x post p hsplit := by simp [Link.init] at hsplit
  flows _ := by
    refine ⟨none, none, [], [], ?_⟩
    exact
      { caller_at := ⟨_, rfl⟩
        peer_at := ⟨_, rfl⟩
        leaving := .nil (.start _)
        coming := .nil (.start _)
        ticket := .none }

/-- **What a successful `send_message` tells the caller.**  In a run of two
sessions with any calls, delays and timeouts: when a `send_message` of `s`
returns `SERIAL_OK` and nothing before it was left unanswered (`Entry.Calm`), the
peer has received this very message in `check_for_message` or `recv_message`, and
the acknowledgement that was consumed is the one it wrote for it. -/
theorem send_ok_received (events : List (Side × StationEvent)) (l : Link)
    (hrun : run Link.step Link.init events = some l) (s : Side) (p : Packet)
    (pre post : List Entry) (sent got : Nat)
    (hlog : l.log = pre ++ ⟨s, .sendMessage p, .returned .ok, sent, got⟩ :: post)
    (hcalm : ∀ x ∈ pre, x.Calm s) :
    ∃ r ∈ pre, r.Acknowledges s p sent got := by
  have hinv : l.Inv s := run_invariant Link.step (fun _ => True)
    (fun _ _ _ _ hstep => Link.inv_step hstep) (fun _ _ => trivial) hrun (Link.inv_init s)
  exact hinv.justified pre _ post p hlog rfl rfl rfl hcalm

/-- The left side sends a PING, which the right side receives, and another one
later, when the acknowledgement has arrived. -/
def pingAcknowledged : List (Side × StationEvent) :=
  (.left, .call (.sendMessage (.basic msgIdPing))) ::
    List.replicate 7 (.left, .transport .wrote) ++
    (.right, .call .checkForMessage) :: List.replicate 6 (.right, .transport .deliver) ++
    List.replicate 7 (.right, .transport .wrote)

/-- The log of this. -/
def pingLog : List Entry :=
  [ ⟨.left, .sendMessage (.basic msgIdPing), .begun, 0, 0⟩
  , ⟨.right, .checkForMessage, .begun, 0, 0⟩
  , ⟨.right, .checkForMessage, .received (.basic msgIdPing), 0, 6⟩
  , ⟨.right, .checkForMessage, .returned .ok, 6, 6⟩ ]

/-- The left side reads the acknowledgement. -/
theorem send_ok_received_ping : ∃ r ∈ pingLog ++
      [⟨.left, .sendMessage (.basic msgIdPing), .received ackPacket, 6, 6⟩],
    r.Acknowledges .left (.basic msgIdPing) 6 6 :=
  send_ok_received (pingAcknowledged ++ List.replicate 6 (.left, .transport .deliver))
    _ rfl .left (.basic msgIdPing) _ [] 6 6 rfl fun x hx => by
      simp only [pingLog, List.mem_append, List.mem_cons, List.not_mem_nil, or_false] at hx
      rcases hx with (rfl | rfl | rfl | rfl) | rfl <;> constructor <;> simp [Side.other]

/-- The left side has waited in vain for the acknowledgement of its PING, which
is still on its way, and sends HOME. -/
def homeAfterTimeout : List (Side × StationEvent) :=
  pingAcknowledged ++ (.left, .transport .timeout) ::
    (.left, .call (.sendMessage (.basic msgIdHome))) ::
    List.replicate 7 (.left, .transport .wrote) ++
    List.replicate 6 (.left, .transport .deliver)

/-- **The acknowledgement of an earlier message** makes `send_message` succeed
although the peer has not read a byte of the message. -/
theorem stale_ack :
    ∃ l pre, run Link.step Link.init homeAfterTimeout = some l ∧
      l.log = pre ++ [⟨.left, .sendMessage (.basic msgIdHome), .returned .ok, 12, 6⟩] ∧
      ∀ r ∈ pre, r.what ≠ .received (.basic msgIdHome) := by
  refine ⟨_, pingLog ++
    [ ⟨.left, .sendMessage (.basic msgIdPing), .returned .errNoMsg, 6, 0⟩
    , ⟨.left, .sendMessage (.basic msgIdHome), .begun, 6, 0⟩
    , ⟨.left, .sendMessage (.basic msgIdHome), .received ackPacket, 12, 6⟩ ], rfl, rfl, ?_⟩
  decide

end MpmtTestStand.Ports
