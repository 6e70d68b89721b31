import MpmtTestStand.Ports.InFlight
import MpmtTestStand.Ports.SerialSession

/-!
# Parties on lossless channels

A party is a node together with the channel it writes to.  Channels deliver
every byte, in order and after any delay.  No write and no read fails: a party
never gets the signal `writeFailed`, which the runs of the controller alone
have.  Timeouts fire at any moment while a party waits.

`Party.step_flow` lifts what a signal does to a call from bytes to packets: on
the lists of packets that are on their way to and from the party, a step takes
at most the first packet off the one and adds at most one to the other.
Protocol invariants are stated and proved on this level.
-/

namespace MpmtTestStand.Ports

open MpmtTestStand.Verified

variable {A : Sig} {α : Type}

/-! ## Channels -/

/-- A channel: the bytes in transit and how many it has delivered. -/
structure Channel where
  queue : List UInt8
  got : Nat
  deriving DecidableEq, Repr

namespace Channel

/-- Nothing has been written. -/
def empty : Channel := ⟨[], 0⟩

/-- How many bytes have been written. -/
def sent (c : Channel) : Nat := c.got + c.queue.length

/-- Write `data`. -/
def push (c : Channel) (data : List UInt8) : Channel := ⟨c.queue ++ data, c.got⟩

@[simp] theorem push_got (c : Channel) (data : List UInt8) : (c.push data).got = c.got := rfl

@[simp] theorem push_queue (c : Channel) (data : List UInt8) :
    (c.push data).queue = c.queue ++ data := rfl

@[simp] theorem push_nil (c : Channel) : c.push [] = c := by
  simp [push]

theorem push_sent (c : Channel) (data : List UInt8) :
    (c.push data).sent = c.sent + data.length := by
  simp [sent, Nat.add_assoc]

end Channel

/-! ## Steps -/

/-- A node and the channel it writes to. -/
structure Party (A : Sig) (α : Type) where
  node : Node A α
  out : Channel

/-- The steps of a party in the transport, as long as writing and reading succeed. -/
inductive PartyEvent
  | wrote
  | deliver
  | quiet
  | timeout
  deriving DecidableEq, Repr

/-- The message that the byte `b` completes. -/
def Receiver.heard (rx : Receiver) (b : UInt8) : Option Packet :=
  if (rx.readByte b).2 then some (rx.readByte b).1.msg.packet else none

/-- A step of a party that reads from `inbox`: the party and the channel after
it, and the message that it completes. -/
def Party.step (me : Party A α) (inbox : Channel) :
    PartyEvent → Option (Party A α × Channel × Option Packet)
  | .wrote =>
      match me.node.signal .wrote with
      | some (node, data) => some (⟨node, me.out.push data⟩, inbox, none)
      | none => none
  | .deliver =>
      match inbox.queue with
      | b :: queue =>
          match me.node.signal (.byte b) with
          | some (node, _) =>
              some (⟨node, me.out⟩, ⟨queue, inbox.got + 1⟩, me.node.rx.heard b)
          | none => none
      | [] => none
  | .quiet =>
      match me.node.signal .quiet with
      | some (node, _) => some (⟨node, me.out⟩, inbox, none)
      | none => none
  | .timeout =>
      match me.node.signal .timeout with
      | some (node, _) => some (⟨node, me.out⟩, inbox, none)
      | none => none

/-- What a step is: the party reacts to a signal.  Only `wrote` writes, and only
`deliver` reads. -/
inductive Party.Steps (me : Party A α) (inbox : Channel) :
    PartyEvent → Party A α → Channel → Option Packet → Prop
  | wrote (node : Node A α) (data : List UInt8)
      (hsignal : me.node.signal .wrote = some (node, data)) :
      Steps me inbox .wrote ⟨node, me.out.push data⟩ inbox none
  | deliver (b : UInt8) (queue : List UInt8) (node : Node A α) (data : List UInt8)
      (hqueue : inbox.queue = b :: queue)
      (hsignal : me.node.signal (.byte b) = some (node, data)) :
      Steps me inbox .deliver ⟨node, me.out⟩ ⟨queue, inbox.got + 1⟩ (me.node.rx.heard b)
  | quiet (node : Node A α) (data : List UInt8)
      (hsignal : me.node.signal .quiet = some (node, data)) :
      Steps me inbox .quiet ⟨node, me.out⟩ inbox none
  | timeout (node : Node A α) (data : List UInt8)
      (hsignal : me.node.signal .timeout = some (node, data)) :
      Steps me inbox .timeout ⟨node, me.out⟩ inbox none

namespace Party

section Cases

variable {me me' : Party A α} {inbox inbox' : Channel} {e : PartyEvent} {heard : Option Packet}

theorem step_cases (h : me.step inbox e = some (me', inbox', heard)) :
    me.Steps inbox e me' inbox' heard := by
  cases e with
  | wrote =>
      rcases hsignal : me.node.signal .wrote with _ | ⟨node, data⟩
      · simp [step, hsignal] at h
      · simp only [step, hsignal, Option.some.injEq, Prod.mk.injEq] at h
        obtain ⟨rfl, rfl, rfl⟩ := h
        exact .wrote node data hsignal
  | deliver =>
      rcases hqueue : inbox.queue with _ | ⟨b, queue⟩
      · simp [step, hqueue] at h
      · rcases hsignal : me.node.signal (.byte b) with _ | ⟨node, data⟩
        · simp [step, hqueue, hsignal] at h
        · simp only [step, hqueue, hsignal, Option.some.injEq, Prod.mk.injEq] at h
          obtain ⟨rfl, rfl, rfl⟩ := h
          exact .deliver b queue node data hqueue hsignal
  | quiet =>
      rcases hsignal : me.node.signal .quiet with _ | ⟨node, data⟩
      · simp [step, hsignal] at h
      · simp only [step, hsignal, Option.some.injEq, Prod.mk.injEq] at h
        obtain ⟨rfl, rfl, rfl⟩ := h
        exact .quiet node data hsignal
  | timeout =>
      rcases hsignal : me.node.signal .timeout with _ | ⟨node, data⟩
      · simp [step, hsignal] at h
      · simp only [step, hsignal, Option.some.injEq, Prod.mk.injEq] at h
        obtain ⟨rfl, rfl, rfl⟩ := h
        exact .timeout node data hsignal

/-- Every step is a reaction to a signal. -/
theorem step_signal (h : me.step inbox e = some (me', inbox', heard)) :
    ∃ s n out, me.node.signal s = some (n, out) := by
  cases step_cases h with
  | wrote _ _ hsignal | deliver _ _ _ _ _ hsignal | quiet _ _ hsignal | timeout _ _ hsignal =>
      exact ⟨_, _, _, hsignal⟩

/-- A party only appends to what it has written. -/
theorem step_push (h : me.step inbox e = some (me', inbox', heard)) :
    ∃ data, me'.out = me.out.push data := by
  cases step_cases h with
  | wrote _ data => exact ⟨data, rfl⟩
  | deliver | quiet | timeout => exact ⟨[], me.out.push_nil.symm⟩

/-- Writing leaves the receiver and the other channel alone. -/
theorem step_wrote {a : Activity} {k : SerialResult → LinkProg A α}
    (hprog : me.node.prog = a.prog >>= k)
    (h : me.step inbox .wrote = some (me', inbox', heard)) :
    inbox' = inbox ∧ me'.node.rx = me.node.rx := by
  cases step_cases h with
  | wrote node data hsignal =>
      obtain ⟨rx, next, heffect, rfl⟩ := Node.signal_effect hprog hsignal
      cases heffect <;> exact ⟨rfl, rfl⟩

end Cases

end Party

/-! ## The effect on packets -/

/-- A packet has just arrived: it was the first one on its way, it is in the
buffer, and the receiver is between two frames. -/
structure Arrives (rx : Receiver) (got : Nat) (coming rest : List (Packet × Nat)) (p : Packet) :
    Prop where
  coming_eq : coming = (p, got) :: rest
  buffer : rx.msg.packet = p
  start : Partial rx []

/-- What a step other than a timeout does to a call and to the packets on their
way: the message it completes, where the call gets to, which packet it begins to
send, and which of the packets that were `coming` are still to come.  After the
step the party has written `sent` bytes and read `got`, and its receiver is
`rx`. -/
inductive Flow (rx : Receiver) (sent got : Nat) (coming : List (Packet × Nat)) :
    Activity → PartyEvent → Option Packet → Next → List (Packet × Nat) →
      List (Packet × Nat) → Prop
  | wrote (piece next : List UInt8) (rest : List (List UInt8)) :
      Flow rx sent got coming (.writing piece (next :: rest)) .wrote none
        (.goes (.writing next rest)) [] coming
  | wroteLast (piece : List UInt8) :
      Flow rx sent got coming (.writing piece []) .wrote none (.goes .waiting) [] coming
  | acked (piece next : List UInt8) (rest : List (List UInt8)) :
      Flow rx sent got coming (.acking piece (next :: rest)) .wrote none
        (.goes (.acking next rest)) [] coming
  | ackedLast (piece : List UInt8) :
      Flow rx sent got coming (.acking piece []) .wrote none (.returns .ok) [] coming
  | more (a : Activity) (ha : a.listening = true) :
      Flow rx sent got coming a .deliver none (.goes a) [] coming
  | received (a : Activity) (p : Packet) (rest : List (Packet × Nat))
      (ha : a = .polling ∨ ∃ t, a = .receiving t) (hp : Arrives rx got coming rest p)
      (hid : ¬(p.id = msgIdAck ∨ p.id = msgIdNack)) :
      Flow rx sent got coming a .deliver (some p) (.goes .ack)
        [(ackPacket, sent + ackPacket.frame.length)] rest
  | stray (a : Activity) (p : Packet) (rest : List (Packet × Nat))
      (ha : a = .polling ∨ ∃ t, a = .receiving t) (hp : Arrives rx got coming rest p)
      (hid : p.id = msgIdAck ∨ p.id = msgIdNack) :
      Flow rx sent got coming a .deliver (some p) (.returns .errWrongMsg) [] rest
  | acknowledged (p : Packet) (rest : List (Packet × Nat)) (hp : Arrives rx got coming rest p)
      (hid : p.id = msgIdAck) :
      Flow rx sent got coming .waiting .deliver (some p) (.returns .ok) [] rest
  | notAcknowledged (p : Packet) (rest : List (Packet × Nat))
      (hp : Arrives rx got coming rest p) (hid : p.id ≠ msgIdAck) :
      Flow rx sent got coming .waiting .deliver (some p) (.returns .errNoAck) [] rest
  | quiet : Flow rx sent got coming .polling .quiet none (.returns .okNoMsg) [] coming

/-- What is known after a step of a party whose call was at `a`: its call got to
`next`, it began to send `added`, and `rest` is still to come. -/
structure Flowed (me me' : Party A α) (inbox inbox' : Channel) (peerRx : Receiver)
    (unwritten : List UInt8) (a : Activity) (k : SerialResult → LinkProg A α)
    (leaving : List (Packet × Nat)) (next : Next) (added rest : List (Packet × Nat)) :
    Prop where
  prog : me'.node.prog = next.prog me'.node.rx k
  coming : Carries me'.node.rx inbox'.got (inbox'.queue ++ unwritten) rest
  leaving : Carries peerRx me'.out.got (me'.out.queue ++ next.unwritten) (leaving ++ added)
  inbox_sent : inbox'.sent = inbox.sent
  out_got : me'.out.got = me.out.got
  total : added = [] → me'.out.sent + next.unwritten.length =
    me.out.sent + a.unwritten.length

namespace Party

variable {me me' : Party A α} {inbox inbox' : Channel} {e : PartyEvent} {a : Activity}
  {k : SerialResult → LinkProg A α} {peerRx : Receiver} {unwritten : List UInt8}
  {coming leaving : List (Packet × Nat)} {heard : Option Packet}

/-- The rest of a frame is as long when some of it has been written. -/
private theorem flowed_write {piece : List UInt8} {next : Next} {rx : Receiver}
    (hin : Carries rx inbox.got (inbox.queue ++ unwritten) coming)
    (hout : Carries peerRx me.out.got (me.out.queue ++ a.unwritten) leaving)
    (hsplit : a.unwritten = piece ++ next.unwritten) :
    Flowed me ⟨⟨rx, next.prog rx k⟩, me.out.push piece⟩ inbox inbox peerRx unwritten a k
      leaving next [] coming where
  prog := rfl
  coming := hin
  leaving := by
    rw [List.append_nil, Channel.push_queue, List.append_assoc, ← hsplit]
    exact hout
  inbox_sent := rfl
  out_got := rfl
  total _ := by
    rw [Channel.push_sent, hsplit, List.length_append, Nat.add_assoc]

/-- A step that writes nothing and begins to write nothing. -/
private theorem flowed_silent {next : Next} {rx : Receiver} {rest : List (Packet × Nat)}
    (hin : Carries rx inbox'.got (inbox'.queue ++ unwritten) rest)
    (hout : Carries peerRx me.out.got (me.out.queue ++ a.unwritten) leaving)
    (hsent : inbox'.sent = inbox.sent) (hnext : next.unwritten = a.unwritten) :
    Flowed me ⟨⟨rx, next.prog rx k⟩, me.out⟩ inbox inbox' peerRx unwritten a k
      leaving next [] rest where
  prog := rfl
  coming := hin
  leaving := by
    rw [List.append_nil, hnext]
    exact hout
  inbox_sent := hsent
  out_got := rfl
  total _ := by rw [hnext]

/-- A step that begins to acknowledge. -/
private theorem flowed_ack {rx : Receiver} {rest : List (Packet × Nat)}
    (hin : Carries rx inbox'.got (inbox'.queue ++ unwritten) rest)
    (hout : Carries peerRx me.out.got (me.out.queue ++ a.unwritten) leaving)
    (hsent : inbox'.sent = inbox.sent) (ha : a.unwritten = []) :
    Flowed me ⟨⟨rx, (Next.goes .ack).prog rx k⟩, me.out⟩ inbox inbox' peerRx unwritten a k
      leaving (.goes .ack) [(ackPacket, me.out.sent + ackPacket.frame.length)] rest where
  prog := rfl
  coming := hin
  leaving := by
    rw [ha, List.append_nil] at hout
    exact hout.append ackPacket
  inbox_sent := hsent
  out_got := rfl
  total h := absurd h (List.cons_ne_nil _ _)

/-- **What a step does to the packets on their way.** -/
theorem step_flow (hprog : me.node.prog = a.prog >>= k)
    (hin : Carries me.node.rx inbox.got (inbox.queue ++ unwritten) coming)
    (hout : Carries peerRx me.out.got (me.out.queue ++ a.unwritten) leaving)
    (he : e ≠ .timeout) (h : me.step inbox e = some (me', inbox', heard)) :
    ∃ next added rest,
      Flow me'.node.rx me'.out.sent inbox'.got coming a e heard next added rest ∧
        Flowed me me' inbox inbox' peerRx unwritten a k leaving next added rest := by
  cases step_cases h with
  | timeout => exact absurd rfl he
  | wrote node data hsignal =>
      obtain ⟨rx, next, heffect, rfl⟩ := Node.signal_effect hprog hsignal
      cases heffect with
      | wrote _ next rest =>
          exact ⟨_, _, _, .wrote data next rest,
            flowed_write hin hout (by simp [Activity.unwritten])⟩
      | wroteLast =>
          exact ⟨_, _, _, .wroteLast data,
            flowed_write hin hout (by simp [Activity.unwritten])⟩
      | acked _ next rest =>
          exact ⟨_, _, _, .acked data next rest,
            flowed_write hin hout (by simp [Activity.unwritten])⟩
      | ackedLast =>
          exact ⟨_, _, _, .ackedLast data,
            flowed_write hin hout (by simp [Activity.unwritten])⟩
  | deliver b queue node data hqueue hsignal =>
      obtain ⟨rx, next, heffect, rfl⟩ := Node.signal_effect hprog hsignal
      have hsent : Channel.sent ⟨queue, inbox.got + 1⟩ = inbox.sent := by
        show inbox.got + 1 + queue.length = inbox.got + inbox.queue.length
        rw [hqueue, List.length_cons]
        omega
      rw [hqueue, List.cons_append] at hin
      -- either the frame goes on, or its packet arrives
      rcases hin.read with ⟨hmore, hin⟩ | ⟨hdone, rest, hcoming, hstart, hin⟩
      · simp only [Receiver.heard, hmore, Bool.false_eq_true, if_false]
        cases heffect with
        | more a b ha _ =>
            exact ⟨_, _, _, .more a ha, flowed_silent hin hout hsent rfl⟩
        | received _ _ _ hdone | stray _ _ _ hdone | acknowledged _ hdone
        | notAcknowledged _ hdone => simp [hmore] at hdone
      · have harrives : Arrives (me.node.rx.readByte b).1 (inbox.got + 1) coming rest
            (me.node.rx.readByte b).1.msg.packet := ⟨hcoming, rfl, hstart⟩
        simp only [Receiver.heard, hdone, if_true]
        cases heffect with
        | more a b _ hmore => simp [hmore] at hdone
        | received a b ha _ hid =>
            have hsilent : a.unwritten = [] := by
              rcases ha with rfl | ⟨t, rfl⟩ <;> rfl
            exact ⟨_, _, _, .received a _ rest ha harrives hid,
              flowed_ack hin hout hsent hsilent⟩
        | stray a b ha _ hid =>
            have hsilent : a.unwritten = [] := by
              rcases ha with rfl | ⟨t, rfl⟩ <;> rfl
            exact ⟨_, _, _, .stray a _ rest ha harrives hid,
              flowed_silent hin hout hsent hsilent.symm⟩
        | acknowledged b _ hid =>
            exact ⟨_, _, _, .acknowledged _ rest harrives hid,
              flowed_silent hin hout hsent rfl⟩
        | notAcknowledged b _ hid =>
            exact ⟨_, _, _, .notAcknowledged _ rest harrives hid,
              flowed_silent hin hout hsent rfl⟩
  | quiet node data hsignal =>
      obtain ⟨rx, next, heffect, rfl⟩ := Node.signal_effect hprog hsignal
      cases heffect with
      | quiet => exact ⟨_, _, _, .quiet, flowed_silent hin hout rfl rfl⟩

/-- What a timeout does: the receiver is reset and the call returns. -/
theorem step_timeout (hprog : me.node.prog = a.prog >>= k)
    (h : me.step inbox .timeout = some (me', inbox', heard)) :
    ∃ res, ((∃ t, a = .receiving t) ∧ res = .errTimeout ∨
        a = .waiting ∧ res = .errNoMsg) ∧
      inbox' = inbox ∧ heard = none ∧ me'.out = me.out ∧
      me'.node.rx = { me.node.rx with transport := .fresh } ∧
      me'.node.prog = (Next.returns res).prog me'.node.rx k := by
  cases step_cases h with
  | timeout node data hsignal =>
      obtain ⟨rx, next, heffect, rfl⟩ := Node.signal_effect hprog hsignal
      cases heffect with
      | expired t => exact ⟨.errTimeout, .inl ⟨⟨t, rfl⟩, rfl⟩, rfl, rfl, rfl, rfl, rfl⟩
      | unanswered => exact ⟨.errNoMsg, .inr ⟨rfl, rfl⟩, rfl, rfl, rfl, rfl, rfl⟩

end Party

end MpmtTestStand.Ports
