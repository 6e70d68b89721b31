import MpmtTestStand.Ports.WaitLoops

/-!
# Waiting for the controller: `arduino_connect` and `connect_to_arduino`

Before the host talks to the controller it polls for a PING.  `connect_to_arduino`
stops when `check_for_message` has returned `SERIAL_OK` for one.  `arduino_connect`
takes the result for a truth value, and `SERIAL_OK` is zero: it goes on after a PING,
and stops as soon as a poll finds no message, or cannot acknowledge one, while the
identifier last read is that of a PING.  That can be in the middle of a frame, and
then `link_check` refuses to send.
`connect_iff` says for which streams the two agree, and for which ones the loop of
`arduino_connect` at least ends after a PING and between two frames.
-/

namespace MpmtTestStand.Ports

open MpmtTestStand.Verified

variable {α : Type}

/-! ## One answer of the device -/

/-- The device has nothing to read when it has given the answers `pre`. -/
def Pauses (pre answers : List DeviceAnswer) : Prop :=
  pre = answers ∨ ∃ a post, answers = pre ++ a :: post ∧ a.byte? = none

/-- As the messages come in, every PING is acknowledged. -/
def PingsAcked (out : SerialOut) : List Packet → Prop
  | [] => True
  | p :: ps =>
      if p.id = msgIdAck ∨ p.id = msgIdNack then PingsAcked out ps
      else
        (p.id = msgIdPing → (sendMessage ackMessage out).1 = true) ∧
          PingsAcked (sendMessage ackMessage out).2 ps

theorem pingsAcked_cons_ack {p : Packet} {ps : List Packet} {out : SerialOut}
    (hid : p.id = msgIdAck ∨ p.id = msgIdNack) :
    PingsAcked out (p :: ps) ↔ PingsAcked out ps := by
  rw [PingsAcked, if_pos hid]

theorem pingsAcked_cons {p : Packet} {ps : List Packet} {out : SerialOut}
    (hid : ¬(p.id = msgIdAck ∨ p.id = msgIdNack)) :
    PingsAcked out (p :: ps) ↔ (p.id = msgIdPing → (sendMessage ackMessage out).1 = true) ∧
      PingsAcked (sendMessage ackMessage out).2 ps := by
  rw [PingsAcked, if_neg hid]

theorem pauses_nil {pre : List DeviceAnswer} : Pauses pre [] ↔ pre = [] := by
  simp [Pauses]

theorem pauses_cons {a : DeviceAnswer} {rest pre : List DeviceAnswer} :
    Pauses pre (a :: rest) ↔
      (pre = [] ∧ a.byte? = none) ∨ ∃ pre', pre = a :: pre' ∧ Pauses pre' rest := by
  cases pre with
  | nil => simp [Pauses]
  | cons x pre =>
      simp only [Pauses, List.cons.injEq, List.cons_append, reduceCtorEq, false_and, false_or]
      constructor
      · rintro (⟨rfl, rfl⟩ | ⟨y, post, ⟨rfl, rfl⟩, hy⟩)
        · exact ⟨_, ⟨rfl, rfl⟩, .inl rfl⟩
        · exact ⟨_, ⟨rfl, rfl⟩, .inr ⟨y, post, rfl, hy⟩⟩
      · rintro ⟨pre', ⟨rfl, rfl⟩, rfl | ⟨y, post, rfl, hy⟩⟩
        · exact .inl ⟨rfl, rfl⟩
        · exact .inr ⟨y, post, ⟨rfl, rfl⟩, hy⟩

section Poll

variable {rx : Receiver} {rest : List DeviceAnswer} {out : SerialOut} {a : DeviceAnswer}
  {b : UInt8}

/-! ### What it does to a poll -/

theorem poll_pause (ha : a.byte? = none) :
    (HostEnd.mk rx (a :: rest) out).poll = (.okNoMsg, ⟨rx, rest, out⟩) := by
  cases a with
  | nothing => rfl
  | readFailed => rfl
  | byte b => cases ha

theorem poll_more (hmore : (rx.readByte b).2 = false) :
    (HostEnd.mk rx (.byte b :: rest) out).poll =
      (HostEnd.mk (rx.readByte b).1 rest out).poll := by
  simp [HostEnd.poll, checkForMessage, hmore]

theorem poll_done (hdone : (rx.readByte b).2 = true) :
    (HostEnd.mk rx (.byte b :: rest) out).poll =
      if (rx.readByte b).1.msg.id = msgIdAck ∨ (rx.readByte b).1.msg.id = msgIdNack then
        (.errWrongMsg, ⟨(rx.readByte b).1, rest, out⟩)
      else (if (sendMessage ackMessage out).1 then .ok else .errAckFailed,
        ⟨(rx.readByte b).1, rest, (sendMessage ackMessage out).2⟩) := by
  have hcall : checkForMessage rx (.byte b :: rest) = ⟨true, (rx.readByte b).1, rest⟩ := by
    simp [checkForMessage, hdone]
  simp only [HostEnd.poll, hcall, if_true]

/-- No poll ends the loop of `arduino_connect`. -/
def NeverLeftover (h : HostEnd) : Prop := ∀ n, ¬(h.polls n).Leftover

theorem neverLeftover_poll (h : HostEnd) :
    NeverLeftover h ↔ ¬h.Leftover ∧ NeverLeftover h.poll.2 := by
  constructor
  · exact fun hnever => ⟨hnever 0, fun n => hnever (n + 1)⟩
  · rintro ⟨hnow, hlater⟩ n
    cases n with
    | zero => exact hnow
    | succ n => exact hlater n

theorem neverLeftover_nil : NeverLeftover ⟨rx, [], out⟩ ↔ rx.msg.id ≠ msgIdPing := by
  have hstay : ∀ n, (HostEnd.mk rx [] out).polls n = ⟨rx, [], out⟩ := by
    intro n
    induction n with
    | zero => rfl
    | succ n ih => exact ih
  simp [NeverLeftover, hstay, HostEnd.Leftover, HostEnd.poll, checkForMessage]

theorem neverLeftover_pause (ha : a.byte? = none) :
    NeverLeftover ⟨rx, a :: rest, out⟩ ↔
      rx.msg.id ≠ msgIdPing ∧ NeverLeftover ⟨rx, rest, out⟩ := by
  rw [neverLeftover_poll, poll_pause ha]
  simp [HostEnd.Leftover, poll_pause ha]

theorem neverLeftover_more (hmore : (rx.readByte b).2 = false) :
    NeverLeftover ⟨rx, .byte b :: rest, out⟩ ↔
      NeverLeftover ⟨(rx.readByte b).1, rest, out⟩ := by
  rw [neverLeftover_poll, poll_more hmore, neverLeftover_poll ⟨(rx.readByte b).1, rest, out⟩]
  unfold HostEnd.Leftover
  rw [poll_more hmore]

theorem neverLeftover_done (hdone : (rx.readByte b).2 = true) :
    NeverLeftover ⟨rx, .byte b :: rest, out⟩ ↔
      if (rx.readByte b).1.msg.id = msgIdAck ∨ (rx.readByte b).1.msg.id = msgIdNack then
        NeverLeftover ⟨(rx.readByte b).1, rest, out⟩
      else
        ((rx.readByte b).1.msg.id = msgIdPing → (sendMessage ackMessage out).1 = true) ∧
          NeverLeftover ⟨(rx.readByte b).1, rest, (sendMessage ackMessage out).2⟩ := by
  have hping : ∀ {id : UInt8}, id = msgIdAck ∨ id = msgIdNack → id ≠ msgIdPing := by
    rintro _ (rfl | rfl) <;> decide
  rw [neverLeftover_poll]
  unfold HostEnd.Leftover
  rw [poll_done hdone]
  by_cases hid : (rx.readByte b).1.msg.id = msgIdAck ∨ (rx.readByte b).1.msg.id = msgIdNack
  · simp [hid, hping hid]
  · simp only [if_neg hid]
    cases (sendMessage ackMessage out).1 <;> simp

/-! ### What it does to the stream -/

/-- The stream never pauses with the identifier of a PING, and its PINGs are
acknowledged. -/
def NoPingLeft (h : HostEnd) : Prop :=
  (∀ pre, Pauses pre h.answers →
    (Mealy.feed Receiver.receive h.rx (bytesOf pre)).1.msg.id ≠ msgIdPing) ∧
  PingsAcked h.out ((Mealy.feed Receiver.receive h.rx (bytesOf h.answers)).2.map
    ReceivedMessage.packet)

theorem noPingLeft_nil : NoPingLeft ⟨rx, [], out⟩ ↔ rx.msg.id ≠ msgIdPing := by
  simp [NoPingLeft, pauses_nil, bytesOf, PingsAcked]

theorem noPingLeft_pause (ha : a.byte? = none) :
    NoPingLeft ⟨rx, a :: rest, out⟩ ↔
      rx.msg.id ≠ msgIdPing ∧ NoPingLeft ⟨rx, rest, out⟩ := by
  have hbytes : ∀ pre, bytesOf (a :: pre) = bytesOf pre := fun pre => by simp [bytesOf, ha]
  unfold NoPingLeft
  rw [hbytes]
  constructor
  · rintro ⟨hpauses, hacked⟩
    refine ⟨hpauses [] (pauses_cons.mpr (.inl ⟨rfl, ha⟩)), fun pre hpre => ?_, hacked⟩
    rw [← hbytes]
    exact hpauses (a :: pre) (pauses_cons.mpr (.inr ⟨pre, rfl, hpre⟩))
  · rintro ⟨hnow, hpauses, hacked⟩
    refine ⟨fun pre hpre => ?_, hacked⟩
    rcases pauses_cons.mp hpre with ⟨rfl, -⟩ | ⟨later, rfl, hlater⟩
    · exact hnow
    · rw [hbytes]
      exact hpauses later hlater

theorem noPingLeft_byte :
    NoPingLeft ⟨rx, .byte b :: rest, out⟩ ↔
      (∀ pre, Pauses pre rest →
        (Mealy.feed Receiver.receive rx (b :: bytesOf pre)).1.msg.id ≠ msgIdPing) ∧
      PingsAcked out ((Mealy.feed Receiver.receive rx (b :: bytesOf rest)).2.map
        ReceivedMessage.packet) := by
  unfold NoPingLeft
  constructor
  · rintro ⟨hpauses, hacked⟩
    refine ⟨fun pre hpre => ?_, hacked⟩
    exact hpauses (.byte b :: pre) (pauses_cons.mpr (.inr ⟨pre, rfl, hpre⟩))
  · rintro ⟨hpauses, hacked⟩
    refine ⟨fun pre hpre => ?_, hacked⟩
    rcases pauses_cons.mp hpre with ⟨-, hbyte⟩ | ⟨later, rfl, hlater⟩
    · cases hbyte
    · exact hpauses later hlater

theorem noPingLeft_more (hmore : (rx.readByte b).2 = false) :
    NoPingLeft ⟨rx, .byte b :: rest, out⟩ ↔ NoPingLeft ⟨(rx.readByte b).1, rest, out⟩ := by
  have hstep : rx.receive b = ((rx.readByte b).1, none) := by simp [Receiver.receive, hmore]
  rw [noPingLeft_byte]
  simp only [Mealy.feed_cons_silent _ hstep]
  rfl

theorem noPingLeft_done (hdone : (rx.readByte b).2 = true) :
    NoPingLeft ⟨rx, .byte b :: rest, out⟩ ↔
      if (rx.readByte b).1.msg.id = msgIdAck ∨ (rx.readByte b).1.msg.id = msgIdNack then
        NoPingLeft ⟨(rx.readByte b).1, rest, out⟩
      else
        ((rx.readByte b).1.msg.id = msgIdPing → (sendMessage ackMessage out).1 = true) ∧
          NoPingLeft ⟨(rx.readByte b).1, rest, (sendMessage ackMessage out).2⟩ := by
  have hstep : rx.receive b = ((rx.readByte b).1, some (rx.readByte b).1.msg) := by
    simp [Receiver.receive, hdone]
  rw [noPingLeft_byte]
  simp only [Mealy.feed_cons_output _ hstep, List.map_cons]
  by_cases hid : (rx.readByte b).1.msg.id = msgIdAck ∨ (rx.readByte b).1.msg.id = msgIdNack
  · rw [pingsAcked_cons_ack hid, if_pos hid]
    rfl
  · rw [pingsAcked_cons hid, if_neg hid]
    exact and_left_comm

end Poll

/-- **When no poll ends the loop of `arduino_connect`.** -/
theorem neverLeftover_iff (answers : List DeviceAnswer) (rx : Receiver) (out : SerialOut) :
    NeverLeftover ⟨rx, answers, out⟩ ↔ NoPingLeft ⟨rx, answers, out⟩ := by
  induction answers generalizing rx out with
  | nil => rw [neverLeftover_nil, noPingLeft_nil]
  | cons a rest ih =>
      cases hbyte : a.byte? with
      | none => rw [neverLeftover_pause hbyte, noPingLeft_pause hbyte, ih]
      | some b =>
          obtain rfl : a = .byte b := by
            cases a <;> simp_all [DeviceAnswer.byte?]
          cases hread : (rx.readByte b).2 with
          | false => rw [neverLeftover_more hread, noPingLeft_more hread, ih]
          | true => rw [neverLeftover_done hread, noPingLeft_done hread, ih, ih]

/-! ## A PING before the end -/

section AfterPing

variable {rx : Receiver} {rest : List DeviceAnswer} {out : SerialOut} {a : DeviceAnswer}
  {b : UInt8} {got : Prop} {h : HostEnd}

/-- If a poll ends the loop of `arduino_connect`, an earlier one has acknowledged a PING,
or `got`, and the poll leaves the receiver between two frames. -/
def EndsAfterPing (got : Prop) (h : HostEnd) : Prop :=
  ∀ n, (∀ m < n, ¬(h.polls m).Leftover) → (h.polls n).Leftover →
    (got ∨ ∃ m < n, (h.polls m).Pinged) ∧ (h.polls (n + 1)).rx.transport = .fresh

theorem endsAfterPing_poll (got : Prop) (h : HostEnd) :
    EndsAfterPing got h ↔
      (h.Leftover → got ∧ h.poll.2.rx.transport = .fresh) ∧
        (¬h.Leftover → EndsAfterPing (got ∨ h.Pinged) h.poll.2) := by
  constructor
  · refine fun hends => ⟨fun hleft => ?_, fun hleft n hnot hlast => ?_⟩
    · obtain ⟨hgot, hfresh⟩ := hends 0 (by simp) hleft
      exact ⟨hgot.resolve_right (by simp), hfresh⟩
    · have hall : ∀ m < n + 1, ¬(h.polls m).Leftover := by
        intro m hm
        cases m with
        | zero => exact hleft
        | succ m => exact hnot m (by omega)
      obtain ⟨hgot, hfresh⟩ := hends (n + 1) hall hlast
      refine ⟨?_, hfresh⟩
      rcases hgot with hgot | ⟨m, hm, hping⟩
      · exact .inl (.inl hgot)
      · cases m with
        | zero => exact .inl (.inr hping)
        | succ m => exact .inr ⟨m, by omega, hping⟩
  · rintro ⟨hnow, hlater⟩ n hnot hlast
    cases n with
    | zero =>
        obtain ⟨hgot, hfresh⟩ := hnow hlast
        exact ⟨.inl hgot, hfresh⟩
    | succ n =>
        obtain ⟨hgot, hfresh⟩ := hlater (hnot 0 (by omega)) n
          (fun m hm => hnot (m + 1) (by omega)) hlast
        refine ⟨?_, hfresh⟩
        rcases hgot with (hgot | hping) | ⟨m, hm, hping⟩
        · exact .inl hgot
        · exact .inr ⟨0, by omega, hping⟩
        · exact .inr ⟨m + 1, by omega, hping⟩

theorem endsAfterPing_nil :
    EndsAfterPing got ⟨rx, [], out⟩ ↔
      (rx.msg.id = msgIdPing → got ∧ rx.transport = .fresh) := by
  have hstay : ∀ n, (HostEnd.mk rx [] out).polls n = ⟨rx, [], out⟩ := by
    intro n
    induction n with
    | zero => rfl
    | succ n ih => exact ih
  have hleft : (HostEnd.mk rx [] out).Leftover ↔ rx.msg.id = msgIdPing := by
    simp [HostEnd.Leftover, HostEnd.poll, checkForMessage]
  have hping : ¬(HostEnd.mk rx [] out).Pinged := by
    simp [HostEnd.Pinged, HostEnd.poll, checkForMessage]
  unfold EndsAfterPing
  simp only [hstay, hleft, hping, and_false, exists_false, or_false]
  exact ⟨fun hends => hends 0 (by simp), fun hends _ _ => hends⟩

theorem endsAfterPing_pause (ha : a.byte? = none) :
    EndsAfterPing got ⟨rx, a :: rest, out⟩ ↔
      (rx.msg.id = msgIdPing → got ∧ rx.transport = .fresh) ∧
        (rx.msg.id ≠ msgIdPing → EndsAfterPing got ⟨rx, rest, out⟩) := by
  have hleft : (HostEnd.mk rx (a :: rest) out).Leftover ↔ rx.msg.id = msgIdPing := by
    simp [HostEnd.Leftover, poll_pause ha]
  have hping : ¬(HostEnd.mk rx (a :: rest) out).Pinged := by
    simp [HostEnd.Pinged, poll_pause ha]
  rw [endsAfterPing_poll, hleft, poll_pause ha]
  simp [hping]

theorem endsAfterPing_more (hmore : (rx.readByte b).2 = false) :
    EndsAfterPing got ⟨rx, .byte b :: rest, out⟩ ↔
      EndsAfterPing got ⟨(rx.readByte b).1, rest, out⟩ := by
  have hleft : (HostEnd.mk rx (.byte b :: rest) out).Leftover ↔
      (HostEnd.mk (rx.readByte b).1 rest out).Leftover := by
    simp only [HostEnd.Leftover, poll_more hmore]
  have hping : (HostEnd.mk rx (.byte b :: rest) out).Pinged ↔
      (HostEnd.mk (rx.readByte b).1 rest out).Pinged := by
    simp only [HostEnd.Pinged, poll_more hmore]
  rw [endsAfterPing_poll, endsAfterPing_poll got ⟨(rx.readByte b).1, rest, out⟩, hleft,
    poll_more hmore]
  simp only [hping]

/-- A complete message leaves the receiver between two frames. -/
theorem readByte_complete (hdone : (rx.readByte b).2 = true) :
    (rx.readByte b).1.transport = .fresh := by
  have hcall : checkForMessage rx [.byte b] = ⟨true, (rx.readByte b).1, []⟩ := by
    simp [checkForMessage, hdone]
  have hcomplete : (checkForMessage rx [.byte b]).receiver.transport = .fresh :=
    checkForMessage_complete (by rw [hcall])
  rwa [hcall] at hcomplete

theorem endsAfterPing_done (hdone : (rx.readByte b).2 = true) :
    EndsAfterPing got ⟨rx, .byte b :: rest, out⟩ ↔
      if (rx.readByte b).1.msg.id = msgIdAck ∨ (rx.readByte b).1.msg.id = msgIdNack then
        EndsAfterPing got ⟨(rx.readByte b).1, rest, out⟩
      else if (rx.readByte b).1.msg.id = msgIdPing then
        if (sendMessage ackMessage out).1 then
          EndsAfterPing True ⟨(rx.readByte b).1, rest, (sendMessage ackMessage out).2⟩
        else got
      else EndsAfterPing got ⟨(rx.readByte b).1, rest, (sendMessage ackMessage out).2⟩ := by
  have hping : ∀ {id : UInt8}, id = msgIdAck ∨ id = msgIdNack → id ≠ msgIdPing := by
    rintro _ (rfl | rfl) <;> decide
  have hfresh := readByte_complete hdone
  rw [endsAfterPing_poll]
  unfold HostEnd.Leftover HostEnd.Pinged
  rw [poll_done hdone]
  by_cases hid : (rx.readByte b).1.msg.id = msgIdAck ∨ (rx.readByte b).1.msg.id = msgIdNack
  · simp [hid, hping hid]
  · simp only [if_neg hid]
    by_cases hown : (rx.readByte b).1.msg.id = msgIdPing
    · cases (sendMessage ackMessage out).1 <;> simp [hown, hfresh]
    · simp [hown]

/-! ### What it does to the stream -/

/-- A PING is among the messages, and it is acknowledged. -/
def PingAcked (out : SerialOut) (ps : List Packet) : Prop :=
  ∃ front p back, ps = front ++ p :: back ∧ p.id = msgIdPing ∧ PingsAcked out (front ++ [p])

theorem pingAcked_nil : ¬PingAcked out [] := by
  rintro ⟨front, p, back, hnil, -⟩
  simp at hnil

theorem pingAcked_cons_ack {p : Packet} {ps : List Packet}
    (hid : p.id = msgIdAck ∨ p.id = msgIdNack) :
    PingAcked out (p :: ps) ↔ PingAcked out ps := by
  have hping : p.id ≠ msgIdPing := by
    rcases hid with hid | hid <;> rw [hid] <;> decide
  constructor
  · rintro ⟨front, q, back, heq, hq, hacked⟩
    cases front with
    | nil => exact absurd ((List.cons.inj heq).1 ▸ hq) hping
    | cons p' front =>
        obtain ⟨rfl, rfl⟩ := List.cons.inj heq
        exact ⟨front, q, back, rfl, hq, (pingsAcked_cons_ack hid).mp hacked⟩
  · rintro ⟨front, q, back, rfl, hq, hacked⟩
    exact ⟨p :: front, q, back, rfl, hq, (pingsAcked_cons_ack hid).mpr hacked⟩

theorem pingAcked_cons {p : Packet} {ps : List Packet}
    (hid : ¬(p.id = msgIdAck ∨ p.id = msgIdNack)) :
    PingAcked out (p :: ps) ↔ (p.id = msgIdPing → (sendMessage ackMessage out).1 = true) ∧
      (p.id = msgIdPing ∨ PingAcked (sendMessage ackMessage out).2 ps) := by
  constructor
  · rintro ⟨front, q, back, heq, hq, hacked⟩
    cases front with
    | nil =>
        obtain ⟨rfl, rfl⟩ := List.cons.inj heq
        exact ⟨((pingsAcked_cons hid).mp hacked).1, .inl hq⟩
    | cons p' front =>
        obtain ⟨rfl, rfl⟩ := List.cons.inj heq
        obtain ⟨hsent, hacked⟩ := (pingsAcked_cons hid).mp hacked
        exact ⟨hsent, .inr ⟨front, q, back, rfl, hq, hacked⟩⟩
  · rintro ⟨hsent, hping | ⟨front, q, back, rfl, hq, hacked⟩⟩
    · exact ⟨[], p, ps, rfl, hping, (pingsAcked_cons hid).mpr ⟨hsent, trivial⟩⟩
    · exact ⟨p :: front, q, back, rfl, hq, (pingsAcked_cons hid).mpr ⟨hsent, hacked⟩⟩

/-- The messages that come in with the answers `pre`. -/
def HostEnd.messages (h : HostEnd) (pre : List DeviceAnswer) : List Packet :=
  (Mealy.feed Receiver.receive h.rx (bytesOf pre)).2.map ReceivedMessage.packet

/-- After the answers `pre` the device pauses with the identifier of a PING, or a PING has
not been acknowledged. -/
def Stuck (h : HostEnd) (pre : List DeviceAnswer) : Prop :=
  (Pauses pre h.answers ∧
    (Mealy.feed Receiver.receive h.rx (bytesOf pre)).1.msg.id = msgIdPing) ∨
  (pre <+: h.answers ∧ ¬PingsAcked h.out (h.messages pre))

/-- It is so for the first time. -/
def IsFirst (P : List DeviceAnswer → Prop) (pre : List DeviceAnswer) : Prop :=
  P pre ∧ ∀ pre', pre' <+: pre → pre' ≠ pre → ¬P pre'

/-- By then, a PING has been acknowledged, or `got`, and the bytes are whole frames. -/
def StuckAfterPing (got : Prop) (h : HostEnd) : Prop :=
  ∀ pre, IsFirst (Stuck h) pre → (got ∨ PingAcked h.out (h.messages pre)) ∧
    (Mealy.feed Receiver.receive h.rx (bytesOf pre)).1.transport = .fresh

theorem Pauses.isPrefix {pre answers : List DeviceAnswer} (h : Pauses pre answers) :
    pre <+: answers := by
  rcases h with rfl | ⟨a, post, rfl, -⟩
  · exact List.prefix_rfl
  · exact ⟨_, rfl⟩

theorem Stuck.isPrefix {pre : List DeviceAnswer} (hstuck : Stuck h pre) : pre <+: h.answers :=
  hstuck.elim (fun hpause => hpause.1.isPrefix) And.left

/-- What is stuck at once is so for the first time. -/
theorem firstStuck_of_nil (hnil : Stuck h []) (pre : List DeviceAnswer) :
    IsFirst (Stuck h) pre ↔ pre = [] := by
  constructor
  · rintro ⟨-, hfirst⟩
    by_contra hne
    exact hfirst [] List.nil_prefix (Ne.symm hne) hnil
  · rintro rfl
    exact ⟨hnil, fun pre' hpre' hne => absurd (List.prefix_nil.mp hpre') hne⟩

/-- The first answer makes no difference. -/
theorem stuckAfterPing_cons {h' : HostEnd} {got' : Prop} (hanswers : h.answers = a :: rest)
    (hnil : ¬Stuck h []) (hcons : ∀ pre, Stuck h (a :: pre) ↔ Stuck h' pre)
    (hgoal : ∀ pre, Stuck h' pre → (((got ∨ PingAcked h.out (h.messages (a :: pre))) ∧
      (Mealy.feed Receiver.receive h.rx (bytesOf (a :: pre))).1.transport = .fresh) ↔
        ((got' ∨ PingAcked h'.out (h'.messages pre)) ∧
          (Mealy.feed Receiver.receive h'.rx (bytesOf pre)).1.transport = .fresh))) :
    StuckAfterPing got h ↔ StuckAfterPing got' h' := by
  have hfirst : ∀ pre, IsFirst (Stuck h) (a :: pre) ↔ IsFirst (Stuck h') pre := by
    intro pre
    unfold IsFirst
    rw [hcons]
    refine and_congr_right fun _ => ⟨fun hnot pre' hpre' hne => ?_, fun hnot pre' hpre' hne => ?_⟩
    · rw [← hcons]
      exact hnot _ ((List.prefix_cons_inj a).mpr hpre') (by simpa using hne)
    · cases pre' with
      | nil => exact hnil
      | cons a' pre' =>
          obtain ⟨rfl, hlater⟩ := List.cons_prefix_cons.mp hpre'
          rw [hcons]
          exact hnot pre' hlater (by simpa using hne)
  constructor
  · exact fun hstuck pre hpre => (hgoal pre hpre.1).mp (hstuck (a :: pre) ((hfirst pre).mpr hpre))
  · intro hstuck pre hpre
    cases pre with
    | nil => exact absurd hpre.1 hnil
    | cons a' pre =>
        have hpref := hpre.1.isPrefix
        rw [hanswers] at hpref
        obtain ⟨rfl, -⟩ := List.cons_prefix_cons.mp hpref
        have hpre' := (hfirst pre).mp hpre
        exact (hgoal pre hpre'.1).mpr (hstuck pre hpre')

theorem stuckAfterPing_nil :
    StuckAfterPing got ⟨rx, [], out⟩ ↔
      (rx.msg.id = msgIdPing → got ∧ rx.transport = .fresh) := by
  have hstuck : ∀ pre, Stuck ⟨rx, [], out⟩ pre ↔ pre = [] ∧ rx.msg.id = msgIdPing := by
    intro pre
    unfold Stuck
    constructor
    · rintro (⟨hpause, hid⟩ | ⟨hpref, hacked⟩)
      · obtain rfl := pauses_nil.mp hpause
        exact ⟨rfl, hid⟩
      · obtain rfl := List.prefix_nil.mp hpref
        exact absurd trivial hacked
    · rintro ⟨rfl, hid⟩
      exact .inl ⟨.inl rfl, hid⟩
  constructor
  · intro hafter hid
    obtain ⟨hgot, hfresh⟩ := hafter []
      ((firstStuck_of_nil ((hstuck []).mpr ⟨rfl, hid⟩) []).mpr rfl)
    exact ⟨hgot.resolve_right pingAcked_nil, hfresh⟩
  · intro hafter pre hpre
    obtain ⟨rfl, hid⟩ := (hstuck pre).mp hpre.1
    obtain ⟨hgot, hfresh⟩ := hafter hid
    exact ⟨.inl hgot, hfresh⟩

theorem stuckAfterPing_pause (ha : a.byte? = none) :
    StuckAfterPing got ⟨rx, a :: rest, out⟩ ↔
      (rx.msg.id = msgIdPing → got ∧ rx.transport = .fresh) ∧
        (rx.msg.id ≠ msgIdPing → StuckAfterPing got ⟨rx, rest, out⟩) := by
  have hbytes : ∀ pre, bytesOf (a :: pre) = bytesOf pre := fun pre => by simp [bytesOf, ha]
  have hnil : Stuck ⟨rx, a :: rest, out⟩ [] ↔ rx.msg.id = msgIdPing := by
    unfold Stuck
    constructor
    · rintro (⟨-, hid⟩ | ⟨-, hacked⟩)
      · exact hid
      · exact absurd trivial hacked
    · exact fun hid => .inl ⟨pauses_cons.mpr (.inl ⟨rfl, ha⟩), hid⟩
  by_cases hid : rx.msg.id = msgIdPing
  · simp only [hid, forall_const, ne_eq, not_true_eq_false, false_imp_iff, and_true]
    have hfirst := firstStuck_of_nil (hnil.mpr hid)
    constructor
    · intro hafter
      obtain ⟨hgot, hfresh⟩ := hafter [] ((hfirst []).mpr rfl)
      exact ⟨hgot.resolve_right pingAcked_nil, hfresh⟩
    · rintro ⟨hgot, hfresh⟩ pre hpre
      obtain rfl := (hfirst pre).mp hpre
      exact ⟨.inl hgot, hfresh⟩
  · simp only [hid, false_imp_iff, ne_eq, not_false_eq_true, forall_const, true_and]
    refine stuckAfterPing_cons rfl (mt hnil.mp hid) (fun pre => ?_) fun pre _ => ?_
    · have hpause : Pauses (a :: pre) (a :: rest) ↔ Pauses pre rest := by
        rw [pauses_cons]
        simp
      simp only [Stuck, HostEnd.messages, hpause, hbytes, List.prefix_cons_inj]
    · simp only [HostEnd.messages, hbytes]

/-- After a byte, what is stuck is what is stuck later, or a PING is not acknowledged. -/
theorem stuck_byte (pre : List DeviceAnswer) :
    Stuck ⟨rx, .byte b :: rest, out⟩ (.byte b :: pre) ↔
      (Pauses pre rest ∧ (Mealy.feed Receiver.receive rx (b :: bytesOf pre)).1.msg.id =
        msgIdPing) ∨
      (pre <+: rest ∧ ¬PingsAcked out ((Mealy.feed Receiver.receive rx (b :: bytesOf pre)).2.map
        ReceivedMessage.packet)) := by
  have hpause : Pauses (.byte b :: pre) (.byte b :: rest) ↔ Pauses pre rest := by
    rw [pauses_cons]
    simp
  unfold Stuck HostEnd.messages
  rw [hpause, List.prefix_cons_inj]
  rfl

theorem not_stuck_byte : ¬Stuck ⟨rx, .byte b :: rest, out⟩ [] := by
  rintro (⟨hpause, -⟩ | ⟨-, hacked⟩)
  · rcases pauses_cons.mp hpause with ⟨-, hbyte⟩ | ⟨pre, hnil, -⟩
    · cases hbyte
    · cases hnil
  · exact hacked trivial

theorem stuckAfterPing_more (hmore : (rx.readByte b).2 = false) :
    StuckAfterPing got ⟨rx, .byte b :: rest, out⟩ ↔
      StuckAfterPing got ⟨(rx.readByte b).1, rest, out⟩ := by
  have hstep : rx.receive b = ((rx.readByte b).1, none) := by simp [Receiver.receive, hmore]
  have hfeed : ∀ pre, Mealy.feed Receiver.receive rx (bytesOf (.byte b :: pre)) =
      Mealy.feed Receiver.receive (rx.readByte b).1 (bytesOf pre) :=
    fun pre => Mealy.feed_cons_silent _ hstep (bytesOf pre)
  refine stuckAfterPing_cons rfl not_stuck_byte (fun pre => ?_) fun pre _ => ?_
  · rw [stuck_byte, Mealy.feed_cons_silent _ hstep]
    rfl
  · simp only [HostEnd.messages, hfeed]

theorem receive_done (hdone : (rx.readByte b).2 = true) :
    rx.receive b = ((rx.readByte b).1, some (rx.readByte b).1.msg) := by
  simp [Receiver.receive, hdone]

/-- The byte completes a message, which comes in first. -/
theorem messages_done (hdone : (rx.readByte b).2 = true) (out' : SerialOut)
    (pre : List DeviceAnswer) :
    (HostEnd.mk rx (.byte b :: rest) out).messages (.byte b :: pre) =
      (rx.readByte b).1.msg.packet ::
        (HostEnd.mk (rx.readByte b).1 rest out').messages pre := by
  show ((Mealy.feed Receiver.receive rx (b :: bytesOf pre)).2).map _ = _
  rw [Mealy.feed_cons_output _ (receive_done hdone)]
  rfl

theorem feed_done (hdone : (rx.readByte b).2 = true) (pre : List DeviceAnswer) :
    (Mealy.feed Receiver.receive rx (bytesOf (.byte b :: pre))).1 =
      (Mealy.feed Receiver.receive (rx.readByte b).1 (bytesOf pre)).1 := by
  show (Mealy.feed Receiver.receive rx (b :: bytesOf pre)).1 = _
  rw [Mealy.feed_cons_output _ (receive_done hdone)]

/-- A message that is not acknowledged at all. -/
theorem stuckAfterPing_ack (hdone : (rx.readByte b).2 = true)
    (hid : (rx.readByte b).1.msg.id = msgIdAck ∨ (rx.readByte b).1.msg.id = msgIdNack) :
    StuckAfterPing got ⟨rx, .byte b :: rest, out⟩ ↔
      StuckAfterPing got ⟨(rx.readByte b).1, rest, out⟩ := by
  refine stuckAfterPing_cons rfl not_stuck_byte (fun pre => ?_) fun pre _ => ?_
  · rw [stuck_byte, Mealy.feed_cons_output _ (receive_done hdone), List.map_cons,
      pingsAcked_cons_ack hid]
    rfl
  · rw [messages_done hdone out, feed_done hdone, pingAcked_cons_ack hid]

/-- A message that is no PING, or whose acknowledgement is written. -/
theorem stuckAfterPing_goes {got' : Prop} (hdone : (rx.readByte b).2 = true)
    (hid : ¬((rx.readByte b).1.msg.id = msgIdAck ∨ (rx.readByte b).1.msg.id = msgIdNack))
    (hsent : (rx.readByte b).1.msg.id = msgIdPing → (sendMessage ackMessage out).1 = true)
    (hgot' : got' ↔ (got ∨ (rx.readByte b).1.msg.id = msgIdPing)) :
    StuckAfterPing got ⟨rx, .byte b :: rest, out⟩ ↔
      StuckAfterPing got' ⟨(rx.readByte b).1, rest, (sendMessage ackMessage out).2⟩ := by
  have hacked : (rx.readByte b).1.msg.packet.id = msgIdPing →
      (sendMessage ackMessage out).1 = true := hsent
  refine stuckAfterPing_cons rfl not_stuck_byte (fun pre => ?_) fun pre _ => ?_
  · rw [stuck_byte, Mealy.feed_cons_output _ (receive_done hdone), List.map_cons,
      pingsAcked_cons hid, and_iff_right hacked]
    rfl
  · rw [messages_done hdone (sendMessage ackMessage out).2, feed_done hdone, pingAcked_cons hid,
      and_iff_right hacked, hgot', or_assoc]
    rfl

/-- A PING whose acknowledgement fails is where the device is stuck. -/
theorem stuckAfterPing_unacked (hdone : (rx.readByte b).2 = true)
    (hid : ¬((rx.readByte b).1.msg.id = msgIdAck ∨ (rx.readByte b).1.msg.id = msgIdNack))
    (hsent : ¬((rx.readByte b).1.msg.id = msgIdPing → (sendMessage ackMessage out).1 = true)) :
    StuckAfterPing got ⟨rx, .byte b :: rest, out⟩ ↔ got := by
  have hone : ∀ pre, Stuck ⟨rx, .byte b :: rest, out⟩ (.byte b :: pre) ↔ pre <+: rest := by
    intro pre
    rw [stuck_byte, Mealy.feed_cons_output _ (receive_done hdone), List.map_cons,
      pingsAcked_cons hid]
    constructor
    · exact fun h => h.elim (fun hpause => hpause.1.isPrefix) And.left
    · exact fun hpref => .inr ⟨hpref, fun hacked => hsent hacked.1⟩
  have hbyte : Stuck ⟨rx, .byte b :: rest, out⟩ [.byte b] := (hone []).mpr List.nil_prefix
  constructor
  · intro hafter
    have hfirst : IsFirst (Stuck ⟨rx, .byte b :: rest, out⟩) [.byte b] := by
      refine ⟨hbyte, fun pre' hpre' hne => ?_⟩
      cases pre' with
      | nil => exact not_stuck_byte
      | cons a' pre' =>
          obtain ⟨rfl, hlater⟩ := List.cons_prefix_cons.mp hpre'
          rw [List.prefix_nil.mp hlater] at hne
          exact absurd rfl hne
    refine (hafter _ hfirst).1.resolve_right fun hacked => ?_
    rw [messages_done hdone out, pingAcked_cons hid] at hacked
    exact hsent hacked.1
  · intro hgot pre hpre
    cases pre with
    | nil => exact absurd hpre.1 not_stuck_byte
    | cons a' pre =>
        obtain ⟨rfl, -⟩ := List.cons_prefix_cons.mp hpre.1.isPrefix
        obtain rfl : pre = [] := by
          by_contra hne
          exact hpre.2 [.byte b] (by simp) (by simpa using Ne.symm hne) hbyte
        refine ⟨.inl hgot, ?_⟩
        rw [feed_done hdone]
        exact readByte_complete hdone

theorem stuckAfterPing_done (hdone : (rx.readByte b).2 = true) :
    StuckAfterPing got ⟨rx, .byte b :: rest, out⟩ ↔
      if (rx.readByte b).1.msg.id = msgIdAck ∨ (rx.readByte b).1.msg.id = msgIdNack then
        StuckAfterPing got ⟨(rx.readByte b).1, rest, out⟩
      else if (rx.readByte b).1.msg.id = msgIdPing then
        if (sendMessage ackMessage out).1 then
          StuckAfterPing True ⟨(rx.readByte b).1, rest, (sendMessage ackMessage out).2⟩
        else got
      else StuckAfterPing got ⟨(rx.readByte b).1, rest, (sendMessage ackMessage out).2⟩ := by
  by_cases hid : (rx.readByte b).1.msg.id = msgIdAck ∨ (rx.readByte b).1.msg.id = msgIdNack
  · rw [if_pos hid]
    exact stuckAfterPing_ack hdone hid
  rw [if_neg hid]
  by_cases hping : (rx.readByte b).1.msg.id = msgIdPing
  · rw [if_pos hping]
    by_cases hsent : (sendMessage ackMessage out).1 = true
    · rw [if_pos hsent]
      exact stuckAfterPing_goes hdone hid (fun _ => hsent) (by simp [hping])
    · rw [if_neg hsent]
      exact stuckAfterPing_unacked hdone hid fun h => hsent (h hping)
  · rw [if_neg hping]
    exact stuckAfterPing_goes hdone hid (fun h => absurd h hping) (by simp [hping])

/-- **When the loop of `arduino_connect` ends after a PING.** -/
theorem endsAfterPing_iff (answers : List DeviceAnswer) (got : Prop) (rx : Receiver)
    (out : SerialOut) :
    EndsAfterPing got ⟨rx, answers, out⟩ ↔ StuckAfterPing got ⟨rx, answers, out⟩ := by
  induction answers generalizing got rx out with
  | nil => rw [endsAfterPing_nil, stuckAfterPing_nil]
  | cons a rest ih =>
      cases hbyte : a.byte? with
      | none => rw [endsAfterPing_pause hbyte, stuckAfterPing_pause hbyte, ih]
      | some b =>
          obtain rfl : a = .byte b := by
            cases a <;> simp_all [DeviceAnswer.byte?]
          cases hread : (rx.readByte b).2 with
          | false => rw [endsAfterPing_more hread, stuckAfterPing_more hread, ih]
          | true => rw [endsAfterPing_done hread, stuckAfterPing_done hread, ih, ih, ih]

end AfterPing

/-! ## What the loops wait for -/

/-- On the stream from a receiver that has read `tail` of a frame, the device never
pauses when the identifier last read is that of a PING, and every PING is
acknowledged. -/
def NeverPausesAtPing (tail : List UInt8) (h : HostEnd) : Prop :=
  (∀ pre ts rest, Pauses pre h.answers →
    PrefixCode.Tokenises grammar (tail ++ bytesOf pre) ts rest →
    lastId h.rx.msg.id ts rest ≠ msgIdPing) ∧
  ∀ ts rest, PrefixCode.Tokenises grammar (tail ++ bytesOf h.answers) ts rest →
    PingsAcked h.out (goodFrames ts)

/-- This can be seen from the stream. -/
theorem noPingLeft_iff {h : HostEnd} {tail : List UInt8} (hrx : Partial h.rx tail) :
    NoPingLeft h ↔ NeverPausesAtPing tail h := by
  unfold NoPingLeft NeverPausesAtPing
  constructor
  · rintro ⟨hpauses, hacked⟩
    constructor
    · intro pre ts rest hpre htok
      obtain ⟨us, rest', htok', hid⟩ := feed_lastId hrx (fun _ => rfl) (bytesOf pre)
      obtain ⟨rfl, rfl⟩ := htok.unique grammar htok'
      rw [← hid]
      exact hpauses pre hpre
    · intro ts rest htok
      rw [← (feed_of_tokenises hrx htok).2]
      exact hacked
  · rintro ⟨hpauses, hacked⟩
    constructor
    · intro pre hpre
      obtain ⟨ts, rest, htok, hid⟩ := feed_lastId hrx (fun _ => rfl) (bytesOf pre)
      rw [hid]
      exact hpauses pre ts rest hpre htok
    · obtain ⟨ts, rest, htok, -, hout⟩ := feed_tokenises hrx (bytesOf h.answers)
      rw [hout]
      exact hacked ts rest htok

/-- On the same stream: after the answers `pre` the device pauses when the identifier last
read is that of a PING, or the acknowledgement of a PING has failed. -/
def StuckAt (tail : List UInt8) (h : HostEnd) (pre : List DeviceAnswer) : Prop :=
  ∃ ts rest, PrefixCode.Tokenises grammar (tail ++ bytesOf pre) ts rest ∧
    (Pauses pre h.answers ∧ lastId h.rx.msg.id ts rest = msgIdPing ∨
      pre <+: h.answers ∧ ¬PingsAcked h.out (goodFrames ts))

/-- When this is so for the first time, a complete PING has been acknowledged, and no
frame is unfinished. -/
def PingBeforeStuck (tail : List UInt8) (h : HostEnd) : Prop :=
  ∀ pre ts rest, IsFirst (StuckAt tail h) pre →
    PrefixCode.Tokenises grammar (tail ++ bytesOf pre) ts rest →
    PingAcked h.out (goodFrames ts) ∧ rest = []

theorem stuckAt_iff {h : HostEnd} {tail : List UInt8} (hrx : Partial h.rx tail)
    (pre : List DeviceAnswer) : StuckAt tail h pre ↔ Stuck h pre := by
  obtain ⟨ts, rest, htok, hid⟩ := feed_lastId hrx (fun _ => rfl) (bytesOf pre)
  have hout := (feed_of_tokenises hrx htok).2
  unfold StuckAt Stuck HostEnd.messages
  rw [hid, hout]
  constructor
  · rintro ⟨us, rest', htok', hstuck⟩
    obtain ⟨rfl, rfl⟩ := htok.unique grammar htok'
    exact hstuck
  · exact fun hstuck => ⟨ts, rest, htok, hstuck⟩

/-- This can be seen from the stream. -/
theorem stuckAfterPing_iff {h : HostEnd} {tail : List UInt8} (hrx : Partial h.rx tail) :
    StuckAfterPing False h ↔ PingBeforeStuck tail h := by
  have hstuck : StuckAt tail h = Stuck h := funext fun pre => propext (stuckAt_iff hrx pre)
  unfold StuckAfterPing PingBeforeStuck
  rw [hstuck]
  refine forall_congr' fun pre => ?_
  obtain ⟨ts, rest, htok, hreading, hout⟩ := feed_tokenises hrx (bytesOf pre)
  have hfresh : (Mealy.feed Receiver.receive h.rx (bytesOf pre)).1.transport = .fresh ↔
      rest = [] := by
    constructor
    · intro htransport
      exact hreading.start_iff.2.mp (by rw [htransport]; rfl)
    · rintro rfl
      generalize (Mealy.feed Receiver.receive h.rx (bytesOf pre)).1 = r at hreading
      cases hreading
      rfl
  rw [HostEnd.messages, hout, hfresh, false_or]
  constructor
  · intro hafter us rest' hfirst htok'
    obtain ⟨rfl, rfl⟩ := htok.unique grammar htok'
    exact hafter hfirst
  · exact fun hafter hfirst => hafter ts rest hfirst htok

/-- The stream has no complete PING. -/
def NoPingFrame (tail : List UInt8) (h : HostEnd) : Prop :=
  ∀ ts rest, PrefixCode.Tokenises grammar (tail ++ bytesOf h.answers) ts rest →
    ∀ p ∈ goodFrames ts, p.id ≠ msgIdPing

/-- `link_check` does not send, because a message is in progress. -/
def RefusesLinkCheck (h : HostEnd) : Prop :=
  ∃ timeoutMs h', runOn (TestStandComm.linkCheck timeoutMs) h =
    some ((.errMsgInProgress, .none), h')

/-- `send_message` looks at `msg_in_progress` first; if it writes its message, it waits. -/
theorem runOn_sendMessage (p : Packet) (f : SerialResult → LinkProg noOps α) (h : HostEnd) :
    runOn (SerialSession.sendMessage p >>= f) h =
      if h.rx.transport.msgInProgress then runOn (f .errMsgInProgress) h
      else if (sendMessage p.toMessage h.out).1 then none
      else runOn (f .errSendFailed) { h with out := (sendMessage p.toMessage h.out).2 } := by
  have hlook : runOn (SerialSession.sendMessage p >>= f) h =
      runOn ((if h.rx.transport.msgInProgress then .ret .errMsgInProgress
        else (Activity.send p).prog) >>= f) h := rfl
  rw [hlook]
  cases h.rx.transport.msgInProgress with
  | true => rfl
  | false =>
      show runOn (SerialTransport.writePieces (framePieces p.toMessage) >>= Activity.afterSend
        >>= f) h = _
      rw [Prog.bind_bind, runOn_writePieces]
      show runOn (Activity.afterSend (sendMessage p.toMessage h.out).1 >>= f)
        { h with out := (sendMessage p.toMessage h.out).2 } = _
      cases (sendMessage p.toMessage h.out).1 <;> rfl

theorem refusesLinkCheck_iff (h : HostEnd) :
    RefusesLinkCheck h ↔ h.rx.transport.msgInProgress = true := by
  unfold RefusesLinkCheck TestStandComm.linkCheck exchange
  constructor
  · rintro ⟨timeoutMs, h', hrun⟩
    by_contra hidle
    rw [runOn_sendMessage, if_neg hidle] at hrun
    by_cases hsent : (sendMessage (TestStandComm.echoPacket TestStandComm.linkCheckData
        TestStandComm.linkCheckData_length).toMessage h.out).1 = true
    · rw [if_pos hsent] at hrun
      exact absurd hrun.symm (Option.some_ne_none _)
    · rw [if_neg hsent] at hrun
      have hres : SerialResult.errSendFailed = .errMsgInProgress :=
        congrArg (fun r => r.1.1) (Option.some.inj hrun)
      exact absurd hres (by decide)
  · intro hbusy
    refine ⟨0, h, ?_⟩
    rw [runOn_sendMessage, if_pos hbusy]
    rfl

/-- A poll has parsed a complete frame, that of a PING, and written its
acknowledgement.  It leaves the receiver between two frames, and `link_check` may
send. -/
structure PingReceived (before after : HostEnd) : Prop where
  complete : (checkForMessage before.rx before.answers).complete = true
  result : before.poll.1 = .ok
  id : after.rx.msg.id = msgIdPing
  acked : after.out.wire = before.out.wire ++ (Packet.basic msgIdAck).frame
  idle : after.rx.transport = .fresh
  accepted : ¬RefusesLinkCheck after

namespace HostEnd

/-- A poll reads as the transport does. -/
theorem poll_reads (h : HostEnd) :
    h.poll.2.rx = (checkForMessage h.rx h.answers).receiver ∧
      h.poll.2.answers = (checkForMessage h.rx h.answers).rest := by
  unfold poll
  dsimp only
  split_ifs <;> exact ⟨rfl, rfl⟩

/-- A poll that returns `SERIAL_OK` has read a message and acknowledged it. -/
theorem poll_ok {h : HostEnd} (hok : h.poll.1 = .ok) :
    (checkForMessage h.rx h.answers).complete = true ∧
      h.poll.2.out.wire = h.out.wire ++ (Packet.basic msgIdAck).frame := by
  unfold poll at hok ⊢
  dsimp only at hok ⊢
  split_ifs at hok ⊢ with hcomplete hid hsent
  · refine ⟨hcomplete, ?_⟩
    exact writePieces_true (Prod.ext hsent rfl)

/-- **`connect_to_arduino` stops at an acknowledged PING.** -/
theorem Pinged.received {h : HostEnd} (hping : h.Pinged) : PingReceived h h.poll.2 := by
  obtain ⟨hok, hid⟩ := hping
  obtain ⟨hcomplete, hwire⟩ := poll_ok hok
  have hidle : h.poll.2.rx.transport = .fresh := by
    rw [h.poll_reads.1]
    exact checkForMessage_complete hcomplete
  constructor
  · exact hcomplete
  · exact hok
  · exact hid
  · exact hwire
  · exact hidle
  · rw [refusesLinkCheck_iff, hidle]
    exact Bool.false_ne_true

/-- The polls are calls of the transport. -/
theorem polls_checkCalls (n : Nat) (h : HostEnd) :
    (h.polls n).rx = (checkCalls n h.rx h.answers).receiver ∧
      (h.polls n).answers = (checkCalls n h.rx h.answers).rest := by
  induction n generalizing h with
  | zero => exact ⟨rfl, rfl⟩
  | succ n ih =>
      rw [polls_succ, checkCalls]
      obtain ⟨hrx, hanswers⟩ := h.poll_reads
      rw [← hrx, ← hanswers]
      exact ih h.poll.2

/-- The last of several polls. -/
theorem poll_polls (n : Nat) (h : HostEnd) : (h.polls n).poll.2 = h.polls (n + 1) :=
  (Function.iterate_succ_apply' (fun h => h.poll.2) n h).symm

end HostEnd

namespace HostEnd

/-- The messages that the polls have read. -/
theorem mem_delivered (n : Nat) (h : HostEnd) (m : ReceivedMessage) :
    m ∈ (checkCalls n h.rx h.answers).delivered ↔
      ∃ k < n, (checkForMessage (h.polls k).rx (h.polls k).answers).complete = true ∧
        (h.polls (k + 1)).rx.msg = m := by
  induction n generalizing h with
  | zero => simp [checkCalls]
  | succ n ih =>
      obtain ⟨hrx, hanswers⟩ := h.poll_reads
      rw [checkCalls, List.mem_append, ← hrx, ← hanswers, ih]
      constructor
      · rintro (hfirst | ⟨k, hk, hlater⟩)
        · by_cases hcomplete : (checkForMessage h.rx h.answers).complete = true
          · rw [if_pos hcomplete, List.mem_singleton] at hfirst
            exact ⟨0, Nat.succ_pos n, hcomplete, hfirst.symm⟩
          · rw [if_neg hcomplete] at hfirst
            exact absurd hfirst List.not_mem_nil
        · exact ⟨k + 1, Nat.succ_lt_succ hk, hlater⟩
      · rintro ⟨k, hk, hcomplete, hmsg⟩
        cases k with
        | zero =>
            left
            rw [if_pos (show (checkForMessage h.rx h.answers).complete = true from hcomplete),
              List.mem_singleton]
            exact hmsg.symm
        | succ k => exact .inr ⟨k, Nat.lt_of_succ_lt_succ hk, hcomplete, hmsg⟩

/-- Enough polls read every good frame. -/
theorem delivered_goodFrames {h : HostEnd} {tail : List UInt8} (hrx : Partial h.rx tail)
    {ts : List Token} {rest : List UInt8}
    (htok : PrefixCode.Tokenises grammar (tail ++ bytesOf h.answers) ts rest) {n : Nat}
    (hn : h.answers.length ≤ n) :
    (checkCalls n h.rx h.answers).delivered.map ReceivedMessage.packet = goodFrames ts := by
  obtain ⟨read, hread, hfeed⟩ := checkCalls_feed n h.rx h.answers
  have hall : bytesOf h.answers = read := by
    rw [hread, checkCalls_rest_eq_nil n h.rx h.answers hn]
    exact List.append_nil read
  rw [← (feed_of_tokenises hrx htok).2, hall, hfeed]

/-- Where no poll ends the loop of `arduino_connect`, one that leaves the identifier
of a PING has acknowledged it. -/
theorem pinged_iff {h : HostEnd} (hnever : NeverLeftover h) (n : Nat) :
    (h.polls n).Pinged ↔ (h.polls (n + 1)).rx.msg.id = msgIdPing := by
  rw [← poll_polls]
  constructor
  · exact fun hping => hping.2
  · intro hid
    refine ⟨?_, hid⟩
    by_contra hres
    exact hnever n ⟨hres, hid⟩

end HostEnd

/-- When no poll ends the loop of `connect_to_arduino` either. -/
theorem neverPinged_iff {h : HostEnd} {tail : List UInt8} (hrx : Partial h.rx tail)
    (hnever : NeverLeftover h) : (∀ n, ¬(h.polls n).Pinged) ↔ NoPingFrame tail h := by
  constructor
  · intro hnot ts rest htok p hp hid
    rw [← HostEnd.delivered_goodFrames hrx htok le_rfl] at hp
    obtain ⟨m, hm, rfl⟩ := List.mem_map.mp hp
    obtain ⟨k, -, -, rfl⟩ := (h.mem_delivered _ m).mp hm
    exact hnot k ((HostEnd.pinged_iff hnever k).mpr hid)
  · intro hnone n hping
    have hcomplete := hping.received.complete
    have hid := (HostEnd.pinged_iff hnever n).mp hping
    obtain ⟨ts, rest, htok, -, -⟩ := feed_tokenises hrx (bytesOf h.answers)
    refine hnone ts rest htok (h.polls (n + 1)).rx.msg.packet ?_ hid
    rw [← HostEnd.delivered_goodFrames hrx htok (le_max_right (n + 1) h.answers.length)]
    exact List.mem_map_of_mem
      ((h.mem_delivered _ _).mpr ⟨n, le_max_left (n + 1) _, hcomplete, rfl⟩)

/-- The loop of `arduino_connect` ends only at a PING that has been received. -/
def WaitsForPing (h : HostEnd) : Prop :=
  ∀ n before after, Exits arduinoConnectRound h n before after → PingReceived before after

/-- The loop of `arduino_connect` ends only when a PING has been received, in its last
round or in an earlier one, and between two frames, where `link_check` may send. -/
def EndsPinged (h : HostEnd) : Prop :=
  ∀ n before after, Exits arduinoConnectRound h n before after →
    (∃ m ≤ n, PingReceived (h.polls m) (h.polls (m + 1))) ∧
      after.rx.transport = .fresh ∧ ¬RefusesLinkCheck after

/-- The two loops end at the same poll. -/
def EndAlike (h : HostEnd) : Prop :=
  ∀ n before after, Exits arduinoConnectRound h n before after ↔
    Exits connectToArduinoRound h n before after

theorem waitsForPing_iff {h : HostEnd} : WaitsForPing h ↔ NeverLeftover h := by
  unfold NeverLeftover
  rw [← never_exits_iff runOn_arduinoConnectRound]
  constructor
  · intro hwaits n before after hexits
    obtain ⟨-, -, hleft, -⟩ :=
      (exits_iff runOn_arduinoConnectRound h n before after).mp hexits
    exact hleft.1 (hwaits n before after hexits).result
  · exact fun hnever n before after hexits => absurd hexits (hnever n before after)

theorem endAlike_iff {h : HostEnd} (hnever : NeverLeftover h) :
    EndAlike h ↔ ∀ n, ¬(h.polls n).Pinged := by
  have hnot := (never_exits_iff runOn_arduinoConnectRound h).mpr hnever
  rw [← never_exits_iff runOn_connectToArduinoRound]
  constructor
  · intro halike n before after hexits
    exact hnot n before after ((halike n before after).mpr hexits)
  · exact fun hnot' n before after =>
      ⟨fun hexits => absurd hexits (hnot n before after),
        fun hexits => absurd hexits (hnot' n before after)⟩

theorem endsPinged_iff {h : HostEnd} : EndsPinged h ↔ EndsAfterPing False h := by
  unfold EndsPinged EndsAfterPing
  constructor
  · intro hends n hnot hlast
    obtain ⟨⟨m, hm, hping⟩, hfresh, -⟩ := hends n _ _
      ((exits_iff runOn_arduinoConnectRound h n _ _).mpr ⟨hnot, rfl, hlast, rfl⟩)
    rw [HostEnd.poll_polls] at hfresh
    refine ⟨.inr ⟨m, ?_, hping.result, ?_⟩, hfresh⟩
    · refine lt_of_le_of_ne hm ?_
      rintro rfl
      exact hlast.1 hping.result
    · rw [HostEnd.poll_polls]
      exact hping.id
  · intro hends n before after hexits
    obtain ⟨hnot, rfl, hlast, rfl⟩ := (exits_iff runOn_arduinoConnectRound h n _ _).mp hexits
    obtain ⟨hping, hfresh⟩ := hends n hnot hlast
    obtain ⟨m, hm, hping⟩ := hping.resolve_left id
    rw [HostEnd.poll_polls, refusesLinkCheck_iff, hfresh]
    refine ⟨⟨m, hm.le, ?_⟩, rfl, Bool.false_ne_true⟩
    rw [← HostEnd.poll_polls]
    exact hping.received

/-- **The loop of `arduino_connect` and that of `connect_to_arduino`.**  The first ends
only with a poll that has read and acknowledged a complete PING if and only if it does not
end at all: the device never pauses when the identifier last read is that of a PING, and no
acknowledgement of a PING fails.  It ends like the second as well if moreover there is
no complete PING, at which the second ends.  It ends only after such a poll, and between
two frames, if and only if a complete PING has been acknowledged, and no frame is
unfinished, when the device first pauses like that or an acknowledgement fails.  Where the
first ends, `link_check` refuses to send exactly if the bytes read so far end in the middle
of a frame. -/
theorem connect_iff (h : HostEnd) (tail : List UInt8) (hrx : Partial h.rx tail) :
    (WaitsForPing h ∧ EndAlike h ↔ NeverPausesAtPing tail h ∧ NoPingFrame tail h) ∧
    (WaitsForPing h ↔ NeverPausesAtPing tail h) ∧
    (EndsPinged h ↔ PingBeforeStuck tail h) ∧
    (∀ n before after, Exits connectToArduinoRound h n before after →
      PingReceived before after) ∧
    ∀ n before after, Exits arduinoConnectRound h n before after →
      ∃ read ts rest, bytesOf h.answers = read ++ bytesOf after.answers ∧
        PrefixCode.Tokenises grammar (tail ++ read) ts rest ∧
        (RefusesLinkCheck after ↔ rest ≠ []) := by
  have hwaits : WaitsForPing h ↔ NeverPausesAtPing tail h := by
    rw [waitsForPing_iff, ← noPingLeft_iff hrx]
    exact neverLeftover_iff h.answers h.rx h.out
  have hends : EndsPinged h ↔ PingBeforeStuck tail h := by
    rw [endsPinged_iff, ← stuckAfterPing_iff hrx]
    exact endsAfterPing_iff h.answers False h.rx h.out
  refine ⟨?_, hwaits, hends, ?_, ?_⟩
  · rw [← hwaits]
    refine and_congr_right fun hnever => ?_
    rw [waitsForPing_iff] at hnever
    rw [endAlike_iff hnever, neverPinged_iff hrx hnever]
  · intro n before after hexits
    obtain ⟨-, -, hping, rfl⟩ :=
      (exits_iff runOn_connectToArduinoRound h n before after).mp hexits
    exact hping.received
  · intro n before after hexits
    obtain ⟨-, rfl, -, rfl⟩ := (exits_iff runOn_arduinoConnectRound h n before after).mp hexits
    obtain ⟨hcalls, hrest⟩ := h.polls_checkCalls (n + 1)
    obtain ⟨read, hread, hfeed⟩ := checkCalls_feed (n + 1) h.rx h.answers
    obtain ⟨ts, rest, htok, hreading, -⟩ := feed_tokenises hrx read
    rw [hfeed, ← hcalls] at hreading
    rw [HostEnd.poll_polls, refusesLinkCheck_iff, hrest]
    refine ⟨read, ts, rest, hread, htok, ?_⟩
    rw [Ne, ← hreading.start_iff.2, Bool.not_eq_false]

/-! ### The stream that begins with a PING -/

/-- A PING that is there at the first poll. -/
def pingAtOnce : HostEnd :=
  ⟨.fresh, (Packet.basic msgIdPing).frame.map .byte, ⟨[], []⟩⟩

theorem connect_iff_ping :
    Exits connectToArduinoRound pingAtOnce 0 pingAtOnce pingAtOnce.poll.2 ∧
      PingReceived pingAtOnce pingAtOnce.poll.2 :=
  have hexits : Exits connectToArduinoRound pingAtOnce 0 pingAtOnce pingAtOnce.poll.2 :=
    ⟨rfl, rfl⟩
  ⟨hexits, (connect_iff pingAtOnce [] (.start _)).2.2.2.1 0 _ _ hexits⟩

/-- The same PING, of which two bytes have come at the first poll. -/
def pingInTwo : HostEnd :=
  ⟨.fresh, ((Packet.basic msgIdPing).frame.take 2).map .byte ++
    .nothing :: ((Packet.basic msgIdPing).frame.drop 2).map .byte, ⟨[], []⟩⟩

/-- `arduino_connect` goes on with the PING half read. -/
theorem connect_inside_ping :
    ¬(WaitsForPing pingInTwo ∧ EndAlike pingInTwo) ∧
      Exits arduinoConnectRound pingInTwo 0 pingInTwo pingInTwo.poll.2 ∧
      pingInTwo.poll.1 = .okNoMsg ∧ RefusesLinkCheck pingInTwo.poll.2 ∧
      ¬Exits connectToArduinoRound pingInTwo 0 pingInTwo pingInTwo.poll.2 := by
  have hexits : Exits arduinoConnectRound pingInTwo 0 pingInTwo pingInTwo.poll.2 := ⟨rfl, rfl⟩
  have hres : pingInTwo.poll.1 = .okNoMsg := by decide
  have hbusy : pingInTwo.poll.2.rx.transport.msgInProgress = true := by decide
  have hnot : pingInTwo.poll.1 ≠ .ok := by
    rw [hres]
    decide
  refine ⟨?_, hexits, hres, (refusesLinkCheck_iff _).mpr hbusy, ?_⟩
  · rintro ⟨hwaits, -⟩
    exact hnot (hwaits 0 _ _ hexits).result
  · intro hexits'
    have hping := ((exits_iff runOn_connectToArduinoRound _ _ _ _).mp hexits').2.2.1
    exact hnot hping.1

end MpmtTestStand.Ports
