import MpmtTestStand.Ports.SerialTransport

/-!
# The bounds of the transport

One counter of eight bits serves the payload and the checksum, and the length of the
payload comes from the wire.  `Receiver.Bounded` is what keeps every store in bounds; it
holds of every receiver in mid-frame (`Partial.bounded`), and no call of the transport
leaves these (`TransportCall.midFrame`), wherever it is given up.
-/

namespace MpmtTestStand.Ports

/-- The representation invariant of `PendingMessage`, with the bounds of the stores into
the payload and the checksum. -/
structure Receiver.Bounded (r : Receiver) : Prop where
  inProgress : r.transport.msgInProgress = true ↔
    r.transport.pendingMessage.currentSegment ≠ .segStart
  data : r.transport.pendingMessage.currentSegment = .segData →
    r.transport.pendingMessage.bytesRead < r.transport.pendingMessage.msgLength ∧
      r.transport.pendingMessage.msgLength.toNat ≤ 255 ∧
      r.transport.pendingMessage.bytesRead.toNat < msgDataLengthMax
  crc : r.transport.pendingMessage.currentSegment = .segCrc →
    r.transport.pendingMessage.bytesRead < 2

/-- The receiver has read some part of a frame. -/
def Receiver.MidFrame (r : Receiver) : Prop := ∃ tail, Partial r tail

/-- A receiver in mid-frame keeps within its bounds. -/
theorem Partial.bounded {r : Receiver} {tail : List UInt8} (h : Partial r tail) : r.Bounded := by
  cases h with
  | start msg => exact ⟨⟨nofun, fun h => absurd rfl h⟩, nofun, nofun⟩
  | id msg => exact ⟨⟨nofun, fun _ => rfl⟩, nofun, nofun⟩
  | length msg => exact ⟨⟨nofun, fun _ => rfl⟩, nofun, nofun⟩
  | data msg n hn =>
      refine ⟨⟨nofun, fun _ => rfl⟩, fun _ => ?_, nofun⟩
      have hlt := msg.length.toNat_lt
      have hcount : (UInt8.ofNat n).toNat = n :=
        UInt8.toNat_ofNat_of_lt' (by simp only [UInt8.size]; omega)
      show UInt8.ofNat n < msg.length ∧ msg.length.toNat ≤ 255 ∧
        (UInt8.ofNat n).toNat < msgDataLengthMax
      rw [UInt8.lt_iff_toNat_lt, hcount]
      simp only [msgDataLengthMax]
      omega
  | crcLow msg => exact ⟨⟨nofun, fun _ => rfl⟩, nofun, fun _ => (by decide : (0 : UInt8) < 2)⟩
  | crcHigh msg c0 =>
      exact ⟨⟨nofun, fun _ => rfl⟩, nofun, fun _ => (by decide : (1 : UInt8) < 2)⟩
  | stop msg c0 c1 => exact ⟨⟨nofun, fun _ => rfl⟩, nofun, nofun⟩

namespace Receiver.MidFrame

variable {r : Receiver}

/-- Between two frames. -/
theorem fresh (msg : ReceivedMessage) : MidFrame ⟨.fresh, msg⟩ := ⟨[], .start msg⟩

theorem of_fresh (h : r.transport = .fresh) : r.MidFrame := by
  obtain ⟨transport, msg⟩ := r
  obtain rfl : transport = .fresh := h
  exact fresh msg

/-- A byte. -/
theorem readByte (h : r.MidFrame) (b : UInt8) : (r.readByte b).1.MidFrame := by
  obtain ⟨tail, h⟩ := h
  have heffect := readByte_partial h b
  generalize r.readByte b = result at heffect ⊢
  cases heffect with
  | junk => exact ⟨tail, h⟩
  | more h' => exact ⟨_, h'⟩
  | done => exact fresh r.msg

/-- `check_for_message` -/
theorem checkForMessage (h : r.MidFrame) (answers : List DeviceAnswer) :
    (Ports.checkForMessage r answers).receiver.MidFrame := by
  induction answers generalizing r with
  | nil => exact h
  | cons answer rest ih =>
      cases answer with
      | nothing => exact h
      | readFailed => exact h
      | byte b =>
          rw [Ports.checkForMessage]
          split
          · exact h.readByte b
          · exact ih (h.readByte b)

end Receiver.MidFrame

/-- **`recv_message` returns with the transport reset**, with a message or without. -/
theorem recvMessage_fresh {timeoutMs : UInt32} {millis : UInt64} {r r' : Receiver}
    {rounds : List (List DeviceAnswer × UInt64)} {res : Bool}
    (h : recvMessage timeoutMs millis r rounds = some (res, r')) : r'.transport = .fresh := by
  unfold recvMessage at h
  induction rounds generalizing r with
  | nil => cases h
  | cons round rounds ih =>
      obtain ⟨answers, now⟩ := round
      simp only [recvRounds] at h
      split at h
      · rename_i hcomplete
        obtain ⟨-, rfl⟩ := Prod.mk.inj (Option.some.inj h)
        exact checkForMessage_complete hcomplete
      · split at h
        · obtain ⟨-, rfl⟩ := Prod.mk.inj (Option.some.inj h)
          rfl
        · exact ih h

/-! ## Sequences of calls -/

/-- A call of a public function of `SerialTransport`, with the answers of the device and the
clock that it meets. -/
inductive TransportCall
  | checkForMessage (answers : List DeviceAnswer)
  | recvMessage (timeoutMs : UInt32) (millis : UInt64)
      (rounds : List (List DeviceAnswer × UInt64))
  | sendMessage (msg : Message) (dev : SerialOut)

namespace TransportCall

/-- The receiver when the call returns, if it does: `send_message` does not touch it. -/
def returned (r : Receiver) : TransportCall → Option Receiver
  | .checkForMessage answers => some (Ports.checkForMessage r answers).receiver
  | .recvMessage timeoutMs millis rounds =>
      (Ports.recvMessage timeoutMs millis r rounds).map Prod.snd
  | .sendMessage _ _ => some r

/-- The receiver after the calls of `check_for_message` in some rounds of `recv_message`. -/
def afterRounds (r : Receiver) (rounds : List (List DeviceAnswer × UInt64)) : Receiver :=
  rounds.foldl (fun r round => (Ports.checkForMessage r round.1).receiver) r

/-- A receiver while the call is under way: so much of what the device answers has been
read. -/
inductive During (r : Receiver) : TransportCall → Receiver → Prop
  | checkForMessage (read rest : List DeviceAnswer) :
      During r (.checkForMessage (read ++ rest)) (Ports.checkForMessage r read).receiver
  | recvMessage (timeoutMs : UInt32) (millis now : UInt64)
      (before after : List (List DeviceAnswer × UInt64)) (read rest : List DeviceAnswer) :
      During r (.recvMessage timeoutMs millis (before ++ (read ++ rest, now) :: after))
        (Ports.checkForMessage (afterRounds r before) read).receiver
  | sendMessage (msg : Message) (dev : SerialOut) : During r (.sendMessage msg dev) r

/-- The receivers that sequences of calls get to, from the constructor on. -/
inductive Reached : Receiver → Prop
  | constructed (msg : ReceivedMessage) : Reached ⟨.fresh, msg⟩
  | call {r r' : Receiver} (h : Reached r) (c : TransportCall) (hc : c.returned r = some r') :
      Reached r'

theorem midFrame_afterRounds {r : Receiver} (h : r.MidFrame)
    (rounds : List (List DeviceAnswer × UInt64)) : (afterRounds r rounds).MidFrame := by
  induction rounds generalizing r with
  | nil => exact h
  | cons round rounds ih => exact ih (h.checkForMessage round.1)

/-- While a call is under way the receiver is in mid-frame. -/
theorem During.midFrame {r r' : Receiver} {c : TransportCall} (h : During r c r')
    (hr : r.MidFrame) : r'.MidFrame := by
  cases h with
  | checkForMessage read rest => exact hr.checkForMessage read
  | recvMessage _ _ _ before _ read _ =>
      exact (midFrame_afterRounds hr before).checkForMessage read
  | sendMessage => exact hr

/-- A call leaves a receiver in mid-frame. -/
theorem midFrame {r r' : Receiver} {c : TransportCall} (hr : r.MidFrame)
    (h : c.returned r = some r') : r'.MidFrame := by
  cases c with
  | checkForMessage answers =>
      obtain rfl := Option.some.inj h
      exact hr.checkForMessage answers
  | recvMessage timeoutMs millis rounds =>
      obtain ⟨⟨res, _⟩, hrecv, rfl⟩ := Option.map_eq_some_iff.mp h
      exact .of_fresh (recvMessage_fresh hrecv)
  | sendMessage msg dev =>
      obtain rfl := Option.some.inj h
      exact hr

theorem Reached.midFrame {r : Receiver} (h : Reached r) : r.MidFrame := by
  induction h with
  | constructed msg => exact .fresh msg
  | call _ c hc ih => exact TransportCall.midFrame ih hc

/-- **The bounds hold** in every reached receiver, and while a call is under way. -/
theorem Reached.bounded {r : Receiver} (h : Reached r) :
    r.Bounded ∧ ∀ c r', During r c r' → r'.Bounded := by
  constructor
  · obtain ⟨tail, hpartial⟩ := h.midFrame
    exact hpartial.bounded
  · intro c r' hduring
    obtain ⟨tail, hpartial⟩ := hduring.midFrame h.midFrame
    exact hpartial.bounded

end TransportCall

end MpmtTestStand.Ports
