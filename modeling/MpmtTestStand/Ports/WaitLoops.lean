import MpmtTestStand.Ports.FrameGrammar
import MpmtTestStand.Ports.TestStandComm

/-!
# The loops that wait for the controller

`arduino_connect` and `connect_to_arduino` poll with `check_for_message` until their
condition fails.  A program of the host runs until it waits for a message (`runOn`), a poll
is one call of `check_for_message` (`HostEnd.poll`), and a loop ends with the first poll
that ends it (`exits_iff`).
-/

namespace MpmtTestStand.Ports

open MpmtTestStand.Verified

variable {α : Type}

/-! ## Running a program of the host -/

/-- The host's end of the line: its receiver, what the device will answer, and what
has been written. -/
structure HostEnd where
  rx : Receiver
  answers : List DeviceAnswer
  out : SerialOut
  deriving DecidableEq, Repr

/-- Run a program of the host until it waits for a message. -/
def runOn : LinkProg noOps α → HostEnd → Option (α × HostEnd)
  | .ret a, h => some (a, h)
  | .op .look k, h => runOn (k h.rx) h
  | .op (.serWrite data) k, h =>
      runOn (k (h.out.serWrite data).1) { h with out := (h.out.serWrite data).2 }
  | .op .checkForMessage k, h =>
      let call := checkForMessage h.rx h.answers
      runOn (k call.complete) { h with rx := call.receiver, answers := call.rest }
  | _, _ => none

/-- The acknowledgement of a received message. -/
def ackMessage : Message := (Packet.basic msgIdAck).toMessage

namespace HostEnd

/-- What `SerialSession::check_for_message` returns, and what it leaves. -/
def poll (h : HostEnd) : SerialResult × HostEnd :=
  let call := checkForMessage h.rx h.answers
  let read : HostEnd := { h with rx := call.receiver, answers := call.rest }
  if call.complete then
    if call.receiver.msg.id = msgIdAck ∨ call.receiver.msg.id = msgIdNack then
      (.errWrongMsg, read)
    else
      let sent := sendMessage ackMessage h.out
      (if sent.1 then .ok else .errAckFailed, { read with out := sent.2 })
  else (.okNoMsg, read)

/-- The state after `n` polls. -/
def polls (n : Nat) (h : HostEnd) : HostEnd := (fun h => h.poll.2)^[n] h

end HostEnd

theorem runOn_writePieces (pieces : List (List UInt8)) (f : Bool → LinkProg noOps α)
    (h : HostEnd) :
    runOn (SerialTransport.writePieces pieces >>= f) h =
      runOn (f (writePieces pieces h.out).1) { h with out := (writePieces pieces h.out).2 } := by
  induction pieces generalizing h with
  | nil => rfl
  | cons piece rest ih =>
      have hwrite : runOn (SerialTransport.writePieces (piece :: rest) >>= f) h =
          runOn ((if (h.out.serWrite piece).1 then SerialTransport.writePieces rest
            else .ret false) >>= f) { h with out := (h.out.serWrite piece).2 } := rfl
      rw [hwrite, writePieces]
      rcases h.out.serWrite piece with ⟨_ | _, out⟩
      · rfl
      · exact ih _

/-- A poll is what the program does. -/
theorem runOn_checkForMessage (f : SerialResult → LinkProg noOps α) (h : HostEnd) :
    runOn (SerialSession.checkForMessage >>= f) h = runOn (f h.poll.1) h.poll.2 := by
  generalize hcall : checkForMessage h.rx h.answers = call
  let read : HostEnd := { h with rx := call.receiver, answers := call.rest }
  have hread : runOn (SerialSession.checkForMessage >>= f) h =
      runOn ((if call.complete then SerialSession.checkReceivedMsg else .ret .okNoMsg) >>= f)
        read := by
    subst hcall
    rfl
  rw [hread, HostEnd.poll, hcall]
  cases hcomplete : call.complete with
  | false => rfl
  | true =>
      have hlook : runOn (SerialSession.checkReceivedMsg >>= f) read =
          runOn ((if call.receiver.msg.id = msgIdAck ∨ call.receiver.msg.id = msgIdNack then
            .ret .errWrongMsg else SerialSession.ack >>= Activity.afterAck) >>= f) read := rfl
      by_cases hid : call.receiver.msg.id = msgIdAck ∨ call.receiver.msg.id = msgIdNack
      · simp only [if_true, hid]
        exact hlook.trans (by rw [if_pos hid]; rfl)
      · simp only [if_true, hid, if_false]
        rw [hlook, if_neg hid, Prog.bind_bind]
        refine (runOn_writePieces _ _ read).trans ?_
        show runOn (Activity.afterAck (sendMessage ackMessage h.out).1 >>= f) _ = _
        cases (sendMessage ackMessage h.out).1 <;> rfl

/-! ## The loops -/

/-- The value of the enumerator. -/
def SerialResult.toNat : SerialResult → Nat
  | .ok => 0
  | .okNoMsg => 1
  | .errNoMsg => 2
  | .errTimeout => 3
  | .errMsgInProgress => 4
  | .errSendFailed => 5
  | .errNoAck => 6
  | .errAckFailed => 7
  | .errWrongMsg => 8
  | .errDataLength => 9
  | .errDataCorrupt => 10

/-- The condition of the loop in `arduino_connect`, negated: whether the loop ends.
The result is an operand of `&&`. -/
def arduinoConnectRound : LinkProg noOps Bool := do
  let res ← SerialSession.checkForMessage
  if res.toNat ≠ 0 then
    let r ← look
    return r.msg.id = msgIdPing
  else return false

/-- The condition of the loop in `connect_to_arduino`, negated. -/
def connectToArduinoRound : LinkProg noOps Bool := do
  let res ← SerialSession.checkForMessage
  if res ≠ .ok then return false
  else
    let r ← look
    return r.msg.id = msgIdPing

/-- At most `n` rounds of a loop: whether it has ended. -/
def waitLoop (round : LinkProg noOps Bool) : Nat → LinkProg noOps Bool
  | 0 => return false
  | n + 1 => do
      if ← round then return true else waitLoop round n

/-- The loop goes through `n` rounds and ends with the next one, which leads from
`before` to `after`. -/
def Exits (round : LinkProg noOps Bool) (h : HostEnd) (n : Nat) (before after : HostEnd) :
    Prop :=
  runOn (waitLoop round n) h = some (false, before) ∧ runOn round before = some (true, after)

/-- A poll that ends the loop in `arduino_connect`. -/
def HostEnd.Leftover (h : HostEnd) : Prop :=
  h.poll.1 ≠ .ok ∧ h.poll.2.rx.msg.id = msgIdPing

/-- A poll that ends the loop in `connect_to_arduino`. -/
def HostEnd.Pinged (h : HostEnd) : Prop :=
  h.poll.1 = .ok ∧ h.poll.2.rx.msg.id = msgIdPing

instance (h : HostEnd) : Decidable h.Leftover := by
  unfold HostEnd.Leftover
  infer_instance

instance (h : HostEnd) : Decidable h.Pinged := by
  unfold HostEnd.Pinged
  infer_instance

theorem SerialResult.toNat_eq_zero (res : SerialResult) : res.toNat = 0 ↔ res = .ok := by
  cases res <;> simp [toNat]

theorem runOn_arduinoConnectRound (h : HostEnd) :
    runOn arduinoConnectRound h = some (decide h.Leftover, h.poll.2) := by
  rw [arduinoConnectRound, runOn_checkForMessage]
  by_cases hres : h.poll.1 = .ok
  · simp [HostEnd.Leftover, hres, SerialResult.toNat, runOn]
  · have hne : h.poll.1.toNat ≠ 0 := fun hzero => hres ((SerialResult.toNat_eq_zero _).mp hzero)
    simp [HostEnd.Leftover, hres, hne, runOn]

theorem runOn_connectToArduinoRound (h : HostEnd) :
    runOn connectToArduinoRound h = some (decide h.Pinged, h.poll.2) := by
  rw [connectToArduinoRound, runOn_checkForMessage]
  by_cases hres : h.poll.1 = .ok
  · simp [HostEnd.Pinged, hres, runOn]
  · simp [HostEnd.Pinged, hres, runOn]

theorem runOn_bind {β : Type} (p : LinkProg noOps α) (f : α → LinkProg noOps β) (h : HostEnd) :
    runOn (p >>= f) h = (runOn p h).bind fun r => runOn (f r.1) r.2 := by
  induction p generalizing h with
  | ret a => rfl
  | op o k ih =>
      cases o with
      | look => exact ih _ _
      | serWrite data => exact ih _ _
      | checkForMessage => exact ih _ _
      | recvMessage t => rfl
      | act o => exact o.elim

theorem HostEnd.polls_succ (n : Nat) (h : HostEnd) : h.polls (n + 1) = h.poll.2.polls n := rfl

section Loops

variable {round : LinkProg noOps Bool} {ends : HostEnd → Prop} [DecidablePred ends]
  (hround : ∀ h, runOn round h = some (decide (ends h), h.poll.2))

include hround

/-- The loop has gone on for `n` rounds. -/
theorem waitLoop_iff (n : Nat) (h before : HostEnd) :
    runOn (waitLoop round n) h = some (false, before) ↔
      (∀ m < n, ¬ends (h.polls m)) ∧ before = h.polls n := by
  induction n generalizing h with
  | zero =>
      constructor
      · intro heq
        exact ⟨by simp, (Prod.mk.inj (Option.some.inj heq)).2.symm⟩
      · rintro ⟨-, rfl⟩
        rfl
  | succ n ih =>
      rw [waitLoop, runOn_bind, hround, Option.bind_some]
      by_cases hends : ends h
      · simp only [hends, decide_true, if_true]
        constructor
        · intro heq
          cases heq
        · rintro ⟨hnot, -⟩
          exact absurd hends (hnot 0 (by omega))
      · simp only [hends, decide_false, Bool.false_eq_true, if_false]
        rw [ih, HostEnd.polls_succ]
        constructor
        · rintro ⟨hnot, hbefore⟩
          refine ⟨fun m hm => ?_, hbefore⟩
          cases m with
          | zero => exact hends
          | succ m => exact hnot m (by omega)
        · rintro ⟨hnot, hbefore⟩
          exact ⟨fun m hm => hnot (m + 1) (by omega), hbefore⟩

/-- The loop ends with the first poll that ends it. -/
theorem exits_iff (h : HostEnd) (n : Nat) (before after : HostEnd) :
    Exits round h n before after ↔
      (∀ m < n, ¬ends (h.polls m)) ∧ before = h.polls n ∧ ends before ∧
        after = before.poll.2 := by
  unfold Exits
  rw [waitLoop_iff hround, hround]
  constructor
  · rintro ⟨⟨hnot, hbefore⟩, hlast⟩
    obtain ⟨hends, hafter⟩ := Prod.mk.inj (Option.some.inj hlast)
    exact ⟨hnot, hbefore, of_decide_eq_true hends, hafter.symm⟩
  · rintro ⟨hnot, hbefore, hends, rfl⟩
    exact ⟨⟨hnot, hbefore⟩, by rw [decide_eq_true hends]⟩

/-- The loop goes on if no poll ends it. -/
theorem never_exits_iff (h : HostEnd) :
    (∀ n before after, ¬Exits round h n before after) ↔ ∀ n, ¬ends (h.polls n) := by
  constructor
  · intro hnever n
    induction n using Nat.strong_induction_on with
    | _ n ih =>
        intro hends
        exact hnever n _ _ ((exits_iff hround h n _ _).mpr ⟨ih, rfl, hends, rfl⟩)
  · intro hnot n before after hexits
    obtain ⟨-, rfl, hends, -⟩ := (exits_iff hround h n before after).mp hexits
    exact hnot n hends

end Loops

end MpmtTestStand.Ports
