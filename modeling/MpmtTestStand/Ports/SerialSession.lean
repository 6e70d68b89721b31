import MpmtTestStand.Ports.SerialTransport
import MpmtTestStand.Verified.Prog
import MpmtTestStand.Verified.Run

/-!
# The session layer: `SerialSession`

The session layer is sequential code that blocks: it writes a frame piece by
piece and waits for an acknowledgement.  Its functions are programs over the
operations of the transport (`LinkOp`).  A `Node` is one party at a point of
such a program; the `Signal`s that it reacts to are the ways in which the
operation at hand can go on.  Whoever runs a node chooses the signals, so that
delays and timeouts need no clock.

A call that is under way is at one of five points (`Activity`).
`Node.signal_effect` says what each signal does there, and every result about
sessions is derived from it.
-/

namespace MpmtTestStand.Ports

open MpmtTestStand.Verified
open MpmtTestStand.Verified.Run

/-! ## Operations -/

/-- What the code above the transport can do: call the transport, look at
`msg_in_progress` and `received_msg`, or perform an operation of its own. -/
inductive LinkOp (A : Sig) : Type
  /-- one call of `ser_write` -/
  | serWrite (data : List UInt8)
  /-- `SerialTransport::check_for_message` -/
  | checkForMessage
  /-- `SerialTransport::recv_message` -/
  | recvMessage (timeoutMs : UInt32)
  | look
  | act (o : A.Op)

/-- The answer to each operation. -/
abbrev LinkOp.Res {A : Sig} : LinkOp A → Type
  | .serWrite _ => Bool
  | .checkForMessage => Bool
  | .recvMessage _ => Bool
  | .look => Receiver
  | .act o => A.Res o

/-- The signature of programs that run on a link. -/
abbrev linkSig (A : Sig) : Sig := ⟨LinkOp A, LinkOp.Res⟩

/-- No operations beyond those of the link. -/
abbrev noOps : Sig := ⟨Empty, fun e => nomatch e⟩

/-- Programs with operations `A` of their own. -/
abbrev LinkProg (A : Sig) (α : Type) : Type := Prog (linkSig A) α

variable {A : Sig} {α : Type}

/-- Look at the transport and the message last received. -/
def look : LinkProg A Receiver := .op .look .ret

/-- Perform an operation of the program's own. -/
def act (o : A.Op) : LinkProg A (A.Res o) := .op (.act o) .ret

@[simp] theorem look_bind (f : Receiver → LinkProg A α) : look >>= f = .op .look f := rfl

@[simp] theorem act_bind (o : A.Op) (f : A.Res o → LinkProg A α) :
    act o >>= f = .op (.act o) f := rfl

namespace SerialTransport

/-- `ser_write` -/
def serWrite (data : List UInt8) : LinkProg A Bool := .op (.serWrite data) .ret

@[simp] theorem serWrite_bind (data : List UInt8) (f : Bool → LinkProg A α) :
    serWrite data >>= f = .op (.serWrite data) f := rfl

/-- Write the pieces in order; the first failure ends the function. -/
def writePieces : List (List UInt8) → LinkProg A Bool
  | [] => return true
  | piece :: rest => do
      if ← serWrite piece then writePieces rest else return false

/-- `SerialTransport::send_message` -/
def sendMessage (p : Packet) : LinkProg A Bool := writePieces (framePieces p.toMessage)

/-- `SerialTransport::check_for_message` -/
def checkForMessage : LinkProg A Bool := .op .checkForMessage .ret

/-- `SerialTransport::recv_message` -/
def recvMessage (timeoutMs : UInt32) : LinkProg A Bool :=
  .op (.recvMessage timeoutMs) .ret

@[simp] theorem checkForMessage_bind (f : Bool → LinkProg A α) :
    checkForMessage >>= f = .op .checkForMessage f := rfl

@[simp] theorem recvMessage_bind (timeoutMs : UInt32) (f : Bool → LinkProg A α) :
    recvMessage timeoutMs >>= f = .op (.recvMessage timeoutMs) f := rfl

/-- Run a program that only writes. -/
def writeOut : LinkProg A α → SerialOut → Option (α × SerialOut)
  | .ret a, dev => some (a, dev)
  | .op (.serWrite data) k, dev => writeOut (k (dev.serWrite data).1) (dev.serWrite data).2
  | .op _ _, _ => none

theorem writePieces_writeOut (pieces : List (List UInt8)) (dev : SerialOut) :
    writeOut (writePieces pieces : LinkProg A Bool) dev =
      some (Ports.writePieces pieces dev) := by
  induction pieces generalizing dev with
  | nil => rfl
  | cons piece rest ih =>
      rcases h : dev.serWrite piece with ⟨_ | _, dev'⟩
      · simp [writePieces, Ports.writePieces, writeOut, h]
      · simp [writePieces, Ports.writePieces, writeOut, h, ih]

/-- The program is the function of the transport layer. -/
theorem sendMessage_writeOut (p : Packet) (dev : SerialOut) :
    writeOut (sendMessage p : LinkProg A Bool) dev =
      some (Ports.sendMessage p.toMessage dev) :=
  writePieces_writeOut _ dev

end SerialTransport

/-! ## `SerialSession` -/

/-- `ACK_TIMEOUT_MS` -/
def ackTimeoutMs : UInt32 := 100

namespace SerialSession

/-- `SerialSession::ack` -/
def ack : LinkProg A Bool := SerialTransport.sendMessage (.basic msgIdAck)

/-- `SerialSession::check_received_msg` -/
def checkReceivedMsg : LinkProg A SerialResult := do
  let r ← look
  if r.msg.id = msgIdAck ∨ r.msg.id = msgIdNack then return .errWrongMsg
  if ← ack then return .ok else return .errAckFailed

/-- `SerialSession::check_for_message` -/
def checkForMessage : LinkProg A SerialResult := do
  if ← SerialTransport.checkForMessage then checkReceivedMsg else return .okNoMsg

/-- `SerialSession::recv_message` -/
def recvMessage (timeoutMs : UInt32) : LinkProg A SerialResult := do
  let r ← look
  if r.transport.msgInProgress then return .errMsgInProgress
  if ← SerialTransport.recvMessage timeoutMs then checkReceivedMsg
  else return .errTimeout

/-- `SerialSession::send_message` -/
def sendMessage (p : Packet) : LinkProg A SerialResult := do
  let r ← look
  if r.transport.msgInProgress then return .errMsgInProgress
  if ← SerialTransport.sendMessage p then
    if ← SerialTransport.recvMessage ackTimeoutMs then
      let r ← look
      if r.msg.id ≠ msgIdAck then return .errNoAck else return .ok
    else return .errNoMsg
  else return .errSendFailed

end SerialSession

/-! ## Nodes -/

/-- A party: its receiver, and the rest of its program. -/
structure Node (A : Sig) (α : Type) where
  rx : Receiver
  prog : LinkProg A α

/-- Looking takes no time. -/
def answerLook (rx : Receiver) : (o : LinkOp A) → Option o.Res
  | .look => some rx
  | _ => none

/-- How the operation that a node is at goes on. -/
inductive Signal
  /-- `ser_write` succeeds -/
  | wrote
  /-- `ser_write` fails after `n` bytes -/
  | writeFailed (n : Nat)
  /-- a byte is read -/
  | byte (b : UInt8)
  /-- `check_for_message` finds nothing more to read -/
  | quiet
  /-- `recv_message` reaches its timeout -/
  | timeout
  deriving DecidableEq, Repr

namespace Node

/-- Go on with `p`, up to the next operation that takes time. -/
def resume (rx : Receiver) (p : LinkProg A α) : Node A α :=
  ⟨rx, p.settle (answerLook rx)⟩

/-- A byte arrives in `check_for_message` or `recv_message`. -/
def hear (n : Node A α) (k : Bool → LinkProg A α) (b : UInt8) : Node A α :=
  if (n.rx.readByte b).2 then resume (n.rx.readByte b).1 (k true)
  else { n with rx := (n.rx.readByte b).1 }

/-- The reaction to a signal, with the bytes that it puts on the wire; `none`
when the signal does not concern the operation at hand. -/
def signal (n : Node A α) (s : Signal) : Option (Node A α × List UInt8) :=
  match n.prog, s with
  | .op (.serWrite data) k, .wrote => some (resume n.rx (k true), data)
  | .op (.serWrite data) k, .writeFailed j => some (resume n.rx (k false), data.take j)
  | .op .checkForMessage k, .byte b => some (n.hear k b, [])
  | .op (.recvMessage _) k, .byte b => some (n.hear k b, [])
  | .op .checkForMessage k, .quiet => some (resume n.rx (k false), [])
  | .op (.recvMessage _) k, .timeout =>
      some (resume { n.rx with transport := n.rx.transport.reset } (k false), [])
  | _, _ => none

end Node

/-! ## Signals and the loops of the transport

Every execution of the loops of `SerialTransport` is a sequence of signals. -/

namespace Node

/-- A node along signals, without what it writes. -/
def afterSignal (n : Node A α) (s : Signal) : Option (Node A α) :=
  (n.signal s).map Prod.fst

/-- The loop of `check_for_message` inside an operation that reads. -/
private theorem run_answers (k : Bool → LinkProg A α) (p : LinkProg A α)
    (hear_eq : ∀ rx b, (Node.mk rx p).signal (.byte b) = some (hear ⟨rx, p⟩ k b, []))
    (rx : Receiver) (answers : List DeviceAnswer) :
    ∃ signals, run afterSignal ⟨rx, p⟩ signals =
      some (if (Ports.checkForMessage rx answers).complete then
        resume (Ports.checkForMessage rx answers).receiver (k true)
      else ⟨(Ports.checkForMessage rx answers).receiver, p⟩) := by
  induction answers generalizing rx with
  | nil => exact ⟨[], rfl⟩
  | cons answer rest ih =>
      cases answer with
      | nothing => exact ⟨[], rfl⟩
      | readFailed => exact ⟨[], rfl⟩
      | byte b =>
          cases hdone : (rx.readByte b).2 with
          | false =>
              obtain ⟨signals, hsignals⟩ := ih (rx.readByte b).1
              refine ⟨.byte b :: signals, ?_⟩
              simpa [run_cons, afterSignal, hear_eq, hear, hdone, Ports.checkForMessage]
                using hsignals
          | true =>
              refine ⟨[.byte b], ?_⟩
              simp [run_cons, afterSignal, hear_eq, hear, hdone, Ports.checkForMessage]

/-- A call of `SerialTransport::check_for_message`. -/
theorem run_checkForMessage (rx : Receiver) (k : Bool → LinkProg A α)
    (answers : List DeviceAnswer) :
    ∃ signals, run afterSignal ⟨rx, .op .checkForMessage k⟩ signals =
      some (resume (Ports.checkForMessage rx answers).receiver
        (k (Ports.checkForMessage rx answers).complete)) := by
  obtain ⟨signals, hsignals⟩ :=
    run_answers k (.op .checkForMessage k) (fun _ _ => rfl) rx answers
  cases hcomplete : (Ports.checkForMessage rx answers).complete with
  | false =>
      refine ⟨signals ++ [.quiet], ?_⟩
      simp [run_append, hsignals, hcomplete, run_cons, afterSignal, signal]
  | true => exact ⟨signals, by simpa [hcomplete] using hsignals⟩

/-- A call of `SerialTransport::recv_message` that returns. -/
theorem run_recvMessage (timeoutMs : UInt32) (millis : UInt64) (rx : Receiver)
    (k : Bool → LinkProg A α) (rounds : List (List DeviceAnswer × UInt64))
    {res : Bool} {rx' : Receiver}
    (h : Ports.recvMessage timeoutMs millis rx rounds = some (res, rx')) :
    ∃ signals, run afterSignal ⟨rx, .op (.recvMessage timeoutMs) k⟩ signals =
      some (resume rx' (k res)) := by
  unfold Ports.recvMessage at h
  induction rounds generalizing rx with
  | nil => simp [recvRounds] at h
  | cons round rounds ih =>
      obtain ⟨signals, hsignals⟩ :=
        run_answers k (.op (.recvMessage timeoutMs) k) (fun _ _ => rfl) rx round.1
      cases hcomplete : (Ports.checkForMessage rx round.1).complete with
      | true =>
          simp only [recvRounds, hcomplete, if_true, Option.some.injEq,
            Prod.mk.injEq] at h
          obtain ⟨rfl, rfl⟩ := h
          exact ⟨signals, by simpa [hcomplete] using hsignals⟩
      | false =>
          simp only [recvRounds, hcomplete, Bool.false_eq_true, if_false] at h
          split at h
          · simp only [Option.some.injEq, Prod.mk.injEq] at h
            obtain ⟨rfl, rfl⟩ := h
            refine ⟨signals ++ [.timeout], ?_⟩
            simp [run_append, hsignals, hcomplete, run_cons, afterSignal, signal]
          · obtain ⟨later, hlater⟩ := ih _ h
            refine ⟨signals ++ later, ?_⟩
            simp [run_append, hsignals, hcomplete, hlater]

end Node

/-! ## Calls under way -/

/-- The functions of the session layer, with their arguments. -/
inductive SessionCall
  | checkForMessage
  | recvMessage (timeoutMs : UInt32)
  | sendMessage (p : Packet)
  deriving DecidableEq, Repr

/-- The program of a call. -/
def SessionCall.prog : SessionCall → LinkProg A SerialResult
  | .checkForMessage => SerialSession.checkForMessage
  | .recvMessage timeoutMs => SerialSession.recvMessage timeoutMs
  | .sendMessage p => SerialSession.sendMessage p

/-- Where a call that is under way can be.  While it writes, `piece` is the
argument of the `ser_write` at hand and `rest` are those of the coming ones. -/
inductive Activity
  /-- in `SerialTransport::check_for_message` -/
  | polling
  /-- in `SerialTransport::recv_message`, called by `recv_message` -/
  | receiving (timeoutMs : UInt32)
  /-- in `SerialTransport::recv_message`, called by `send_message` -/
  | waiting
  /-- writing the message of `send_message` -/
  | writing (piece : List UInt8) (rest : List (List UInt8))
  /-- writing an acknowledgement -/
  | acking (piece : List UInt8) (rest : List (List UInt8))
  deriving DecidableEq, Repr

namespace Activity

/-- What follows the writing of an acknowledgement. -/
def afterAck (written : Bool) : LinkProg A SerialResult :=
  if written then return .ok else return .errAckFailed

/-- What follows the wait for a message. -/
def afterRecv (complete : Bool) : LinkProg A SerialResult :=
  if complete then SerialSession.checkReceivedMsg else return .errTimeout

/-- What follows the wait for an acknowledgement. -/
def afterWait (complete : Bool) : LinkProg A SerialResult :=
  if complete then do
    let r ← look
    if r.msg.id ≠ msgIdAck then return .errNoAck else return .ok
  else return .errNoMsg

/-- What follows the writing of a message. -/
def afterSend (written : Bool) : LinkProg A SerialResult :=
  if written then SerialTransport.recvMessage ackTimeoutMs >>= afterWait
  else return .errSendFailed

/-- The rest of the call. -/
def prog : Activity → LinkProg A SerialResult
  | .polling => SerialSession.checkForMessage
  | .receiving timeoutMs => SerialTransport.recvMessage timeoutMs >>= afterRecv
  | .waiting => SerialTransport.recvMessage ackTimeoutMs >>= afterWait
  | .writing piece rest => SerialTransport.writePieces (piece :: rest) >>= afterSend
  | .acking piece rest => SerialTransport.writePieces (piece :: rest) >>= afterAck

/-- The call is reading. -/
def listening : Activity → Bool
  | .polling => true
  | .receiving _ => true
  | .waiting => true
  | _ => false

/-- The call is at a point of `send_message`. -/
def sending : Activity → Bool
  | .waiting => true
  | .writing _ _ => true
  | _ => false

/-- What the call has yet to write of its frame. -/
def unwritten : Activity → List UInt8
  | .writing piece rest => piece ++ rest.flatten
  | .acking piece rest => piece ++ rest.flatten
  | _ => []

/-- A call of `send_message` begins to write. -/
def send (p : Packet) : Activity := .writing [msgDelimStart] (framePieces p.toMessage).tail

/-- A call begins to acknowledge. -/
def ack : Activity :=
  .acking [msgDelimStart] (framePieces (Packet.basic msgIdAck).toMessage).tail

@[simp] theorem unwritten_send (p : Packet) : (send p).unwritten = p.frame := rfl

@[simp] theorem unwritten_ack : ack.unwritten = (Packet.basic msgIdAck).frame :=
  unwritten_send (.basic msgIdAck)

end Activity

/-- Where a call gets to: a point at which it has to wait, or its end. -/
inductive Next
  | goes (a : Activity)
  | returns (res : SerialResult)
  deriving DecidableEq, Repr

/-- The bytes of the frame at hand that are yet to be written. -/
def unwrittenAt : Option Activity → List UInt8
  | some a => a.unwritten
  | none => []

namespace Next

/-- The point that a call gets to, if it goes on. -/
def activity : Next → Option Activity
  | .goes a => some a
  | .returns _ => none

/-- The rest of a program whose current call got there. -/
def prog (rx : Receiver) (k : SerialResult → LinkProg A α) : Next → LinkProg A α
  | .goes a => a.prog >>= k
  | .returns res => (k res).settle (answerLook rx)

/-- What is yet to be written of the frame at hand. -/
def unwritten : Next → List UInt8
  | .goes a => a.unwritten
  | .returns _ => []

@[simp] theorem unwritten_goes (a : Activity) : (goes a).unwritten = a.unwritten := rfl

@[simp] theorem unwritten_returns (res : SerialResult) : (returns res).unwritten = [] := rfl

@[simp] theorem unwrittenAt_activity (next : Next) :
    unwrittenAt next.activity = next.unwritten := by
  cases next <;> rfl

end Next

/-- Where a call gets to at once. -/
def SessionCall.start (rx : Receiver) : SessionCall → Next
  | .checkForMessage => .goes .polling
  | .recvMessage timeoutMs =>
      if rx.transport.msgInProgress then .returns .errMsgInProgress
      else .goes (.receiving timeoutMs)
  | .sendMessage p =>
      if rx.transport.msgInProgress then .returns .errMsgInProgress
      else .goes (.send p)

/-- What a signal does to a call: the receiver after it, where the call gets to
and what it writes. -/
inductive Effect (rx : Receiver) :
    Activity → Signal → Receiver → Next → List UInt8 → Prop
  | wrote (piece next : List UInt8) (rest : List (List UInt8)) :
      Effect rx (.writing piece (next :: rest)) .wrote rx (.goes (.writing next rest)) piece
  | wroteLast (piece : List UInt8) :
      Effect rx (.writing piece []) .wrote rx (.goes .waiting) piece
  | acked (piece next : List UInt8) (rest : List (List UInt8)) :
      Effect rx (.acking piece (next :: rest)) .wrote rx (.goes (.acking next rest)) piece
  | ackedLast (piece : List UInt8) :
      Effect rx (.acking piece []) .wrote rx (.returns .ok) piece
  | sendFailed (piece : List UInt8) (rest : List (List UInt8)) (j : Nat) :
      Effect rx (.writing piece rest) (.writeFailed j) rx (.returns .errSendFailed)
        (piece.take j)
  | ackFailed (piece : List UInt8) (rest : List (List UInt8)) (j : Nat) :
      Effect rx (.acking piece rest) (.writeFailed j) rx (.returns .errAckFailed)
        (piece.take j)
  | more (a : Activity) (b : UInt8) (ha : a.listening = true)
      (hmore : (rx.readByte b).2 = false) :
      Effect rx a (.byte b) (rx.readByte b).1 (.goes a) []
  | received (a : Activity) (b : UInt8) (ha : a = .polling ∨ ∃ t, a = .receiving t)
      (hdone : (rx.readByte b).2 = true)
      (hid : ¬((rx.readByte b).1.msg.id = msgIdAck ∨ (rx.readByte b).1.msg.id = msgIdNack)) :
      Effect rx a (.byte b) (rx.readByte b).1 (.goes .ack) []
  | stray (a : Activity) (b : UInt8) (ha : a = .polling ∨ ∃ t, a = .receiving t)
      (hdone : (rx.readByte b).2 = true)
      (hid : (rx.readByte b).1.msg.id = msgIdAck ∨ (rx.readByte b).1.msg.id = msgIdNack) :
      Effect rx a (.byte b) (rx.readByte b).1 (.returns .errWrongMsg) []
  | acknowledged (b : UInt8) (hdone : (rx.readByte b).2 = true)
      (hid : (rx.readByte b).1.msg.id = msgIdAck) :
      Effect rx .waiting (.byte b) (rx.readByte b).1 (.returns .ok) []
  | notAcknowledged (b : UInt8) (hdone : (rx.readByte b).2 = true)
      (hid : (rx.readByte b).1.msg.id ≠ msgIdAck) :
      Effect rx .waiting (.byte b) (rx.readByte b).1 (.returns .errNoAck) []
  | quiet : Effect rx .polling .quiet rx (.returns .okNoMsg) []
  | expired (timeoutMs : UInt32) :
      Effect rx (.receiving timeoutMs) .timeout { rx with transport := .fresh }
        (.returns .errTimeout) []
  | unanswered :
      Effect rx .waiting .timeout { rx with transport := .fresh } (.returns .errNoMsg) []

/-- A call of `send_message` stays one. -/
theorem Effect.sending {rx rx' : Receiver} {a : Activity} {s : Signal} {next : Next}
    {out : List UInt8} (h : Effect rx a s rx' next out) (ha : a.sending = true) :
    ∀ b, next = .goes b → b.sending = true := by
  rintro b rfl
  cases h with
  | wrote | wroteLast => rfl
  | acked => simp [Activity.sending] at ha
  | more => exact ha
  | received a b hpoll => rcases hpoll with rfl | ⟨t, rfl⟩ <;> simp [Activity.sending] at ha

namespace Node

section Effects

variable {n n' : Node A α} {a : Activity} {k : SerialResult → LinkProg A α}

/-- A call under way has to wait. -/
theorem settle_prog (rx : Receiver) (a : Activity) (k : SerialResult → LinkProg A α) :
    (a.prog >>= k).settle (answerLook rx) = a.prog >>= k := by
  cases a <;> rfl

theorem resume_goes (rx : Receiver) (a : Activity) (k : SerialResult → LinkProg A α) :
    resume rx (a.prog >>= k) = ⟨rx, (Next.goes a).prog rx k⟩ :=
  congrArg (Node.mk rx) (settle_prog rx a k)

theorem resume_returns (rx : Receiver) (res : SerialResult)
    (k : SerialResult → LinkProg A α) :
    resume rx (.ret res >>= k) = ⟨rx, (Next.returns res).prog rx k⟩ := rfl

theorem resume_look (rx : Receiver) (f : Receiver → LinkProg A SerialResult)
    (k : SerialResult → LinkProg A α) :
    resume rx (look >>= f >>= k) = resume rx (f rx >>= k) := rfl

/-- A call begins by looking whether a message is in progress. -/
theorem resume_call (rx : Receiver) (c : SessionCall) (k : SerialResult → LinkProg A α) :
    resume rx (c.prog >>= k) = ⟨rx, (c.start rx).prog rx k⟩ := by
  cases c with
  | checkForMessage => rfl
  | recvMessage t =>
      show resume rx (look >>= (fun r => if r.transport.msgInProgress then
        .ret .errMsgInProgress else (Activity.receiving t).prog) >>= k) = _
      rw [resume_look]
      cases h : rx.transport.msgInProgress with
      | true => simp only [SessionCall.start, h, if_true, resume_returns]
      | false =>
          simp only [SessionCall.start, h, Bool.false_eq_true, if_false, resume_goes]
  | sendMessage p =>
      show resume rx (look >>= (fun r => if r.transport.msgInProgress then
        .ret .errMsgInProgress else (Activity.send p).prog) >>= k) = _
      rw [resume_look]
      cases h : rx.transport.msgInProgress with
      | true => simp only [SessionCall.start, h, if_true, resume_returns]
      | false =>
          simp only [SessionCall.start, h, Bool.false_eq_true, if_false, resume_goes]

/-- Where `check_received_msg` gets to with the message in `rx`. -/
def checkNext (rx : Receiver) : Next :=
  if rx.msg.id = msgIdAck ∨ rx.msg.id = msgIdNack then .returns .errWrongMsg
  else .goes .ack

theorem resume_checkReceivedMsg (rx : Receiver) (k : SerialResult → LinkProg A α) :
    resume rx (SerialSession.checkReceivedMsg >>= k) = ⟨rx, (checkNext rx).prog rx k⟩ := by
  show resume rx (look >>= (fun r => if r.msg.id = msgIdAck ∨ r.msg.id = msgIdNack then
    .ret .errWrongMsg else Activity.ack.prog) >>= k) = _
  rw [resume_look]
  unfold checkNext
  split
  · exact resume_returns rx _ k
  · exact resume_goes rx _ k

/-- A read message in `check_for_message` or `recv_message`. -/
private theorem effect_checkNext (rx : Receiver) (a : Activity) (b : UInt8)
    (ha : a = .polling ∨ ∃ t, a = .receiving t) (hdone : (rx.readByte b).2 = true) :
    Effect rx a (.byte b) (rx.readByte b).1 (checkNext (rx.readByte b).1) [] := by
  unfold checkNext
  split
  · exact .stray a b ha hdone ‹_›
  · exact .received a b ha hdone ‹_›

/-- Where `send_message` gets to with the message in `rx`. -/
def waitNext (rx : Receiver) : Next :=
  if rx.msg.id ≠ msgIdAck then .returns .errNoAck else .returns .ok

theorem resume_afterWait (rx : Receiver) (k : SerialResult → LinkProg A α) :
    resume rx (Activity.afterWait true >>= k) = ⟨rx, (waitNext rx).prog rx k⟩ := by
  show resume rx (look >>= (fun r => if r.msg.id ≠ msgIdAck then
    .ret .errNoAck else .ret .ok) >>= k) = _
  rw [resume_look]
  unfold waitNext
  split
  · exact resume_returns rx _ k
  · exact resume_returns rx _ k

/-- A read message while `send_message` waits. -/
private theorem effect_waitNext (rx : Receiver) (b : UInt8) (hdone : (rx.readByte b).2 = true) :
    Effect rx .waiting (.byte b) (rx.readByte b).1 (waitNext (rx.readByte b).1) [] := by
  unfold waitNext
  split
  · exact .notAcknowledged b hdone ‹_›
  · exact .acknowledged b hdone (not_not.mp ‹_›)

/-- A byte, where the operation at hand reads: the operation goes on, or it is over and the
call goes on with `rest`. -/
private theorem hear_effect (rest : Bool → LinkProg A SerialResult) (b : UInt8) {next : Next}
    (hprog : n.prog = a.prog >>= k) (ha : a.listening = true)
    (hdone : (n.rx.readByte b).2 = true → Effect n.rx a (.byte b) (n.rx.readByte b).1 next [])
    (hrest : resume (n.rx.readByte b).1 (rest true >>= k) =
      ⟨(n.rx.readByte b).1, next.prog (n.rx.readByte b).1 k⟩) :
    ∃ rx next, Effect n.rx a (.byte b) rx next [] ∧
      n.hear (fun complete => rest complete >>= k) b = ⟨rx, next.prog rx k⟩ := by
  by_cases h : (n.rx.readByte b).2 = true
  · refine ⟨_, next, hdone h, ?_⟩
    rw [hear, if_pos h]
    exact hrest
  · refine ⟨_, .goes a, .more a b ha (Bool.eq_false_iff.mpr h), ?_⟩
    rw [hear, if_neg h]
    exact congrArg (Node.mk _) hprog

/-- **What a signal does to a call.** -/
theorem signal_effect {s : Signal} {out : List UInt8} (hprog : n.prog = a.prog >>= k)
    (hs : n.signal s = some (n', out)) :
    ∃ rx next, Effect n.rx a s rx next out ∧ n' = ⟨rx, next.prog rx k⟩ := by
  cases a with
  | polling =>
      have hop : n.prog = .op .checkForMessage fun complete =>
          (if complete then SerialSession.checkReceivedMsg else .ret .okNoMsg) >>= k := hprog
      cases s with
      | byte b =>
          simp only [signal, hop, Option.some.injEq, Prod.mk.injEq] at hs
          obtain ⟨rfl, rfl⟩ := hs
          exact hear_effect (fun complete =>
              if complete then SerialSession.checkReceivedMsg else .ret .okNoMsg) b hprog rfl
            (effect_checkNext n.rx .polling b (.inl rfl)) (resume_checkReceivedMsg _ k)
      | quiet =>
          simp only [signal, hop, Option.some.injEq, Prod.mk.injEq] at hs
          obtain ⟨rfl, rfl⟩ := hs
          exact ⟨_, .returns .okNoMsg, .quiet, rfl⟩
      | _ => simp [signal, hop] at hs
  | receiving t =>
      have hop : n.prog = .op (.recvMessage t) fun complete =>
          Activity.afterRecv complete >>= k := hprog
      cases s with
      | byte b =>
          simp only [signal, hop, Option.some.injEq, Prod.mk.injEq] at hs
          obtain ⟨rfl, rfl⟩ := hs
          exact hear_effect Activity.afterRecv b hprog rfl
            (effect_checkNext n.rx _ b (.inr ⟨t, rfl⟩)) (resume_checkReceivedMsg _ k)
      | timeout =>
          simp only [signal, hop, Option.some.injEq, Prod.mk.injEq] at hs
          obtain ⟨rfl, rfl⟩ := hs
          exact ⟨_, .returns .errTimeout, .expired t, rfl⟩
      | _ => simp [signal, hop] at hs
  | waiting =>
      have hop : n.prog = .op (.recvMessage ackTimeoutMs) fun complete =>
          Activity.afterWait complete >>= k := hprog
      cases s with
      | byte b =>
          simp only [signal, hop, Option.some.injEq, Prod.mk.injEq] at hs
          obtain ⟨rfl, rfl⟩ := hs
          exact hear_effect Activity.afterWait b hprog rfl (effect_waitNext n.rx b)
            (resume_afterWait _ k)
      | timeout =>
          simp only [signal, hop, Option.some.injEq, Prod.mk.injEq] at hs
          obtain ⟨rfl, rfl⟩ := hs
          exact ⟨_, .returns .errNoMsg, .unanswered, rfl⟩
      | _ => simp [signal, hop] at hs
  | writing piece rest =>
      have hop : n.prog = .op (.serWrite piece) fun ok =>
          (if ok then SerialTransport.writePieces rest else .ret false) >>=
            Activity.afterSend >>= k := hprog
      cases s with
      | wrote =>
          simp only [signal, hop, Option.some.injEq, Prod.mk.injEq] at hs
          obtain ⟨rfl, rfl⟩ := hs
          cases rest with
          | nil => exact ⟨_, .goes .waiting, .wroteLast piece, rfl⟩
          | cons next rest =>
              exact ⟨_, .goes (.writing next rest), .wrote piece next rest, rfl⟩
      | writeFailed j =>
          simp only [signal, hop, Option.some.injEq, Prod.mk.injEq] at hs
          obtain ⟨rfl, rfl⟩ := hs
          exact ⟨_, .returns .errSendFailed, .sendFailed piece rest j, rfl⟩
      | _ => simp [signal, hop] at hs
  | acking piece rest =>
      have hop : n.prog = .op (.serWrite piece) fun ok =>
          (if ok then SerialTransport.writePieces rest else .ret false) >>=
            Activity.afterAck >>= k := hprog
      cases s with
      | wrote =>
          simp only [signal, hop, Option.some.injEq, Prod.mk.injEq] at hs
          obtain ⟨rfl, rfl⟩ := hs
          cases rest with
          | nil => exact ⟨_, .returns .ok, .ackedLast piece, rfl⟩
          | cons next rest =>
              exact ⟨_, .goes (.acking next rest), .acked piece next rest, rfl⟩
      | writeFailed j =>
          simp only [signal, hop, Option.some.injEq, Prod.mk.injEq] at hs
          obtain ⟨rfl, rfl⟩ := hs
          exact ⟨_, .returns .errAckFailed, .ackFailed piece rest j, rfl⟩
      | _ => simp [signal, hop] at hs

end Effects

end Node

end MpmtTestStand.Ports
