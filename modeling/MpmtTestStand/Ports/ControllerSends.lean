import MpmtTestStand.Ports.StopHandling
import MpmtTestStand.Ports.TransportBounds
import MpmtTestStand.Verified.Rely

/-!
# Sends between two messages

`SerialSession::send_message` refuses to send while a message is being received.  The
program of the controller gets to a send by answering looks at the receiver, each time
that it goes on (`Controller.continuation`).  Watched over its whole text, it never looks
at a receiver in mid-frame: `check_for_message` of a round is the only call that may
leave one, and then the round is over.
-/

namespace MpmtTestStand.Ports

open MpmtTestStand.Verified
open MpmtTestStand.Verified.Run

/-! ## The program that a node goes on with -/

namespace Node

variable {A : Sig} {α : Type}

/-- The receiver and the program with which a node goes on at a signal, before the program
has looked at anything; `none` while the operation at hand is not over. -/
def continuation (n : Node A α) (s : Signal) : Option (Receiver × LinkProg A α) :=
  match n.prog, s with
  | .op (.serWrite _) k, .wrote => some (n.rx, k true)
  | .op (.serWrite _) k, .writeFailed _ => some (n.rx, k false)
  | .op .checkForMessage k, .byte b =>
      if (n.rx.readByte b).2 then some ((n.rx.readByte b).1, k true) else none
  | .op (.recvMessage _) k, .byte b =>
      if (n.rx.readByte b).2 then some ((n.rx.readByte b).1, k true) else none
  | .op .checkForMessage k, .quiet => some (n.rx, k false)
  | .op (.recvMessage _) k, .timeout =>
      some ({ n.rx with transport := n.rx.transport.reset }, k false)
  | _, _ => none

/-- What going on means: the operation at hand is over, and the program goes on with the
answer. -/
inductive Continues (rx : Receiver) :
    LinkProg A α → Signal → Receiver → LinkProg A α → Prop
  | wrote (data : List UInt8) (k : Bool → LinkProg A α) :
      Continues rx (.op (.serWrite data) k) .wrote rx (k true)
  | writeFailed (data : List UInt8) (k : Bool → LinkProg A α) (j : Nat) :
      Continues rx (.op (.serWrite data) k) (.writeFailed j) rx (k false)
  | checked (k : Bool → LinkProg A α) (b : UInt8) (hdone : (rx.readByte b).2 = true) :
      Continues rx (.op .checkForMessage k) (.byte b) (rx.readByte b).1 (k true)
  | received (t : UInt32) (k : Bool → LinkProg A α) (b : UInt8)
      (hdone : (rx.readByte b).2 = true) :
      Continues rx (.op (.recvMessage t) k) (.byte b) (rx.readByte b).1 (k true)
  | quiet (k : Bool → LinkProg A α) : Continues rx (.op .checkForMessage k) .quiet rx (k false)
  | expired (t : UInt32) (k : Bool → LinkProg A α) :
      Continues rx (.op (.recvMessage t) k) .timeout { rx with transport := .fresh } (k false)

variable {n n' : Node A α} {s : Signal} {rx : Receiver} {prog : LinkProg A α} {out : List UInt8}

theorem continuation_cases (h : n.continuation s = some (rx, prog)) :
    Continues n.rx n.prog s rx prog := by
  obtain ⟨rx0, p⟩ := n
  cases p with
  | ret a => cases s <;> cases h
  | op o k =>
      cases o with
      | look => cases s <;> cases h
      | act o => cases s <;> cases h
      | serWrite data =>
          cases s with
          | wrote =>
              obtain ⟨rfl, rfl⟩ := Prod.mk.inj (Option.some.inj h)
              exact .wrote data k
          | writeFailed j =>
              obtain ⟨rfl, rfl⟩ := Prod.mk.inj (Option.some.inj h)
              exact .writeFailed data k j
          | byte | quiet | timeout => cases h
      | checkForMessage =>
          cases s with
          | byte b =>
              obtain ⟨hdone, hnext⟩ := Option.ite_none_right_eq_some.mp h
              obtain ⟨rfl, rfl⟩ := Prod.mk.inj (Option.some.inj hnext)
              exact .checked k b hdone
          | quiet =>
              obtain ⟨rfl, rfl⟩ := Prod.mk.inj (Option.some.inj h)
              exact .quiet k
          | wrote | writeFailed | timeout => cases h
      | recvMessage t =>
          cases s with
          | byte b =>
              obtain ⟨hdone, hnext⟩ := Option.ite_none_right_eq_some.mp h
              obtain ⟨rfl, rfl⟩ := Prod.mk.inj (Option.some.inj hnext)
              exact .received t k b hdone
          | timeout =>
              obtain ⟨rfl, rfl⟩ := Prod.mk.inj (Option.some.inj h)
              exact .expired t k
          | wrote | writeFailed | quiet => cases h

/-- The node is at an operation that reads. -/
def Reading (n : Node A α) : Prop :=
  (∃ k, n.prog = .op .checkForMessage k) ∨ ∃ t k, n.prog = .op (.recvMessage t) k

/-- The node after a byte, in the same operation. -/
def readsOn (n : Node A α) (b : UInt8) : Node A α := { n with rx := (n.rx.readByte b).1 }

/-- The node goes on with the program, or reads on. -/
theorem signal_continuation (h : n.signal s = some (n', out)) :
    (∃ rx prog, n.continuation s = some (rx, prog) ∧ n' = resume rx prog) ∨
      (n.continuation s = none ∧ n.Reading ∧ ∃ b, n' = n.readsOn b) := by
  obtain ⟨rx, p⟩ := n
  cases p with
  | ret a => cases s <;> cases h
  | op o k =>
      cases o with
      | look => cases s <;> cases h
      | act o => cases s <;> cases h
      | serWrite data =>
          cases s with
          | wrote | writeFailed j =>
              obtain ⟨rfl, -⟩ := Prod.mk.inj (Option.some.inj h)
              exact .inl ⟨_, _, rfl, rfl⟩
          | byte | quiet | timeout => cases h
      | checkForMessage =>
          cases s with
          | byte b =>
              obtain ⟨rfl, -⟩ := Prod.mk.inj (Option.some.inj h)
              by_cases hdone : (rx.readByte b).2 = true
              · exact .inl ⟨_, _, if_pos hdone, if_pos hdone⟩
              · rw [hear, if_neg hdone]
                exact .inr ⟨if_neg hdone, .inl ⟨k, rfl⟩, b, rfl⟩
          | quiet =>
              obtain ⟨rfl, -⟩ := Prod.mk.inj (Option.some.inj h)
              exact .inl ⟨_, _, rfl, rfl⟩
          | wrote | writeFailed | timeout => cases h
      | recvMessage t =>
          cases s with
          | byte b =>
              obtain ⟨rfl, -⟩ := Prod.mk.inj (Option.some.inj h)
              by_cases hdone : (rx.readByte b).2 = true
              · exact .inl ⟨_, _, if_pos hdone, if_pos hdone⟩
              · rw [hear, if_neg hdone]
                exact .inr ⟨if_neg hdone, .inr ⟨t, k, rfl⟩, b, rfl⟩
          | timeout =>
              obtain ⟨rfl, -⟩ := Prod.mk.inj (Option.some.inj h)
              exact .inl ⟨_, _, rfl, rfl⟩
          | wrote | writeFailed | quiet => cases h

/-- The receiver that a node goes on with has read some part of a frame. -/
theorem midFrame_continuation (hn : n.rx.MidFrame) (h : n.continuation s = some (rx, prog)) :
    rx.MidFrame := by
  have hgoes := continuation_cases h
  generalize n.prog = p at hgoes
  cases hgoes with
  | wrote | writeFailed | quiet => exact hn
  | checked k b | received t k b => exact hn.readByte b
  | expired => exact .fresh n.rx.msg

end Node

/-- The program comes to `q` by looking at the receiver only. -/
inductive Reaches {A : Sig} {α : Type} (rx : Receiver) : LinkProg A α → LinkProg A α → Prop
  | refl (p : LinkProg A α) : Reaches rx p p
  | look {k : Receiver → LinkProg A α} {q : LinkProg A α} (h : Reaches rx (k rx) q) :
      Reaches rx (.op .look k) q

/-- The program issues the send of `p` with the receiver `rx`. -/
def Issues {A : Sig} {α : Type} (rx : Receiver) (prog : LinkProg A α) (p : Packet) : Prop :=
  ∃ k : SerialResult → LinkProg A α, Reaches rx prog (SerialSession.sendMessage p >>= k)

/-- Called with the receiver `rx`, a call at `next` returns `res` after some signals. -/
inductive Returns : Receiver → Next → SerialResult → Prop
  | returns (rx : Receiver) (res : SerialResult) : Returns rx (.returns res) res
  | goes {rx rx' : Receiver} {a : Activity} {s : Signal} {next : Next} {out : List UInt8}
      {res : SerialResult} (heffect : Effect rx a s rx' next out) (h : Returns rx' next res) :
      Returns rx (.goes a) res

/-- A call that has begun does not find a message in progress. -/
theorem Effect.ne_errMsgInProgress {rx rx' : Receiver} {a : Activity} {s : Signal} {next : Next}
    {out : List UInt8} (h : Effect rx a s rx' next out) :
    next ≠ .returns .errMsgInProgress := by
  cases h <;> nofun

theorem Returns.ne_errMsgInProgress {rx : Receiver} {next : Next} {res : SerialResult}
    (h : Returns rx next res) (hnext : next ≠ .returns .errMsgInProgress) :
    res ≠ .errMsgInProgress := by
  induction h with
  | returns rx res =>
      rintro rfl
      exact hnext rfl
  | goes heffect _ ih => exact ih heffect.ne_errMsgInProgress

namespace Controller

open MPMTTestStand

/-- The controller reacts to an event. -/
def step (c : Controller) : ControllerEvent → Option Controller
  | .signal s => (c.node.signal s).map fun r => { c with node := r.1 }
  | .act around => (c.act around).map Prod.fst
  | .loop => c.loop
  | .interrupt id e => c.interrupt id e

/-- The receiver and the program with which the controller goes on. -/
def continuation (c : Controller) : ControllerEvent → Option (Receiver × StandProg Phase)
  | .signal s => c.node.continuation s
  | .act around =>
      match c.node.prog with
      | .op (.act o) k => (c.stand.perform around o).map fun r => (c.node.rx, k r.1)
      | _ => none
  | .loop =>
      match c.node.prog with
      | .ret phase => some (c.node.rx, phase.prog)
      | .op _ _ => none
  | .interrupt _ _ => none

/-- The controller as constructed, at the start of `setup`. -/
def init (conf : Config) (stand : TestStand) : Controller := ⟨Node.resume .fresh (setup conf), stand⟩

/-- Everything that the controller goes on with in some run. -/
inductive GoesOn (conf : Config) (stand : TestStand) : Receiver → StandProg Phase → Prop
  | setup : GoesOn conf stand .fresh (setup conf)
  | event {events : List ControllerEvent} {c : Controller} {e : ControllerEvent} {rx : Receiver}
      {prog : StandProg Phase} (hrun : run step (init conf stand) events = some c)
      (h : c.continuation e = some (rx, prog)) : GoesOn conf stand rx prog

end Controller

/-! ## Looks at the receiver -/

/-- A receiver, and whether every look so far has found it between two messages. -/
structure Watched where
  rx : Receiver
  idleLooks : Bool

namespace Watched

variable {A : Sig} {α : Type}

/-- What an operation does to the receiver. -/
def Does (s : Watched) : (o : LinkOp A) → o.Res → Watched → Prop
  | .look, r, s' => r = s.rx ∧ s' = ⟨s.rx, s.idleLooks && !s.rx.transport.msgInProgress⟩
  | .act _, _, s' => s' = s
  | .serWrite _, _, s' => s' = s
  | .checkForMessage, complete, s' =>
      s'.idleLooks = s.idleLooks ∧ (complete = true → s'.rx.transport = .fresh)
  | .recvMessage _, _, s' => s'.idleLooks = s.idleLooks ∧ s'.rx.transport = .fresh

/-- Nobody else uses the transport. -/
def world (A : Sig) : World (linkSig A) Watched := ⟨Does, fun _ _ => False⟩

/-- The receiver is between two messages, as at every look before. -/
def Idle (s : Watched) : Prop :=
  s.idleLooks = true ∧ s.rx.transport.msgInProgress = false

/-- Every look of `p` finds the receiver between two messages. -/
abbrev Looks (post : α → Watched → Prop) (p : LinkProg A α) (s : Watched) : Prop :=
  (world A).Safe (fun s => s.idleLooks = true) post p s

theorem rely_eq {s s' : Watched} (h : (world A).Rely s s') : s' = s := by
  induction h with
  | refl => rfl
  | tail _ hstep => exact hstep.elim

variable {post : α → Watched → Prop} {s : Watched}

theorem looks_ret {a : α} (h : s.idleLooks = true) (hpost : post a s) :
    Looks post (.ret a : LinkProg A α) s := by
  intro s' hs
  rw [rely_eq hs]
  exact ⟨h, hpost⟩

theorem looks_op {o : LinkOp A} {k : o.Res → LinkProg A α} (h : s.idleLooks = true)
    (hk : ∀ r s', Does s o r s' → Looks post (k r) s') : Looks post (.op o k) s := by
  intro s' hs
  rw [rely_eq hs]
  exact ⟨h, hk⟩

/-- Any operation but `check_for_message`. -/
def NotPolling (o : LinkOp A) : Prop := o ≠ .checkForMessage

/-- A program that does not call `check_for_message` stays between two messages. -/
theorem looks_idle {p : LinkProg A α} (hp : Prog.Only NotPolling p) (hs : s.Idle) :
    Looks (fun _ => Idle) p s := by
  refine World.Safe.of_only hp (fun _ _ _ h => h.elim) ?_ (fun _ h => h.1) hs
  intro o s r s' ho hs hdoes
  cases o with
  | look =>
      obtain ⟨-, rfl⟩ := hdoes
      exact ⟨by simp [hs.1, hs.2], hs.2⟩
  | act o =>
      obtain rfl := hdoes
      exact hs
  | serWrite data =>
      obtain rfl := hdoes
      exact hs
  | checkForMessage => exact absurd rfl ho
  | recvMessage t =>
      obtain ⟨hlooks, hfresh⟩ := hdoes
      exact ⟨hlooks.trans hs.1, by rw [hfresh]; rfl⟩

/-- A look finds the receiver between two messages. -/
theorem Looks.idle {k : Receiver → LinkProg A α} {rx : Receiver}
    (h : Looks post (.op .look k) ⟨rx, true⟩) : rx.transport.msgInProgress = false := by
  have hdoes : Does ⟨rx, true⟩ (.look : LinkOp A) rx
      ⟨rx, true && !rx.transport.msgInProgress⟩ := ⟨rfl, rfl⟩
  simpa using (h.does hdoes).holds

theorem Looks.look {k : Receiver → LinkProg A α} {rx : Receiver}
    (h : Looks post (.op .look k) ⟨rx, true⟩) : Looks post (k rx) ⟨rx, true⟩ := by
  have hdoes : Does ⟨rx, true⟩ (.look : LinkOp A) rx ⟨rx, true⟩ := by
    refine ⟨rfl, ?_⟩
    simp [h.idle]
  exact h.does hdoes

/-- A send is issued only between two messages. -/
theorem Looks.issues {prog : LinkProg A α} {rx : Receiver} {p : Packet}
    (h : Looks post prog ⟨rx, true⟩) (hissues : Issues rx prog p) :
    rx.transport.msgInProgress = false := by
  obtain ⟨k, hreaches⟩ := hissues
  generalize hcall : SerialSession.sendMessage p >>= k = call at hreaches
  cases hreaches with
  | refl =>
      subst hcall
      exact Looks.idle h
  | look => exact Looks.idle h

/-- What the program goes on with, up to the next operation that takes time. -/
theorem Looks.resume {prog : LinkProg A α} {rx : Receiver} (h : Looks post prog ⟨rx, true⟩) :
    Looks post (Node.resume rx prog).prog ⟨rx, true⟩ := by
  show Looks post (prog.settle (answerLook rx)) _
  induction prog with
  | ret a => exact h
  | op o k ih =>
      cases o with
      | look => exact ih rx (Looks.look h)
      | act | serWrite | checkForMessage | recvMessage => exact h

/-- **What a node goes on with** at a signal looks at its receiver between two messages. -/
theorem Looks.continuation {n : Node A α} {sig : Signal} {rx : Receiver} {prog : LinkProg A α}
    (h : Looks post n.prog ⟨n.rx, true⟩) (hs : n.continuation sig = some (rx, prog)) :
    Looks post prog ⟨rx, true⟩ := by
  have hgoes := Node.continuation_cases hs
  generalize n.prog = p at h hgoes
  cases hgoes with
  | wrote | writeFailed => exact h.does rfl
  | checked k b hdone => exact h.does ⟨rfl, fun _ => readByte_done_fresh hdone⟩
  | received t k b hdone => exact h.does ⟨rfl, readByte_done_fresh hdone⟩
  | quiet => exact h.does ⟨rfl, nofun⟩
  | expired => exact h.does ⟨rfl, rfl⟩

end Watched

namespace MPMTTestStand

open Watched

/-! ## The text of the program -/

section Only

variable {A : Sig}

theorem notPolling_writePieces (pieces : List (List UInt8)) :
    Prog.Only NotPolling (SerialTransport.writePieces pieces : LinkProg A Bool) := by
  induction pieces with
  | nil => exact .ret true
  | cons piece rest ih => exact .op nofun fun _ => .ite ih (.ret false)

theorem notPolling_sendMessage (p : Packet) :
    Prog.Only NotPolling (SerialSession.sendMessage p : LinkProg A SerialResult) := by
  refine .op nofun fun r => .ite (.ret _) ?_
  refine (notPolling_writePieces _).bind fun sent => .ite ?_ (.ret _)
  refine .op nofun fun received => .ite ?_ (.ret _)
  exact .op nofun fun r => .ite (.ret _) (.ret _)

theorem notPolling_checkReceivedMsg :
    Prog.Only NotPolling (SerialSession.checkReceivedMsg : LinkProg A SerialResult) := by
  refine .op nofun fun r => .ite (.ret _) ?_
  exact (notPolling_writePieces _).bind fun written => .ite (.ret _) (.ret _)

end Only

theorem notPolling_stand (o : StandOp) : Prog.Only NotPolling (stand o) :=
  .perform (S := linkSig standSig) nofun

theorem notPolling_of_own {α : Type} {p : StandProg α} (h : Prog.Only Own p) :
    Prog.Only NotPolling p := by
  refine h.mono ?_
  rintro _ ⟨o, rfl, -⟩
  exact nofun

theorem notPolling_reply (p : Packet) :
    Prog.Only NotPolling ((SerialSession.sendMessage p : StandProg SerialResult) >>= fun _ =>
      .ret ()) :=
  (notPolling_sendMessage p).bind fun _ => .ret ()

theorem notPolling_handleMove : Prog.Only NotPolling handleMove := by
  refine .op nofun fun r => ?_
  dsimp only [Prog.bind]
  split
  · refine .op nofun fun cal => .op nofun fun res => ?_
    dsimp only [Prog.bind]
    split
    · exact .op nofun fun _ => notPolling_reply _
    · exact notPolling_reply _
  · exact notPolling_reply _

theorem notPolling_handleCalibrate : Prog.Only NotPolling handleCalibrate := by
  refine .op nofun fun r => (notPolling_stand .getCal).bind fun cal => ?_
  split
  · exact notPolling_stand _
  · exact .ret ()

/-- No handler polls. -/
theorem notPolling_handle (id : UInt8) : Prog.Only NotPolling (handle id) := by
  unfold handle
  refine .ite (.op nofun fun _ => notPolling_reply _) ?_
  refine .ite (notPolling_of_own only_homeA) (.ite notPolling_handleMove (.ite ?_ ?_))
  · refine (notPolling_stand _).bind fun _ => (notPolling_stand _).bind fun _ => ?_
    exact notPolling_stand _
  · refine .ite ((notPolling_stand _).bind fun _ => notPolling_reply _) (.ite ?_ (.ite (.ret ()) ?_))
    · refine (notPolling_stand .firstArgument).bind fun first => ?_
      cases first with
      | x | y =>
          refine (notPolling_stand _).bind fun _ => (notPolling_stand _).bind fun _ => ?_
          exact notPolling_reply _
    · refine .ite ((notPolling_stand _).bind fun _ => notPolling_reply _) ?_
      exact .ite notPolling_handleCalibrate (.ret ())

theorem notPolling_connect : Prog.Only NotPolling connect := by
  refine (notPolling_sendMessage _).bind fun res => .ite ?_ (.ret _)
  exact (notPolling_stand _).bind fun _ => .ret _

theorem notPolling_setup (conf : Config) : Prog.Only NotPolling (setup conf) := by
  refine (notPolling_stand _).bind fun _ => (notPolling_stand _).bind fun _ => ?_
  exact notPolling_connect

/-! ## Rounds -/

/-- Where a round leaves the receiver: in the loop of `setup` between two messages. -/
def RoundEnd (phase : Phase) (s : Watched) : Prop :=
  s.idleLooks = true ∧ (phase = .connecting → s.rx.transport.msgInProgress = false)

theorem Idle.roundEnd {phase : Phase} {s : Watched} (h : s.Idle) : RoundEnd phase s :=
  ⟨h.1, fun _ => h.2⟩

variable {s : Watched}

/-- A message that `check_for_message` delivers leaves the receiver between two messages. -/
theorem looks_checkForMessage (hs : s.idleLooks = true) :
    Looks (fun res s' => s'.idleLooks = true ∧ (res = .ok → s'.Idle))
      (SerialSession.checkForMessage : StandProg SerialResult) s := by
  refine looks_op hs fun complete s' hdoes => ?_
  obtain ⟨hlooks, hfresh⟩ := hdoes
  have hlooks' : s'.idleLooks = true := hlooks.trans hs
  cases complete with
  | true =>
      have hidle : s'.Idle := ⟨hlooks', by rw [hfresh rfl]; rfl⟩
      exact (looks_idle notPolling_checkReceivedMsg hidle).mono fun _ t ht => ⟨ht.1, fun _ => ht⟩
  | false => exact looks_ret hlooks' ⟨hlooks', nofun⟩

theorem looks_serve {res : SerialResult} (hs : s.idleLooks = true) (hidle : res = .ok → s.Idle) :
    Looks (fun _ s' => s'.idleLooks = true) (serve res) s := by
  unfold serve
  by_cases hres : res = .ok
  · rw [if_pos hres]
    have hhandle : Prog.Only NotPolling (do
        let r ← look
        stand (.dispatch r.msg.packet)
        handle r.msg.id) :=
      .op nofun fun r => (notPolling_stand _).bind fun _ => notPolling_handle _
    exact (looks_idle hhandle (hidle hres)).mono fun _ _ h => h.1
  · rw [if_neg hres]
    exact looks_ret hs hs

theorem looks_updateStatus (hs : s.idleLooks = true) :
    Looks (fun _ s' => s'.idleLooks = true) updateStatus s := by
  refine World.Safe.of_only only_updateStatus (fun _ _ _ h => h.elim) ?_ (fun _ h => h) hs
  rintro _ t r t' ⟨o, rfl, -⟩ ht hdoes
  obtain rfl := hdoes
  exact ht

/-- **A round** of either loop. -/
theorem looks_round {phase : Phase} (hs : RoundEnd phase s) : Looks RoundEnd phase.prog s := by
  cases phase with
  | connecting =>
      exact (looks_idle notPolling_connect ⟨hs.1, hs.2 rfl⟩).mono fun _ _ h => Idle.roundEnd h
  | running =>
      have hexecute : Looks (fun _ s' => s'.idleLooks = true) execute s := by
        refine World.Safe.bind ((looks_updateStatus hs.1).mono fun _ t ht => ?_)
        exact World.Safe.bind ((looks_checkForMessage ht).mono fun res u hu =>
          looks_serve hu.1 hu.2)
      exact World.Safe.bind (hexecute.mono fun _ t ht => looks_ret ht ⟨ht, nofun⟩)

end MPMTTestStand

/-! ## Runs -/

namespace Controller

open MPMTTestStand Watched

variable {c c' : Controller} {e : ControllerEvent}

/-- From here on every look finds the receiver between two messages. -/
def Orderly (c : Controller) : Prop := Looks RoundEnd c.node.prog ⟨c.node.rx, true⟩

theorem orderly_init (conf : Config) (stand : TestStand) : (init conf stand).Orderly := by
  refine Looks.resume ((looks_idle (notPolling_setup conf) ⟨rfl, rfl⟩).mono fun _ _ h => ?_)
  exact Idle.roundEnd h

/-- What the main program goes on with besides a signal: the answer to an operation of its
own, or the next round. -/
theorem continuation_cases {rx : Receiver} {prog : StandProg Phase}
    (h : c.continuation e = some (rx, prog)) :
    (∃ s, c.node.continuation s = some (rx, prog)) ∨
      rx = c.node.rx ∧ ((∃ o k r, c.node.prog = .op (.act o) k ∧ prog = k r) ∨
        ∃ phase : Phase, c.node.prog = .ret phase ∧ prog = phase.prog) := by
  cases e with
  | signal s => exact .inl ⟨s, h⟩
  | act around =>
      simp only [Controller.continuation] at h
      split at h
      · rename_i o k hprog
        obtain ⟨⟨r, stand⟩, -, hnext⟩ := Option.map_eq_some_iff.mp h
        obtain ⟨rfl, rfl⟩ := Prod.mk.inj hnext
        exact .inr ⟨rfl, .inl ⟨o, k, r, hprog, rfl⟩⟩
      · cases h
  | loop =>
      simp only [Controller.continuation] at h
      split at h
      · rename_i phase hprog
        obtain ⟨rfl, rfl⟩ := Prod.mk.inj (Option.some.inj h)
        exact .inr ⟨rfl, .inr ⟨phase, hprog, rfl⟩⟩
      · cases h
  | interrupt id event => cases h

/-- What the controller goes on with at an event, unless it reads on. -/
theorem step_continuation (h : c.step e = some c') :
    (∃ rx prog, c.continuation e = some (rx, prog) ∧ c'.node = Node.resume rx prog) ∨
      (c.continuation e = none ∧
        (c'.node = c.node ∨ c.node.Reading ∧ ∃ b, c'.node = c.node.readsOn b)) := by
  cases e with
  | signal s =>
      obtain ⟨⟨n, out⟩, hs, rfl⟩ := Option.map_eq_some_iff.mp h
      rcases Node.signal_continuation hs with hgoes | ⟨hnone, hreads⟩
      · exact .inl hgoes
      · exact .inr ⟨hnone, .inr hreads⟩
  | act around =>
      obtain ⟨⟨c1, acted⟩, hact, rfl⟩ := Option.map_eq_some_iff.mp h
      simp only [Controller.act] at hact
      split at hact
      · rename_i o k hprog
        split at hact
        · rename_i r stand hres
          obtain ⟨rfl, -⟩ := Prod.mk.inj (Option.some.inj hact)
          refine .inl ⟨c.node.rx, k r, ?_, rfl⟩
          simp only [continuation, hprog, hres, Option.map_some]
        · cases hact
      · cases hact
  | loop =>
      obtain ⟨⟨rx, prog⟩, stand⟩ := c
      cases prog with
      | ret phase =>
          obtain rfl := Option.some.inj h
          exact .inl ⟨rx, phase.prog, rfl, rfl⟩
      | op o k => cases h
  | interrupt id event =>
      obtain ⟨-, hc'⟩ := Option.ite_none_right_eq_some.mp h
      obtain rfl := Option.some.inj hc'
      exact .inr ⟨rfl, .inl rfl⟩

/-- **What an orderly controller goes on with.** -/
theorem Orderly.continuation {rx : Receiver} {prog : StandProg Phase} (h : c.Orderly)
    (hc : c.continuation e = some (rx, prog)) : Looks RoundEnd prog ⟨rx, true⟩ := by
  unfold Orderly at h
  rcases continuation_cases hc with ⟨s, hs⟩ | ⟨rfl, ⟨o, k, r, hprog, rfl⟩ | ⟨phase, hprog, rfl⟩⟩
  · exact Looks.continuation h hs
  · rw [hprog] at h
    exact h.does rfl
  · rw [hprog] at h
    exact looks_round h.returns

/-- Reading on, a node is as orderly as before. -/
theorem looks_reading {n : Node standSig Phase} (hn : n.Reading)
    (h : Looks RoundEnd n.prog ⟨n.rx, true⟩) (rx : Receiver) :
    Looks RoundEnd n.prog ⟨rx, true⟩ := by
  rcases hn with ⟨k, hprog⟩ | ⟨t, k, hprog⟩
  · rw [hprog] at h ⊢
    exact looks_op rfl fun r s' hdoes => h.does hdoes
  · rw [hprog] at h ⊢
    exact looks_op rfl fun r s' hdoes => h.does hdoes

/-- **A step of an orderly controller.** -/
theorem Orderly.step (h : c.Orderly) (hstep : c.step e = some c') : c'.Orderly := by
  unfold Orderly
  rcases step_continuation hstep with ⟨rx, prog, hc, hnode⟩ | ⟨-, hnode | ⟨hreading, b, hnode⟩⟩
  · have hresume := Looks.resume (h.continuation hc)
    rw [hnode]
    exact hresume
  · rw [hnode]
    exact h
  · rw [hnode]
    exact looks_reading hreading h _

/-- The receiver that the controller goes on with has read some part of a frame. -/
theorem midFrame_continuation {rx : Receiver} {prog : StandProg Phase}
    (h : c.node.rx.MidFrame) (hc : c.continuation e = some (rx, prog)) : rx.MidFrame := by
  rcases continuation_cases hc with ⟨s, hs⟩ | ⟨rfl, -⟩
  · exact Node.midFrame_continuation h hs
  · exact h

theorem midFrame_step (h : c.node.rx.MidFrame) (hstep : c.step e = some c') :
    c'.node.rx.MidFrame := by
  rcases step_continuation hstep with ⟨rx, prog, hc, hnode⟩ | ⟨-, hnode | ⟨-, b, hnode⟩⟩
  · rw [hnode]
    exact midFrame_continuation h hc
  · rw [hnode]
    exact h
  · rw [hnode]
    exact h.readByte b

/-- Along every run the controller is orderly and its receiver in mid-frame. -/
theorem orderly_run {conf : Config} {stand : TestStand} {events : List ControllerEvent}
    (h : run step (init conf stand) events = some c) : c.Orderly ∧ c.node.rx.MidFrame := by
  constructor
  · exact run_invariant step (fun _ => True) (fun _ _ _ _ hstep hc => hc.step hstep)
      (fun _ _ => trivial) h (orderly_init conf stand)
  · have hstep : ∀ c e c', True → step c e = some c' → c.node.rx.MidFrame → c'.node.rx.MidFrame :=
      fun _ _ _ _ hstep hc => midFrame_step hc hstep
    exact run_invariant step (fun _ => True) hstep (fun _ _ => trivial) h (.fresh _)

/-- **What the controller goes on with** in a run. -/
theorem GoesOn.looks {conf : Config} {stand : TestStand} {rx : Receiver} {prog : StandProg Phase}
    (h : GoesOn conf stand rx prog) : Looks RoundEnd prog ⟨rx, true⟩ ∧ rx.MidFrame := by
  cases h with
  | setup =>
      refine ⟨?_, .fresh _⟩
      exact (looks_idle (notPolling_setup conf) ⟨rfl, rfl⟩).mono fun _ _ h => Idle.roundEnd h
  | event hrun hc =>
      obtain ⟨horderly, hmid⟩ := orderly_run hrun
      exact ⟨horderly.continuation hc, midFrame_continuation hmid hc⟩

/-- **A send of the controller** is issued between two messages. -/
theorem GoesOn.issues {conf : Config} {stand : TestStand} {rx : Receiver}
    {prog : StandProg Phase} {p : Packet} (h : GoesOn conf stand rx prog)
    (hp : Issues rx prog p) :
    rx.transport.pendingMessage.currentSegment = .segStart ∧
      ∀ res, Returns rx ((SessionCall.sendMessage p).start rx) res → res ≠ .errMsgInProgress := by
  obtain ⟨hlooks, tail, hpartial⟩ := h.looks
  have hidle := hlooks.issues hp
  constructor
  · by_contra hsegment
    have hbusy := hpartial.bounded.inProgress.mpr hsegment
    rw [hidle] at hbusy
    cases hbusy
  · intro res hreturns
    have hstart : (SessionCall.sendMessage p).start rx = .goes (.send p) :=
      if_neg (Bool.eq_false_iff.mp hidle)
    rw [hstart] at hreturns
    exact hreturns.ne_errMsgInProgress nofun

/-- **The transport keeps within its bounds** in every reachable state, `recv_message`
returns between two messages, and the controller sends only there: in whatever the
controller goes on with, in any run, a send finds the receiver at the start of a frame and
never returns `SERIAL_ERR_MSG_IN_PROGRESS`. -/
theorem transport_bounded :
    (∀ r, TransportCall.Reached r →
      r.Bounded ∧ ∀ c r', TransportCall.During r c r' → r'.Bounded) ∧
    (∀ timeoutMs millis r rounds res r', recvMessage timeoutMs millis r rounds = some (res, r') →
      r'.transport.pendingMessage.currentSegment = .segStart) ∧
    ∀ conf stand rx prog, GoesOn conf stand rx prog → ∀ p, Issues rx prog p →
      rx.transport.pendingMessage.currentSegment = .segStart ∧
        ∀ res, Returns rx ((SessionCall.sendMessage p).start rx) res →
          res ≠ .errMsgInProgress := by
  refine ⟨fun r h => h.bounded, ?_, fun conf stand rx prog h p hp => h.issues hp⟩
  intro timeoutMs millis r rounds res r' h
  rw [recvMessage_fresh h]
  rfl

/-- The first PING, once both axes are set up. -/
theorem goesOn_connect (conf : Config) (stand : TestStand) (around : Outside) :
    GoesOn conf stand .fresh connect := by
  have hrun : ∃ c, run step (init conf stand) [.act around] = some c ∧
      c.continuation (.act around) = some (.fresh, connect) := ⟨_, rfl, rfl⟩
  obtain ⟨c, hrun, hc⟩ := hrun
  exact .event hrun hc

theorem issues_ping (rx : Receiver) : Issues rx connect (.basic msgIdPing) := ⟨_, .refl _⟩

/-- A message that has come in full, and the first PING of the controller. -/
theorem transport_bounded_ping :
    (checkForMessage .fresh ((Packet.basic msgIdPing).frame.map .byte)).receiver.Bounded ∧
    (Receiver.fresh.transport.pendingMessage.currentSegment = .segStart ∧
      ∀ res, Returns .fresh ((SessionCall.sendMessage (.basic msgIdPing)).start .fresh) res →
        res ≠ .errMsgInProgress) :=
  ⟨(transport_bounded.1 _ (.call (.constructed _) (.checkForMessage _) rfl)).1,
    transport_bounded.2.2 conf (TestStand.init defaultCalibration) .fresh connect
      (goesOn_connect _ _ ⟨⟨0, 0, 0, 0, 0⟩, .x⟩) _ (issues_ping _)⟩

end Controller

end MpmtTestStand.Ports
