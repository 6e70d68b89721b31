import MpmtTestStand.Ports.ControllerPoints
import MpmtTestStand.Ports.Party

/-!
# What becomes of a STOP

The controller alone, from the start of `setup` on, with any bytes coming in,
any timing and any interrupts.  Messages are parsed in two places: in
`check_for_message`, where `execute` polls, and in the wait of `send_message`
for an acknowledgement.

A STOP that is polled is handled before anything else happens, unless its
acknowledgement cannot be written (`stop_handled`).  A STOP that comes in while
an acknowledgement is awaited is taken for a wrong answer and never handled;
`stop_swallowed` is such a run.
-/

namespace MpmtTestStand.Ports

open MpmtTestStand.Verified
open MpmtTestStand.Verified.Run

namespace MPMTTestStand

/-! ## Runs of the controller -/

/-- What can happen next. -/
inductive ControllerEvent
  | signal (s : Signal)
  | act (around : Outside)
  | loop
  | interrupt (id : AxisId) (e : AxisEvent)

/-- What is worth noting. -/
inductive Trace
  /-- a message is complete in `check_for_message` -/
  | polled (p : Packet)
  /-- a message is complete in the wait of `send_message` -/
  | waited (p : Packet)
  | writeFailed
  | acted (a : Acted)

/-- The messages completed and the writes failed by a signal. -/
def traces (n : Node standSig Phase) (s : Signal) : List Trace :=
  match n.prog, s with
  | .op .checkForMessage _, .byte b => (n.rx.heard b).toList.map .polled
  | .op (.recvMessage _) _, .byte b => (n.rx.heard b).toList.map .waited
  | _, .writeFailed _ => [.writeFailed]
  | _, _ => []

/-- The controller and its history, oldest entry first. -/
structure Monitor where
  controller : Controller
  log : List Trace

namespace Monitor

/-- The controller at the start of `setup`. -/
def init (conf : Config) (stand : TestStand) : Monitor where
  controller := ⟨Node.resume .fresh (setup conf), stand⟩
  log := []

def step (m : Monitor) : ControllerEvent → Option Monitor
  | .signal s =>
      match m.controller.node.signal s with
      | some (node, _) =>
          some ⟨{ m.controller with node := node }, m.log ++ traces m.controller.node s⟩
      | none => none
  | .act around =>
      match m.controller.act around with
      | some (c, a) => some ⟨c, m.log ++ [.acted a]⟩
      | none => none
  | .loop => m.controller.loop.map fun c => ⟨c, m.log⟩
  | .interrupt id e => (m.controller.interrupt id e).map fun c => ⟨c, m.log⟩

end Monitor

/-! ## Steps -/

/-- Neither a message to be dispatched nor an operation. -/
inductive Idle : Trace → Prop
  | stray (p : Packet) (hid : p.id = msgIdAck ∨ p.id = msgIdNack) : Idle (.polled p)
  | waited (p : Packet) : Idle (.waited p)
  | writeFailed : Idle .writeFailed

/-- The program is not occupied with a message that it has yet to handle. -/
inductive Point.Free : Point → Prop
  | idle (phase : Phase) : Free (.idle phase)
  | replying (p : Packet) (ops : List Acted) (q : Packet) (a : Activity) :
      Free (.replying p ops q a)

/-- Where a step gets to, and what it adds to the history. -/
inductive Moves : Point → List Trace → Point → Prop
  | stay (pt : Point) : Moves pt [] pt
  | free (pt pt' : Point) (new : Option Trace) (hpt : pt.Free) (hpt' : pt'.Free)
      (hnew : ∀ x ∈ new, Idle x) : Moves pt new.toList pt'
  | receive (phase : Phase) (p : Packet) :
      Moves (.idle phase) [.polled p] (.acking p .ack)
  | ack (p : Packet) (a b : Activity) : Moves (.acking p a) [] (.acking p b)
  | acked (p : Packet) (a : Activity) : Moves (.acking p a) [] (.dispatching p)
  | ackFailed (p : Packet) (a : Activity) :
      Moves (.acking p a) [.writeFailed] (.idle .running)
  | act (pt pt' : Point) (a : Acted) (h : Acts pt a pt') : Moves pt [.acted a] pt'

section Steps

variable {pt : Point} {m m' : Monitor}

/-- What a signal adds to the history depends on the call at hand. -/
theorem traces_of_calls {n : Node standSig Phase} {a : Activity}
    {k : SerialResult → StandProg Phase} (hprog : n.prog = a.prog >>= k) (s : Signal) :
    traces n s =
      match s with
      | .byte b =>
          if a = .polling then (n.rx.heard b).toList.map .polled
          else if a.listening then (n.rx.heard b).toList.map .waited
          else []
      | .writeFailed _ => [.writeFailed]
      | _ => [] := by
  cases a <;> cases s <;> simp only [traces, hprog] <;> rfl

/-- In `send_message` nothing is polled. -/
theorem traces_of_sending {n : Node standSig Phase} {a : Activity}
    {k : SerialResult → StandProg Phase} (hprog : n.prog = a.prog >>= k)
    (ha : a.sending = true) (s : Signal) :
    ∃ new : Option Trace, traces n s = new.toList ∧ ∀ x ∈ new, Idle x := by
  rw [traces_of_calls hprog]
  have hpolling : a ≠ .polling := by
    rintro rfl
    simp [Activity.sending] at ha
  cases s with
  | byte b =>
      cases hheard : n.rx.heard b with
      | none => exact ⟨none, by simp [hheard], by simp⟩
      | some p =>
          cases hlisten : a.listening with
          | false => exact ⟨none, by simp [hpolling], by simp⟩
          | true =>
              refine ⟨some (.waited p), by simp [hpolling, hheard], ?_⟩
              simpa using Idle.waited p
  | writeFailed j => exact ⟨some .writeFailed, rfl, by simpa using Idle.writeFailed⟩
  | wrote | quiet | timeout => exact ⟨none, rfl, by simp⟩

/-- **What a signal does.** -/
theorem signal_moves {n n' : Node standSig Phase} {s : Signal} {out : List UInt8}
    (hat : At n.rx pt n.prog) (h : n.signal s = some (n', out)) :
    ∃ pt', Moves pt (traces n s) pt' ∧ At n'.rx pt' n'.prog := by
  obtain ⟨a, k, hcalls, hprog⟩ := hat.signals h
  obtain ⟨rx, next, heffect, rfl⟩ := Node.signal_effect hprog h
  cases hcalls with
  | poll =>
      rw [traces_of_calls hprog]
      cases heffect with
      | more a b _ hmore =>
          refine ⟨.idle .running, ?_, .call .poll⟩
          simpa [Receiver.heard, hmore] using Moves.stay (.idle .running)
      | received a b _ hdone hid =>
          have hidle : (n.rx.readByte b).1.transport.msgInProgress = false :=
            readByte_done_idle hdone
          refine ⟨.acking (n.rx.readByte b).1.msg.packet .ack, ?_, .call (.ack _ _ _ rfl hidle)⟩
          simpa [Receiver.heard, hdone] using Moves.receive _ _
      | stray a b _ hdone hid =>
          refine ⟨.idle .running, ?_, .not_polled (by simp)⟩
          have hfree := Moves.free (.idle .running) (.idle .running)
            (some (.polled (n.rx.readByte b).1.msg.packet)) (.idle _) (.idle _)
            (by simpa using Idle.stray _ hid)
          simpa [Receiver.heard, hdone] using hfree
      | quiet => exact ⟨.idle .running, .stay _, .not_polled (by simp)⟩
  | ping a ha =>
      obtain ⟨new, htraces, hnew⟩ := traces_of_sending hprog ha s
      rw [htraces]
      cases next with
      | goes b =>
          exact ⟨.idle .connecting, .free _ _ new (.idle _) (.idle _) hnew,
            .call (.ping b (heffect.sending ha b rfl))⟩
      | returns res =>
          obtain ⟨phase, hat⟩ := At.pinged rx res
          exact ⟨.idle phase, .free _ _ new (.idle _) (.idle _) hnew, hat⟩
  | ack p piece rest hmsg hidle =>
      rw [traces_of_calls hprog]
      cases heffect with
      | acked _ next rest =>
          exact ⟨.acking p (.acking next rest), .ack p _ _, .call (.ack p next rest hmsg hidle)⟩
      | ackedLast => exact ⟨.dispatching p, .acked p _, .polled hmsg hidle⟩
      | ackFailed => exact ⟨.idle .running, .ackFailed p _, .not_polled (by simp)⟩
      | more _ _ ha => cases ha
      | received _ _ ha => simp at ha
      | stray _ _ ha => simp at ha
  | reply p ops q a ha hanswers =>
      obtain ⟨new, htraces, hnew⟩ := traces_of_sending hprog ha s
      rw [htraces]
      cases next with
      | goes b =>
          exact ⟨.replying p ops q b, .free _ _ new (.replying ..) (.replying ..) hnew,
            .call (.reply p ops q b (heffect.sending ha b rfl) hanswers)⟩
      | returns res =>
          exact ⟨.idle .running, .free _ _ new (.replying ..) (.idle _) hnew, .between _⟩

/-- **What a step does.** -/
theorem Monitor.step_moves {e : ControllerEvent}
    (hat : At m.controller.node.rx pt m.controller.node.prog) (h : m.step e = some m') :
    ∃ new pt', m'.log = m.log ++ new ∧ Moves pt new pt' ∧
      At m'.controller.node.rx pt' m'.controller.node.prog := by
  cases e with
  | signal s =>
      rcases hs : m.controller.node.signal s with _ | ⟨node, out⟩
      · simp [step, hs] at h
      · simp only [step, hs, Option.some.injEq] at h
        subst h
        obtain ⟨pt', hmoves, hat⟩ := signal_moves hat hs
        exact ⟨_, pt', rfl, hmoves, hat⟩
  | act around =>
      rcases hs : m.controller.act around with _ | ⟨c, a⟩
      · simp [step, hs] at h
      · simp only [step, hs, Option.some.injEq] at h
        subst h
        obtain ⟨-, pt', hacts, hat⟩ := hat.act hs
        exact ⟨_, pt', rfl, .act pt pt' a hacts, hat⟩
  | loop =>
      obtain ⟨c, hs, rfl⟩ := Option.map_eq_some_iff.mp h
      obtain ⟨phase, rfl, -, hat⟩ := hat.loop hs
      exact ⟨[], _, (List.append_nil _).symm, .stay _, hat⟩
  | interrupt id e =>
      obtain ⟨c, hs, rfl⟩ := Option.map_eq_some_iff.mp h
      unfold Controller.interrupt at hs
      split at hs
      · obtain rfl := Option.some.inj hs
        exact ⟨[], pt, (List.append_nil _).symm, .stay pt, hat⟩
      · simp at hs

end Steps

/-! ## The invariant -/

/-- The history of handling a STOP. -/
def handledStop (p : Packet) : List Trace :=
  (⟨.dispatch p, ()⟩ :: stopOps).map .acted

/-- The program writes or performs an operation of its own: it goes on without
any input. -/
def Busy (n : Node standSig Phase) : Prop :=
  (∃ data k, n.prog = .op (.serWrite data) k) ∨ ∃ o k, n.prog = .op (.act o) k

/-- `post` is what has happened since the message `p` was polled, and the program
is still occupied with `p`. -/
inductive Awaits (p : Packet) : Point → List Trace → Prop
  | acking (a : Activity) : Awaits p (.acking p a) []
  | dispatching : Awaits p (.dispatching p) []
  | handling (ops : List Acted) (hops : p.id = msgIdStop → ops <+: stopOps) :
      Awaits p (.handling p ops) ((⟨.dispatch p, ()⟩ :: ops).map .acted)

/-- The last entry is the message that is about to be dispatched. -/
inductive Fresh : Point → List Trace → Prop
  | acking (log : List Trace) (p : Packet) (a : Activity) :
      Fresh (.acking p a) (log ++ [.polled p])
  | dispatching (log : List Trace) (p : Packet) : Fresh (.dispatching p) (log ++ [.polled p])
  | other (log : List Trace) (pt : Point) (hack : ∀ p a, pt ≠ .acking p a)
      (hdispatch : ∀ p, pt ≠ .dispatching p) : Fresh pt log

/-- The STOP `p` has been handled, or its acknowledgement could not be written. -/
def Settled (p : Packet) (post : List Trace) : Prop :=
  post.head? = some .writeFailed ∨ handledStop p <+: post

/-- The invariant of the controller. -/
structure Monitor.Inv (m : Monitor) (pt : Point) : Prop where
  point : At m.controller.node.rx pt m.controller.node.prog
  fresh : Fresh pt m.log
  stops : ∀ pre p post, m.log = pre ++ .polled p :: post → p.id = msgIdStop →
    Settled p post ∨ Awaits p pt post
  dispatches : ∀ pre p post, m.log = pre ++ .acted ⟨.dispatch p, ()⟩ :: post →
    ∃ pre', pre = pre' ++ [.polled p]

section Moves

variable {pt pt' : Point} {log new post : List Trace} {p : Packet}

/-- The program stays occupied with a STOP until it is handled. -/
theorem Moves.awaits (h : Moves pt new pt') (hp : p.id = msgIdStop) (ha : Awaits p pt post) :
    Settled p (post ++ new) ∨ Awaits p pt' (post ++ new) := by
  have hresponds : ¬Responds p.id := by
    rw [hp]
    exact not_responds_stop
  cases ha with
  | acking a =>
      cases h with
      | stay => exact .inr (.acking a)
      | ack _ _ b => exact .inr (.acking b)
      | acked => exact .inr .dispatching
      | ackFailed => exact .inl (.inl rfl)
      | free _ _ _ hpt => cases hpt
      | act _ _ _ hacts => cases hacts
  | dispatching =>
      cases h with
      | stay => exact .inr .dispatching
      | free _ _ _ hpt => cases hpt
      | act _ _ _ hacts =>
          cases hacts with
          | dispatch _ _ hcontinues =>
              cases hcontinues with
              | goes => exact .inr (.handling [] fun _ => List.nil_prefix)
              | replies q hq => exact absurd hq.responds hresponds
              | ends hsilent => exact absurd (hsilent.stop hp) (by simp [stopOps])
  | handling ops hops =>
      cases h with
      | stay =>
          rw [List.append_nil]
          exact .inr (.handling ops hops)
      | free _ _ _ hpt => cases hpt
      | act _ _ a hacts =>
          have hlog : (⟨.dispatch p, ()⟩ :: ops).map Trace.acted ++ [.acted a] =
              (⟨.dispatch p, ()⟩ :: (ops ++ [a])).map .acted := by simp
          rw [hlog]
          cases hacts with
          | handle _ _ _ _ _ hstop hcontinues =>
              cases hcontinues with
              | goes => exact .inr (.handling _ hstop)
              | replies q hq => exact absurd hq.responds hresponds
              | ends hsilent =>
                  rw [hsilent.stop hp]
                  exact .inl (.inr (List.prefix_refl _))

theorem Moves.fresh (h : Moves pt new pt') (hf : Fresh pt log) : Fresh pt' (log ++ new) := by
  cases h with
  | stay =>
      rw [List.append_nil]
      exact hf
  | free _ _ new hpt hpt' =>
      cases hpt' <;> exact .other _ _ (by simp) (by simp)
  | receive _ p => exact .acking log p .ack
  | ack p a b =>
      rw [List.append_nil]
      cases hf with
      | acking log => exact .acking log p b
      | other _ _ hack => exact absurd rfl (hack p a)
  | acked p a =>
      rw [List.append_nil]
      cases hf with
      | acking log => exact .dispatching log p
      | other _ _ hack => exact absurd rfl (hack p a)
  | ackFailed => exact .other _ _ (by simp) (by simp)
  | act _ _ a hacts =>
      cases hacts with
      | own => exact .other _ _ (by simp) (by simp)
      | dispatch _ _ hcontinues => cases hcontinues <;> exact .other _ _ (by simp) (by simp)
      | handle _ _ _ _ _ _ hcontinues =>
          cases hcontinues <;> exact .other _ _ (by simp) (by simp)

/-- A step adds at most one entry. -/
private theorem eq_of_singleton {x y : Trace} {mid post : List Trace}
    (h : [x] = mid ++ y :: post) : mid = [] ∧ y = x ∧ post = [] := by
  cases mid with
  | nil => simpa [eq_comm] using h
  | cons z mid => simp at h

/-- A STOP that has just been polled is about to be acknowledged. -/
theorem Moves.polled {mid : List Trace} (h : Moves pt new pt') (hp : p.id = msgIdStop)
    (hnew : new = mid ++ .polled p :: post) : Awaits p pt' post := by
  cases h with
  | stay | ack | acked => simp at hnew
  | ackFailed | act => cases (eq_of_singleton hnew).2.1
  | receive _ q =>
      obtain ⟨-, heq, rfl⟩ := eq_of_singleton hnew
      obtain rfl := Trace.polled.inj heq
      exact .acking .ack
  | free _ _ new _ _ hidle =>
      cases new with
      | none => simp at hnew
      | some x =>
          obtain ⟨-, rfl, -⟩ := eq_of_singleton hnew
          -- a stray message is not a STOP
          cases hidle (.polled p) rfl with
          | stray _ hid =>
              rw [hp] at hid
              exact absurd hid (by decide)

/-- A message is dispatched when its turn has come. -/
theorem Moves.dispatched {mid : List Trace} (h : Moves pt new pt')
    (hnew : new = mid ++ .acted ⟨.dispatch p, ()⟩ :: post) :
    mid = [] ∧ pt = .dispatching p := by
  cases h with
  | stay | ack | acked => simp at hnew
  | ackFailed | receive => cases (eq_of_singleton hnew).2.1
  | free _ _ new _ _ hidle =>
      cases new with
      | none => simp at hnew
      | some x =>
          obtain ⟨-, rfl, -⟩ := eq_of_singleton hnew
          cases hidle _ rfl
  | act _ _ a hacts =>
      obtain ⟨rfl, heq, -⟩ := eq_of_singleton hnew
      obtain rfl := Trace.acted.inj heq
      cases hacts with
      | own _ _ ha => exact absurd rfl (ha p)
      | dispatch => exact ⟨rfl, rfl⟩
      | handle _ _ _ _ ha => exact absurd rfl (ha p)

theorem Settled.append (h : Settled p post) (new : List Trace) : Settled p (post ++ new) := by
  rcases h with h | h
  · exact .inl (by simp [h])
  · exact .inr (h.trans (List.prefix_append _ _))

end Moves

/-- The invariant is preserved by every step. -/
theorem Monitor.Inv.step {m m' : Monitor} {pt : Point} {e : ControllerEvent} (hinv : m.Inv pt)
    (h : m.step e = some m') : ∃ pt', m'.Inv pt' := by
  obtain ⟨new, pt', hlog, hmoves, hat⟩ := m.step_moves hinv.point h
  refine ⟨pt', ?_⟩
  exact
    { point := hat
      fresh := hlog ▸ hmoves.fresh hinv.fresh
      stops := fun pre p post hsplit hp => by
        rw [hlog] at hsplit
        rcases split_append hsplit with ⟨mid, hold, rfl⟩ | ⟨mid, rfl, hnew⟩
        · rcases hinv.stops pre p mid hold hp with hsettled | hawaits
          · exact .inl (Settled.append hsettled new)
          · exact hmoves.awaits hp hawaits
        · exact .inr (hmoves.polled hp hnew)
      dispatches := fun pre p post hsplit => by
        rw [hlog] at hsplit
        rcases split_append hsplit with ⟨mid, hold, rfl⟩ | ⟨mid, rfl, hnew⟩
        · exact hinv.dispatches pre p mid hold
        · obtain ⟨rfl, rfl⟩ := hmoves.dispatched hnew
          have hfresh := hinv.fresh
          generalize m.log = log at hfresh
          cases hfresh with
          | dispatching log => exact ⟨log, by simp⟩
          | other _ _ _ hdispatch => exact absurd rfl (hdispatch p) }

theorem Monitor.inv_init (conf : Config) (stand : TestStand) :
    (init conf stand).Inv (.idle .connecting) where
  point := .setup .fresh conf
  fresh := .other _ _ (by simp) (by simp)
  stops pre p post hsplit := by simp [init] at hsplit
  dispatches pre p post hsplit := by simp [init] at hsplit

/-- Occupied with a message, the program needs no input. -/
theorem At.busy {n : Node standSig Phase} {pt : Point} {p : Packet} {post : List Trace}
    (hat : At n.rx pt n.prog) (h : Awaits p pt post) : Busy n := by
  obtain ⟨rx, prog⟩ := n
  cases h with
  | acking a =>
      cases hat with
      | call hcalls =>
          cases hcalls
          exact .inl ⟨_, _, rfl⟩
  | dispatching =>
      cases hat with
      | dispatching => exact .inr ⟨_, _, rfl⟩
      | call hcalls => cases hcalls
  | handling ops =>
      cases hat with
      | handling => exact .inr ⟨_, _, rfl⟩
      | call hcalls => cases hcalls

/-- Until it is handled, a STOP is being handled. -/
theorem Awaits.handledStop {p : Packet} {pt : Point} {post : List Trace}
    (h : Awaits p pt post) (hp : p.id = msgIdStop) : post <+: handledStop p := by
  cases h with
  | acking | dispatching => exact List.nil_prefix
  | handling ops hops =>
      exact ((List.prefix_cons_inj _).mpr (hops hp)).map _

/-! ## Results -/

/-- **A STOP that is polled is handled at once.**  In every run from the start of
`setup`: once a STOP has been polled, either writing its acknowledgement fails, or
the next things that happen are that it is dispatched and that both axes are
stopped, and until then the program needs no input.  And nothing is dispatched
but the message polled just before. -/
theorem stop_handled (conf : Config) (stand : TestStand) (events : List ControllerEvent)
    (m : Monitor) (hrun : run Monitor.step (.init conf stand) events = some m) :
    (∀ pre p post, m.log = pre ++ .polled p :: post → p.id = msgIdStop →
      post.head? = some .writeFailed ∨ handledStop p <+: post ∨
        (post <+: handledStop p ∧ Busy m.controller.node)) ∧
    ∀ pre p post, m.log = pre ++ .acted ⟨.dispatch p, ()⟩ :: post →
      ∃ pre', pre = pre' ++ [.polled p] := by
  have hstep : ∀ m e m', True → Monitor.step m e = some m' → (∃ pt, m.Inv pt) →
      ∃ pt, m'.Inv pt := fun _ _ _ _ hstep ⟨_, hinv⟩ => hinv.step hstep
  obtain ⟨pt, hinv⟩ := run_invariant Monitor.step (fun _ => True) hstep
    (fun _ _ => trivial) hrun ⟨_, Monitor.inv_init conf stand⟩
  refine ⟨fun pre p post hsplit hp => ?_, hinv.dispatches⟩
  rcases hinv.stops pre p post hsplit hp with (hfailed | hsettled) | hawaits
  · exact .inl hfailed
  · exact .inr (.inl hsettled)
  · exact .inr (.inr ⟨hawaits.handledStop hp, hinv.point.busy hawaits⟩)

/-- A frame comes in. -/
def frameIn (p : Packet) : List ControllerEvent := p.frame.map fun b => .signal (.byte b)

/-- A frame goes out. -/
def frameOut : List ControllerEvent := List.replicate 7 (.signal .wrote)

/-- The operations of the main program, at 20 degrees. -/
def operations (n : Nat) : List ControllerEvent :=
  List.replicate n (.act ⟨⟨2000, 2000, 2000, 2000, 2000⟩, .x⟩)

/-- The host answers the first PING, and the controller begins to poll. -/
def connected : List ControllerEvent :=
  operations 2 ++ frameOut ++ frameIn ackPacket ++ operations 1 ++ .loop :: operations 1

/-- The history of this. -/
def connectedLog : List Trace :=
  [ .acted ⟨.axisSetup .x conf.ioAxisX conf.axisMech, ()⟩
  , .acted ⟨.axisSetup .y conf.ioAxisY conf.axisMech, ()⟩
  , .waited ackPacket
  , .acted ⟨.setStatus .idle, ()⟩
  , .acted ⟨.getStatus, .idle⟩ ]

/-- A STOP comes in. -/
theorem stop_handled_polled :
    ∃ m, run Monitor.step (.init conf (.init defaultCalibration))
        (connected ++ frameIn (.basic msgIdStop) ++ frameOut ++ operations 4) = some m ∧
      m.log = connectedLog ++ .polled (.basic msgIdStop) :: handledStop (.basic msgIdStop) ∧
      ∀ pre p post, m.log = pre ++ .acted ⟨.dispatch p, ()⟩ :: post →
        ∃ pre', pre = pre' ++ [.polled p] :=
  ⟨_, rfl, rfl, (stop_handled conf (.init defaultCalibration)
    (connected ++ frameIn (.basic msgIdStop) ++ frameOut ++ operations 4) _ rfl).2⟩

/-- The host asks for the status and sends a STOP before the acknowledgement of
the answer.  A PING comes later. -/
def stopDuringReply : List ControllerEvent :=
  connected ++ frameIn (.basic msgIdGetStatus) ++ frameOut ++ operations 2 ++ frameOut ++
    frameIn (.basic msgIdStop) ++ .loop :: operations 1 ++ frameIn (.basic msgIdPing) ++
    frameOut ++ operations 1

/-- **A STOP is swallowed.**  It is complete while the controller waits for an
acknowledgement, and a message that comes in later is dispatched, but no axis has
been stopped. -/
theorem stop_swallowed :
    ∃ m, run Monitor.step (.init conf (.init defaultCalibration)) stopDuringReply = some m ∧
      m.log = connectedLog ++
        [ .polled (.basic msgIdGetStatus)
        , .acted ⟨.dispatch (.basic msgIdGetStatus), ()⟩
        , .acted ⟨.getStatus, .idle⟩
        , .waited (.basic msgIdStop)
        , .acted ⟨.getStatus, .idle⟩
        , .polled (.basic msgIdPing)
        , .acted ⟨.dispatch (.basic msgIdPing), ()⟩ ] :=
  ⟨_, rfl, rfl⟩

end MPMTTestStand

end MpmtTestStand.Ports
