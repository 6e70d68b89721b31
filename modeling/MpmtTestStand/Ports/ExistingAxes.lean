import MpmtTestStand.Ports.Ledger

/-!
# Every axis that is started exists

`start_axis` does not ask whether `get_axis` has found an axis, and `handle_move` passes
on the axis byte of any MOVE of the right size.  So the main program can come to the start
of an axis that does not exist, which has no defined effect.  `Performable` says of a
program that it does not, as long as every MOVE that it reads names an axis: a weakest
precondition, by recursion on the program.

The host makes its MOVEs from an enumeration.  As long as no call has failed, the
controller reads nothing else than its requests and acknowledgements, and it can always
go on.

## Main results

* `always_performed` — the controller can perform whatever operation it has come to: it
  never starts an axis that does not exist.
-/

namespace MpmtTestStand.Ports

open MpmtTestStand.Verified
open MpmtTestStand.Verified.Run
open MPMTTestStand

/-! ## Operations and messages -/

/-- The operation has an effect: an axis that is started exists. -/
def StandOp.Defined : StandOp → Prop
  | .axisStart raw _ => ∃ id : AxisId, raw = id.toByte
  | _ => True

theorem StandOp.Defined.perform {o : StandOp} (h : o.Defined) (s : TestStand)
    (around : Outside) : ∃ r s', s.perform around o = some (r, s') := by
  cases o with
  | axisStart raw motion =>
      obtain ⟨id, rfl⟩ := h
      exact ⟨((s.axis id).startAxis motion).1, s.setAxis id ((s.axis id).startAxis motion).2,
        by simp only [TestStand.perform, AxisId.ofByte?_toByte]⟩
  | _ => exact ⟨_, _, rfl⟩

/-- A MOVE of the right size names an axis. -/
def Packet.NamesAxis (p : Packet) : Prop :=
  p.id = msgIdMove → p.payload.length = MoveMsgData.size.toNat →
    ∃ id : AxisId, (MoveMsgData.ofBytes p.payload).axis = id.toByte

theorem Packet.NamesAxis.of_ne {p : Packet} (h : p.id ≠ msgIdMove) : p.NamesAxis :=
  fun hid => absurd hid h

/-- Every request of the host does. -/
theorem HostCall.namesAxis (c : HostCall) : c.request.NamesAxis := by
  cases c with
  | move axis dir velHold distCounts timeoutMs =>
      rw [Packet.NamesAxis, HostCall.ofBytes_move]
      exact fun _ _ => ⟨axis, rfl⟩
  | ping => exact .of_ne (show msgIdPing ≠ msgIdMove by decide)
  | echo | linkCheck => exact .of_ne (show msgIdEcho ≠ msgIdMove by decide)
  | getStatus => exact .of_ne (show msgIdGetStatus ≠ msgIdMove by decide)
  | home => exact .of_ne (show msgIdHome ≠ msgIdMove by decide)
  | stop => exact .of_ne (show msgIdStop ≠ msgIdMove by decide)
  | getPosition => exact .of_ne (show msgIdGetPosition ≠ msgIdMove by decide)
  | getTemp => exact .of_ne (show msgIdGetTemp ≠ msgIdMove by decide)
  | getAxisState => exact .of_ne (show msgIdGetAxisState ≠ msgIdMove by decide)
  | calibrate => exact .of_ne (show msgIdCalibrate ≠ msgIdMove by decide)

/-! ## Programs -/

namespace MPMTTestStand

variable {α β : Type}

/-- With the receiver `rx`, every operation that the program comes to is defined, whatever
the answers, as long as the messages that it reads name axes; and `post` holds when it
returns. -/
def Performable (post : α → Receiver → Prop) : StandProg α → Receiver → Prop
  | .ret a, rx => post a rx
  | .op (.act o) k, rx => o.Defined ∧ ∀ r, Performable post (k r) rx
  | .op .look k, rx => Performable post (k rx) rx
  | .op (.serWrite _) k, rx => ∀ ok, Performable post (k ok) rx
  | .op .checkForMessage k, _ =>
      ∀ found rx, (found = true → rx.msg.packet.NamesAxis) → Performable post (k found) rx
  | .op (.recvMessage _) k, _ =>
      ∀ found rx, (found = true → rx.msg.packet.NamesAxis) → Performable post (k found) rx

/-- An operation that is defined, if it is one of the main program. -/
def Tame (o : LinkOp standSig) : Prop := ∀ s : StandOp, o = .act s → s.Defined

namespace Performable

variable {post : α → Receiver → Prop} {p : StandProg α} {rx : Receiver}

/-- Looking takes no time. -/
theorem settle (h : Performable post p rx) : Performable post (p.settle (answerLook rx)) rx := by
  induction p with
  | ret a => exact h
  | op o k ih =>
      cases o with
      | look => exact ih rx h
      | act | serWrite | checkForMessage | recvMessage => exact h

theorem mono {post' : α → Receiver → Prop} (h : Performable post p rx)
    (hpost : ∀ a rx, post a rx → post' a rx) : Performable post' p rx := by
  induction p generalizing rx with
  | ret a => exact hpost a rx h
  | op o k ih =>
      cases o with
      | act o => exact ⟨h.1, fun r => ih r (h.2 r)⟩
      | look => exact ih rx h
      | serWrite data => exact fun ok => ih ok (h ok)
      | checkForMessage => exact fun found rx' hfound => ih found (h found rx' hfound)
      | recvMessage t => exact fun found rx' hfound => ih found (h found rx' hfound)

/-- One program after the other. -/
theorem bind {post : β → Receiver → Prop} {p : StandProg α} {f : α → StandProg β}
    (h : Performable (fun a rx' => Performable post (f a) rx') p rx) :
    Performable post (p >>= f) rx := by
  induction p generalizing rx with
  | ret a => exact h
  | op o k ih =>
      cases o with
      | act o => exact ⟨h.1, fun r => ih r (h.2 r)⟩
      | look => exact ih rx h
      | serWrite data => exact fun ok => ih ok (h ok)
      | checkForMessage => exact fun found rx' hfound => ih found (h found rx' hfound)
      | recvMessage t => exact fun found rx' hfound => ih found (h found rx' hfound)

theorem act {o : StandOp} {f : o.Res → StandProg α} (ho : o.Defined)
    (hf : ∀ r, Performable post (f r) rx) : Performable post (stand o >>= f) rx :=
  ⟨ho, hf⟩

/-- A program without undefined operations, before one that is performable in any case. -/
theorem of_only {p : StandProg β} {f : β → StandProg α} (hp : Prog.Only Tame p)
    (hf : ∀ b rx, Performable post (f b) rx) : Performable post (p >>= f) rx := by
  induction hp generalizing rx with
  | ret b => exact hf b rx
  | @op o k ho _ ih =>
      cases o with
      | act s => exact ⟨ho s rfl, fun r => ih r⟩
      | look => exact ih rx
      | serWrite data => exact fun ok => ih ok
      | checkForMessage => exact fun found rx' _ => ih found
      | recvMessage t => exact fun found rx' _ => ih found

theorem tame {p : StandProg α} (hp : Prog.Only Tame p) : Performable (fun _ _ => True) p rx := by
  rw [← Prog.bind_ret p]
  exact of_only hp fun _ _ => trivial

/-- Writing leaves the receiver alone. -/
theorem writePieces {f : Bool → StandProg α} (pieces : List (List UInt8))
    (hf : ∀ ok, Performable post (f ok) rx) :
    Performable post (SerialTransport.writePieces pieces >>= f) rx := by
  induction pieces with
  | nil => exact hf true
  | cons piece rest ih =>
      intro ok
      cases ok with
      | false => exact hf false
      | true => exact ih

end Performable

/-! ### The main program -/

theorem tame_stand {o : StandOp} (ho : o.Defined) : Prog.Only Tame (stand o) :=
  .perform (S := linkSig standSig) fun s hs => by
    cases hs
    exact ho

/-- The session layer performs no operation of the main program. -/
theorem tame_sendMessage (p : Packet) :
    Prog.Only Tame (SerialSession.sendMessage p : StandProg SerialResult) := by
  have hwrites : ∀ pieces,
      Prog.Only Tame (SerialTransport.writePieces pieces : StandProg Bool) := by
    intro pieces
    induction pieces with
    | nil => exact .ret true
    | cons piece rest ih =>
        refine .op nofun fun ok => ?_
        cases ok with
        | false => exact .ret false
        | true => exact ih
  refine .op nofun fun rx => ?_
  change Prog.Only (S := linkSig standSig) Tame (if rx.transport.msgInProgress then _ else _)
  refine .ite (.ret _) ((hwrites _).bind fun written => .ite ?_ (.ret _))
  refine .op nofun fun complete => ?_
  change Prog.Only (S := linkSig standSig) Tame (if complete then _ else _)
  refine .ite (.op nofun fun rx => ?_) (.ret _)
  exact .ite (.ret _) (.ret _)

theorem tame_anyMoving : Prog.Only Tame anyMoving :=
  (tame_stand (o := .moving .x) trivial).orM (tame_stand (o := .moving .y) trivial)

theorem tame_anyLsPressed : Prog.Only Tame anyLsPressed := by
  refine (tame_stand (o := .lsHomePressed .x) trivial).orM ?_
  refine (tame_stand (o := .lsFarPressed .x) trivial).orM ?_
  refine (tame_stand (o := .lsHomePressed .y) trivial).orM ?_
  exact tame_stand (o := .lsFarPressed .x) trivial

/-- The starts of the homing routine are of axes known by name. -/
theorem tame_axisStart (id : AxisId) (motion : AxisMotionSpec) :
    Prog.Only Tame (axisStart id motion) :=
  tame_stand (o := .axisStart id.toByte motion) ⟨id, rfl⟩

theorem tame_homeA : Prog.Only Tame handleHomeA := by
  refine (tame_stand (o := .getCal) trivial).bind fun cal => ?_
  refine (tame_axisStart .x _).bind fun _ => (tame_axisStart .y _).bind fun _ => ?_
  refine (tame_stand (o := .setHomeADone false) trivial).bind fun _ => ?_
  exact tame_stand (o := .setStatus .homing) trivial

theorem tame_homeB : Prog.Only Tame handleHomeB := by
  refine (tame_stand (o := .getCal) trivial).bind fun cal => ?_
  refine (tame_axisStart .x _).bind fun _ => (tame_axisStart .y _).bind fun _ => ?_
  refine (tame_stand (o := .setHomeADone true) trivial).bind fun _ => ?_
  exact tame_stand (o := .setStatus .homing) trivial

theorem tame_updateStatus : Prog.Only Tame updateStatus := by
  have hset := fun status => tame_stand (o := .setStatus status) trivial
  refine (tame_stand (o := .getStatus) trivial).bind fun status => ?_
  cases status with
  | idle => exact .ret ()
  | fault => exact .ret ()
  | moving =>
      refine tame_anyMoving.bind fun _ => .ite (hset .moving) ?_
      exact tame_anyLsPressed.bind fun _ => .ite (hset .fault) (hset .idle)
  | homing =>
      refine (tame_stand (o := .getHomeADone) trivial).bind fun _ => .ite ?_ ?_
      · refine tame_anyMoving.bind fun _ => .ite (hset .homing) ?_
        refine .bind ?_ fun _ => .ite tame_homeB (hset .fault)
        exact (tame_stand (o := .lsHomePressed .x) trivial).andM
          (tame_stand (o := .lsHomePressed .y) trivial)
      · refine tame_anyMoving.bind fun _ => .ite (hset .homing) ?_
        refine (tame_stand (o := .axisReset .x) trivial).bind fun _ => ?_
        refine (tame_stand (o := .axisReset .y) trivial).bind fun _ => ?_
        refine (hset .idle).bind fun _ => ?_
        exact tame_stand (o := .setHomeADone false) trivial

section Handlers

variable {rx : Receiver}

/-- A MOVE of the right size names an axis, and another is refused. -/
theorem performable_handleMove (hmsg : rx.msg.packet.NamesAxis) (hid : rx.msg.id = msgIdMove) :
    Performable (fun _ _ => True) handleMove rx := by
  have hanswer := fun res => tame_sendMessage (TestStandCommController.axisResultPacket res)
  have hrecv := TestStandCommController.recvMove_payload rx.msg
  by_cases hsize : rx.msg.packet.payload.length = MoveMsgData.size.toNat
  · rw [if_neg (not_not.mpr hsize)] at hrecv
    simp only [handleMove, look_bind, Performable, hrecv]
    refine .act trivial fun cal => .act (hmsg hid hsize) fun res => .tame ?_
    refine .ite ((tame_stand (o := .setStatus .moving) trivial).bind fun _ => ?_) ?_
    · exact (hanswer res).bind fun _ => .ret ()
    · exact (hanswer res).bind fun _ => .ret ()
  · rw [if_pos hsize] at hrecv
    simp only [handleMove, look_bind, Performable, hrecv]
    exact .tame ((hanswer .errInvalid).bind fun _ => .ret ())

/-- The handler of every other message. -/
theorem tame_handle {id : UInt8} (hid : id ≠ msgIdMove) : Prog.Only Tame (handle id) := by
  unfold handle
  refine .ite ?_ (.ite tame_homeA ?_)
  · exact .op nofun fun r => (tame_sendMessage _).bind fun _ => .ret ()
  rw [if_neg hid]
  refine .ite ?_ (.ite ?_ (.ite ?_ (.ite (.ret ()) (.ite ?_ (.ite ?_ (.ret ()))))))
  · refine (tame_stand (o := .axisStop .x) trivial).bind fun _ => ?_
    refine (tame_stand (o := .axisStop .y) trivial).bind fun _ => ?_
    exact tame_stand (o := .setStatus .idle) trivial
  · refine (tame_stand (o := .getStatus) trivial).bind fun status => ?_
    exact (tame_sendMessage _).bind fun _ => .ret ()
  · refine (tame_stand (o := .firstArgument) trivial).bind fun first => ?_
    cases first with
    | x =>
        refine (tame_stand (o := .encoderCurrent .x) trivial).bind fun x => ?_
        refine (tame_stand (o := .encoderCurrent .y) trivial).bind fun y => ?_
        exact (tame_sendMessage _).bind fun _ => .ret ()
    | y =>
        refine (tame_stand (o := .encoderCurrent .y) trivial).bind fun y => ?_
        refine (tame_stand (o := .encoderCurrent .x) trivial).bind fun x => ?_
        exact (tame_sendMessage _).bind fun _ => .ret ()
  · refine (tame_stand (o := .readTempData) trivial).bind fun temp => ?_
    exact (tame_sendMessage _).bind fun _ => .ret ()
  · refine .op nofun fun r => (tame_stand (o := .getCal) trivial).bind fun cal => ?_
    split
    · exact tame_stand (o := .setCal _) trivial
    · exact .ret ()

/-- **The handler** of a message that names an axis, if it is a MOVE. -/
theorem performable_handle (hmsg : rx.msg.packet.NamesAxis) :
    Performable (fun _ _ => True) (handle rx.msg.id) rx := by
  by_cases hid : rx.msg.id = msgIdMove
  · have hhandle : handle rx.msg.id = handleMove := by
      rw [hid]
      rfl
    rw [hhandle]
    exact performable_handleMove hmsg hid
  · exact .tame (tame_handle hid)

/-- A message that has been acknowledged names an axis, if it is a MOVE. -/
theorem performable_checkForMessage :
    Performable (fun res rx' => res = .ok → rx'.msg.packet.NamesAxis)
      SerialSession.checkForMessage rx := by
  intro found rx' hmsg
  cases found with
  | false => exact nofun
  | true =>
      change Performable _ (if _ then _ else _) rx'
      split
      · exact nofun
      · refine Performable.writePieces _ fun ok => ?_
        cases ok with
        | false => exact nofun
        | true => exact fun _ => hmsg rfl

/-- **A round of the main loop.** -/
theorem performable_round (phase : Phase) : Performable (fun _ _ => True) phase.prog rx := by
  cases phase with
  | connecting =>
      refine .tame ((tame_sendMessage _).bind fun res => .ite ?_ (.ret _))
      exact (tame_stand (o := .setStatus .idle) trivial).bind fun _ => .ret _
  | running =>
      refine .bind ?_
      refine .of_only tame_updateStatus fun _ rx => .bind ?_
      refine performable_checkForMessage.mono fun res rx hmsg => ?_
      unfold serve
      split
      · exact ⟨trivial, fun _ => performable_handle (hmsg ‹_›)⟩
      · trivial

end Handlers

/-- **A signal** keeps the program performable, if the message that it completes names an
axis. -/
theorem Performable.signal {α : Type} {post : α → Receiver → Prop} {n n' : Node standSig α}
    {s : Signal} {out : List UInt8} (h : Performable post n.prog n.rx)
    (hsignal : n.signal s = some (n', out))
    (hheard : ∀ b, s = .byte b → (n.rx.readByte b).2 = true →
      (n.rx.readByte b).1.msg.packet.NamesAxis) : Performable post n'.prog n'.rx := by
  obtain ⟨rx, prog⟩ := n
  -- a byte ends the operation that reads, or leaves it as it is
  have hreads : ∀ (k : Bool → StandProg α) (b : UInt8), s = .byte b →
      (∀ rx, Performable post prog rx) →
      (∀ found rx, (found = true → rx.msg.packet.NamesAxis) → Performable post (k found) rx) →
      Performable post (Node.hear ⟨rx, prog⟩ k b).prog (Node.hear ⟨rx, prog⟩ k b).rx := by
    intro k b hb hsame hk
    unfold Node.hear
    split
    · exact (hk true _ fun _ => hheard b hb ‹_›).settle
    · exact hsame _
  cases prog with
  | ret a => cases s <;> cases hsignal
  | op o k =>
      cases o with
      | act | look => cases s <;> cases hsignal
      | serWrite data =>
          cases s with
          | wrote | writeFailed =>
              obtain ⟨rfl, -⟩ := Prod.mk.inj (Option.some.inj hsignal)
              exact (h _).settle
          | _ => cases hsignal
      | checkForMessage =>
          cases s with
          | byte b =>
              obtain ⟨rfl, -⟩ := Prod.mk.inj (Option.some.inj hsignal)
              exact hreads k b rfl (fun _ => h) h
          | quiet =>
              obtain ⟨rfl, -⟩ := Prod.mk.inj (Option.some.inj hsignal)
              exact (h false rx nofun).settle
          | _ => cases hsignal
      | recvMessage t =>
          cases s with
          | byte b =>
              obtain ⟨rfl, -⟩ := Prod.mk.inj (Option.some.inj hsignal)
              exact hreads k b rfl (fun _ => h) h
          | timeout =>
              obtain ⟨rfl, -⟩ := Prod.mk.inj (Option.some.inj hsignal)
              exact (h false _ nofun).settle
          | _ => cases hsignal

end MPMTTestStand

/-! ## The whole system -/

/-- The program of the controller is performable. -/
def Controller.Performable (c : Controller) : Prop :=
  MPMTTestStand.Performable (fun _ _ => True) c.node.prog c.node.rx

section System

variable {l l' : HostLink} {unwritten : List UInt8} {pt : Point}
  {leaving coming : List (Packet × Nat)}

/-- Nothing but a request and an acknowledgement is on its way to the controller. -/
theorem Stage.namesAxis (h : Stage l unwritten pt leaving coming) :
    ∀ x ∈ leaving, x.1.NamesAxis := by
  have hack : ackPacket.NamesAxis := .of_ne (show msgIdAck ≠ msgIdMove by decide)
  have hclear : ∀ {pt left}, Clear pt left → ∀ x ∈ left, x.1.NamesAxis := by
    intro pt left h x hx
    cases h with
    | lateAck | replying =>
        obtain rfl := List.mem_singleton.mp hx
        exact hack
    | _ => cases hx
  cases h with
  | rest _ _ _ h => exact hclear h
  | answering _ _ _ _ _ _ _ _ _ _ _ _ _ h => exact hclear h
  | accepted | awaiting => exact fun _ hx => nomatch hx
  | asked _ _ _ _ _ _ _ _ h =>
      intro x hx
      rcases List.mem_append.mp hx with hx | hx
      · exact hclear h x hx
      · obtain rfl := List.mem_singleton.mp hx
        exact l.call.namesAxis

/-- The next round and the next operation keep the program performable. -/
theorem Controller.Performable.act {c c' : Controller} {around : Outside} {a : Acted}
    (h : c.Performable) (hact : c.act around = some (c', a)) : c'.Performable := by
  obtain ⟨⟨rx, prog⟩, stand⟩ := c
  unfold Controller.act at hact
  split at hact
  · rename_i o k hprog
    obtain rfl : prog = .op (.act o) k := hprog
    split at hact
    · obtain ⟨rfl, -⟩ := Prod.mk.inj (Option.some.inj hact)
      exact (h.2 _).settle
    · cases hact
  · cases hact

theorem Controller.Performable.loop {c c' : Controller} (hloop : c.loop = some c') :
    c'.Performable := by
  unfold Controller.loop at hloop
  split at hloop
  · obtain rfl := Option.some.inj hloop
    exact (performable_round _).settle
  · cases hloop

/-- The operation that a performable program has come to can be performed. -/
theorem Controller.Performable.performs {o : StandOp} {k : o.Res → StandProg Phase}
    (h : l.controller.Performable) (hprog : l.controller.node.prog = .op (.act o) k)
    (around : Outside) :
    ∃ r l', l.step (.act around) = some l' ∧
      l'.controller.node = Node.resume l.controller.node.rx (k r) ∧ l'.host = l.host ∧
      l'.log = l.log ++ [.acted ⟨o, r⟩ l.host.out.got] := by
  unfold Controller.Performable at h
  rw [hprog] at h
  obtain ⟨r, s', hperform⟩ := h.1.perform l.controller.stand around
  have hact : l.controller.act around =
      some (⟨Node.resume l.controller.node.rx (k r), s'⟩, ⟨o, r⟩) := by
    simp only [Controller.act, hprog, hperform]
  refine ⟨r, { l with
    controller := ⟨Node.resume l.controller.node.rx (k r), s'⟩
    log := l.log ++ [.acted ⟨o, r⟩ l.host.out.got] }, ?_, rfl, rfl, rfl⟩
  simp only [HostLink.step, hact]

/-- **A step of the whole system** keeps the program of the controller
performable. -/
theorem InStep.performable {e : LinkEvent} (h : InStep l unwritten pt leaving coming)
    (hcan : l.controller.Performable) (hstep : l.step e = some l') :
    l'.controller.Performable := by
  cases HostLink.step_cases hstep with
  | call | host => exact hcan
  | act _ _ _ hact => exact hcan.act hact
  | loop _ hloop => exact .loop hloop
  | interrupt _ _ _ hinterrupt =>
      unfold Controller.interrupt at hinterrupt
      split at hinterrupt
      · obtain rfl := Option.some.inj hinterrupt
        exact hcan
      · cases hinterrupt
  | controller _ _ _ _ hparty =>
      cases Party.step_cases hparty with
      | wrote _ _ hsignal | quiet _ _ hsignal | timeout _ _ hsignal =>
          exact hcan.signal hsignal nofun
      | deliver b queue _ _ hqueue hsignal =>
          refine hcan.signal hsignal fun b' hb hdone => ?_
          obtain rfl := Signal.byte.inj hb
          have hleaving := h.packets.leaving
          rw [hqueue, List.cons_append] at hleaving
          rcases hleaving.read with ⟨hmore, -⟩ | ⟨-, rest, hfirst, -⟩
          · exact absurd hdone (by simp [hmore])
          · exact h.stage.namesAxis _ (hfirst ▸ List.mem_cons_self)

/-- Without a failure and without a bare ECHO the program of the controller is
performable. -/
theorem HostLink.performable {stand : TestStand} {events : List LinkEvent}
    (hrun : run HostLink.step (.init stand) events = some l) (hplain : Plain l.log) :
    l.controller.Performable := by
  let inv (q : HostLink) : Prop := Plain q.log → q.controller.Performable
  have hstep : ∀ pre e post q q', events = pre ++ e :: post →
      run HostLink.step (.init stand) pre = some q → q.step e = some q' → inv q → inv q' := by
    intro pre e _ q q' _ hpre hstep h hplain
    obtain ⟨new, hlog⟩ := HostLink.step_log hstep
    rw [hlog] at hplain
    obtain ⟨_, _, _, _, hplaced⟩ := (HostLink.inPlace hpre hplain.of_append).placed
    exact hplaced.in_step.performable (h hplain.of_append) hstep
  exact run_invariant_along HostLink.step hstep hrun (fun _ => trivial) hplain

end System

/-- **The controller only starts axes that exist.**  As long as no call has failed, and the
host makes no bare ECHO, whatever interrupts come and whatever timeouts fire at the
controller: when it has come to an operation of the main program, `perform` has an effect
for it.  It has none for the start of an unknown axis only; what the timers make of the
velocities of a start, such as a division by zero, is not in question here. -/
theorem always_performed (stand : TestStand) (events : List LinkEvent) (l : HostLink)
    (hrun : run HostLink.step (.init stand) events = some l) (hfine : Fine l.log)
    (hecho : ∀ c v, .returned c .ok v ∈ l.log → ∀ data fits, c ≠ .echo data fits)
    (o : StandOp) (k : o.Res → StandProg Phase)
    (hprog : l.controller.node.prog = .op (.act o) k) (around : Outside) :
    ∃ r l', l.step (.act around) = some l' ∧
      l'.log = l.log ++ [.acted ⟨o, r⟩ l.host.out.got] := by
  have hcan := HostLink.performable hrun ⟨hfine, hecho⟩
  obtain ⟨r, l', hstep, -, -, hlog⟩ := hcan.performs hprog around
  exact ⟨r, l', hstep, hlog⟩

/-- A MOVE has been received, and the controller is about to start the axis. -/
def aboutToStart : List LinkEvent := requestSteps moveX 10 ++ mainSteps 2

set_option maxRecDepth 4000 in
/-- The start of the X axis. -/
theorem always_performed_start :
    ∃ l, run HostLink.step (.init (.init defaultCalibration)) aboutToStart = some l ∧
      ∃ r l', l.step (.act ⟨⟨2000, 2000, 2000, 2000, 2000⟩, .x⟩) = some l' ∧
        l'.log = l.log ++ [.acted ⟨.axisStart 0 ⟨.positive, 2000, 10, 1, 1000⟩, r⟩ 16] := by
  obtain ⟨l, hrun, hlog, ⟨k, hprog⟩, hgot⟩ : ∃ l,
      run HostLink.step (.init (.init defaultCalibration)) aboutToStart = some l ∧
        l.log =
          [ .begun moveX 0
          , .acted ⟨.getStatus, .idle⟩ 0
          , .acted ⟨.dispatch moveX.request, ()⟩ 16
          , .acted ⟨.getCal, defaultCalibration⟩ 16 ] ∧
        (∃ k, l.controller.node.prog =
          .op (.act (.axisStart 0 ⟨.positive, 2000, 10, 1, 1000⟩)) k) ∧
        l.host.out.got = 16 :=
    ⟨_, rfl, rfl, ⟨_, rfl⟩, rfl⟩
  refine ⟨l, hrun, ?_⟩
  rw [← hgot]
  exact always_performed (.init defaultCalibration) aboutToStart l hrun
    (by simp [hlog, Fine, Obs.Fine]) (by simp [hlog]) _ k hprog _

end MpmtTestStand.Ports
