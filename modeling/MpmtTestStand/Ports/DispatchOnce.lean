import MpmtTestStand.Ports.Exchange
import MpmtTestStand.Ports.StopHandling

/-!
# One dispatch for one message

The controller dispatches at most one message for each position in what it has read, since it
has to read the end of another message before it dispatches again.  So the position tells for
which request of the host it has performed an operation; this holds in every run, also when
calls have failed.
-/

namespace MpmtTestStand.Ports

open MpmtTestStand.Verified
open MpmtTestStand.Verified.Run
open MPMTTestStand

/-! ## Positions -/

/-- The operations in a log, each with the number of bytes that had been read. -/
def performed (log : List Obs) : List (Acted × Nat) :=
  log.filterMap fun
    | .acted a got => some (a, got)
    | _ => none

/-- The position of a dispatch. -/
def dispatchEnd? : Acted × Nat → Option Nat
  | (⟨.dispatch _, _⟩, got) => some got
  | _ => none

/-- The positions at which messages have been dispatched. -/
def dispatchEnds (ops : List (Acted × Nat)) : List Nat := ops.filterMap dispatchEnd?

theorem performed_append (log new : List Obs) :
    performed (log ++ new) = performed log ++ performed new :=
  List.filterMap_append

theorem performed_handled (p : Packet) (got : Nat) (ops : List Acted) :
    performed (handled p got ops) = (⟨.dispatch p, ()⟩ :: ops).map fun a => (a, got) := by
  rw [performed, handled, List.filterMap_map]
  exact congrFun (List.filterMap_eq_map (f := fun a => (a, got))) _

theorem dispatchEnds_append (ops new : List (Acted × Nat)) :
    dispatchEnds (ops ++ new) = dispatchEnds ops ++ dispatchEnds new :=
  List.filterMap_append

/-- What the host does is not an operation. -/
theorem performed_results {n : Node noOps (SerialResult × HostValue)} (c : HostCall) :
    performed (n.results c) = [] := by
  unfold Node.results
  split <;> rfl

theorem dispatchEnd_of_ne {a : Acted} (ha : ∀ q, a.op ≠ .dispatch q) (got : Nat) :
    dispatchEnd? (a, got) = none := by
  obtain ⟨op, res⟩ := a
  cases op with
  | dispatch q => exact absurd rfl (ha q)
  | _ => rfl

/-- Where the positions increase, there is one dispatch for a position. -/
theorem split_unique {ops before after before' after' : List (Acted × Nat)} {d d' : Acted × Nat}
    {got : Nat} (h : (dispatchEnds ops).Pairwise (· < ·)) (hd : dispatchEnd? d = some got)
    (hd' : dispatchEnd? d' = some got) (hsplit : ops = before ++ d :: after)
    (hsplit' : ops = before' ++ d' :: after') : d :: after = d' :: after' := by
  -- two dispatches for the same position would not be in order
  have htwice {front mid rest : List (Acted × Nat)} {x y : Acted × Nat}
      (hops : ops = front ++ x :: (mid ++ y :: rest)) (hx : dispatchEnd? x = some got)
      (hy : dispatchEnd? y = some got) : False := by
    rw [hops, dispatchEnds_append, dispatchEnds, dispatchEnds, List.filterMap_cons_some hx,
      List.filterMap_append, List.filterMap_cons_some hy] at h
    have htail := (List.pairwise_append.mp h).2.1
    have hlt : got < got := List.rel_of_pairwise_cons htail (by simp)
    exact absurd hlt (Nat.lt_irrefl _)
  rw [hsplit] at hsplit'
  rcases List.append_eq_append_iff.mp hsplit' with ⟨mid, hbefore, hafter⟩ | ⟨mid, hbefore, hafter⟩
  · cases mid with
    | nil => exact hafter
    | cons x mid =>
        obtain ⟨rfl, rfl⟩ := List.cons.inj hafter
        exact (htwice hsplit hd hd').elim
  · cases mid with
    | nil => exact hafter.symm
    | cons x mid =>
        obtain ⟨rfl, rfl⟩ := List.cons.inj hafter
        rw [hbefore, List.append_assoc] at hsplit
        exact (htwice hsplit hd' hd).elim

/-! ## Runs -/

/-- The positions of the dispatches so far increase, and a message that has been received but
not dispatched ends behind them. -/
structure HostLink.Ordered (l : HostLink) (pt : Point) : Prop where
  at_point : At l.controller.node.rx pt l.controller.node.prog
  increasing : (dispatchEnds (performed l.log)).Pairwise (· < ·)
  read : ∀ n ∈ dispatchEnds (performed l.log), n ≤ l.host.out.got
  owed : pt.owed ≠ [] → ∀ n ∈ dispatchEnds (performed l.log), n < l.host.out.got

section Ordered

variable {l l' : HostLink} {pt : Point}

/-- No message is dispatched. -/
theorem HostLink.Ordered.keep {pt' : Point} (h : l.Ordered pt)
    (hat : At l'.controller.node.rx pt' l'.controller.node.prog)
    (hlog : dispatchEnds (performed l'.log) = dispatchEnds (performed l.log))
    (hgot : l.host.out.got ≤ l'.host.out.got)
    (howed : pt'.owed ≠ [] → pt.owed ≠ [] ∨ l.host.out.got < l'.host.out.got) :
    l'.Ordered pt' where
  at_point := hat
  increasing := by
    rw [hlog]
    exact h.increasing
  read n hn := by
    rw [hlog] at hn
    exact (h.read n hn).trans hgot
  owed hpt n hn := by
    rw [hlog] at hn
    rcases howed hpt with hold | hread
    · exact (h.owed hold n hn).trans_le hgot
    · exact (h.read n hn).trans_lt hread

/-- Behind an operation no message waits to be dispatched. -/
theorem MPMTTestStand.Acts.owed {pt' : Point} {a : Acted} (h : Acts pt a pt') : pt'.owed = [] := by
  have hcontinues {p : Packet} {ops : List Acted} (h : Continues p ops pt') : pt'.owed = [] := by
    cases h <;> rfl
  cases h with
  | own => rfl
  | dispatch _ _ h => exact hcontinues h
  | handle _ _ _ _ _ _ h => exact hcontinues h

/-- A message is received with its last byte. -/
theorem MPMTTestStand.Moves.owed {n : Node standSig Phase} {s : Signal} {pt' : Point}
    (h : Moves pt (traces n s) pt') (hpt : pt'.owed ≠ []) :
    pt.owed ≠ [] ∨ ∃ b, s = .byte b := by
  generalize hnew : traces n s = new at h
  cases h with
  | stay => exact .inl hpt
  | free _ _ _ _ hfree => cases hfree <;> exact absurd rfl hpt
  | receive phase p =>
      refine .inr ?_
      cases s with
      | byte b => exact ⟨b, rfl⟩
      | _ => unfold traces at hnew; split at hnew <;> simp_all
  | ack => exact .inl hpt
  | acked => exact .inl (List.cons_ne_nil _ _)
  | ackFailed => exact absurd rfl hpt
  | act _ _ _ hacts => exact absurd hacts.owed hpt

/-- A signal to the controller: the position moves on with every byte that is read. -/
theorem HostLink.Ordered.signal {s : Signal} {node : Node standSig Phase} {data : List UInt8}
    {inbox : Channel} (h : l.Ordered pt)
    (hsignal : l.controller.node.signal s = some (node, data))
    (hgot : l.host.out.got ≤ inbox.got) (hread : ∀ b, s = .byte b → l.host.out.got < inbox.got)
    (out : Channel) : ∃ pt', (l.setParty ⟨node, out⟩ inbox).Ordered pt' := by
  obtain ⟨pt', hmoves, hat⟩ := signal_moves h.at_point hsignal
  refine ⟨pt', h.keep hat rfl hgot fun hpt => ?_⟩
  rcases hmoves.owed hpt with hold | ⟨b, hb⟩
  · exact .inl hold
  · exact .inr (hread b hb)

theorem HostLink.Ordered.controller {e : PartyEvent} {party : Party standSig Phase}
    {inbox : Channel} {heard : Option Packet} (h : l.Ordered pt)
    (hparty : (Party.mk l.controller.node l.out).step l.host.out e = some (party, inbox, heard)) :
    ∃ pt', (l.setParty party inbox).Ordered pt' := by
  cases Party.step_cases hparty with
  | wrote node data hsignal =>
      exact h.signal hsignal (Nat.le_refl _) (fun b hb => by cases hb) _
  | deliver b queue node data hqueue hsignal =>
      exact h.signal hsignal (Nat.le_succ _) (fun _ _ => Nat.lt_succ_self _) _
  | quiet node data hsignal =>
      exact h.signal hsignal (Nat.le_refl _) (fun b hb => by cases hb) _
  | timeout node data hsignal =>
      exact h.signal hsignal (Nat.le_refl _) (fun b hb => by cases hb) _

/-- An operation of the controller. -/
theorem HostLink.Ordered.act {c : Controller} {around : Outside} {a : Acted}
    (h : l.Ordered pt) (hact : l.controller.act around = some (c, a)) :
    ∃ pt', ({ l with controller := c, log := l.log ++ [.acted a l.host.out.got] } :
      HostLink).Ordered pt' := by
  obtain ⟨-, pt', hacts, hat⟩ := h.at_point.act hact
  have hnothing := hacts.owed
  have hlog : dispatchEnds (performed (l.log ++ [.acted a l.host.out.got])) =
      dispatchEnds (performed l.log) ++ dispatchEnds [(a, l.host.out.got)] := by
    rw [performed_append, dispatchEnds_append]
    rfl
  have hother (ha : ∀ q, a.op ≠ .dispatch q) : ({ l with
      controller := c
      log := l.log ++ [.acted a l.host.out.got] } : HostLink).Ordered pt' := by
    refine h.keep hat ?_ (Nat.le_refl _) fun hpt => absurd hnothing hpt
    have hnone : dispatchEnds [(a, l.host.out.got)] = [] :=
      List.filterMap_cons_none (dispatchEnd_of_ne ha _)
    rw [hlog, hnone, List.append_nil]
  cases hacts with
  | own _ _ ha => exact ⟨_, hother ha⟩
  | handle _ _ _ _ ha => exact ⟨_, hother ha⟩
  | dispatch p _ _ =>
      have hbefore := h.owed (List.cons_ne_nil _ _)
      have hends : dispatchEnds (performed (l.log ++
          [.acted ⟨.dispatch p, ()⟩ l.host.out.got])) =
          dispatchEnds (performed l.log) ++ [l.host.out.got] := hlog
      refine ⟨pt', hat, ?_, fun n hn => ?_, fun hpt => absurd hnothing hpt⟩
      · rw [hends]
        refine List.pairwise_append.mpr ⟨h.increasing, List.pairwise_singleton _ _, ?_⟩
        intro n hn m hm
        rw [List.mem_singleton.mp hm]
        exact hbefore n hn
      · rw [hends] at hn
        rcases List.mem_append.mp hn with hn | hn
        · exact h.read n hn
        · exact (List.mem_singleton.mp hn).le

theorem HostLink.Ordered.step {e : LinkEvent} (h : l.Ordered pt) (hstep : l.step e = some l') :
    ∃ pt', l'.Ordered pt' := by
  cases HostLink.step_cases hstep with
  | call c res hret =>
      refine ⟨pt, h.keep h.at_point ?_ (Nat.le_refl _) .inl⟩
      rw [performed_append]
      show dispatchEnds (performed l.log ++ performed (Node.results _ c)) = _
      rw [performed_results, List.append_nil]
  | host e host out heard hparty =>
      obtain ⟨data, hout⟩ := Party.step_push hparty
      refine ⟨pt, h.keep h.at_point ?_ ?_ .inl⟩
      · rw [performed_append, performed_results, List.append_nil]
      · rw [hout]
        exact Nat.le_refl _
  | controller e party inbox heard hparty => exact h.controller hparty
  | act around controller a hact => exact h.act hact
  | loop controller hloop =>
      obtain ⟨phase, rfl, -, hat⟩ := h.at_point.loop hloop
      exact ⟨_, h.keep hat rfl (Nat.le_refl _) .inl⟩
  | interrupt id e controller hinterrupt =>
      have hnode : controller.node = l.controller.node := by
        unfold Controller.interrupt at hinterrupt
        split at hinterrupt
        · obtain rfl := Option.some.inj hinterrupt
          rfl
        · cases hinterrupt
      have hat := h.at_point
      rw [← hnode] at hat
      exact ⟨pt, h.keep hat rfl (Nat.le_refl _) .inl⟩

/-- Nothing has been dispatched. -/
theorem HostLink.Ordered.init (stand : TestStand) :
    (HostLink.init stand).Ordered (.idle .running) :=
  ⟨.between _, .nil, fun _ hn => absurd hn List.not_mem_nil, fun h => absurd rfl h⟩

/-- **Every message is dispatched once**: in every run the positions of the dispatches
increase. -/
theorem HostLink.dispatchEnds_increasing {stand : TestStand} {events : List LinkEvent}
    (hrun : run HostLink.step (.init stand) events = some l) :
    (dispatchEnds (performed l.log)).Pairwise (· < ·) := by
  let ordered (q : HostLink) : Prop := ∃ pt, q.Ordered pt
  have hordered : ordered l := run_invariant HostLink.step (fun _ => True)
    (fun _ _ _ _ hstep ⟨_, h⟩ => h.step hstep) (fun _ _ => trivial) hrun
    ⟨_, .init stand⟩
  obtain ⟨pt, h⟩ := hordered
  exact h.increasing

end Ordered

end MpmtTestStand.Ports
