import MpmtTestStand.Ports.StandRules

/-!
# States that the controller reaches

`Recorder.Reached` collects the states of all runs of the controller, those after
another host has connected included: between two rounds the receiver may be in any
state.  What `Maintains` shows of the runs from `setup` on holds of all of them
(`Maintains.reached`), and the reached states are closed under going back in the
history (`Recorder.Reached.earlier`).
-/

namespace MpmtTestStand.Ports

open MpmtTestStand.Verified
open MpmtTestStand.Verified.Run

namespace MPMTTestStand

namespace Recorder

/-- The receiver in another state. -/
def withRx (m : Recorder) (rx : Receiver) : Recorder :=
  ⟨⟨⟨rx, m.controller.node.prog⟩, m.controller.stand⟩, m.history⟩

/-- The states that the controller reaches; `resume` leaves it open what has become
of the receiver between two rounds. -/
inductive Reached (conf : Config) (cal : Calibration) : Recorder → Prop
  | init : Reached conf cal (init conf cal)
  | step {m m' : Recorder} (e : ControllerEvent) (h : Reached conf cal m)
      (hstep : m.step e = some m') : Reached conf cal m'
  | resume {m : Recorder} (rx : Receiver) (h : Reached conf cal m)
      (hprog : m.controller.node.prog = .ret .running) : Reached conf cal (m.withRx rx)

namespace Reached

variable {conf : Config} {cal : Calibration} {m m' : Recorder} {events : List ControllerEvent}

theorem steps (h : Reached conf cal m) (hrun : run Recorder.step m events = some m') :
    Reached conf cal m' :=
  run_invariant Recorder.step (fun _ => True) (fun _ e _ _ hstep h => h.step e hstep)
    (fun _ _ => trivial) hrun h

theorem of_run (hrun : run Recorder.step (Recorder.init conf cal) events = some m) :
    Reached conf cal m :=
  Reached.init.steps hrun

/-- The history leads from the constructor to the present state. -/
theorem leads (h : Reached conf cal m) : Leads (.init cal) m.history m.controller.stand := by
  induction h with
  | init => rfl
  | resume _ _ _ ih => exact ih
  | step e _ hstep ih =>
      rcases step_history hstep with ⟨hhistory, hstand⟩ | ⟨ev, hhistory, hhappens⟩
      · rwa [hhistory, hstand]
      · rw [hhistory]
        exact ⟨ih, hhappens⟩

/-- **Every part of the history was once the whole**, and led to the state that the
next entry found. -/
theorem earlier (h : Reached conf cal m) {new old : List Entry} {e : Entry}
    (hsplit : m.history = new ++ e :: old) :
    ∃ m1, Reached conf cal m1 ∧ m1.history = old ∧ m1.controller.stand = e.before := by
  induction h generalizing new with
  | init => simp [Recorder.init] at hsplit
  | resume _ _ _ ih => exact ih hsplit
  | @step m m' ev hm hstep ih =>
      rcases step_history hstep with ⟨hhistory, -⟩ | ⟨ev, hhistory, -⟩
      · exact ih (hhistory ▸ hsplit)
      · rw [hhistory] at hsplit
        cases new with
        | nil =>
            obtain ⟨rfl, rfl⟩ := List.cons.inj hsplit
            exact ⟨m, hm, rfl, rfl⟩
        | cons x new => exact ih (List.cons.inj hsplit).2

theorem suffix (h : Reached conf cal m) {new old : List Entry} (hsplit : m.history = new ++ old) :
    ∃ m1, Reached conf cal m1 ∧ m1.history = old := by
  induction new using List.reverseRecOn generalizing old with
  | nil => exact ⟨m, h, hsplit⟩
  | append_singleton new e _ =>
      rw [List.append_assoc] at hsplit
      obtain ⟨m1, hm1, hold, -⟩ := h.earlier hsplit
      exact ⟨m1, hm1, hold⟩

end Reached

end Recorder

namespace Maintains

variable {cal : Calibration} {I : TestStand → List Entry → Prop}
  {J : Phase → Record cal → Prop} {conf : Config} {m : Recorder}

/-- The program is safe in every state that is reached. -/
theorem reachedSafe (h : Maintains conf cal I J) (hm : Recorder.Reached conf cal m) :
    m.IsSafe I J := by
  induction hm with
  | init => exact h.isSafe (run_nil Recorder.step _)
  | step e _ hstep ih => exact ih.step h.round hstep
  | @resume m rx _ hprog ih =>
      obtain ⟨hleads, hsafe⟩ := ih
      rw [hprog] at hsafe
      refine ⟨hleads, ?_⟩
      show SafeProg I J m.controller.node.prog _
      rw [hprog]
      -- the receiver does not matter between two rounds
      exact h.ret (h.quiet _ _ _ hsafe.returns ⟨[], rfl, by simp, rfl⟩)

/-- **An invariant of the rounds holds of every state that is reached.** -/
theorem reached (h : Maintains conf cal I J) (hm : Recorder.Reached conf cal m) :
    I m.controller.stand m.history :=
  let ⟨_, hsafe⟩ := h.reachedSafe hm
  hsafe.holds

end Maintains

end MPMTTestStand

end MpmtTestStand.Ports
