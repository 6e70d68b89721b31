import Mathlib.Data.List.Basic
import Mathlib.Data.List.Induction

/-!
# Runs of a transition function

Invariants of whole runs.  `exec` runs a total transition function over a list
of events, `run` a partial one, where `none` means that the event cannot happen
in that state.  The events carry all nondeterminism, so "every run" is "every
list of events".

Each rule turns a fact about one step into a fact about a run.
-/

namespace MpmtTestStand.Verified.Run

variable {σ ε : Type*}

/-! ## Total transition functions -/

section Total

variable (step : σ → ε → σ)

/-- The state after the events. -/
def exec (s : σ) (events : List ε) : σ := events.foldl step s

@[simp] theorem exec_nil (s : σ) : exec step s [] = s := rfl

@[simp] theorem exec_cons (s : σ) (e : ε) (events : List ε) :
    exec step s (e :: events) = exec step (step s e) events := rfl

theorem exec_append (s : σ) (es fs : List ε) :
    exec step s (es ++ fs) = exec step (exec step s es) fs :=
  List.foldl_append

/-- One more event at the end. -/
theorem exec_snoc (s : σ) (es : List ε) (e : ε) :
    exec step s (es ++ [e]) = step (exec step s es) e := by
  rw [exec_append, exec_cons, exec_nil]

/-- A property that every step keeps holds after every run. -/
theorem exec_invariant {inv : σ → Prop} (hstep : ∀ s e, inv s → inv (step s e))
    {s : σ} (events : List ε) (hs : inv s) : inv (exec step s events) := by
  induction events generalizing s with
  | nil => exact hs
  | cons e events ih => exact ih (hstep s e hs)

/-- The same when a step keeps the property only at its place in the run. -/
theorem exec_invariant_along {inv : σ → Prop} {s : σ} {events : List ε}
    (hstep : ∀ pre e post, events = pre ++ e :: post → inv (exec step s pre) →
      inv (step (exec step s pre) e))
    (hs : inv s) (pre post : List ε) (h : events = pre ++ post) :
    inv (exec step s pre) := by
  induction pre using List.reverseRecOn generalizing post with
  | nil => exact hs
  | append_singleton pre e ih =>
      have hsplit : events = pre ++ e :: post := by simpa using h
      rw [exec_snoc]
      exact hstep pre e post hsplit (ih (e :: post) hsplit)

end Total

/-! ## Partial transition functions -/

section Partial

variable (step : σ → ε → Option σ)

/-- The state after the events, if all of them can happen. -/
def run : σ → List ε → Option σ
  | s, [] => some s
  | s, e :: events =>
      match step s e with
      | some s' => run s' events
      | none => none

@[simp] theorem run_nil (s : σ) : run step s [] = some s := rfl

theorem run_cons (s : σ) (e : ε) (events : List ε) :
    run step s (e :: events) = (step s e).bind fun s' => run step s' events := by
  rw [run]
  cases step s e <;> rfl

/-- A run splits at its first event. -/
theorem run_cons_some {s t : σ} {e : ε} {events : List ε}
    (h : run step s (e :: events) = some t) :
    ∃ s', step s e = some s' ∧ run step s' events = some t := by
  rw [run_cons] at h
  exact Option.bind_eq_some_iff.mp h

/-- A run splits anywhere. -/
theorem run_append (s : σ) (es fs : List ε) :
    run step s (es ++ fs) = (run step s es).bind fun s' => run step s' fs := by
  induction es generalizing s with
  | nil => rfl
  | cons e es ih =>
      rw [List.cons_append, run_cons, run_cons]
      cases step s e with
      | none => rfl
      | some s' => exact ih s'

/-- A property that every admissible step keeps holds after every admissible
run. -/
theorem run_invariant {inv : σ → Prop} (ok : ε → Prop)
    (hstep : ∀ s e s', ok e → step s e = some s' → inv s → inv s') {s t : σ}
    {events : List ε} (hok : ∀ e ∈ events, ok e) (h : run step s events = some t)
    (hs : inv s) : inv t := by
  induction events generalizing s with
  | nil =>
      obtain rfl : s = t := by simpa using h
      exact hs
  | cons e events ih =>
      obtain ⟨s', hhead, htail⟩ := run_cons_some step h
      exact ih (fun f hf => hok f (by simp [hf])) htail
        (hstep s e s' (hok e (by simp)) hhead hs)

/-- The same when a step keeps the property only at its place in the run. -/
theorem run_invariant_along {inv : σ → Prop} {s t : σ} {events : List ε}
    (hstep : ∀ pre e post q q', events = pre ++ e :: post → run step s pre = some q →
      step q e = some q' → inv q → inv q')
    (h : run step s events = some t) (hs : inv s) : inv t := by
  induction events using List.reverseRecOn generalizing t with
  | nil =>
      obtain rfl : s = t := by simpa using h
      exact hs
  | append_singleton events e ih =>
      rw [run_append] at h
      obtain ⟨q, hq, hlast⟩ := Option.bind_eq_some_iff.mp h
      obtain ⟨q', hone, hnil⟩ := run_cons_some step hlast
      obtain rfl : q' = t := by simpa using hnil
      refine hstep events e [] q q' rfl hq hone (ih (fun pre e' post q q' hsplit => ?_) hq)
      exact hstep pre e' (post ++ [e]) q q' (by rw [hsplit]; simp)

end Partial

/-! ## Histories

A run that writes a history only ever appends to it. -/

/-- An entry of a history that has grown is an old one or a new one. -/
theorem split_append {α : Type*} {old new pre post : List α} {x : α}
    (h : old ++ new = pre ++ x :: post) :
    (∃ mid, old = pre ++ x :: mid ∧ post = mid ++ new) ∨
      ∃ mid, pre = old ++ mid ∧ new = mid ++ x :: post := by
  rcases List.append_eq_append_iff.mp h with ⟨mid, hpre, hnew⟩ | ⟨mid, hold, hpost⟩
  · exact .inr ⟨mid, hpre, hnew⟩
  · cases mid with
    | nil => exact .inr ⟨[], by simpa using hold.symm, by simpa using hpost.symm⟩
    | cons y mid =>
        obtain ⟨rfl, rfl⟩ := List.cons.inj hpost
        exact .inl ⟨mid, hold, rfl⟩

end MpmtTestStand.Verified.Run
