import MpmtTestStand.Verified.Run

/-!
# Runs of two transition functions

`Simulates` relates two partial transition functions: each step of the one is
matched by some steps of the other, possibly none.  `Simulates.run` lifts this to
runs.

`run_first_change` finds the step of a run at which a property is lost.

The last part is about transition functions that write a log.  Every entry of
the log was appended by one step of the run, and `run_logged` finds it.

## Main results

* `Simulates.run` — a run of the one system is matched by a run of the other.
* `run_first_change` — the step at which a property is lost.
* `run_logged` — the step at which an entry of the log was written.
-/

namespace MpmtTestStand.Verified.Run

variable {σ τ ε δ α : Type*}

/-! ## Simulation -/

/-- Each step of `step` is matched by a run of `other` between related states. -/
def Simulates (step : σ → ε → Option σ) (other : τ → δ → Option τ) (R : σ → τ → Prop) : Prop :=
  ∀ s e s' t, R s t → step s e = some s' → ∃ ds t', run other t ds = some t' ∧ R s' t'

/-- **A run is matched by a run.** -/
theorem Simulates.run {step : σ → ε → Option σ} {other : τ → δ → Option τ} {R : σ → τ → Prop}
    (h : Simulates step other R) {s s' : σ} {t : τ} {events : List ε} (hs : R s t)
    (hrun : Run.run step s events = some s') :
    ∃ ds t', Run.run other t ds = some t' ∧ R s' t' := by
  induction events generalizing s t with
  | nil =>
      obtain rfl : s = s' := by simpa using hrun
      exact ⟨[], t, rfl, hs⟩
  | cons e events ih =>
      obtain ⟨q, hhead, htail⟩ := run_cons_some step hrun
      obtain ⟨ds, t1, hfirst, hq⟩ := h s e q t hs hhead
      obtain ⟨ds', t', hlater, hs'⟩ := ih hq htail
      refine ⟨ds ++ ds', t', ?_, hs'⟩
      rw [run_append, hfirst]
      exact hlater

/-! ## Changes -/

/-- **Where a property that held is lost.** -/
theorem run_first_change {step : σ → ε → Option σ} {P : σ → Prop} {s t : σ} {events : List ε}
    (hrun : run step s events = some t) (hs : P s) (ht : ¬P t) :
    ∃ earlier e later q q', events = earlier ++ e :: later ∧ run step s earlier = some q ∧
      step q e = some q' ∧ run step q' later = some t ∧ P q ∧ ¬P q' := by
  induction events generalizing s with
  | nil =>
      obtain rfl : s = t := by simpa using hrun
      exact absurd hs ht
  | cons e events ih =>
      obtain ⟨q, hhead, htail⟩ := run_cons_some step hrun
      by_cases hq : P q
      · obtain ⟨earlier, e', later, q1, q2, rfl, hearlier, hstep, hlater, hq1, hq2⟩ := ih htail hq
        refine ⟨e :: earlier, e', later, q1, q2, rfl, ?_, hstep, hlater, hq1, hq2⟩
        rw [run_cons, hhead]
        exact hearlier
      · exact ⟨[], e, events, s, q, rfl, rfl, hhead, htail, hs, hq⟩

/-- One run after another. -/
theorem run_trans {step : σ → ε → Option σ} {s q t : σ} {es fs : List ε}
    (h : run step s es = some q) (h' : run step q fs = some t) :
    run step s (es ++ fs) = some t := by
  rw [run_append, h]
  exact h'

/-- A run of one step. -/
theorem run_single {step : σ → ε → Option σ} {s t : σ} {e : ε} (h : step s e = some t) :
    run step s [e] = some t := by
  rw [run_cons, h]
  rfl

/-- One more step at the end. -/
theorem run_snoc {step : σ → ε → Option σ} {s q t : σ} {es : List ε} {e : ε}
    (h : run step s es = some q) (hstep : step q e = some t) :
    run step s (es ++ [e]) = some t :=
  run_trans h (run_single hstep)

/-! ## Logs -/

section Logs

variable (step : σ → ε → Option σ) (log : σ → List α)

/-- A log only grows. -/
theorem run_log_grows (hgrows : ∀ s e s', step s e = some s' → ∃ new, log s' = log s ++ new)
    {s t : σ} {events : List ε} (hrun : run step s events = some t) :
    ∃ new, log t = log s ++ new := by
  induction events generalizing s with
  | nil =>
      obtain rfl : s = t := by simpa using hrun
      exact ⟨[], (List.append_nil _).symm⟩
  | cons e events ih =>
      obtain ⟨q, hhead, htail⟩ := run_cons_some step hrun
      obtain ⟨first, hfirst⟩ := hgrows s e q hhead
      obtain ⟨later, hlater⟩ := ih htail
      exact ⟨first ++ later, by rw [hlater, hfirst, List.append_assoc]⟩

/-- **The step that has written an entry**, with what was logged before it. -/
theorem run_logged (hgrows : ∀ s e s', step s e = some s' → ∃ new, log s' = log s ++ new)
    {s t : σ} {events : List ε} (hrun : run step s events = some t) {pre post : List α} {o : α}
    (hlog : log t = log s ++ (pre ++ o :: post)) :
    ∃ earlier e later q q' old new rest, events = earlier ++ e :: later ∧
      run step s earlier = some q ∧ step q e = some q' ∧ run step q' later = some t ∧
      log q = log s ++ old ∧ pre = old ++ new ∧ log q' = log q ++ (new ++ o :: rest) := by
  induction events generalizing s pre with
  | nil =>
      obtain rfl : s = t := by simpa using hrun
      simp at hlog
  | cons e events ih =>
      obtain ⟨q, hhead, htail⟩ := run_cons_some step hrun
      obtain ⟨first, hfirst⟩ := hgrows s e q hhead
      obtain ⟨later, hlater⟩ := run_log_grows step log hgrows htail
      have hsplit : first ++ later = pre ++ o :: post := by
        rw [hlater, hfirst, List.append_assoc] at hlog
        exact List.append_cancel_left hlog
      rcases split_append hsplit with ⟨mid, hold, -⟩ | ⟨mid, rfl, hnew⟩
      · -- the first step has written it
        refine ⟨[], e, events, s, q, [], pre, mid, rfl, rfl, hhead, htail, ?_, rfl, ?_⟩
        · rw [List.append_nil]
        · rw [hfirst, hold]
      · rw [hnew] at hlater
        obtain ⟨earlier, e', rest, q1, q2, old, new, more, rfl, hearlier, hstep, hrest, hq1, rfl,
          hq2⟩ := ih htail hlater
        refine ⟨e :: earlier, e', rest, q1, q2, first ++ old, new, more, rfl, ?_, hstep, hrest, ?_,
          by rw [List.append_assoc], hq2⟩
        · rw [run_cons, hhead]
          exact hearlier
        · rw [hq1, hfirst, List.append_assoc]

end Logs

end MpmtTestStand.Verified.Run
