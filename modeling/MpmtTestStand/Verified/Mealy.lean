import Mathlib.Data.List.ReduceOption

/-!
# Readers that consume one symbol at a time

A *reader* is a transition function `σ → α → σ × Option β`: each symbol moves
the state and may complete one output.  A receive loop does not hand such a
reader its whole input at once.  It is called again and again, each call sees
whatever happens to be available, and a call stops at the first completed
output even when more input is waiting.

`feed` is the reader on a whole input.  `poll` is one call: the list it is
given holds what the device answers each time it is asked, `none` standing for
"nothing to read now".  `polls` is a sequence of calls.

## Main results

* `feed_append` — a cut in the input is invisible to `feed`.
* `polls_feed` — a sequence of calls computes `feed` of exactly the symbols it
  has consumed, however the calls and the input interleave.
* `polls_rest_eq_nil`, `polls_queue_rest` — enough calls consume everything.
-/

namespace MpmtTestStand.Verified.Mealy

variable {σ α β : Type*} (step : σ → α → σ × Option β)

/-- Run the reader over a whole input, collecting its outputs. -/
def feed : σ → List α → σ × List β
  | s, [] => (s, [])
  | s, a :: rest =>
      ((feed (step s a).1 rest).1,
        (step s a).2.toList ++ (feed (step s a).1 rest).2)

@[simp] theorem feed_nil (s : σ) : feed step s [] = (s, []) := rfl

theorem feed_cons (s : σ) (a : α) (rest : List α) :
    feed step s (a :: rest) =
      ((feed step (step s a).1 rest).1,
        (step s a).2.toList ++ (feed step (step s a).1 rest).2) := rfl

/-- A symbol that completes nothing only moves the state. -/
theorem feed_cons_silent {s s' : σ} {a : α} (h : step s a = (s', none))
    (rest : List α) : feed step s (a :: rest) = feed step s' rest := by
  simp [feed_cons, h]

/-- A symbol that completes an output puts it in front of the later ones. -/
theorem feed_cons_output {s s' : σ} {a : α} {b : β}
    (h : step s a = (s', some b)) (rest : List α) :
    feed step s (a :: rest) =
      ((feed step s' rest).1, b :: (feed step s' rest).2) := by
  simp [feed_cons, h]

/-- Feeding a concatenation is feeding the parts one after the other. -/
theorem feed_append (s : σ) (xs ys : List α) :
    feed step s (xs ++ ys) =
      ((feed step (feed step s xs).1 ys).1,
        (feed step s xs).2 ++ (feed step (feed step s xs).1 ys).2) := by
  induction xs generalizing s with
  | nil => simp
  | cons x xs ih => simp [feed_cons, ih]

/-- A symbol completes one output at most. -/
theorem feed_length_le (s : σ) (xs : List α) : (feed step s xs).2.length ≤ xs.length := by
  induction xs generalizing s with
  | nil => exact Nat.le_refl 0
  | cons x xs ih =>
      have htail := ih (step s x).1
      have hhead : (step s x).2.toList.length ≤ 1 := by
        cases (step s x).2 <;> simp
      rw [feed_cons, List.length_append, List.length_cons]
      omega

/-! ## Calls -/

/-- One call: read until a symbol completes an output, the device answers that
it has nothing, or its answers run out.  The unused answers are returned. -/
def poll : σ → List (Option α) → σ × Option β × List (Option α)
  | s, [] => (s, none, [])
  | s, none :: rest => (s, none, rest)
  | s, some a :: rest =>
      match step s a with
      | (s', some b) => (s', some b, rest)
      | (s', none) => poll s' rest

/-- `n` calls in a row, collecting what they return. -/
def polls : Nat → σ → List (Option α) → σ × List β × List (Option α)
  | 0, s, offers => (s, [], offers)
  | n + 1, s, offers =>
      let call := poll step s offers
      let later := polls n call.1 call.2.2
      (later.1, call.2.1.toList ++ later.2.1, later.2.2)

theorem poll_silent {s s' : σ} {a : α} (h : step s a = (s', none))
    (rest : List (Option α)) :
    poll step s (some a :: rest) = poll step s' rest := by
  simp [poll, h]

theorem poll_output {s s' : σ} {a : α} {b : β} (h : step s a = (s', some b))
    (rest : List (Option α)) :
    poll step s (some a :: rest) = (s', some b, rest) := by
  simp [poll, h]

/-- One call computes `feed` of the symbols it consumed. -/
theorem poll_feed (s : σ) (offers : List (Option α)) :
    ∃ read, offers.reduceOption =
        read ++ (poll step s offers).2.2.reduceOption ∧
      feed step s read = ((poll step s offers).1, (poll step s offers).2.1.toList) := by
  induction offers generalizing s with
  | nil => exact ⟨[], rfl, rfl⟩
  | cons offer rest ih =>
      cases offer with
      | none => exact ⟨[], by simp [poll, List.reduceOption_cons_of_none], rfl⟩
      | some a =>
          rcases hstep : step s a with ⟨s', _ | b⟩
          · obtain ⟨read, hread, hfeed⟩ := ih s'
            refine ⟨a :: read, ?_, ?_⟩
            · rw [poll_silent step hstep, List.reduceOption_cons_of_some, hread,
                List.cons_append]
            · rw [poll_silent step hstep, feed_cons_silent step hstep, hfeed]
          · refine ⟨[a], ?_, ?_⟩
            · simp [poll_output step hstep, List.reduceOption_cons_of_some]
            · simp [poll_output step hstep, feed_cons_output step hstep]

/-- **However the calls and the input interleave**, a sequence of calls
computes `feed` of exactly the symbols it has consumed. -/
theorem polls_feed (n : Nat) (s : σ) (offers : List (Option α)) :
    ∃ read, offers.reduceOption =
        read ++ (polls step n s offers).2.2.reduceOption ∧
      feed step s read = ((polls step n s offers).1, (polls step n s offers).2.1) := by
  induction n generalizing s offers with
  | zero => exact ⟨[], rfl, rfl⟩
  | succ n ih =>
      obtain ⟨first, hfirst, hcall⟩ := poll_feed step s offers
      obtain ⟨later, hlater, hcalls⟩ :=
        ih (poll step s offers).1 (poll step s offers).2.2
      refine ⟨first ++ later, ?_, ?_⟩
      · rw [hfirst, hlater, List.append_assoc]
        rfl
      · rw [feed_append, hcall, hcalls]
        rfl

/-- A call consumes at least one answer when there is one. -/
theorem poll_rest_length (s : σ) (offers : List (Option α)) :
    (poll step s offers).2.2.length ≤ offers.length - 1 := by
  induction offers generalizing s with
  | nil => simp [poll]
  | cons offer rest ih =>
      cases offer with
      | none => simp [poll]
      | some a =>
          rcases hstep : step s a with ⟨s', _ | b⟩
          · rw [poll_silent step hstep]
            have := ih s'
            simp only [List.length_cons]
            omega
          · simp [poll_output step hstep]

/-- Enough calls consume all the answers. -/
theorem polls_rest_eq_nil (n : Nat) (s : σ) (offers : List (Option α))
    (hn : offers.length ≤ n) : (polls step n s offers).2.2 = [] := by
  induction n generalizing s offers with
  | zero => simpa [polls] using hn
  | succ n ih =>
      have hlen := poll_rest_length step s offers
      exact ih _ _ (by omega)

/-! ## Calls on a queue

When the device answers from a queue, a call ends with an output or with the
queue empty. -/

/-- Everything in a queue is there to be read. -/
@[simp] theorem reduceOption_map_some (queue : List α) :
    (queue.map some).reduceOption = queue := by
  induction queue with
  | nil => rfl
  | cons a rest ih => rw [List.map_cons, List.reduceOption_cons_of_some, ih]

/-- A call that completes nothing has emptied the queue. -/
theorem poll_queue_rest (s : σ) (queue : List α)
    (h : (poll step s (queue.map some)).2.1 = none) :
    (poll step s (queue.map some)).2.2 = [] := by
  induction queue generalizing s with
  | nil => rfl
  | cons a rest ih =>
      rcases hstep : step s a with ⟨s', _ | b⟩
      · rw [List.map_cons, poll_silent step hstep] at h ⊢
        exact ih s' h
      · simp [poll_output step hstep] at h

/-- The unread part of a queue is a queue. -/
theorem poll_queue_some (s : σ) (queue : List α) :
    ∃ unread : List α, (poll step s (queue.map some)).2.2 = unread.map some := by
  induction queue generalizing s with
  | nil => exact ⟨[], rfl⟩
  | cons a rest ih =>
      rcases hstep : step s a with ⟨s', _ | b⟩
      · rw [List.map_cons, poll_silent step hstep]
        exact ih s'
      · exact ⟨rest, by simp [poll_output step hstep]⟩

/-- More calls than there are outputs to come empty the queue. -/
theorem polls_queue_rest (n : Nat) (s : σ) (queue : List α)
    (hn : (feed step s queue).2.length < n) :
    (polls step n s (queue.map some)).2.2 = [] := by
  induction n generalizing s queue with
  | zero => omega
  | succ n ih =>
      show (polls step n (poll step s (queue.map some)).1
        (poll step s (queue.map some)).2.2).2.2 = []
      rcases hout : (poll step s (queue.map some)).2.1 with _ | b
      · rw [poll_queue_rest step s queue hout]
        exact polls_rest_eq_nil step n _ [] (Nat.zero_le n)
      · obtain ⟨unread, hunread⟩ := poll_queue_some step s queue
        obtain ⟨read, hread, hfeed⟩ := poll_feed step s (queue.map some)
        rw [hunread]
        refine ih _ unread ?_
        have hqueue : queue = read ++ unread := by
          simpa [hunread] using hread
        rw [hqueue, feed_append, hfeed, hout] at hn
        simpa using hn

end MpmtTestStand.Verified.Mealy
