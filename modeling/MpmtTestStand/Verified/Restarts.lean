import Mathlib.Algebra.GroupWithZero.Nat
import MpmtTestStand.Verified.PrefixCode

/-!
# Readings with restarts

A reader of a prefix code may give up in the middle of a word and start again with the next
symbol, wherever that is.  What it has consumed is then a list of pieces, each a whole word
or the beginning of one.  Without restarts the words read are the first words written
(`prefix_of_words`); with restarts any measure of lists that grows at least additively
bounds what was read by what there was to read (`sum_tokensOf_le`).
-/

namespace MpmtTestStand.Verified.PrefixCode

variable {τ α : Type*} (C : Code τ α)

/-- A part of what a reader has consumed. -/
inductive Piece (τ α : Type*)
  /-- a whole word -/
  | word (t : τ)
  /-- a word that was given up -/
  | dropped (xs : List α)

/-- The symbols of a piece. -/
def Piece.symbols : Piece τ α → List α
  | .word t => C.word t
  | .dropped xs => xs

/-- The token of a whole word. -/
def Piece.token? : Piece τ α → Option τ
  | .word t => some t
  | .dropped _ => none

/-- What the reader has consumed. -/
def symbolsOf (ps : List (Piece τ α)) : List α := ps.flatMap (Piece.symbols C)

/-- The tokens that it has read. -/
def tokensOf (ps : List (Piece τ α)) : List τ := ps.filterMap Piece.token?

/-- The reader has never given up. -/
def Whole (ps : List (Piece τ α)) : Prop := ∀ p ∈ ps, ∃ t, p = .word t

variable {C} {ps qs : List (Piece τ α)}

theorem symbolsOf_append : symbolsOf C (ps ++ qs) = symbolsOf C ps ++ symbolsOf C qs :=
  List.flatMap_append

theorem tokensOf_append : tokensOf (ps ++ qs) = tokensOf ps ++ tokensOf qs :=
  List.filterMap_append

theorem Whole.append (hp : Whole ps) (hq : Whole qs) : Whole (ps ++ qs) := by
  intro p h
  rcases List.mem_append.mp h with h | h
  · exact hp p h
  · exact hq p h

theorem Whole.word (t : τ) : Whole [(.word t : Piece τ α)] := by
  intro p h
  exact ⟨t, List.mem_singleton.mp h⟩

/-- A reader that has never given up has consumed the words that it has read. -/
theorem Whole.symbolsOf_eq (h : Whole ps) : symbolsOf C ps = (tokensOf ps).flatMap C.word := by
  induction ps with
  | nil => rfl
  | cons p ps ih =>
      obtain ⟨t, rfl⟩ := h p (by simp)
      have htail := ih fun q hq => h q (by simp [hq])
      show C.word t ++ symbolsOf C ps = C.word t ++ (tokensOf ps).flatMap C.word
      rw [htail]

/-- **What was read weighs no more than what was consumed**, given up or not. -/
theorem sum_tokensOf_le {f : List α → Nat} (hf : ∀ xs ys, f xs + f ys ≤ f (xs ++ ys))
    {w : τ → Nat} (hw : ∀ t, w t ≤ f (C.word t)) (ps : List (Piece τ α)) :
    ((tokensOf ps).map w).sum ≤ f (symbolsOf C ps) := by
  induction ps with
  | nil => exact Nat.zero_le _
  | cons p ps ih =>
      cases p with
      | word t =>
          have happend := hf (C.word t) (symbolsOf C ps)
          have hword := hw t
          show w t + ((tokensOf ps).map w).sum ≤ f (C.word t ++ symbolsOf C ps)
          omega
      | dropped xs =>
          have happend := hf xs (symbolsOf C ps)
          show ((tokensOf ps).map w).sum ≤ f (xs ++ symbolsOf C ps)
          omega

/-- **Words at the front of other words** are the first of these. -/
theorem prefix_of_words {ts us : List τ} (h : ts.flatMap C.word <+: us.flatMap C.word) :
    ts <+: us := by
  induction ts generalizing us with
  | nil => exact List.nil_prefix
  | cons t ts ih =>
      have ht : C.word t <+: us.flatMap C.word := by
        rw [List.flatMap_cons] at h
        exact (List.prefix_append _ _).trans h
      cases us with
      | nil => exact absurd (List.prefix_nil.mp ht) (C.nonempty t)
      | cons u us =>
          have hu : C.word u <+: (u :: us).flatMap C.word := by
            rw [List.flatMap_cons]
            exact List.prefix_append _ _
          obtain rfl : t = u := word_unique C ht hu
          rw [List.flatMap_cons, List.flatMap_cons, List.prefix_append_right_inj] at h
          rw [List.cons_prefix_cons]
          exact ⟨rfl, ih h⟩

end MpmtTestStand.Verified.PrefixCode
