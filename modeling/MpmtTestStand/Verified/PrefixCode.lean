import Mathlib.Data.List.Infix

/-!
# Left-to-right tokenisation by a prefix code

A *prefix code* writes each token as a non-empty word such that no word is a
proper prefix of another.  A list of symbols then splits in one way only into
complete words followed by an unfinished rest, one that no word begins.  This is
the reference against which a streaming parser is judged: it mentions neither
states nor the order in which symbols arrive.
-/

namespace MpmtTestStand.Verified.PrefixCode

/-- Words for the tokens `τ` over the alphabet `α`, none empty, none a proper
prefix of another. -/
structure Code (τ α : Type*) where
  word : τ → List α
  nonempty : ∀ t, word t ≠ []
  prefixFree : ∀ t u, word t <+: word u → t = u

variable {τ α : Type*} (C : Code τ α)

/-- No complete word stands at the front of `xs`. -/
def Unfinished (xs : List α) : Prop := ∀ t, ¬ C.word t <+: xs

/-- `xs` consists of the words of `ts` and then the unfinished `tail`. -/
def Tokenises (xs : List α) (ts : List τ) (tail : List α) : Prop :=
  xs = ts.flatMap C.word ++ tail ∧ Unfinished C tail

theorem unfinished_nil : Unfinished C [] := by
  intro t ht
  exact C.nonempty t (List.prefix_nil.mp ht)

/-- The beginning of a word is not a word. -/
theorem unfinished_of_prefix {xs : List α} {t : τ} (h : xs <+: C.word t)
    (hlen : xs.length < (C.word t).length) : Unfinished C xs := by
  intro u hu
  obtain rfl : u = t := C.prefixFree u t (hu.trans h)
  have hle := hu.length_le
  omega

/-- A complete word in front adds its token in front. -/
theorem Tokenises.cons {xs : List α} {ts : List τ} {tail : List α} (t : τ)
    (h : Tokenises C xs ts tail) :
    Tokenises C (C.word t ++ xs) (t :: ts) tail :=
  ⟨by rw [h.1, List.flatMap_cons, List.append_assoc], h.2⟩

/-- Behind its first word a list is tokenised like any other. -/
theorem Tokenises.of_cons {xs : List α} {t : τ} {ts : List τ} {tail : List α}
    (h : Tokenises C xs (t :: ts) tail) :
    ∃ rest, xs = C.word t ++ rest ∧ Tokenises C rest ts tail := by
  refine ⟨ts.flatMap C.word ++ tail, ?_, rfl, h.2⟩
  rw [h.1, List.flatMap_cons, List.append_assoc]

/-- A list has room for each of its words. -/
theorem Tokenises.length_le {xs : List α} {t : τ} {ts : List τ} {tail : List α}
    (h : Tokenises C xs ts tail) (ht : t ∈ ts) : (C.word t).length ≤ xs.length := by
  obtain ⟨before, after, rfl⟩ := List.append_of_mem ht
  rw [h.1, List.flatMap_append, List.flatMap_cons]
  simp only [List.length_append]
  omega

/-- Two words at the front of the same list belong to the same token. -/
theorem word_unique {t u : τ} {xs : List α} (ht : C.word t <+: xs)
    (hu : C.word u <+: xs) : t = u := by
  rcases List.prefix_or_prefix_of_prefix ht hu with h | h
  · exact C.prefixFree t u h
  · exact (C.prefixFree u t h).symm

/-- The tokenisation of a list is unique. -/
theorem Tokenises.unique {xs : List α} {ts us : List τ} {tail rest : List α}
    (h : Tokenises C xs ts tail) (k : Tokenises C xs us rest) :
    us = ts ∧ rest = tail := by
  induction ts generalizing xs us with
  | nil =>
      cases us with
      | nil => exact ⟨rfl, by simpa using k.1.symm.trans h.1⟩
      | cons u us =>
          -- a word of `us` would stand at the front of the unfinished `tail`
          refine absurd ?_ (h.2 u)
          have hxs : xs = tail := by simpa using h.1
          rw [← hxs, k.1, List.flatMap_cons, List.append_assoc]
          exact List.prefix_append _ _
  | cons t ts ih =>
      have ht : C.word t <+: xs := by
        rw [h.1, List.flatMap_cons, List.append_assoc]
        exact List.prefix_append _ _
      cases us with
      | nil =>
          refine absurd ?_ (k.2 t)
          have hxs : xs = rest := by simpa using k.1
          rwa [← hxs]
      | cons u us =>
          have hu : C.word u <+: xs := by
            rw [k.1, List.flatMap_cons, List.append_assoc]
            exact List.prefix_append _ _
          obtain rfl : t = u := word_unique C ht hu
          have hcut : us.flatMap C.word ++ rest = ts.flatMap C.word ++ tail := by
            have := k.1.symm.trans h.1
            simpa only [List.flatMap_cons, List.append_assoc,
              List.append_cancel_left_eq] using this
          obtain ⟨rfl, rfl⟩ := ih ⟨rfl, h.2⟩ ⟨hcut.symm, k.2⟩
          exact ⟨rfl, rfl⟩

end MpmtTestStand.Verified.PrefixCode
