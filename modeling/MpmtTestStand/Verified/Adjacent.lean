import Mathlib.Data.List.Count

/-!
# Counting neighbours in a list

`adjacent P xs` counts the places in `xs` where `P` holds of a symbol and its successor.
The count of a concatenation is at least the sum of the counts, and equal to it across a
symbol that `P` allows no successor.
-/

namespace MpmtTestStand.Verified.Adjacent

variable {α : Type*} (P : α → α → Prop) [DecidableRel P]

/-- The places where `P` holds of a symbol and its successor. -/
def adjacent : List α → Nat
  | a :: b :: rest => (if P a b then 1 else 0) + adjacent (b :: rest)
  | _ => 0

@[simp] theorem adjacent_nil : adjacent P [] = 0 := rfl

@[simp] theorem adjacent_singleton (a : α) : adjacent P [a] = 0 := rfl

@[simp] theorem adjacent_cons_cons (a b : α) (rest : List α) :
    adjacent P (a :: b :: rest) = (if P a b then 1 else 0) + adjacent P (b :: rest) := rfl

/-- A list splits at any of its symbols. -/
theorem adjacent_split (xs : List α) (b : α) (ys : List α) :
    adjacent P (xs ++ b :: ys) = adjacent P (xs ++ [b]) + adjacent P (b :: ys) := by
  induction xs with
  | nil => simp
  | cons a xs ih =>
      cases xs with
      | nil => simp
      | cons c xs =>
          simp only [List.cons_append, adjacent_cons_cons] at ih ⊢
          rw [ih, Nat.add_assoc]

theorem adjacent_le_cons (a : α) (xs : List α) : adjacent P xs ≤ adjacent P (a :: xs) := by
  cases xs with
  | nil => exact Nat.le_refl 0
  | cons b rest =>
      rw [adjacent_cons_cons]
      omega

/-- **The parts of a list** have no more neighbours than the whole. -/
theorem adjacent_append_le (xs ys : List α) :
    adjacent P xs + adjacent P ys ≤ adjacent P (xs ++ ys) := by
  induction xs with
  | nil => simp
  | cons a xs ih =>
      cases xs with
      | nil =>
          have h := adjacent_le_cons P a ys
          simpa using h
      | cons b rest =>
          simp only [List.cons_append, adjacent_cons_cons] at ih ⊢
          omega

theorem adjacent_mono {xs ys : List α} (h : xs <+: ys) :
    adjacent P xs ≤ adjacent P ys := by
  obtain ⟨zs, rfl⟩ := h
  have happend := adjacent_append_le P xs zs
  omega

/-- Nothing follows a symbol to which `P` allows no successor. -/
theorem adjacent_cons_of_not {a : α} (ha : ∀ b, ¬ P a b) (xs : List α) :
    adjacent P (a :: xs) = adjacent P xs := by
  cases xs with
  | nil => rfl
  | cons b rest => rw [adjacent_cons_cons, if_neg (ha b), Nat.zero_add]

/-- Parts that end in such a symbol do not interact. -/
theorem adjacent_append_of_not {a : α} (ha : ∀ b, ¬ P a b) (xs ys : List α) :
    adjacent P (xs ++ a :: ys) = adjacent P (xs ++ [a]) + adjacent P ys := by
  rw [adjacent_split, adjacent_cons_of_not P ha]

theorem adjacent_le_countP (p : α → Bool) (hp : ∀ a b, P a b → p a = true) (xs : List α) :
    adjacent P xs ≤ xs.countP p := by
  induction xs with
  | nil => exact Nat.le_refl 0
  | cons a xs ih =>
      rw [List.countP_cons]
      cases xs with
      | nil => exact Nat.zero_le _
      | cons b rest =>
          rw [adjacent_cons_cons]
          by_cases h : P a b
          · rw [if_pos h, if_pos (hp a b h)]
            omega
          · rw [if_neg h]
            omega

end MpmtTestStand.Verified.Adjacent
