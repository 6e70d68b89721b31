import MpmtTestStand.Verified.Prog
import Mathlib.Logic.Relation

/-!
# Programs that are interrupted

A program shares its state with others.  A `World` says what the operations of
the program do to the state and what the others may do in between.
`Safe inv post p s` says of a program `p` at a state `s` that `inv` holds until
`p` returns, whatever the others do and however the operations are answered, and
that `post` holds when it does.  It is a weakest precondition, by recursion on
the program.

What the others do is taken into account at every point, so that a proof follows
the text of the program and never asks where it was interrupted.
-/

namespace MpmtTestStand.Verified

/-- What operations do to a state, and what may happen between them. -/
structure World (S : Sig) (σ : Type) where
  does : σ → (o : S.Op) → S.Res o → σ → Prop
  disturbs : σ → σ → Prop

namespace World

variable {S : Sig} {σ α β : Type} (W : World S σ)

/-- What may happen between two operations. -/
abbrev Rely : σ → σ → Prop := Relation.ReflTransGen W.disturbs

/-- From `s` on, `inv` holds until `p` returns, and then `post` holds too. -/
def Safe (inv : σ → Prop) (post : α → σ → Prop) : Prog S α → σ → Prop
  | .ret a, s => ∀ s', W.Rely s s' → inv s' ∧ post a s'
  | .op o k, s => ∀ s', W.Rely s s' →
      inv s' ∧ ∀ r s'', W.does s' o r s'' → Safe inv post (k r) s''

variable {W} {inv : σ → Prop} {post : α → σ → Prop} {p : Prog S α} {s s' : σ}

namespace Safe

/-- The state may be disturbed. -/
theorem rely (h : W.Safe inv post p s) (hs : W.Rely s s') : W.Safe inv post p s' := by
  cases p with
  | ret a => exact fun s'' hs' => h s'' (hs.trans hs')
  | op o k => exact fun s'' hs' => h s'' (hs.trans hs')

theorem disturb (h : W.Safe inv post p s) (hs : W.disturbs s s') : W.Safe inv post p s' :=
  h.rely (.single hs)

theorem holds (h : W.Safe inv post p s) : inv s := by
  cases p with
  | ret a => exact (h s .refl).1
  | op o k => exact (h s .refl).1

theorem returns {a : α} (h : W.Safe inv post (.ret a) s) : post a s := (h s .refl).2

/-- The operation at hand may be performed. -/
theorem does {o : S.Op} {k : S.Res o → Prog S α} {r : S.Res o}
    (h : W.Safe inv post (.op o k) s) (hs : W.does s o r s') : W.Safe inv post (k r) s' :=
  (h s .refl).2 r s' hs

/-- Operations that do not change the state may be answered at once. -/
theorem settle {answer : (o : S.Op) → Option (S.Res o)} (h : W.Safe inv post p s)
    (hanswer : ∀ o r, answer o = some r → W.does s o r s) :
    W.Safe inv post (p.settle answer) s := by
  induction p with
  | ret a => exact h
  | op o k ih =>
      rcases ho : answer o with _ | r
      · rwa [Prog.settle_op_none ho]
      · rw [Prog.settle_op_some ho]
        exact ih r (h.does (hanswer o r ho))

theorem mono {post' : α → σ → Prop} (h : W.Safe inv post p s)
    (hpost : ∀ a s', post a s' → post' a s') : W.Safe inv post' p s := by
  induction p generalizing s with
  | ret a => exact fun s' hs => ⟨(h s' hs).1, hpost a s' (h s' hs).2⟩
  | op o k ih => exact fun s' hs => ⟨(h s' hs).1, fun r s'' hr => ih r ((h s' hs).2 r s'' hr)⟩

/-- One program after the other. -/
theorem bind {post' : β → σ → Prop} {f : α → Prog S β}
    (h : W.Safe inv (fun a s' => W.Safe inv post' (f a) s') p s) :
    W.Safe inv post' (p >>= f) s := by
  induction p generalizing s with
  | ret a => exact h.returns
  | op o k ih =>
      intro s' hs
      exact ⟨(h s' hs).1, fun r s'' hr => ih r ((h s' hs).2 r s'' hr)⟩

/-- What neither the others nor the operations of `p` change holds throughout. -/
theorem of_only {P : S.Op → Prop} {inv' : σ → Prop} (hp : Prog.Only P p)
    (hdisturb : ∀ s s', inv' s → W.disturbs s s' → inv' s')
    (hdoes : ∀ o s r s', P o → inv' s → W.does s o r s' → inv' s')
    (hinv : ∀ s, inv' s → inv s) (hs : inv' s) : W.Safe inv (fun _ => inv') p s := by
  have hrely : ∀ {s s'}, inv' s → W.Rely s s' → inv' s' := by
    intro s s' hs h
    induction h with
    | refl => exact hs
    | tail _ hstep ih => exact hdisturb _ _ ih hstep
  induction hp generalizing s with
  | ret a => exact fun s' h => ⟨hinv s' (hrely hs h), hrely hs h⟩
  | op ho _ ih =>
      intro s' h
      exact ⟨hinv s' (hrely hs h), fun r s'' hr => ih r (hdoes _ _ _ _ ho (hrely hs h) hr)⟩

end Safe

end World

end MpmtTestStand.Verified
