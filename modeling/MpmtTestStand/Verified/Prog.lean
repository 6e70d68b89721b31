import Mathlib.Control.Basic

/-!
# Sequential programs over a set of operations

`Prog S α` is a program that performs operations of the signature `S`, one at a
time, and in the end returns a value.  What an operation does, and how long it
takes, is left to whoever runs the program: the machine that holds the program
looks at its first operation and continues with the answer.

Some operations are local to the machine and take no time.  `settle` answers
them, so that what is left is a value or an operation one has to wait for.
`Only P` says that every operation a program can come to satisfies `P`.
-/

namespace MpmtTestStand.Verified

/-- Operations and the type of the answer to each. -/
structure Sig where
  Op : Type
  Res : Op → Type

/-- A program over the operations of `S`. -/
inductive Prog (S : Sig) (α : Type) : Type
  | ret (a : α)
  | op (o : S.Op) (k : S.Res o → Prog S α)

namespace Prog

variable {S : Sig} {α β γ : Type}

/-- Run one program after the other. -/
protected def bind : Prog S α → (α → Prog S β) → Prog S β
  | .ret a, f => f a
  | .op o k, f => .op o fun r => (k r).bind f

instance : Monad (Prog S) where
  pure := .ret
  bind := Prog.bind

/-- The program that performs one operation. -/
def perform (o : S.Op) : Prog S (S.Res o) := .op o .ret

@[simp] theorem pure_eq (a : α) : (pure a : Prog S α) = .ret a := rfl

@[simp] theorem ret_bind (a : α) (f : α → Prog S β) :
    (.ret a : Prog S α) >>= f = f a := rfl

@[simp] theorem op_bind (o : S.Op) (k : S.Res o → Prog S α) (f : α → Prog S β) :
    (.op o k : Prog S α) >>= f = .op o fun r => k r >>= f := rfl

@[simp] theorem perform_bind (o : S.Op) (f : S.Res o → Prog S α) :
    perform o >>= f = .op o f := rfl

/-- Sequencing is associative. -/
@[simp] theorem bind_bind (p : Prog S α) (f : α → Prog S β) (g : β → Prog S γ) :
    p >>= f >>= g = p >>= fun a => f a >>= g := by
  induction p with
  | ret a => rfl
  | op o k ih => exact congrArg (Prog.op o) (funext ih)

theorem bind_ret (p : Prog S α) : p >>= Prog.ret = p := by
  induction p with
  | ret a => rfl
  | op o k ih => exact congrArg (Prog.op o) (funext ih)

instance : LawfulMonad (Prog S) :=
  LawfulMonad.mk' (Prog S) bind_ret (fun _ _ => rfl) bind_bind

/-! ## Local operations -/

/-- Answer the operations that `answer` answers, up to the first it does not. -/
def settle (answer : (o : S.Op) → Option (S.Res o)) : Prog S α → Prog S α
  | .ret a => .ret a
  | .op o k =>
      match answer o with
      | some r => (k r).settle answer
      | none => .op o k

variable {answer : (o : S.Op) → Option (S.Res o)}

@[simp] theorem settle_ret (a : α) : (.ret a : Prog S α).settle answer = .ret a := rfl

theorem settle_op_some {o : S.Op} {r : S.Res o} (h : answer o = some r)
    (k : S.Res o → Prog S α) : (Prog.op o k).settle answer = (k r).settle answer := by
  simp [settle, h]

theorem settle_op_none {o : S.Op} (h : answer o = none) (k : S.Res o → Prog S α) :
    (Prog.op o k).settle answer = .op o k := by
  simp [settle, h]

/-- The first part of a sequence may be settled first. -/
theorem settle_bind (p : Prog S α) (f : α → Prog S β) :
    (p >>= f).settle answer = (p.settle answer >>= f).settle answer := by
  induction p with
  | ret a => rfl
  | op o k ih =>
      rcases h : answer o with _ | r
      · rw [settle_op_none h]
      · rw [op_bind, settle_op_some h, settle_op_some h, ih]

/-! ## Programs restricted to some operations -/

/-- Every operation that `p` can come to satisfies `P`. -/
inductive Only (P : S.Op → Prop) : Prog S α → Prop
  | ret (a : α) : Only P (.ret a)
  | op {o : S.Op} {k : S.Res o → Prog S α} (ho : P o) (hk : ∀ r, Only P (k r)) :
      Only P (.op o k)

namespace Only

variable {P : S.Op → Prop}

theorem perform {o : S.Op} (ho : P o) : Only P (Prog.perform o) := .op ho .ret

theorem mono {Q : S.Op → Prop} {p : Prog S α} (hp : Only P p) (h : ∀ o, P o → Q o) :
    Only Q p := by
  induction hp with
  | ret a => exact .ret a
  | op ho _ ih => exact .op (h _ ho) ih

theorem bind {p : Prog S α} {f : α → Prog S β} (hp : Only P p)
    (hf : ∀ a, Only P (f a)) : Only P (p >>= f) := by
  induction hp with
  | ret a => exact hf a
  | op ho _ ih => exact .op ho ih

theorem ite {c : Prop} [Decidable c] {p q : Prog S α} (hp : Only P p) (hq : Only P q) :
    Only P (if c then p else q) := by
  split
  · exact hp
  · exact hq

theorem orM {p q : Prog S Bool} (hp : Only P p) (hq : Only P q) : Only P (p <||> q) := by
  refine hp.bind fun x => ?_
  cases x
  · exact hq
  · exact .ret true

theorem andM {p q : Prog S Bool} (hp : Only P p) (hq : Only P q) : Only P (p <&&> q) := by
  refine hp.bind fun x => ?_
  cases x
  · exact .ret false
  · exact hq

end Only

end Prog

end MpmtTestStand.Verified
