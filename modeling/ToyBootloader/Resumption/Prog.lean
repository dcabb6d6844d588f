import Mathlib.Logic.Relation

/-!
# Resumption programs

A program that talks to a machine is a tree of operations: it stops with a
value, performs an operation and goes on with the answer, or BUSY-WAITS,
performing one operation again and again until its answer passes a test.
Everything such a program can do is in the tree; nothing here says what a
machine answers. That is the business of `Resumption.Exec`.

The busy wait is a constructor and not a recursion. A driver's
`while (!ready);` has no bound, so no structurally recursive program could
spell it, and a fuelled spelling would have to say what happens when the
fuel is gone. As a constructor it says what the source says, and a run that
never passes the test is a run that never ends.

The anchors here are the monad laws, which is what lets a caller's proof
cite a callee's without unfolding it.
-/

namespace ToyBootloader.Resumption

/-- The operations a program may perform, each with the type of its answer.

An operation whose answer type is empty is one no program survives: a
fault. -/
structure Sig where
  Op : Type
  Ans : Op → Type

/-- A program over the operations of `S` that ends, if it ends, with an `α`. -/
inductive Prog (S : Sig) (α : Type) where
  /-- The program is over. -/
  | pure (a : α)
  /-- Perform `op`, and go on with its answer. -/
  | vis (op : S.Op) (k : S.Ans op → Prog S α)
  /-- Perform `op` until its answer is `ready`, and go on with that answer. -/
  | poll (op : S.Op) (ready : S.Ans op → Bool) (k : S.Ans op → Prog S α)

namespace Prog

variable {S : Sig} {α β γ : Type}

/-- Sequencing: graft `f` onto every end of the tree. -/
def bind : Prog S α → (α → Prog S β) → Prog S β
  | .pure a, f => f a
  | .vis op k, f => .vis op fun x => (k x).bind f
  | .poll op ready k, f => .poll op ready fun x => (k x).bind f

instance : Monad (Prog S) where
  pure := .pure
  bind := bind

/-- One operation, answering what the machine answers. -/
def call (op : S.Op) : Prog S (S.Ans op) := .vis op .pure

/-- The busy wait on its own: `op` until its answer is `ready`. -/
def spin (op : S.Op) (ready : S.Ans op → Bool) : Prog S (S.Ans op) :=
  .poll op ready .pure

@[simp] theorem pure_eq (a : α) : (Pure.pure a : Prog S α) = .pure a := rfl

@[simp] theorem bind_eq (p : Prog S α) (f : α → Prog S β) : p >>= f = p.bind f :=
  rfl

@[simp] theorem pure_bind (a : α) (f : α → Prog S β) :
    (Prog.pure a).bind f = f a := rfl

@[simp] theorem vis_bind (op : S.Op) (k : S.Ans op → Prog S α) (f : α → Prog S β) :
    (Prog.vis op k).bind f = .vis op fun x => (k x).bind f := rfl

@[simp] theorem poll_bind (op : S.Op) (ready : S.Ans op → Bool)
    (k : S.Ans op → Prog S α) (f : α → Prog S β) :
    (Prog.poll op ready k).bind f = .poll op ready fun x => (k x).bind f := rfl

@[simp] theorem call_bind (op : S.Op) (f : S.Ans op → Prog S β) :
    (call op).bind f = .vis op f := rfl

@[simp] theorem spin_bind (op : S.Op) (ready : S.Ans op → Bool)
    (f : S.Ans op → Prog S β) : (spin op ready).bind f = .poll op ready f := rfl

theorem bind_pure (p : Prog S α) : p.bind .pure = p := by
  induction p with
  | pure a => rfl
  | vis op k ih => simp only [vis_bind, ih]
  | poll op ready k ih => simp only [poll_bind, ih]

/-- Sequencing is associative: a caller may be read with its callees' ends
already grafted. -/
theorem bind_assoc (p : Prog S α) (f : α → Prog S β) (g : β → Prog S γ) :
    (p.bind f).bind g = p.bind fun a => (f a).bind g := by
  induction p with
  | pure a => rfl
  | vis op k ih => simp only [vis_bind, ih]
  | poll op ready k ih => simp only [poll_bind, ih]

instance : LawfulMonad (Prog S) :=
  LawfulMonad.mk' (Prog S) bind_pure (fun _ _ => rfl) bind_assoc

end Prog

end ToyBootloader.Resumption
