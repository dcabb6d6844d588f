import ToyBootloader.Resumption.Only

/-!
# The same program in more detail

What a model leaves out of a program can be put back beside it: operations that are answered
nothing, between the operations of `S`, each of which is tagged with the circumstances it is
performed in. `lift` is the program with a tag and no detail, and `erase` takes both away, with
those details for which the program does have an operation.
-/

namespace ToyBootloader.Resumption

variable {S : Sig} {τ ε σ α β : Type}

/-- The operations of `S` with a tag, and the details. -/
inductive Detail (S : Sig) (τ ε : Type) where
  | base (tag : τ) (op : S.Op)
  | more (e : ε)

@[reducible] def Detail.Ans : Detail S τ ε → Type
  | .base _ o => S.Ans o
  | .more _ => Unit

abbrev Sig.detailed (S : Sig) (τ ε : Type) : Sig := ⟨Detail S τ ε, Detail.Ans⟩

namespace Prog

/-- Every operation under one tag. -/
def lift (tag : τ) : Prog S α → Prog (S.detailed τ ε) α
  | .pure a => .pure a
  | .vis op k => .vis (.base tag op) fun x => lift tag (k x)
  | .poll op ready k => .poll (.base tag op) ready fun x => lift tag (k x)

/-- A detail. -/
def more (e : ε) : Prog (S.detailed τ ε) Unit := .vis (.more e) .pure

/-- The program that is left without tags and details. A detail that `f` knows an operation for
is performed as that, whatever it is answered. -/
def erase (f : ε → Option S.Op) : Prog (S.detailed τ ε) α → Prog S α
  | .pure a => .pure a
  | .vis (.base _ op) k => .vis op fun x => erase f (k x)
  | .vis (.more e) k =>
    match f e with
    | some op => .vis op fun _ => erase f (k ())
    | none => erase f (k ())
  | .poll (.base _ op) ready k => .poll op ready fun x => erase f (k x)
  | .poll (.more _) _ k => erase f (k ())

/-- What the program is about to perform. -/
def head? : Prog S α → Option S.Op
  | .pure _ => none
  | .vis op _ => some op
  | .poll op _ _ => some op

variable {f : ε → Option S.Op} {tag : τ}

@[simp] theorem lift_pure (a : α) : lift (ε := ε) tag (.pure a : Prog S α) = .pure a := rfl

@[simp] theorem more_bind (e : ε) (k : Unit → Prog (S.detailed τ ε) α) :
    (more e).bind k = .vis (.more e) k := rfl

@[simp] theorem erase_pure (a : α) : erase f (.pure a : Prog (S.detailed τ ε) α) = .pure a := by
  simp only [erase]

@[simp] theorem erase_lift (p : Prog S α) : erase f (lift tag p) = p := by
  induction p with
  | pure a => simp only [lift, erase]
  | vis op k ih => simp only [lift, erase, ih]
  | poll op ready k ih => simp only [lift, erase, ih]

theorem erase_more {e : ε} (k : Unit → Prog (S.detailed τ ε) α) :
    erase f (.vis (.more e) k) = match f e with
      | some op => .vis op fun _ => erase f (k ())
      | none => erase f (k ()) := by
  simp only [erase]

theorem erase_bind (p : Prog (S.detailed τ ε) α) (k : α → Prog (S.detailed τ ε) β) :
    erase f (p.bind k) = (erase f p).bind fun a => erase f (k a) := by
  induction p with
  | pure a => simp only [pure_bind, erase]
  | vis op g ih =>
    cases op with
    | base tag op => simp only [vis_bind, erase, ih]
    | more e =>
      simp only [vis_bind, erase]
      cases f e with
      | none => exact ih ()
      | some op => simp only [vis_bind, ih]
  | poll op ready g ih =>
    cases op with
    | base tag op => simp only [poll_bind, erase, ih]
    | more e => simpa only [poll_bind, erase] using ih ()

end Prog

end ToyBootloader.Resumption
