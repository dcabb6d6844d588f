import ToyBootloader.Resumption.Exec

/-!
# One handler, any interleaving

A `System` is a main program and an interrupt handler over one state. The
handler may be entered between ANY two operations of the main program, each
time the state admits a delivery, and it is not itself interrupted: while it
runs the main program stands still.

Main program and handler are answered by two machines on the same states, not
because they run on two machines but because a state may keep books the
handler has no part in (which command the main program is in the middle of,
say), and those books must not move when the handler performs the very same
operation.

`System.invariant` is the one rule proved. It splits the proof of a safety
property where the code is split:

* the main program is walked ALONE (`Follows N okN`), against a machine that
  sees only its own books, so this half never mentions an interrupt;
* the handler is walked alone, from the states a delivery leaves;
* what is left is a case per operation: the invariant survives an operation
  the walk admitted.
-/

namespace ToyBootloader.Resumption

variable {S : Sig} {σ τ α : Type}

/-- A main program's machine and an interrupt handler, over states `σ`.
`deliver s s'` when an interrupt may be delivered in `s`, leaving `s'`. -/
structure System (S : Sig) (σ : Type) where
  main : Machine S σ
  isr : Machine S σ
  deliver : σ → σ → Prop
  handler : Prog S Unit

/-- Where control is: in what is left of the main program, or in what is left
of the handler with the main program suspended under it. -/
inductive Control (S : Sig) (α : Type) where
  | main (p : Prog S α)
  | isr (h : Prog S Unit) (p : Prog S α)

namespace System

/-- One step of the system. -/
inductive Step (Y : System S σ) : Control S α × σ → Control S α × σ → Prop
  /-- The main program performs an operation. -/
  | main {p p' s s'} : Resumption.Step Y.main (p, s) (p', s') →
      Step Y (.main p, s) (.main p', s')
  /-- An interrupt is delivered: the handler is entered. -/
  | deliver {p s s'} : Y.deliver s s' → Step Y (.main p, s) (.isr Y.handler p, s')
  /-- The handler performs an operation. -/
  | isr {h h' p s s'} : Resumption.Step Y.isr (h, s) (h', s') →
      Step Y (.isr h p, s) (.isr h' p, s')
  /-- The handler is over and the main program goes on where it stood. -/
  | iret {p s} : Step Y (.isr (.pure ()) p, s) (.main p, s)

/-- Any number of steps. -/
abbrev Reach (Y : System S σ) (c c' : Control S α × σ) : Prop :=
  Relation.ReflTransGen Y.Step c c'

/-- What the main program reaches alone, it reaches here. -/
theorem reach_main {Y : System S σ} {p q : Prog S α} {s s' : σ}
    (run : Resumption.Reach Y.main (p, s) (q, s')) : Y.Reach (.main p, s) (.main q, s') := by
  refine run.lift (fun c : Prog S α × σ => (Control.main c.1, c.2)) ?_
  intro c c' step
  exact Step.main step

/-- What a run keeps: in the main program, the invariant `I` and the walk of
what is left of it; in the handler, the walk of what is left of the handler,
which ends in `I`, and the suspended walk of the main program. -/
def Keeps (Y : System S σ) (view : σ → τ) (N : Machine S τ)
    (okN : τ → S.Op → Prop) (okI : σ → S.Op → Prop) (I : σ → Prop)
    (Q : α → τ → Prop) : Control S α × σ → Prop
  | (.main p, s) => I s ∧ Follows N okN p Q (view s)
  | (.isr h p, s) => Follows Y.isr okI h (fun _ => I) s ∧ Follows N okN p Q (view s)

/-- THE RULE. The main program walked on its own books, the handler walked
from every delivery, and one case per operation of the main program: then
every interleaving keeps the invariant. -/
theorem invariant {Y : System S σ} {view : σ → τ} {N : Machine S τ}
    {okN : τ → S.Op → Prop} {okI : σ → S.Op → Prop} {I : σ → Prop}
    {Q : α → τ → Prop}
    (view_main : ∀ {s op x s'}, Y.main s op x s' → N (view s) op x (view s'))
    (view_isr : ∀ {s op x s'}, Y.isr s op x s' → view s' = view s)
    (view_deliver : ∀ {s s'}, Y.deliver s s' → view s' = view s)
    (main_op : ∀ {s op x s'}, I s → okN (view s) op → Y.main s op x s' → I s')
    (delivered : ∀ {s s'}, I s → Y.deliver s s' →
      Follows Y.isr okI Y.handler (fun _ => I) s')
    {p : Prog S α} {s : σ} (start : I s) (walk : Follows N okN p Q (view s))
    {c : Control S α × σ} (run : Y.Reach (.main p, s) c) :
    Y.Keeps view N okN okI I Q c := by
  induction run with
  | refl => exact ⟨start, walk⟩
  | tail _ step ih =>
    cases step with
    | main step =>
      obtain ⟨hI, hw⟩ := ih
      cases step with
      | vis hm => exact ⟨main_op hI hw.1 hm, hw.2 _ _ (view_main hm)⟩
      | hit hm hr =>
        have hok := (hw.choose_spec.2 _ hw.choose_spec.1).1
        exact ⟨main_op hI hok hm, hw.step (.hit (view_main hm) hr)⟩
      | miss hm hr =>
        have hok := (hw.choose_spec.2 _ hw.choose_spec.1).1
        exact ⟨main_op hI hok hm, hw.step (.miss (view_main hm) hr)⟩
    | deliver hd =>
      obtain ⟨hI, hw⟩ := ih
      exact ⟨delivered hI hd, (view_deliver hd).symm ▸ hw⟩
    | isr step =>
      obtain ⟨hh, hw⟩ := ih
      refine ⟨hh.step step, ?_⟩
      cases step with
      | vis hm => exact (view_isr hm).symm ▸ hw
      | hit hm _ => exact (view_isr hm).symm ▸ hw
      | miss hm _ => exact (view_isr hm).symm ▸ hw
    | iret => exact ih

end System

/-- A walk whose condition and postcondition both say `J` of the state says it
of the state it starts in. -/
theorem Follows.here {M : Machine S σ} {ok : σ → S.Op → Prop} {J : σ → Prop}
    (hok : ∀ s op, ok s op → J s) {p : Prog S α} {Q : α → σ → Prop}
    (hQ : ∀ a s, Q a s → J s) {s : σ} (h : Follows M ok p Q s) : J s := by
  cases p with
  | pure a => exact hQ a s h
  | vis op k => exact hok s op h.1
  | poll op ready k =>
    obtain ⟨I, hI, hstep⟩ := h
    exact hok s op (hstep s hI).1

end ToyBootloader.Resumption
