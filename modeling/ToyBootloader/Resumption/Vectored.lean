import ToyBootloader.Resumption.Interrupt

/-!
# Several handlers, any interleaving

A `Vectored` system has a handler for each of several interrupts. As in `System`, one is
entered between any two operations of the main program, when the state admits its delivery,
and is not itself interrupted.

The rule here is for an invariant that ties the state to where the main program stands, so
`J p s` has the program that is left as an argument. It asks for one step of the main program
and for one walk of each handler, from a delivery to its end.
-/

namespace ToyBootloader.Resumption

variable {S : Sig} {σ ι α : Type}

/-- A main program's machine, the handlers' machine, and a handler for each interrupt.
`deliver i s s'` when the interrupt `i` may be delivered in `s`, leaving `s'`. -/
structure Vectored (S : Sig) (σ ι : Type) where
  main : Machine S σ
  isr : Machine S σ
  deliver : ι → σ → σ → Prop
  handler : ι → Prog S Unit

namespace Vectored

/-- One step of the system. -/
inductive Step (Y : Vectored S σ ι) : Control S α × σ → Control S α × σ → Prop
  /-- The main program performs an operation. -/
  | main {p p' s s'} : Resumption.Step Y.main (p, s) (p', s') →
      Step Y (.main p, s) (.main p', s')
  /-- An interrupt is delivered: its handler is entered. -/
  | deliver {i p s s'} : Y.deliver i s s' → Step Y (.main p, s) (.isr (Y.handler i) p, s')
  /-- A handler performs an operation. -/
  | isr {h h' p s s'} : Resumption.Step Y.isr (h, s) (h', s') →
      Step Y (.isr h p, s) (.isr h' p, s')
  /-- A handler is over and the main program goes on where it stood. -/
  | iret {p s} : Step Y (.isr (.pure ()) p, s) (.main p, s)

/-- Any number of steps. -/
abbrev Reach (Y : Vectored S σ ι) (c c' : Control S α × σ) : Prop :=
  Relation.ReflTransGen Y.Step c c'

section Rules

variable {Y : Vectored S σ ι} {ok : σ → S.Op → Prop} {J : Prog S α → σ → Prop}
  {p q : Prog S α} {s s₁ s' : σ} {i : ι}

/-- What the main program reaches alone, it reaches here. -/
theorem reach_main (run : Resumption.Reach Y.main (p, s) (q, s')) :
    Y.Reach (.main p, s) (.main q, s') := by
  refine run.lift (fun c : Prog S α × σ => (Control.main c.1, c.2)) ?_
  intro c c' step
  exact Step.main step

/-- A handler that ran from its delivery to its end. -/
theorem reach_handled (delivered : Y.deliver i s s₁) (run : Exec Y.isr (Y.handler i) s₁ () s') :
    Y.Reach (.main p, s) (.main p, s') := by
  have steps : Y.Reach (.isr (Y.handler i) p, s₁) (.isr (.pure ()) p, s') := by
    refine run.reach.lift (fun c : Prog S Unit × σ => (Control.isr c.1 p, c.2)) ?_
    intro c c' step
    exact Step.isr step
  exact .head (.deliver delivered) (steps.tail .iret)

/-- What a run keeps: the invariant in the main program; in a handler, the walk of what is left
of it, which ends in the invariant. -/
def Keeps (Y : Vectored S σ ι) (ok : σ → S.Op → Prop) (J : Prog S α → σ → Prop) :
    Control S α × σ → Prop
  | (.main p, s) => J p s
  | (.isr h p, s) => Follows Y.isr ok h (fun _ => J p) s

/-- THE RULE. One step of the main program, and one walk of every handler: then every
interleaving keeps the invariant. -/
theorem invariant
    (main_step : ∀ {p p' : Prog S α} {s s'}, J p s → Resumption.Step Y.main (p, s) (p', s') →
      J p' s')
    (delivered : ∀ {p : Prog S α} {i s s'}, J p s → Y.deliver i s s' →
      Follows Y.isr ok (Y.handler i) (fun _ => J p) s')
    (start : J p s) {c : Control S α × σ} (run : Y.Reach (.main p, s) c) : Y.Keeps ok J c := by
  induction run with
  | refl => exact start
  | tail _ step ih =>
    cases step with
    | main step => exact main_step ih step
    | deliver hd => exact delivered ih hd
    | isr step => exact Follows.step ih step
    | iret => exact ih

end Rules

end Vectored

end ToyBootloader.Resumption
