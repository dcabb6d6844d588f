import Mathlib.Data.List.Basic

/-!
# Readers

A reader takes something off the beginning of a list. It is steady when what it has read
stays what it is whatever is added after the rest, as long as there is a rest: it has not
looked further than the beginning of it. Steady readers can be put after one another.
-/

namespace ToyBootloader.Sequences

variable {α β γ : Type}

/-- Something, and what comes after it. -/
abbrev Reader (α β : Type) := List α → β × List α

namespace Reader

/-- What has been read does not depend on what is added after the rest. -/
def Steady (f : Reader α β) : Prop :=
  ∀ cs ds, (f cs).2 ≠ [] → f (cs ++ ds) = ((f cs).1, (f cs).2 ++ ds)

/-- One after the other. -/
def andThen (f : Reader α β) (g : Reader α γ) : Reader α (β × γ) := fun cs =>
  (((f cs).1, (g (f cs).2).1), (g (f cs).2).2)

/-- What is left after the second was left after the first. -/
theorem rest_andThen {f : Reader α β} {g : Reader α γ} (nothing : (g []).2 = []) {cs : List α}
    (h : (f.andThen g cs).2 ≠ []) : (f cs).2 ≠ [] := by
  intro none
  have after : (g (f cs).2).2 ≠ [] := h
  rw [none] at after
  exact after nothing

theorem Steady.andThen {f : Reader α β} {g : Reader α γ} (hf : f.Steady) (hg : g.Steady)
    (nothing : (g []).2 = []) : (f.andThen g).Steady := by
  intro cs ds h
  have first := hf cs ds (rest_andThen nothing h)
  have second := hg (f cs).2 ds h
  unfold Reader.andThen
  rw [first, second]

end Reader

end ToyBootloader.Sequences
