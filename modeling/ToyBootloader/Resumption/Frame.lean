import ToyBootloader.Resumption.Only

/-!
# Framing, and runs that end

Two facts about runs that need no walk.

* A machine may have more state than a program touches. Where it acts on the
  rest as it did without it, the program runs as it did (`exec_frame`), so what
  is known of a function against a small machine is known against a larger one.
* `Halts M p s` says that EVERY run of `p` from `s` is finite, whichever way the
  machine answers. It is accessibility of the step relation read backwards, and
  it composes: a sequence halts where its parts do (`Halts.bind`). A busy wait
  is the only part of a program that need not halt.
-/

namespace ToyBootloader.Resumption

variable {S : Sig} {σ τ α β : Type} {K : S.Op → Prop}

/-! ## A machine with a frame -/

/-- The operations of `K` act on the first component as they do on `M`, and leave
the second alone. -/
def Frames (K : S.Op → Prop) (N : Machine S (σ × τ)) (M : Machine S σ) : Prop :=
  ∀ {s : σ} {t : τ} {op : S.Op} {x : S.Ans op} {c : σ × τ}, K op →
    (N (s, t) op x c ↔ M s op x c.1 ∧ c.2 = t)

variable {N : Machine S (σ × τ)} {M : Machine S σ}

/-- THE FRAME RULE: a program of such operations runs as it does without the
frame. -/
theorem exec_frame (h : Frames K N M) {p : Prog S α} (only : Only K p) {s : σ} {t : τ}
    {c : σ × τ} {a : α} : Exec N p (s, t) a c ↔ Exec M p s a c.1 ∧ c.2 = t := by
  constructor
  · intro run
    have framed : Follows N (fun _ _ => True) p (fun _ c => c.2 = t) (s, t) := by
      refine only.follows (fun _ _ _ _ => trivial) ?_ rfl
      intro c op x c' hop hc hm
      exact ((h hop).mp hm).2.trans hc
    exact ⟨only.image (f := Prod.fst) (fun hop hm => ((h hop).mp hm).1) run, framed.exec run⟩
  · intro framed
    obtain ⟨s', t'⟩ := c
    obtain ⟨run, rfl⟩ := framed
    exact only.image (f := fun s => (s, t')) (fun hop hm => (h hop).mpr ⟨hm, rfl⟩) run

/-! ## Runs that end -/

/-- Every run of `p` from `s` is finite. -/
def Halts (M : Machine S σ) (p : Prog S α) (s : σ) : Prop :=
  Acc (fun c' c => Step M c c') (p, s)

theorem halts_pure {a : α} {s : σ} : Halts M (.pure a) s := by
  apply Acc.intro
  intro c step
  cases step

theorem halts_vis {op : S.Op} {k : S.Ans op → Prog S α} {s : σ}
    (h : ∀ x s', M s op x s' → Halts M (k x) s') : Halts M (.vis op k) s := by
  apply Acc.intro
  intro c step
  cases step with
  | vis hm => exact h _ _ hm

/-- A program without a busy wait ends. -/
theorem Straight.halts {p : Prog S α} (h : Straight K p) (s : σ) : Halts M p s := by
  induction p generalizing s with
  | pure a => exact halts_pure
  | vis op k ih =>
    apply halts_vis
    intro x s' _
    exact ih x (h.2 x) s'
  | poll op ready k ih => exact h.elim

/-- A sequence halts where its first part does, and its second from every end of
the first. -/
theorem Halts.bind {p : Prog S α} {f : α → Prog S β} {s : σ} (hp : Halts M p s)
    (hf : ∀ a s', Exec M p s a s' → Halts M (f a) s') : Halts M (p.bind f) s := by
  suffices ∀ c : Prog S α × σ, Acc (fun c' c => Step M c c') c →
      (∀ a s', Exec M c.1 c.2 a s' → Halts M (f a) s') → Halts M (c.1.bind f) c.2 from
    this (p, s) hp hf
  intro c hc
  induction hc with
  | intro c _ ih =>
    obtain ⟨p, s⟩ := c
    intro hf
    cases p with
    | pure a => exact hf a s .pure
    | vis op k =>
      apply halts_vis
      intro x s' hm
      exact ih (k x, s') (.vis hm) fun a t run => hf a t (.vis hm run)
    | poll op ready k =>
      apply Acc.intro
      intro c step
      cases step with
      | hit hm hr => exact ih (k _, _) (.hit hm hr) fun a t run => hf a t (.hit hm hr run)
      | miss hm hr =>
        exact ih (.poll op ready k, _) (.miss hm hr) fun a t run => hf a t (.miss hm hr run)

end ToyBootloader.Resumption
