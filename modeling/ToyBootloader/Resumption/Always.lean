import ToyBootloader.Resumption.Waiting

/-!
# What holds all the way

`Always M P p s` is `P` of every state that a run of `p` from `s` passes, whether or not it
comes to an end. Where each operation has one answer it is read off the program a node at a
time, and the rules are equivalences: a program passes the states of its first node, then
those of the rest.
-/

namespace ToyBootloader.Resumption

variable {S : Sig} {σ α : Type}

/-- Every state on the way has `P`. -/
def Always (M : Machine S σ) (P : σ → Prop) (p : Prog S α) (s : σ) : Prop :=
  ∀ t, Visits M p s t → P t

section Always

variable {M : Machine S σ} {P : σ → Prop} {op : S.Op} {answer : σ → S.Ans op} {after : σ → σ}
  {ready : S.Ans op → Bool} {k : S.Ans op → Prog S α} {p q : Prog S α} {s t : σ}

/-- The first state among them. -/
theorem Always.here (h : Always M P p s) : P s := h s ⟨p, .refl⟩

theorem always_pure {a : α} : Always M P (.pure a) s ↔ P s := by
  constructor
  · exact Always.here
  · rintro h t ⟨q, run⟩
    rcases run.cases_head with same | ⟨c, step, -⟩
    · cases same
      exact h
    · cases step

theorem always_vis (settles : Settles M op answer after) :
    Always M P (.vis op k) s ↔ P s ∧ Always M P (k (answer s)) (after s) := by
  constructor
  · intro h
    exact ⟨h.here, fun t visits => h t (visits.vis (settles.self s))⟩
  · rintro ⟨here, rest⟩ t ⟨q, run⟩
    rcases run.of_vis with ⟨rfl, rfl⟩ | ⟨x, s₁, hm, run⟩
    · exact here
    · obtain ⟨rfl, rfl⟩ := (settles _ _ _).mp hm
      exact rest t ⟨q, run⟩

/-- A wait stands where answers have failed so far, or has gone on from the first to pass. -/
theorem reach_poll (settles : Settles M op answer after) :
    Reach M (.poll op ready k, s) (q, t) ↔
      (∃ m, (∀ l < m, passes ready answer after s l = false) ∧ q = .poll op ready k ∧
        t = after^[m] s) ∨
      ∃ m, First (passes ready answer after s) m ∧
        Reach M (k (answer (after^[m] s)), after^[m + 1] s) (q, t) := by
  constructor
  · intro run
    generalize hc : (q, t) = c at run
    induction run generalizing q t with
    | refl =>
      cases hc
      exact .inl ⟨0, fun l hl => absurd hl (Nat.not_lt_zero l), rfl, rfl⟩
    | @tail b c _ step ih =>
      subst hc
      obtain ⟨q₁, t₁⟩ := b
      rcases ih rfl with ⟨m, none, rfl, rfl⟩ | ⟨m, first, run⟩
      · cases step with
        | hit hm hr =>
          obtain ⟨rfl, rfl⟩ := (settles _ _ _).mp hm
          refine .inr ⟨m, ⟨hr, none⟩, ?_⟩
          rw [Function.iterate_succ_apply']
        | miss hm hr =>
          obtain ⟨rfl, rfl⟩ := (settles _ _ _).mp hm
          refine .inl ⟨m + 1, fun l hl => ?_, rfl, (Function.iterate_succ_apply' after m s).symm⟩
          rcases Nat.lt_succ_iff_lt_or_eq.mp hl with hl | rfl
          · exact none l hl
          · exact hr
      · exact .inr ⟨m, first, run.tail step⟩
  · have misses : ∀ m, (∀ l < m, passes ready answer after s l = false) →
        Reach M (.poll op ready k, s) (.poll op ready k, after^[m] s) := by
      intro m
      induction m with
      | zero => exact fun _ => .refl
      | succ m ih =>
        intro none
        rw [Function.iterate_succ_apply']
        exact (ih fun l hl => none l (Nat.lt_succ_of_lt hl)).tail
          (.miss (settles.self _) (none m (Nat.lt_succ_self m)))
    rintro (⟨m, none, rfl, rfl⟩ | ⟨m, first, run⟩)
    · exact misses m none
    · rw [Function.iterate_succ_apply'] at run
      exact (misses m first.before).trans (.head (.hit (settles.self _) first.here) run)

theorem always_poll (settles : Settles M op answer after) :
    Always M P (.poll op ready k) s ↔
      (∀ m, (∀ l < m, passes ready answer after s l = false) → P (after^[m] s)) ∧
      ∀ m, First (passes ready answer after s) m →
        Always M P (k (answer (after^[m] s))) (after^[m + 1] s) := by
  constructor
  · intro h
    refine ⟨fun m none => h _ ⟨_, (reach_poll settles).mpr (.inl ⟨m, none, rfl, rfl⟩)⟩, ?_⟩
    rintro m first t ⟨q, run⟩
    exact h t ⟨q, (reach_poll settles).mpr (.inr ⟨m, first, run⟩)⟩
  · rintro ⟨waiting, rest⟩ t ⟨q, run⟩
    rcases (reach_poll settles).mp run with ⟨m, none, -, rfl⟩ | ⟨m, first, run⟩
    · exact waiting m none
    · exact rest m first t ⟨q, run⟩

end Always

end ToyBootloader.Resumption
