import ToyBootloader.Resumption.Exec
import Mathlib.Logic.Function.Iterate

/-!
# Waiting on a machine that answers in one way

A busy wait on an operation with ONE answer per state is decided by the
answers to come: `answer` in this state, `answer` after one performance of the
operation, after two, and so on. The wait is over at the first that passes the
test, and never when none does.

`First t m` is that index, counted from zero. `exec_poll` reads the complete
runs of a wait off it and `follows_poll_first` the walk of one. A wait that
gives up after so many tries is `tries`, with the same two rules; everything
about a wait that is asked of every stream of answers goes through the four.
-/

namespace ToyBootloader.Resumption

/-! ## The first index that passes -/

/-- `m` is the first index `t` is true at. -/
structure First (t : Nat → Bool) (m : Nat) : Prop where
  here : t m = true
  before : ∀ l < m, t l = false

section First

variable {t : Nat → Bool} {l m n : Nat}

/-- An index that passes is not before the first that does. -/
theorem First.le (h : First t m) (hl : t l = true) : m ≤ l := by
  apply Nat.le_of_not_lt
  intro hlt
  rw [h.before l hlt] at hl
  cases hl

theorem First.unique (hm : First t m) (hn : First t n) : m = n :=
  Nat.le_antisymm (hm.le hn.here) (hn.le hm.here)

@[simp] theorem first_zero : First t 0 ↔ t 0 = true := by
  constructor
  · intro h
    exact h.here
  · intro h
    exact ⟨h, fun _ hl => absurd hl (Nat.not_lt_zero _)⟩

/-- The first index is one later when what is asked first fails. -/
theorem first_succ : First t (m + 1) ↔ t 0 = false ∧ First (fun l => t (l + 1)) m := by
  constructor
  · intro h
    exact ⟨h.before 0 (Nat.succ_pos m), h.here, fun l hl => h.before (l + 1) (Nat.succ_lt_succ hl)⟩
  · rintro ⟨h₀, h⟩
    refine ⟨h.here, fun l hl => ?_⟩
    cases l with
    | zero => exact h₀
    | succ l => exact h.before l (Nat.lt_of_succ_lt_succ hl)

/-- Among the first `n` answers one is the first to pass, or none passes. -/
theorem first_or_none (t : Nat → Bool) (n : Nat) :
    (∃ m < n, First t m) ∨ ∀ l < n, t l = false := by
  induction n with
  | zero => exact .inr fun l hl => absurd hl (Nat.not_lt_zero l)
  | succ n ih =>
    rcases ih with ⟨m, hm, first⟩ | none
    · exact .inl ⟨m, Nat.lt_succ_of_lt hm, first⟩
    · cases hn : t n with
      | true => exact .inl ⟨n, Nat.lt_succ_self n, hn, none⟩
      | false =>
        refine .inr fun l hl => ?_
        rcases Nat.lt_succ_iff_lt_or_eq.mp hl with hl | rfl
        · exact none l hl
        · exact hn

/-- With none passing among the first `n`, the first to pass is not one of
them. -/
theorem First.not_lt (h : First t m) (none : ∀ l < n, t l = false) : ¬ m < n := by
  intro hm
  have := h.here
  rw [none m hm] at this
  cases this

end First

/-! ## Waits -/

section Waits

variable {S : Sig} {σ α : Type}

/-- `op` has one answer in every state: `answer s`, leaving `after s`. -/
def Settles (M : Machine S σ) (op : S.Op) (answer : σ → S.Ans op) (after : σ → σ) : Prop :=
  ∀ s x s', M s op x s' ↔ x = answer s ∧ s' = after s

variable {M : Machine S σ} {op : S.Op} {answer : σ → S.Ans op} {after : σ → σ}
  {ready : S.Ans op → Bool} {k : S.Ans op → Prog S α} {s s' : σ} {a : α}

theorem Settles.self (h : Settles M op answer after) (s : σ) : M s op (answer s) (after s) :=
  (h s _ _).mpr ⟨rfl, rfl⟩

/-- An operation with one answer goes on in one way. -/
theorem Settles.exec_vis (h : Settles M op answer after) :
    Exec M (.vis op k) s a s' ↔ Exec M (k (answer s)) (after s) a s' := by
  rw [Resumption.exec_vis]
  constructor
  · rintro ⟨x, s₁, hm, run⟩
    obtain ⟨rfl, rfl⟩ := (h _ _ _).mp hm
    exact run
  · intro run
    exact ⟨_, _, h.self s, run⟩

/-- What one performance of the operation leaves, so many leave. -/
theorem iterate_keeps {β : Type} (after : σ → σ) (part : σ → β)
    (keeps : ∀ s, part (after s) = part s) (m : Nat) (s : σ) : part (after^[m] s) = part s := by
  have same : Function.Semiconj part after id := keeps
  rw [(same.iterate_right m).eq, Function.iterate_id, id]

/-- What goes up by one with a performance of the operation counts them. -/
theorem iterate_counts (after : σ → σ) (count : σ → Nat)
    (counts : ∀ s, count (after s) = count s + 1) (m : Nat) (s : σ) :
    count (after^[m] s) = count s + m := by
  induction m with
  | zero => rfl
  | succ m ih => rw [Function.iterate_succ_apply', counts, ih, Nat.add_assoc]

/-- What a wait's answers are worth: the `l`th, asked from `s`. -/
def passes (ready : S.Ans op → Bool) (answer : σ → S.Ans op) (after : σ → σ) (s : σ) (l : Nat) :
    Bool :=
  ready (answer (after^[l] s))

theorem passes_succ (l : Nat) :
    passes ready answer after s (l + 1) = passes ready answer after (after s) l := by
  simp only [passes, Function.iterate_succ_apply]

/-- A first answer that fails puts the first that passes one later. -/
theorem first_passes_succ {m : Nat} : First (passes ready answer after s) (m + 1) ↔
    ready (answer s) = false ∧ First (passes ready answer after (after s)) m := by
  rw [first_succ]
  simp only [passes_succ]
  exact Iff.rfl

/-- A wait is over at the first answer that passes. -/
theorem exec_poll (h : Settles M op answer after) :
    Exec M (.poll op ready k) s a s' ↔ ∃ m, First (passes ready answer after s) m ∧
      Exec M (k (answer (after^[m] s))) (after^[m + 1] s) a s' := by
  constructor
  · intro run
    generalize hp : Prog.poll op ready k = p at run
    induction run with
    | pure => cases hp
    | vis _ _ => cases hp
    | hit hm hr run =>
      cases hp
      obtain ⟨rfl, rfl⟩ := (h _ _ _).mp hm
      exact ⟨0, first_zero.mpr hr, run⟩
    | miss hm hr _ ih =>
      cases hp
      obtain ⟨rfl, rfl⟩ := (h _ _ _).mp hm
      obtain ⟨m, first, run⟩ := ih rfl
      exact ⟨m + 1, first_passes_succ.mpr ⟨hr, first⟩, run⟩
  · rintro ⟨m, first, run⟩
    induction m generalizing s with
    | zero => exact .hit (h.self s) (first_zero.mp first) run
    | succ m ih =>
      obtain ⟨h₀, first⟩ := first_passes_succ.mp first
      exact .miss (h.self s) h₀ (ih first run)

/-- The walk of a wait: `I m` after `m` answers that did not pass. -/
theorem follows_poll_first {ok : σ → S.Op → Prop} {Q : α → σ → Prop}
    (h : Settles M op answer after)
    (waiting : ∀ m, (∀ l < m, passes ready answer after s l = false) → ok (after^[m] s) op)
    (leave : ∀ m, First (passes ready answer after s) m →
      Follows M ok (k (answer (after^[m] s))) Q (after^[m + 1] s)) :
    Follows M ok (.poll op ready k) Q s := by
  have misses : ∀ t x t' m, (∀ l < m, passes ready answer after s l = false) →
      t = after^[m] s → M t op x t' → x = answer (after^[m] s) ∧ t' = after^[m + 1] s := by
    rintro t x t' m none rfl hm
    obtain ⟨rfl, rfl⟩ := (h _ _ _).mp hm
    exact ⟨rfl, (Function.iterate_succ_apply' after m s).symm⟩
  apply follows_poll fun t => ∃ m, t = after^[m] s ∧ ∀ l < m, passes ready answer after s l = false
  · exact ⟨0, rfl, fun l hl => absurd hl (Nat.not_lt_zero l)⟩
  · rintro t ⟨m, rfl, none⟩
    exact waiting m none
  · rintro t x t' ⟨m, ht, none⟩ hm hr
    obtain ⟨rfl, rfl⟩ := misses t x t' m none ht hm
    exact leave m ⟨hr, none⟩
  · rintro t x t' ⟨m, ht, none⟩ hm hr
    obtain ⟨rfl, rfl⟩ := misses t x t' m none ht hm
    refine ⟨m + 1, rfl, fun l hl => ?_⟩
    rcases Nat.lt_succ_iff_lt_or_eq.mp hl with hl | rfl
    · exact none l hl
    · exact hr

/-! ## Waits that give up -/

/-- Perform `op` at most `n` times: go on with `p` from the first answer that is
`ready`, and with `q` when none is. -/
def tries (op : S.Op) (ready : S.Ans op → Bool) (p : S.Ans op → Prog S α) (q : Prog S α) :
    Nat → Prog S α
  | 0 => q
  | n + 1 => .vis op fun x => if ready x then p x else tries op ready p q n

variable {p : S.Ans op → Prog S α} {q : Prog S α} {n : Nat}

theorem exec_tries (h : Settles M op answer after) :
    Exec M (tries op ready p q n) s a s' ↔
      (∃ m < n, First (passes ready answer after s) m ∧
        Exec M (p (answer (after^[m] s))) (after^[m + 1] s) a s') ∨
      (∀ l < n, passes ready answer after s l = false) ∧ Exec M q (after^[n] s) a s' := by
  induction n generalizing s with
  | zero => simp [tries]
  | succ n ih =>
    rw [tries, h.exec_vis]
    by_cases h₀ : ready (answer s) = true
    · rw [if_pos h₀]
      constructor
      · intro run
        exact .inl ⟨0, Nat.succ_pos n, first_zero.mpr h₀, run⟩
      · rintro (⟨m, -, first, run⟩ | ⟨none, -⟩)
        · obtain rfl := first.unique (first_zero.mpr h₀)
          exact run
        · exact absurd h₀ (Bool.eq_false_iff.mp (none 0 (Nat.succ_pos n)))
    · have h₁ : ready (answer s) = false := Bool.eq_false_iff.mpr h₀
      rw [if_neg h₀, ih]
      constructor
      · rintro (⟨m, hm, first, run⟩ | ⟨none, run⟩)
        · exact .inl ⟨m + 1, Nat.succ_lt_succ hm, first_passes_succ.mpr ⟨h₁, first⟩, run⟩
        · refine .inr ⟨fun l hl => ?_, run⟩
          cases l with
          | zero => exact h₁
          | succ l => exact (passes_succ l).trans (none l (Nat.lt_of_succ_lt_succ hl))
      · rintro (⟨m, hm, first, run⟩ | ⟨none, run⟩)
        · cases m with
          | zero => exact absurd first.here h₀
          | succ m =>
            exact .inl ⟨m, Nat.lt_of_succ_lt_succ hm, (first_passes_succ.mp first).2, run⟩
        · refine .inr ⟨fun l hl => ?_, run⟩
          exact (passes_succ l).symm.trans (none (l + 1) (Nat.succ_lt_succ hl))

theorem follows_tries {ok : σ → S.Op → Prop} {Q : α → σ → Prop} (h : Settles M op answer after)
    (waiting : ∀ m < n, (∀ l < m, passes ready answer after s l = false) → ok (after^[m] s) op)
    (leave : ∀ m < n, First (passes ready answer after s) m →
      Follows M ok (p (answer (after^[m] s))) Q (after^[m + 1] s))
    (give_up : (∀ l < n, passes ready answer after s l = false) →
      Follows M ok q Q (after^[n] s)) :
    Follows M ok (tries op ready p q n) Q s := by
  induction n generalizing s with
  | zero => exact give_up fun l hl => absurd hl (Nat.not_lt_zero l)
  | succ n ih =>
    refine ⟨waiting 0 (Nat.succ_pos n) fun l hl => absurd hl (Nat.not_lt_zero l), ?_⟩
    intro x s' hm
    obtain ⟨rfl, rfl⟩ := (h _ _ _).mp hm
    change Follows M ok (if ready (answer s) then _ else _) Q (after s)
    by_cases h₀ : ready (answer s) = true
    · rw [if_pos h₀]
      exact leave 0 (Nat.succ_pos n) (first_zero.mpr h₀)
    · have h₁ : ready (answer s) = false := Bool.eq_false_iff.mpr h₀
      have later : ∀ m, (∀ l < m, passes ready answer after (after s) l = false) →
          ∀ l < m + 1, passes ready answer after s l = false := by
        intro m none l hl
        cases l with
        | zero => exact h₁
        | succ l => exact (passes_succ l).trans (none l (Nat.lt_of_succ_lt_succ hl))
      rw [if_neg h₀]
      apply ih
      · intro m hm none
        exact waiting (m + 1) (Nat.succ_lt_succ hm) (later m none)
      · intro m hm first
        exact leave (m + 1) (Nat.succ_lt_succ hm) (first_passes_succ.mpr ⟨h₁, first⟩)
      · intro none
        exact give_up (later n none)

end Waits

end ToyBootloader.Resumption
