import Mathlib.Data.List.Chain

/-!
# Runs of equal elements

A list falls into runs of equal elements, and `spell` puts one together from blocks of an
element and a number. Where neighbouring blocks differ and none is empty the blocks are the
runs, and no other numbers spell the same list (`spell_inj`): with a block left empty, or
cut short, there is one run too few.

A list whose elements each come with a number is spelt twice from the same runs, once by
the numbers and once as it stands. `tally` has both, and `spell_eq_iff` compares them.
-/

namespace ToyBootloader.Sequences

variable {α : Type}

/-! ## Blocks -/

/-- Each element as often as its number says. -/
def spell (blocks : List (α × Nat)) : List α := blocks.flatMap fun b => List.replicate b.2 b.1

theorem spell_cons (c : α) (n : Nat) (blocks : List (α × Nat)) :
    spell ((c, n) :: blocks) = List.replicate n c ++ spell blocks := List.flatMap_cons

/-- Blocks that spell runs: none is empty, and neighbours differ. -/
structure Proper (blocks : List (α × Nat)) : Prop where
  pos : ∀ b ∈ blocks, 0 < b.2
  chain : blocks.IsChain fun a b => a.1 ≠ b.1

section Proper

variable {c : α} {n : Nat} {J : List (α × Nat)}

theorem Proper.tail (h : Proper ((c, n) :: J)) : Proper J :=
  ⟨fun b hb => h.pos b (List.mem_cons_of_mem _ hb), h.chain.tail⟩

/-- What comes after the first block begins with something else. -/
theorem Proper.head_ne (h : Proper ((c, n) :: J)) : (spell J).head? ≠ some c := by
  cases J with
  | nil => exact (Option.some_ne_none c).symm
  | cons b J =>
    obtain ⟨d, m⟩ := b
    obtain ⟨m, rfl⟩ := Nat.exists_eq_succ_of_ne_zero
      (Nat.ne_of_gt (h.pos (d, m) (List.mem_cons_of_mem _ List.mem_cons_self)))
    have differ : c ≠ d := (List.isChain_cons_cons.mp h.chain).1
    exact fun same => differ (Option.some.inj same).symm

end Proper

/-! ## How many runs there are -/

section Runs

variable [DecidableEq α] {J K : List (α × Nat)}

/-- How many runs a list has. -/
def runs : List α → Nat
  | [] => 0
  | a :: l => if l.head? = some a then runs l else runs l + 1

theorem runs_cons_le (a : α) (l : List α) : runs (a :: l) ≤ runs l + 1 := by
  rw [runs]
  split
  · exact Nat.le_succ _
  · exact le_rfl

/-- One more of the element at the head makes no run. -/
theorem runs_cons_same {a : α} {l : List α} (h : l.head? = some a) : runs (a :: l) = runs l :=
  if_pos h

/-- A block in front makes one run at most. -/
theorem runs_replicate_append_le (n : Nat) (c : α) (l : List α) :
    runs (List.replicate n c ++ l) ≤ runs l + 1 := by
  induction n with
  | zero => exact Nat.le_succ _
  | succ n ih =>
    cases n with
    | zero => exact runs_cons_le c l
    | succ n => exact (runs_cons_same (l := List.replicate (n + 1) c ++ l) rfl).trans_le ih

/-- It makes one where it is not empty and something else comes next. -/
theorem runs_replicate_append {n : Nat} {c : α} {l : List α} (hn : 0 < n) (h : l.head? ≠ some c) :
    runs (List.replicate n c ++ l) = runs l + 1 := by
  obtain ⟨n, rfl⟩ := Nat.exists_eq_succ_of_ne_zero (Nat.ne_of_gt hn)
  clear hn
  induction n with
  | zero => exact if_neg h
  | succ n ih => exact (runs_cons_same (l := List.replicate (n + 1) c ++ l) rfl).trans ih

/-- There are no more runs than blocks. -/
theorem runs_spell_le (K : List (α × Nat)) : runs (spell K) ≤ K.length := by
  induction K with
  | nil => exact le_rfl
  | cons b K ih => exact (runs_replicate_append_le b.2 b.1 _).trans (Nat.succ_le_succ ih)

/-- Proper blocks are the runs. -/
theorem Proper.runs_spell (h : Proper J) : runs (spell J) = J.length := by
  induction J with
  | nil => rfl
  | cons b J ih =>
    obtain ⟨c, n⟩ := b
    rw [spell_cons, runs_replicate_append (h.pos _ List.mem_cons_self) h.head_ne, ih h.tail]
    rfl

/-- No other numbers spell the same list. -/
theorem spell_inj (h : Proper J) (elements : K.map Prod.fst = J.map Prod.fst)
    (same : spell K = spell J) : K = J := by
  induction J generalizing K with
  | nil => exact List.map_eq_nil_iff.mp elements
  | cons b J ih =>
    obtain ⟨c, n⟩ := b
    cases K with
    | nil => exact absurd elements.symm (List.cons_ne_nil _ _)
    | cons a K =>
      obtain ⟨d, m⟩ := a
      obtain ⟨rfl, others⟩ := List.cons.inj elements
      have lengths : K.length = J.length := by
        rw [← List.length_map Prod.fst, others, List.length_map]
      rw [spell_cons, spell_cons] at same
      rcases Nat.lt_trichotomy m n with less | rfl | more
      · -- What is left of the first run is one run more than the blocks that are left.
        obtain ⟨k, rfl⟩ := Nat.exists_eq_add_of_lt less
        rw [Nat.add_assoc, List.replicate_add, List.append_assoc] at same
        have rest := List.append_cancel_left same
        have more := runs_replicate_append (Nat.succ_pos k) h.head_ne
        have most := runs_spell_le K
        rw [rest, more, h.tail.runs_spell] at most
        omega
      · rw [ih h.tail others (List.append_cancel_left same)]
      · obtain ⟨k, rfl⟩ := Nat.exists_eq_add_of_lt more
        rw [Nat.add_assoc, List.replicate_add, List.append_assoc] at same
        have rest := List.append_cancel_left same
        exact absurd (congrArg List.head? rest).symm h.head_ne

end Runs

/-! ## Elements with numbers -/

section Tally

variable [DecidableEq α]

/-- The runs of the elements, each with how many there are and the sum of their numbers. -/
def tally : List (α × Nat) → List (α × Nat × Nat)
  | [] => []
  | (c, m) :: l => match tally l with
    | [] => [(c, 1, m)]
    | (d, n, s) :: rest =>
      if c = d then (c, n + 1, m + s) :: rest else (c, 1, m) :: (d, n, s) :: rest

/-- The runs with how many there are. -/
def counts (t : List (α × Nat × Nat)) : List (α × Nat) := t.map fun r => (r.1, r.2.1)

/-- The runs with their sums. -/
def sums (t : List (α × Nat × Nat)) : List (α × Nat) := t.map fun r => (r.1, r.2.2)

theorem spell_counts (l : List (α × Nat)) : spell (counts (tally l)) = l.map Prod.fst := by
  fun_induction tally l with
  | case1 => rfl
  | case2 c m l nothing ih =>
    rw [nothing] at ih
    rw [List.map_cons, ← ih]
    rfl
  | case3 m l d n s rest first ih =>
    rw [first] at ih
    rw [List.map_cons, ← ih]
    rfl
  | case4 c m l d n s rest first differ ih =>
    rw [first] at ih
    rw [List.map_cons, ← ih]
    rfl

theorem spell_sums (l : List (α × Nat)) : spell (sums (tally l)) = spell l := by
  fun_induction tally l with
  | case1 => rfl
  | case2 c m l nothing ih =>
    rw [nothing] at ih
    rw [spell_cons, ← ih]
    rfl
  | case3 m l d n s rest first ih =>
    rw [first] at ih
    rw [spell_cons, ← ih]
    change List.replicate (m + s) d ++ _ = List.replicate m d ++ (List.replicate s d ++ _)
    rw [List.replicate_add, List.append_assoc]
  | case4 c m l d n s rest first differ ih =>
    rw [first] at ih
    rw [spell_cons, ← ih]
    rfl

theorem proper_counts (l : List (α × Nat)) : Proper (counts (tally l)) := by
  fun_induction tally l with
  | case1 => exact ⟨fun _ h => absurd h List.not_mem_nil, .nil⟩
  | case2 => exact ⟨by simp [counts], .singleton _⟩
  | case3 m l d n s rest first ih =>
    rw [first] at ih
    refine ⟨List.forall_mem_cons.mpr ⟨Nat.succ_pos n, ih.tail.pos⟩, ?_⟩
    have chain := ih.chain
    cases rest with
    | nil => exact .singleton _
    | cons r rest => exact .cons_cons (List.isChain_cons_cons.mp chain).1 chain.tail
  | case4 c m l d n s rest first differ ih =>
    rw [first] at ih
    exact ⟨List.forall_mem_cons.mpr ⟨Nat.one_pos, ih.pos⟩, .cons_cons differ ih.chain⟩

/-- THE COMPARISON: the numbers spell the elements as they stand exactly where they sum up, in
every run, to its length. -/
theorem spell_eq_iff (l : List (α × Nat)) :
    spell l = l.map Prod.fst ↔ ∀ r ∈ tally l, r.2.2 = r.2.1 := by
  have elements : (sums (tally l)).map Prod.fst = (counts (tally l)).map Prod.fst := by
    unfold sums counts
    rw [List.map_map, List.map_map]
    rfl
  rw [← spell_counts, ← spell_sums]
  constructor
  · intro same r hr
    have blocks := spell_inj (proper_counts l) elements same
    have here := List.map_inj_left.mp blocks r hr
    exact congrArg Prod.snd here
  · intro equal
    exact congrArg spell (List.map_congr_left fun r hr => congrArg (Prod.mk r.1) (equal r hr))

end Tally

end ToyBootloader.Sequences
