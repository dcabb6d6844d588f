import Mathlib.Data.List.Chain

/-!
# Placement

What a linker script's arithmetic is made of: rounding a location counter up to
an alignment, placing sections one after another, and counting the whole blocks
that hold a section. Nothing here says what is placed.

An `Extent` is a start and a length, and `Before` is the order a location
counter places in. It is transitive, and that is the whole of the disjointness
argument: a chain of extents each before the next is pairwise disjoint
(`disjoint_of_chain`).
-/

namespace ToyBootloader.Placement

variable {a b addr n : Nat}

/-! ## Alignment -/

/-- The first multiple of `a` from `addr` on: `ALIGN(addr, a)`. -/
def alignUp (a addr : Nat) : Nat := (addr + (a - 1)) / a * a

theorem dvd_alignUp : a ∣ alignUp a addr := Nat.dvd_mul_left a _

theorem le_alignUp (ha : 0 < a) : addr ≤ alignUp a addr := by
  have h := Nat.lt_div_mul_add ha (a := addr + (a - 1))
  unfold alignUp
  omega

/-- Nothing aligned lies between. -/
theorem alignUp_le (hb : a ∣ b) (h : addr ≤ b) : alignUp a addr ≤ b := by
  obtain ⟨k, rfl⟩ := hb
  rcases Nat.eq_zero_or_pos a with rfl | ha
  · simp [alignUp]
  · have hk : (addr + (a - 1)) / a < k + 1 := by
      rw [Nat.div_lt_iff_lt_mul ha, Nat.add_mul, Nat.mul_comm k a]
      omega
    unfold alignUp
    rw [Nat.mul_comm a k]
    exact Nat.mul_le_mul_right a (Nat.le_of_lt_succ hk)

theorem alignUp_mono (ha : 0 < a) (h : addr ≤ b) : alignUp a addr ≤ alignUp a b :=
  alignUp_le dvd_alignUp (Nat.le_trans h (le_alignUp ha))

/-! ## Whole blocks -/

/-- How many blocks of `a` hold `n` bytes. -/
def blocks (a n : Nat) : Nat := (a - 1 + n) / a

theorem mul_blocks_lt (ha : 0 < a) : a * blocks a n < n + a := by
  have h := Nat.div_mul_le_self (a - 1 + n) a
  unfold blocks
  rw [Nat.mul_comm]
  omega

/-- Rounding the end of a range up is rounding its length up, when the range
starts aligned. -/
theorem add_mul_blocks_le (ha : 0 < a) (hb : a ∣ b) :
    b + a * blocks a n ≤ alignUp a (b + n) := by
  obtain ⟨k, rfl⟩ := hb
  have h : (a - 1 + n) / a + k = (a * k + n + (a - 1)) / a := by
    rw [show a * k + n + (a - 1) = (a - 1 + n) + k * a by rw [Nat.mul_comm k a]; omega,
      Nat.add_mul_div_right _ _ ha]
  unfold alignUp blocks
  rw [← h, Nat.add_mul, Nat.mul_comm k a, Nat.mul_comm _ a]
  omega

/-! ## Sections -/

/-- A section to be placed: its size, and the alignment its start needs. -/
structure Section where
  size : Nat
  alignment : Nat
  aligned : 0 < alignment

/-- The location counter after placing sections one after another from `addr`. -/
def counter (addr : Nat) : List Section → Nat
  | [] => addr
  | s :: ss => counter (alignUp s.alignment addr + s.size) ss

theorem le_counter : ∀ (ss : List Section) (addr : Nat), addr ≤ counter addr ss
  | [], addr => Nat.le_refl addr
  | t :: ss, addr => by
    have ht : addr ≤ alignUp t.alignment addr := le_alignUp t.aligned
    have ih := le_counter ss (alignUp t.alignment addr + t.size)
    unfold counter
    omega

/-- The counter passes over every size. -/
theorem add_size_le_counter {s : Section} :
    ∀ {ss : List Section} {addr : Nat}, s ∈ ss → addr + s.size ≤ counter addr ss
  | t :: ss, addr, h => by
    have ht : addr ≤ alignUp t.alignment addr := le_alignUp t.aligned
    unfold counter
    rcases List.mem_cons.mp h with rfl | h
    · have := le_counter ss (alignUp s.alignment addr + s.size)
      omega
    · have ih : alignUp t.alignment addr + t.size + s.size ≤
          counter (alignUp t.alignment addr + t.size) ss := add_size_le_counter h
      omega

/-! ## Extents -/

/-- A range of addresses, or of sectors. -/
structure Extent where
  start : Nat
  len : Nat
  deriving DecidableEq, Repr

namespace Extent

/-- The first address past the extent. -/
def stop (e : Extent) : Nat := e.start + e.len

def Mem (e : Extent) (x : Nat) : Prop := e.start ≤ x ∧ x < e.stop

instance (e : Extent) (x : Nat) : Decidable (e.Mem x) :=
  inferInstanceAs (Decidable (e.start ≤ x ∧ x < e.stop))

def Disjoint (e f : Extent) : Prop := ∀ x, ¬ (e.Mem x ∧ f.Mem x)

/-- `e` is over when `f` starts. -/
def Before (e f : Extent) : Prop := e.stop ≤ f.start

instance : Trans Before Before Before where
  trans {e f g} hef hfg := by
    unfold Before stop at *
    omega

theorem Before.disjoint {e f : Extent} (h : Before e f) : Disjoint e f := by
  rintro x ⟨⟨-, he⟩, ⟨hf, -⟩⟩
  unfold Before at h
  omega

/-- Extents in the order of a location counter are pairwise disjoint. -/
theorem disjoint_of_chain {es : List Extent} (h : es.IsChain Before) :
    es.Pairwise Disjoint :=
  (List.isChain_iff_pairwise.mp h).imp Before.disjoint

end Extent

end ToyBootloader.Placement
