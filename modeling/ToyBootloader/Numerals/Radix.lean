import Mathlib.Data.List.Basic

/-!
# Numerals

A number written in a radix, a character for a digit. It is read back a digit at a time,
the least significant first (`value`); as it is printed, the most significant comes first
(`Numeral`). Zeros in front change nothing, and letters of either case are the same digits.
-/

namespace ToyBootloader.Numerals

/-- What a character is worth as a digit. -/
def digit? (c : UInt8) : Option Nat :=
  if 0x30 ≤ c ∧ c ≤ 0x39 then some (c.toNat - 0x30)
  else if 0x41 ≤ c ∧ c ≤ 0x5A then some (c.toNat - 0x41 + 10)
  else if 0x61 ≤ c ∧ c ≤ 0x7A then some (c.toNat - 0x61 + 10)
  else none

/-- The number that characters spell, the least significant first. -/
def value (radix : Nat) : List UInt8 → Option Nat
  | [] => some 0
  | c :: cs => match digit? c, value radix cs with
    | some d, some n => if d < radix then some (d + radix * n) else none
    | _, _ => none

/-- A numeral of the number, as it is printed. -/
def Numeral (radix : Nat) (cs : List UInt8) (n : Nat) : Prop :=
  cs ≠ [] ∧ value radix cs.reverse = some n

variable {radix n d : Nat} {c : UInt8} {cs : List UInt8}

theorem value_cons (hc : digit? c = some d) (hd : d < radix) (hn : value radix cs = some n) :
    value radix (c :: cs) = some (d + radix * n) := by
  rw [value, hc, hn]
  exact if_pos hd

/-- Every character of what can be read is a digit. -/
theorem isSome_digit (h : value radix cs = some n) (hc : c ∈ cs) : (digit? c).isSome = true := by
  induction cs generalizing n with
  | nil => exact absurd hc List.not_mem_nil
  | cons c' cs ih =>
    rw [value] at h
    split at h
    next d m here rest =>
      rcases List.mem_cons.mp hc with rfl | hc
      · rw [here]
        rfl
      · exact ih rest hc
    next => cases h

theorem value_zeros (hr : 0 < radix) (k : Nat) :
    value radix (List.replicate k 0x30) = some 0 := by
  induction k with
  | zero => rfl
  | succ k ih => exact value_cons rfl hr ih

/-- Zeros in front of a numeral come last here. -/
theorem value_append_zeros (hr : 0 < radix) (h : value radix cs = some n) (k : Nat) :
    value radix (cs ++ List.replicate k 0x30) = some n := by
  induction cs generalizing n with
  | nil => exact (value_zeros hr k).trans h
  | cons c cs ih =>
    rw [value] at h
    split at h
    next d m here rest =>
      split at h
      next hd => exact (value_cons here hd (ih rest)).trans h
      next => cases h
    next => cases h

namespace Numeral

/-- A text is a numeral of one number. -/
theorem unique {m : Nat} (h : Numeral radix cs n) (h' : Numeral radix cs m) : n = m :=
  Option.some.inj (h.2.symm.trans h'.2)

/-- There is nothing but digits in it. -/
theorem isSome (h : Numeral radix cs n) (hc : c ∈ cs) : (digit? c).isSome = true :=
  isSome_digit h.2 (List.mem_reverse.mpr hc)

theorem notMem (h : Numeral radix cs n) (hc : digit? c = none) : c ∉ cs := fun there => by
  have some := h.isSome there
  rw [hc] at some
  cases some

/-- Digits from the least significant on, turned round and filled up with zeros. -/
theorem of_value (hr : 0 < radix) (ne : cs ≠ []) (h : value radix cs = some n) (k : Nat) :
    Numeral radix (List.replicate k 0x30 ++ cs.reverse) n := by
  refine ⟨fun nothing => ne (List.reverse_eq_nil_iff.mp (List.append_eq_nil_iff.mp nothing).2), ?_⟩
  rw [List.reverse_append, List.reverse_reverse, List.reverse_replicate]
  exact value_append_zeros hr h k

end Numeral

end ToyBootloader.Numerals
