import Mathlib.Algebra.Order.Ring.Nat
import Mathlib.Data.Nat.Digits.Lemmas
import ToyBootloader.Memory.Fields

/-!
# Packed structs of bit-fields

A packed struct of bit-fields is laid out in the order of its declaration, from the least
significant bit up and without gaps, across the bounds of bytes. So where a field lies is
the sum of the widths before it, and its value is that field of the number the bytes spell.
-/

namespace ToyBootloader.Memory

/-- A declaration: the fields in order, each with its width. One without a name is padding. -/
abbrev BitFields (F : Type) := List (Option F × Nat)

namespace BitFields

variable {F : Type} [DecidableEq F]

/-- The bit a field begins at. -/
def offset (f : F) : BitFields F → Nat
  | [] => 0
  | (name, width) :: rest => if name = some f then 0 else width + offset f rest

/-- How many bits it has. -/
def width (f : F) : BitFields F → Nat
  | [] => 0
  | (name, width) :: rest => if name = some f then width else BitFields.width f rest

/-- A field of a struct that lies in these bytes. -/
def read (f : F) (s : BitFields F) (bs : List UInt8) : Nat :=
  field (s.offset f) (s.width f) (number bs)

/-- The bits of the whole struct. -/
def size (s : BitFields F) : Nat := (s.map Prod.snd).sum

end BitFields

/-! ## Fields of adjacent objects -/

theorem number_append (as bs : List UInt8) :
    number (as ++ bs) = number as + 2 ^ (8 * as.length) * number bs := by
  unfold number
  rw [List.map_append, Nat.ofDigits_append, List.length_map, Nat.pow_mul]

/-- A field of the first object. -/
theorem field_append_left {lo width : Nat} {as : List UInt8} (h : lo + width ≤ 8 * as.length)
    (bs : List UInt8) : field lo width (number (as ++ bs)) = field lo width (number as) := by
  obtain ⟨k, hk⟩ := Nat.exists_eq_add_of_le h
  have split : 2 ^ (8 * as.length) * number bs = 2 ^ lo * (2 ^ width * (2 ^ k * number bs)) := by
    rw [hk, Nat.pow_add, Nat.pow_add, Nat.mul_assoc, Nat.mul_assoc]
  unfold field
  rw [number_append, split, Nat.add_mul_div_left _ _ (Nat.two_pow_pos lo),
    Nat.add_mul_mod_self_left]

/-- A field of the second. -/
theorem field_append_right (lo width : Nat) (as bs : List UInt8) :
    field (lo + 8 * as.length) width (number (as ++ bs)) = field lo width (number bs) := by
  rw [field_drop, List.drop_left]

end ToyBootloader.Memory
