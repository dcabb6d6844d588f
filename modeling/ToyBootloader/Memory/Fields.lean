import Mathlib.Data.Nat.Digits.Defs

/-!
# Fields of packed bytes

A hardware structure is a number whose bits are cut into fields. Its bytes spell the
number, the least significant first, and a field either lies within one byte or is a
run of whole bytes. One rule for each of the two reads a field off the bytes, so the
number itself is never computed. A byte that is not there counts as 0.
-/

namespace ToyBootloader.Memory

/-- The number that bytes spell. -/
def number (bs : List UInt8) : Nat := Nat.ofDigits 256 (bs.map UInt8.toNat)

/-- The `width` bits of a number from bit `lo` on. -/
def field (lo width n : Nat) : Nat := n / 2 ^ lo % 2 ^ width

/-- What holds of the first `k` bytes holds of every byte below `k`. -/
@[elab_as_elim]
theorem forall_byte_lt {motive : UInt8 → Prop} {k : Nat} (c : UInt8) (hc : c.toNat < k)
    (h : ∀ n : Fin k, motive (UInt8.ofNat n)) : motive c := by
  have at_c := h ⟨c.toNat, hc⟩
  rwa [UInt8.ofNat_toNat] at at_c

/-- What holds of 256 bytes holds of every byte. -/
@[elab_as_elim]
theorem forall_byte {motive : UInt8 → Prop} (c : UInt8)
    (h : ∀ n : Fin 256, motive (UInt8.ofNat n)) : motive c :=
  forall_byte_lt c c.toNat_lt h

/-- A mask applies to both sides of an `or`. -/
theorem or_and (x y z : UInt8) : (x ||| y) &&& z = (x &&& z) ||| (y &&& z) :=
  UInt8.toBitVec_inj.mp BitVec.and_or_distrib_right

/-- A low byte and what is shifted above it do not overlap. -/
theorem or_shiftLeft_eight {low : Nat} (h : low < 256) (high : Nat) :
    low ||| high <<< 8 = low + 256 * high := by
  have disjoint := Nat.shiftLeft_add_eq_or_of_lt (i := 8) h high
  rw [Nat.or_comm, ← disjoint, Nat.shiftLeft_eq]
  omega

/-- Two bytes put together. -/
theorem toNat_pair (high low : UInt8) :
    ((high.toUInt16 <<< 8) ||| low.toUInt16).toNat = 256 * high.toNat + low.toNat := by
  have hhigh := high.toNat_lt
  have shifted : high.toNat <<< 8 < 2 ^ 16 := by
    rw [Nat.shiftLeft_eq]
    omega
  rw [UInt16.toNat_or, UInt16.toNat_shiftLeft, UInt8.toNat_toUInt16, UInt8.toNat_toUInt16]
  change high.toNat <<< 8 % 2 ^ 16 ||| low.toNat = _
  rw [Nat.mod_eq_of_lt shifted, Nat.or_comm, or_shiftLeft_eight low.toNat_lt, Nat.add_comm]

/-- A byte of a double word, from bit `n` on. -/
theorem toNat_byte32 {n : UInt32} (h : n.toNat < 32) (x : UInt32) :
    (x >>> n).toUInt8.toNat = x.toNat / 2 ^ n.toNat % 256 := by
  rw [UInt32.toNat_toUInt8, UInt32.toNat_shiftRight, Nat.mod_eq_of_lt h, Nat.shiftRight_eq_div_pow]

@[simp] theorem number_nil : number [] = 0 := rfl

theorem number_cons (b : UInt8) (bs : List UInt8) :
    number (b :: bs) = b.toNat + 256 * number bs := Nat.ofDigits_cons

@[simp] theorem field_zero (lo width : Nat) : field lo width 0 = 0 := by
  unfold field
  rw [Nat.zero_div, Nat.zero_mod]

/-- Past the first byte a field is one of the rest. -/
theorem field_cons (lo width : Nat) (b : UInt8) (bs : List UInt8) :
    field (lo + 8) width (number (b :: bs)) = field lo width (number bs) := by
  have hb := b.toNat_lt
  have tail : (b.toNat + 256 * number bs) / 256 = number bs := by omega
  unfold field
  rw [number_cons, Nat.add_comm lo, Nat.pow_add, ← Nat.div_div_eq_div_mul]
  change (b.toNat + 256 * number bs) / 256 / 2 ^ lo % 2 ^ width = _
  rw [tail]

theorem field_drop (i lo width : Nat) (bs : List UInt8) :
    field (lo + 8 * i) width (number bs) = field lo width (number (bs.drop i)) := by
  induction i generalizing bs with
  | zero => rfl
  | succ i ih =>
    cases bs with
    | nil => rw [List.drop_nil, number_nil, field_zero, field_zero]
    | cons b bs =>
      rw [Nat.mul_succ, ← Nat.add_assoc, field_cons, ih]
      rfl

/-- THE FIELD OF A BYTE: one that does not cross into the next. -/
theorem field_in_byte {lo width : Nat} (h : lo + width ≤ 8) (i : Nat) (bs : List UInt8) :
    field (lo + 8 * i) width (number bs) = field lo width (bs.getD i 0).toNat := by
  rw [field_drop, List.getD_eq_getElem?_getD, ← List.head?_drop]
  cases bs.drop i with
  | nil => rfl
  | cons b rest =>
    have split : 256 * number rest = 2 ^ lo * (2 ^ width * (2 ^ (8 - lo - width) * number rest)) := by
      rw [← Nat.mul_assoc, ← Nat.mul_assoc, ← Nat.pow_add, ← Nat.pow_add]
      rw [show lo + width + (8 - lo - width) = 8 by omega]
    unfold field
    rw [number_cons, split, Nat.add_mul_div_left _ _ (Nat.two_pow_pos lo), Nat.add_mul_mod_self_left]
    rfl

/-- A byte is the field it fills. -/
theorem field_byte (i : Nat) (bs : List UInt8) :
    field (8 * i) 8 (number bs) = (bs.getD i 0).toNat := by
  have first := field_in_byte (show 0 + 8 ≤ 8 by decide) i bs
  rw [Nat.zero_add] at first
  rw [first]
  unfold field
  rw [Nat.pow_zero, Nat.div_one, Nat.mod_eq_of_lt (bs.getD i 0).toNat_lt]

/-- A field is its lower bits and, above them, the rest. -/
theorem field_split (lo a b n : Nat) :
    field lo (a + b) n = field lo a n + 2 ^ a * field (lo + a) b n := by
  unfold field
  rw [Nat.pow_add, Nat.mod_mul, Nat.div_div_eq_div_mul, ← Nat.pow_add]

/-- THE FIELD OF BYTES, a byte at a time. -/
theorem field_of_bytes (i k : Nat) (bs : List UInt8) :
    field (8 * i) (8 * (k + 1)) (number bs) =
      (bs.getD i 0).toNat + 256 * field (8 * (i + 1)) (8 * k) (number bs) := by
  rw [Nat.mul_succ, Nat.add_comm, field_split, field_byte, Nat.mul_succ]
  rfl

end ToyBootloader.Memory
