import Mathlib.Algebra.Group.Nat.Defs

/-!
# Byte memory

Memory is a byte at every address, and a word is the number its bytes spell,
the least significant first. Three facts carry everything said about words: a
word depends on its own bytes only, what was written reads back, and writing
changes nothing else.
-/

namespace ToyBootloader.Memory

/-- A byte at every address. -/
abbrev Mem := Nat → UInt8

namespace Mem

variable {m m' : Mem} {a n v : Nat}

/-- Memory with one byte written. -/
def set (m : Mem) (a : Nat) (b : UInt8) : Mem := fun x => if x = a then b else m x

@[simp] theorem set_self (m : Mem) (a : Nat) (b : UInt8) : m.set a b a = b := if_pos rfl

theorem set_ne (m : Mem) {a x : Nat} (b : UInt8) (h : x ≠ a) : m.set a b x = m x := if_neg h

/-- The number that `n` bytes from `a` on spell. -/
def readLE (m : Mem) : (a n : Nat) → Nat
  | _, 0 => 0
  | a, n + 1 => (m a).toNat + 256 * readLE m (a + 1) n

/-- A word depends on its own bytes only. -/
theorem readLE_congr : ∀ {n a : Nat}, (∀ x, a ≤ x → x < a + n → m x = m' x) →
    m.readLE a n = m'.readLE a n
  | 0, _, _ => rfl
  | n + 1, a, h => by
    have htail : m.readLE (a + 1) n = m'.readLE (a + 1) n :=
      readLE_congr fun x hlo hhi => h x (by omega) (by omega)
    simp only [readLE, htail, h a (Nat.le_refl a) (by omega)]

theorem readLE_zero : ∀ {n a : Nat}, (∀ x, a ≤ x → x < a + n → m x = 0) → m.readLE a n = 0
  | 0, _, _ => rfl
  | n + 1, a, h => by
    have htail : m.readLE (a + 1) n = 0 :=
      readLE_zero fun x hlo hhi => h x (by omega) (by omega)
    simp only [readLE, htail, h a (Nat.le_refl a) (by omega)]
    rfl

end Mem

/-- The `n` bytes that spell `v`. -/
def bytesLE : (v n : Nat) → List UInt8
  | _, 0 => []
  | v, n + 1 => UInt8.ofNat v :: bytesLE (v / 256) n

@[simp] theorem length_bytesLE : ∀ v n : Nat, (bytesLE v n).length = n
  | _, 0 => rfl
  | v, n + 1 => congrArg (· + 1) (length_bytesLE (v / 256) n)

namespace Mem

/-- Memory with bytes written from `a` on. -/
def write (m : Mem) : (a : Nat) → List UInt8 → Mem
  | _, [] => m
  | a, b :: bs => (m.set a b).write (a + 1) bs

/-- Writing changes nothing else. -/
theorem write_outside : ∀ {bs : List UInt8} {m : Mem} {a x : Nat},
    x < a ∨ a + bs.length ≤ x → m.write a bs x = m x
  | [], _, _, _, _ => rfl
  | b :: bs, m, a, x, h => by
    simp only [List.length_cons] at h
    rw [write, write_outside (by omega), set_ne m b (by omega)]

/-- The byte an address was written with. -/
theorem write_inside {bs : List UInt8} (m : Mem) (a : Nat) {i : Nat} (h : i < bs.length) :
    m.write a bs (a + i) = bs[i] := by
  induction bs generalizing m a i with
  | nil => exact absurd h (Nat.not_lt_zero i)
  | cons b bs ih =>
    cases i with
    | zero =>
      rw [List.getElem_cons_zero]
      exact (write_outside (.inl (Nat.lt_succ_self a))).trans (set_self m a b)
    | succ i =>
      rw [List.getElem_cons_succ, ← ih (m.set a b) (a + 1) (Nat.lt_of_succ_lt_succ h),
        Nat.add_right_comm]
      rfl

/-- What was written reads back. -/
theorem readLE_write : ∀ {n v : Nat} {m : Mem} {a : Nat}, v < 256 ^ n →
    (m.write a (bytesLE v n)).readLE a n = v
  | 0, v, _, _, h => (Nat.lt_one_iff.mp h).symm
  | n + 1, v, m, a, h => by
    have hquot : v / 256 < 256 ^ n := by
      rw [Nat.div_lt_iff_lt_mul (by decide)]
      exact h
    have hfirst : (m.write a (bytesLE v (n + 1))) a = UInt8.ofNat v := by
      rw [bytesLE, write, write_outside (.inl (Nat.lt_succ_self a)), set_self]
    have hrest : (m.write a (bytesLE v (n + 1))).readLE (a + 1) n = v / 256 := readLE_write hquot
    have hdiv := Nat.div_add_mod v 256
    rw [readLE, hfirst, hrest, UInt8.toNat_ofNat']
    omega

end Mem

end ToyBootloader.Memory
