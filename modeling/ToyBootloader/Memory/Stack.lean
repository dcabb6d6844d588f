import ToyBootloader.Memory.Bytes
import ToyBootloader.Memory.Fields

/-!
# Words in 32-bit memory

Memory here has a byte at every 32-bit address, and addresses wrap around as the
processor's do, so nothing is assumed of where a stack lies. `Words m p ws` says that
`ws` lie one after the other from `p` upwards: a stack with its top at `p`. Pushing
puts a word in front (`Words.push`), and what changes no byte of the words leaves them
(`Words.congr`).
-/

namespace ToyBootloader.Memory

/-- A byte at every 32-bit address. -/
abbrev Mem32 := UInt32 → UInt8

/-- The word at `a`, its least significant byte first. -/
def load32 (m : Mem32) (a : UInt32) : UInt32 :=
  UInt32.ofNat (number [m a, m (a + 1), m (a + 2), m (a + 3)])

/-- Memory with the word `x` at `a`. -/
def store32 (m : Mem32) (a x : UInt32) : Mem32 :=
  fun b => (bytesLE x.toNat 4).getD (b - a).toNat (m b)

variable {m m' : Mem32} {a b p x w : UInt32} {ws : List UInt32}

theorem store32_outside (h : 4 ≤ (b - a).toNat) : store32 m a x b = m b := by
  unfold store32
  rw [List.getD_eq_getElem?_getD, List.getElem?_eq_none (by rw [length_bytesLE]; exact h)]
  rfl

theorem load32_congr (h : ∀ k < 4, m' (a + UInt32.ofNat k) = m (a + UInt32.ofNat k)) :
    load32 m' a = load32 m a := by
  have h₀ : m' a = m a := by simpa using h 0 (by decide)
  have h₁ : m' (a + 1) = m (a + 1) := h 1 (by decide)
  have h₂ : m' (a + 2) = m (a + 2) := h 2 (by decide)
  have h₃ : m' (a + 3) = m (a + 3) := h 3 (by decide)
  unfold load32
  rw [h₀, h₁, h₂, h₃]

/-- Four bytes spell their word. -/
theorem number_bytesLE (x : UInt32) : number (bytesLE x.toNat 4) = x.toNat := by
  have hx := x.toNat_lt
  simp only [bytesLE, number_cons, number_nil, UInt8.toNat_ofNat']
  omega

/-- What was stored is loaded. -/
theorem load32_store32 : load32 (store32 m a x) a = x := by
  have at_self : (a - a).toNat = 0 := by rw [UInt32.sub_self]; rfl
  have at_next : ∀ k : UInt32, (a + k - a).toNat = k.toNat := by
    intro k
    rw [UInt32.add_comm, UInt32.add_sub_cancel]
  unfold load32 store32
  rw [at_self, at_next, at_next, at_next]
  exact (congrArg UInt32.ofNat (number_bytesLE x)).trans (UInt32.ofNat_toNat)

/-- Each word is 4 bytes further up. -/
theorem add_words_succ (p : UInt32) (n : Nat) :
    p + UInt32.ofNat (4 * (n + 1)) = p + 4 + UInt32.ofNat (4 * n) := by
  rw [Nat.mul_succ, UInt32.ofNat_add, UInt32.add_comm (UInt32.ofNat (4 * n)), UInt32.add_assoc]
  rfl

/-- The words from `p` upwards. -/
def Words (m : Mem32) : (p : UInt32) → List UInt32 → Prop
  | _, [] => True
  | p, w :: ws => load32 m p = w ∧ Words m (p + 4) ws

/-- Words depend on their own bytes only. -/
theorem Words.congr (h : Words m p ws)
    (same : ∀ k < 4 * ws.length, m' (p + UInt32.ofNat k) = m (p + UInt32.ofNat k)) :
    Words m' p ws := by
  induction ws generalizing p with
  | nil => trivial
  | cons w ws ih =>
    rw [List.length_cons] at same
    constructor
    · rw [load32_congr fun k hk => same k (by omega)]
      exact h.1
    · apply ih h.2
      intro k hk
      have further : p + 4 + UInt32.ofNat k = p + UInt32.ofNat (k + 4) := by
        rw [UInt32.ofNat_add, UInt32.add_comm (UInt32.ofNat k), UInt32.add_assoc]
        rfl
      rw [further]
      exact same (k + 4) (by omega)

/-- The word at a place among them. -/
theorem Words.load (h : Words m p ws) {i : Nat} (hi : i < ws.length) :
    load32 m (p + UInt32.ofNat (4 * i)) = ws[i] := by
  induction ws generalizing p i with
  | nil => exact absurd hi (Nat.not_lt_zero i)
  | cons w ws ih =>
    cases i with
    | zero => exact (congrArg (load32 m) (UInt32.add_zero p)).trans h.1
    | succ i =>
      rw [add_words_succ]
      exact ih h.2 (Nat.lt_of_succ_lt_succ hi)

/-- The words above some of them. -/
theorem Words.drop {us : List UInt32} (h : Words m p (us ++ ws)) :
    Words m (p + UInt32.ofNat (4 * us.length)) ws := by
  induction us generalizing p with
  | nil =>
    have same : p + UInt32.ofNat (4 * 0) = p := UInt32.add_zero p
    rw [List.length_nil, same]
    exact h
  | cons u us ih =>
    rw [List.length_cons, add_words_succ]
    exact ih h.2

/-- THE PUSH: a word stored below the others comes in front of them. -/
theorem Words.push (h : Words m p ws) (fits : 4 * ws.length + 4 ≤ 2 ^ 32) :
    Words (store32 m (p - 4) x) (p - 4) (x :: ws) := by
  constructor
  · exact load32_store32
  · rw [UInt32.sub_add_cancel]
    apply h.congr
    intro k hk
    have offset : p + UInt32.ofNat k - (p - 4) = UInt32.ofNat (k + 4) := by
      rw [UInt32.ofNat_add]
      grind
    apply store32_outside
    rw [offset, UInt32.toNat_ofNat_of_lt' (by rw [UInt32.size]; omega)]
    exact Nat.le_add_left 4 k

end ToyBootloader.Memory
