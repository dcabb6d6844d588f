import Mathlib.Data.Nat.Digits.Lemmas
import Mathlib.Tactic.Ring
import ToyBootloader.Numerals.Radix

/-!
# Numbers in a field

A number as it is printed: a sign, the mark of its radix and its digits, in a field that is
filled up with blanks or with zeros. `scan` reads such a text again, as far as the number
goes. Whatever the field was filled up with, it finds the number (`Figure.scan_text`).
-/

namespace ToyBootloader.Numerals

/-! ## Reading -/

/-- The digits at the beginning, on from what has been read. -/
def digitsFrom (radix : Nat) : List UInt8 → Nat → Nat × List UInt8
  | [], n => (n, [])
  | c :: cs, n => match digit? c with
    | some d => if d < radix then digitsFrom radix cs (n * radix + d) else (n, c :: cs)
    | none => (n, c :: cs)

/-- Whether there is a minus, and what comes after the sign. -/
def takeMinus : List UInt8 → Bool × List UInt8
  | [] => (false, [])
  | c :: cs => if c = 0x2D then (true, cs) else if c = 0x2B then (false, cs) else (false, c :: cs)

/-- What comes after the mark of a hexadecimal number. -/
def skipMark (radix : Nat) (cs : List UInt8) : List UInt8 :=
  if radix = 16 ∧ (cs.take 2 = [0x30, 0x58] ∨ cs.take 2 = [0x30, 0x78]) then cs.drop 2 else cs

/-- The number at the beginning of a text, and what comes after it. -/
def scan (radix : Nat) (cs : List UInt8) : Option (Int × List UInt8) :=
  let (minus, cs) := takeMinus (cs.dropWhile (· = 0x20))
  let cs := skipMark radix cs
  let (n, rest) := digitsFrom radix cs 0
  if rest.length = cs.length then none else some (if minus then -n else n, rest)

/-- What comes after a number: nothing that could belong to it. -/
def Stops (rest : List UInt8) : Prop := ∀ c ∈ rest.head?, digit? c = none

section Reading

variable {radix n k : Nat} {c : UInt8} {cs rest : List UInt8}

theorem Stops.nil : Stops [] := fun _ h => by cases h

theorem Stops.cons (h : digit? c = none) : Stops (c :: rest) := by
  intro c' here
  cases here
  exact h

/-- Blanks stop, and so does what comes after none. -/
theorem Stops.blanks (h : Stops rest) (k : Nat) : Stops (List.replicate k 0x20 ++ rest) := by
  cases k with
  | zero => exact h
  | succ k => exact .cons rfl

/-- The most significant digit, for its place. -/
theorem value_snoc (h : value radix (cs ++ [c]) = some n) :
    ∃ d m, digit? c = some d ∧ d < radix ∧ value radix cs = some m ∧
      n = m + radix ^ cs.length * d := by
  induction cs generalizing n with
  | nil =>
    rw [List.nil_append, value] at h
    split at h
    next d m here none =>
      split at h
      next hd =>
        cases none
        refine ⟨d, 0, here, hd, rfl, ?_⟩
        rw [← Option.some.inj h, List.length_nil, Nat.pow_zero]
        omega
      next => cases h
    next => cases h
  | cons c' cs ih =>
    rw [List.cons_append, value] at h
    split at h
    next d m here rest =>
      split at h
      next hd =>
        obtain ⟨e, l, there, he, low, rfl⟩ := ih rest
        refine ⟨e, d + radix * l, there, he, value_cons here hd low, ?_⟩
        rw [← Option.some.inj h, List.length_cons, Nat.pow_succ]
        ring
      next => cases h
    next => cases h

/-- A numeral is read to its end, where no digit of the radix comes after it. -/
theorem digitsFrom_append (h : value radix cs.reverse = some n)
    (stops : ∀ c ∈ rest.head?, ∀ d, digit? c = some d → radix ≤ d) (k : Nat) :
    digitsFrom radix (cs ++ rest) k = (k * radix ^ cs.length + n, rest) := by
  induction cs generalizing n k with
  | nil =>
    have zero : n = 0 := (Option.some.inj h).symm
    rw [zero, List.nil_append, List.length_nil, Nat.pow_zero, Nat.mul_one, Nat.add_zero]
    cases rest with
    | nil => rfl
    | cons c rest =>
      rw [digitsFrom]
      split
      next d here => rw [if_neg (Nat.not_lt.mpr (stops c rfl d here))]
      next => rfl
  | cons c cs ih =>
    rw [List.reverse_cons] at h
    obtain ⟨d, m, here, hd, low, rfl⟩ := value_snoc h
    rw [List.cons_append, digitsFrom, here]
    dsimp only
    rw [if_pos hd, ih low, List.length_reverse, List.length_cons, Nat.pow_succ]
    congr 1
    ring

end Reading

/-! ## Printing -/

/-- What stands for the sign. -/
inductive Sign
  | none | blank | plus | minus
  deriving DecidableEq

def Sign.text : Sign → List UInt8
  | none => []
  | blank => [0x20]
  | plus => [0x2B]
  | minus => [0x2D]

/-- What a field is filled up with: blanks before the number, blanks after it, or zeros
between its mark and its digits. -/
inductive Filling
  | before | after | zeros
  deriving DecidableEq

/-- A number as it stands in a field. -/
structure Figure (radix : Nat) where
  sign : Sign
  mark : List UInt8
  digits : List UInt8
  magnitude : Nat
  marked : mark = [] ∨ mark = [0x30] ∨ radix = 16 ∧ (mark = [0x30, 0x58] ∨ mark = [0x30, 0x78])
  spelled : Numeral radix digits magnitude

namespace Figure

variable {radix : Nat} (f : Figure radix)

/-- The number it is. -/
def value : Int := if f.sign = .minus then -f.magnitude else f.magnitude

/-- The room it takes, where the field is no wider. -/
def width : Nat := f.sign.text.length + f.mark.length + f.digits.length

/-- The field. -/
def text (width : Nat) : Filling → List UInt8
  | .before => List.replicate (width - f.width) 0x20 ++ (f.sign.text ++ f.mark ++ f.digits)
  | .after => f.sign.text ++ f.mark ++ f.digits ++ List.replicate (width - f.width) 0x20
  | .zeros => f.sign.text ++ f.mark ++ List.replicate (width - f.width) 0x30 ++ f.digits

/-- The blanks after the number. -/
def blanksAfter (width : Nat) : Filling → Nat
  | .after => width - f.width
  | _ => 0

/-- A field is as wide as it is asked to be, or as wide as the number. -/
theorem length_text (width : Nat) (filling : Filling) :
    (f.text width filling).length = max width f.width := by
  have whole : f.width = f.sign.text.length + f.mark.length + f.digits.length := rfl
  cases filling with
  | _ =>
    simp only [text, List.length_append, List.length_replicate]
    omega

/-- No character that a text ends with. -/
theorem zero_notMem_text (width : Nat) (filling : Filling) : 0 ∉ f.text width filling := by
  have sign : 0 ∉ f.sign.text := by
    cases f.sign <;> decide
  have mark : 0 ∉ f.mark := by
    rcases f.marked with none | octal | ⟨-, mark | mark⟩
    all_goals
      rw [‹f.mark = _›]
      decide
  have digits : 0 ∉ f.digits := f.spelled.notMem rfl
  cases filling <;> simp [text, sign, mark, digits]

end Figure

/-! ## What is printed is read -/

section Scan

variable {radix n : Nat} {cs rest : List UInt8}

/-- A numeral begins with a digit. -/
theorem Numeral.exists_cons (h : Numeral radix cs n) :
    ∃ c ds d, cs = c :: ds ∧ digit? c = some d ∧ d < radix := by
  obtain ⟨c, ds, rfl⟩ := List.exists_cons_of_ne_nil h.1
  obtain ⟨d, -, here, hd, -⟩ := value_snoc (List.reverse_cons ▸ h.2)
  exact ⟨c, ds, d, rfl, here, hd⟩

theorem Numeral.radix_pos (h : Numeral radix cs n) : 0 < radix := by
  obtain ⟨-, -, d, -, -, hd⟩ := h.exists_cons
  exact Nat.zero_lt_of_lt hd

/-- Zeros in front make no other number. -/
theorem Numeral.zeros (h : Numeral radix cs n) (k : Nat) :
    Numeral radix (List.replicate k 0x30 ++ cs) n := by
  have reversed : cs.reverse ≠ [] := fun nothing => h.1 (List.reverse_eq_nil_iff.mp nothing)
  have filled := Numeral.of_value h.radix_pos reversed h.2 k
  rwa [List.reverse_reverse] at filled

theorem dropWhile_blanks (k : Nat) :
    (List.replicate k (0x20 : UInt8) ++ cs).dropWhile (· = 0x20) = cs.dropWhile (· = 0x20) := by
  induction k with
  | zero => rfl
  | succ k ih => exact ih

/-- A numeral has no mark of its own: in radix 16 no digit is an x. -/
theorem skipMark_numeral (h : Numeral radix cs n) (stops : Stops rest) :
    skipMark radix (cs ++ rest) = cs ++ rest := by
  refine if_neg ?_
  rintro ⟨rfl, mark⟩
  have x : ∀ c : UInt8, c = 0x58 ∨ c = 0x78 → digit? c = some 33 := by
    rintro c (rfl | rfl) <;> rfl
  obtain ⟨c, ds, -, rfl, -, -⟩ := h.exists_cons
  cases ds with
  | nil =>
    cases rest with
    | nil => rcases mark with mark | mark <;> cases mark
    | cons c' rest =>
      have second : c' = 0x58 ∨ c' = 0x78 :=
        mark.imp (fun h => (List.cons.inj (List.cons.inj h).2).1)
          (fun h => (List.cons.inj (List.cons.inj h).2).1)
      have digit := x c' second
      rw [stops c' rfl] at digit
      cases digit
  | cons c' ds =>
    have second : c' = 0x58 ∨ c' = 0x78 :=
      mark.imp (fun h => (List.cons.inj (List.cons.inj h).2).1)
        (fun h => (List.cons.inj (List.cons.inj h).2).1)
    have rev : value 16 ((c' :: ds).reverse ++ [c]) = some n := List.reverse_cons ▸ h.2
    obtain ⟨-, m, -, -, low, -⟩ := value_snoc rev
    obtain ⟨d, -, here, hd, -⟩ := value_snoc (List.reverse_cons ▸ low)
    rw [x c' second] at here
    cases here
    omega

/-- The mark of a figure, and its digits with zeros in front. -/
def Figure.marking (f : Figure radix) (k : Nat) : List UInt8 :=
  f.mark ++ (List.replicate k 0x30 ++ f.digits)

/-- They begin with a digit. -/
theorem Figure.marking_eq (f : Figure radix) (k : Nat) :
    ∃ c cs, f.marking k = c :: cs ∧ (digit? c).isSome = true := by
  have numeral := f.spelled.zeros k
  rcases f.marked with none | octal | ⟨-, mark | mark⟩
  · obtain ⟨c, cs, d, same, here, -⟩ := numeral.exists_cons
    refine ⟨c, cs, ?_, Option.isSome_of_mem here⟩
    rw [marking, none, same]
    rfl
  all_goals
    rw [marking, ‹f.mark = _›]
    exact ⟨_, _, rfl, rfl⟩

/-- Without the mark they are a numeral. -/
theorem Figure.skipMark_marking (f : Figure radix) (k : Nat) (stops : Stops rest) :
    ∃ cs, Numeral radix cs f.magnitude ∧ skipMark radix (f.marking k ++ rest) = cs ++ rest := by
  have numeral := f.spelled.zeros k
  rcases f.marked with none | octal | ⟨rfl, mark⟩
  · refine ⟨_, numeral, ?_⟩
    rw [marking, none]
    exact skipMark_numeral numeral stops
  · have more : Numeral radix (f.marking k) f.magnitude := by
      rw [marking, octal]
      exact numeral.zeros 1
    exact ⟨_, more, skipMark_numeral more stops⟩
  · refine ⟨_, numeral, ?_⟩
    rcases mark with mark | mark
    all_goals
      rw [marking, mark, skipMark, if_pos ⟨rfl, by simp⟩]
      rfl

/-- The sign, where something comes after it that is none. -/
theorem takeMinus_sign (s : Sign) {c : UInt8} (hc : (digit? c).isSome = true) (cs : List UInt8) :
    takeMinus ((s.text ++ c :: cs).dropWhile (· = 0x20)) = (decide (s = .minus), c :: cs) := by
  have other : c ≠ 0x20 ∧ c ≠ 0x2D ∧ c ≠ 0x2B := by
    refine ⟨?_, ?_, ?_⟩ <;> rintro rfl <;> cases hc
  have kept : (c :: cs).dropWhile (· = 0x20) = c :: cs :=
    List.dropWhile_cons_of_neg (by simpa using other.1)
  have bare : takeMinus (c :: cs) = (false, c :: cs) := by
    rw [takeMinus, if_neg other.2.1, if_neg other.2.2]
  cases s with
  | none => exact (congrArg takeMinus kept).trans bare
  | blank => exact (congrArg takeMinus kept).trans bare
  | plus => rfl
  | minus => rfl

/-- A figure is read to its end, after any blanks. -/
theorem Figure.scan_marking (f : Figure radix) (j k : Nat) (stops : Stops rest) :
    scan radix (List.replicate j 0x20 ++ (f.sign.text ++ (f.marking k ++ rest))) =
      some (f.value, rest) := by
  obtain ⟨c, cs, first, digit⟩ := f.marking_eq k
  have sign := takeMinus_sign f.sign digit (cs ++ rest)
  rw [← List.cons_append, ← first] at sign
  obtain ⟨ds, numeral, unmarked⟩ := f.skipMark_marking k stops
  have end_digits : ∀ c ∈ rest.head?, ∀ d, digit? c = some d → radix ≤ d := by
    intro c here d digit
    rw [stops c here] at digit
    cases digit
  have read := digitsFrom_append numeral.2 end_digits 0
  rw [Nat.zero_mul, Nat.zero_add] at read
  have further : rest.length ≠ (ds ++ rest).length := by
    have some := List.length_pos_of_ne_nil numeral.1
    rw [List.length_append]
    omega
  unfold scan
  rw [dropWhile_blanks, sign]
  dsimp only
  rw [unmarked, read]
  dsimp only
  rw [if_neg further, value]
  simp only [decide_eq_true_eq]

/-- THE RULE: a number in a field is read as the number it is, up to the blanks after it. -/
theorem Figure.scan_text (f : Figure radix) (width : Nat) (filling : Filling)
    (stops : Stops rest) :
    scan radix (f.text width filling ++ rest) =
      some (f.value, List.replicate (f.blanksAfter width filling) 0x20 ++ rest) := by
  cases filling with
  | before =>
    have whole := f.scan_marking (width - f.width) 0 stops
    simpa [text, marking, blanksAfter] using whole
  | after =>
    have whole := f.scan_marking 0 0 (stops.blanks (width - f.width))
    simpa [text, marking, blanksAfter] using whole
  | zeros =>
    have whole := f.scan_marking 0 (width - f.width) stops
    simpa [text, marking, blanksAfter] using whole

end Scan

/-! ## Decimals -/

/-- A number in decimal, nothing for zero. -/
def decimal (n : Nat) : List UInt8 :=
  ((Nat.digits 10 n).map fun d => UInt8.ofNat (d + 0x30)).reverse

theorem digit_decimal {d : Nat} (hd : d < 10) : digit? (UInt8.ofNat (d + 0x30)) = some d := by
  have all : ∀ d : Fin 10, digit? (UInt8.ofNat (d.val + 0x30)) = some d.val := by decide
  exact all ⟨d, hd⟩

theorem value_decimals {ds : List Nat} (h : ∀ d ∈ ds, d < 10) :
    value 10 (ds.map fun d => UInt8.ofNat (d + 0x30)) = some (Nat.ofDigits 10 ds) := by
  induction ds with
  | nil => rfl
  | cons d ds ih =>
    have low := h d List.mem_cons_self
    have rest := ih fun d' there => h d' (List.mem_cons_of_mem _ there)
    rw [List.map_cons, value_cons (digit_decimal low) low rest, Nat.ofDigits_cons]

theorem value_decimal (n : Nat) : value 10 (decimal n).reverse = some n := by
  rw [decimal, List.reverse_reverse,
    value_decimals fun d there => Nat.digits_lt_base (by decide) there, Nat.ofDigits_digits]

/-- No zero comes first. -/
theorem decimal_eq_cons {n : Nat} (h : n ≠ 0) :
    ∃ d cs, 0 < d ∧ d < 10 ∧ decimal n = UInt8.ofNat (d + 0x30) :: cs := by
  have some : Nat.digits 10 n ≠ [] := Nat.digits_ne_nil_iff_ne_zero.mpr h
  have last := Nat.getLast_digit_ne_zero 10 h
  have low := Nat.digits_lt_base (by decide : 1 < 10) (List.getLast_mem some)
  have split := List.dropLast_append_getLast some
  generalize (Nat.digits 10 n).getLast some = d at last low split
  refine ⟨d, ((Nat.digits 10 n).dropLast.map fun d => UInt8.ofNat (d + 0x30)).reverse,
    Nat.pos_of_ne_zero last, low, ?_⟩
  have turned := congrArg (fun ds => (ds.map fun d => UInt8.ofNat (d + 0x30)).reverse) split
  rw [List.map_append, List.reverse_append] at turned
  exact turned.symm

end ToyBootloader.Numerals
