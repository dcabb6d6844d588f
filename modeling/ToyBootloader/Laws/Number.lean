import Mathlib.Data.Nat.Digits.Defs
import ToyBootloader.Formats
import ToyBootloader.Laws.Printf

/-!
# The layout of `number`

For every flag, width, precision and base, `number` prints a figure in a field: it has the
width asked for, or the one it needs, and it is read back as the number, signed or unsigned
as the flags have it, up to the blanks of a field justified to the left.
-/

namespace ToyBootloader.Printf

open Memory Numerals

section Layout

variable (num : UInt32) (base : Base) (size precision : Int) (type : UInt8)

theorem markOf_cases : markOf base type = [] ∨ markOf base type = [0x30] ∨
    base.value.toNat = 16 ∧ (markOf base type = [0x30, 0x58] ∨ markOf base type = [0x30, 0x78]) := by
  unfold markOf
  split
  · exact .inl rfl
  split
  · exact .inr (.inl rfl)
  split
  next sixteen =>
    rw [sixteen]
    rcases small_or type with capital | small
    · rw [capital]
      exact .inr (.inr ⟨rfl, .inl rfl⟩)
    · rw [small]
      exact .inr (.inr ⟨rfl, .inr rfl⟩)
  next => exact .inl rfl

/-- What is printed. -/
def figure : Figure base.value.toNat where
  sign := signOf num type
  mark := markOf base type
  digits := digitsOf num base precision type
  magnitude := (magnitudeOf num type).toNat
  marked := markOf_cases base type
  spelled := numeral_tmp base (small_or type) _ _

/-! ## Each part -/

theorem signOf_eq_minus : signOf num type = .minus ↔ type &&& SIGN ≠ 0 ∧ num.toInt32 < 0 := by
  unfold signOf
  split
  next unsigned => simp [unsigned]
  next signed =>
    split
    next negative => simp [signed, negative]
    next positive =>
      split
      · simp [positive]
      split <;> simp [positive]

/-- The sign takes its room from the field. -/
theorem takeSign_eq : takeSign num size type =
    ((signOf num type).text.headD 0, magnitudeOf num type,
      size - (signOf num type).text.length) := by
  have minus := signOf_eq_minus num type
  unfold magnitudeOf
  fun_cases takeSign num size type with
  | case1 signed negative =>
    rw [if_pos (minus.mpr ⟨signed, negative⟩), minus.mpr ⟨signed, negative⟩]
    rfl
  | case2 signed positive plus =>
    rw [if_neg fun h => positive (minus.mp h).2, signOf, if_neg signed, if_neg positive,
      if_pos plus]
    rfl
  | case3 signed positive plus blank =>
    rw [if_neg fun h => positive (minus.mp h).2, signOf, if_neg signed, if_neg positive,
      if_neg plus, if_pos blank]
    rfl
  | case4 signed positive plus blank =>
    rw [if_neg fun h => positive (minus.mp h).2, signOf, if_neg signed, if_neg positive,
      if_neg plus, if_neg blank]
    simp [Sign.text]
  | case5 unsigned =>
    have none := not_not.mp unsigned
    rw [if_neg fun h => (minus.mp h).1 none, signOf, if_pos none]
    simp [Sign.text]

/-- What is written for it. -/
theorem sign_text (s : Sign) : (if s.text.headD 0 ≠ 0 then [s.text.headD 0] else []) = s.text := by
  cases s <;> rfl

/-- The flags that `number` goes on with. -/
def cleared : UInt8 := if type &&& LEFT ≠ 0 then type &&& ~~~ZEROPAD else type

theorem cleared_flags : cleared type &&& SIGN = type &&& SIGN ∧
    cleared type &&& PLUS = type &&& PLUS ∧ cleared type &&& SPACE = type &&& SPACE ∧
    cleared type &&& SPECIAL = type &&& SPECIAL ∧ cleared type &&& LEFT = type &&& LEFT := by
  unfold cleared
  split
  · simp only [UInt8.and_assoc]
    exact ⟨rfl, rfl, rfl, rfl, rfl⟩
  · exact ⟨rfl, rfl, rfl, rfl, rfl⟩

theorem takeSign_cleared : takeSign num size (cleared type) = takeSign num size type := by
  obtain ⟨sign, plus, space, -⟩ := cleared_flags type
  unfold takeSign
  rw [sign, plus, space]

/-- Zeros are for a field that is not justified to the left. -/
theorem filling_cleared :
    (fillingOf type = .before ∧ cleared type &&& (ZEROPAD + LEFT) = 0 ∧
      cleared type &&& LEFT = 0) ∨
    (fillingOf type = .zeros ∧ cleared type &&& (ZEROPAD + LEFT) ≠ 0 ∧
      cleared type &&& LEFT = 0 ∧ cleared type &&& ZEROPAD ≠ 0) ∨
    (fillingOf type = .after ∧ cleared type &&& (ZEROPAD + LEFT) ≠ 0 ∧
      cleared type &&& LEFT ≠ 0) :=
  forall_byte type (by decide +kernel)

/-- The mark takes its room from the field. -/
theorem mark_room : (if type &&& SPECIAL ≠ 0 then
      if base.value = 16 then size - 2 else if base.value = 8 then size - 1 else size
    else size) = size - (markOf base type).length := by
  unfold markOf
  by_cases plain : type &&& SPECIAL = 0
  · simp [plain]
  by_cases octal : base.value = 8
  · simp [plain, octal]
  by_cases sixteen : base.value = 16
  · simp [plain, sixteen]
  · simp [plain, octal, sixteen]

end Layout

/-- `number` prints a figure in a field. -/
theorem number_eq (num : UInt32) (base : Base) (size precision : Int) (type : UInt8) :
    number num base size precision type =
      (figure num base precision type).text size.toNat (fillingOf type) := by
  obtain ⟨-, -, -, special, -⟩ := cleared_flags type
  have mark : (if type &&& SPECIAL ≠ 0 then
      if base.value = 8 then ['0'.toUInt8]
      else if base.value = 16 then ['0'.toUInt8, 'X'.toUInt8 ||| (type &&& SMALL)] else []
    else []) = markOf base type := by
    simp only [markOf, ne_eq, ite_not]
    rfl
  have room := mark_room base (size - (signOf num type).text.length) type
  unfold number
  dsimp only
  rw [show (if type &&& LEFT ≠ 0 then type &&& ~~~ZEROPAD else type) = cleared type from rfl,
    takeSign_cleared, takeSign_eq]
  dsimp only
  rw [special, room, mark, sign_text]
  have width : (figure num base precision type).width = (signOf num type).text.length +
      (markOf base type).length + (digitsOf num base precision type).length := rfl
  unfold Figure.text
  rw [width]
  dsimp only [figure, digitsOf]
  generalize tmp base (type &&& SMALL) (magnitudeOf num type) = digits
  generalize (signOf num type).text = sign
  generalize markOf base type = mark
  -- what the loops still have to fill up, once the number has its room
  have left : size.toNat - (sign.length + mark.length + (List.replicate
      (max (digits.length : Int) precision - digits.length).toNat (0x30 : UInt8) ++
        digits.reverse).length) =
      (size - sign.length - mark.length - max (digits.length : Int) precision).toNat := by
    rw [List.length_append, List.length_replicate, List.length_reverse]
    omega
  rw [left]
  rcases filling_cleared type with ⟨filling, before, right⟩ | ⟨filling, zeros, right, zero⟩ |
    ⟨filling, after, left⟩
  · rw [filling, if_pos before, if_pos right, fill_fill, fill_fill]
    simp only [List.append_nil, List.append_assoc]
    rfl
  · rw [filling, if_neg zeros, if_pos right, if_pos zero, fill_fill]
    simp only [List.append_nil, List.nil_append, List.append_assoc]
    rfl
  · rw [filling, if_neg after, if_neg left]
    simp only [List.append_nil, List.nil_append, List.append_assoc]
    rfl

/-! ## The law -/

section Law

variable (num : UInt32) (base : Base) (size precision : Int) (type : UInt8)

/-- As many digits as the number has in the base. -/
theorem length_tmpDigits_eq (locase : UInt8) {fuel : Nat} (h : num.toNat < 2 ^ fuel) :
    (tmpDigits base locase fuel num).length = (Nat.digits base.value.toNat num.toNat).length := by
  have two := base.two_le
  induction fuel generalizing num with
  | zero =>
    have zero : num.toNat = 0 := by omega
    rw [zero, Nat.digits_zero]
    rfl
  | succ fuel ih =>
    rw [tmpDigits]
    split
    next zero =>
      rw [zero, UInt32.toNat_zero, Nat.digits_zero]
      rfl
    next more =>
      have positive : 0 < num.toNat :=
        Nat.pos_of_ne_zero fun none => more (UInt32.toNat_inj.mp none)
      have fits : (num / base.value).toNat < 2 ^ fuel := by
        rw [UInt32.toNat_div, Nat.div_lt_iff_lt_mul (by omega)]
        rw [Nat.pow_succ] at h
        exact Nat.lt_of_lt_of_le h (Nat.mul_le_mul_left _ two)
      rw [Nat.digits_def' two positive, List.length_cons, List.length_cons, ih _ fits,
        UInt32.toNat_div]

theorem length_tmp_eq (locase : UInt8) :
    (tmp base locase num).length = max 1 (Nat.digits base.value.toNat num.toNat).length := by
  unfold tmp
  split
  next zero =>
    rw [zero, UInt32.toNat_zero, Nat.digits_zero]
    rfl
  next more =>
    rw [length_tmpDigits_eq num base locase num.toNat_lt]
    have some : Nat.digits base.value.toNat num.toNat ≠ [] :=
      Nat.digits_ne_nil_iff_ne_zero.mpr fun none => more (UInt32.toNat_inj.mp none)
    have positive := List.length_pos_of_ne_nil some
    omega

/-- A word read with its sign. -/
theorem toInt_toInt32 :
    num.toInt32.toInt =
      if num.toInt32 < 0 then (num.toNat : Int) - (2 : Int) ^ 32 else (num.toNat : Int) := by
  have cond := BitVec.toInt_eq_toNat_cond num.toBitVec
  have same : num.toInt32.toInt = num.toBitVec.toInt := rfl
  have negative : num.toInt32 < 0 ↔ num.toInt32.toInt < 0 := Int32.lt_iff_toInt_lt
  have bound := num.toNat_lt
  have here : num.toBitVec.toNat = num.toNat := rfl
  rw [here] at cond
  rw [← same] at cond
  by_cases below : num.toInt32 < 0
  · rw [if_pos below]
    have under := negative.mp below
    omega
  · rw [if_neg below]
    have above := mt negative.mpr below
    omega

/-- The figure is the number. -/
theorem value_figure : (figure num base precision type).value = numberOf num type := by
  have negated := UInt32.toNat_neg num
  have signed := toInt_toInt32 num
  have bound := num.toNat_lt
  have minus := signOf_eq_minus num type
  have whole : (figure num base precision type).value =
      if signOf num type = .minus then -((magnitudeOf num type).toNat : Int)
      else (magnitudeOf num type).toNat := rfl
  rw [whole, numberOf, magnitudeOf]
  by_cases negative : signOf num type = .minus
  · obtain ⟨sign, below⟩ := minus.mp negative
    rw [if_pos below] at signed
    have some : num.toNat ≠ 0 := by
      intro zero
      have none : num = 0 := UInt32.toNat_inj.mp zero
      rw [none] at below
      cases below
    rw [if_pos negative, if_pos negative, if_neg sign, signed, negated]
    unfold UInt32.size
    omega
  · rw [if_neg negative, if_neg negative]
    split
    next => rfl
    next sign =>
      rw [signed, if_neg fun below => negative (minus.mpr ⟨sign, below⟩)]

/-- THE LAW of `number`: the text is as wide as it is asked to be, or as wide as the sign, the
mark of the base and the digits are together, and read in its base it is the number, with
nothing left but the blanks of a field that is justified to the left. -/
theorem number_reads {rest : List UInt8} (stops : Stops rest) :
    (number num base size precision type).length =
        max size.toNat ((signOf num type).text.length + (markOf base type).length +
          max precision.toNat
            (max 1 (Nat.digits base.value.toNat (magnitudeOf num type).toNat).length)) ∧
      scan base.value.toNat (number num base size precision type ++ rest) =
        some (numberOf num type, List.replicate
          ((figure num base precision type).blanksAfter size.toNat (fillingOf type)) 0x20 ++
            rest) := by
  have digits : (digitsOf num base precision type).length = max precision.toNat
      (max 1 (Nat.digits base.value.toNat (magnitudeOf num type).toNat).length) := by
    rw [← length_tmp_eq _ _ (type &&& SMALL), digitsOf, List.length_append,
      List.length_replicate, List.length_reverse]
    omega
  rw [number_eq, Figure.length_text, Figure.scan_text _ _ _ stops, value_figure, ← digits]
  exact ⟨rfl, rfl⟩

/-- The least of the integers, before a comma. -/
theorem number_reads_least :
    scan 10 (number 0x80000000 10 14 (-1) SIGN ++ text ",") = some (-2147483648, text ",") := by
  have stops : Stops (text ",") := Stops.cons rfl
  exact (number_reads 0x80000000 10 14 (-1) SIGN stops).2

end Law

end ToyBootloader.Printf
