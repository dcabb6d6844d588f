import Mathlib.Data.List.Infix
import ToyBootloader.Laws.Puts
import ToyBootloader.Numerals.Radix
import ToyBootloader.Stage2.Mem

/-!
# What `printf` makes of a section of memory

A format is characters and directives, and each directive takes its arguments off the
stack a word at a time. `print_mem_sec` pushes two words for each of its 64-bit values and
the directives take one each, so what is shown is the lower word of the base, then its upper
word, then the lower word of the length.
-/

namespace ToyBootloader

open Memory Numerals

namespace Printf

/-! ## The format is read to its end -/

section Length

theorem length_skipAtoi (fmt : List UInt8) (i : Int32) :
    (skipAtoi fmt i).2.length ≤ fmt.length := by
  fun_induction skipAtoi fmt i with
  | case1 => exact le_rfl
  | case2 i c fmt _ ih => exact Nat.le_succ_of_le ih
  | case3 => exact le_rfl

theorem length_flagsOf (fmt : List UInt8) (flags : UInt8) :
    (flagsOf fmt flags).2.length ≤ fmt.length := by
  fun_induction flagsOf fmt flags with
  | case1 => exact le_rfl
  | case7 => exact le_rfl
  | _ => exact Nat.le_succ_of_le ‹_›

theorem length_fieldWidthOf (fmt : List UInt8) (flags : UInt8) (p : Printing) :
    (fieldWidthOf fmt flags p).2.2.1.length ≤ fmt.length := by
  fun_cases fieldWidthOf fmt flags p with
  | case1 => exact le_rfl
  | case2 c rest hc fieldWidth after read =>
    have shorter := length_skipAtoi (c :: rest) 0
    rwa [read] at shorter
  | case3 => exact Nat.le_succ _
  | case4 => exact Nat.le_succ _
  | case5 => exact le_rfl

theorem length_precisionOf (fmt : List UInt8) (p : Printing) :
    (precisionOf fmt p).2.1.length ≤ fmt.length := by
  fun_cases precisionOf fmt p with
  | case1 => exact le_rfl
  | case2 => exact Nat.zero_le _
  | case3 d rest hd precision after read =>
    have shorter := length_skipAtoi (d :: rest) 0
    rw [read] at shorter
    exact Nat.le_succ_of_le shorter
  | case4 => exact Nat.le_succ_of_le (Nat.le_succ _)
  | case5 => exact Nat.le_succ _
  | case6 => exact le_rfl

theorem length_qualifierOf (fmt : List UInt8) : (qualifierOf fmt).2.length ≤ fmt.length := by
  fun_cases qualifierOf fmt with
  | case1 => exact le_rfl
  | case2 => exact Nat.le_succ _
  | case3 => exact le_rfl

/-- A directive leaves no more of the format than there was. -/
theorem length_directive (fmt : List UInt8) (p : Printing) :
    (directive fmt p).1.length ≤ fmt.length := by
  have flags := length_flagsOf fmt 0
  unfold directive
  dsimp only
  generalize flagsOf fmt 0 = f at flags ⊢
  have width := length_fieldWidthOf f.2 f.1 p
  generalize fieldWidthOf f.2 f.1 p = w at width ⊢
  have precision := length_precisionOf w.2.2.1 w.2.2.2
  generalize precisionOf w.2.2.1 w.2.2.2 = r at precision ⊢
  have qualifier := length_qualifierOf r.2.1
  generalize qualifierOf r.2.1 = q at qualifier ⊢
  obtain ⟨q, rest⟩ := q
  cases rest with
  | nil => exact Nat.zero_le _
  | cons c rest =>
    rw [List.length_cons] at qualifier
    dsimp only
    omega

end Length

/-- More turns than there are characters change nothing. -/
theorem loop_fuel {n k : Nat} {fmt : List UInt8} (hn : fmt.length ≤ n) (hk : fmt.length ≤ k)
    (p : Printing) : loop n fmt p = loop k fmt p := by
  induction n generalizing k fmt p with
  | zero =>
    rw [List.eq_nil_of_length_eq_zero (Nat.le_zero.mp hn)]
    cases k <;> rfl
  | succ n ih =>
    cases fmt with
    | nil => cases k <;> rfl
    | cons c fmt =>
      rw [List.length_cons] at hn hk
      obtain ⟨k, rfl⟩ := Nat.exists_eq_succ_of_ne_zero (Nat.ne_zero_of_lt hk)
      have further := Nat.le_of_succ_le_succ hn
      have further' := Nat.le_of_succ_le_succ hk
      rw [loop, loop]
      split
      · exact ih further further' _
      · have rest := length_directive fmt p
        exact ih (Nat.le_trans rest further) (Nat.le_trans rest further') _

/-- The loop with as many turns as the format needs. -/
def formatted (fmt : List UInt8) (p : Printing) : Printing := loop fmt.length fmt p

/-- A character is itself. -/
theorem formatted_char {c : UInt8} (hc : c ≠ '%'.toUInt8) (fmt : List UInt8) (p : Printing) :
    formatted (c :: fmt) p = formatted fmt (p.put [c]) := if_pos hc

/-- A directive is carried out. -/
theorem formatted_directive (fmt : List UInt8) (p : Printing) :
    formatted ('%'.toUInt8 :: fmt) p = formatted (directive fmt p).1 (directive fmt p).2 :=
  loop_fuel (length_directive fmt p) le_rfl _

theorem Printing.put_nil (p : Printing) : p.put [] = p :=
  congrArg (fun w => { p with written := w }) (List.append_nil p.written)

theorem Printing.put_put (p : Printing) (cs ds : List UInt8) :
    (p.put cs).put ds = p.put (cs ++ ds) :=
  congrArg (fun w => { p with written := w }) (List.append_assoc p.written cs ds)

/-- Characters without a directive among them. -/
theorem formatted_literal {cs : List UInt8} (h : '%'.toUInt8 ∉ cs) (fmt : List UInt8)
    (p : Printing) : formatted (cs ++ fmt) p = formatted fmt (p.put cs) := by
  induction cs generalizing p with
  | nil => rw [p.put_nil]; rfl
  | cons c cs ih =>
    rw [List.mem_cons, not_or] at h
    rw [List.cons_append, formatted_char (Ne.symm h.1), ih h.2, p.put_put]
    rfl

/-! ## Digits -/

section Digits

variable {base : Base} {locase : UInt8}

theorem Base.lt_digits (base : Base) {r : Nat} (h : r < base.value.toNat) : r < 16 :=
  Nat.lt_of_lt_of_le h (UInt32.le_iff_toNat_le.mp base.valid.2)

theorem Base.two_le (base : Base) : 2 ≤ base.value.toNat :=
  UInt32.le_iff_toNat_le.mp base.valid.1

/-- `digits`, in either case of the letters. -/
theorem digit_digits (hl : locase = 0 ∨ locase = SMALL) {r : Nat} (hr : r < 16) :
    digit? (digits.getD r 0 ||| locase) = some r := by
  have all : ∀ r : Fin 16, digit? (digits.getD r.val 0 ||| 0) = some r.val ∧
      digit? (digits.getD r.val 0 ||| SMALL) = some r.val := by
    decide
  obtain ⟨upper, lower⟩ := all ⟨r, hr⟩
  rcases hl with rfl | rfl
  · exact upper
  · exact lower

/-- The digits that are taken off a number spell it. -/
theorem value_tmpDigits (hl : locase = 0 ∨ locase = SMALL) {fuel : Nat} {num : UInt32}
    (h : num.toNat < 2 ^ fuel) :
    value base.value.toNat (tmpDigits base locase fuel num) = some num.toNat := by
  have two := base.two_le
  induction fuel generalizing num with
  | zero =>
    have zero : num.toNat = 0 := by omega
    rw [zero]
    rfl
  | succ fuel ih =>
    rw [tmpDigits]
    split
    next zero => rw [zero]; rfl
    next more =>
      have digit : (num % base.value).toNat < base.value.toNat := by
        rw [UInt32.toNat_mod]
        exact Nat.mod_lt _ (by omega)
      have fits : (num / base.value).toNat < 2 ^ fuel := by
        rw [UInt32.toNat_div, Nat.div_lt_iff_lt_mul (by omega)]
        rw [Nat.pow_succ] at h
        exact Nat.lt_of_lt_of_le h (Nat.mul_le_mul_left _ two)
      rw [value_cons (digit_digits hl (base.lt_digits digit)) digit (ih fits),
        UInt32.toNat_mod, UInt32.toNat_div, Nat.mod_add_div]

theorem value_tmp (hl : locase = 0 ∨ locase = SMALL) (num : UInt32) :
    value base.value.toNat (tmp base locase num) = some num.toNat := by
  unfold tmp
  split
  next zero =>
    have nought : digit? '0'.toUInt8 = some 0 := rfl
    rw [zero, value_cons nought (Nat.lt_of_lt_of_le Nat.two_pos base.two_le) rfl]
    rfl
  next => exact value_tmpDigits hl num.toNat_lt

theorem tmp_ne_nil (base : Base) (locase : UInt8) (num : UInt32) : tmp base locase num ≠ [] := by
  unfold tmp
  split
  next => exact List.cons_ne_nil _ _
  next more =>
    rw [tmpDigits, if_neg more]
    exact List.cons_ne_nil _ _

/-- The digits, the most significant first, with zeros in front. -/
theorem numeral_tmp (base : Base) (hl : locase = 0 ∨ locase = SMALL) (num : UInt32) (k : Nat) :
    Numeral base.value.toNat (List.replicate k 0x30 ++ (tmp base locase num).reverse) num.toNat :=
  .of_value (Nat.lt_of_lt_of_le Nat.two_pos base.two_le) (tmp_ne_nil base locase num)
    (value_tmp hl num) k

end Digits

/-! ## `number` -/

section Number

variable {base : Base} {num : UInt32} {size : Int} {type : UInt8}

/-- `while (size-- > 0)` goes round once for all. -/
theorem fill_fill (size : Int) (c c' : UInt8) : (fill (fill size c).2 c').1 = [] := by
  have spent : (min size 0 - 1).toNat = 0 := by omega
  unfold fill
  rw [spent]
  rfl

theorem zeropad_iff (left : type &&& LEFT = 0) :
    type &&& (ZEROPAD + LEFT) = 0 ↔ type &&& ZEROPAD = 0 := by
  revert left
  exact forall_byte type (by decide +kernel)

theorem small_or (type : UInt8) : type &&& SMALL = 0 ∨ type &&& SMALL = SMALL :=
  forall_byte type (by decide +kernel)

/-- Justified to the right and without a prefix: spaces before the sign, or zeros after it. -/
theorem number_right (left : type &&& LEFT = 0) (special : type &&& SPECIAL = 0) (num : UInt32)
    (base : Base) (size precision : Int) :
    number num base size precision type =
      let (sign, num, size) := takeSign num size type
      let digits := tmp base (type &&& SMALL) num
      let width := max (digits.length : Int) precision
      let room := (size - width).toNat
      let sign := if sign = 0 then [] else [sign]
      let numeral := List.replicate (width - digits.length).toNat '0'.toUInt8 ++ digits.reverse
      if type &&& ZEROPAD = 0 then List.replicate room ' '.toUInt8 ++ sign ++ numeral
      else sign ++ List.replicate room '0'.toUInt8 ++ numeral := by
  unfold number
  simp only [left, special, ne_eq, not_true_eq_false, if_false, if_true, zeropad_iff left, ite_not]
  generalize takeSign num size type = s
  split
  next zero =>
    simp only [fill_fill, List.append_nil, List.append_assoc]
    rfl
  next =>
    simp only [fill_fill, List.append_nil, List.append_assoc, List.nil_append]
    rfl

/-- Without a sign, and filled up with zeros if at all, it is a numeral. -/
theorem numeral_number (left : type &&& LEFT = 0) (special : type &&& SPECIAL = 0)
    (sign : type &&& SIGN = 0) (zeros : type &&& ZEROPAD ≠ 0 ∨ size ≤ 0) (num : UInt32)
    (base : Base) (precision : Int) :
    Numeral base.value.toNat (number num base size precision type) num.toNat := by
  have unsigned : takeSign num size type = (0, num, size) := by
    unfold takeSign
    rw [sign]
    rfl
  have numeral := numeral_tmp base (small_or type) num
  rw [number_right left special, unsigned]
  dsimp only
  split
  next spaces =>
    have small := zeros.resolve_left (absurd spaces)
    rw [Int.toNat_of_nonpos (by omega)]
    exact numeral _
  next =>
    rw [if_pos rfl, List.nil_append, ← List.append_assoc, List.replicate_append_replicate]
    exact numeral _

/-- With a sign and no width it is a numeral, after a minus where the number is negative. -/
theorem number_sign (size : Int) (small : size ≤ 0) (num : UInt32) (base : Base)
    (precision : Int) :
    ∃ cs, (Numeral base.value.toNat cs (if num.toInt32 < 0 then -num else num).toNat) ∧
      number num base size precision SIGN =
        if num.toInt32 < 0 then '-'.toUInt8 :: cs else cs := by
  have numeral := numeral_tmp base (small_or SIGN)
  have signed : takeSign num size SIGN =
      if num.toInt32 < 0 then ('-'.toUInt8, -num, size - 1) else (0, num, size) := rfl
  rw [number_right (by decide) (by decide), signed]
  have none : ∀ k : Int, k ≤ size → ∀ n : Nat, (k - max (n : Int) precision).toNat = 0 :=
    fun k _ n => Int.toNat_of_nonpos (by omega)
  by_cases negative : num.toInt32 < 0
  · simp only [if_pos negative, none (size - 1) (by omega)]
    exact ⟨_, numeral (-num) _, rfl⟩
  · simp only [if_neg negative, none size le_rfl]
    exact ⟨_, numeral num _, rfl⟩

theorem length_tmpDigits (base : Base) (locase : UInt8) (fuel : Nat) (num : UInt32) :
    (tmpDigits base locase fuel num).length ≤ fuel := by
  induction fuel generalizing num with
  | zero => exact le_rfl
  | succ fuel ih =>
    rw [tmpDigits]
    split
    next => exact Nat.zero_le _
    next => exact Nat.succ_le_succ (ih _)

theorem length_tmp (base : Base) (locase : UInt8) (num : UInt32) :
    (tmp base locase num).length ≤ 32 := by
  unfold tmp
  split
  next => exact Nat.succ_le_succ (Nat.zero_le _)
  next => exact length_tmpDigits base locase 32 num

/-- The room a number takes: what was asked for, or its digits, and a sign. -/
theorem length_number_le (type : UInt8) (left : type &&& LEFT = 0) (special : type &&& SPECIAL = 0)
    (num : UInt32) (base : Base) (size precision : Int) :
    ((number num base size precision type).length : Int) ≤ max (max size precision) 32 + 1 := by
  have smaller : (takeSign num size type).2.2 ≤ size := by
    fun_cases takeSign num size type <;> dsimp only <;> omega
  rw [number_right left special]
  generalize takeSign num size type = s at smaller ⊢
  obtain ⟨sign, n, room⟩ := s
  have digits := length_tmp base (type &&& SMALL) n
  have one : (if sign = 0 then [] else [sign]).length ≤ 1 := by
    split
    next => exact Nat.zero_le _
    next => exact le_rfl
  dsimp only at smaller ⊢
  split
  all_goals
    simp only [List.length_append, List.length_replicate, List.length_reverse]
    omega

end Number

/-! ## Directives -/

/-- `%lp` -/
theorem directive_lp (fmt : List UInt8) (p : Printing) :
    directive ('l'.toUInt8 :: 'p'.toUInt8 :: fmt) p =
      (fmt, p.vaArg.2.put (number p.args.head 16 8 (-1) ZEROPAD)) := by
  have pointer : directive ('l'.toUInt8 :: 'p'.toUInt8 :: fmt) p =
      (fmt, putPointer 0 (-1) (-1) p) := rfl
  exact pointer

/-- `%lx` -/
theorem directive_lx (fmt : List UInt8) (p : Printing) :
    directive ('l'.toUInt8 :: 'x'.toUInt8 :: fmt) p =
      (fmt, p.vaArg.2.put (number p.args.head 16 (-1) (-1) SMALL)) := by
  have integer : directive ('l'.toUInt8 :: 'x'.toUInt8 :: fmt) p =
      (fmt, putInteger 16 (0 ||| SMALL) (-1) (-1) 'l'.toUInt8 p) := rfl
  exact integer

/-- `%d` -/
theorem directive_d (fmt : List UInt8) (p : Printing) :
    directive ('d'.toUInt8 :: fmt) p =
      (fmt, p.vaArg.2.put (number p.args.head 10 (-1) (-1) SIGN)) := by
  have integer : directive ('d'.toUInt8 :: fmt) p =
      (fmt, putInteger 10 (0 ||| SIGN) (-1) (-1) 0 p) := rfl
  exact integer

end Printf

/-! ## The line -/

open Printf

section Line

variable (m : MemSec) (above : Stream' UInt32) (memory : Mem32)

/-- What is put in the place of each of the three. -/
def basePlace : List UInt8 := number m.base.toUInt32 16 8 (-1) ZEROPAD
def lengthPlace : List UInt8 := number (m.base >>> 32).toUInt32 16 (-1) (-1) SMALL
def typePlace : List UInt8 := number m.length.toUInt32 10 (-1) (-1) SIGN

/-- A line with these three texts in their places. -/
def memSecText (base length type : List UInt8) : List UInt8 :=
  text "[base:0x" ++ base ++ text ", length:0x" ++ length ++ text ", type:" ++ type ++ text "]\n"

theorem written_memSec :
    (vsprintf memSecFormat (memSecArgs m above) memory).written =
      memSecText (basePlace m) (lengthPlace m) (typePlace m) := by
  have format : memSecFormat = text "[base:0x" ++ '%'.toUInt8 :: 'l'.toUInt8 :: 'p'.toUInt8 ::
      (text ", length:0x" ++ '%'.toUInt8 :: 'l'.toUInt8 :: 'x'.toUInt8 ::
        (text ", type:" ++ '%'.toUInt8 :: 'd'.toUInt8 :: (text "]\n" ++ []))) := rfl
  have start : vsprintf memSecFormat (memSecArgs m above) memory =
      formatted memSecFormat ⟨[], memSecArgs m above, memory⟩ := rfl
  rw [start, format, formatted_literal (by decide), formatted_directive, directive_lp,
    formatted_literal (by decide), formatted_directive, directive_lx,
    formatted_literal (by decide), formatted_directive, directive_d,
    formatted_literal (by decide)]
  rfl

/-- `printf_buf` has room for it and for the zero at its end. -/
theorem length_memSec :
    (vsprintf memSecFormat (memSecArgs m above) memory).written.length + 1 ≤ 1024 := by
  have base := length_number_le ZEROPAD (by decide) (by decide) m.base.toUInt32 16 8 (-1)
  have length := length_number_le SMALL (by decide) (by decide)
    (m.base >>> 32).toUInt32 16 (-1) (-1)
  have type := length_number_le SIGN (by decide) (by decide) m.length.toUInt32 10 (-1) (-1)
  have literal : (text "[base:0x").length = 8 ∧ (text ", length:0x").length = 11 ∧
      (text ", type:").length = 7 ∧ (text "]\n").length = 2 := ⟨rfl, rfl, rfl, rfl⟩
  rw [written_memSec, memSecText, basePlace, lengthPlace, typePlace]
  simp only [List.length_append, literal]
  omega

end Line

/-- What comes before the first of a character is settled by the whole. -/
theorem append_cons_inj {α : Type} {c : α} {as as' bs bs' : List α} (ha : c ∉ as) (ha' : c ∉ as')
    (h : as ++ c :: bs = as' ++ c :: bs') : as = as' ∧ bs = bs' := by
  induction as generalizing as' with
  | nil =>
    cases as' with
    | nil => exact ⟨rfl, (List.cons.inj h).2⟩
    | cons a' as' => exact absurd ((List.cons.inj h).1 ▸ List.mem_cons_self) ha'
  | cons a as ih =>
    cases as' with
    | nil => exact absurd ((List.cons.inj h).1 ▸ List.mem_cons_self) ha
    | cons a' as' =>
      obtain ⟨rfl, rest⟩ := List.cons.inj h
      obtain ⟨rfl, rfl⟩ := ih (fun there => ha (List.mem_cons_of_mem _ there))
        (fun there => ha' (List.mem_cons_of_mem _ there)) rest
      exact ⟨rfl, rfl⟩

/-- A line has one text in each place, where the first two have no comma. -/
theorem memSecText_inj {base length type base' length' type' : List UInt8}
    (hb : ','.toUInt8 ∉ base) (hb' : ','.toUInt8 ∉ base') (hl : ','.toUInt8 ∉ length)
    (hl' : ','.toUInt8 ∉ length')
    (h : memSecText base length type = memSecText base' length' type') :
    base = base' ∧ length = length' ∧ type = type' := by
  have first : text ", length:0x" = ','.toUInt8 :: text " length:0x" := rfl
  have second : text ", type:" = ','.toUInt8 :: text " type:" := rfl
  unfold memSecText at h
  simp only [first, second, List.append_assoc, List.cons_append] at h
  obtain ⟨same, h⟩ := append_cons_inj hb hb' (List.append_cancel_left h)
  obtain ⟨same', h⟩ := append_cons_inj hl hl' (List.append_cancel_left h)
  exact ⟨same, same', List.append_cancel_right (List.append_cancel_left h)⟩

/-! ## The law -/

/-- The line shows the section: the base and the length in hexadecimal, the type in
decimal. -/
def Shows (m : MemSec) (line : List UInt8) : Prop :=
  ∃ base length type, line = memSecText base length type ∧
    Numeral 16 base m.base.toNat ∧ Numeral 16 length m.length.toNat ∧
      Numeral 10 type m.type.toNat

/-- The characters that `print_mem_sec` has printed. -/
def memSecLine (m : MemSec) (above : Stream' UInt32) (memory : Mem32) : List UInt8 :=
  ((vsprintf memSecFormat (memSecArgs m above) memory).written ++ [0]).takeWhile (· ≠ 0)

section Places

variable (m : MemSec)

theorem numeral_basePlace : Numeral 16 (basePlace m) m.base.toUInt32.toNat :=
  numeral_number (by decide) (by decide) (by decide) (.inl (by decide)) _ 16 _

theorem numeral_lengthPlace : Numeral 16 (lengthPlace m) (m.base >>> 32).toUInt32.toNat :=
  numeral_number (by decide) (by decide) (by decide) (.inr (by decide)) _ 16 _

theorem typePlace_cases :
    (∃ cs n, Numeral 10 cs n ∧ typePlace m = '-'.toUInt8 :: cs) ∨
      Numeral 10 (typePlace m) m.length.toUInt32.toNat := by
  obtain ⟨cs, numeral, written⟩ :=
    number_sign (-1) (by decide) m.length.toUInt32 10 (-1)
  unfold typePlace
  rw [written]
  split at numeral
  next negative => exact .inl ⟨cs, _, numeral, if_pos negative⟩
  next positive =>
    rw [if_neg positive]
    exact .inr numeral

/-- A numeral in the third place is one of the lower word of the length. -/
theorem numeral_typePlace {n : Nat} (h : Numeral 10 (typePlace m) n) :
    m.length.toUInt32.toNat = n := by
  rcases typePlace_cases m with ⟨cs, _, -, minus⟩ | numeral
  · exact absurd (minus ▸ List.mem_cons_self) (h.notMem (c := '-'.toUInt8) rfl)
  · exact numeral.unique h

/-- Nothing in the line ends it. -/
theorem memSecLine_eq (above : Stream' UInt32) (memory : Mem32) :
    memSecLine m above memory = memSecText (basePlace m) (lengthPlace m) (typePlace m) := by
  have base := (numeral_basePlace m).notMem (c := 0) rfl
  have length := (numeral_lengthPlace m).notMem (c := 0) rfl
  have type : 0 ∉ typePlace m := by
    rcases typePlace_cases m with ⟨cs, _, numeral, minus⟩ | numeral
    · rw [minus, List.mem_cons, not_or]
      exact ⟨by decide, numeral.notMem rfl⟩
    · exact numeral.notMem rfl
  have literal : 0 ∉ text "[base:0x" ∧ 0 ∉ text ", length:0x" ∧ 0 ∉ text ", type:" ∧
      0 ∉ text "]\n" := by decide
  unfold memSecLine
  rw [written_memSec, List.takeWhile_append_of_pos]
  · exact List.append_nil _
  intro c hc
  have nonzero : c ≠ 0 := by
    rintro rfl
    simp only [memSecText, List.mem_append, base, length, type, literal, or_self] at hc
  exact decide_eq_true nonzero

end Places

/-- THE LAW of `print_mem_sec`: what it prints shows the section exactly where the base is a
single word and the length and the type are zero. -/
theorem printMemSec_shows_iff (m : MemSec) (above : Stream' UInt32) (memory : Mem32)
    (t : Console) :
    (printMemSec m above memory t).2 = t.run (memSecLine m above memory) ∧
      (Shows m (memSecLine m above memory) ↔
        m.base.toNat < 2 ^ 32 ∧ m.length = 0 ∧ m.type = 0) := by
  constructor
  · unfold printMemSec printf memSecLine
    generalize vsprintf memSecFormat (memSecArgs m above) memory = p
    exact Console.puts_eq (p.written ++ [0]) t
  have base := numeral_basePlace m
  have length := numeral_lengthPlace m
  have low : m.base.toUInt32.toNat = m.base.toNat % 2 ^ 32 := UInt64.toNat_toUInt32 _
  have high : (m.base >>> 32).toUInt32.toNat = m.base.toNat / 2 ^ 32 % 2 ^ 32 := by
    rw [UInt64.toNat_toUInt32, UInt64.toNat_shiftRight, Nat.shiftRight_eq_div_pow]
    rfl
  have fits := m.base.toNat_lt
  rw [memSecLine_eq, ← UInt64.toNat_inj, ← UInt32.toNat_inj]
  constructor
  · rintro ⟨b, l, t, line, hb, hl, ht⟩
    obtain ⟨rfl, rfl, rfl⟩ := memSecText_inj (base.notMem rfl) (hb.notMem rfl)
      (length.notMem rfl) (hl.notMem rfl) line
    have shown := base.unique hb
    have upper := length.unique hl
    have lower := numeral_typePlace m ht
    have single : m.base.toNat < 2 ^ 32 := by omega
    have none : m.length.toNat = 0 := by
      rw [← upper, high, Nat.div_eq_of_lt single, Nat.zero_mod]
    refine ⟨single, none, ?_⟩
    rw [← lower, UInt64.toNat_toUInt32, none]
    rfl
  · rintro ⟨single, none, nothing⟩
    refine ⟨_, _, _, rfl, ?_, ?_, ?_⟩
    · rwa [low, Nat.mod_eq_of_lt single] at base
    · rwa [high, Nat.div_eq_of_lt single, Nat.zero_mod, ← UInt64.toNat_zero, ← none] at length
    · have zero : m.length.toUInt32 = 0 := by
        rw [UInt64.toNat_inj.mp none]
        rfl
      unfold typePlace
      rw [zero, nothing]
      exact ⟨by decide +kernel, by decide +kernel⟩

/-- 639 KiB from 0 on, usable: "[base:0x00000000, length:0x0, type:654336]". -/
theorem memSec_misprinted : ¬ ∀ (m : MemSec) (above : Stream' UInt32) (memory : Mem32),
    Shows m (memSecLine m above memory) := by
  intro h
  have zero := ((printMemSec_shows_iff ⟨0, 0x9FC00, 1⟩ (fun _ => 0) (fun _ => 0)
    (Console.start 7)).2.mp (h _ _ _)).2.1
  exact absurd zero (by decide)

end ToyBootloader
