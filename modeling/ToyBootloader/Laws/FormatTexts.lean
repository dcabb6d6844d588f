import ToyBootloader.Laws.Formats
import ToyBootloader.Sequences.Readers

/-!
# Formats one after the other, and formats written down

A format that does not break off in a directive is done before what comes after it. So a
format can be put together from the texts of its pieces: each is understood as it was meant.
-/

namespace ToyBootloader.Printf

open Memory Numerals Sequences

/-! ## Reading goes no further than it has to -/

section Steady

theorem steady_flagsOf (flags : UInt8) : Reader.Steady (flagsOf · flags) := by
  intro fmt fmt' more
  dsimp only at more ⊢
  fun_induction flagsOf fmt flags with
  | case1 => exact absurd rfl more
  | case7 flags c fmt minus plus blank special zero =>
    rw [List.cons_append, flagsOf, if_neg minus, if_neg plus, if_neg blank, if_neg special,
      if_neg zero]
  | _ => exact ‹_ → _› more

theorem steady_skipAtoi (i : Int32) : Reader.Steady (skipAtoi · i) := by
  intro fmt fmt' more
  dsimp only at more ⊢
  fun_induction skipAtoi fmt i with
  | case1 => exact absurd rfl more
  | case2 i c fmt digit ih => rw [List.cons_append, skipAtoi, if_pos digit, ih more]
  | case3 i c fmt digit => rw [List.cons_append, skipAtoi, if_neg digit]

theorem steady_parseWidth : Reader.Steady parseWidth := by
  intro fmt fmt' more
  cases fmt with
  | nil => exact absurd rfl more
  | cons c rest =>
    simp only [parseWidth, List.cons_append] at more ⊢
    by_cases digit : isdigit c = true
    · simp only [if_pos digit] at more ⊢
      have read := steady_skipAtoi 0 (c :: rest) fmt' more
      dsimp only at read
      rw [← List.cons_append, read]
    · simp only [if_neg digit]
      split
      next => rfl
      next => rfl

theorem steady_parsePrecision : Reader.Steady parsePrecision := by
  intro fmt fmt' more
  cases fmt with
  | nil => exact absurd rfl more
  | cons c rest =>
    simp only [parsePrecision, List.cons_append] at more ⊢
    by_cases point : c = '.'.toUInt8
    · simp only [if_pos point] at more ⊢
      rw [steady_parseWidth rest fmt' more]
    · simp only [if_neg point]
      rfl

theorem steady_qualifierOf : Reader.Steady qualifierOf := by
  intro fmt fmt' more
  fun_cases qualifierOf fmt with
  | case1 => exact absurd rfl more
  | case2 c fmt some => rw [List.cons_append, qualifierOf, if_pos some]
  | case3 c fmt none => rw [List.cons_append, qualifierOf, if_neg none]

/-- Flags, width, precision and qualifier. -/
def beforeConversion : Reader UInt8 (((UInt8 × Amount) × Amount) × UInt8) :=
  (((Reader.andThen (flagsOf · 0) parseWidth).andThen parsePrecision).andThen qualifierOf)

theorem steady_beforeConversion : Reader.Steady beforeConversion :=
  (((steady_flagsOf 0).andThen steady_parseWidth rfl).andThen steady_parsePrecision rfl).andThen
    steady_qualifierOf rfl

/-- A directive that has its conversion is read without what comes after it. -/
theorem parseSpec_append {fmt : List UInt8} (whole : (parseSpec fmt).1.conversion ≠ none)
    (fmt' : List UInt8) :
    parseSpec (fmt ++ fmt') = ((parseSpec fmt).1, (parseSpec fmt).2 ++ fmt') := by
  have spec : ∀ fmt, parseSpec fmt = (⟨(beforeConversion fmt).1.1.1.1,
      (beforeConversion fmt).1.1.1.2, (beforeConversion fmt).1.1.2, (beforeConversion fmt).1.2,
      (beforeConversion fmt).2.head?⟩, (beforeConversion fmt).2.tail) := fun _ => rfl
  have more : (beforeConversion fmt).2 ≠ [] := by
    intro nothing
    rw [spec] at whole
    exact whole (congrArg List.head? nothing)
  have read := steady_beforeConversion fmt fmt' more
  rw [spec (fmt ++ fmt'), read, spec fmt]
  dsimp only
  rw [List.head?_append_of_ne_nil _ more, List.tail_append_of_ne_nil more]

end Steady

/-! ## One format after another -/

theorem parse_append {fmt : List UInt8} (closed : Closed fmt) (fmt' : List UInt8) :
    parse (fmt ++ fmt') = parse fmt ++ parse fmt' := by
  induction h : fmt.length using Nat.strong_induction_on generalizing fmt with
  | _ n ih =>
    subst h
    cases fmt with
    | nil => rfl
    | cons c fmt =>
      unfold Closed at closed
      by_cases hc : c = '%'.toUInt8
      · subst hc
        have shorter := Nat.lt_succ_of_le (length_parseSpec fmt)
        rw [parse_spec] at closed
        have whole : (parseSpec fmt).1.conversion ≠ none :=
          Option.isSome_iff_ne_none.mp (Option.isNone_eq_false_iff.mp (closed _ List.mem_cons_self))
        have rest := ih _ shorter (fun s there => closed s (List.mem_cons_of_mem _ there)) rfl
        rw [List.cons_append, parse_spec, parse_spec, parseSpec_append whole, rest]
        rfl
      · rw [parse_char hc] at closed
        have rest := ih _ (Nat.lt_succ_self _)
          (fun s there => closed s (List.mem_cons_of_mem _ there)) rfl
        rw [List.cons_append, parse_char hc, parse_char hc, rest]
        rfl

/-- THE LAW of formats one after the other: where no directive breaks off in the first, it is
carried out first, and it takes its arguments first. -/
theorem vsprintf_append {fmt : List UInt8} (closed : Closed fmt) (fmt' : List UInt8)
    (args : Stream' UInt32) (m : Mem32) :
    vsprintf (fmt ++ fmt') args m = formatted fmt' (vsprintf fmt args m) ∧
      arity (fmt ++ fmt') = arity fmt + arity fmt' := by
  have parsed := parse_append closed fmt'
  have first := formatted_eq fmt ⟨[], args, m⟩
  have both := formatted_eq (fmt ++ fmt') ⟨[], args, m⟩
  rw [parsed, runAll, List.foldl_append] at both
  constructor
  · rw [formatted_eq fmt']
    exact both.trans (congrArg (runAll (parse fmt')) first.symm)
  · unfold arity
    rw [parsed, List.map_append, List.sum_append]

/-- A number and a comma, with another number after it. -/
theorem vsprintf_append_comma :
    vsprintf (text "%d," ++ text " %d") (fun i => UInt32.ofNat i) (fun _ => 0) =
        formatted (text " %d") (vsprintf (text "%d,") (fun i => UInt32.ofNat i) (fun _ => 0)) ∧
      arity (text "%d," ++ text " %d") = 1 + 1 :=
  vsprintf_append (by decide) _ _ _

/-! ## What is written is read -/

section Written

variable {rest : List UInt8}

theorem mem_head_append {as bs : List UInt8} {c : UInt8} (h : c ∈ (as ++ bs).head?) :
    c ∈ as.head? ∨ c ∈ bs.head? := by
  cases as with
  | nil => exact .inr h
  | cons a as => exact .inl h

/-- A flag is read as the bit it stands for. -/
theorem flagsOf_cons {f : UInt8 × UInt8} (hf : f ∈ flagChars) (fmt : List UInt8) (flags : UInt8) :
    flagsOf (f.1 :: fmt) flags = flagsOf fmt (flags ||| f.2) := by
  simp only [flagChars, List.mem_cons, List.not_mem_nil, or_false] at hf
  rcases hf with rfl | rfl | rfl | rfl | rfl <;> rfl

theorem flagsOf_append {fs : List (UInt8 × UInt8)} (h : ∀ f ∈ fs, f ∈ flagChars)
    (stops : ∀ c ∈ rest.head?, c ∉ flagChars.map Prod.fst) (flags : UInt8) :
    flagsOf (fs.map Prod.fst ++ rest) flags = (fs.foldl (fun flags f => flags ||| f.2) flags, rest) := by
  induction fs generalizing flags with
  | nil =>
    cases rest with
    | nil => rfl
    | cons c rest =>
      have other := stops c rfl
      simp only [flagChars, List.map_cons, List.map_nil, List.mem_cons, List.not_mem_nil, not_or] at other
      simp only [List.map_nil, List.nil_append, flagsOf, other, if_false, List.foldl_nil]
  | cons f fs ih =>
    rw [List.map_cons, List.cons_append, flagsOf_cons (h f List.mem_cons_self),
      ih fun f' there => h f' (List.mem_cons_of_mem _ there)]
    rfl

theorem flagsOf_flagsText {flags : UInt8}
    (plain : flags &&& ~~~(LEFT ||| PLUS ||| SPACE ||| SPECIAL ||| ZEROPAD) = 0)
    (stops : ∀ c ∈ rest.head?, c ∉ flagChars.map Prod.fst) :
    flagsOf (flagsText flags ++ rest) 0 = (flags, rest) := by
  have whole : (flagChars.filter fun f => flags &&& f.2 ≠ 0).foldl (fun flags f => flags ||| f.2) 0 =
      flags := by
    revert plain
    exact forall_byte flags (by decide +kernel)
  rw [flagsText, flagsOf_append (fun f there => (List.mem_filter.mp there).1) stops, whole]

theorem isdigit_iff {c : UInt8} : isdigit c = true ↔ 0x30 ≤ c ∧ c ≤ 0x39 := by
  simp only [isdigit, Bool.and_eq_true, decide_eq_true_eq]
  exact Iff.rfl

theorem digit_isdigit {c : UInt8} (h : isdigit c = true) :
    digit? c = some (c.toNat - '0'.toNat) ∧ c.toNat - '0'.toNat < 10 := by
  have within := isdigit_iff.mp h
  have low : 0x30 ≤ c.toNat := within.1
  have high : c.toNat ≤ 0x39 := within.2
  have zero : '0'.toNat = 0x30 := rfl
  exact ⟨if_pos within, by omega⟩

theorem digit_not_isdigit {c : UInt8} (h : isdigit c = false) : ∀ d ∈ digit? c, 10 ≤ d := by
  intro d there
  have without : ¬(0x30 ≤ c ∧ c ≤ 0x39) := fun within => by
    rw [isdigit_iff.mpr within] at h
    cases h
  rw [digit?, if_neg without] at there
  split at there
  · cases there
    omega
  split at there
  · cases there
    omega
  · cases there

/-- `skip_atoi` reads decimal digits, and wraps. -/
theorem skipAtoi_eq (cs : List UInt8) (n : Nat) :
    skipAtoi cs (.ofNat n) = (.ofNat (digitsFrom 10 cs n).1, (digitsFrom 10 cs n).2) := by
  induction cs generalizing n with
  | nil => rfl
  | cons c cs ih =>
    cases digit : isdigit c with
    | true =>
      obtain ⟨here, low⟩ := digit_isdigit digit
      have zero : '0'.toNat ≤ c.toNat := (isdigit_iff.mp digit).1
      have next : Int32.ofNat n * 10 + Int32.ofNat c.toNat - Int32.ofNat '0'.toNat =
          Int32.ofNat (n * 10 + (c.toNat - '0'.toNat)) := by
        rw [Int32.ofNat_add, Int32.ofNat_mul, Int32.ofNat_sub _ _ zero, Int32.sub_eq_add_neg,
          Int32.sub_eq_add_neg, Int32.add_assoc]
        rfl
      rw [skipAtoi, if_pos digit, next, ih, digitsFrom, here]
      dsimp only
      rw [if_pos low]
    | false =>
      have high := digit_not_isdigit digit
      rw [skipAtoi, if_neg (Bool.eq_false_iff.mp digit), digitsFrom]
      split
      next d here => rw [if_neg (Nat.not_lt.mpr (high d here))]
      next => rfl

theorem skipAtoi_decimal {n : Nat} (fits : n < 2147483648)
    (stops : ∀ c ∈ rest.head?, isdigit c = false) :
    (skipAtoi (decimal n ++ rest) 0).1.toInt = n ∧ (skipAtoi (decimal n ++ rest) 0).2 = rest := by
  have ends : ∀ c ∈ rest.head?, ∀ d, digit? c = some d → 10 ≤ d :=
    fun c here => digit_not_isdigit (stops c here)
  have read := skipAtoi_eq (decimal n ++ rest) 0
  rw [digitsFrom_append (value_decimal n) ends, Nat.zero_mul, Nat.zero_add] at read
  have start : (0 : Int32) = .ofNat 0 := rfl
  rw [start, read]
  exact ⟨Int32.toInt_ofNat_of_lt fits, rfl⟩

theorem isdigit_decimal {d : Nat} (hd : d < 10) : isdigit (UInt8.ofNat (d + 0x30)) = true := by
  have all : ∀ d : Fin 10, isdigit (UInt8.ofNat (d.val + 0x30)) = true := by decide
  exact all ⟨d, hd⟩

theorem parseWidth_none (stops : ∀ c ∈ rest.head?, isdigit c = false ∧ c ≠ '*'.toUInt8) :
    parseWidth rest = (.none, rest) := by
  cases rest with
  | nil => rfl
  | cons c rest =>
    obtain ⟨digit, star⟩ := stops c rfl
    rw [parseWidth, if_neg (Bool.eq_false_iff.mp digit), if_neg star]

theorem parseWidth_given {i : Int} (pos : 1 ≤ i) (fits : i < 2147483648)
    (stops : ∀ c ∈ rest.head?, isdigit c = false) :
    parseWidth (decimal i.toNat ++ rest) = (.given i, rest) := by
  have hn : i.toNat ≠ 0 := by omega
  obtain ⟨d, cs, -, low, first⟩ := decimal_eq_cons hn
  obtain ⟨number, left⟩ := skipAtoi_decimal (n := i.toNat) (by omega) stops
  have whole : (i.toNat : Int) = i := by omega
  rw [whole] at number
  rw [first, List.cons_append] at number left ⊢
  rw [parseWidth, if_pos (isdigit_decimal low)]
  dsimp only
  rw [number, left]

/-- A width. -/
theorem parseWidth_text {amount : Amount} (plain : amount.Fits 1)
    (stops : ∀ c ∈ rest.head?, isdigit c = false ∧ c ≠ '*'.toUInt8) :
    parseWidth (amount.text ++ rest) = (amount, rest) := by
  cases amount with
  | none => exact parseWidth_none stops
  | given i =>
    obtain ⟨pos, fits⟩ := plain i rfl
    exact parseWidth_given pos fits fun c here => (stops c here).1
  | star => rfl

/-- A precision, of which nothing is left but the point where it is zero. -/
theorem parsePrecision_text {amount : Amount} (plain : amount.Fits 0)
    (stops : ∀ c ∈ rest.head?, isdigit c = false ∧ c ≠ '*'.toUInt8 ∧ c ≠ '.'.toUInt8) :
    parsePrecision (amount.precisionText ++ rest) = (amount, rest) := by
  cases amount with
  | none =>
    cases rest with
    | nil => rfl
    | cons c rest => exact if_neg (stops c rfl).2.2
  | given i =>
    obtain ⟨low, fits⟩ := plain i rfl
    have point : parsePrecision (Amount.precisionText (.given i) ++ rest) =
        ((parseWidth (decimal i.toNat ++ rest)).1.orZero,
          (parseWidth (decimal i.toNat ++ rest)).2) := rfl
    rw [point]
    by_cases zero : i = 0
    · rw [zero]
      have nothing : decimal (0 : Int).toNat ++ rest = rest := by
        rw [Int.toNat_zero, decimal, Nat.digits_zero]
        rfl
      rw [nothing, parseWidth_none fun c here => ⟨(stops c here).1, (stops c here).2.1⟩]
      rfl
    · rw [parseWidth_given (by omega) fits fun c here => (stops c here).1]
      rfl
  | star => rfl

theorem qualifierOf_text {qualifier : UInt8} (plain : qualifier ∈ 0 :: text "hlL")
    (stops : ∀ c ∈ rest.head?, c ∉ text "hlL") :
    qualifierOf ((if qualifier = 0 then [] else [qualifier]) ++ rest) = (qualifier, rest) := by
  have letters : text "hlL" = ['h'.toUInt8, 'l'.toUInt8, 'L'.toUInt8] := rfl
  simp only [letters, List.mem_cons, List.not_mem_nil, or_false] at plain stops
  rcases plain with rfl | rfl | rfl | rfl
  · cases rest with
    | nil => rfl
    | cons c rest => exact if_neg (stops c rfl)
  all_goals rfl

/-- Flags and qualifiers are reserved, and so are digits. -/
theorem mem_reserved {c : UInt8} (h : c ∈ flagChars.map Prod.fst ∨ c ∈ text "hlL") :
    c ∈ reserved := by
  have all : (flagChars.map Prod.fst ++ text "hlL").all reserved.contains = true := by decide
  exact List.contains_iff_mem.mp (List.all_eq_true.mp all c (List.mem_append.mpr h))

theorem mem_reserved_of_isdigit {c : UInt8} (h : isdigit c = true) : c ∈ reserved := by
  obtain ⟨low, high⟩ := isdigit_iff.mp h
  have low : 0x30 ≤ c.toNat := low
  have high : c.toNat ≤ 0x39 := high
  have digits : ∀ d : Fin 10, UInt8.ofNat (0x30 + d) ∈ reserved := by decide
  have there := digits ⟨c.toNat - 0x30, by omega⟩
  rwa [Nat.add_sub_cancel' low, UInt8.ofNat_toNat] at there

/-- What a conversion, or a qualifier before it, is not taken for. -/
theorem unreserved {c : UInt8} (h : c ∉ reserved ∨ c ∈ text "hlL") :
    (isdigit c = false ∧ c ≠ '*'.toUInt8 ∧ c ≠ '.'.toUInt8) ∧ c ∉ flagChars.map Prod.fst := by
  have letters : (text "hlL").all (fun c => !isdigit c && c != '*'.toUInt8 && c != '.'.toUInt8 &&
      !(flagChars.map Prod.fst).contains c) = true := by decide
  rcases h with free | letter
  · refine ⟨⟨Bool.eq_false_iff.mpr fun digit => free (mem_reserved_of_isdigit digit), ?_, ?_⟩, ?_⟩
    · rintro rfl
      exact absurd (by decide) free
    · rintro rfl
      exact absurd (by decide) free
    · exact fun flag => free (mem_reserved (.inl flag))
  · simpa [and_assoc] using List.all_eq_true.mp letters c letter

theorem notMem_qualifiers {c : UInt8} (h : c ∉ reserved) : c ∉ text "hlL" :=
  fun letter => h (mem_reserved (.inr letter))

theorem head_precisionText {amount : Amount} {c : UInt8} (h : c ∈ amount.precisionText.head?) :
    c = '.'.toUInt8 := by
  cases amount with
  | none => cases h
  | _ => exact (Option.some.inj h).symm

/-- A width begins with no flag: the digit it begins with is no zero. -/
theorem head_width {amount : Amount} (plain : amount.Fits 1) {c : UInt8}
    (h : c ∈ amount.text.head?) : c ∉ flagChars.map Prod.fst := by
  cases amount with
  | none => cases h
  | given i =>
    obtain ⟨pos, -⟩ := plain i rfl
    have some : i.toNat ≠ 0 := by omega
    obtain ⟨d, cs, positive, low, first⟩ := decimal_eq_cons some
    have all : ∀ d : Fin 10, 0 < d.val → UInt8.ofNat (d.val + 0x30) ∉ flagChars.map Prod.fst := by
      decide
    rw [Amount.text, first] at h
    cases h
    exact all ⟨d, low⟩ positive
  | star =>
    cases h
    decide

/-- A directive is read as it was written, whatever comes after it. -/
theorem parseSpec_text {s : Spec} (plain : s.Plain) (fmt : List UInt8) :
    ∃ body, s.text ++ fmt = '%'.toUInt8 :: body ∧ parseSpec body = (s, fmt) := by
  obtain ⟨flags, width, precision, qualifier, conversion⟩ := s
  obtain ⟨bits, fitsWidth, fitsPrecision, letter, c, rfl, free⟩ := plain
  dsimp only at bits fitsWidth fitsPrecision letter
  -- what comes after each of the parts
  let after₃ := (if qualifier = 0 then [] else [qualifier]) ++ c :: fmt
  let after₂ := precision.precisionText ++ after₃
  let after₁ := width.text ++ after₂
  have head₃ : ∀ d ∈ after₃.head?, d ∉ reserved ∨ d ∈ text "hlL" := by
    intro d here
    rcases mem_head_append here with here | here
    · split at here
      · cases here
      · cases here
        exact .inr ((List.mem_cons.mp letter).resolve_left ‹_›)
    · cases here
      exact .inl free
  have head₂ : ∀ d ∈ after₂.head?, (isdigit d = false ∧ d ≠ '*'.toUInt8) ∧
      d ∉ flagChars.map Prod.fst := by
    intro d here
    rcases mem_head_append here with here | here
    · rw [head_precisionText here]
      decide
    · obtain ⟨⟨digit, star, -⟩, flag⟩ := unreserved (head₃ d here)
      exact ⟨⟨digit, star⟩, flag⟩
  have head₁ : ∀ d ∈ after₁.head?, d ∉ flagChars.map Prod.fst := by
    intro d here
    rcases mem_head_append here with here | here
    · exact head_width fitsWidth here
    · exact (head₂ d here).2
  have readFlags := flagsOf_flagsText bits head₁
  have readWidth := parseWidth_text fitsWidth fun d here => (head₂ d here).1
  have readPrecision := parsePrecision_text fitsPrecision fun d here =>
    (unreserved (head₃ d here)).1
  have stops : ∀ d ∈ (c :: fmt).head?, d ∉ text "hlL" := by
    intro d here
    cases here
    exact notMem_qualifiers free
  have readQualifier := qualifierOf_text letter stops
  refine ⟨flagsText flags ++ after₁, ?_, ?_⟩
  · simp [Spec.text, after₁, after₂, after₃]
  · unfold parseSpec
    rw [readFlags]
    dsimp only [after₁]
    rw [readWidth]
    dsimp only [after₂]
    rw [readPrecision]
    dsimp only [after₃]
    rw [readQualifier]
    rfl

/-- A piece is read as it was written. -/
theorem parse_text {piece : Piece} (plain : piece.Plain) (fmt : List UInt8) :
    parse (piece.text ++ fmt) = piece :: parse fmt := by
  cases piece with
  | char c => exact parse_char plain fmt
  | spec s =>
    obtain ⟨body, whole, read⟩ := parseSpec_text plain fmt
    rw [Piece.text, whole, parse_spec, read]

/-- THE LAW of formats that are put together: a list of pieces, written down one after the
other and with any format after them, is carried out piece by piece before that format is. -/
theorem vsprintf_text (ps : List { piece : Piece // piece.Plain }) (fmt : List UInt8)
    (args : Stream' UInt32) (m : Mem32) :
    vsprintf (ps.flatMap (·.val.text) ++ fmt) args m =
      formatted fmt (runAll (ps.map Subtype.val) ⟨[], args, m⟩) := by
  have whole : parse (ps.flatMap (·.val.text) ++ fmt) = ps.map Subtype.val ++ parse fmt := by
    induction ps with
    | nil => rfl
    | cons piece ps ih =>
      rw [List.flatMap_cons, List.append_assoc, parse_text piece.property, ih]
      rfl
  have start := formatted_eq (ps.flatMap (·.val.text) ++ fmt) ⟨[], args, m⟩
  rw [whole, runAll, List.foldl_append] at start
  rw [formatted_eq]
  exact start

end Written

end ToyBootloader.Printf
