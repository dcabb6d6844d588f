import ToyBootloader.Laws.Number

/-!
# Formats and what they take

`vsprintf` carries out the pieces of its format one after the other. How many words it takes
off the stack is settled by the format alone, and no other word makes any difference. A
format that does not break off in a directive is done before what comes after it, and any
text can be printed by doubling its percent signs.
-/

namespace ToyBootloader.Printf

open Memory Numerals

/-! ## `vsprintf` does what its format says -/

section Meaning

theorem fieldWidthOf_eq (fmt : List UInt8) (flags : UInt8) (p : Printing) :
    fieldWidthOf fmt flags p =
      (((parseWidth fmt).1.asWidth flags p).1, ((parseWidth fmt).1.asWidth flags p).2.1,
        (parseWidth fmt).2, ((parseWidth fmt).1.asWidth flags p).2.2) := by
  fun_cases fieldWidthOf fmt flags p with
  | case1 => rfl
  | case2 c rest digit fieldWidth after read =>
    rw [parseWidth, if_pos digit, read]
    rfl
  | case3 rest arg p' taken fieldWidth negative =>
    rw [parseWidth, if_neg (by decide), if_pos rfl, Amount.asWidth, taken]
    dsimp only
    rw [if_pos negative]
  | case4 rest arg p' taken fieldWidth positive =>
    rw [parseWidth, if_neg (by decide), if_pos rfl, Amount.asWidth, taken]
    dsimp only
    rw [if_neg positive]
  | case5 c rest digit star =>
    rw [parseWidth, if_neg digit, if_neg star]
    rfl

theorem precisionOf_eq (fmt : List UInt8) (p : Printing) :
    precisionOf fmt p = (((parsePrecision fmt).1.asPrecision p).1, (parsePrecision fmt).2,
      ((parsePrecision fmt).1.asPrecision p).2) := by
  fun_cases precisionOf fmt p with
  | case1 => rfl
  | case2 => rfl
  | case3 d rest digit precision after read =>
    rw [parsePrecision, if_pos rfl, parseWidth, if_pos digit, read]
    rfl
  | case4 rest arg p' taken =>
    rw [parsePrecision, if_pos rfl, parseWidth, if_neg (by decide), if_pos rfl]
    dsimp only [Amount.orZero, Amount.asPrecision]
    rw [taken]
  | case5 d rest digit star =>
    rw [parsePrecision, if_pos rfl, parseWidth, if_neg digit, if_neg star]
    rfl
  | case6 c rest point =>
    rw [parsePrecision, if_neg point]
    rfl

/-- A directive is read, and then carried out. -/
theorem directive_eq (fmt : List UInt8) (p : Printing) :
    directive fmt p = ((parseSpec fmt).2, (parseSpec fmt).1.run p) := by
  unfold directive parseSpec Spec.run
  simp only [fieldWidthOf_eq, precisionOf_eq]
  generalize (qualifierOf (parsePrecision (parseWidth (flagsOf fmt 0).2).2).2) = q
  obtain ⟨qualifier, rest⟩ := q
  cases rest <;> rfl

theorem length_parseSpec (fmt : List UInt8) : (parseSpec fmt).2.length ≤ fmt.length := by
  have shorter := length_directive fmt ⟨[], fun _ => 0, fun _ => 0⟩
  rwa [directive_eq] at shorter

/-- More turns than there are characters find no more pieces. -/
theorem pieces_fuel {n k : Nat} {fmt : List UInt8} (hn : fmt.length ≤ n) (hk : fmt.length ≤ k) :
    pieces n fmt = pieces k fmt := by
  induction n generalizing k fmt with
  | zero =>
    rw [List.eq_nil_of_length_eq_zero (Nat.le_zero.mp hn)]
    cases k <;> rfl
  | succ n ih =>
    cases fmt with
    | nil => cases k <;> rfl
    | cons c fmt =>
      rw [List.length_cons] at hn hk
      obtain ⟨k, rfl⟩ := Nat.exists_eq_succ_of_ne_zero (Nat.ne_zero_of_lt hk)
      have further := Nat.le_of_succ_le_succ hn
      have further' := Nat.le_of_succ_le_succ hk
      have rest := length_parseSpec fmt
      rw [pieces, pieces]
      split
      · rw [ih further further']
      · rw [ih (Nat.le_trans rest further) (Nat.le_trans rest further')]

theorem parse_char {c : UInt8} (hc : c ≠ '%'.toUInt8) (fmt : List UInt8) :
    parse (c :: fmt) = .char c :: parse fmt := if_pos hc

theorem parse_spec (fmt : List UInt8) :
    parse ('%'.toUInt8 :: fmt) = .spec (parseSpec fmt).1 :: parse (parseSpec fmt).2 := by
  have rest := pieces_fuel (length_parseSpec fmt) le_rfl
  exact congrArg (Piece.spec (parseSpec fmt).1 :: ·) rest

/-- What is printed with a format is printed with its pieces. -/
theorem formatted_eq (fmt : List UInt8) (p : Printing) : formatted fmt p = runAll (parse fmt) p := by
  induction h : fmt.length using Nat.strong_induction_on generalizing fmt p with
  | _ n ih =>
    subst h
    cases fmt with
    | nil => rfl
    | cons c fmt =>
      by_cases hc : c = '%'.toUInt8
      · subst hc
        have shorter := Nat.lt_succ_of_le (length_parseSpec fmt)
        rw [formatted_directive, directive_eq, parse_spec, ih _ shorter _ _ rfl]
        rfl
      · rw [formatted_char hc, parse_char hc, ih _ (Nat.lt_succ_self _) _ _ rfl]
        rfl

end Meaning

/-! ## The arguments -/

/-- So many arguments are taken, and the rest makes no difference. -/
def Takes (n : Nat) (f : Printing → Printing) : Prop :=
  ∀ p args, args.take n = p.args.take n →
    f { p with args } = { f p with args := args.drop n }

namespace Takes

variable {n k : Nat} {f g : Printing → Printing}

/-- What is done without the arguments. -/
theorem of_free (h : ∀ p args, f { p with args } = { f p with args }) : Takes 0 f :=
  fun p args _ => h p args

theorem put (cs : List UInt8) : Takes 0 (Printing.put · cs) := of_free fun _ _ => rfl

/-- What is done with the next argument. -/
theorem next (h : ∀ p args, args.head = p.args.head →
    f { p with args } = { f p with args := args.tail }) : Takes 1 f :=
  fun p args same => h p args (List.cons.inj same).1

/-- Whatever is done with the next argument and after it. -/
theorem vaArg {f : UInt32 → Printing → Printing} (h : ∀ arg, Takes n (f arg)) :
    Takes (1 + n) fun p => f p.vaArg.1 p.vaArg.2 := by
  rw [Nat.add_comm]
  intro p args same
  rw [Stream'.take_succ, Stream'.take_succ] at same
  obtain ⟨first, rest⟩ := List.cons.inj same
  have head : ({ p with args } : Printing).vaArg.1 = p.vaArg.1 := first
  have tail := h p.vaArg.1 p.vaArg.2 args.tail rest
  dsimp only
  rw [head]
  exact tail

/-- What is left of the arguments. -/
theorem args_eq (h : Takes n f) (p : Printing) : (f p).args = p.args.drop n := by
  have same := h p p.args rfl
  exact congrArg Printing.args same

theorem comp (hf : Takes n f) (hg : Takes k g) : Takes (n + k) fun p => g (f p) := by
  intro p args same
  have first : args.take n = p.args.take n := by
    have cut := congrArg (List.take n) same
    rwa [Stream'.take_take, Stream'.take_take, Nat.min_eq_right (Nat.le_add_right n k)] at cut
  have second : (args.drop n).take k = (f p).args.take k := by
    rw [hf.args_eq, Stream'.take_drop, Stream'.take_drop, same]
  have inner := hf p args first
  have outer := hg (f p) (args.drop n) second
  dsimp only
  rw [inner, outer, Stream'.drop_drop]

end Takes

section Pieces

variable (flags : UInt8) (fieldWidth precision : Int) (qualifier : UInt8)

theorem takes_putChar : Takes 1 (putChar flags fieldWidth) := Takes.next fun p args head => by
  unfold putChar Printing.vaArg
  dsimp only
  rw [head]
  rfl

theorem takes_putString : Takes 1 (putString flags fieldWidth precision) :=
  Takes.next fun p args head => by
    unfold putString Printing.vaArg
    dsimp only
    rw [head]
    rfl

theorem takes_putPointer : Takes 1 (putPointer flags fieldWidth precision) :=
  Takes.next fun p args head => by
    unfold putPointer Printing.vaArg
    dsimp only
    rw [head]
    rfl

theorem takes_putCount : Takes 1 putCount := Takes.next fun p args head => by
  unfold putCount Printing.vaArg
  dsimp only
  rw [head]

theorem takes_putInteger (base : Base) :
    Takes 1 (putInteger base flags fieldWidth precision qualifier) :=
  Takes.next fun p args head => by
    unfold putInteger Printing.vaArg
    dsimp only
    rw [head]
    rfl

/-- A conversion takes one argument or none. -/
theorem takes_convert (c : UInt8) :
    Takes (if c ∈ taking then 1 else 0) (convert c flags fieldWidth precision qualifier) := by
  by_cases known : c = 'c'.toUInt8 ∨ c = 's'.toUInt8 ∨ c = 'p'.toUInt8 ∨ c = 'n'.toUInt8 ∨
      c = '%'.toUInt8 ∨ c = 'o'.toUInt8 ∨ c = 'x'.toUInt8 ∨ c = 'X'.toUInt8 ∨
      (c = 'd'.toUInt8 ∨ c = 'i'.toUInt8) ∨ c = 'u'.toUInt8
  · rcases known with rfl | rfl | rfl | rfl | rfl | rfl | rfl | rfl | (rfl | rfl) | rfl
    · exact takes_putChar flags fieldWidth
    · exact takes_putString flags fieldWidth precision
    · exact takes_putPointer flags fieldWidth precision
    · exact takes_putCount
    · exact Takes.put _
    all_goals exact takes_putInteger _ fieldWidth precision qualifier _
  · have none : c ∉ taking := by
      have letters : taking = ['c'.toUInt8, 's'.toUInt8, 'p'.toUInt8, 'n'.toUInt8, 'o'.toUInt8,
        'x'.toUInt8, 'X'.toUInt8, 'd'.toUInt8, 'i'.toUInt8, 'u'.toUInt8] := rfl
      intro there
      simp only [letters, List.mem_cons, List.not_mem_nil, or_false] at there
      tauto
    have unknown : convert c flags fieldWidth precision qualifier =
        (Printing.put · ['%'.toUInt8, c]) := by
      funext p
      simp only [not_or] at known
      simp only [convert, known, if_false, or_self]
    rw [if_neg none, unknown]
    exact Takes.put _

/-- A width that is not in the format takes an argument of its own. -/
theorem takes_asWidth {n : Nat} {f : Int → UInt8 → Printing → Printing}
    (h : ∀ fieldWidth flags, Takes n (f fieldWidth flags)) (amount : Amount) :
    Takes (amount.arity + n) fun p =>
      f (amount.asWidth flags p).1 (amount.asWidth flags p).2.1 (amount.asWidth flags p).2.2 := by
  cases amount with
  | none => exact (Nat.zero_add n).symm ▸ h _ _
  | given k => exact (Nat.zero_add n).symm ▸ h _ _
  | star =>
    have either : ∀ arg : UInt32, Takes n fun p =>
        if arg.toInt32.toInt < 0 then f (-arg.toInt32.toInt) (flags ||| LEFT) p
        else f arg.toInt32.toInt flags p := by
      intro arg
      split
      · exact h _ _
      · exact h _ _
    have taken := Takes.vaArg either
    refine cast (congrArg _ (funext fun p => ?_)) taken
    unfold Amount.asWidth
    dsimp only
    split
    · rfl
    · rfl

theorem takes_asPrecision {n : Nat} {f : Int → Printing → Printing}
    (h : ∀ precision, Takes n (f precision)) (amount : Amount) :
    Takes (amount.arity + n) fun p =>
      f (amount.asPrecision p).1 (amount.asPrecision p).2 := by
  cases amount with
  | none => exact (Nat.zero_add n).symm ▸ h _
  | given k => exact (Nat.zero_add n).symm ▸ h _
  | star => exact Takes.vaArg (f := fun arg p => f (max 0 arg.toInt32.toInt) p) fun arg => h _

theorem Spec.takes_run (s : Spec) : Takes s.arity s.run := by
  obtain ⟨flags, width, places, qualifier, conversion⟩ := s
  cases conversion with
  | none =>
    have whole := takes_asWidth flags (fun _ _ =>
      takes_asPrecision (fun _ => Takes.put ['%'.toUInt8]) places) width
    rw [← Nat.add_assoc] at whole
    exact whole
  | some c =>
    have whole := takes_asWidth flags (fun fieldWidth flags =>
      takes_asPrecision (fun precision => takes_convert flags fieldWidth precision qualifier c)
        places) width
    rw [← Nat.add_assoc] at whole
    exact whole

theorem Piece.takes_run (piece : Piece) : Takes piece.arity piece.run := by
  cases piece with
  | char c => exact Takes.put [c]
  | spec s => exact s.takes_run

theorem takes_runAll (ps : List Piece) : Takes (ps.map Piece.arity).sum (runAll ps) := by
  induction ps with
  | nil => exact Takes.of_free fun _ _ => rfl
  | cons piece ps ih => exact piece.takes_run.comp ih

end Pieces

/-- A text without a zero is printed to its end. -/
theorem takeWhile_text {s : List UInt8} (zero : 0 ∉ s) : (s ++ [0]).takeWhile (· ≠ 0) = s := by
  rw [List.takeWhile_append_of_pos]
  · rw [List.takeWhile_cons_of_neg (by decide), List.append_nil]
  · intro c hc
    exact decide_eq_true fun none => zero (none ▸ hc)

/-- Text without a percent sign. -/
theorem vsprintf_literal {s : List UInt8} (percent : '%'.toUInt8 ∉ s) (args : Stream' UInt32)
    (m : Mem32) : vsprintf s args m = ⟨s, args, m⟩ := by
  have whole := formatted_literal percent [] ⟨[], args, m⟩
  rw [List.append_nil] at whole
  exact whole

/-! ## Memory -/

section Memory

theorem memory_convert {c : UInt8} (hc : c ≠ 'n'.toUInt8) (flags : UInt8)
    (fieldWidth precision : Int) (qualifier : UInt8) (p : Printing) :
    (convert c flags fieldWidth precision qualifier p).memory = p.memory := by
  fun_cases convert c flags fieldWidth precision qualifier p with
  | case4 _ _ _ store => exact absurd store hc
  | _ => rfl

theorem memory_asWidth (flags : UInt8) (p : Printing) (amount : Amount) :
    (amount.asWidth flags p).2.2.memory = p.memory := by
  cases amount with
  | none => rfl
  | given n => rfl
  | star =>
    unfold Amount.asWidth
    dsimp only
    split
    · rfl
    · rfl

theorem memory_asPrecision (p : Printing) (amount : Amount) :
    (amount.asPrecision p).2.memory = p.memory := by
  cases amount <;> rfl

/-- Only `%n` changes memory. -/
theorem memory_runAll {ps : List Piece} (h : ∀ piece ∈ ps, piece.isStore = false) (p : Printing) :
    (runAll ps p).memory = p.memory := by
  induction ps generalizing p with
  | nil => rfl
  | cons piece ps ih =>
    have rest := ih (fun piece' there => h piece' (List.mem_cons_of_mem _ there)) (piece.run p)
    refine rest.trans ?_
    have here := h piece List.mem_cons_self
    cases piece with
    | char c => rfl
    | spec s =>
      obtain ⟨flags, width, precision, qualifier, conversion⟩ := s
      have width' := memory_asWidth flags p width
      have precision' := memory_asPrecision (width.asWidth flags p).2.2 precision
      cases conversion with
      | none => exact precision'.trans width'
      | some c =>
        have other : c ≠ 'n'.toUInt8 := by
          rintro rfl
          cases here
        exact (memory_convert other _ _ _ _ _).trans (precision'.trans width')

theorem memory_vsprintf {fmt : List UInt8} (h : ∀ piece ∈ parse fmt, piece.isStore = false)
    (args : Stream' UInt32) (m : Mem32) : (vsprintf fmt args m).memory = m := by
  have whole := formatted_eq fmt ⟨[], args, m⟩
  exact (congrArg Printing.memory whole).trans (memory_runAll h _)

end Memory

/-- THE LAW of the arguments: with so many words as its format takes, `vsprintf` prints and
stores the same whatever is above them, and leaves what is above them. -/
theorem vsprintf_takes (fmt : List UInt8) (args above : Stream' UInt32) (m : Mem32) :
    vsprintf fmt (args.take (arity fmt) ++ₛ above) m = { vsprintf fmt args m with args := above } := by
  have whole : ∀ args, vsprintf fmt args m = runAll (parse fmt) ⟨[], args, m⟩ :=
    fun args => formatted_eq fmt ⟨[], args, m⟩
  have length := Stream'.length_take (arity fmt) args
  have same : (args.take (arity fmt) ++ₛ above).take (arity fmt) = args.take (arity fmt) := by
    rw [Stream'.take_append_of_le_length _ _ _ length.ge, List.take_of_length_le length.le]
  have rest := Stream'.drop_append_stream (args.take (arity fmt)) above
  rw [length] at rest
  have taken := takes_runAll (parse fmt) ⟨[], args, m⟩ (args.take (arity fmt) ++ₛ above) same
  rw [whole, whole]
  exact taken.trans (congrArg (fun args => { runAll (parse fmt) ⟨[], _, m⟩ with args }) rest)

end ToyBootloader.Printf
