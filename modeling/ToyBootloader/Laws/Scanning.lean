import ToyBootloader.Laws.Formats

/-!
# What is printed can be read back

A format that prints numbers is also a format to read them with: characters stand for
themselves, and each directive for the number that is there. Where a character that belongs
to no number comes after every directive, reading what `vsprintf` has printed gives the
arguments it has printed, and leaves what comes after it.
-/

namespace ToyBootloader.Printf

open Memory Numerals

/-! ## A number -/

section Number

/-- A number that is not justified to the left. -/
theorem scan_number {type : UInt8} (left : type &&& LEFT = 0) (num : UInt32) (base : Base)
    (size precision : Int) {rest : List UInt8} (stops : Stops rest) :
    scan base.value.toNat (number num base size precision type ++ rest) =
      some (numberOf num type, rest) := by
  rw [number_eq, Figure.scan_text _ _ _ stops, value_figure, fillingOf, left]
  split
  · contradiction
  split
  · rfl
  · rfl

/-- The flags that a directive for a number adds leave it where it is. -/
theorem flags_number {flags : UInt8} (h : flags &&& (LEFT ||| SIGN) = 0) :
    (flags &&& LEFT = 0 ∧ flags &&& SIGN = 0) ∧
    ((flags ||| SMALL) &&& LEFT = 0 ∧ (flags ||| SMALL) &&& SIGN = 0) ∧
    ((flags ||| ZEROPAD) &&& LEFT = 0 ∧ (flags ||| ZEROPAD) &&& SIGN = 0) ∧
    (flags ||| SIGN) &&& LEFT = 0 ∧ (flags ||| SIGN) &&& SIGN ≠ 0 := by
  have left : flags &&& LEFT = 0 := by
    have within : flags &&& (LEFT ||| SIGN) &&& LEFT = flags &&& LEFT := by
      rw [UInt8.and_assoc]
      rfl
    rw [← within, h]
    rfl
  have sign : flags &&& SIGN = 0 := by
    have within : flags &&& (LEFT ||| SIGN) &&& SIGN = flags &&& SIGN := by
      rw [UInt8.and_assoc]
      rfl
    rw [← within, h]
    rfl
  simp only [or_and, left, sign]
  decide

/-- The conversions that print a number. -/
theorem conversion_of_base {s : Spec} (h : s.base.isSome = true) :
    s.conversion = some 'x'.toUInt8 ∨ s.conversion = some 'X'.toUInt8 ∨
      s.conversion = some 'p'.toUInt8 ∨ s.conversion = some 'o'.toUInt8 ∨
      s.conversion = some 'u'.toUInt8 ∨ s.conversion = some 'd'.toUInt8 ∨
      s.conversion = some 'i'.toUInt8 := by
  unfold Spec.base at h
  cases conversion : s.conversion with
  | none =>
    rw [conversion] at h
    cases h
  | some c =>
    rw [conversion, Option.bind_some] at h
    have letters : Printf.text "xXp" = ['x'.toUInt8, 'X'.toUInt8, 'p'.toUInt8] ∧
        Printf.text "diu" = ['d'.toUInt8, 'i'.toUInt8, 'u'.toUInt8] := ⟨rfl, rfl⟩
    simp only [letters, List.mem_cons, List.not_mem_nil, or_false] at h
    simp only [Option.some.injEq]
    split at h
    · tauto
    split at h
    · tauto
    split at h
    · tauto
    · cases h

variable (arg : UInt32) (flags : UInt8) (fieldWidth precision : Int) (qualifier : UInt8)

/-- The integer formats. -/
theorem exists_putInteger (base : Base) {signed : Bool}
    (sign : flags &&& SIGN ≠ 0 ↔ signed = true) :
    ∃ num, numberOf num flags =
        (if signed then (passed qualifier signed arg).toInt32.toInt
          else (passed qualifier signed arg).toNat) ∧
      ∀ p : Printing, p.vaArg.1 = arg → putInteger base flags fieldWidth precision qualifier p =
        p.vaArg.2.put (number num base fieldWidth precision flags) := by
  refine ⟨passed qualifier signed arg, ?_, fun p head => ?_⟩
  · unfold numberOf
    cases signed with
    | true => rw [if_neg (sign.mpr rfl), if_pos rfl]
    | false =>
      have clear : flags &&& SIGN = 0 := not_not.mp fun set => Bool.false_ne_true (sign.mp set)
      rw [if_pos clear, if_neg Bool.false_ne_true]
  · subst head
    unfold putInteger passed Printing.vaArg
    simp only [sign]

/-- Without a star there is a width and a precision, and no argument is taken for them. -/
theorem exists_amounts {width places : Amount} (hw : width ≠ .star) (hp : places ≠ .star) :
    ∃ fieldWidth precision, ∀ p, width.asWidth flags p = (fieldWidth, flags, p) ∧
      places.asPrecision p = (precision, p) := by
  cases width with
  | star => exact absurd rfl hw
  | _ =>
    cases places with
    | star => exact absurd rfl hp
    | _ => exact ⟨_, _, fun _ => ⟨rfl, rfl⟩⟩

/-- What a directive for a number puts. -/
theorem run_number {s : Spec} (h : s.isNumber = true) :
    ∃ base num size precision type, s.base = some base ∧ type &&& LEFT = 0 ∧
      numberOf num type = s.number arg ∧
      ∀ p : Printing, p.vaArg.1 = arg →
        s.run p = p.vaArg.2.put (number num base size precision type) := by
  obtain ⟨flags, width, places, qualifier, conversion⟩ := s
  simp only [Spec.isNumber, Bool.and_eq_true, beq_iff_eq, bne_iff_ne, ne_eq] at h
  obtain ⟨⟨⟨known, bits⟩, noStar⟩, noStar'⟩ := h
  obtain ⟨plain, small, zeros, signed⟩ := flags_number bits
  obtain ⟨fieldWidth, precision, amounts⟩ := exists_amounts flags noStar noStar'
  have run : ∀ c p, Spec.run ⟨flags, width, places, qualifier, some c⟩ p =
      convert c flags fieldWidth precision qualifier p := by
    intro c p
    unfold Spec.run
    dsimp only
    rw [(amounts p).1]
    dsimp only
    rw [(amounts p).2]
  have unsigned : ∀ {fl : UInt8}, fl &&& SIGN = 0 → (fl &&& SIGN ≠ 0 ↔ false = true) :=
    fun clear => ⟨fun set => absurd clear set, fun no => absurd no Bool.false_ne_true⟩
  have taken : ∀ {fl : UInt8}, fl &&& SIGN ≠ 0 → (fl &&& SIGN ≠ 0 ↔ true = true) :=
    fun set => iff_of_true set rfl
  rcases conversion_of_base known with rfl | rfl | rfl | rfl | rfl | rfl | rfl
  · obtain ⟨num, value, put⟩ := exists_putInteger arg _ fieldWidth precision qualifier 16
      (unsigned small.2)
    exact ⟨16, num, _, _, _, rfl, small.1, value, fun p head => (run _ p).trans (put p head)⟩
  · obtain ⟨num, value, put⟩ := exists_putInteger arg _ fieldWidth precision qualifier 16
      (unsigned plain.2)
    exact ⟨16, num, _, _, _, rfl, plain.1, value, fun p head => (run _ p).trans (put p head)⟩
  · have pointer : ∃ size type, type &&& LEFT = 0 ∧ type &&& SIGN = 0 ∧
        ∀ p : Printing, p.vaArg.1 = arg → putPointer flags fieldWidth precision p =
          p.vaArg.2.put (number arg 16 size precision type) := by
      unfold putPointer
      by_cases none : fieldWidth = -1
      · rw [if_pos none]
        refine ⟨8, _, zeros.1, zeros.2, fun p head => ?_⟩
        rw [← head]
        rfl
      · rw [if_neg none]
        refine ⟨fieldWidth, _, plain.1, plain.2, fun p head => ?_⟩
        rw [← head]
    obtain ⟨size, type, left, clear, put⟩ := pointer
    exact ⟨16, arg, size, precision, type, rfl, left, if_pos clear,
      fun p head => (run _ p).trans (put p head)⟩
  · obtain ⟨num, value, put⟩ := exists_putInteger arg _ fieldWidth precision qualifier 8
      (unsigned plain.2)
    exact ⟨8, num, _, _, _, rfl, plain.1, value, fun p head => (run _ p).trans (put p head)⟩
  · obtain ⟨num, value, put⟩ := exists_putInteger arg _ fieldWidth precision qualifier 10
      (unsigned plain.2)
    exact ⟨10, num, _, _, _, rfl, plain.1, value, fun p head => (run _ p).trans (put p head)⟩
  all_goals
    obtain ⟨num, value, put⟩ := exists_putInteger arg _ fieldWidth precision qualifier 10
      (taken signed.2)
    exact ⟨10, num, _, _, _, rfl, signed.1, value, fun p head => (run _ p).trans (put p head)⟩

end Number

/-! ## The law -/

section Law

variable {ps : List Piece} {args : Stream' UInt32}

/-- What comes after a directive begins with a character that belongs to no number. -/
theorem readable_spec {s : Spec} (h : Readable (.spec s :: ps) = true) :
    s.isNumber = true ∧ Readable ps = true ∧
      ∃ c rest, ps = .char c :: rest ∧ digit? c = none := by
  cases ps with
  | nil => simp [Readable] at h
  | cons piece ps =>
    cases piece with
    | spec s => simp [Readable] at h
    | char c =>
      rw [Readable, Bool.and_eq_true, Bool.and_eq_true] at h
      exact ⟨h.1.1, h.2, c, ps, rfl, Option.isNone_iff_eq_none.mp h.1.2⟩

/-- What is printed for pieces: it is added to what there is, and it is read back. -/
theorem scanText_runAll (h : Readable ps = true) (args : Stream' UInt32) (m : Mem32) :
    ∃ out, (∀ written, (runAll ps ⟨written, args, m⟩).written = written ++ out) ∧
      (∀ c rest, ps = .char c :: rest → ∃ cs, out = c :: cs) ∧
      (Piece.char 0 ∉ ps → 0 ∉ out) ∧
      ∀ rest, scanText ps (out ++ rest) = some (numbers ps args, rest) := by
  induction ps generalizing args with
  | nil =>
    refine ⟨[], fun written => (List.append_nil written).symm, fun _ _ same => ?_,
      fun _ => List.not_mem_nil, fun _ => rfl⟩
    cases same
  | cons piece ps ih =>
    cases piece with
    | char c =>
      obtain ⟨out, written, -, whole, read⟩ := ih h args
      refine ⟨c :: out, fun before => ?_, fun _ _ same => ?_, fun nonzero => ?_, fun rest => ?_⟩
      · exact (written (before ++ [c])).trans (List.append_assoc _ _ _)
      · cases same
        exact ⟨out, rfl⟩
      · rw [List.mem_cons, not_or] at nonzero ⊢
        exact ⟨fun none => nonzero.1 (congrArg Piece.char none), whole nonzero.2⟩
      · exact (if_pos rfl).trans (read rest)
    | spec s =>
      obtain ⟨number, readable, c, rest, first, free⟩ := readable_spec h
      obtain ⟨out, written, begins, whole, read⟩ := ih readable args.tail
      obtain ⟨base, num, size, precision, type, known, left, value, put⟩ :=
        run_number args.head number
      obtain ⟨cs, start⟩ := begins c rest first
      refine ⟨Printf.number num base size precision type ++ out, fun before => ?_,
        fun _ _ same => (by cases same), fun nonzero => ?_, fun after => ?_⟩
      · have here := congrArg (runAll ps) (put ⟨before, args, m⟩ rfl)
        have there := (congrArg Printing.written here).trans (written _)
        exact there.trans (List.append_assoc _ _ _)
      · rw [number_eq, List.mem_append, not_or]
        exact ⟨Figure.zero_notMem_text _ _ _, whole fun there => nonzero (List.mem_cons_of_mem _ there)⟩
      · have stops : Stops (out ++ after) := by
          rw [start]
          exact Stops.cons free
        rw [scanText, known, List.append_assoc]
        simp only [Option.bind_eq_bind, Option.bind_some, scan_number left _ _ _ _ stops, value,
          read, numbers]
        rfl

/-- THE LAW of reading back: what `vsprintf` prints of numbers, each with a character after it
that belongs to no number, is read back with the format as the numbers that were printed,
whatever comes after it. -/
theorem scanText_vsprintf {fmt : List UInt8} (h : Readable (parse fmt) = true)
    (args : Stream' UInt32) (m : Mem32) (rest : List UInt8) :
    scanText (parse fmt) ((vsprintf fmt args m).written ++ rest) =
      some (numbers (parse fmt) args, rest) := by
  obtain ⟨out, written, -, -, read⟩ := scanText_runAll h args m
  have whole : (vsprintf fmt args m).written = out :=
    (congrArg Printing.written (formatted_eq fmt ⟨[], args, m⟩)).trans (written [])
  rw [whole]
  exact read rest

/-- And nothing in it ends it. -/
theorem zero_notMem_vsprintf {fmt : List UInt8} (h : Readable (parse fmt) = true)
    (nonzero : Piece.char 0 ∉ parse fmt) (args : Stream' UInt32) (m : Mem32) :
    0 ∉ (vsprintf fmt args m).written := by
  obtain ⟨out, written, -, whole, -⟩ := scanText_runAll h args m
  have same : (vsprintf fmt args m).written = out :=
    (congrArg Printing.written (formatted_eq fmt ⟨[], args, m⟩)).trans (written [])
  rw [same]
  exact whole nonzero

/-- What two formats read, one after the other. -/
theorem scanText_append {ps qs : List Piece} {cs rest rest' : List UInt8} {ns ns' : List Int}
    (h : scanText ps cs = some (ns, rest)) (h' : scanText qs rest = some (ns', rest')) :
    scanText (ps ++ qs) cs = some (ns ++ ns', rest') := by
  induction ps generalizing cs ns with
  | nil =>
    obtain ⟨rfl, rfl⟩ := Prod.mk.inj (Option.some.inj h)
    exact h'
  | cons piece ps ih =>
    cases piece with
    | char c =>
      rw [scanText] at h
      split at h
      next here => exact (if_pos here).trans (ih h)
      next => cases h
    | spec s =>
      simp only [scanText, Option.bind_eq_bind, Option.bind_eq_some_iff] at h
      obtain ⟨base, known, ⟨n, cs'⟩, read, ⟨ms, rest''⟩, more, whole⟩ := h
      obtain ⟨rfl, rfl⟩ := Prod.mk.inj (Option.some.inj whole)
      simp only [List.cons_append, scanText, Option.bind_eq_bind, known, read, ih more,
        Option.bind_some]
      rfl

/-- A section of memory, as a line of `print_mem_sec` has it. -/
theorem scanText_vsprintf_section :
    scanText (parse (text "[base:0x%lp, length:0x%lx, type:%d]\n"))
        ((vsprintf (text "[base:0x%lp, length:0x%lx, type:%d]\n") (fun i => UInt32.ofNat i - 1)
          fun _ => 0).written ++ []) = some ([4294967295, 0, 1], []) :=
  (scanText_vsprintf (by decide) _ _ _).trans (by decide)

end Law

end ToyBootloader.Printf
