import ToyBootloader.Laws.Print

/-!
# What a string asks for

A string is printed through two services of the BIOS: for every visible character the
cursor is moved to where it goes and the character is written there, in the colour last
chosen. A byte from 0xF0 on chooses a colour and a newline moves the cursor, and neither
asks for anything.

`Renders` is that, with the colour followed along the string and not read off the console.
What `puts` asks for agrees with it as long as no `char` that goes into a register has a
sign.
-/

namespace ToyBootloader

open Memory

namespace Console

/-! ## What is meant -/

/-- A byte that chooses a colour. -/
def isColor (c : UInt8) : Bool := 0xF0 ≤ c

/-- The request to write a character once: function 9 in `ah`, the character in `al`, page 0
in `bh`, the colour in `bl`, and the count in `cx`. -/
def Writes (r : Int10) (c color : UInt8) : Prop :=
  r.function = 9 ∧ r.ax.toUInt8 = c ∧ (r.bx >>> 8).toUInt8 = 0 ∧ r.bx.toUInt8 = color ∧
    r.cx = some 1

/-- These are the requests for a string in this colour, from this console on. -/
def Renders : (color : UInt8) → List UInt8 → Console → List Int10 → Prop
  | _, [], _, rs => rs = []
  | color, c :: s, t, rs =>
    if isColor c then
      t.putc c = { t with curColor := c &&& 0xF } ∧ Renders (c &&& 0xF) s (t.putc c) rs
    else if c = 0x0A then
      (∃ p, t.putc c = { t with cursorPos := p }) ∧ Renders color s (t.putc c) rs
    else ∃ move write rest, rs = move :: write :: rest ∧
      move.cursorSet = some t.cursorPos ∧ Writes write c color ∧ Renders color s (t.putc c) rest

/-- `puts` asks for what its string, up to the terminating zero, should ask for. -/
def Rendered (s : List UInt8) (t : Console) : Prop :=
  ∃ rs, (puts s t).asked = t.asked ++ rs ∧ Renders t.curColor (s.takeWhile (· ≠ 0)) t rs

/-! ## Bytes -/

theorem isColor_iff (c : UInt8) : isColor c = true ↔ c &&& 0xF0 = 0xF0 :=
  forall_byte c (by decide +kernel)

/-- What is neither a newline nor visible is a colour, and nothing else is. -/
theorem isColor_eq {c : UInt8} (hn : c ≠ 0x0A) : isColor c = !isVisible c := by
  have high := isColor_iff c
  unfold isVisible
  cases hc : isColor c with
  | true => simp [high.mp hc]
  | false =>
    have low : c &&& 0xF0 ≠ 0xF0 := fun h => by simp [high.mpr h] at hc
    simp [low, hn]

/-- A colour has no sign. -/
theorem nibble_lt (c : UInt8) : c &&& 0xF < 0x80 := by
  have low : (c &&& 0xF).toNat ≤ 0xF := by
    rw [UInt8.toNat_and]
    exact Nat.and_le_right
  exact UInt8.lt_iff_toNat_lt.mpr (Nat.lt_of_le_of_lt low (by decide))

/-- What `writechar` puts in `bx`: a colour with a sign fills `bh`. -/
theorem halves_bx (color : UInt8) :
    let bx := 0x0000 ||| promoted color
    ((bx >>> 8).toUInt8 = 0 ↔ color < 0x80) ∧ bx.toUInt8 = color :=
  forall_byte color (by decide +kernel)

/-- `writechar` asks for a character where neither it nor its colour has a sign. -/
theorem writes_iff (c color : UInt8) (dx : Option UInt16) :
    Writes ⟨0x0900 ||| promoted c, 0x0000 ||| promoted color, some 1, dx⟩ c color ↔
      c < 0x80 ∧ color < 0x80 := by
  obtain ⟨ah, al⟩ := halves_ax c
  obtain ⟨bh, bl⟩ := halves_bx color
  unfold Writes Int10.function
  dsimp only
  rw [ah, al, bh, bl]
  by_cases ascii : c < 0x80
  · simp [ascii]
  · simp [ascii]

/-! ## Characters without a sign -/

/-- A visible character comes before every colour. -/
def startsVisible : List UInt8 → Bool
  | [] => false
  | c :: s => if c = 0x0A then startsVisible s else isVisible c

/-- No visible character has a sign, nor has the colour that is there before the string
chooses one, where a character is written in it. -/
def Unsigned (color : UInt8) (s : List UInt8) : Prop :=
  (∀ c ∈ s, isVisible c = true → c < 0x80) ∧ (color < 0x80 ∨ startsVisible s = false)

section Unsigned

variable {c color : UInt8} {s : List UInt8}

theorem unsigned_color (hc : isVisible c = false) (hn : c ≠ 0x0A) :
    Unsigned color (c :: s) ↔ Unsigned (c &&& 0xF) s := by
  have starts : startsVisible (c :: s) = false := (if_neg hn).trans hc
  unfold Unsigned
  rw [List.forall_mem_cons, starts, hc, and_iff_left (Or.inr rfl),
    and_iff_left (Or.inl (nibble_lt c))]
  exact and_iff_right fun visible => absurd visible Bool.false_ne_true

theorem unsigned_newline : Unsigned color (0x0A :: s) ↔ Unsigned color s := by
  unfold Unsigned
  rw [List.forall_mem_cons, and_iff_right fun _ => by decide]
  exact Iff.rfl

theorem unsigned_visible (hc : isVisible c = true) (hn : c ≠ 0x0A) :
    Unsigned color (c :: s) ↔ c < 0x80 ∧ color < 0x80 ∧ Unsigned color s := by
  have starts : startsVisible (c :: s) = true := (if_neg hn).trans hc
  unfold Unsigned
  rw [List.forall_mem_cons, starts, hc]
  constructor
  · rintro ⟨⟨here, rest⟩, small | none⟩
    · exact ⟨here rfl, small, rest, .inl small⟩
    · cases none
  · rintro ⟨here, small, rest, -⟩
    exact ⟨⟨fun _ => here, rest⟩, .inl small⟩

end Unsigned

/-! ## The law -/

section Renders

variable {c color : UInt8} {s : List UInt8} {t : Console} {rs : List Int10}

theorem renders_color (hc : isVisible c = false) (hn : c ≠ 0x0A) :
    Renders color (c :: s) t rs ↔
      t.putc c = { t with curColor := c &&& 0xF } ∧ Renders (c &&& 0xF) s (t.putc c) rs := by
  have chooses : isColor c = true := by rw [isColor_eq hn, hc]; rfl
  rw [Renders, if_pos chooses]

theorem renders_newline : Renders color (0x0A :: s) t rs ↔
    (∃ p, t.putc 0x0A = { t with cursorPos := p }) ∧ Renders color s (t.putc 0x0A) rs := by
  rw [Renders, if_neg (by decide), if_pos rfl]

theorem renders_visible (hc : isVisible c = true) (hn : c ≠ 0x0A) :
    Renders color (c :: s) t rs ↔ ∃ move write rest, rs = move :: write :: rest ∧
      move.cursorSet = some t.cursorPos ∧ Writes write c color ∧
        Renders color s (t.putc c) rest := by
  have chooses : ¬ isColor c = true := by rw [isColor_eq hn, hc]; decide
  rw [Renders, if_neg chooses, if_neg hn]

end Renders

/-- What is asked for is added to what was asked before. -/
theorem exists_asked (s : List UInt8) (t : Console) : ∃ rs, (run s t).asked = t.asked ++ rs :=
  (run_asked s t).imp fun _ h => h.1

theorem renders_run_iff (s : List UInt8) (t : Console) :
    (∃ rs, (run s t).asked = t.asked ++ rs ∧ Renders t.curColor s t rs) ↔
      Unsigned t.curColor s := by
  induction s generalizing t with
  | nil =>
    have nothing : ∃ rs, (run [] t).asked = t.asked ++ rs ∧ Renders t.curColor [] t rs :=
      ⟨[], (List.append_nil _).symm, rfl⟩
    exact iff_of_true nothing ⟨fun _ hc => absurd hc List.not_mem_nil, .inr rfl⟩
  | cons c s ih =>
    have step := putc_cases c t
    rw [run_cons]
    generalize next : t.putc c = t' at step ⊢
    cases step with
    | color hc hn =>
      rw [unsigned_color hc hn]
      refine Iff.trans ?_ (ih (t.setColor (c &&& 0xF)))
      simp only [renders_color hc hn, next]
      exact exists_congr fun rs => and_congr_right fun _ => and_iff_right rfl
    | newline =>
      rw [unsigned_newline]
      refine Iff.trans ?_ (ih { t with cursorPos := ⟨t.cursorPos.row + 1, 0⟩ })
      simp only [renders_newline, next]
      exact exists_congr fun rs => and_congr_right fun _ => and_iff_right ⟨_, rfl⟩
    | visible hc hn =>
      rw [unsigned_visible hc hn, ← and_assoc, ← writes_iff c t.curColor none]
      refine Iff.trans ?_ (and_congr_right fun _ => ih
        ⟨advance t.cursorPos, t.curColor, t.asked ++ requests c t.curColor t.cursorPos⟩)
      simp only [renders_visible hc hn, next]
      constructor
      · rintro ⟨_, asked, move, write, rest, rfl, -, writes, further⟩
        obtain ⟨rs, more⟩ := exists_asked s
          ⟨advance t.cursorPos, t.curColor, t.asked ++ requests c t.curColor t.cursorPos⟩
        -- The first two of what is asked for are this character's.
        have same : requests c t.curColor t.cursorPos ++ rs = [move, write] ++ rest := by
          rw [more, List.append_assoc] at asked
          exact List.append_cancel_left asked
        obtain ⟨first, rfl⟩ := List.append_inj same rfl
        have second : _ = write := (List.cons.inj (List.cons.inj first).2).1
        rw [← second] at writes
        exact ⟨writes, rs, more, further⟩
      · rintro ⟨writes, rest, asked, further⟩
        exact ⟨_, asked.trans (List.append_assoc ..), _, _, rest, rfl, cursorSet_setpos _, writes,
          further⟩

/-- A STRING IS RENDERED, whatever it is and whatever the console is like, exactly where
nothing that goes into a register has a sign. -/
theorem puts_renders_iff (s : List UInt8) (t : Console) :
    Rendered s t ↔
      (∀ c ∈ s.takeWhile (· ≠ 0), isVisible c = true → c < 0x80) ∧
        (t.curColor < 0x80 ∨ startsVisible (s.takeWhile (· ≠ 0)) = false) := by
  unfold Rendered
  rw [puts_eq]
  exact renders_run_iff (s.takeWhile (· ≠ 0)) t

/-- `é`, as the code page has it, is asked of function 0xFF. -/
theorem puts_misrenders : ¬ ∀ (s : List UInt8) (t : Console), t.curColor < 16 → Rendered s t := by
  intro h
  have renders := (puts_renders_iff [0x82] (start 7)).mp (h [0x82] (start 7) (by decide))
  exact absurd (renders.1 0x82 (by decide) (by decide)) (by decide)

end Console

end ToyBootloader
