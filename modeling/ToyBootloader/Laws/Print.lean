import Mathlib.Data.List.Basic
import ToyBootloader.Memory.Fields
import ToyBootloader.Stage2.Print

/-!
# Where characters are written

The screen has 80 columns, and `putc` goes on to the next row only after a character has
been written at column 80. So a line of up to 80 characters is written as it should be,
each character past the one before it, and the 81st of a line is written off the screen,
which the BIOS takes for the first place of the next row.

`printed` is what a sequence of `putc` calls comes to, a character and its place at a
time. Both readings of the BIOS requests, the places the cursor is put and the
characters shown, are read off it.
-/

namespace ToyBootloader

open Memory

/-- The characters that are written: not a newline, and not a colour. -/
def isVisible (c : UInt8) : Bool := c &&& 0xF0 != 0xF0 && c != 0x0A

namespace Console

/-! ## One call -/

/-- The cursor after a character written at it. -/
def advance (p : CurPos) : CurPos :=
  if p.column ≥ 80 then ⟨p.row + 1, 0⟩ else ⟨p.row, p.column + 1⟩

/-- What a visible character asks for. -/
def requests (c color : UInt8) (p : CurPos) : List Int10 :=
  [⟨0x0200, 0x0000, none, some ((p.row.toUInt16 <<< 8) ||| p.column.toUInt16)⟩,
    ⟨0x0900 ||| promoted c, 0x0000 ||| promoted color, some 1, none⟩]

/-- The characters there are, and what a call does with each. -/
inductive Putc (t : Console) : UInt8 → Console → Prop
  | color {c} : isVisible c = false → c ≠ 0x0A → Putc t c (t.setColor (c &&& 0xF))
  | newline : Putc t 0x0A { t with cursorPos := ⟨t.cursorPos.row + 1, 0⟩ }
  | visible {c} : isVisible c = true → c ≠ 0x0A → Putc t c
      ⟨advance t.cursorPos, t.curColor, t.asked ++ requests c t.curColor t.cursorPos⟩

theorem putc_cases (c : UInt8) (t : Console) : Putc t c (t.putc c) := by
  unfold putc
  split
  · rename_i hc
    apply Putc.color
    · simp [isVisible, hc]
    · rintro rfl
      exact absurd hc (by decide)
  · rename_i hc
    split
    · rename_i hn
      rw [hn]
      exact .newline
    · rename_i hn
      have visible : isVisible c = true := by simp [isVisible, hc, hn]
      have asked : ∀ rs : List Int10, ∀ a b, rs ++ [a] ++ [b] = rs ++ [a, b] := by
        intro rs a b
        rw [List.append_assoc]
        rfl
      have step := Putc.visible (t := t) visible hn
      unfold advance requests at step
      unfold setpos writechar int10
      dsimp only
      rw [asked]
      split
      · rename_i edge
        rw [if_pos edge] at step
        exact step
      · rename_i room
        rw [if_neg room] at step
        exact step

/-! ## A sequence of calls -/

/-- The visible characters, each with the place the cursor had for it. -/
def printed : List UInt8 → Console → List (CurPos × UInt8)
  | [], _ => []
  | c :: s, t =>
    if isVisible c then (t.cursorPos, c) :: printed s (t.putc c) else printed s (t.putc c)

/-- The row is never counted past 255. -/
def StaysInRows : List UInt8 → Console → Prop
  | [], _ => True
  | c :: s, t => t.cursorPos.row ≤ (t.putc c).cursorPos.row ∧ StaysInRows s (t.putc c)

instance : (s : List UInt8) → (t : Console) → Decidable (StaysInRows s t)
  | [], _ => .isTrue trivial
  | c :: s, t =>
    have := instDecidableStaysInRows s (t.putc c)
    inferInstanceAs (Decidable (_ ∧ _))

variable {c : UInt8} {s : List UInt8} {t : Console}

@[simp] theorem run_cons (c : UInt8) (s : List UInt8) (t : Console) :
    run (c :: s) t = run s (t.putc c) := rfl

/-- A string is printed by a sequence of calls. -/
theorem puts_eq (s : List UInt8) (t : Console) : puts s t = run (s.takeWhile (· ≠ 0)) t := by
  induction s generalizing t with
  | nil => rfl
  | cons c s ih =>
    unfold puts
    by_cases hc : c = 0
    · rw [if_pos hc, List.takeWhile_cons_of_neg (by simpa using hc)]
      rfl
    · rw [if_neg hc, List.takeWhile_cons_of_pos (by simpa using hc), run_cons]
      exact ih (t.putc c)

theorem map_snd_printed (s : List UInt8) (t : Console) :
    (printed s t).map Prod.snd = s.filter isVisible := by
  induction s generalizing t with
  | nil => rfl
  | cons c s ih =>
    unfold printed
    cases hc : isVisible c with
    | true =>
      rw [if_pos rfl, List.map_cons, List.filter_cons_of_pos hc, ih]
    | false =>
      rw [if_neg Bool.false_ne_true, List.filter_cons_of_neg (by rw [hc]; decide), ih]

/-! ## What is asked of the BIOS -/

/-- The two halves of `dx` are the cursor. -/
theorem halves_dx (p : CurPos) :
    let dx := (p.row.toUInt16 <<< 8) ||| p.column.toUInt16
    (⟨(dx >>> 8).toUInt8, dx.toUInt8⟩ : CurPos) = p := by
  have hrow := p.row.toNat_lt
  have hcolumn := p.column.toNat_lt
  have dx := toNat_pair p.row p.column
  congr 1
  · apply UInt8.toNat_inj.mp
    rw [UInt16.toNat_toUInt8, UInt16.toNat_shiftRight, dx]
    change (_ >>> 8) % 2 ^ 8 = _
    rw [Nat.shiftRight_eq_div_pow]
    omega
  · apply UInt8.toNat_inj.mp
    rw [UInt16.toNat_toUInt8, dx]
    omega

/-- What `writechar` puts in `ax`. A `char` of 0x80 or more fills `ah`. -/
theorem halves_ax (c : UInt8) :
    let ax := 0x0900 ||| promoted c
    (ax >>> 8).toUInt8 = (if c < 0x80 then 9 else 0xFF) ∧ ax.toUInt8 = c :=
  forall_byte c (by decide +kernel)

theorem cursorSet_setpos (p : CurPos) : Int10.cursorSet
    ⟨0x0200, 0x0000, none, some ((p.row.toUInt16 <<< 8) ||| p.column.toUInt16)⟩ = some p := by
  have ah : ((0x0200 : UInt16) >>> 8).toUInt8 = 2 := by decide
  exact (if_pos ah).trans (congrArg some (halves_dx p))

theorem cursorSet_writechar (c : UInt8) (bx : UInt16) (cx dx : Option UInt16) :
    Int10.cursorSet ⟨0x0900 ||| promoted c, bx, cx, dx⟩ = none := by
  apply if_neg
  unfold Int10.function
  rw [(halves_ax c).1]
  split <;> decide

theorem cursorSet_requests (c color : UInt8) (p : CurPos) :
    (requests c color p).filterMap Int10.cursorSet = [p] := by
  unfold requests
  rw [List.filterMap_cons_some (cursorSet_setpos p), List.filterMap_cons_none (cursorSet_writechar ..)]
  rfl

/-- A `char` of less than 0x80 is shown. Any other is not: function 9 is not what has been
asked for. -/
theorem shown_requests (c color : UInt8) (p q : CurPos) (rs : List Int10) :
    shown q (requests c color p ++ rs) = if c < 0x80 then (p, c) :: shown p rs else shown p rs := by
  obtain ⟨ah, al⟩ := halves_ax c
  unfold requests
  rw [List.cons_append, List.cons_append, List.nil_append, shown, cursorSet_setpos]
  dsimp only
  rw [shown, cursorSet_writechar]
  unfold Int10.function
  dsimp only
  rw [ah, al]
  by_cases ascii : c < 0x80
  · rw [if_pos ascii, if_pos ascii, if_pos ⟨rfl, rfl⟩]
  · rw [if_neg ascii, if_neg ascii, if_neg fun h => absurd h.1 (by decide)]

theorem run_asked (s : List UInt8) (t : Console) : ∃ rs, (run s t).asked = t.asked ++ rs ∧
    rs.filterMap Int10.cursorSet = (printed s t).map Prod.fst ∧
    ∀ p, shown p rs = (printed s t).filter (·.2 < 0x80) := by
  induction s generalizing t with
  | nil => exact ⟨[], (List.append_nil _).symm, rfl, fun _ => rfl⟩
  | cons c s ih =>
    obtain ⟨rs, asked, places, out⟩ := ih (t.putc c)
    have step := putc_cases c t
    rw [run_cons]
    unfold printed
    generalize t.putc c = t' at step asked places out ⊢
    cases step with
    | color hc _ =>
      rw [hc]
      exact ⟨rs, asked, places, out⟩
    | newline => exact ⟨rs, asked, places, out⟩
    | visible hc _ =>
      refine ⟨requests c t.curColor t.cursorPos ++ rs, ?_, ?_, fun p => ?_⟩
      · rw [asked, List.append_assoc]
      · rw [List.filterMap_append, cursorSet_requests, places, hc]
        rfl
      · rw [shown_requests, hc, if_pos rfl, List.filter_cons, out]
        by_cases ascii : c < 0x80
        · rw [if_pos ascii, if_pos (decide_eq_true ascii)]
        · rw [if_neg ascii, if_neg (by simpa using ascii)]

/-! ## The lines -/

/-- On this line there is room for `n` more visible characters, and 80 on every other. -/
def Room : Nat → List UInt8 → Prop
  | _, [] => True
  | n, c :: s => if c = 0x0A then Room 80 s else
      if isVisible c then 0 < n ∧ Room (n - 1) s else Room n s

/-- A cell of the screen, by its number from the top left. -/
def linear (p : CurPos) : Nat := p.row.toNat * 80 + p.column.toNat

/-- The column after a character, where there was room for it. -/
theorem advance_of_lt {p : CurPos} (h : p.column.toNat < 80) :
    advance p = ⟨p.row, p.column + 1⟩ ∧ (p.column + 1).toNat = p.column.toNat + 1 := by
  constructor
  · apply if_neg
    rw [ge_iff_le, UInt8.le_iff_toNat_le]
    exact Nat.not_le_of_lt h
  · rw [UInt8.toNat_add, UInt8.toNat_one]
    omega

/-- Every character is written on the screen exactly where the lines have room. -/
theorem columns_iff_room {n : Nat} (s : List UInt8) (t : Console)
    (here : t.cursorPos.column.toNat + n = 80) :
    (∀ x ∈ printed s t, x.1.column.toNat ≤ 79) ↔ Room n s := by
  induction s generalizing n t with
  | nil => exact ⟨fun _ => trivial, fun _ _ hx => absurd hx List.not_mem_nil⟩
  | cons c s ih =>
    have step := putc_cases c t
    unfold printed Room
    generalize t.putc c = t' at step ⊢
    cases step with
    | color hc hn =>
      rw [hc, if_neg hn]
      exact ih _ here
    | newline => exact ih _ rfl
    | visible hc hn =>
      rw [hc, if_pos rfl, if_pos rfl, if_neg hn, List.forall_mem_cons]
      by_cases room : 0 < n
      · obtain ⟨next, further⟩ := advance_of_lt (p := t.cursorPos) (by omega)
        rw [ih (n := n - 1) _ (by rw [next]; dsimp only; omega)]
        exact and_congr_left fun _ => ⟨fun _ => room, fun _ => by dsimp only; omega⟩
      · constructor
        · intro h
          have edge := h.1
          dsimp only at edge
          omega
        · intro h
          exact absurd h.1 room

/-- A row that has not been counted past 255. -/
theorem toNat_row_succ {row : UInt8} (h : row ≤ row + 1) : (row + 1).toNat = row.toNat + 1 := by
  have hlt := row.toNat_lt
  rw [UInt8.le_iff_toNat_le, UInt8.toNat_add, UInt8.toNat_one] at h
  rw [UInt8.toNat_add, UInt8.toNat_one]
  omega

/-- The cursor does not go back over a character. -/
theorem linear_le_advance {p : CurPos} (row : p.row ≤ (advance p).row)
    (here : p.column.toNat ≤ 80) :
    linear p ≤ linear (advance p) ∧ (advance p).column.toNat ≤ 80 := by
  by_cases edge : p.column ≥ 80
  · have next : advance p = ⟨p.row + 1, 0⟩ := if_pos edge
    rw [next] at row ⊢
    unfold linear
    rw [toNat_row_succ row, UInt8.toNat_zero]
    omega
  · have inside : p.column.toNat < 80 := by
      rw [ge_iff_le, UInt8.le_iff_toNat_le] at edge
      exact Nat.lt_of_not_le edge
    obtain ⟨next, further⟩ := advance_of_lt inside
    rw [next]
    unfold linear
    dsimp only
    omega

/-- Nor over a newline. -/
theorem linear_le_newline {p : CurPos} (row : p.row ≤ p.row + 1) (here : p.column.toNat ≤ 80) :
    linear p ≤ linear ⟨p.row + 1, 0⟩ := by
  unfold linear
  rw [toNat_row_succ row, UInt8.toNat_zero]
  omega

/-- No character is written before the place the cursor is at. -/
theorem le_printed {s : List UInt8} {t : Console} (rows : StaysInRows s t)
    (here : t.cursorPos.column.toNat ≤ 80) :
    ∀ x ∈ printed s t, linear t.cursorPos ≤ linear x.1 := by
  induction s generalizing t with
  | nil => exact fun _ hx => absurd hx List.not_mem_nil
  | cons c s ih =>
    obtain ⟨row, rows⟩ := rows
    have step := putc_cases c t
    unfold printed
    generalize t.putc c = t' at step row rows ⊢
    cases step with
    | color hc _ =>
      rw [hc]
      exact ih rows here
    | newline =>
      intro x hx
      exact (linear_le_newline row here).trans (ih rows (Nat.zero_le 80) x hx)
    | visible hc _ =>
      obtain ⟨further, there⟩ := linear_le_advance row here
      rw [hc, if_pos rfl, List.forall_mem_cons]
      exact ⟨Nat.le_refl _, fun x hx => further.trans (ih rows there x hx)⟩

/-- Where the lines have room, every character is past those before it. -/
theorem pairwise_printed {n : Nat} {s : List UInt8} {t : Console} (rows : StaysInRows s t)
    (here : t.cursorPos.column.toNat + n = 80) (room : Room n s) :
    (printed s t).Pairwise fun x y => linear x.1 < linear y.1 := by
  induction s generalizing n t with
  | nil => exact .nil
  | cons c s ih =>
    obtain ⟨-, rows⟩ := rows
    have step := putc_cases c t
    unfold Room at room
    unfold printed
    generalize t.putc c = t' at step rows ⊢
    cases step with
    | color hc hn =>
      rw [hc, if_neg hn] at room
      rw [hc]
      exact ih rows here room
    | newline => exact ih rows rfl room
    | visible hc hn =>
      rw [if_neg hn, hc, if_pos rfl] at room
      obtain ⟨next, further⟩ := advance_of_lt (p := t.cursorPos) (by omega)
      rw [hc, if_pos rfl, List.pairwise_cons]
      constructor
      · intro x hx
        have past := le_printed rows (by rw [next]; dsimp only; omega) x hx
        rw [next] at past
        unfold linear at past ⊢
        dsimp only at past ⊢
        omega
      · exact ih rows (by rw [next]; dsimp only; omega) room.2

/-- No line has more visible characters than the screen has columns. -/
def LinesFit (s : List UInt8) : Prop := ∀ line ∈ s.splitOn 0x0A, line.countP isVisible ≤ 80

theorem room_iff {s l : List UInt8} {ls : List (List UInt8)} (n : Nat) (h : s.splitOn 0x0A = l :: ls) :
    Room n s ↔ l.countP isVisible ≤ n ∧ ∀ line ∈ ls, line.countP isVisible ≤ 80 := by
  rw [List.splitOn_eq_splitOnP] at h
  induction s generalizing n l ls with
  | nil =>
    cases h
    exact ⟨fun _ => ⟨Nat.zero_le n, fun _ hl => absurd hl List.not_mem_nil⟩, fun _ => trivial⟩
  | cons c s ih =>
    obtain ⟨l', ls', rest⟩ := List.exists_cons_of_ne_nil (List.splitOnP_ne_nil (· == 0x0A) s)
    rw [List.splitOnP_cons_eq_if_modifyHead, rest] at h
    unfold Room
    by_cases hn : c = 0x0A
    · rw [if_pos (beq_iff_eq.mpr hn)] at h
      cases h
      rw [if_pos hn, ih 80 rest, List.forall_mem_cons]
      exact (and_iff_right (Nat.zero_le n)).symm
    · rw [if_neg (by simpa using hn)] at h
      cases h
      rw [if_neg hn]
      cases hc : isVisible c with
      | true =>
        rw [if_pos rfl, ih (n - 1) rest, List.countP_cons_of_pos hc, ← and_assoc]
        apply and_congr_left
        intro _
        omega
      | false =>
        rw [if_neg Bool.false_ne_true, ih n rest, List.countP_cons_of_neg (by rw [hc]; decide)]

theorem linesFit_iff (s : List UInt8) : LinesFit s ↔ Room 80 s := by
  unfold LinesFit
  obtain ⟨l, ls, h⟩ := List.exists_cons_of_ne_nil (List.splitOnP_ne_nil (· == 0x0A) s)
  rw [List.splitOn_eq_splitOnP, h, List.forall_mem_cons, room_iff 80 h]

/-! ## The screen -/

/-- Every place is on the screen, and past those before it. -/
def OnScreen (ps : List CurPos) : Prop :=
  (∀ p ∈ ps, p.column.toNat ≤ 79) ∧ ps.Pairwise fun p q => linear p < linear q

/-- The visible characters of `s` have been shown, in order and on the screen. -/
def Legible (s : List UInt8) (out : List (CurPos × UInt8)) : Prop :=
  out.map Prod.snd = s.filter isVisible ∧ OnScreen (out.map Prod.fst)

theorem onScreen_printed {s : List UInt8} {color : UInt8} (rows : StaysInRows s (start color)) :
    OnScreen ((printed s (start color)).map Prod.fst) ↔ LinesFit s := by
  have columns := columns_iff_room (n := 80) s (start color) rfl
  rw [linesFit_iff, ← columns]
  unfold OnScreen
  rw [List.forall_mem_map, List.pairwise_map]
  apply and_iff_left_of_imp
  intro all
  exact pairwise_printed rows rfl (columns.mp all)

/-- What is shown is all that is printed where no visible character has a sign. -/
theorem legible_printed {s : List UInt8} {color : UInt8} (rows : StaysInRows s (start color)) :
    Legible s ((printed s (start color)).filter (·.2 < 0x80)) ↔
      LinesFit s ∧ ∀ c ∈ s, isVisible c = true → c < 0x80 := by
  have characters := map_snd_printed s (start color)
  have unsigned : (∀ x ∈ printed s (start color), decide (x.2 < 0x80) = true) ↔
      ∀ c ∈ s, isVisible c = true → c < 0x80 := by
    rw [← List.forall_mem_filter, ← characters, List.forall_mem_map]
    simp only [decide_eq_true_eq]
  rw [← onScreen_printed rows, ← unsigned]
  unfold Legible
  constructor
  · intro h
    -- As many are shown as are printed, so all that are printed are shown.
    have every : (printed s (start color)).filter (·.2 < 0x80) = printed s (start color) := by
      apply List.filter_sublist.eq_of_length
      have count := congrArg List.length (h.1.trans characters.symm)
      rw [List.length_map, List.length_map] at count
      exact count
    rw [every] at h
    exact ⟨h.2, List.filter_eq_self.mp every⟩
  · intro h
    rw [List.filter_eq_self.mpr h.2]
    exact ⟨characters, h.1⟩

/-- The places the BIOS's cursor is put are on the screen where the lines fit on it. -/
theorem onScreen_iff {s : List UInt8} {color : UInt8} (rows : StaysInRows s (start color)) :
    OnScreen ((run s (start color)).asked.filterMap Int10.cursorSet) ↔ LinesFit s := by
  obtain ⟨rs, asked, places, -⟩ := run_asked s (start color)
  have all : (run s (start color)).asked = rs := asked
  rw [all, places]
  exact onScreen_printed rows

/-- What is shown can be read where, besides, the BIOS is asked for every character. -/
theorem legible_iff {s : List UInt8} {color : UInt8} (rows : StaysInRows s (start color))
    (p : CurPos) : Legible s (shown p (run s (start color)).asked) ↔
      LinesFit s ∧ ∀ c ∈ s, isVisible c = true → c < 0x80 := by
  obtain ⟨rs, asked, -, out⟩ := run_asked s (start color)
  have all : (run s (start color)).asked = rs := asked
  rw [all, out]
  exact legible_printed rows

/-- THE TEXT CURSOR. A sequence of calls that stays within 256 rows puts every visible
character on the screen and past those before it exactly where no line is longer than the
screen is wide. The BIOS shows them all so exactly where, besides, none has a sign. -/
theorem putc_onScreen_iff {s : List UInt8} {color : UInt8} (rows : StaysInRows s (start color)) :
    (OnScreen ((run s (start color)).asked.filterMap Int10.cursorSet) ↔ LinesFit s) ∧
      ∀ p, Legible s (shown p (run s (start color)).asked) ↔
        LinesFit s ∧ ∀ c ∈ s, isVisible c = true → c < 0x80 :=
  ⟨onScreen_iff rows, legible_iff rows⟩

/-- Two lines of one letter. -/
theorem putc_onScreen_lines :
    (OnScreen ((run [0x41, 0x0A, 0x42] (start 7)).asked.filterMap Int10.cursorSet) ↔
        LinesFit [0x41, 0x0A, 0x42]) ∧
      ∀ p, Legible [0x41, 0x0A, 0x42] (shown p (run [0x41, 0x0A, 0x42] (start 7)).asked) ↔
        LinesFit [0x41, 0x0A, 0x42] ∧ ∀ c ∈ [0x41, 0x0A, 0x42], isVisible c = true → c < 0x80 :=
  putc_onScreen_iff (by decide)

/-- A line of 82 letters: the 81st is written at column 80, and the 82nd over it. -/
theorem putc_offScreen : StaysInRows (List.replicate 82 0x41) (start 7) ∧
    ¬ OnScreen ((run (List.replicate 82 0x41) (start 7)).asked.filterMap Int10.cursorSet) := by
  have rows : StaysInRows (List.replicate 82 0x41) (start 7) := by decide +kernel
  refine ⟨rows, fun h => ?_⟩
  have fit := (onScreen_iff rows).mp h
  unfold LinesFit at fit
  revert fit
  decide +kernel

end Console

end ToyBootloader
