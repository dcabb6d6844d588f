import ToyBootloader.Laws.FormatTexts
import ToyBootloader.Laws.Puts
import ToyBootloader.Progress

/-!
# The progress of stage 2

While the tasks of stage 2 run, two things are on the screen: a log of what is done, from the
top down, and a bar in its second line that is drawn anew before each task. Neither gets in
the other's way: outside the bar's cells the characters that are shown are those of the log,
where and in the order the log would have them shown without any bar, and in the bar's cells
there is the bar of the task that is running, whatever the tasks print.
-/

namespace ToyBootloader

open Memory Printf

namespace Console

/-! ## What does not depend on the requests -/

section Cursor

variable {s s' : List UInt8} {t t' : Console}

theorem run_append (s s' : List UInt8) (t : Console) : run (s ++ s') t = run s' (run s t) :=
  List.foldl_append

/-- The cursor moves the same way in any colour. -/
theorem cursorPos_putc (h : t.cursorPos = t'.cursorPos) (c : UInt8) :
    (t.putc c).cursorPos = (t'.putc c).cursorPos := by
  unfold putc setColor setpos writechar int10
  dsimp only
  rw [h]
  split
  · rfl
  split
  · rfl
  split
  · rfl
  · rfl

theorem cursorPos_run (h : t.cursorPos = t'.cursorPos) (s : List UInt8) :
    (run s t).cursorPos = (run s t').cursorPos := by
  induction s generalizing t t' with
  | nil => exact h
  | cons c s ih => exact ih (cursorPos_putc h c)

/-- Only the cursor tells where characters go. -/
theorem printed_congr (h : t.cursorPos = t'.cursorPos) (s : List UInt8) :
    printed s t = printed s t' := by
  induction s generalizing t t' with
  | nil => rfl
  | cons c s ih =>
    unfold printed
    rw [ih (cursorPos_putc h c), h]

theorem curColor_putc (h : t.curColor = t'.curColor) (c : UInt8) :
    (t.putc c).curColor = (t'.putc c).curColor := by
  have step := putc_cases c t
  have step' := putc_cases c t'
  generalize t.putc c = u at step ⊢
  generalize t'.putc c = u' at step' ⊢
  cases step with
  | color hc hn =>
    cases step' with
    | color => rfl
    | newline => exact absurd rfl hn
    | visible hc' => exact absurd hc' (by rw [hc]; decide)
  | newline =>
    cases step' with
    | color _ hn => exact absurd rfl hn
    | newline => exact h
    | visible _ hn => exact absurd rfl hn
  | visible hc hn =>
    cases step' with
    | color hc' => exact absurd hc (by rw [hc']; decide)
    | newline => exact absurd rfl hn
    | visible => exact h

theorem Alike.run (h : Alike t t') (s : List UInt8) : Alike (run s t) (run s t') := by
  induction s generalizing t t' with
  | nil => exact h
  | cons c s ih => exact ih ⟨cursorPos_putc h.1 c, curColor_putc h.2 c⟩

theorem printed_append (s s' : List UInt8) (t : Console) :
    printed (s ++ s') t = printed s t ++ printed s' (run s t) := by
  induction s generalizing t with
  | nil => rfl
  | cons c s ih =>
    rw [List.cons_append, printed, printed, ih, run_cons]
    split
    · rfl
    · rfl

theorem staysInRows_append :
    StaysInRows (s ++ s') t ↔ StaysInRows s t ∧ StaysInRows s' (run s t) := by
  induction s generalizing t with
  | nil => exact (and_iff_right trivial).symm
  | cons c s ih =>
    rw [List.cons_append, StaysInRows, StaysInRows, ih, run_cons, and_assoc]

/-- The cursor does not go back. -/
theorem linear_le_run (rows : StaysInRows s t) (here : t.cursorPos.column.toNat ≤ 80) :
    linear t.cursorPos ≤ linear (run s t).cursorPos ∧
      (run s t).cursorPos.column.toNat ≤ 80 := by
  induction s generalizing t with
  | nil => exact ⟨le_rfl, here⟩
  | cons c s ih =>
    obtain ⟨row, rows⟩ := rows
    have step := putc_cases c t
    rw [run_cons]
    generalize t.putc c = t' at step row rows ⊢
    cases step with
    | color => exact ih rows here
    | newline =>
      obtain ⟨further, there⟩ := ih rows (Nat.zero_le 80)
      exact ⟨(linear_le_newline row here).trans further, there⟩
    | visible =>
      obtain ⟨next, inside⟩ := linear_le_advance row here
      obtain ⟨further, there⟩ := ih rows inside
      exact ⟨next.trans further, there⟩

end Cursor

/-! ## What is shown -/

theorem shown_append (p : CurPos) (rs rs' : List Int10) :
    ∃ q, shown p (rs ++ rs') = shown p rs ++ shown q rs' := by
  induction rs generalizing p with
  | nil => exact ⟨p, rfl⟩
  | cons r rs ih =>
    rw [List.cons_append, shown, shown]
    cases r.cursorSet with
    | some q => exact ih q
    | none =>
      dsimp only
      split
      · exact (ih p).imp fun q h => by rw [h]; rfl
      · exact ih p

/-- A string adds the characters it prints. -/
theorem Displays.run {t : Console} {out : List (CurPos × UInt8)} (h : Displays t out) (s : List UInt8) :
    Displays (run s t) (out ++ (printed s t).filter (·.2 < 0x80)) := by
  intro p
  obtain ⟨rs, asked, -, characters⟩ := run_asked s t
  obtain ⟨q, both⟩ := shown_append p t.asked rs
  rw [asked, both, h, characters]

/-- What is written elsewhere leaves a cell as it is. -/
theorem cell_append_elsewhere (out : List (CurPos × UInt8)) {more : List (CurPos × UInt8)} {n : Nat}
    (h : ∀ x ∈ more, linear x.1 ≠ n) : cell (out ++ more) n = cell out n := by
  have none : more.filter (fun x => linear x.1 = n) = [] :=
    List.filter_eq_nil_iff.mpr fun x hx => by simpa using h x hx
  unfold cell
  rw [List.filter_append, none, List.append_nil]

theorem cell_append_of_some (out : List (CurPos × UInt8)) {more : List (CurPos × UInt8)} {n : Nat}
    {c : UInt8}    (h : cell more n = some c) : cell (out ++ more) n = some c := by
  unfold cell at h ⊢
  obtain ⟨x, last, value⟩ := Option.map_eq_some_iff.mp h
  rw [List.filter_append, List.getLast?_append, last, Option.some_or, Option.map_some, value]

/-- The next cell, where there is one in the row. -/
theorem linear_advance {p : CurPos} (h : p.column.toNat < 80) :
    linear (advance p) = linear p + 1 ∧ (advance p).column.toNat = p.column.toNat + 1 := by
  obtain ⟨next, further⟩ := advance_of_lt h
  rw [next]
  refine ⟨?_, further⟩
  unfold linear
  dsimp only
  omega

/-- Visible characters in a row that has room for them: each is in a cell of its own. -/
theorem cell_printed {s : List UInt8} {t : Console} (visible : ∀ c ∈ s, isVisible c = true)
    (room : t.cursorPos.column.toNat + s.length ≤ 80) :
    (∀ x ∈ printed s t, linear t.cursorPos ≤ linear x.1 ∧
      linear x.1 < linear t.cursorPos + s.length) ∧
    ∀ i, i < s.length → cell (printed s t) (linear t.cursorPos + i) = s[i]? := by
  induction s generalizing t with
  | nil => exact ⟨fun _ hx => absurd hx List.not_mem_nil, fun _ hi => absurd hi (Nat.not_lt_zero _)⟩
  | cons c s ih =>
    have here := visible c List.mem_cons_self
    have step := putc_cases c t
    rw [List.length_cons] at room ⊢
    rw [printed, if_pos here]
    generalize t.putc c = t' at step ⊢
    cases step with
    | color hidden => exact absurd here (by rw [hidden]; decide)
    | newline => exact absurd here (by decide)
    | visible =>
      obtain ⟨next, column⟩ := linear_advance (p := t.cursorPos) (by omega)
      obtain ⟨within, cells⟩ := ih
        (t := ⟨advance t.cursorPos, t.curColor, t.asked ++ requests c t.curColor t.cursorPos⟩)
        (fun d hd => visible d (List.mem_cons_of_mem _ hd)) (by dsimp only; omega)
      dsimp only at within cells
      rw [next] at within cells
      constructor
      · intro x hx
        rcases List.mem_cons.mp hx with rfl | hx
        · dsimp only
          omega
        · have there := within x hx
          omega
      · intro i hi
        have first : cell [(t.cursorPos, c)] (linear t.cursorPos) = some c := by simp [cell]
        cases i with
        | zero =>
          have rest := cell_append_elsewhere [(t.cursorPos, c)] (n := linear t.cursorPos)
            fun x hx => by have there := within x hx; omega
          exact rest.trans first
        | succ i =>
          have there := cells i (by omega)
          have place : linear t.cursorPos + 1 + i = linear t.cursorPos + (i + 1) := by omega
          have some := List.getElem?_eq_getElem (l := s) (i := i) (by omega)
          rw [place, some] at there
          rw [List.getElem?_cons_succ, some]
          exact cell_append_of_some [(t.cursorPos, c)] there

end Console

namespace Screen

open Console

/-! ## The bar -/

theorem length_barText (curr count : Nat) : (barText curr count).length = count + 2 := by
  simp [barText]

/-- After the last task. -/
theorem barText_done (count : Nat) : barText (count + 1) count =
    '['.toUInt8 :: (List.replicate count '='.toUInt8 ++ [']'.toUInt8]) := by
  have all : (List.range' 1 count).map (fun i => if i < count + 1 then '='.toUInt8
      else if i = count + 1 then '>'.toUInt8 else ' '.toUInt8) =
      List.replicate count '='.toUInt8 := by
    rw [List.eq_replicate_iff]
    refine ⟨by rw [List.length_map, List.length_range'], fun c hc => ?_⟩
    obtain ⟨i, hi, rfl⟩ := List.mem_map.mp hc
    have low := List.mem_range'_1.mp hi
    exact if_pos (by omega)
  rw [barText, all]
  rfl

theorem mem_barText {curr count : Nat} {c : UInt8} (h : c ∈ barText curr count) :
    isVisible c = true ∧ c < 0x80 := by
  have all : (text "[=> ]").all (fun c => isVisible c && decide (c < 0x80)) = true := by decide
  suffices there : c ∈ text "[=> ]" by simpa using List.all_eq_true.mp all c there
  unfold barText at h
  simp only [List.cons_append, List.mem_cons, List.mem_append, List.mem_map, List.not_mem_nil,
    or_false] at h
  rcases h with rfl | ⟨i, -, rfl⟩ | rfl
  · decide
  · split
    · decide
    split
    · decide
    · decide
  · decide

/-- The loop comes to its end, but for 65535 tasks. -/
theorem barLoop_eq (curr : UInt16) {count : UInt16} (fewer : count.toNat < 65535) {fuel : Nat} {i : UInt16}
    (low : i.toNat ≤ count.toNat + 1) (enough : count.toNat + 1 - i.toNat < fuel) :
    barLoop curr count fuel i = some ((List.range' i.toNat (count.toNat + 1 - i.toNat)).map fun i =>
      if i < curr.toNat then '='.toUInt8 else if i = curr.toNat then '>'.toUInt8
      else ' '.toUInt8) := by
  induction fuel generalizing i with
  | zero => exact absurd enough (Nat.not_lt_zero _)
  | succ fuel ih =>
    rw [barLoop]
    by_cases more : i ≤ count
    · have le := UInt16.le_iff_toNat_le.mp more
      have next : (i + 1).toNat = i.toNat + 1 := by
        rw [UInt16.toNat_add, UInt16.toNat_one]
        omega
      have left : count.toNat + 1 - i.toNat = count.toNat + 1 - (i + 1).toNat + 1 := by omega
      rw [if_pos more, ih (by omega) (by omega), Option.map_some, left, List.range'_succ,
        List.map_cons, next]
      simp only [UInt16.lt_iff_toNat_lt, ← UInt16.toNat_inj]
    · have none : count.toNat + 1 - i.toNat = 0 := by
        rw [UInt16.le_iff_toNat_le] at more
        omega
      rw [if_neg more, none]
      rfl

/-! ## What holds all the time -/

section Showing

variable {color : UInt8} {count : Nat} {log bar s : List UInt8} {w : Screen}

/-- The bar is in the second line, after what is printed there, and the log goes on below. -/
theorem start_headLog :
    (run (text "stage 2 loaded\n" ++ [0xF7] ++ text "executing stage 2 : ") (start 0)).cursorPos =
        ⟨1, 20⟩ ∧
      (run headLog (start 0)).cursorPos = ⟨2, 0⟩ ∧
      ∀ x ∈ printed headLog (start 0), linear x.1 < 100 := by
  decide +kernel

/-- After the first two lines the cursor is below the bar. -/
theorem below (rows : StaysInRows (headLog ++ s) (start color)) :
    160 ≤ linear (run (headLog ++ s) (start color)).cursorPos ∧
      (run (headLog ++ s) (start color)).cursorPos.column.toNat ≤ 80 := by
  have any := start_headLog.2.1
  have starts : (start color).cursorPos = (start 0).cursorPos := rfl
  have cursor := (cursorPos_run starts headLog).trans any
  have rest := linear_le_run (staysInRows_append.mp rows).2 (by rw [cursor]; decide)
  rw [cursor] at rest
  rw [run_append]
  exact rest

/-- Printing goes on with the log, below the bar. -/
theorem Showing.print (h : Showing color count (headLog ++ log) bar w) (fits : count ≤ 58)
    (rows : StaysInRows (headLog ++ log ++ s) (start color)) :
    Showing color count (headLog ++ log ++ s) bar { w with console := run s w.console } := by
  obtain ⟨cursor, alike, out, shows, text, cells⟩ := h
  obtain ⟨before, after⟩ := staysInRows_append.mp rows
  obtain ⟨low, column⟩ := below before
  have there : ∀ x ∈ printed s w.console, 160 ≤ linear x.1 := by
    intro x hx
    rw [printed_congr alike.1] at hx
    exact low.trans (le_printed after column x hx)
  refine ⟨cursor, ?_, _, shows.run s, ?_, ?_⟩
  · rw [run_append]
    exact alike.run s
  · have all : ((printed s w.console).filter (·.2 < 0x80)).filter (outside count) =
        (printed s w.console).filter (·.2 < 0x80) := by
      refine List.filter_eq_self.mpr fun x hx => decide_eq_true ?_
      have far := there x (List.mem_filter.mp hx).1
      omega
    rw [List.filter_append, text, all, printed_append (headLog ++ log), List.filter_append,
      printed_congr alike.1]
  · intro i hi
    rw [cell_append_elsewhere, cells i hi]
    intro x hx
    have far := there x (List.mem_filter.mp hx).1
    omega

/-- Drawing the bar changes the bar and nothing else. -/
theorem Showing.draw (h : Showing color count log bar w) (fits : count ≤ 58)
    (curr : UInt16) :
    ∃ w', w.updateProgressBar curr (UInt16.ofNat count) = some w' ∧
      Showing color count log (barText curr.toNat count) w' ∧ w'.memory = w.memory := by
  obtain ⟨cursor, alike, out, shows, text, cells⟩ := h
  have number : (UInt16.ofNat count).toNat = count := by
    rw [UInt16.toNat_ofNat']
    omega
  have fewer : (UInt16.ofNat count).toNat < 65535 := by omega
  have low : (1 : UInt16).toNat ≤ (UInt16.ofNat count).toNat + 1 := by
    rw [UInt16.toNat_one]
    omega
  have enough : (UInt16.ofNat count).toNat + 1 - (1 : UInt16).toNat < 65536 := by omega
  have ends := barLoop_eq curr fewer low enough
  rw [number, UInt16.toNat_one, Nat.add_sub_cancel] at ends
  -- the bar is drawn from where `progress_cursor` is
  let t : Console := { w.console.setColor yellow with cursorPos := ⟨1, 20⟩ }
  have whole : w.updateProgressBar curr (UInt16.ofNat count) = some
      { w with console := { run (barText curr.toNat count) t with
        cursorPos := w.console.cursorPos, curColor := w.console.curColor } } := by
    unfold updateProgressBar
    rw [ends, cursor, Option.map_some, barText, List.cons_append, run_cons, run_append]
    rfl
  have ascii : (printed (barText curr.toNat count) t).filter (·.2 < 0x80) =
      printed (barText curr.toNat count) t := by
    refine List.filter_eq_self.mpr fun x hx => decide_eq_true ?_
    have there := List.mem_map_of_mem (f := Prod.snd) hx
    rw [map_snd_printed] at there
    exact (mem_barText (List.mem_filter.mp there).1).2
  obtain ⟨within, drawn⟩ := cell_printed (t := t) (fun c hc => (mem_barText hc).1)
    (by
      have column : t.cursorPos.column.toNat = 20 := rfl
      rw [column, length_barText curr.toNat count]
      omega)
  have first : linear t.cursorPos = 100 := rfl
  rw [first, length_barText] at within drawn
  have shows' : Displays t out := shows
  have displays := shows'.run (barText curr.toNat count)
  rw [ascii] at displays
  refine ⟨_, whole, ⟨cursor, alike, _, displays, ?_, ?_⟩, rfl⟩
  · have none : (printed (barText curr.toNat count) t).filter (outside count) = [] := by
      refine List.filter_eq_nil_iff.mpr fun x hx => ?_
      simpa [outside] using within x hx
    rw [List.filter_append, none, List.append_nil, text]
  · intro i hi
    have length := length_barText curr.toNat count
    have here := drawn i hi
    rw [List.getElem?_eq_getElem (by omega)] at here ⊢
    exact cell_append_of_some _ here

end Showing

/-! ## The tasks -/

section Tasks

variable {color : UInt8} {count : Nat} {log bar : List UInt8} {w : Screen}
  (above : Stream' UInt32)

/-- `printf` prints up to a zero. -/
theorem printf_eq {fmt : List UInt8} (h : ∀ piece ∈ parse fmt, piece.isStore = false)
    {args : Stream' UInt32} {w : Screen} (room : (vsprintf fmt args w.memory).written.length < 1024) :
    w.printf fmt args = some { w with
      console := run (((vsprintf fmt args w.memory).written ++ [0]).takeWhile (· ≠ 0)) w.console } := by
  have kept := memory_vsprintf h args w.memory
  unfold Screen.printf Printf.printf
  rw [if_pos room]
  dsimp only
  rw [kept, puts_eq]

/-- `puts` prints all of a text that has no zero in it. -/
theorem puts_text {s : List UInt8} (zero : 0 ∉ s) (w : Screen) :
    w.puts s = { w with console := run s w.console } := by
  unfold Screen.puts
  rw [puts_eq, takeWhile_text zero]

/-- Text without a percent sign. -/
theorem printf_text {s : List UInt8} (percent : '%'.toUInt8 ∉ s) (zero : 0 ∉ s)
    (room : s.length < 1024) (args : Stream' UInt32) (w : Screen) :
    w.printf s args = some { w with console := run s w.console } := by
  unfold Screen.printf Printf.printf
  rw [vsprintf_literal percent, if_pos room]
  dsimp only
  rw [puts_eq, takeWhile_text zero]

theorem number_task {i : Nat} (hi : i < 65535) : (1 + UInt16.ofNat i).toNat = i + 1 := by
  rw [UInt16.toNat_add, UInt16.toNat_ofNat', UInt16.toNat_one]
  omega

theorem Showing.announce (h : Showing color count (headLog ++ log) bar w) (fits : count ≤ 58)
    {i : Nat} (hi : i < count) (task : Init)
    (room : (lineOf above count i task w.memory).length < 1024)
    (rows : StaysInRows (headLog ++ log ++ announced above count i task w.memory) (start color)) :
    ∃ w', w.announce above task (1 + UInt16.ofNat i) (UInt16.ofNat count) = some w' ∧
      Showing color count (headLog ++ (log ++ announced above count i task w.memory))
        (barText (i + 1) count) w' ∧ w'.memory = w.memory := by
  obtain ⟨w', drawn, showing, memory⟩ := h.draw fits (1 + UInt16.ofNat i)
  have stores : ∀ piece ∈ parse taskFormat, piece.isStore = false := by decide
  have printed := showing.print fits (memory ▸ rows)
  rw [number_task (by omega), List.append_assoc] at printed
  rw [← memory]
  refine ⟨_, ?_, printed, rfl⟩
  rw [← memory] at room
  unfold Screen.announce
  rw [drawn, Option.bind_some, printf_eq stores room]
  rfl

theorem Showing.call (h : Showing color count (headLog ++ log) bar w) (fits : count ≤ 58)
    (task : Init) (rows : StaysInRows
      (headLog ++ log ++ ((task.fun_ w.memory).2 ++ text "done\n\n")) (start color)) :
    ∃ w', w.call above task = some w' ∧
      Showing color count (headLog ++ (log ++ ((task.fun_ w.memory).2 ++ text "done\n\n"))) bar w' ∧
      w'.memory = (task.fun_ w.memory).1 := by
  have printed := h.print fits rows
  unfold Screen.call
  dsimp only
  rw [printf_text (by decide) (by decide) (by decide)]
  rw [run_append, List.append_assoc] at printed
  exact ⟨_, rfl, ⟨printed.cursor, printed.alike, printed.shown⟩, rfl⟩

/-- The loop over the tasks. -/
theorem Showing.runTasks (h : Showing color count (headLog ++ log) bar w) (fits : count ≤ 58)
    (tasks : List Init) {i : Nat} (few : i + tasks.length ≤ count)
    (lines : LinesFit above count i tasks w.memory)
    (rows : StaysInRows (headLog ++ log ++ tasksLog above count i tasks w.memory) (start color)) :
    ∃ w' bar', Screen.runTasks above (UInt16.ofNat count) i tasks w = some w' ∧
      Showing color count (headLog ++ (log ++ tasksLog above count i tasks w.memory)) bar' w' ∧
      w'.memory = memoryAfter tasks w.memory := by
  induction tasks generalizing i log bar w with
  | nil =>
    refine ⟨w, bar, rfl, ?_, rfl⟩
    rw [tasksLog, List.append_nil]
    exact h
  | cons task tasks ih =>
    rw [List.length_cons] at few
    rw [tasksLog] at rows ⊢
    let line := announced above count i task w.memory
    let out := (task.fun_ w.memory).2 ++ text "done\n\n"
    let rest := tasksLog above count (i + 1) tasks (task.fun_ w.memory).1
    have whole : StaysInRows (headLog ++ (log ++ line ++ out) ++ rest) (start color) := by
      simpa only [List.append_assoc, line, out, rest] using rows
    have upToCall : StaysInRows (headLog ++ (log ++ line) ++ out) (start color) := by
      simpa only [List.append_assoc] using (staysInRows_append.mp whole).1
    have upToLine : StaysInRows (headLog ++ log ++ line) (start color) := by
      simpa only [List.append_assoc] using (staysInRows_append.mp upToCall).1
    obtain ⟨room, more⟩ := lines
    obtain ⟨w₁, announces, showing₁, memory₁⟩ := h.announce above fits (by omega) task room upToLine
    rw [← memory₁] at showing₁
    obtain ⟨w₂, calls, showing₂, memory₂⟩ := showing₁.call above fits task (by rwa [memory₁])
    rw [memory₁] at showing₂ memory₂
    obtain ⟨w', bar', runs, showing', memory'⟩ :=
      ih showing₂ (i := i + 1) (by omega) (by rwa [memory₂]) (by rwa [memory₂])
    rw [memory₂] at showing' memory'
    refine ⟨w', bar', ?_, ?_, memory'⟩
    · rw [Screen.runTasks, announces, Option.bind_some, calls, Option.bind_some, runs]
    · simpa only [List.append_assoc, line, out] using showing'

/-- Before the first task. -/
theorem showing_begin (color : UInt8) (count : Nat) (m : Mem32) (p : CurPos) :
    Showing color count (headLog ++ []) [] (begin ⟨m, start color, p⟩) ∧
      (begin ⟨m, start color, p⟩).memory = m := by
  let first := text "stage 2 loaded\n" ++ [0xF7] ++ text "executing stage 2 : "
  have whole : begin ⟨m, start color, p⟩ =
      ⟨m, run headLog (start color), (run first (start color)).cursorPos⟩ := by
    unfold begin
    rw [puts_text (by decide), puts_text (by decide), puts_text (by decide)]
    simp only [headLog, first, run_append]
    rfl
  have any : (run first (start 0)).cursorPos = ⟨1, 20⟩ := start_headLog.1
  have starts : (start color).cursorPos = (start 0).cursorPos := rfl
  have cursor := (cursorPos_run starts first).trans any
  have above := start_headLog.2.2
  have same : printed headLog (start 0) = printed headLog (start color) :=
    printed_congr starts.symm headLog
  rw [same] at above
  have displays : Displays (start color) [] := fun _ => rfl
  have before : ∀ x ∈ (printed headLog (start color)).filter (·.2 < 0x80), linear x.1 < 100 :=
    fun x hx => above x (List.mem_filter.mp hx).1
  rw [whole, cursor, List.append_nil]
  refine ⟨⟨rfl, ⟨rfl, rfl⟩, _, displays.run headLog, ?_, ?_⟩, rfl⟩
  · refine List.filter_eq_self.mpr fun x hx => decide_eq_true ?_
    have low := before x hx
    omega
  · intro i hi
    rw [cell_append_elsewhere]
    · rfl
    · intro x hx
      have low := before x hx
      omega

theorem tasksLog_append (count i : Nat) (pre post : List Init) (m : Mem32) :
    tasksLog above count i (pre ++ post) m = tasksLog above count i pre m ++
      tasksLog above count (i + pre.length) post (memoryAfter pre m) := by
  induction pre generalizing i m with
  | nil => rfl
  | cons task pre ih =>
    rw [List.cons_append, tasksLog, tasksLog, ih, List.length_cons, Nat.add_comm pre.length,
      ← Nat.add_assoc]
    simp only [List.append_assoc]
    rfl

/-- The lines of some of the tasks. -/
theorem linesFit_append {count i : Nat} {pre post : List Init} {m : Mem32} :
    LinesFit above count i (pre ++ post) m ↔ LinesFit above count i pre m ∧
      LinesFit above count (i + pre.length) post (memoryAfter pre m) := by
  induction pre generalizing i m with
  | nil => exact (and_iff_right trivial).symm
  | cons task pre ih =>
    rw [List.cons_append, LinesFit, LinesFit, ih, List.length_cons, Nat.add_comm pre.length,
      ← Nat.add_assoc, and_assoc]
    exact Iff.rfl

/-- THE LAW of stage 2's console, for up to 58 tasks that print whatever they like in the rows
there are, and whose names fit into `printf_buf`. Each is called once, in its turn, on the memory
that those before it have left. When it is called the bar shows it as running and those before it
as done, in the end it shows them all as done, and all the time the log stands as if there were no
bar. -/
theorem stage2Load_shows (tasks : List Init) (fits : tasks.length ≤ 58) (m : Mem32) (color : UInt8)
    (p : CurPos) (lines : LinesFit above tasks.length 0 tasks m)
    (rows : StaysInRows (stage2Log above tasks m) (start color)) :
    (∀ pre task post, tasks = pre ++ task :: post →
      ∃ w, whenCalled above tasks.length pre task ⟨m, start color, p⟩ = some w ∧
        w.memory = memoryAfter pre m ∧
        Showing color tasks.length (headLog ++ (tasksLog above tasks.length 0 pre m ++
            announced above tasks.length pre.length task (memoryAfter pre m)))
          (barText (pre.length + 1) tasks.length) w) ∧
    ∃ w, Screen.stage2Load above tasks ⟨m, start color, p⟩ = some w ∧
      w.memory = memoryAfter tasks m ∧
      Showing color tasks.length (stage2Log above tasks m)
        ('['.toUInt8 :: (List.replicate tasks.length '='.toUInt8 ++ [']'.toUInt8])) w := by
  obtain ⟨showing, memory⟩ := showing_begin color tasks.length m p
  have upToEnd := (staysInRows_append.mp rows).1
  constructor
  · intro pre task post split
    have few : pre.length < tasks.length := by
      rw [split, List.length_append, List.length_cons]
      omega
    have log := tasksLog_append above tasks.length 0 pre (task :: post) m
    rw [← split, tasksLog, Nat.zero_add] at log
    have upToLine : StaysInRows (headLog ++ tasksLog above tasks.length 0 pre m ++
        announced above tasks.length pre.length task (memoryAfter pre m)) (start color) := by
      rw [log, ← List.append_assoc, ← List.append_assoc] at upToEnd
      exact (staysInRows_append.mp upToEnd).1
    have fit := lines
    rw [split, linesFit_append, ← split, LinesFit, Nat.zero_add] at fit
    obtain ⟨before, room, -⟩ := fit
    obtain ⟨w₁, bar, runs, showing₁, memory₁⟩ := showing.runTasks above fits pre (i := 0)
      (by omega) (by rwa [memory])
      (by rw [memory, List.append_nil]; exact (staysInRows_append.mp upToLine).1)
    rw [memory] at showing₁ memory₁
    obtain ⟨w₂, announces, showing₂, memory₂⟩ := showing₁.announce above fits few task
      (by rwa [memory₁]) (by rwa [memory₁, List.nil_append])
    rw [memory₁] at showing₂ memory₂
    refine ⟨w₂, ?_, memory₂, showing₂⟩
    rw [whenCalled, runs, Option.bind_some, announces]
  · obtain ⟨w₁, bar, runs, showing₁, memory₁⟩ := showing.runTasks above fits tasks (i := 0)
      (by omega) (by rwa [memory]) (by rwa [memory, List.append_nil])
    rw [memory, List.nil_append] at showing₁
    rw [memory] at memory₁
    obtain ⟨w₂, drawn, showing₂, memory₂⟩ := showing₁.draw fits (UInt16.ofNat tasks.length + 1)
    have printed := showing₂.print fits (s := text "stage 2 finished\n\n ") rows
    have number : (UInt16.ofNat tasks.length + 1).toNat = tasks.length + 1 := by
      rw [UInt16.toNat_add, UInt16.toNat_ofNat', UInt16.toNat_one]
      omega
    rw [number, barText_done] at printed
    refine ⟨{ w₂ with console := run (text "stage 2 finished\n\n ") w₂.console }, ?_,
      memory₂.trans memory₁, printed⟩
    unfold Screen.stage2Load
    dsimp only
    rw [runs, Option.bind_some, drawn, Option.bind_some,
      printf_text (by decide) (by decide) (by decide)]

/-- Two tasks with names in memory, of which the first prints a letter and the second one more. -/
def twoTasks : List Init := [⟨fun m => (m, [0x41]), 0, 4⟩, ⟨fun m => (m, [0x42, 0x43]), 8, 4⟩]

/-- `a20`, `a.c` and `gdt`. -/
def names : Mem32 := fun a =>
  [0x61, 0x32, 0x30, 0, 0x61, 0x2E, 0x63, 0, 0x67, 0x64, 0x74].getD a.toNat 0

theorem stage2Load_shows_twoTasks :
    ∃ w, Screen.stage2Load (fun _ => 0) twoTasks ⟨names, start 7, ⟨0, 0⟩⟩ = some w ∧
      w.memory = memoryAfter twoTasks names ∧
      Showing 7 2 (stage2Log (fun _ => 0) twoTasks names) [0x5B, 0x3D, 0x3D, 0x5D] w := by
  have lines : LinesFit (fun _ => 0) twoTasks.length 0 twoTasks names := by
    have first : (lineOf (fun _ => 0) 2 0 ⟨fun m => (m, [0x41]), 0, 4⟩ names).length < 1024 := by
      decide +kernel
    have second : (lineOf (fun _ => 0) 2 1 ⟨fun m => (m, [0x42, 0x43]), 8, 4⟩ names).length < 1024 := by
      decide +kernel
    exact ⟨first, second, trivial⟩
  exact (stage2Load_shows (fun _ => 0) twoTasks (by decide) names 7 ⟨0, 0⟩ lines
    (by decide +kernel)).2

end Tasks

end Screen

end ToyBootloader
