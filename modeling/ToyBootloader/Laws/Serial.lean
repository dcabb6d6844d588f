import Mathlib.Data.List.TakeWhile
import ToyBootloader.Sequences.Runs
import ToyBootloader.Shared.Write

/-!
# What is sent over the serial line

Every copy of `puts`, and `write` in two of the three, sends each character once, without
asking whether the port is ready. Stage 3's `write` asks, but sends where the port is busy
and goes on where it is ready: a character is sent once for every busy status that is read
before a ready one. So a text arrives where every run of equal characters in it meets as
many busy statuses as it has characters, and on a port that is ready nothing is sent at all.
-/

namespace ToyBootloader.Serial

open Sequences

/-! ## What is meant -/

/-- The text as a line terminal wants it: `\r` before every `\n`. -/
def crlf (b : List UInt8) : List UInt8 :=
  b.flatMap fun c => if c = '\n'.toUInt8 then ['\r'.toUInt8, c] else [c]

/-- What has been written to the data port, in order. -/
def data (written : List (UInt16 × UInt8)) : List UInt8 :=
  written.filterMap fun w => if w.1 = COM1 then some w.2 else none

/-- The call returns, and has sent the text. -/
def Sends (call : List UInt8 → Serial Int32) (b : List UInt8) (u : Uart) : Prop :=
  ∃ r u', call b u = some (r, u') ∧ data u'.written = data u.written ++ crlf b

/-- The six ways to send a text. -/
def outputs : List (List UInt8 → Serial Int32) :=
  [fun b => Stage3.write b b.length, Stage3.puts, fun b => Stage4.write b b.length, Stage4.puts,
    fun b => LoaderProtected.write b b.length, LoaderProtected.puts]

/-- How many busy statuses come before each ready one. -/
def busyCounts : List UInt8 → List Nat
  | [] => []
  | lsr :: lines =>
    if lsr &&& 0x20 = 0 then
      match busyCounts lines with
      | [] => []
      | m :: ms => (m + 1) :: ms
    else 0 :: busyCounts lines

/-! ## Steps -/

section Steps

variable {u u' : Uart} {c : UInt8} {s : List UInt8}

/-- The port after these have been written to the data port. -/
def after (u : Uart) (s : List UInt8) : Uart :=
  { u with written := u.written ++ s.map (Prod.mk COM1) }

theorem after_nil (u : Uart) : after u [] = u :=
  congrArg (fun written => { u with written }) (List.append_nil _)

theorem after_after (u : Uart) (s t : List UInt8) : after (after u s) t = after u (s ++ t) := by
  unfold after
  rw [List.map_append, List.append_assoc]

theorem data_append (v w : List (UInt16 × UInt8)) : data (v ++ w) = data v ++ data w :=
  List.filterMap_append

theorem data_after (u : Uart) (s : List UInt8) : data (after u s).written = data u.written ++ s := by
  have all : data (s.map (Prod.mk COM1)) = s := by
    unfold data
    rw [List.filterMap_map]
    exact List.filterMap_some
  exact (data_append _ _).trans (congrArg (data u.written ++ ·) all)

theorem crlf_singleton (c : UInt8) :
    crlf [c] = if c = '\n'.toUInt8 then ['\r'.toUInt8, c] else [c] :=
  List.append_nil _

theorem crlf_cons (c : UInt8) (s : List UInt8) : crlf (c :: s) = crlf [c] ++ crlf s := by
  unfold crlf
  rw [← List.flatMap_append]
  rfl

/-- A step that returns, followed by another. -/
theorem bind_eq {α β : Type} {m : Serial α} {k : α → Serial β} {a : α} (h : m u = some (a, u')) :
    (m >>= k) u = k a u' := by
  change (m u).bind _ = _
  rw [h]
  rfl

/-- What has returned has had both its steps return. -/
theorem bind_eq_some {α β : Type} {m : Serial α} {k : α → Serial β} {b : β}
    (h : (m >>= k) u = some (b, u')) : ∃ a v, m u = some (a, v) ∧ k a v = some (b, u') := by
  obtain ⟨⟨a, v⟩, hm, hk⟩ := Option.bind_eq_some_iff.mp h
  exact ⟨a, v, hm, hk⟩

/-- A port that is set up is left as it is. -/
theorem init_ready (ready : u.isInit = true) (setbr : Serial Unit) :
    init setbr u = some ((), u) := by
  change (if u.isInit then _ else _ : Serial Unit) u = _
  rw [ready]
  rfl

/-- The last status says what is returned, and nothing more is sent. -/
theorem finish_written {n r : Int32} (h : finish n u = some (r, u')) : u'.written = u.written := by
  obtain ⟨lsr, v, read, h⟩ := bind_eq_some h
  have kept : v.written = u.written := by
    unfold inbLsr at read
    cases hl : u.lines with
    | nil =>
      rw [hl] at read
      cases read
    | cons a lines =>
      rw [hl] at read
      cases read
      rfl
  split at h
  · cases h
    exact kept
  · cases h
    exact kept

/-! ## Sending without waiting -/

theorem outb_data (c : UInt8) (u : Uart) : outb COM1 c u = some ((), after u [c]) := rfl

theorem send_eq (c : UInt8) (u : Uart) : send c u = some ((), after u (crlf [c])) := by
  rw [crlf_singleton]
  unfold send
  split
  · rw [bind_eq (outb_data _ u)]
    exact (outb_data c _).trans (congrArg (fun v => some ((), v)) (after_after u _ _))
  · exact outb_data c u

theorem forM_send (s : List UInt8) (u : Uart) : s.forM send u = some ((), after u (crlf s)) := by
  induction s generalizing u with
  | nil => rw [crlf, List.flatMap_nil, after_nil]; rfl
  | cons c s ih =>
    change (send c >>= fun _ => s.forM send) u = _
    rw [bind_eq (send_eq c u), ih, after_after, ← crlf_cons]

/-! ## Sending while the port is busy -/

theorem whileBusyLoop_eq {lines lines' : List UInt8} {written written' : List (UInt16 × UInt8)}
    (h : whileBusyLoop c lines written = some (lines', written')) :
    ∃ m, busyCounts lines = m :: busyCounts lines' ∧
      written' = written ++ (List.replicate m c).map (Prod.mk COM1) := by
  induction lines generalizing written with
  | nil => cases h
  | cons lsr lines ih =>
    rw [whileBusyLoop] at h
    rw [busyCounts]
    by_cases busy : lsr &&& 0x20 = 0
    · rw [if_pos busy] at h
      obtain ⟨m, counted, sent⟩ := ih h
      rw [if_pos busy, counted]
      refine ⟨m + 1, rfl, ?_⟩
      rw [sent, List.append_assoc]
      rfl
    · rw [if_neg busy] at h
      cases h
      rw [if_neg busy]
      exact ⟨0, rfl, (List.append_nil _).symm⟩

/-- The character is sent once for each busy status before the first ready one. -/
theorem whileBusy_eq (h : whileBusy c u = some ((), u')) :
    ∃ m, busyCounts u.lines = m :: busyCounts u'.lines ∧
      u'.written = u.written ++ (List.replicate m c).map (Prod.mk COM1) := by
  obtain ⟨⟨lines, written⟩, loop, same⟩ := Option.map_eq_some_iff.mp h
  cases same
  exact whileBusyLoop_eq loop

/-- So each of several is sent as often as there were busy statuses before its ready one. -/
theorem forM_whileBusy (h : s.forM whileBusy u = some ((), u')) :
    ∃ ms, ms.length = s.length ∧ busyCounts u.lines = ms ++ busyCounts u'.lines ∧
      u'.written = u.written ++ (spell (s.zip ms)).map (Prod.mk COM1) := by
  induction s generalizing u with
  | nil =>
    cases h
    exact ⟨[], rfl, rfl, (List.append_nil _).symm⟩
  | cons c s ih =>
    obtain ⟨⟨⟩, v, first, rest⟩ := bind_eq_some h
    obtain ⟨m, counted, sent⟩ := whileBusy_eq first
    obtain ⟨ms, length, counts, more⟩ := ih rest
    refine ⟨m :: ms, congrArg Nat.succ length, ?_, ?_⟩
    · rw [counted, counts]
      rfl
    · rw [more, sent, List.zip_cons_cons, spell_cons, List.map_append, List.append_assoc]

/-- The loop of stage 3's `write` waits for each character of the text. -/
theorem forM_sendWhileBusy (s : List UInt8) :
    s.forM sendWhileBusy = (crlf s).forM whileBusy := by
  induction s with
  | nil => rfl
  | cons c s ih =>
    change (sendWhileBusy c >>= fun _ => s.forM sendWhileBusy) = _
    rw [ih, crlf_cons, crlf_singleton, sendWhileBusy]
    split
    · exact bind_assoc _ _ _
    · rfl

end Steps

/-! ## The calls -/

section Calls

variable {b s : List UInt8} {u : Uart} (ready : u.isInit = true)

include ready

theorem sends_putsWith (setbr : Serial Unit) (nul : 0 ∉ b) (returns : (putsWith setbr b u).isSome) :
    Sends (putsWith setbr) b u := by
  obtain ⟨⟨r, u'⟩, call⟩ := Option.isSome_iff_exists.mp returns
  have whole : b.takeWhile (· ≠ 0) = b :=
    List.takeWhile_eq_self_iff.mpr fun c hc => decide_eq_true (ne_of_mem_of_not_mem hc nul)
  refine ⟨r, u', call, ?_⟩
  unfold putsWith at call
  rw [bind_eq (init_ready ready setbr), whole, bind_eq (forM_send b u)] at call
  rw [finish_written call, data_after]

theorem sends_writeWith (setbr : Serial Unit)
    (returns : (writeWith setbr send b b.length u).isSome) :
    Sends (fun b => writeWith setbr send b b.length) b u := by
  obtain ⟨⟨r, u'⟩, call⟩ := Option.isSome_iff_exists.mp returns
  refine ⟨r, u', call, ?_⟩
  unfold writeWith at call
  rw [bind_eq (init_ready ready setbr), List.take_length, bind_eq (forM_send b u)] at call
  rw [finish_written call, data_after]

/-- Stage 3's `write` sends the text where every run of equal characters meets as many busy
statuses as it has characters. -/
theorem sends_stage3_write (returns : (Stage3.write b b.length u).isSome) :
    Sends (fun b => Stage3.write b b.length) b u ↔
      ∀ r ∈ tally ((crlf b).zip (busyCounts u.lines)), r.2.2 = r.2.1 := by
  obtain ⟨⟨r, u'⟩, call⟩ := Option.isSome_iff_exists.mp returns
  have steps := call
  unfold Stage3.write writeWith at steps
  rw [bind_eq (init_ready ready _), List.take_length, forM_sendWhileBusy] at steps
  obtain ⟨⟨⟩, v, loop, last⟩ := bind_eq_some steps
  obtain ⟨ms, length, counted, sent⟩ := forM_whileBusy loop
  have zipped : (crlf b).zip (busyCounts u.lines) = (crlf b).zip ms := by
    have split : (crlf b ++ []).zip (ms ++ busyCounts v.lines) = _ :=
      List.zip_append length.symm
    rwa [List.append_nil, List.zip_nil_left, List.append_nil, ← counted] at split
  have text : ((crlf b).zip ms).map Prod.fst = crlf b := List.map_fst_zip length.ge
  have written : data u'.written = data u.written ++ spell ((crlf b).zip ms) := by
    rw [finish_written last, sent]
    exact data_after u _
  rw [zipped, ← spell_eq_iff, text]
  constructor
  · rintro ⟨r', v', call', right⟩
    cases call.symm.trans call'
    exact List.append_cancel_left (written.symm.trans right)
  · intro same
    exact ⟨r, u', call, written.trans (congrArg (data u.written ++ ·) same)⟩

end Calls

/-- THE LAW of the serial line: of the six ways to send a text all send it exactly where, for
stage 3's `write`, every run of equal characters of what is to be sent meets as many busy
statuses as it has characters. -/
theorem outputs_send_iff {b : List UInt8} {u : Uart} (nul : 0 ∉ b) (ready : u.isInit = true)
    (returns : ∀ call ∈ outputs, (call b u).isSome) :
    (∀ call ∈ outputs, Sends call b u) ↔
      ∀ r ∈ tally ((crlf b).zip (busyCounts u.lines)), r.2.2 = r.2.1 := by
  simp only [outputs, List.forall_mem_cons] at returns ⊢
  obtain ⟨w₃, p₃, w₄, p₄, w, p, none⟩ := returns
  rw [sends_stage3_write ready w₃]
  refine and_iff_left ⟨?_, ?_, ?_, ?_, ?_, fun _ h => absurd h List.not_mem_nil⟩
  · exact sends_putsWith ready _ nul p₃
  · exact sends_writeWith ready _ w₄
  · exact sends_putsWith ready _ nul p₄
  · exact sends_writeWith ready _ w
  · exact sends_putsWith ready _ nul p

/-- A port that is always ready. -/
def readyPort : Uart := ⟨true, 0x03, [0x60, 0x60], []⟩

/-- Two equal letters and the end of the line. -/
def llnl : List UInt8 := ['l'.toUInt8, 'l'.toUInt8, '\n'.toUInt8]

/-- A port that is busy twice with the first of the letters, not at all with the second, and once
with each of the characters that end the line. -/
def busyTwice : Uart :=
  ⟨true, 0x03, [0x00, 0x00, 0x60, 0x60, 0x00, 0x60, 0x00, 0x60, 0x60, 0x60, 0x60], []⟩

theorem sends_on_busyTwice : (∀ call ∈ outputs, (call llnl busyTwice).isSome) ∧
    ∀ call ∈ outputs, Sends call llnl busyTwice := by
  have returns : ∀ call ∈ outputs, (call llnl busyTwice).isSome := by decide
  have counts : ∀ r ∈ tally ((crlf llnl).zip (busyCounts busyTwice.lines)), r.2.2 = r.2.1 := by
    decide
  exact ⟨returns, (outputs_send_iff (by decide) rfl returns).mpr counts⟩

theorem not_sends_when_ready : ¬ ∀ (b : List UInt8) (u : Uart), 0 ∉ b → u.isInit = true →
    (∀ call ∈ outputs, (call b u).isSome) → ∀ call ∈ outputs, Sends call b u := by
  intro h
  have returns : ∀ call ∈ outputs, (call ['A'.toUInt8] readyPort).isSome := by decide
  have sends := h ['A'.toUInt8] readyPort (by decide) rfl returns
  have counts := (sends_stage3_write rfl (returns _ List.mem_cons_self)).mp
    (sends _ List.mem_cons_self)
  exact absurd counts (by decide)

end ToyBootloader.Serial
