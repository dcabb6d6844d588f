import ToyBootloader.Laws.Handshake

/-!
# What opens the A20 gate

`a20_int15` takes AX for a truth value, so an error in AH is reported as success, and the
keyboard controller is not tried. Where the BIOS answers that the gate is closed the keyboard
controller is tried, and success is reported whenever its waits are over. The gate is then
open if the four writes it takes were understood. They come at a status of exactly 2, with an
input buffer that was full.
-/

namespace ToyBootloader

open Resumption Code

namespace A20Platform

variable {f : A20Platform} {s s' t : A20State} {α : Type}

/-! ## What is meant -/

/-- The gate after INT 15h AX=2401h. -/
def asked (f : A20Platform) (gate : Bool) : Bool := gate || f.sets

/-- An error in AH. -/
def Fails (f : A20Platform) (gate : Bool) : Prop := (f.answer gate).eax.toUInt16 >>> 8 ≠ 0

/-- Where `a20` returns after success the gate is open, and where the status function failed
the keyboard controller has been tried. -/
def Reports (f : A20Platform) (gate : Bool) : Prop :=
  ∀ r s, Exec f.machine a20 { gate } r s → r = true →
    s.gate = true ∧ (f.Fails (f.asked gate) → 0 < s.writes)

/-- Waits one after the other come to an end. -/
def Ends (f : A20Platform) : List Bool → Nat → Prop
  | [], _ => True
  | n :: ns, i => ∃ m, First (fun l => goesOn n (f.status (i + l))) m ∧ f.Ends ns (i + m + 1)

/-! ## Stages -/

/-- How far the writes have come: how many there were, whether they have been understood,
whether the next byte is for the gate, and the gate. -/
structure Stage (k : Nat) (understood expecting gate : Bool) (s : A20State) : Prop where
  writes : s.writes = k
  understood : s.understood = understood
  expecting : s.expecting = expecting
  gate : s.gate = gate

variable {k : Nat} {u e g : Bool}

theorem Stage.looks (h : Stage k u e g s) (m : Nat) : Stage k u e g (f.look^[m] s) where
  writes := (iterate_keeps f.look A20State.writes (fun _ => rfl) m s).trans h.writes
  understood := (iterate_keeps f.look A20State.understood (fun _ => rfl) m s).trans h.understood
  expecting := (iterate_keeps f.look A20State.expecting (fun _ => rfl) m s).trans h.expecting
  gate := (iterate_keeps f.look A20State.gate (fun _ => rfl) m s).trans h.gate

theorem Stage.take (h : Stage k u e g s) : Stage k u e g (f.take s) :=
  ⟨h.writes, h.understood, h.expecting, h.gate⟩

/-- A wait for room is over at a status that shows none. -/
theorem inputEmpty_looks {m : Nat}
    (first : First (fun l => goesOn false (f.status (s.statuses + l))) m) :
    f.inputEmpty (f.look^[m + 1] s) = f.taken (f.look^[m + 1] s).writes := by
  have full : f.status (f.look^[m] s).statuses = 2 := by
    rw [statuses_looks]
    have here := first.here
    simpa [goesOn] using here
  rw [Function.iterate_succ_apply', inputEmpty]
  change (f.taken _ || decide (f.status (f.look^[m] s).statuses &&& 2 = 0)) = _
  rw [full]
  exact Bool.or_false _

theorem Stage.write (h : Stage k u e g s) {m : Nat}
    (first : First (fun l => goesOn false (f.status (s.statuses + l))) m) (port : UInt16)
    (v : UInt8) :
    Stage (k + 1) (u && f.taken k) (port = 0x64 && v = 0xD1)
      (if u && f.taken k && e && port = 0x60 then v &&& 2 ≠ 0 else g)
      (f.write port v (f.look^[m + 1] s)) := by
  have empty := inputEmpty_looks first
  have stage := h.looks (f := f) (m + 1)
  generalize f.look^[m + 1] s = t at empty stage ⊢
  rw [stage.writes] at empty
  refine ⟨congrArg Nat.succ stage.writes, ?_, rfl, ?_⟩
  · change (t.understood && f.inputEmpty t) = _
    rw [stage.understood, empty]
  · change (if t.understood && f.inputEmpty t && t.expecting && port = 0x60 then
      decide (v &&& 2 ≠ 0) else t.gate) = _
    rw [stage.understood, empty, stage.expecting, stage.gate]

/-! ## Runs -/

theorem exec_wait {n : Bool} {p : Unit → Code α} {r : α} :
    Exec f.machine ((a20KeyboardWait n).bind p) s r s' ↔
      ∃ m, First (fun l => goesOn n (f.status (s.statuses + l))) m ∧
        Exec f.machine (p ()) (f.look^[m + 1] s) r s' := by
  have node : (a20KeyboardWait n).bind p =
      .poll (S := ops) (.inb 0x64) (goesOn n) fun _ => p () := rfl
  rw [node, exec_poll settles_status, passes_goesOn]

/-- How a program comes out: it returns where these waits come to an end, and then with `Q`. -/
structure Outcome (f : A20Platform) (ns : List Bool) (Q : α → A20State → Prop) (p : Code α)
    (s : A20State) : Prop where
  returns : (∃ r s', Exec f.machine p s r s') ↔ f.Ends ns s.statuses
  post : ∀ {r s'}, Exec f.machine p s r s' → Q r s'

section Outcome

variable {Q : α → A20State → Prop} {ns : List Bool} {n : Bool}

/-- A wait, and what comes out after it. -/
theorem outcome_wait {p : Unit → Code α}
    (rest : ∀ m, First (fun l => goesOn n (f.status (s.statuses + l))) m →
      ((∃ r s', Exec f.machine (p ()) (f.look^[m + 1] s) r s') ↔
        f.Ends ns (s.statuses + m + 1)) ∧
      ∀ r s', Exec f.machine (p ()) (f.look^[m + 1] s) r s' → Q r s') :
    f.Outcome (n :: ns) Q ((a20KeyboardWait n).bind p) s := by
  constructor
  · rw [Ends]
    constructor
    · rintro ⟨r, s', run⟩
      obtain ⟨m, first, run⟩ := exec_wait.mp run
      exact ⟨m, first, (rest m first).1.mp ⟨r, s', run⟩⟩
    · rintro ⟨m, first, ends⟩
      obtain ⟨r, s', run⟩ := (rest m first).1.mpr ends
      exact ⟨r, s', exec_wait.mpr ⟨m, first, run⟩⟩
  · intro r s' run
    obtain ⟨m, first, run⟩ := exec_wait.mp run
    exact (rest m first).2 r s' run

/-- A wait and the access after it. -/
theorem outcome_wait_vis {op : Op} {answer : A20State → op.Ans} {after : A20State → A20State}
    {p : op.Ans → Code α} (settles : Settles f.machine op answer after)
    (place : ∀ t, (after t).statuses = t.statuses)
    (rest : ∀ m, First (fun l => goesOn n (f.status (s.statuses + l))) m →
      f.Outcome ns Q (p (answer (f.look^[m + 1] s))) (after (f.look^[m + 1] s))) :
    f.Outcome (n :: ns) Q ((a20KeyboardWait n).bind fun _ => .vis (S := ops) op p) s := by
  refine outcome_wait fun m first => ?_
  have outcome := rest m first
  have further : (after (f.look^[m + 1] s)).statuses = s.statuses + m + 1 :=
    (place _).trans (statuses_looks (m + 1) s)
  simp only [settles.exec_vis]
  rw [← further]
  exact ⟨outcome.returns, fun _ _ => outcome.post⟩

/-- A wait for room and a write. -/
theorem outcome_wait_write {port : UInt16} {v : UInt8} {p : Unit → Code α}
    (there : port = 0x64 ∨ port = 0x60)
    (rest : ∀ t, Stage (k + 1) (u && f.taken k) (port = 0x64 && v = 0xD1)
      (if u && f.taken k && e && port = 0x60 then v &&& 2 ≠ 0 else g) t →
        f.Outcome ns Q (p ()) t)
    (stage : Stage k u e g s) :
    f.Outcome (false :: ns) Q
      ((a20KeyboardWait false).bind fun _ => .vis (S := ops) (.outb port v) p) s := by
  refine outcome_wait_vis (settles_write there v) (fun _ => rfl) fun m first => ?_
  exact rest _ (stage.write first port v)

/-- A command leaves the gate. -/
theorem outcome_wait_command {v : UInt8} {p : Unit → Code α}
    (rest : ∀ t, Stage (k + 1) (u && f.taken k) (v = 0xD1) g t → f.Outcome ns Q (p ()) t)
    (stage : Stage k u e g s) :
    f.Outcome (false :: ns) Q
      ((a20KeyboardWait false).bind fun _ => .vis (S := ops) (.outb 0x64 v) p) s := by
  refine outcome_wait_write (.inl rfl) (fun t next => rest t ?_) stage
  have other : decide ((0x64 : UInt16) = 0x60) = false := rfl
  rw [other, Bool.and_false, if_neg Bool.false_ne_true] at next
  exact next

/-- A byte is for the gate after the command that says so. -/
theorem outcome_wait_byte {v : UInt8} {p : Unit → Code α}
    (rest : ∀ t, Stage (k + 1) (u && f.taken k) false
      (if u && f.taken k && e then v &&& 2 ≠ 0 else g) t → f.Outcome ns Q (p ()) t)
    (stage : Stage k u e g s) :
    f.Outcome (false :: ns) Q
      ((a20KeyboardWait false).bind fun _ => .vis (S := ops) (.outb 0x60 v) p) s := by
  refine outcome_wait_write (.inr rfl) (fun t next => rest t ?_) stage
  have same : decide ((0x60 : UInt16) = 0x60) = true := rfl
  rw [same, Bool.and_true] at next
  exact next

/-- A wait for a byte and a read of it. -/
theorem outcome_wait_read {p : UInt8 → Code α}
    (rest : ∀ v t, Stage k u e g t → f.Outcome ns Q (p v) t) (stage : Stage k u e g s) :
    f.Outcome (true :: ns) Q
      ((a20KeyboardWait true).bind fun _ => .vis (S := ops) (.inb 0x60) p) s := by
  refine outcome_wait_vis settles_data (fun _ => rfl) fun m _ => ?_
  exact rest _ _ (stage.looks (m + 1)).take

/-- A wait with nothing after it but the end. -/
theorem outcome_wait_end {a : α} (stage : Stage k u e g s)
    (last : ∀ t, Stage k u e g t → Q a t) :
    f.Outcome [n] Q ((a20KeyboardWait n).bind fun _ => .pure a) s := by
  refine outcome_wait fun m first => ?_
  simp only [exec_pure]
  refine ⟨iff_of_true ⟨_, _, rfl, rfl⟩ trivial, ?_⟩
  rintro r s' ⟨rfl, rfl⟩
  exact last _ (stage.looks (m + 1))

end Outcome

/-! ## The two ways -/

/-- All the waits of `a20_keyboard`. -/
def allWaits : List Bool := a20Waits ++ [false]

/-- The four writes that open the gate are understood. -/
def understands (f : A20Platform) : Bool := f.taken 0 && f.taken 1 && f.taken 2 && f.taken 3

theorem or_two_and (a : UInt8) : decide ((a ||| 2) &&& 2 ≠ 0) = true := by
  rw [(setsBit1_or a).2]
  rfl

/-- `a20_keyboard` opens the gate if its four writes were understood, and leaves it as it is
otherwise. -/
theorem outcome_a20Keyboard (start : Stage 0 true e g s) :
    f.Outcome allWaits (fun r t => r = true ∧ 0 < t.writes ∧ t.gate = (f.understands || g))
      a20Keyboard s := by
  refine outcome_wait_command (fun t stage => ?_) start
  refine outcome_wait_command (fun t stage => ?_) stage
  refine outcome_wait_read (fun a t stage => ?_) stage
  refine outcome_wait_command (fun t stage => ?_) stage
  refine outcome_wait_byte (fun t stage => ?_) stage
  refine outcome_wait_command (fun t stage => ?_) stage
  refine outcome_wait_end stage fun t stage => ?_
  have opened : t.gate = if f.understands && decide ((0xD1 : UInt8) = 0xD1) then
      decide ((a ||| 2) &&& 2 ≠ 0) else g := stage.gate
  have command : decide ((0xD1 : UInt8) = 0xD1) = true := rfl
  rw [command, Bool.and_true, or_two_and, ← Bool.cond_eq_ite] at opened
  have tried : 0 < t.writes := by
    rw [stage.writes]
    exact Nat.succ_pos _
  refine ⟨rfl, tried, opened.trans ?_⟩
  cases f.understands <;> rfl

/-- An error is not zero, and without one AX says whether the gate is open. -/
theorem answer_cases (f : A20Platform) (gate : Bool) :
    f.Fails gate ∧ (f.answer gate).eax.toUInt16 ≠ 0 ∨
      ¬ f.Fails gate ∧ ((f.answer gate).eax.toUInt16 = 0 ↔ gate = false) := by
  by_cases fails : f.Fails gate
  · refine .inl ⟨fails, fun zero => fails ?_⟩
    rw [zero]
    rfl
  · refine .inr ⟨fails, ?_⟩
    rw [(f.lawful gate).resolve_right fails]
    cases gate <;> decide

/-- The registers for a function of INT 15h. -/
def function (ax : UInt32) : Regs32 := ⟨ax, 0, 0, 0, false⟩

theorem settles_2401 : Settles f.machine (.int15 (function 0x2401)) (fun _ => function 0x2401)
    fun s => { s with gate := f.asked s.gate } :=
  fun _ _ _ => Simulator.machine_iff rfl

theorem settles_2402 : Settles f.machine (.int15 (function 0x2402)) (fun s => f.answer s.gate) id :=
  fun _ _ _ => Simulator.machine_iff rfl

/-- `a20` reports success with the gate as it is where AX is not zero, and tries the keyboard
controller where it is. -/
theorem exec_a20 {r : Bool} (gate : Bool) :
    Exec f.machine a20 { gate } r s' ↔
      Exec f.machine (if (f.answer (f.asked gate)).eax.toUInt16 ≠ 0 then .pure true else a20Keyboard)
        { gate := f.asked gate } r s' := by
  have node : a20 = .vis (S := ops) (.int15 (function 0x2401)) fun _ =>
      .vis (S := ops) (.int15 (function 0x2402)) fun x =>
        if x.eax.toUInt16 ≠ 0 then .pure true else a20Keyboard := rfl
  rw [node, settles_2401.exec_vis, settles_2402.exec_vis]
  rfl

theorem understands_iff (f : A20Platform) :
    f.understands = true ↔ ∀ k < 4, f.taken k = true := by
  unfold understands
  simp only [Bool.and_eq_true]
  constructor
  · rintro ⟨⟨⟨h₀, h₁⟩, h₂⟩, h₃⟩ k hk
    match k with
    | 0 => exact h₀
    | 1 => exact h₁
    | 2 => exact h₂
    | 3 => exact h₃
  · intro all
    exact ⟨⟨⟨all 0 (by decide), all 1 (by decide)⟩, all 2 (by decide)⟩, all 3 (by decide)⟩

end A20Platform

/-! ## The law -/

open A20Platform in
/-- THE LAW of `a20`: it reports success only with the gate open, and tries the keyboard
controller after an error, exactly where there is no error and either the BIOS has opened the
gate or the keyboard controller, if it lets `a20_keyboard` come to an end, understands it. -/
theorem a20_reports_iff (f : A20Platform) (gate : Bool) :
    f.Reports gate ↔ ¬ f.Fails (f.asked gate) ∧
      (f.asked gate = true ∨ (f.Ends allWaits 0 → ∀ k < 4, f.taken k = true)) := by
  have outcome := outcome_a20Keyboard (f := f) (s := { gate := f.asked gate }) ⟨rfl, rfl, rfl, rfl⟩
  unfold Reports
  simp only [exec_a20]
  rcases f.answer_cases (f.asked gate) with ⟨fails, nonzero⟩ | ⟨works, zero⟩
  · rw [if_pos nonzero]
    refine iff_of_false (fun reports => ?_) fun h => h.1 fails
    exact absurd ((reports true _ .pure rfl).2 fails) (Nat.lt_irrefl 0)
  · rw [and_iff_right works]
    cases on : f.asked gate with
    | true =>
      rw [on] at works zero
      have nonzero : (f.answer true).eax.toUInt16 ≠ 0 := fun h => by
        have := zero.mp h
        cases this
      rw [if_pos nonzero]
      refine iff_of_true ?_ (.inl rfl)
      rintro r s run -
      obtain ⟨-, rfl⟩ := exec_pure.mp run
      exact ⟨rfl, fun fails => absurd fails works⟩
    | false =>
      rw [on] at works zero outcome
      rw [if_neg (not_not.mpr (zero.mpr rfl)), or_iff_right Bool.false_ne_true, ← understands_iff]
      constructor
      · intro reports ends
        obtain ⟨r, s, run⟩ := outcome.returns.mpr ends
        obtain ⟨success, -, opened⟩ := outcome.post run
        rw [(reports r s run success).1, Bool.or_false] at opened
        exact opened.symm
      · intro understood r s run _
        have ends := outcome.returns.mp ⟨r, s, run⟩
        obtain ⟨-, tried, opened⟩ := outcome.post run
        rw [understood ends] at opened
        exact ⟨opened, fun _ => tried⟩

/-- A BIOS without the functions, which answers AX = 8600h. -/
def unsupportedPlatform : A20Platform where
  sets := false
  answer _ := ⟨0x8600, 0, 0, 0, true⟩
  lawful _ := .inr (by decide)
  status _ := 0
  data _ := 0
  taken _ := true

theorem a20_misreports : ¬ ∀ (f : A20Platform) (gate : Bool), f.Reports gate := by
  intro h
  have fails : unsupportedPlatform.Fails false := by
    unfold A20Platform.Fails
    decide
  exact ((a20_reports_iff unsupportedPlatform false).mp (h _ _)).1 fails

end ToyBootloader
