import ToyBootloader.Memory.Fields
import ToyBootloader.Resumption.Waiting
import ToyBootloader.Stage3.Timer

/-!
# How long `sleep` sleeps

Once the counter is assigned, what is in it and the interrupts so far determine one another:
it has come down by one with each tick and is zero after an exit. So the wait is over with
the tick after the last that was asked for, and not before.

That is counted from the assignment. A tick or an exit that comes between the call and the
assignment is lost, and the longest sleep of all assigns zero.
-/

namespace ToyBootloader

open Resumption Memory Code

/-- A word of memory, read as it was written. -/
theorem word32_bytes32 (x : UInt32) : word32 (bytes32 x) = x := by
  have h₁ : (UInt32.toBitVec 8 % 32).toNat = 8 := rfl
  have h₂ : (UInt32.toBitVec 16 % 32).toNat = 16 := rfl
  have h₃ : (UInt32.toBitVec 24 % 32).toNat = 24 := rfl
  apply UInt32.toBitVec_inj.mp
  apply BitVec.eq_of_getLsbD_eq
  intro i hi
  simp only [word32, bytes32, UInt32.toBitVec_or, UInt32.toBitVec_shiftLeft,
    UInt8.toBitVec_toUInt32, UInt32.toBitVec_toUInt8, UInt32.toBitVec_shiftRight,
    BitVec.shiftLeft_eq', BitVec.ushiftRight_eq', h₁, h₂, h₃, BitVec.getLsbD_or,
    BitVec.getLsbD_shiftLeft, BitVec.getLsbD_setWidth, BitVec.getLsbD_ushiftRight]
  grind

namespace Sleeper

variable {i timer : UInt32} {s s' s₀ : Sleeper} {p : Code Unit}

/-! ## What is meant -/

/-- A call that returns has slept its ticks, and one that has slept a tick more returns by
itself. An exit ends every call. -/
def Kept (i : UInt32) (p : Code Unit) (s : Sleeper) : Prop :=
  (p = .pure () → i.toNat ≤ s.ticks ∨ 0 < s.exits) ∧
    (i.toNat + 1 ≤ s.ticks ∨ 0 < s.exits → ∃ s', Exec memory.machine p s () s')

/-- What a call passes, from the state in which it assigns the counter. -/
inductive Passes (i : UInt32) (s : Sleeper) : Code Unit → Sleeper → Prop
  | called : Passes i s (sleep i) s
  | armed {p : Code Unit} {s' : Sleeper} : system.Reach (armed i s) (.main p, s') → Passes i s p s'

/-- No handler takes the counter up. -/
def NeverWraps (c : Control ops Unit × Sleeper) : Prop :=
  ∀ h p s c', system.Reach c (.isr h p, s) → system.Step (.isr h p, s) c' → c'.2.timer ≤ s.timer

/-! ## Steps -/

theorem fetch_iff {x : List UInt8} :
    memory.machine s (.fetch .timer) x s' ↔ x = bytes32 s.timer ∧ s' = s :=
  Simulator.machine_iff rfl

theorem assign_iff {bs : List UInt8} {x : Unit} :
    memory.machine s (.assign .timer bs) x s' ↔ s' = { s with timer := word32 bs } :=
  (Simulator.machine_iff rfl).trans (and_iff_right rfl)

/-- The counter after a tick. -/
def ticked (s : Sleeper) : Sleeper := { s with timer := if s.timer = 0 then 0 else s.timer - 1 }

/-- The counter after an exit. -/
def exited (s : Sleeper) : Sleeper := { s with timer := 0 }

/-- What each handler does. -/
def handled (s : Sleeper) : Interrupt → Sleeper
  | .tick => (s.delivered .tick).ticked
  | .exit => (s.delivered .exit).exited

/-- An operation that does not take the counter up. -/
def lowers (s : Sleeper) : Op → Prop
  | .assign .timer bs => word32 bs ≤ s.timer
  | _ => True

theorem handleTimerInterrupt_eq : handleTimerInterrupt =
    .vis (S := ops) (.fetch .timer) fun bs => if word32 bs ≠ 0
      then (fetch .timer).bind fun bs => assign .timer (bytes32 (word32 bs - 1))
      else .pure () := rfl

theorem toNat_sub_one {x : UInt32} (hx : x ≠ 0) : (x - 1).toNat = x.toNat - 1 := by
  have pos : x.toNat ≠ 0 := UInt32.toNat_inj.not.mpr hx
  exact UInt32.toNat_sub_of_le x 1 (UInt32.le_iff_toNat_le.mpr (Nat.one_le_iff_ne_zero.mpr pos))

theorem follows_handleTimerInterrupt (s : Sleeper) :
    Follows memory.machine lowers handleTimerInterrupt (fun _ t => t = s.ticked) s := by
  rw [handleTimerInterrupt_eq]
  refine ⟨trivial, fun x t h => ?_⟩
  obtain ⟨rfl, rfl⟩ := fetch_iff.mp h
  dsimp only
  rw [word32_bytes32]
  by_cases zero : t.timer = 0
  · have same : t = t.ticked := by rw [ticked, if_pos zero, ← zero]
    rw [if_neg (not_not.mpr zero)]
    exact same
  · rw [if_pos zero, fetch_bind]
    refine ⟨trivial, fun x t' h => ?_⟩
    obtain ⟨rfl, rfl⟩ := fetch_iff.mp h
    have less : t'.timer - 1 ≤ t'.timer := by
      rw [UInt32.le_iff_toNat_le, toNat_sub_one zero]
      exact Nat.sub_le _ _
    dsimp only
    rw [word32_bytes32]
    refine ⟨?_, fun x u h => ?_⟩
    · change word32 (bytes32 _) ≤ _
      rwa [word32_bytes32]
    · rw [assign_iff, word32_bytes32] at h
      rw [ticked, if_neg zero]
      exact h

theorem exec_handleTimerInterrupt (s : Sleeper) :
    Exec memory.machine handleTimerInterrupt s () s.ticked := by
  rw [handleTimerInterrupt_eq]
  refine .vis (fetch_iff.mpr ⟨rfl, rfl⟩) ?_
  rw [word32_bytes32]
  by_cases zero : s.timer = 0
  · have same : s.ticked = s := by rw [ticked, if_pos zero, ← zero]
    rw [if_neg (not_not.mpr zero), same]
    exact .pure
  · rw [if_pos zero, fetch_bind]
    refine .vis (fetch_iff.mpr ⟨rfl, rfl⟩) (.vis (assign_iff.mpr ?_) .pure)
    rw [word32_bytes32, word32_bytes32, ticked, if_neg zero]

theorem follows_handler (v : Interrupt) (s : Sleeper) :
    Follows memory.machine lowers (system.handler v) (fun _ t => t = s.handled v)
      (s.delivered v) := by
  cases v with
  | tick => exact follows_handleTimerInterrupt _
  | exit =>
    refine ⟨UInt32.le_iff_toNat_le.mpr (Nat.zero_le _), fun x t h => ?_⟩
    exact assign_iff.mp h

theorem exec_handler (v : Interrupt) (s : Sleeper) :
    Exec memory.machine (system.handler v) (s.delivered v) () (s.handled v) := by
  cases v with
  | tick => exact exec_handleTimerInterrupt _
  | exit => exact .vis (assign_iff.mpr rfl) .pure

/-! ## The wait -/

theorem settles_fetch : Settles memory.machine (.fetch .timer) (fun s => bytes32 s.timer) id :=
  fun _ _ _ => fetch_iff

/-- The wait is over at once or not at all. -/
theorem exec_untilTimerZero :
    (∃ s', Exec memory.machine untilTimerZero s () s') ↔ s.timer = 0 := by
  constructor
  · rintro ⟨s', run⟩
    obtain ⟨m, first, -⟩ := (exec_poll settles_fetch).mp run
    have here := first.here
    rw [passes, Function.iterate_id, id, word32_bytes32] at here
    exact of_decide_eq_true here
  · intro zero
    refine ⟨s, .hit (fetch_iff.mpr ⟨rfl, rfl⟩) ?_ .pure⟩
    rw [word32_bytes32]
    exact decide_eq_true zero

/-! ## Counting -/

/-- The account of a call that was armed in `s₀`: where it stands, and what is in the
counter. -/
structure Counting (i : UInt32) (s₀ : Sleeper) (p : Code Unit) (s : Sleeper) : Prop where
  stands : p = untilTimerZero ∨ p = .pure () ∧ s.timer = 0
  ticks : s₀.ticks ≤ s.ticks
  exits : s₀.exits ≤ s.exits
  timer : s.timer.toNat =
    if s₀.exits < s.exits then 0 else (i + 1).toNat - (s.ticks - s₀.ticks)

theorem toNat_ticked (s : Sleeper) : s.ticked.timer.toNat = s.timer.toNat - 1 := by
  unfold ticked
  dsimp only
  split
  next zero => rw [zero]; rfl
  next more => exact toNat_sub_one more

/-- A handler keeps the account. -/
theorem Counting.handled (h : Counting i s₀ p s) (v : Interrupt) :
    Counting i s₀ p (s.handled v) := by
  have ticks := h.ticks
  have exits := h.exits
  have count := h.timer
  have stands : ∀ t : Sleeper, (s.timer = 0 → t.timer = 0) →
      p = untilTimerZero ∨ p = .pure () ∧ t.timer = 0 :=
    fun t zero => h.stands.imp_right fun ended => ⟨ended.1, zero ended.2⟩
  cases v with
  | tick =>
    refine ⟨stands _ fun zero => if_pos zero, Nat.le_succ_of_le ticks, exits, ?_⟩
    refine (toNat_ticked _).trans ?_
    change s.timer.toNat - 1 = if s₀.exits < s.exits then 0
      else (i + 1).toNat - (s.ticks + 1 - s₀.ticks)
    rw [count]
    split <;> omega
  | exit =>
    refine ⟨stands _ fun _ => rfl, ticks, Nat.le_succ_of_le exits, ?_⟩
    exact (if_pos (Nat.lt_succ_of_le exits)).symm

/-- So does the call. -/
theorem Counting.step {p' : Code Unit} (h : Counting i s₀ p s)
    (step : Step memory.machine (p, s) (p', s')) : Counting i s₀ p' s' := by
  rcases h.stands with rfl | ⟨rfl, -⟩
  · cases step with
    | hit hm ready =>
      obtain ⟨rfl, rfl⟩ := fetch_iff.mp hm
      dsimp only at ready
      rw [word32_bytes32] at ready
      exact ⟨.inr ⟨rfl, of_decide_eq_true ready⟩, h.ticks, h.exits, h.timer⟩
    | miss hm ready =>
      obtain ⟨rfl, rfl⟩ := fetch_iff.mp hm
      exact h
  · cases step

theorem Counting.start (i : UInt32) (s₀ : Sleeper) :
    Counting i s₀ untilTimerZero { s₀ with timer := i + 1 } := by
  refine ⟨.inl rfl, le_rfl, le_rfl, ?_⟩
  rw [if_neg (Nat.lt_irrefl _), Nat.sub_self]
  rfl

/-- Every run of an armed call keeps the account. -/
theorem counting (run : system.Reach (armed i s₀) (.main p, s)) : Counting i s₀ p s := by
  have delivered : ∀ {p : Prog ops Unit} {v s s'}, Counting i s₀ p s → system.deliver v s s' →
      Follows system.isr lowers (system.handler v) (fun _ => Counting i s₀ p) s' := by
    rintro p v s _ h rfl
    apply (follows_handler v s).mono
    rintro _ _ rfl
    exact h.handled v
  exact system.invariant Counting.step delivered (Counting.start i s₀) run

/-! ## Runs -/

/-- Ticks go on to be handled, whatever the main program waits for. -/
theorem reach_ticks (p : Code Unit) (s : Sleeper) (n : Nat) :
    ∃ t, system.Reach (.main p, s) (.main p, t) ∧ t.ticks = s.ticks + n ∧ t.exits = s.exits ∧
      t.timer.toNat = s.timer.toNat - n := by
  induction n with
  | zero => exact ⟨s, .refl, rfl, rfl, rfl⟩
  | succ n ih =>
    obtain ⟨t, run, ticks, exits, timer⟩ := ih
    have more := Vectored.reach_handled (Y := system) (p := p) rfl (exec_handler .tick t)
    refine ⟨_, run.trans more, congrArg Nat.succ ticks, exits, ?_⟩
    refine (toNat_ticked _).trans ?_
    change t.timer.toNat - 1 = _
    omega

/-- The program that is being run, or is suspended. -/
def program : Control ops Unit → Code Unit
  | .main p => p
  | .isr _ p => p

/-- Every run of a call is still before the assignment or has come by it. -/
theorem reach_cases {c : Control ops Unit × Sleeper} (run : system.Reach (called i timer) c) :
    program c.1 = sleep i ∨
      ∃ s, system.Reach (called i timer) (.main (sleep i), s) ∧ system.Reach (armed i s) c := by
  induction run with
  | refl => exact .inl rfl
  | tail run step ih =>
    rcases ih with before | ⟨s, first, rest⟩
    · cases step with
      | main step =>
        obtain rfl : _ = sleep i := before
        cases step with
        | vis hm =>
          obtain rfl := assign_iff.mp hm
          rw [word32_bytes32]
          exact .inr ⟨_, run, .refl⟩
      | deliver => exact .inl before
      | isr => exact .inl before
      | iret => exact .inl before
    · exact .inr ⟨s, first, rest.tail step⟩

/-- So what a call passes it passes from a state in which it assigns the counter. -/
theorem exists_passes (run : system.Reach (called i timer) (.main p, s')) :
    ∃ s, system.Reach (called i timer) (.main (sleep i), s) ∧ Passes i s p s' := by
  rcases reach_cases run with before | ⟨s, first, rest⟩
  · obtain rfl : p = sleep i := before
    exact ⟨s', run, .called⟩
  · exact ⟨s, first, .armed rest⟩

/-! ## The law -/

/-- What a handler may do leaves the counter where it is or lower. -/
theorem lowers_machine {op : Op} {x : ops.Ans op} (h : lowers s op)
    (hm : memory.machine s op x s') : s'.timer ≤ s.timer := by
  cases op with
  | fetch o =>
    cases o with
    | timer =>
      obtain ⟨-, rfl⟩ := fetch_iff.mp hm
      exact UInt32.le_refl _
    | _ => cases hm
  | assign o bs =>
    cases o with
    | timer =>
      obtain rfl := assign_iff.mp hm
      exact h
    | _ => cases hm
  | _ => cases hm

/-- No handler takes the counter up, in any run. -/
theorem neverWraps (i timer : UInt32) : NeverWraps (called i timer) := by
  intro h p s c' run step
  have delivered : ∀ {v s s'}, system.deliver v s s' →
      Follows system.isr lowers (system.handler v) (fun _ _ => True) s' := by
    rintro v s _ rfl
    exact (follows_handler v s).mono fun _ _ _ => trivial
  have keeps : system.Keeps lowers (fun _ _ => True) (.isr h p, s) :=
    system.invariant (fun _ _ => trivial) (fun _ => delivered) trivial run
  cases step with
  | isr step =>
    obtain ⟨op, x, low, hm⟩ := Follows.ok_step keeps step
    exact lowers_machine low hm
  | iret => exact UInt32.le_refl _

/-! ## The law -/

/-- The calls that keep their time: no interrupt comes before the counter is assigned, and
the sleep is not the longest. For that one the interrupts would have to come early. -/
def Timely (i : UInt32) (s : Sleeper) : Prop :=
  if i = 0xFFFFFFFF then 0 < s.exits ∨ i.toNat ≤ s.ticks else s.ticks = 0 ∧ s.exits = 0

theorem toNat_add_one (hi : i ≠ 0xFFFFFFFF) : (i + 1).toNat = i.toNat + 1 := by
  have ne : i.toNat ≠ 0xFFFFFFFF := UInt32.toNat_inj.not.mpr hi
  have lt := i.toNat_lt
  rw [UInt32.toNat_add]
  exact Nat.mod_eq_of_lt (by change i.toNat + 1 < 2 ^ 32; omega)

/-- An armed call that keeps its account keeps its word. -/
theorem Counting.kept (h : Counting i s₀ p s) (timely : Timely i s₀) : Kept i p s := by
  have ticks := h.ticks
  have exits := h.exits
  have count := h.timer
  have returns : s.timer = 0 → ∃ s', Exec memory.machine p s () s' := by
    intro zero
    rcases h.stands with rfl | ⟨rfl, -⟩
    · exact exec_untilTimerZero.mpr zero
    · exact ⟨s, .pure⟩
  unfold Timely at timely
  by_cases longest : i = 0xFFFFFFFF
  · rw [if_pos longest] at timely
    have assigned : (i + 1).toNat = 0 := by rw [longest]; rfl
    have zero : s.timer = 0 := by
      apply UInt32.toNat_inj.mp
      rw [count, assigned, Nat.zero_sub, ite_self]
      rfl
    exact ⟨fun _ => by omega, fun _ => returns zero⟩
  · rw [if_neg longest] at timely
    rw [toNat_add_one longest] at count
    constructor
    · intro ended
      have zero : s.timer.toNat = 0 := by
        rcases h.stands with rfl | ⟨-, zero⟩
        · cases ended
        · rw [zero]; rfl
      split at count <;> omega
    · intro long
      refine returns (UInt32.toNat_inj.mp ?_)
      rw [count]
      change _ = 0
      split <;> omega

theorem passes_kept_iff (i : UInt32) (s : Sleeper) :
    (∀ p s', Passes i s p s' → Kept i p s') ↔ Timely i s := by
  constructor
  · intro kept
    unfold Timely
    by_cases longest : i = 0xFFFFFFFF
    · rw [if_pos longest]
      -- The counter is assigned zero and the wait is over.
      have zero : i + 1 = 0 := by rw [longest]; rfl
      have ended : system.Reach (armed i s) (.main (.pure ()), { s with timer := i + 1 }) := by
        refine .single (.main (.hit (fetch_iff.mpr ⟨rfl, rfl⟩) ?_))
        dsimp only
        rw [word32_bytes32]
        exact decide_eq_true zero
      exact ((kept _ _ (.armed ended)).1 rfl).symm
    · rw [if_neg longest]
      have assigned := toNat_add_one longest
      have waits : ∀ t, system.Reach (armed i s) (.main untilTimerZero, t) → t.timer.toNat ≠ 0 →
          ¬ (i.toNat + 1 ≤ t.ticks ∨ 0 < t.exits) := by
        intro t run more long
        have zero := exec_untilTimerZero.mp ((kept _ _ (.armed run)).2 long)
        rw [zero] at more
        exact more rfl
      have now := waits { s with timer := i + 1 } .refl (by change (i + 1).toNat ≠ 0; omega)
      -- As many ticks as are missing.
      obtain ⟨t, run, ticks, exits, timer⟩ :=
        reach_ticks untilTimerZero { s with timer := i + 1 } (i.toNat + 1 - s.ticks)
      have later := waits t run
      dsimp only at now ticks exits timer
      omega
  · intro timely p s' passes
    cases passes with
    | armed run => exact (counting run).kept timely
    | called =>
      have unfinished : sleep i ≠ .pure () := nofun
      refine ⟨fun ended => absurd ended unfinished, fun long => ?_⟩
      have armed := (Counting.start i s).kept timely
      obtain ⟨s', run⟩ := armed.2 long
      refine ⟨s', .vis (x := ()) (assign_iff.mpr rfl) ?_⟩
      rw [word32_bytes32]
      exact run

/-- THE LAW of `sleep`: in every run, from the state in which the counter is assigned on, the
call keeps its time exactly where it is timely. The counter never wraps. -/
theorem sleep_keeps_iff (i timer : UInt32) :
    (∀ s, system.Reach (called i timer) (.main (sleep i), s) →
      ((∀ p s', Passes i s p s' → Kept i p s') ↔ Timely i s)) ∧
    (∀ p s', system.Reach (called i timer) (.main p, s') →
      ∃ s, system.Reach (called i timer) (.main (sleep i), s) ∧ Passes i s p s') ∧
    NeverWraps (called i timer) :=
  ⟨fun s _ => passes_kept_iff i s, fun _ _ => exists_passes, neverWraps i timer⟩

/-- The longest sleep returns at once. -/
theorem longest_sleep_is_none : ¬ ∀ (i timer : UInt32) (p : Code Unit) (s : Sleeper),
    system.Reach (called i timer) (.main p, s) → Kept i p s := by
  intro h
  have armed : system.Step (called 0xFFFFFFFF 0) (armed 0xFFFFFFFF ⟨0, 0, 0⟩) := by
    refine .main (.vis (x := ()) (assign_iff.mpr ?_))
    rw [word32_bytes32]
  have ended : system.Step (Sleeper.armed 0xFFFFFFFF ⟨0, 0, 0⟩) (.main (.pure ()), ⟨0, 0, 0⟩) := by
    refine .main (.hit (fetch_iff.mpr ⟨rfl, rfl⟩) ?_)
    decide
  have kept := h 0xFFFFFFFF 0 _ _ (.head armed (.single ended))
  exact absurd (kept.1 rfl) (by decide)

end Sleeper

end ToyBootloader
