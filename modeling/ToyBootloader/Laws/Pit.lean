import ToyBootloader.Memory.Fields
import ToyBootloader.Pit

/-!
# The rate of the timer

`init_timer` divides the input clock by the rate and writes the lower two bytes of the
quotient. The quotient fits into them from 19 interrupts a second on; below that its upper
bits are lost and the timer is too fast. `setup_timer` asks for 10.
-/

namespace ToyBootloader

open Resumption Code Memory

/-! ## Counting -/

namespace Countdown

variable {reload : Nat}

/-- Where the countdown is after so many clocks. -/
theorem iterate_clock (pos : 0 < reload) (k : Nat) :
    clock^[k] (start reload) = ⟨reload, reload - k % reload, k / reload⟩ := by
  induction k with
  | zero => rw [Function.iterate_zero_apply, Nat.zero_mod, Nat.zero_div]; rfl
  | succ k ih =>
    have inside := Nat.mod_lt k pos
    have split := Nat.div_add_mod k reload
    rw [Function.iterate_succ_apply', ih, clock]
    generalize k / reload = q at split ⊢
    generalize k % reload = r at inside split ⊢
    subst split
    dsimp only
    by_cases last : reload - r = 1
    · have round : reload * q + r + 1 = reload * (q + 1) := by
        rw [Nat.mul_succ]
        omega
      rw [if_pos last, round, Nat.mul_mod_right, Nat.mul_div_cancel_left _ pos]
      rfl
    · have further : r + 1 < reload := by omega
      rw [if_neg last, Nat.add_assoc, Nat.mul_add_mod, Nat.mul_add_div pos, Nat.mod_eq_of_lt further,
        Nat.div_eq_of_lt further, Nat.sub_sub]
      rfl

/-- The interrupts are as far apart as the reload value says. -/
theorem every_reload (pos : 0 < reload) : Every reload (start reload) := by
  intro n
  rw [iterate_clock pos, Nat.mul_div_cancel n pos]
  refine ⟨rfl, fun k hk => ?_⟩
  rw [iterate_clock pos]
  exact Nat.div_lt_of_lt_mul (Nat.mul_comm n reload ▸ hk)

end Countdown

/-! ## The reload value -/

namespace Pit

/-- The channel runs with this reload value, and so with an interrupt every so many clocks. -/
def Runs (d : Nat) (p : Pit) : Prop :=
  p.reload = some d ∧ (Countdown.start d).Every d

theorem clocks_pos (low high : UInt8) : 0 < clocks low high := by
  unfold clocks
  dsimp only
  split <;> omega

theorem runs_iff {p : Pit} {low high : UInt8} {d : Nat} (h : p.reload = some (clocks low high)) :
    p.Runs d ↔ clocks low high = d := by
  unfold Runs
  rw [h, Option.some.injEq]
  refine and_iff_left_of_imp ?_
  rintro rfl
  exact Countdown.every_reload (clocks_pos low high)

/-- The two lower bytes of a quotient. -/
theorem clocks_bytes (div : Nat) :
    clocks (UInt8.ofNat (div &&& 0xFF)) (UInt8.ofNat ((div >>> 8) &&& 0xFF)) =
      if div % 65536 = 0 then 65536 else div % 65536 := by
  have low : (UInt8.ofNat (div &&& 0xFF)).toNat = div % 256 := by
    change (div &&& 2 ^ 8 - 1) % 256 = _
    rw [Nat.and_two_pow_sub_one_eq_mod]
    omega
  have high : (UInt8.ofNat ((div >>> 8) &&& 0xFF)).toNat = div / 256 % 256 := by
    change (div >>> 8 &&& 2 ^ 8 - 1) % 256 = _
    rw [Nat.and_two_pow_sub_one_eq_mod, Nat.shiftRight_eq_div_pow]
    omega
  have whole : div % 256 + 256 * (div / 256 % 256) = div % 65536 := by omega
  unfold clocks
  rw [low, high, whole]

theorem sim_control (v : UInt8) (p : Pit) :
    sim p (.outb PIT_CONTROL v) = some ((), p.writeControl v) := rfl

theorem sim_count (v : UInt8) (p : Pit) : sim p (.outb PIT_A v) = some ((), p.writeCount v) := rfl

/-- With the control word 0x36 the lower byte comes first and the upper one completes it. -/
theorem writeCount_writeCount (low high : UInt8) (p : Pit) :
    ((p.writeControl 0x36).writeCount low).writeCount high =
      ⟨0x36, none, some (clocks low high)⟩ := by
  have control : p.writeControl 0x36 = ⟨0x36, none, none⟩ := if_pos (by decide)
  have notLow : ¬ (0x36 : UInt8) &&& 0x30 = 0x10 := by decide
  have notHigh : ¬ (0x36 : UInt8) &&& 0x30 = 0x20 := by decide
  have first : writeCount low ⟨0x36, none, none⟩ = ⟨0x36, some low, none⟩ :=
    (if_neg notLow).trans (if_neg notHigh)
  rw [control, first]
  exact (if_neg notLow).trans (if_neg notHigh)

/-- What `init_timer` leaves, whatever was programmed before. -/
theorem exec_initTimer (hz : Nat) (p : Pit) :
    let div := 1193180 / hz
    Exec sim.machine (initTimer hz) p () ⟨0x36, none, some
      (clocks (UInt8.ofNat (div &&& 0xFF)) (UInt8.ofNat ((div >>> 8) &&& 0xFF)))⟩ := by
  dsimp only
  rw [← writeCount_writeCount _ _ p]
  simp only [initTimer, Prog.bind_eq, outb_bind]
  exact .vis (sim_control _ _) (.vis (sim_count _ _) (.vis (sim_count _ _) .pure))

end Pit

/-! ## The law -/

/-- THE LAW of `init_timer`: of the rates that can be asked for, it programs the timer for those
from 19 interrupts a second on. -/
theorem initTimer_runs_iff {hz : Nat} (pos : 1 ≤ hz) (possible : hz ≤ 1193180) (p : Pit) :
    Pit.sim.Returns (initTimer hz) (fun _ p' => p'.Runs (1193180 / hz)) p ↔ 19 ≤ hz := by
  rw [Simulator.returns_iff (Pit.exec_initTimer hz p), Pit.runs_iff rfl, Pit.clocks_bytes]
  constructor
  · intro same
    apply Nat.le_of_not_lt
    intro slow
    have large : 1193180 / 18 ≤ 1193180 / hz := Nat.div_le_div_left (by omega) pos
    split at same <;> omega
  · intro fast
    have small : 1193180 / hz ≤ 1193180 / 19 := Nat.div_le_div_left fast (by decide)
    have nonzero : 1193180 / 1193180 ≤ 1193180 / hz := Nat.div_le_div_left possible pos
    rw [if_neg (by omega), Nat.mod_eq_of_lt (by omega)]

/-- A thousand interrupts a second. -/
theorem initTimer_runs_fast :
    Pit.sim.Returns (initTimer 1000) (fun _ p' => p'.Runs (1193180 / 1000)) ⟨0, none, none⟩ :=
  (initTimer_runs_iff (by decide) (by decide) _).mpr (by decide)

/-- The 10 a second of `setup_timer` are not to be had: its timer runs at more than twice the rate. -/
theorem setupTimer_runs_wrong : ¬ ∀ (hz : Nat) (p : Pit), 1 ≤ hz → hz ≤ 1193180 →
    Pit.sim.Returns (initTimer hz) (fun _ p' => p'.Runs (1193180 / hz)) p := by
  intro h
  have runs := h 10 ⟨0, none, none⟩ (by decide) (by decide)
  exact absurd ((initTimer_runs_iff (by decide) (by decide) _).mp runs) (by decide)

end ToyBootloader
