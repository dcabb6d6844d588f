import Mathlib.Logic.Function.Iterate
import ToyBootloader.Stage3.Load

/-!
# The interval timer

Channel 0 of the 8253, whose output is the timer interrupt. A control word says which bytes
of the reload value will be written; the value is complete with the last of them, and 0
stands for 65536. From then on the channel counts its input clock down from it, again and
again, with an interrupt at the end of each round.
-/

namespace ToyBootloader

open Resumption Code

/-- Channel 0 as it is programmed: the control word, the lower byte where the upper one is to
follow, and the reload value. -/
structure Pit where
  control : UInt8
  low : Option UInt8
  reload : Option Nat
  deriving DecidableEq, Repr

namespace Pit

/-- What a reload value of 16 bits stands for. -/
def clocks (low high : UInt8) : Nat :=
  let n := low.toNat + 256 * high.toNat
  if n = 0 then 65536 else n

/-- A write to the control port: bits 6 and 7 name the channel, and 0 in bits 4 and 5 only
latches the count. -/
def writeControl (v : UInt8) (p : Pit) : Pit :=
  if v &&& 0xC0 = 0 ∧ v &&& 0x30 ≠ 0 then ⟨v, none, none⟩ else p

/-- A write to the channel: the lower byte, the upper one, or the one after the other. -/
def writeCount (v : UInt8) (p : Pit) : Pit :=
  if p.control &&& 0x30 = 0x10 then { p with reload := some (clocks v 0) }
  else if p.control &&& 0x30 = 0x20 then { p with reload := some (clocks 0 v) }
  else match p.low with
    | none => { p with low := some v }
    | some low => { p with low := none, reload := some (clocks low v) }

/-- The timer as `init_timer` uses it. -/
def sim : Simulator ops Pit := fun p op =>
  match op with
  | .outb port v =>
    some ((), if port = PIT_CONTROL then p.writeControl v
      else if port = PIT_A then p.writeCount v else p)
  | _ => none

end Pit

/-! ## Counting -/

/-- The channel while it counts: the clocks to the next interrupt, and how many interrupts
there have been. -/
structure Countdown where
  reload : Nat
  left : Nat
  interrupts : Nat
  deriving DecidableEq, Repr

namespace Countdown

/-- With a reload value that has just been written. -/
def start (reload : Nat) : Countdown := ⟨reload, reload, 0⟩

/-- One input clock. -/
def clock (c : Countdown) : Countdown :=
  if c.left = 1 then { c with left := c.reload, interrupts := c.interrupts + 1 }
  else { c with left := c.left - 1 }

/-- The `n`th interrupt comes with clock `n * d`, for every `n`. -/
def Every (d : Nat) (c : Countdown) : Prop :=
  ∀ n, (clock^[n * d] c).interrupts = n ∧ ∀ k < n * d, (clock^[k] c).interrupts < n

end Countdown

end ToyBootloader
