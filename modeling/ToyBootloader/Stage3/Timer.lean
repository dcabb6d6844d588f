import ToyBootloader.Resumption.Vectored
import ToyBootloader.Stage3.Load

/-!
# Sleeping

`sleep` and `sleep_exit` of `timer.c`, over the counter that the timer's handler takes down,
and the interrupts that may come between any two of `sleep`'s steps: the timer's, and those
whose handlers call `sleep_exit`.
-/

namespace ToyBootloader

open Resumption Code

/-- `while (timer);` -/
def untilTimerZero : Code Unit := do
  let _ ← Prog.spin (S := ops) (.fetch .timer) fun bs => word32 bs = 0

/-- `sleep` -/
def sleep (i : UInt32) : Code Unit := do
  assign .timer (bytes32 (i + 1))
  untilTimerZero

/-- `sleep_exit` -/
def sleepExit : Code Unit := assign .timer (bytes32 0)

/-- The counter, and how often each of the interrupts has come. -/
structure Sleeper where
  timer : UInt32
  ticks : Nat
  exits : Nat
  deriving DecidableEq, Repr

namespace Sleeper

/-- The interrupts. -/
inductive Interrupt where
  | tick
  | exit
  deriving DecidableEq, Repr

/-- The counter in memory. -/
def memory : Simulator ops Sleeper := fun s op =>
  match op with
  | .fetch .timer => some (bytes32 s.timer, s)
  | .assign .timer bs => some ((), { s with timer := word32 bs })
  | _ => none

/-- One interrupt more. -/
def delivered (s : Sleeper) : Interrupt → Sleeper
  | .tick => { s with ticks := s.ticks + 1 }
  | .exit => { s with exits := s.exits + 1 }

/-- A sleeping program and its interrupts. -/
def system : Vectored ops Sleeper Interrupt where
  main := memory.machine
  isr := memory.machine
  deliver i s s' := s' = s.delivered i
  handler
    | .tick => handleTimerInterrupt
    | .exit => sleepExit

/-- A call of `sleep`, whatever is left in the counter. -/
def called (i timer : UInt32) : Control ops Unit × Sleeper := (.main (sleep i), ⟨timer, 0, 0⟩)

/-- The counter assigned, and the wait to come. -/
def armed (i : UInt32) (s : Sleeper) : Control ops Unit × Sleeper :=
  (.main untilTimerZero, { s with timer := i + 1 })

end Sleeper

end ToyBootloader
