import ToyBootloader.Resumption.Simulate
import ToyBootloader.Stage3.Load

/-!
# The interrupt controllers

The two halves of the 8259s the boot code depends on.

* The mask registers, one bit per line, at `PIC_MASTER_B` for lines 0 to 7 and at
  `PIC_SLAVE_B` for lines 8 to 15: what `irq_mask` and `irq_unmask` write.
* The master's in-service register: a delivery sets the line's bit, and a line is
  blocked while its own bit or one of a higher priority is set. Only an end of
  interrupt, which some handler has to write, clears a bit.
-/

namespace ToyBootloader

open Resumption Code

/-! ## The mask registers -/

/-- The two mask registers. -/
structure Masks where
  master : UInt8
  slave : UInt8
  deriving DecidableEq, Repr

namespace Masks

/-- The registers on the bus. -/
def sim : Simulator ops Masks := fun s op =>
  match op with
  | .inb port =>
    if port = PIC_MASTER_B then some (s.master, s)
    else if port = PIC_SLAVE_B then some (s.slave, s)
    else none
  | .outb port v =>
    if port = PIC_MASTER_B then some ((), { s with master := v })
    else if port = PIC_SLAVE_B then some ((), { s with slave := v })
    else none
  | _ => none

/-- The line's bit. -/
def masked (s : Masks) (line : Fin 16) : Bool :=
  if line.val < 8 then s.master.toBitVec.getLsbD line else s.slave.toBitVec.getLsbD (line - 8)

end Masks

/-- A call of `irq_mask` or of `irq_unmask`. -/
structure IrqCall where
  line : Fin 16
  masks : Bool
  deriving DecidableEq, Repr

/-- The call's code. -/
def IrqCall.code (c : IrqCall) : Code Unit :=
  if c.masks then irqMask (UInt8.ofNat c.line) else irqUnmask (UInt8.ofNat c.line)

/-- What the calls made of a line ask for: the last of them decides, and what was
there before when none is about the line. -/
def asked (line : Fin 16) (before : Bool) : List IrqCall → Bool
  | [] => before
  | c :: cs => asked line (if c.line = line then c.masks else before) cs

/-! ## The in-service register -/

/-- The master's in-service register, a bit for each line. Line 0 has the highest
priority. -/
abbrev InService := Fin 8 → Bool

namespace InService

/-- No interrupt is in service. -/
def idle : InService := fun _ => false

/-- The line waits for one of its own or a higher priority. -/
def Blocked (s : InService) (n : Fin 8) : Prop := ∃ m ≤ n, s m = true

instance (s : InService) (n : Fin 8) : Decidable (s.Blocked n) :=
  inferInstanceAs (Decidable (∃ m, m ≤ n ∧ s m = true))

/-- An interrupt of the line is delivered. -/
def deliver (s : InService) (n : Fin 8) : InService := fun m => s m || decide (m = n)

/-- A non-specific end of interrupt: the set bit of the highest priority is
cleared, which is the one with no set bit above it. -/
def eoi (s : InService) : InService := fun n => s n && decide (∃ m < n, s m = true)

end InService

/-! ## The handlers -/

/-- The lines stage 3 calls `set_interrupt` for. -/
inductive IrqLine where
  | timer
  | floppy
  deriving DecidableEq, Repr

/-- The line's number on the master. -/
def IrqLine.irq : IrqLine → Fin 8
  | .timer => ⟨0, by decide⟩
  | .floppy => ⟨6, by decide⟩

/-- The vector `init_8259` gives the line. -/
def IrqLine.vector (l : IrqLine) : UInt8 := 0x20 + UInt8.ofNat l.irq

/-- What `call *%eax` of the entry stub runs. `interrupt_panic` is not here: it
prints and stays in `for(;;)`. -/
def Handler.code : Handler → Option (Code Unit)
  | .interruptPanic => none
  | .handleInt3 => some (return ())
  | .handleTimerInterrupt => some ToyBootloader.handleTimerInterrupt
  | .fpyInterruptHandler => some ToyBootloader.fpyInterruptHandler

/-- `idt_handlers_32`. -/
abbrev Vectors := UInt8 → Handler

namespace Vectors

/-- What an operation does to the table. -/
def next (t : Vectors) : Op → Vectors
  | .setInterrupt n h => fun m => if m = n then h else t m
  | _ => t

/-- The table beside a machine that answers anything. -/
def machine : Machine ops Vectors := Recorder fun t op _ => t.next op

/-- The table stage 3 runs with, once its tasks have called `set_interrupt`. -/
def stage3 : Vectors := fun n =>
  if n = FLOPPY_IRQ then .fpyInterruptHandler
  else if n = TIMER_INT then .handleTimerInterrupt
  else if n = 3 then .handleInt3
  else .interruptPanic

end Vectors

/-! ## The processor taking interrupts -/

/-- The in-service register, the table, and the lines delivered so far, the last
first. -/
structure Cpu8259 where
  vectors : Vectors
  inService : InService := .idle
  delivered : List IrqLine := []

namespace Cpu8259

/-- A handler's operations: the write of `0x20` to port `0x20` is the end of
interrupt, every other one leaves the register alone and is answered anything. -/
def machine : Machine ops Cpu8259 := Recorder fun s op _ =>
  match op with
  | .outb port v =>
    if port = PIC_MASTER_A ∧ v = 0x20 then { s with inService := s.inService.eoi } else s
  | _ => s

/-- One step of the interrupts: what is left of the handler that is running, if
one is. The gates and the stub's `cli` keep a handler from being interrupted.
The program under the handlers is no party to this: once interrupts are on it
writes neither the register nor these two vectors, and what it leaves in the
globals the handlers are answered anyway. -/
inductive Step : Option (Code Unit) × Cpu8259 → Option (Code Unit) × Cpu8259 → Prop
  /-- A line that is not blocked is delivered, and the stub of its vector calls
  what the table has there. -/
  | deliver {s h} (l : IrqLine) : ¬ s.inService.Blocked l.irq →
      (s.vectors l.vector).code = some h →
      Step (none, s) (some h, { s with inService := s.inService.deliver l.irq
                                       delivered := l :: s.delivered })
  /-- The handler performs an operation. -/
  | run {h h' s s'} : Resumption.Step machine (h, s) (h', s') → Step (some h, s) (some h', s')
  /-- The handler returns to the stub, and the stub with `iret`. -/
  | iret {s} : Step (some (.pure ()), s) (none, s)

/-- Any number of steps. -/
abbrev Reach (c c' : Option (Code Unit) × Cpu8259) : Prop := Relation.ReflTransGen Step c c'

end Cpu8259

end ToyBootloader
