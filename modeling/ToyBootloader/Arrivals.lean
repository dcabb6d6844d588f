import ToyBootloader.Descriptor
import ToyBootloader.Devices.Pic8259
import ToyBootloader.Pic
import ToyBootloader.Resumption.Vectored

/-!
# What arrives

From `sti` on an interrupt can arrive wherever the main program stands: the controllers name
a vector, the processor goes through the vector's gate to its stub, and the stub calls what
`idt_handlers_32` has for it. The controllers are the two that `init_8259` programs, from
whatever the BIOS has left them in, and the tables are those that `idt` fills.
-/

namespace ToyBootloader

open Resumption

/-- The line of the master that the slave is on. -/
def cascadeLine : Fin 8 := ⟨2, by decide⟩

/-- The controllers, the tables, and the interrupt flag. -/
structure Arrivals where
  pics : Devices.Pair
  tables : IdtTables
  enabled : Bool

namespace Arrivals

/-- The ports of the controllers. -/
def picPorts : List UInt16 := [PIC_MASTER_A, PIC_MASTER_B, PIC_SLAVE_A, PIC_SLAVE_B]

/-- A byte on the bus. -/
def send (port : UInt16) (v : UInt8) (p : Devices.Pair) : Devices.Pair :=
  if port = PIC_MASTER_A then { p with master := p.master.command v }
  else if port = PIC_MASTER_B then { p with master := p.master.data v }
  else if port = PIC_SLAVE_A then { p with slave := p.slave.command v }
  else if port = PIC_SLAVE_B then { p with slave := p.slave.data v }
  else p

/-- What an operation does to all this. -/
def next (s : Arrivals) : Op → Arrivals
  | .outb port v => { s with pics := send port v s.pics }
  | .assign (.gIdt n) bs => { s with tables := s.tables.setGate n bs }
  | .assign .segCs bs =>
    { s with tables := { s.tables with
        segCs := (bs.getD 0 0).toUInt16 ||| ((bs.getD 1 0).toUInt16 <<< 8) } }
  | .setInterrupt n h =>
    { s with tables := { s.tables with
        handlers := Function.update s.tables.handlers n (some h) } }
  | .sti => { s with enabled := true }
  | _ => s

/-- What is read of it. Everything else is answered anything. -/
def Reads (s : Arrivals) : (op : Op) → op.Ans → Prop
  | .inb port, x => (port = PIC_MASTER_B → x = s.pics.master.mask) ∧
      (port = PIC_SLAVE_B → x = s.pics.slave.mask)
  | .fetch .segCs, x => x = selectorBytes s.tables.segCs
  | .fetch (.gIdt n), x => x = s.tables.gates n
  | _, _ => True

def machine : Machine ops Arrivals := fun s op x s' => s.Reads op x ∧ s' = s.next op

/-- The main program and, for each vector and each handler it can have, that handler. A handler
that does not return is not entered: with it the run is over. -/
def system : Vectored ops Arrivals (UInt8 × Handler) where
  main := machine
  isr := machine
  deliver i s s' := s.enabled = true ∧ (Gate.ofBytes (s.tables.gates i.1)).present = true ∧
    s.tables.handlers i.1 = some i.2 ∧ i.2.code.isSome = true ∧
    ∃ pics, s.pics.Acknowledges cascadeLine i.1 pics ∧ s' = { s with pics }
  handler i := i.2.code.getD (return ())

/-- The vectors that have entries in `idt`, but for the processor's own exceptions and for
lines 0 and 8. -/
def arriving : List UInt8 := idtEntries.filter fun v => 0x20 < v && v != 0x28

end Arrivals

end ToyBootloader
