import ToyBootloader.Resumption.Always
import ToyBootloader.Stage2.Tasks

/-!
# The A20 gate

The gate, and the two that can open it: the BIOS, which may or may not, and the keyboard
controller. The controller is seen through two ports. Reads of 0x64 answer a stream of
statuses (bit 0: a byte to be read at 0x60, bit 1: a byte written that it has not taken yet)
and reads of 0x60 a stream of bytes. Command 0xD1 makes bit 1 of the byte that is then written
to 0x60 the gate.

A write is lost on a controller that has not taken the one before, and what comes after a lost
one is not understood. A status says whether it has. Without one since the last access it may
or may not have.
-/

namespace ToyBootloader

open Resumption Code

/-- What passes on the keyboard controller's ports. -/
inductive PortAccess where
  /-- Port 0x64 was read. -/
  | status (v : UInt8)
  /-- Port 0x60 was read. -/
  | data (v : UInt8)
  | write (port : UInt16) (v : UInt8)
  deriving DecidableEq, Repr

/-- A BIOS and a keyboard controller. -/
structure A20Platform where
  /-- INT 15h AX=2401h opens the gate. -/
  sets : Bool
  /-- What INT 15h AX=2402h answers with the gate closed or open. -/
  answer : Bool → Regs32
  /-- It answers whether the gate is open, or an error in AH. -/
  lawful : ∀ gate, (answer gate).eax.toUInt16 = (if gate then 1 else 0) ∨
    (answer gate).eax.toUInt16 >>> 8 ≠ 0
  status : Nat → UInt8
  data : Nat → UInt8
  /-- The controller has taken what was written before the `n`th write, unless a status has
  said so. -/
  taken : Nat → Bool

/-- The gate, whether all that was written has been understood, whether the next byte at 0x60
is for the gate, how much has been read and written, and what has passed, newest first. -/
structure A20State where
  gate : Bool
  understood : Bool := true
  expecting : Bool := false
  statuses : Nat := 0
  bytes : Nat := 0
  writes : Nat := 0
  log : List PortAccess := []
  deriving DecidableEq, Repr

namespace A20Platform

variable (f : A20Platform)

/-- A status is read. -/
def look (s : A20State) : A20State :=
  { s with statuses := s.statuses + 1, log := .status (f.status s.statuses) :: s.log }

/-- A byte is read. -/
def take (s : A20State) : A20State :=
  { s with bytes := s.bytes + 1, log := .data (f.data s.bytes) :: s.log }

/-- A write now finds the input buffer empty. -/
def inputEmpty (s : A20State) : Bool :=
  f.taken s.writes || match s.log with
    | .status v :: _ => v &&& 2 = 0
    | _ => false

/-- A byte is written to one of the ports. -/
def write (port : UInt16) (v : UInt8) (s : A20State) : A20State :=
  let understood := s.understood && f.inputEmpty s
  { s with
    gate := if understood && s.expecting && port = 0x60 then v &&& 2 ≠ 0 else s.gate
    understood
    expecting := port = 0x64 && v = 0xD1
    writes := s.writes + 1
    log := .write port v :: s.log }

/-- The platform answers. -/
def sim : Simulator ops A20State := fun s op =>
  match op with
  | .int15 r =>
    if r.eax.toUInt16 = 0x2401 then some (r, { s with gate := s.gate || f.sets })
    else if r.eax.toUInt16 = 0x2402 then some (f.answer s.gate, s)
    else none
  | .inb port =>
    if port = 0x64 then some (f.status s.statuses, f.look s)
    else if port = 0x60 then some (f.data s.bytes, f.take s)
    else none
  | .outb port v => if port = 0x64 ∨ port = 0x60 then some ((), f.write port v s) else none
  | _ => none

end A20Platform

end ToyBootloader
