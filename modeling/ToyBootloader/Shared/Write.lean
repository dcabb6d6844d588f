import Mathlib.Data.List.Defs

/-!
# The serial port

`write.c` of stage 3, of stage 4 and of the protected-mode loader: three copies, of which
stage 3's differs in `setbr` and in `write`. The port answers reads of its line status with
what comes next in `lines`, and a call that needs one more does not return. What a call
finds at its pointer is the list it is given; a string is that list up to the first zero.
-/

namespace ToyBootloader

/-- `com1` -/
def COM1 : UInt16 := 0x3F8

/-- `is_init` of one of the copies, and the port: the line control register, the line statuses
to come, and what has been written, in order. -/
structure Uart where
  isInit : Bool
  lcr : UInt8
  lines : List UInt8
  written : List (UInt16 × UInt8)
  deriving DecidableEq, Repr

/-- Code that talks to the port. It returns or it waits for ever. -/
abbrev Serial := StateT Uart Option

namespace Serial

/-- `do_outb` -/
def outb (port : UInt16) (val : UInt8) : Serial Unit := fun u =>
  some ((), { u with
    lcr := if port = COM1 + 3 then val else u.lcr
    written := u.written ++ [(port, val)] })

/-- `do_inb(com1 + 3)` -/
def inbLcr : Serial UInt8 := fun u => some (u.lcr, u)

/-- `do_inb(com1 + 5)` -/
def inbLsr : Serial UInt8 := fun u => match u.lines with
  | [] => none
  | lsr :: lines => some (lsr, { u with lines })

/-- `setbr` -/
def setbr : Serial Unit := do
  let brateh : UInt8 := 0x00
  let bratel : UInt8 := 0x03
  let lcr ← inbLcr
  -- Set DivisorLatchAccessBit
  outb (COM1 + 3) (lcr ||| 0x80)
  outb (COM1 + 0) bratel
  outb (COM1 + 1) brateh
  -- Set Noparity
  outb (COM1 + 3) (lcr &&& ~~~(0x80 ||| 0x38))

/-- `if (!is_init) { is_init = 1; setbr(com1); }` -/
def init (setbr : Serial Unit) : Serial Unit := do
  unless (← get).isInit do
    modify fun u => { u with isInit := true }
    setbr

/-- One character sent without waiting. -/
def send (c : UInt8) : Serial Unit := do
  if c = '\n'.toUInt8 then outb COM1 '\r'.toUInt8
  outb COM1 c

/-- What is returned once all has been sent. -/
def finish (sent : Int32) : Serial Int32 := do
  let lsr ← inbLsr
  if lsr &&& 0xE ≠ 0 then return -1 else return sent

/-- `write`, of `count` of the bytes at `buf`. -/
def writeWith (setbr : Serial Unit) (send : UInt8 → Serial Unit) (buf : List UInt8) (count : Nat) :
    Serial Int32 := do
  init setbr
  (buf.take count).forM send
  finish (Int32.ofNat count)

/-- `puts`, of the string at `s`. -/
def putsWith (setbr : Serial Unit) (s : List UInt8) : Serial Int32 := do
  init setbr
  (s.takeWhile (· ≠ 0)).forM send
  finish 1

/-- `while (!(do_inb(com1 + 5) & 0x20)) do_outb(com1, c);`, over the statuses to come: those
that are left at its end and what has been written. -/
def whileBusyLoop (c : UInt8) : List UInt8 → List (UInt16 × UInt8) →
    Option (List UInt8 × List (UInt16 × UInt8))
  | [], _ => none
  | lsr :: lines, written =>
    if lsr &&& 0x20 = 0 then whileBusyLoop c lines (written ++ [(COM1, c)])
    else some (lines, written)

/-- The same loop, of a port. -/
def whileBusy (c : UInt8) : Serial Unit := fun u =>
  (whileBusyLoop c u.lines u.written).map fun (lines, written) => ((), { u with lines, written })

/-- One character in stage 3's `write`. -/
def sendWhileBusy (c : UInt8) : Serial Unit := do
  if c = '\n'.toUInt8 then whileBusy '\r'.toUInt8
  whileBusy c

end Serial

open Serial

/-! ## The three copies -/

namespace Stage3

/-- `setbr` -/
def setbr : Serial Unit := do
  Serial.setbr
  -- Enable FIFO
  outb (COM1 + 2) 0xC7

/-- `write` -/
def write (buf : List UInt8) (count : Nat) : Serial Int32 := writeWith setbr sendWhileBusy buf count

/-- `puts` -/
def puts (s : List UInt8) : Serial Int32 := putsWith setbr s

end Stage3

namespace Stage4

/-- `write` -/
def write (buf : List UInt8) (count : Nat) : Serial Int32 := writeWith setbr send buf count

/-- `puts` -/
def puts (s : List UInt8) : Serial Int32 := putsWith setbr s

end Stage4

namespace LoaderProtected

/-- `write` -/
def write (buf : List UInt8) (count : Nat) : Serial Int32 := writeWith setbr send buf count

/-- `puts` -/
def puts (s : List UInt8) : Serial Int32 := putsWith setbr s

end LoaderProtected

end ToyBootloader
