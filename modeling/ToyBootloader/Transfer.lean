import ToyBootloader.Controller
import ToyBootloader.Dma
import ToyBootloader.Memory.Bytes

/-!
# A READ through DMA

What a READ moves: the floppy controller offers the bytes of successive sectors to
channel 2, which writes them where its address register points and counts them down.
The transfer is over at terminal count, or when the controller has no sector left to
offer, and then the READ ends abnormally and the channel stays where it stopped.

An 8237 reloads the channel's registers at terminal count in auto-init mode, and
keeps counting otherwise.
-/

namespace ToyBootloader

open Resumption Memory Code

/-! ## The channel -/

namespace Channel

/-- The mode's transfer field says to memory. -/
def toMemory (ch : Channel) : Bool := ch.mode &&& 0x0C == 0x04

def autoInit (ch : Channel) : Bool := testBit ch.mode 4

def decrements (ch : Channel) : Bool := testBit ch.mode 5

/-- The address the next byte goes to. -/
def target (ch : Channel) : Nat := ch.page.toNat * 0x10000 + ch.address.toNat

/-- The registers after a byte. The count is of the bytes to come after the next. -/
def advance (ch : Channel) : Channel :=
  if ch.count = 0 ∧ ch.autoInit then { ch with address := ch.baseAddress, count := ch.baseCount }
  else { ch with address := if ch.decrements then ch.address - 1 else ch.address + 1
                 count := ch.count - 1 }

/-- What a transfer leaves: the channel, memory, and whether it ended at terminal
count. -/
structure Fed where
  channel : Channel
  memory : Mem
  terminalCount : Bool

/-- A device offers bytes to the channel. A masked channel takes none. -/
def feed (ch : Channel) (m : Mem) : List UInt8 → Fed
  | [] => ⟨ch, m, false⟩
  | b :: bs =>
    if ch.masked then ⟨ch, m, false⟩
    else
      let m := if ch.toMemory then m.set ch.target b else m
      if ch.count = 0 then ⟨ch.advance, m, true⟩ else ch.advance.feed m bs

end Channel

/-! ## The READ -/

/-- A disk's bytes, by cylinder, head and sector. -/
abbrev Platter := (cylinder head sector : UInt8) → Nat → UInt8

/-- A sector's 512 bytes. -/
def Platter.sector (disk : Platter) (c h s : UInt8) : List UInt8 :=
  (List.range 0x200).map (disk c h s)

/-- The sectors of a head from `s` to `trackLength`. -/
def trackFrom (h s trackLength : UInt8) : List (UInt8 × UInt8) :=
  (List.range' s.toNat (trackLength.toNat + 1 - s.toNat)).map fun n => (h, UInt8.ofNat n)

/-- The heads and sectors a READ goes through. -/
def sectorsFrom (multitrack : Bool) (h s trackLength : UInt8) : List (UInt8 × UInt8) :=
  trackFrom h s trackLength ++ if multitrack && h == 0 then trackFrom 1 1 trackLength else []

/-- The bytes a READ offers. -/
def Platter.offered (disk : Platter) (multitrack : Bool) (c h s trackLength : UInt8) :
    List UInt8 :=
  (sectorsFrom multitrack h s trackLength).flatMap fun a => disk.sector c a.1 a.2

/-- A READ's result: `st0`, `st1` and `st2`, and the address. One that ran out of
sectors ends abnormally, and `st1` says so too. -/
def readResult (dh c h s n : UInt8) (terminalCount : Bool) : List UInt8 :=
  if terminalCount then [dh &&& 7, 0, 0, c, h, s, n]
  else [0x40 ||| (dh &&& 7), 0x80, 0, c, h, s, n]

/-- A READ the controller performed: the sector asked for, the error the driver
found in its result, and the first 512 bytes of the buffer when it was over. -/
structure ReadDone where
  cylinder : UInt8
  head : UInt8
  sector : UInt8
  error : ErrT := noErr
  buffer : List UInt8

/-- It brought the sector it was asked for, without an error. -/
def ReadDone.Right (disk : Platter) (r : ReadDone) : Prop :=
  r.error = noErr ∧ r.buffer = disk.sector r.cylinder r.head r.sector

/-! ## The machine -/

/-- The geometry of a disk with two heads. -/
structure TwoHeaded where
  sectors : UInt8
  two_le : 2 ≤ sectors.toNat

/-- The DMA controllers, memory, the floppy controller's phase, and the READs it has
performed, the latest first. -/
structure Bench where
  dma : Dma
  memory : Mem
  phase : Phase := .idle
  reads : List ReadDone := []

namespace Bench

/-- The buffer's first 512 bytes. -/
def buffer (m : Mem) : List UInt8 := (List.range 0x200).map fun i => m (TRANSFER_BUFFER + i)

/-- A command is complete. -/
def serve (disk : Platter) (s : Bench) (cmd : List UInt8) : Bench :=
  match cmd with
  | [op, dh, c, h, r, n, trackLength, _, _] =>
    if op &&& 0x1F = FpyCmd.readSect.val then
      let multitrack := op &&& FPY_CMD_EXT_MULTITRACK != 0
      let fed := (s.dma.channels floppyChannel).feed s.memory
        (disk.offered multitrack c h r trackLength)
      { dma := s.dma.on floppyChannel fun _ => fed.channel
        memory := fed.memory
        phase := .ofResult (readResult dh c h r n fed.terminalCount)
        reads := { cylinder := c, head := h, sector := r, buffer := buffer fed.memory } :: s.reads }
    else { s with phase := .ofResult (List.replicate (resultLength op) 0) }
  | _ => { s with phase := .ofResult (List.replicate (resultLength (opcode cmd)) 0) }

/-- A byte is written to the FIFO. -/
def write (disk : Platter) (s : Bench) (b : UInt8) : Bench :=
  match s.phase.completes b with
  | some cmd => s.serve disk cmd
  | none => { s with phase := s.phase.write b [] }

/-- The driver found an error in the result of the latest READ. -/
def note (s : Bench) : Event → Bench
  | .checked (some e) => { s with reads := s.reads.modifyHead fun r => { r with error := some e } }
  | _ => s

/-- The machine. The controller is always ready, and its interrupt is there when it
is waited for. -/
def sim (g : TwoHeaded) (disk : Platter) (drive : UInt8) : Simulator ops Bench := fun s op =>
  match op with
  | .inb port =>
    if port = FPY_MSR then some (s.phase.status, s)
    else if port = FPY_FIFO then
      match s.phase with
      | .command _ => some (0, s)
      | .result b rest => some (b, { s with phase := .ofResult rest })
    else none
  | .outb port v =>
    if port = FPY_FIFO then some ((), s.write disk v)
    else (Dma.ports.lookup port).map fun r => ((), { s with dma := s.dma.write r v })
  | .get .maxHeadNumber => some (2, s)
  | .get .maxSectorNumber => some (g.sectors, s)
  | .get .driveNumber => some (drive, s)
  | .set .fpyIrqHandleState _ | .setReceived _ => some ((), s)
  | .received | .testReceived => some (.ok, s)
  | .load a => some (s.memory a, s)
  | .store a b => some ((), { s with memory := s.memory.set a b })
  | .mark e => some ((), s.note e)
  | _ => none

end Bench

/-- A call of `fpy_copy_bytes`. -/
structure CopyCall where
  sector : UInt8
  dest : Nat
  count : Int

namespace CopyCall

def code (c : CopyCall) : Code Unit := do
  let _ ← fpyCopyBytes c.sector c.dest c.count
  return ()

/-- The sectors the call reads. -/
def Reads (c : CopyCall) (sector : UInt8) : Prop :=
  ∃ k : Nat, 0x200 * (k : Int) < c.count ∧ sector = c.sector + UInt8.ofNat k

/-- The DMA set-up of stage 3, and copies through it. -/
def throughDma (copies : List CopyCall) : Code Unit := do
  floppyDma
  floppyDmaSetupRead
  copies.forM CopyCall.code

end CopyCall

end ToyBootloader
