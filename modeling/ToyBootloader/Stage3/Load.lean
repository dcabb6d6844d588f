import ToyBootloader.Stage1.Boot
import ToyBootloader.Stage2.Tasks
import ToyBootloader.Stage3.Floppy
import ToyBootloader.LoaderProtected.Load

/-!
# Stage 3

`stage3_start`, `stage3_load` and the tasks the linker gathers for it: `idt.c`,
`breakpoint.c`, `timer.c` and `floppy.c` first, as `stage3/linker.ld` names
them, then `copy_stage4.c`.

With this the boot is closed: `boot` is everything from `main_asm` to the entry
of stage 4.
-/

namespace ToyBootloader

open Code

/-! ## `idt.c` -/

/-- The vectors of `X_IDT_ENTRIES`. -/
def idtEntries : List UInt8 :=
  [0, 1, 2, 3, 4, 5, 6, 7, 8, 9, 10, 11, 12, 13, 14, 15, 16, 17, 18, 19, 20,
    32, 33, 35, 36, 37, 38, 39, 40, 41, 42, 43, 44, 45, 46, 47]

/-- `IS_INTERRUPT(E)` -/
def isInterrupt (e : UInt8) : Bool := e == 2 || (e ≥ 32 && e ≤ 255)

/-- The eight bytes of the `struct idt_event` that `idt_set` writes: `p` is 1
and `dpl` is 0. -/
def idtEvent (n : UInt8) (offset : UInt32) (selector : List UInt8) : List UInt8 :=
  let flag : UInt16 := if isInterrupt n then 0x70 else 0x78
  let word : UInt16 := (flag <<< 5) ||| 0x8000
  [offset.toUInt8, (offset >>> 8).toUInt8] ++ selector
    ++ [word.toUInt8, (word >>> 8).toUInt8, (offset >>> 16).toUInt8, (offset >>> 24).toUInt8]

/-- `idt_set` -/
def idtSet (n : UInt8) (offset : UInt32) (selector : List UInt8) : Code Unit :=
  assign (.gIdt n) (idtEvent n offset selector)

/-- One entry of `idt`: the gate, to the stub's address, and the handler. -/
def idtEntry (stub : UInt8 → UInt32) (n : UInt8) : Code Unit := do
  let selector ← fetch .segCs
  assign (.gIdt n) (idtEvent n (stub n) selector)
  setInterrupt n .interruptPanic

/-- `idt`, with the addresses of `idt_entry_32_N`. -/
def idt (stub : UInt8 → UInt32) : Code Unit := idtEntries.forM (idtEntry stub)

def PIC_MASTER_A : UInt16 := 0x20
def PIC_MASTER_B : UInt16 := 0x21
def PIC_SLAVE_A : UInt16 := 0xA0
def PIC_SLAVE_B : UInt16 := 0xA1

/-- The port and the line number `irq_mask` and `irq_unmask` choose. -/
def irqPort (line : UInt8) : UInt16 × UInt8 :=
  if line > 8 then (PIC_MASTER_B, line) else (PIC_SLAVE_B, line - 8)

/-- `1 << line` for an `int`, by the processor's shift, which takes the count
modulo 32. -/
def irqBit (line : UInt8) : UInt8 := ((1 : UInt32) <<< line.toUInt32).toUInt8

/-- `irq_mask` -/
def irqMask (line : UInt8) : Code Unit := do
  let curr ← inb (irqPort line).1
  outb (irqPort line).1 (curr ||| irqBit (irqPort line).2)

/-- `irq_unmask` -/
def irqUnmask (line : UInt8) : Code Unit := do
  let curr ← inb (irqPort line).1
  outb (irqPort line).1 (curr &&& ~~~ irqBit (irqPort line).2)

/-- `init_8259` -/
def init8259 : Code Unit := do
  outb PIC_MASTER_A 0x11
  outb PIC_SLAVE_A 0x11
  outb PIC_MASTER_B 0x20
  outb PIC_SLAVE_B 0x28
  outb PIC_MASTER_B 0x04
  outb PIC_SLAVE_B 0x02
  outb PIC_MASTER_B 0x01
  outb PIC_SLAVE_B 0x01
  outb PIC_MASTER_B 0x01
  outb PIC_SLAVE_B 0x01
  sti

/-! ## `breakpoint.c` and `timer.c` -/

/-- `breakpoint_instr` -/
def breakpointInstr : Code Unit := setInterrupt 3 .handleInt3

def TIMER_INT : UInt8 := 32
def PIT_A : UInt16 := 0x40
def PIT_CONTROL : UInt16 := 0x43

/-- `handle_timer_interrupt` -/
def handleTimerInterrupt : Code Unit := do
  if word32 (← fetch .timer) ≠ 0 then
    assign .timer (bytes32 (word32 (← fetch .timer) - 1))

/-- `init_timer` -/
def initTimer (hz : Nat) : Code Unit := do
  let div := 1193180 / hz
  outb PIT_CONTROL 0x36
  outb PIT_A (UInt8.ofNat (div &&& 0xFF))
  outb PIT_A (UInt8.ofNat ((div >>> 8) &&& 0xFF))

/-- `setup_timer` -/
def setupTimer : Code Unit := do
  setInterrupt TIMER_INT .handleTimerInterrupt
  initTimer 10
  irqUnmask 0

/-! ## `copy_stage4.c` and `load.c` -/

/-- `copy_stage4`: an error is printed, and the task is over all the same. -/
def copyStage4 (L : Sizes) : Code Unit := do
  let _ ← fpyCopyPart L .loaderProtected
  return ()

/-- `memreset(s, e)`; the linker places `e` at or after `s`. -/
def memreset (s e : Nat) : Code Unit := clearBytes s (e - s)

/-- `stage3_load`: its `.bss`, every task of `.stage3.init` in turn, and
load_protected. -/
def stage3Load (L : Sizes) (stub : UInt8 → UInt32) : Code Unit := do
  memreset L.stage3BssStart L.stage3BssEnd
  idt stub
  init8259
  breakpointInstr
  setupTimer
  floppyInit
  floppyDma
  floppyDmaSetupRead
  floppyTest
  floppyTest
  copyStage4 L
  mark (.enter .loaderProtected)
  loadProtected L

/-- `stage3_start`: protected mode is enabled, the segment registers are loaded
from the shared objects, and `stage3_load` is called. -/
def stage3Start (L : Sizes) (stub : UInt8 → UInt32) : Code Unit := do
  setCrBit 0 0
  let _ ← fetch .segDs
  let _ ← fetch .segSs
  let _ ← fetch .segEs
  let _ ← fetch .segFs
  let _ ← fetch .segGs
  let _ ← fetch .segCs
  stage3Load L stub

/-- The boot, from `main_asm` to stage 4. -/
def boot (L : Sizes) (stub : UInt8 → UInt32) (dl : UInt8) : Code Unit :=
  mainAsm L dl stage2Load (stage3Start L stub)

end ToyBootloader
