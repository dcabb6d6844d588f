import ToyBootloader.Descriptor
import ToyBootloader.Ia32.Modes
import ToyBootloader.Resumption.Detail
import ToyBootloader.Stage4.Load
import ToyBootloader.Stage5.Start

/-!
# The boot as the processor runs it

What the C functions do not say: what size each piece of code is assembled for, what is loaded
into the segment registers, where, and when the descriptor table is made known. The pieces of
assembly say it. Written out with them, the boot is a program for a processor that has modes.

The processor here faults on a segment register or a control register that a real one refuses to
load, on a call of the BIOS outside of real mode, and on code that was assembled for another size
than the one it is in. Whether an address is inside of its segment is not followed, and of the
descriptors that are loaded the accessed bit is not. What the devices and the BIOS answer is
anything.
-/

namespace ToyBootloader

open Resumption Code Ia32

/-- The segment registers. -/
inductive SegReg where
  | cs | ss | ds | es | fs | gs
  deriving DecidableEq, Repr

/-- The object that a segment register is loaded from. -/
def SegReg.obj : SegReg → Obj
  | .cs => .segCs
  | .ss => .segSs
  | .ds => .segDs
  | .es => .segEs
  | .fs => .segFs
  | .gs => .segGs

/-- The instructions that the operations leave out. A load of `cs` is a far jump or a far
return. -/
inductive Instr where
  | loadValue (w : Width) (r : SegReg) (selector : UInt16)
  | loadObj (w : Width) (r : SegReg)
  | lgdt (w : Width)
  deriving DecidableEq

/-- The operations, each with the size its code is assembled for, and those instructions. -/
abbrev instrs : Sig := ops.detailed Width Instr

abbrev Asm (α : Type) := Prog instrs α

/-! ## The processor -/

/-- A selector in two bytes. -/
def selectorOf (bs : List UInt8) : UInt16 :=
  (bs.getD 0 0).toUInt16 ||| ((bs.getD 1 0).toUInt16 <<< 8)

/-- The control registers, the segments as they are cached, the descriptor table and whether it
is known, the objects the selectors are in, and what `rdmsr` has left in `ecx`. -/
structure Processor where
  controls : Controls
  cache : SegReg → Segment
  gdt : Nat → List UInt8
  known : Bool
  selectors : SegReg → List UInt8
  msr : Option UInt32

/-- EFER, among the model-specific registers. -/
def EFER : UInt32 := 0xC0000080

/-- The segment of a selector that is null. -/
def Segment.null : Segment where
  base := 0
  limit := 0
  accessed := false
  readWrite := false
  conforming := false
  executable := false
  codeOrData := false
  privilege := 0
  present := false
  available := false
  long := false
  big := false
  granular := false

/-- What a descriptor has to be for a register, at privilege 0. -/
def Segment.Loadable (d : Segment) (long : Bool) (rpl : Nat) : SegReg → Prop
  | .cs => d.present ∧ d.codeOrData ∧ d.executable ∧ d.privilege = 0 ∧ rpl = 0 ∧
      ¬(long ∧ d.long ∧ d.big)
  | .ss => d.present ∧ d.codeOrData ∧ d.executable = false ∧ d.readWrite ∧ d.privilege = 0 ∧ rpl = 0
  | _ => d.present ∧ d.codeOrData ∧ (d.executable → d.readWrite) ∧
      (rpl ≤ d.privilege ∨ d.executable ∧ d.conforming)

instance (d : Segment) (long : Bool) (rpl : Nat) (r : SegReg) : Decidable (d.Loadable long rpl r) := by
  cases r <;> unfold Segment.Loadable <;> infer_instance

namespace Processor

/-- Protected mode. -/
def protected_ (s : Processor) : Bool := s.controls.val.protection

/-- What size code is taken for. -/
def width (s : Processor) : Width := s.controls.val.width (s.cache .cs).long (s.cache .cs).big

/-- A segment register loaded with a selector: in real mode it is the base, and in protected mode
it names one of the table's four descriptors. -/
def load (s : Processor) (r : SegReg) (selector : UInt16) : Option Processor :=
  let n := selector.toNat
  if s.protected_ then
    if n / 4 = 0 then
      if r = .cs ∨ r = .ss then none
      else some { s with cache := Function.update s.cache r .null }
    else
      let d := Segment.ofBytes (s.gdt (n / 8))
      if s.known ∧ n / 4 % 2 = 0 ∧ n / 8 < 4 ∧ d.Loadable s.controls.val.longActive (n % 4) r then
        some { s with cache := Function.update s.cache r d }
      else none
  else some { s with cache := Function.update s.cache r { s.cache r with base := 16 * n } }

/-- The control register that an operation names. -/
def controlReg : Nat → Option ControlReg
  | 0 => some .cr0
  | 3 => some .cr3
  | 4 => some .cr4
  | _ => none

def write (s : Processor) (r : ControlReg) (x : UInt32) : Option Processor :=
  (s.controls.write (s.cache .cs).long r x).map fun controls => { s with controls }

/-- What an operation does, where it does not fault. The BIOS is there in real mode only. -/
def perform (s : Processor) : Op → Option Processor
  | .int13 _ | .int15 _ => if s.protected_ then none else some s
  | .writeCr n x => (controlReg n).bind fun r => s.write r x
  | .readCr n => (controlReg n).map fun _ => s
  | .rdmsr n => some { s with msr := some n }
  | .wrmsr x => if s.msr = some EFER then s.write .efer x else none
  | .assign (.gdt i) bs => some { s with gdt := Function.update s.gdt i bs }
  | .assign .segCs bs => some { s with selectors := Function.update s.selectors .cs bs }
  | .assign .segSs bs => some { s with selectors := Function.update s.selectors .ss bs }
  | .assign .segDs bs => some { s with selectors := Function.update s.selectors .ds bs }
  | .assign .segEs bs => some { s with selectors := Function.update s.selectors .es bs }
  | .assign .segFs bs => some { s with selectors := Function.update s.selectors .fs bs }
  | .assign .segGs bs => some { s with selectors := Function.update s.selectors .gs bs }
  | _ => some s

/-- What is read of the processor. Everything else is answered anything. -/
def Reads (s : Processor) : (op : Op) → op.Ans → Prop
  | .readCr n, x => ∀ r, controlReg n = some r → x = s.controls.val.read r
  | .rdmsr n, x => n = EFER → x = s.controls.val.efer
  | .fetch (.gdt i), bs => bs = s.gdt i
  | _, _ => True

/-- The size that an instruction is assembled for. -/
def assembledFor : instrs.Op → Width
  | .base w _ | .more (.loadValue w _ _) | .more (.loadObj w _) | .more (.lgdt w) => w

/-- What an instruction does, in code of the right size. -/
def execute (s : Processor) : instrs.Op → Option Processor
  | .base _ op => s.perform op
  | .more (.loadValue _ r selector) => s.load r selector
  | .more (.loadObj _ r) => s.load r (selectorOf (s.selectors r))
  | .more (.lgdt _) => some { s with known := true }

/-- One instruction. -/
def next (s : Processor) (i : instrs.Op) : Option Processor :=
  if assembledFor i = s.width then s.execute i else none

def Answers (s : Processor) : (i : instrs.Op) → instrs.Ans i → Prop
  | .base _ op, x => s.Reads op x
  | .more _, _ => True

def machine : Machine instrs Processor := fun s i x s' => s.Answers i x ∧ s.next i = some s'

end Processor

/-! ## The boot -/

section Boot

variable (L : Sizes) (stub : UInt8 → UInt32) (dl : UInt8) (t : Tables)

/-- Code assembled for one size, with nothing left out. -/
abbrev asm {α : Type} (w : Width) (p : Code α) : Asm α := p.lift w

/-- `boot_asm.s` -/
def mainAsm16 (init : Asm Unit) : Asm Unit := do
  Prog.more (.loadValue .w16 .ss 0)
  Prog.more (.loadValue .w16 .es 0)
  Prog.more (.loadValue .w16 .ds 0)
  asm .w16 (set .driveNumber dl)
  Prog.more (.loadValue .w16 .cs 0)
  init

/-- `gdt_setup`. The table's register is loaded once the entries are there. -/
def gdtSetup16 : Asm Unit := do
  asm .w16 gdtEntries
  Prog.more (.lgdt .w16)
  asm .w16 gdtSelectors

/-- `stage2_load` -/
def stage2Load16 : Asm Unit := do
  asm .w16 do
    setMemorySize
    cpuid0x80000000
    cpuid0x80000001
    cpuid1
    let _ ← a20
  gdtSetup16
  asm .w16 diskProps

/-- `init` -/
def init16 (stage3Start : Asm Unit) : Asm Unit := do
  asm .w16 do
    copyKernelPart L .shared
    copyKernelPart L .stage2
    mark (.enter .stage2)
  stage2Load16
  asm .w16 do
    copyKernelPart L .stage3
    mark (.enter .stage3)
  stage3Start

/-- `stage3/start.S`: from its far return on the code is of 32 bits. -/
def stage3Start16 : Asm Unit := do
  asm .w16 (setCrBit 0 0)
  Prog.more (.loadObj .w16 .ds)
  Prog.more (.loadObj .w16 .ss)
  Prog.more (.loadObj .w16 .es)
  Prog.more (.loadObj .w16 .fs)
  Prog.more (.loadObj .w16 .gs)
  Prog.more (.loadObj .w16 .cs)
  asm .w32 (stage3Load L stub)

/-- `stage5/start.S`: from its far return on the code is of 64 bits. -/
def stage5Start32 : Asm Unit := do
  Prog.more (.loadObj .w32 .ss)
  Prog.more (.loadObj .w32 .es)
  Prog.more (.loadObj .w32 .fs)
  Prog.more (.loadObj .w32 .gs)
  Prog.more (.loadObj .w32 .ds)
  Prog.more (.loadObj .w32 .cs)

/-- From the boot sector to `stage5_load`. -/
def bootAsm : Asm Unit := do
  mainAsm16 dl (init16 L (stage3Start16 L stub))
  asm .w32 (stage4Load t)
  stage5Start32

end Boot

end ToyBootloader
