import ToyBootloader.Stage2.DiskProps

/-!
# Stage 2

`stage2_load` and the tasks the linker gathers for it, in the order their
objects are linked: `mem.c`, `cpuid.c`, `a20.c`, `gdt.c`, `disk_props.c`.
-/

namespace ToyBootloader

open Code

/-! ## `mem.c` -/

/-- `SMAP` -/
def SMAP : UInt32 := 0x534D4150

/-- `set_memory_size`: one section is asked for, and only printed. -/
def setMemorySize : Code Unit := do
  let _ ← int15 { eax := 0xE820, ebx := 0, ecx := 24, edx := SMAP, carry := false }
  return ()

/-! ## `cpuid.c` -/

/-- A `uint32_t` as it lies in memory. -/
def bytes32 (x : UInt32) : List UInt8 :=
  [x.toUInt8, (x >>> 8).toUInt8, (x >>> 16).toUInt8, (x >>> 24).toUInt8]

/-- A `uint32_t` read back. -/
def word32 : List UInt8 → UInt32
  | [a, b, c, d] => a.toUInt32 ||| (b.toUInt32 <<< 8) ||| (c.toUInt32 <<< 16) ||| (d.toUInt32 <<< 24)
  | _ => 0

/-- `cpuid_0x80000000` -/
def cpuid0x80000000 : Code Unit := do
  let r ← cpuid 0x80000000
  assign .maxCpuid (bytes32 r.eax)

/-- `cpuid_0x80000001` -/
def cpuid0x80000001 : Code Unit := do
  if word32 (← fetch .maxCpuid) < 0x80000001 then return ()
  else
    let r ← cpuid 0x80000001
    assign .cpuidInfosExtra1c (bytes32 r.ecx)
    assign .cpuidInfosExtra1d (bytes32 r.edx)

/-- `cpuid_1`; `proc_features` is read from `ecx` on, over `edx`. -/
def cpuid1 : Code Unit := do
  let r ← cpuid 1
  assign .clflushCl [((r.ebx >>> 8) &&& 0xF).toUInt8]
  assign .locApicId [((r.ebx >>> 24) &&& 0xF).toUInt8]
  assign .procFeatures (bytes32 r.ecx ++ bytes32 r.edx)

/-! ## `a20.c` -/

/-- `a20_int15`: what the status function leaves in `AX`. -/
def a20Int15 : Code UInt16 := do
  let _ ← int15 { eax := 0x2401, ebx := 0, ecx := 0, edx := 0, carry := false }
  let r ← int15 { eax := 0x2402, ebx := 0, ecx := 0, edx := 0, carry := false }
  return r.eax.toUInt16

/-- `a20_keyboard_wait` -/
def a20KeyboardWait (n : Bool) : Code Unit := do
  let _ ← inbUntil 0x64 fun a => n != (a == 2)
  return ()

/-- `a20_keyboard` -/
def a20Keyboard : Code Bool := do
  a20KeyboardWait false
  outb 0x64 0xAD
  a20KeyboardWait false
  outb 0x64 0xD0
  a20KeyboardWait true
  let a ← inb 0x60
  a20KeyboardWait false
  outb 0x64 0xD1
  a20KeyboardWait false
  outb 0x60 (a ||| 2)
  a20KeyboardWait false
  outb 0x64 0xAE
  a20KeyboardWait false
  return true

/-- `a20`: whether one of the two ways reports success. -/
def a20 : Code Bool := do
  if (← a20Int15) ≠ 0 then return true else a20Keyboard

/-! ## `gdt.c` -/

/-- `struct gdt_seg_descriptor`; a bit-field of one bit is a `Bool`. -/
structure GdtSegDescriptor where
  segLimit1 : UInt16
  baseAddress1 : UInt16
  baseAddress2 : UInt8
  accessed : Bool
  readableWritable : Bool
  directionConforming : Bool
  codeSel : Bool
  true_ : Bool
  privilegeLevel : UInt8
  segmentPresent : Bool
  segLimit2 : UInt8
  availableSystemSoftware : Bool
  mode64Bit : Bool
  opSize : Bool
  granularity : Bool
  baseAddress3 : UInt8
  deriving DecidableEq, Repr

/-- A one-bit field at its place in a byte. -/
def bitField (b : Bool) (at_ : UInt8) : UInt8 := if b then 1 <<< at_ else 0

/-- The descriptor's eight bytes. -/
def GdtSegDescriptor.bytes (d : GdtSegDescriptor) : List UInt8 :=
  [d.segLimit1.toUInt8, (d.segLimit1 >>> 8).toUInt8,
    d.baseAddress1.toUInt8, (d.baseAddress1 >>> 8).toUInt8, d.baseAddress2,
    bitField d.accessed 0 ||| bitField d.readableWritable 1
      ||| bitField d.directionConforming 2 ||| bitField d.codeSel 3 ||| bitField d.true_ 4
      ||| ((d.privilegeLevel &&& 3) <<< 5) ||| bitField d.segmentPresent 7,
    (d.segLimit2 &&& 0xF) ||| bitField d.availableSystemSoftware 4
      ||| bitField d.mode64Bit 5 ||| bitField d.opSize 6 ||| bitField d.granularity 7,
    d.baseAddress3]

/-- A bit of a byte. -/
def bitOf (b : UInt8) (at_ : UInt8) : Bool := b &&& (1 <<< at_) ≠ 0

/-- The descriptor eight bytes hold. -/
def GdtSegDescriptor.ofBytes (bs : List UInt8) : GdtSegDescriptor :=
  let byte (i : Nat) : UInt8 := bs.getD i 0
  { segLimit1 := (byte 0).toUInt16 ||| ((byte 1).toUInt16 <<< 8)
    baseAddress1 := (byte 2).toUInt16 ||| ((byte 3).toUInt16 <<< 8)
    baseAddress2 := byte 4
    accessed := bitOf (byte 5) 0
    readableWritable := bitOf (byte 5) 1
    directionConforming := bitOf (byte 5) 2
    codeSel := bitOf (byte 5) 3
    true_ := bitOf (byte 5) 4
    privilegeLevel := (byte 5 >>> 5) &&& 3
    segmentPresent := bitOf (byte 5) 7
    segLimit2 := byte 6 &&& 0xF
    availableSystemSoftware := bitOf (byte 6) 4
    mode64Bit := bitOf (byte 6) 5
    opSize := bitOf (byte 6) 6
    granularity := bitOf (byte 6) 7
    baseAddress3 := byte 7 }

/-- `gdt_segment_create`. The fields it does not assign keep what the
descriptor held. -/
def gdtSegmentCreate (gdt : GdtSegDescriptor) (base limit : UInt32) (privLevel : UInt8) :
    GdtSegDescriptor :=
  let large := limit > 0xFFFF
  let limit := if large then limit >>> 12 else limit
  { gdt with
    granularity := large
    segLimit1 := limit.toUInt16
    segLimit2 := (limit >>> 16).toUInt8 &&& 0xF
    baseAddress1 := base.toUInt16
    baseAddress2 := (base >>> 16).toUInt8
    baseAddress3 := (base >>> 24).toUInt8
    true_ := true
    privilegeLevel := privLevel &&& 3
    segmentPresent := true
    availableSystemSoftware := false
    mode64Bit := false
    opSize := true
    readableWritable := true }

/-- `gdt[i]` read, changed and written back. -/
def updateGdt (i : Nat) (f : GdtSegDescriptor → GdtSegDescriptor) : Code Unit := do
  let bs ← fetch (.gdt i)
  assign (.gdt i) (f (.ofBytes bs)).bytes

/-- `struct seg_register` with this index, at privilege 0 in the GDT. -/
def segRegister (index : UInt16) : List UInt8 :=
  [(index <<< 3).toUInt8, ((index <<< 3) >>> 8).toUInt8]

/-- `gdt_setup`, to its `lgdt`. -/
def gdtEntries : Code Unit := do
  updateGdt 1 (gdtSegmentCreate · 0 0xFFFFFFFF 0)
  updateGdt 1 ({ · with codeSel := true })
  updateGdt 2 (gdtSegmentCreate · 0 0xFFFFFFFF 0)
  updateGdt 2 ({ · with codeSel := false })
  updateGdt 3 (gdtSegmentCreate · 0 0xFFFFFFFF 0)
  updateGdt 3 ({ · with codeSel := true })
  updateGdt 3 ({ · with mode64Bit := true })
  updateGdt 3 ({ · with opSize := false })

/-- What `gdt_setup` leaves for stage 3's segment registers. -/
def gdtSelectors : Code Unit := do
  assign .segSs (segRegister 2)
  assign .segEs (segRegister 2)
  assign .segFs (segRegister 2)
  assign .segGs (segRegister 2)
  assign .segDs (segRegister 2)
  assign .segCs (segRegister 1)

/-- `gdt_setup` -/
def gdtSetup : Code Unit := do
  gdtEntries
  gdtSelectors

/-! ## `load.c` -/

/-- `stage2_load`: every task of `.stage2_init` in turn. -/
def stage2Load : Code Unit := do
  setMemorySize
  cpuid0x80000000
  cpuid0x80000001
  cpuid1
  let _ ← a20
  gdtSetup
  diskProps

end ToyBootloader
