import ToyBootloader.Ia32.Call

/-!
# The interrupt entries

`idt_handlers32.S` makes one entry of every line of `X_IDT_ENTRIES`. An entry saves the
registers, calls the C function that `idt_handlers_32` holds for its vector with a
pointer to what it saved, and goes back. `struct int_infos` is how C sees what was
saved.
-/

namespace ToyBootloader

open Memory Ia32 Asm

/-- `struct int_infos` -/
structure IntInfos where
  edi : UInt32
  esi : UInt32
  edx : UInt32
  ecx : UInt32
  ebx : UInt32
  eax : UInt32
  intNbr : UInt32
  retCode : UInt32
  ip : UInt32
  deriving DecidableEq, Repr

/-- The packed `struct int_infos` at an address. -/
def IntInfos.at (m : Mem32) (p : UInt32) : IntInfos where
  edi := load32 m p
  esi := load32 m (p + 4)
  edx := load32 m (p + 8)
  ecx := load32 m (p + 12)
  ebx := load32 m (p + 16)
  eax := load32 m (p + 20)
  intNbr := load32 m (p + 24)
  retCode := load32 m (p + 28)
  ip := load32 m (p + 32)

/-- The vectors to which `X_IDT_ENTRIES` gives `XERRORCODE`. The others have
`XNOERRORCODE`. -/
def xErrorCode : List UInt8 := [8, 10, 11, 12, 13, 14, 17]

/-- `XERREXPENSION` -/
def xErrExpension (n : UInt8) : Asm Unit := if n ∈ xErrorCode then pure () else pushl 0

/-- `idt_entry_32_N`, with the address of `idt_handlers_32`. -/
def idtEntry32 (idtHandlers32 : UInt32) (n : UInt8) : Asm Return := do
  cli
  xErrExpension n
  pushl n.toUInt32
  push .eax
  push .ebx
  push .ecx
  push .edx
  push .esi
  push .edi
  push .esp
  load (idtHandlers32 + n.toUInt32 * 4) .eax
  call .eax
  add 4 .esp
  pop .edi
  pop .esi
  pop .edx
  pop .ecx
  pop .ebx
  pop .eax
  add 8 .esp
  iret

end ToyBootloader
