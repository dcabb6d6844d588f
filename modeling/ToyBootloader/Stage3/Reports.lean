import ToyBootloader.Shared.IdtHandlers
import ToyBootloader.Stage3.Load
import ToyBootloader.Stage2.Printf

/-!
# What stage 3 reports of an interrupt

`interrupt_panic` of `idt.c`, and `hexdump` and `handle_int3` of `breakpoint.c`, as far as
what they print goes. Stage 3 has the `printf.c` of stage 2. A report is the characters that
go to `puts`, from one call of `printf` after another.
-/

namespace ToyBootloader

open Memory Printf

section Reports

-- memory, and what is above the arguments on the stack
variable (m : Mem32) (above : Stream' UInt32)

/-- What a call of `printf` prints. -/
def printfText (fmt : List UInt8) (args : List UInt32) : List UInt8 :=
  ((vsprintf fmt (args ++ₛ above) m).written ++ [0]).takeWhile (· ≠ 0)

/-! ## `idt.c` -/

/-- `X_IDT_ENTRIES`: the vectors and their informations. -/
def xIdtEntries : List (UInt8 × String) :=
  [(0, "Divide Error"),
    (1, "Debug Exception"),
    (2, "NMI Interruption"),
    (3, "Breakpoint"),
    (4, "Overflow"),
    (5, "Bound range exceeded"),
    (6, "Invalid OpCode"),
    (7, "Device not compatible"),
    (8, "Double fault"),
    (9, "Coprocessor segment overrun"),
    (10, "Invalid TSS"),
    (11, "Segment not present"),
    (12, "Stack-segment Not present"),
    (13, "General protection"),
    (14, "Page fault"),
    (15, "Intel-reserved"),
    (16, "x87 FPU Floating point error"),
    (17, "Alignement check"),
    (18, "machine check"),
    (19, "SMID floating-point excepion"),
    (20, "virtualization exception"),
    (32, "IRQ0 - PIT"),
    (33, "IRQ1 - Keyboard"),
    (35, "IRQ3 - UART (COM2 and COM4)"),
    (36, "IRQ4 - UART (COM1 and COM3)"),
    (37, "IRQ5 - Hard disk/ Parallel port"),
    (38, "IRQ6 - Floppy disk controller"),
    (39, "IRQ7 - Parallel port LPT1"),
    (40, "IRQ8 - RTC"),
    (41, "IRQ9 - APCI"),
    (42, "IRQ10 - Available"),
    (43, "IRQ11 - Available"),
    (44, "IRQ12 - PS/2 mouse controller"),
    (45, "IRQ13 - Math coprocessor"),
    (46, "IRQ14 - Hard disk controller 1"),
    (47, "IRQ15 - Hard disk controller 2")]

/-- The format that `XERRORCODE` prints the error code with. -/
def errorCodeFormat : List UInt8 := text "error_code : 0x%x\n"

/-- The format of the line of informations. -/
def infoFormat (info : String) : List UInt8 :=
  text "interruption informations : \"" ++ text info ++ text "\"\n"

/-- The format of the line of registers. -/
def regsFormat : List UInt8 :=
  text "edi:0x%x, esi:0x%x, edx:0x%x, ecx:0x%x, eax:0x%x, ip:0x%x\n"

/-- A case of the switch. -/
def panicCase (r : IntInfos) (entry : UInt8 × String) : List UInt8 :=
  printfText m above (infoFormat entry.2) [] ++
    if entry.1 ∈ xErrorCode then printfText m above errorCodeFormat [r.retCode] else []

/-- `interrupt_panic`, up to the loop that it ends in. -/
def interruptPanic (r : IntInfos) : List UInt8 :=
  printfText m above (text "***PANIC***\n") [] ++
    (printfText m above (text "interruption %d\n") [r.intNbr] ++
      ((match xIdtEntries.find? fun entry => entry.1.toUInt32 = r.intNbr with
        | some entry => panicCase m above r entry
        | none => []) ++
        printfText m above regsFormat [r.edi, r.esi, r.edx, r.ecx, r.eax, r.ip]))

/-! ## `breakpoint.c` -/

/-- A hexadecimal digit, as `hexdump` prints it. -/
def hexDigit (d : UInt8) : UInt8 := if d > 0x9 then d - 0xA + 'A'.toUInt8 else d + '0'.toUInt8

/-- The loop of `hexdump`, from `i` on. -/
def hexdumpLoop (ptr : UInt32) : (left : Nat) → (i : Nat) → List UInt8
  | 0, _ => printfText m above (text "\n") []
  | left + 1, i =>
    let b := m (ptr + UInt32.ofNat i)
    (if i % 10 = 0 then printfText m above (text "\n") [] else []) ++
      (printfText m above (text "%c%c ")
          [(hexDigit (b >>> 4)).toUInt32, (hexDigit (b &&& 0xF)).toUInt32] ++
        hexdumpLoop ptr left (i + 1))

/-- `hexdump` -/
def hexdump (count : Nat) (ptr : UInt32) : List UInt8 := hexdumpLoop m above ptr count 0

/-- The format of the registers in a report of `handle_int3`. -/
def debugFormat : List UInt8 :=
  text "* regs: \n* edi:0x%x, esi:0x%x, edx:0x%x, ecx:0x%x, eax:0x%x, ip:0x%x\n"

/-- `handle_int3`, with the address of `_stage_3_start`. -/
def handleInt3 (stage3Start : UInt32) (r : IntInfos) : List UInt8 :=
  printfText m above (text "*GOT DEBUG INTERRUPTION\n") [] ++
    (printfText m above debugFormat [r.edi, r.esi, r.edx, r.ecx, r.eax, r.ip] ++
      (printfText m above (text "*stage3 local address : 0x%x \n") [r.ip - stage3Start] ++
        (printfText m above (text "*next code: \n") [] ++
          (hexdump m above 40 r.ip ++ printfText m above (text "*END OF DEBUG\n") []))))

end Reports

end ToyBootloader
