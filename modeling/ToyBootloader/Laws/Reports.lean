import ToyBootloader.Laws.FormatTexts
import ToyBootloader.Laws.IdtHandlers
import ToyBootloader.Laws.Scanning
import ToyBootloader.Stage3.Reports

/-!
# Reports can be read

What stage 3 prints of an interrupt says all that it is meant to. Read with its own formats,
the report of a panic gives the vector, the error code where the processor has pushed one,
and the registers as they were when the interrupt came. The report of a breakpoint gives the
registers, and the bytes of the code that comes next.
-/

namespace ToyBootloader

open Memory Printf Numerals Resumption Ia32

section Printed

variable {m : Mem32} {above : Stream' UInt32}

/-- A format for numbers prints them so that they can be read. -/
theorem scanText_printfText (m : Mem32) (above : Stream' UInt32) (fmt : List UInt8)
    (readable : Readable (parse fmt) = true)
    (nonzero : Piece.char 0 ∉ parse fmt) (args : List UInt32) (rest : List UInt8) :
    scanText (parse fmt) (printfText m above fmt args ++ rest) =
      some (numbers (parse fmt) (args ++ₛ above), rest) := by
  unfold printfText
  rw [takeWhile_text (zero_notMem_vsprintf readable nonzero _ _)]
  obtain ⟨out, written, -, -, read⟩ := scanText_runAll readable (args ++ₛ above) m
  have whole : (vsprintf fmt (args ++ₛ above) m).written = out :=
    (congrArg Printing.written (formatted_eq fmt ⟨[], args ++ₛ above, m⟩)).trans (written [])
  rw [whole]
  exact read rest

/-- And a text stands for itself. -/
theorem printfText_literal {s : List UInt8} (percent : '%'.toUInt8 ∉ s) (zero : 0 ∉ s) :
    printfText m above s [] = s := by
  unfold printfText
  rw [vsprintf_literal percent, takeWhile_text zero]

theorem parse_literal {s : List UInt8} (percent : '%'.toUInt8 ∉ s) : parse s = s.map Piece.char := by
  induction s with
  | nil => rfl
  | cons c s ih =>
    rw [List.mem_cons, not_or] at percent
    rw [parse_char (Ne.symm percent.1), ih percent.2]
    rfl

theorem scanText_literal (s rest : List UInt8) :
    scanText (s.map Piece.char) (s ++ rest) = some ([], rest) := by
  induction s with
  | nil => rfl
  | cons c s ih => exact (if_pos rfl).trans ih

end Printed

/-! ## A panic -/

section Panic

variable {m : Mem32} {above : Stream' UInt32}

/-- The formats of a panic, one after the other. -/
def panicFormat (entry : UInt8 × String) : List Piece :=
  parse (text "***PANIC***\n") ++ (parse (text "interruption %d\n") ++
    (parse (infoFormat entry.2) ++ ((if entry.1 ∈ xErrorCode then parse errorCodeFormat else []) ++
      parse regsFormat)))

/-- Each entry is found under its vector, and its informations are plain text. -/
theorem xIdtEntries_find {entry : UInt8 × String} (h : entry ∈ xIdtEntries) :
    xIdtEntries.find? (fun other => other.1.toUInt32 = entry.1.toUInt32) = some entry ∧
      '%'.toUInt8 ∉ infoFormat entry.2 ∧ 0 ∉ infoFormat entry.2 := by
  revert entry
  decide +kernel

/-- What the report of a panic is read as. -/
def panicNumbers (r : IntInfos) (n : UInt8) : List Int :=
  (n.toNat : Int) :: ((if n ∈ xErrorCode then [(r.retCode.toNat : Int)] else []) ++
    [(r.edi.toNat : Int), (r.esi.toNat : Int), (r.edx.toNat : Int), (r.ecx.toNat : Int),
      (r.eax.toNat : Int), (r.ip.toNat : Int)])

theorem toInt_vector (n : UInt8) : n.toUInt32.toInt32.toInt = n.toNat :=
  forall_byte n (by decide +kernel)

theorem scanText_interruptPanic {r : IntInfos} {entry : UInt8 × String} (h : entry ∈ xIdtEntries)
    (number : r.intNbr = entry.1.toUInt32) (rest : List UInt8) :
    scanText (panicFormat entry) (interruptPanic m above r ++ rest) =
      some (panicNumbers r entry.1, rest) := by
  obtain ⟨found, percent, zero⟩ := xIdtEntries_find h
  have info : ∀ rest, scanText (parse (infoFormat entry.2))
      (printfText m above (infoFormat entry.2) [] ++ rest) = some ([], rest) := by
    intro rest
    rw [printfText_literal percent zero, parse_literal percent, scanText_literal]
  have head : ∀ rest, scanText (parse (text "***PANIC***\n"))
      (printfText m above (text "***PANIC***\n") [] ++ rest) = some ([], rest) :=
    scanText_printfText m above _ (by decide) (by decide) []
  have vector : ∀ rest, scanText (parse (text "interruption %d\n"))
      (printfText m above (text "interruption %d\n") [r.intNbr] ++ rest) =
        some ([(entry.1.toNat : Int)], rest) := by
    intro rest
    rw [scanText_printfText m above _ (by decide) (by decide) [r.intNbr], number, ← toInt_vector]
    rfl
  have code : ∀ rest, scanText (if entry.1 ∈ xErrorCode then parse errorCodeFormat else [])
      ((if entry.1 ∈ xErrorCode then printfText m above errorCodeFormat [r.retCode] else []) ++
        rest) = some (if entry.1 ∈ xErrorCode then [(r.retCode.toNat : Int)] else [], rest) := by
    intro rest
    split
    · exact scanText_printfText m above _ (by decide) (by decide) [r.retCode] rest
    · rfl
  have regs := scanText_printfText m above regsFormat (by decide) (by decide)
    [r.edi, r.esi, r.edx, r.ecx, r.eax, r.ip] rest
  unfold interruptPanic panicFormat
  rw [number, found]
  dsimp only [panicCase]
  rw [← number]
  simp only [List.append_assoc]
  have tail := scanText_append (info _) (scanText_append (code _) regs)
  exact scanText_append (head _) (scanText_append (vector _) tail)

end Panic

/-! ## A dump of memory -/

section Dump

/-- Whether it stands between bytes. -/
def isBlank (c : UInt8) : Bool := c = 0x20 || c = 0x0A

/-- So many bytes of two hexadecimal digits each, with blanks before them, and what comes after
them. -/
def readHex : Nat → List UInt8 → Option (List UInt8 × List UInt8)
  | 0, cs => some ([], cs)
  | n + 1, cs => match cs.dropWhile isBlank with
    | c :: d :: cs => do
      let high ← digit? c
      let low ← digit? d
      let (bs, rest) ← readHex n cs
      if high < 16 ∧ low < 16 then some (UInt8.ofNat (16 * high + low) :: bs, rest) else none
    | _ => none

/-- The two digits of a byte. -/
theorem digits_hexDigit (b : UInt8) :
    (isBlank (hexDigit (b >>> 4)) = false ∧ hexDigit (b >>> 4) ≠ 0 ∧ hexDigit (b &&& 0xF) ≠ 0) ∧
      digit? (hexDigit (b >>> 4)) = some (b.toNat / 16) ∧
      digit? (hexDigit (b &&& 0xF)) = some (b.toNat % 16) :=
  forall_byte b (by decide +kernel)

variable (m : Mem32) (above : Stream' UInt32)

/-- The two digits and a blank. -/
theorem printfText_byte (b : UInt8) :
    printfText m above (text "%c%c ") [(hexDigit (b >>> 4)).toUInt32, (hexDigit (b &&& 0xF)).toUInt32] =
      [hexDigit (b >>> 4), hexDigit (b &&& 0xF), 0x20] := by
  obtain ⟨⟨-, high, low⟩, -⟩ := digits_hexDigit b
  have written : (vsprintf (text "%c%c ")
      ([(hexDigit (b >>> 4)).toUInt32, (hexDigit (b &&& 0xF)).toUInt32] ++ₛ above) m).written =
      [hexDigit (b >>> 4), hexDigit (b &&& 0xF), 0x20] := by
    have both : (vsprintf (text "%c%c ")
        ([(hexDigit (b >>> 4)).toUInt32, (hexDigit (b &&& 0xF)).toUInt32] ++ₛ above) m).written =
        [(hexDigit (b >>> 4)).toUInt32.toUInt8, (hexDigit (b &&& 0xF)).toUInt32.toUInt8, 0x20] := rfl
    simpa using both
  unfold printfText
  rw [written, takeWhile_text]
  simp [high.symm, low.symm]

theorem readHex_byte (b : UInt8) {n : Nat} {pre cs rest : List UInt8} {bs : List UInt8}
    (blank : ∀ c ∈ pre, isBlank c = true) (h : readHex n cs = some (bs, rest)) :
    readHex (n + 1) (pre ++ hexDigit (b >>> 4) :: hexDigit (b &&& 0xF) :: cs) =
      some (b :: bs, rest) := by
  obtain ⟨⟨first, -⟩, high, low⟩ := digits_hexDigit b
  have bound := b.toNat_lt
  have value : UInt8.ofNat (16 * (b.toNat / 16) + b.toNat % 16) = b := by
    rw [Nat.div_add_mod, UInt8.ofNat_toNat]
  have digits : b.toNat / 16 < 16 ∧ b.toNat % 16 < 16 := by omega
  rw [readHex, List.dropWhile_append_of_pos blank, List.dropWhile_cons_of_neg (by rw [first]; decide)]
  simp only [high, low, h, Option.bind_eq_bind, Option.bind_some, if_pos digits, value]

/-- What the loop prints is read, with the newline that ends it left. -/
theorem readHex_hexdumpLoop (ptr : UInt32) (left i : Nat) (pre : List UInt8)
    (blank : ∀ c ∈ pre, isBlank c = true) (rest : List UInt8) :
    readHex left (pre ++ (hexdumpLoop m above ptr left i ++ rest)) =
      some ((List.range' i left).map (fun j => m (ptr + UInt32.ofNat j)),
        (if left = 0 then pre else [0x20]) ++ 0x0A :: rest) := by
  have newline : printfText m above (text "\n") [] = [0x0A] := printfText_literal (by decide) (by decide)
  induction left generalizing i pre with
  | zero =>
    rw [hexdumpLoop, newline]
    rfl
  | succ left ih =>
    have blank' : ∀ c ∈ pre ++ (if i % 10 = 0 then [0x0A] else []), isBlank c = true := by
      intro c hc
      rcases List.mem_append.mp hc with hc | hc
      · exact blank c hc
      · split at hc
        · rw [List.mem_singleton.mp hc]
          decide
        · cases hc
    have further := ih (i + 1) [0x20] (List.forall_mem_singleton.mpr rfl)
    have last : (if left = 0 then [0x20] else [0x20]) = [(0x20 : UInt8)] := ite_self _
    rw [last] at further
    have byte := readHex_byte (m (ptr + UInt32.ofNat i)) blank' further
    rw [hexdumpLoop, newline, printfText_byte, if_neg (Nat.succ_ne_zero left), List.range'_succ]
    simpa only [List.append_assoc, List.cons_append, List.nil_append, List.map_cons] using byte

/-- A dump is read as the bytes it is of. -/
theorem readHex_hexdump (count : Nat) (ptr : UInt32) (rest : List UInt8) :
    readHex count (hexdump m above count ptr ++ rest) =
      some (bytesAt m ptr count, (if count = 0 then [] else [0x20]) ++ 0x0A :: rest) := by
  have whole := readHex_hexdumpLoop m above ptr count 0 []
    (fun _ h => absurd h List.not_mem_nil) rest
  rw [← List.range_eq_range'] at whole
  exact whole

end Dump

/-! ## The laws -/

section Laws

variable {F : UInt32 → CFunction 4 44} {idtHandlers32 : UInt32} {n : UInt8} {c c' : Cpu}
  {back : Return} {errorCode : UInt32} {r : Reg} {k : ia32.Ans (Instr.call r) → Asm Return}

/-- The registers that a report shows. -/
def shownRegs (c : Cpu) (back : Return) : List Int :=
  [((c.regs .edi).toNat : Int), ((c.regs .esi).toNat : Int), ((c.regs .edx).toNat : Int),
    ((c.regs .ecx).toNat : Int), ((c.regs .eax).toNat : Int), (back.eip.toNat : Int)]

/-- THE LAW of panics: whatever is interrupted, and by whatever vector there is an entry for,
the report of `interrupt_panic` is read, with its own formats and to its end, as that vector,
the error code where the processor has pushed one, and the registers that were interrupted. -/
theorem interruptPanic_reports (run : Reach (machine F)
      (idtEntry32 idtHandlers32 n, c.deliver n back errorCode) (.vis (Instr.call r) k, c'))
    {info : String} (known : (n, info) ∈ xIdtEntries) (address : UInt32) (above : Stream' UInt32) :
    scanText (panicFormat (n, info)) (interruptPanic (c'.push address).mem above
        (IntInfos.at (c'.push address).mem (c'.push address).argument)) =
      some ((n.toNat : Int) :: ((if pushesErrorCode n then [(errorCode.toNat : Int)] else []) ++
        shownRegs c back), []) := by
  have read : scanText (panicFormat (n, info))
      (interruptPanic (c'.push address).mem above (.ofCpu c n back errorCode) ++ []) =
        some (panicNumbers (.ofCpu c n back errorCode) n, []) :=
    scanText_interruptPanic known rfl []
  rw [List.append_nil] at read
  rw [infos_handed run, read]
  have code := mem_xErrorCode n
  unfold panicNumbers
  by_cases pushed : pushesErrorCode n = true
  · rw [if_pos (code.mpr pushed), if_pos pushed]
    have word : errorWord n errorCode = errorCode := if_pos pushed
    dsimp only [IntInfos.ofCpu]
    rw [word]
    rfl
  · rw [if_neg fun h => pushed (code.mp h), if_neg pushed]
    rfl

/-- A processor with a value of its own in every register, and at every address. -/
def busy : Cpu where
  regs
    | .eax => 0x11111111
    | .ecx => 0x22222222
    | .edx => 0x33333333
    | .ebx => 0x44444444
    | .esp => 0x8000
    | .ebp => 0x55555555
    | .esi => 0x66666666
    | .edi => 0xFFFFFFFF
  interruptible := true
  mem a := a.toUInt8

/-- A page fault at 0x7ABC, where memory was written to. -/
theorem interruptPanic_reports_pageFault :
    ∃ k c', Reach (machine (fun _ => default : UInt32 → CFunction 4 44)) (idtEntry32 0x9000 14,
        busy.deliver 14 ⟨0x7ABC, 8, 0x202⟩ 2) (.vis (Instr.call .eax) k, c') ∧
      scanText (panicFormat (14, "Page fault")) (interruptPanic (c'.push 0x7123).mem (fun _ => 0)
        (IntInfos.at (c'.push 0x7123).mem (c'.push 0x7123).argument)) =
          some ([14, 2, 0xFFFFFFFF, 0x66666666, 0x33333333, 0x22222222, 0x11111111, 0x7ABC], []) := by
  obtain ⟨k, c', run⟩ := exists_call (fun _ => default) 0x9000 14 busy ⟨0x7ABC, 8, 0x202⟩ 2
  exact ⟨k, c', run, interruptPanic_reports run (by decide) 0x7123 fun _ => 0⟩

/-- The formats of `handle_int3` before the dump, one after the other. -/
def debugFormats : List Piece :=
  parse (text "*GOT DEBUG INTERRUPTION\n") ++ (parse debugFormat ++
    (parse (text "*stage3 local address : 0x%x \n") ++ parse (text "*next code: \n")))

/-- THE LAW of breakpoints: the report of `handle_int3` is read as the registers that were
interrupted, the distance of the next instruction from the start of stage 3, and the forty
bytes of code from that instruction on. -/
theorem handleInt3_reports (run : Reach (machine F)
      (idtEntry32 idtHandlers32 n, c.deliver n back errorCode) (.vis (Instr.call r) k, c'))
    (stage3Start address : UInt32) (above : Stream' UInt32) :
    ∃ rest, scanText debugFormats (handleInt3 (c'.push address).mem above stage3Start
        (IntInfos.at (c'.push address).mem (c'.push address).argument)) =
          some (shownRegs c back ++ [((back.eip - stage3Start).toNat : Int)], rest) ∧
      readHex 40 rest =
        some (bytesAt (c'.push address).mem back.eip 40, text " \n*END OF DEBUG\n") := by
  rw [infos_handed run]
  generalize (c'.push address).mem = m
  have plain : ∀ {s : List UInt8}, '%'.toUInt8 ∉ s → 0 ∉ s → ∀ rest,
      scanText (parse s) (printfText m above s [] ++ rest) = some ([], rest) := by
    intro s percent zero rest
    rw [printfText_literal percent zero, parse_literal percent, scanText_literal]
  have regs := scanText_printfText m above debugFormat (by decide) (by decide)
    [c.regs .edi, c.regs .esi, c.regs .edx, c.regs .ecx, c.regs .eax, back.eip]
  have distance := scanText_printfText m above (text "*stage3 local address : 0x%x \n") (by decide)
    (by decide) [back.eip - stage3Start]
  refine ⟨hexdump m above 40 back.eip ++ printfText m above (text "*END OF DEBUG\n") [], ?_, ?_⟩
  · have first := plain (s := text "*GOT DEBUG INTERRUPTION\n") (by decide) (by decide)
    have last := plain (s := text "*next code: \n") (by decide) (by decide)
    have whole := scanText_append (first _) (scanText_append (regs _)
      (scanText_append (distance _)
        (last (hexdump m above 40 back.eip ++ printfText m above (text "*END OF DEBUG\n") []))))
    exact whole
  · rw [printfText_literal (by decide) (by decide)]
    exact readHex_hexdump m above 40 back.eip _

/-- A breakpoint, 0x234 bytes into a stage 3 that is at 0x60000. -/
theorem handleInt3_reports_breakpoint :
    ∃ k c', Reach (machine (fun _ => default : UInt32 → CFunction 4 44)) (idtEntry32 0x9000 3,
        busy.deliver 3 ⟨0x60234, 8, 0x202⟩ 0) (.vis (Instr.call .eax) k, c') ∧
      ∃ rest, scanText debugFormats (handleInt3 (c'.push 0x7123).mem (fun _ => 0) 0x60000
          (IntInfos.at (c'.push 0x7123).mem (c'.push 0x7123).argument)) =
            some ([0xFFFFFFFF, 0x66666666, 0x33333333, 0x22222222, 0x11111111, 0x60234, 0x234], rest) ∧
        readHex 40 rest =
          some (bytesAt (c'.push 0x7123).mem 0x60234 40, text " \n*END OF DEBUG\n") := by
  obtain ⟨k, c', run⟩ := exists_call (fun _ => default) 0x9000 3 busy ⟨0x60234, 8, 0x202⟩ 0
  exact ⟨k, c', run, handleInt3_reports run 0x60000 0x7123 fun _ => 0⟩

end Laws

end ToyBootloader
