import ToyBootloader.Resumption.Frame
import ToyBootloader.Shared.IdtHandlers

/-!
# An interrupt leaves no trace

An entry saves what it is interrupted with, so the C function it calls sees the
interrupted registers in its `struct int_infos`, and puts back what it saved, so the
interrupted code goes on as if nothing had been. The order of the pushes, the layout of
the struct, the order of the pops and the two corrections of the stack pointer have to
agree, and for every vector with whether the processor pushed an error code.

The entry is walked in two parts, up to the call and from it to `iret`, with the frame
that lies on the stack in between. What happens to memory otherwise is never asked.
-/

namespace ToyBootloader

open Resumption Memory Ia32

/-! ## The entry in two parts -/

/-- Up to the call. -/
def idtEnter (idtHandlers32 : UInt32) (n : UInt8) : Asm Unit :=
  Asm.cli.bind fun _ => (xErrExpension n).bind fun _ => (Asm.pushl n.toUInt32).bind fun _ =>
    (pushes [.eax, .ebx, .ecx, .edx, .esi, .edi]).bind fun _ => (Asm.push .esp).bind fun _ =>
      Asm.load (idtHandlers32 + n.toUInt32 * 4) .eax

/-- After it, up to `iret`. -/
def idtLeave : Asm Unit :=
  (Asm.add 4 .esp).bind fun _ => (pops [.edi, .esi, .edx, .ecx, .ebx, .eax]).bind fun _ =>
    Asm.add 8 .esp

theorem idtEntry32_eq (idtHandlers32 : UInt32) (n : UInt8) :
    idtEntry32 idtHandlers32 n = (idtEnter idtHandlers32 n).bind fun _ =>
      .vis (Instr.call .eax) fun _ => idtLeave.bind fun _ => Asm.iret := by
  unfold idtEntry32 idtEnter xErrExpension
  split <;> rfl

/-- `XERRORCODE` stands where the processor pushes an error code. -/
theorem mem_xErrorCode (n : UInt8) : n ∈ xErrorCode ↔ pushesErrorCode n = true := by
  unfold xErrorCode pushesErrorCode
  simp only [List.mem_cons, List.not_mem_nil]
  grind

/-! ## The frame -/

/-- The error code, or the 0 pushed in its place. -/
def errorWord (n : UInt8) (errorCode : UInt32) : UInt32 := if pushesErrorCode n then errorCode else 0

/-- What is on the stack when everything is saved, from the top down. -/
def saved (c : Cpu) (n : UInt8) (back : Return) (errorCode : UInt32) : List UInt32 :=
  [Reg.edi, .esi, .edx, .ecx, .ebx, .eax].map c.regs
    ++ [n.toUInt32, errorWord n errorCode, back.eip, back.cs, back.eflags]

/-- The `struct int_infos` of an interrupt. -/
def IntInfos.ofCpu (c : Cpu) (n : UInt8) (back : Return) (errorCode : UInt32) : IntInfos where
  edi := c.regs .edi
  esi := c.regs .esi
  edx := c.regs .edx
  ecx := c.regs .ecx
  ebx := c.regs .ebx
  eax := c.regs .eax
  intNbr := n.toUInt32
  retCode := errorWord n errorCode
  ip := back.eip

/-- The layout of the struct is that of the frame. -/
theorem IntInfos.at_saved {m : Mem32} {p : UInt32} {c : Cpu} {n : UInt8} {back : Return}
    {errorCode : UInt32} (h : Words m p (saved c n back errorCode)) :
    IntInfos.at m p = .ofCpu c n back errorCode := by
  have at_top : load32 m p = c.regs .edi := h.1
  unfold IntInfos.at IntInfos.ofCpu
  rw [at_top]
  congr 1
  · exact h.load (i := 1) (by simp [saved])
  · exact h.load (i := 2) (by simp [saved])
  · exact h.load (i := 3) (by simp [saved])
  · exact h.load (i := 4) (by simp [saved])
  · exact h.load (i := 5) (by simp [saved])
  · exact h.load (i := 6) (by simp [saved])
  · exact h.load (i := 7) (by simp [saved])
  · exact h.load (i := 8) (by simp [saved])

/-- The registers. -/
def allRegs : List Reg := [.eax, .ecx, .edx, .ebx, .esp, .ebp, .esi, .edi]

section Walk

variable {F : UInt32 → CFunction 4 44} {c : Cpu} {n : UInt8} {back : Return} {errorCode : UInt32}

/-- What the processor pushes. -/
theorem framed_deliver (c : Cpu) (n : UInt8) (back : Return) (errorCode : UInt32) : Framed c allRegs
    ((if pushesErrorCode n then [errorCode] else []) ++ [back.eip, back.cs, back.eflags])
    (c.deliver n back errorCode) := by
  have pushed : Framed c allRegs [back.eip, back.cs, back.eflags]
      (((c.push back.eflags).push back.cs).push back.eip) :=
    (((framed_refl c allRegs).push (by simp)).push (by simp)).push (by simp)
  unfold Cpu.deliver
  split
  · exact pushed.push (by simp)
  · exact pushed

theorem follows_xErrExpension {known : List Reg} {c' : Cpu} (h : Framed c known
      ((if pushesErrorCode n then [errorCode] else []) ++ [back.eip, back.cs, back.eflags]) c') :
    Follows (machine F) (fun _ _ => True) (xErrExpension n)
      (fun _ => Framed c known [errorWord n errorCode, back.eip, back.cs, back.eflags]) c' := by
  unfold xErrExpension errorWord
  by_cases hn : pushesErrorCode n = true
  · rw [if_pos hn] at h
    rw [if_pos ((mem_xErrorCode n).mpr hn), if_pos hn]
    exact h
  · rw [if_neg hn] at h
    rw [if_neg fun mem => hn ((mem_xErrorCode n).mp mem), if_neg hn]
    apply follows_to trivial fun _ _ hm => hm
    intro _
    exact h.push (by simp)

/-- At the call the frame is saved, and the argument on top of it points to it. -/
theorem follows_idtEnter (idtHandlers32 : UInt32) :
    Follows (machine F) (fun _ _ => True) (idtEnter idtHandlers32 n)
      (fun _ c' => Framed c (allRegs.filter (· ≠ .eax)) ((c.esp - 44) :: saved c n back errorCode) c' ∧
        c'.regs .eax = load32 c'.mem (idtHandlers32 + n.toUInt32 * 4))
      (c.deliver n back errorCode) := by
  unfold idtEnter
  apply follows_to trivial fun _ _ hm => hm
  intro _
  obtain ⟨esp, regs, words⟩ := framed_deliver c n back errorCode
  have masked : Framed c allRegs _ { c.deliver n back errorCode with interruptible := false } :=
    ⟨esp, regs, words⟩
  apply (follows_xErrExpension masked).bind
  intro _ c₁ h₁
  apply follows_to trivial fun _ _ hm => hm
  intro _
  apply ((h₁.push (by simp)).follows_pushes (by decide) (by simp)).bind
  intro _ c₂ h₂
  apply follows_to trivial fun _ _ hm => hm
  intro _
  have pointer : c₂.regs .esp = c.esp - 44 := h₂.esp
  rw [pointer]
  apply follows_to trivial fun _ _ hm => hm
  intro _
  constructor
  · exact (h₂.push (by simp)).lose (by decide)
  · exact Cpu.regs_set_self ..

/-- From the return of the C function the frame is taken down again. -/
theorem follows_idtLeave {w : UInt32} {known : List Reg} {c' : Cpu}
    (h : Framed c known (w :: saved c n back errorCode) c') :
    Follows (machine F) (fun _ _ => True) idtLeave
      (fun _ => Framed c ([.eax, .ebx, .ecx, .edx, .esi, .edi] ++ known)
        [back.eip, back.cs, back.eflags]) c' := by
  unfold idtLeave
  apply follows_to trivial fun _ _ hm => hm
  intro _
  apply ((Framed.drop (u := [w]) h).follows_pops (by decide)).bind
  intro _ c₁ h₁
  apply follows_to trivial fun _ _ hm => hm
  intro _
  exact Framed.drop (u := [n.toUInt32, errorWord n errorCode]) h₁

end Walk

/-! ## Its runs -/

/-- The instructions that are neither a call nor `iret`. -/
def Plain : Instr → Prop
  | .call _ | .iret => False
  | _ => True

theorem straight_pushes (rs : List Reg) : Straight (S := ia32) Plain (pushes rs) := by
  induction rs with
  | nil => trivial
  | cons r rs ih => exact ⟨trivial, fun _ => ih⟩

theorem straight_pops (rs : List Reg) : Straight (S := ia32) Plain (pops rs) := by
  induction rs with
  | nil => trivial
  | cons r rs ih => exact ⟨trivial, fun _ => ih⟩

theorem straight_idtEnter (idtHandlers32 : UInt32) (n : UInt8) :
    Straight (S := ia32) Plain (idtEnter idtHandlers32 n) := by
  have expansion : Straight (S := ia32) Plain (xErrExpension n) := by
    unfold xErrExpension
    split
    · trivial
    · exact ⟨trivial, fun _ => trivial⟩
  unfold idtEnter
  refine ⟨trivial, fun _ => expansion.bind fun _ => ⟨trivial, fun _ => ?_⟩⟩
  apply (straight_pushes _).bind
  intro _
  exact ⟨trivial, fun _ => ⟨trivial, fun _ => trivial⟩⟩

theorem straight_idtLeave : Straight (S := ia32) Plain idtLeave := by
  unfold idtLeave
  refine ⟨trivial, fun _ => (straight_pops _).bind fun _ => ?_⟩
  exact ⟨trivial, fun _ => trivial⟩

theorem machine_plain {args frame : Nat} (F : UInt32 → CFunction args frame) (c : Cpu) (i : Instr)
    (plain : Plain i) : ∃ x c', machine F c i x c' := by
  cases i with
  | call r => exact plain.elim
  | iret => exact plain.elim
  | _ => exact ⟨(), _, rfl⟩

/-- What makes an entry transparent, over the runs from the delivery of its interrupt. -/
structure Transparent (F : UInt32 → CFunction 4 44) (idtHandlers32 : UInt32) (n : UInt8) (c : Cpu)
    (back : Return) (errorCode : UInt32) : Prop where
  /-- The C function of the vector is called. -/
  calls : ∃ k c', Reach (machine F) (idtEntry32 idtHandlers32 n, c.deliver n back errorCode)
    (.vis (Instr.call .eax) k, c')
  /-- Any call is of that function, and its argument points to what was interrupted. -/
  hands : ∀ r k c', Reach (machine F) (idtEntry32 idtHandlers32 n, c.deliver n back errorCode)
      (.vis (Instr.call r) k, c') →
    c'.regs r = load32 c'.mem (idtHandlers32 + n.toUInt32 * 4) ∧
      ∀ address, let entry := c'.push address
        IntInfos.at entry.mem entry.argument = .ofCpu c n back errorCode
  /-- When it returns, `iret` is reached. -/
  leaves : ∀ r k c' c'', Reach (machine F) (idtEntry32 idtHandlers32 n, c.deliver n back errorCode)
      (.vis (Instr.call r) k, c') → machine F c' (.call r) () c'' →
    ∃ k' c₃, Reach (machine F) (k (), c'') (.vis Instr.iret k', c₃)
  /-- At `iret` the registers are as they were, and the stack pointer is where the
  processor has left it: at the pushed `eip`. -/
  restores : ∀ k c', Reach (machine F) (idtEntry32 idtHandlers32 n, c.deliver n back errorCode)
      (.vis Instr.iret k, c') →
    (∀ r ≠ .esp, c'.regs r = c.regs r) ∧ c'.esp = c.esp - 12 ∧ c'.back = back

section Runs

variable {F : UInt32 → CFunction 4 44} {idtHandlers32 : UInt32} {n : UInt8} {c c' : Cpu}
  {back : Return} {errorCode : UInt32}

/-- A run that has come to a call or to `iret` has been through the first part. -/
theorem reach_enter {i : Instr} {k : ia32.Ans i → Asm Return} (other : ¬ Plain i)
    (run : Reach (machine F) (idtEntry32 idtHandlers32 n, c.deliver n back errorCode)
      (.vis i k, c')) :
    ∃ c₁, Framed c (allRegs.filter (· ≠ .eax)) ((c.esp - 44) :: saved c n back errorCode) c₁ ∧
      c₁.regs .eax = load32 c₁.mem (idtHandlers32 + n.toUInt32 * 4) ∧
      Reach (machine F) (.vis (Instr.call .eax) fun _ => idtLeave.bind fun _ => Asm.iret, c₁)
        (.vis i k, c') := by
  rw [idtEntry32_eq] at run
  obtain ⟨_, c₁, first, rest⟩ := (straight_idtEnter idtHandlers32 n).only.passes other run
  obtain ⟨frame, address⟩ := (follows_idtEnter idtHandlers32).exec first
  exact ⟨c₁, frame, address, rest⟩

/-- A run from the second part that has come to an instruction other than the plain
ones has come to `iret`. -/
theorem reach_leave {i : Instr} {k : ia32.Ans i → Asm Return} {c₂ : Cpu} {w : UInt32}
    {known : List Reg} (frame : Framed c known (w :: saved c n back errorCode) c₂)
    (other : ¬ Plain i)
    (run : Reach (machine F) (idtLeave.bind fun _ => Asm.iret, c₂) (.vis i k, c')) :
    i = .iret ∧ Framed c ([.eax, .ebx, .ecx, .edx, .esi, .edi] ++ known)
      [back.eip, back.cs, back.eflags] c' := by
  obtain ⟨_, c₃, first, rest⟩ := straight_idtLeave.only.passes other run
  have taken := (follows_idtLeave frame).exec first
  rcases rest.of_vis with ⟨heq, rfl⟩ | ⟨x, c₄, -, beyond⟩
  · cases heq
    exact ⟨rfl, taken⟩
  · rcases beyond.cases_head with heq | ⟨d, step, -⟩
    · cases heq
    · cases step

/-- There is one call. -/
theorem reach_call {r : Reg} {k : ia32.Ans (Instr.call r) → Asm Return}
    (run : Reach (machine F) (idtEntry32 idtHandlers32 n, c.deliver n back errorCode)
      (.vis (Instr.call r) k, c')) :
    r = .eax ∧ (k = fun _ => idtLeave.bind fun _ => Asm.iret) ∧
      Framed c (allRegs.filter (· ≠ .eax)) ((c.esp - 44) :: saved c n back errorCode) c' ∧
      c'.regs .eax = load32 c'.mem (idtHandlers32 + n.toUInt32 * 4) := by
  obtain ⟨c₁, frame, address, rest⟩ := reach_enter id run
  rcases rest.of_vis with ⟨heq, rfl⟩ | ⟨_, c₂, ⟨_, ran⟩, beyond⟩
  · cases heq
    exact ⟨rfl, rfl, frame, address⟩
  · obtain ⟨w, returned⟩ := frame.call (F (c₁.regs .eax)) rfl (by simp [saved]) ran
    cases (reach_leave returned id beyond).1

/-- The call of an entry is reached. -/
theorem exists_call (F : UInt32 → CFunction 4 44) (idtHandlers32 : UInt32) (n : UInt8) (c : Cpu)
    (back : Return) (errorCode : UInt32) :
    ∃ k c', Reach (machine F) (idtEntry32 idtHandlers32 n, c.deliver n back errorCode)
      (.vis (Instr.call .eax) k, c') := by
  obtain ⟨_, c₁, first⟩ :=
    (straight_idtEnter idtHandlers32 n).exists_exec (machine_plain F) (c.deliver n back errorCode)
  rw [idtEntry32_eq]
  exact ⟨_, c₁, first.reach_bind _⟩

/-- What the C function is given. -/
theorem infos_handed {r : Reg} {k : ia32.Ans (Instr.call r) → Asm Return}
    (run : Reach (machine F) (idtEntry32 idtHandlers32 n, c.deliver n back errorCode)
      (.vis (Instr.call r) k, c')) (address : UInt32) :
    IntInfos.at (c'.push address).mem (c'.push address).argument = .ofCpu c n back errorCode := by
  obtain ⟨rfl, -, frame, -⟩ := reach_call run
  have entry := frame.push (x := address) (by simp [saved])
  have argument : (c'.push address).argument = c.esp - 44 := entry.words.2.1
  have pointed : (c'.push address).esp + 4 + 4 = c.esp - 44 := by
    have at_entry : (c'.push address).esp = c.esp - 52 := entry.esp
    rw [at_entry]
    grind
  apply IntInfos.at_saved
  rw [argument, ← pointed]
  exact entry.words.2.2

/-- With what was pushed popped again, every register but the stack pointer is as it was. -/
theorem restored (h : Framed c ([.eax, .ebx, .ecx, .edx, .esi, .edi] ++
      (allRegs.filter (· ≠ .eax)).filter (· ∈ calleeSaved)) [back.eip, back.cs, back.eflags] c') :
    ∀ r ≠ .esp, c'.regs r = c.regs r := by
  intro r ne
  apply h.regs r ?_ ne
  cases r with
  | esp => exact absurd rfl ne
  | _ => decide

/-- THE ENTRIES ARE TRANSPARENT, for every vector, whatever the registers and memory hold
and whatever C functions there are. -/
theorem idtEntry32_transparent (F : UInt32 → CFunction 4 44) (idtHandlers32 : UInt32) (n : UInt8)
    (c : Cpu) (back : Return) (errorCode : UInt32) :
    Transparent F idtHandlers32 n c back errorCode where
  calls := by
    obtain ⟨k, c', run⟩ := exists_call F idtHandlers32 n c back errorCode
    exact ⟨k, c', run⟩
  hands := by
    intro r k c' run
    obtain ⟨rfl, -, -, address⟩ := reach_call run
    exact ⟨address, infos_handed run⟩
  leaves := by
    intro r k c' c'' run _
    obtain ⟨rfl, rfl, -, -⟩ := reach_call run
    obtain ⟨_, c₃, last⟩ := straight_idtLeave.exists_exec (machine_plain F) c''
    exact ⟨_, c₃, last.reach_bind _⟩
  restores := by
    intro k c' run
    obtain ⟨c₁, frame, -, rest⟩ := reach_enter id run
    rcases rest.of_vis with ⟨heq, -⟩ | ⟨_, c₂, ⟨_, ran⟩, beyond⟩
    · cases heq
    · obtain ⟨w, returned⟩ := frame.call (F (c₁.regs .eax)) rfl (by simp [saved]) ran
      obtain ⟨-, last⟩ := reach_leave returned id beyond
      exact ⟨restored last, last.esp, Cpu.back_of_words last.words⟩

/-- The interrupted code goes on where it was, with the registers it had. -/
theorem idtEntry32_resumes {answer : Return}
    (run : Exec (machine F) (idtEntry32 idtHandlers32 n) (c.deliver n back errorCode) answer c') :
    answer = back ∧ c'.regs = c.regs := by
  rw [idtEntry32_eq] at run
  obtain ⟨_, c₁, first, rest⟩ := exec_bind.mp run
  obtain ⟨_, c₂, ⟨_, ran⟩, leaving⟩ := exec_vis.mp rest
  obtain ⟨_, c₃, last, iret⟩ := exec_bind.mp leaving
  obtain ⟨_, _, ⟨rfl, rfl⟩, ended⟩ := exec_vis.mp iret
  obtain ⟨rfl, rfl⟩ := exec_pure.mp ended
  obtain ⟨frame, -⟩ := (follows_idtEnter idtHandlers32).exec first
  obtain ⟨w, returned⟩ := frame.call (F (c₁.regs .eax)) rfl (by simp [saved]) ran
  have taken := (follows_idtLeave returned).exec last
  refine ⟨Cpu.back_of_words taken.words, funext fun r => ?_⟩
  by_cases hr : r = .esp
  · have down : c₃.esp = c.esp - 12 := taken.esp
    rw [hr]
    change (c₃.set .esp (c₃.esp + 12)).esp = c.esp
    rw [c₃.esp_set_esp, down, UInt32.sub_add_cancel]
  · exact (c₃.regs_set_ne _ hr).trans (restored taken r hr)

end Runs

end ToyBootloader
