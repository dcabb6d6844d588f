import Mathlib.Logic.Function.Basic
import ToyBootloader.Memory.Stack
import ToyBootloader.Resumption.Exec

/-!
# Calls on a 32-bit processor

The registers and the stack of an IA-32 processor, the few instructions that code
between an interrupt and a C function is made of, and the two agreements such code
stands between: what the processor pushes when it delivers an interrupt, and what a C
function may do to the caller.

`Framed` is what holds on the way: which registers still have the values they were
interrupted with, and which words lie on the stack. Each instruction has a rule for it,
so code is walked an instruction at a time without its memory ever being computed.
-/

namespace ToyBootloader.Ia32

open Resumption Memory

/-- The general registers. -/
inductive Reg where
  | eax | ecx | edx | ebx | esp | ebp | esi | edi
  deriving DecidableEq, Repr

/-- The registers, the interrupt flag and the memory. -/
structure Cpu where
  regs : Reg → UInt32
  interruptible : Bool
  mem : Mem32

namespace Cpu

def esp (c : Cpu) : UInt32 := c.regs .esp

/-- A register assigned. -/
def set (c : Cpu) (r : Reg) (x : UInt32) : Cpu := { c with regs := Function.update c.regs r x }

def push (c : Cpu) (x : UInt32) : Cpu :=
  { c.set .esp (c.esp - 4) with mem := store32 c.mem (c.esp - 4) x }

/-- `pop`, which has moved the stack pointer before it assigns the register. -/
def pop (c : Cpu) (r : Reg) : Cpu := (c.set .esp (c.esp + 4)).set r (load32 c.mem c.esp)

/-- The first argument, on entry to a C function: above the return address. -/
def argument (c : Cpu) : UInt32 := load32 c.mem (c.esp + 4)

variable (c : Cpu) (r : Reg) (x : UInt32)

@[simp] theorem mem_set : (c.set r x).mem = c.mem := rfl

@[simp] theorem regs_set_self : (c.set r x).regs r = x :=
  Function.update_self (β := fun _ => UInt32) r x c.regs

theorem regs_set_ne {r r' : Reg} (h : r' ≠ r) : (c.set r x).regs r' = c.regs r' :=
  Function.update_of_ne (β := fun _ => UInt32) h x c.regs

@[simp] theorem esp_set_esp : (c.set .esp x).esp = x := c.regs_set_self .esp x

theorem esp_set_ne {r : Reg} (h : r ≠ .esp) : (c.set r x).esp = c.esp :=
  c.regs_set_ne x (Ne.symm h)

@[simp] theorem esp_push : (c.push x).esp = c.esp - 4 := c.regs_set_self .esp (c.esp - 4)

@[simp] theorem mem_push : (c.push x).mem = store32 c.mem (c.esp - 4) x := rfl

theorem regs_push {r : Reg} (h : r ≠ .esp) : (c.push x).regs r = c.regs r :=
  c.regs_set_ne (c.esp - 4) h

end Cpu

/-! ## C functions -/

/-- The registers a C function keeps. -/
def calleeSaved : List Reg := [.ebx, .esi, .edi, .ebp]

/-- A C function with `args` bytes of arguments whose caller has `frame` bytes above
them: what it may do from its entry, where the return address is on top of the stack, to
its return, if it returns. It may write its arguments and everything that is not the
caller's frame. -/
structure CFunction (args frame : Nat) where
  run : Cpu → Cpu → Prop
  returns : ∀ {c c'}, run c c' → c'.esp = c.esp + 4
  saves : ∀ {c c'}, run c c' → ∀ r ∈ calleeSaved, c'.regs r = c.regs r
  keeps : ∀ {c c'}, run c c' → ∀ k < frame,
    c'.mem (c.esp + UInt32.ofNat (4 + args + k)) = c.mem (c.esp + UInt32.ofNat (4 + args + k))

/-- A function that returns at once. -/
instance {args frame : Nat} : Inhabited (CFunction args frame) where
  default :=
    { run c c' := c' = c.set .esp (c.esp + 4)
      returns := by
        rintro c _ rfl
        exact c.esp_set_esp _
      saves := by
        rintro c _ rfl r hr
        apply c.regs_set_ne
        rintro rfl
        exact absurd hr (by decide)
      keeps := by
        rintro c _ rfl k _
        rfl }

/-! ## Interrupts -/

/-- Where an interrupt goes back to. -/
structure Return where
  eip : UInt32
  cs : UInt32
  eflags : UInt32
  deriving DecidableEq, Repr

/-- The vectors for which the processor pushes an error code. -/
def pushesErrorCode (n : UInt8) : Bool := n == 8 || (10 ≤ n && n ≤ 14) || n == 17

/-- The processor delivers interrupt `n`, at one privilege level. -/
def Cpu.deliver (n : UInt8) (back : Return) (errorCode : UInt32) (c : Cpu) : Cpu :=
  let c := ((c.push back.eflags).push back.cs).push back.eip
  if pushesErrorCode n then c.push errorCode else c

/-- Where `iret` goes. -/
def Cpu.back (c : Cpu) : Return where
  eip := load32 c.mem c.esp
  cs := load32 c.mem (c.esp + 4)
  eflags := load32 c.mem (c.esp + 8)

theorem Cpu.back_of_words {c : Cpu} {back : Return}
    (h : Words c.mem c.esp [back.eip, back.cs, back.eflags]) : c.back = back := by
  have eip : load32 c.mem c.esp = back.eip := h.1
  have cs : load32 c.mem (c.esp + 4) = back.cs := h.2.1
  have eflags : load32 c.mem (c.esp + 8) = back.eflags := h.load (i := 2) (by simp)
  unfold Cpu.back
  rw [eip, cs, eflags]

/-! ## Instructions -/

inductive Instr where
  | cli
  | pushl (x : UInt32)
  | push (r : Reg)
  | pop (r : Reg)
  /-- `mov (a), %r` -/
  | load (a : UInt32) (r : Reg)
  | add (x : UInt32) (r : Reg)
  /-- `call *%r` -/
  | call (r : Reg)
  | iret
  deriving DecidableEq, Repr

/-- The instructions as operations. `iret` is answered with where it goes. -/
def ia32 : Sig where
  Op := Instr
  Ans
    | .iret => Return
    | _ => Unit

/-- Code, for what it leaves. -/
abbrev Asm := Prog ia32

namespace Asm

def cli : Asm Unit := .vis Instr.cli .pure
def pushl (x : UInt32) : Asm Unit := .vis (Instr.pushl x) .pure
def push (r : Reg) : Asm Unit := .vis (Instr.push r) .pure
def pop (r : Reg) : Asm Unit := .vis (Instr.pop r) .pure
def load (a : UInt32) (r : Reg) : Asm Unit := .vis (Instr.load a r) .pure
def add (x : UInt32) (r : Reg) : Asm Unit := .vis (Instr.add x r) .pure
def call (r : Reg) : Asm Unit := .vis (Instr.call r) .pure
def iret : Asm Return := .vis Instr.iret .pure

end Asm

/-- The processor, with `F` the functions there are. A call may push any return address:
where the code itself lies is not said. Of the flags only the interrupt flag is kept. -/
def machine {args frame : Nat} (F : UInt32 → CFunction args frame) : Machine ia32 Cpu :=
  fun c i => match i with
  | .cli => fun _ c' => c' = { c with interruptible := false }
  | .pushl x => fun _ c' => c' = c.push x
  | .push r => fun _ c' => c' = c.push (c.regs r)
  | .pop r => fun _ c' => c' = c.pop r
  | .load a r => fun _ c' => c' = c.set r (load32 c.mem a)
  | .add x r => fun _ c' => c' = c.set r (c.regs r + x)
  | .call r => fun _ c' => ∃ address, (F (c.regs r)).run (c.push address) c'
  | .iret => fun back c' => back = c.back ∧
      c' = { c.set .esp (c.esp + 12) with interruptible := (c.back.eflags >>> 9) &&& 1 = 1 }

/-! ## The frame -/

/-- On the way: the registers of `known` are as they were in `c₀`, and since `c₀` the
words `ws` have been pushed. -/
structure Framed (c₀ : Cpu) (known : List Reg) (ws : List UInt32) (c : Cpu) : Prop where
  esp : c.esp = c₀.esp - UInt32.ofNat (4 * ws.length)
  regs : ∀ r ∈ known, r ≠ .esp → c.regs r = c₀.regs r
  words : Words c.mem c.esp ws

/-- Nothing has been pushed. -/
theorem framed_refl (c : Cpu) (known : List Reg) : Framed c known [] c where
  esp := (UInt32.sub_zero c.esp).symm
  regs _ _ _ := rfl
  words := trivial

namespace Framed

variable {c₀ c : Cpu} {known : List Reg} {w x : UInt32} {u ws : List UInt32}

theorem push (h : Framed c₀ known ws c) (fits : 4 * ws.length + 4 ≤ 2 ^ 32) :
    Framed c₀ known (x :: ws) (c.push x) where
  esp := by
    have word : UInt32.ofNat 4 = 4 := rfl
    rw [c.esp_push, h.esp, List.length_cons, Nat.mul_succ, UInt32.ofNat_add, word]
    grind
  regs r hr ne := (c.regs_push x ne).trans (h.regs r hr ne)
  words := by
    rw [c.mem_push, c.esp_push]
    exact h.words.push fits

/-- The top words dropped. -/
theorem drop (h : Framed c₀ known (u ++ ws) c) :
    Framed c₀ known ws (c.set .esp (c.esp + UInt32.ofNat (4 * u.length))) where
  esp := by
    rw [c.esp_set_esp, h.esp, List.length_append, Nat.mul_add, UInt32.ofNat_add]
    grind
  regs r hr ne := (c.regs_set_ne _ ne).trans (h.regs r hr ne)
  words := by
    rw [c.esp_set_esp, c.mem_set]
    exact h.words.drop

/-- A register assigned, with what it was. -/
theorem restore {r : Reg} (h : Framed c₀ known ws c) (ne : r ≠ .esp) (hx : x = c₀.regs r) :
    Framed c₀ (r :: known) ws (c.set r x) where
  esp := (c.esp_set_ne x ne).trans h.esp
  regs r' hr' ne' := by
    by_cases same : r' = r
    · rw [same, c.regs_set_self, hx]
    · rw [c.regs_set_ne x same]
      exact h.regs r' (List.mem_of_ne_of_mem same hr') ne'
  words := by
    rw [c.esp_set_ne x ne, c.mem_set]
    exact h.words

/-- A register assigned, with anything. -/
theorem lose {r : Reg} (h : Framed c₀ known ws c) (ne : r ≠ .esp) :
    Framed c₀ (known.filter (· ≠ r)) ws (c.set r x) where
  esp := (c.esp_set_ne x ne).trans h.esp
  regs r' hr' ne' := by
    obtain ⟨hr', same⟩ := List.mem_filter.mp hr'
    rw [c.regs_set_ne x (of_decide_eq_true same)]
    exact h.regs r' hr' ne'
  words := by
    rw [c.esp_set_ne x ne, c.mem_set]
    exact h.words

/-- The top word popped into the register it was pushed from. -/
theorem pop {r : Reg} (h : Framed c₀ known (c₀.regs r :: ws) c) (ne : r ≠ .esp) :
    Framed c₀ (r :: known) ws (c.pop r) :=
  (drop (u := [c₀.regs r]) h).restore ne h.words.1

/-- THE CALL: of a function whose caller's frame is the words below its one argument. -/
theorem call {frame : Nat} (f : CFunction 4 frame) (h : Framed c₀ known (w :: ws) c)
    (size : 4 * ws.length = frame) (fits : 4 * ws.length + 8 ≤ 2 ^ 32) {address : UInt32} {c' : Cpu}
    (run : f.run (c.push address) c') :
    ∃ w', Framed c₀ (known.filter (· ∈ calleeSaved)) (w' :: ws) c' := by
  have entry : Framed c₀ known (address :: w :: ws) (c.push address) := h.push fits
  have esp : c'.esp = c.esp := by
    rw [f.returns run, c.esp_push, UInt32.sub_add_cancel]
  refine ⟨load32 c'.mem c'.esp, esp.trans h.esp, ?_, rfl, ?_⟩
  · intro r hr ne
    obtain ⟨hr, saved⟩ := List.mem_filter.mp hr
    rw [f.saves run r (of_decide_eq_true saved)]
    exact entry.regs r hr ne
  · have frame_at : ∀ k, c'.esp + 4 + UInt32.ofNat k = (c.push address).esp + UInt32.ofNat (4 + 4 + k) := by
      intro k
      rw [f.returns run, UInt32.ofNat_add, UInt32.ofNat_add]
      grind
    have above : Words (c.push address).mem (c'.esp + 4) ws := by
      rw [f.returns run]
      exact entry.words.2.2
    apply above.congr
    intro k hk
    rw [frame_at]
    exact f.keeps run k (by omega)

end Framed

/-! ## Code -/

/-- Code that pushes registers, or pops them. -/
def pushes : List Reg → Asm Unit
  | [] => .pure ()
  | r :: rs => .vis (Instr.push r) fun _ => pushes rs

def pops : List Reg → Asm Unit
  | [] => .pure ()
  | r :: rs => .vis (Instr.pop r) fun _ => pops rs

namespace Framed

variable {c₀ c : Cpu} {known : List Reg} {u ws : List UInt32} {args frame : Nat}
  {F : UInt32 → CFunction args frame}

theorem follows_pushes {rs : List Reg} (h : Framed c₀ known ws c)
    (hrs : ∀ r ∈ rs, r ∈ known ∧ r ≠ .esp) (fits : 4 * ws.length + 4 * rs.length ≤ 2 ^ 32) :
    Follows (machine F) (fun _ _ => True) (pushes rs)
      (fun _ => Framed c₀ known (rs.reverse.map c₀.regs ++ ws)) c := by
  induction rs generalizing ws c with
  | nil => exact h
  | cons r rs ih =>
    obtain ⟨hr, ne⟩ := hrs r List.mem_cons_self
    rw [List.length_cons] at fits
    apply follows_to trivial fun _ _ hm => hm
    intro _
    rw [List.reverse_cons, List.map_append, List.append_assoc, h.regs r hr ne]
    apply ih (h.push (by omega)) fun r' hr' => hrs r' (List.mem_cons_of_mem r hr')
    rw [List.length_cons]
    omega

theorem follows_pops {rs : List Reg} (h : Framed c₀ known (rs.map c₀.regs ++ ws) c)
    (hrs : ∀ r ∈ rs, r ≠ .esp) :
    Follows (machine F) (fun _ _ => True) (pops rs)
      (fun _ => Framed c₀ (rs.reverse ++ known) ws) c := by
  induction rs generalizing known c with
  | nil => exact h
  | cons r rs ih =>
    apply follows_to trivial fun _ _ hm => hm
    intro _
    rw [List.reverse_cons, List.append_assoc]
    exact ih (h.pop (hrs r List.mem_cons_self)) fun r' hr' => hrs r' (List.mem_cons_of_mem r hr')

end Framed

end ToyBootloader.Ia32
