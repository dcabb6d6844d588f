import ToyBootloader.Resumption.Simulate

/-!
# What the boot code does to the machine

The operations every stage is written in: port input and output, the BIOS
interrupts of real mode, reads and writes of the objects the stages share, byte
loads and stores, and the divide error no stage survives. A C function of the
source is a `Code` over these, in the source's own order, so that a run of the
function is a run of the tree.

Two things are here that the processor does not have.

* `testReceived` is a read of `fpy_irq_received` like `received`, kept apart
  because it is the test of `fpy_wait_irq`'s busy wait: a run's wake-ups are
  read off it.
* `mark` performs nothing. It says which point of the source a run has reached,
  a call or a return, so that a property of runs can name it.

Console output is not here: nothing a stage prints is read back by any stage.
-/

namespace ToyBootloader

open Resumption

/-- `err_t` of `shared/floppy.h`: a pointer to a text, or `NO_ERR`. -/
abbrev ErrT := Option String

/-- `NO_ERR`. -/
abbrev noErr : ErrT := none

/-- The value of `fpy_irq_received`: 0 = wait, 1 = ok, any other pointer an
error's text. -/
inductive Received where
  | wait
  | ok
  | err (e : String)
  deriving DecidableEq, Repr

/-- The test of `while (!fpy_irq_received);`, negated: the pointer is not null. -/
def Received.isSet : Received → Bool
  | .wait => false
  | _ => true

/-- The `uint8_t` globals of `shared/disk_props.c` and `shared/floppy.c`. -/
inductive Var where
  | driveNumber
  | driveTypes
  | maxSectorNumber
  | maxHeadNumber
  | numberOfDrives
  | fpyIrqHandleState
  deriving DecidableEq, Repr

/-- The sixteen-bit registers a real-mode `int` takes and leaves. -/
structure Regs16 where
  ax : UInt16
  bx : UInt16
  cx : UInt16
  dx : UInt16
  deriving DecidableEq, Repr

/-- The thirty-two-bit registers, and the carry flag `setc` reads. -/
structure Regs32 where
  eax : UInt32
  ebx : UInt32
  ecx : UInt32
  edx : UInt32
  carry : Bool
  deriving DecidableEq, Repr

/-- The other objects that a task of stage 2 or 3 or an interrupt handler assigns. -/
inductive Obj where
  /-- `gdt[i]`. -/
  | gdt (i : Nat)
  /-- `seg_cs`, and the data segments' registers. -/
  | segCs | segSs | segEs | segFs | segGs | segDs
  | clflushCl | locApicId | procFeatures | maxCpuid
  | cpuidInfosExtra1c | cpuidInfosExtra1d
  /-- `g_idt[n]`. -/
  | gIdt (n : UInt8)
  /-- `timer` of `stage3/timer.c`. -/
  | timer
  deriving DecidableEq, Repr

/-- What an entry of `idt_handlers_32` points to. -/
inductive Handler where
  | interruptPanic
  | handleInt3
  | handleTimerInterrupt
  | fpyInterruptHandler
  deriving DecidableEq, Repr

/-- What the linker script places on the disk and a load brings to memory. -/
inductive Part where
  | shared | stage2 | stage3 | loaderProtected | stage4 | stage5
  deriving DecidableEq, Repr

/-- The entry points control is transferred to, in the order of the boot. -/
inductive Stage where
  | stage2 | stage3 | loaderProtected | stage4
  deriving DecidableEq, Repr

/-- The points of the source a run can name. -/
inductive Event where
  /-- `fpy_send_command` is called with this command array. -/
  | send (cmd : List UInt8)
  /-- `fpy_send_command` returns. -/
  | sent (err : ErrT)
  /-- `fpy_check_st0`, `_st1`, `_st2` or `_st3` returns. -/
  | checked (err : ErrT)
  /-- The load of a part begins. -/
  | load (part : Part)
  /-- `fpy_copy_bytes` returns. -/
  | copied (err : ErrT)
  /-- Control is transferred to a stage's entry point. -/
  | enter (stage : Stage)
  deriving DecidableEq, Repr

/-- The operations of the boot code. -/
inductive Op where
  /-- `do_inb(port)`. -/
  | inb (port : UInt16)
  /-- `do_outb(port, val)`. -/
  | outb (port : UInt16) (val : UInt8)
  /-- `int $0x13`, the BIOS disk service. -/
  | int13 (r : Regs16)
  /-- `int $0x15`, the BIOS system services. -/
  | int15 (r : Regs32)
  /-- `cpuid` with this `eax`. -/
  | cpuid (eax : UInt32)
  | get (v : Var)
  | set (v : Var) (x : UInt8)
  /-- `cylinder_number`, the one `uint16_t` among the disk properties. -/
  | getCylinder
  | setCylinder (x : UInt16)
  | received
  | setReceived (r : Received)
  | testReceived
  /-- A byte read or written through a pointer. -/
  | load (addr : Nat)
  | store (addr : Nat) (x : UInt8)
  /-- A shared object read or assigned as its bytes. -/
  | fetch (o : Obj)
  | assign (o : Obj) (bytes : List UInt8)
  /-- `set_interrupt(n, h)`: `idt_handlers_32[n]` is assigned. -/
  | setInterrupt (n : UInt8) (h : Handler)
  /-- `mov` from and to a control register, by its number. -/
  | readCr (n : Nat)
  | writeCr (n : Nat) (x : UInt32)
  /-- `rdmsr` with this `ecx`; `wrmsr`, whose `ecx` is what is left there. -/
  | rdmsr (n : UInt32)
  | wrmsr (x : UInt32)
  /-- `sti`: the processor takes interrupts from here on. -/
  | sti
  /-- A division by zero: the processor raises exception 0. -/
  | divideError
  | mark (e : Event)

/-- What each operation is answered with. -/
@[reducible] def Op.Ans : Op → Type
  | .inb _ | .get _ | .load _ => UInt8
  | .int13 _ => Regs16
  | .int15 _ | .cpuid _ => Regs32
  | .getCylinder => UInt16
  | .readCr _ | .rdmsr _ => UInt32
  | .received | .testReceived => Received
  | .fetch _ => List UInt8
  | .divideError => Empty
  | _ => Unit

/-- The boot code's signature. -/
abbrev ops : Sig := ⟨Op, Op.Ans⟩

/-- A C function of the source that returns an `α`. -/
abbrev Code (α : Type) := Prog ops α

namespace Code

def inb (port : UInt16) : Code UInt8 := Prog.call (S := ops) (.inb port)
def outb (port : UInt16) (val : UInt8) : Code Unit := Prog.call (S := ops) (.outb port val)
def int13 (r : Regs16) : Code Regs16 := Prog.call (S := ops) (.int13 r)
def int15 (r : Regs32) : Code Regs32 := Prog.call (S := ops) (.int15 r)
def cpuid (eax : UInt32) : Code Regs32 := Prog.call (S := ops) (.cpuid eax)
def get (v : Var) : Code UInt8 := Prog.call (S := ops) (.get v)
def set (v : Var) (x : UInt8) : Code Unit := Prog.call (S := ops) (.set v x)
def getCylinder : Code UInt16 := Prog.call (S := ops) .getCylinder
def setCylinder (x : UInt16) : Code Unit := Prog.call (S := ops) (.setCylinder x)
def received : Code Received := Prog.call (S := ops) .received
def setReceived (r : Received) : Code Unit := Prog.call (S := ops) (.setReceived r)
def load (addr : Nat) : Code UInt8 := Prog.call (S := ops) (.load addr)
def store (addr : Nat) (x : UInt8) : Code Unit := Prog.call (S := ops) (.store addr x)
def fetch (o : Obj) : Code (List UInt8) := Prog.call (S := ops) (.fetch o)
def assign (o : Obj) (bytes : List UInt8) : Code Unit := Prog.call (S := ops) (.assign o bytes)
def setInterrupt (n : UInt8) (h : Handler) : Code Unit :=
  Prog.call (S := ops) (.setInterrupt n h)
def readCr (n : Nat) : Code UInt32 := Prog.call (S := ops) (.readCr n)
def writeCr (n : Nat) (x : UInt32) : Code Unit := Prog.call (S := ops) (.writeCr n x)
def rdmsr (n : UInt32) : Code UInt32 := Prog.call (S := ops) (.rdmsr n)
def wrmsr (x : UInt32) : Code Unit := Prog.call (S := ops) (.wrmsr x)
def sti : Code Unit := Prog.call (S := ops) .sti
def mark (e : Event) : Code Unit := Prog.call (S := ops) (.mark e)

/-- `do { } while (!test(inb(port)))`: read the port until the test passes. -/
def inbUntil (port : UInt16) (test : UInt8 → Bool) : Code UInt8 :=
  Prog.spin (S := ops) (.inb port) test

/-- `while (!fpy_irq_received);` -/
def untilReceived : Code Received := Prog.spin (S := ops) .testReceived Received.isSet

/-- `SET_BIT(REG, BIT)` of `shared/sys_regs.h`, for a control register. -/
def setCrBit (n : Nat) (bit : UInt32) : Code Unit := do
  let x ← readCr n
  writeCr n (x ||| (1 <<< bit))

/-- The divide error ends the program that raised it: nothing returns from
`interrupt_panic`. -/
def divideError {α : Type} : Code α := .vis (S := ops) Op.divideError fun e => nomatch e

/-- A `uint32_t` division. An `int` division is one too where neither side is
negative. -/
def udiv (a b : UInt32) : Code UInt32 := if b = 0 then divideError else return a / b

/-- A `uint32_t` remainder. -/
def umod (a b : UInt32) : Code UInt32 := if b = 0 then divideError else return a % b

section Divide

variable {α : Type} {a b : UInt32}

theorem udiv_bind (hb : b ≠ 0) (k : UInt32 → Code α) : (udiv a b).bind k = k (a / b) := by
  rw [udiv, if_neg hb]
  rfl

theorem umod_bind (hb : b ≠ 0) (k : UInt32 → Code α) : (umod a b).bind k = k (a % b) := by
  rw [umod, if_neg hb]
  rfl

/-- A division by zero goes no further. -/
theorem udiv_zero_bind (a : UInt32) (k : UInt32 → Code α) :
    (udiv a 0).bind k = .vis (S := ops) .divideError fun e => nomatch e := by
  simp only [udiv, if_true, divideError, Prog.vis_bind]
  congr
  funext e
  cases e

end Divide

/-- Two bytes have a product that does not reach 32 bits. -/
theorem toNat_mul_toUInt32 (h n : UInt8) :
    (h.toUInt32 * n.toUInt32).toNat = h.toNat * n.toNat := by
  have hlt : h.toNat * n.toNat < 2 ^ 32 :=
    Nat.lt_of_lt_of_le (Nat.mul_lt_mul'' h.toNat_lt n.toNat_lt) (by decide)
  rw [UInt32.toNat_mul, UInt8.toNat_toUInt32, UInt8.toNat_toUInt32, Nat.mod_eq_of_lt hlt]

theorem toNat_pos {n : UInt8} (hn : n ≠ 0) : 0 < n.toNat :=
  Nat.pos_of_ne_zero fun h => hn (UInt8.toNat_inj.mp h)

theorem toUInt32_ne_zero {n : UInt8} (hn : n ≠ 0) : n.toUInt32 ≠ 0 := by
  intro h
  have := congrArg UInt32.toNat h
  rw [UInt8.toNat_toUInt32] at this
  exact hn (UInt8.toNat_inj.mp this)

/-- A divisor that is the product of two bytes is zero only with one of them. -/
theorem mul_toUInt32_ne_zero {h n : UInt8} (hh : h ≠ 0) (hn : n ≠ 0) :
    h.toUInt32 * n.toUInt32 ≠ 0 := by
  intro hzero
  have hmul := congrArg UInt32.toNat hzero
  rw [toNat_mul_toUInt32] at hmul
  exact Nat.ne_of_gt (Nat.mul_pos (toNat_pos hh) (toNat_pos hn)) hmul

/-! An operation followed by its continuation is a node of the tree. -/

section Nodes

variable {α : Type}

@[simp] theorem inb_bind (port : UInt16) (k : UInt8 → Code α) :
    (inb port).bind k = .vis (S := ops) (.inb port) k := rfl

@[simp] theorem outb_bind (port : UInt16) (val : UInt8) (k : Unit → Code α) :
    (outb port val).bind k = .vis (S := ops) (.outb port val) k := rfl

@[simp] theorem int13_bind (r : Regs16) (k : Regs16 → Code α) :
    (int13 r).bind k = .vis (S := ops) (.int13 r) k := rfl

@[simp] theorem int15_bind (r : Regs32) (k : Regs32 → Code α) :
    (int15 r).bind k = .vis (S := ops) (.int15 r) k := rfl

@[simp] theorem cpuid_bind (eax : UInt32) (k : Regs32 → Code α) :
    (cpuid eax).bind k = .vis (S := ops) (.cpuid eax) k := rfl

@[simp] theorem get_bind (v : Var) (k : UInt8 → Code α) :
    (get v).bind k = .vis (S := ops) (.get v) k := rfl

@[simp] theorem set_bind (v : Var) (x : UInt8) (k : Unit → Code α) :
    (set v x).bind k = .vis (S := ops) (.set v x) k := rfl

@[simp] theorem getCylinder_bind (k : UInt16 → Code α) :
    getCylinder.bind k = .vis (S := ops) .getCylinder k := rfl

@[simp] theorem setCylinder_bind (x : UInt16) (k : Unit → Code α) :
    (setCylinder x).bind k = .vis (S := ops) (.setCylinder x) k := rfl

@[simp] theorem received_bind (k : Received → Code α) :
    received.bind k = .vis (S := ops) .received k := rfl

@[simp] theorem setReceived_bind (r : Received) (k : Unit → Code α) :
    (setReceived r).bind k = .vis (S := ops) (.setReceived r) k := rfl

@[simp] theorem untilReceived_bind (k : Received → Code α) :
    untilReceived.bind k = .poll (S := ops) .testReceived Received.isSet k := rfl

@[simp] theorem load_bind (addr : Nat) (k : UInt8 → Code α) :
    (load addr).bind k = .vis (S := ops) (.load addr) k := rfl

@[simp] theorem store_bind (addr : Nat) (x : UInt8) (k : Unit → Code α) :
    (store addr x).bind k = .vis (S := ops) (.store addr x) k := rfl

@[simp] theorem fetch_bind (o : Obj) (k : List UInt8 → Code α) :
    (fetch o).bind k = .vis (S := ops) (.fetch o) k := rfl

@[simp] theorem assign_bind (o : Obj) (bytes : List UInt8) (k : Unit → Code α) :
    (assign o bytes).bind k = .vis (S := ops) (.assign o bytes) k := rfl

@[simp] theorem setInterrupt_bind (n : UInt8) (h : Handler) (k : Unit → Code α) :
    (setInterrupt n h).bind k = .vis (S := ops) (.setInterrupt n h) k := rfl

@[simp] theorem readCr_bind (n : Nat) (k : UInt32 → Code α) :
    (readCr n).bind k = .vis (S := ops) (.readCr n) k := rfl

@[simp] theorem writeCr_bind (n : Nat) (x : UInt32) (k : Unit → Code α) :
    (writeCr n x).bind k = .vis (S := ops) (.writeCr n x) k := rfl

@[simp] theorem rdmsr_bind (n : UInt32) (k : UInt32 → Code α) :
    (rdmsr n).bind k = .vis (S := ops) (.rdmsr n) k := rfl

@[simp] theorem wrmsr_bind (x : UInt32) (k : Unit → Code α) :
    (wrmsr x).bind k = .vis (S := ops) (.wrmsr x) k := rfl

@[simp] theorem sti_bind (k : Unit → Code α) : sti.bind k = .vis (S := ops) .sti k := rfl

@[simp] theorem mark_bind (e : Event) (k : Unit → Code α) :
    (mark e).bind k = .vis (S := ops) (.mark e) k := rfl

@[simp] theorem inbUntil_bind (port : UInt16) (test : UInt8 → Bool) (k : UInt8 → Code α) :
    (inbUntil port test).bind k = .poll (S := ops) (.inb port) test k := rfl

end Nodes

end Code

end ToyBootloader
