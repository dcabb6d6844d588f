import ToyBootloader.Resumption.Only
import ToyBootloader.Stage3.Load

/-!
# What the driver and the loaders perform

The footprints: which operations a function of the source can perform at all.
The driver's commands touch ports, the interrupt's two globals and the
geometry's, and never memory; a copy stores in its destination only; clearing
stores in what it clears.
-/

namespace ToyBootloader

open Resumption Code

/-! ## Ports -/

/-- Port input and output. -/
def Op.isPort : Op → Prop
  | .inb _ | .outb _ _ => True
  | _ => False

/-- Input from the controller. -/
def Op.isInput : Op → Prop
  | .inb port => port = FPY_MSR ∨ port = FPY_FIFO
  | _ => False

theorem Op.isInput.isPort {op : Op} (h : op.isInput) : op.isPort := by
  cases op with
  | inb port => trivial
  | _ => cases h

/-- Input from the controller, and output to its FIFO: what the byte functions
perform. -/
def Op.isFifo : Op → Prop
  | .inb port => port = FPY_MSR ∨ port = FPY_FIFO
  | .outb port _ => port = FPY_FIFO
  | _ => False

theorem Op.isFifo.isPort {op : Op} (h : op.isFifo) : op.isPort := by
  cases op with
  | inb port | outb port v => trivial
  | _ => cases h

theorem Op.isInput.isFifo {op : Op} (h : op.isInput) : op.isFifo := by
  cases op with
  | inb port => exact h
  | _ => cases h

theorem input_fpyReadDataLoop : ∀ n, Only Op.isInput (fpyReadDataLoop n)
  | 0 => trivial
  | n + 1 => by
    simp only [fpyReadDataLoop, fpyReadStatus, Prog.bind_eq, inb_bind, only_vis]
    refine ⟨.inl rfl, fun a => ?_⟩
    split
    · exact ⟨.inr rfl, fun _ => trivial⟩
    · exact input_fpyReadDataLoop n

theorem input_fpyReadData : Only Op.isInput fpyReadData := input_fpyReadDataLoop 1000

theorem port_fpyReadData : Only Op.isPort fpyReadData :=
  input_fpyReadData.mono fun _ => Op.isInput.isPort

theorem fifo_fpySendCommandByteLoop (b : UInt8) :
    ∀ n, Only Op.isFifo (fpySendCommandByteLoop b n)
  | 0 => trivial
  | n + 1 => by
    simp only [fpySendCommandByteLoop, fpyReadStatus, Prog.bind_eq, inb_bind, only_vis]
    refine ⟨.inl rfl, fun a => ?_⟩
    split
    · exact ⟨rfl, fun _ => trivial⟩
    · exact fifo_fpySendCommandByteLoop b n

theorem port_fpySendCommandByteLoop (b : UInt8) (n : Nat) :
    Only Op.isPort (fpySendCommandByteLoop b n) :=
  (fifo_fpySendCommandByteLoop b n).mono fun _ => Op.isFifo.isPort

theorem fifo_fpySendCommandLoop (msr : UInt8) (wait : Bool) :
    ∀ bs, Only Op.isFifo (fpySendCommandLoop msr wait bs)
  | [] => by
    cases wait with
    | true => exact ⟨.inl rfl, fun _ => trivial⟩
    | false => trivial
  | b :: bs => by
    refine ⟨.inl rfl, fun _ => ?_⟩
    split
    · trivial
    · refine (fifo_fpySendCommandByteLoop b 1000).bind fun e => ?_
      cases e with
      | some e => trivial
      | none => exact fifo_fpySendCommandLoop msr wait bs

theorem fifo_fpySendCommandBody (cmd : List UInt8) (wait : Bool) :
    Only Op.isFifo (fpySendCommandBody cmd wait) := by
  simp only [fpySendCommandBody, fpyReadStatus, Prog.bind_eq, inb_bind, only_vis]
  refine ⟨.inl rfl, fun msr => ?_⟩
  split
  · trivial
  · exact fifo_fpySendCommandLoop msr wait cmd

theorem port_fpySendCommandBody (cmd : List UInt8) (wait : Bool) :
    Only Op.isPort (fpySendCommandBody cmd wait) :=
  (fifo_fpySendCommandBody cmd wait).mono fun _ => Op.isFifo.isPort

/-! ## Commands -/

/-- The FIFO's operations, and the marks of a command and of a status check. -/
def Op.isFifoCommand : Op → Prop
  | .mark (.send _) | .mark (.sent _) | .mark (.checked _) => True
  | op => op.isFifo

theorem Op.isFifo.isFifoCommand {op : Op} (h : op.isFifo) : op.isFifoCommand := by
  cases op with
  | mark e => cases h
  | _ => exact h

/-- Code that talks to the controller through the FIFO only. -/
abbrev Talks {α : Type} (p : Code α) : Prop := Only Op.isFifoCommand p

theorem talks_checked (err : ErrT) : Talks (checked err) := ⟨trivial, fun _ => trivial⟩

theorem talks_of_input {op : Op} (h : op.isInput) : op.isFifoCommand := h.isFifo.isFifoCommand

theorem talks_fpyReadData : Talks fpyReadData := input_fpyReadData.mono fun _ => talks_of_input

theorem talks_fpySendCommand (cmd : List UInt8) (wait : Bool) :
    Talks (fpySendCommand cmd wait) :=
  ⟨trivial, fun _ => ((fifo_fpySendCommandBody cmd wait).mono fun _ => Op.isFifo.isFifoCommand).bind
    fun _ => ⟨trivial, fun _ => trivial⟩⟩

/-- A status byte read and checked, and what follows when it passes. -/
theorem only_status {K : Op → Prop} (input : ∀ op, op.isInput → K op)
    (mark : ∀ e, K (.mark (.checked e))) {α : Type} {check : UInt8 → ErrT}
    {k : UInt8 → ErrT → Code α} (failed : ∀ b e, Only K (k b (some e)))
    (passed : ∀ b, Only K (k b none)) :
    Only K (fpyReadData.bind fun b => (checked (check b)).bind (k b)) := by
  apply (input_fpyReadData.mono input).bind
  intro b
  refine ⟨mark _, fun _ => ?_⟩
  cases check b with
  | some e => exact failed b e
  | none => exact passed b

/-- A result is input and its checks. -/
theorem only_fpyCmdGenRes {K : Op → Prop} (input : ∀ op, op.isInput → K op)
    (mark : ∀ e, K (.mark (.checked e))) : Only K fpyCmdGenRes := by
  have read : Only K fpyReadData := input_fpyReadData.mono input
  refine only_status input mark (fun _ _ => trivial) fun st0 => ?_
  refine only_status input mark (fun _ _ => trivial) fun st1 => ?_
  refine only_status input mark (fun _ _ => trivial) fun st2 => ?_
  exact read.bind fun _ => read.bind fun _ => read.bind fun _ => read.bind fun _ => trivial

theorem talks_fpyCmdGenRes : Talks fpyCmdGenRes :=
  only_fpyCmdGenRes (fun _ => talks_of_input) fun _ => trivial

theorem talks_fpyCmdCheckInterrupt : Talks fpyCmdCheckInterrupt := by
  refine (talks_fpySendCommand _ true).bind fun e => ?_
  cases e with
  | some e => trivial
  | none =>
    refine only_status (fun _ => talks_of_input) (fun _ => trivial) (fun _ _ => trivial) fun st0 => ?_
    exact talks_fpyReadData.bind fun _ => trivial

/-- Ports, and the marks of a command and of a status check: the operations of
every command that waits for no interrupt. -/
def Op.isCommand : Op → Prop
  | .mark (.send _) | .mark (.sent _) | .mark (.checked _) => True
  | op => op.isPort

theorem Op.isPort.isCommand {op : Op} (h : op.isPort) : op.isCommand := by
  cases op with
  | mark e => cases h
  | _ => exact h

/-- Code that only talks to the controller. -/
abbrev Command {α : Type} (p : Code α) : Prop := Only Op.isCommand p

theorem command_of_talks {α : Type} {p : Code α} (h : Talks p) : Command p :=
  h.mono fun op hop => by
    cases op with
    | mark e => cases e <;> exact hop
    | _ => exact Op.isPort.isCommand (Op.isFifo.isPort hop)

theorem command_fpySendCommand (cmd : List UInt8) (wait : Bool) :
    Command (fpySendCommand cmd wait) :=
  command_of_talks (talks_fpySendCommand cmd wait)

theorem command_fpyCmdGenRes : Command fpyCmdGenRes := command_of_talks talks_fpyCmdGenRes

theorem command_fpyCmdCheckInterrupt : Command fpyCmdCheckInterrupt :=
  command_of_talks talks_fpyCmdCheckInterrupt

theorem command_fpyCmdSeekHead (p : FpyCmdSeekHeadParams) : Command (fpyCmdSeekHead p) :=
  command_fpySendCommand _ true

theorem port_fpyCmdCheckVersion : Only Op.isPort fpyCmdCheckVersion := by
  refine (port_fpySendCommandByteLoop _ 1000).bind fun e => ?_
  cases e with
  | some e => trivial
  | none =>
    refine port_fpyReadData.bind fun x => ?_
    split <;> trivial

/-! ## The driver -/

/-- The operations of the driver: its commands', and the interrupt's globals. -/
def Op.isDriver : Op → Prop
  | .get _ | .set .fpyIrqHandleState _ => True
  | .received | .setReceived _ | .testReceived => True
  | op => op.isCommand

theorem Op.isCommand.isDriver {op : Op} (h : op.isCommand) : op.isDriver := by
  cases op with
  | set v x => cases h
  | mark e => cases e <;> exact h
  | _ => first | exact h | trivial

/-- Code in the driver's alphabet. -/
abbrev Driver {α : Type} (p : Code α) : Prop := Only Op.isDriver p

theorem driver_of_command {α : Type} {p : Code α} (h : Command p) : Driver p :=
  h.mono fun _ => Op.isCommand.isDriver

/-- The operations of `fpy_wait_irq`. -/
def Op.isWait : Op → Prop
  | .received | .testReceived | .setReceived .wait => True
  | _ => False

theorem Op.isWait.isDriver {op : Op} (h : op.isWait) : op.isDriver := by
  cases op with
  | received | testReceived | setReceived r => trivial
  | _ => cases h

theorem wait_irqErr : Only Op.isWait irqErr := by
  simp only [irqErr, Prog.bind_eq, received_bind, only_vis]
  refine ⟨trivial, fun r => ?_⟩
  split
  · exact ⟨trivial, fun _ => trivial⟩
  · trivial

theorem wait_fpyWaitIrq : Only Op.isWait fpyWaitIrq :=
  ⟨trivial, fun _ => wait_irqErr.bind fun _ => ⟨trivial, fun _ => trivial⟩⟩

/-- A READ: the flag set for it, its command, the wait and the result. -/
theorem only_fpyCmdReadSector_of {K : Op → Prop} (prepare : K (.set .fpyIrqHandleState 1))
    (command : ∀ op, op.isCommand → K op) (wait : ∀ op, op.isWait → K op)
    (p : FpyCmdReadSectorParams) : Only K (fpyCmdReadSector p) := by
  refine ⟨prepare, fun _ => ((command_fpySendCommand _ true).mono command).bind fun e => ?_⟩
  cases e with
  | some e => trivial
  | none => exact (wait_fpyWaitIrq.mono wait).bind fun _ => command_fpyCmdGenRes.mono command

theorem driver_fpyCmdReadSector (p : FpyCmdReadSectorParams) : Driver (fpyCmdReadSector p) :=
  only_fpyCmdReadSector_of trivial (fun _ => Op.isCommand.isDriver) (fun _ => Op.isWait.isDriver) p

theorem driver_fpyCmdSeekHead (p : FpyCmdSeekHeadParams) : Driver (fpyCmdSeekHead p) :=
  driver_of_command (command_fpyCmdSeekHead p)

theorem driver_fpyInterruptHandler : Driver fpyInterruptHandler := by
  simp only [fpyInterruptHandler, Prog.bind_eq, get_bind, only_vis]
  refine ⟨trivial, fun st => ?_⟩
  split
  · exact ⟨trivial, fun _ => ⟨trivial, fun _ => ⟨trivial, fun _ => trivial⟩⟩⟩
  · exact (driver_of_command command_fpyCmdCheckInterrupt).bind
      fun r => ⟨trivial, fun _ => ⟨trivial, fun _ => trivial⟩⟩

/-! ## Arithmetic and moves -/

/-- The operations of the address conversion: the geometry read, and a division
that may fault. -/
def Op.isArith : Op → Prop
  | .get _ | .divideError => True
  | _ => False

theorem straight_divide (a b : UInt32) :
    Straight Op.isArith (udiv a b) ∧ Straight Op.isArith (umod a b) := by
  constructor
  all_goals
    simp only [udiv, umod]
    split
    · exact ⟨trivial, Empty.rec⟩
    · trivial

theorem straight_lbaToChs (lba : UInt32) : Straight Op.isArith (lbaToChs lba) := by
  refine ⟨trivial, fun _ => ⟨trivial, fun _ => (straight_divide _ _).1.bind fun _ => ?_⟩⟩
  refine ⟨trivial, fun _ => (straight_divide _ _).1.bind fun _ => ?_⟩
  refine ⟨trivial, fun _ => (straight_divide _ _).2.bind fun _ => ?_⟩
  exact ⟨trivial, fun _ => (straight_divide _ _).2.bind fun _ => trivial⟩

theorem arith_lbaToChs (lba : UInt32) : Only Op.isArith (lbaToChs lba) :=
  (straight_lbaToChs lba).only

theorem straight_copyKernelChs (index : UInt8) : Straight Op.isArith (copyKernelChs index) := by
  simp only [copyKernelChs, Prog.bind_eq, get_bind, straight_vis]
  refine ⟨trivial, fun heads => ?_⟩
  split
  · refine ⟨trivial, fun _ => ⟨trivial, fun _ => (straight_divide _ _).1.bind fun _ => ?_⟩⟩
    refine ⟨trivial, fun _ => (straight_divide _ _).1.bind fun _ => ?_⟩
    refine ⟨trivial, fun _ => (straight_divide _ _).2.bind fun _ => ?_⟩
    exact ⟨trivial, fun _ => (straight_divide _ _).2.bind fun _ => trivial⟩
  · trivial

theorem arith_copyKernelChs (index : UInt8) : Only Op.isArith (copyKernelChs index) :=
  (straight_copyKernelChs index).only

theorem only_copySector {K : Op → Prop} {dest : Nat} (hload : ∀ a, K (.load a)) :
    ∀ n i : Nat, (∀ a x, dest + i ≤ a → a < dest + i + n → K (.store a x)) →
      Only K (copySector dest n i)
  | 0, _, _ => trivial
  | n + 1, i, hstore => by
    refine ⟨hload _, fun b => ⟨hstore _ _ (Nat.le_refl _) (by omega), fun _ => ?_⟩⟩
    exact only_copySector hload n (i + 1) fun a x hlo hhi => hstore a x (by omega) (by omega)

/-! ## A copy -/

/-- The operations of a copy to `[lo, hi)`. -/
def Op.isCopy (lo hi : Nat) : Op → Prop
  | .store a _ => lo ≤ a ∧ a < hi
  | .load _ => True
  | op => op.isDriver ∨ op.isArith

theorem Op.isDriver.isCopy {lo hi : Nat} {op : Op} (h : op.isDriver) : op.isCopy lo hi := by
  cases op with
  | load a | store a x => cases h
  | _ => exact .inl h

theorem Op.isArith.isCopy {lo hi : Nat} {op : Op} (h : op.isArith) : op.isCopy lo hi := by
  cases op with
  | load a | store a x => cases h
  | _ => exact .inr h

theorem copyCount_le (count : Int) : copyCount count ≤ count.toNat := by
  unfold copyCount
  split <;> omega

section Copy

variable {K : Op → Prop} (prepare : K (.set .fpyIrqHandleState 1))
  (command : ∀ op, op.isCommand → K op) (wait : ∀ op, op.isWait → K op)
  (arith : ∀ op, op.isArith → K op)

include prepare command wait arith

/-- A round: its conversion, a SEEK and a READ. -/
theorem only_readOneSector_of (sector : UInt8) : Only K (readOneSector sector) := by
  have get : ∀ v, K (.get v) := fun v => arith (.get v) trivial
  refine ((arith_lbaToChs _).mono arith).bind fun a => ⟨get _, fun drive => ?_⟩
  refine ((command_fpyCmdSeekHead _).mono command).bind fun e => ?_
  cases e with
  | some e => trivial
  | none =>
    refine ⟨get _, fun drive => ⟨get _, fun trackLength => ?_⟩⟩
    exact (only_fpyCmdReadSector_of prepare command wait _).bind fun _ => trivial

/-- A copy's loop: its rounds, and stores in what is left of the destination. -/
theorem only_fpyCopyBytesLoop_of (load : ∀ a, K (.load a)) {sector : UInt8} {dest : Nat}
    {count : Int} (store : ∀ a x, dest ≤ a → a < dest + count.toNat → K (.store a x)) :
    Only K (fpyCopyBytesLoop sector dest count) := by
  induction sector, dest, count using fpyCopyBytesLoop.induct with
  | case1 sector dest count hpos ih =>
    rw [fpyCopyBytesLoop, if_pos hpos]
    refine (only_readOneSector_of prepare command wait arith sector).bind fun e => ?_
    cases e with
    | some e => trivial
    | none =>
      have hcount := copyCount_le count
      refine Only.bind (only_copySector load _ 0 fun a x _ _ => ?_) fun _ => ?_
      · exact store a x (by omega) (by omega)
      · exact ih fun a x hlo hhi => store a x (by omega) (by omega)
  | case2 sector dest count hpos =>
    rw [fpyCopyBytesLoop, if_neg hpos]
    trivial

end Copy

theorem copy_readOneSector {lo hi : Nat} (sector : UInt8) :
    Only (Op.isCopy lo hi) (readOneSector sector) :=
  only_readOneSector_of (.inl trivial) (fun _ h => h.isDriver.isCopy)
    (fun _ h => h.isDriver.isCopy) (fun _ => Op.isArith.isCopy) sector

/-- The copy's loop stores in what is left of its destination. -/
theorem copy_fpyCopyBytesLoop {lo hi : Nat} (sector : UInt8) (dest : Nat) (count : Int)
    (hlo : lo ≤ dest) (hhi : dest + count.toNat ≤ hi) :
    Only (Op.isCopy lo hi) (fpyCopyBytesLoop sector dest count) := by
  refine only_fpyCopyBytesLoop_of (.inl trivial) (fun _ h => h.isDriver.isCopy)
    (fun _ h => h.isDriver.isCopy) (fun _ => Op.isArith.isCopy) (fun _ => trivial) ?_
  exact fun a x ha ha' => ⟨by omega, by omega⟩

/-- The operations of `copy_kernel`: every read request is for the sectors it
was called for. -/
def Op.isBiosCopy (count : Nat) : Op → Prop
  | .int13 q => q.isRead = true → q.count = count
  | op => op.isArith

theorem Op.isArith.isBiosCopy {count : Nat} {op : Op} (h : op.isArith) : op.isBiosCopy count := by
  cases op with
  | int13 q => cases h
  | _ => exact h

theorem bios_copyKernel (index count : UInt8) (dest : Nat) :
    Only (Op.isBiosCopy count.toNat) (copyKernel index count dest) := by
  have loop : ∀ (a : Chs8) (tries : Nat),
      Only (Op.isBiosCopy count.toNat) (copyKernelLoop a count dest tries) := by
    intro a tries
    induction tries with
    | zero => trivial
    | succ tries ih =>
      simp only [copyKernelLoop, Prog.bind_eq, get_bind, int13_bind, only_vis]
      refine ⟨trivial, fun drive => ⟨fun hread => ?_, fun _ => ⟨trivial, fun drive => ?_⟩⟩⟩
      · rw [isRead_resetRegs] at hread
        cases hread
      · refine ⟨fun _ => (isRead_readRegs _ _ _ _).2, fun r => ?_⟩
        split
        · exact ih
        · trivial
  exact ((arith_copyKernelChs index).mono fun _ => Op.isArith.isBiosCopy).bind fun a => loop a 3

/-! ## Stores -/

/-- Stores stay in `[lo, hi)`. -/
def Op.storesIn (lo hi : Nat) : Op → Prop
  | .store a _ => lo ≤ a ∧ a < hi
  | _ => True

theorem Op.isCopy.storesIn {lo hi : Nat} {op : Op} (h : op.isCopy lo hi) : op.storesIn lo hi := by
  cases op with
  | store a x => exact h
  | _ => trivial

/-- A copy stores in its destination only. -/
theorem storesIn_fpyCopyBytes (sector : UInt8) (dest : Nat) (count : Int) :
    Only (Op.storesIn dest (dest + count.toNat)) (fpyCopyBytes sector dest count) :=
  ((copy_fpyCopyBytesLoop sector dest count (Nat.le_refl _) (Nat.le_refl _)).mono
    fun _ => Op.isCopy.storesIn).bind fun _ => ⟨trivial, fun _ => trivial⟩

/-- Clearing stores zeros in what it clears. -/
theorem only_clearBytes {K : Op → Prop} :
    ∀ start n : Nat, (∀ a, start ≤ a → a < start + n → K (.store a 0)) →
      Only K (clearBytes start n)
  | _, 0, _ => trivial
  | start, n + 1, h => by
    refine ⟨h start (Nat.le_refl start) (by omega), fun _ => ?_⟩
    exact only_clearBytes (start + 1) n fun a hlo hhi => h a (by omega) (by omega)

theorem storesIn_clearBytes {lo hi : Nat} (start n : Nat) (hlo : lo ≤ start)
    (hhi : start + n ≤ hi) : Only (Op.storesIn lo hi) (clearBytes start n) :=
  only_clearBytes start n fun _ ha ha' => ⟨Nat.le_trans hlo ha, Nat.lt_of_lt_of_le ha' hhi⟩

/-! ## Bringing the machine up -/

/-- The operations of the tasks of stage 2 and 3 that concern no disk: ports,
processor and shared objects, and stores from `lo` on. -/
def Op.isSetup (lo : Nat) : Op → Prop
  | .inb _ | .outb _ _ | .int15 _ | .cpuid _ | .get _ | .fetch _ | .assign _ _ => True
  | .setInterrupt _ _ | .setReceived .wait | .readCr _ | .writeCr _ _ | .sti => True
  | .store a _ => lo ≤ a
  | _ => False

/-- Code that sets something up, without waiting. -/
abbrev Setup {α : Type} (lo : Nat) (p : Code α) : Prop := Straight (Op.isSetup lo) p

section Setup

variable {lo : Nat}

theorem setup_setMemorySize : Setup lo setMemorySize := ⟨trivial, fun _ => trivial⟩

theorem setup_cpuid0x80000000 : Setup lo cpuid0x80000000 :=
  ⟨trivial, fun _ => ⟨trivial, fun _ => trivial⟩⟩

theorem setup_cpuid0x80000001 : Setup lo cpuid0x80000001 := by
  simp only [cpuid0x80000001, Prog.bind_eq, fetch_bind, straight_vis]
  refine ⟨trivial, fun _ => ?_⟩
  split
  · trivial
  · exact ⟨trivial, fun _ => ⟨trivial, fun _ => ⟨trivial, fun _ => trivial⟩⟩⟩

theorem setup_cpuid1 : Setup lo cpuid1 := by
  simp [cpuid1, Op.isSetup, assign, Prog.call]

theorem setup_gdtSetup : Setup lo gdtSetup := by
  simp [gdtSetup, gdtEntries, gdtSelectors, updateGdt, Op.isSetup, assign, Prog.call]

theorem setup_a20Int15 : Setup lo a20Int15 :=
  ⟨trivial, fun _ => ⟨trivial, fun _ => trivial⟩⟩

/-- The keyboard controller is waited for, so this one is not straight. -/
theorem only_a20Keyboard : Only (Op.isSetup lo) a20Keyboard := by
  have wait : ∀ n, Only (Op.isSetup lo) (a20KeyboardWait n) := fun _ => ⟨trivial, fun _ => trivial⟩
  refine (wait _).bind fun _ => ⟨trivial, fun _ => (wait _).bind fun _ => ⟨trivial, fun _ => ?_⟩⟩
  refine (wait _).bind fun _ => ⟨trivial, fun _ => (wait _).bind fun _ => ⟨trivial, fun _ => ?_⟩⟩
  refine (wait _).bind fun _ => ⟨trivial, fun _ => (wait _).bind fun _ => ⟨trivial, fun _ => ?_⟩⟩
  exact (wait _).bind fun _ => trivial

/-- `stage2_load`, with `disk_props` its last task. -/
theorem only_stage2Load {K : Op → Prop} (setup : ∀ op, op.isSetup lo → K op)
    (props : Only K diskProps) : Only K stage2Load := by
  have a20 : Only (Op.isSetup lo) a20 := by
    refine setup_a20Int15.only.bind fun x => ?_
    split
    · trivial
    · exact only_a20Keyboard
  refine (setup_setMemorySize.only.mono setup).bind fun _ => ?_
  refine (setup_cpuid0x80000000.only.mono setup).bind fun _ => ?_
  refine (setup_cpuid0x80000001.only.mono setup).bind fun _ => ?_
  refine (setup_cpuid1.only.mono setup).bind fun _ => (a20.mono setup).bind fun _ => ?_
  exact (setup_gdtSetup.only.mono setup).bind fun _ => props

theorem setup_clearBytes : ∀ start n : Nat, lo ≤ start → Setup lo (clearBytes start n)
  | _, 0, _ => trivial
  | start, n + 1, h => ⟨h, fun _ => setup_clearBytes (start + 1) n (Nat.le_succ_of_le h)⟩

theorem setup_idt (stub : UInt8 → UInt32) : Setup lo (idt stub) := by
  have entries : ∀ es : List UInt8, Setup lo (es.forM (idtEntry stub)) := by
    intro es
    induction es with
    | nil => trivial
    | cons e es ih =>
      refine Straight.bind (p := idtEntry stub e) ?_ fun _ => ih
      exact ⟨trivial, fun _ => ⟨trivial, fun _ => ⟨trivial, fun _ => trivial⟩⟩⟩
  exact entries idtEntries

theorem setup_init8259 : Setup lo init8259 := by
  simp [init8259, Op.isSetup, sti, Prog.call]

theorem setup_setupTimer : Setup lo setupTimer := by
  simp [setupTimer, initTimer, irqUnmask, Op.isSetup, outb, Prog.call]

/-- Stage 3 up to `floppy_init`: protected mode, the segment registers, its
`.bss`, the descriptor table, the interrupt controller and the timer. -/
def stage3Setup (L : Sizes) (stub : UInt8 → UInt32) : Code Unit := do
  setCrBit 0 0
  let _ ← fetch .segDs
  let _ ← fetch .segSs
  let _ ← fetch .segEs
  let _ ← fetch .segFs
  let _ ← fetch .segGs
  let _ ← fetch .segCs
  memreset L.stage3BssStart L.stage3BssEnd
  idt stub
  init8259
  breakpointInstr
  setupTimer

/-- Stage 3 from `floppy_init`'s return on. -/
def stage3Rest (L : Sizes) : Code Unit := do
  floppyDma
  floppyDmaSetupRead
  floppyTest
  floppyTest
  copyStage4 L
  mark (.enter .loaderProtected)
  loadProtected L

theorem stage3Start_eq (L : Sizes) (stub : UInt8 → UInt32) :
    stage3Start L stub =
      (stage3Setup L stub).bind fun _ => floppyInit.bind fun _ => stage3Rest L := by
  simp only [stage3Start, stage3Load, stage3Setup, stage3Rest, Prog.bind_eq, Prog.bind_assoc]

theorem setup_stage3Setup {L : Sizes} (stub : UInt8 → UInt32) (h : lo ≤ L.stage3BssStart) :
    Setup lo (stage3Setup L stub) := by
  have protect : Setup lo (setCrBit 0 0) := ⟨trivial, fun _ => ⟨trivial, fun _ => trivial⟩⟩
  have reload : ∀ o, Setup lo (fetch o) := fun _ => ⟨trivial, fun _ => trivial⟩
  have breakpoint : Setup lo breakpointInstr := ⟨trivial, fun _ => trivial⟩
  refine protect.bind fun _ => (reload _).bind fun _ => (reload _).bind fun _ => ?_
  refine (reload _).bind fun _ => (reload _).bind fun _ => (reload _).bind fun _ => ?_
  refine (reload _).bind fun _ => (setup_clearBytes _ _ h).bind fun _ => ?_
  refine (setup_idt stub).bind fun _ => setup_init8259.bind fun _ => ?_
  exact breakpoint.bind fun _ => setup_setupTimer

theorem setup_fpyMotorEnable : Setup lo fpyMotorEnable :=
  ⟨trivial, fun _ => ⟨trivial, fun _ => ⟨trivial, fun _ => trivial⟩⟩⟩

theorem setup_floppyDma : Setup lo floppyDma := by
  simp [floppyDma, dmaMaskChannel, dmaResetFlipflop, dmaSetupAddress, dmaSetupCount, dmaSetupPage,
    dmaUnmaskChannel, Op.isSetup, outb, Prog.call]

theorem setup_floppyDmaSetupRead : Setup lo floppyDmaSetupRead := by
  simp [floppyDmaSetupRead, dmaMaskChannel, dmaSetMode, dmaUnmaskChannel, Op.isSetup, outb,
    Prog.call]

end Setup

theorem only_orReturn {K : Op → Prop} {p : Code ErrT} {k : Code Unit} (hp : Only K p)
    (hk : Only K k) : Only K (orReturn p k) := by
  refine hp.bind fun e => ?_
  cases e with
  | some e => trivial
  | none => exact hk

/-- The operations of `floppy_init`. -/
def Op.isFloppyInit : Op → Prop
  | .setInterrupt _ _ | .get _ => True
  | op => op.isCommand ∨ op.isWait

theorem Op.isCommand.isFloppyInit {op : Op} (h : op.isCommand) : op.isFloppyInit := by
  cases op with
  | setInterrupt n f | get v => trivial
  | _ => exact .inl h

theorem Op.isWait.isFloppyInit {op : Op} (h : op.isWait) : op.isFloppyInit := by
  cases op with
  | setInterrupt n f | get v => trivial
  | _ => exact .inr h

/-- `floppy_init`: one handler, installed first, and then commands and waits. -/
theorem only_floppyInit_of {K : Op → Prop}
    (install : K (.setInterrupt FLOPPY_IRQ .fpyInterruptHandler)) (get : ∀ v, K (.get v))
    (command : ∀ op, op.isCommand → K op) (wait : ∀ op, op.isWait → K op) :
    Only K floppyInit := by
  have send : ∀ cmd mrq, Only K (fpySendCommand cmd mrq) := fun _ _ =>
    (command_fpySendCommand _ _).mono command
  have irq : Only K fpyWaitIrq := wait_fpyWaitIrq.mono wait
  have setup : Only K fpySetupIdt := ⟨wait _ trivial, fun _ => ⟨install, fun _ => trivial⟩⟩
  have version : Only K fpyCmdCheckVersion :=
    port_fpyCmdCheckVersion.mono fun _ h => command _ h.isCommand
  have motor : Only K fpyMotorEnable :=
    ⟨get _, fun _ => ⟨get _, fun _ => ⟨command _ trivial, fun _ => trivial⟩⟩⟩
  refine setup.bind fun _ => only_orReturn version ?_
  refine ⟨command _ trivial, fun _ => motor.bind fun _ => ?_⟩
  refine only_orReturn (send _ _) (only_orReturn (send _ _) ⟨get _, fun drive => ?_⟩)
  refine only_orReturn (send _ _) (only_orReturn irq ?_)
  exact only_orReturn (send _ _) (only_orReturn irq trivial)

theorem only_floppyInit : Only Op.isFloppyInit floppyInit :=
  only_floppyInit_of trivial (fun _ => trivial) (fun _ => Op.isCommand.isFloppyInit)
    fun _ => Op.isWait.isFloppyInit

end ToyBootloader
