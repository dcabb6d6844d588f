import ToyBootloader.Stage3.Floppy

/-!
# What the driver and its handler share

`fpy_irq_received` and `fpy_irq_handle_state`, kept exactly: every read is
answered with what was last assigned, by whichever of the two programs assigned
it. The device is not here, and what it answers is free.
-/

namespace ToyBootloader

open Resumption

/-- The two globals. -/
structure IrqVars where
  received : Received := .wait
  handleState : UInt8 := 0
  deriving DecidableEq, Repr

/-- `fpy_irq_handle_state` is assigned. -/
def Op.begins : Op → Bool
  | .set .fpyIrqHandleState _ => true
  | _ => false

/-- It is assigned 1 if it is: the main program's part. -/
def Op.arms : Op → Prop
  | .set .fpyIrqHandleState x => x = 1
  | _ => True

namespace IrqVars

/-- Reads and assignments of the two globals; every other operation answers
anything and leaves them alone. -/
def machine : Machine ops IrqVars := fun s op =>
  match op with
  | .received | .testReceived => fun a s' => a = s.received ∧ s' = s
  | .setReceived r => fun _ s' => s' = { s with received := r }
  | .get v => fun a s' => s' = s ∧ (v = .fpyIrqHandleState → a = s.handleState)
  | .set v x => fun _ s' =>
    s' = if v = .fpyIrqHandleState then { s with handleState := x } else s
  | _ => fun _ s' => s' = s

theorem handleState_of_machine {s s' : IrqVars} {op : Op} {x : op.Ans} (h : op.begins = false)
    (hm : machine s op x s') : s'.handleState = s.handleState := by
  cases op with
  | set v y =>
    rw [show s' = _ from hm]
    cases v with
    | fpyIrqHandleState => cases h
    | _ => rfl
  | setReceived r => rw [show s' = _ from hm]
  | received | testReceived => rw [hm.2]
  | get v => rw [hm.1]
  | _ => rw [show s' = s from hm]

/-- A flag that was set exactly if something had begun is so after an operation of the main
program. -/
theorem flagged_of_machine {s s' : IrqVars} {begun : Bool} {op : Op} {x : op.Ans}
    (h : s.handleState ≠ 0 ↔ begun = true) (hop : op.arms) (hm : machine s op x s') :
    s'.handleState ≠ 0 ↔ (begun || op.begins) = true := by
  cases hbegins : op.begins with
  | false => rw [handleState_of_machine hbegins hm, Bool.or_false, h]
  | true =>
    cases op with
    | set v y =>
      cases v with
      | fpyIrqHandleState =>
        obtain rfl : y = 1 := hop
        rw [show s' = _ from hm, if_pos rfl, Bool.or_true]
        exact iff_of_true (by decide : (1 : UInt8) ≠ 0) rfl
      | _ => cases hbegins
    | _ => cases hbegins

/-! ## A device for computed runs -/

/-- The globals over a device: `port` answers port reads, `bios` the disk
service, `value` the other byte globals. -/
def sim (port : UInt16 → UInt8) (bios : Regs16 → Regs16) (value : Var → UInt8) :
    Simulator ops IrqVars := fun s op =>
  match op with
  | .received | .testReceived => some (s.received, s)
  | .setReceived r => some ((), { s with received := r })
  | .get v => some (if v = .fpyIrqHandleState then s.handleState else value v, s)
  | .set v x => some ((), if v = .fpyIrqHandleState then { s with handleState := x } else s)
  | .inb p => some (port p, s)
  | .int13 r => some (bios r, s)
  | .int15 _ | .cpuid _ => some (⟨0, 0, 0, 0, false⟩, s)
  | .getCylinder => some (0, s)
  | .load _ => some (0, s)
  | .fetch _ => some ([], s)
  | .readCr _ | .rdmsr _ => some (0, s)
  | .outb _ _ | .setCylinder _ | .store _ _ | .assign _ _ | .setInterrupt _ _ => some ((), s)
  | .writeCr _ _ | .wrmsr _ | .sti | .mark _ => some ((), s)
  | .divideError => none

theorem sim_sound (port : UInt16 → UInt8) (bios : Regs16 → Regs16) (value : Var → UInt8) :
    (sim port bios value).Sound machine := by
  intro s op x s' h
  cases op with
  | get v =>
    simp only [sim, Option.some.injEq, Prod.mk.injEq] at h
    obtain ⟨rfl, rfl⟩ := h
    exact ⟨rfl, fun hv => if_pos hv⟩
  | received | testReceived =>
    cases h
    exact ⟨rfl, rfl⟩
  | divideError => cases h
  | _ => simp_all [sim, machine]

/-- The geometry of a 1.44M drive. -/
def goodDrive (v : Var) : UInt8 :=
  match v with
  | .maxSectorNumber => 18
  | .maxHeadNumber => 2
  | _ => 0

/-- A controller that is always ready, and whose FIFO reads `fifo`. -/
def alwaysReady (fifo : UInt8) (port : UInt16) : UInt8 :=
  if port = FPY_MSR then 0x80 else if port = FPY_FIFO then fifo else 0

end IrqVars

end ToyBootloader
