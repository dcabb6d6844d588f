import Mathlib.Tactic.ByCases

/-!
# The modes of the processor

The control registers, and what the processor admits of them: there is no paging without
protection, and with long mode enabled none without the extended tables; and while there is
paging, long mode is neither enabled nor disabled. Anything else is a general protection
exception. Faults of reserved bits are not here.

What size the processor takes its code for is told by two bits of the code segment, and by
whether long mode is active.
-/

namespace ToyBootloader.Ia32

/-- A bit of a register. -/
def flag (x : UInt32) (n : Nat) : Bool := x.toBitVec.getLsbD n

/-- The sizes of code. -/
inductive Width where
  | w16
  | w32
  | w64
  deriving DecidableEq

/-- The registers that can be written. Of EFER it is the low half. -/
inductive ControlReg where
  | cr0
  | cr3
  | cr4
  | efer
  deriving DecidableEq

/-- Their values. -/
structure ControlRegs where
  cr0 : UInt32
  cr3 : UInt32
  cr4 : UInt32
  efer : UInt32

namespace ControlRegs

variable (c : ControlRegs)

def protection : Bool := flag c.cr0 0
def notWriteThrough : Bool := flag c.cr0 29
def cacheDisable : Bool := flag c.cr0 30
def paging : Bool := flag c.cr0 31
def extended : Bool := flag c.cr4 5
def longEnable : Bool := flag c.efer 8

/-- Long mode is active. The processor follows it, nobody writes it. -/
def longActive : Bool := c.longEnable && c.paging

/-- What the processor can be in. -/
def Consistent : Prop :=
  (c.paging → c.protection) ∧ (c.notWriteThrough → c.cacheDisable) ∧ (c.longActive → c.extended)

instance : Decidable c.Consistent := inferInstanceAs (Decidable (_ ∧ _ ∧ _))

def read : ControlReg → UInt32
  | .cr0 => c.cr0
  | .cr3 => c.cr3
  | .cr4 => c.cr4
  | .efer => c.efer

def set (x : UInt32) : ControlReg → ControlRegs
  | .cr0 => { c with cr0 := x }
  | .cr3 => { c with cr3 := x }
  | .cr4 => { c with cr4 := x }
  | .efer => { c with efer := x }

/-- What code of a 64-bit segment, or any code, can change `c` to. -/
def Permits (long : Bool) (c' : ControlRegs) : Prop :=
  (c.paging = false → c'.longActive → long = false) ∧
    (c.longActive → long → c'.paging) ∧ (c.paging → c'.longEnable = c.longEnable)

instance (long : Bool) (c' : ControlRegs) : Decidable (c.Permits long c') :=
  inferInstanceAs (Decidable (_ ∧ _ ∧ _))

/-- What size code is taken for, by the two bits of its segment. -/
def width (long big : Bool) : Width :=
  if c.longActive && long then .w64 else if big then .w32 else .w16

end ControlRegs

/-- The control registers, as they can be. -/
structure Controls where
  val : ControlRegs
  consistent : val.Consistent

namespace Controls

/-- A write, where it does not raise an exception. -/
def write (c : Controls) (long : Bool) (r : ControlReg) (x : UInt32) : Option Controls :=
  if h : (c.val.set x r).Consistent ∧ c.val.Permits long (c.val.set x r) then
    some ⟨c.val.set x r, h.1⟩
  else none

variable {c : Controls} {long : Bool} {r : ControlReg} {x : UInt32}

/-- The write is admitted, and that is what it leaves. -/
def Takes (c : Controls) (long : Bool) (r : ControlReg) (x : UInt32) : Prop :=
  ∃ c', c.write long r x = some c' ∧ c'.val = c.val.set x r

theorem takes_of (h : (c.val.set x r).Consistent) (permits : c.val.Permits long (c.val.set x r)) :
    c.Takes long r x :=
  ⟨⟨c.val.set x r, h⟩, dif_pos ⟨h, permits⟩, rfl⟩

theorem not_longActive (off : c.val.paging = false) : c.val.longActive = false := by
  rw [ControlRegs.longActive, off, Bool.and_false]

/-- Without paging before and after, only the caches can be wrong. -/
theorem takes_unpaged (off : c.val.paging = false) (off' : (c.val.set x r).paging = false)
    (cached : (c.val.set x r).notWriteThrough → (c.val.set x r).cacheDisable) :
    c.Takes long r x := by
  have inactive' : (c.val.set x r).longActive = false := by
    rw [ControlRegs.longActive, off', Bool.and_false]
  apply takes_of
  · refine ⟨fun on => ?_, cached, fun active => ?_⟩
    · rw [off'] at on
      cases on
    · rw [inactive'] at active
      cases active
  · refine ⟨fun _ active => ?_, fun active => ?_, fun on => ?_⟩
    · rw [inactive'] at active
      cases active
    · rw [not_longActive off] at active
      cases active
    · rw [off] at on
      cases on

end Controls

end ToyBootloader.Ia32
