import Mathlib.Data.Nat.Bitwise
import ToyBootloader.Laws.Arrivals
import ToyBootloader.Laws.Paging
import ToyBootloader.Modes

/-!
# The modes of the boot

The boot with its assembly, on a processor that has modes. Taken away the sizes of the code and the
loads of segment registers it is the boot of the other laws (`erase_bootAsm`); with them, every
instruction is one that the processor executes where it stands: no segment register and no control
register refuses its value, the BIOS is called in real mode only, and no code is taken for code of
another size.

The walk goes through five states of the processor, from `Real` to `Long`, and within one of them
the C functions leave it alone. What they find of the table's data segment is not all up to them:
`gdt_setup` describes it over the bytes that were there, and leaves the bit that makes a data
segment grow down.
-/

namespace ToyBootloader

open Resumption Memory Code Ia32

/-! ## A descriptor changed in its bytes -/

/-- A segment of all 4 GiB, at privilege 0. -/
def Segment.flat (accessed conforming executable long : Bool) : Segment where
  base := 0
  limit := 0xFFFFF
  accessed
  readWrite := true
  conforming
  executable
  codeOrData := true
  privilege := 0
  present := true
  available := false
  long
  big := !long
  granular := true

theorem Segment.effectiveLimit_flat {a c x l : Bool} :
    (Segment.flat a c x l).effectiveLimit = 0xFFFFFFFF := by
  have pages : 0xFFFFF * 4096 + 4095 = 0xFFFFFFFF := by norm_num
  exact (if_pos rfl).trans pages

section Changes

variable (bs : List UInt8) (x : Bool)

end Changes

/-! ## The program is the boot -/

/-- The operation that a detail is in the boot. -/
def Instr.op : Instr → Option Op
  | .loadObj _ r => some (.fetch r.obj)
  | _ => none

theorem erase_gdtSetup16 : gdtSetup16.erase Instr.op = gdtSetup := by
  simp only [gdtSetup16, gdtSetup, Prog.bind_eq, Prog.more_bind, Prog.erase_bind, Prog.erase_lift,
    Prog.erase_more, Instr.op]

theorem erase_stage2Load16 : stage2Load16.erase Instr.op = stage2Load := by
  simp only [stage2Load16, stage2Load, Prog.pure_eq, Prog.bind_eq, Prog.erase_bind,
    Prog.erase_lift, erase_gdtSetup16, Prog.bind_assoc, Prog.pure_bind]

theorem erase_stage3Start16 (L : Sizes) (stub : UInt8 → UInt32) :
    (stage3Start16 L stub).erase Instr.op = stage3Start L stub := by
  simp only [stage3Start16, stage3Start, Prog.bind_eq, Prog.more_bind, Prog.erase_bind,
    Prog.erase_lift, Prog.erase_more, Instr.op, SegReg.obj, fetch_bind]

theorem erase_stage5Start32 : stage5Start32.erase Instr.op = stage5Start := by
  simp only [stage5Start32, stage5Start, Prog.more, Prog.pure_eq, Prog.bind_eq, Prog.vis_bind,
    Prog.pure_bind, Prog.erase_more, Prog.erase_pure, Instr.op, SegReg.obj, fetch_bind]

/-- Without the sizes and the loads it is the boot that the other laws are about. -/
theorem erase_bootAsm (L : Sizes) (stub : UInt8 → UInt32) (dl : UInt8) (t : Tables) :
    (bootAsm L stub dl t).erase Instr.op = (boot L stub dl).bind fun _ =>
      (stage4Load t).bind fun _ => stage5Start := by
  simp only [bootAsm, mainAsm16, init16, boot, mainAsm, init, Prog.bind_eq, Prog.more_bind,
    Prog.erase_bind, Prog.erase_lift, Prog.erase_more, Instr.op, erase_stage2Load16,
    erase_stage3Start16, erase_stage5Start32, Prog.bind_assoc]

/-! ## What has no part in it -/

/-- The mode that a stage is entered in. -/
def Stage.isProtected : Stage → Bool
  | .stage2 | .stage3 => false
  | .loaderProtected | .stage4 => true

/-- An operation that leaves the processor as it is, in real mode or in protected mode. -/
def Op.within (protection : Bool) : Op → Prop
  | .int13 _ | .int15 _ => protection = false
  | .mark (.enter st) => st.isProtected = protection
  | .readCr _ | .writeCr _ _ | .rdmsr _ | .wrmsr _ => False
  | .assign (.gdt _) _ => False
  | .assign .segCs _ | .assign .segSs _ | .assign .segDs _ => False
  | .assign .segEs _ | .assign .segFs _ | .assign .segGs _ => False
  | _ => True

section Within

variable {protection : Bool}

end Within

/-! ## What is right of the processor -/

namespace Processor

variable {down : Bool} {s s' : Processor} {w : Width}

/-- The data segments are all of memory. -/
def Flat (s : Processor) : Prop := ∀ r, r ≠ .cs → (s.cache r).base = 0 ∧
  (s.cache r).effectiveLimit = 0xFFFFFFFF ∧ (s.cache r).readWrite = true ∧
    (s.cache r).executable = false ∧ (s.cache r).conforming = false

/-- What code of the C functions finds. In real mode the BIOS is handed addresses in segment 0. In
protected mode the code segment is all of memory, and so are the data segments unless they grow
down. -/
structure Fits (down : Bool) (s : Processor) : Prop where
  real : s.protected_ = false → (s.cache .es).base = 0
  code : s.protected_ = true → (s.cache .cs).base = 0 ∧ (s.cache .cs).effectiveLimit = 0xFFFFFFFF
  data : s.protected_ = true → (s.Flat ↔ down = false)

/-- What holds of an instruction that is about to be executed. -/
structure Proper (down : Bool) (s : Processor) (i : instrs.Op) : Prop where
  /-- It is taken for what it was assembled for, and does not fault. -/
  executes : (s.next i).isSome = true
  fits : ∀ w op, i = .base w op → s.Fits down
  /-- A stage is entered in its mode. -/
  enters : ∀ w st, i = .base w (.mark (.enter st)) → s.protected_ = st.isProtected

/-- A walk of the boot, or of a part of it. -/
abbrev Walks (down : Bool) {α : Type} (p : Asm α) (Q : Processor → Prop) (s : Processor) : Prop :=
  Follows machine (Proper down) p (fun _ => Q) s

/-- A register written, nothing else changed. -/
def Written (s : Processor) (r : ControlReg) (x : UInt32) (s' : Processor) : Prop :=
  ∃ c, s' = { s with controls := c } ∧ c.val = s.controls.val.set x r

/-- The selectors and the descriptors they name: all data segments are one, and the code
segment's is the descriptor `i`. -/
structure Loading (data code : Segment) (i : Nat) (s : Processor) : Prop where
  on : s.protected_ = true
  known : s.known = true
  selectors : ∀ r, (selectorOf (s.selectors r)).toNat = 8 * if r = .cs then i else 2
  data : Segment.ofBytes (s.gdt 2) = data
  code : Segment.ofBytes (s.gdt i) = code

theorem Loading.cached {data code : Segment} {i : Nat} (h : Loading data code i s)
    (cache : SegReg → Segment) : Loading data code i { s with cache } :=
  ⟨h.on, h.known, h.selectors, h.data, h.code⟩

section Load

variable {a a' c x : Bool} {i : Nat} {rs : List SegReg}

end Load

/-! ## The table -/

/-- One entry described, and nothing else changed. -/
def Described (s : Processor) (i : Nat) (d : Segment) (s' : Processor) : Prop :=
  ∃ gdt, s' = { s with gdt } ∧ Segment.ofBytes (gdt i) = d ∧ ∀ j, j ≠ i → gdt j = s.gdt j

theorem Described.trans {i : Nat} {d d' : Segment} {s'' : Processor} (h : s.Described i d s')
    (h' : s'.Described i d' s'') : s.Described i d' s'' := by
  obtain ⟨gdt, rfl, -, others⟩ := h
  obtain ⟨gdt', rfl, here, others'⟩ := h'
  exact ⟨gdt', rfl, here, fun j hj => (others' j hj).trans (others j hj)⟩

theorem Described.fits {i : Nat} {d : Segment} (h : s.Described i d s') (fits : s.Fits down) :
    s'.Fits down := by
  obtain ⟨gdt, rfl, -, -⟩ := h
  exact ⟨fits.real, fits.code, fits.data⟩

theorem Described.width {i : Nat} {d : Segment} (h : s.Described i d s') (width : s.width = w) :
    s'.width = w := by
  obtain ⟨gdt, rfl, -, -⟩ := h
  exact width

theorem fits_of_loaded {a a' c x : Bool} (on : s.protected_ = true)
    (code : s.cache .cs = .flat a' c true x)
    (data : ∀ r, r ≠ .cs → s.cache r = .flat a down false false) : s.Fits down where
  real off := by
    rw [on] at off
    cases off
  code _ := by
    rw [code]
    exact ⟨rfl, Segment.effectiveLimit_flat⟩
  data _ := by
    constructor
    · intro flat
      have up := (flat .ds (by decide)).2.2.2.2
      rw [data .ds (by decide)] at up
      exact up
    · intro up r hr
      rw [data r hr]
      exact ⟨rfl, Segment.effectiveLimit_flat, rfl, rfl, up⟩

/-- Real mode, in code of 16 bits. -/
structure Real (down : Bool) (s : Processor) : Prop where
  off : s.protected_ = false
  es : (s.cache .es).base = 0
  small : (s.cache .cs).big = false
  direction : (Segment.ofBytes (s.gdt 2)).conforming = down

theorem paging_off (off : s.protected_ = false) : s.controls.val.paging = false := by
  cases on : s.controls.val.paging with
  | false => rfl
  | true =>
    have protection := s.controls.consistent.1 on
    rw [protected_, protection] at off
    cases off

theorem width_unpaged (off : s.controls.val.paging = false) :
    s.width = if (s.cache .cs).big then .w32 else .w16 := by
  have inactive := Controls.not_longActive off
  simp [width, ControlRegs.width, inactive]

theorem Real.width (h : Real down s) : s.width = .w16 := by
  rw [width_unpaged (paging_off h.off), h.small]
  rfl

theorem Real.fits (h : Real down s) : s.Fits down where
  real _ := h.es
  code on := by
    rw [h.off] at on
    cases on
  data on := by
    rw [h.off] at on
    cases on

/-- A segment register loaded with 0 in real mode. -/
def loadedReal (s : Processor) (r : SegReg) : Processor :=
  { s with cache := Function.update s.cache r { s.cache r with base := 0 } }

theorem big_loadedReal (r : SegReg) : ((s.loadedReal r).cache .cs).big = (s.cache .cs).big := by
  by_cases h : r = .cs
  · simp [loadedReal, h]
  · simp [loadedReal, Function.update_of_ne (Ne.symm h)]

theorem Real.loaded (h : Real down s) (r : SegReg) (hr : r ≠ .es) : Real down (s.loadedReal r) where
  off := h.off
  es := (congrArg Segment.base (Function.update_of_ne hr.symm ..)).trans h.es
  small := (big_loadedReal r).trans h.small
  direction := h.direction

/-- Protected mode, in code of 32 bits and with the table that was made. -/
structure Entered (down : Bool) (s : Processor) : Prop where
  on : s.protected_ = true
  known : s.known = true
  table : ∃ a, Segment.ofBytes (s.gdt 2) = .flat a down false false
  long : ∃ a c, Segment.ofBytes (s.gdt 3) = .flat a c true true
  code : ∃ a c, s.cache .cs = .flat a c true false
  data : ∃ a, ∀ r, r ≠ .cs → s.cache r = .flat a down false false

theorem Entered.fits (h : Entered down s) : s.Fits down := by
  obtain ⟨a, data⟩ := h.data
  obtain ⟨a', c, code⟩ := h.code
  exact fits_of_loaded h.on code data

/-- Without paging. -/
structure Protected (down : Bool) (s : Processor) : Prop extends Entered down s where
  unpaged : s.controls.val.paging = false

theorem Protected.width (h : Protected down s) : s.width = .w32 := by
  obtain ⟨a, c, code⟩ := h.code
  rw [width_unpaged h.unpaged, code]
  rfl

/-- With paging and in long mode, through the tables at `pml4`: compatibility mode. -/
structure Compatible (down : Bool) (t : Tables) (s : Processor) : Prop extends Entered down s where
  active : s.controls.val.longActive = true
  cr3 : s.controls.val.cr3 = UInt32.ofNat t.pml4

theorem Compatible.width {t : Tables} (h : Compatible down t s) : s.width = .w32 := by
  obtain ⟨a, c, code⟩ := h.code
  unfold Processor.width ControlRegs.width
  rw [h.active, code]
  rfl

/-- A register other than `cr0` written without paging. -/
theorem Protected.written {r : ControlReg} {x : UInt32} (h : Protected down s) (hr : r ≠ .cr0)
    (written : s.Written r x s') : Protected down s' := by
  obtain ⟨controls, rfl, value⟩ := written
  have cr0 : controls.val.cr0 = s.controls.val.cr0 := by
    rw [value]
    cases r with
    | cr0 => exact absurd rfl hr
    | _ => rfl
  refine ⟨⟨?_, h.known, h.table, h.long, h.code, h.data⟩, ?_⟩
  · exact (congrArg (flag · 0) cr0).trans h.on
  · exact (congrArg (flag · 31) cr0).trans h.unpaged

theorem Protected.takes {r : ControlReg} (x : UInt32) (h : Protected down s) (hr : r ≠ .cr0) :
    s.controls.Takes (s.cache .cs).long r x := by
  have cr0 : (s.controls.val.set x r).cr0 = s.controls.val.cr0 := by
    cases r with
    | cr0 => exact absurd rfl hr
    | _ => rfl
  apply Controls.takes_unpaged h.unpaged
  · exact (congrArg (flag · 31) cr0).trans h.unpaged
  · intro written
    have before := (congrArg (flag · 29) cr0).symm.trans written
    exact (congrArg (flag · 30) cr0).trans (s.controls.consistent.2.1 before)

end Processor

end ToyBootloader
