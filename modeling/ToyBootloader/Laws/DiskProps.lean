import ToyBootloader.Laws.Conversion
import ToyBootloader.Memory.Fields
import ToyBootloader.Stage2.DiskProps

/-!
# What `disk_props` makes of a reply

INT 13h AH=08h packs three numbers into CX and DX: the greatest cylinder in CH and
in the upper two bits of CL, the greatest sector in the lower six, the greatest
head in DH. `disk_props` takes them apart again, with two slips. The upper bits of
CL are shifted by 5 and not by 6, so they come out doubled and with a bit of the
sector below them; and the number of heads, one more than the greatest, is stored
in a byte.

The decoded geometry is right exactly where neither is seen.
-/

namespace ToyBootloader

open Resumption Memory Code

/-! ## A reply -/

/-- The numbers INT 13h AH=08h reports. -/
structure DriveParams where
  cylinder : UInt16
  sector : UInt8
  head : UInt8
  cylinder_lt : cylinder.toNat < 1024
  sector_pos : 1 ≤ sector.toNat
  sector_le : sector.toNat ≤ 63

/-- The reply that packs them, in the way `copy_kernel` packs an address, with AH
clear; the other registers are free. -/
def DriveParams.reply (p : DriveParams) (al : UInt8) (bx : UInt16) (dl : UInt8) : Regs16 where
  ax := al.toUInt16
  bx
  cx := ((p.cylinder &&& 0xFF) <<< 8) ||| ((p.cylinder &&& 0x300) >>> 2)
    ||| (p.sector.toUInt16 &&& 0x3f)
  dx := (p.head.toUInt16 <<< 8) ||| dl.toUInt16

/-! ## The globals -/

/-- The globals of the disk's properties. -/
structure DiskGlobals where
  var : Var → UInt8
  cylinderNumber : UInt16

namespace DiskGlobals

/-- The globals, and a BIOS that answers AH=08h with `reply`. Nothing else is
answered. -/
def sim (reply : Regs16) : Simulator ops DiskGlobals := fun s op =>
  match op with
  | .get v => some (s.var v, s)
  | .set v x => some ((), { s with var := fun w => if w = v then x else s.var w })
  | .getCylinder => some (s.cylinderNumber, s)
  | .setCylinder x => some ((), { s with cylinderNumber := x })
  | .int13 q => if q.ax = 0x0800 then some (reply, s) else none
  | _ => none

/-- What `disk_props` leaves. -/
def after (s : DiskGlobals) (reply : Regs16) : DiskGlobals :=
  if HIGH reply.ax ≠ 0 then s
  else
    { var := fun
        | .driveTypes => LOW reply.bx
        | .maxSectorNumber => LOW reply.cx &&& 0x3F
        | .maxHeadNumber => HIGH reply.dx + 1
        | .numberOfDrives => LOW reply.dx
        | v => s.var v
      cylinderNumber := (HIGH reply.cx).toUInt16 ||| ((LOW reply.cx >>> 5).toUInt16 <<< 8) }

/-- `disk_props` runs to its end, and leaves that. -/
theorem exec_diskProps (reply : Regs16) (s : DiskGlobals) :
    Exec (sim reply).machine diskProps s () (s.after reply) := by
  simp only [diskProps, Prog.bind_eq, get_bind, int13_bind]
  apply Exec.vis rfl
  apply Exec.vis rfl
  unfold after
  split
  · exact .pure
  · simp only [set_bind, setCylinder_bind, getCylinder_bind]
    apply Exec.vis rfl
    apply Exec.vis rfl
    apply Exec.vis rfl
    apply Exec.vis rfl
    apply Exec.vis rfl
    apply Exec.vis rfl
    -- The assignments, as one function of the global.
    refine .vis (congrArg (fun var => some ((), DiskGlobals.mk var _)) ?_) .pure
    funext v
    cases v <;> rfl

/-! ## Arithmetic -/

theorem toNat_HIGH (x : UInt16) : (HIGH x).toNat = x.toNat / 256 := by
  have hlt := x.toNat_lt
  have hmask := Nat.and_two_pow_sub_one_eq_mod (x.toNat >>> 8) 8
  change (x.toNat >>> 8 &&& 255) % 256 = _
  rw [hmask, Nat.shiftRight_eq_div_pow]
  omega

theorem toNat_LOW (x : UInt16) : (LOW x).toNat = x.toNat % 256 := by
  have hmask := Nat.and_two_pow_sub_one_eq_mod x.toNat 8
  change (x.toNat &&& 255) % 256 = _
  rw [hmask]
  omega

/-- The cylinder as it is put together: the upper part is what is left of CL after
a shift by 5. -/
theorem toNat_cylinder (x : UInt16) :
    ((HIGH x).toUInt16 ||| ((LOW x >>> 5).toUInt16 <<< 8)).toNat =
      x.toNat / 256 + 256 * (x.toNat % 256 / 32) := by
  have hlt := x.toNat_lt
  have upper : (LOW x >>> 5).toNat = x.toNat % 256 / 32 := by
    rw [UInt8.toNat_shiftRight, toNat_LOW]
    exact Nat.shiftRight_eq_div_pow _ 5
  have shifted : (x.toNat % 256 / 32) <<< 8 < 2 ^ 16 := by
    rw [Nat.shiftLeft_eq]
    omega
  rw [UInt16.toNat_or, UInt16.toNat_shiftLeft, UInt8.toNat_toUInt16, UInt8.toNat_toUInt16,
    toNat_HIGH, upper]
  change x.toNat / 256 ||| (x.toNat % 256 / 32) <<< 8 % 2 ^ 16 = _
  rw [Nat.mod_eq_of_lt shifted, or_shiftLeft_eight (by omega)]

theorem toNat_sectors (x : UInt16) : (LOW x &&& 0x3F).toNat = x.toNat % 64 := by
  have hmask := Nat.and_two_pow_sub_one_eq_mod (LOW x).toNat 6
  rw [UInt8.toNat_and]
  change (LOW x).toNat &&& 2 ^ 6 - 1 = _
  rw [hmask, toNat_LOW]
  omega

theorem toNat_heads (x : UInt16) : (HIGH x + 1).toNat = (x.toNat / 256 + 1) % 256 := by
  rw [UInt8.toNat_add, toNat_HIGH, UInt8.toNat_one]

/-! ## The packing -/

/-- CX, as a number. -/
theorem toNat_reply_cx (p : DriveParams) (al : UInt8) (bx : UInt16) (dl : UInt8) :
    (p.reply al bx dl).cx.toNat =
      256 * (p.cylinder.toNat % 256) + 64 * (p.cylinder.toNat / 256) + p.sector.toNat := by
  have hs : p.sector.toNat % 64 = p.sector.toNat := Nat.mod_eq_of_lt (Nat.lt_succ_of_le p.sector_le)
  rw [← hs]
  exact packed_cx p.cylinder_lt p.sector.toNat

theorem toNat_reply_dx (p : DriveParams) (al : UInt8) (bx : UInt16) (dl : UInt8) :
    (p.reply al bx dl).dx.toNat = 256 * p.head.toNat + dl.toNat :=
  toNat_pair p.head dl

theorem HIGH_reply_ax (p : DriveParams) (al : UInt8) (bx : UInt16) (dl : UInt8) :
    HIGH (p.reply al bx dl).ax = 0 := by
  have hlt := al.toNat_lt
  apply UInt8.toNat_inj.mp
  rw [toNat_HIGH]
  change al.toUInt16.toNat / 256 = 0
  rw [UInt8.toNat_toUInt16]
  omega

/-! ## The law -/

/-- Given the reply that packs `p`, `disk_props` leaves its three numbers: the greatest
cylinder, the greatest sector, and the number of heads. -/
def Decodes (p : DriveParams) (reply : Regs16) : Prop :=
  ∀ s, (sim reply).Returns diskProps (fun _ t =>
    t.cylinderNumber = p.cylinder ∧ t.var .maxSectorNumber = p.sector ∧
      (t.var .maxHeadNumber).toNat = p.head.toNat + 1) s

/-- Given this reply, `disk_props` leaves every global as it was. -/
def Keeps (reply : Regs16) : Prop := ∀ s, (sim reply).Returns diskProps (fun _ t => t = s) s

/-- The parameters that are read right: cylinders that need no upper bits, sectors
that do not reach the bit read with them, and heads whose number is a byte. -/
def Plain (p : DriveParams) : Prop :=
  p.cylinder.toNat < 256 ∧ p.sector.toNat < 32 ∧ p.head.toNat < 255

theorem decodes_iff (p : DriveParams) (al : UInt8) (bx : UInt16) (dl : UInt8) :
    Decodes p (p.reply al bx dl) ↔ Plain p := by
  have hcx := toNat_reply_cx p al bx dl
  have hdx := toNat_reply_dx p al bx dl
  have hdl := dl.toNat_lt
  have hlt := p.cylinder_lt
  have hsector := p.sector_le
  have hhead := p.head.toNat_lt
  -- The fields of the two registers, as `disk_props` cuts them.
  have ch : (p.reply al bx dl).cx.toNat / 256 = p.cylinder.toNat % 256 := by omega
  have cl : (p.reply al bx dl).cx.toNat % 256 / 32 =
      2 * (p.cylinder.toNat / 256) + p.sector.toNat / 32 := by omega
  have cl' : (p.reply al bx dl).cx.toNat % 64 = p.sector.toNat := by omega
  have dh : (p.reply al bx dl).dx.toNat / 256 = p.head.toNat := by omega
  have read : ∀ s, (sim (p.reply al bx dl)).Returns diskProps (fun _ t =>
      t.cylinderNumber = p.cylinder ∧ t.var .maxSectorNumber = p.sector ∧
        (t.var .maxHeadNumber).toNat = p.head.toNat + 1) s ↔ Plain p := by
    intro s
    rw [Simulator.returns_iff (exec_diskProps _ s), after, if_neg (fun h => h (HIGH_reply_ax ..)),
      ← UInt16.toNat_inj, ← UInt8.toNat_inj]
    rw [toNat_cylinder, toNat_sectors, toNat_heads, ch, cl, cl', dh]
    unfold Plain
    omega
  constructor
  · intro h
    exact (read ⟨fun _ => 0, 0⟩).mp (h _)
  · intro h s
    exact (read s).mpr h

theorem keeps_of_error {reply : Regs16} (h : HIGH reply.ax ≠ 0) : Keeps reply := by
  intro s
  rw [Simulator.returns_iff (exec_diskProps reply s), after, if_pos h]

/-- THE LAW of `disk_props`: an error leaves everything, and a geometry is decoded
exactly when it is plain. -/
theorem diskProps_decodes_iff (p : DriveParams) (al : UInt8) (bx : UInt16) (dl : UInt8)
    (reply : Regs16) :
    (Decodes p (p.reply al bx dl) ↔
      p.cylinder.toNat < 256 ∧ p.sector.toNat < 32 ∧ p.head.toNat < 255) ∧
    (HIGH reply.ax ≠ 0 → Keeps reply) :=
  ⟨decodes_iff p al bx dl, keeps_of_error⟩

/-- A floppy of 80 cylinders, 36 sectors a track and 2 heads. -/
def extraDensity : DriveParams where
  cylinder := 79
  sector := 36
  head := 1
  cylinder_lt := by decide
  sector_pos := by decide
  sector_le := by decide

/-- `disk_props` takes its last cylinder for another. -/
theorem extraDensity_misread :
    ¬ ((∀ (p : DriveParams) (al : UInt8) (bx : UInt16) (dl : UInt8),
        Decodes p (p.reply al bx dl)) ∧
      ∀ reply : Regs16, HIGH reply.ax ≠ 0 → Keeps reply) := by
  rintro ⟨h, -⟩
  have plain := (decodes_iff extraDensity 0 0 0).mp (h extraDensity 0 0 0)
  exact absurd plain.2.1 (by decide)

end DiskGlobals

end ToyBootloader
