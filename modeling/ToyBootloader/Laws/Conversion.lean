import ToyBootloader.Shared.FloppyRead
import ToyBootloader.Stage1.Boot

/-!
# The geometry as it is read

`copy_kernel` and `fpy_copy_bytes` read two globals, again and again, and divide by what
they read. Where both reads are answered in one way and leave the state, a conversion is
a function of the two numbers, whatever the machine is otherwise.
-/

namespace ToyBootloader

open Resumption Code

/-- In `s` the two globals of the geometry read as these. -/
structure ReadsGeometry {σ : Type} (M : Machine ops σ) (heads sectors : UInt8) (s : σ) :
    Prop where
  heads : ∀ {x s'}, M s (.get .maxHeadNumber) x s' ↔ x = heads ∧ s' = s
  sectors : ∀ {x s'}, M s (.get .maxSectorNumber) x s' ↔ x = sectors ∧ s' = s

/-- A machine whose globals hold this geometry, and that otherwise answers
anything. -/
def GeometryIs (heads sectors : UInt8) : Machine ops Unit := fun _ op =>
  match op with
  | .get .maxHeadNumber => fun x _ => x = heads
  | .get .maxSectorNumber => fun x _ => x = sectors
  | _ => fun _ _ => True

theorem readsGeometry_geometryIs (heads sectors : UInt8) :
    ReadsGeometry (GeometryIs heads sectors) heads sectors () where
  heads := (and_iff_left rfl).symm
  sectors := (and_iff_left rfl).symm

/-! ## The packed address -/

/-- CX as a number: the lower eight bits of a cylinder, then its upper two, then a
sector. -/
theorem packed_cx {c : Nat} (hc : c < 1024) (n : Nat) :
    ((c &&& 0xFF) <<< 8 % 65536 ||| (c &&& 0x300) >>> 2) ||| (n &&& 0x3f) =
      256 * (c % 256) + 64 * (c / 256) + n % 64 := by
  have low : (c &&& 0xFF) <<< 8 % 65536 = (c % 256) <<< 8 := by
    rw [Nat.and_two_pow_sub_one_eq_mod c 8, Nat.shiftLeft_eq]
    omega
  have upper : (c &&& 0x300) >>> 2 = (c / 256) <<< 6 := by
    have masked : ∀ q : Fin 256, q.val &&& 0xC0 = (q.val / 64) <<< 6 := by decide +kernel
    rw [Nat.shiftRight_and_distrib, Nat.shiftRight_eq_div_pow c 2]
    have small : c / 2 ^ 2 < 256 := by omega
    have quotient : c / 2 ^ 2 / 64 = c / 256 := by omega
    exact (masked ⟨c / 2 ^ 2, small⟩).trans (congrArg (· <<< 6) quotient)
  have sector : n &&& 0x3f = n % 64 := Nat.and_two_pow_sub_one_eq_mod n 6
  -- The three do not overlap: each sum stays below the bits of the part above it.
  have pair := Nat.shiftLeft_add_eq_or_of_lt (i := 6) (Nat.mod_lt n (by decide : 64 > 0)) (c / 256)
  have below : (c / 256) <<< 6 + n % 64 < 2 ^ 8 := by
    rw [Nat.shiftLeft_eq]
    omega
  have all := Nat.shiftLeft_add_eq_or_of_lt below (c % 256)
  rw [low, upper, sector, Nat.or_assoc, ← pair, ← all, Nat.shiftLeft_eq, Nat.shiftLeft_eq]
  omega

/-! ## The two conversions -/

namespace ReadsGeometry

variable {σ α : Type} {M : Machine ops σ} {heads sectors : UInt8} {s s' : σ} {r : α}

theorem exec_heads (h : ReadsGeometry M heads sectors s) {k : UInt8 → Code α} :
    Exec M (.vis (S := ops) (.get .maxHeadNumber) k) s r s' ↔ Exec M (k heads) s r s' := by
  rw [exec_vis]
  constructor
  · rintro ⟨x, s₁, hm, run⟩
    obtain ⟨rfl, rfl⟩ := h.heads.mp hm
    exact run
  · intro run
    exact ⟨heads, s, h.heads.mpr ⟨rfl, rfl⟩, run⟩

theorem exec_sectors (h : ReadsGeometry M heads sectors s) {k : UInt8 → Code α} :
    Exec M (.vis (S := ops) (.get .maxSectorNumber) k) s r s' ↔ Exec M (k sectors) s r s' := by
  rw [exec_vis]
  constructor
  · rintro ⟨x, s₁, hm, run⟩
    obtain ⟨rfl, rfl⟩ := h.sectors.mp hm
    exact run
  · intro run
    exact ⟨sectors, s, h.sectors.mpr ⟨rfl, rfl⟩, run⟩

/-- A conversion that comes to an end has divided by neither of them when it was zero. -/
theorem ne_zero_of_exec (h : ReadsGeometry M heads sectors s) {n : UInt32} {a : Chs}
    (run : Exec M (lbaToChs n) s a s') : heads ≠ 0 ∧ sectors ≠ 0 := by
  simp only [lbaToChs, Prog.bind_eq, get_bind] at run
  rw [h.exec_heads, h.exec_sectors] at run
  have product : heads.toUInt32 * sectors.toUInt32 ≠ 0 := by
    intro zero
    rw [udiv, if_pos zero] at run
    obtain ⟨x, -⟩ := exec_vis.mp run
    cases x
  constructor
  · rintro rfl
    exact product (UInt32.zero_mul)
  · rintro rfl
    exact product (UInt32.mul_zero)

/-- The one of `copy_kernel` has, where it looked at them. -/
theorem divides_of_exec (h : ReadsGeometry M heads sectors s) {i : UInt8} {a : Chs8}
    (run : Exec M (copyKernelChs i) s a s') : heads = 0 ∨ sectors ≠ 0 := by
  refine or_iff_not_imp_left.mpr fun hh => ?_
  rintro rfl
  simp only [copyKernelChs, Prog.bind_eq, get_bind] at run
  rw [h.exec_heads, if_pos hh, h.exec_heads, h.exec_sectors, udiv,
    if_pos (show heads.toUInt32 * (0 : UInt8).toUInt32 = 0 from UInt32.mul_zero)] at run
  obtain ⟨x, -⟩ := exec_vis.mp run
  cases x

/-- The driver's conversion. -/
theorem exec_lbaToChs (h : ReadsGeometry M heads sectors s) (hh : heads ≠ 0) (hs : sectors ≠ 0)
    {n : UInt32} {a : Chs} : Exec M (lbaToChs n) s a s' ↔
      a = ⟨n / (heads.toUInt32 * sectors.toUInt32), n / sectors.toUInt32 % heads.toUInt32,
        n % sectors.toUInt32 + 1⟩ ∧ s' = s := by
  simp only [lbaToChs, Prog.bind_eq, get_bind]
  rw [h.exec_heads, h.exec_sectors, udiv_bind (mul_toUInt32_ne_zero hh hs), h.exec_sectors,
    udiv_bind (toUInt32_ne_zero hs), h.exec_heads, umod_bind (toUInt32_ne_zero hh), h.exec_sectors,
    umod_bind (toUInt32_ne_zero hs)]
  exact exec_pure

/-- `copy_kernel`'s, where heads are known. -/
theorem exec_copyKernelChs (h : ReadsGeometry M heads sectors s) (hh : heads ≠ 0)
    (hs : sectors ≠ 0) {i : UInt8} {a : Chs8} : Exec M (copyKernelChs i) s a s' ↔
      a = ⟨(i.toUInt32 / (heads.toUInt32 * sectors.toUInt32)).toUInt8,
        (i.toUInt32 / sectors.toUInt32 % heads.toUInt32).toUInt8,
        (i.toUInt32 % sectors.toUInt32 + 1).toUInt8⟩ ∧ s' = s := by
  simp only [copyKernelChs, Prog.bind_eq, get_bind]
  rw [h.exec_heads, if_pos hh, h.exec_heads, h.exec_sectors,
    udiv_bind (mul_toUInt32_ne_zero hh hs), h.exec_sectors, udiv_bind (toUInt32_ne_zero hs),
    h.exec_heads, umod_bind (toUInt32_ne_zero hh), h.exec_sectors,
    umod_bind (toUInt32_ne_zero hs)]
  exact exec_pure

/-- And where they are not. -/
theorem exec_copyKernelChs_unknown (h : ReadsGeometry M 0 sectors s) {i : UInt8} {a : Chs8} :
    Exec M (copyKernelChs i) s a s' ↔ a = ⟨0, 0, i + 1⟩ ∧ s' = s := by
  simp only [copyKernelChs, Prog.bind_eq, get_bind]
  rw [h.exec_heads, if_neg fun h => h rfl]
  exact exec_pure

end ReadsGeometry

end ToyBootloader
