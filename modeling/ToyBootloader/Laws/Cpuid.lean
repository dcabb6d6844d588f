import ToyBootloader.Memory.Stack
import ToyBootloader.Shared.Cpuid

/-!
# What is made of a reply of CPUID

`struct pfeatures` declares its fields from the most significant bit down, and bit-fields
are laid out from the least significant bit up. So every field is read from the other end
of its register: the field of bit `j` of ECX is at bit `30 - j`, that of bit `j` of EDX at
bit `31 - j`. What is read is right in a register whose bits are the same in both
directions. The two structs of the extended leaf are declared from the least significant
bit up, with padding of the right widths.
-/

namespace ToyBootloader

open Resumption Memory Code

/-! ## The objects -/

/-- The shared objects, kept, and a processor that answers `cpuid` with `reply`. -/
def cpuidSim (reply : UInt32 → Regs32) : Simulator ops (Obj → List UInt8) := fun s op =>
  match op with
  | .cpuid n => some (reply n, s)
  | .fetch o => some (s o, s)
  | .assign o bs => some ((), fun o' => if o' = o then bs else s o')
  | _ => none

/-- What `cpuid_1` leaves. -/
def cpuid1After (r : Regs32) (s : Obj → List UInt8) : Obj → List UInt8
  | .clflushCl => [((r.ebx >>> 8) &&& 0xF).toUInt8]
  | .locApicId => [((r.ebx >>> 24) &&& 0xF).toUInt8]
  | .procFeatures => bytes32 r.ecx ++ bytes32 r.edx
  | o => s o

theorem exec_cpuid1 (reply : UInt32 → Regs32) (s : Obj → List UInt8) :
    Exec (cpuidSim reply).machine cpuid1 s () (cpuid1After (reply 1) s) := by
  simp only [cpuid1, Prog.bind_eq, cpuid_bind, assign_bind]
  apply Exec.vis rfl
  apply Exec.vis rfl
  apply Exec.vis rfl
  refine .vis (congrArg (fun t => some ((), t)) ?_) .pure
  funext o
  cases o <;> rfl

/-- What `cpuid_0x80000001` leaves, where the leaf is there. -/
def cpuid0x80000001After (r : Regs32) (s : Obj → List UInt8) : Obj → List UInt8
  | .cpuidInfosExtra1c => bytes32 r.ecx
  | .cpuidInfosExtra1d => bytes32 r.edx
  | o => s o

theorem exec_cpuid0x80000001 (reply : UInt32 → Regs32) {s : Obj → List UInt8}
    (there : 0x80000001 ≤ word32 (s .maxCpuid)) :
    Exec (cpuidSim reply).machine cpuid0x80000001 s ()
      (cpuid0x80000001After (reply 0x80000001) s) := by
  simp only [cpuid0x80000001, Prog.bind_eq, fetch_bind]
  apply Exec.vis rfl
  rw [if_neg (UInt32.not_lt.mpr there)]
  simp only [cpuid_bind, assign_bind]
  apply Exec.vis rfl
  apply Exec.vis rfl
  refine .vis (congrArg (fun t => some ((), t)) ?_) .pure
  funext o
  cases o <;> rfl

/-! ## Registers in memory -/

/-- The four bytes spell the register. -/
theorem number_bytes32 (x : UInt32) : number (bytes32 x) = x.toNat := by
  have hlt := x.toNat_lt
  have b₁ : (x >>> 8).toUInt8.toNat = x.toNat / 2 ^ 8 % 256 := toNat_byte32 (by decide) x
  have b₂ : (x >>> 16).toUInt8.toNat = x.toNat / 2 ^ 16 % 256 := toNat_byte32 (by decide) x
  have b₃ : (x >>> 24).toUInt8.toNat = x.toNat / 2 ^ 24 % 256 := toNat_byte32 (by decide) x
  simp only [bytes32, number_cons, number_nil, UInt32.toNat_toUInt8, b₁, b₂, b₃]
  omega

/-- A field of the second of two registers. -/
theorem field_second {lo : Nat} (x y : UInt32) :
    field (32 + lo) 1 (number (bytes32 x ++ bytes32 y)) = field lo 1 y.toNat := by
  have second := field_append_right lo 1 (bytes32 x) (bytes32 y)
  rw [number_bytes32, Nat.add_comm] at second
  exact second

/-- A field of the first. -/
theorem field_first {lo : Nat} (h : lo < 32) (x y : UInt32) :
    field lo 1 (number (bytes32 x ++ bytes32 y)) = field lo 1 x.toNat := by
  have within : lo + 1 ≤ 8 * (bytes32 x).length := h
  rw [field_append_left within, number_bytes32]

/-! ## Leaf 1 -/

namespace FeatureReg

/-- The register of a reply. -/
def of (reg : FeatureReg) (r : Regs32) : Nat :=
  match reg with
  | .ecx => r.ecx.toNat
  | .edx => r.edx.toNat

/-- The bit of the struct its half begins at. -/
def base : FeatureReg → Nat
  | .ecx => 0
  | .edx => 32

/-- The bit of the register the first field of that half is named after. -/
def top : FeatureReg → Nat
  | .ecx => 30
  | .edx => 31

end FeatureReg

/-- The processor's bit for a feature. -/
def Feature.bitIn (f : Feature) (r : Regs32) : Nat := field f.place.2 1 (f.place.1.of r)

/-- Where the compiler puts a field: at the other end of its register. -/
theorem offset_pfeatures (f : Feature) : pfeatures.width f = 1 ∧ f.place.2 ≤ f.place.1.top ∧
    pfeatures.offset f = f.place.1.base + (f.place.1.top - f.place.2) := by
  cases f <;> decide

/-- What is read through the struct. -/
theorem read_pfeatures (f : Feature) (r : Regs32) :
    pfeatures.read f (bytes32 r.ecx ++ bytes32 r.edx) =
      field (f.place.1.top - f.place.2) 1 (f.place.1.of r) := by
  obtain ⟨one, -, here⟩ := offset_pfeatures f
  unfold BitFields.read
  rw [one, here]
  obtain ⟨reg, i⟩ := f.place
  cases reg with
  | ecx =>
    change field (0 + (30 - i)) 1 _ = field (30 - i) 1 r.ecx.toNat
    rw [Nat.zero_add]
    exact field_first (by omega) r.ecx r.edx
  | edx => exact field_second r.ecx r.edx

/-- The lowest `n + 1` bits are the same in both directions. -/
def Palindrome (n x : Nat) : Prop := ∀ j ≤ n, field j 1 x = field (n - j) 1 x

/-- Every bit of the two registers is a feature's or is the mirror of one. -/
theorem exists_feature (reg : FeatureReg) {j : Nat} (hj : j ≤ reg.top) :
    ∃ f : Feature, f.place.1 = reg ∧ (f.place.2 = j ∨ f.place.2 = reg.top - j) := by
  have all : ∀ j : Fin 32, j.val ≤ reg.top → ∃ f ∈ pfeatures.filterMap Prod.fst,
      f.place.1 = reg ∧ (f.place.2 = j.val ∨ f.place.2 = reg.top - j.val) := by
    cases reg <;> decide +kernel
  have inside : j < 32 := by cases reg <;> exact Nat.lt_of_le_of_lt hj (by decide)
  obtain ⟨f, -, found⟩ := all ⟨j, inside⟩ hj
  exact ⟨f, found⟩

/-- The features are read right where each register is the same in both directions. -/
theorem features_iff (r : Regs32) :
    (∀ f : Feature, pfeatures.read f (bytes32 r.ecx ++ bytes32 r.edx) = f.bitIn r) ↔
      ∀ reg : FeatureReg, Palindrome reg.top (reg.of r) := by
  constructor
  · intro right reg j hj
    obtain ⟨f, rfl, at_j⟩ := exists_feature reg hj
    have same := right f
    rw [read_pfeatures, Feature.bitIn] at same
    rcases at_j with rfl | mirror
    · exact same.symm
    · rw [mirror, Nat.sub_sub_self hj] at same
      exact same
  · intro palindrome f
    rw [read_pfeatures]
    exact (palindrome f.place.1 f.place.2 (offset_pfeatures f).2.1).symm

/-! ## The bytes -/

/-- A byte of EBX masked to its lower half is that byte where its upper half is clear. -/
theorem masked_byte_iff {n : UInt32} (h : n.toNat < 32) (x : UInt32) :
    (((x >>> n) &&& 0xF).toUInt8.toNat = field n.toNat 8 x.toNat) ↔
      field (n.toNat + 4) 4 x.toNat = 0 := by
  have low : ((x >>> n) &&& 0xF).toUInt8.toNat = x.toNat / 2 ^ n.toNat % 16 := by
    rw [UInt32.toNat_toUInt8, UInt32.toNat_and, UInt32.toNat_shiftRight, Nat.mod_eq_of_lt h,
      Nat.shiftRight_eq_div_pow]
    change (_ &&& 2 ^ 4 - 1) % 2 ^ 8 = _
    rw [Nat.and_two_pow_sub_one_eq_mod]
    omega
  have split := field_split n.toNat 4 4 x.toNat
  change field n.toNat 8 x.toNat = x.toNat / 2 ^ n.toNat % 16 + 16 * _ at split
  rw [low, split]
  omega

/-! ## Leaf 0x80000001 -/

theorem read_cpuid0x80000001Ecx (f : ExtraC) (x : UInt32) :
    cpuid0x80000001Ecx.read f (bytes32 x) = field f.place 1 x.toNat := by
  have layout : cpuid0x80000001Ecx.width f = 1 ∧ cpuid0x80000001Ecx.offset f = f.place := by
    cases f <;> decide
  unfold BitFields.read
  rw [layout.1, layout.2, number_bytes32]

theorem read_cpuid0x80000001Edx (f : ExtraD) (x : UInt32) :
    cpuid0x80000001Edx.read f (bytes32 x) = field f.place 1 x.toNat := by
  have layout : cpuid0x80000001Edx.width f = 1 ∧ cpuid0x80000001Edx.offset f = f.place := by
    cases f <;> decide
  unfold BitFields.read
  rw [layout.1, layout.2, number_bytes32]

/-! ## The law -/

/-- The reply of leaf 1 as it should be found: the cache line size is bits 15 to 8 of EBX, the
APIC's number bits 31 to 24, and every feature its bit. -/
def DecodesLeaf1 (r : Regs32) (t : Obj → List UInt8) : Prop :=
  number (t .clflushCl) = field 8 8 r.ebx.toNat ∧ number (t .locApicId) = field 24 8 r.ebx.toNat ∧
    ∀ f : Feature, pfeatures.read f (t .procFeatures) = f.bitIn r

/-- The reply of the extended leaf as it should be found. -/
def DecodesExtended (r : Regs32) (t : Obj → List UInt8) : Prop :=
  (∀ f : ExtraC, cpuid0x80000001Ecx.read f (t .cpuidInfosExtra1c) = field f.place 1 r.ecx.toNat) ∧
    ∀ f : ExtraD, cpuid0x80000001Edx.read f (t .cpuidInfosExtra1d) = field f.place 1 r.edx.toNat

theorem decodesLeaf1_iff (r : Regs32) (s : Obj → List UInt8) :
    DecodesLeaf1 r (cpuid1After r s) ↔
      field 12 4 r.ebx.toNat = 0 ∧ field 28 4 r.ebx.toNat = 0 ∧
        Palindrome 30 r.ecx.toNat ∧ Palindrome 31 r.edx.toNat := by
  have registers : (∀ reg : FeatureReg, Palindrome reg.top (reg.of r)) ↔
      Palindrome 30 r.ecx.toNat ∧ Palindrome 31 r.edx.toNat :=
    ⟨fun h => ⟨h .ecx, h .edx⟩, fun h reg => by cases reg; exacts [h.1, h.2]⟩
  have line := masked_byte_iff (n := 8) (by decide) r.ebx
  have apic := masked_byte_iff (n := 24) (by decide) r.ebx
  have byte : ∀ b : UInt8, number [b] = b.toNat := fun b => number_cons b []
  unfold DecodesLeaf1 cpuid1After
  rw [byte, byte, features_iff, registers]
  exact and_congr line (and_congr_left' apic)

/-- THE LAW of CPUID's replies: leaf 1 is decoded as it should be exactly where the two bytes
of EBX have their upper halves clear and the registers of features are the same in both
directions; the extended leaf always is. -/
theorem cpuid_decodes_iff (reply : UInt32 → Regs32) (s : Obj → List UInt8) :
    ((cpuidSim reply).Returns cpuid1 (fun _ t => DecodesLeaf1 (reply 1) t) s ↔
      field 12 4 (reply 1).ebx.toNat = 0 ∧ field 28 4 (reply 1).ebx.toNat = 0 ∧
        Palindrome 30 (reply 1).ecx.toNat ∧ Palindrome 31 (reply 1).edx.toNat) ∧
    (0x80000001 ≤ word32 (s .maxCpuid) →
      (cpuidSim reply).Returns cpuid0x80000001
        (fun _ t => DecodesExtended (reply 0x80000001) t) s) := by
  constructor
  · rw [Simulator.returns_iff (exec_cpuid1 reply s)]
    exact decodesLeaf1_iff (reply 1) s
  · intro there
    rw [Simulator.returns_iff (exec_cpuid0x80000001 reply there)]
    exact ⟨fun f => read_cpuid0x80000001Ecx f _, fun f => read_cpuid0x80000001Edx f _⟩

/-- A processor with an FPU and little else: `fpu` is not read. -/
def fpuOnly : Regs32 := ⟨0, 0, 0, 1, false⟩

theorem fpu_misread : ¬ ∀ (reply : UInt32 → Regs32) (s : Obj → List UInt8),
    (cpuidSim reply).Returns cpuid1 (fun _ t => DecodesLeaf1 (reply 1) t) s := by
  intro h
  have right := (cpuid_decodes_iff (fun _ => fpuOnly) fun _ => []).1.mp (h _ _)
  exact absurd (right.2.2.2 0 (by decide)) (by decide)

end ToyBootloader
