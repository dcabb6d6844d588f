import ToyBootloader.Memory.BitFields
import ToyBootloader.Stage2.Tasks

/-!
# `cpuid.h`

The three packed structs that the replies of `cpuid` are read through, declaration by
declaration. Which bit of which register a name stands for is the processor's, and is kept
apart from them (`Feature.place` and the two tables of the extended leaf).
-/

namespace ToyBootloader

open Memory

/-! ## Leaf 1 -/

/-- The names of `struct pfeatures`. -/
inductive Feature where
  | rdrand | f16c | avx | osxsave | xsave | aes | tscDeadline | popcnt | movbe | x2apic | sse42
  | sse41 | dca | pcid | pdcm | xtpr | cmpxchg16b | fma | sdbg | cnxtId | ssse3 | tm2 | eist | smx
  | vmx | dsCpl | monitor | dtes64 | pclmulqdq | sse3
  | pbe | tm | htt | ss | sse2 | sse | fxsr | mmx | apci | ds | clfsh | psn | pse36 | pat | cmov
  | mca | pge | mtrr | sep | apic | cx8 | mce | pae | msr | tsc | pse | de | vme | fpu
  deriving DecidableEq, Repr

/-- `struct pfeatures` -/
def pfeatures : BitFields Feature :=
  [(some .rdrand, 1), (some .f16c, 1), (some .avx, 1), (some .osxsave, 1), (some .xsave, 1),
    (some .aes, 1), (some .tscDeadline, 1), (some .popcnt, 1), (some .movbe, 1),
    (some .x2apic, 1), (some .sse42, 1), (some .sse41, 1), (some .dca, 1), (some .pcid, 1),
    (none, 1), (some .pdcm, 1), (some .xtpr, 1), (some .cmpxchg16b, 1), (some .fma, 1),
    (some .sdbg, 1), (some .cnxtId, 1), (some .ssse3, 1), (some .tm2, 1), (some .eist, 1),
    (some .smx, 1), (some .vmx, 1), (some .dsCpl, 1), (some .monitor, 1), (some .dtes64, 1),
    (some .pclmulqdq, 1), (some .sse3, 1), (none, 1),
    -- part 2
    (some .pbe, 1), (none, 1), (some .tm, 1), (some .htt, 1), (some .ss, 1), (some .sse2, 1),
    (some .sse, 1), (some .fxsr, 1), (some .mmx, 1), (some .apci, 1), (some .ds, 1), (none, 1),
    (some .clfsh, 1), (some .psn, 1), (some .pse36, 1), (some .pat, 1), (some .cmov, 1),
    (some .mca, 1), (some .pge, 1), (some .mtrr, 1), (some .sep, 1), (none, 1), (some .apic, 1),
    (some .cx8, 1), (some .mce, 1), (some .pae, 1), (some .msr, 1), (some .tsc, 1),
    (some .pse, 1), (some .de, 1), (some .vme, 1), (some .fpu, 1)]

/-- The two registers that feature bits are returned in. -/
inductive FeatureReg where
  | ecx
  | edx
  deriving DecidableEq, Repr

/-- The processor's place for a feature: a bit of ECX or of EDX. -/
def Feature.place : Feature → FeatureReg × Nat
  | .sse3 => (.ecx, 0) | .pclmulqdq => (.ecx, 1) | .dtes64 => (.ecx, 2) | .monitor => (.ecx, 3)
  | .dsCpl => (.ecx, 4) | .vmx => (.ecx, 5) | .smx => (.ecx, 6) | .eist => (.ecx, 7)
  | .tm2 => (.ecx, 8) | .ssse3 => (.ecx, 9) | .cnxtId => (.ecx, 10) | .sdbg => (.ecx, 11)
  | .fma => (.ecx, 12) | .cmpxchg16b => (.ecx, 13) | .xtpr => (.ecx, 14) | .pdcm => (.ecx, 15)
  | .pcid => (.ecx, 17) | .dca => (.ecx, 18) | .sse41 => (.ecx, 19) | .sse42 => (.ecx, 20)
  | .x2apic => (.ecx, 21) | .movbe => (.ecx, 22) | .popcnt => (.ecx, 23)
  | .tscDeadline => (.ecx, 24) | .aes => (.ecx, 25) | .xsave => (.ecx, 26)
  | .osxsave => (.ecx, 27) | .avx => (.ecx, 28) | .f16c => (.ecx, 29) | .rdrand => (.ecx, 30)
  | .fpu => (.edx, 0) | .vme => (.edx, 1) | .de => (.edx, 2) | .pse => (.edx, 3)
  | .tsc => (.edx, 4) | .msr => (.edx, 5) | .pae => (.edx, 6) | .mce => (.edx, 7)
  | .cx8 => (.edx, 8) | .apic => (.edx, 9) | .sep => (.edx, 11) | .mtrr => (.edx, 12)
  | .pge => (.edx, 13) | .mca => (.edx, 14) | .cmov => (.edx, 15) | .pat => (.edx, 16)
  | .pse36 => (.edx, 17) | .psn => (.edx, 18) | .clfsh => (.edx, 19) | .ds => (.edx, 21)
  | .apci => (.edx, 22) | .mmx => (.edx, 23) | .fxsr => (.edx, 24) | .sse => (.edx, 25)
  | .sse2 => (.edx, 26) | .ss => (.edx, 27) | .htt => (.edx, 28) | .tm => (.edx, 29)
  | .pbe => (.edx, 31)

/-! ## Leaf 0x80000001 -/

/-- The names of `struct cpuid_0x80000001_ecx`. -/
inductive ExtraC where
  | lahfSahfAvailable | lzcnt | prefetchw
  deriving DecidableEq, Repr

/-- `struct cpuid_0x80000001_ecx` -/
def cpuid0x80000001Ecx : BitFields ExtraC :=
  [(some .lahfSahfAvailable, 1), (none, 4), (some .lzcnt, 1), (none, 2), (some .prefetchw, 1),
    (none, 23)]

/-- The processor's bits of ECX. -/
def ExtraC.place : ExtraC → Nat
  | .lahfSahfAvailable => 0
  | .lzcnt => 5
  | .prefetchw => 8

/-- The names of `struct cpuid_0x80000001_edx`. -/
inductive ExtraD where
  | syscallSysret64 | execDisableBit | has1GbitPages | rtdscpIa32TscAux | arch64Available
  deriving DecidableEq, Repr

/-- `struct cpuid_0x80000001_edx` -/
def cpuid0x80000001Edx : BitFields ExtraD :=
  [(none, 11), (some .syscallSysret64, 1), (none, 8), (some .execDisableBit, 1), (none, 5),
    (some .has1GbitPages, 1), (some .rtdscpIa32TscAux, 1), (none, 1), (some .arch64Available, 1),
    (none, 2)]

/-- The processor's bits of EDX. -/
def ExtraD.place : ExtraD → Nat
  | .syscallSysret64 => 11
  | .execDisableBit => 20
  | .has1GbitPages => 26
  | .rtdscpIa32TscAux => 27
  | .arch64Available => 29

/-- The structs are as large as what is read through them. -/
example : pfeatures.size = 64 ∧ cpuid0x80000001Ecx.size = 32 ∧ cpuid0x80000001Edx.size = 32 := by
  decide

end ToyBootloader
