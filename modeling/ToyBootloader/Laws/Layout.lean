import ToyBootloader.Disk
import ToyBootloader.Laws.Footprint

/-!
# The layout is consistent

What the linker script promises to the loads that use its symbols, for every
size a build can supply: on the disk the parts do not share a sector, and in
memory no load and no clearing reaches what another placed.

The disk half is a chain of `ALIGN`s. The memory half is about code: `Touches`
is what a run of a load can store to, together with the buffer the controller
transfers to, and the footprints bound it.
-/

namespace ToyBootloader

open Resumption Placement Code

namespace Sizes

variable (L : Sizes)

/-! ## On the disk -/

/-- The sectors of a part on the disk. -/
def sectors (p : Part) : Extent := ⟨L.firstSectionIndex p, blocks 512 (L.size p)⟩

/-- The parts in the order of their load addresses. -/
def parts : List Part := [.shared, .stage2, .stage3, .stage4, .stage5, .loaderProtected]

/-- Every load address is a sector's. -/
theorem dvd_loadAddr (p : Part) : 512 ∣ L.loadAddr p := by
  cases p with
  | shared => exact ⟨63, rfl⟩
  | _ => exact dvd_alignUp

/-- Load addresses only grow: each is the first sector's past its
predecessor. -/
theorem le_after (lma size : Nat) : lma ≤ after lma size :=
  Nat.le_trans (Nat.le_add_right lma size) (le_alignUp (by decide))

theorem image_le_loadAddr (p : Part) : 0x7E00 ≤ L.loadAddr p := by
  have h2 := le_after sharedLoadAddr L.shared
  have h3 := le_after L.stage2LoadAddr L.stage2
  have h4 := le_after L.stage3LoadAddr L.stage3
  have h5 := le_after L.stage4LoadAddr L.stage4
  have hl := le_after L.stage5LoadAddr L.stage5.size
  unfold sharedLoadAddr at h2
  cases p with
  | shared => exact Nat.le_refl _
  | stage2 => exact h2
  | stage3 => exact Nat.le_trans h2 h3
  | stage4 => exact Nat.le_trans h2 (Nat.le_trans h3 h4)
  | stage5 => exact Nat.le_trans h2 (Nat.le_trans h3 (Nat.le_trans h4 h5))
  | loaderProtected =>
    exact Nat.le_trans h2 (Nat.le_trans h3 (Nat.le_trans h4 (Nat.le_trans h5 hl)))

/-- A first section index is exact: it is the part's place in the image. -/
theorem loadAddr_eq (p : Part) : L.loadAddr p = 0x7C00 + 512 * L.firstSectionIndex p := by
  obtain ⟨k, hk⟩ := L.dvd_loadAddr p
  have h := L.image_le_loadAddr p
  unfold firstSectionIndex
  omega

/-- A part that is loaded after another has its sectors after the other's. -/
theorem before_of_after {p q : Part} (h : L.loadAddr q = after (L.loadAddr p) (L.size p)) :
    Extent.Before (L.sectors p) (L.sectors q) := by
  have hle : L.loadAddr p + 512 * blocks 512 (L.size p) ≤ L.loadAddr q :=
    h ▸ add_mul_blocks_le (by decide) (L.dvd_loadAddr p)
  have hp := L.loadAddr_eq p
  have hq := L.loadAddr_eq q
  simp only [Extent.Before, Extent.stop, sectors]
  omega

/-- The disk in the order of the script. -/
theorem sectors_chain : (parts.map L.sectors).IsChain Extent.Before := by
  simp only [parts, List.map_cons, List.map_nil, List.isChain_cons_cons, List.isChain_singleton,
    and_true]
  refine ⟨L.before_of_after rfl, L.before_of_after rfl, L.before_of_after rfl,
    L.before_of_after rfl, L.before_of_after rfl⟩

/-! ## The shared objects -/

theorem loadSize_shared : L.loadSize .shared = L.sharedLoad :=
  Nat.add_sub_cancel_left sharedStart L.sharedLoad

theorem sharedStart_le_bssStart : sharedStart + L.sharedLoad ≤ L.sharedBssStart :=
  le_alignUp L.sharedBss_aligned

/-- The whole sectors copied end at `_content_start` or before. -/
theorem shared_copy_le_contentStart :
    sharedStart + 512 * L.loadCount .shared ≤ L.contentStart := by
  have hbss := L.sharedStart_le_bssStart
  refine Nat.le_trans (add_mul_blocks_le (by decide) ⟨63, rfl⟩) ?_
  refine alignUp_mono (by decide) ?_
  rw [L.loadSize_shared]
  unfold shared
  omega

/-- Every object of the shared `.bss` after `mem.o` lies more than its 1200
bytes up, and so does every global. -/
theorem memoryLayout_le_bssOffset (v : Var) : 1200 ≤ L.bssOffset v.object := by
  have hmem : L.sharedBss .mem ∈
      (sharedObjects.takeWhile (· ≠ v.object)).map L.sharedBss :=
    List.mem_map_of_mem (show SharedObject.mem ∈ _ by cases v <;> decide)
  have hsize : 0 + (L.sharedBss .mem).size ≤ _ := add_size_le_counter hmem
  rw [L.memoryLayout_size] at hsize
  exact Nat.le_trans (by omega) (le_alignUp (L.sharedBss v.object).aligned)

/-- The whole sectors copied do not reach `drive_number`, nor any other
global. -/
theorem shared_copy_le_addr (v : Var) :
    sharedStart + 512 * L.loadCount .shared ≤ L.addr v := by
  have hcopy : 512 * L.loadCount .shared < L.loadSize .shared + 512 := mul_blocks_lt (by decide)
  have hbss := L.sharedStart_le_bssStart
  have hmem := L.memoryLayout_le_bssOffset v
  rw [L.loadSize_shared] at hcopy
  unfold addr
  omega

/-- The two objects with globals, in the order they are placed. -/
theorem diskProps_le_floppy :
    L.bssOffset .diskProps + (L.sharedBss .diskProps).size ≤ L.bssOffset .floppy :=
  le_alignUp (L.sharedBss .floppy).aligned

theorem floppy_le_bssSize :
    L.bssOffset .floppy + (L.sharedBss .floppy).size ≤ L.sharedBssSize :=
  le_counter [L.sharedBss .idt, L.sharedBss .idtHandlers32] _

/-- Every global lies below `_content_start`. -/
theorem addr_lt_contentStart (v : Var) : L.addr v < L.contentStart := by
  have hcontent : sharedStart + L.shared ≤ L.contentStart := le_alignUp (by decide)
  have hoffset := L.varOffset_lt v
  have horder := L.diskProps_le_floppy
  have hsize := L.floppy_le_bssSize
  have hbss := L.sharedStart_le_bssStart
  unfold shared at hcontent
  unfold addr
  cases v <;> simp only [Var.object] at hoffset ⊢ <;> omega

/-- No two globals share an address. -/
theorem addr_inj {v w : Var} (h : L.addr v = L.addr w) : v = w := by
  by_cases hobject : v.object = w.object
  · refine L.varOffset_inj v w hobject ?_
    unfold addr at h
    rw [hobject] at h
    omega
  · exfalso
    have hv := L.varOffset_lt v
    have hw := L.varOffset_lt w
    have horder := L.diskProps_le_floppy
    have object : ∀ v : Var, v.object = .diskProps ∨ v.object = .floppy := by
      intro v
      cases v <;> decide
    unfold addr at h
    rcases object v with ho | ho <;> rcases object w with ho' | ho' <;>
      rw [ho] at hv h hobject <;> rw [ho'] at hw h hobject
    · exact hobject rfl
    · omega
    · omega
    · exact hobject rfl

/-! ## In memory -/

/-- Where a part's bytes are when it has been loaded. -/
def region (p : Part) : Extent := ⟨L.runAddr p, L.size p⟩

/-- `[_stage_4_bss_start, _stage_4_bss_end)` -/
def stage4BssRegion : Extent := ⟨L.stage4BssStart, L.stage4Bss.size⟩

theorem loaderProtected_below : (L.region .loaderProtected).stop < 0x7E00 := by
  have h := L.loaderProtected_fits
  simp only [region, Extent.stop, runAddr, size]
  omega

/-- Stage 4, stage 5 and stage 4's `.bss`, above loader_protected. -/
theorem regions_chain : [L.region .loaderProtected, L.region .stage4, L.region .stage5,
    L.stage4BssRegion].IsChain Extent.Before := by
  have hlow := L.loaderProtected_below
  have hcontent : sharedStart + L.shared ≤ L.contentStart := le_alignUp (by decide)
  have h5 : L.contentStart + L.stage4 ≤ L.stage5Start := le_alignUp L.stage5.aligned
  have hbss : L.stage5Start + L.stage5.size ≤ L.stage4BssStart := le_alignUp L.stage4Bss.aligned
  simp only [List.isChain_cons_cons, List.isChain_singleton, and_true]
  refine ⟨?_, h5, hbss⟩
  refine Nat.le_trans (Nat.le_of_lt hlow) (Nat.le_trans ?_ hcontent)
  exact Nat.le_add_right sharedStart L.shared

theorem regions_disjoint : [L.region .loaderProtected, L.region .stage4, L.region .stage5,
    L.stage4BssRegion].Pairwise Extent.Disjoint :=
  Extent.disjoint_of_chain L.regions_chain

end Sizes

/-! ## What a run touches -/

/-- A run of `p` can write at `a`: it stores there, or the controller does
while it transfers. -/
def Touches {α : Type} (p : Code α) (a : Nat) : Prop :=
  (∃ x k, Reach Anything (p, ()) (.vis (S := ops) (.store a x) k, ())) ∨ dmaBuffer.Mem a

/-- A footprint bounds what is touched. -/
theorem touches_of_storesIn {α : Type} {p : Code α} {lo hi a : Nat}
    (h : Only (Op.storesIn lo hi) p) (ht : Touches p a) :
    lo ≤ a ∧ a < hi ∨ dmaBuffer.Mem a := by
  rcases ht with ⟨x, k, run⟩ | hd
  · exact .inl (Only.reach h run)
  · exact .inr hd

/-- A load by the driver touches the part's region and the buffer. -/
theorem touches_fpyCopyPart {L : Sizes} {p : Part} {a : Nat}
    (h : Touches (fpyCopyPart L p) a) : (L.region p).Mem a ∨ dmaBuffer.Mem a :=
  have stores : Only (Op.storesIn (L.runAddr p) (L.runAddr p + L.size p)) (fpyCopyPart L p) := by
    simp only [fpyCopyPart, Prog.bind_eq, mark_bind, only_vis]
    exact ⟨trivial, fun _ => storesIn_fpyCopyBytes _ (L.runAddr p) (L.size p)⟩
  touches_of_storesIn stores h

theorem touches_resetBss {L : Sizes} {a : Nat}
    (h : Touches (resetBss L.stage4BssStart L.stage4BssEnd) a) :
    L.stage4BssRegion.Mem a ∨ dmaBuffer.Mem a := by
  refine touches_of_storesIn (storesIn_clearBytes _ _ (Nat.le_refl _) ?_) h
  simp only [Sizes.stage4BssRegion, Extent.stop, Sizes.stage4BssEnd]
  omega

/-- The buffer lies below every region the linker places. -/
theorem dmaBuffer_below {a : Nat} (h : dmaBuffer.Mem a) : a < 0x1300 := h.2

/-! ## The law -/

/-- What the script's layout has to keep apart. -/
structure Sizes.Consistent (L : Sizes) : Prop where
  /-- Each first section index is exact. -/
  index_exact : ∀ p, L.loadAddr p = 0x7C00 + 512 * L.firstSectionIndex p
  /-- No two parts share a sector. -/
  sectors_disjoint : (Sizes.parts.map L.sectors).Pairwise Extent.Disjoint
  /-- No part has the boot sector. -/
  not_bootSector : ∀ p, ¬ (L.sectors p).Mem 0
  /-- The copy of the shared part stays under `_content_start`, -/
  shared_below_content : Sizes.sharedStart + 512 * L.loadCount .shared ≤ L.contentStart
  /-- and under `drive_number`. -/
  shared_below_driveNumber : Sizes.sharedStart + 512 * L.loadCount .shared ≤ L.addr .driveNumber
  /-- Loading loader_protected stays under the shared part. -/
  loaderProtected_low : ∀ a, Touches (fpyCopyPart L .loaderProtected) a → a < 0x7E00
  /-- Loading stage 4 touches none of the three others. -/
  stage4_apart : ∀ a, Touches (fpyCopyPart L .stage4) a →
    ¬ (L.region .loaderProtected).Mem a ∧ ¬ (L.region .stage5).Mem a ∧ ¬ L.stage4BssRegion.Mem a
  /-- Nor does loading stage 5, -/
  stage5_apart : ∀ a, Touches (fpyCopyPart L .stage5) a →
    ¬ (L.region .loaderProtected).Mem a ∧ ¬ (L.region .stage4).Mem a ∧ ¬ L.stage4BssRegion.Mem a
  /-- nor clearing stage 4's `.bss`. -/
  bss_apart : ∀ a, Touches (resetBss L.stage4BssStart L.stage4BssEnd) a →
    ¬ (L.region .loaderProtected).Mem a ∧ ¬ (L.region .stage4).Mem a ∧ ¬ (L.region .stage5).Mem a

/-- No region a load places reaches down to the buffer. -/
theorem Sizes.not_mem_of_dmaBuffer {L : Sizes} {a : Nat} (h : dmaBuffer.Mem a) :
    ¬ (L.region .loaderProtected).Mem a ∧ ¬ (L.region .stage4).Mem a ∧
      ¬ (L.region .stage5).Mem a ∧ ¬ L.stage4BssRegion.Mem a := by
  have ha := dmaBuffer_below h
  have hcontent : sharedStart + L.shared ≤ L.contentStart := le_alignUp (by decide)
  have h5 : L.contentStart + L.stage4 ≤ L.stage5Start := le_alignUp L.stage5.aligned
  have hbss : L.stage5Start + L.stage5.size ≤ L.stage4BssStart := le_alignUp L.stage4Bss.aligned
  unfold sharedStart at hcontent
  simp only [Extent.Mem, region, stage4BssRegion, runAddr]
  omega

/-- THE LAW of the linker script, for every build. -/
theorem Sizes.layout_consistent (L : Sizes) : L.Consistent := by
  have hdisjoint := L.regions_disjoint
  simp only [List.pairwise_cons, List.mem_cons, List.not_mem_nil, or_false, forall_eq_or_imp,
    forall_eq] at hdisjoint
  obtain ⟨⟨hl4, hl5, hlb⟩, ⟨h45, h4b⟩, h5b, -⟩ := hdisjoint
  refine ⟨L.loadAddr_eq, Extent.disjoint_of_chain L.sectors_chain, ?_,
    L.shared_copy_le_contentStart, L.shared_copy_le_addr .driveNumber, ?_, ?_, ?_, ?_⟩
  · rintro p ⟨hzero, -⟩
    have hindex := L.loadAddr_eq p
    have himage := L.image_le_loadAddr p
    simp only [sectors] at hzero
    omega
  · intro a ha
    rcases touches_fpyCopyPart ha with hr | hd
    · exact Nat.lt_trans hr.2 L.loaderProtected_below
    · exact Nat.lt_trans (dmaBuffer_below hd) (by decide)
  · intro a ha
    rcases touches_fpyCopyPart ha with hr | hd
    · exact ⟨fun h => hl4 a ⟨h, hr⟩, fun h => h45 a ⟨hr, h⟩, fun h => h4b a ⟨hr, h⟩⟩
    · obtain ⟨hl, -, h5, hb⟩ := L.not_mem_of_dmaBuffer hd
      exact ⟨hl, h5, hb⟩
  · intro a ha
    rcases touches_fpyCopyPart ha with hr | hd
    · exact ⟨fun h => hl5 a ⟨h, hr⟩, fun h => h45 a ⟨h, hr⟩, fun h => h5b a ⟨hr, h⟩⟩
    · obtain ⟨hl, h4, -, hb⟩ := L.not_mem_of_dmaBuffer hd
      exact ⟨hl, h4, hb⟩
  · intro a ha
    rcases touches_resetBss ha with hr | hd
    · exact ⟨fun h => hlb a ⟨h, hr⟩, fun h => h4b a ⟨h, hr⟩, fun h => h5b a ⟨h, hr⟩⟩
    · obtain ⟨hl, h4, h5, -⟩ := L.not_mem_of_dmaBuffer hd
      exact ⟨hl, h4, h5⟩

end ToyBootloader
