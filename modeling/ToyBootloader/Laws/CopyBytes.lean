import ToyBootloader.Disk
import ToyBootloader.Laws.Conversion
import ToyBootloader.Laws.Footprint

/-!
# What a copy brings

`fpy_copy_bytes` counts sectors in a `uint8_t`. Its callers pass a `size_t`
index, which is cut to a byte on the way in, and every round increments the
byte. What lands in the destination is therefore the right sectors modulo 256
(`copied_fpyCopyBytes`), and the right bytes exactly as long as the last sector
is below 256.
-/

namespace ToyBootloader

open Resumption Code Memory Placement

/-! ## One sector -/

variable {σ : Type} {g : Geometry} {image : Nat → UInt8} {M : Machine ops σ} {mem : σ → Mem}

namespace Serves

/-- The address conversion, with the geometry it finds. -/
theorem chs_of_exec (h : Serves g image M mem) {lba : UInt32} {a : Chs} {s s' : σ}
    (run : Exec M (lbaToChs lba) s a s') : a = g.chs lba := by
  have reads := readsGeometry_geometryIs g.maxHeadNumber g.maxSectorNumber
  have seen : Exec (GeometryIs g.maxHeadNumber g.maxSectorNumber) (lbaToChs lba) () a () := by
    refine run.image (f := fun _ => ()) fun {s op x s'} hm => ?_
    cases op with
    | get v =>
      cases v with
      | maxHeadNumber => exact h.heads hm
      | maxSectorNumber => exact h.sectors hm
      | _ => trivial
    | _ => trivial
  exact ((reads.exec_lbaToChs g.head_ne g.sector_ne).mp seen).1

/-- A round's READ: memory the device does not write to is as it was, and the buffer
holds the sector. -/
theorem read_readOneSector (h : Serves g image M mem) {sector : UInt8} {e : ErrT} {s s' : σ}
    (run : Exec M (readOneSector sector) s e s') :
    (∀ a, OutsideBuffer a → mem s' a = mem s a) ∧
      (e = noErr → ∀ j < 0x200, mem s' (TRANSFER_BUFFER + j) =
        image (0x200 * sector.toNat + j)) := by
  constructor
  · have quiet : Only (Op.isCopy 0 0) (readOneSector sector) := copy_readOneSector sector
    have keeps : Follows M (fun _ _ => True) (readOneSector sector)
        (fun _ t => ∀ a, OutsideBuffer a → mem t a = mem s a) s := by
      refine quiet.follows (fun _ _ _ _ => trivial) ?_ fun _ _ => rfl
      intro t op x t' hop ht hm a ha
      refine (h.device hm ?_ a ha).trans (ht a ha)
      cases op with
      | store b y => exact absurd hop.2 (Nat.not_lt_zero b)
      | _ => exact id
    exact keeps.exec run
  · rintro rfl j hj
    simp only [readOneSector, Prog.bind_eq, get_bind, exec_bind, exec_vis] at run
    obtain ⟨a, _, hchs, drive, _, -, e, _, -, run⟩ := run
    obtain rfl := h.chs_of_exec hchs
    cases e with
    | some e => cases (exec_pure.mp run).1
    | none =>
      simp only [exec_bind, exec_vis] at run
      obtain ⟨drive, _, -, trackLength, _, -, res, _, hread, run⟩ := run
      obtain ⟨hres, rfl⟩ := exec_pure.mp run
      rw [h.read hread rfl hres.symm j hj]
      simp only [copyParams, g.index_chs]

end Serves

/-- The destination keeps off the memory that the device writes to. -/
def Apart (dest n : Nat) : Prop := ∀ i < n, OutsideBuffer (dest + i)

namespace Serves

/-- The buffer copied: the destination holds it, the rest is as it was. -/
theorem copied_copySector (h : Serves g image M mem) {dest : Nat} :
    ∀ {n i : Nat} {u : Unit} {s s' : σ}, Apart dest (i + n) → i + n ≤ 0x200 →
      Exec M (copySector dest n i) s u s' →
      (∀ j, i ≤ j → j < i + n → mem s' (dest + j) = mem s (TRANSFER_BUFFER + j)) ∧
        ∀ a, a < dest + i ∨ dest + i + n ≤ a → mem s' a = mem s a
  | 0, i, u, s, s', _, _, run => by
    obtain ⟨-, rfl⟩ := exec_pure.mp run
    exact ⟨fun j hlo hhi => by omega, fun _ _ => rfl⟩
  | n + 1, i, u, s, s', hapart, hn, run => by
    simp only [copySector, Prog.bind_eq, load_bind, store_bind, exec_vis] at run
    obtain ⟨b, s₁, hload, _, s₂, hstore, run⟩ := run
    obtain ⟨hb, hmem₁⟩ := h.load hload
    have hmem₂ := h.store hstore
    have hbuffer : ∀ j, j < 0x200 → TRANSFER_BUFFER + j ≠ dest + i := by
      intro j hj
      have := outsideBuffer_iff.mp (hapart i (by omega))
      omega
    obtain ⟨hcopied, hframe⟩ := h.copied_copySector (fun j hj => hapart j (by omega)) (by omega) run
    constructor
    · intro j hlo hhi
      rcases Nat.eq_or_lt_of_le hlo with rfl | hlt
      · rw [hframe _ (.inl (by omega)), hmem₂, Mem.set_self, hb]
      · rw [hcopied j hlt (by omega), hmem₂, Mem.set_ne _ _ (hbuffer j (by omega)), hmem₁]
    · intro a ha
      rw [hframe a (by omega), hmem₂, Mem.set_ne _ _ (by omega), hmem₁]

/-- THE COPY, as it is: byte `i` of the destination comes from the sector whose
number is right modulo 256. -/
theorem copied_fpyCopyBytesLoop (h : Serves g image M mem) {sector : UInt8} {dest : Nat}
    {count : Int} {s s' : σ} (hapart : Apart dest count.toNat)
    (run : Exec M (fpyCopyBytesLoop sector dest count) s noErr s') :
    (∀ i < count.toNat, mem s' (dest + i) =
        image (0x200 * ((sector.toNat + i / 0x200) % 256) + i % 0x200)) ∧
      ∀ a, OutsideBuffer a → a < dest ∨ dest + count.toNat ≤ a → mem s' a = mem s a := by
  induction sector, dest, count using fpyCopyBytesLoop.induct generalizing s with
  | case1 sector dest count hpos ih =>
    rw [fpyCopyBytesLoop, if_pos hpos] at run
    obtain ⟨e, s₁, hread, run⟩ := exec_bind.mp run
    obtain ⟨hout, hbuffer⟩ := h.read_readOneSector hread
    cases e with
    | some e => cases (exec_pure.mp run).1
    | none =>
      obtain ⟨u, s₂, hcopy, run⟩ := exec_bind.mp run
      have hcount : copyCount count = min count.toNat 0x200 := by
        unfold copyCount
        split <;> omega
      obtain ⟨hcopied, hframe⟩ :=
        h.copied_copySector (fun j hj => hapart j (by omega)) (by omega) hcopy
      obtain ⟨hrest, hrestFrame⟩ :=
        ih (fun j hj => Nat.add_assoc dest _ j ▸ hapart _ (by omega)) run
      have hsector := sector.toNat_lt
      constructor
      · intro i hi
        by_cases hlt : i < 0x200
        · have hkeep : mem s' (dest + i) = mem s₂ (dest + i) :=
            hrestFrame _ (hapart i hi) (.inl (by omega))
          rw [hkeep, hcopied i (Nat.zero_le i) (by omega), hbuffer rfl i hlt]
          exact congrArg image (by omega)
        · have hnext := hrest (i - 0x200) (by omega)
          rw [show dest + 0x200 + (i - 0x200) = dest + i by omega] at hnext
          rw [hnext, UInt8.toNat_add, UInt8.toNat_one]
          exact congrArg image (by omega)
      · intro a ha hout'
        have h₁ := hrestFrame a ha (by omega)
        have h₂ := hframe a (by omega)
        rw [h₁, h₂, hout a ha]
  | case2 sector dest count hpos =>
    rw [fpyCopyBytesLoop, if_neg hpos] at run
    obtain ⟨-, rfl⟩ := exec_pure.mp run
    exact ⟨fun i hi => by omega, fun _ _ _ => rfl⟩

end Serves

/-! ## A drive that never fails -/

/-- Memory, and the bytes written to the FIFO, the last first. -/
structure Drive where
  mem : Mem
  wrote : List UInt8 := []

namespace Drive

/-- The sector named by the last READ written. -/
def sector (g : Geometry) (d : Drive) : Nat :=
  match d.wrote with
  | _ :: _ :: _ :: _ :: sector :: head :: cylinder :: _ =>
    g.index cylinder.toNat head.toNat sector.toNat
  | _ => 0

/-- The transfer: the sector is in the buffer. -/
def transfer (g : Geometry) (image : Nat → UInt8) (d : Drive) : Drive :=
  { d with mem := fun a =>
      if TRANSFER_BUFFER ≤ a ∧ a < TRANSFER_BUFFER + 0x200 then
        image (0x200 * d.sector g + (a - TRANSFER_BUFFER))
      else d.mem a }

/-- Always ready, always done: every result byte is 0, and the transfer is over
when it is read. -/
def sim (g : Geometry) (image : Nat → UInt8) : Simulator ops Drive := fun d op =>
  match op with
  | .inb port => if port = FPY_FIFO then some (0, d.transfer g image) else some (0x80, d)
  | .outb port b => some ((), if port = FPY_FIFO then { d with wrote := b :: d.wrote } else d)
  | .get v => some (match v with
      | .maxSectorNumber => g.maxSectorNumber
      | .maxHeadNumber => g.maxHeadNumber
      | _ => 0, d)
  | .received | .testReceived => some (.ok, d)
  | .load a => some (d.mem a, d)
  | .store a b => some ((), { d with mem := d.mem.set a b })
  | .set _ _ | .setReceived _ | .mark _ => some ((), d)
  | _ => none

/-- The drive as a machine. -/
abbrev machine (g : Geometry) (image : Nat → UInt8) : Machine ops Drive := (sim g image).machine

variable {g : Geometry} {image : Nat → UInt8} {d d' : Drive}

theorem status (d : Drive) : machine g image d (.inb FPY_MSR) (0x80 : UInt8) d := rfl

theorem result (d : Drive) :
    machine g image d (.inb FPY_FIFO) (0 : UInt8) (d.transfer g image) := rfl

theorem testReceived (d : Drive) : machine g image d .testReceived Received.ok d := rfl

theorem received (d : Drive) : machine g image d .received Received.ok d := rfl

theorem exec_byte (b : UInt8) (n : Nat) (d : Drive) :
    Exec (machine g image) (fpySendCommandByteLoop b (n + 1)) d noErr
      { d with wrote := b :: d.wrote } :=
  .vis (status d) (.vis rfl .pure)

theorem exec_bytes : ∀ (bs : List UInt8) (d : Drive),
    Exec (machine g image) (fpySendCommandLoop 0x80 true bs) d noErr
      { d with wrote := bs.reverse ++ d.wrote }
  | [], d => .hit (status d) rfl .pure
  | b :: bs, d => by
    have hrest := exec_bytes bs { d with wrote := b :: d.wrote }
    rw [List.reverse_cons, List.append_assoc]
    refine .hit (status d) rfl ?_
    exact (exec_bind (p := fpySendCommandByte b)).mpr ⟨noErr, _, exec_byte b 999 d, hrest⟩

theorem exec_send (cmd : List UInt8) (d : Drive) :
    Exec (machine g image) (fpySendCommand cmd true) d noErr
      { d with wrote := cmd.reverse ++ d.wrote } := by
  have hbody : Exec (machine g image) (fpySendCommandBody cmd true) d noErr
      { d with wrote := cmd.reverse ++ d.wrote } := .vis (status d) (exec_bytes cmd d)
  simp only [fpySendCommand, Prog.bind_eq, mark_bind, exec_vis, exec_bind]
  exact ⟨(), d, rfl, noErr, _, hbody, (), _, rfl, .pure⟩

theorem exec_data (d : Drive) :
    Exec (machine g image) fpyReadData d 0 (d.transfer g image) :=
  .vis (status d) (.vis (result d) .pure)

/-- Once the sector is there, the transfer is done. -/
theorem transfer_transfer (d : Drive) :
    (d.transfer g image).transfer g image = d.transfer g image := by
  simp only [transfer, Drive.mk.injEq, and_true]
  funext a
  split <;> rfl

theorem exec_next (d : Drive) :
    Exec (machine g image) fpyReadData (d.transfer g image) 0 (d.transfer g image) := by
  have h : Exec (machine g image) _ _ _ _ := exec_data (d.transfer g image)
  rw [transfer_transfer] at h
  exact h

/-- A status byte that reads 0 and passes its check. -/
theorem exec_status {α : Type} {check : UInt8 → ErrT} {k : UInt8 → ErrT → Code α}
    {d d₁ d' : Drive} {a : α} (hcheck : check 0 = none)
    (hdata : Exec (machine g image) fpyReadData d 0 d₁)
    (hk : Exec (machine g image) (k 0 none) d₁ a d') :
    Exec (machine g image) (fpyReadData.bind fun b => (checked (check b)).bind (k b)) d a d' := by
  have hchecked : Exec (machine g image) (checked (check 0)) d₁ none d₁ := by
    rw [hcheck]
    exact .vis rfl .pure
  exact exec_bind.mpr ⟨0, d₁, hdata, exec_bind.mpr ⟨none, d₁, hchecked, hk⟩⟩

/-- A result of zeros passes every check. -/
theorem exec_result (d : Drive) :
    Exec (machine g image) fpyCmdGenRes d { error := noErr } (d.transfer g image) := by
  have next : Exec (machine g image) _ _ _ _ := exec_next d
  refine exec_status rfl (exec_data d) (exec_status rfl next (exec_status rfl next ?_))
  refine exec_bind.mpr ⟨0, _, next, exec_bind.mpr ⟨0, _, next, ?_⟩⟩
  exact exec_bind.mpr ⟨0, _, next, exec_bind.mpr ⟨0, _, next, .pure⟩⟩

/-- A READ on the drive. -/
theorem exec_read (p : FpyCmdReadSectorParams) (d : Drive) :
    Exec (machine g image) (fpyCmdReadSector p) d { error := noErr }
      (Drive.transfer g image { d with wrote := (p.cmd .readSect).reverse ++ d.wrote }) := by
  have hwait : ∀ d : Drive, Exec (machine g image) fpyWaitIrq d noErr d := fun d =>
    .hit (testReceived d) rfl (.vis (received d) (.vis rfl .pure))
  simp only [fpyCmdReadSector, fpyPrepareIrqNoHandle, Prog.bind_eq, set_bind, exec_vis, exec_bind]
  refine ⟨(), d, rfl, noErr, _, exec_send _ d, ?_⟩
  exact exec_bind.mpr ⟨noErr, _, hwait _, exec_result _⟩

/-- The drive has the disk behind it. -/
theorem serves : Serves g image (machine g image) Drive.mem where
  sectors h := (congrArg Prod.fst (Option.some.inj h)).symm
  heads h := (congrArg Prod.fst (Option.some.inj h)).symm
  load h := by
    cases h
    exact ⟨rfl, rfl⟩
  store h := by
    cases h
    rfl
  device {d op x d'} h hop a ha := by
    cases op with
    | inb port =>
      simp only [Simulator.machine, sim] at h
      split at h
      · cases h
        exact if_neg (by rw [outsideBuffer_iff] at ha; omega)
      · cases h
        rfl
    | outb port b =>
      simp only [Simulator.machine, sim] at h
      split at h <;> cases h <;> rfl
    | store b y => exact absurd trivial hop
    | _ => cases h <;> rfl
  read {d p res d'} run _ _ j hj := by
    obtain ⟨-, rfl⟩ := (exec_read p d).deterministic Simulator.machine_deterministic run
    simp only [transfer]
    rw [if_pos (by omega), Nat.add_sub_cancel_left]
    rfl

theorem exec_chs (lba : UInt32) (d : Drive) :
    Exec (machine g image) (lbaToChs lba) d (g.chs lba) d := by
  have reads : ReadsGeometry (machine g image) g.maxHeadNumber g.maxSectorNumber d :=
    ⟨Simulator.machine_iff rfl, Simulator.machine_iff rfl⟩
  exact (reads.exec_lbaToChs g.head_ne g.sector_ne).mpr ⟨rfl, rfl⟩

theorem exec_readOneSector (sector : UInt8) (d : Drive) :
    ∃ d', Exec (machine g image) (readOneSector sector) d noErr d' := by
  have drive : ∀ d, Exec (machine g image) (get .driveNumber) d 0 d := fun _ => .vis rfl .pure
  refine (exec_chs _ d).exists_bind ((drive d).exists_bind ?_)
  refine (exec_send _ d).exists_bind ((drive _).exists_bind ?_)
  refine Exec.exists_bind (p := get .maxSectorNumber) (.vis rfl .pure) ?_
  exact (exec_read _ _).exists_bind ⟨_, .pure⟩

theorem exec_copySector (dest : Nat) : ∀ (n i : Nat) (d : Drive),
    ∃ d', Exec (machine g image) (copySector dest n i) d () d'
  | 0, _, d => ⟨d, .pure⟩
  | n + 1, i, d => by
    obtain ⟨d', run⟩ := exec_copySector dest n (i + 1)
      { d with mem := d.mem.set (dest + i) (d.mem (TRANSFER_BUFFER + i)) }
    exact ⟨d', .vis rfl (.vis rfl run)⟩

/-- Every copy on the drive returns, and without an error. -/
theorem exec_fpyCopyBytes (sector : UInt8) (dest : Nat) (count : Int) (d : Drive) :
    ∃ d', Exec (machine g image) (fpyCopyBytes sector dest count) d noErr d' := by
  have hloop : ∃ d', Exec (machine g image) (fpyCopyBytesLoop sector dest count) d noErr d' := by
    induction sector, dest, count using fpyCopyBytesLoop.induct generalizing d with
    | case1 sector dest count hpos ih =>
      obtain ⟨d₁, hread⟩ := exec_readOneSector sector d
      obtain ⟨d₂, hcopy⟩ := exec_copySector dest (copyCount count) 0 d₁
      rw [fpyCopyBytesLoop, if_pos hpos]
      exact hread.exists_bind (hcopy.exists_bind (ih d₂))
    | case2 sector dest count hpos =>
      rw [fpyCopyBytesLoop, if_neg hpos]
      exact ⟨d, .pure⟩
  obtain ⟨d', run⟩ := hloop
  exact ⟨d', exec_bind.mpr ⟨noErr, d', run, .vis rfl .pure⟩⟩

end Drive

/-! ## The law -/

/-- A copy of `count` bytes from sector `n` on brings those bytes, from every
disk of geometry `g`, on every machine that serves it. -/
def CopiesRight (g : Geometry) (n dest : Nat) (count : Int) : Prop :=
  ∀ (image : Nat → UInt8) (σ : Type) (M : Machine ops σ) (mem : σ → Mem), Serves g image M mem →
    ∀ s s', Exec M (fpyCopyBytes (UInt8.ofNat n) dest count) s noErr s' →
      ∀ i < count.toNat, mem s' (dest + i) = image (0x200 * n + i)

/-- THE COPY, as it is: byte `i` of the destination comes from the sector whose
number is right modulo 256. -/
theorem copied_fpyCopyBytes (h : Serves g image M mem) {n dest : Nat} {count : Int} {s s' : σ}
    (hapart : Apart dest count.toNat)
    (run : Exec M (fpyCopyBytes (UInt8.ofNat n) dest count) s noErr s') {i : Nat}
    (hi : i < count.toNat) :
    mem s' (dest + i) = image (0x200 * ((n + i / 0x200) % 256) + i % 0x200) := by
  obtain ⟨e, s₁, hloop, hret⟩ := exec_bind.mp run
  obtain ⟨u, s₂, hmark, hret⟩ := exec_vis.mp hret
  obtain ⟨rfl, rfl⟩ := exec_pure.mp hret
  rw [h.device hmark id _ (hapart i hi), (h.copied_fpyCopyBytesLoop hapart hloop).1 i hi,
    UInt8.toNat_ofNat']
  exact congrArg image (by omega)

/-- Every byte of the copy lies in a sector below the number of its blocks. -/
theorem div_lt_blocks {count : Int} {i : Nat} (hi : i < count.toNat) :
    i / 0x200 < blocks 0x200 count.toNat := by
  unfold blocks
  omega

/-- A copy that brings the right bytes from every disk ends below sector 256. -/
theorem below_of_copiesRight {n dest : Nat} {count : Int} (hapart : Apart dest count.toNat)
    (hpos : 0 < count) (hright : CopiesRight g n dest count) :
    n + blocks 0x200 count.toNat ≤ 256 := by
  by_contra hnot
  have hlast : 0x200 * (blocks 0x200 count.toNat - 1) < count.toNat := by
    unfold blocks
    omega
  -- a disk of zeros up to sector 256, and of ones from there on
  let image : Nat → UInt8 := fun a => if a < 0x200 * 256 then 0 else 1
  have hzero : ∀ a, a < 0x200 * 256 → image a = 0 := fun a ha => if_pos ha
  have hone : ∀ a, ¬ a < 0x200 * 256 → image a = 1 := fun a ha => if_neg ha
  have hserves : Serves g image (Drive.machine g image) Drive.mem := Drive.serves
  obtain ⟨d', run⟩ : ∃ d', Exec (Drive.machine g image)
      (fpyCopyBytes (UInt8.ofNat n) dest count) ⟨fun _ => 0, []⟩ noErr d' :=
    Drive.exec_fpyCopyBytes _ _ _ _
  have hgot := copied_fpyCopyBytes hserves hapart run hlast
  rw [hright image _ _ _ hserves _ _ run _ hlast, hone _ (by omega), hzero _ (by omega)] at hgot
  cases hgot

/-- THE LAW of the copy: it brings the right bytes exactly when there are none,
or when the last sector is below 256. -/
theorem copiesRight_iff (g : Geometry) (n : Nat) {dest : Nat} {count : Int}
    (hapart : Apart dest count.toNat) :
    CopiesRight g n dest count ↔ count ≤ 0 ∨ n + blocks 0x200 count.toNat ≤ 256 := by
  constructor
  · intro hright
    rcases Int.lt_or_le 0 count with hpos | hle
    · exact .inr (below_of_copiesRight hapart hpos hright)
    · exact .inl hle
  · intro hbelow image σ M mem h s s' run i hi
    have hsector := div_lt_blocks hi
    rw [copied_fpyCopyBytes h hapart run hi]
    exact congrArg image (by omega)

/-- The geometry of a 1.44M disk. -/
def floppy144 : Geometry := ⟨18, 2, by decide, by decide, by decide⟩

/-- Memory from 0x7000 on is off the buffer. -/
theorem apart_stages (n : Nat) : Apart 0x7000 n := fun i _ =>
  outsideBuffer_iff.mpr (.inr (by unfold TRANSFER_BUFFER; omega))

/-- 4K from sector 200 on, for the right reason. -/
theorem copies_low_sectors : CopiesRight floppy144 200 0x7000 0x1000 :=
  (copiesRight_iff floppy144 200 (apart_stages _)).mpr (.inr (by decide))

/-- Sector 256 of a 1.44M disk is read as sector 0. -/
theorem copies_sector_256_wrong : ¬ ∀ (g : Geometry) (cylinders n dest : Nat) (count : Int),
    cylinders ≤ 256 → 0 ≤ count → n + blocks 0x200 count.toNat ≤ cylinders * g.perCylinder →
    Apart dest count.toNat → CopiesRight g n dest count := by
  intro h
  have hright := h floppy144 80 256 0x7000 1 (by decide) (by decide) (by decide) (apart_stages _)
  exact absurd (below_of_copiesRight (apart_stages _) (by decide) hright) (by decide)

end ToyBootloader
