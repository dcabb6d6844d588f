import ToyBootloader.Laws.Footprint
import ToyBootloader.Paging.Walk
import ToyBootloader.Stage4.Paging

/-!
# The page tables are an identity map

`setup_paging` run on a byte memory, and the processor's walk over what it
leaves: the first GiB is mapped to itself and nothing else is mapped. The map
needs the rest of the three tables to be zero, which is what clearing the
`.bss` is for.
-/

namespace ToyBootloader

open Resumption Code Memory Paging

/-! ## The machine -/

/-- The memory, and the root of the walk. -/
structure Cpu where
  mem : Mem
  cr3 : Nat

namespace Cpu

/-- Loads and stores are the memory's, `cr3` is kept, everything else answers
anything and changes neither. -/
def machine : Machine ops Cpu := fun s op =>
  match op with
  | .load a => fun x s' => x = s.mem a ∧ s' = s
  | .store a x => fun _ s' => s' = { s with mem := s.mem.set a x }
  | .writeCr n x => fun _ s' => s' = if n = 3 then { s with cr3 := x.toNat } else s
  | _ => fun _ s' => s' = s

/-- Every run of `p` from `s` ends in `Q`. -/
abbrev Ends {α : Type} (p : Code α) (Q : Cpu → Prop) (s : Cpu) : Prop :=
  Follows machine (fun _ _ => True) p (fun _ => Q) s

/-! ## Stores -/

theorem ends_storeBytes : ∀ (bs : List UInt8) (a : Nat) (s : Cpu),
    Ends (storeBytes a bs) (· = { s with mem := s.mem.write a bs }) s
  | [], _, _ => rfl
  | b :: bs, a, s => by
    simp only [storeBytes, Prog.bind_eq, store_bind]
    apply follows_to trivial fun _ _ h => h
    intro _
    exact ends_storeBytes bs (a + 1) { s with mem := s.mem.set a b }

theorem ends_setFlag (pg : Nat) (bit : UInt8) (s : Cpu) :
    Ends (setFlag pg bit) (· = { s with mem := s.mem.set pg (s.mem pg ||| (1 <<< bit)) }) s := by
  simp only [setFlag, Prog.bind_eq, load_bind]
  refine ⟨trivial, ?_⟩
  rintro _ _ ⟨rfl, rfl⟩
  exact ⟨trivial, fun _ _ h => h⟩

/-- Clearing leaves zeros, and what was outside. -/
theorem ends_clearBytes : ∀ (n start : Nat) (s : Cpu),
    Ends (clearBytes start n) (fun s' => s'.cr3 = s.cr3 ∧
      (∀ x, start ≤ x → x < start + n → s'.mem x = 0) ∧
      ∀ x, x < start ∨ start + n ≤ x → s'.mem x = s.mem x) s
  | 0, start, s => ⟨rfl, fun x hlo hhi => by omega, fun _ _ => rfl⟩
  | n + 1, start, s => by
    simp only [clearBytes, Prog.bind_eq, store_bind]
    apply follows_to trivial fun _ _ h => h
    intro _
    refine (ends_clearBytes n (start + 1) _).mono ?_
    rintro _ s' ⟨hcr3, hzero, hout⟩
    refine ⟨hcr3, fun x hlo hhi => ?_, fun x hx => ?_⟩
    · rcases Nat.eq_or_lt_of_le hlo with rfl | hlt
      · exact (hout start (.inl (Nat.lt_succ_self start))).trans (Mem.set_self s.mem start 0)
      · exact hzero x hlt (by omega)
    · exact (hout x (by omega)).trans (Mem.set_ne s.mem 0 (by omega))

/-! ## One entry -/

/-- What setting an entry leaves: the address, with the flags in its first
byte, and everything outside the entry as it was. -/
def EntrySet (pg v flags : Nat) (s s' : Cpu) : Prop :=
  s'.cr3 = s.cr3 ∧ s'.mem.readLE pg 8 = v + flags ∧
    ∀ x, x < pg ∨ pg + 8 ≤ x → s'.mem x = s.mem x

/-- An address stored with its first byte overwritten reads back as the sum,
when the address leaves that byte clear. -/
theorem readLE_entry {m : Mem} {pg v : Nat} (b : UInt8) (hv : v < 2 ^ 32) (hclear : 256 ∣ v) :
    ((m.write pg (bytesLE (v % 2 ^ 32) 8)).set pg b).readLE pg 8 = v + b.toNat := by
  rw [Nat.mod_eq_of_lt hv]
  have hword : (m.write pg (bytesLE v 8)).readLE pg 8 = v :=
    Mem.readLE_write (Nat.lt_of_lt_of_le hv (by decide))
  have hrest : ((m.write pg (bytesLE v 8)).set pg b).readLE (pg + 1) 7 =
      (m.write pg (bytesLE v 8)).readLE (pg + 1) 7 :=
    Mem.readLE_congr fun x hlo _ => Mem.set_ne _ _ (by omega)
  have hlt := (m.write pg (bytesLE v 8) pg).toNat_lt
  obtain ⟨k, rfl⟩ := hclear
  -- Only the first byte is taken apart: the seven behind it are one number.
  rw [Mem.readLE] at hword ⊢
  rw [hrest, Mem.set_self]
  omega

theorem write_outside_entry {m : Mem} {pg v x : Nat} (b : UInt8) (hx : x < pg ∨ pg + 8 ≤ x) :
    ((m.write pg (bytesLE v 8)).set pg b) x = m x := by
  rw [Mem.set_ne _ _ (by omega), Mem.write_outside (by simpa using hx)]

/-- The first byte of a clear address is clear. -/
theorem write_first {m : Mem} {pg v : Nat} (hclear : 256 ∣ v) :
    m.write pg (bytesLE (v % 2 ^ 32) 8) pg = 0 := by
  have hfirst : m.write pg (bytesLE (v % 2 ^ 32) 8) pg = UInt8.ofNat (v % 2 ^ 32) := by
    rw [bytesLE, Mem.write, Mem.write_outside (.inl (Nat.lt_succ_self pg)), Mem.set_self]
  rw [hfirst]
  apply UInt8.toNat_inj.mp
  rw [UInt8.toNat_ofNat']
  simp only [UInt8.reduceToNat]
  omega

/-- A flag set twice over the same first byte. -/
theorem set_or (m : Mem) (pg : Nat) (b c : UInt8) :
    (m.set pg b).set pg ((m.set pg b) pg ||| c) = m.set pg (b ||| c) := by
  rw [Mem.set_self]
  funext x
  simp only [Mem.set]
  split <;> rfl

/-- An entry that points to a table: present and writable. -/
theorem ends_tableEntry {α : Type} {pg v : Nat} (hv : v < 2 ^ 32) (hclear : 256 ∣ v) {s : Cpu}
    {k : Code α} {Q : Cpu → Prop} (h : ∀ s', EntrySet pg v 3 s s' → Ends k Q s') :
    Ends (do setAddr pg v; setFlag pg PG_PRESENT; setFlag pg PG_WRITABLE; k) Q s := by
  apply (ends_storeBytes _ pg s).to
  intro _
  apply (ends_setFlag pg _ _).to
  intro _
  apply (ends_setFlag pg _ _).to
  intro _
  refine h _ ⟨rfl, ?_, fun x hx => ?_⟩
  · simp only [set_or, write_first hclear]
    exact readLE_entry _ hv hclear
  · simp only [set_or]
    exact write_outside_entry _ hx

/-- An entry that maps 2 MiB: present, writable and huge. -/
theorem ends_hugeEntry {α : Type} {pg v : Nat} (hv : v < 2 ^ 32) (hclear : 256 ∣ v) {s : Cpu}
    {k : Code α} {Q : Cpu → Prop} (h : ∀ s', EntrySet pg v 0x83 s s' → Ends k Q s') :
    Ends (do setAddr pg v; setFlag pg PG_PRESENT; setFlag pg PG_WRITABLE
             setFlag pg PG_HUGE_NULL; k) Q s := by
  apply (ends_storeBytes _ pg s).to
  intro _
  apply (ends_setFlag pg _ _).to
  intro _
  apply (ends_setFlag pg _ _).to
  intro _
  apply (ends_setFlag pg _ _).to
  intro _
  refine h _ ⟨rfl, ?_, fun x hx => ?_⟩
  · simp only [set_or, write_first hclear]
    exact readLE_entry _ hv hclear
  · simp only [set_or]
    exact write_outside_entry _ hx

/-- The page directory's loop: every entry from `i` on maps its own 2 MiB. -/
theorem ends_setupPd (pd : Nat) : ∀ (n i : Nat) (s : Cpu), i + n ≤ 512 →
    Ends (setupPd pd n i) (fun s' => s'.cr3 = s.cr3 ∧
      (∀ j, i ≤ j → j < i + n → s'.mem.readLE (pd + 8 * j) 8 = 0x200000 * j + 0x83) ∧
      ∀ x, x < pd + 8 * i ∨ pd + 8 * (i + n) ≤ x → s'.mem x = s.mem x) s
  | 0, i, s, _ => ⟨rfl, fun j hlo hhi => by omega, fun _ _ => rfl⟩
  | n + 1, i, s, hn => by
    refine ends_hugeEntry (by omega) ⟨0x2000 * i, by omega⟩ ?_
    rintro s₁ ⟨hcr3, hentry, hout⟩
    refine (ends_setupPd pd n (i + 1) s₁ (by omega)).mono ?_
    rintro _ s' ⟨hcr3', hentries, hout'⟩
    refine ⟨hcr3'.trans hcr3, fun j hlo hhi => ?_, fun x hx => ?_⟩
    · rcases Nat.eq_or_lt_of_le hlo with rfl | hlt
      · rw [← hentry]
        exact Mem.readLE_congr fun x _ hhi => hout' x (by omega)
      · exact hentries j hlt (by omega)
    · rw [hout' x (by omega), hout x (by omega)]

/-! ## The tables -/

/-- The addresses of a table's entries. -/
def InTable (table x : Nat) : Prop := table ≤ x ∧ x < table + 0x1000

/-- The three tables are zero. -/
def Zeroed (t : Tables) (m : Mem) : Prop :=
  ∀ x, InTable t.pml4 x ∨ InTable t.pdp x ∨ InTable t.pd x → m x = 0

/-- Two tables that are aligned and not the same do not meet. -/
theorem tables_apart {a b x : Nat} (ha : 0x1000 ∣ a) (hb : 0x1000 ∣ b) (hne : a ≠ b)
    (hx : InTable a x) : x < b ∨ b + 0x1000 ≤ x := by
  obtain ⟨i, rfl⟩ := ha
  obtain ⟨j, rfl⟩ := hb
  have hij : i ≠ j := fun h => hne (h ▸ rfl)
  unfold InTable at hx
  omega

/-- What `setup_paging` leaves: each table entry by entry. -/
structure TablesSet (t : Tables) (s' : Cpu) : Prop where
  root : s'.cr3 = t.pml4
  pml4_first : s'.mem.readLE t.pml4 8 = t.pdp + 3
  pml4_rest : ∀ i, 0 < i → i < 512 → s'.mem.readLE (t.pml4 + 8 * i) 8 = 0
  pdp_first : s'.mem.readLE t.pdp 8 = t.pd + 3
  pdp_rest : ∀ i, 0 < i → i < 512 → s'.mem.readLE (t.pdp + 8 * i) 8 = 0
  pd_all : ∀ i, i < 512 → s'.mem.readLE (t.pd + 8 * i) 8 = 0x200000 * i + 0x83

/-- The part of `setup_paging` after the tables: only `cr3` is of interest. -/
theorem ends_afterTables (t : Tables) {s : Cpu} :
    Ends (do
      writeCr 3 (UInt32.ofNat t.pml4)
      setCrBit 4 5
      let msr ← rdmsr 0xC0000080
      wrmsr (msr ||| ((1 : UInt32) <<< (8 : UInt32)))
      setCrBit 0 31
      assign .segEs (segRegister 2)
      assign .segFs (segRegister 2)
      assign .segGs (segRegister 2)
      assign .segDs (segRegister 2)
      assign .segSs (segRegister 2)
      assign .segCs (segRegister 3)) (· = { s with cr3 := t.pml4 }) s := by
  have hcr3 : (UInt32.ofNat t.pml4).toNat = t.pml4 :=
    UInt32.toNat_ofNat_of_lt t.pml4_lt
  simp only [setCrBit, Prog.bind_eq, writeCr_bind, readCr_bind, rdmsr_bind, wrmsr_bind,
    assign_bind, Prog.vis_bind, follows_vis, true_and]
  rintro - _ rfl _ _ rfl - _ rfl _ _ rfl - _ rfl _ _ rfl - _ rfl
  rintro - _ rfl - _ rfl - _ rfl - _ rfl - _ rfl
  apply follows_to trivial fun _ _ h => h
  intro _
  simp [hcr3]

/-- A table with its first entry set and the rest as it was. -/
theorem readLE_rest {m m' : Mem} {table i : Nat} (hi : i < 512)
    (zero : ∀ x, InTable table x → m x = 0)
    (out : ∀ x, InTable table x → table + 8 * i ≤ x → m' x = m x) :
    m'.readLE (table + 8 * i) 8 = 0 := by
  refine Mem.readLE_zero fun x hlo hhi => ?_
  have hx : InTable table x := ⟨by omega, by omega⟩
  rw [out x hx hlo, zero x hx]

/-- `setup_paging` from zeroed tables. -/
theorem ends_setupPaging (t : Tables) {s : Cpu} (zeroed : Zeroed t s.mem) :
    Ends (setupPaging t) (TablesSet t) s := by
  have hclear : ∀ {a : Nat}, 0x1000 ∣ a → 256 ∣ a := fun h => Nat.dvd_trans ⟨16, rfl⟩ h
  refine ends_tableEntry t.pdp_lt (hclear t.pdp_aligned) ?_
  rintro s₁ ⟨-, hpml4, hout₁⟩
  refine ends_tableEntry t.pd_lt (hclear t.pd_aligned) ?_
  rintro s₂ ⟨-, hpdp, hout₂⟩
  refine (ends_setupPd t.pd 512 0 s₂ (by omega)).bind ?_
  rintro - s₃ ⟨-, hpd, hout₃⟩
  refine (ends_afterTables t).mono ?_
  rintro - _ rfl
  -- an address in one table is outside what the others' entries wrote
  have in_pml4 : ∀ x, InTable t.pml4 x → s₃.mem x = s₁.mem x := fun x hx => by
    have h₂ := tables_apart t.pml4_aligned t.pdp_aligned t.pml4_ne_pdp hx
    have h₃ := tables_apart t.pml4_aligned t.pd_aligned t.pml4_ne_pd hx
    rw [hout₃ x (by omega), hout₂ x (by omega)]
  have in_pdp : ∀ x, InTable t.pdp x → s₃.mem x = s₂.mem x := fun x hx => by
    have h₃ := tables_apart t.pdp_aligned t.pd_aligned t.pdp_ne_pd hx
    rw [hout₃ x (by omega)]
  have in_pdp₁ : ∀ x, InTable t.pdp x → s₁.mem x = s.mem x := fun x hx => by
    have h₁ := tables_apart t.pdp_aligned t.pml4_aligned t.pml4_ne_pdp.symm hx
    rw [hout₁ x (by omega)]
  refine ⟨rfl, ?_, fun i hi hlt => ?_, ?_, fun i hi hlt => ?_, fun i hlt => ?_⟩
  · rw [← hpml4]
    exact Mem.readLE_congr fun x hlo hhi => in_pml4 x ⟨hlo, by omega⟩
  · refine readLE_rest hlt (fun x hx => zeroed x (.inl hx)) fun x hx hlo => ?_
    rw [in_pml4 x hx, hout₁ x (by omega)]
  · rw [← hpdp]
    exact Mem.readLE_congr fun x hlo hhi => in_pdp x ⟨hlo, by omega⟩
  · refine readLE_rest hlt (fun x hx => zeroed x (.inr (.inl hx))) fun x hx hlo => ?_
    rw [in_pdp x hx, hout₂ x (by omega), in_pdp₁ x hx]
  · exact hpd i (Nat.zero_le i) (by omega)

/-! ## The walk -/

/-- The first GiB is mapped to itself, for the supervisor to read, write and
execute, and no other canonical address is mapped. -/
structure IdentityMap (s : Cpu) : Prop where
  low : ∀ va, va < 2 ^ 30 → walk s.mem s.cr3 va = some ⟨va, ⟨true, false, true⟩⟩
  high : ∀ va, Canonical va → 2 ^ 30 ≤ va → walk s.mem s.cr3 va = none

/-- The next table's address out of an entry that points to it. -/
theorem frame_tableEntry {a : Nat} (ha : 0x1000 ∣ a) (hlt : a < 2 ^ 32) :
    frame (a + 3) 0 = a := by
  obtain ⟨k, rfl⟩ := ha
  simp only [frame, Paging.shift]
  omega

theorem flags_tableEntry {a : Nat} (ha : 0x1000 ∣ a) (hlt : a < 2 ^ 32) :
    flag (a + 3) 0 = true ∧ flag (a + 3) 7 = false ∧
      Rights.ofEntry (a + 3) = ⟨true, false, true⟩ := by
  obtain ⟨k, rfl⟩ := ha
  refine ⟨?_, ?_, ?_⟩
  · simp only [flag, decide_eq_true_eq]
    omega
  · simp only [flag, decide_eq_false_iff_not]
    omega
  · simp only [Rights.ofEntry, flag, Rights.mk.injEq, Bool.not_eq_true', decide_eq_true_eq,
      decide_eq_false_iff_not]
    omega

theorem flags_hugeEntry {i : Nat} (hi : i < 512) :
    flag (0x200000 * i + 0x83) 0 = true ∧ flag (0x200000 * i + 0x83) 7 = true ∧
      Rights.ofEntry (0x200000 * i + 0x83) = ⟨true, false, true⟩ := by
  refine ⟨?_, ?_, ?_⟩
  · simp only [flag, decide_eq_true_eq]
    omega
  · simp only [flag, decide_eq_true_eq]
    omega
  · simp only [Rights.ofEntry, flag, Rights.mk.injEq, Bool.not_eq_true', decide_eq_true_eq,
      decide_eq_false_iff_not]
    omega

/-- The tables as set are walked to the identity. -/
theorem TablesSet.identityMap {t : Tables} {s : Cpu} (h : TablesSet t s) : IdentityMap s := by
  have hpml4 := flags_tableEntry t.pdp_aligned t.pdp_lt
  have hpdp := flags_tableEntry t.pd_aligned t.pd_lt
  constructor
  · intro va hva
    have h3 : entry s.mem va 3 s.cr3 = t.pdp + 3 := by
      have hindex : index va 3 = 0 := by
        simp only [index, Paging.shift]
        omega
      rw [entry, hindex, h.root]
      exact h.pml4_first
    have h2 : entry s.mem va 2 t.pdp = t.pd + 3 := by
      have hindex : index va 2 = 0 := by
        simp only [index, Paging.shift]
        omega
      rw [entry, hindex]
      exact h.pdp_first
    have hlt : index va 1 < 512 := Nat.mod_lt _ (by decide)
    have h1 : entry s.mem va 1 t.pd = 0x200000 * index va 1 + 0x83 := h.pd_all _ hlt
    have hpd := flags_hugeEntry hlt
    rw [walk, walkFrom_table h3 hpml4.1 hpml4.2.1, frame_tableEntry t.pdp_aligned t.pdp_lt,
      walkFrom_table h2 hpdp.1 hpdp.2.1, frame_tableEntry t.pd_aligned t.pd_lt,
      walkFrom_huge h1 hpd.1 hpd.2.1, hpml4.2.2, hpdp.2.2, hpd.2.2]
    refine congrArg some ?_
    simp only [maps, Translation.mk.injEq]
    refine ⟨?_, rfl⟩
    simp only [frame, index, Paging.shift]
    omega
  · intro va hcan hva
    by_cases hi3 : index va 3 = 0
    · have h3 : entry s.mem va 3 s.cr3 = t.pdp + 3 := by
        rw [entry, hi3, h.root]
        exact h.pml4_first
      have hi2 : 0 < index va 2 := by
        simp only [Canonical] at hcan
        simp only [index, Paging.shift] at hi3 ⊢
        omega
      have h2 : entry s.mem va 2 t.pdp = 0 := h.pdp_rest _ hi2 (Nat.mod_lt _ (by decide))
      rw [walk, walkFrom_table h3 hpml4.1 hpml4.2.1, frame_tableEntry t.pdp_aligned t.pdp_lt,
        walkFrom_absent h2]
    · have h3 : entry s.mem va 3 s.cr3 = 0 := by
        rw [h.root]
        exact h.pml4_rest _ (Nat.pos_of_ne_zero hi3) (Nat.mod_lt _ (by decide))
      rw [walk, walkFrom_absent h3]

/-! ## The law -/

/-- The operations of `setup_paging`. -/
def isPagingOp : Op → Prop
  | .load _ | .store _ _ | .assign _ _ => True
  | .readCr _ | .writeCr _ _ | .rdmsr _ | .wrmsr _ => True
  | _ => False

theorem machine_answers (s : Cpu) (op : Op) (h : isPagingOp op) :
    ∃ x s', machine s op x s' := by
  cases op with
  | load a => exact ⟨s.mem a, s, rfl, rfl⟩
  | readCr n => exact ⟨0, s, rfl⟩
  | rdmsr n => exact ⟨0, s, rfl⟩
  | store a x => exact ⟨(), _, rfl⟩
  | writeCr n x => exact ⟨(), _, rfl⟩
  | assign o bytes => exact ⟨(), s, rfl⟩
  | wrmsr x => exact ⟨(), s, rfl⟩
  | _ => cases h

theorem straight_storeBytes : ∀ (bs : List UInt8) (a : Nat), Straight isPagingOp (storeBytes a bs)
  | [], _ => trivial
  | _ :: bs, a => ⟨trivial, fun _ => straight_storeBytes bs (a + 1)⟩

theorem straight_setFlag (pg : Nat) (bit : UInt8) : Straight isPagingOp (setFlag pg bit) :=
  ⟨trivial, fun _ => ⟨trivial, fun _ => trivial⟩⟩

theorem straight_setupPd (pd : Nat) : ∀ n i : Nat, Straight isPagingOp (setupPd pd n i)
  | 0, _ => trivial
  | n + 1, i => (straight_storeBytes _ _).bind fun _ => (straight_setFlag _ _).bind fun _ =>
      (straight_setFlag _ _).bind fun _ => (straight_setFlag _ _).bind fun _ =>
        straight_setupPd pd n (i + 1)

theorem straight_setCrBit (n : Nat) (bit : UInt32) : Straight isPagingOp (setCrBit n bit) :=
  ⟨trivial, fun _ => ⟨trivial, fun _ => trivial⟩⟩

theorem straight_setupPaging (t : Tables) : Straight isPagingOp (setupPaging t) := by
  refine (straight_storeBytes _ _).bind fun _ => (straight_setFlag _ _).bind fun _ =>
    (straight_setFlag _ _).bind fun _ => ?_
  refine (straight_storeBytes _ _).bind fun _ => (straight_setFlag _ _).bind fun _ =>
    (straight_setFlag _ _).bind fun _ => ?_
  refine (straight_setupPd _ _ _).bind fun _ => ⟨trivial, fun _ => ?_⟩
  refine (straight_setCrBit _ _).bind fun _ => ⟨trivial, fun _ => ⟨trivial, fun _ => ?_⟩⟩
  refine (straight_setCrBit _ _).bind fun _ => ⟨trivial, fun _ => ⟨trivial, fun _ => ?_⟩⟩
  exact ⟨trivial, fun _ => ⟨trivial, fun _ => ⟨trivial, fun _ => ⟨trivial, fun _ => trivial⟩⟩⟩⟩

/-- THE LAW of the page tables: `setup_paging`, run with its tables zeroed,
ends, with `cr3` on `pml4` and the identity map of the first GiB under it. -/
theorem setupPaging_identityMap (t : Tables) (s : Cpu) (zeroed : Zeroed t s.mem) :
    (∃ s', Exec machine (setupPaging t) s () s') ∧
      ∀ s', Exec machine (setupPaging t) s () s' → s'.cr3 = t.pml4 ∧ IdentityMap s' := by
  constructor
  · obtain ⟨_, s', run⟩ := (straight_setupPaging t).exists_exec machine_answers s
    exact ⟨s', run⟩
  · intro s' run
    have h := (ends_setupPaging t zeroed).exec run
    exact ⟨h.root, h.identityMap⟩

/-- Three tables one after another, as the linker places them. -/
def someTables : Tables where
  pml4 := 0xA000
  pdp := 0xB000
  pd := 0xC000
  pml4_aligned := ⟨0xA, rfl⟩
  pdp_aligned := ⟨0xB, rfl⟩
  pd_aligned := ⟨0xC, rfl⟩
  pml4_lt := by decide
  pdp_lt := by decide
  pd_lt := by decide
  pml4_ne_pdp := by decide
  pml4_ne_pd := by decide
  pdp_ne_pd := by decide

/-- On zeroed memory the law applies. -/
theorem setupPaging_someTables :
    (∃ s', Exec machine (setupPaging someTables) ⟨fun _ => 0, 0⟩ () s') ∧
      ∀ s', Exec machine (setupPaging someTables) ⟨fun _ => 0, 0⟩ () s' →
        s'.cr3 = someTables.pml4 ∧ IdentityMap s' :=
  setupPaging_identityMap someTables ⟨fun _ => 0, 0⟩ fun _ _ => rfl

/-- `reset_bss` over the tables is what zeroes them. -/
theorem ends_resetBss_zeroed {t : Tables} {start stop : Nat}
    (inside : ∀ x, InTable t.pml4 x ∨ InTable t.pdp x ∨ InTable t.pd x → start ≤ x ∧ x < stop)
    (s : Cpu) : Ends (resetBss start stop) (fun s' => Zeroed t s'.mem) s := by
  refine (ends_clearBytes (stop - start) start s).mono ?_
  rintro - s' ⟨-, hzero, -⟩ x hx
  have h := inside x hx
  exact hzero x h.1 (by omega)

end Cpu

end ToyBootloader
