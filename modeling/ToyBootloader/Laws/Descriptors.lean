import ToyBootloader.Descriptor

/-!
# Descriptors as they are made

`gdt_segment_create` and `idt_set` fill packed structs in, and the processor reads
bits. For every base, limit and privilege, and for every offset, selector and vector,
what is read is what was asked for. The pieces of a base, a limit or an offset are
cut by the assignments to narrower fields, and put together again here.
-/

namespace ToyBootloader

open Resumption Memory Code

/-! ## Words and their bytes -/

/-- Two bytes spell a word. -/
theorem toNat_bytes16 (x : UInt16) :
    x.toUInt8.toNat + 256 * (x >>> 8).toUInt8.toNat = x.toNat := by
  have hlt := x.toNat_lt
  have high : (x >>> 8).toNat = x.toNat / 256 := Nat.shiftRight_eq_div_pow x.toNat 8
  rw [UInt16.toNat_toUInt8, UInt16.toNat_toUInt8, high]
  omega

/-! ## Segments -/

/-- The bits of the sixth byte, where they are put. -/
theorem access_byte (accessed readWrite conforming executable codeOrData present : Bool)
    (privilege : UInt8) :
    let b := (bitField accessed 0 ||| bitField readWrite 1 ||| bitField conforming 2
      ||| bitField executable 3 ||| bitField codeOrData 4 ||| ((privilege &&& 3) <<< 5)
      ||| bitField present 7).toNat
    bit 0 b = accessed ∧ bit 1 b = readWrite ∧ bit 2 b = conforming ∧ bit 3 b = executable ∧
      bit 4 b = codeOrData ∧ field 5 2 b = privilege.toNat % 4 ∧ bit 7 b = present := by
  have hmask : (privilege &&& 3).toNat = privilege.toNat % 4 :=
    Nat.and_two_pow_sub_one_eq_mod privilege.toNat 2
  have hlt : (privilege &&& 3).toNat < 4 := hmask ▸ Nat.mod_lt _ (by decide)
  rw [← hmask]
  revert accessed readWrite conforming executable codeOrData present
  exact forall_byte_lt (privilege &&& 3) hlt (by decide +kernel)

/-- The bits of the seventh. -/
theorem flags_byte (available long big granular : Bool) (limit : UInt8) :
    let b := ((limit &&& 0xF) ||| bitField available 4 ||| bitField long 5 ||| bitField big 6
      ||| bitField granular 7).toNat
    field 0 4 b = limit.toNat % 16 ∧ bit 4 b = available ∧ bit 5 b = long ∧ bit 6 b = big ∧
      bit 7 b = granular := by
  have hmask : (limit &&& 0xF).toNat = limit.toNat % 16 :=
    Nat.and_two_pow_sub_one_eq_mod limit.toNat 4
  have hlt : (limit &&& 0xF).toNat < 16 := hmask ▸ Nat.mod_lt _ (by decide)
  rw [← hmask]
  revert available long big granular
  exact forall_byte_lt (limit &&& 0xF) hlt (by decide +kernel)

theorem bit_in_byte {k : Nat} (h : k + 1 ≤ 8) (i : Nat) (bs : List UInt8) :
    bit (k + 8 * i) (number bs) = bit k (bs.getD i 0).toNat := by
  unfold bit
  rw [field_in_byte h]

/-- A field of a word, whose two bytes lie one after the other. -/
theorem field_word (i : Nat) (bs : List UInt8) : field (8 * i) 16 (number bs) =
    (bs.getD i 0).toNat + 256 * (bs.getD (i + 1) 0).toNat := by
  have none : field (8 * (i + 1 + 1)) (8 * 0) (number bs) = 0 := Nat.mod_one _
  have low : field (8 * i) (8 * (1 + 1)) (number bs) = _ := field_of_bytes i 1 bs
  rw [field_of_bytes (i + 1) 0, none] at low
  exact low

/-- The compiler's layout is the processor's: what eight bytes of a packed struct
describe. -/
theorem segment_bytes (d : GdtSegDescriptor) : Segment.ofBytes d.bytes =
    { base := d.baseAddress1.toNat + 2 ^ 16 * d.baseAddress2.toNat + 2 ^ 24 * d.baseAddress3.toNat
      limit := d.segLimit1.toNat + 2 ^ 16 * (d.segLimit2.toNat % 16)
      accessed := d.accessed
      readWrite := d.readableWritable
      conforming := d.directionConforming
      executable := d.codeSel
      codeOrData := d.true_
      privilege := d.privilegeLevel.toNat % 4
      present := d.segmentPresent
      available := d.availableSystemSoftware
      long := d.mode64Bit
      big := d.opSize
      granular := d.granularity } := by
  obtain ⟨h40, h41, h42, h43, h44, h45, h47⟩ := access_byte d.accessed d.readableWritable
    d.directionConforming d.codeSel d.true_ d.segmentPresent d.privilegeLevel
  obtain ⟨h48, h52, h53, h54, h55⟩ := flags_byte d.availableSystemSoftware d.mode64Bit d.opSize
    d.granularity d.segLimit2
  have base : field 16 24 (number d.bytes) = d.baseAddress1.toNat + 2 ^ 16 * d.baseAddress2.toNat := by
    have low : field 16 16 (number d.bytes) = d.baseAddress1.toNat :=
      (field_word 2 d.bytes).trans (toNat_bytes16 d.baseAddress1)
    have high : field 32 8 (number d.bytes) = d.baseAddress2.toNat :=
      field_byte 4 d.bytes
    rw [← low, ← high]
    exact field_split 16 16 8 _
  have top : field 56 8 (number d.bytes) = d.baseAddress3.toNat :=
    field_byte 7 d.bytes
  have limit : field 0 16 (number d.bytes) = d.segLimit1.toNat :=
    (field_word 0 d.bytes).trans (toNat_bytes16 d.segLimit1)
  have limit' : field 48 4 (number d.bytes) = d.segLimit2.toNat % 16 :=
    (field_in_byte (show 0 + 4 ≤ 8 by decide) 6 d.bytes).trans h48
  have bits := fun k h => bit_in_byte (k := k) h 5 d.bytes
  have bits' := fun k h => bit_in_byte (k := k) h 6 d.bytes
  have privilege := (field_in_byte (show 5 + 2 ≤ 8 by decide) 5 d.bytes).trans h45
  unfold Segment.ofBytes
  rw [Segment.mk.injEq]
  refine ⟨?_, ?_, (bits 0 (by decide)).trans h40, (bits 1 (by decide)).trans h41,
    (bits 2 (by decide)).trans h42, (bits 3 (by decide)).trans h43, (bits 4 (by decide)).trans h44,
    privilege, (bits 7 (by decide)).trans h47, (bits' 4 (by decide)).trans h52,
    (bits' 5 (by decide)).trans h53, (bits' 6 (by decide)).trans h54,
    (bits' 7 (by decide)).trans h55⟩
  · rw [base, top]
  · rw [limit, limit']

/-- The bits a descriptor's update keeps, read by the packed struct, are the
processor's. -/
theorem ofBytes_kept (old : List UInt8) : (GdtSegDescriptor.ofBytes old).accessed = bit 40 (number old) ∧
    (GdtSegDescriptor.ofBytes old).directionConforming = bit 42 (number old) ∧
      (GdtSegDescriptor.ofBytes old).codeSel = bit 43 (number old) := by
  have bytes : ∀ b : UInt8, bitOf b 0 = bit 0 b.toNat ∧ bitOf b 2 = bit 2 b.toNat ∧
      bitOf b 3 = bit 3 b.toNat :=
    fun b => forall_byte b (by decide +kernel)
  obtain ⟨h0, h2, h3⟩ := bytes (old.getD 5 0)
  exact ⟨h0.trans (bit_in_byte (by decide) 5 old).symm, h2.trans (bit_in_byte (by decide) 5 old).symm,
    h3.trans (bit_in_byte (by decide) 5 old).symm⟩

/-- A base is the three pieces it is cut into. -/
theorem toNat_base (base : UInt32) : base.toUInt16.toNat + 2 ^ 16 * (base >>> 16).toUInt8.toNat +
    2 ^ 24 * (base >>> 24).toUInt8.toNat = base.toNat := by
  have hlt := base.toNat_lt
  rw [UInt32.toNat_toUInt16, toNat_byte32 (by decide), toNat_byte32 (by decide)]
  change base.toNat % 2 ^ 16 + 2 ^ 16 * (base.toNat / 2 ^ 16 % 256) +
    2 ^ 24 * (base.toNat / 2 ^ 24 % 256) = _
  omega

/-- A limit of 20 bits is the two pieces it is cut into. -/
theorem toNat_limit {limit : UInt32} (h : limit.toNat < 2 ^ 20) : limit.toUInt16.toNat +
    2 ^ 16 * (((limit >>> 16).toUInt8 &&& 0xF).toNat % 16) = limit.toNat := by
  have mask : ((limit >>> 16).toUInt8 &&& 0xF).toNat = (limit >>> 16).toUInt8.toNat % 16 :=
    Nat.and_two_pow_sub_one_eq_mod _ 4
  rw [mask, UInt32.toNat_toUInt16, toNat_byte32 (by decide)]
  change limit.toNat % 2 ^ 16 + 2 ^ 16 * (limit.toNat / 2 ^ 16 % 256 % 16 % 16) = _
  omega

/-- What eight bytes are when `gdt_segment_create` is done with them. -/
def segmentCreated (old : List UInt8) (base limit : UInt32) (privLevel : UInt8) : List UInt8 :=
  (gdtSegmentCreate (.ofBytes old) base limit privLevel).bytes

/-- `gdt_segment_create` on an entry of the table leaves those bytes there. -/
theorem updateGdt_eq (i : Nat) (base limit : UInt32) (privLevel : UInt8) :
    updateGdt i (gdtSegmentCreate · base limit privLevel) =
      (fetch (.gdt i)).bind fun old => assign (.gdt i) (segmentCreated old base limit privLevel) := rfl

/-- The limit's field: the limit, or the pages it reaches. -/
theorem limit_segmentCreated (old : List UInt8) (base limit : UInt32) (privLevel : UInt8) :
    (Segment.ofBytes (segmentCreated old base limit privLevel)).limit =
      if limit > 0xFFFF then limit.toNat / 4096 else limit.toNat := by
  have hlt := limit.toNat_lt
  unfold segmentCreated
  rw [segment_bytes]
  by_cases large : limit > 0xFFFF
  · have pages : (limit >>> 12).toNat = limit.toNat / 4096 := Nat.shiftRight_eq_div_pow limit.toNat 12
    have fits : (limit >>> 12).toNat < 2 ^ 20 := by omega
    simp only [gdtSegmentCreate, if_pos large]
    rw [toNat_limit fits, pages]
  · have fits : limit.toNat < 2 ^ 20 := by
      have small : limit.toNat ≤ 0xFFFF := Nat.le_of_not_lt large
      omega
    simp only [gdtSegmentCreate, if_neg large]
    exact toNat_limit fits

/-- A segment as it was asked for, made of what was in its descriptor before. -/
structure EncodesSegment (old : List UInt8) (base limit : UInt32) (privLevel : UInt8)
    (s : Segment) : Prop where
  base : s.base = base.toNat
  privilege : privLevel < 4 → s.privilege = privLevel.toNat
  present : s.present = true
  /-- A 32-bit segment of code or data, readable or writable. -/
  kind : s.codeOrData = true ∧ s.readWrite = true ∧ s.big = true ∧ s.long = false
  /-- A limit that fits is exact. -/
  small : limit ≤ 0xFFFF → s.effectiveLimit = limit.toNat
  /-- One that does not is rounded up to the end of its page. -/
  large : limit > 0xFFFF → limit.toNat ≤ s.effectiveLimit ∧ s.effectiveLimit < limit.toNat + 4096
  /-- No bit of the scaled limit is lost. -/
  scaled : limit > 0xFFFF → s.granular = true ∧ s.limit = limit.toNat / 4096
  kept : s.executable = (Segment.ofBytes old).executable ∧
    s.accessed = (Segment.ofBytes old).accessed ∧ s.conforming = (Segment.ofBytes old).conforming

/-- SEGMENTS ARE ENCODED as they are asked for, whatever was in the descriptor. -/
theorem gdtSegmentCreate_encodes (old : List UInt8) (base limit : UInt32) (privLevel : UInt8) :
    EncodesSegment old base limit privLevel
      (Segment.ofBytes (segmentCreated old base limit privLevel)) := by
  have created := segment_bytes (gdtSegmentCreate (.ofBytes old) base limit privLevel)
  have hlimit := limit_segmentCreated old base limit privLevel
  have hgranular : (Segment.ofBytes (segmentCreated old base limit privLevel)).granular =
      decide (limit > 0xFFFF) := congrArg Segment.granular created
  obtain ⟨accessed, conforming, executable⟩ := ofBytes_kept old
  refine ⟨?_, ?_, ?_, ?_, ?_, ?_, ?_, ?_⟩
  · exact (congrArg Segment.base created).trans (toNat_base base)
  · intro hpriv
    have masked : (privLevel &&& 3).toNat % 4 = privLevel.toNat :=
      forall_byte_lt (k := 4) privLevel hpriv (by decide)
    exact (congrArg Segment.privilege created).trans masked
  · exact congrArg Segment.present created
  · exact ⟨congrArg Segment.codeOrData created, congrArg Segment.readWrite created,
      congrArg Segment.big created, congrArg Segment.long created⟩
  · intro small
    have not_large : ¬ limit > 0xFFFF := UInt32.not_lt.mpr small
    unfold Segment.effectiveLimit
    rw [hgranular, decide_eq_false not_large, hlimit, if_neg not_large]
    rfl
  · intro large
    unfold Segment.effectiveLimit
    rw [hgranular, decide_eq_true large, hlimit, if_pos large, if_pos rfl]
    omega
  · intro large
    rw [hgranular, decide_eq_true large, hlimit, if_pos large]
    exact ⟨rfl, rfl⟩
  · exact ⟨(congrArg Segment.executable created).trans executable,
      (congrArg Segment.accessed created).trans accessed,
      (congrArg Segment.conforming created).trans conforming⟩

/-! ## Gates -/

/-- A gate as it was asked for. -/
def gateFor (n : UInt8) (offset : UInt32) (selector : UInt16) : Gate where
  offset := offset.toNat
  selector := selector.toNat
  zero := 0
  kind := if isInterrupt n then INTERRUPT_GATE else TRAP_GATE
  privilege := 0
  present := true

/-- The struct's two middle bytes. The flag lies across both, five bits up; what it
leaves in the first is nothing, and in the second the kind, below level and presence. -/
theorem middle_bytes (n : UInt8) (offset : UInt32) (selector : UInt16) :
    (idtEvent n offset (selectorBytes selector)).getD 4 0 = 0 ∧
      (idtEvent n offset (selectorBytes selector)).getD 5 0 =
        if isInterrupt n then 0x8E else 0x8F := by
  unfold idtEvent
  cases isInterrupt n <;> exact ⟨rfl, rfl⟩

/-- The gate's layout is the processor's. -/
theorem gate_bytes (n : UInt8) (offset : UInt32) (selector : UInt16) :
    Gate.ofBytes (idtEvent n offset (selectorBytes selector)) = gateFor n offset selector := by
  obtain ⟨zero, access⟩ := middle_bytes n offset selector
  have hlt := offset.toNat_lt
  have low := field_word 0 (idtEvent n offset (selectorBytes selector))
  change _ = offset.toUInt8.toNat + 256 * (offset >>> 8).toUInt8.toNat at low
  have high := field_word 6 (idtEvent n offset (selectorBytes selector))
  change _ = (offset >>> 16).toUInt8.toNat + 256 * (offset >>> 24).toUInt8.toNat at high
  have middle := field_word 2 (idtEvent n offset (selectorBytes selector))
  have reserved := field_byte 4 (idtEvent n offset (selectorBytes selector))
  have kind := field_in_byte (show 0 + 5 ≤ 8 by decide) 5 (idtEvent n offset (selectorBytes selector))
  have level := field_in_byte (show 5 + 2 ≤ 8 by decide) 5 (idtEvent n offset (selectorBytes selector))
  have present := bit_in_byte (show 7 + 1 ≤ 8 by decide) 5 (idtEvent n offset (selectorBytes selector))
  rw [toNat_byte32 (by decide), UInt32.toNat_toUInt8] at low
  rw [toNat_byte32 (by decide), toNat_byte32 (by decide)] at high
  rw [access] at kind level present
  rw [zero] at reserved
  unfold Gate.ofBytes gateFor
  rw [Gate.mk.injEq]
  refine ⟨?_, middle.trans (toNat_bytes16 selector), reserved, kind.trans ?_, level.trans ?_,
    present.trans ?_⟩
  · change field (8 * 0) 16 _ + 2 ^ 16 * field (8 * 6) 16 _ = _
    rw [low, high]
    change offset.toNat % 2 ^ 8 + 256 * (offset.toNat / 2 ^ 8 % 256) +
      2 ^ 16 * (offset.toNat / 2 ^ 16 % 256 + 256 * (offset.toNat / 2 ^ 24 % 256)) = _
    omega
  · cases isInterrupt n <;> rfl
  · cases isInterrupt n <;> rfl
  · cases isInterrupt n <;> rfl

/-! ## The table -/

/-- A call of `idt_set`. -/
structure IdtSetCall where
  n : UInt8
  offset : UInt32
  selector : UInt16

/-- The call. -/
def IdtSetCall.code (c : IdtSetCall) : Code Unit := idtSet c.n c.offset (selectorBytes c.selector)

/-- Calls, one after the other. -/
def idtSets (calls : List IdtSetCall) : Code Unit := calls.forM IdtSetCall.code

namespace IdtTables

variable {t t' : IdtTables}

/-- One call assigns one entry. -/
theorem exec_idtSet {c : IdtSetCall} : Exec machine c.code t () t' ↔
    t' = t.setGate c.n (idtEvent c.n c.offset (selectorBytes c.selector)) := by
  unfold IdtSetCall.code idtSet assign Prog.call
  rw [exec_vis]
  constructor
  · rintro ⟨_, s, hm, run⟩
    cases hm
    exact (exec_pure.mp run).2
  · rintro rfl
    exact ⟨(), _, rfl, .pure⟩

theorem exec_idtSets_cons {c : IdtSetCall} {calls : List IdtSetCall} :
    Exec machine (idtSets (c :: calls)) t () t' ↔
      ∃ s, Exec machine c.code t () s ∧ Exec machine (idtSets calls) s () t' := by
  change Exec machine (c.code.bind fun _ => idtSets calls) t () t' ↔ _
  constructor
  · intro run
    obtain ⟨_, s, first, rest⟩ := exec_bind.mp run
    exact ⟨s, first, rest⟩
  · rintro ⟨s, first, rest⟩
    exact exec_bind.mpr ⟨(), s, first, rest⟩

/-- Calls end. -/
theorem exists_idtSets (calls : List IdtSetCall) (t : IdtTables) :
    ∃ t', Exec machine (idtSets calls) t () t' := by
  induction calls generalizing t with
  | nil => exact ⟨t, .pure⟩
  | cons c calls ih =>
    obtain ⟨t', rest⟩ := ih (t.setGate c.n (idtEvent c.n c.offset (selectorBytes c.selector)))
    exact ⟨t', exec_idtSets_cons.mpr ⟨_, exec_idtSet.mpr rfl, rest⟩⟩

/-- An entry that no call is for is as it was, and so is everything but the entries. -/
theorem kept_idtSets {calls : List IdtSetCall} (run : Exec machine (idtSets calls) t () t') :
    (∀ n, (∀ c ∈ calls, c.n ≠ n) → t'.gates n = t.gates n) ∧
      t'.handlers = t.handlers ∧ t'.segCs = t.segCs := by
  induction calls generalizing t with
  | nil =>
    obtain ⟨-, rfl⟩ := exec_pure.mp run
    exact ⟨fun _ _ => rfl, rfl, rfl⟩
  | cons c calls ih =>
    obtain ⟨s, first, rest⟩ := exec_idtSets_cons.mp run
    obtain rfl := exec_idtSet.mp first
    obtain ⟨gates, handlers, segCs⟩ := ih rest
    refine ⟨fun n hn => ?_, handlers, segCs⟩
    rw [gates n fun d hd => hn d (List.mem_cons_of_mem c hd)]
    exact Function.update_of_ne (hn c List.mem_cons_self).symm ..

/-- The last call for an entry makes it. -/
theorem last_idtSets {before later : List IdtSetCall} {c : IdtSetCall}
    (last : ∀ d ∈ later, d.n ≠ c.n)
    (run : Exec machine (idtSets (before ++ c :: later)) t () t') :
    t'.gates c.n = idtEvent c.n c.offset (selectorBytes c.selector) := by
  induction before generalizing t with
  | nil =>
    obtain ⟨s, first, rest⟩ := exec_idtSets_cons.mp run
    obtain rfl := exec_idtSet.mp first
    rw [(kept_idtSets rest).1 c.n last]
    exact Function.update_self ..
  | cons d before ih =>
    obtain ⟨s, -, rest⟩ := exec_idtSets_cons.mp run
    exact ih rest

/-! ## `idt` -/

variable {stub : UInt8 → UInt32}

/-- The tables after some entries of `idt`. -/
def filled (stub : UInt8 → UInt32) (es : List UInt8) (t : IdtTables) : IdtTables where
  gates n := if n ∈ es then idtEvent n (stub n) (selectorBytes t.segCs) else t.gates n
  handlers n := if n ∈ es then some .interruptPanic else t.handlers n
  segCs := t.segCs

/-- One more entry, of the same vector or of another. -/
theorem filled_cons (e : UInt8) (es : List UInt8) (t : IdtTables) :
    filled stub es (filled stub [e] t) = filled stub (e :: es) t := by
  have more : ∀ {α : Type} (n : UInt8) (x y : α),
      (if n ∈ es then x else if n ∈ [e] then x else y) = if n ∈ e :: es then x else y := by
    intro α n x y
    by_cases hes : n ∈ es <;> simp [hes]
  unfold filled
  rw [IdtTables.mk.injEq]
  refine ⟨?_, ?_, rfl⟩
  · funext n
    exact more n _ _
  · funext n
    exact more n _ _

/-- An entry of `idt` makes the gate and sets the handler. -/
theorem exec_idtEntry {e : UInt8} : Exec machine (idtEntry stub e) t () (filled stub [e] t) := by
  have here : filled stub [e] t =
      { t.setGate e (idtEvent e (stub e) (selectorBytes t.segCs)) with
        handlers := Function.update t.handlers e (some .interruptPanic) } := by
    unfold filled setGate Function.update
    simp only [List.mem_singleton]
    rw [IdtTables.mk.injEq]
    refine ⟨?_, ?_, rfl⟩
    · funext n
      by_cases hn : n = e
      · subst hn
        simp
      · simp [hn]
    · funext n
      by_cases hn : n = e <;> simp [hn]
  rw [here]
  exact .vis rfl (.vis rfl (.vis rfl .pure))

/-- `idt` comes to its end, with every entry of the list made and no other. -/
theorem exec_idt : Exec machine (idt stub) t () (filled stub idtEntries t) := by
  have entries : ∀ (es : List UInt8) (t : IdtTables),
      Exec machine (es.forM (idtEntry stub)) t () (filled stub es t) := by
    intro es
    induction es with
    | nil =>
      intro t
      exact .pure
    | cons e es ih =>
      intro t
      rw [← filled_cons]
      exact (exec_bind (p := idtEntry stub e)).mpr ⟨(), _, exec_idtEntry, ih _⟩
  exact entries idtEntries t

/-! ## The law -/

/-- The gates the processor finds, after any calls of `idt_set` and after `idt`. -/
structure BuildsGates : Prop where
  /-- Any calls come to an end. -/
  ends : ∀ (calls : List IdtSetCall) (t : IdtTables), ∃ t', Exec machine (idtSets calls) t () t'
  /-- The last call for a vector decides what its gate is. -/
  last : ∀ {before later : List IdtSetCall} {c : IdtSetCall} {t t' : IdtTables},
    (∀ d ∈ later, d.n ≠ c.n) → Exec machine (idtSets (before ++ c :: later)) t () t' →
      Gate.ofBytes (t'.gates c.n) =
        { offset := c.offset.toNat, selector := c.selector.toNat, zero := 0
          kind := if isInterrupt c.n then INTERRUPT_GATE else TRAP_GATE
          privilege := 0, present := true }
  /-- A vector that was not called for has the entry it had, and nothing else changes. -/
  kept : ∀ {calls : List IdtSetCall} {t t' : IdtTables}, Exec machine (idtSets calls) t () t' →
    (∀ n, (∀ c ∈ calls, c.n ≠ n) → t'.gates n = t.gates n) ∧
      t'.handlers = t.handlers ∧ t'.segCs = t.segCs
  /-- From a table of zeros `idt` leaves exactly the listed vectors present. -/
  present : ∀ (stub : UInt8 → UInt32) (segCs : UInt16),
    ∃ t', Exec machine (idt stub) (zeroed segCs) () t' ∧
      ∀ n, (Gate.ofBytes (t'.gates n)).present = true ↔ n ∈ idtEntries
  /-- Each leads to the stub of its vector, and its handler panics. -/
  leads : ∀ {stub : UInt8 → UInt32} {segCs : UInt16} {t' : IdtTables},
    Exec machine (idt stub) (zeroed segCs) () t' → ∀ n ∈ idtEntries,
      (Gate.ofBytes (t'.gates n)).offset = (stub n).toNat ∧
        (Gate.ofBytes (t'.gates n)).selector = segCs.toNat ∧
        t'.handlers n = some .interruptPanic

/-- GATES ARE BUILT as the processor needs them. -/
theorem idt_buildsGates : BuildsGates where
  ends := exists_idtSets
  last last run := by
    rw [last_idtSets last run]
    exact gate_bytes _ _ _
  kept run := kept_idtSets run
  present stub segCs := by
    refine ⟨_, exec_idt, fun n => ?_⟩
    by_cases listed : n ∈ idtEntries
    · have gate : (filled stub idtEntries (zeroed segCs)).gates n =
          idtEvent n (stub n) (selectorBytes segCs) := if_pos listed
      rw [gate, gate_bytes]
      exact iff_of_true rfl listed
    · have empty : (filled stub idtEntries (zeroed segCs)).gates n = List.replicate 8 0 :=
        if_neg listed
      rw [empty]
      exact iff_of_false (by decide) listed
  leads {stub segCs t'} run n listed := by
    obtain ⟨-, rfl⟩ := run.deterministic Simulator.machine_deterministic exec_idt
    have gate : (filled stub idtEntries (zeroed segCs)).gates n =
        idtEvent n (stub n) (selectorBytes segCs) := if_pos listed
    rw [gate, gate_bytes]
    exact ⟨rfl, rfl, if_pos listed⟩

end IdtTables

end ToyBootloader
