import ToyBootloader.Irq
import ToyBootloader.Laws.Layout
import ToyBootloader.Stage4.Load

/-!
# Whose code the handlers are

Every load puts one stage's code over another's, and a handler stays installed
across it. Stage 3 fills `idt_handlers_32` with functions of its own;
`load_protected` then copies stage 4 over them, with interrupts on, after it has
replaced a single entry.

A run keeps a ledger of whose bytes are at every address and whose function every
entry points to. From the end of `idt` on the entries point into code that is still
there exactly as long as nothing was stored in stage 3's area and, once
loader_protected has installed its handler, loader_protected was loaded whole.
-/

namespace ToyBootloader

open Resumption Placement Code

/-! ## The ledger -/

/-- The part whose code runs once a stage is entered. -/
def Stage.part : Stage → Part
  | .stage2 => .stage2
  | .stage3 => .stage3
  | .loaderProtected => .loaderProtected
  | .stage4 => .stage4

/-- The `p` bit of a gate: the top bit of the third byte from its end. -/
def gatePresent (gate : List UInt8) : Bool := gate.reverse.getD 2 0 &&& 0x80 ≠ 0

/-- Whose code is where. -/
structure Ledger where
  /-- The part whose code is running: a handler it installs is its own. -/
  running : Part
  /-- The part that is being loaded. -/
  loading : Option Part := none
  /-- The part whose byte is at an address. -/
  holder : Nat → Option Part
  /-- The entries of `g_idt` that are present. -/
  present : UInt8 → Bool := fun _ => false
  /-- The part an entry of `idt_handlers_32` points into. -/
  table : UInt8 → Option Part := fun _ => none
  /-- The addresses stored to, the last first. -/
  stored : List Nat := []
  /-- The parts whose load ended in an error. -/
  lost : List Part := []

namespace Ledger

/-- A byte is stored: it is the part's that is being loaded, or nobody's. -/
def put (l : Ledger) (a : Nat) : Ledger :=
  { l with
    holder := fun b => if b = a then l.loading else l.holder b
    stored := a :: l.stored }

/-- A load ends. -/
def ended (l : Ledger) (e : ErrT) : Ledger :=
  { l with
    loading := none
    lost := if e.isSome then l.loading.toList ++ l.lost else l.lost }

/-- The ledger after an operation. -/
def next (l : Ledger) : Op → Ledger
  | .store a _ => l.put a
  | .assign (.gIdt n) gate =>
    { l with present := fun m => if m = n then gatePresent gate else l.present m }
  | .setInterrupt n _ =>
    { l with table := fun m => if m = n then some l.running else l.table m }
  | .mark (.load p) => { l with loading := some p }
  | .mark (.copied e) => l.ended e
  | .mark (.enter st) => { l with running := st.part }
  | _ => l

/-- The part's region still holds its code. -/
def Holds (L : Sizes) (l : Ledger) (p : Part) : Prop :=
  ∀ a, (L.region p).Mem a → l.holder a = some p

/-- No handler was overwritten: every entry whose vector is present points into a
region that still holds the code of the stage that installed it. -/
def Sound (L : Sizes) (l : Ledger) : Prop :=
  ∀ n, l.present n = true → ∃ p, l.table n = some p ∧ l.Holds L p

/-- Nothing was stored in stage 3's area, and loader_protected was loaded without
an error if its handler is installed. -/
def Spared (L : Sizes) (l : Ledger) : Prop :=
  (∀ a ∈ l.stored, ¬ (L.region .stage3).Mem a) ∧
    (l.table FLOPPY_IRQ = some .loaderProtected → Part.loaderProtected ∉ l.lost)

/-- Stage 3 is entered: memory holds it and the shared part, and the two tables are
still zero. -/
def start (L : Sizes) : Ledger where
  running := .stage3
  holder a :=
    if (L.region .stage3).Mem a then some .stage3
    else if (L.region .shared).Mem a then some .shared
    else none

end Ledger

/-- The shared globals, and the ledger. -/
structure HandOver where
  vars : IrqVars
  ledger : Ledger

namespace HandOver

/-- The boot against any controller, with the floppy's handler at any time: its
operations are not the ledger's. -/
def system : System ops HandOver where
  main s op x s' := ∃ vars, IrqVars.machine s.vars op x vars ∧ s' = ⟨vars, s.ledger.next op⟩
  isr s op x s' := ∃ vars, IrqVars.machine s.vars op x vars ∧ s' = { s with vars }
  deliver s s' := s' = s
  handler := fpyInterruptHandler

end HandOver

/-- Stage 3 up to its first task. -/
def stage3Reset (L : Sizes) : Code Unit := do
  setCrBit 0 0
  let _ ← fetch .segDs
  let _ ← fetch .segSs
  let _ ← fetch .segEs
  let _ ← fetch .segFs
  let _ ← fetch .segGs
  let _ ← fetch .segCs
  memreset L.stage3BssStart L.stage3BssEnd

/-- Stage 3 to the end of `idt`. -/
def stage3ToIdt (L : Sizes) (stub : UInt8 → UInt32) : Code Unit := do
  stage3Reset L
  idt stub

/-- The boot from the end of `idt` on, stage 4 included. -/
def bootFromIdt (L : Sizes) (t : L.Stage4Tables) : Code Unit := do
  init8259
  breakpointInstr
  setupTimer
  floppyInit
  stage3Rest L
  stage4Load t.toTables

theorem stage3Start_then (L : Sizes) (t : L.Stage4Tables) (stub : UInt8 → UInt32) :
    ((stage3Start L stub).bind fun _ => stage4Load t.toTables) =
      (stage3ToIdt L stub).bind fun _ => bootFromIdt L t := by
  simp only [stage3Start, stage3Load, stage3ToIdt, stage3Reset, bootFromIdt, stage3Rest,
    Prog.bind_eq, Prog.bind_assoc]

namespace Ledger

variable {L : Sizes} {l : Ledger}

/-! ## What leaves the ledger alone -/

/-- Operations that are not booked. -/
def silent : Op → Prop
  | .store _ _ | .assign (.gIdt _) _ | .setInterrupt _ _ => False
  | .mark (.load _) | .mark (.copied _) | .mark (.enter _) => False
  | _ => True

/-- The operations that are. -/
inductive Booked : Op → Prop
  | store (a : Nat) (x : UInt8) : Booked (.store a x)
  | gate (n : UInt8) (bytes : List UInt8) : Booked (.assign (.gIdt n) bytes)
  | install (n : UInt8) (f : Handler) : Booked (.setInterrupt n f)
  | load (p : Part) : Booked (.mark (.load p))
  | copied (e : ErrT) : Booked (.mark (.copied e))
  | enter (st : Stage) : Booked (.mark (.enter st))

theorem silent_or_booked (op : Op) : silent op ∨ Booked op := by
  cases op with
  | store a x => exact .inr (.store a x)
  | setInterrupt n f => exact .inr (.install n f)
  | assign o bytes =>
    cases o with
    | gIdt n => exact .inr (.gate n bytes)
    | _ => exact .inl trivial
  | mark e =>
    cases e with
    | load p => exact .inr (.load p)
    | copied e => exact .inr (.copied e)
    | enter st => exact .inr (.enter st)
    | _ => exact .inl trivial
  | _ => exact .inl trivial

theorem next_silent {op : Op} (h : silent op) : l.next op = l := by
  cases op with
  | store a x | setInterrupt n f => cases h
  | assign o gate =>
    cases o with
    | gIdt n => cases h
    | _ => rfl
  | mark e =>
    cases e with
    | load p | copied e | enter st => cases h
    | _ => rfl
  | _ => rfl

theorem table_setInterrupt (n : UInt8) (f : Handler) (m : UInt8) :
    (l.next (.setInterrupt n f)).table m = if m = n then some l.running else l.table m := rfl

theorem silent_of_driver {op : Op} (h : op.isDriver) : silent op := by
  cases op with
  | store a x | setInterrupt n f => cases h
  | assign o gate => cases h
  | mark e =>
    cases e with
    | load p | copied e | enter st => cases h
    | _ => trivial
  | _ => trivial

theorem silent_of_arith {op : Op} (h : op.isArith) : silent op := by
  cases op with
  | get v | divideError => trivial
  | _ => cases h

/-- A copy that stores nowhere. -/
theorem silent_of_copy {op : Op} (h : op.isCopy 0 0) : silent op := by
  cases op with
  | store a x => exact absurd h.2 (Nat.not_lt_zero a)
  | load a => trivial
  | _ => exact h.elim silent_of_driver silent_of_arith

/-! ## The walk -/

/-- What the ledger's invariant needs of an operation. -/
def Admits (L : Sizes) (l : Ledger) : Op → Prop
  | .store a _ => l.loading ≠ some .stage3 ∧
      (l.table FLOPPY_IRQ = some .loaderProtected → ¬ (L.region .loaderProtected).Mem a)
  | .setInterrupt n _ => l.running = .stage3 ∨ n = FLOPPY_IRQ ∧ l.running = .loaderProtected ∧
      (l.Holds L .loaderProtected ↔ Part.loaderProtected ∉ l.lost)
  | .assign (.gIdt _) _ => False
  | .mark (.copied _) => l.loading = some .loaderProtected →
      l.table FLOPPY_IRQ ≠ some .loaderProtected
  | _ => True

/-- A walk of the boot on its ledger. -/
abbrev Walks {α : Type} (L : Sizes) (p : Code α) (Q : α → Ledger → Prop) (l : Ledger) : Prop :=
  Follows (Recorder (S := ops) fun l op _ => l.next op) (Admits L) p Q l

theorem admits_silent {op : Op} (h : silent op) : l.Admits L op := by
  cases op with
  | store a x | setInterrupt n f => cases h
  | assign o gate =>
    cases o with
    | gIdt n => cases h
    | _ => trivial
  | mark e =>
    cases e with
    | load p | copied e | enter st => cases h
    | _ => trivial
  | _ => trivial

theorem walks_silent {α : Type} {p : Code α} (h : Only silent p) :
    Walks L p (fun _ l' => l' = l) l := by
  apply h.follows (I := fun l' => l' = l) ?_ ?_ rfl
  · intro l' op hop _
    exact admits_silent hop
  · intro l' op x l'' hop hl hm
    have hnext : l'' = l'.next op := hm
    rw [hnext, next_silent hop, hl]

/-- What every reachable ledger keeps. -/
structure Kept (L : Sizes) (l : Ledger) : Prop where
  present : ∀ n, l.present n = true ↔ n ∈ idtEntries
  /-- Every entry but the floppy's is stage 3's to the end. -/
  stage3 : ∀ n ∈ idtEntries, n ≠ FLOPPY_IRQ → l.table n = some .stage3
  floppy : l.table FLOPPY_IRQ = some .stage3 ∨ l.table FLOPPY_IRQ = some .loaderProtected
  /-- Stage 3's bytes are there until they are stored over. -/
  area : ∀ a, (L.region .stage3).Mem a → (l.holder a = some .stage3 ↔ a ∉ l.stored)
  /-- With its handler installed, loader_protected is there if it was loaded. -/
  loaded : l.table FLOPPY_IRQ = some .loaderProtected →
    (l.Holds L .loaderProtected ↔ Part.loaderProtected ∉ l.lost)

/-- Stage 3's code is there exactly when nothing was stored over it. -/
theorem Kept.holds_stage3 (h : l.Kept L) :
    l.Holds L .stage3 ↔ ∀ a ∈ l.stored, ¬ (L.region .stage3).Mem a := by
  constructor
  · intro holds a hstored hmem
    exact (h.area a hmem).mp (holds a hmem) hstored
  · intro spared a hmem
    exact (h.area a hmem).mpr fun hstored => spared a hstored hmem

/-- The handlers are sound exactly when their code was spared. -/
theorem Kept.sound_iff (h : l.Kept L) : l.Sound L ↔ l.Spared L := by
  constructor
  · intro sound
    constructor
    · obtain ⟨p, hp, holds⟩ := sound 0 ((h.present 0).mpr (by decide))
      rw [h.stage3 0 (by decide) (by decide)] at hp
      cases hp
      exact h.holds_stage3.mp holds
    · intro hfloppy
      obtain ⟨p, hp, holds⟩ := sound FLOPPY_IRQ ((h.present FLOPPY_IRQ).mpr (by decide))
      rw [hfloppy] at hp
      cases hp
      exact (h.loaded hfloppy).mp holds
  · intro spared n hn
    have entry := (h.present n).mp hn
    have holds := h.holds_stage3.mpr spared.1
    by_cases hfloppy : n = FLOPPY_IRQ
    · subst hfloppy
      rcases h.floppy with h3 | hl
      · exact ⟨.stage3, h3, holds⟩
      · exact ⟨.loaderProtected, hl, (h.loaded hl).mpr (spared.2 hl)⟩
    · exact ⟨.stage3, h.stage3 n entry hfloppy, holds⟩

/-- A byte stored where nothing of loader_protected is, while it may not be. -/
theorem Kept.put (h : l.Kept L) {a : Nat} (hloading : l.loading ≠ some .stage3)
    (hout : l.table FLOPPY_IRQ = some .loaderProtected → ¬ (L.region .loaderProtected).Mem a) :
    (l.put a).Kept L := by
  refine ⟨h.present, h.stage3, h.floppy, ?_, ?_⟩
  · intro b hb
    unfold Ledger.put
    by_cases hba : b = a
    · simp only [hba, if_true, hloading, List.mem_cons, true_or, not_true_eq_false]
    · simp only [hba, if_false, List.mem_cons, false_or]
      exact h.area b hb
  · intro hfloppy
    refine Iff.trans ?_ (h.loaded hfloppy)
    refine forall₂_congr fun b hb => ?_
    have hba : b ≠ a := by
      intro heq
      exact hout hfloppy (heq ▸ hb)
    simp only [Ledger.put, hba, if_false]

/-- An operation the walk admits keeps it. -/
theorem Kept.next (h : l.Kept L) {op : Op} (hop : l.Admits L op) : (l.next op).Kept L := by
  rcases silent_or_booked op with hs | hb
  · rw [next_silent hs]
    exact h
  cases hb with
  | store a x => exact h.put hop.1 hop.2
  | gate n bytes => cases hop
  | install n f =>
    rcases hop with hrun | ⟨rfl, hrun, hloaded⟩
    · have entry : ∀ m, (l.next (.setInterrupt n f)).table m = some .stage3 ∨
          (l.next (.setInterrupt n f)).table m = l.table m := by
        intro m
        rw [table_setInterrupt]
        by_cases hm : m = n
        · rw [if_pos hm, hrun]
          exact .inl rfl
        · exact .inr (if_neg hm)
      refine ⟨h.present, fun m hm hne => ?_, ?_, h.area, fun hfloppy => ?_⟩
      · exact (entry m).elim id fun heq => heq.trans (h.stage3 m hm hne)
      · exact (entry FLOPPY_IRQ).elim .inl fun heq => heq ▸ h.floppy
      · rcases entry FLOPPY_IRQ with heq | heq
        · rw [heq] at hfloppy
          cases hfloppy
        · exact h.loaded (heq ▸ hfloppy)
    · refine ⟨h.present, fun m hm hne => ?_, .inr ?_, h.area, fun _ => hloaded⟩
      · rw [table_setInterrupt, if_neg hne]
        exact h.stage3 m hm hne
      · rw [table_setInterrupt, if_pos rfl, hrun]
  | load p | enter st => exact ⟨h.present, h.stage3, h.floppy, h.area, h.loaded⟩
  | copied e =>
    refine ⟨h.present, h.stage3, h.floppy, h.area, fun hfloppy => ?_⟩
    have hloading : l.loading ≠ some .loaderProtected := fun hl => hop hl hfloppy
    have hlost : Part.loaderProtected ∈ (l.ended e).lost ↔ Part.loaderProtected ∈ l.lost := by
      unfold Ledger.ended
      split
      · simp only [List.mem_append, Option.mem_toList, or_iff_right_iff_imp]
        intro hl
        exact absurd hl hloading
      · exact Iff.rfl
    exact (h.loaded hfloppy).trans (not_congr hlost.symm)

/-! ## What is stored -/

/-- `n` bytes are stored from `a` on. -/
def fill (l : Ledger) (a : Nat) : Nat → Ledger
  | 0 => l
  | n + 1 => (l.put a).fill (a + 1) n

theorem fill_add (a m n : Nat) : l.fill a (m + n) = (l.fill a m).fill (a + m) n := by
  induction m generalizing l a with
  | zero => rw [Nat.zero_add]; rfl
  | succ m ih =>
    rw [Nat.succ_add, fill, ih, fill, Nat.add_assoc, Nat.add_comm 1 m]

/-- Only memory and its history change. -/
theorem fill_rest (a n : Nat) : (l.fill a n).loading = l.loading ∧
    (l.fill a n).running = l.running ∧ (l.fill a n).table = l.table ∧
    (l.fill a n).lost = l.lost := by
  induction n generalizing l a with
  | zero => exact ⟨rfl, rfl, rfl, rfl⟩
  | succ n ih => exact ih (l := l.put a) (a + 1)

/-- The bytes are the part's that is being loaded, and the others are as they were. -/
theorem holder_fill (a n b : Nat) :
    (l.fill a n).holder b = if a ≤ b ∧ b < a + n then l.loading else l.holder b := by
  induction n generalizing l a with
  | zero =>
    rw [if_neg (by omega)]
    rfl
  | succ n ih =>
    rw [fill, ih]
    by_cases hb : b = a
    · rw [if_neg (by omega), if_pos (by omega)]
      exact if_pos hb
    · have holder : (l.put a).holder b = l.holder b := if_neg hb
      rw [holder]
      exact if_congr (by omega) rfl rfl

/-- The state of a copy: a part is loaded while its handler is not installed. -/
structure Loading (l : Ledger) (p : Part) : Prop where
  loading : l.loading = some p
  other : p ≠ .stage3
  uninstalled : l.table FLOPPY_IRQ ≠ some .loaderProtected

theorem Loading.fill {p : Part} (h : l.Loading p) (a n : Nat) : (l.fill a n).Loading p := by
  obtain ⟨hloading, -, htable, -⟩ := fill_rest (l := l) a n
  exact ⟨hloading.trans h.loading, h.other, htable ▸ h.uninstalled⟩

theorem Loading.admits {p : Part} (h : l.Loading p) (a : Nat) (x : UInt8) :
    l.Admits L (.store a x) := by
  constructor
  · rw [h.loading]
    exact fun heq => h.other (Option.some.inj heq)
  · exact fun hfloppy => absurd hfloppy h.uninstalled

theorem walks_copySector {p : Part} (dest : Nat) : ∀ (n i : Nat) {l : Ledger}, l.Loading p →
    Walks L (copySector dest n i) (fun _ l' => l' = l.fill (dest + i) n) l
  | 0, _, _, _ => rfl
  | n + 1, i, l, h => by
    apply follows_to trivial fun _ _ h => h
    intro b
    apply follows_to (h.admits _ _) fun _ _ h => h
    intro _
    exact walks_copySector dest n (i + 1) (h.fill (dest + i) 1)

/-- A copy stores its destination from the start on, all of it exactly when it
returns no error. -/
theorem walks_fpyCopyBytesLoop {p : Part} (sector : UInt8) (dest : Nat) (count : Int)
    (h : l.Loading p) :
    Walks L (fpyCopyBytesLoop sector dest count)
      (fun e l' => ∃ k ≤ count.toNat, l' = l.fill dest k ∧ (e = noErr ↔ k = count.toNat)) l := by
  induction sector, dest, count using fpyCopyBytesLoop.induct generalizing l with
  | case1 sector dest count hpos ih =>
    rw [fpyCopyBytesLoop, if_pos hpos]
    have read : Only silent (readOneSector sector) :=
      (copy_readOneSector sector).mono fun _ => silent_of_copy
    apply (walks_silent read).to
    intro e
    cases e with
    | some e =>
      refine ⟨0, Nat.zero_le _, rfl, ?_⟩
      simp only [reduceCtorEq, false_iff]
      omega
    | none =>
      apply Follows.to (walks_copySector dest (copyCount count) 0 h)
      intro _
      apply Follows.mono (ih (h.fill _ _))
      intro e l' stored
      obtain ⟨k, hk, rfl, he⟩ := stored
      by_cases hmore : count > 0x200
      · have hcount : copyCount count = 0x200 := if_pos hmore
        refine ⟨0x200 + k, by omega, ?_, he.trans (by omega)⟩
        rw [hcount, fill_add]
        rfl
      · have hcount : copyCount count = count.toNat := if_neg hmore
        obtain rfl : k = 0 := by omega
        exact ⟨count.toNat, Nat.le_refl _, by rw [hcount]; rfl, he.trans (by omega)⟩
  | case2 sector dest count hpos =>
    rw [fpyCopyBytesLoop, if_neg hpos]
    refine ⟨0, Nat.zero_le _, rfl, ?_⟩
    simp only [true_iff]
    omega

/-! ## Stage 3, between its loads -/

/-- Stage 3 runs, and every entry is its own. -/
structure InStage3 (l : Ledger) : Prop where
  running : l.running = .stage3
  table : ∀ n ∈ idtEntries, l.table n = some .stage3

/-- Operations that are not booked, and handlers installed where there is one. -/
def steady : Op → Prop
  | .setInterrupt n _ => n ∈ idtEntries
  | op => silent op

theorem steady_of_silent {op : Op} (h : silent op) : steady op := by
  cases op with
  | setInterrupt n f => cases h
  | _ => exact h

/-- One handler of stage 3 takes another's place: the ledger is the same. -/
theorem InStage3.next (h : l.InStage3) {op : Op} (hop : steady op) : l.next op = l := by
  cases op with
  | setInterrupt n f =>
    have same : (l.next (.setInterrupt n f)).table = l.table := by
      funext m
      rw [table_setInterrupt]
      by_cases hm : m = n
      · rw [if_pos hm, h.running, hm, h.table n hop]
      · rw [if_neg hm]
    exact congrArg (fun f => { l with table := f }) same
  | _ => exact next_silent hop

theorem walks_steady {α : Type} {p : Code α} (h : Only steady p) (hl : l.InStage3) :
    Walks L p (fun _ l' => l' = l) l := by
  apply h.follows (I := fun l' => l' = l) ?_ ?_ rfl
  · intro l' op hop heq
    cases op with
    | setInterrupt n f => exact .inl (heq ▸ hl.running)
    | _ => exact admits_silent hop
  · intro l' op x l'' hop heq hm
    have hnext : l'' = l'.next op := hm
    rw [hnext, heq, hl.next hop]

theorem steady_init8259 : Only steady init8259 := by
  simp [init8259, steady, silent, outb, sti, Prog.call]

theorem steady_breakpointInstr : Only steady breakpointInstr :=
  ⟨(by decide : (3 : UInt8) ∈ idtEntries), fun _ => trivial⟩

theorem steady_setupTimer : Only steady setupTimer := by
  refine ⟨(by decide : TIMER_INT ∈ idtEntries), fun _ => ?_⟩
  simp [initTimer, irqUnmask, steady, silent, outb, Prog.call]

theorem steady_floppyInit : Only steady floppyInit := by
  apply only_floppyInit_of
  · exact (by decide : FLOPPY_IRQ ∈ idtEntries)
  · exact fun _ => trivial
  · exact fun _ h => steady_of_silent (silent_of_driver h.isDriver)
  · exact fun _ h => steady_of_silent (silent_of_driver h.isDriver)

theorem steady_floppyDma : Only steady floppyDma := by
  simp [floppyDma, dmaMaskChannel, dmaResetFlipflop, dmaSetupAddress, dmaSetupCount, dmaSetupPage,
    dmaUnmaskChannel, steady, silent, outb, Prog.call]

theorem steady_floppyDmaSetupRead : Only steady floppyDmaSetupRead := by
  simp [floppyDmaSetupRead, dmaMaskChannel, dmaSetMode, dmaUnmaskChannel, steady, silent, outb,
    Prog.call]

theorem steady_floppyTest : Only steady floppyTest := by
  apply Only.mono ?_ fun _ => steady_of_silent
  refine ((arith_lbaToChs 0).mono fun _ => silent_of_arith).bind fun a => ⟨trivial, fun drive => ?_⟩
  apply ((driver_fpyCmdReadSector _).mono fun _ => silent_of_driver).bind
  intro res
  split
  · trivial
  · exact ⟨trivial, fun _ => ⟨trivial, fun _ => trivial⟩⟩

/-! ## loader_protected -/

/-- Stage 3 before it loads anything: nothing of loader_protected is there. -/
structure Fresh (l : Ledger) : Prop extends InStage3 l where
  absent : ∀ a, l.holder a ≠ some .loaderProtected
  unlost : Part.loaderProtected ∉ l.lost

/-- `copy_stage4` is over: loader_protected is there if it was loaded. -/
structure Copied (L : Sizes) (l : Ledger) : Prop extends InStage3 l where
  idle : l.loading = none
  loaded : l.Holds L .loaderProtected ↔ Part.loaderProtected ∉ l.lost

/-- The copy of loader_protected has stored `k` bytes and returned. -/
theorem Fresh.copied (h : l.Fresh) {e : ErrT} {k : Nat} (hk : k ≤ L.loaderProtected)
    (he : e = noErr ↔ k = L.loaderProtected) :
    (({ l with loading := some .loaderProtected }.fill 0x7000 k).ended e).Copied L := by
  obtain ⟨hloading, hrunning, htable, hlost⟩ :=
    fill_rest (l := { l with loading := some .loaderProtected }) 0x7000 k
  refine ⟨⟨hrunning.trans h.running, fun n hn => ?_⟩, rfl, ?_⟩
  · exact (congrFun htable n).trans (h.table n hn)
  constructor
  · intro holds
    cases e with
    | none =>
      show Part.loaderProtected ∉ (Ledger.fill _ 0x7000 k).lost
      rw [hlost]
      exact h.unlost
    | some e =>
      exfalso
      have hlt : k < L.loaderProtected := by
        refine Nat.lt_of_le_of_ne hk fun heq => ?_
        cases he.mpr heq
      have last : (Ledger.fill _ 0x7000 k).holder (0x7000 + k) = some Part.loaderProtected :=
        holds (0x7000 + k) ⟨Nat.le_add_right _ _, Nat.add_lt_add_left hlt 0x7000⟩
      rw [holder_fill, if_neg (by omega)] at last
      exact h.absent _ last
  · intro unlost
    cases e with
    | none =>
      obtain rfl := he.mp rfl
      intro a ha
      have here : 0x7000 ≤ a ∧ a < 0x7000 + L.loaderProtected := ha
      show (Ledger.fill _ 0x7000 _).holder a = _
      rw [holder_fill, if_pos here]
    | some e =>
      exfalso
      apply unlost
      show Part.loaderProtected ∈ (Ledger.fill _ 0x7000 k).loading.toList ++ _
      rw [hloading]
      exact List.mem_append_left _ List.mem_cons_self

theorem walks_copyStage4 (h : l.Fresh) :
    Walks L (copyStage4 L) (fun _ l' => l'.Copied L) l := by
  have uninstalled : l.table FLOPPY_IRQ ≠ some .loaderProtected := by
    rw [h.table FLOPPY_IRQ (by decide)]
    decide
  have loading : { l with loading := some .loaderProtected }.Loading .loaderProtected :=
    ⟨rfl, by decide, uninstalled⟩
  have copy := walks_fpyCopyBytesLoop (L := L)
    (UInt8.ofNat (L.firstSectionIndex .loaderProtected)) (L.runAddr .loaderProtected)
    (L.size .loaderProtected) loading
  apply follows_to trivial fun _ _ h => h
  intro _
  apply Follows.bind (R := fun _ l' => l'.Copied L) ?_ fun _ _ h => h
  apply Follows.bind (p := fpyCopyBytesLoop _ _ _) copy
  intro e l' stored
  obtain ⟨k, hk, rfl, he⟩ := stored
  apply follows_to (fun _ => (loading.fill _ k).uninstalled) fun _ _ h => h
  intro _
  exact h.copied hk he

/-! ## The loads over stage 3 -/

theorem not_mem_loaderProtected {a : Nat} (h : L.contentStart ≤ a) :
    ¬ (L.region .loaderProtected).Mem a := by
  have chain := L.regions_chain
  rw [List.isChain_cons_cons] at chain
  have below : (L.region .loaderProtected).stop ≤ L.contentStart := chain.1
  intro hmem
  exact absurd hmem.2 (by omega)

/-- Operations that install no handler, store past loader_protected only, and load
neither stage 3 nor loader_protected. -/
def aside (L : Sizes) : Op → Prop
  | .store a _ => L.contentStart ≤ a
  | .setInterrupt _ _ | .assign (.gIdt _) _ => False
  | .mark (.load p) => p ≠ .stage3 ∧ p ≠ .loaderProtected
  | _ => True

/-- Neither stage 3 nor loader_protected is being loaded. -/
structure Aside (l : Ledger) : Prop where
  stage3 : l.loading ≠ some .stage3
  loaderProtected : l.loading ≠ some .loaderProtected

theorem aside_of_idle (h : l.loading = none) : l.Aside := by
  constructor
  all_goals
    rw [h]
    exact nofun

theorem aside_of_silent {op : Op} (h : silent op) : aside L op := by
  cases op with
  | store a x | setInterrupt n f => cases h
  | assign o gate =>
    cases o with
    | gIdt n => cases h
    | _ => trivial
  | mark e =>
    cases e with
    | load p | copied e | enter st => cases h
    | _ => trivial
  | _ => trivial

theorem Aside.next (h : l.Aside) {op : Op} (hop : aside L op) : (l.next op).Aside := by
  rcases silent_or_booked op with hs | hb
  · rw [next_silent hs]
    exact h
  cases hb with
  | store a x | enter st => exact ⟨h.stage3, h.loaderProtected⟩
  | gate n bytes | install n f => cases hop
  | load p =>
    exact ⟨fun heq => hop.1 (Option.some.inj heq), fun heq => hop.2 (Option.some.inj heq)⟩
  | copied e => exact aside_of_idle rfl

theorem Aside.admits (h : l.Aside) {op : Op} (hop : aside L op) : l.Admits L op := by
  rcases silent_or_booked op with hs | hb
  · exact admits_silent hs
  cases hb with
  | store a x => exact ⟨h.stage3, fun _ => not_mem_loaderProtected hop⟩
  | gate n bytes | install n f => cases hop
  | load p | enter st => trivial
  | copied e => exact fun heq => absurd heq h.loaderProtected

theorem walks_aside {α : Type} {p : Code α} (h : Only (aside L) p) (hl : l.Aside) :
    Walks L p (fun _ => Aside) l := by
  apply h.follows ?_ ?_ hl
  · intro l' op hop ha
    exact ha.admits hop
  · intro l' op x l'' hop ha hm
    have hnext : l'' = l'.next op := hm
    rw [hnext]
    exact ha.next hop

theorem aside_fpyCopyPart {p : Part} (h3 : p ≠ .stage3) (hl : p ≠ .loaderProtected)
    (hlow : L.contentStart ≤ L.runAddr p) : Only (aside L) (fpyCopyPart L p) := by
  have loop : Only (aside L) (fpyCopyBytesLoop (UInt8.ofNat (L.firstSectionIndex p))
      (L.runAddr p) (L.size p)) := by
    apply (copy_fpyCopyBytesLoop _ _ _ hlow (Nat.le_refl _)).mono
    intro op hop
    cases op with
    | store a x => exact hop.1
    | load a => trivial
    | _ => exact aside_of_silent (hop.elim silent_of_driver silent_of_arith)
  exact ⟨⟨h3, hl⟩, fun _ => loop.bind fun _ => ⟨trivial, fun _ => trivial⟩⟩

theorem contentStart_le_stage5Start : L.contentStart ≤ L.stage5Start :=
  Nat.le_trans (Nat.le_add_right _ _) (le_alignUp L.stage5.aligned)

theorem contentStart_le_stage4BssStart : L.contentStart ≤ L.stage4BssStart :=
  Nat.le_trans contentStart_le_stage5Start
    (Nat.le_trans (Nat.le_add_right _ _) (le_alignUp L.stage4Bss.aligned))

theorem aside_resetBss : Only (aside L) (resetBss L.stage4BssStart L.stage4BssEnd) :=
  only_clearBytes _ _ fun _ ha _ => Nat.le_trans contentStart_le_stage4BssStart ha

theorem aside_storeBytes : ∀ (a : Nat) (bs : List UInt8), L.contentStart ≤ a →
    Only (aside L) (storeBytes a bs)
  | _, [], _ => trivial
  | a, _ :: bs, h => ⟨h, fun _ => aside_storeBytes (a + 1) bs (Nat.le_succ_of_le h)⟩

theorem aside_setFlag {pg : Nat} (bit : UInt8) (h : L.contentStart ≤ pg) :
    Only (aside L) (setFlag pg bit) :=
  ⟨trivial, fun _ => ⟨h, fun _ => trivial⟩⟩

theorem aside_setupPd {pd : Nat} (h : L.contentStart ≤ pd) :
    ∀ n i, Only (aside L) (setupPd pd n i)
  | 0, _ => trivial
  | n + 1, i => by
    have hi : L.contentStart ≤ pd + 8 * i := Nat.le_trans h (Nat.le_add_right _ _)
    refine Only.bind (aside_storeBytes _ _ hi) fun _ => ?_
    refine Only.bind (aside_setFlag _ hi) fun _ => Only.bind (aside_setFlag _ hi) fun _ => ?_
    exact Only.bind (aside_setFlag _ hi) fun _ => aside_setupPd h n (i + 1)

theorem aside_stage4Load (t : L.Stage4Tables) : Only (aside L) (stage4Load t.toTables) := by
  have low : ∀ {a}, L.InStage4Bss a → L.contentStart ≤ a := fun h =>
    Nat.le_trans contentStart_le_stage4BssStart h.1
  have hpml4 := low t.pml4_placed
  have hpdp := low t.pdp_placed
  refine Only.bind (aside_storeBytes _ _ hpml4) fun _ => ?_
  refine Only.bind (aside_setFlag _ hpml4) fun _ => Only.bind (aside_setFlag _ hpml4) fun _ => ?_
  refine Only.bind (aside_storeBytes _ _ hpdp) fun _ => ?_
  refine Only.bind (aside_setFlag _ hpdp) fun _ => Only.bind (aside_setFlag _ hpdp) fun _ => ?_
  refine Only.bind (aside_setupPd (low t.pd_placed) 512 0) fun _ => ?_
  simp [aside, writeCr, setCrBit, readCr, rdmsr, wrmsr, assign, Prog.call]

/-- `load_protected` from the installation of its handler on, and stage 4. -/
theorem walks_loadProtected (t : L.Stage4Tables) (h : l.Copied L) :
    Walks L ((loadProtected L).bind fun _ => stage4Load t.toTables) (fun _ _ => True)
      { l with running := .loaderProtected } := by
  apply follows_to trivial fun _ _ h => h
  intro _
  apply follows_to (.inr ⟨rfl, rfl, h.loaded⟩) fun _ _ h => h
  intro _
  have idle : Ledger.Aside (next { l with running := .loaderProtected }
      (.setInterrupt FLOPPY_IRQ .fpyInterruptHandler)) := aside_of_idle h.idle
  have rest : Only (aside L) (((fpyCopyPart L .stage4).bind fun _ =>
      (fpyCopyPart L .stage5).bind fun _ =>
        (resetBss L.stage4BssStart L.stage4BssEnd).bind fun _ => mark (.enter .stage4)).bind
      fun _ => stage4Load t.toTables) := by
    refine Only.bind ?_ fun _ => aside_stage4Load t
    refine (aside_fpyCopyPart (by decide) (by decide) (Nat.le_refl _)).bind fun _ => ?_
    refine (aside_fpyCopyPart (by decide) (by decide) contentStart_le_stage5Start).bind fun _ => ?_
    exact aside_resetBss.bind fun _ => ⟨trivial, fun _ => trivial⟩
  exact (walks_aside rest idle).mono fun _ _ _ => trivial

theorem walks_bootFromIdt (t : L.Stage4Tables) (h : l.Fresh) :
    Walks L (bootFromIdt L t) (fun _ _ => True) l := by
  have next : ∀ {β : Type} {p : Code β} {k : β → Code Unit}, Only steady p →
      (∀ b, Walks L (k b) (fun _ _ => True) l) → Walks L (p.bind k) (fun _ _ => True) l := by
    intro β p k hp hk
    exact (walks_steady hp h.toInStage3).to hk
  refine next steady_init8259 fun _ => next steady_breakpointInstr fun _ => ?_
  refine next steady_setupTimer fun _ => next steady_floppyInit fun _ => ?_
  unfold stage3Rest
  simp only [Prog.bind_eq, Prog.bind_assoc]
  refine next steady_floppyDma fun _ => next steady_floppyDmaSetupRead fun _ => ?_
  refine next steady_floppyTest fun _ => next steady_floppyTest fun _ => ?_
  apply (walks_copyStage4 h).bind
  intro _ l' copied
  apply follows_to trivial fun _ _ h => h
  intro _
  exact walks_loadProtected t copied

/-! ## To the end of `idt` -/

/-- Stage 3 has been entered, and loads nothing. -/
structure Begun (L : Sizes) (l : Ledger) : Prop where
  running : l.running = .stage3
  idle : l.loading = none
  unlost : l.lost = []
  area : ∀ a, (L.region .stage3).Mem a → l.holder a = some .stage3 ∧ a ∉ l.stored
  absent : ∀ a, l.holder a ≠ some .loaderProtected

theorem begun_start (L : Sizes) : (start L).Begun L := by
  refine ⟨rfl, rfl, rfl, fun a ha => ⟨if_pos ha, List.not_mem_nil⟩, fun a => ?_⟩
  simp only [start]
  split
  · decide
  · split <;> decide

/-- Storing past stage 3's bytes, and filling the two tables. -/
theorem Begun.next (h : l.Begun L) {op : Op} (hop : op.isSetup L.stage3BssStart) :
    (l.next op).Begun L := by
  rcases silent_or_booked op with hs | hb
  · rw [next_silent hs]
    exact h
  cases hb with
  | store a x =>
    have end3 : L.contentStart + L.stage3 ≤ L.stage3BssStart := le_alignUp L.stage3Bss.aligned
    have above : L.stage3BssStart ≤ a := hop
    refine ⟨h.running, h.idle, h.unlost, fun b hb => ?_, fun b => ?_⟩
    · have below : b < L.contentStart + L.stage3 := hb.2
      have past : b ≠ a := by omega
      obtain ⟨hholder, hstored⟩ := h.area b hb
      exact ⟨(if_neg past).trans hholder, fun hmem => (List.mem_cons.mp hmem).elim past hstored⟩
    · show (if b = a then l.loading else l.holder b) ≠ _
      split
      · rw [h.idle]
        exact nofun
      · exact h.absent b
  | gate n bytes | install n f => exact ⟨h.running, h.idle, h.unlost, h.area, h.absent⟩
  | load p | copied e | enter st => cases hop

/-- The `p` bit is set in every gate of `idt`. -/
theorem gatePresent_idtEvent (n : UInt8) (offset : UInt32) (selector : List UInt8) :
    gatePresent (idtEvent n offset selector) = true := by
  unfold idtEvent gatePresent
  simp only [List.reverse_append, List.reverse_cons, List.reverse_nil, List.nil_append,
    List.cons_append, List.getD_cons_succ, List.getD_cons_zero]
  split <;> decide

/-- A walk that asks nothing of its operations. -/
abbrev Leads {α : Type} (p : Code α) (Q : Ledger → Prop) (l : Ledger) : Prop :=
  Follows (Recorder (S := ops) fun l op _ => l.next op) (fun _ _ => True) p (fun _ => Q) l

/-- The vectors of a list, entered in both tables after what was there. -/
structure Entered (L : Sizes) (es : List UInt8) (l l' : Ledger) : Prop extends Begun L l' where
  present : ∀ n, l'.present n = true ↔ n ∈ es ∨ l.present n = true
  table : ∀ n, l'.table n = if n ∈ es then some .stage3 else l.table n

theorem leads_idtEntries (stub : UInt8 → UInt32) (es : List UInt8) (h : l.Begun L) :
    Leads (es.forM (idtEntry stub)) (Entered L es l) l := by
  induction es generalizing l with
  | nil =>
    refine ⟨h, fun n => ?_, fun n => ?_⟩
    · simp only [List.not_mem_nil, false_or]
    · simp only [List.not_mem_nil, if_false]
  | cons e es ih =>
    apply follows_to trivial fun _ _ h => h
    intro selector
    apply follows_to trivial fun _ _ h => h
    intro _
    apply follows_to trivial fun _ _ h => h
    intro _
    have gate : (l.next (.assign (.gIdt e) (idtEvent e (stub e) selector))).Begun L :=
      h.next trivial
    have entry : ((l.next (.assign (.gIdt e) (idtEvent e (stub e) selector))).next
        (.setInterrupt e .interruptPanic)).Begun L := gate.next trivial
    apply (ih entry).mono
    intro _ l' h'
    refine ⟨h'.toBegun, fun n => ?_, fun n => ?_⟩
    · rw [h'.present n]
      show _ ∨ (if n = e then gatePresent _ else l.present n) = true ↔ _
      rw [gatePresent_idtEvent]
      by_cases hn : n = e
      · simp only [hn, if_true, or_true, List.mem_cons_self, true_or]
      · simp only [hn, if_false, List.mem_cons, false_or]
    · rw [h'.table n]
      show (if n ∈ es then _ else if n = e then some l.running else l.table n) = _
      rw [h.running]
      by_cases hn : n = e
      · simp only [hn, if_true, ite_self, List.mem_cons_self]
      · simp only [hn, if_false, List.mem_cons, false_or]

/-- Setting up what is neither table. -/
def untabled (lo : Nat) : Op → Prop
  | .store a _ => lo ≤ a
  | .readCr _ | .writeCr _ _ | .fetch _ => True
  | _ => False

theorem untabled_stage3Reset (L : Sizes) : Only (untabled L.stage3BssStart) (stage3Reset L) := by
  have protect : Only (untabled L.stage3BssStart) (setCrBit 0 0) :=
    ⟨trivial, fun _ => ⟨trivial, fun _ => trivial⟩⟩
  have reload : ∀ o, Only (untabled L.stage3BssStart) (fetch o) := fun _ =>
    ⟨trivial, fun _ => trivial⟩
  refine protect.bind fun _ => (reload _).bind fun _ => (reload _).bind fun _ => ?_
  refine (reload _).bind fun _ => (reload _).bind fun _ => (reload _).bind fun _ => ?_
  refine (reload _).bind fun _ => ?_
  exact only_clearBytes _ _ fun _ ha _ => ha

theorem leads_stage3ToIdt (L : Sizes) (stub : UInt8 → UInt32) :
    Leads (stage3ToIdt L stub) (Entered L idtEntries (start L)) (start L) := by
  have reset : Leads (stage3Reset L) (fun l => l.Begun L ∧ l.present = (start L).present ∧
      l.table = (start L).table) (start L) := by
    apply (untabled_stage3Reset L).follows (fun _ _ _ _ => trivial) ?_ ⟨begun_start L, rfl, rfl⟩
    intro l op x l' hop h hm
    obtain ⟨hbegun, hpresent, htable⟩ := h
    obtain rfl : l' = l.next op := hm
    cases op with
    | store a x => exact ⟨hbegun.next hop, hpresent, htable⟩
    | readCr n | writeCr n x | fetch o => exact ⟨hbegun, hpresent, htable⟩
    | _ => cases hop
  rw [stage3ToIdt, Prog.bind_eq]
  apply reset.bind
  intro _ l h
  obtain ⟨hbegun, hpresent, htable⟩ := h
  unfold idt
  apply (leads_idtEntries stub idtEntries hbegun).mono
  intro _ l' h'
  exact ⟨h'.toBegun, hpresent ▸ h'.present, htable ▸ h'.table⟩

/-- The end of `idt`: every vector has an entry, and the entry is stage 3's. -/
theorem Entered.kept (h : Entered L idtEntries (start L) l) : l.Kept L ∧ l.Fresh := by
  have table : ∀ n ∈ idtEntries, l.table n = some .stage3 := fun n hn =>
    (h.table n).trans (if_pos hn)
  have floppy : l.table FLOPPY_IRQ = some .stage3 := table FLOPPY_IRQ (by decide)
  constructor
  · refine ⟨fun n => ?_, fun n hn _ => table n hn, .inl floppy, fun a ha => ?_, fun hl => ?_⟩
    · rw [h.present n]
      simp only [start, Bool.false_eq_true, or_false]
    · obtain ⟨hholder, hstored⟩ := h.area a ha
      exact iff_of_true hholder hstored
    · rw [floppy] at hl
      cases hl
  · refine ⟨⟨h.running, table⟩, h.absent, ?_⟩
    rw [h.unlost]
    exact List.not_mem_nil

end Ledger

namespace HandOver

/-- Stage 3 is entered. -/
def start (L : Sizes) (vars : IrqVars) : HandOver := ⟨vars, Ledger.start L⟩

/-- An operation of the main program is booked. -/
theorem ledger_main {s s' : HandOver} {op : Op} {x : op.Ans} (h : system.main s op x s') :
    s'.ledger = s.ledger.next op := by
  obtain ⟨vars, -, rfl⟩ := h
  rfl

/-- The handler's are not. -/
theorem ledger_isr {s s' : HandOver} {op : Op} {x : op.Ans} (h : system.isr s op x s') :
    s'.ledger = s.ledger := by
  obtain ⟨vars, -, rfl⟩ := h
  rfl

theorem entered_of_exec {L : Sizes} {stub : UInt8 → UInt32} {vars : IrqVars} {s : HandOver}
    (setup : Exec system.main (stage3ToIdt L stub) (start L vars) () s) :
    Ledger.Entered L idtEntries (Ledger.start L) s.ledger := by
  have keeps : system.Keeps HandOver.ledger (Recorder fun l op _ => l.next op)
      (fun _ _ => True) (fun _ _ => True) (fun _ => True)
      (fun _ => Ledger.Entered L idtEntries (Ledger.start L)) (.main (.pure ()), s) := by
    apply System.invariant ledger_main ledger_isr ?_ ?_ ?_ trivial
      (Ledger.leads_stage3ToIdt L stub) (System.reach_main setup.reach)
    · exact fun h => congrArg HandOver.ledger h
    · exact fun _ _ _ => trivial
    · exact fun _ _ => follows_true _ _
  exact keeps.2

/-- Every ledger reached from the end of `idt` on. -/
theorem kept_of_reach {L : Sizes} {t : L.Stage4Tables} {stub : UInt8 → UInt32} {vars : IrqVars}
    {s₁ s : HandOver} {c : Control ops Unit}
    (setup : Exec system.main (stage3ToIdt L stub) (start L vars) () s₁)
    (run : system.Reach (.main (bootFromIdt L t), s₁) (c, s)) : s.ledger.Kept L := by
  obtain ⟨kept, fresh⟩ := (entered_of_exec setup).kept
  have keeps : system.Keeps HandOver.ledger (Recorder fun l op _ => l.next op)
      (Ledger.Admits L) (fun s _ => s.ledger.Kept L) (fun s => s.ledger.Kept L)
      (fun _ _ => True) (c, s) := by
    apply System.invariant ledger_main ledger_isr ?_ ?_ ?_ kept
      (Ledger.walks_bootFromIdt t fresh) run
    · exact fun h => congrArg HandOver.ledger h
    · intro s op x s' hkept hop hm
      rw [ledger_main hm]
      exact hkept.next hop
    · intro s s' hkept hd
      rw [show s' = s from hd]
      apply driver_fpyInterruptHandler.follows (I := fun s : HandOver => s.ledger.Kept L)
        (fun _ _ _ h => h) ?_ hkept
      intro s op x s' _ h hm
      rw [ledger_isr hm]
      exact h
  cases c with
  | main p => exact keeps.1
  | isr h p =>
    exact keeps.1.here (J := fun s : HandOver => s.ledger.Kept L) (fun _ _ h => h) fun _ _ h => h

/-! ## The law -/

/-- THE LAW of the handlers. In every state reached from the end of `idt` on, with
the floppy's handler at any time, the entries of the vectors present point into code
that is still there exactly as long as nothing was stored in stage 3's area and
loader_protected, once its handler is installed, was loaded without an error. -/
theorem handlers_sound_iff {L : Sizes} {t : L.Stage4Tables} {stub : UInt8 → UInt32}
    {vars : IrqVars} {s₁ s : HandOver} {c : Control ops Unit}
    (setup : Exec system.main (stage3ToIdt L stub) (start L vars) () s₁)
    (run : system.Reach (.main (bootFromIdt L t), s₁) (c, s)) :
    s.ledger.Sound L ↔ s.ledger.Spared L :=
  (kept_of_reach setup run).sound_iff

/-! ## Runs computed -/

/-- A small build, with room for the page tables. -/
def small : Sizes := { Sizes.oneByte with stage4Bss := ⟨0x3000, 0x10000, by decide⟩ }

def smallTables : small.Stage4Tables where
  pml4 := 0x10000
  pdp := 0x11000
  pd := 0x12000
  pml4_aligned := ⟨0x10, rfl⟩
  pdp_aligned := ⟨0x11, rfl⟩
  pd_aligned := ⟨0x12, rfl⟩
  pml4_lt := by decide
  pdp_lt := by decide
  pd_lt := by decide
  pml4_ne_pdp := by decide
  pml4_ne_pd := by decide
  pdp_ne_pd := by decide
  pml4_placed := ⟨by decide, by decide⟩
  pdp_placed := ⟨by decide, by decide⟩
  pd_placed := ⟨by decide, by decide⟩

/-- A controller that is always ready, whose FIFO reads zeros. -/
def player : Player ops HandOver Unit where
  main s op := (IrqVars.sim (IrqVars.alwaysReady 0) id IrqVars.goodDrive s.vars op).map fun r =>
    (r.1, ⟨r.2, s.ledger.next op⟩)
  isr s op := (IrqVars.sim (IrqVars.alwaysReady 0) id IrqVars.goodDrive s.vars op).map fun r =>
    (r.1, { s with vars := r.2 })
  deliver s _ := some s

theorem player_sound : player.Sound system where
  main h := by
    obtain ⟨r, hr, heq⟩ := Option.map_eq_some_iff.mp h
    cases heq
    exact ⟨_, IrqVars.sim_sound _ _ _ hr, rfl⟩
  isr h := by
    obtain ⟨r, hr, heq⟩ := Option.map_eq_some_iff.mp h
    cases heq
    exact ⟨_, IrqVars.sim_sound _ _ _ hr, rfl⟩
  deliver h := by
    cases h
    rfl

/-- A run past `idt` to a state that passes a test. -/
theorem exists_run (ms : List (Move Unit)) (test : HandOver → Bool)
    (h : (simulate player.main 400 (stage3ToIdt small fun _ => 0) (start small {})).any
      (fun r => (system.play player ms (.main (bootFromIdt small smallTables), r.2)).any
        fun c => test c.2) = true) :
    ∃ s₁ c s, Exec system.main (stage3ToIdt small fun _ => 0) (start small {}) () s₁ ∧
      system.Reach (.main (bootFromIdt small smallTables), s₁) (c, s) ∧ test s = true := by
  cases hsim : simulate player.main 400 (stage3ToIdt small fun _ => 0) (start small {}) with
  | none =>
    rw [hsim] at h
    cases h
  | some r =>
    rw [hsim] at h
    obtain ⟨⟨c, s⟩, run, ht⟩ := System.exists_of_play player_sound h
    exact ⟨r.2, c, s, simulate_sound player_sound.main hsim, run, ht⟩

/-- Each READ's interrupt is delivered once the driver waits for it: two of
`floppy_test`, one of `copy_stage4`, one of stage 4's load, and then its first
byte is stored. -/
def toStage4 : List (Move Unit) :=
  .replicate 74 .step ++ .deliver () :: .replicate 65 .step ++ .deliver () ::
    .replicate 81 .step ++ .deliver () :: .replicate 85 .step ++ .deliver () :: .replicate 27 .step

theorem fpyCopyPart_one {L : Sizes} {p : Part} (h : L.size p = 1) :
    fpyCopyPart L p = (do
      mark (.load p)
      fpyCopyBytes (UInt8.ofNat (L.firstSectionIndex p)) (L.runAddr p) 1) := by
  rw [fpyCopyPart, h]
  rfl

/-- Stage 4's first byte is stored, every load so far having ended well. -/
def overwritten (s : HandOver) : Bool :=
  s.ledger.stored.contains small.contentStart && s.ledger.lost.isEmpty

theorem exists_overwritten : ∃ s₁ c s,
    Exec system.main (stage3ToIdt small fun _ => 0) (start small {}) () s₁ ∧
      system.Reach (.main (bootFromIdt small smallTables), s₁) (c, s) ∧
        overwritten s = true := by
  apply exists_run toStage4
  have lp : small.size .loaderProtected = 1 := rfl
  have s4 : small.size .stage4 = 1 := rfl
  simp only [bootFromIdt, stage3Rest, copyStage4, loadProtected, fpyCopyPart_one lp,
    fpyCopyPart_one s4, fpyCopyBytes_one]
  decide +kernel

/-- The law applies to that run. -/
theorem overwritten_not_sound : ∃ s₁ c s,
    Exec system.main (stage3ToIdt small fun _ => 0) (start small {}) () s₁ ∧
      system.Reach (.main (bootFromIdt small smallTables), s₁) (c, s) ∧
        overwritten s = true ∧ (s.ledger.Sound small ↔ s.ledger.Spared small) := by
  obtain ⟨s₁, c, s, setup, run, ht⟩ := exists_overwritten
  exact ⟨s₁, c, s, setup, run, ht, handlers_sound_iff setup run⟩

/-- The first byte of stage 4 destroys the handlers of stage 3, while they are
installed. -/
theorem stage4_overwrites_handlers : ¬ ∀ (L : Sizes) (t : L.Stage4Tables)
    (stub : UInt8 → UInt32) (vars : IrqVars) (s₁ s : HandOver) (c : Control ops Unit),
    Exec system.main (stage3ToIdt L stub) (start L vars) () s₁ →
    system.Reach (.main (bootFromIdt L t), s₁) (c, s) → s.ledger.Sound L := by
  intro h
  obtain ⟨s₁, c, s, setup, run, ht⟩ := exists_overwritten
  have hstored := (Bool.and_eq_true_iff.mp ht).1
  have spared := (kept_of_reach setup run).sound_iff.mp (h _ _ _ _ s₁ s c setup run)
  apply spared.1 small.contentStart (List.contains_iff_mem.mp hstored)
  decide

end HandOver

end ToyBootloader
