import Mathlib.Data.List.Nodup
import ToyBootloader.Laws.FirstLoads
import ToyBootloader.Laws.Rounds

/-!
# What is entered, and what was loaded

The boot loads six parts by two mechanisms: the first three with `copy_kernel`,
which tries the BIOS three times and then gives up in silence, the last three
with `fpy_copy_bytes`, which returns its error to callers that drop it. Every
stage is entered whatever came of its loads.

A load is what was asked of the disk service and what was replied, or the traffic
with the controller and the addresses stored to. Whether the devices serve it is
read off their answers from where it began: the replies of the disk service in
the order of its calls, and the two streams of the controller. A stage is entered
loaded exactly when the devices served every part of it, and nothing the code
does makes the difference.
-/

namespace ToyBootloader

open Resumption Code

/-! ## The loads -/

/-- The parts a stage is made of when it is entered. -/
def Stage.parts : Stage → List Part
  | .stage2 => [.stage2]
  | .stage3 => [.stage3]
  | .loaderProtected => [.loaderProtected]
  | .stage4 => [.stage4, .stage5]

/-- The loads there are before a stage is entered, the last first. -/
def Stage.loads : Stage → List Part
  | .stage2 => [.stage2, .shared]
  | .stage3 => [.stage3, .stage2, .shared]
  | .loaderProtected => [.loaderProtected, .stage3, .stage2, .shared]
  | .stage4 => [.stage5, .stage4, .loaderProtected, .stage3, .stage2, .shared]

theorem Stage.nodup_loads (st : Stage) : st.loads.Nodup := by
  cases st <;> decide

theorem Stage.mem_loads {st : Stage} {p : Part} (h : p ∈ st.parts) : p ∈ st.loads := by
  cases st <;> revert p <;> decide

/-- `fpy_copy_bytes` is over. -/
def Op.endsCopy : Op → Bool
  | .mark (.copied _) => true
  | _ => false

/-- One load. -/
structure Load where
  part : Part
  /-- The calls of the disk service before it. -/
  calls : Nat
  /-- The globals when it began. -/
  globals : Globals
  /-- The traffic when it began. -/
  traffic : Traffic
  /-- What it asked of the disk service and what was replied, the last first. -/
  requests : List (Regs16 × Regs16) := []
  /-- What its copy did. -/
  events : List CopyEvent := []
  /-- What had passed when the copy ended. -/
  log : List Item := traffic.log
  ended : Bool := false

namespace Load

/-- The sector it begins with, as the loaders' `uint8_t` has it. -/
def sector (L : Sizes) (l : Load) : UInt8 := UInt8.ofNat (L.firstSectionIndex l.part)

/-- The rounds of its copy. -/
def rounds (L : Sizes) (l : Load) : Nat := roundCount (L.size l.part)

/-- The request that reads it. -/
def request (L : Sizes) (l : Load) : Regs16 :=
  readRegs (l.globals .driveNumber)
    (Ram.chs8 (l.globals .maxHeadNumber) (l.globals .maxSectorNumber) (l.sector L))
    (UInt8.ofNat (L.loadCount l.part)) (L.runAddr l.part)

/-- The part is in memory: the disk service has granted the request that reads it; or each of
its sectors was read with a result whose status bytes pass, and every byte of it was stored. -/
def Loaded (L : Sizes) (l : Load) : Prop :=
  if l.part.byBios then ∃ r, (l.request L, r) ∈ l.requests ∧ r.failed = false
  else Feed.SectorsRead l.globals (l.sector L) (l.rounds L) l.log l.traffic.log ∧
    ∀ i < L.size l.part, L.runAddr l.part + i ∈ writes l.events

/-- The devices serve it. The disk service, whose calls in their order are answered with `b`,
grants one of three reads, each after a reset; the controller of `f` makes no round of its copy
fail. -/
def Served (L : Sizes) (f : Feed) (b : Nat → Regs16) (l : Load) : Prop :=
  if l.part.byBios then ∃ t < 3, (b (l.calls + 2 * t + 1)).failed = false
  else ¬ f.CopyFails l.globals (l.sector L) (l.rounds L) l.traffic.statuses l.traffic.bytes

/-- A request and its reply. -/
def asked (rs : List (Regs16 × Regs16)) : (op : Op) → ops.Ans op → List (Regs16 × Regs16)
  | .int13 q, r => (q, r) :: rs
  | _, _ => rs

/-- What an operation adds to the load that is going on. -/
def next (l : Load) (op : Op) (x : ops.Ans op) (t : Traffic) : Load :=
  if l.part.byBios then { l with requests := asked l.requests op x }
  else if l.ended then l
  else { l with events := l.events ++ op.events, log := t.log, ended := op.endsCopy }

/-- A load that is over: the part is in memory exactly if the devices served it. -/
def Settled (L : Sizes) (f : Feed) (b : Nat → Regs16) (l : Load) : Prop :=
  (l.Loaded L ↔ l.Served L f b) ∧ (l.part.byBios = false → l.ended = true)

end Load

/-- The globals, the traffic with the controller, how often the disk service was called, and
the loads, the last first. -/
@[ext]
structure LoadLog where
  globals : Globals
  traffic : Traffic := {}
  calls : Nat := 0
  loads : List Load := []

namespace LoadLog

/-- Before the boot. -/
def start (globals : Globals) : LoadLog := { globals }

/-- The part whose load an operation begins. -/
def begins : Op → Option Part
  | .mark (.load p) => some p
  | _ => none

/-- The calls of the disk service an operation is. -/
def isCall : Op → Nat
  | .int13 _ => 1
  | _ => 0

/-- The disk service answers its calls with `b`. -/
def Replies (b : Nat → Regs16) (n : Nat) : (op : Op) → ops.Ans op → Prop
  | .int13 _, r => r = b n
  | _, _ => True

/-- The loads after an operation that leaves this traffic. -/
def record (s : LoadLog) (op : Op) (x : ops.Ans op) (t : Traffic) : List Load :=
  match begins op with
  | some p => { part := p, calls := s.calls, globals := s.globals, traffic := s.traffic } :: s.loads
  | none => s.loads.modifyHead (·.next op x t)

/-- The boot against the controller of `f` and the disk service that answers `b`. -/
def machine (f : Feed) (b : Nat → Regs16) : Machine ops LoadLog := fun s op x s' =>
  f.session (s.traffic, s.globals) op x (s'.traffic, s'.globals) ∧ Replies b s.calls op x ∧
    s'.calls = s.calls + isCall op ∧ s'.loads = s.record op x s'.traffic

/-- With the handler at any time: its operations are no load's. -/
def system (f : Feed) (b : Nat → Regs16) : System ops LoadLog where
  main := machine f b
  isr s _ _ s' := s' = s
  deliver s s' := s' = s
  handler := fpyInterruptHandler

/-- A part was loaded. -/
def Loaded (L : Sizes) (s : LoadLog) (p : Part) : Prop := ∃ l ∈ s.loads, l.part = p ∧ l.Loaded L

/-- The devices serve the loads of the part. -/
def Served (L : Sizes) (f : Feed) (b : Nat → Regs16) (s : LoadLog) (p : Part) : Prop :=
  ∀ l ∈ s.loads, l.part = p → l.Served L f b

/-- The loads are those of these parts, and all over. -/
structure Done (L : Sizes) (f : Feed) (b : Nat → Regs16) (ps : List Part) (s : LoadLog) : Prop where
  settled : ∀ l ∈ s.loads, l.Settled L f b
  parts : s.loads.map Load.part = ps

variable {L : Sizes} {f : Feed} {b : Nat → Regs16} {ps : List Part} {s s' : LoadLog}

/-- A walk of the boot that enters every stage with the loads before it over. -/
abbrev Loads {α : Type} (L : Sizes) (f : Feed) (b : Nat → Regs16) (p : Code α)
    (Q : α → LoadLog → Prop) (s : LoadLog) : Prop :=
  Follows (machine f b) (fun s op => ∀ st, op = .mark (.enter st) → s.Done L f b st.loads) p Q s

/-- Operations outside of a load: no request, and no mark of a load or of an
entry. -/
def between : Op → Prop
  | .mark (.load _) | .mark (.copied _) | .mark (.enter _) => False
  | .int13 q => q.isRead = false
  | _ => True

theorem record_of_none {op : Op} {x : ops.Ans op} {t : Traffic} (h : begins op = none) :
    s.record op x t = s.loads.modifyHead (·.next op x t) := by
  rw [record, h]

theorem begins_of_between {op : Op} (hop : between op) : begins op = none := by
  cases op with
  | mark e =>
    cases e with
    | load p => cases hop
    | _ => rfl
  | _ => rfl

theorem not_enters_of_between {op : Op} (hop : between op) (st : Stage) :
    op ≠ .mark (.enter st) := by
  rintro rfl
  exact hop

theorem isRead_of_between {op : Op} (hop : between op) (q : Regs16) (h : op = .int13 q) :
    q.isRead = false := by
  subst h
  exact hop

theorem endsCopy_of_between {op : Op} (hop : between op) : op.endsCopy = false := by
  cases op with
  | mark e =>
    cases e with
    | copied e => cases hop
    | _ => rfl
  | _ => rfl

/-- The loads after an operation between two of them. -/
theorem loads_of_between {op : Op} {x : ops.Ans op} (hop : between op)
    (hm : machine f b s op x s') : s'.loads = s.loads.modifyHead (·.next op x s'.traffic) := by
  obtain ⟨-, -, -, hloads⟩ := hm
  rw [hloads, record_of_none (begins_of_between hop)]

/-- What is no read of the disk service is none of a load's requests. -/
theorem mem_asked {rs : List (Regs16 × Regs16)} {op : Op} {x : ops.Ans op} {q r : Regs16}
    (hq : q.isRead = true) (hop : ∀ q, op = .int13 q → q.isRead = false) :
    (q, r) ∈ Load.asked rs op x ↔ (q, r) ∈ rs := by
  cases op with
  | int13 q' =>
    refine List.mem_cons.trans (or_iff_right fun h => ?_)
    obtain ⟨rfl, -⟩ := Prod.mk.inj h
    rw [hop q rfl] at hq
    cases hq
  | _ => exact Iff.rfl

theorem isRead_request (l : Load) : (l.request L).isRead = true :=
  (isRead_readRegs _ _ _ _).1

/-- What is no request leaves a load that is over as it was. -/
theorem settled_next {l : Load} {op : Op} {x : ops.Ans op} {t : Traffic}
    (hop : ∀ q, op = .int13 q → q.isRead = false) (h : l.Settled L f b) : (l.next op x t).Settled L f b := by
  obtain ⟨hserved, hended⟩ := h
  unfold Load.next
  split
  · rename_i hbios
    refine ⟨?_, hended⟩
    rw [Load.Loaded, if_pos hbios] at hserved
    rw [Load.Loaded, if_pos hbios]
    refine (exists_congr fun r => and_congr_left' ?_).trans hserved
    exact mem_asked (isRead_request l) hop
  · rename_i hbios
    rw [if_pos (hended (Bool.eq_false_iff.mpr hbios))]
    exact ⟨hserved, hended⟩

theorem part_next (l : Load) (op : Op) (x : ops.Ans op) (t : Traffic) :
    (l.next op x t).part = l.part := by
  unfold Load.next
  split
  · rfl
  · split <;> rfl

theorem Done.next {op : Op} {x : ops.Ans op} {t : Traffic} (h : s.Done L f b ps)
    (hloads : s'.loads = s.loads.modifyHead (·.next op x t))
    (hop : ∀ q, op = .int13 q → q.isRead = false) : s'.Done L f b ps := by
  obtain ⟨hsettled, rfl⟩ := h
  cases hs : s.loads with
  | nil =>
    rw [hs] at hloads
    refine ⟨?_, congrArg (List.map Load.part) hloads⟩
    rw [hloads]
    exact nofun
  | cons l ls =>
    rw [hs, List.modifyHead_cons] at hloads
    rw [hs, List.forall_mem_cons] at hsettled
    constructor
    · rw [hloads, List.forall_mem_cons]
      exact ⟨settled_next hop hsettled.1, hsettled.2⟩
    · rw [hloads, List.map_cons, part_next, List.map_cons]

/-- Between two loads they stay over. -/
theorem loads_between {α : Type} {p : Code α} (h : Only between p) (hs : s.Done L f b ps) :
    Loads L f b p (fun _ s' => s'.Done L f b ps) s := by
  refine h.follows ?_ ?_ hs
  · exact fun s op hop _ st he => absurd he (not_enters_of_between hop st)
  · intro s op x s' hop hs hm
    exact hs.next (loads_of_between hop hm) (isRead_of_between hop)

/-! ## A load of `copy_kernel` -/

/-- The load is going on: so many of its reads have been refused. -/
structure Trying (b : Nat → Regs16) (l : Load) (ls : List Load) (n : Nat) (s : LoadLog) : Prop where
  loads : ∃ rs, s.loads = { l with requests := rs } :: ls ∧
    ∀ q r, (q, r) ∈ rs → q.isRead = true → r.failed = true
  refused : ∀ t < n, (b (l.calls + 2 * t + 1)).failed = true
  globals : s.globals = l.globals
  calls : s.calls = l.calls + 2 * n

variable {l : Load} {ls : List Load} {n : Nat}

/-- A load that gave up is over: the disk service did not serve it. -/
theorem Trying.done (hp : l.part.byBios = true) (h : s.Trying b l ls 3)
    (hls : ∀ l' ∈ ls, l'.Settled L f b) : s.Done L f b (l.part :: ls.map Load.part) := by
  obtain ⟨rs, hloads, hfailed⟩ := h.loads
  refine ⟨?_, by rw [hloads, List.map_cons]⟩
  rw [hloads, List.forall_mem_cons]
  refine ⟨⟨?_, fun hn => absurd hp (Bool.eq_false_iff.mp hn)⟩, hls⟩
  rw [Load.Loaded, Load.Served, if_pos hp, if_pos hp]
  refine iff_of_false ?_ ?_
  · rintro ⟨r, hr, hgranted⟩
    rw [hfailed _ r hr (isRead_request _)] at hgranted
    cases hgranted
  · rintro ⟨t, ht, hgranted⟩
    rw [h.refused t ht] at hgranted
    cases hgranted

/-- A global read during it. -/
theorem machine_get (hp : l.part.byBios = true) {rs : List (Regs16 × Regs16)}
    (hloads : s.loads = { l with requests := rs } :: ls) {v : Var} (hv : v ≠ .fpyIrqHandleState)
    {x : UInt8} : machine f b s (.get v) x s' ↔ x = s.globals v ∧ s' = s := by
  have same : ∀ t, s.record (.get v) x t = s.loads := by
    intro t
    refine (record_of_none rfl).trans ?_
    rw [hloads, List.modifyHead_cons, Load.next, if_pos hp]
    rfl
  constructor
  · rintro ⟨⟨ht, hg, hx⟩, -, hcalls, hloads⟩
    exact ⟨hx hv, LoadLog.ext hg ht hcalls (hloads.trans (same _))⟩
  · rintro ⟨rfl, rfl⟩
    exact ⟨⟨rfl, rfl, fun _ => rfl⟩, trivial, rfl, (same _).symm⟩

theorem loads_get {α : Type} (hp : l.part.byBios = true) {rs : List (Regs16 × Regs16)}
    (hloads : s.loads = { l with requests := rs } :: ls) {v : Var} (hv : v ≠ .fpyIrqHandleState)
    {k : UInt8 → Code α} {Q : α → LoadLog → Prop} (h : Loads L f b (k (s.globals v)) Q s) :
    Loads L f b (.vis (S := ops) (.get v) k) Q s := by
  refine ⟨nofun, fun x s' hm => ?_⟩
  obtain ⟨rfl, rfl⟩ := (machine_get hp hloads hv).mp hm
  exact h

/-- A call of the disk service during it. -/
theorem loads_int13 {α : Type} (hp : l.part.byBios = true) {rs : List (Regs16 × Regs16)}
    (hloads : s.loads = { l with requests := rs } :: ls) {q : Regs16} {k : Regs16 → Code α}
    {Q : α → LoadLog → Prop}
    (h : Loads L f b (k (b s.calls)) Q
      { s with calls := s.calls + 1, loads := { l with requests := (q, b s.calls) :: rs } :: ls }) :
    Loads L f b (.vis (S := ops) (.int13 q) k) Q s := by
  refine ⟨nofun, ?_⟩
  rintro r s' ⟨⟨ht, hg⟩, hr, hcalls, hrecord⟩
  obtain rfl : r = b s.calls := hr
  have here : s' = { s with
      calls := s.calls + 1
      loads := { l with requests := (q, b s.calls) :: rs } :: ls } := by
    refine LoadLog.ext hg ht hcalls ?_
    refine hrecord.trans ((record_of_none rfl).trans ?_)
    rw [hloads, List.modifyHead_cons, Load.next, if_pos hp]
    rfl
  rw [here]
  exact h

theorem between_of_arith {op : Op} (h : op.isArith) : between op := by
  cases op with
  | mark e | int13 q => cases h
  | _ => trivial

/-- The loop of `copy_kernel`: it stops at the first request that is granted. -/
theorem loads_copyKernelLoop (hp : l.part.byBios = true) {a : Chs8} {count : UInt8} {dest : Nat}
    (hq : l.request L = readRegs (l.globals .driveNumber) a count dest)
    (hls : ∀ l' ∈ ls, l'.Settled L f b) (tries : Nat) (hn : n + tries = 3) (hs : s.Trying b l ls n) :
    Loads L f b (copyKernelLoop a count dest tries)
      (fun _ s' => s'.Done L f b (l.part :: ls.map Load.part)) s := by
  induction tries generalizing n s with
  | zero =>
    obtain rfl : n = 3 := hn
    exact hs.done hp hls
  | succ tries ih =>
    obtain ⟨⟨rs, hloads, hfailed⟩, hrefused, hglobals, hcalls⟩ := hs
    simp only [copyKernelLoop, Prog.bind_eq, get_bind, int13_bind]
    apply loads_get hp hloads (by decide)
    apply loads_int13 hp hloads
    apply loads_get hp rfl (by decide)
    apply loads_int13 hp rfl
    rw [hglobals, hcalls, ← hq]
    have earlier : ∀ q r, (q, r) ∈ (resetRegs (l.globals .driveNumber), b (l.calls + 2 * n)) :: rs →
        q.isRead = true → r.failed = true := by
      intro q r h hread
      rcases List.mem_cons.mp h with h | h
      · obtain ⟨rfl, -⟩ := Prod.mk.inj h
        rw [isRead_resetRegs] at hread
        cases hread
      · exact hfailed q r h hread
    by_cases hfail : (b (l.calls + 2 * n + 1)).failed = true
    · have trying : Trying b l ls (n + 1) ⟨l.globals, s.traffic, l.calls + 2 * n + 1 + 1,
          { l with requests := (l.request L, b (l.calls + 2 * n + 1)) ::
            (resetRegs (l.globals .driveNumber), b (l.calls + 2 * n)) :: rs } :: ls⟩ := by
        refine ⟨⟨_, rfl, ?_⟩, ?_, rfl, ?_⟩
        · intro q r h hread
          rcases List.mem_cons.mp h with h | h
          · obtain ⟨-, rfl⟩ := Prod.mk.inj h
            exact hfail
          · exact earlier q r h hread
        · intro t ht
          rcases Nat.lt_succ_iff_lt_or_eq.mp ht with h | rfl
          · exact hrefused t h
          · exact hfail
        · rw [Nat.mul_succ]
          rfl
      split
      · exact ih (by omega) trying
      · rename_i hlast
        obtain rfl : n = 2 := by
          have last : tries = 0 := by simpa [hfail] using hlast
          omega
        exact trying.done hp hls
    · rw [if_neg (by simp [hfail])]
      have granted := Bool.eq_false_iff.mpr hfail
      refine ⟨?_, rfl⟩
      rw [List.forall_mem_cons]
      refine ⟨⟨?_, fun hn => absurd hp (Bool.eq_false_iff.mp hn)⟩, hls⟩
      rw [Load.Loaded, Load.Served, if_pos hp, if_pos hp]
      exact iff_of_true ⟨_, List.mem_cons_self, granted⟩ ⟨n, by omega, granted⟩

/-- A load by `copy_kernel`. -/
theorem loads_copyKernelPart {p : Part} (hp : p.byBios = true) (hs : s.Done L f b ps) :
    Loads L f b (copyKernelPart L p) (fun _ s' => s'.Done L f b (p :: ps)) s := by
  obtain ⟨hsettled, rfl⟩ := hs
  refine ⟨nofun, ?_⟩
  rintro _ s₁ ⟨⟨ht, hg⟩, -, hcalls, hloads⟩
  have hglobals : s₁.globals = s.globals := hg
  let l : Load := { part := p, calls := s.calls, globals := s.globals, traffic := s.traffic }
  have trying : Trying b l s.loads 0 s₁ := ⟨⟨[], hloads, nofun⟩, nofun, hglobals, hcalls⟩
  have reads : ReadsGeometry (machine f b) (l.globals .maxHeadNumber) (l.globals .maxSectorNumber)
      s₁ := by
    rw [show l.globals = s₁.globals from hglobals.symm]
    exact ⟨machine_get (l := l) hp hloads (by decide), machine_get (l := l) hp hloads (by decide)⟩
  have chs : Loads L f b (copyKernelChs (l.sector L)) (fun a s' => a = Ram.chs8
      (l.globals .maxHeadNumber) (l.globals .maxSectorNumber) (l.sector L) ∧ s' = s₁) s₁ := by
    refine (arith_copyKernelChs _).follows_exec ?_ fun a s' run => ?_
    · exact fun s op hop st he => absurd he (not_enters_of_between (between_of_arith hop) st)
    · exact (Ram.exec_chs8 reads (reads.divides_of_exec run)).mp run
  refine chs.bind ?_
  rintro a s' ⟨rfl, rfl⟩
  exact loads_copyKernelLoop hp rfl hsettled 3 rfl trying

/-! ## A load of `fpy_copy_bytes` -/

theorem between_of_driver {op : Op} (h : op.isDriver) : between op := by
  cases op with
  | mark e => cases e <;> first | exact trivial | exact h
  | int13 q => cases h
  | _ => trivial

theorem between_of_copy {lo hi : Nat} {op : Op} (h : op.isCopy lo hi) : between op := by
  cases op with
  | load a | store a x => trivial
  | _ => exact h.elim between_of_driver between_of_arith

/-- The load is going on: the traffic and the globals are these, and it has done so much. -/
structure Copying (l : Load) (ls : List Load) (s : LoadLog)
    (c : (Traffic × Globals) × List CopyEvent) : Prop where
  session : (s.traffic, s.globals) = c.1
  loads : s.loads = { l with events := c.2, log := c.1.1.log } :: ls

/-- The load when its copy comes back with `e`. -/
structure Copied (L : Sizes) (f : Feed) (l : Load) (e : ErrT)
    (c : (Traffic × Globals) × List CopyEvent) : Prop where
  fails : e ≠ noErr ↔
    f.CopyFails l.globals (l.sector L) (l.rounds L) l.traffic.statuses l.traffic.bytes
  reads : e = noErr → Feed.SectorsRead l.globals (l.sector L) (l.rounds L) c.1.1.log l.traffic.log
  stores : (∀ i < L.size l.part, L.runAddr l.part + i ∈ writes c.2) ↔ e = noErr

/-- The addresses a copy stores to are all those of its destination exactly if it comes back
without an error. -/
theorem stores_of_copyTrace {dest size : Nat} {e : ErrT} {u : List CopyEvent}
    (h : CopyTrace dest size e u) : (∀ i < size, dest + i ∈ writes u) ↔ e = noErr := by
  cases e with
  | none =>
    obtain rfl := h
    refine iff_of_true (fun i hi => ?_) rfl
    rw [writes_rounds, Nat.min_eq_right (le_roundCount _), Int.toNat_natCast, List.mem_range'_1]
    omega
  | some e =>
    obtain ⟨k, hk, last, hlast, rfl⟩ := h
    have full := lt_of_lt_roundCount hk
    rw [Int.toNat_natCast] at full
    have none : writes last = [] := by
      rcases hlast with rfl | rfl <;> rfl
    refine iff_of_false (fun all => ?_) nofun
    have missing := all (0x200 * k) full
    rw [writes_append, none, List.append_nil, writes_rounds, List.mem_range'_1] at missing
    omega

/-- A load by `fpy_copy_bytes`: it fails where the controller makes it. -/
theorem loads_fpyCopyPart {p : Part} (hp : p.byBios = false) (hs : s.Done L f b ps) :
    Loads L f b (fpyCopyPart L p) (fun _ s' => s'.Done L f b (p :: ps)) s := by
  obtain ⟨hsettled, rfl⟩ := hs
  refine ⟨nofun, ?_⟩
  rintro _ s₁ ⟨⟨ht, hg⟩, -, -, hloads⟩
  let l : Load := { part := p, calls := s.calls, globals := s.globals, traffic := s.traffic }
  have bios : ¬ l.part.byBios = true := Bool.eq_false_iff.mp hp
  have same : (s₁.traffic, s₁.globals) = (s.traffic, s.globals) := Prod.ext ht hg
  have copy : Only between (fpyCopyBytesLoop (l.sector L) (L.runAddr p) (L.size p)) :=
    (copy_fpyCopyBytesLoop _ (L.runAddr p) _ (Nat.le_refl _) (Nat.le_refl _)).mono
      fun _ => between_of_copy
  have alone : Follows (both f.session tracing) (fun _ _ => True)
      (fpyCopyBytesLoop (l.sector L) (L.runAddr p) (L.size p)) (Copied L f l)
      ((s.traffic, s.globals), []) := by
    refine copy.follows_exec (fun _ _ _ => trivial) fun e c run => ?_
    obtain ⟨-, fails, reads⟩ := Feed.copy_of_exec run.left
    exact ⟨fails, reads, stores_of_copyTrace ((emits_fpyCopyBytesLoop _ _ _).exec run.right)⟩
  have walk : Loads L f b (fpyCopyBytesLoop (l.sector L) (L.runAddr p) (L.size p))
      (fun e t => ∃ c, Copying l s.loads t c ∧ Copied L f l e c) s₁ := by
    refine copy.simulate (R := Copying l s.loads) ?_ ?_ ⟨same, ?_⟩ alone
    · rintro s ⟨⟨t, g⟩, u⟩ op x s' ⟨hsession, hhead⟩ hop hm
      have hnext := loads_of_between hop hm
      obtain ⟨hm, -⟩ := hm
      rw [hsession] at hm
      refine ⟨((s'.traffic, s'.globals), u ++ op.events), ⟨hm, rfl⟩, rfl, ?_⟩
      rw [hnext, hhead, List.modifyHead_cons, Load.next, if_neg bios, endsCopy_of_between hop]
      rfl
    · exact fun _ hop _ st he => absurd he (not_enters_of_between hop st)
    · rw [hloads]
      rfl
  refine Follows.bind (p := fpyCopyBytesLoop _ _ _) walk ?_
  rintro e s₂ ⟨⟨⟨t, g⟩, u⟩, ⟨hsession, hhead⟩, fails, reads, stores⟩
  refine ⟨nofun, ?_⟩
  rintro _ s₃ ⟨⟨ht, -⟩, -, -, hloads⟩
  have htraffic : s₃.traffic = t := Eq.trans ht (congrArg Prod.fst hsession)
  have there : s₃.loads = { l with events := u, log := t.log, ended := true } :: s.loads := by
    refine hloads.trans ((record_of_none rfl).trans ?_)
    rw [hhead, List.modifyHead_cons, Load.next, if_neg bios, htraffic]
    exact congrArg (· :: _) (congrArg (fun u => { l with events := u, log := t.log, ended := true })
      (List.append_nil u))
  refine ⟨?_, by rw [there, List.map_cons]⟩
  rw [there, List.forall_mem_cons]
  refine ⟨⟨?_, fun _ => rfl⟩, hsettled⟩
  rw [Load.Loaded, Load.Served, if_neg bios, if_neg bios]
  constructor
  · rintro ⟨-, all⟩ hfails
    exact fails.mpr hfails (stores.mp all)
  · intro served
    have none : e = noErr := not_not.mp fun h => served (fails.mp h)
    exact ⟨reads none, stores.mpr none⟩

/-! ## Stage 2 and stage 3, between loads -/

theorem between_of_setup {op : Op} (h : op.isSetup 0) : between op := by
  cases op with
  | mark e | int13 q => cases h
  | _ => trivial

theorem between_setup {α : Type} {p : Code α} (h : Setup 0 p) : Only between p :=
  h.only.mono fun _ => between_of_setup

theorem between_stage2Load : Only between stage2Load := by
  refine only_stage2Load (fun _ => between_of_setup) ?_
  simp only [diskProps, Prog.bind_eq, get_bind, int13_bind, only_vis]
  refine ⟨trivial, fun _ => ⟨?_, fun _ => ?_⟩⟩
  · exact decide_eq_false (show ¬ (0x0800 : UInt16) &&& 0xFF00 = 0x0200 by decide)
  split
  · trivial
  · simp [between, Code.set, Prog.call]

theorem between_floppyInit : Only between floppyInit := by
  refine only_floppyInit.mono fun op h => ?_
  cases op with
  | mark e => exact h.elim (fun hc => between_of_driver hc.isDriver) False.elim
  | int13 q => exact h.elim False.elim False.elim
  | _ => trivial

theorem between_floppyTest : Only between floppyTest := by
  refine ((arith_lbaToChs 0).mono fun _ => between_of_arith).bind fun a => ⟨trivial, fun drive => ?_⟩
  refine ((driver_fpyCmdReadSector _).mono fun _ => between_of_driver).bind fun res => ?_
  split
  · trivial
  · exact ⟨trivial, fun _ => ⟨trivial, fun _ => trivial⟩⟩

/-! ## The boot -/

/-- A part of the boot, before the rest of it. -/
theorem loads_then {α β : Type} {p : Code β} {k : β → Code α} {qs rs : List Part}
    (hp : Loads L f b p (fun _ s' => s'.Done L f b qs) s)
    (hk : ∀ b' {s}, s.Done L f b qs → Loads L f b (k b') (fun _ s' => s'.Done L f b rs) s) :
    Loads L f b (p.bind k) (fun _ s' => s'.Done L f b rs) s :=
  hp.bind fun b' _ hs => hk b' hs

/-- Control is transferred with every load over. -/
theorem loads_enter {α : Type} {st : Stage} {k : Unit → Code α} {rs : List Part}
    (hs : s.Done L f b st.loads)
    (hk : ∀ {s : LoadLog}, s.Done L f b st.loads →
      Loads L f b (k ()) (fun _ s' => s'.Done L f b rs) s) :
    Loads L f b ((mark (.enter st)).bind k) (fun _ s' => s'.Done L f b rs) s := by
  refine ⟨?_, ?_⟩
  · rintro _ ⟨⟩
    exact hs
  · rintro _ s' ⟨-, -, -, hloads⟩
    exact hk (hs.next hloads nofun)

theorem loads_loadProtected (hs : s.Done L f b Stage.loaderProtected.loads) :
    Loads L f b (loadProtected L) (fun _ s' => s'.Done L f b Stage.stage4.loads) s := by
  have setup : Only between fpySetupIdt := ⟨trivial, fun _ => ⟨trivial, fun _ => trivial⟩⟩
  have clear : Only between (resetBss L.stage4BssStart L.stage4BssEnd) :=
    between_setup (setup_clearBytes _ _ (Nat.zero_le _))
  refine loads_then (loads_between setup hs) fun _ _ hs => ?_
  refine loads_then (loads_fpyCopyPart rfl hs) fun _ _ hs => ?_
  refine loads_then (loads_fpyCopyPart rfl hs) fun _ _ hs => ?_
  exact loads_then (loads_between clear hs) fun _ _ hs => loads_enter hs fun hs => hs

theorem loads_stage3Start (stub : UInt8 → UInt32) (hs : s.Done L f b Stage.stage3.loads) :
    Loads L f b (stage3Start L stub) (fun _ s' => s'.Done L f b Stage.stage4.loads) s := by
  rw [stage3Start_eq]
  have setup : Only between (stage3Setup L stub) :=
    between_setup (setup_stage3Setup stub (Nat.zero_le _))
  refine loads_then (loads_between setup hs) fun _ _ hs => ?_
  refine loads_then (loads_between between_floppyInit hs) fun _ _ hs => ?_
  refine loads_then (loads_between (between_setup setup_floppyDma) hs) fun _ _ hs => ?_
  refine loads_then (loads_between (between_setup setup_floppyDmaSetupRead) hs)
    fun _ _ hs => ?_
  refine loads_then (loads_between between_floppyTest hs) fun _ _ hs => ?_
  refine loads_then (loads_between between_floppyTest hs) fun _ _ hs => ?_
  have copy : Loads L f b (copyStage4 L)
      (fun _ s' => s'.Done L f b Stage.loaderProtected.loads) _ :=
    loads_then (loads_fpyCopyPart rfl hs) fun _ _ hs => hs
  exact loads_then copy fun _ _ hs => loads_enter hs loads_loadProtected

theorem loads_boot (stub : UInt8 → UInt32) (dl : UInt8) (globals : Globals) :
    Loads L f b (boot L stub dl) (fun _ s' => s'.Done L f b Stage.stage4.loads) (start globals) := by
  have drive : Only between (Code.set .driveNumber dl) := ⟨trivial, fun _ => trivial⟩
  have before : Done L f b [] (start globals) := ⟨nofun, rfl⟩
  refine loads_then (loads_between drive before) fun _ _ hs => ?_
  refine loads_then (loads_copyKernelPart rfl hs) fun _ _ hs => ?_
  refine loads_then (loads_copyKernelPart rfl hs) fun _ _ hs => ?_
  refine loads_enter hs fun hs => ?_
  refine loads_then (loads_between between_stage2Load hs) fun _ _ hs => ?_
  refine loads_then (loads_copyKernelPart rfl hs) fun _ _ hs => ?_
  exact loads_enter hs (loads_stage3Start stub)

/-! ## The law -/

/-- The loads of a part there are, and only one. -/
theorem Done.loaded_iff {st : Stage} (h : s.Done L f b st.loads) {p : Part} (hp : p ∈ st.parts) :
    s.Loaded L p ↔ s.Served L f b p := by
  obtain ⟨hsettled, hparts⟩ := h
  have once : (s.loads.map Load.part).Nodup := hparts ▸ st.nodup_loads
  have there : p ∈ s.loads.map Load.part := hparts ▸ Stage.mem_loads hp
  obtain ⟨l, hl, hpart⟩ := List.mem_map.mp there
  have only : ∀ l' ∈ s.loads, l'.part = p → l' = l := fun l' hl' hpart' =>
    List.inj_on_of_nodup_map once hl' hl (hpart'.trans hpart.symm)
  constructor
  · rintro ⟨l', hl', hpart', hloaded⟩ l'' hl'' hpart''
    rw [only l'' hl'' hpart'', ← only l' hl' hpart']
    exact (hsettled l' hl').1.mp hloaded
  · intro served
    exact ⟨l, hl, hpart, (hsettled l hl).1.mpr (served l hl hpart)⟩

/-- THE LAW of the loads. In every run, and with interrupts anywhere, a stage is
entered with all its parts in memory exactly when the devices served them all: the disk
service granted one of the three reads of each of its loads, and the controller made no
round of its copies fail. The code itself never refuses to go on. -/
theorem entered_loaded_iff_served {stub : UInt8 → UInt32} {dl : UInt8} {globals : Globals}
    {st : Stage} {k : Unit → Code Unit}
    (run : (system f b).Reach (.main (boot L stub dl), start globals)
      (.main (.vis (S := ops) (.mark (.enter st)) k), s)) :
    (∀ p ∈ st.parts, s.Loaded L p) ↔ ∀ p ∈ st.parts, s.Served L f b p := by
  have keeps : (system f b).Keeps id (machine f b)
      (fun s op => ∀ st, op = .mark (.enter st) → s.Done L f b st.loads)
      (fun _ _ => True) (fun _ => True) (fun _ s' => s'.Done L f b Stage.stage4.loads)
      (.main (.vis (S := ops) (.mark (.enter st)) k), s) := by
    refine System.invariant (s := start globals) ?_ ?_ ?_ ?_ ?_ trivial
      (loads_boot stub dl globals) run
    · exact fun h => h
    · exact fun h => h
    · exact fun h => h
    · exact fun _ _ _ => trivial
    · exact fun _ _ => follows_true _ _
  have done : s.Done L f b st.loads := keeps.2.1 st rfl
  exact forall₂_congr fun p hp => done.loaded_iff hp

/-! ## Runs computed -/

/-- The streams' answers, the disk service's and the globals'. -/
def player (f : Feed) (b : Nat → Regs16) : Player ops LoadLog Empty where
  main s op :=
    (IrqVars.sim (f.answer s.traffic) (fun _ => b s.calls) s.globals {} op).map fun r =>
    (r.1, {
      globals := s.globals.after op
      traffic := f.after s.traffic op
      calls := s.calls + isCall op
      loads := s.record op r.1 (f.after s.traffic op) })
  isr _ _ := none
  deliver _ src := nomatch src

theorem player_sound (f : Feed) (b : Nat → Regs16) : (player f b).Sound (system f b) where
  main {s op x s'} h := by
    obtain ⟨r, hr, heq⟩ := Option.map_eq_some_iff.mp h
    cases heq
    refine ⟨⟨Feed.device_of_sim hr, Globals.held_of_sim hr⟩, ?_, rfl, rfl⟩
    cases op with
    | int13 q =>
      cases hr
      rfl
    | _ => trivial
  isr h := nomatch h
  deliver {_ src} := nomatch src

/-- A boot of a small build against a disk service that always replies the same. -/
def play (reply : Regs16) (n : Nat) : Option (Control ops Unit × LoadLog) :=
  (system (.steady 0) fun _ => reply).play (player (.steady 0) fun _ => reply)
    (.replicate n .step) (.main (boot .oneByte (fun _ => 0) 0), start fun _ => 0)

/-- Stage 2 is about to be entered, in a state that passes a test. -/
def entering (test : LoadLog → Bool) : Control ops Unit × LoadLog → Bool
  | (.main (.vis (Op.mark (.enter .stage2)) _), s) => test s
  | _ => false

/-- A run to such an entry. -/
theorem exists_entry {reply : Regs16} {n : Nat} {test : LoadLog → Bool}
    (h : (play reply n).any (entering test) = true) :
    ∃ k s, (system (.steady 0) fun _ => reply).Reach
      (.main (boot .oneByte (fun _ => 0) 0), start fun _ => 0)
      (.main (.vis (S := ops) (.mark (.enter .stage2)) k), s) ∧ test s = true := by
  obtain ⟨⟨ctl, s⟩, run, ht⟩ := System.exists_of_play (player_sound _ _) h
  match ctl, ht with
  | .main (.vis (Op.mark (.enter .stage2)) k), ht => exact ⟨k, s, run, ht⟩

/-- Every request is granted: the law applies, and stage 2 is entered loaded. -/
theorem served_stage2_entered : ∃ k s,
    (system (.steady 0) fun _ => ⟨0, 0, 0, 0⟩).Reach
      (.main (boot .oneByte (fun _ => 0) 0), start fun _ => 0)
      (.main (.vis (S := ops) (.mark (.enter .stage2)) k), s) ∧
    ∀ p ∈ Stage.stage2.parts, s.Loaded .oneByte p := by
  have hplay : (play ⟨0, 0, 0, 0⟩ 13).any (entering fun _ => true) = true := by
    decide
  obtain ⟨k, s, run, -⟩ := exists_entry hplay
  refine ⟨k, s, run, (entered_loaded_iff_served run).mpr fun p hp l _ hpart => ?_⟩
  have bios : l.part.byBios = true := by
    rw [hpart, List.mem_singleton.mp hp]
    rfl
  rw [Load.Served, if_pos bios]
  exact ⟨0, by decide, rfl⟩

/-- No request is ever granted, and stage 2 is entered all the same. -/
theorem unloaded_stage2_entered : ¬ ∀ (L : Sizes) (f : Feed) (b : Nat → Regs16)
    (stub : UInt8 → UInt32) (dl : UInt8) (globals : Globals) (st : Stage) (k : Unit → Code Unit)
    (s : LoadLog), (system f b).Reach (.main (boot L stub dl), start globals)
      (.main (.vis (S := ops) (.mark (.enter st)) k), s) →
    ∀ p ∈ st.parts, s.Loaded L p := by
  intro h
  have hplay : (play ⟨0x8000, 0, 0, 0⟩ 29).any (entering fun s =>
      s.loads.all fun l => l.requests.all (·.2.failed)) = true := by
    decide
  obtain ⟨k, s, run, hfailed⟩ := exists_entry hplay
  obtain ⟨l, hl, hpart, hloaded⟩ := h _ _ _ _ _ _ _ k s run .stage2 List.mem_cons_self
  rw [Load.Loaded, if_pos (by rw [hpart]; rfl)] at hloaded
  obtain ⟨r, hr, hgranted⟩ := hloaded
  have refused := List.all_eq_true.mp (List.all_eq_true.mp hfailed l hl) _ hr
  rw [show r.failed = true from refused] at hgranted
  cases hgranted

end LoadLog

end ToyBootloader
