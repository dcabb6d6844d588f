import Mathlib.Logic.Function.Basic

/-!
# The 8259 interrupt controller

A controller is told what to do a byte at a time. A byte with bit 4 set at the first port
begins an initialization, and what comes at the second port after that is the vector base,
the cascade and the mode, as far as the first byte has announced them. From then on the
second port is the mask register, and the first takes the ends of interrupts. Priorities are
fixed: what rotates them is not here.

Two controllers make a pair, the second of them on a line of the first.
-/

namespace ToyBootloader.Devices

/-- What the next byte at the second port is taken for. -/
inductive Awaits
  | base (cascade mode : Bool)
  | cascade (mode : Bool)
  | mode
  | mask
  deriving DecidableEq

structure Pic where
  awaits : Awaits
  base : UInt8
  /-- A master's lines that have slaves, a slave's number. -/
  cascade : UInt8
  autoEoi : Bool
  mask : UInt8
  inService : Fin 8 → Bool

namespace Pic

/-- The bit of a line. -/
def bit (x : UInt8) (n : Fin 8) : Bool := x.toBitVec.getLsbD n

/-! ## The two ports -/

/-- The end of the interrupt that has the highest priority of those in service. -/
def eoi (p : Pic) : Pic :=
  { p with inService := fun n => p.inService n && decide (∃ m < n, p.inService m = true) }

/-- The end of the interrupt of one line. -/
def eoiOf (n : Fin 8) (p : Pic) : Pic :=
  { p with inService := Function.update p.inService n false }

/-- A byte at the first port. -/
def command (v : UInt8) (p : Pic) : Pic :=
  if v &&& 0x10 ≠ 0 then
    { p with
      awaits := .base (v &&& 2 = 0) (v &&& 1 ≠ 0)
      autoEoi := false
      mask := 0
      inService := fun _ => false }
  else if v &&& 8 ≠ 0 then p
  else if v &&& 0x60 = 0x20 then p.eoi
  else if v &&& 0x60 = 0x60 then p.eoiOf ⟨v.toNat % 8, Nat.mod_lt _ (by decide)⟩
  else p

/-- A byte at the second port. -/
def data (v : UInt8) (p : Pic) : Pic :=
  match p.awaits with
  | .base cascade mode =>
    { p with
      base := v &&& 0xF8
      awaits := if cascade then .cascade mode else if mode then .mode else .mask }
  | .cascade mode => { p with cascade := v, awaits := if mode then .mode else .mask }
  | .mode => { p with autoEoi := v &&& 2 ≠ 0, awaits := .mask }
  | .mask => { p with mask := v }

/-- All that an initialization leaves is what it says. -/
theorem data_command (p : Pic) (base cascade mode mask : UInt8) :
    ((((p.command 0x11).data base).data cascade).data mode).data mask =
      { awaits := .mask, base := base &&& 0xF8, cascade, autoEoi := mode &&& 2 ≠ 0, mask,
        inService := fun _ => false } := rfl

/-! ## Interrupts -/

/-- A request on a line gets through: the line is not masked, and nothing of its own or a
higher priority is in service. -/
def Passes (p : Pic) (n : Fin 8) : Prop :=
  p.awaits = .mask ∧ bit p.mask n = false ∧ ∀ m ≤ n, p.inService m = false

/-- A line is acknowledged. -/
def accept (p : Pic) (n : Fin 8) : Pic :=
  if p.autoEoi then p else { p with inService := Function.update p.inService n true }

/-- The line of the lowest priority. -/
def last : Fin 8 := ⟨7, by decide⟩

/-- What the processor is told. -/
def vector (p : Pic) (n : Fin 8) : UInt8 := p.base ||| UInt8.ofNat n

/-- Nothing is in service. -/
def Idle (p : Pic) : Prop := ∀ n, p.inService n = false

/-- An interrupt that nothing has interrupted ends as if it had not been. -/
theorem eoi_accept {p : Pic} (idle : p.Idle) (n : Fin 8) : (p.accept n).eoi = p := by
  obtain ⟨awaits, base, cascade, autoEoi, mask, inService⟩ := p
  have none : inService = fun _ => false := funext idle
  subst none
  have alone : ∀ k m : Fin 8, m < k → ¬(k = n ∧ m = n) := by
    rintro k m below ⟨rfl, rfl⟩
    exact absurd below (Fin.lt_irrefl _)
  cases autoEoi with
  | true => simp [accept, eoi]
  | false =>
    simp only [accept, eoi, Bool.false_eq_true, if_false, mk.injEq, true_and]
    funext k
    by_cases same : k = n
    · have above : ¬∃ m < k, Function.update (fun _ => false) n true m = true := by
        intro ⟨m, below, set⟩
        by_cases again : m = n
        · exact alone k m below ⟨same, again⟩
        · simp [again] at set
      simp [above]
    · simp [same]

end Pic

/-! ## Two of them -/

structure Pair where
  master : Pic
  slave : Pic

namespace Pair

variable {link : Fin 8} {p p' : Pair} {v : UInt8}

/-- The slave answers for the line it is on. -/
def Answers (link : Fin 8) (p : Pair) : Prop := p.slave.cascade &&& 7 = UInt8.ofNat link

/-- The processor acknowledges an interrupt and is told a vector. The slave's output is on the
line `link` of the master, whatever the two have been told. -/
inductive Acknowledges (link : Fin 8) (p : Pair) : UInt8 → Pair → Prop
  | master (n : Fin 8) : p.master.Passes n → Pic.bit p.master.cascade n = false →
      Acknowledges link p (p.master.vector n) { p with master := p.master.accept n }
  | slave (n : Fin 8) : p.master.Passes link → Pic.bit p.master.cascade link = true →
      p.Answers link → p.slave.Passes n →
      Acknowledges link p (p.slave.vector n) ⟨p.master.accept link, p.slave.accept n⟩
  /-- The master leaves the answer to a slave, and there is none: it can be anything. -/
  | unanswered (n : Fin 8) (v : UInt8) : p.master.Passes n → Pic.bit p.master.cascade n = true →
      ¬(n = link ∧ p.Answers link) →
      Acknowledges link p v { p with master := p.master.accept n }
  /-- The request is gone by then: line 7 is answered for, and is not in service. -/
  | spurious : p.master.awaits = .mask → Acknowledges link p (p.master.vector Pic.last) p
  | spuriousSlave : p.master.Passes link → Pic.bit p.master.cascade link = true →
      p.Answers link → p.slave.awaits = .mask →
      Acknowledges link p (p.slave.vector Pic.last) { p with master := p.master.accept link }

/-- Both have been told where the slave is. -/
structure Wired (link : Fin 8) (p : Pair) : Prop where
  lines : ∀ n, Pic.bit p.master.cascade n = decide (n = link)
  number : p.Answers link

/-- What a pair that is wired can be acknowledged for, and what that leaves. -/
theorem Acknowledges.cases_of_wired (h : p.Acknowledges link v p') (wired : p.Wired link) :
    (∃ n, (n ≠ link ∧ Pic.bit p.master.mask n = false ∨ n = Pic.last) ∧ v = p.master.vector n ∧
      p'.slave = p.slave ∧ (p'.master = p.master ∨ p'.master = p.master.accept n)) ∨
    ∃ n, (Pic.bit p.slave.mask n = false ∨ n = Pic.last) ∧ v = p.slave.vector n := by
  have linked : ∀ {n}, Pic.bit p.master.cascade n = true → n = link := by
    intro n set
    rw [wired.lines] at set
    exact of_decide_eq_true set
  cases h with
  | master n passes own =>
    have other : n ≠ link := fun same => by simp [wired.lines, same] at own
    exact .inl ⟨n, .inl ⟨other, passes.2.1⟩, rfl, rfl, .inr rfl⟩
  | slave n _ _ _ passes => exact .inr ⟨n, .inl passes.2.1, rfl⟩
  | unanswered n v _ set nobody => exact absurd ⟨linked set, wired.number⟩ nobody
  | spurious => exact .inl ⟨_, .inr rfl, rfl, rfl, .inl rfl⟩
  | spuriousSlave => exact .inr ⟨_, .inr rfl, rfl⟩

end Pair

end ToyBootloader.Devices
