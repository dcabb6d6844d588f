import ToyBootloader.Memory.Bytes

/-!
# The four-level walk

How an x86-64 processor translates an address: from the root table down, an
index of nine bits a level, through entries of eight bytes. An entry that is not
present ends the walk with a fault; one with the huge-page bit ends it early, at
the page directory or at its pointer table. The rights are what every entry on
the way grants.

Levels count down to 0, the page table.
-/

namespace ToyBootloader.Paging

open Memory

/-- Bit `k` of an entry. -/
def flag (e k : Nat) : Bool := e / 2 ^ k % 2 = 1

/-- What the entries on the way grant. -/
structure Rights where
  writable : Bool
  user : Bool
  executable : Bool
  deriving DecidableEq, Repr

/-- The rights one entry grants. -/
def Rights.ofEntry (e : Nat) : Rights := ⟨flag e 1, flag e 2, !flag e 63⟩

/-- What both grant. -/
def Rights.meet (r s : Rights) : Rights :=
  ⟨r.writable && s.writable, r.user && s.user, r.executable && s.executable⟩

/-- Before the root nothing has been refused. -/
def Rights.all : Rights := ⟨true, true, true⟩

/-- The end of a walk that did not fault. -/
structure Translation where
  phys : Nat
  rights : Rights
  deriving DecidableEq, Repr

/-- How many low bits of an address lie below level `level`. -/
def shift (level : Nat) : Nat := 12 + 9 * level

/-- The index an address has in a table of `level`. -/
def index (va level : Nat) : Nat := va / 2 ^ shift level % 512

/-- The address in an entry of `level` that maps memory, or of the next table:
its bits below 52 that are not an offset. -/
def frame (e level : Nat) : Nat := e / 2 ^ shift level % 2 ^ (52 - shift level) * 2 ^ shift level

/-- The entry an address has in the table at `table`. -/
def entry (m : Mem) (va level table : Nat) : Nat := m.readLE (table + 8 * index va level) 8

/-- The translation an entry that maps memory gives. -/
def maps (e va level : Nat) (r : Rights) : Translation :=
  ⟨frame e level + va % 2 ^ shift level, r⟩

/-- The walk from the table of `level` at `table` on. -/
def walkFrom (m : Mem) (va : Nat) : (level table : Nat) → Rights → Option Translation
  | 0, table, r =>
    let e := entry m va 0 table
    if flag e 0 then some (maps e va 0 (r.meet (.ofEntry e))) else none
  | level + 1, table, r =>
    let e := entry m va (level + 1) table
    if flag e 0 then
      if flag e 7 && level < 2 then some (maps e va (level + 1) (r.meet (.ofEntry e)))
      else walkFrom m va level (frame e 0) (r.meet (.ofEntry e))
    else none

/-- The walk of an address, from the root `cr3` points to. -/
def walk (m : Mem) (cr3 va : Nat) : Option Translation := walkFrom m va 3 cr3 .all

/-- The addresses a processor translates at all: bits 63 to 47 are alike. -/
def Canonical (va : Nat) : Prop := va < 2 ^ 47 ∨ 2 ^ 64 - 2 ^ 47 ≤ va ∧ va < 2 ^ 64

section Levels

variable {m : Mem} {va level table : Nat} {r : Rights}

/-- An absent entry ends the walk. -/
theorem walkFrom_absent (h : entry m va level table = 0) : walkFrom m va level table r = none := by
  cases level with
  | zero => simp [walkFrom, h, flag]
  | succ level => simp [walkFrom, h, flag]

/-- An entry that points to a table goes on there. -/
theorem walkFrom_table {e : Nat} (h : entry m va (level + 1) table = e)
    (present : flag e 0 = true) (small : flag e 7 = false) :
    walkFrom m va (level + 1) table r = walkFrom m va level (frame e 0) (r.meet (.ofEntry e)) := by
  simp only [walkFrom, h, present, small, Bool.false_and, Bool.false_eq_true, if_true, if_false]

/-- An entry of the page directory with the huge-page bit maps 2 MiB. -/
theorem walkFrom_huge {e : Nat} (h : entry m va 1 table = e)
    (present : flag e 0 = true) (huge : flag e 7 = true) :
    walkFrom m va 1 table r = some (maps e va 1 (r.meet (.ofEntry e))) := by
  simp only [walkFrom, h, present, huge, if_true]
  rfl

end Levels

end ToyBootloader.Paging
