import Mathlib.Data.List.Basic
import ToyBootloader.A20
import ToyBootloader.Memory.Fields

/-!
# The keyboard controller's handshake

`a20_keyboard_wait` compares the whole status byte. Told to wait for room it goes on at a
status of exactly 2, which is the one with an input buffer that is full and nothing else, and
told to wait for a byte at any other status. So a wait for room has been shown room only by a
status it did not go on at, and a wait for a byte may have been shown none.
-/

namespace ToyBootloader

open Resumption Memory Code

/-! ## What is meant -/

/-- The statuses read since the last write or byte. -/
def recent : List PortAccess → List UInt8
  | .status v :: log => v :: recent log
  | _ => []

/-- The byte read last. -/
def lastByte : List PortAccess → Option UInt8
  | [] => none
  | .data v :: _ => some v
  | _ :: log => lastByte log

/-- The byte is another with bit 1 set. -/
def SetsBit1 (v a : UInt8) : Prop := v &&& ~~~2 = a &&& ~~~2 ∧ v &&& 2 = 2

/-- The log of a driver that keeps the handshake: a write comes after a status with room for
it, a byte is read after a status that says there is one, and the byte that is written back
is the last that was read with bit 1 set. -/
def Handshake : List PortAccess → Prop
  | [] => True
  | .status _ :: log => Handshake log
  | .data _ :: log => (∃ v ∈ recent log, v &&& 1 ≠ 0) ∧ Handshake log
  | .write port v :: log =>
    (∃ v ∈ recent log, v &&& 2 = 0) ∧ (port = 0x60 → ∃ a, lastByte log = some a ∧ SetsBit1 v a) ∧
      Handshake log

namespace A20Platform

variable (f : A20Platform)

/-- The status `a20_keyboard_wait(n)` goes on at. -/
def goesOn (n : Bool) (v : UInt8) : Bool := n != (v == 2)

/-- What a wait should have been shown: a byte, or room for one. -/
def wanted (n : Bool) (v : UInt8) : Prop := if n then v &&& 1 ≠ 0 else v &&& 2 = 0

/-- Waits one after the other, from a place in the stream on: each that ends has been shown
what it waited for. -/
def Polite : List Bool → Nat → Prop
  | [], _ => True
  | n :: ns, i => ∀ m, First (fun l => goesOn n (f.status (i + l))) m →
      (∃ l ≤ m, wanted n (f.status (i + l))) ∧ Polite ns (i + m + 1)

/-- The machine of a platform. -/
abbrev machine : Machine ops A20State := f.sim.machine

/-! ## Steps -/

variable {f} {s t : A20State} {α : Type}

theorem settles_status : Settles f.machine (.inb 0x64) (fun s => f.status s.statuses) f.look :=
  fun _ _ _ => Simulator.machine_iff rfl

theorem settles_data : Settles f.machine (.inb 0x60) (fun s => f.data s.bytes) f.take :=
  fun _ _ _ => Simulator.machine_iff rfl

theorem settles_write {port : UInt16} (h : port = 0x64 ∨ port = 0x60) (v : UInt8) :
    Settles f.machine (.outb port v) (fun _ => ()) (f.write port v) :=
  fun _ _ _ => Simulator.machine_iff (if_pos h)

theorem statuses_looks (m : Nat) (s : A20State) :
    (f.look^[m] s).statuses = s.statuses + m :=
  iterate_counts f.look A20State.statuses (fun _ => rfl) m s

/-- Statuses leave the handshake and the last byte as they are. -/
theorem handshake_looks (m : Nat) (s : A20State) :
    Handshake (f.look^[m] s).log ↔ Handshake s.log :=
  iff_of_eq (iterate_keeps f.look (fun s => Handshake s.log) (fun _ => rfl) m s)

theorem lastByte_looks (m : Nat) (s : A20State) :
    lastByte (f.look^[m] s).log = lastByte s.log :=
  iterate_keeps f.look (fun s => lastByte s.log) (fun _ => rfl) m s

/-- What has been shown after so many statuses. -/
theorem recent_looks {P : UInt8 → Prop} (fresh : recent s.log = []) (m : Nat) :
    (∃ v ∈ recent (f.look^[m] s).log, P v) ↔ ∃ l < m, P (f.status (s.statuses + l)) := by
  induction m with
  | zero =>
    rw [Function.iterate_zero_apply, fresh]
    simp
  | succ m ih =>
    rw [Function.iterate_succ_apply', look, recent, List.exists_mem_cons_iff, ih, statuses_looks]
    constructor
    · rintro (here | ⟨l, hl, before⟩)
      · exact ⟨m, Nat.lt_succ_self m, here⟩
      · exact ⟨l, Nat.lt_succ_of_lt hl, before⟩
    · rintro ⟨l, hl, shown⟩
      rcases Nat.lt_succ_iff_lt_or_eq.mp hl with hl | rfl
      · exact .inr ⟨l, hl, shown⟩
      · exact .inl shown

theorem passes_goesOn (n : Bool) (s : A20State) :
    @passes ops A20State (.inb 0x64) (goesOn n) (fun s => f.status s.statuses) f.look s =
      fun l => goesOn n (f.status (s.statuses + l)) := by
  funext l
  rw [passes, statuses_looks]

/-! ## Stages -/

/-- Between two accesses: nothing shown yet, the handshake kept, and this the last byte. -/
structure Fresh (d : Option UInt8) (s : A20State) : Prop where
  recent : recent s.log = []
  kept : Handshake s.log
  byte : lastByte s.log = d

/-- A wait, and what comes after it. -/
theorem always_wait {n : Bool} {k : Unit → Code α} {d : Option UInt8} (fresh : Fresh d s) :
    Always f.machine (fun s => Handshake s.log) ((a20KeyboardWait n).bind k) s ↔
      ∀ m, First (fun l => goesOn n (f.status (s.statuses + l))) m →
        Always f.machine (fun s => Handshake s.log) (k ()) (f.look^[m + 1] s) := by
  have node : (a20KeyboardWait n).bind k =
      .poll (S := ops) (.inb 0x64) (goesOn n) fun _ => k () := rfl
  rw [node, always_poll settles_status, passes_goesOn]
  exact and_iff_right fun m _ => (handshake_looks m s).mpr fresh.kept

/-- What a wait has shown. -/
theorem shown_iff {d : Option UInt8} (fresh : Fresh d s) (n : Bool) (m : Nat) :
    (∃ v ∈ recent (f.look^[m + 1] s).log, wanted n v) ↔
      ∃ l ≤ m, wanted n (f.status (s.statuses + l)) := by
  rw [recent_looks fresh.recent]
  simp only [Nat.lt_succ_iff]

/-- A wait and the access after it, which is decided by what the wait has shown. -/
theorem always_wait_vis {op : Op} {answer : A20State → op.Ans} {after : A20State → A20State}
    {n : Bool} {k : op.Ans → Code α} {d : Option UInt8} {ns : List Bool}
    (settles : Settles f.machine op answer after)
    (rest : ∀ t, Handshake t.log → lastByte t.log = d →
      (Always f.machine (fun s => Handshake s.log) (k (answer t)) (after t) ↔
        (∃ v ∈ recent t.log, wanted n v) ∧ f.Polite ns t.statuses))
    (fresh : Fresh d s) :
    Always f.machine (fun s => Handshake s.log)
        ((a20KeyboardWait n).bind fun _ => .vis (S := ops) op k) s ↔
      f.Polite (n :: ns) s.statuses := by
  rw [always_wait fresh, Polite]
  refine forall_congr' fun m => imp_congr_right fun _ => ?_
  have kept := (handshake_looks (f := f) (m + 1) s).mpr fresh.kept
  have byte := (lastByte_looks (f := f) (m + 1) s).trans fresh.byte
  rw [always_vis settles, and_iff_right kept, rest _ kept byte, shown_iff fresh, statuses_looks]
  exact Iff.rfl

/-- A wait for room and a write. -/
theorem always_wait_write {port : UInt16} {v : UInt8} {k : Unit → Code α} {d : Option UInt8}
    {ns : List Bool} (there : port = 0x64 ∨ port = 0x60)
    (right : port = 0x60 → ∃ a, d = some a ∧ SetsBit1 v a)
    (rest : ∀ t, Fresh d t →
      (Always f.machine (fun s => Handshake s.log) (k ()) t ↔ f.Polite ns t.statuses))
    (fresh : Fresh d s) :
    Always f.machine (fun s => Handshake s.log)
        ((a20KeyboardWait false).bind fun _ => .vis (S := ops) (.outb port v) k) s ↔
      f.Polite (false :: ns) s.statuses := by
  refine always_wait_vis (settles_write there v) (fun t kept byte => ?_) fresh
  have after : Handshake (f.write port v t).log ↔ ∃ v ∈ recent t.log, v &&& 2 = 0 := by
    have same : (port = 0x60 → ∃ a, lastByte t.log = some a ∧ SetsBit1 v a) := by
      rwa [byte]
    exact ⟨fun h => h.1, fun h => ⟨h, same, kept⟩⟩
  have next : Handshake (f.write port v t).log → Fresh d (f.write port v t) :=
    fun h => ⟨rfl, h, byte⟩
  constructor
  · intro always
    exact ⟨after.mp always.here, (rest _ (next always.here)).mp always⟩
  · rintro ⟨room, polite⟩
    exact (rest _ (next (after.mpr room))).mpr polite

/-- A wait for a byte and a read of it. -/
theorem always_wait_read {k : UInt8 → Code α} {d : Option UInt8} {ns : List Bool}
    (rest : ∀ v t, Fresh (some v) t →
      (Always f.machine (fun s => Handshake s.log) (k v) t ↔ f.Polite ns t.statuses))
    (fresh : Fresh d s) :
    Always f.machine (fun s => Handshake s.log)
        ((a20KeyboardWait true).bind fun _ => .vis (S := ops) (.inb 0x60) k) s ↔
      f.Polite (true :: ns) s.statuses := by
  refine always_wait_vis settles_data (fun t kept _ => ?_) fresh
  have next : Handshake (f.take t).log → Fresh (some (f.data t.bytes)) (f.take t) :=
    fun h => ⟨rfl, h, rfl⟩
  constructor
  · intro always
    exact ⟨always.here.1, (rest _ _ (next always.here)).mp always⟩
  · rintro ⟨byte, polite⟩
    exact (rest _ _ (next ⟨byte, kept⟩)).mpr polite

/-- A wait with nothing after it but the end. -/
theorem always_wait_end {n : Bool} {a : α} {d : Option UInt8} (fresh : Fresh d s) :
    Always f.machine (fun s => Handshake s.log) ((a20KeyboardWait n).bind fun _ => .pure a) s := by
  rw [always_wait fresh]
  intro m _
  exact always_pure.mpr ((handshake_looks (m + 1) s).mpr fresh.kept)

end A20Platform

/-! ## The law -/

/-- `a | 2` -/
theorem setsBit1_or (a : UInt8) : SetsBit1 (a ||| 2) a := by
  unfold SetsBit1
  exact forall_byte a (by decide +kernel)

/-- The waits of `a20_keyboard` that an access comes after. -/
def a20Waits : List Bool := [false, false, true, false, false, false]

/-- THE LAW of `a20_keyboard`: against every stream it keeps the handshake, in every state it
passes, exactly where each of its waits that ends has been shown what it waited for. -/
theorem a20Keyboard_handshake_iff (f : A20Platform) (gate : Bool) :
    Always f.machine (fun s => Handshake s.log) a20Keyboard { gate } ↔
      f.Polite a20Waits 0 := by
  have start : A20Platform.Fresh none { gate } := ⟨rfl, trivial, rfl⟩
  refine A20Platform.always_wait_write (.inl rfl) nofun (fun t fresh => ?_) start
  refine A20Platform.always_wait_write (.inl rfl) nofun (fun t fresh => ?_) fresh
  refine A20Platform.always_wait_read (fun a t fresh => ?_) fresh
  refine A20Platform.always_wait_write (.inl rfl) nofun (fun t fresh => ?_) fresh
  refine A20Platform.always_wait_write (.inr rfl) (fun _ => ⟨a, rfl, setsBit1_or a⟩)
    (fun t fresh => ?_) fresh
  refine A20Platform.always_wait_write (.inl rfl) nofun (fun t fresh => ?_) fresh
  exact iff_of_true (A20Platform.always_wait_end fresh) trivial

/-- A BIOS that answers as it should and a controller whose input buffer stays full. -/
def fullPlatform : A20Platform where
  sets := false
  answer gate := ⟨if gate then 1 else 0, 0, 0, 0, false⟩
  lawful gate := .inl (by cases gate <;> rfl)
  status _ := 2
  data _ := 0
  taken _ := false

theorem a20Keyboard_writes_unasked : ¬ ∀ (f : A20Platform) (gate : Bool),
    Always f.machine (fun s => Handshake s.log) a20Keyboard { gate } := by
  intro h
  have polite := (a20Keyboard_handshake_iff fullPlatform false).mp (h _ _)
  obtain ⟨⟨_, -, room⟩, -⟩ := polite 0 (first_zero.mpr (by decide))
  exact absurd (show (2 : UInt8) &&& 2 = 0 from room) (by decide)

end ToyBootloader
