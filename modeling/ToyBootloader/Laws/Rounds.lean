import ToyBootloader.Irq
import ToyBootloader.Laws.Conversion
import ToyBootloader.Laws.CopyWrites
import ToyBootloader.Laws.Geometry
import ToyBootloader.Laws.Outcomes

/-!
# What the rounds of a copy come to

A round of `fpy_copy_bytes` is a SEEK, a READ and its result, and the two streams of the
controller say from the place on at which it starts whether it fails. A copy fails where
one of its rounds does, and the places follow each other.

The arrays are those of the round's own sector, in the geometry the globals hold.
-/

namespace ToyBootloader

open Resumption Code

/-! ## The globals and the controller -/

/-- The globals hold what was last assigned to them. The interrupt's is not among them, and
everything else answers anything. -/
def Globals.held : Machine ops Globals := fun s op =>
  match op with
  | .get v => fun x s' => s' = s ∧ (v ≠ .fpyIrqHandleState → x = s v)
  | .set v x => fun _ s' =>
    s' = if v = .fpyIrqHandleState then s else fun w => if w = v then x else s w
  | _ => fun _ s' => s' = s

namespace Feed

/-- The globals, and the traffic with the controller of `f`. -/
abbrev session (f : Feed) : Machine ops (Traffic × Globals) := both f.device Globals.held

variable {f : Feed} {g : Globals} {t : Traffic} {c : Traffic × Globals}

/-- What talks to the controller only does so here as it does alone. -/
theorem exec_session {α : Type} {p : Code α} (talks : Talks p) {a : α} :
    Exec f.session p (t, g) a c ↔ Exec f.machine p t a c.1 ∧ c.2 = g := by
  apply exec_beside ?_ talks
  intro t g op x c hop
  refine and_congr_right fun _ => ?_
  cases op with
  | inb port | outb port b | mark e => exact Iff.rfl
  | _ => cases hop

/-- Operations that leave both alone. -/
def isIdle : Op → Prop
  | .inb _ | .outb _ _ => False
  | .set v _ => v = .fpyIrqHandleState
  | _ => True

theorem eq_of_idle {α : Type} {p : Code α} (idle : Only isIdle p) {a : α} {c' : Traffic × Globals}
    (run : Exec f.session p c a c') : c' = c := by
  have walk : Follows f.session (fun _ _ => True) p (fun _ c' => c' = c) c := by
    refine idle.follows (fun _ _ _ _ => trivial) ?_ rfl
    rintro c₁ op x c₂ hop rfl ⟨ht, hg⟩
    cases op with
    | inb port | outb port b => cases hop
    | get v => exact Prod.ext ht hg.1
    | set v x => exact Prod.ext ht ((show c₂.2 = _ from hg).trans (if_pos hop))
    | _ => exact Prod.ext ht hg
  exact walk.exec run

/-! ## A sector's commands -/

/-- The address of a sector, in the geometry of the globals. -/
def chsOf (g : Globals) (sector : UInt8) : Chs :=
  let heads := (g .maxHeadNumber).toUInt32
  let sectors := (g .maxSectorNumber).toUInt32
  ⟨sector.toUInt32 / (heads * sectors), sector.toUInt32 / sectors % heads,
    sector.toUInt32 % sectors + 1⟩

/-- The array of its SEEK. -/
def seekOf (g : Globals) (sector : UInt8) : List UInt8 :=
  FpyCmdSeekHeadParams.cmd ⟨g .driveNumber, (chsOf g sector).h.toUInt8, (chsOf g sector).c.toUInt8⟩

/-- The array of its READ. -/
def readOf (g : Globals) (sector : UInt8) : List UInt8 :=
  (copyParams (g .driveNumber) (g .maxSectorNumber) (chsOf g sector)).cmd .readSect

theorem readsGeometry_session (f : Feed) (c : Traffic × Globals) :
    ReadsGeometry f.session (c.2 .maxHeadNumber) (c.2 .maxSectorNumber) c := by
  have reads : ∀ {v : Var}, v ≠ .fpyIrqHandleState → ∀ {x c'},
      f.session c (.get v) x c' ↔ x = c.2 v ∧ c' = c := by
    intro v hv x c'
    constructor
    · rintro ⟨ht, hg, hx⟩
      exact ⟨hx hv, Prod.ext ht hg⟩
    · rintro ⟨rfl, rfl⟩
      exact ⟨rfl, rfl, fun _ => rfl⟩
  exact ⟨reads (by decide), reads (by decide)⟩

/-- A global read. -/
theorem exec_get {α : Type} {v : Var} (hv : v ≠ .fpyIrqHandleState) {k : UInt8 → Code α} {a : α}
    {c' : Traffic × Globals} (run : Exec f.session ((Code.get v).bind k) c a c') :
    Exec f.session (k (c.2 v)) c a c' := by
  obtain ⟨x, c₁, ⟨ht, hg, hx⟩, rest⟩ := exec_vis.mp run
  obtain rfl : c₁ = c := Prod.ext ht hg
  rw [← hx hv]
  exact rest

/-- A sector's address. A geometry without heads or sectors is divided by, and nothing comes
of it. -/
theorem exec_chsOf {sector : UInt8} {a : Chs} {c' : Traffic × Globals}
    (run : Exec f.session (lbaToChs sector.toUInt32) c a c') : a = chsOf c.2 sector ∧ c' = c := by
  have reads := readsGeometry_session f c
  obtain ⟨hh, hs⟩ := reads.ne_zero_of_exec run
  exact (reads.exec_lbaToChs hh hs).mp run

/-! ## A round -/

/-- From these places on the sector's READ is not sent, or a status byte of its result does not
pass. -/
def ReadFails (f : Feed) (g : Globals) (sector : UInt8) (n k : Nat) : Prop :=
  (∃ n', f.SendFails (readOf g sector) n n') ∨
    ∃ n₁, f.SendGoes true (readOf g sector) n n₁ ∧ ¬ f.Verdicts true statusChecks n₁ k

/-- From these places on it is sent, the status bytes pass, and the result ends at those. -/
def ReadGoes (f : Feed) (g : Globals) (sector : UInt8) (n k n' k' : Nat) : Prop :=
  ∃ n₁, f.SendGoes true (readOf g sector) n n₁ ∧ f.Verdicts true statusChecks n₁ k ∧
    f.Reads 7 n₁ k n' k'

/-- From these places on the round's SEEK is not sent, or its READ fails. -/
def RoundFails (f : Feed) (g : Globals) (sector : UInt8) (n k : Nat) : Prop :=
  (∃ n', f.SendFails (seekOf g sector) n n') ∨
    ∃ n₁, f.SendGoes true (seekOf g sector) n n₁ ∧ f.ReadFails g sector n₁ k

/-- From these places on the SEEK is sent, and the READ goes. -/
def RoundGoes (f : Feed) (g : Globals) (sector : UInt8) (n k n' k' : Nat) : Prop :=
  ∃ n₁, f.SendGoes true (seekOf g sector) n n₁ ∧ f.ReadGoes g sector n₁ k n' k'

/-- What passed in a round that goes: the two arrays were written, and a result was read whose
status bytes pass. -/
def SectorRead (g : Globals) (sector : UInt8) (passed : List Item) : Prop :=
  written passed = seekOf g sector ++ readOf g sector ∧ StatusPasses (readBytes passed)

theorem SendGoes.unique {cmd : List UInt8} {wait : Bool} {n a b : Nat} (h : f.SendGoes wait cmd n a)
    (h' : f.SendGoes wait cmd n b) : a = b := by
  obtain ⟨s, run, rfl⟩ := exec_of_sendGoes (s := { statuses := n }) h
  obtain ⟨s', run', rfl⟩ := exec_of_sendGoes (s := { statuses := n }) h'
  rw [(run'.deterministic Simulator.machine_deterministic run).2]

theorem SendGoes.not_fails {cmd : List UInt8} {wait : Bool} {n a b : Nat}
    (h : f.SendGoes wait cmd n a) : ¬ f.SendFails cmd n b := by
  intro fails
  obtain ⟨s, run, -⟩ := exec_of_sendGoes (s := { statuses := n }) h
  exact failed_of_sendFails (s := { statuses := n }) fails run rfl

theorem Reads.unique {c n k n₁ k₁ n₂ k₂ : Nat} (h : f.Reads c n k n₁ k₁)
    (h' : f.Reads c n k n₂ k₂) : n₁ = n₂ ∧ k₁ = k₂ := by
  induction c generalizing n k with
  | zero => exact ⟨h.1.trans h'.1.symm, h.2.trans h'.2.symm⟩
  | succ c ih =>
    obtain ⟨v, a, b, answers, rest⟩ := h
    obtain ⟨v', a', b', answers', rest'⟩ := h'
    obtain ⟨-, rfl, rfl⟩ := answers.unique answers'
    exact ih rest rest'

theorem ReadGoes.unique {sector : UInt8} {n k n₁ k₁ n₂ k₂ : Nat}
    (h : f.ReadGoes g sector n k n₁ k₁) (h' : f.ReadGoes g sector n k n₂ k₂) :
    n₁ = n₂ ∧ k₁ = k₂ := by
  obtain ⟨a, read, -, reads⟩ := h
  obtain ⟨a', read', -, reads'⟩ := h'
  obtain rfl := read.unique read'
  exact reads.unique reads'

theorem ReadGoes.not_fails {sector : UInt8} {n k n' k' : Nat} (h : f.ReadGoes g sector n k n' k') :
    ¬ f.ReadFails g sector n k := by
  obtain ⟨a, read, verdict, -⟩ := h
  rintro (⟨m, fails⟩ | ⟨a', read', refused⟩)
  · exact read.not_fails fails
  · obtain rfl := read.unique read'
    exact refused verdict

theorem RoundGoes.unique {sector : UInt8} {n k n₁ k₁ n₂ k₂ : Nat}
    (h : f.RoundGoes g sector n k n₁ k₁) (h' : f.RoundGoes g sector n k n₂ k₂) :
    n₁ = n₂ ∧ k₁ = k₂ := by
  obtain ⟨a, seek, read⟩ := h
  obtain ⟨a', seek', read'⟩ := h'
  obtain rfl := seek.unique seek'
  exact read.unique read'

theorem RoundGoes.not_fails {sector : UInt8} {n k n' k' : Nat}
    (h : f.RoundGoes g sector n k n' k') : ¬ f.RoundFails g sector n k := by
  obtain ⟨a, seek, read⟩ := h
  rintro (⟨m, fails⟩ | ⟨a', seek', fails⟩)
  · exact seek.not_fails fails
  · obtain rfl := seek.unique seek'
    exact read.not_fails fails

/-- The traffic only grows. -/
theorem log_grows {α : Type} {p : Code α} {a : α} {s s' : Traffic} (run : Exec f.device p s a s') :
    ∃ passed, s'.log = passed ++ s.log := by
  have walk : Follows f.device (fun _ _ => True) p (fun _ s' => ∃ passed, s'.log = passed ++ s.log)
      s := by
    refine follows_inv (I := fun s' : Traffic => ∃ passed, s'.log = passed ++ s.log) ?_ p ⟨[], rfl⟩
    rintro t op x t' ⟨passed, ht⟩ hm
    cases op with
    | inb port =>
      simp only [device] at hm
      split at hm
      · exact ⟨.status _ :: passed, by rw [hm.2, look, ht]; rfl⟩
      · split at hm
        · exact ⟨.data _ :: passed, by rw [hm.2, take, ht]; rfl⟩
        · exact ⟨passed, by rw [hm, ht]⟩
    | outb port b =>
      simp only [device] at hm
      split at hm
      · exact ⟨.write b :: passed, by rw [hm, put, ht]; rfl⟩
      · exact ⟨passed, by rw [hm, ht]⟩
    | _ => exact ⟨passed, by rw [show t' = t from hm, ht]⟩
  exact walk.exec run

theorem idle_fpyWaitIrq : Only isIdle fpyWaitIrq :=
  wait_fpyWaitIrq.mono fun op hop => by
    cases op with
    | received | testReceived | setReceived r => trivial
    | _ => cases hop

/-- The READ of a sector that is over has failed, or it was written, and a result read whose
status bytes pass. -/
theorem read_of_exec {sector : UInt8} {res : FpyCmdReadtrackRes} {c' : Traffic × Globals}
    (run : Exec f.session (fpyCmdReadSector (copyParams (c.2 .driveNumber) (c.2 .maxSectorNumber)
      (chsOf c.2 sector))) c res c') : c'.2 = c.2 ∧
    (res.error ≠ noErr ∧ f.ReadFails c.2 sector c.1.statuses c.1.bytes ∨
      res.error = noErr ∧ f.ReadGoes c.2 sector c.1.statuses c.1.bytes c'.1.statuses c'.1.bytes ∧
        written c'.1.log = written c.1.log ++ readOf c.2 sector ∧
        ∃ bytes, StatusPasses bytes ∧ readBytes c'.1.log = readBytes c.1.log ++ bytes) := by
  obtain ⟨t, g⟩ := c
  obtain ⟨_, c₁, prepare, run⟩ := exec_bind.mp run
  obtain rfl := eq_of_idle (p := fpyPrepareIrqNoHandle) ⟨rfl, fun _ => trivial⟩ prepare
  obtain ⟨e, ⟨t₂, g₂⟩, send, run⟩ := exec_bind.mp run
  obtain ⟨send, hg⟩ := (exec_session (talks_fpySendCommand (readOf g sector) true)).mp send
  obtain rfl : g₂ = g := hg
  cases e with
  | some err =>
    obtain ⟨rfl, rfl⟩ := exec_pure.mp run
    exact ⟨rfl, .inl ⟨Option.some_ne_none err, .inl ⟨_, (sendFails_of_exec send).1⟩⟩⟩
  | none =>
    obtain ⟨goes, hbytes⟩ := sendGoes_of_exec send
    obtain ⟨hwritten, hread⟩ := log_of_exec send
    obtain ⟨_, c₃, wait, run⟩ := exec_bind.mp run
    obtain rfl := eq_of_idle idle_fpyWaitIrq wait
    obtain ⟨result, hg⟩ := (exec_session talks_fpyCmdGenRes).mp run
    have verdict := genRes_verdict result
    rw [hbytes] at verdict
    by_cases herr : res.error = noErr
    · obtain ⟨reads, hquiet, bytes, passes, hlog⟩ := genRes_reads result herr
      rw [hbytes] at reads
      refine ⟨hg, .inr ⟨herr, ⟨_, goes, verdict.mp herr, reads⟩, ?_, bytes, passes, ?_⟩⟩
      · exact hquiet.trans hwritten
      · rw [← hread]
        exact hlog
    · exact ⟨hg, .inl ⟨herr, .inr ⟨_, goes, fun passes => herr (verdict.mpr passes)⟩⟩⟩

/-- A round that is over has failed, or has gone and left the reads of its sector. -/
theorem round_of_exec {sector : UInt8} {e : ErrT} {c' : Traffic × Globals}
    (run : Exec f.session (readOneSector sector) c e c') : c'.2 = c.2 ∧
      (e ≠ noErr ∧ f.RoundFails c.2 sector c.1.statuses c.1.bytes ∨
        e = noErr ∧ f.RoundGoes c.2 sector c.1.statuses c.1.bytes c'.1.statuses c'.1.bytes ∧
          ∃ passed, c'.1.log = passed ++ c.1.log ∧ SectorRead c.2 sector passed) := by
  obtain ⟨passed, grown⟩ := log_grows run.left
  obtain ⟨t, g⟩ := c
  obtain ⟨a, c₁, address, run⟩ := exec_bind.mp run
  obtain ⟨rfl, rfl⟩ := exec_chsOf address
  have run := exec_get (by decide) run
  obtain ⟨e₁, ⟨t₁, g₁⟩, seek, run⟩ := exec_bind.mp run
  obtain ⟨seek, hg⟩ := (exec_session (talks_fpySendCommand (seekOf g sector) true)).mp seek
  obtain rfl : g₁ = g := hg
  cases e₁ with
  | some err =>
    obtain ⟨rfl, rfl⟩ := exec_pure.mp run
    exact ⟨rfl, .inl ⟨Option.some_ne_none err, .inl ⟨_, (sendFails_of_exec seek).1⟩⟩⟩
  | none =>
    obtain ⟨sought, hbytes⟩ := sendGoes_of_exec seek
    obtain ⟨hwritten, hread⟩ := log_of_exec seek
    have run := exec_get (by decide) (exec_get (by decide) run)
    obtain ⟨res, c₂, reading, run⟩ := exec_bind.mp run
    obtain ⟨rfl, rfl⟩ := exec_pure.mp run
    obtain ⟨hg, ⟨herr, fails⟩ | ⟨herr, goes, hwritten', bytes, passes, hread'⟩⟩ :=
      read_of_exec reading
    · exact ⟨hg, .inl ⟨herr, .inr ⟨_, sought, hbytes ▸ fails⟩⟩⟩
    · refine ⟨hg, .inr ⟨herr, ⟨_, sought, hbytes ▸ goes⟩, passed, grown, ?_, ?_⟩⟩
      · rw [grown, written_append, hwritten, List.append_assoc] at hwritten'
        exact List.append_cancel_left hwritten'
      · rw [grown, readBytes_append, hread] at hread'
        rw [List.append_cancel_left hread']
        exact passes

/-! ## A copy -/

/-- From these places on one of the copy's rounds, of which so many are left, fails. -/
def CopyFails (f : Feed) (g : Globals) : (sector : UInt8) → (rounds n k : Nat) → Prop
  | _, 0, _, _ => False
  | sector, r + 1, n, k => f.RoundFails g sector n k ∨
    ∃ n' k', f.RoundGoes g sector n k n' k' ∧ f.CopyFails g (sector + 1) r n' k'

/-- Every sector of a copy was read, one after the other: what passed, the newest first. -/
def SectorsRead (g : Globals) : (sector : UInt8) → (rounds : Nat) → (log earlier : List Item) → Prop
  | _, 0, log, earlier => log = earlier
  | sector, r + 1, log, earlier => ∃ passed, SectorRead g sector passed ∧
    SectorsRead g (sector + 1) r log (passed ++ earlier)

theorem idle_copySector (dest n i : Nat) : Only isIdle (copySector dest n i) :=
  only_copySector (fun _ => trivial) n i fun _ _ _ _ => trivial

/-- A copy comes back with an error exactly when the streams make a round fail, and otherwise
it has read its sectors. -/
theorem copy_of_exec {sector : UInt8} {dest : Nat} {count : Int} {e : ErrT} {c' : Traffic × Globals}
    (run : Exec f.session (fpyCopyBytesLoop sector dest count) c e c') : c'.2 = c.2 ∧
      (e ≠ noErr ↔ f.CopyFails c.2 sector (roundCount count) c.1.statuses c.1.bytes) ∧
      (e = noErr → SectorsRead c.2 sector (roundCount count) c'.1.log c.1.log) := by
  induction sector, dest, count using fpyCopyBytesLoop.induct generalizing c with
  | case1 sector dest count hpos ih =>
    rw [fpyCopyBytesLoop, if_pos hpos] at run
    rw [roundCount_pos hpos]
    obtain ⟨e₁, c₁, round, run⟩ := exec_bind.mp run
    obtain ⟨hg, ⟨hfailed, fails⟩ | ⟨rfl, goes, passed, hlog, read⟩⟩ := round_of_exec round
    · cases e₁ with
      | none => exact absurd rfl hfailed
      | some err =>
        obtain ⟨rfl, rfl⟩ := exec_pure.mp run
        exact ⟨hg, iff_of_true hfailed (.inl fails), fun h => absurd h hfailed⟩
    · obtain ⟨_, c₂, copy, rest⟩ := exec_bind.mp run
      obtain rfl := eq_of_idle (idle_copySector dest _ 0) copy
      obtain ⟨hg', hfails, hreads⟩ := ih rest
      rw [hg] at hfails hreads hg'
      refine ⟨hg', hfails.trans ⟨fun later => .inr ⟨_, _, goes, later⟩, ?_⟩, ?_⟩
      · rintro (fails | ⟨n', k', goes', later⟩)
        · exact absurd fails goes.not_fails
        · obtain ⟨rfl, rfl⟩ := goes.unique goes'
          exact later
      · intro he
        rw [hlog] at hreads
        exact ⟨passed, read, hreads he⟩
  | case2 sector dest count hpos =>
    rw [fpyCopyBytesLoop, if_neg hpos] at run
    obtain ⟨rfl, rfl⟩ := exec_pure.mp run
    have none : roundCount count = 0 := by
      unfold roundCount
      omega
    rw [none]
    exact ⟨rfl, iff_of_false (fun h => h rfl) id, fun _ => rfl⟩

end Feed

/-! ## A controller for computed runs -/

/-- What the streams answer to a port read. -/
def Feed.answer (f : Feed) (t : Traffic) (port : UInt16) : UInt8 :=
  if port = FPY_MSR then f.status t.statuses
  else if port = FPY_FIFO then f.data t.bytes
  else 0

/-- What an operation leaves of the traffic. -/
def Feed.after (f : Feed) (t : Traffic) : Op → Traffic
  | .inb port => if port = FPY_MSR then f.look t else if port = FPY_FIFO then f.take t else t
  | .outb port b => if port = FPY_FIFO then put b t else t
  | _ => t

theorem Feed.device_of_sim {f : Feed} {t : Traffic} {bios : Regs16 → Regs16} {value : Var → UInt8}
    {s : IrqVars} {op : Op} {r : op.Ans × IrqVars}
    (h : IrqVars.sim (f.answer t) bios value s op = some r) : f.device t op r.1 (f.after t op) := by
  cases op with
  | inb port =>
    cases h
    simp only [device, answer, after]
    split
    · exact ⟨rfl, rfl⟩
    · split
      · exact ⟨rfl, rfl⟩
      · rfl
  | _ => rfl

/-- What an operation leaves of the globals. -/
def Globals.after (g : Globals) : Op → Globals
  | .set v x => if v = .fpyIrqHandleState then g else fun w => if w = v then x else g w
  | _ => g

theorem Globals.held_of_sim {g : Globals} {port : UInt16 → UInt8} {bios : Regs16 → Regs16}
    {s : IrqVars} {op : Op} {r : op.Ans × IrqVars}
    (h : IrqVars.sim port bios g s op = some r) : Globals.held g op r.1 (g.after op) := by
  cases op with
  | get v =>
    cases h
    exact ⟨rfl, fun hv => if_neg hv⟩
  | _ => rfl

/-- A controller that is always ready, and whose FIFO reads `x`. -/
def Feed.steady (x : UInt8) : Feed := ⟨fun _ => 0x80, fun _ => x⟩

end ToyBootloader
