import ToyBootloader.Laws.Results
import ToyBootloader.Resumption.Frame
import ToyBootloader.Resumption.Trace

/-!
# What a copy writes

`fpy_copy_bytes` as the trace of what it does: the commands it issues, the errors
they come back with, and the bytes it stores. Every device is meant, and the
interrupt handler anywhere: an operation may be answered anything.

The trace of a copy is its rounds, one after the other, and the rounds are a
function of the destination and the count (`rounds`). A round that fails is cut
after the command that failed, and is the last. Everything about which bytes are
written, how often and in which order is read off that one shape.

The driver's globals are objects here and not bytes of memory, so a destination
never meets them.
-/

namespace ToyBootloader

open Resumption Code

/-! ## Traces -/

/-- What a copy does that matters to its caller. -/
inductive CopyEvent where
  /-- A command is sent, by its first byte. -/
  | issue (opcode : UInt8)
  /-- A command comes back with an error: its send's, or a status check's. -/
  | fail (err : String)
  /-- A byte is stored. -/
  | write (addr : Nat)
  deriving DecidableEq, Repr

/-- The events of an operation. -/
def Op.events : Op → List CopyEvent
  | .mark (.send cmd) => [.issue (cmd.headD 0)]
  | .mark (.sent (some e)) => [.fail e]
  | .mark (.checked (some e)) => [.fail e]
  | .store a _ => [.write a]
  | _ => []

/-- Any device; what happened so far is recorded, in order. -/
abbrev tracing : Machine ops (List CopyEvent) := Traced Op.events

/-- The addresses stored to. -/
def writes (t : List CopyEvent) : List Nat :=
  t.filterMap fun
    | .write a => some a
    | _ => none

/-- The commands issued. -/
def issued (t : List CopyEvent) : List UInt8 :=
  t.filterMap fun
    | .issue op => some op
    | _ => none

/-- The errors met. -/
def errors (t : List CopyEvent) : List String :=
  t.filterMap fun
    | .fail e => some e
    | _ => none

/-! Each of the three is read off a trace piece by piece. -/

@[simp] theorem writes_append (t u : List CopyEvent) : writes (t ++ u) = writes t ++ writes u :=
  List.filterMap_append

@[simp] theorem issued_append (t u : List CopyEvent) : issued (t ++ u) = issued t ++ issued u :=
  List.filterMap_append

@[simp] theorem errors_append (t u : List CopyEvent) : errors (t ++ u) = errors t ++ errors u :=
  List.filterMap_append

theorem stored_map (as : List Nat) : writes (as.map .write) = as ∧ issued (as.map .write) = [] ∧
    errors (as.map .write) = [] := by
  induction as with
  | nil => exact ⟨rfl, rfl, rfl⟩
  | cons a as ih =>
    obtain ⟨hw, hi, he⟩ := ih
    exact ⟨congrArg (a :: ·) hw, hi, he⟩

/-! ## The rounds -/

/-- The first byte of the READ a copy issues. -/
def copyRead : UInt8 :=
  FpyCmd.readSect.val ||| FPY_CMD_EXT_DENSITY ||| FPY_CMD_EXT_MULTITRACK

/-- The commands of one round. -/
def seekRead : List CopyEvent := [.issue FpyCmd.seek.val, .issue copyRead]

/-- The first `k` rounds of a copy, each complete. -/
def rounds (dest : Nat) (count : Int) : Nat → List CopyEvent
  | 0 => []
  | k + 1 => seekRead ++ (List.range' dest (copyCount count)).map .write
      ++ rounds (dest + 0x200) (count - 0x200) k

/-- How many rounds a copy has: `max(count, 0) / 512`, rounded up. -/
def roundCount (count : Int) : Nat := (count.toNat + 0x1FF) / 0x200

/-- The commands of `k` rounds. -/
def pairs (k : Nat) : List UInt8 := (List.replicate k [FpyCmd.seek.val, copyRead]).flatten

theorem copyCount_eq (count : Int) : copyCount count = min 0x200 count.toNat := by
  unfold copyCount
  split <;> omega

theorem pairs_succ (k : Nat) : pairs (k + 1) = issued seekRead ++ pairs k := by
  unfold pairs
  rw [List.replicate_succ, List.flatten_cons]
  rfl

theorem issued_rounds (dest : Nat) (count : Int) (k : Nat) :
    issued (rounds dest count k) = pairs k := by
  induction k generalizing dest count with
  | zero => rfl
  | succ k ih =>
    rw [rounds, issued_append, issued_append, ih, (stored_map _).2.1, List.append_nil, pairs_succ]

theorem errors_rounds (dest : Nat) (count : Int) (k : Nat) : errors (rounds dest count k) = [] := by
  induction k generalizing dest count with
  | zero => rfl
  | succ k ih =>
    rw [rounds, errors_append, errors_append, ih, (stored_map _).2.2]
    rfl

/-- The rounds store the destination from its start on, byte after byte. -/
theorem writes_rounds (dest : Nat) (count : Int) (k : Nat) :
    writes (rounds dest count k) = List.range' dest (min (0x200 * k) count.toNat) := by
  induction k generalizing dest count with
  | zero => rw [Nat.mul_zero, Nat.zero_min]; rfl
  | succ k ih =>
    rw [rounds, writes_append, writes_append, ih, (stored_map _).1]
    change [] ++ _ ++ _ = _
    rw [List.nil_append]
    rcases Nat.le_or_le count.toNat 0x200 with small | full
    · have none : min (0x200 * k) (count - 0x200).toNat = 0 := by omega
      rw [none, copyCount_eq, List.range'_zero, List.append_nil]
      congr 1
      omega
    · rw [copyCount_eq, Nat.min_eq_left full, List.range'_append_1]
      congr 1
      omega

/-! ## What a part of the copy emits -/

theorem events_of_port {op : Op} (h : op.isPort) : op.events = [] := by
  cases op with
  | mark e | store b x => cases h
  | _ => rfl

theorem events_of_wait {op : Op} (h : op.isWait) : op.events = [] := by
  cases op with
  | mark e | store b x => cases h
  | _ => rfl

theorem events_of_arith {op : Op} (h : op.isArith) : op.events = [] := by
  cases op with
  | mark e | store b x => cases h
  | _ => rfl

/-- The event of an error, where there is one. -/
def failed : ErrT → List CopyEvent
  | some e => [.fail e]
  | none => []

theorem emits_checked (e : ErrT) : Emits Op.events (checked e) fun e' u => e' = e ∧ u = failed e := by
  apply emits_vis
  intro _
  apply emits_pure
  cases e <;> exact ⟨rfl, rfl⟩

/-- A command is issued, and fails or does not. -/
theorem emits_fpySendCommand (b : UInt8) (bs : List UInt8) (wait : Bool) :
    Emits Op.events (fpySendCommand (b :: bs) wait) fun e u => u = .issue b :: failed e := by
  apply emits_vis
  intro _
  apply Emits.after ((port_fpySendCommandBody (b :: bs) wait).mono fun _ => events_of_port)
  intro e
  apply emits_vis
  intro _
  apply emits_pure
  cases e <;> rfl

/-- A status byte read and checked. -/
theorem emits_readChecked {α : Type} {check : UInt8 → ErrT} {bad : String → UInt8 → α}
    {next : UInt8 → Code α} (err : α → ErrT) (hbad : ∀ m v, err (bad m v) = some m)
    (hnext : ∀ v, Emits Op.events (next v) fun a u => u = failed (err a)) :
    Emits Op.events (Feed.readChecked check bad next) fun a u => u = failed (err a) := by
  apply Emits.after (port_fpyReadData.mono fun _ => events_of_port)
  intro v
  apply (emits_checked _).bind
  rintro e _ ⟨rfl, rfl⟩
  cases check v with
  | some m =>
    apply emits_pure
    rw [hbad]
    rfl
  | none => exact hnext v

theorem emits_fpyCmdGenRes : Emits Op.events fpyCmdGenRes fun res u => u = failed res.error := by
  have rest : ∀ k, Only (S := ops) (fun op : Op => op.events = []) (Feed.readAll k) := fun k =>
    (Feed.input_readAll k).mono fun _ h => events_of_port h.isPort
  rw [Feed.fpyCmdGenRes_eq]
  apply emits_readChecked FpyCmdReadtrackRes.error fun _ _ => rfl
  intro st0
  apply emits_readChecked FpyCmdReadtrackRes.error fun _ _ => rfl
  intro st1
  apply emits_readChecked FpyCmdReadtrackRes.error fun _ _ => rfl
  intro st2
  apply Emits.after (rest 4)
  intro vs
  exact emits_pure rfl

/-- The commands a round gets to, with its result. -/
def RoundTrace : ErrT → List CopyEvent → Prop
  | none, u => u = seekRead
  | some e, u => u = [.issue FpyCmd.seek.val, .fail e] ∨ u = seekRead ++ [.fail e]

/-- The array of the READ begins with that byte. -/
theorem cmd_copyParams (drive trackLength : UInt8) (a : Chs) :
    ∃ rest, (copyParams drive trackLength a).cmd .readSect = copyRead :: rest := by
  have opcode : FpyCmd.readSect.val ||| ext true FPY_CMD_EXT_DENSITY
      ||| ext true FPY_CMD_EXT_MULTITRACK ||| ext false FPY_CMD_EXT_SKIP = copyRead := by decide
  exact ⟨_, congrArg (List.cons · _) opcode⟩

theorem emits_readOneSector (sector : UInt8) : Emits Op.events (readOneSector sector) RoundTrace := by
  have quiet : ∀ v, Only (S := ops) (fun op : Op => op.events = []) (get v) := fun v =>
    ⟨rfl, fun _ => trivial⟩
  have prepare : Only (S := ops) (fun op : Op => op.events = []) fpyPrepareIrqNoHandle :=
    ⟨rfl, fun _ => trivial⟩
  apply Emits.after ((arith_lbaToChs _).mono fun _ => events_of_arith)
  intro a
  apply Emits.after (quiet .driveNumber)
  intro drive
  apply (emits_fpySendCommand _ _ _).bind
  rintro e _ rfl
  cases e with
  | some e => exact emits_pure (.inl rfl)
  | none =>
    apply Emits.after (quiet .driveNumber)
    intro drive
    apply Emits.after (quiet .maxSectorNumber)
    intro trackLength
    have read : Emits Op.events (fpyCmdReadSector (copyParams drive trackLength a)) fun res u =>
        u = .issue copyRead :: failed res.error := by
      apply Emits.after prepare
      intro _
      obtain ⟨rest, hcmd⟩ := cmd_copyParams drive trackLength a
      rw [hcmd]
      apply (emits_fpySendCommand _ _ _).bind
      rintro e _ rfl
      cases e with
      | some e => exact emits_pure rfl
      | none =>
        apply Emits.after (wait_fpyWaitIrq.mono fun _ => events_of_wait)
        intro _
        apply emits_fpyCmdGenRes.mono
        rintro res _ rfl
        rfl
    apply read.bind
    rintro res _ rfl
    apply emits_pure
    cases res.error with
    | some e => exact .inr rfl
    | none => rfl

theorem emits_copySector (dest : Nat) (n i : Nat) : Emits Op.events (copySector dest n i) fun _ u =>
    u = (List.range' (dest + i) n).map .write := by
  induction n generalizing i with
  | zero => exact emits_pure rfl
  | succ n ih =>
    apply emits_vis
    intro b
    apply emits_vis
    intro _
    apply (ih (i + 1)).mono
    rintro _ _ rfl
    rfl

/-- The trace of a whole copy, by what it returns: all the rounds, or those before
the one that failed and what that one got to. -/
def CopyTrace (dest : Nat) (count : Int) : ErrT → List CopyEvent → Prop
  | none, u => u = rounds dest count (roundCount count)
  | some e, u => ∃ k < roundCount count, ∃ last, RoundTrace (some e) last ∧
      u = rounds dest count k ++ last

theorem roundCount_pos {count : Int} (h : count > 0) :
    roundCount count = roundCount (count - 0x200) + 1 := by
  unfold roundCount
  omega

theorem emits_fpyCopyBytesLoop (sector : UInt8) (dest : Nat) (count : Int) :
    Emits Op.events (fpyCopyBytesLoop sector dest count) (CopyTrace dest count) := by
  induction sector, dest, count using fpyCopyBytesLoop.induct with
  | case1 sector dest count hpos ih =>
    rw [fpyCopyBytesLoop, if_pos hpos]
    apply (emits_readOneSector sector).bind
    intro e u hu
    cases e with
    | some e =>
      apply emits_pure
      refine ⟨0, ?_, u, hu, List.append_nil u⟩
      rw [roundCount_pos hpos]
      exact Nat.succ_pos _
    | none =>
      obtain rfl := hu
      apply (emits_copySector dest _ 0).bind
      rintro _ _ rfl
      apply ih.mono
      intro e u hu
      cases e with
      | none =>
        obtain rfl := hu
        change _ = rounds dest count (roundCount count)
        rw [roundCount_pos hpos, rounds, List.append_assoc]
        rfl
      | some e =>
        obtain ⟨k, hk, last, hlast, rfl⟩ := hu
        refine ⟨k + 1, ?_, last, hlast, ?_⟩
        · rw [roundCount_pos hpos]
          exact Nat.succ_lt_succ hk
        · rw [rounds, List.append_assoc, List.append_assoc]
          rfl
  | case2 sector dest count hpos =>
    rw [fpyCopyBytesLoop, if_neg hpos]
    apply emits_pure
    have none : roundCount count = 0 := by
      unfold roundCount
      omega
    change [] = rounds dest count (roundCount count)
    rw [none]
    rfl

/-- THE TRACE of a copy, for every device. -/
theorem emits_fpyCopyBytes (sector : UInt8) (dest : Nat) (count : Int) :
    Emits Op.events (fpyCopyBytes sector dest count) (CopyTrace dest count) := by
  apply (emits_fpyCopyBytesLoop sector dest count).bind
  intro e u hu
  apply emits_vis
  intro _
  apply emits_pure
  rw [show (Op.mark (.copied e)).events = [] from rfl, List.append_nil, List.append_nil]
  exact hu

/-! ## On the way -/

/-- The bytes stored so far are the first of a destination of `size` bytes, in
order. -/
def StoredSoFar (dest size : Nat) (t : List CopyEvent) : Prop :=
  ∃ n ≤ size, writes t = List.range' dest n

/-- A walk that keeps it. -/
abbrev KeepsStored {α : Type} (dest size : Nat) (p : Code α) (Q : α → List CopyEvent → Prop)
    (t : List CopyEvent) : Prop :=
  Follows tracing (fun t _ => StoredSoFar dest size t) p Q t

section OnTheWay

variable {α : Type} {dest size n : Nat} {t : List CopyEvent}

/-- Code that stores nothing leaves the bytes stored as they are. -/
theorem stored_of_storesNone {p : Code α} (h : Only (Op.storesIn 0 0) p) (hn : n ≤ size)
    (ht : writes t = List.range' dest n) :
    KeepsStored dest size p (fun _ t' => writes t' = List.range' dest n) t := by
  apply Only.follows (I := fun t' => writes t' = List.range' dest n) h _ _ ht
  · intro s op _ hs
    exact ⟨n, hn, hs⟩
  · rintro s op x _ hop hs rfl
    rw [writes_append, hs]
    cases op with
    | store a x => exact absurd hop.2 (Nat.not_lt_zero a)
    | mark e =>
      cases e with
      | sent e | checked e => cases e <;> exact List.append_nil _
      | _ => exact List.append_nil _
    | _ => exact List.append_nil _

/-- Each byte of a sector is stored behind the ones before it. -/
theorem stored_copySector (m i : Nat) (hfit : n + i + m ≤ size)
    (ht : writes t = List.range' dest (n + i)) :
    KeepsStored dest size (copySector (dest + n) m i)
      (fun _ t' => writes t' = List.range' dest (n + i + m)) t := by
  induction m generalizing i t with
  | zero => exact ht
  | succ m ih =>
    have here : StoredSoFar dest size t := ⟨n + i, by omega, ht⟩
    apply follows_to here fun _ _ hm => hm
    intro b
    have loaded : writes (t ++ (Op.load (TRANSFER_BUFFER + i)).events) = _ :=
      (congrArg writes (List.append_nil t)).trans ht
    apply follows_to ⟨n + i, by omega, loaded⟩ fun _ _ hm => hm
    intro _
    have stored : writes (t ++ (Op.load (TRANSFER_BUFFER + i)).events
        ++ (Op.store (dest + n + i) b).events) = List.range' dest (n + (i + 1)) := by
      rw [writes_append, loaded, ← Nat.add_assoc, List.range'_1_concat, Nat.add_assoc dest]
      rfl
    apply (ih (i + 1) (by omega) stored).mono
    intro _ t' ht'
    rw [ht']
    congr 1
    omega

theorem stored_fpyCopyBytesLoop (sector : UInt8) (at_ : Nat) (count : Int)
    (hat : at_ = dest + n) (hfit : n + count.toNat ≤ size)
    (ht : writes t = List.range' dest n) :
    KeepsStored dest size (fpyCopyBytesLoop sector at_ count)
      (fun _ t' => StoredSoFar dest size t') t := by
  induction sector, at_, count using fpyCopyBytesLoop.induct generalizing n t with
  | case1 sector at_ count hpos ih =>
    rw [fpyCopyBytesLoop, if_pos hpos]
    have quiet : Only (Op.storesIn 0 0) (readOneSector sector) :=
      (copy_readOneSector sector).mono fun _ => Op.isCopy.storesIn
    have hn : n ≤ size := by omega
    apply (stored_of_storesNone quiet hn ht).bind
    intro e t₁ ht₁
    cases e with
    | some e => exact ⟨n, hn, ht₁⟩
    | none =>
      have hcount := copyCount_eq count
      have sector : KeepsStored dest size (copySector at_ (copyCount count) 0)
          (fun _ t' => writes t' = List.range' dest (n + copyCount count)) t₁ := by
        rw [hat]
        exact stored_copySector (copyCount count) 0 (by omega) ht₁
      apply sector.bind
      intro _ t₂ ht₂
      rcases Nat.le_or_le count.toNat 0x200 with small | full
      · rw [fpyCopyBytesLoop, if_neg (by omega)]
        exact ⟨n + copyCount count, by omega, ht₂⟩
      · rw [hcount, Nat.min_eq_left full] at ht₂
        exact ih (by omega) (by omega) ht₂
  | case2 sector at_ count hpos =>
    rw [fpyCopyBytesLoop, if_neg hpos]
    exact ⟨n, by omega, ht⟩

/-- In every state a copy passes, the bytes stored are the first of its
destination. -/
theorem stored_of_reach {sector : UInt8} {count : Int} {q : Code ErrT}
    (run : Reach tracing (fpyCopyBytes sector dest count, []) (q, t)) :
    StoredSoFar dest count.toNat t := by
  have loop : KeepsStored dest count.toNat (fpyCopyBytesLoop sector dest count)
      (fun _ t' => StoredSoFar dest count.toNat t') [] :=
    stored_fpyCopyBytesLoop (n := 0) sector dest count rfl (by omega) rfl
  have walk : KeepsStored dest count.toNat (fpyCopyBytes sector dest count)
      (fun _ t' => StoredSoFar dest count.toNat t') [] := by
    apply loop.bind
    intro e t₁ ht₁
    apply follows_to ht₁ fun _ _ hm => hm
    intro _
    change StoredSoFar dest count.toNat (t₁ ++ [])
    rw [List.append_nil]
    exact ht₁
  have left : KeepsStored dest count.toNat q (fun _ t' => StoredSoFar dest count.toNat t') t :=
    walk.reach run
  exact left.here (J := StoredSoFar dest count.toNat) (fun _ _ h => h) fun _ _ h => h

end OnTheWay

/-! ## The copy ends -/

section Ends

variable {σ : Type} {M : Machine ops σ}

theorem straight_copySector (dest n i : Nat) :
    Straight (fun _ => True) (copySector dest n i) := by
  induction n generalizing i with
  | zero => trivial
  | succ n ih => exact ⟨trivial, fun _ => ⟨trivial, fun _ => ih (i + 1)⟩⟩

/-- A round ends where its two commands do. -/
theorem halts_readOneSector (seek : ∀ p s, Halts M (fpyCmdSeekHead p) s)
    (read : ∀ p s, Halts M (fpyCmdReadSector p) s) (sector : UInt8) (s : σ) :
    Halts M (readOneSector sector) s := by
  apply ((straight_lbaToChs _).halts s).bind
  intro a s _
  apply halts_vis
  intro drive s _
  apply (seek _ s).bind
  intro e s _
  cases e with
  | some e => exact halts_pure
  | none =>
    apply halts_vis
    intro drive s _
    apply halts_vis
    intro trackLength s _
    apply (read _ s).bind
    intro res s _
    exact halts_pure

/-- A copy whose commands end ends, whatever it is asked for. -/
theorem halts_fpyCopyBytes (seek : ∀ p s, Halts M (fpyCmdSeekHead p) s)
    (read : ∀ p s, Halts M (fpyCmdReadSector p) s) (sector : UInt8) (dest : Nat) (count : Int)
    (s : σ) : Halts M (fpyCopyBytes sector dest count) s := by
  have loop : Halts M (fpyCopyBytesLoop sector dest count) s := by
    induction sector, dest, count using fpyCopyBytesLoop.induct generalizing s with
    | case1 sector dest count hpos ih =>
      rw [fpyCopyBytesLoop, if_pos hpos]
      apply (halts_readOneSector seek read sector s).bind
      intro e s _
      cases e with
      | some e => exact halts_pure
      | none =>
        apply ((straight_copySector dest _ 0).halts s).bind
        intro _ s _
        exact ih s
    | case2 sector dest count hpos =>
      rw [fpyCopyBytesLoop, if_neg hpos]
      exact halts_pure
  apply loop.bind
  intro e s _
  apply halts_vis
  intro _ s _
  exact halts_pure

end Ends

/-! ## What is assigned -/

/-- The operations that leave everything as it was but the `size` bytes from
`dest` on and the driver's globals. -/
def Op.writesOnly (dest size : Nat) : Op → Prop
  | .store a _ => dest ≤ a ∧ a < dest + size
  | .set v _ => v = .fpyIrqHandleState
  | .setCylinder _ | .assign _ _ | .setInterrupt _ _ | .writeCr _ _ | .wrmsr _ | .sti => False
  | .int13 _ | .int15 _ => False
  | _ => True

theorem Op.isDriver.writesOnly {dest size : Nat} {op : Op} (h : op.isDriver) :
    op.writesOnly dest size := by
  cases op with
  | set v x =>
    cases v with
    | fpyIrqHandleState => rfl
    | _ => cases h
  | store a x | setCylinder x | assign o bs | setInterrupt n f | writeCr n x | wrmsr x | sti
  | int13 r | int15 r => cases h
  | _ => trivial

theorem Op.isCopy.writesOnly {dest size : Nat} {op : Op} (h : op.isCopy dest (dest + size)) :
    op.writesOnly dest size := by
  cases op with
  | store a x => exact h
  | load a => trivial
  | _ =>
    rcases h with driver | arith
    · exact driver.writesOnly
    · first | exact arith.elim | trivial

theorem writesOnly_fpyCopyBytes (sector : UInt8) (dest : Nat) (count : Int) :
    Only (Op.writesOnly dest count.toNat) (fpyCopyBytes sector dest count) := by
  have loop := copy_fpyCopyBytesLoop sector dest count (Nat.le_refl _) (Nat.le_refl _)
  exact (loop.mono fun _ => Op.isCopy.writesOnly).bind fun _ => ⟨trivial, fun _ => trivial⟩

/-! ## The contract -/

/-- What `fpy_copy_bytes(sector, dest, count)` writes and issues, against every
device and with the interrupt handler run anywhere. -/
structure WritesExactly (sector : UInt8) (dest : Nat) (count : Int) : Prop where
  /-- Memory apart, the copy and the handler assign the driver's globals only, and
  in memory the copy assigns its destination and the handler nothing. -/
  only : Only (Op.writesOnly dest count.toNat) (fpyCopyBytes sector dest count) ∧
    Only (Op.writesOnly dest 0) fpyInterruptHandler
  /-- At every moment the destination's first bytes have been stored, each once and
  in order, and nothing else. -/
  ordered : ∀ {q : Code ErrT} {t : List CopyEvent},
    Reach tracing (fpyCopyBytes sector dest count, []) (q, t) →
      ∃ n ≤ count.toNat, writes t = List.range' dest n
  /-- A copy that succeeds has issued a SEEK and a READ for every sector, met no
  error, and stored the whole destination. -/
  success : ∀ {t : List CopyEvent}, Exec tracing (fpyCopyBytes sector dest count) [] noErr t →
    issued t = pairs (roundCount count) ∧ errors t = [] ∧
      writes t = List.range' dest count.toNat
  /-- A copy that fails does so in some round `k`: the error is the one its last
  command met, nothing follows it, the rounds before are complete, and the
  destination's first `512 * k` bytes are stored. -/
  failure : ∀ {e : String} {t : List CopyEvent},
    Exec tracing (fpyCopyBytes sector dest count) [] (some e) t →
      ∃ k < roundCount count, ∃ before, t = before ++ [.fail e] ∧ errors before = [] ∧
        (issued t = pairs k ++ [FpyCmd.seek.val] ∨ issued t = pairs (k + 1)) ∧
        writes t = List.range' dest (0x200 * k) ∧ 0x200 * k < count.toNat
  /-- A copy whose commands end ends. -/
  ends : ∀ {σ : Type} {M : Machine ops σ}, (∀ p s, Halts M (fpyCmdSeekHead p) s) →
    (∀ p s, Halts M (fpyCmdReadSector p) s) → ∀ s, Halts M (fpyCopyBytes sector dest count) s

/-- The sectors of a copy hold its bytes, and all but the last are full. -/
theorem lt_of_lt_roundCount {count : Int} {k : Nat} (hk : k < roundCount count) :
    0x200 * k < count.toNat := by
  unfold roundCount at hk
  omega

theorem le_roundCount (count : Int) : count.toNat ≤ 0x200 * roundCount count := by
  unfold roundCount
  omega

theorem pairs_concat (k : Nat) : pairs (k + 1) = pairs k ++ [FpyCmd.seek.val, copyRead] := by
  unfold pairs
  rw [List.replicate_succ', List.flatten_append]
  rfl

/-- COPIES WRITE WHAT THEY WERE ASKED TO, whatever their commands come to. -/
theorem fpyCopyBytes_writesExactly (sector : UInt8) (dest : Nat) (count : Int) :
    WritesExactly sector dest count where
  only := ⟨writesOnly_fpyCopyBytes sector dest count,
    driver_fpyInterruptHandler.mono fun _ => Op.isDriver.writesOnly⟩
  ordered run := stored_of_reach run
  success := by
    intro t run
    obtain rfl := (emits_fpyCopyBytes sector dest count).exec run
    refine ⟨issued_rounds _ _ _, errors_rounds _ _ _, ?_⟩
    rw [writes_rounds, Nat.min_eq_right (le_roundCount count)]
  failure := by
    intro e t run
    obtain ⟨k, hk, last, hlast, rfl⟩ := (emits_fpyCopyBytes sector dest count).exec run
    have full := lt_of_lt_roundCount hk
    have stored : writes (rounds dest count k) = List.range' dest (0x200 * k) := by
      rw [writes_rounds, Nat.min_eq_left (Nat.le_of_lt full)]
    refine ⟨k, hk, ?_⟩
    rcases hlast with rfl | rfl
    · refine ⟨rounds dest count k ++ [.issue FpyCmd.seek.val], ?_, ?_, .inl ?_, ?_, full⟩
      · exact (List.append_assoc _ [CopyEvent.issue FpyCmd.seek.val] _).symm
      · rw [errors_append, errors_rounds]
        rfl
      · rw [issued_append, issued_rounds]
        rfl
      · rw [writes_append, stored]
        exact List.append_nil _
    · refine ⟨rounds dest count k ++ seekRead, ?_, ?_, .inr ?_, ?_, full⟩
      · exact (List.append_assoc _ seekRead _).symm
      · rw [errors_append, errors_rounds]
        rfl
      · rw [issued_append, issued_rounds, pairs_concat]
        rfl
      · rw [writes_append, stored]
        exact List.append_nil _
  ends seek read s := halts_fpyCopyBytes seek read sector dest count s

end ToyBootloader
