import ToyBootloader.Shared.Floppy

/-!
# The floppy controller

The other side of the FIFO, as the driver's authors read the data sheet: a
COMMAND PHASE that collects bytes until a command is complete, and a RESULT
PHASE that hands out the bytes of its result one by one, after which the next
command may come. How many bytes a command has, and how many its result has,
is in its opcode.

A command byte written in the result phase is lost, and a FIFO read in the
command phase answers anything.
-/

namespace ToyBootloader

open Resumption Code

/-- How many bytes the command with this first byte has. -/
def commandLength (b : UInt8) : Nat :=
  match b &&& 0x1f with
  | 0x2 | 0x5 | 0x6 | 0x9 | 0xc => 9
  | 0xd => 6
  | 0x13 => 4
  | 0x3 | 0xf => 3
  | 0x4 | 0x7 | 0xa => 2
  | _ => 1

/-- How many bytes the result of the command with this first byte has. An
opcode the controller does not know is answered with one byte. -/
def resultLength (b : UInt8) : Nat :=
  match b &&& 0x1f with
  | 0x2 | 0x5 | 0x6 | 0x9 | 0xc | 0xa | 0xd => 7
  | 0x8 => 2
  | 0x3 | 0x7 | 0xf | 0x13 => 0
  | _ => 1

/-- A command's first byte. -/
def opcode (cmd : List UInt8) : UInt8 := cmd.headD 0

/-- What raises an interrupt: the heads of a SEEK or a CALIBRATE coming to rest,
or the end of a data transfer. -/
inductive Source where
  | head
  | transfer
  deriving DecidableEq, Repr

/-- The interrupt a command raises, when it raises one. -/
def raises (cmd : List UInt8) : Option Source :=
  match opcode cmd &&& 0x1f with
  | 0x7 | 0xf => some .head
  | 0x2 | 0x5 | 0x6 | 0x9 | 0xa | 0xc | 0xd => some .transfer
  | _ => none

/-- An array with as many bytes as its opcode asks for. -/
def WholeCommand (cmd : List UInt8) : Prop :=
  cmd ≠ [] ∧ commandLength (opcode cmd) = cmd.length

instance (cmd : List UInt8) : Decidable (WholeCommand cmd) :=
  inferInstanceAs (Decidable (_ ∧ _))

theorem wholeCommand_cons {b : UInt8} {bs : List UInt8}
    (h : commandLength b = bs.length + 1) : WholeCommand (b :: bs) :=
  ⟨List.cons_ne_nil b bs, h⟩

/-- The flags of a first byte leave its opcode alone: a data transfer has nine
bytes and seven of result, whichever modifiers it is sent with. -/
theorem transfer_lengths : ∀ op ∈ [FpyCmd.readTrack, .writeSect, .readSect, .writeDeletedSect,
      .readDeletedSect], ∀ density multitrack skip : Bool,
    commandLength (op.val ||| ext density FPY_CMD_EXT_DENSITY
      ||| ext multitrack FPY_CMD_EXT_MULTITRACK ||| ext skip FPY_CMD_EXT_SKIP) = 9 ∧
    resultLength (op.val ||| ext density FPY_CMD_EXT_DENSITY
      ||| ext multitrack FPY_CMD_EXT_MULTITRACK ||| ext skip FPY_CMD_EXT_SKIP) = 7 := by
  decide

/-- A data transfer's array, and its result. -/
def IsTransfer (cmd : List UInt8) : Prop :=
  WholeCommand cmd ∧ resultLength (opcode cmd) = 7

theorem FpyCmdReadtrackParams.isTransfer (p : FpyCmdReadtrackParams) : IsTransfer p.cmd := by
  have h := transfer_lengths .readTrack (by simp) p.doubleDensity false p.skipMode
  simp only [ext, Bool.false_eq_true, if_false, UInt8.or_zero] at h
  exact ⟨wholeCommand_cons h.1, h.2⟩

theorem FpyCmdWriteSectorParams.isTransfer {op : FpyCmd}
    (hop : op = .writeSect ∨ op = .writeDeletedSect) (p : FpyCmdWriteSectorParams) :
    IsTransfer (p.cmd op) := by
  have h := transfer_lengths op (by rcases hop with rfl | rfl <;> simp)
    p.doubleDensity p.multitrack false
  simp only [ext, Bool.false_eq_true, if_false, UInt8.or_zero] at h
  exact ⟨wholeCommand_cons h.1, h.2⟩

theorem FpyCmdReadSectorParams.isTransfer {op : FpyCmd}
    (hop : op = .readSect ∨ op = .readDeletedSect) (p : FpyCmdReadSectorParams) :
    IsTransfer (p.cmd op) := by
  have h := transfer_lengths op (by rcases hop with rfl | rfl <;> simp)
    p.doubleDensity p.multitrack p.skipMode
  exact ⟨wholeCommand_cons h.1, h.2⟩

/-! ## The READ DATA -/

/-- A READ DATA, by its first byte. -/
def IsReadData (cmd : List UInt8) : Prop := opcode cmd &&& 0x1f = FpyCmd.readSect.val

instance : DecidablePred IsReadData := fun _ => inferInstanceAs (Decidable (_ = _))

/-- The data transfers, whose first bytes are their opcodes with modifiers. -/
def transfers : List FpyCmd :=
  [.readTrack, .writeSect, .readSect, .writeDeletedSect, .readDeletedSect]

/-- A modifier leaves the opcode alone. -/
theorem isReadData_modified : (transfers.all fun op => [false, true].all fun density =>
    [false, true].all fun multitrack => [false, true].all fun skip =>
      decide (IsReadData [op.val ||| ext density FPY_CMD_EXT_DENSITY
        ||| ext multitrack FPY_CMD_EXT_MULTITRACK ||| ext skip FPY_CMD_EXT_SKIP]) ==
          decide (op = .readSect)) = true := by
  decide

theorem isReadData_iff {op : FpyCmd} (hop : op ∈ transfers) (density multitrack skip : Bool)
    (rest : List UInt8) : IsReadData ((op.val ||| ext density FPY_CMD_EXT_DENSITY
      ||| ext multitrack FPY_CMD_EXT_MULTITRACK ||| ext skip FPY_CMD_EXT_SKIP) :: rest) ↔
        op = .readSect := by
  have all := List.all_eq_true.mp isReadData_modified op hop
  have either : ∀ b : Bool, b ∈ [false, true] := fun b => by cases b <;> simp
  have h := List.all_eq_true.mp (List.all_eq_true.mp (List.all_eq_true.mp all density (either _))
    multitrack (either _)) skip (either _)
  exact decide_eq_decide.mp (eq_of_beq h)

theorem not_isReadData {b : UInt8} {bs : List UInt8} (h : b &&& 0x1f ≠ FpyCmd.readSect.val) :
    ¬ IsReadData (b :: bs) := h

theorem FpyCmdReadSectorParams.isReadData (p : FpyCmdReadSectorParams) :
    IsReadData (p.cmd .readSect) :=
  (isReadData_iff (by simp [transfers]) _ _ _ _).mpr rfl

theorem FpyCmdReadtrackParams.not_isReadData (p : FpyCmdReadtrackParams) : ¬ IsReadData p.cmd := by
  intro h
  have hiff := isReadData_iff (show .readTrack ∈ transfers by simp [transfers]) p.doubleDensity false
    p.skipMode
  simp only [ext, Bool.false_eq_true, if_false, UInt8.or_zero] at hiff
  cases (hiff _).mp h

theorem FpyCmdWriteSectorParams.not_isReadData {op : FpyCmd}
    (hop : op = .writeSect ∨ op = .writeDeletedSect) (p : FpyCmdWriteSectorParams) :
    ¬ IsReadData (p.cmd op) := by
  intro h
  have hiff := isReadData_iff (show op ∈ transfers by rcases hop with rfl | rfl <;> simp [transfers])
    p.doubleDensity p.multitrack false
  simp only [ext, Bool.false_eq_true, if_false, UInt8.or_zero] at hiff
  rw [(hiff _).mp h] at hop
  rcases hop with hop | hop <;> cases hop

/-! ## The phases -/

/-- The controller's phase. The result phase has a byte to hand out, by
construction: with none left the controller is back in the command phase. -/
inductive Phase where
  /-- The bytes of the command so far. -/
  | command (got : List UInt8)
  /-- The next byte of the result, and those after it. -/
  | result (next : UInt8) (rest : List UInt8)
  deriving DecidableEq, Repr

namespace Phase

/-- Between two commands. -/
abbrev idle : Phase := .command []

/-- The phase after a command with this result, or after a byte of one. -/
def ofResult : List UInt8 → Phase
  | [] => idle
  | b :: bs => .result b bs

/-- `dataio` as the controller asserts it. -/
def isResult : Phase → Bool
  | .command _ => false
  | .result _ _ => true

/-- The command this byte completes, if it completes one. -/
def completes : Phase → UInt8 → Option (List UInt8)
  | .command got, b =>
    let cmd := got ++ [b]
    if commandLength (opcode cmd) ≤ cmd.length then some cmd else none
  | .result _ _, _ => none

/-- A status byte that asserts `mrq`, and `dataio` in the result phase. -/
def status (ph : Phase) : UInt8 := if ph.isResult then 0xC0 else 0x80

theorem mrq_status (ph : Phase) : mrq ph.status = true := by
  cases ph with
  | command got => exact (by decide : mrq 0x80 = true)
  | result b rest => exact (by decide : mrq 0xC0 = true)

theorem dataio_status (ph : Phase) : dataio ph.status = ph.isResult := by
  cases ph with
  | command got => exact (by decide : dataio 0x80 = false)
  | result b rest => exact (by decide : dataio 0xC0 = true)

/-- A byte written to the FIFO; `res` is the result, should the byte complete a
command. -/
def write (ph : Phase) (b : UInt8) (res : List UInt8) : Phase :=
  match ph, ph.completes b with
  | _, some _ => ofResult res
  | .command got, none => .command (got ++ [b])
  | .result c rest, none => .result c rest

/-- A byte read from the FIFO. -/
def read : Phase → Phase
  | .command got => .command got
  | .result _ rest => ofResult rest

/-- What a FIFO read may answer. -/
def Answers : Phase → UInt8 → Prop
  | .command _, _ => True
  | .result b _, a => a = b

@[simp] theorem isResult_command (got : List UInt8) : (command got).isResult = false := rfl

@[simp] theorem isResult_result (b : UInt8) (rest : List UInt8) :
    (result b rest).isResult = true := rfl

@[simp] theorem ofResult_nil : ofResult [] = idle := rfl

@[simp] theorem ofResult_cons (b : UInt8) (bs : List UInt8) :
    ofResult (b :: bs) = .result b bs := rfl

/-- In the middle of a command: all but the last byte are collected. -/
theorem completes_of_lt {got : List UInt8} {b c : UInt8} {cs : List UInt8}
    (hcmd : WholeCommand (got ++ b :: c :: cs)) : (command got).completes b = none := by
  have hhead : opcode (got ++ [b]) = opcode (got ++ b :: c :: cs) := by
    cases got <;> rfl
  have hlt : ¬ commandLength (opcode (got ++ [b])) ≤ (got ++ [b]).length := by
    rw [hhead, hcmd.2]
    simp
  simp only [completes, if_neg hlt]

/-- The last byte completes the command. -/
theorem completes_last {got : List UInt8} {b : UInt8} (hcmd : WholeCommand (got ++ [b])) :
    (command got).completes b = some (got ++ [b]) := by
  simp only [completes, hcmd.2, Nat.le_refl, if_true]

end Phase

/-! ## The command being sent -/

/-- The command last handed to `fpy_send_command`, and what is left of it. -/
structure Sending where
  cmd : List UInt8 := []
  left : List UInt8 := []
  deriving DecidableEq, Repr

/-- What the main program's operations do to it. -/
def Sending.next (b : Sending) : Op → Sending
  | .mark (.send cmd) => ⟨cmd, cmd⟩
  | .outb port _ => if port = FPY_FIFO then { b with left := b.left.tail } else b
  | _ => b

namespace Sending

/-- Any device; the command being sent is recorded. -/
def machine : Machine ops Sending := Recorder fun b op _ => b.next op

/-- A walk that asks nothing of the operations. -/
abbrev Sends {α : Type} (p : Code α) (Q : α → Sending → Prop) (b : Sending) : Prop :=
  Follows machine (fun _ _ => True) p Q b

/-- One byte: written, or an error. -/
theorem sends_byteLoop {cmd : List UInt8} (x : UInt8) {bs : List UInt8} : ∀ n : Nat,
    Sends (fpySendCommandByteLoop x n) (fun e b' => e = noErr → b' = ⟨cmd, bs⟩) ⟨cmd, x :: bs⟩
  | 0 => fun h => by cases h
  | n + 1 => by
    simp only [fpySendCommandByteLoop, fpyReadStatus, Prog.bind_eq, inb_bind]
    refine follows_to trivial (fun _ _ h => h) fun a => ?_
    split
    · exact follows_to trivial (fun _ _ h => h) fun _ _ => rfl
    · exact sends_byteLoop x n

/-- The bytes that are left: all of them, or an error. -/
theorem sends_loop {cmd : List UInt8} (msr : UInt8) (wait : Bool) : ∀ bs : List UInt8,
    Sends (fpySendCommandLoop msr wait bs) (fun e b' => e = noErr → b' = ⟨cmd, []⟩) ⟨cmd, bs⟩
  | [] => by
    cases wait with
    | true =>
      refine follows_poll (fun b' => b' = ⟨cmd, []⟩) rfl (fun _ _ => trivial) ?_ ?_
      · rintro t a _ ht rfl - -
        exact ht
      · rintro t a _ ht rfl -
        exact ht
    | false => exact fun _ => rfl
  | x :: bs => by
    refine follows_poll (fun b' => b' = ⟨cmd, x :: bs⟩) rfl (fun _ _ => trivial) ?_ ?_
    · rintro t a _ rfl rfl -
      split
      · intro h
        cases h
      · refine (sends_byteLoop x 1000).bind ?_
        rintro e t' ht'
        cases e with
        | some e =>
          intro h
          cases h
        | none =>
          obtain rfl := ht' rfl
          exact sends_loop msr wait bs
    · rintro t a _ ht rfl -
      exact ht

/-- A command: sent whole, or an error. -/
theorem sends_fpySendCommand (cmd : List UInt8) (wait : Bool) (b : Sending) :
    Sends (fpySendCommand cmd wait) (fun e b' => e = noErr → b' = ⟨cmd, []⟩) b := by
  have body : Sends (fpySendCommandBody cmd wait) (fun e b' => e = noErr → b' = ⟨cmd, []⟩)
      ⟨cmd, cmd⟩ := by
    simp only [fpySendCommandBody, fpyReadStatus, Prog.bind_eq, inb_bind]
    refine follows_to trivial (fun _ _ h => h) fun a => ?_
    split
    · intro h
      cases h
    · exact sends_loop a wait cmd
  refine follows_to trivial (fun _ _ h => h) fun _ => ?_
  refine Follows.bind (p := fpySendCommandBody cmd wait) body fun e b' hb' => ?_
  exact follows_to trivial (fun _ _ h => h) fun _ => hb'

end Sending

end ToyBootloader
