import ToyBootloader.Controller

/-!
# A command and the controller's phase

The driver's calls against the controller with its FIFO always ready. Each call
is walked once from each phase it can be made in, and says what it returns and
what phase it leaves.
-/

namespace ToyBootloader

open Resumption Code

/-! ## The machine -/

/-- The controller, and for each command it has completed the result it serves,
the latest first. -/
structure Fdc where
  phase : Phase
  served : List (List UInt8 × List UInt8) := []

namespace Fdc

/-- A byte written to the FIFO: one that completes a command makes the
controller choose a result of the command's length. -/
def Writes (s : Fdc) (b : UInt8) (s' : Fdc) : Prop :=
  match s.phase.completes b with
  | some cmd => ∃ res, res.length = resultLength (opcode cmd) ∧
      s' = ⟨s.phase.write b res, (cmd, res) :: s.served⟩
  | none => s' = { s with phase := s.phase.write b [] }

/-- The controller with its FIFO always ready: `mrq` is asserted on every status
read, and `dataio` is the phase. The globals and the interrupt flag answer
anything. -/
def machine : Machine ops Fdc := fun s op =>
  match op with
  | .inb port => fun a s' =>
    if port = FPY_MSR then mrq a = true ∧ dataio a = s.phase.isResult ∧ s' = s
    else if port = FPY_FIFO then s.phase.Answers a ∧ s' = { s with phase := s.phase.read }
    else s' = s
  | .outb port b => fun _ s' => if port = FPY_FIFO then s.Writes b s' else s' = s
  | _ => fun _ s' => s' = s

/-- Every run of `p` on the controller from `s` ends in `Q`. -/
abbrev Ends {α : Type} (p : Code α) (Q : α → Fdc → Prop) (s : Fdc) : Prop :=
  Follows machine (fun _ _ => True) p Q s

/-! ## Bytes -/

/-- Waiting for `mrq` ends at once, and changes nothing. -/
theorem ends_inbUntil {s : Fdc} {α : Type} {k : UInt8 → Code α} {Q : α → Fdc → Prop}
    (h : ∀ a, mrq a = true → Ends (k a) Q s) :
    Ends ((inbUntil FPY_MSR mrq).bind k) Q s := by
  refine follows_poll (· = s) rfl (fun _ _ => trivial) ?_ ?_
  · rintro _ a _ rfl ⟨ha, -, rfl⟩ -
    exact h a ha
  · rintro _ a _ rfl ⟨ha, -, -⟩ hn
    rw [ha] at hn
    cases hn

/-- A round of the data read, in any phase: `mrq` is there, so it is the last. -/
theorem ends_fpyReadDataLoop {s : Fdc} (n : Nat) :
    Ends (fpyReadDataLoop (n + 1)) (fun a s' => s.phase.Answers a ∧
      s' = { s with phase := s.phase.read }) s := by
  simp only [fpyReadDataLoop, fpyReadStatus, Prog.bind_eq, inb_bind]
  refine ⟨trivial, ?_⟩
  rintro a _ ⟨ha, -, rfl⟩
  simp only [ha, if_true]
  exact ⟨trivial, fun x s' h => h⟩

/-- One byte of a result. -/
theorem ends_readResult {α : Type} {b : UInt8} {rest : List UInt8}
    {served : List (List UInt8 × List UInt8)} {k : UInt8 → Code α} {Q : α → Fdc → Prop}
    (h : Ends (k b) Q ⟨.ofResult rest, served⟩) :
    Ends (fpyReadData.bind k) Q ⟨.result b rest, served⟩ := by
  refine (ends_fpyReadDataLoop 999).bind ?_
  rintro _ _ ⟨rfl, rfl⟩
  exact h

/-- A round of sending one byte of a command. -/
theorem ends_fpySendCommandByteLoop {s : Fdc} (b : UInt8) (n : Nat) :
    Ends (fpySendCommandByteLoop b (n + 1)) (fun e s' => e = noErr ∧ s.Writes b s') s := by
  simp only [fpySendCommandByteLoop, fpyReadStatus, Prog.bind_eq, inb_bind]
  refine ⟨trivial, ?_⟩
  rintro a _ ⟨ha, -, rfl⟩
  simp only [ha, if_true]
  exact ⟨trivial, fun _ s' h => ⟨rfl, h⟩⟩

/-! ## Commands -/

/-- What a whole command leaves: its result, to be read. -/
def Served (cmd : List UInt8) (s s' : Fdc) : Prop :=
  ∃ res, res.length = resultLength (opcode cmd) ∧
    s' = ⟨.ofResult res, (cmd, res) :: s.served⟩

/-- The bytes that are left of a command, sent in the command phase. -/
theorem ends_fpySendCommandLoop {msr : UInt8} (hmsr : dataio msr = false) (wait : Bool)
    {b : UInt8} {bs : List UInt8} :
    ∀ (got : List UInt8) {s : Fdc}, WholeCommand (got ++ b :: bs) →
      s.phase = .command got →
      Ends (fpySendCommandLoop msr wait (b :: bs))
        (fun e s' => e = noErr ∧ Served (got ++ b :: bs) s s') s := by
  induction bs generalizing b with
  | nil =>
    intro got s hcmd hs
    refine ends_inbUntil fun _ _ => ?_
    simp only [hmsr, Bool.false_eq_true, if_false]
    refine (ends_fpySendCommandByteLoop b 999).bind ?_
    rintro _ s' ⟨rfl, hw⟩
    rw [Writes, hs, Phase.completes_last hcmd] at hw
    obtain ⟨res, hlen, rfl⟩ := hw
    have hserved : Served (got ++ [b]) s
        ⟨(Phase.command got).write b res, (got ++ [b], res) :: s.served⟩ :=
      ⟨res, hlen, by simp only [Phase.write, Phase.completes_last hcmd]⟩
    cases wait with
    | true => exact ends_inbUntil fun _ _ => ⟨rfl, hserved⟩
    | false => exact ⟨rfl, hserved⟩
  | cons c cs ih =>
    intro got s hcmd hs
    refine ends_inbUntil fun _ _ => ?_
    simp only [hmsr, Bool.false_eq_true, if_false]
    refine (ends_fpySendCommandByteLoop b 999).bind ?_
    rintro _ s' ⟨rfl, hw⟩
    rw [Writes, hs, Phase.completes_of_lt hcmd] at hw
    subst hw
    have hsplit : got ++ b :: c :: cs = (got ++ [b]) ++ c :: cs := by
      rw [List.append_assoc, List.singleton_append]
    rw [hsplit] at hcmd ⊢
    refine (ih _ hcmd ?_).mono fun e s' h => h
    simp only [Phase.write, Phase.completes_of_lt (hsplit ▸ hcmd)]

/-- A whole command sent between two commands is taken. -/
theorem ends_fpySendCommand {cmd : List UInt8} (hcmd : WholeCommand cmd) (wait : Bool)
    {s : Fdc} (hs : s.phase = .idle) :
    Ends (fpySendCommand cmd wait) (fun e s' => e = noErr ∧ Served cmd s s') s := by
  obtain ⟨b, bs, rfl⟩ := List.exists_cons_of_ne_nil hcmd.1
  simp only [fpySendCommand, fpySendCommandBody, fpyReadStatus, Prog.bind_eq, mark_bind, inb_bind]
  apply follows_to trivial fun _ _ h => h
  intro _
  refine ⟨trivial, ?_⟩
  rintro msr _ ⟨hmrq, hdata, rfl⟩
  rw [hs, Phase.isResult_command] at hdata
  simp only [hmrq, hdata, Bool.not_true, Bool.or_self, Bool.false_eq_true, if_false]
  refine (ends_fpySendCommandLoop hdata wait [] hcmd hs).bind ?_
  rintro e s' ⟨rfl, hserved⟩
  apply follows_to trivial fun _ _ h => h
  intro _
  exact ⟨rfl, hserved⟩

/-- A command sent in the result phase is refused, and the controller does not
hear of it. -/
theorem ends_fpySendCommand_refused (cmd : List UInt8) (wait : Bool)
    {s : Fdc} (hs : s.phase.isResult = true) :
    Ends (fpySendCommand cmd wait)
      (fun e s' => e = some (mkErr 193 "bad msr values") ∧ s' = s) s := by
  simp only [fpySendCommand, fpySendCommandBody, fpyReadStatus, Prog.bind_eq, mark_bind, inb_bind]
  apply follows_to trivial fun _ _ h => h
  intro _
  refine ⟨trivial, ?_⟩
  rintro msr _ ⟨hmrq, hdata, rfl⟩
  rw [hs] at hdata
  simp only [hmrq, hdata, Bool.not_true, Bool.or_true, if_true]
  apply follows_to trivial fun _ _ h => h
  intro _
  exact ⟨rfl, rfl⟩

/-- Sending, from whichever phase: taken between two commands, refused in the
result phase. -/
theorem ends_send_then {α : Type} {cmd : List UInt8} (hcmd : WholeCommand cmd) (wait : Bool)
    {k : ErrT → Code α} {Q : α → Fdc → Prop} {s : Fdc}
    (taken : s.phase = .idle → ∀ s', Served cmd s s' → Ends (k noErr) Q s')
    (refused : s.phase.isResult = true → ∀ e, Ends (k (some e)) Q s)
    (hs : s.phase = .idle ∨ s.phase.isResult = true) :
    Ends ((fpySendCommand cmd wait).bind k) Q s := by
  rcases hs with hs | hs
  · refine (ends_fpySendCommand hcmd wait hs).bind ?_
    rintro e s' ⟨rfl, hserved⟩
    exact taken hs s' hserved
  · refine (ends_fpySendCommand_refused cmd wait hs).bind ?_
    rintro e s' ⟨rfl, rfl⟩
    exact refused hs _

/-! ## Results -/

/-- The status bytes of a result pass the checks its reader makes: `st0`, `st1`
and `st2` of a data transfer's seven bytes, `st0` of CHECK_INT's two. -/
def Passes : List UInt8 → Prop
  | [st0, st1, st2, _, _, _, _] =>
    fpyCheckSt0 st0 = noErr ∧ fpyCheckSt1 st1 = noErr ∧ fpyCheckSt2 st2 = noErr
  | [st0, _] => fpyCheckSt0 st0 = noErr
  | _ => True

instance (res : List UInt8) : Decidable (Passes res) := by
  unfold Passes
  split <;> infer_instance

/-- A list of seven bytes, spelled out. -/
theorem exists_seven {res : List UInt8} (h : res.length = 7) :
    ∃ b₀ b₁ b₂ b₃ b₄ b₅ b₆, res = [b₀, b₁, b₂, b₃, b₄, b₅, b₆] := by
  match res, h with
  | [b₀, b₁, b₂, b₃, b₄, b₅, b₆], _ => exact ⟨b₀, b₁, b₂, b₃, b₄, b₅, b₆, rfl⟩

theorem exists_two {res : List UInt8} (h : res.length = 2) : ∃ b₀ b₁, res = [b₀, b₁] := by
  match res, h with
  | [b₀, b₁], _ => exact ⟨b₀, b₁, rfl⟩

/-- A check that reports, with the outcome both ways. -/
theorem ends_checked {α : Type} {err : ErrT} {k : ErrT → Code α} {Q : α → Fdc → Prop}
    {s : Fdc} (h : Ends (k err) Q s) : Ends ((ToyBootloader.checked err).bind k) Q s := by
  apply follows_to trivial fun _ _ h => h
  intro _
  exact h

/-- Reading a data transfer's seven bytes: the controller is back between two
commands exactly when none of the three status bytes is refused. -/
theorem ends_fpyCmdGenRes {res : List UInt8} (hres : res.length = 7)
    {served : List (List UInt8 × List UInt8)} :
    Ends fpyCmdGenRes (fun _ s' => s'.served = served ∧
      (s'.phase = .idle ∨ s'.phase.isResult = true) ∧
      (s'.phase = .idle ↔ Passes res)) ⟨.ofResult res, served⟩ := by
  obtain ⟨b₀, b₁, b₂, b₃, b₄, b₅, b₆, rfl⟩ := exists_seven hres
  simp only [fpyCmdGenRes, Prog.bind_eq, Phase.ofResult_cons, Passes]
  refine ends_readResult (ends_checked ?_)
  cases h₀ : fpyCheckSt0 b₀ with
  | some e => exact ⟨rfl, .inr rfl, by simp⟩
  | none =>
    refine ends_readResult (ends_checked ?_)
    cases h₁ : fpyCheckSt1 b₁ with
    | some e => exact ⟨rfl, .inr rfl, by simp⟩
    | none =>
      refine ends_readResult (ends_checked ?_)
      cases h₂ : fpyCheckSt2 b₂ with
      | some e => exact ⟨rfl, .inr rfl, by simp⟩
      | none =>
        refine ends_readResult (ends_readResult (ends_readResult (ends_readResult ?_)))
        exact ⟨rfl, .inl rfl, by simp⟩

/-! ## Calls -/

/-- The driver's calls that a command stream is made of. -/
inductive FpyCall where
  | readtrack (p : FpyCmdReadtrackParams)
  | writeSector (p : FpyCmdWriteSectorParams)
  | readSector (p : FpyCmdReadSectorParams)
  | writeDeletedSector (p : FpyCmdWriteSectorParams)
  | readDeletedSector (p : FpyCmdReadSectorParams)
  | checkInterrupt
  | checkDriveStatus (p : FpyCmdHeadParam)
  | seekHead (p : FpyCmdSeekHeadParams)

/-- The call's code, returning its error. -/
def FpyCall.code : FpyCall → Code ErrT
  | .readtrack p => do return (← fpyCmdReadtrack p).error
  | .writeSector p => do return (← fpyCmdWriteSector p).error
  | .readSector p => do return (← fpyCmdReadSector p).error
  | .writeDeletedSector p => do return (← fpyCmdWriteDeletedSector p).error
  | .readDeletedSector p => do return (← fpyCmdReadDeletedSector p).error
  | .checkInterrupt => do return (← fpyCmdCheckInterrupt).error
  | .checkDriveStatus p => do return (← fpyCmdCheckDriveStatus p).error
  | .seekHead p => fpyCmdSeekHead p

/-- What a call leaves. Made between two commands, it has its command taken, and
the controller is between two commands again exactly when the result passes;
made in the result phase, it leaves the controller as it was. -/
def CallLeaves (s s' : Fdc) : Prop :=
  (s.phase = .idle → ∃ cmd res, s'.served = (cmd, res) :: s.served ∧
      (s'.phase = .idle ∨ s'.phase.isResult = true) ∧ (s'.phase = .idle ↔ Passes res)) ∧
    (s.phase.isResult = true → s' = s)

/-- A call that returns an error and touched nothing, from the result phase. -/
theorem callLeaves_refused {s : Fdc} (hs : s.phase.isResult = true) : CallLeaves s s := by
  refine ⟨fun h => ?_, fun _ => rfl⟩
  rw [h] at hs
  cases hs

/-- A call whose command was taken, and whose result was then read to where the
reader stopped. -/
theorem callLeaves_taken {s s' : Fdc} {cmd res : List UInt8} (hs : s.phase = .idle)
    (hserved : s'.served = (cmd, res) :: s.served)
    (hphase : s'.phase = .idle ∨ s'.phase.isResult = true)
    (hpass : s'.phase = .idle ↔ Passes res) : CallLeaves s s' := by
  refine ⟨fun _ => ⟨cmd, res, hserved, hphase, hpass⟩, fun h => ?_⟩
  rw [hs] at h
  cases h

/-- Every data transfer that does not wait. -/
theorem ends_dataTransfer {cmd : List UInt8} (hcmd : IsTransfer cmd) {s : Fdc}
    (hs : s.phase = .idle ∨ s.phase.isResult = true) :
    Ends (dataTransfer cmd) (fun _ s' => CallLeaves s s') s := by
  simp only [dataTransfer, Prog.bind_eq]
  refine ends_send_then hcmd.1 true ?_ (fun hres _ => callLeaves_refused hres) hs
  rintro hidle _ ⟨res, hlen, rfl⟩
  refine (ends_fpyCmdGenRes (hlen.trans hcmd.2)).mono ?_
  rintro _ s' ⟨hserved, hphase, hpass⟩
  exact callLeaves_taken hidle hserved hphase hpass

theorem ends_irqErr {s : Fdc} : Ends irqErr (fun _ s' => s' = s) s := by
  simp only [irqErr, Prog.bind_eq, received_bind, follows_vis, true_and]
  rintro r _ rfl
  split
  · exact ⟨trivial, fun _ _ h => h⟩
  · rfl

/-- Waiting for the interrupt does not touch the controller. -/
theorem ends_fpyWaitIrq {s : Fdc} : Ends fpyWaitIrq (fun _ s' => s' = s) s := by
  simp only [fpyWaitIrq, Prog.bind_eq, untilReceived_bind]
  refine follows_poll (· = s) rfl (fun _ _ => trivial) ?_ (fun _ _ _ hs hm _ => hm.trans hs)
  rintro _ x _ rfl rfl -
  refine ends_irqErr.bind ?_
  rintro _ _ rfl
  exact ⟨trivial, fun _ _ h => h⟩

/-- The one data transfer that waits. -/
theorem ends_fpyCmdReadSector {p : FpyCmdReadSectorParams} {s : Fdc}
    (hs : s.phase = .idle ∨ s.phase.isResult = true) :
    Ends (fpyCmdReadSector p) (fun _ s' => CallLeaves s s') s := by
  have hcmd := p.isTransfer (.inl rfl)
  simp only [fpyCmdReadSector, fpyPrepareIrqNoHandle, Prog.bind_eq, set_bind]
  apply follows_to trivial fun _ _ h => h
  intro _
  refine ends_send_then hcmd.1 true ?_ (fun hres _ => callLeaves_refused hres) hs
  rintro hidle s₁ ⟨res, hlen, rfl⟩
  apply ends_fpyWaitIrq.to
  intro _
  refine (ends_fpyCmdGenRes (hlen.trans hcmd.2)).mono ?_
  rintro _ s' ⟨hserved, hphase, hpass⟩
  exact callLeaves_taken hidle hserved hphase hpass

/-- CHECK_INT: a bad `st0` leaves the cylinder byte unread. -/
theorem ends_fpyCmdCheckInterrupt {s : Fdc}
    (hs : s.phase = .idle ∨ s.phase.isResult = true) :
    Ends fpyCmdCheckInterrupt (fun _ s' => CallLeaves s s') s := by
  simp only [fpyCmdCheckInterrupt, Prog.bind_eq]
  refine ends_send_then (by decide) true ?_ (fun hres _ => callLeaves_refused hres) hs
  rintro hidle s₁ ⟨res, hlen, rfl⟩
  obtain ⟨st0, cyl, rfl⟩ : ∃ st0 cyl, res = [st0, cyl] := exists_two hlen
  refine ends_readResult (ends_checked ?_)
  cases h : fpyCheckSt0 st0 with
  | some e =>
    exact callLeaves_taken hidle rfl (.inr rfl) (by simp [Passes, h])
  | none =>
    refine ends_readResult ?_
    exact callLeaves_taken hidle rfl (.inl rfl) (by simp [Passes, h])

/-- CHECK_STAT: its one byte is always read. -/
theorem ends_fpyCmdCheckDriveStatus {p : FpyCmdHeadParam} {s : Fdc}
    (hs : s.phase = .idle ∨ s.phase.isResult = true) :
    Ends (fpyCmdCheckDriveStatus p) (fun _ s' => CallLeaves s s') s := by
  simp only [fpyCmdCheckDriveStatus, Prog.bind_eq]
  have hcmd : WholeCommand [FpyCmd.checkStat.val, driveHead p.drive p.headNumber] :=
    wholeCommand_cons (show commandLength FpyCmd.checkStat.val = 2 by decide)
  refine ends_send_then hcmd true ?_ (fun hres _ => callLeaves_refused hres) hs
  rintro hidle s₁ ⟨res, hlen, rfl⟩
  obtain ⟨st3, rfl⟩ : ∃ st3, res = [st3] := List.length_eq_one_iff.mp
    (hlen.trans (show resultLength FpyCmd.checkStat.val = 1 by decide))
  refine ends_readResult (ends_checked ?_)
  exact callLeaves_taken hidle rfl (.inl rfl) (by simp [Passes])

/-- SEEK: no result. -/
theorem ends_fpyCmdSeekHead {p : FpyCmdSeekHeadParams} {s : Fdc}
    (hs : s.phase = .idle ∨ s.phase.isResult = true) :
    Ends (fpyCmdSeekHead p) (fun _ s' => CallLeaves s s') s := by
  have hcmd : WholeCommand p.cmd :=
    wholeCommand_cons (show commandLength FpyCmd.seek.val = 3 by decide)
  rcases hs with hidle | hres
  · refine (ends_fpySendCommand hcmd true hidle).mono ?_
    rintro e _ ⟨rfl, res, hlen, rfl⟩
    obtain rfl : res = [] := List.length_eq_zero_iff.mp
      (hlen.trans (show resultLength FpyCmd.seek.val = 0 by decide))
    exact callLeaves_taken hidle rfl (.inl rfl) (by simp [Passes])
  · refine (ends_fpySendCommand_refused p.cmd true hres).mono ?_
    rintro e _ ⟨rfl, rfl⟩
    exact callLeaves_refused hres

/-- A call that only returns another's error leaves what the other leaves. -/
theorem ends_error {ρ : Type} {p : Code ρ} {error : ρ → ErrT} {Q : Fdc → Prop} {s : Fdc}
    (h : Ends p (fun _ => Q) s) :
    Ends (p.bind fun r => .pure (error r)) (fun _ => Q) s :=
  Follows.bind h fun _ _ hs => hs

/-- Every call of the stream, from either phase. -/
theorem ends_call (call : FpyCall) {s : Fdc}
    (hs : s.phase = .idle ∨ s.phase.isResult = true) :
    Ends call.code (fun _ s' => CallLeaves s s') s := by
  cases call with
  | readtrack p => exact ends_error (ends_dataTransfer p.isTransfer hs)
  | writeSector p => exact ends_error (ends_dataTransfer (p.isTransfer (.inl rfl)) hs)
  | readSector p => exact ends_error (ends_fpyCmdReadSector hs)
  | writeDeletedSector p => exact ends_error (ends_dataTransfer (p.isTransfer (.inr rfl)) hs)
  | readDeletedSector p => exact ends_error (ends_dataTransfer (p.isTransfer (.inr rfl)) hs)
  | checkInterrupt => exact ends_error (ends_fpyCmdCheckInterrupt hs)
  | checkDriveStatus p => exact ends_error (ends_fpyCmdCheckDriveStatus hs)
  | seekHead p => exact ends_fpyCmdSeekHead hs

/-! ## Streams of calls -/

/-- A stream of calls that all return, with the controller at each return. -/
inductive Session : Fdc → List FpyCall → List Fdc → Prop
  | nil {s} : Session s [] []
  | cons {s call e s₁ calls returns} : Exec machine call.code s e s₁ →
      Session s₁ calls returns → Session s (call :: calls) (s₁ :: returns)

/-- THE LAW of the command stream: the controller is between two commands at
every return of a session exactly when no result of the session has a status
byte its reader refuses. One refused byte is enough to lose the controller: its
reader returns with the rest of the result unread. -/
theorem idle_at_returns_iff_results_pass {s : Fdc} {calls : List FpyCall}
    {returns : List Fdc} (start : s.phase = .idle) (fresh : s.served = [])
    (run : Session s calls returns) :
    (∀ t ∈ returns, t.phase = .idle) ↔ ∀ t ∈ returns, ∀ r ∈ t.served, Passes r.2 := by
  have base : ∀ r ∈ s.served, Passes r.2 := by simp [fresh]
  clear fresh
  induction run with
  | nil => simp
  | @cons s call e s₁ calls returns hcall _ ih =>
    obtain ⟨cmd, res, hserved, -, hpass⟩ :=
      ((ends_call call (.inl start)).exec hcall).1 start
    simp only [List.forall_mem_cons]
    by_cases hres : Passes res
    · have hidle := hpass.mpr hres
      have base₁ : ∀ r ∈ s₁.served, Passes r.2 := by
        rw [hserved]
        exact List.forall_mem_cons.mpr ⟨hres, base⟩
      simp only [hidle, true_and, ih hidle base₁]
      exact ⟨fun h => ⟨base₁, h⟩, fun h => h.2⟩
    · constructor
      · rintro ⟨hidle, -⟩
        exact absurd (hpass.mp hidle) hres
      · rintro ⟨hall, -⟩
        exact absurd (hall (cmd, res) (by simp [hserved])) hres

/-! ## Sessions computed -/

/-- The controller that answers each command with the result `answer` gives
for it. -/
def sim (answer : List UInt8 → List UInt8) : Simulator ops Fdc := fun s op =>
  match op with
  | .inb port =>
    if port = FPY_MSR then some (s.phase.status, s)
    else if port = FPY_FIFO then
      match s.phase with
      | .command got => some (0, { s with phase := .command got })
      | .result b rest => some (b, { s with phase := .ofResult rest })
    else some (0, s)
  | .outb port b =>
    if port = FPY_FIFO then
      match s.phase.completes b with
      | some cmd =>
        if (answer cmd).length = resultLength (opcode cmd) then
          some ((), ⟨s.phase.write b (answer cmd), (cmd, answer cmd) :: s.served⟩)
        else none
      | none => some ((), { s with phase := s.phase.write b [] })
    else some ((), s)
  | .testReceived | .received => some (.ok, s)
  | .get _ | .load _ => some (0, s)
  | .set _ _ | .setReceived _ | .mark _ => some ((), s)
  | _ => none

theorem sim_sound (answer : List UInt8 → List UInt8) : (sim answer).Sound machine := by
  intro s op x s' h
  cases op with
  | inb port =>
    simp only [sim] at h
    simp only [machine]
    split at h
    · rename_i hmsr
      rw [if_pos hmsr]
      cases h
      exact ⟨s.phase.mrq_status, s.phase.dataio_status, rfl⟩
    · rename_i hmsr
      rw [if_neg hmsr]
      split at h
      · cases hp : s.phase <;> simp_all [Phase.read, Phase.Answers]
      · simp_all
  | outb port b =>
    simp only [sim] at h
    simp only [machine]
    split at h
    · rename_i hfifo
      rw [if_pos hfifo, Writes]
      cases hc : s.phase.completes b with
      | some cmd =>
        simp only [hc] at h
        split at h
        · cases h
          exact ⟨answer cmd, ‹_›, rfl⟩
        · cases h
      | none =>
        simp only [hc] at h
        cases h
        rfl
    · simp_all
  | _ => simp_all [sim, machine]

/-- A READ of cylinder 0, head 0, sector 1, as `floppy_test` makes it. -/
def readFirst : FpyCall := .readSector ⟨0, true, true, false, 0, 0, 0, 1, 2, 1, 0x1b, 0xff⟩

/-- Every READ ends well. -/
def goodSector (cmd : List UInt8) : List UInt8 :=
  if opcode cmd = FpyCmd.seek.val then [] else [0x20, 0, 0, 0, 0, 1, 2]

/-- One bad sector: the READ's `st0` reports an abnormal termination. -/
def badSector (cmd : List UInt8) : List UInt8 :=
  if opcode cmd = FpyCmd.seek.val then [] else [0x40, 0x04, 0, 0, 0, 1, 2]

/-- The READ with nothing wrong: one session the law speaks about, and there
both of its sides hold. -/
theorem good_sector_returns_idle : ∃ t, Session ⟨.idle, []⟩ [readFirst] [t] ∧
    t.phase = .idle ∧ ((∀ t' ∈ [t], t'.phase = .idle) ↔
      ∀ t' ∈ [t], ∀ r ∈ t'.served, Passes r.2) := by
  obtain ⟨⟨e, t⟩, hrun, hphase⟩ : ∃ r, simulate (sim goodSector) 100 readFirst.code
      ⟨.idle, []⟩ = some r ∧ r.2.phase = .idle :=
    Option.map_eq_some_iff.mp (show _ = some Phase.idle by decide)
  have run : Session ⟨.idle, []⟩ [readFirst] [t] :=
    .cons (simulate_sound (sim_sound goodSector) hrun) .nil
  exact ⟨t, run, hphase, idle_at_returns_iff_results_pass rfl rfl run⟩

/-- The READ returns its error with six bytes of the result unread, and the
controller is still in the result phase. -/
theorem bad_sector_keeps_result_phase :
    ¬ ∀ (s : Fdc) (calls : List FpyCall) (returns : List Fdc),
      s.phase = .idle → Session s calls returns → ∀ t ∈ returns, t.phase = .idle := by
  intro h
  obtain ⟨⟨e, s'⟩, hrun, hphase⟩ : ∃ r, simulate (sim badSector) 100 readFirst.code
      ⟨.idle, []⟩ = some r ∧ r.2.phase = .result 0x04 [0, 0, 0, 1, 2] :=
    Option.map_eq_some_iff.mp (show _ = some (Phase.result 0x04 [0, 0, 0, 1, 2]) by decide)
  have := h ⟨.idle, []⟩ [readFirst] [s'] rfl
    (.cons (simulate_sound (sim_sound badSector) hrun) .nil) s' (by simp)
  rw [hphase] at this
  cases this

end Fdc

end ToyBootloader
