import ToyBootloader.Laws.Print
import ToyBootloader.Stage2.Load

/-!
# The screen of stage 2

What is to be seen while the tasks of stage 2 run: a log of what is done, from the top down,
and a bar in its second line that is drawn anew before each task.
-/

namespace ToyBootloader

open Memory Printf

namespace Console

/-- Two consoles with one cursor and one colour. -/
def Alike (t t' : Console) : Prop := t.cursorPos = t'.cursorPos ∧ t.curColor = t'.curColor

/-- What has been asked for shows these characters, wherever the BIOS's cursor was. -/
def Displays (t : Console) (out : List (CurPos × UInt8)) : Prop := ∀ p, shown p t.asked = out

/-- The character that a cell shows: the last one that was written in it. -/
def cell (out : List (CurPos × UInt8)) (n : Nat) : Option UInt8 :=
  ((out.filter fun x => linear x.1 = n).getLast?).map Prod.snd

end Console

namespace Screen

open Console

/-- The bar for one of so many tasks. -/
def barText (curr count : Nat) : List UInt8 :=
  '['.toUInt8 :: ((List.range' 1 count).map fun i =>
    if i < curr then '='.toUInt8 else if i = curr then '>'.toUInt8 else ' '.toUInt8) ++
      [']'.toUInt8]

/-! ## The log -/

/-- What `stage2_load` prints before the tasks. -/
def headLog : List UInt8 :=
  text "stage 2 loaded\n" ++ [0xF7] ++ text "executing stage 2 : " ++ text "\n"

/-- What `vsprintf` writes before a task, the `i`th of so many. -/
def lineOf (above : Stream' UInt32) (count : Nat) (i : Nat) (task : Init) (m : Mem32) :
    List UInt8 :=
  (vsprintf taskFormat (taskArgs task (1 + UInt16.ofNat i) (UInt16.ofNat count) above) m).written

/-- What is printed of it. -/
def announced (above : Stream' UInt32) (count : Nat) (i : Nat) (task : Init) (m : Mem32) :
    List UInt8 :=
  (lineOf above count i task m ++ [0]).takeWhile (· ≠ 0)

/-- Each of the lines has room in `printf_buf`: no task has too long a name, or is in a file that
has. -/
def LinesFit (above : Stream' UInt32) (count : Nat) : (i : Nat) → List Init → Mem32 → Prop
  | _, [], _ => True
  | i, task :: tasks, m =>
    (lineOf above count i task m).length < 1024 ∧ LinesFit above count (i + 1) tasks (task.fun_ m).1

/-- What tasks leave in memory, each after those before it. -/
def memoryAfter (tasks : List Init) (m : Mem32) : Mem32 :=
  tasks.foldl (fun m task => (task.fun_ m).1) m

/-- What is printed for them. -/
def tasksLog (above : Stream' UInt32) (count : Nat) : (i : Nat) → List Init → Mem32 → List UInt8
  | _, [], _ => []
  | i, task :: tasks, m =>
    announced above count i task m ++ ((task.fun_ m).2 ++ (text "done\n\n" ++
      tasksLog above count (i + 1) tasks (task.fun_ m).1))

/-- Not one of the bar's cells. -/
def outside (count : Nat) (x : CurPos × UInt8) : Bool :=
  decide (¬ (100 ≤ linear x.1 ∧ linear x.1 < 100 + (count + 2)))

/-- The console stands as if the log had been printed and no bar, the log is shown outside
the bar's cells, and the bar in them. -/
structure Showing (color : UInt8) (count : Nat) (log bar : List UInt8) (w : Screen) : Prop where
  cursor : w.progressCursor = ⟨1, 20⟩
  alike : Alike w.console (run log (start color))
  shown : ∃ out, Displays w.console out ∧
    out.filter (outside count) = (printed log (start color)).filter (·.2 < 0x80) ∧
    ∀ i, i < count + 2 → cell out (100 + i) = bar[i]?

section Tasks

variable (above : Stream' UInt32)

/-- All that `stage2_load` prints. -/
def stage2Log (tasks : List Init) (m : Mem32) : List UInt8 :=
  headLog ++ tasksLog above tasks.length 0 tasks m ++ text "stage 2 finished\n\n "

/-- What the screen is like when the function of a task is called, after those before it. -/
def whenCalled (count : Nat) (pre : List Init) (task : Init) (w : Screen) : Option Screen :=
  (Screen.runTasks above (UInt16.ofNat count) 0 pre w.begin).bind
    (Screen.announce above task (1 + UInt16.ofNat pre.length) (UInt16.ofNat count))

end Tasks

end Screen

end ToyBootloader
