import ToyBootloader.Stage2.Printf

/-!
# What `stage2_load` prints

`load.c`, as far as the console goes: each task is announced and called, and above them a
bar shows how far they are. A task is what it leaves in memory and what it prints. The
counter of the loop that draws the bar has 16 bits, and where there are 65535 tasks it never
gets past them. Nothing is said of a line that `printf_buf` is too small for.
-/

namespace ToyBootloader

open Memory Printf

/-- `struct init` -/
structure Init where
  /-- What the function leaves in memory, and what it prints. -/
  fun_ : Mem32 → Mem32 × List UInt8
  name : UInt32
  file : UInt32

/-- Memory, the console, and `progress_cursor`. -/
structure Screen where
  memory : Mem32
  console : Console
  progressCursor : CurPos

namespace Screen

def blue : UInt8 := 1
def lightGray : UInt8 := 7
def yellow : UInt8 := 13

/-- `COLOR` -/
def COLOR (c : UInt8) : UInt32 := 0xF0 ||| c.toUInt32

/-- `puts` -/
def puts (s : List UInt8) (w : Screen) : Screen := { w with console := w.console.puts (s ++ [0]) }

/-- `printf`, where what is printed has room in `printf_buf`, with the zero after it. -/
def printf (fmt : List UInt8) (args : Stream' UInt32) (w : Screen) : Option Screen :=
  if (vsprintf fmt args w.memory).written.length < 1024 then
    let (memory, console) := Printf.printf fmt args w.memory w.console
    some { w with memory, console }
  else none

/-- The `for` loop of `update_progress_bar`, from `i` on. -/
def barLoop (curr count : UInt16) : (fuel : Nat) → UInt16 → Option (List UInt8)
  | 0, _ => none
  | fuel + 1, i =>
    if i ≤ count then
      let c := if i < curr then '='.toUInt8 else if i = curr then '>'.toUInt8 else ' '.toUInt8
      (barLoop curr count fuel (i + 1)).map (c :: ·)
    else some []

/-- `update_progress_bar`. A counter that has not come to an end in 65536 turns never does. -/
def updateProgressBar (curr count : UInt16) (w : Screen) : Option Screen :=
  let baseCur := w.console.cursorPos
  let baseColor := w.console.curColor
  (barLoop curr count 65536 1).map fun cells =>
    let t := w.console.setColor yellow
    let t := { t with cursorPos := w.progressCursor }
    let t := ((t.putc '['.toUInt8).run cells).putc ']'.toUInt8
    let t := { t with cursorPos := baseCur }
    { w with console := t.setColor baseColor }

/-- The format of the line before each task. -/
def taskFormat : List UInt8 :=
  text "executing `%c%s%c` in `%c%s%c` (%c%hu%c of %c%hu%c)\n"

/-- The words that are pushed for it, with what is above them on the stack. -/
def taskArgs (task : Init) (currentTask taskCount : UInt16) (above : Stream' UInt32) :
    Stream' UInt32 :=
  [COLOR blue, task.name, COLOR lightGray, COLOR blue, task.file, COLOR lightGray,
    COLOR blue, currentTask.toUInt32, COLOR lightGray,
    COLOR blue, taskCount.toUInt32, COLOR lightGray] ++ₛ above

variable (above : Stream' UInt32)

/-- What comes before a task's function is called. -/
def announce (task : Init) (currentTask taskCount : UInt16) (w : Screen) : Option Screen :=
  (w.updateProgressBar currentTask taskCount).bind
    (printf taskFormat (taskArgs task currentTask taskCount above))

/-- The function, and what comes after it. -/
def call (task : Init) (w : Screen) : Option Screen :=
  let (memory, out) := task.fun_ w.memory
  { w with memory, console := w.console.run out }.printf (text "done\n\n") above

/-- The loop over the tasks, from the `i`th on. -/
def runTasks (taskCount : UInt16) : (i : Nat) → List Init → Screen → Option Screen
  | _, [], w => some w
  | i, task :: tasks, w =>
    (w.announce above task (1 + UInt16.ofNat i) taskCount).bind fun w =>
      (w.call above task).bind (runTasks taskCount (i + 1) tasks)

/-- What comes before the loop. -/
def begin (w : Screen) : Screen :=
  let w := w.puts (text "stage 2 loaded\n")
  let w := { w with console := w.console.setColor lightGray }
  let w := w.puts (text "executing stage 2 : ")
  let w := { w with progressCursor := w.console.cursorPos }
  w.puts (text "\n")

/-- `stage2_load` -/
def stage2Load (tasks : List Init) (w : Screen) : Option Screen :=
  let taskCount := UInt16.ofNat tasks.length
  (runTasks above taskCount 0 tasks w.begin).bind fun w =>
    (w.updateProgressBar (taskCount + 1) taskCount).bind
      (printf (text "stage 2 finished\n\n ") above)

end Screen

end ToyBootloader
