import Mathlib.Data.List.Defs

/-!
# Stage 2's console

`print.c`: a cursor and a colour of its own, and two services of the BIOS to print with.
`putc` moves the BIOS's cursor to its own, has one character written there and moves its
own cursor on. A `char` is signed, so one of 0x80 or more fills the upper half of the
register it is put in.
-/

namespace ToyBootloader

/-- `struct cur_pos` -/
structure CurPos where
  row : UInt8
  column : UInt8
  deriving DecidableEq, Repr

/-- `int $0x10`, the BIOS video services, with the registers it is given. The others hold
anything. -/
structure Int10 where
  ax : UInt16
  bx : UInt16
  cx : Option UInt16
  dx : Option UInt16
  deriving DecidableEq, Repr

/-- `cursor_pos` and `cur_color`, and what has been asked of the BIOS, in order. -/
structure Console where
  cursorPos : CurPos
  curColor : UInt8
  asked : List Int10
  deriving DecidableEq, Repr

namespace Console

/-- A `char` as an `int`, in a register of 16 bits. -/
def promoted (c : UInt8) : UInt16 := c.toInt8.toInt16.toUInt16

def int10 (r : Int10) (t : Console) : Console := { t with asked := t.asked ++ [r] }

/-- `setpos` -/
def setpos (p : CurPos) (t : Console) : Console :=
  t.int10 ⟨0x0200, 0x0000, none, some ((p.row.toUInt16 <<< 8) ||| p.column.toUInt16)⟩

/-- `writechar` -/
def writechar (c : UInt8) (t : Console) : Console :=
  t.int10 ⟨0x0900 ||| promoted c, 0x0000 ||| promoted t.curColor, some 1, none⟩

/-- `set_color` -/
def setColor (c : UInt8) (t : Console) : Console := { t with curColor := c }

/-- `putc` -/
def putc (c : UInt8) (t : Console) : Console :=
  if c &&& 0xF0 = 0xF0 then t.setColor (c &&& 0xF)
  else if c = 0x0A then { t with cursorPos := ⟨t.cursorPos.row + 1, 0⟩ }
  else
    let t := (t.setpos t.cursorPos).writechar c
    if t.cursorPos.column ≥ 80 then { t with cursorPos := ⟨t.cursorPos.row + 1, 0⟩ }
    else { t with cursorPos := ⟨t.cursorPos.row, t.cursorPos.column + 1⟩ }

/-- `puts`, of the bytes at a pointer: up to the first zero. -/
def puts : List UInt8 → Console → Console
  | [], t => t
  | c :: s, t => if c = 0 then t else puts s (t.putc c)

/-- A sequence of `putc` calls. -/
def run (s : List UInt8) (t : Console) : Console := s.foldl (fun t c => t.putc c) t

/-- The cursor at the top left, in any colour, and nothing asked yet. -/
def start (color : UInt8) : Console := ⟨⟨0, 0⟩, color, []⟩

end Console

/-! ## The BIOS -/

/-- The function asked for, in `ah`. -/
def Int10.function (r : Int10) : UInt8 := (r.ax >>> 8).toUInt8

/-- Where function 2 puts the cursor: the row in `dh` and the column in `dl`. -/
def Int10.cursorSet (r : Int10) : Option CurPos :=
  if r.function = 2 then r.dx.map fun dx : UInt16 => ⟨(dx >>> 8).toUInt8, dx.toUInt8⟩ else none

/-- What is shown: function 9 writes the character in `al` where the cursor is, once. -/
def shown : CurPos → List Int10 → List (CurPos × UInt8)
  | _, [] => []
  | p, r :: rs => match r.cursorSet with
    | some q => shown q rs
    | none =>
      if r.function = 9 ∧ r.cx = some 1 then (p, r.ax.toUInt8) :: shown p rs else shown p rs

end ToyBootloader
