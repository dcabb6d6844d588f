import Mathlib.Data.Stream.Init
import ToyBootloader.Memory.Stack
import ToyBootloader.Stage2.Print

/-!
# Stage 2's `printf`

`printf.c`, where `int`, `long` and a pointer are 32 bits each and take one word of the
stack as an argument. A format is its bytes without the terminating zero, `va_list` the
words from the first argument upwards, and `Printing` where `vsprintf` has got to. The
buffer is kept apart from the memory that `%s` reads and `%n` writes.
-/

namespace ToyBootloader.Printf

open Memory

/-- The bytes of a literal. -/
def text (s : String) : List UInt8 := s.toList.map Char.toUInt8

/-- `isdigit` -/
def isdigit (c : UInt8) : Bool := '0'.toUInt8 ≤ c && c ≤ '9'.toUInt8

/-- `skip_atoi`, with what has been read so far, and what comes after the digits. A number that
does not fit wraps. -/
def skipAtoi : List UInt8 → Int32 → Int32 × List UInt8
  | [], i => (i, [])
  | c :: fmt, i =>
    if isdigit c then skipAtoi fmt (i * 10 + Int32.ofNat c.toNat - Int32.ofNat '0'.toNat)
    else (i, c :: fmt)

/-- pad with zero -/
def ZEROPAD : UInt8 := 1
/-- unsigned/signed long -/
def SIGN : UInt8 := 2
/-- show plus -/
def PLUS : UInt8 := 4
/-- space if plus -/
def SPACE : UInt8 := 8
/-- left justified -/
def LEFT : UInt8 := 16
/-- Must be 32 == 0x20 -/
def SMALL : UInt8 := 32
/-- 0x -/
def SPECIAL : UInt8 := 64

/-! ## `number` -/

/-- A base that `number` takes. For any other it returns `NULL`. -/
structure Base where
  value : UInt32
  valid : 2 ≤ value ∧ value ≤ 16

instance : OfNat Base 8 := ⟨⟨8, by decide⟩⟩
instance : OfNat Base 10 := ⟨⟨10, by decide⟩⟩
instance : OfNat Base 16 := ⟨⟨16, by decide⟩⟩

/-- `digits` -/
def digits : List UInt8 := text "0123456789ABCDEF"

/-- The loop that fills `tmp`, the last digit first. -/
def tmpDigits (base : Base) (locase : UInt8) : Nat → UInt32 → List UInt8
  | 0, _ => []
  | fuel + 1, num =>
    if num = 0 then []
    else (digits.getD (num % base.value).toNat 0 ||| locase) ::
      tmpDigits base locase fuel (num / base.value)

/-- What `number` writes in `tmp`: in base 2 or more no number has more than 32 digits. -/
def tmp (base : Base) (locase : UInt8) (num : UInt32) : List UInt8 :=
  if num = 0 then ['0'.toUInt8] else tmpDigits base locase 32 num

/-- `while (size-- > 0) *str++ = c;`, and the size it leaves. -/
def fill (size : Int) (c : UInt8) : List UInt8 × Int :=
  (List.replicate size.toNat c, min size 0 - 1)

/-- The sign, 0 for none, the number without it, and the size that is left. -/
def takeSign (num : UInt32) (size : Int) (type : UInt8) : UInt8 × UInt32 × Int :=
  if type &&& SIGN ≠ 0 then
    if num.toInt32 < 0 then ('-'.toUInt8, -num, size - 1)
    else if type &&& PLUS ≠ 0 then ('+'.toUInt8, num, size - 1)
    else if type &&& SPACE ≠ 0 then (' '.toUInt8, num, size - 1)
    else (0, num, size)
  else (0, num, size)

/-- `number`: what it adds at `str`. -/
def number (num : UInt32) (base : Base) (size precision : Int) (type : UInt8) : List UInt8 :=
  let locase := type &&& SMALL
  let type := if type &&& LEFT ≠ 0 then type &&& ~~~ZEROPAD else type
  let c := if type &&& ZEROPAD ≠ 0 then '0'.toUInt8 else ' '.toUInt8
  let (sign, num, size) := takeSign num size type
  let size :=
    if type &&& SPECIAL ≠ 0 then
      if base.value = 16 then size - 2 else if base.value = 8 then size - 1 else size
    else size
  let tmp := tmp base locase num
  let precision := max (tmp.length : Int) precision
  let size := size - precision
  let (before, size) := if type &&& (ZEROPAD + LEFT) = 0 then fill size ' '.toUInt8 else ([], size)
  let sign := if sign ≠ 0 then [sign] else []
  let special :=
    if type &&& SPECIAL ≠ 0 then
      if base.value = 8 then ['0'.toUInt8]
      else if base.value = 16 then ['0'.toUInt8, 'X'.toUInt8 ||| locase] else []
    else []
  let (padding, size) := if type &&& LEFT = 0 then fill size c else ([], size)
  let zeros := List.replicate (precision - tmp.length).toNat '0'.toUInt8
  let (after, _) := fill size ' '.toUInt8
  before ++ sign ++ special ++ padding ++ zeros ++ tmp.reverse ++ after

/-! ## `vsprintf` -/

/-- What has been written at `buf`, the arguments to come, and memory. -/
structure Printing where
  written : List UInt8
  args : Stream' UInt32
  memory : Mem32

namespace Printing

/-- `*str++ = ...`, for each of the characters. -/
def put (p : Printing) (cs : List UInt8) : Printing := { p with written := p.written ++ cs }

/-- `va_arg`: the next word of the stack. -/
def vaArg (p : Printing) : UInt32 × Printing := (p.args.head, { p with args := p.args.tail })

end Printing

/-- process flags -/
def flagsOf : List UInt8 → UInt8 → UInt8 × List UInt8
  | [], flags => (flags, [])
  | c :: fmt, flags =>
    if c = '-'.toUInt8 then flagsOf fmt (flags ||| LEFT)
    else if c = '+'.toUInt8 then flagsOf fmt (flags ||| PLUS)
    else if c = ' '.toUInt8 then flagsOf fmt (flags ||| SPACE)
    else if c = '#'.toUInt8 then flagsOf fmt (flags ||| SPECIAL)
    else if c = '0'.toUInt8 then flagsOf fmt (flags ||| ZEROPAD)
    else (flags, c :: fmt)

/-- get field width -/
def fieldWidthOf (fmt : List UInt8) (flags : UInt8) (p : Printing) :
    Int × UInt8 × List UInt8 × Printing :=
  match fmt with
  | [] => (-1, flags, [], p)
  | c :: rest =>
    if isdigit c then
      let (fieldWidth, rest) := skipAtoi (c :: rest) 0
      (fieldWidth.toInt, flags, rest, p)
    else if c = '*'.toUInt8 then
      -- it's the next argument
      let (arg, p) := p.vaArg
      let fieldWidth := arg.toInt32.toInt
      if fieldWidth < 0 then (-fieldWidth, flags ||| LEFT, rest, p)
      else (fieldWidth, flags, rest, p)
    else (-1, flags, c :: rest, p)

/-- get the precision -/
def precisionOf (fmt : List UInt8) (p : Printing) : Int × List UInt8 × Printing :=
  match fmt with
  | [] => (-1, [], p)
  | c :: rest =>
    if c = '.'.toUInt8 then
      match rest with
      | [] => (0, [], p)
      | d :: rest =>
        if isdigit d then
          let (precision, rest) := skipAtoi (d :: rest) 0
          (max 0 precision.toInt, rest, p)
        else if d = '*'.toUInt8 then
          -- it's the next argument
          let (arg, p) := p.vaArg
          (max 0 arg.toInt32.toInt, rest, p)
        else (0, d :: rest, p)
    else (-1, c :: rest, p)

/-- get the conversion qualifier: 0 where there is none -/
def qualifierOf : List UInt8 → UInt8 × List UInt8
  | [] => (0, [])
  | c :: fmt =>
    if c = 'h'.toUInt8 ∨ c = 'l'.toUInt8 ∨ c = 'L'.toUInt8 then (c, fmt) else (0, c :: fmt)

/-- `strnlen` -/
def strnlen (m : Mem32) (s : UInt32) : (maxlen : Nat) → Nat
  | 0 => 0
  | maxlen + 1 => if m s = 0 then 0 else strnlen m (s + 1) maxlen + 1

/-- The bytes of a string. -/
def bytesAt (m : Mem32) (s : UInt32) (len : Nat) : List UInt8 :=
  (List.range len).map fun i => m (s + UInt32.ofNat i)

/-- `case 'c'`: the width counts the character. -/
def putChar (flags : UInt8) (fieldWidth : Int) (p : Printing) : Printing :=
  let (before, fieldWidth) :=
    if flags &&& LEFT = 0 then
      (List.replicate (fieldWidth - 1).toNat ' '.toUInt8, min (fieldWidth - 1) 0)
    else ([], fieldWidth)
  let (arg, p) := p.vaArg
  p.put (before ++ [arg.toUInt8] ++ List.replicate (fieldWidth - 1).toNat ' '.toUInt8)

/-- `case 's'` -/
def putString (flags : UInt8) (fieldWidth precision : Int) (p : Printing) : Printing :=
  let (s, p) := p.vaArg
  let n := strnlen p.memory s (UInt32.ofInt precision).toNat
  let len := (UInt32.ofNat n).toInt32.toInt
  let (before, fieldWidth) :=
    if flags &&& LEFT = 0 then
      (List.replicate (fieldWidth - len).toNat ' '.toUInt8, min fieldWidth len - 1)
    else ([], fieldWidth)
  p.put (before ++ bytesAt p.memory s len.toNat ++
    List.replicate (fieldWidth - len).toNat ' '.toUInt8)

/-- `case 'p'` -/
def putPointer (flags : UInt8) (fieldWidth precision : Int) (p : Printing) : Printing :=
  let (fieldWidth, flags) :=
    if fieldWidth = -1 then (2 * 4, flags ||| ZEROPAD) else (fieldWidth, flags)
  let (arg, p) := p.vaArg
  p.put (number arg 16 fieldWidth precision flags)

/-- `case 'n'` -/
def putCount (p : Printing) : Printing :=
  let (ip, p) := p.vaArg
  { p with memory := store32 p.memory ip (UInt32.ofNat p.written.length) }

/-- The integer formats, with the flags and the base set up. -/
def putInteger (base : Base) (flags : UInt8) (fieldWidth precision : Int) (qualifier : UInt8)
    (p : Printing) : Printing :=
  let (arg, p) := p.vaArg
  let num :=
    if qualifier = 'h'.toUInt8 then
      if flags &&& SIGN ≠ 0 then arg.toUInt16.toInt16.toInt32.toUInt32 else arg.toUInt16.toUInt32
    else arg
  p.put (number num base fieldWidth precision flags)

/-- The switch on the conversion. -/
def convert (c : UInt8) (flags : UInt8) (fieldWidth precision : Int) (qualifier : UInt8)
    (p : Printing) : Printing :=
  if c = 'c'.toUInt8 then putChar flags fieldWidth p
  else if c = 's'.toUInt8 then putString flags fieldWidth precision p
  else if c = 'p'.toUInt8 then putPointer flags fieldWidth precision p
  else if c = 'n'.toUInt8 then putCount p
  else if c = '%'.toUInt8 then p.put ['%'.toUInt8]
  else if c = 'o'.toUInt8 then putInteger 8 flags fieldWidth precision qualifier p
  else if c = 'x'.toUInt8 then
    putInteger 16 (flags ||| SMALL) fieldWidth precision qualifier p
  else if c = 'X'.toUInt8 then putInteger 16 flags fieldWidth precision qualifier p
  else if c = 'd'.toUInt8 ∨ c = 'i'.toUInt8 then
    putInteger 10 (flags ||| SIGN) fieldWidth precision qualifier p
  else if c = 'u'.toUInt8 then putInteger 10 flags fieldWidth precision qualifier p
  else p.put ['%'.toUInt8, c]

/-- What comes after a `%`, and the format after it. -/
def directive (fmt : List UInt8) (p : Printing) : List UInt8 × Printing :=
  let (flags, fmt) := flagsOf fmt 0
  let (fieldWidth, flags, fmt, p) := fieldWidthOf fmt flags p
  let (precision, fmt, p) := precisionOf fmt p
  let (qualifier, fmt) := qualifierOf fmt
  match fmt with
  | [] => ([], p.put ['%'.toUInt8])
  | c :: fmt => (fmt, convert c flags fieldWidth precision qualifier p)

/-- The loop over the format, each time round at least one character further. -/
def loop : (fuel : Nat) → List UInt8 → Printing → Printing
  | 0, _, p => p
  | _ + 1, [], p => p
  | fuel + 1, c :: fmt, p =>
    if c ≠ '%'.toUInt8 then loop fuel fmt (p.put [c])
    else
      let (fmt, p) := directive fmt p
      loop fuel fmt p

/-- `vsprintf`, up to the terminating zero, which comes after what is written. -/
def vsprintf (fmt : List UInt8) (args : Stream' UInt32) (m : Mem32) : Printing :=
  loop fmt.length fmt ⟨[], args, m⟩

/-- `printf`: what is in `printf_buf` goes to `puts`. The buffer is taken to be long enough. -/
def printf (fmt : List UInt8) (args : Stream' UInt32) (m : Mem32) (t : Console) : Mem32 × Console :=
  let p := vsprintf fmt args m
  (p.memory, t.puts (p.written ++ [0]))

end ToyBootloader.Printf
