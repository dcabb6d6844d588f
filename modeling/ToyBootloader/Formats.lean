import ToyBootloader.Numerals.Figure
import ToyBootloader.Stage2.Printf

/-!
# Formats

What a format says, apart from what is printed with it: characters, and directives with
their flags, width, precision, qualifier and conversion. `parse` reads a format, `Piece.run`
carries a piece of one out, and `arity` counts the words of the stack that one takes, which
the format settles by itself. `Piece.text` writes a piece down again, and `scanText` reads
with a format what has been printed with it.
-/

namespace ToyBootloader.Printf

open Numerals

/-! ## What a number is printed as -/

section Layout

variable (num : UInt32) (base : Base) (precision : Int) (type : UInt8)

/-- What stands for the sign. -/
def signOf : Sign :=
  if type &&& SIGN = 0 then .none
  else if num.toInt32 < 0 then .minus
  else if type &&& PLUS ≠ 0 then .plus
  else if type &&& SPACE ≠ 0 then .blank
  else .none

/-- The number without it. -/
def magnitudeOf : UInt32 := if signOf num type = .minus then -num else num

/-- The mark of the base. -/
def markOf : List UInt8 :=
  if type &&& SPECIAL = 0 then []
  else if base.value = 8 then [0x30]
  else if base.value = 16 then [0x30, 'X'.toUInt8 ||| (type &&& SMALL)]
  else []

/-- The digits, in the precision asked for. -/
def digitsOf : List UInt8 :=
  let tmp := tmp base (type &&& SMALL) (magnitudeOf num type)
  List.replicate (max (tmp.length : Int) precision - tmp.length).toNat 0x30 ++ tmp.reverse

/-- What the field is filled up with. -/
def fillingOf : Filling :=
  if type &&& LEFT ≠ 0 then .after else if type &&& ZEROPAD ≠ 0 then .zeros else .before

/-- The number that the bits are. -/
def numberOf : Int := if type &&& SIGN = 0 then num.toNat else num.toInt32.toInt

end Layout

/-! ## What a format is -/

/-- A width or a precision. -/
inductive Amount
  | none
  | given (i : Int)
  /-- It's the next argument. -/
  | star
  deriving DecidableEq

/-- What comes after a `%`. There is no conversion where the format ends before one. -/
structure Spec where
  flags : UInt8
  width : Amount
  precision : Amount
  qualifier : UInt8
  conversion : Option UInt8
  deriving DecidableEq

inductive Piece
  | char (c : UInt8)
  | spec (s : Spec)
  deriving DecidableEq

/-! ## Reading one -/

def parseWidth : List UInt8 → Amount × List UInt8
  | [] => (.none, [])
  | c :: rest =>
    if isdigit c then
      let (i, rest) := skipAtoi (c :: rest) 0
      (.given i.toInt, rest)
    else if c = '*'.toUInt8 then (.star, rest)
    else (.none, c :: rest)

/-- A point and nothing after it. -/
def Amount.orZero : Amount → Amount
  | none => given 0
  | amount => amount

def parsePrecision : List UInt8 → Amount × List UInt8
  | [] => (.none, [])
  | c :: rest =>
    if c = '.'.toUInt8 then
      let (amount, rest) := parseWidth rest
      (amount.orZero, rest)
    else (.none, c :: rest)

def parseSpec (fmt : List UInt8) : Spec × List UInt8 :=
  let (flags, fmt) := flagsOf fmt 0
  let (width, fmt) := parseWidth fmt
  let (precision, fmt) := parsePrecision fmt
  let (qualifier, fmt) := qualifierOf fmt
  (⟨flags, width, precision, qualifier, fmt.head?⟩, fmt.tail)

/-- A piece at a time, each of at least one character. -/
def pieces : (fuel : Nat) → List UInt8 → List Piece
  | 0, _ => []
  | _ + 1, [] => []
  | fuel + 1, c :: fmt =>
    if c ≠ '%'.toUInt8 then .char c :: pieces fuel fmt
    else .spec (parseSpec fmt).1 :: pieces fuel (parseSpec fmt).2

def parse (fmt : List UInt8) : List Piece := pieces fmt.length fmt

/-- The format ends before the conversion. -/
def Piece.isBroken : Piece → Bool
  | char _ => false
  | spec s => s.conversion.isNone

/-- No directive breaks off. -/
def Closed (fmt : List UInt8) : Prop := ∀ piece ∈ parse fmt, piece.isBroken = false

instance (fmt : List UInt8) : Decidable (Closed fmt) := inferInstanceAs (Decidable (∀ _ ∈ _, _))

/-- What is written goes to memory, and not to the buffer. -/
def Piece.isStore : Piece → Bool
  | char _ => false
  | spec s => s.conversion == some 'n'.toUInt8

/-! ## Carrying it out -/

/-- The width, and the flags with it: a negative one justifies to the left. -/
def Amount.asWidth (flags : UInt8) (p : Printing) : Amount → Int × UInt8 × Printing
  | none => (-1, flags, p)
  | given i => (i, flags, p)
  | star =>
    let (arg, p) := p.vaArg
    let fieldWidth := arg.toInt32.toInt
    if fieldWidth < 0 then (-fieldWidth, flags ||| LEFT, p) else (fieldWidth, flags, p)

def Amount.asPrecision (p : Printing) : Amount → Int × Printing
  | none => (-1, p)
  | given i => (max 0 i, p)
  | star =>
    let (arg, p) := p.vaArg
    (max 0 arg.toInt32.toInt, p)

def Spec.run (s : Spec) (p : Printing) : Printing :=
  let (fieldWidth, flags, p) := s.width.asWidth s.flags p
  let (precision, p) := s.precision.asPrecision p
  match s.conversion with
  | none => p.put ['%'.toUInt8]
  | some c => convert c flags fieldWidth precision s.qualifier p

def Piece.run : Piece → Printing → Printing
  | char c, p => p.put [c]
  | spec s, p => s.run p

def runAll (ps : List Piece) (p : Printing) : Printing := ps.foldl (fun p piece => piece.run p) p

/-! ## The arguments it takes -/

def Amount.arity : Amount → Nat
  | star => 1
  | _ => 0

/-- The conversions that print an argument, or store through one. -/
def taking : List UInt8 := text "cspnoxXdiu"

def Spec.arity (s : Spec) : Nat :=
  s.width.arity + s.precision.arity +
    match s.conversion with
    | some c => if c ∈ taking then 1 else 0
    | none => 0

def Piece.arity : Piece → Nat
  | char _ => 0
  | spec s => s.arity

def arity (fmt : List UInt8) : Nat := ((parse fmt).map Piece.arity).sum

/-! ## Writing it down -/

/-- The flags, and the characters they are written with. -/
def flagChars : List (UInt8 × UInt8) :=
  [('-'.toUInt8, LEFT), ('+'.toUInt8, PLUS), (' '.toUInt8, SPACE), ('#'.toUInt8, SPECIAL),
    ('0'.toUInt8, ZEROPAD)]

def flagsText (flags : UInt8) : List UInt8 :=
  (flagChars.filter fun f => flags &&& f.2 ≠ 0).map Prod.fst

def Amount.text : Amount → List UInt8
  | none => []
  | given i => decimal i.toNat
  | star => ['*'.toUInt8]

def Amount.precisionText : Amount → List UInt8
  | none => []
  | amount => '.'.toUInt8 :: amount.text

def Spec.text (s : Spec) : List UInt8 :=
  '%'.toUInt8 :: (flagsText s.flags ++ (s.width.text ++ (s.precision.precisionText ++
    ((if s.qualifier = 0 then [] else [s.qualifier]) ++ s.conversion.toList))))

def Piece.text : Piece → List UInt8
  | char c => [c]
  | spec s => s.text

/-- The characters that mean something before the conversion. -/
def reserved : List UInt8 := Printf.text "-+ #0123456789*.hlL"

/-- A number that an `int` holds, from `low` on. -/
def Amount.Fits (low : Int) (amount : Amount) : Prop :=
  ∀ i, amount = given i → low ≤ i ∧ i < 2147483648

/-- A directive that can be written: the flags are flags, a width is not zero, width and precision
do not overflow, and the conversion is not taken for anything else. -/
structure Spec.Plain (s : Spec) : Prop where
  flags : s.flags &&& ~~~(LEFT ||| PLUS ||| SPACE ||| SPECIAL ||| ZEROPAD) = 0
  width : s.width.Fits 1
  precision : s.precision.Fits 0
  qualifier : s.qualifier ∈ 0 :: Printf.text "hlL"
  conversion : ∃ c, s.conversion = some c ∧ c ∉ reserved

def Piece.Plain : Piece → Prop
  | char c => c ≠ '%'.toUInt8
  | spec s => s.Plain

/-! ## Reading with a format -/

/-- The base of a conversion that prints a number. -/
def Spec.base (s : Spec) : Option Base := s.conversion.bind fun c =>
  if c ∈ Printf.text "xXp" then some 16
  else if c ∈ Printf.text "diu" then some 10
  else if c = 'o'.toUInt8 then some 8
  else none

/-- It prints a sign. -/
def Spec.isSigned (s : Spec) : Bool :=
  s.conversion == some 'd'.toUInt8 || s.conversion == some 'i'.toUInt8

/-- An argument, as the qualifier has it. -/
def passed (qualifier : UInt8) (signed : Bool) (arg : UInt32) : UInt32 :=
  if qualifier = 'h'.toUInt8 then
    if signed then arg.toUInt16.toInt16.toInt32.toUInt32 else arg.toUInt16.toUInt32
  else arg

/-- The number that is printed for an argument. -/
def Spec.number (s : Spec) (arg : UInt32) : Int :=
  let num := if s.conversion = some 'p'.toUInt8 then arg else passed s.qualifier s.isSigned arg
  if s.isSigned then num.toInt32.toInt else num.toNat

/-- A directive that prints a number, in a field that is not justified to the left and whose
width and precision are in the format. -/
def Spec.isNumber (s : Spec) : Bool :=
  s.base.isSome && s.flags &&& (LEFT ||| SIGN) == 0 && s.width != .star && s.precision != .star

/-- Numbers, each with a character after it that belongs to none. -/
def Readable : List Piece → Bool
  | [] => true
  | .char _ :: ps => Readable ps
  | .spec s :: ps =>
    s.isNumber && (match ps with
      | .char c :: _ => (digit? c).isNone
      | _ => false) && Readable ps

/-- The numbers that are printed. -/
def numbers : List Piece → Stream' UInt32 → List Int
  | [], _ => []
  | .char _ :: ps, args => numbers ps args
  | .spec s :: ps, args => s.number args.head :: numbers ps args.tail

/-- The numbers at the beginning of a text, and what comes after it. -/
def scanText : List Piece → List UInt8 → Option (List Int × List UInt8)
  | [], cs => some ([], cs)
  | .char c :: ps, cs => if cs.head? = some c then scanText ps cs.tail else none
  | .spec s :: ps, cs => do
    let base ← s.base
    let (n, cs) ← scan base.value.toNat cs
    let (ns, cs) ← scanText ps cs
    return (n :: ns, cs)

end ToyBootloader.Printf
