import MarkupEdit.Text.Ascii
import MarkupEdit.Text.Blank

/-!
# Lengths

Lengths of styles, exact: a magnitude is a whole number of thousandths of its unit, and a text that
would need rounding is none. Magnitudes fit in 64 bits with sign.

* `thousandths?`: a numeral in thousandths.
* `Length.parse?`: a numeral and its unit.
* `Length.pixels?`: a length in thousandths of a pixel.
-/

namespace MarkupEdit.Style

open MarkupEdit.Text

/-- A unit of length; no unit at all is one too. -/
inductive LengthUnit where
  | none
  | px
  | rem
  | em
  | percent
  | vh
  | vw
  deriving DecidableEq, Repr

namespace LengthUnit

def all : List LengthUnit := [none, px, rem, em, percent, vh, vw]

def name : LengthUnit → String
  | none => ""
  | px => "px"
  | rem => "rem"
  | em => "em"
  | percent => "%"
  | vh => "vh"
  | vw => "vw"

/-- The unit with a name, in whatever case it is written. -/
def ofName? (s : String) : Option LengthUnit := all.find? (fun unit => unit.name == asciiLower s)

end LengthUnit

/-- A whole number that fits in 64 bits with sign. -/
def fits64? (n : Int) : Option Int :=
  if -9223372036854775808 ≤ n && n ≤ 9223372036854775807 then some n else none

/-- The number that ASCII digits write. -/
def digitsValue (s : List Char) : Nat := s.foldl (fun n c => n * 10 + (c.toNat - 48)) 0

/-- The whole number that digits write, perhaps behind a sign. -/
def integer? (s : List Char) : Option Int :=
  let (negative, digits) := match s with
    | '-' :: rest => (true, rest)
    | '+' :: rest => (false, rest)
    | _ => (false, s)
  if isDigits digits then
    fits64? (if negative then -(digitsValue digits : Int) else digitsValue digits)
  else none

/-- The fraction that at most three digits write, in thousandths. -/
def fraction? (s : List Char) : Option Nat :=
  if s.length ≤ 3 && s.all isAsciiDigit then
    some (digitsValue (s ++ List.replicate (3 - s.length) '0'))
  else none

/-- A numeral in thousandths: a sign, digits, a point and at most three more digits, where either
run of digits may be missing. -/
def thousandths? (s : List Char) : Option Int :=
  let (negative, digits) := match s with
    | '-' :: rest => (true, rest)
    | '+' :: rest => (false, rest)
    | _ => (false, s)
  let (whole, fraction) := (splitFirst? (· == '.') digits).getD (digits, [])
  if whole.isEmpty && fraction.isEmpty then none
  else
    match fraction? fraction, (if whole.isEmpty then some 0 else integer? whole) with
    | some f, some w =>
      ((fits64? (w * 1000)).bind (fun n => fits64? (n + f))).bind
        (fun n => fits64? (if negative then -n else n))
    | _, _ => none

/-- A magnitude in thousandths of a unit. -/
structure Length where
  thousandths : Int
  unit : LengthUnit
  deriving DecidableEq, Repr

namespace Length

/-- The length of the numeral at the start of a text; a sign may only come first. -/
def numeralLength : List Char → Nat
  | [] => 0
  | c :: s =>
    if isAsciiDigit c || c == '.' || c == '-' || c == '+' then
      (s.takeWhile (fun d => isAsciiDigit d || d == '.')).length + 1
    else 0

/-- A length such as `16px`, `-0.5rem` or `50%`, with blanks around it. -/
def parse? (s : String) : Option Length :=
  let s := trim s.toList
  let n := numeralLength s
  match LengthUnit.ofName? (String.ofList (s.drop n)), thousandths? (s.take n) with
  | some unit, some magnitude => some ⟨magnitude, unit⟩
  | _, _ => none

def isZero (l : Length) : Bool := l.thousandths == 0

def isNegative (l : Length) : Bool := l.thousandths < 0

/-- The length without its sign. -/
def abs (l : Length) : Length := { l with thousandths := l.thousandths.natAbs }

/-- Pixels per root em. -/
def pixelsPerRem : Int := 16

/-- The length in thousandths of a pixel; only pixels, root ems and a zero without unit have one. -/
def pixels? (l : Length) : Option Int :=
  match l.unit with
  | .px => some l.thousandths
  | .rem => fits64? (l.thousandths * pixelsPerRem)
  | .none => if l.thousandths = 0 then some 0 else none
  | _ => none

end Length

end MarkupEdit.Style
