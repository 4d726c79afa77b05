/-!
# Double precision

Binary floating point numbers of 64 bits. Every finite one is a whole multiple of the least,
`2 ^ -1074`, so they are compared and rounded as natural numbers.

* `nearest`: the double that is nearest to a quotient.
* `Double.ofScientific?`: the double that a decimal numeral stands for.
* `Double.text`: the fewest digits that read back.
-/

namespace MarkupEdit.Number

/-- The number of least doubles in one. -/
def leastPerUnit : Nat := Nat.pow 2 1074

/-- A quotient rounded to a whole number; a half goes to the even neighbour. -/
def roundHalfEven (num den : Nat) : Nat :=
  let q := num / den
  let r := num % den
  if 2 * r < den || (2 * r == den && q % 2 == 0) then q else q + 1

/-- The distance to the next double, at a magnitude. A significand has 53 bits. -/
def gap (magnitude : Nat) : Nat := Nat.pow 2 (magnitude.log2 - 52)

/-- The double nearest to a quotient, as a multiple of the least. -/
def nearest (num den : Nat) : Nat :=
  let unit := gap (num * leastPerUnit / den)
  roundHalfEven (num * leastPerUnit) (den * unit) * unit

/-- A finite double: a sign and a multiple of the least. -/
structure Double where
  negative : Bool
  magnitude : Nat
  deriving DecidableEq, Repr

namespace Double

/-- The double nearest to a quotient that is not negative. -/
def ofRatio (num den : Nat) : Double := ⟨false, nearest num den⟩

/-- Where the doubles end. -/
def overflow : Nat := Nat.pow 2 1024 * leastPerUnit

/-- The product with a whole number, rounded. -/
def times (m n : Nat) : Nat := nearest (m * n) leastPerUnit

/-- The quotient by a whole number, rounded. -/
def dividedBy (m n : Nat) : Nat := nearest m (leastPerUnit * n)

/-- As many leading digits as fit in 64 bits, and the exponent that makes up for the others. -/
def clipped (fuel digits : Nat) (exponent : Int) : Nat × Int :=
  match fuel with
  | 0 => (digits, exponent)
  | fuel + 1 =>
    if digits < UInt64.size then (digits, exponent) else clipped fuel (digits / 10) (exponent + 1)

/-- The multiple of the least double for `digits · 10^exponent`. The digits are rounded first, then
their product with the power of ten or their quotient by it. -/
def scaled? (digits : Nat) (exponent : Int) : Option Nat :=
  let m := nearest digits 1
  if digits = 0 then some 0
  else if 308 < exponent then none
  else if 0 ≤ exponent then
    let product := times m (nearest (Nat.pow 10 exponent.toNat) 1 / leastPerUnit)
    if product < overflow then some product else none
  else
    let n := (-exponent).toNat
    if n ≤ 308 then some (dividedBy m (nearest (Nat.pow 10 n) 1 / leastPerUnit))
    else if n ≤ 700 then
      some (dividedBy (dividedBy m (nearest (Nat.pow 10 308) 1 / leastPerUnit))
        (nearest (Nat.pow 10 (n - 308)) 1 / leastPerUnit))
    else some 0

/-- The double that `±digits · 10^exponent` stands for, unless it is too large for one. -/
def ofScientific? (negative : Bool) (digits : Nat) (exponent : Int) : Option Double :=
  let (digits, exponent) := clipped (digits.log2 + 1) digits exponent
  (scaled? digits exponent).map (fun magnitude => ⟨negative, magnitude⟩)

def isWithinUnit (d : Double) : Bool :=
  (!d.negative || d.magnitude == 0) && d.magnitude ≤ leastPerUnit

/-- Whether a double reaches a floor. -/
def reaches (d floor : Double) : Bool :=
  match d.negative, floor.negative with
  | false, false => floor.magnitude ≤ d.magnitude
  | false, true => true
  | true, false => d.magnitude == 0 && floor.magnitude == 0
  | true, true => d.magnitude ≤ floor.magnitude

/-! ## Text -/

/-- Twice the distance to the neighbour below. -/
def gapBelowTwice (m : Nat) : Nat :=
  if m == Nat.pow 2 m.log2 && 53 ≤ m.log2 then gap m else 2 * gap m

/-- The number of digits in front of the point of a magnitude; below one tenth it is negative. -/
def wholeDigits (m : Nat) : Int :=
  if leastPerUnit ≤ m then ((Nat.toDigits 10 (m / leastPerUnit)).length : Int)
  else -(((List.range 330).find? (fun j => leastPerUnit ≤ m * Nat.pow 10 (j + 1))).getD 0 : Int)

/-- The multiple of `10^exponent` that reads back as a magnitude, the nearer one if there are two.
-/
def onGrid? (m : Nat) (exponent : Int) : Option Nat :=
  let up := Nat.pow 10 (-exponent).toNat
  let num := m * up
  let den := leastPerUnit * Nat.pow 10 exponent.toNat
  let inclusive := (m / gap m) % 2 == 0
  let fits (distance halfGap : Nat) : Bool :=
    if inclusive then distance ≤ halfGap else distance < halfGap
  let below := num / den
  let under := 4 * (num - below * den)
  let beyond := 4 * ((below + 1) * den - num)
  match fits under (gapBelowTwice m * up), fits beyond (2 * gap m * up) with
  | true, true => some (if under ≤ beyond then below else below + 1)
  | true, false => some below
  | false, true => some (below + 1)
  | false, false => none

/-- The fewest digits that read back as a magnitude, and their exponent. -/
def shortest (m : Nat) : Nat × Int :=
  let places := wholeDigits m
  (((List.range 17).filterMap (fun (n : Nat) =>
    let exponent : Int := places - (n + 1 : Nat)
    (onGrid? m exponent).map (fun digits => (digits, exponent)))).head?).getD (0, 0)

/-- A decimal numeral in positional notation. -/
def positional (digits : Nat) (exponent : Int) : String :=
  let written := Nat.toDigits 10 digits
  if 0 ≤ exponent then String.ofList (written ++ List.replicate exponent.toNat '0')
  else
    let places := (-exponent).toNat
    let padded := List.replicate (places + 1 - written.length) '0' ++ written
    let whole := padded.take (padded.length - places)
    let fraction := ((padded.drop (padded.length - places)).reverse.dropWhile (· == '0')).reverse
    String.ofList (if fraction.isEmpty then whole else whole ++ '.' :: fraction)

/-- The fewest digits that read back, without an exponent. -/
def text (d : Double) : String :=
  (if d.negative then "-" else "") ++
    (if d.magnitude = 0 then "0"
    else positional (shortest d.magnitude).1 (shortest d.magnitude).2)

end Double

end MarkupEdit.Number
