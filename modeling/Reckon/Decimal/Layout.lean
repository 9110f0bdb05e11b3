import Reckon.Decimal.Shortest

/-!
# How numbers are written

A positive number is written from its digits and the power of ten of the
first one, its order. In positional form the point stands where it
belongs; in scientific form it follows the first digit, and the order is
written after an `e`, with a sign and at least two digits. A `Layout`
says which orders are positional and whether a whole number keeps a point
and a zero.

Three texts of a double are built on it:

* `floatText`, its shortest decimal, positional from `1e-4` up to `1e16`;
* `significantText`, a given number of significant digits without zeros
  at the end, positional as long as the digits reach the point;
* `fixedText`, a given number of decimal places.
-/

namespace Reckon

/-- **How a decimal is laid out.** -/
structure Layout where
  /-- The least order written in scientific form. -/
  scientificFrom : Int
  /-- Does a whole number in positional form end in a point and a zero? -/
  wholeMark : Bool

namespace Layout

/-- The least order written in positional form. -/
def positionalFrom : Int := -4

/-- Takes the zeros off the end. -/
def dropTrailingZeros (digits : List Char) : List Char :=
  (digits.reverse.dropWhile (· == '0')).reverse

/-- The order in scientific form. -/
def writeOrder (order : Int) : List Char :=
  let digits := Nat.toDigits 10 order.natAbs
  'e' :: (if order < 0 then '-' else '+') :: List.replicate (2 - digits.length) '0' ++ digits

/-- Digits in scientific form. -/
def scientific (digits : List Char) (order : Int) : List Char :=
  match digits with
  | [] => []
  | [d] => d :: writeOrder order
  | d :: ds => d :: '.' :: ds ++ writeOrder order

/-- Digits in positional form. -/
def positional (wholeMark : Bool) (digits : List Char) (order : Int) : List Char :=
  if order < 0 then
    '0' :: '.' :: List.replicate (-order - 1).toNat '0' ++ digits
  else
    let places := order.toNat + 1
    let whole := digits.take places ++ List.replicate (places - digits.length) '0'
    let fraction := digits.drop places
    if !fraction.isEmpty then whole ++ '.' :: fraction
    else if wholeMark then whole ++ ['.', '0']
    else whole

/-- **Writes a positive decimal.** -/
def write (layout : Layout) (d : Decimal) : List Char :=
  let digits := Nat.toDigits 10 d.significand
  let order := d.exponent + digits.length - 1
  let kept := dropTrailingZeros digits
  if positionalFrom ≤ order && order < layout.scientificFrom then
    positional layout.wholeMark kept order
  else scientific kept order

/-- A zero. -/
def writeZero (layout : Layout) : List Char :=
  if layout.wholeMark then ['0', '.', '0'] else ['0']

end Layout

/-- Puts a minus sign in front of a negative number. -/
def withMinus (negative : Bool) (s : List Char) : String :=
  String.ofList (if negative then '-' :: s else s)

/-! ## The text of a double -/

/-- The layout of a number's own text. -/
def Layout.plain : Layout where
  scientificFrom := 16
  wholeMark := true

/-- **The text of a double**, which reads back as it. -/
def floatText (x : Float) : String :=
  match Binary64.ofFloat x with
  | .nan => "nan"
  | .infinite negative => withMinus negative "inf".toList
  | .finite negative 0 _ => withMinus negative Layout.plain.writeZero
  | .finite negative m e => withMinus negative (Layout.plain.write (Decimal.shortest m e))

/-! ## A given number of significant digits -/

/-- Why a number of digits is refused. -/
inductive PrecisionError where
  /-- It is negative. -/
  | missing
  /-- It does not fit into 63 bits. -/
  | tooManyDigits
  /-- It does not fit into 31 bits. -/
  | tooBig
deriving Repr, DecidableEq

/-- What the error is reported as. -/
def PrecisionError.message : PrecisionError → String
  | .missing => "Format specifier missing precision"
  | .tooManyDigits => "Too many decimal digits in format string"
  | .tooBig => "precision too big"

/-- A number of digits as it is asked for. -/
def checkPrecision (precision : Int) : Except PrecisionError Nat :=
  if precision < 0 then .error .missing
  else if Nat.pow 2 63 ≤ precision.toNat then .error .tooManyDigits
  else if Nat.pow 2 31 ≤ precision.toNat then .error .tooBig
  else .ok precision.toNat

/-- No double has more significant digits than this, so asking for more
changes nothing. -/
def digitLimit : Nat := 770

/-- The layout for a number of significant digits. -/
def Layout.ofPrecision (precision : Nat) : Layout where
  scientificFrom := precision
  wholeMark := false

/-- **A double with at most `precision` significant digits.** None at all
counts as one. -/
def significantText (precision : Nat) (x : Float) : String :=
  let precision := max precision 1
  let layout := Layout.ofPrecision precision
  match Binary64.ofFloat x with
  | .nan => "nan"
  | .infinite negative => withMinus negative "inf".toList
  | .finite negative 0 _ => withMinus negative layout.writeZero
  | .finite negative m e =>
    let (num, den) := Decimal.quotient m e
    withMinus negative (layout.write (Decimal.nearest (min precision digitLimit) num den))

/-! ## A given number of places -/

/-- The number of steps of `10 ^ -places` nearest to a double's
magnitude. -/
def roundedSteps (places significand : Nat) (exponent : Int) : Nat :=
  let (num, den) := Decimal.quotient significand exponent
  roundDivPow 10 (-(places : Int)) num den

/-- **A double with `places` digits after the point**, of which there is
at least one. -/
def fixedText (places : Nat) (x : Float) : String :=
  match Binary64.ofFloat x with
  | .nan => "nan"
  | .infinite negative => withMinus negative "inf".toList
  | .finite negative m e =>
    let digits := Nat.toDigits 10 (roundedSteps places m e)
    let padded := List.replicate (places + 1 - digits.length) '0' ++ digits
    let whole := padded.length - places
    withMinus negative (padded.take whole ++ '.' :: padded.drop whole)

/-- **The double nearest to `x` rounded to `places` places.** -/
def roundTo (places : Nat) (x : Float) : Float :=
  match Binary64.ofFloat x with
  | .finite negative m e =>
    Binary64.ofDecimal negative ⟨roundedSteps places m e, -(places : Int)⟩
  | _ => x

end Reckon
