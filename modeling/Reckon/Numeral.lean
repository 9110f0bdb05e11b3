import Reckon.Binary64.Basic
import Reckon.Text.Blank
import Reckon.Text.Digit

/-!
# Numbers as people write them

Settings, report files and arguments hold numbers that people may have
written. They may have blanks around them, digits of any script, and an
underscore between two digits. A real number may have a point and an
exponent, or be an infinity or undefined by name; a whole number has
digits only.

The field separators of ASCII are blanks of a text but not of a number.

A count is read more freely in one way and more strictly in another. It may
have zeros before it and after a point, because they do not change its
value; but a point must have zeros after it, the count is positive, and its
digits are those of ASCII.
-/

namespace Reckon

namespace Numeral

/-- Is the character blank around a number? -/
def isBlank (c : Char) : Bool :=
  Text.isBlank c && !(0x1c ≤ c.toNat && c.toNat ≤ 0x1f)

/-- A digit of any script as an ASCII digit; any other character as
itself. -/
def asciiDigit (c : Char) : Char :=
  match Text.digitValue? c with
  | some d => Nat.digitChar d
  | none => c

/-- The text without the blanks around it, its digits in ASCII. -/
def clean (s : List Char) : List Char :=
  (Text.trim isBlank s).map asciiDigit

/-- **Takes the underscores out.** Each one must stand between two
digits. -/
def dropSeparators (afterDigit : Bool) : List Char → Option (List Char)
  | [] => some []
  | '_' :: c :: cs =>
    if afterDigit && c.isDigit then (dropSeparators true cs).map (c :: ·) else none
  | '_' :: [] => none
  | c :: cs => (dropSeparators c.isDigit cs).map (c :: ·)

/-- Splits off a sign: is it a minus, and what follows? -/
def splitSign : List Char → Bool × List Char
  | '-' :: cs => (true, cs)
  | '+' :: cs => (false, cs)
  | cs => (false, cs)

/-- The whole number that ASCII digits write; there must be one. -/
def ofDigits? (cs : List Char) : Option Nat :=
  if cs.all Char.isDigit && !cs.isEmpty then some (Nat.ofDigitChars 10 cs 0) else none

/-- A whole number may not have more digits than this. -/
def wholeDigitLimit : Nat := 4300

/-- **Reads a whole number.** -/
def readInt? (s : List Char) : Option Int := do
  let (negative, body) := splitSign (clean s)
  let digits ← dropSeparators false body
  let n ← ofDigits? digits
  if wholeDigitLimit < digits.length then none
  else some (if negative then -(n : Int) else n)

/-- Takes a plus off the front. -/
def dropPlus : List Char → List Char
  | '+' :: cs => cs
  | cs => cs

/-- Takes the zeros off the front, with the underscores among and after
them. -/
def dropLeadingZeros : List Char → List Char
  | '0' :: cs => cs.dropWhile fun c => c == '0' || c == '_'
  | cs => cs

/-- Takes the point off with the zeros after it, where one zero or more
follow and nothing else. -/
def dropZeroFraction (s : List Char) : List Char :=
  let whole := s.takeWhile (· != '.')
  match s.drop whole.length with
  | '.' :: '0' :: cs => if cs.all (· == '0') then whole else s
  | _ => s

/-- **Reads a count**, which is a whole number from one on. All the digits
of zero are zeros at the front, so nothing is left of it to read. -/
def readCount? (s : List Char) : Option Nat := do
  let body := dropLeadingZeros (dropPlus (Text.trim isBlank s))
  let digits ← dropSeparators false (dropZeroFraction body)
  let n ← ofDigits? digits
  if wholeDigitLimit < digits.length then none else some n

/-- Reads the exponent after its mark. -/
def readExponent? (s : List Char) : Option Int := do
  let (negative, digits) := splitSign s
  let n ← ofDigits? digits
  some (if negative then -(n : Int) else n)

/-- Does the character mark an exponent? -/
def marksExponent (c : Char) : Bool :=
  c == 'e' || c == 'E'

/-- **Reads an unsigned decimal** with an exponent or without one. -/
def readDecimal? (s : List Char) : Option Decimal := do
  let run := s.takeWhile fun c => !marksExponent c
  let d ← Decimal.ofRun? run
  match s.drop run.length with
  | [] => some d
  | _ :: exponent => (readExponent? exponent).map d.scale

/-- The names of the numbers that have no digits. -/
def ofName? (negative : Bool) (s : List Char) : Option Float :=
  let name := String.ofList (s.map Char.toLower)
  if name == "inf" || name == "infinity" then some (Binary64.infinity negative)
  else if name == "nan" then some Binary64.undefined
  else none

/-- **Reads a real number** as the nearest double. -/
def readFloat? (s : List Char) : Option Float :=
  let (negative, body) := splitSign (clean s)
  match ofName? negative body with
  | some x => some x
  | none => do
    let digits ← dropSeparators false body
    let d ← readDecimal? digits
    some (Binary64.ofDecimal negative d)

end Numeral

end Reckon
