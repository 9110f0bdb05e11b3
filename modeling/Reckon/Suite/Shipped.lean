import Reckon.Suite.Basic

/-!
# The suites that come with the program

Five suites: one for each kind of thing that an expression may hold, and
one for texts without a value.
-/

namespace Reckon

namespace Shipped

/-- A case with a whole number. -/
def whole (expression : String) (expected : Int) : RawCase :=
  [.str expression, .int expected]

/-- A case with any other number. -/
def real (expression : String) (expected : Float) : RawCase :=
  [.str expression, .float expected]

/-- A case without a value. -/
def undefined (expression : String) : RawCase :=
  [.str expression, .float Binary64.undefined]

/-- A suite that gives all of its parts. -/
def suite (name description : String) (cases : List RawCase) : String × Shelved :=
  (name, .suite (some name) (some description) (some cases))

/-- Texts without a value. -/
def negative : String × Shelved :=
  suite "negative" "Malformed or empty input evaluates to NaN" [
    undefined "",
    undefined "   ",
    undefined "abc",
    undefined "1 + a",
    undefined "1.2.3",
    undefined "*2+3+4",
    undefined "()",
    undefined "0/0"]

/-- Groups. -/
def nesting : String × Shelved :=
  suite "nesting" "Parenthesized groups nested to arbitrary depth" [
    whole "(1+2)*3" 9,
    whole "1+(2*3)" 7,
    whole "(77)" 77,
    whole "-(77)" (-77),
    whole "-(((77)))" (-77),
    whole "-(-((77)))" 77,
    whole "-(-(-(77)))" (-77),
    whole "1+(1 +(1+(1)))" 4,
    whole "5^(1+1)" 25,
    whole "(1+2+3)*2" 12,
    whole "((2 + 3) * (4 - 1))" 15]

/-- The operators one by one. -/
def operators : String × Shelved :=
  suite "operators" "Each of + - * / % ^ with signed operands" [
    whole "5+2" 7,
    whole "5-2" 3,
    whole "2-5" (-3),
    whole "5*2" 10,
    whole "5%2" 1,
    whole "2%5" 2,
    real "5/2" 2.5,
    real "2/5" 0.4,
    whole "5^2" 25,
    whole "2^5" 32,
    whole "2*-2" (-4),
    whole "-2*-2" 4]

/-- The tiers of the operators. -/
def precedence : String × Shelved :=
  suite "precedence" "Power over multiplicative over additive, left to right" [
    whole "1+1+1+1+1" 5,
    whole "-1+1-1+1-1" (-1),
    whole "1+2*3" 7,
    whole "1*2+3" 5,
    whole "1+2*2^3" 17,
    whole "1^2+2*3" 7,
    whole "1+2^2*3" 13,
    whole "1*2*2*3" 12,
    real "1/2/2" 0.25,
    whole "10 - 2 * 3 + 4 / 2" 6]

/-- Literals and plain sums. -/
def simple : String × Shelved :=
  suite "simple" "Literals, unary signs and additive chains" [
    whole "0" 0,
    whole "1" 1,
    whole "+1" 1,
    whole "-1" (-1),
    real "0.07" 0.07,
    whole "42" 42,
    real "3.25" 3.25,
    whole "-1+1" 0,
    whole "-1-2" (-3),
    whole "123+246" 369,
    whole "  2  +  3  " 5]

end Shipped

/-- **The shelf of the suites that come with the program.** -/
def Shelf.shipped : Shelf :=
  [Shipped.negative, Shipped.nesting, Shipped.operators, Shipped.precedence, Shipped.simple]

end Reckon
