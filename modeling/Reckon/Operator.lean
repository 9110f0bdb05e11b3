import Reckon.Decimal.Basic

/-!
# Operators

The six binary operators and the arithmetic they are read in. An
expression's structure does not depend on what its numbers are, so the
operators act on any type with an `Arithmetic`: scanning and reduction
are stated once, for all of them.

Each operator sits in one of three tiers. A higher tier binds tighter.
-/

namespace Reckon

/-- **An arithmetic**: the operations that an expression may ask for. None
of them fails; `undefined` is the result that stands for having none. -/
class Arithmetic (α : Type) where
  /-- Where every sum starts. -/
  zero : α
  /-- The factor that a plus sign is. -/
  one : α
  /-- The factor that a minus sign is. -/
  minusOne : α
  /-- The result of what has no result. -/
  undefined : α
  add : α → α → α
  sub : α → α → α
  mul : α → α → α
  div : α → α → α
  /-- The remainder of a division, with the sign of the dividend. -/
  rem : α → α → α
  pow : α → α → α
  /-- The number that a written decimal denotes. -/
  ofDecimal : Decimal → α

/-- **A binary operator.** -/
inductive Operator where
  | add
  | sub
  | mul
  | div
  | mod
  | pow
deriving Repr, DecidableEq

namespace Operator

/-- All operators, in the order of their listing. -/
def all : List Operator :=
  [.add, .sub, .mul, .div, .mod, .pow]

/-- How the operator is written. -/
def symbol : Operator → Char
  | .add => '+'
  | .sub => '-'
  | .mul => '*'
  | .div => '/'
  | .mod => '%'
  | .pow => '^'

/-- What the operator is called. -/
def name : Operator → String
  | .add => "ADD"
  | .sub => "SUB"
  | .mul => "MUL"
  | .div => "DIV"
  | .mod => "MOD"
  | .pow => "POW"

/-- **The operator that a character writes**, if it writes one. -/
def ofChar? (c : Char) : Option Operator :=
  all.find? (·.symbol == c)

/-- The symbols tell the operators apart. -/
@[simp] theorem ofChar?_symbol (o : Operator) : ofChar? o.symbol = some o := by
  cases o <;> decide

/-- Only an operator's own symbol writes it. -/
theorem ofChar?_eq_some_iff {c : Char} {o : Operator} :
    ofChar? c = some o ↔ o.symbol = c := by
  constructor
  · intro h
    simpa using List.find?_some h
  · rintro rfl
    exact ofChar?_symbol o

/-- The operator that a text writes: the text is its symbol and nothing
else. -/
def ofString? (s : String) : Option Operator :=
  match s.toList with
  | [c] => ofChar? c
  | _ => none

/-- **The tier of the operator**: sums `0`, products `1`, powers `2`. -/
def precedence : Operator → Nat
  | .add => 0
  | .sub => 0
  | .mul => 1
  | .div => 1
  | .mod => 1
  | .pow => 2

/-- **Applies the operator** to a left operand `v` and a right operand
`b`. -/
def apply {α : Type} [Arithmetic α] : Operator → α → α → α
  | .add => Arithmetic.add
  | .sub => Arithmetic.sub
  | .mul => Arithmetic.mul
  | .div => Arithmetic.div
  | .mod => Arithmetic.rem
  | .pow => Arithmetic.pow

end Operator

end Reckon
