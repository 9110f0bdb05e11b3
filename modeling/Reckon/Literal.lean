import Reckon.Cursor.Basic
import Reckon.Operator

/-!
# Literals

A literal is an optional sign and a run of digits and points, with
nothing between them. `Literal.read` takes exactly that from a cursor and
never fails: the sign may be missing, and the run may be empty or
malformed, in which case the literal has no decimal and its value is
undefined.
-/

namespace Reckon

/-- Is the character one that a run of a literal may hold? -/
def isNumeric (c : Char) : Bool :=
  c.isDigit || c == '.'

/-- **A literal as it is written.** -/
structure Literal where
  /-- Is it written with a minus sign? -/
  negative : Bool
  /-- Its digits and points. -/
  run : List Char
deriving Repr, DecidableEq

namespace Literal

/-- **Reads the literal at a cursor**: a sign if there is one, then the
longest run of digits and points. -/
def read (c : Cursor) : Literal × Cursor :=
  let negative := c.peek (· == '-')
  let signed := negative || c.peek (· == '+')
  let (run, c) := (if signed then c.skip 1 else c).consumeWhile isNumeric
  (⟨negative, run⟩, c)

/-- The decimal that the run denotes, if it is well formed. -/
def decimal? (l : Literal) : Option Decimal :=
  Decimal.ofRun? l.run

/-- **The value of a literal**: its sign times its decimal. -/
def value {α : Type} [Arithmetic α] (l : Literal) : α :=
  match l.decimal? with
  | some d =>
    Arithmetic.mul (if l.negative then Arithmetic.minusOne else Arithmetic.one)
      (Arithmetic.ofDecimal d)
  | none => Arithmetic.undefined

/-- Reading a literal leaves no more than there was. -/
theorem length_rest_read_le (c : Cursor) :
    (read c).2.rest.length ≤ c.rest.length := by
  unfold read
  dsimp only
  split
  · refine Nat.le_trans (Cursor.length_rest_consumeWhile_le ..) ?_
    simp
  · exact Cursor.length_rest_consumeWhile_le ..

/-- **At a numeric character a literal is read past it.** -/
theorem length_rest_read_lt {c : Cursor} (h : c.peek isNumeric = true) :
    (read c).2.rest.length < c.rest.length := by
  obtain ⟨before, _ | ⟨x, rest⟩, last⟩ := c
  · simp [Cursor.peek, Cursor.nextChar?] at h
  · have hx : isNumeric x = true := by simpa [Cursor.peek, Cursor.nextChar?] using h
    have hminus : (x == '-') = false := by
      cases hx' : x == '-' <;> simp_all [isNumeric]
    have hplus : (x == '+') = false := by
      cases hx' : x == '+' <;> simp_all [isNumeric]
    have hread : (read ⟨before, x :: rest, last⟩).2.rest =
        rest.drop (rest.takeWhile isNumeric).length := by
      simp [read, Cursor.peek, Cursor.nextChar?, hminus, hplus, Cursor.consumeWhile, hx]
    rw [hread, List.length_drop]
    exact Nat.lt_succ_of_le (Nat.sub_le _ _)

end Literal

end Reckon
