/-!
# The console

What is printed for people is a sequence of lines, in markup, and tables
whose cells are in markup too.
-/

namespace Reckon

/-- **A table.** -/
structure Table where
  title : String
  /-- The headers of the columns. -/
  columns : List String
  /-- The cells, row by row. -/
  rows : List (List String)
deriving Repr, DecidableEq

/-- **Something printed.** -/
inductive Event where
  | line (markup : String)
  | table (t : Table)
deriving Repr, DecidableEq

/-- An empty line. -/
def Event.blank : Event := .line ""

/-- A table with an empty line on both sides. -/
def Event.framed (t : Table) : List Event :=
  [.blank, .table t, .blank]

/-- A text in a colour. -/
def coloured (colour text : String) : String :=
  "[" ++ colour ++ "]" ++ text ++ "[/" ++ colour ++ "]"

end Reckon
