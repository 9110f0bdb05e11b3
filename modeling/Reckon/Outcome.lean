import Reckon.Binary64.Arithmetic
import Reckon.Json.Basic
import Reckon.Note
import Reckon.Text.Blank

/-!
# The outcome of an expression

`evaluate` gives the value of a text, undefined if the text has none.
`Outcome` is the answer for callers that want to know: the value with a
verdict. In strict mode a text is refused as unbalanced, whatever its
value, if a group in it is not closed or the scan stopped before its
end.
-/

namespace Reckon

/-- **Evaluates a text** without the blanks around it: the tree, and the
cursor where the scan stopped. -/
def evaluateChars {α : Type} [Arithmetic α] (text : List Char) : Tree α × Cursor :=
  Scope.outermost.evaluate (Cursor.ofList (Text.strip text))

/-- **The value of an expression**, undefined if it has none. -/
def evaluate (text : String) : Float :=
  (evaluateChars text.toList).1.number

/-- What is said of an outcome. -/
inductive Verdict where
  | ok
  /-- The expression has no value. -/
  | undefined
  /-- The text was refused for its brackets. -/
  | unbalanced
deriving Repr, DecidableEq

/-- The word for the verdict. -/
def Verdict.label : Verdict → String
  | ok => "ok"
  | undefined => "undefined"
  | unbalanced => "unbalanced"

/-- **The outcome of an expression.** -/
structure Outcome where
  /-- The expression, without the blanks around it. -/
  expression : String
  value : Float
  /-- Was it accepted for its brackets? -/
  balanced : Bool := true

/-- **Why an outcome has no value to give.** -/
structure UndefinedResult where
  expression : String
  verdict : Verdict

/-- What the lack of a value is reported as. -/
def UndefinedResult.message (e : UndefinedResult) : String :=
  e.verdict.label ++ " result for expression: " ++ Text.quote e.expression

/-- A result in JSON. Undefined and infinite ones are strings, since JSON
has no such numbers. -/
def resultJson (x : Float) : Json :=
  match Binary64.ofFloat x with
  | .finite .. => .float x
  | _ => .str (floatText x)

namespace Outcome

/-- **The verdict on an outcome.** -/
def verdict (o : Outcome) : Verdict :=
  if !o.balanced then .unbalanced
  else if o.value.isNaN then .undefined
  else .ok

/-- Is there a value? -/
def isOk (o : Outcome) : Bool :=
  o.verdict == .ok

/-- The value, if there is one. -/
def unwrap (o : Outcome) : Except UndefinedResult Float :=
  if o.isOk then .ok o.value else .error ⟨o.expression, o.verdict⟩

instance : ToJson Outcome where
  toJson o := .obj [
    ("expression", .str o.expression),
    ("value", resultJson o.value),
    ("verdict", .str o.verdict.label)]

end Outcome

/-- Must a text be refused in strict mode? -/
def isRefused {α : Type} (t : Tree α) (c : Cursor) : Bool :=
  c.hasMore || !t.isBalanced

/-- **The outcome of a text.** -/
def tryEvaluate (strict : Bool) (text : String) : Outcome :=
  let expression := Text.strip text.toList
  let (tree, cursor) : Tree Float × Cursor := evaluateChars expression
  if strict && isRefused tree cursor then
    { expression := String.ofList expression, value := Binary64.undefined, balanced := false }
  else
    { expression := String.ofList expression, value := tree.number }

/-- The notes on an evaluation. -/
def evaluationNotes (text : String) : List (Note Float) :=
  Scope.outermost.notes (Cursor.ofList (Text.strip text.toList))

/-- **The notes on an outcome**: those on the evaluation, and one on a
refusal. -/
def outcomeNotes (strict : Bool) (text : String) : List (Note Float) :=
  let expression := Text.strip text.toList
  let (tree, cursor) : Tree Float × Cursor := evaluateChars expression
  evaluationNotes text ++
    if strict && isRefused tree cursor then
      [.unbalanced (String.ofList expression) cursor.position]
    else []

end Reckon
