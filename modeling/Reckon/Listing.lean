import Reckon.Console
import Reckon.Decimal.Layout
import Reckon.Report.Basic
import Reckon.Settings
import Reckon.Text.Markup

/-!
# What is shown of outcomes and reports

Outcomes are listed one row each, and reports one row each with the
failing cases below. Results are shown with a number of significant
digits that may be refused; an undefined or an infinite result has no
digits, and is shown whatever the number.
-/

namespace Reckon

/-- **A result as it is shown.** -/
def formatValue (precision : Int) (x : Float) : Except PrecisionError String :=
  match Binary64.ofFloat x with
  | .nan => .ok "NaN"
  | .infinite negative => .ok (if negative then "-inf" else "inf")
  | .finite .. => (checkPrecision precision).map fun p => significantText p x

/-- A result at the default number of digits, which is never refused. -/
def showValue (x : Float) : String :=
  match Binary64.ofFloat x with
  | .nan => "NaN"
  | .infinite negative => if negative then "-inf" else "inf"
  | .finite .. => significantText defaultPrecision x

/-- The default number of digits is accepted. -/
theorem formatValue_defaultPrecision (x : Float) :
    formatValue defaultPrecision x = .ok (showValue x) := by
  unfold formatValue showValue
  cases Binary64.ofFloat x <;> rfl

/-- The verdict on an outcome, in its colour. -/
def Verdict.markup (v : Verdict) : String :=
  let colour :=
    match v with
    | ok => "green"
    | undefined => "red"
    | unbalanced => "magenta"
  coloured colour v.label

/-- The verdict on a suite, in its colour. -/
def SuiteVerdict.markup (v : SuiteVerdict) : String :=
  let colour :=
    match v with
    | noCases => "white"
    | pass => "green"
    | partially => "yellow"
    | fail => "red"
  coloured colour v.label

/-! ## Outcomes -/

/-- The row of an outcome. -/
def outcomeRow (precision : Int) (number : Nat) (o : Outcome) :
    Except PrecisionError (List String) := do
  let value ← formatValue precision o.value
  return [toString number, Text.escapeMarkup o.expression, value, o.verdict.markup]

/-- **The listing of a batch.** -/
def listOutcomes (precision : Int) (outcomes : List Outcome) :
    Except PrecisionError (List Event) := do
  if outcomes.isEmpty then
    return [.line "[yellow]No expressions to evaluate.[/yellow]"]
  let rows ← (outcomes.zipIdx 1).mapM fun (o, number) => outcomeRow precision number o
  return Event.framed {
    title := "exprcalc batch"
    columns := ["#", "Expression", "Value", "Verdict"]
    rows := rows }

/-! ## Reports -/

/-- A report with strings and doubles. -/
abbrev SuiteReport : Type := Report String Float

/-- A text with spaces behind it, up to a width. -/
def padRight (width : Nat) (s : String) : String :=
  s ++ String.ofList (List.replicate (width - s.length) ' ')

/-- How long a suite took, or a mark if that is nothing. -/
def wallClockText (seconds : Float) : String :=
  if seconds == 0 then "--" else fixedText 2 (seconds * 1000) ++ "ms"

/-- The row of a report. -/
def reportRow (r : SuiteReport) : List String :=
  [r.suite, r.verdict.markup, toString r.passed ++ "/" ++ toString r.total,
    wallClockText r.wallClock]

/-- The line of a failing case. -/
def failureLine (suite : String) (c : Case String Float) : String :=
  "  " ++ padRight 12 suite ++ " " ++ Text.escapeMarkup (Text.quote c.expression) ++
    ": expected " ++ showValue c.expected ++ ", got " ++ showValue c.actual

/-- **The scorecard of reports**: a row each, then their failing cases. -/
def scorecard (reports : List SuiteReport) : List Event :=
  if reports.isEmpty then [.line "[yellow]No suite results.[/yellow]"]
  else
    let failures := reports.flatMap fun r => r.failures.map (failureLine r.suite)
    let details :=
      if failures.isEmpty then []
      else Event.line "\n[bold red]Failures[/bold red]" :: failures.map .line
    [.blank,
      .table {
        title := "exprcalc check"
        columns := ["Suite", "Verdict", "Passed", "Wall clock"]
        rows := reports.map reportRow }] ++ details ++ [.blank]

end Reckon
