import Reckon.Command.Basic
import Reckon.Runner
import Reckon.Settings
import Reckon.Suite.Shipped
import Reckon.Text.Lines

/-!
# Performing commands

What a command does, as a value: how the program ends, what it prints,
and its activity. The surroundings – the environment, the suites, the
time, the files that can be read – are given.

The program ends with 0 if all is well, with 1 if an expression has no
value or a suite does not pass, and with 2 if the command line is
refused.
-/

namespace Reckon

/-- **The surroundings of the program.** -/
structure Surroundings where
  environment : Environment
  shelf : Shelf
  clock : Clock
  moment : Moment
  /-- What stands at each path. -/
  content : String → Content
  /-- What is said to what the program prints and saves. -/
  outside : Outside := {}

/-- **How the program ends.** -/
structure Finish where
  /-- The exit code. -/
  exit : Nat
  /-- What goes to standard output. -/
  output : String := ""
  /-- The complaint about a command line that is refused. -/
  complaint : Option String := none
  activity : Activity := {}
  /-- The lines of the log that the settings show. -/
  log : List String := []

/-- **Why the program breaks off.** -/
inductive Failure where
  | suite (e : SuiteError)
  | precision (e : PrecisionError)
  | encoding (e : Text.Utf8Error)

/-- What the failure is reported as. -/
def Failure.message : Failure → String
  | suite e => e.message
  | precision e => e.message
  | encoding e => e.message

namespace Program

/-- How the program is used. -/
def usage : String :=
  "Usage: exprcalc COMMAND\n\n" ++
    "  eval EXPRESSION [--strict] [--precision N]\n" ++
    "  batch FILE [--strict]\n" ++
    "  suites\n" ++
    "  check [SUITE] [--save DIR]\n"

/-- The exit code for a yes or no. -/
def exitCode (ok : Bool) : Nat :=
  if ok then 0 else 1

/-- Evaluates an expression. -/
def eval (settings : Settings) (expression : String) (strict : Bool)
    (precision : Option Nat) : Except PrecisionError Finish := do
  let strict := strict || settings.strictBrackets
  let outcome := tryEvaluate strict expression
  let records := (outcomeNotes strict expression).map Log.Record.evaluation
  match outcome.unwrap with
  | .ok x =>
    let text ← formatValue (precision.getD settings.precision) x
    return { exit := 0, output := text ++ "\n", activity := { records := records } }
  | .error e =>
    let line := "[red]" ++ e.verdict.label ++ ":[/red] " ++
      Text.escapeMarkup (Text.quote outcome.expression)
    return { exit := 1, activity := { console := [.line line], records := records } }

/-- Evaluates the lines of a text. -/
def batch (settings : Settings) (text : String) (strict : Bool) :
    Except PrecisionError Finish := do
  let strict := strict || settings.strictBrackets
  let lines := Text.lines text
  let outcomes := runBatch strict lines
  let events ← listOutcomes settings.precision outcomes
  return {
    exit := exitCode (outcomes.all Outcome.isOk)
    activity := {
      console := events
      records := (batchNotes strict lines).map .evaluation } }

/-- Ends as given, if what it prints is not refused. -/
def printed (outside : Outside) (finish : Finish) : Except SuiteError Finish :=
  match finish.activity.console.findSome? outside.event with
  | some message => .error (.refused message)
  | none => .ok finish

/-- Lists the suites of a shelf. -/
def suites (shelf : Shelf) (outside : Outside) : Except SuiteError Finish := do
  let suites ← shelf.suites
  if suites.isEmpty then
    printed outside { exit := 1, activity := .print "[yellow]No suites found.[/yellow]" }
  else
    printed outside {
      exit := 0
      activity := {
        console := Event.framed {
          title := "Reference Suites"
          columns := ["Name", "Description", "Cases"]
          rows := suites.map fun s => [s.name, s.description, toString s.entries.length] } } }

/-- What a check comes to: the scorecard of its runs, and whether there
are any and all of them pass. -/
def finishCheck (runs : List SuiteRun) : Finish :=
  let reports := runs.map (·.report)
  { exit := exitCode (!reports.isEmpty && reports.all fun r => r.verdict == .pass)
    activity := .concat (runs.map (·.activity)) ++ { console := scorecard reports } }

/-- Runs one suite, or all of them if none is named. -/
def check (occasion : Occasion) (suite : Option String) : Except SuiteError Finish := do
  let name := suite.getD ""
  if name.isEmpty then printed occasion.outside (finishCheck (← runAllSuites occasion))
  else
    match ← occasion.shelf.load name with
    | none =>
      printed occasion.outside {
        exit := 1
        activity := .print ("[red]Unknown suite: " ++ Text.escapeMarkup name ++
          "[/red]. See 'exprcalc suites'.") }
    | some _ => printed occasion.outside (finishCheck [← runSuite occasion 0 name])

/-- Refuses a command line. -/
def refuse (e : UsageError) : Finish where
  exit := 2
  complaint := some e.message

/-- **Performs a command.** -/
def perform (around : Surroundings) (settings : Settings) :
    Command → Except Failure Finish
  | .help => .ok { exit := 0, output := usage }
  | .eval expression strict precision =>
    (eval settings expression strict precision).mapError .precision
  | .batch path strict =>
    match around.content path with
    | .file bytes =>
      match Text.ofUtf8 bytes with
      | .ok text => (batch settings text strict).mapError .precision
      | .error e => .error (.encoding e)
    | _ => .ok (refuse (.notAFile path))
  | .suites => (suites around.shelf around.outside).mapError .suite
  | .check suite saveIn =>
    let occasion : Occasion := {
      shelf := around.shelf
      clock := around.clock
      moment := around.moment
      saveIn := saveIn.map .ofString
      outside := around.outside }
    (check occasion suite).mapError .suite

/-- **Runs a command line.** -/
def run (around : Surroundings) (words : List String) : Except Failure Finish :=
  let settings := Settings.load around.environment
  match Command.read words with
  | .error e => .ok (refuse e)
  | .ok command => do
    let finish ← perform around settings command
    return { finish with log := Log.shown settings.threshold finish.activity.records }

/-- **The status that the program ends with.** It is 1 if it breaks off. -/
def status : Except Failure Finish → Nat
  | .ok finish => finish.exit
  | .error _ => 1

end Program

end Reckon
