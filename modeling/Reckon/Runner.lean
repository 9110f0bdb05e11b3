import Reckon.Activity
import Reckon.Listing
import Reckon.Moment
import Reckon.Suite.Basic

/-!
# Running suites and batches

A suite is run by evaluating its cases in order. A clock is read before
the first case, on both sides of each case and after the last one. How
the clock goes is up to the occasion: it is given by its readings, and a
run says how many it has used.

A run breaks off where what it prints or saves is refused, and at an
expression that is no text.

All suites are run by looking each one up again under the name that it
gives itself.
-/

namespace Reckon

/-- **The readings of a clock**, in seconds. -/
abbrev Clock : Type := Nat → Float

/-- A clock that goes on by the same step with every reading. -/
def Clock.ticking (step : Float) : Clock :=
  fun k => Binary64.ofInt k * step

/-- **The occasion of a run.** -/
structure Occasion where
  /-- The suites there are. -/
  shelf : Shelf
  /-- How time goes by. -/
  clock : Clock
  /-- When the run takes place. -/
  moment : Moment
  /-- Where reports are saved, if they are. -/
  saveIn : Option Path := none
  /-- What is said to what is printed and saved. -/
  outside : Outside := {}

/-- **What the run of a suite gives.** -/
structure SuiteRun where
  report : SuiteReport
  activity : Activity
  /-- The next reading of the clock. -/
  reading : Nat

/-- Runs a case, on the clock from the given reading on. -/
def runCase (clock : Clock) (reading : Nat) (expression : String) (expected : Float) :
    Case String Float where
  expression := expression
  expected := expected
  actual := evaluate expression
  elapsed := roundTo 3 ((clock (reading + 1) - clock reading) * 1000)

/-- What is printed of a suite that is not there. -/
def missingLine (name : String) : Event :=
  .line ("[red]Error:[/red] Unknown suite: " ++ Text.escapeMarkup name)

/-- The run of a suite that is not there. -/
def missingRun (reading : Nat) (name : String) : SuiteRun where
  report := { suite := name, timestamp := "", wallClock := Binary64.zero false, cases := [] }
  activity := { console := [missingLine name] }
  reading := reading

/-- Where the report on a suite is saved: in a directory for the suite, and
there in one for the time. -/
def reportPath (directory : Path) (suite timestamp : String) : Path :=
  directory / suite / timestamp / "report.json"

/-- What is printed of a report that has been saved. -/
def savedLine (path : Path) : Event :=
  .line ("  Report saved to " ++ path.text)

/-- What saving a report does. -/
def saveReport (directory : Path) (r : SuiteReport) : Activity :=
  let path := reportPath directory r.suite r.timestamp
  { console := [savedLine path]
    files := [(path, r.fileText)] }

namespace Suite

/-- What is printed before a suite is run. -/
def announcement (s : Suite) : Event :=
  .line ("[bold]Running:[/bold] " ++ s.name ++ " (" ++ toString s.entries.length ++ " cases)")

/-- **What keeps a suite from being run**, if anything does: the first of
its announcement, its expressions, and the file of the report with what
is printed of it. -/
def obstacle? (occasion : Occasion) (s : Suite) : Option SuiteError :=
  ((occasion.outside.event s.announcement).map .refused).or <|
    (s.misfit?.map .noText).or <|
    occasion.saveIn.bind fun directory =>
      let path := reportPath directory s.name occasion.moment.stamp
      if path.isPossible then
        ((occasion.outside.file path).or (occasion.outside.event (savedLine path))).map .refused
      else some .impossiblePath

/-- **The run of a loaded suite**, on the clock from the given reading
on. -/
def run (occasion : Occasion) (reading : Nat) (suite : Suite) : SuiteRun :=
  let last := reading + 1 + 2 * suite.cases.length
  let cases := suite.cases.zipIdx.map fun ((expression, expected), i) =>
    runCase occasion.clock (reading + 1 + 2 * i) expression expected
  let seconds := occasion.clock last - occasion.clock reading
  let report : SuiteReport := {
    suite := suite.name
    timestamp := occasion.moment.stamp
    wallClock := roundTo 4 seconds
    cases := cases }
  let started : Activity := { console := [suite.announcement] }
  let evaluated : Activity := {
    records := suite.cases.flatMap fun c => (evaluationNotes c.1).map .evaluation }
  let finished : Activity := {
    records := [.suite suite.name report.passed report.total seconds] }
  let saved := occasion.saveIn.elim {} fun directory => saveReport directory report
  { report := report
    activity := started ++ evaluated ++ finished ++ saved
    reading := last + 1 }

end Suite

/-- **Runs the suite of a name.** -/
def runSuite (occasion : Occasion) (reading : Nat) (name : String) :
    Except SuiteError SuiteRun := do
  match ← occasion.shelf.load name with
  | some suite =>
    match suite.obstacle? occasion with
    | some e => .error e
    | none => return suite.run occasion reading
  | none =>
    match occasion.outside.event (missingLine name) with
    | some message => .error (.refused message)
    | none => return missingRun reading name

/-- Runs the suites of names, one after the other. -/
def runSuites (occasion : Occasion) (reading : Nat) :
    List String → Except SuiteError (List SuiteRun)
  | [] => .ok []
  | name :: names => do
    let run ← runSuite occasion reading name
    let runs ← runSuites occasion run.reading names
    return run :: runs

/-- **Runs all suites of the shelf.** -/
def runAllSuites (occasion : Occasion) : Except SuiteError (List SuiteRun) := do
  let suites ← occasion.shelf.suites
  runSuites occasion 0 (suites.map (·.name))

/-- The lines of a batch that hold expressions: neither blank nor a
comment. -/
def batchLines (lines : List String) : List String :=
  (lines.map fun line => String.ofList (Text.strip line.toList)).filter fun line =>
    !line.isEmpty && !line.startsWith "#"

/-- **Evaluates a batch**, an expression a line. -/
def runBatch (strict : Bool) (lines : List String) : List Outcome :=
  (batchLines lines).map (tryEvaluate strict)

/-- The notes on a batch. -/
def batchNotes (strict : Bool) (lines : List String) : List (Note Float) :=
  (batchLines lines).flatMap (outcomeNotes strict)

end Reckon
