import Reckon.Console.Plain
import Reckon.Program
import Std.Time.DateTime.Timestamp

/-!
# The program

The program takes its surroundings from the system, runs the command
line, and does what the result says: it prints the output on standard
output and everything else on standard error, writes the files, and exits
with the code.

The clock is read ahead: the cases that a check will run are evaluated
once with the clock being read around them, and the run is then given the
readings.
-/

namespace Reckon

/-- The environment, as far as settings are read from it. -/
def systemEnvironment : IO Environment := do
  let mut values : List (String × String) := []
  for name in Settings.names do
    if let some value ← IO.getEnv name then
      values := (name, value) :: values
  return .ofList values

/-- The present moment. -/
def systemMoment : IO Moment := do
  let now ← Std.Time.Timestamp.now
  return .ofSeconds now.toSecondsSinceUnixEpoch.val.toNat

/-- What stands at a path. What cannot be read as a file counts as
missing. -/
def systemContent (path : String) : IO Content := do
  try
    let bytes ← IO.FS.readBinFile path
    return .file bytes.toList
  catch _ =>
    return .missing

/-- Reads the clock, in seconds. -/
def readClock : IO Float := do
  return Float.ofNat (← IO.monoNanosNow) / 1e9

/-- Reads the clock as the runs of suites do. -/
def readClockAround (suites : List Suite) : IO (List Float) := do
  let mut readings : List Float := []
  for suite in suites do
    readings := (← readClock) :: readings
    for (expression, _) in suite.cases do
      let start ← readClock
      let _ ← IO.lazyPure fun _ => evaluate expression
      let stop ← readClock
      readings := stop :: start :: readings
    readings := (← readClock) :: readings
  return readings.reverse

/-- The suites that a command runs, in order. One that cannot be loaded
takes no time. -/
def Command.suitesToRun (shelf : Shelf) : Command → List Suite
  | check suite _ =>
    let names := match suite with
      | some name => if name.isEmpty then shelf.directories else [name]
      | none => shelf.directories
    names.filterMap fun name => (shelf.load name).toOption.join
  | _ => []

/-- The surroundings of a command line. -/
def systemSurroundings (words : List String) : IO Surroundings := do
  let command := (Command.read words).toOption
  let content ← match command with
    | some (.batch path _) => systemContent path
    | _ => pure .missing
  let readings ← readClockAround (command.elim [] (·.suitesToRun .shipped))
  return {
    environment := ← systemEnvironment
    shelf := .shipped
    clock := fun k => readings.getD k (readings.getLastD 0)
    moment := ← systemMoment
    content := fun _ => content }

/-- Does what a run says. -/
def carryOut (finish : Finish) : IO Unit := do
  for line in finish.log do
    IO.eprintln line
  for event in finish.activity.console do
    for line in event.plainLines do
      IO.eprintln line
  for (path, text) in finish.activity.written do
    IO.FS.createDirAll path.parent.text
    IO.FS.writeFile path.text text
  IO.print finish.output
  if let some complaint := finish.complaint then
    IO.eprintln complaint

end Reckon

open Reckon in
/-- **Runs the command line.** -/
def main (words : List String) : IO UInt32 := do
  let around ← systemSurroundings words
  let outcome := Program.run around words
  match outcome with
  | .ok finish => carryOut finish
  | .error e => IO.eprintln e.message
  return UInt32.ofNat (Program.status outcome)
