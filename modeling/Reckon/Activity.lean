import Reckon.Console
import Reckon.Log
import Reckon.Path

/-!
# What a run does

A run of the program prints on the console, logs, and writes files. The
three are collected in order, so that what a run does is a value like any
other.

What is printed or written need not be taken. The console refuses markup
whose tags do not fit together, and a file system has its own reasons.
Which ones is up to them, so their complaints are given (`Outside`).
-/

namespace Reckon

/-- **What a run does.** -/
structure Activity where
  /-- What it prints on the console. -/
  console : List Event := []
  /-- What it logs. -/
  records : List Log.Record := []
  /-- The files it writes: path and text, in order. -/
  files : List (Path × String) := []

namespace Activity

/-- One activity after another. -/
def append (a b : Activity) : Activity where
  console := a.console ++ b.console
  records := a.records ++ b.records
  files := a.files ++ b.files

instance : Append Activity := ⟨append⟩

/-- Several activities, one after the other. -/
def concat (activities : List Activity) : Activity :=
  activities.foldl append {}

/-- Prints a line. -/
def print (markup : String) : Activity where
  console := [.line markup]

end Activity

/-- **What is said to what a run does**: the complaint about an event of
the console, or about a file, if it is refused. -/
structure Outside where
  event : Event → Option String := fun _ => none
  file : Path → Option String := fun _ => none

/-- Sets the text at a path: in its old place, or behind the others. -/
def setFile (path : Path) (text : String) : List (Path × String) → List (Path × String)
  | [] => [(path, text)]
  | (p, t) :: files =>
    if p == path then (p, text) :: files else (p, t) :: setFile path text files

/-- **The files as they are in the end**, by where their paths lead: of
several texts at one place, the last. -/
def Activity.written (a : Activity) : List (Path × String) :=
  a.files.foldl (fun files (path, text) => setFile path.resolve text files) []

end Reckon
