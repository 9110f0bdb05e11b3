import Reckon.Outcome

/-!
# Reports

A report says how a suite of expressions fared: each case with what was
expected of it and what came out. A case passes if the two are equal, or
if both are undefined.

The texts and measurements of a report are passed on and never looked
at, so their types are parameters: a report that was just made holds
strings and doubles, and one that was read from a file holds whatever the
file had there.
-/

namespace Reckon

/-- **A case of a report.** -/
structure Case (τ ν : Type) where
  expression : τ
  expected : Float
  actual : Float
  /-- How long it took, in milliseconds. -/
  elapsed : ν

/-- **Does the case pass?** -/
def Case.passes {τ ν : Type} (c : Case τ ν) : Bool :=
  if c.expected.isNaN then c.actual.isNaN else c.actual == c.expected

/-- **A report on a suite.** -/
structure Report (τ ν : Type) where
  suite : τ
  /-- When the suite was run. -/
  timestamp : τ
  /-- How long it took, in seconds. -/
  wallClock : ν
  cases : List (Case τ ν)

/-- What is said of a suite. -/
inductive SuiteVerdict where
  | noCases
  | pass
  | partially
  | fail
deriving Repr, DecidableEq

/-- The word for the verdict. -/
def SuiteVerdict.label : SuiteVerdict → String
  | noCases => "no-cases"
  | pass => "pass"
  | partially => "partial"
  | fail => "fail"

namespace Report

variable {τ ν : Type}

/-- How many cases there are. -/
def total (r : Report τ ν) : Nat :=
  r.cases.length

/-- How many of them pass. -/
def passed (r : Report τ ν) : Nat :=
  r.cases.countP Case.passes

/-- How many of them fail. -/
def failed (r : Report τ ν) : Nat :=
  r.total - r.passed

/-- The cases that fail, in order. -/
def failures (r : Report τ ν) : List (Case τ ν) :=
  r.cases.filter fun c => !c.passes

/-- **The verdict on the suite.** -/
def verdict (r : Report τ ν) : SuiteVerdict :=
  if r.total = 0 then .noCases
  else if r.passed = r.total then .pass
  else if 0 < r.passed then .partially
  else .fail

end Report

end Reckon
