import Reckon.Log
import Reckon.Numeral

/-!
# Settings

The settings are read from the environment: the level of the log, whether
brackets are strict, and how many significant digits results are shown
with. A value that cannot be used counts as not given.
-/

namespace Reckon

/-- **Where settings come from**: the value of each name that has one. -/
abbrev Environment : Type := String → Option String

/-- The environment of a list of names with their values. -/
def Environment.ofList (values : List (String × String)) : Environment :=
  fun name => List.lookup name values

/-- The name of the level that the log is shown from, if none is given. -/
def defaultLevel : String := "WARNING"

/-- The number of significant digits that results are shown with, if none is given. -/
def defaultPrecision : Nat := 12

/-- **The settings.** -/
structure Settings where
  /-- The name of the level that the log is shown from. -/
  logLevel : String := defaultLevel
  /-- Are texts refused for their brackets? -/
  strictBrackets : Bool := false
  /-- How many significant digits results are shown with. -/
  precision : Nat := defaultPrecision
deriving Repr, DecidableEq

namespace Settings

/-- The name that the level is under. -/
def levelName : String := "EXPRCALC_LOG_LEVEL"

/-- The name that the switch for strict brackets is under. -/
def strictName : String := "EXPRCALC_STRICT_BRACKETS"

/-- The name that the number of digits is under. -/
def precisionName : String := "EXPRCALC_PRECISION"

/-- The names that settings are under. -/
def names : List String :=
  [levelName, strictName, precisionName]

/-- The words that switch a setting on. -/
def truthy : List String :=
  ["1", "true", "yes", "on"]

/-- Reads the name of a level, in any case. An empty one counts as not
given. -/
def readLevel (raw : Option String) : String :=
  let name := String.ofList (Text.upper (Text.strip ((raw.getD "").toList)))
  match Log.level? name with
  | some _ => name
  | none => defaultLevel

/-- Reads a switch. -/
def readSwitch (raw : Option String) : Bool :=
  truthy.contains (String.ofList (Text.lower (Text.strip ((raw.getD "").toList))))

/-- Reads a number of digits, which must be positive. -/
def readPrecision (raw : Option String) : Nat :=
  match raw.bind fun s => Numeral.readInt? s.toList with
  | some n => if 0 < n then n.toNat else defaultPrecision
  | none => defaultPrecision

/-- **The settings of an environment.** -/
def load (environment : Environment) : Settings where
  logLevel := readLevel (environment levelName)
  strictBrackets := readSwitch (environment strictName)
  precision := readPrecision (environment precisionName)

/-- The threshold of the log. -/
def threshold (s : Settings) : Nat :=
  (Log.level? s.logLevel).getD Log.warning

end Settings

end Reckon
