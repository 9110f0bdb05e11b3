import Reckon.Note
import Reckon.Text.Case

/-!
# The log

Two kinds of events are logged: the notes on evaluations, for debugging,
and the end of a suite, for information. A threshold decides which records
are shown; it is set by the name of a level.

A level is looked up among all the constants of the logging
configuration. Two of them are no levels, and asking for one of those is
an error; a name that is no constant at all gives the default.
-/

namespace Reckon

namespace Log

/-- The number of the level for debugging. -/
def debug : Nat := 10

/-- The number of the level for information. -/
def info : Nat := 20

/-- The number of the level for warnings, which is the default. -/
def warning : Nat := 30

/-- **The names of the levels**, with their numbers. -/
def levels : List (String × Nat) :=
  [("CRITICAL", 50), ("FATAL", 50), ("ERROR", 40), ("WARN", 30), ("WARNING", 30),
    ("INFO", 20), ("DEBUG", 10), ("NOTSET", 0)]

/-- The number of the level of a name. -/
def level? (name : String) : Option Nat :=
  levels.lookup name

/-- The constant that holds the format of a record. -/
def basicFormat : String := "%(levelname)s:%(name)s:%(message)s"

/-- The constant that holds the styles of a format, in words. -/
def styles : String :=
  "\x7b'%': (<class 'logging.PercentStyle'>, '%(levelname)s:%(name)s:%(message)s'), " ++
    "'\x7b': (<class 'logging.StrFormatStyle'>, '\x7blevelname\x7d:\x7bname\x7d:\x7bmessage\x7d'), " ++
    "'$': (<class 'logging.StringTemplateStyle'>, '$\x7blevelname\x7d:$\x7bname\x7d:$\x7bmessage\x7d')\x7d"

/-- Why a constant is no level. -/
inductive LevelError where
  /-- It is a text that names no level. -/
  | unknown (text : String)
  /-- It is neither a number nor a text. -/
  | notALevel (value : String)
deriving Repr, DecidableEq

/-- What the error is reported as. -/
def LevelError.message : LevelError → String
  | unknown text => "Unknown level: " ++ Text.quote text
  | notALevel value => "Level not an integer or a valid string: " ++ value

/-- **The threshold that a name sets**, in any case. -/
def threshold (name : String) : Except LevelError Nat :=
  let name := String.ofList (Text.upper name.toList)
  match level? name with
  | some n => .ok n
  | none =>
    if name == "BASIC_FORMAT" then .error (.unknown basicFormat)
    else if name == "_STYLES" then .error (.notALevel styles)
    else .ok warning

/-- **A record of the log.** -/
inductive Record where
  /-- A note on an evaluation. -/
  | evaluation (note : Note Float)
  /-- A suite has been run. -/
  | suite (name : String) (passed total : Nat) (seconds : Float)

namespace Record

/-- The number of the record's level. -/
def level : Record → Nat
  | evaluation _ => debug
  | suite .. => info

/-- The name of the record's level. -/
def levelName : Record → String
  | evaluation _ => "DEBUG"
  | suite .. => "INFO"

/-- The part of the program that the record comes from. -/
def source : Record → String
  | evaluation _ => "exprcalc.expression"
  | suite .. => "exprcalc.runner"

/-- What the record says. -/
def message : Record → String
  | evaluation note => note.message
  | suite name passed total seconds =>
    "suite " ++ name ++ ": " ++ toString passed ++ "/" ++ toString total ++
      " passed in " ++ fixedText 4 seconds ++ "s"

/-- **The line of the record.** -/
def line (r : Record) : String :=
  r.levelName ++ " " ++ r.source ++ ": " ++ r.message

end Record

/-- **The lines of the records at a threshold or above.** -/
def shown (threshold : Nat) (records : List Record) : List String :=
  (records.filter fun r => threshold ≤ r.level).map Record.line

end Log

end Reckon
