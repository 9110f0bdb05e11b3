import Reckon.Json.Reader
import Reckon.Json.Writer
import Reckon.Path
import Reckon.Report.Basic
import Reckon.Text.Utf8

/-!
# Reports on file

A report is kept as a JSON file. What can be counted is written out for
readers of the file and counted again when the report is read. Reading
fills in what is missing; a number may be written in any way that
`Numeral.readFloat?` takes.

A file that is not UTF-8, not JSON, or has a text that is no number where
a number should be holds no report. JSON of the wrong shape is an error,
and so is JSON that nests deeper than the reader has room for.
-/

namespace Reckon

/-! ## Writing -/

instance {τ ν : Type} [ToJson τ] [ToJson ν] : ToJson (Case τ ν) where
  toJson c := .obj [
    ("expression", toJson c.expression),
    ("expected", resultJson c.expected),
    ("actual", resultJson c.actual),
    ("elapsed_ms", toJson c.elapsed),
    ("passed", .bool c.passes)]

instance {τ ν : Type} [ToJson τ] [ToJson ν] : ToJson (Report τ ν) where
  toJson r := .obj [
    ("suite", toJson r.suite),
    ("timestamp", toJson r.timestamp),
    ("wall_clock_s", toJson r.wallClock),
    ("passed", toJson r.passed),
    ("failed", toJson r.failed),
    ("total", toJson r.total),
    ("verdict", .str r.verdict.label),
    ("cases", .arr (r.cases.map toJson))]

/-- **The text of a report's file.** -/
def Report.fileText {τ ν : Type} [ToJson τ] [ToJson ν] (r : Report τ ν) : String :=
  (toJson r).write .block

/-! ## Reading numbers -/

/-- **Why a value is no number.** -/
inductive NumberError where
  /-- A text that writes none. -/
  | notANumber (text : Text.Letters)
  /-- A whole number beyond all doubles. -/
  | tooLarge
  /-- A value of a kind that has none. -/
  | wrongKind (kind : String)
deriving Repr, DecidableEq

/-- What the error is reported as. -/
def NumberError.message : NumberError → String
  | notANumber text => "could not convert string to float: " ++ Text.quoteLetters text
  | tooLarge => "int too large to convert to float"
  | wrongKind kind =>
    "float() argument must be a string or a real number, not '" ++ kind ++ "'"

/-- **The number that a value stands for.** A text with half of a
character writes none, and no more does one with the replacement
character. -/
def Json.toNumber : Json → Except NumberError Float
  | bool b => .ok (if b then 1 else 0)
  | int n =>
    let x := Binary64.ofInt n
    if x.isInf then .error .tooLarge else .ok x
  | float x => .ok x
  | str s =>
    match Numeral.readFloat? (s.map Text.Letter.char) with
    | some x => .ok x
    | none => .error (.notANumber s)
  | j => .error (.wrongKind j.kind)

/-! ## Reading -/

/-- **Why a value is no report.** -/
inductive ReportError where
  | number (e : NumberError)
  /-- It has no members. -/
  | noMembers (kind : String)
  /-- It has no items. -/
  | noItems (kind : String)
deriving Repr, DecidableEq

/-- What the error is reported as. -/
def ReportError.message : ReportError → String
  | number e => e.message
  | noMembers kind => "'" ++ kind ++ "' object has no attribute 'get'"
  | noItems kind => "'" ++ kind ++ "' object is not iterable"

/-- A case or a report as it is read: its texts and measurements may be
any values. -/
abbrev LoadedCase : Type := Case Json Json

@[inherit_doc LoadedCase]
abbrev LoadedReport : Type := Report Json Json

/-- The members of a value, which must be an object. -/
def Json.members : Json → Except ReportError (List (Text.Letters × Json))
  | obj ms => .ok ms
  | j => .error (.noMembers j.kind)

/-- The items of a value that is gone through: those of a list, the names
of an object, or the letters of a text. -/
def Json.items : Json → Except ReportError (List Json)
  | arr items => .ok items
  | obj members => .ok (members.map fun m => .str m.1)
  | str s => .ok (s.map fun letter => .str [letter])
  | j => .error (.noItems j.kind)

/-- The number of a member; a missing one is undefined. -/
def readNumberMember (name : String) (members : List (Text.Letters × Json)) :
    Except ReportError Float :=
  match Json.find? name members with
  | some j => j.toNumber.mapError .number
  | none => .ok Binary64.undefined

/-- **A case as it is read.** -/
def LoadedCase.ofJson (j : Json) : Except ReportError LoadedCase := do
  let members ← j.members
  let expected ← readNumberMember "expected" members
  let actual ← readNumberMember "actual" members
  return {
    expression := (Json.find? "expression" members).getD (.str "")
    expected := expected
    actual := actual
    elapsed := (Json.find? "elapsed_ms" members).getD (.float (Binary64.zero false)) }

/-- **A report as it is read.** -/
def LoadedReport.ofJson (j : Json) : Except ReportError LoadedReport := do
  let members ← j.members
  let items ← ((Json.find? "cases" members).getD (.arr [])).items
  let cases ← items.mapM LoadedCase.ofJson
  return {
    suite := (Json.find? "suite" members).getD (.str "")
    timestamp := (Json.find? "timestamp" members).getD (.str "")
    wallClock := (Json.find? "wall_clock_s" members).getD (.float (Binary64.zero false))
    cases := cases }

/-- Is the error one for which a file counts as holding no report? -/
def ReportError.isContent : ReportError → Bool
  | number (.notANumber _) => true
  | _ => false

/-- **The report that a value is**, if it counts as one. -/
def LoadedReport.ofJson? (j : Json) : Except ReportError (Option LoadedReport) :=
  match LoadedReport.ofJson j with
  | .ok r => .ok (some r)
  | .error e => if e.isContent then .ok none else .error e

/-- **The report in the bytes of a file**, if they hold one, however deep
they nest. -/
def LoadedReport.ofBytes (bytes : List UInt8) :
    Except ReportError (Option LoadedReport) :=
  match Text.ofUtf8 bytes with
  | .error _ => .ok none
  | .ok text =>
    match Json.read text.toList with
    | .error _ => .ok none
    | .ok j => LoadedReport.ofJson? j

/-- **Why a report cannot be loaded.** -/
inductive LoadError where
  | report (e : ReportError)
  /-- There is no room for reading what is at the path. -/
  | room (e : Json.ReadError)
deriving Repr, DecidableEq

/-- **Loads the report at a path**, if there is one, with room for so many
lists and objects inside each other. What cannot be read as a file holds
no report. -/
def LoadedReport.load (room : Nat) : Content → Except LoadError (Option LoadedReport)
  | .missing | .directory => .ok none
  | .file bytes =>
    match Text.ofUtf8 bytes with
    | .error _ => .ok none
    | .ok text =>
      match Json.readWithin room text.toList with
      | .error e => if e.fault.isRoom then .error (.room e) else .ok none
      | .ok j => (LoadedReport.ofJson? j).mapError .report

end Reckon
