import Reckon.Report.Archive
import Reckon.Text.Identifier

/-!
# Suites

A suite is a list of expressions with the values they should have. Suites
stand on a shelf, one directory each. What is found there may be no
directory at all, a directory without a suite, or a suite that cannot be
read, and then there is nothing to load; or a suite that fails while it
is read, and then loading fails with its error. A suite that can be read
gives its name, its description and its cases, or leaves them out.

A suite is looked up by the name of its directory. The name it gives
itself may be another one. What it gives as an expression need not be a
text: loading keeps any value, and only a text can be evaluated.
-/

namespace Reckon

/-- A case as a suite gives it: an expression and the value expected of
it, if it is well formed. -/
abbrev RawCase : Type := List Json

/-- **What a directory of the shelf holds.** -/
inductive Shelved where
  /-- It is a plain file. -/
  | file
  /-- It is a directory without a suite. -/
  | bare
  /-- It holds a suite that cannot be read. -/
  | broken
  /-- It holds a suite that fails while it is read, with an error of its
  own. -/
  | failing (message : String)
  /-- It holds a suite, which gives of these what it likes. -/
  | suite (name description : Option String) (cases : Option (List RawCase))

/-- **A shelf**: what is found, by directory. -/
abbrev Shelf : Type := List (String × Shelved)

/-- **A suite.** -/
structure Suite where
  name : String
  description : String
  /-- The directory it was found in. -/
  directory : String
  /-- What it gives as expressions, with the values expected of them. -/
  entries : List (Json × Float)

/-- **Why a suite cannot be loaded**, or not be run. -/
inductive SuiteError where
  /-- It fails with an error of its own. -/
  | ownError (message : String)
  /-- An expected value is no number. -/
  | number (e : NumberError)
  /-- A case has more than two parts. -/
  | tooManyParts
  /-- A case has fewer than two parts. -/
  | tooFewParts (count : Nat)
  /-- What is given as an expression is no text. -/
  | noText (kind : String)
  /-- The name of the suite cannot be in a path. -/
  | impossiblePath
  /-- What is printed or saved is refused. -/
  | refused (message : String)
deriving Repr, DecidableEq

/-- What the error is reported as. -/
def SuiteError.message : SuiteError → String
  | ownError message => message
  | number e => e.message
  | tooManyParts => "too many values to unpack (expected 2)"
  | tooFewParts count =>
    "not enough values to unpack (expected 2, got " ++ toString count ++ ")"
  | noText kind => "'" ++ kind ++ "' object has no attribute 'strip'"
  | impossiblePath => "embedded null byte"
  | refused message => message

/-- The text that a value is, if it is one. -/
def Json.text? : Json → Option String
  | str s => some s.text
  | _ => none

/-- A case as it is loaded. -/
def RawCase.load : RawCase → Except SuiteError (Json × Float)
  | [expression, expected] => do
    let value ← expected.toNumber.mapError .number
    return (expression, value)
  | parts => .error (if 2 < parts.length then .tooManyParts else .tooFewParts parts.length)

namespace Suite

/-- **The cases of a suite**: the entries whose expressions are texts. -/
def cases (s : Suite) : List (String × Float) :=
  s.entries.filterMap fun c => c.1.text?.map fun text => (text, c.2)

/-- The kind of the first expression that is no text, if there is one. -/
def misfit? (s : Suite) : Option String :=
  s.entries.findSome? fun c => if c.1.text?.isSome then none else some c.1.kind

end Suite

namespace Shelf

/-- Does the directory hold a suite, be it one that cannot be read? -/
def holdsSuite : Shelved → Bool
  | .broken | .failing _ | .suite .. => true
  | .file | .bare => false

/-- **Loads the suite of a directory**, if there is one. -/
def load (shelf : Shelf) (directory : String) : Except SuiteError (Option Suite) :=
  if !Text.isIdentifier directory then .ok none
  else
    match List.lookup directory shelf with
    | some (.failing message) => .error (.ownError message)
    | some (.suite name description (some cases)) => do
      let entries ← cases.mapM RawCase.load
      return some {
        name := name.getD directory
        description := description.getD ""
        directory := directory
        entries := entries }
    | _ => .ok none

/-- The directories that hold suites, by code points. -/
def directories (shelf : Shelf) : List String :=
  ((shelf.filter fun entry => holdsSuite entry.2).map (·.1)).mergeSort
    fun a b => !decide (b < a)

/-- **All suites of a shelf**, by the names of their directories. -/
def suites (shelf : Shelf) : Except SuiteError (List Suite) := do
  let found ← shelf.directories.mapM shelf.load
  return found.filterMap id

end Shelf

end Reckon
