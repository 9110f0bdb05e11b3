import Reckon.Command.Arguments

/-!
# Commands

The four commands of the program and the command lines that ask for them.
A number of digits is a count, and so it is one at the least.
-/

namespace Reckon

/-- **A command of the program.** -/
inductive Command where
  /-- Evaluates an expression and prints its value. -/
  | eval (expression : String) (strict : Bool) (precision : Option Nat)
  /-- Evaluates the lines of a file and lists the outcomes. -/
  | batch (path : String) (strict : Bool)
  /-- Lists the suites. -/
  | suites
  /-- Runs one suite, or all of them. -/
  | check (suite : Option String) (saveIn : Option String)
  /-- Says how the program is used. -/
  | help
deriving Repr, DecidableEq

namespace Command

/-- The option that every command takes. -/
def helpOption : OptionSpec where
  name := "help"

/-- The option for strict brackets. -/
def strictOption : OptionSpec where
  name := "strict"
  letter := some 's'

/-- The option for the number of digits. -/
def precisionOption : OptionSpec where
  name := "precision"
  letter := some 'p'
  takesValue := true

/-- The option for the directory of reports. -/
def saveOption : OptionSpec where
  name := "save"
  takesValue := true

/-- The operand of a command that takes exactly one. -/
def oneOperand (name : String) : List String → Except UsageError String
  | [] => .error (.missingOperand name)
  | [word] => .ok word
  | _ :: word :: _ => .error (.extraOperand word)

/-- The operand of a command that takes one at the most. -/
def optionalOperand : List String → Except UsageError (Option String)
  | [] => .ok none
  | [word] => .ok (some word)
  | _ :: word :: _ => .error (.extraOperand word)

/-- The number of digits asked for. -/
def readPrecision (a : Arguments) : Except UsageError (Option Nat) :=
  match a.value? precisionOption.name with
  | none => .ok none
  | some value =>
    match Numeral.readCount? value.toList with
    | some n => .ok (some n)
    | none => .error (.badValue precisionOption.name value)

/-- Reads the words after `eval`. -/
def readEval (a : Arguments) : Except UsageError Command := do
  let precision ← readPrecision a
  let expression ← oneOperand "EXPRESSION" a.operands
  return eval expression (a.has strictOption.name) precision

/-- Reads the words after `batch`. -/
def readBatch (a : Arguments) : Except UsageError Command := do
  let path ← oneOperand "PATH" a.operands
  return batch path (a.has strictOption.name)

/-- Reads the words after `suites`. -/
def readSuites (a : Arguments) : Except UsageError Command :=
  match a.operands with
  | [] => .ok suites
  | word :: _ => .error (.extraOperand word)

/-- Reads the words after `check`. -/
def readCheck (a : Arguments) : Except UsageError Command := do
  let suite ← optionalOperand a.operands
  return check suite (a.value? saveOption.name)

/-- Reads the words after a command's name. -/
def readWith (specs : List OptionSpec) (readRest : Arguments → Except UsageError Command)
    (words : List String) : Except UsageError Command := do
  let a ← Arguments.read (helpOption :: specs) words
  if a.has helpOption.name then return help
  else readRest a

/-- Reads a command by its name. -/
def readNamed (name : String) (words : List String) : Except UsageError Command :=
  match name with
  | "eval" => readWith [strictOption, precisionOption] readEval words
  | "batch" => readWith [strictOption] readBatch words
  | "suites" => readWith [] readSuites words
  | "check" => readWith [saveOption] readCheck words
  | _ => .error (.unknownCommand name)

/-- **Reads a command line.** Before the command only the option for help
may stand. -/
def read : List String → Except UsageError Command
  | [] => .error .noCommand
  | word :: words =>
    if word == "--help" then .ok help
    else if word == "--" then
      match words with
      | [] => .error .noCommand
      | name :: words => readNamed name words
    else if word.startsWith "-" && word != "-" then .error (.unknownOption word)
    else readNamed word words

end Command

end Reckon
