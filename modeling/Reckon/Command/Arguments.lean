import Reckon.Numeral

/-!
# Command lines

A command line is a command with its options and operands. An option has
a long name and may have a letter; letters can be run together after one
dash. The value of an option is the rest of its word, what follows an
equals sign after a long name, or the next word, whatever that looks
like. After a double dash all words are operands, and so is a single
dash. Long names are never abbreviated, and the last of several values
counts.
-/

namespace Reckon

/-- **An option that a command takes.** -/
structure OptionSpec where
  /-- The long name, without its dashes. -/
  name : String
  /-- The letter, if it has one. -/
  letter : Option Char := none
  /-- Does it come with a value? -/
  takesValue : Bool := false
deriving Repr, DecidableEq

/-- **Why a command line is refused.** -/
inductive UsageError where
  | noCommand
  | unknownCommand (name : String)
  | unknownOption (name : String)
  | missingValue (option : String)
  | unexpectedValue (option : String)
  | missingOperand (name : String)
  | extraOperand (word : String)
  | badValue (option value : String)
  | notAFile (path : String)
deriving Repr, DecidableEq

/-- What is said of the refusal. -/
def UsageError.message : UsageError → String
  | noCommand => "Missing command."
  | unknownCommand name => "No such command '" ++ name ++ "'."
  | unknownOption name => "No such option: " ++ name
  | missingValue option => "Option '--" ++ option ++ "' requires an argument."
  | unexpectedValue option => "Option '--" ++ option ++ "' does not take a value."
  | missingOperand name => "Missing argument '" ++ name ++ "'."
  | extraOperand word => "Got unexpected extra argument (" ++ word ++ ")"
  | badValue option value => "Invalid value for '--" ++ option ++ "': " ++ value
  | notAFile path => "File '" ++ path ++ "' does not exist or is a directory."

/-- **The words of a command, sorted.** -/
structure Arguments where
  /-- The options given, each with its value if it takes one. -/
  options : List (String × String) := []
  operands : List String := []
deriving Repr, DecidableEq

namespace Arguments

/-- Adds an option in front. -/
def withOption (name value : String) (a : Arguments) : Arguments :=
  { a with options := (name, value) :: a.options }

/-- Adds an operand in front. -/
def withOperand (word : String) (a : Arguments) : Arguments :=
  { a with operands := word :: a.operands }

/-- Was the option given? -/
def has (a : Arguments) (name : String) : Bool :=
  a.options.any (·.1 == name)

/-- The last value given for the option. -/
def value? (a : Arguments) (name : String) : Option String :=
  List.lookup name a.options.reverse

/-- **Where an option in a word leaves the reading.** -/
inductive Word where
  /-- The word is done, with these options. -/
  | done (options : List (String × String))
  /-- After these options one lacks its value, which is the next word. -/
  | needs (options : List (String × String)) (name : String)

/-- Reads the letters of a word. -/
def readLetters (specs : List OptionSpec) : List Char → Except UsageError Word
  | [] => .ok (.done [])
  | c :: cs =>
    match specs.find? (·.letter == some c) with
    | none => .error (.unknownOption ("-" ++ String.singleton c))
    | some spec =>
      if spec.takesValue then
        if cs.isEmpty then .ok (.needs [] spec.name)
        else .ok (.done [(spec.name, String.ofList cs)])
      else do
        match ← readLetters specs cs with
        | .done options => return .done ((spec.name, "") :: options)
        | .needs options name => return .needs ((spec.name, "") :: options) name

/-- Reads a word that starts with a dash, given without it. -/
def readWord (specs : List OptionSpec) (word : List Char) : Except UsageError Word :=
  match word with
  | '-' :: body =>
    let name := String.ofList (body.takeWhile (· != '='))
    match specs.find? (·.name == name) with
    | none => .error (.unknownOption ("--" ++ name))
    | some spec =>
      match body.drop name.length, spec.takesValue with
      | [], true => .ok (.needs [] spec.name)
      | [], false => .ok (.done [(spec.name, "")])
      | _ :: value, true => .ok (.done [(spec.name, String.ofList value)])
      | _ :: _, false => .error (.unexpectedValue spec.name)
  | letters => readLetters specs letters

/-- **Sorts words** into options and operands. -/
def read (specs : List OptionSpec) : List String → Except UsageError Arguments
  | [] => .ok {}
  | word :: words =>
    if word == "--" then .ok { operands := words }
    else
      match word.toList with
      | '-' :: c :: cs => do
        match ← readWord specs (c :: cs) with
        | .done options =>
          let a ← read specs words
          return options.foldr (fun o => withOption o.1 o.2) a
        | .needs options name =>
          match words with
          | [] => .error (.missingValue name)
          | value :: words =>
            let a ← read specs words
            return options.foldr (fun o => withOption o.1 o.2) (a.withOption name value)
      | _ => do
        let a ← read specs words
        return a.withOperand word

end Arguments

end Reckon
