import Reckon.Machine
import Reckon.Decimal.Layout
import Reckon.Text.Quoted

/-!
# Notes on an evaluation

An evaluation has no error channel: whatever is wrong with a text ends in
an undefined value. What happened on the way can be noted – a scan that
stalled, a literal without a value, a contraction – and the notes are
read off the states that the evaluation goes through. The evaluation
itself knows nothing of them.
-/

namespace Reckon

/-- **Something that happened in an evaluation.** -/
inductive Note (α : Type) where
  /-- A scan found nothing that it could take. -/
  | stalled (position : Nat) (rest : List Char)
  /-- The scan of a scope came to its end. -/
  | scanned (terms : List (Term α))
  /-- A literal has no value. -/
  | malformed (run : List Char)
  /-- A scope has no terms. -/
  | empty
  /-- The first of several terms is no addition. -/
  | cannotLead (operator : Operator)
  /-- An operator was contracted. -/
  | contracted (operator : Operator) (standing : List (Term α))
  /-- A text was refused for its brackets. -/
  | unbalanced (expression : String) (position : Nat)

/-! ## Reading them off an evaluation -/

section

variable {α : Type} [Arithmetic α]

/-- **The literals that a scan reads**, up to where it stops. -/
def Scope.literals (s : Scope α) (c : Cursor) : List Literal :=
  match _ : s.pass c with
  | .literal o l d => l :: literals (s.push { operator := some o, value := some l.value }) d
  | .blank d => literals { s with grown := false } d
  | _ => []
termination_by 2 * c.rest.length + s.grown.toNat
decreasing_by
  · rename_i h
    have := left_pass_lt h (by simp) (by simp) (by simp)
    simp only [Pass.left] at this
    simp only [push, Bool.toNat_true]
    omega
  · rename_i h
    have hle := left_pass_le s c
    rw [h] at hle
    simp only [Pass.left] at hle
    simp only [grown_of_pass_eq_blank h, Bool.toNat_true, Bool.toNat_false]
    omega

/-- The notes on a scan. -/
def Scope.scanNotes (s : Scope α) (c : Cursor) : List (Note α) :=
  let malformed := (s.literals c).filter fun l => l.decimal?.isNone
  let scan := s.scan c
  let ending :=
    match scan.stop with
    | .opened => []
    | .stalled =>
      [.stalled scan.cursor.position scan.cursor.rest, .scanned scan.scope.terms]
    | .closed | .ended => [.scanned scan.scope.terms]
  malformed.map (fun l => .malformed l.run) ++ ending

/-- The notes on a reduction. -/
def reductionNotes : List (Term α) → List (Note α)
  | [] => [.empty]
  | [_] => []
  | [_, _] => []
  | t :: ts =>
    match t.lead.operator with
    | some o =>
      if 0 < o.precedence then [.cannotLead o]
      else (contractions (.single t.lead) (ts.map .single)).map fun c =>
        .contracted c.operator c.standing
    | none => []

/-- The notes on one step. -/
def Machine.stepNotes (m : Machine α) : List (Note α) :=
  let scan := m.top.scope.scan m.cursor
  m.top.scope.scanNotes m.cursor ++
    if scan.stop = .opened then [] else reductionNotes scan.scope.terms

/-- **The notes on the evaluation of a scope**, in the order of events. -/
def Scope.notes (s : Scope α) (c : Cursor) : List (Note α) :=
  (Machine.states { cursor := c, top := { scope := s } }).flatMap Machine.stepNotes

end

/-! ## Writing them out -/

/-- A value, or the word for there being none. -/
def valueText : Option Float → String
  | some x => floatText x
  | none => "None"

/-- A term as its operator and value; an unknown operator is a question
mark. -/
def Term.text (t : Term Float) : String :=
  let symbol := (t.operator.map Operator.symbol).getD '?'
  String.singleton symbol ++ valueText t.value

/-- Terms with spaces between them. -/
def termsText (ts : List (Term Float)) : String :=
  " ".intercalate (ts.map Term.text)

/-- A scope by its terms and value. -/
def scopeText (terms : List (Term Float)) (value : Option Float) : String :=
  "ExpressionNode([" ++ termsText terms ++ "], value=" ++ valueText value ++ ")"

/-- **A note in words.** -/
def Note.message : Note Float → String
  | .stalled position rest =>
    "scan stalled at " ++ toString position ++ ": " ++ Text.quote (String.ofList rest)
  | .scanned terms => "scanned " ++ scopeText terms none
  | .malformed run => "malformed number literal " ++ Text.quote (String.ofList run)
  | .empty => "empty expression"
  | .cannotLead o => "leading " ++ String.singleton o.symbol ++ " cannot start a sum"
  | .contracted o standing =>
    "contracted " ++ String.singleton o.symbol ++ ": " ++ termsText standing
  | .unbalanced expression position =>
    "unbalanced input " ++ Text.quote expression ++ " stopped at " ++ toString position

end Reckon
