import Reckon.Operator

/-!
# Terms

A scope of an expression is a flat list of terms. A term is one step of
the computation: apply this operator, with this value, to what has been
computed so far. Either part may be missing, and then the step has no
defined result – `Term.apply` is total.

The value of a bracketed group comes with the node that it was computed
in. Nothing is computed from a node, so what nodes are is left open
(`ν`). An evaluation keeps its groups in a tree, and does with one node
for all of them.
-/

namespace Reckon

/-- **One step of a computation.** -/
structure Term (α : Type) (ν : Type := Unit) where
  /-- The operator, if one is known. -/
  operator : Option Operator
  /-- The right operand, if it has a value. -/
  value : Option α
  /-- The node that the value comes from, if it is that of a group. -/
  node : Option ν := none
deriving Repr, DecidableEq

namespace Term

variable {α ν : Type}

/-- Does the value come from a bracketed group? -/
def grouped (t : Term α ν) : Bool :=
  t.node.isSome

/-- The tier of the term's operator; a term without one is below all
tiers. -/
def precedence (t : Term α ν) : Int :=
  match t.operator with
  | some o => o.precedence
  | none => -1

variable [Arithmetic α]

/-- The value as a number: a missing one is undefined. -/
def number (t : Term α ν) : α :=
  t.value.getD Arithmetic.undefined

/-- **Applies the step to a running value.** -/
def apply (t : Term α ν) (running : α) : α :=
  match t.operator, t.value with
  | some o, some v => o.apply running v
  | _, _ => Arithmetic.undefined

/-- **The term as the first of its list**: no operator there means a
plus, and a minus sign goes into the value. -/
def lead (t : Term α ν) : Term α ν :=
  match t.operator with
  | none => { t with operator := some .add }
  | some .sub =>
    { t with
      operator := some .add
      value := some (Arithmetic.mul Arithmetic.minusOne t.number) }
  | some _ => t

/-- A first term always has an operator. -/
theorem isSome_operator_lead (t : Term α ν) : t.lead.operator.isSome := by
  unfold lead
  split <;> simp [*]

/-- Leading changes nothing twice. -/
@[simp] theorem lead_lead (t : Term α ν) : t.lead.lead = t.lead := by
  obtain ⟨_ | o, v, g⟩ := t
  · rfl
  · cases o <;> rfl

end Term

end Reckon
