import Reckon.Binary64.Basic
import Reckon.Text.Letter

/-!
# JSON values

The values that a report file can hold. A text may have halves of
characters, because JSON can write them one by one. A number without point and
exponent is a whole one and is kept exactly; any other is a double, and
the undefined and infinite ones are values too. The members of an object
keep the order in which their names first came.
-/

namespace Reckon

/-- **A JSON value.** -/
inductive Json where
  | null
  | bool (b : Bool)
  /-- A number without point and exponent. -/
  | int (n : Int)
  /-- Any other number. -/
  | float (x : Float)
  | str (s : Text.Letters)
  | arr (items : List Json)
  | obj (members : List (Text.Letters × Json))

namespace Json

/-- Sets the member of a name: in its old place, or behind the others. -/
def setMember (name : Text.Letters) (value : Json) :
    List (Text.Letters × Json) → List (Text.Letters × Json)
  | [] => [(name, value)]
  | (n, v) :: ms =>
    if n == name then (n, value) :: ms else (n, v) :: setMember name value ms

/-- The value of the member with the given name, if there is one. -/
def find? (name : String) (members : List (Text.Letters × Json)) : Option Json :=
  members.lookup (Text.Letters.ofString name)

/-- **The member of a name**, if the value is an object that has it. -/
def member? (name : String) : Json → Option Json
  | obj members => find? name members
  | _ => none

/-- What kinds of value are called in reports of errors. -/
def kind : Json → String
  | null => "NoneType"
  | bool _ => "bool"
  | int _ => "int"
  | float _ => "float"
  | str _ => "str"
  | arr _ => "list"
  | obj _ => "dict"

end Json

/-- Types whose values can be written as JSON. -/
class ToJson (τ : Type) where
  /-- The value as JSON. -/
  toJson : τ → Json

export ToJson (toJson)

instance : ToJson Json := ⟨id⟩
instance : ToJson String := ⟨fun s => .str s⟩
instance : ToJson Float := ⟨.float⟩
instance : ToJson Bool := ⟨.bool⟩
instance : ToJson Nat := ⟨fun n => .int n⟩
instance : ToJson Int := ⟨.int⟩

end Reckon
