import LogRelay.Members
import LogRelay.Number.Double
/-!
# JSON values

A JSON value keeps what the document said: integers of any size apart from numbers with a fraction
or an exponent, and the members of an object in the order in which their names first appeared.

## Main definitions

* `Json`
* `Json.isTruthy`: a value that is neither empty nor zero nor `false` nor `null`.
* `Json.sameKey`: two values that name the same entry of a table.
-/
namespace LogRelay

/-- A JSON value. -/
inductive Json where
  | null
  | bool (b : Bool)
  | int (n : Int)
  | float (x : Double)
  | str (t : Text)
  | arr (items : List Json)
  | obj (members : List (Text × Json))

instance : Inhabited Json := ⟨.null⟩

instance : Coe Text Json := ⟨.str⟩

namespace Json

/-- The member of an object with the given name. -/
def get? (key : Text) : Json → Option Json
  | .obj members => Members.get? key members
  | _ => none

/-- A value that is neither empty nor zero nor `false` nor `null`. -/
def isTruthy : Json → Bool
  | .null => false
  | .bool b => b
  | .int n => n ≠ 0
  | .float x => !x.isZero
  | .str t => t ≠ []
  | .arr items => !items.isEmpty
  | .obj members => !members.isEmpty

/-- The value, or the default if it is missing or not truthy. -/
def orElse (value : Option Json) (default : Json) : Json :=
  match value with
  | some v => if v.isTruthy then v else default
  | none => default

/-- The text of a string. -/
def str? : Json → Option Text
  | .str t => some t
  | _ => none

/-- The name of the type of a value, as messages give it. -/
def typeName : Json → Text
  | .null => "NoneType"
  | .bool _ => "bool"
  | .int _ => "int"
  | .float _ => "float"
  | .str _ => "str"
  | .arr _ => "list"
  | .obj _ => "dict"

/-! ## Values as keys -/

/-- Whether a value can be a key: arrays and objects cannot. -/
def isKey : Json → Bool
  | .arr _ | .obj _ => false
  | _ => true

/-- The number that a key stands for, if it stands for one: `true` is one and `false` zero. -/
def keyNumber? : Json → Option (Int ⊕ Double)
  | .bool b => some (.inl (if b then 1 else 0))
  | .int n => some (.inl n)
  | .float x => match x.toInt? with
    | some n => some (.inl n)
    | none => some (.inr x)
  | _ => none

/-- Whether two values are one key: equal texts, or equal numbers. -/
def sameKey (a b : Json) : Bool :=
  match a, b with
  | .null, .null => true
  | .str s, .str t => s = t
  | _, _ => match a.keyNumber?, b.keyNumber? with
    | some x, some y => x = y
    | _, _ => false

end Json

end LogRelay
