import LogRelay.Json.Plain
/-!
# Values of the wrong shape

The runtime's requests are JSON values that are taken as they come: a value is looked into only at
the moment when something is wanted of it, and refused then if it cannot give that.

## Main definitions

* `ShapeError`, `ShapeError.message`: what a value could not give.
* `Json.members`, `Json.items`, `Json.toTable`, `Json.toInt`: what is wanted of values.
-/
namespace LogRelay

/-- What a value could not give. -/
inductive ShapeError where
  /-- the members of an object -/
  | noMembers (found : Text)
  /-- the letters of a text -/
  | noText (found : Text)
  /-- the items of a sequence -/
  | noItems (found : Text)
  /-- an answer to whether an item is in it -/
  | noSearch (found : Text)
  /-- the items of the pair at the given index of a table -/
  | noPair (index : Nat)
  /-- exactly two items in the pair at the given index of a table -/
  | pairLength (index length : Nat)
  /-- a key of a table -/
  | noKey (found : Text)
  /-- its first few items -/
  | noStart (found : Text)
  /-- a number -/
  | noNumber (found : Text)
  /-- a number, as a text that was meant to write one -/
  | numeral (e : Integer.ParseError)
  /-- an integer, being no number at all -/
  | notANumber
  /-- an integer, being infinite -/
  | infinite
  /-- an order among keys of different kinds -/
  | noOrder
  deriving DecidableEq

/-- The error in words. -/
def ShapeError.message : ShapeError → Text
  | .noMembers found => "'" ++ found ++ "' object has no attribute 'get'"
  | .noText found => "'" ++ found ++ "' object is no text"
  | .noItems found => "'" ++ found ++ "' object is not iterable"
  | .noSearch found => "argument of type '" ++ found ++ "' is not iterable"
  | .noPair index =>
    "cannot convert dictionary update sequence element #" ++ Text.ofNat index ++ " to a sequence"
  | .pairLength index length =>
    "dictionary update sequence element #" ++ Text.ofNat index ++ " has length "
      ++ Text.ofNat length ++ "; 2 is required"
  | .noKey found => "unhashable type: '" ++ found ++ "'"
  | .noStart found => "'" ++ found ++ "' object is not subscriptable"
  | .noNumber found =>
    "int() argument must be a string, a bytes-like object or a real number, not '" ++ found ++ "'"
  | .numeral e => e.message
  | .notANumber => "cannot convert float NaN to integer"
  | .infinite => "cannot convert float infinity to integer"
  | .noOrder => "keys of different kinds have no order"

namespace Json

/-- The members of an object. -/
def members : Json → Except ShapeError (List (Text × Json))
  | .obj members => .ok members
  | j => .error (.noMembers j.typeName)

/-- The items of a sequence: those of an array, the names in an object, the letters of a text. -/
def items? : Json → Option (List Json)
  | .arr items => some items
  | .obj members => some (members.map fun (key, _) => .str key)
  | .str t => some (t.map fun c => .str [c])
  | _ => none

/-- The items of a sequence. -/
def items (j : Json) : Except ShapeError (List Json) :=
  match j.items? with
  | some items => .ok items
  | none => .error (.noItems j.typeName)

/-- The entries of a table that is given as a sequence of pairs, `index` being the place of the
first one, added to the table so far. -/
def tableOfPairs (index : Nat) (table : Members Json Json) :
    List Json → Except ShapeError (Members Json Json)
  | [] => .ok table
  | pair :: rest =>
    match pair.items? with
    | none => .error (.noPair index)
    | some [key, value] =>
      if key.isKey then tableOfPairs (index + 1) (Members.insertBy sameKey key value table) rest
      else .error (.noKey key.typeName)
    | some items => .error (.pairLength index items.length)

/-- The table that an object or a sequence of pairs gives. -/
def toTable (j : Json) : Except ShapeError (Members Json Json) :=
  match j with
  | .obj members => .ok (members.map fun (key, value) => (.str key, value))
  | _ => do tableOfPairs 0 [] (← j.items)

/-- The integer that a number is, without its fraction, or that a text writes. -/
def toInt (j : Json) : Except ShapeError Int :=
  match j with
  | .int n => .ok n
  | .bool b => .ok (if b then 1 else 0)
  | .float .nan => .error .notANumber
  | .float x => match x.truncate? with
    | some n => .ok n
    | none => .error .infinite
  | .str t => (Integer.parse t).mapError .numeral
  | _ => .error (.noNumber j.typeName)

end Json

end LogRelay
