import LogRelay.Json.Basic
import LogRelay.Number.Shortest
/-!
# Writing JSON

Values are written without blanks and in ASCII: every other code point, and every control
character, is an escape, and a code point above `0xFFFF` is a surrogate pair of escapes.

## Main definitions

* `Json.escape`, `Json.renderString`, `Json.render`
-/
namespace LogRelay.Json

/-- A unit of sixteen bits as an escape. -/
def escapeUnit (c : CodePoint) : Text :=
  "\\u" ++ Text.hex 4 c.val

/-- A code point as it is written inside a string. -/
def escape (c : CodePoint) : Text :=
  if c = '"' then "\\\""
  else if c = '\\' then "\\\\"
  else if c = '\n' then "\\n"
  else if c = '\r' then "\\r"
  else if c = '\t' then "\\t"
  else if c.val = 0x08 then "\\b"
  else if c.val = 0x0C then "\\f"
  else if 0x20 ≤ c.val ∧ c.val < 0x7F then [c]
  else if c.val < 0x10000 then escapeUnit c
  else
    let (high, low) := c.toSurrogates
    escapeUnit high ++ escapeUnit low

/-- A string with its quotes. -/
def renderString (t : Text) : Text :=
  CodePoint.ofChar '"' :: t.flatMap escape ++ [CodePoint.ofChar '"']

/-- A number in double precision; those that are not finite have names. -/
def renderDouble (x : Double) : Text :=
  match x with
  | .nan => "NaN"
  | .infinite negative => if negative then "-Infinity" else "Infinity"
  | .finite .. => x.render

mutual

/-- The value as a document. -/
def render : Json → Text
  | .null => "null"
  | .bool b => if b then "true" else "false"
  | .int n => Text.ofInt n
  | .float x => renderDouble x
  | .str t => renderString t
  | .arr items => CodePoint.ofChar '[' :: renderItems items ++ [CodePoint.ofChar ']']
  | .obj members => CodePoint.ofChar '{' :: renderMembers members ++ [CodePoint.ofChar '}']

/-- The items of an array, with commas between them. -/
def renderItems : List Json → Text
  | [] => []
  | [item] => item.render
  | item :: next :: rest => item.render ++ CodePoint.ofChar ',' :: renderItems (next :: rest)

/-- The members of an object, with commas between them. -/
def renderMembers : List (Text × Json) → Text
  | [] => []
  | [(key, value)] => renderString key ++ CodePoint.ofChar ':' :: value.render
  | (key, value) :: next :: rest =>
    renderString key ++ CodePoint.ofChar ':' :: value.render
      ++ CodePoint.ofChar ',' :: renderMembers (next :: rest)

end

end LogRelay.Json
