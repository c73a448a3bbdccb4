import LogRelay.Json.Basic
import LogRelay.Number.Shortest
import LogRelay.Text.Quoted
/-!
# JSON values in plain notation

Where a text is called for and another value is given, and where a message shows a value, the value
is written in a plain notation of its own: `None`, `True` and `False`, numbers as they are, texts
quoted, arrays and objects in their brackets with a blank after each comma and colon.

## Main definitions

* `Json.shown`: the value as a message shows it.
* `Json.plain`: the same, but a text that stands alone is taken as it is.
-/
namespace LogRelay.Json

mutual

/-- The value as a message shows it. -/
def shown : Json → Text
  | .null => "None"
  | .bool b => if b then "True" else "False"
  | .int n => Text.ofInt n
  | .float x => x.render
  | .str t => t.quoted
  | .arr items => CodePoint.ofChar '[' :: shownItems items ++ [CodePoint.ofChar ']']
  | .obj members => CodePoint.ofChar '{' :: shownMembers members ++ [CodePoint.ofChar '}']

/-- The items of an array, with `, ` between them. -/
def shownItems : List Json → Text
  | [] => []
  | [item] => item.shown
  | item :: next :: rest => item.shown ++ ", " ++ shownItems (next :: rest)

/-- The members of an object, with `, ` between them. -/
def shownMembers : List (Text × Json) → Text
  | [] => []
  | [(key, value)] => key.quoted ++ ": " ++ value.shown
  | (key, value) :: next :: rest =>
    key.quoted ++ ": " ++ value.shown ++ ", " ++ shownMembers (next :: rest)

end

/-- The text that stands for a value: itself for a text, else the value as it is shown. -/
def plain : Json → Text
  | .str t => t
  | j => j.shown

end LogRelay.Json
