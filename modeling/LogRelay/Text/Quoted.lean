import LogRelay.Text.Basic
import LogRelay.Text.Printable
/-!
# Quoted texts

The form in which a text is shown inside a message, so that its ends and its invisible parts can be
seen.  The text stands between apostrophes, or between double quotes when it holds an apostrophe and
no double quote.  A backslash and the quote in use are written after a backslash; tab, line feed and
carriage return as `\t`, `\n` and `\r`; every other code point that is not printable by its number
in base 16.

## Main definitions

* `Text.quoted`: the quoted form.
* `Bytes.quoted`: the same for a byte sequence, with a `b` in front.
-/
namespace LogRelay

namespace CodePoint

/-- A code point by its number: `\xhh`, `\uhhhh` or `\Uhhhhhhhh`, the shortest that has room. -/
def numbered (c : CodePoint) : Text :=
  if c.val < 0x100 then "\\x" ++ Text.hex 2 c.val
  else if c.val < 0x10000 then "\\u" ++ Text.hex 4 c.val
  else "\\U" ++ Text.hex 8 c.val

/-- A code point as it is written between two `quote`s. -/
def quotedBy (quote c : CodePoint) : Text :=
  if c = quote ∨ c = '\\' then ['\\', c]
  else if c = '\t' then "\\t"
  else if c = '\n' then "\\n"
  else if c = '\r' then "\\r"
  else if c.isPrintable then [c]
  else c.numbered

end CodePoint

namespace Text

/-- The quote that a text is shown in: an apostrophe, unless only double quotes save escaping. -/
def quoteFor (t : Text) : CodePoint :=
  if t.contains '\'' && !t.contains '"' then '"' else '\''

/-- The text as it is shown in a message. -/
def quoted (t : Text) : Text :=
  let quote := t.quoteFor
  quote :: t.flatMap (CodePoint.quotedBy quote) ++ [quote]

end Text

/-- A byte as it is written between two `quote`s; only the printable part of ASCII stays. -/
def quotedByte (quote : CodePoint) (b : UInt8) : Text :=
  let c := CodePoint.ofNat b.toNat
  if c = quote ∨ c = '\\' then ['\\', c]
  else if c = '\t' then "\\t"
  else if c = '\n' then "\\n"
  else if c = '\r' then "\\r"
  else if 0x20 ≤ c.val ∧ c.val < 0x7F then [c]
  else c.numbered

/-- The byte sequence as it is shown in a message. -/
def Bytes.quoted (bs : Bytes) : Text :=
  let quote := Text.quoteFor (bs.map fun b => CodePoint.ofNat b.toNat)
  CodePoint.ofChar 'b' :: quote :: bs.flatMap (quotedByte quote) ++ [quote]

end LogRelay
