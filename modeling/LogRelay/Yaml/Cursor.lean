import LogRelay.Text.Digit
import LogRelay.Text.Utf8
import LogRelay.Yaml.Value
/-!
# Places in a YAML document

YAML is read code point by code point, and what a code point means depends on the line and the
column that it stands in.  A line ends in a line feed, in the control character of number 85
(hexadecimal), or in a line or paragraph separator.

## Main definitions

* `Yaml.Cursor`: a place in a document.
* `Yaml.Lex`: what moves a cursor and may find a fault.
* `Yaml.Lex.reach`: looking ahead, where a fault of the document is met.
-/
namespace LogRelay.Yaml

/-! ## Classes of code points -/

/-- Whether the code point ends a line. -/
def isBreak (c : CodePoint) : Bool :=
  c = '\n' || c.val = 0x85 || c.val = 0x2028 || c.val = 0x2029

/-- Whether a line ends here, or the document. -/
def atBreak : Option CodePoint → Bool
  | none => true
  | some c => isBreak c

/-- Whether there is a space here, or an end. -/
def atSpace : Option CodePoint → Bool
  | none => true
  | some c => c = ' ' || isBreak c

/-- Whether there is a space or a tab here, or an end. -/
def atBlank : Option CodePoint → Bool
  | none => true
  | some c => c = ' ' || c = '\t' || isBreak c

/-- Whether the code point is one of those of a string. -/
def isOneOf (s : String) (c : CodePoint) : Bool :=
  (s : Text).contains c

/-- Whether the code point can be part of a name: a letter or digit of ASCII, `-` or `_`. -/
def isNamePart (c : CodePoint) : Bool :=
  c.isAsciiDigit || (0x41 ≤ c.val && c.val ≤ 0x5A) || (0x61 ≤ c.val && c.val ≤ 0x7A) || c = '-'
    || c = '_'

/-! ## Cursors -/

/-- A place in a document: what comes after it, and how much, how many lines and how many columns of
its line come before it.  Behind `rest` the document may have a fault. -/
structure Cursor where
  rest : Text
  fault : Option Fault := none
  index : Nat := 0
  line : Nat := 0
  column : Nat := 0

namespace Cursor

/-- The place after the next code point.  A byte order mark takes up no column. -/
def next (c : Cursor) : Cursor :=
  match c.rest with
  | [] => c
  | p :: rest =>
    if isBreak p then { c with rest, index := c.index + 1, line := c.line + 1, column := 0 }
    else if p.val = 0xFEFF then { c with rest, index := c.index + 1 }
    else { c with rest, index := c.index + 1, column := c.column + 1 }

/-- The place after the next `n` code points. -/
def skip (n : Nat) (c : Cursor) : Cursor :=
  n.repeat next c

/-- Whether a line of three of the given marks, or one that starts with them and a blank, comes
next. -/
def atMarks (mark : CodePoint) (c : Cursor) : Bool :=
  c.rest.take 3 = [mark, mark, mark] && atBlank c.rest[3]?

end Cursor

/-- What moves a cursor and may find a fault. -/
abbrev Lex := StateT Cursor (Except Fault)

namespace Lex

/-- Look at the next `n` code points.  If there are not so many, the document ends before them, or
has a fault. -/
def reach (n : Nat) : Lex Unit := do
  let c ← get
  match c.fault with
  | some fault => if (c.rest.drop (n - 1)).isEmpty then throw fault
  | none => pure ()

/-- The code point `k` places on. -/
def peek (k : Nat) : Lex (Option CodePoint) := do
  reach (k + 1)
  return (← get).rest[k]?

/-- Pass over `n` code points, up to one that is looked at. -/
def skip (n : Nat) : Lex Unit := do
  reach (n + 1)
  modify (Cursor.skip n)

/-- Take the next `n` code points. -/
def take (n : Nat) : Lex Text := do
  let text := (← get).rest.take n
  skip n
  return text

/-- Take the code points up to the first one that does not satisfy `p`. -/
def takeWhile (p : CodePoint → Bool) : Lex Text := do
  take ((← get).rest.takeWhile p).length

/-- Whether the start or the end of a document is marked here. -/
def atDocumentMarks : Lex Bool := do
  reach 3
  let c ← get
  if [("---" : Text), "..."].contains (c.rest.take 3) then reach 4
  return c.atMarks '-' || c.atMarks '.'

/-- Pass over spaces. -/
def skipSpaces : Lex Unit :=
  discard (takeWhile (· = ' '))

/-- Pass over a comment, if there is one, up to the end of the line. -/
def skipComment : Lex Unit := do
  if (← peek 0) = some (CodePoint.ofChar '#') then discard (takeWhile (!isBreak ·))

/-- Take the end of a line, if there is one.  A separator stands for itself, any other end for a
line feed. -/
def lineBreak : Lex Text := do
  match ← peek 0 with
  | none => return []
  | some c =>
    if isBreak c then
      skip 1
      return [if c.val = 0x2028 ∨ c.val = 0x2029 then c else '\n']
    else return []

/-- Fail unless a condition holds. -/
def require (condition : Bool) : Lex Unit :=
  if condition then pure () else throw .lexeme

/-- Pass over the rest of a line that may hold nothing more than a comment. -/
def endLine : Lex Unit := do
  skipSpaces
  skipComment
  require (atBreak (← peek 0))
  discard lineBreak

end Lex

end LogRelay.Yaml
