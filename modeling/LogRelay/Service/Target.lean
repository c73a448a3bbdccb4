import LogRelay.Text.Digit
import LogRelay.Text.Utf8
/-!
# Targets of requests

What a client asks for is a target: a path, perhaps with a scheme and an authority in front of it
and a query or a fragment behind it.  Any byte of the path may be escaped by a percent sign and two
digits.  The path starts with one slash, however many stand there.

## Main definitions

* `Target.path`: the path of a target.
* `Target.escapedPath`, `Target.unescape`, `Target.oneSlash`: the steps to it.
-/
namespace LogRelay.Target

/-- Whether the code point can be part of a scheme. -/
def isSchemePart (c : CodePoint) : Bool :=
  c.isAsciiDigit || (0x41 ≤ c.val && c.val ≤ 0x5A) || (0x61 ≤ c.val && c.val ≤ 0x7A)
    || c = '+' || c = '-' || c = '.'

/-- The target without a scheme. -/
def dropScheme (t : Text) : Text :=
  match Text.cut? ':' t with
  | some (c :: scheme, rest) =>
    let isLetter := isSchemePart c && 0x41 ≤ c.val
    if isLetter && scheme.all isSchemePart then rest else t
  | _ => t

/-- The target without an authority, which two slashes start. -/
def dropAuthority (t : Text) : Text :=
  if t.startsWith "//" then (t.drop 2).dropWhile fun c => !(("/?#" : Text).contains c) else t

/-- The path in a target, with its escapes.  Blanks and control characters in front of the target do
not count, and neither do tabs and line ends inside of it. -/
def escapedPath (t : Text) : Text :=
  let t := t.dropWhile fun c => c.val ≤ 0x20
  let t := t.filter fun c => c.val ≠ 0x09 && c.val ≠ 0x0A && c.val ≠ 0x0D
  (dropAuthority (dropScheme t)).takeWhile fun c => !(("?#" : Text).contains c)

/-- The byte that an escape stands for, if one starts with the given byte, which others follow. -/
def escape? (first : UInt8) (rest : Bytes) : Option UInt8 := do
  let digit? (i : Nat) : Option Nat := rest[i]?.bind fun b => (CodePoint.ofNat b.toNat).hexDigit?
  if first = 0x25 then some (UInt8.ofNat ((← digit? 0) * 16 + (← digit? 1))) else none

/-- The bytes with each escape replaced by the byte that it stands for. -/
def unescapeBytes : Bytes → Bytes
  | [] => []
  | b :: rest =>
    match escape? b rest with
    | some e => e :: unescapeBytes (rest.drop 2)
    | none => b :: unescapeBytes rest
termination_by bs => bs.length
decreasing_by all_goals (simp only [List.length_drop, List.length_cons]; omega)

/-- The text with each escape replaced by what it stands for. -/
def unescape (t : Text) : Text :=
  Utf8.decodeLossy (unescapeBytes (Utf8.encodeLossy t))

/-- A path with one slash in front, unless it is empty. -/
def oneSlash (path : Text) : Text :=
  if path = [] then [] else CodePoint.ofChar '/' :: path.dropWhile (· = '/')

/-- The path of a target.  Both the client and the service take the target apart. -/
def path (t : Text) : Text :=
  oneSlash (unescape (escapedPath (escapedPath t)))

/-- A path with one slash for each two that stand side by side. -/
def mergeSlashes : Text → Text
  | [] => []
  | [c] => [c]
  | c :: d :: rest =>
    if c = '/' ∧ d = '/' then c :: mergeSlashes rest else c :: mergeSlashes (d :: rest)

end LogRelay.Target
