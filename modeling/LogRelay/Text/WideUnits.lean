import LogRelay.Text.Utf8
/-!
# UTF-16, UTF-32 and the choice between encodings

A document may come in any of the Unicode encodings.  Which one it is in is read off its first
bytes: a byte order mark, or else the places of the zero bytes, since a document starts with an
ASCII character.  All readings let lone surrogates pass.

## Main definitions

* `Encoding`, `Encoding.detect`
* `Encoding.decode?`: the text of the bytes, or `none` when they are ill-formed.
-/
namespace LogRelay

/-- An encoding of texts.  `marked` says that a byte order mark comes first and is no part of the
text. -/
inductive Encoding where
  | utf8 (marked : Bool)
  | utf16 (bigEndian marked : Bool)
  | utf32 (bigEndian marked : Bool)
  deriving DecidableEq

namespace Encoding

/-- The encoding that the first bytes of a document show. -/
def detect (bs : Bytes) : Encoding :=
  match bs with
  | 0x00 :: 0x00 :: 0xFE :: 0xFF :: _ => .utf32 true true
  | 0xFF :: 0xFE :: 0x00 :: 0x00 :: _ => .utf32 false true
  | 0xFE :: 0xFF :: _ => .utf16 true true
  | 0xFF :: 0xFE :: _ => .utf16 false true
  | 0xEF :: 0xBB :: 0xBF :: _ => .utf8 true
  | a :: b :: c :: d :: _ =>
    if a = 0 then if b = 0 then .utf32 true false else .utf16 true false
    else if b = 0 then if c = 0 ∧ d = 0 then .utf32 false false else .utf16 false false
    else .utf8 false
  | [a, b] => if a = 0 then .utf16 true false else if b = 0 then .utf16 false false else .utf8 false
  | _ => .utf8 false

/-- The number that two bytes write. -/
def unit16 (bigEndian : Bool) (a b : UInt8) : Nat :=
  if bigEndian then a.toNat * 0x100 + b.toNat else b.toNat * 0x100 + a.toNat

/-- The units of sixteen bits of a byte sequence, last first, if their number is even. -/
def units16 (bigEndian : Bool) (read : Text) : Bytes → Option Text
  | [] => some read
  | [_] => none
  | a :: b :: rest => units16 bigEndian (CodePoint.ofNat (unit16 bigEndian a b) :: read) rest

/-- Join the surrogate pairs of a text, onto the text already read, last first. -/
def joinPairs (read : Text) : Text → Text
  | [] => read.reverse
  | [c] => (c :: read).reverse
  | c :: d :: rest =>
    if c.isHighSurrogate && d.isLowSurrogate then
      joinPairs (CodePoint.ofSurrogates c d :: read) rest
    else joinPairs (c :: read) (d :: rest)

/-- The units of thirty-two bits of a byte sequence, if each is a code point. -/
def units32 (bigEndian : Bool) (read : Text) : Bytes → Option Text
  | [] => some read.reverse
  | a :: b :: c :: d :: rest =>
    let value :=
      if bigEndian then unit16 true a b * 0x10000 + unit16 true c d
      else unit16 false c d * 0x10000 + unit16 false a b
    if h : value < 0x110000 then units32 bigEndian (⟨value, h⟩ :: read) rest else none
  | _ => none

/-- The text that the bytes write in the given encoding. -/
def decode? (bs : Bytes) : Encoding → Option Text
  | .utf8 marked => Utf8.decodeWithSurrogates? (if marked then bs.drop 3 else bs)
  | .utf16 bigEndian marked =>
    (units16 bigEndian [] (if marked then bs.drop 2 else bs)).map fun units =>
      joinPairs [] units.reverse
  | .utf32 bigEndian marked => units32 bigEndian [] (if marked then bs.drop 4 else bs)

end Encoding

end LogRelay
