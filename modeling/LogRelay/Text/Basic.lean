/-!
# Text and bytes

A text is a sequence of code points, and a code point is any number below `0x110000`.  Surrogate
code points are code points here: a JSON string may name one by its escape, so a record that was
stored somewhere else can hold a lone surrogate, and only an encoder finds out that it has no
UTF-8 form.

## Main definitions

* `CodePoint`, `Text`, `Bytes`
* `CodePoint.isSurrogate`: the code points that no encoding can carry.
* `Text.ofString`, `Text.ofNat`, `Text.ofInt`: the texts of literals and of decimal numerals.
-/
namespace LogRelay

/-- A number below `0x110000`, surrogates included. -/
structure CodePoint where
  val : Nat
  isLt : val < 0x110000
  deriving DecidableEq

/-- A sequence of code points. -/
abbrev Text := List CodePoint

/-- A sequence of bytes. -/
abbrev Bytes := List UInt8

namespace CodePoint

/-- The code point of a character. -/
def ofChar (c : Char) : CodePoint :=
  ⟨c.val.toNat, by
    have h := c.valid
    simp only [UInt32.isValidChar, Nat.isValidChar] at h
    omega⟩

instance : Coe Char CodePoint := ⟨ofChar⟩

/-- What a decoder writes in the place of bytes that it cannot read. -/
def replacement : CodePoint := ⟨0xFFFD, by decide⟩

instance : Inhabited CodePoint := ⟨replacement⟩

/-- The code point of a number, the replacement character when there is none. -/
def ofNat (n : Nat) : CodePoint :=
  if h : n < 0x110000 then ⟨n, h⟩ else replacement

/-- The first half of a surrogate pair. -/
def isHighSurrogate (c : CodePoint) : Bool :=
  0xD800 ≤ c.val && c.val < 0xDC00

/-- The second half of a surrogate pair. -/
def isLowSurrogate (c : CodePoint) : Bool :=
  0xDC00 ≤ c.val && c.val < 0xE000

/-- The code points that stand for no character and have no UTF-8 form. -/
def isSurrogate (c : CodePoint) : Bool :=
  0xD800 ≤ c.val && c.val < 0xE000

/-- The code point that a surrogate pair names. -/
def ofSurrogates (high low : CodePoint) : CodePoint :=
  ofNat (0x10000 + (high.val - 0xD800) * 0x400 + (low.val - 0xDC00))

/-- The surrogate pair of a code point above `0xFFFF`. -/
def toSurrogates (c : CodePoint) : CodePoint × CodePoint :=
  (ofNat (0xD800 + (c.val - 0x10000) / 0x400), ofNat (0xDC00 + (c.val - 0x10000) % 0x400))

/-- The character of a code point, if it is no surrogate. -/
def toChar? (c : CodePoint) : Option Char :=
  if c.isSurrogate then none else some (Char.ofNat c.val)

end CodePoint

namespace Text

/-- The text of a string. -/
def ofString (s : String) : Text :=
  s.toList.map CodePoint.ofChar

instance : Coe String Text := ⟨ofString⟩

/-- The decimal numeral of a number. -/
def ofNat (n : Nat) : Text :=
  (Nat.toDigits 10 n).map CodePoint.ofChar

/-- The decimal numeral of an integer, with a sign only below zero. -/
def ofInt (n : Int) : Text :=
  if n < 0 then CodePoint.ofChar '-' :: ofNat n.natAbs else ofNat n.natAbs

/-- The digits of a number in base 16, at least `width` of them. -/
def hex (width n : Nat) : Text :=
  let digits := Nat.toDigits 16 n
  (List.replicate (width - digits.length) '0' ++ digits).map CodePoint.ofChar

/-- The decimal numeral of a number, filled with zeros to `width` places. -/
def padded (width n : Nat) : Text :=
  let digits := ofNat n
  List.replicate (width - digits.length) (CodePoint.ofChar '0') ++ digits

/-- A text that some encoder would refuse. -/
def hasSurrogate (t : Text) : Bool :=
  t.any CodePoint.isSurrogate

/-- Whether the text starts with the given one. -/
def startsWith (t start : Text) : Bool :=
  start.isPrefixOf t

/-- The pieces of a text between the places where `sep` stands: one more than there are of them. -/
def splitOn (sep : CodePoint) (t : Text) : List Text :=
  List.splitOn sep t

/-- The texts joined, with `sep` between neighbours. -/
def join (sep : Text) (parts : List Text) : Text :=
  List.intercalate sep parts

/-- What stands before and after the first place of `sep`, if it stands anywhere. -/
def cut? (sep : CodePoint) (t : Text) : Option (Text × Text) :=
  match t.dropWhile (· ≠ sep) with
  | [] => none
  | _ :: rest => some (t.takeWhile (· ≠ sep), rest)

/-- Whether a text does not come after another one in the order of their code points. -/
def precedes : Text → Text → Bool
  | [], _ => true
  | _ :: _, [] => false
  | c :: s, d :: t => c.val < d.val || (c = d && precedes s t)

/-- Lower-case ASCII letters for upper-case ones, all else as it is. -/
def toLowerAscii (t : Text) : Text :=
  t.map fun c => if 0x41 ≤ c.val ∧ c.val ≤ 0x5A then CodePoint.ofNat (c.val + 32) else c

/-- The string of a text, the replacement character standing for each surrogate. -/
def toString (t : Text) : String :=
  String.ofList (t.map fun c => c.toChar?.getD '\uFFFD')

end Text

end LogRelay
