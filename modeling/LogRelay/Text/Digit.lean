import LogRelay.Text.Basic
/-!
# Decimal digits of every script

A decimal digit is a code point of the Unicode category Nd.  These stand in runs of ten, zero first,
so a table of the zeros is enough to tell the value of each.

## Main definitions

* `CodePoint.digit?`: the value of a decimal digit of any script.
* `CodePoint.asciiDigit?`: the same for the ten digits of ASCII alone.
-/
namespace LogRelay

/-- The zero digit of each script that has decimal digits. -/
def zeroDigits : Array Nat :=
  #[
    0x30, 0x660, 0x6F0, 0x7C0, 0x966, 0x9E6, 0xA66, 0xAE6, 0xB66, 0xBE6, 0xC66, 0xCE6, 0xD66,
    0xDE6, 0xE50, 0xED0, 0xF20, 0x1040, 0x1090, 0x17E0, 0x1810, 0x1946, 0x19D0, 0x1A80, 0x1A90,
    0x1B50, 0x1BB0, 0x1C40, 0x1C50, 0xA620, 0xA8D0, 0xA900, 0xA9D0, 0xA9F0, 0xAA50, 0xABF0,
    0xFF10, 0x104A0, 0x10D30, 0x11066, 0x110F0, 0x11136, 0x111D0, 0x112F0, 0x11450, 0x114D0,
    0x11650, 0x116C0, 0x11730, 0x118E0, 0x11950, 0x11C50, 0x11D50, 0x11DA0, 0x16A60, 0x16AC0,
    0x16B50, 0x1D7CE, 0x1D7D8, 0x1D7E2, 0x1D7EC, 0x1D7F6, 0x1E140, 0x1E2F0, 0x1E950, 0x1FBF0]

namespace CodePoint

/-- The value of a decimal digit, of whatever script. -/
def digit? (c : CodePoint) : Option Nat :=
  (zeroDigits.find? fun first => first ≤ c.val && c.val < first + 10).map (c.val - ·)

/-- The value of one of the digits `0` to `9`. -/
def asciiDigit? (c : CodePoint) : Option Nat :=
  if 0x30 ≤ c.val ∧ c.val ≤ 0x39 then some (c.val - 0x30) else none

/-- Whether the code point is a decimal digit of some script. -/
def isDigit (c : CodePoint) : Bool :=
  c.digit?.isSome

/-- Whether the code point is one of `0` to `9`. -/
def isAsciiDigit (c : CodePoint) : Bool :=
  c.asciiDigit?.isSome

/-- The value of a digit of base 16, with letters of either case. -/
def hexDigit? (c : CodePoint) : Option Nat :=
  if 0x30 ≤ c.val ∧ c.val ≤ 0x39 then some (c.val - 0x30)
  else if 0x41 ≤ c.val ∧ c.val ≤ 0x46 then some (c.val - 0x37)
  else if 0x61 ≤ c.val ∧ c.val ≤ 0x66 then some (c.val - 0x57)
  else none

end CodePoint

/-- The number that a row of digit values writes in base 10. -/
def ofDigits (digits : List Nat) : Nat :=
  digits.foldl (fun n d => 10 * n + d) 0

end LogRelay
