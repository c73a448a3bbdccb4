import LogRelay.Text.Basic
/-!
# Blank code points

White space: the code points of the Unicode categories Zs, Zl and Zp, and the control characters
that separate lines, pages and pieces of information.  The last of these may stand around a host
name, but not around a numeral.

## Main definitions

* `CodePoint.isBlank`, `CodePoint.isNumeralBlank`
* `Text.trim`, `Text.trimNumeral`: the text without the blanks at its two ends.
-/
namespace LogRelay

/-- The runs of blank code points, by first and last member. -/
def blankRuns : List (Nat × Nat) :=
  [(0x9, 0xD), (0x1C, 0x20), (0x85, 0x85), (0xA0, 0xA0), (0x1680, 0x1680), (0x2000, 0x200A),
    (0x2028, 0x2029), (0x202F, 0x202F), (0x205F, 0x205F), (0x3000, 0x3000)]

/-- Whether the code point is white space. -/
def CodePoint.isBlank (c : CodePoint) : Bool :=
  blankRuns.any fun (first, last) => first ≤ c.val && c.val ≤ last

/-- Whether the code point is white space that may stand around a numeral. -/
def CodePoint.isNumeralBlank (c : CodePoint) : Bool :=
  c.isBlank && !(0x1C ≤ c.val && c.val ≤ 0x1F)

namespace Text

/-- The text without the code points of a class at either end. -/
def trimBy (p : CodePoint → Bool) (t : Text) : Text :=
  ((t.dropWhile p).reverse.dropWhile p).reverse

/-- The text without the blanks at either end. -/
def trim (t : Text) : Text :=
  t.trimBy CodePoint.isBlank

/-- The text without the blanks that may stand around a numeral. -/
def trimNumeral (t : Text) : Text :=
  t.trimBy CodePoint.isNumeralBlank

end Text

end LogRelay
