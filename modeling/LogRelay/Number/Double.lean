import LogRelay.Text.Blank
import LogRelay.Text.Digit
import LogRelay.Number.Integer
/-!
# Numbers in double precision

A finite double is `± mantissa * 2 ^ exponent` with a mantissa below `2 ^ 53`, written in one way
only: the mantissa is at least `2 ^ 52` unless the exponent is the least one.  All arithmetic is
exact on fractions of naturals, followed by one rounding to the nearest double, ties going to the
even mantissa.

## Main definitions

* `Double`, `Double.ofFraction`: the double nearest to a fraction.
* `Double.ofDecimal`: the double nearest to `digits * 10 ^ exponent`.
* `Double.parse?`: the double that a text writes.
* `Double.truncate?`: the integer part.
-/
namespace LogRelay

/-- A number in double precision. -/
inductive Double where
  | finite (negative : Bool) (mantissa : Nat) (exponent : Int)
  | infinite (negative : Bool)
  | nan
  deriving DecidableEq

namespace Double

instance : Inhabited Double := ⟨.nan⟩

/-- The least exponent of a finite double. -/
def minExponent : Int := -1074

/-- The greatest exponent of a finite double. -/
def maxExponent : Int := 971

/-- The least mantissa of a double whose exponent is not the least one: `2 ^ 52`. -/
def leastNormal : Nat := 0x10000000000000

/-- Zero, with its sign. -/
def zero (negative : Bool) : Double := .finite negative 0 minExponent

/-- `2 ^ e` as a fraction. -/
def powerOfTwo (e : Int) : Nat × Nat :=
  if e < 0 then (1, Nat.pow 2 e.natAbs) else (Nat.pow 2 e.natAbs, 1)

/-- The natural number nearest to a fraction, ties going to the even one. -/
def roundToEven (num den : Nat) : Nat :=
  let q := num / den
  let r := num % den
  if 2 * r > den ∨ (2 * r = den ∧ q % 2 = 1) then q + 1 else q

/-- The mantissa that a fraction has at the exponent `e`, rounded. -/
def mantissaAt (num den : Nat) (e : Int) : Nat :=
  let (up, down) := powerOfTwo (-e)
  roundToEven (num * up) (den * down)

/-- The integer part of the mantissa that a fraction has at the exponent `e`. -/
def floorAt (num den : Nat) (e : Int) : Nat :=
  let (up, down) := powerOfTwo (-e)
  num * up / (den * down)

/-- The double nearest to `num / den`, with the given sign. -/
def ofFraction (negative : Bool) (num den : Nat) : Double :=
  if num = 0 then zero negative
  else
    let guess : Int := num.log2 - den.log2 - 52
    -- The quotient of two powers of two is off by less than a factor of two.
    let e := if floorAt num den guess < leastNormal then guess - 1 else guess
    let e := max e minExponent
    let m := mantissaAt num den e
    let (m, e) := if m = 2 * leastNormal then (leastNormal, e + 1) else (m, e)
    if e > maxExponent then .infinite negative else .finite negative m e

/-- The double nearest to `digits * 10 ^ exponent`.  Exponents far outside the range are decided
without computing the power. -/
def ofDecimal (negative : Bool) (digits : Nat) (exponent : Int) : Double :=
  if digits = 0 then zero negative
  else
    let places : Int := exponent + (Nat.toDigits 10 digits).length
    if places > 310 then .infinite negative
    else if places < -330 then zero negative
    else if exponent < 0 then ofFraction negative digits (Nat.pow 10 exponent.natAbs)
    else ofFraction negative (digits * Nat.pow 10 exponent.natAbs) 1

/-- The double nearest to an integer. -/
def ofInt (n : Int) : Double :=
  ofFraction (n < 0) n.natAbs 1

/-- The value of a finite double as a sign and a fraction. -/
def toFraction? : Double → Option (Bool × Nat × Nat)
  | .finite negative m e =>
    let (num, den) := powerOfTwo e
    some (negative, m * num, den)
  | _ => none

/-- Whether the number is zero, of either sign. -/
def isZero : Double → Bool
  | .finite _ m _ => m = 0
  | _ => false

/-- The integer part of a finite double, toward zero. -/
def truncate? (x : Double) : Option Int :=
  x.toFraction?.map fun (negative, num, den) =>
    if negative then -((num / den : Nat) : Int) else ((num / den : Nat) : Int)

/-- The integer that a double is equal to, if it is equal to one. -/
def toInt? (x : Double) : Option Int :=
  match x.toFraction? with
  | some (_, num, den) => if num % den = 0 then x.truncate? else none
  | none => none

/-- The number with the other sign. -/
def neg : Double → Double
  | .finite negative m e => .finite (!negative) m e
  | .infinite negative => .infinite (!negative)
  | .nan => .nan

/-- The rounded sum of two doubles.  Infinities of different signs have none. -/
def add (x y : Double) : Double :=
  match x, y with
  | .nan, _ | _, .nan => .nan
  | .infinite s, .infinite t => if s = t then .infinite s else .nan
  | .infinite s, _ | _, .infinite s => .infinite s
  | x, y =>
    match x.toFraction?, y.toFraction? with
    | some (sx, nx, dx), some (sy, ny, dy) =>
      let a : Int := (if sx then -1 else 1) * (nx * dy : Nat)
      let b : Int := (if sy then -1 else 1) * (ny * dx : Nat)
      let s := a + b
      if s = 0 then zero (sx && sy) else ofFraction (s < 0) s.natAbs (dx * dy)
    | _, _ => .nan

/-- The rounded product of two doubles.  Zero and an infinity have none. -/
def mul (x y : Double) : Double :=
  match x, y with
  | .nan, _ | _, .nan => .nan
  | .infinite s, .infinite t => .infinite (s ^^ t)
  | .infinite s, .finite t m _ | .finite t m _, .infinite s =>
    if m = 0 then .nan else .infinite (s ^^ t)
  | x, y =>
    match x.toFraction?, y.toFraction? with
    | some (sx, nx, dx), some (sy, ny, dy) => ofFraction (sx ^^ sy) (nx * ny) (dx * dy)
    | _, _ => .nan

/-! ## Reading -/

/-- The digits at the start of a text, by value, and what follows. -/
def spanDigits (t : Text) : List Nat × Text :=
  ((t.takeWhile CodePoint.isDigit).filterMap CodePoint.digit?, t.dropWhile CodePoint.isDigit)

/-- Take the underscores out of a numeral, if each stands between two digits. -/
def withoutUnderscores? (t : Text) : Option Text :=
  let pairs := t.zip (t.drop 1)
  let ends := [t.head?, t.getLast?]
  if ends.contains (some (CodePoint.ofChar '_')) then none
  else if pairs.all fun (a, b) =>
      (b != '_' || a.isDigit) && (a != '_' || b.isDigit) then
    some (t.filter (· != '_'))
  else none

/-- The exponent that a text writes after the letter `e`, the whole of the text. -/
def exponent? (t : Text) : Option Int :=
  let (negative, unsigned) := Integer.splitSign t
  match spanDigits unsigned with
  | ([], _) => none
  | (digits, []) => some (if negative then -(ofDigits digits : Int) else ofDigits digits)
  | _ => none

/-- The double that an unsigned numeral writes: digits with an optional point, at least one digit in
all, and an optional exponent. -/
def unsigned? (negative : Bool) (t : Text) : Option Double :=
  let (whole, rest) := spanDigits t
  let (fraction, rest) :=
    match rest with
    | c :: after => if c = '.' then spanDigits after else ([], rest)
    | [] => ([], [])
  if whole = [] ∧ fraction = [] then none
  else
    let digits := ofDigits (whole ++ fraction)
    match rest with
    | [] => some (ofDecimal negative digits (-fraction.length))
    | c :: after =>
      if c = 'e' ∨ c = 'E' then
        (exponent? after).map fun e => ofDecimal negative digits (e - fraction.length)
      else none

/-- The double that a text writes: blanks around it, a sign, underscores between digits, and the
names of infinity and of no number, in either case of letters, are all allowed. -/
def parse? (t : Text) : Option Double := do
  let t ← withoutUnderscores? t.trimNumeral
  let (negative, unsigned) := Integer.splitSign t
  let word := Text.toLowerAscii unsigned
  if word = "inf" ∨ word = "infinity" then some (.infinite negative)
  else if word = "nan" then some .nan
  else unsigned? negative unsigned

end Double

end LogRelay
