import LogRelay.Number.Double
/-!
# The shortest decimal of a double

A double is written with the fewest digits that read back as the same double, and among these
decimals as the nearest one.  The reals that round to a double form an interval around it, to which
its ends belong exactly when the mantissa is even; for one digit, two digits and so on up to
seventeen, the two decimals next to the value are tried, and the first grid with a hit wins.

The form of the number around these digits is a matter of its own: positional between `1e-4` and
`1e16`, with at least one digit after the point, else scientific with a signed exponent of at least
two digits.

## Main definitions

* `Double.shortestDigits`: the digits, and the place of the point in front of which they stand.
* `Double.render`: the decimal as text.
-/
namespace LogRelay.Double

/-- A finite positive double's neighbourhood over one denominator: the value and the two ends of the
interval of reals that round to it, and whether the ends belong to it. -/
structure Neighbourhood where
  low : Nat
  value : Nat
  high : Nat
  den : Nat
  closed : Bool

/-- The neighbourhood of `mantissa * 2 ^ exponent`.  Below a power of two the doubles lie twice as
dense. -/
def neighbourhood (mantissa : Nat) (exponent : Int) : Neighbourhood :=
  let (num, den) := powerOfTwo exponent
  let dense := mantissa = leastNormal ∧ exponent > minExponent
  { low := (4 * mantissa - if dense then 1 else 2) * num
    value := 4 * mantissa * num
    high := (4 * mantissa + 2) * num
    den := 4 * den
    closed := mantissa % 2 = 0 }

/-- Whether the fraction `num / den` rounds to the double of the neighbourhood. -/
def Neighbourhood.holds (n : Neighbourhood) (num den : Nat) : Bool :=
  if n.closed then n.low * den ≤ num * n.den && num * n.den ≤ n.high * den
  else n.low * den < num * n.den && num * n.den < n.high * den

/-- `digits * 10 ^ e` as a fraction. -/
def scaled (digits : Nat) (e : Int) : Nat × Nat :=
  if e < 0 then (digits, Nat.pow 10 e.natAbs) else (digits * Nat.pow 10 e.natAbs, 1)

/-- The number of decimal places in front of the point of a fraction that is not zero: `p` with
`10 ^ (p - 1) ≤ num / den < 10 ^ p`. -/
def places (num den : Nat) : Int :=
  let digits (n : Nat) : Int := (Nat.toDigits 10 n).length
  -- The quotient has as many places as the lengths differ by, or one more.
  let p := digits num - digits den
  let (a, b) := scaled 1 p
  if num * b < a * den then p else p + 1

/-- The better of the two decimals of the grid `10 ^ e` that surround the value, if one of them
rounds to it. -/
def nearestOnGrid (n : Neighbourhood) (e : Int) : Option Nat :=
  let (stepNum, stepDen) := scaled 1 e
  let down := n.value * stepDen / (n.den * stepNum)
  let hits (d : Nat) : Bool := n.holds (d * stepNum) stepDen
  let exact := n.value * stepDen
  let below := exact - down * n.den * stepNum
  let above := (down + 1) * n.den * stepNum - exact
  let nearer := if below < above ∨ (below = above ∧ down % 2 = 0) then down else down + 1
  if hits down && hits (down + 1) then some nearer
  else if hits down then some down
  else if hits (down + 1) then some (down + 1)
  else none

/-- Search the grids from `count` digits on. -/
def searchGrids (n : Neighbourhood) (p : Int) : (tries count : Nat) → Nat × Int
  | 0, count => (n.value / n.den, p - count)
  | tries + 1, count =>
    match nearestOnGrid n (p - count) with
    | some digits => (digits, p - count)
    | none => searchGrids n p tries (count + 1)

/-- The digits of the shortest decimal of a positive double, without zeros at the end, and the
number of places in front of the point. -/
def shortestDigits (mantissa : Nat) (exponent : Int) : List Char × Int :=
  let n := neighbourhood mantissa exponent
  let (digits, e) := searchGrids n (places n.value n.den) 17 1
  let text := Nat.toDigits 10 digits
  ((text.reverse.dropWhile (· = '0')).reverse, e + text.length)

/-- How a row of digits is set around the point. -/
structure Style where
  /-- the least number of places in front of the point that is written positionally -/
  minPlaces : Int
  /-- the greatest such number -/
  maxPlaces : Int
  /-- the least number of digits of an exponent -/
  exponentWidth : Nat

/-- The style of all numbers that are printed here. -/
def style : Style := ⟨-3, 16, 2⟩

/-- The digits with `places` of them in front of the point. -/
def layOut (s : Style) (digits : List Char) (places : Int) : Text :=
  let text (cs : List Char) : Text := cs.map CodePoint.ofChar
  if s.minPlaces ≤ places ∧ places ≤ s.maxPlaces then
    if places ≤ 0 then "0." ++ text (List.replicate places.natAbs '0' ++ digits)
    else
      let whole := digits.take places.toNat
      let fraction := digits.drop places.toNat
      text (whole ++ List.replicate (places.toNat - whole.length) '0') ++ "."
        ++ text (if fraction = [] then ['0'] else fraction)
  else
    let e := places - 1
    let fraction : Text := if digits.length ≤ 1 then [] else "." ++ text (digits.drop 1)
    let sign : Text := if e < 0 then "-" else "+"
    text (digits.take 1) ++ fraction ++ "e" ++ sign ++ Text.padded s.exponentWidth e.natAbs

/-- The number as text. -/
def render : Double → Text
  | .nan => "nan"
  | .infinite negative => if negative then "-inf" else "inf"
  | .finite negative mantissa exponent =>
    let sign : Text := if negative then "-" else ""
    if mantissa = 0 then sign ++ "0.0"
    else
      let (digits, places) := shortestDigits mantissa exponent
      sign ++ layOut style digits places

end LogRelay.Double
