import LogRelay.Yaml.Schema
import LogRelay.Yaml.Value
/-!
# The values of scalars

What the text of a scalar means under a tag: a number in one of its notations, a date, a word for
true or false, or bytes in base 64.

## Main definitions

* `Yaml.toInt`, `Yaml.toDouble`, `Yaml.toDate`, `Yaml.toBool`, `Yaml.toBytes`
-/
namespace LogRelay.Yaml

/-- The text without its underscores, and whether a minus stands in front of it; signs are dropped.
An empty text has no first place to look for one. -/
def splitNumeral (t : Text) : Except Fault (Bool × Text) :=
  let t := t.filter fun (c : CodePoint) => c.val != 0x5F
  if t = [] then .error .emptyNumber else .ok (Integer.splitSign t)

/-- The integer that a text writes in a base. -/
def ofBase (base : Nat) (t : Text) : Except Fault Int :=
  (Integer.parseIn base t).mapError fun _ => .badScalar

/-- Numbers in groups of sixty. -/
def ofSixtieths (parts : List Int) : Int :=
  parts.foldl (fun n p => n * 60 + p) 0

/-- The integer that a scalar writes. -/
def toInt (t : Text) : Except Fault Int := do
  let (negative, u) ← splitNumeral t
  let n ←
    if u = [] then .error .emptyNumber
    else if u = "0" then pure 0
    else if u.startsWith "0b" then ofBase 2 (u.drop 2)
    else if u.startsWith "0x" then ofBase 16 (u.drop 2)
    else if u.startsWith "0" then ofBase 8 u
    else if u.contains (CodePoint.ofChar ':') then
      ofSixtieths <$> (Text.splitOn ':' u).mapM (ofBase 10)
    else ofBase 10 u
  return if negative then -n else n

/-- The number that a text writes. -/
def toPlainDouble (t : Text) : Except Fault Double :=
  match Double.parse? t with
  | some x => .ok x
  | none => .error .badScalar

/-- Numbers in groups of sixty, the last one first: each weighs sixty times as much as the one
before it, and a weight may be too large. -/
def sumSixtieths (sum : Double) (weight : Nat) : List Double → Except Fault Double
  | [] => .ok sum
  | x :: rest =>
    match Double.ofInt weight with
    | .infinite _ => .error .tooLarge
    | w => sumSixtieths (sum.add (x.mul w)) (weight * 60) rest

/-- The number that a scalar writes. -/
def toDouble (t : Text) : Except Fault Double := do
  let (negative, u) ← splitNumeral t
  let u := Text.toLowerAscii u
  if u = ".nan" then return .nan
  else
    let x ←
      if u = ".inf" then pure (.infinite false)
      else if u.contains (CodePoint.ofChar ':') then
        sumSixtieths (.zero false) 1 (← (Text.splitOn ':' u).mapM toPlainDouble).reverse
      else toPlainDouble u
    return if negative then x.neg else x

/-- Whether the scalar says true or false. -/
def toBool (t : Text) : Except Fault Bool :=
  match truthWords.find? fun (word, _) => (word : Text) = Text.toLowerAscii t with
  | some (_, b) => .ok b
  | none => .error .unknownWord

/-- The number that a row of digits writes. -/
def number (digits : Text) : Nat :=
  ofDigits (digits.filterMap CodePoint.asciiDigit?)

/-- The date or time that a scalar writes. -/
def toDate (t : Text) : Except Fault Value :=
  let line := if t.getLast? = some (CodePoint.ofChar '\n') then t.dropLast else t
  match dateParts? line with
  | none => .error .noDate
  | some d =>
    let date : Date := ⟨number d.year, number d.month, number d.day⟩
    let offset : Option Int := match d.offset with
      | none => if d.universal then some 0 else none
      | some (negative, hours, minutes) =>
        let n : Int := number hours * 60 + number minutes
        some (if negative then -n else n)
    if !date.isReal ∨ offset.any (1440 ≤ ·.natAbs) then .error .badScalar
    else match d.time with
      | none => .ok (.date date)
      | some (hour, minute, second) =>
        let digits := d.fraction.take 6
        let m : Moment :=
          { date, hour := number hour, minute := number minute, second := number second
            micros := number digits * Nat.pow 10 (6 - digits.length), offset }
        if m.hour < 24 ∧ m.minute < 60 ∧ m.second < 60 then .ok (.moment m)
        else .error .badScalar

/-! ## Base 64 -/

/-- The value of a digit of base 64. -/
def digit64? (c : CodePoint) : Option Nat :=
  if 0x41 ≤ c.val ∧ c.val ≤ 0x5A then some (c.val - 0x41)
  else if 0x61 ≤ c.val ∧ c.val ≤ 0x7A then some (c.val - 0x61 + 26)
  else if 0x30 ≤ c.val ∧ c.val ≤ 0x39 then some (c.val - 0x30 + 52)
  else if c = '+' then some 62
  else if c = '/' then some 63
  else none

/-- The bytes that groups of four digits write.  `place` counts the digits of the group at hand,
`carry` is what they leave over, and `pads` counts the equals signs after them.  Other code points
are passed over, and nothing is read after a group that equals signs complete. -/
def decode64 (place carry pads : Nat) (read : Bytes) : Text → Except Fault Bytes
  | [] => if place = 0 then .ok read.reverse else .error .construction
  | c :: rest =>
    if c = '=' then
      if 2 ≤ place ∧ 4 ≤ place + pads + 1 then .ok read.reverse
      else decode64 place carry (if 2 ≤ place then pads + 1 else pads) read rest
    else match digit64? c with
      | none => decode64 place carry pads read rest
      | some d =>
        if place = 0 then decode64 1 d 0 read rest
        else if place = 1 then decode64 2 (d % 16) 0 (UInt8.ofNat (carry * 4 + d / 16) :: read) rest
        else if place = 2 then decode64 3 (d % 4) 0 (UInt8.ofNat (carry * 16 + d / 4) :: read) rest
        else decode64 0 0 0 (UInt8.ofNat (carry * 64 + d) :: read) rest

/-- The bytes that a scalar writes in base 64. -/
def toBytes (t : Text) : Except Fault Bytes :=
  if t.all (·.val < 0x80) then decode64 0 0 0 [] t else .error .construction

end LogRelay.Yaml
