import LogRelay.Calendar.Date
import LogRelay.Text.Digit
/-!
# Timestamps

An instant is a number of nanoseconds since the start of the year 1970 in universal time, negative
before.  As text it is an RFC 3339 timestamp: written in universal time with nine digits after the
point, and read with up to nine digits and any offset of two digits and two digits.

## Main definitions

* `Timestamp.format`: the text of an instant, or why it has none.
* `Timestamp.parse?`: the instant that a text names.
-/
namespace LogRelay.Timestamp

/-- The nanoseconds of a second. -/
def nanosPerSecond : Nat := 1000000000

/-! ## Writing -/

/-- Why an instant has no text: its seconds fit in no machine word, or its year fits in none, or its
year is not one of four digits at most. -/
inductive RangeError where
  | secondsOverflow
  | yearOverflow
  | yearOutOfRange
  deriving DecidableEq

/-- The date and time of a number of seconds since the epoch. -/
def render (seconds : Int) (nanos : Nat) : Text :=
  let day := (seconds.fdiv 86400 + epochDay).toNat
  let ofDay := (seconds.fmod 86400).toNat
  let date := Date.ofDayNumber day
  Text.ofNat date.year ++ "-" ++ Text.padded 2 date.month ++ "-" ++ Text.padded 2 date.day ++ "T"
    ++ Text.padded 2 (ofDay / 3600) ++ ":" ++ Text.padded 2 (ofDay / 60 % 60) ++ ":"
    ++ Text.padded 2 (ofDay % 60) ++ "." ++ Text.padded 9 nanos ++ "Z"

/-- The seconds of the first instant of the year 1. -/
def firstSecond : Int := -62135596800

/-- The seconds of the last instant of the year 9999. -/
def lastSecond : Int := 253402300799

/-- The text of an instant. -/
def format (time : Int) : Except RangeError Text :=
  let seconds := time.fdiv nanosPerSecond
  if seconds < -0x8000000000000000 ∨ 0x8000000000000000 ≤ seconds then .error .secondsOverflow
  -- The seconds of the first and the last instant of a year that fits in 32 bits, 1900 being zero.
  else if seconds < -67768040609740800 ∨ 67768036191676799 < seconds then .error .yearOverflow
  else if seconds < firstSecond ∨ lastSecond < seconds then .error .yearOutOfRange
  else .ok (render seconds (time.fmod nanosPerSecond).toNat)

/-! ## Reading -/

/-- The first `n` code points of a text, if they are decimal digits of some script, and the rest. -/
def digits? (n : Nat) (t : Text) : Option (Text × Text) :=
  let digits := t.take n
  if digits.length = n ∧ digits.all CodePoint.isDigit then some (digits, t.drop n) else none

/-- The text after the given code point. -/
def after? (c : CodePoint) : Text → Option Text
  | [] => none
  | d :: rest => if d = c then some rest else none

/-- The number that a row of digits writes. -/
def value (digits : Text) : Nat :=
  ofDigits (digits.filterMap CodePoint.digit?)

/-- The value of a field of two digits, from `low` to `high`.  The first digit is an ASCII digit,
and so is the second one unless the first one leaves every digit free. -/
def field? (low high : Nat) : Text → Option Nat
  | [a, b] => do
    let tens ← a.asciiDigit?
    let free := low ≤ tens * 10 && tens * 10 + 9 ≤ high
    let ones ← if free then b.digit? else b.asciiDigit?
    let n := tens * 10 + ones
    if low ≤ n ∧ n ≤ high then some n else none
  | _ => none

/-- The fraction after the seconds, in nanoseconds, and what follows it: a point and one to nine
digits, or nothing at all. -/
def fraction? (t : Text) : Option (Nat × Text) :=
  match after? '.' t with
  | none => some (0, t)
  | some rest =>
    let digits := (rest.take 9).takeWhile CodePoint.isDigit
    if digits = [] then none
    else some (value digits * Nat.pow 10 (9 - digits.length), rest.drop digits.length)

/-- The seconds by which the written time is ahead of universal time, and what follows: `Z`, or a
sign, two digits, a colon and two digits. -/
def offset? (t : Text) : Option (Int × Text) :=
  match t with
  | [] => none
  | sign :: rest =>
    if sign = 'Z' then some (0, rest)
    else if sign = '+' ∨ sign = '-' then do
      let (hours, rest) ← digits? 2 rest
      let (minutes, rest) ← digits? 2 (← after? ':' rest)
      let seconds : Int := value hours * 3600 + value minutes * 60
      some (if sign = '-' then -seconds else seconds, rest)
    else none

/-- The instant that a text names.  A line feed may stand at its end. -/
def parse? (t : Text) : Option Int := do
  let (year, t) ← digits? 4 t
  let (month, t) ← digits? 2 (← after? '-' t)
  let (day, t) ← digits? 2 (← after? '-' t)
  let (hour, t) ← digits? 2 (← after? 'T' t)
  let (minute, t) ← digits? 2 (← after? ':' t)
  let (second, t) ← digits? 2 (← after? ':' t)
  let (nanos, t) ← fraction? t
  let (offset, t) ← offset? t
  if t ≠ [] ∧ t ≠ [CodePoint.ofChar '\n'] then none
  else
    let date : Date := ⟨value year, ← field? 1 12 month, ← field? 1 31 day⟩
    let hour ← field? 0 23 hour
    let minute ← field? 0 59 minute
    let second ← field? 0 59 second
    if date.isReal then
      let seconds : Int := ((date.dayNumber : Int) - epochDay) * 86400
        + (hour * 3600 + minute * 60 + second : Nat) - offset
      some (seconds * nanosPerSecond + nanos)
    else none

end LogRelay.Timestamp
