import LogRelay.Text.Blank
import LogRelay.Text.Digit
import LogRelay.Text.Quoted
/-!
# Integers in text

An integer is written in decimal digits of any script, with an optional sign, and with single
underscores between digits if the writer likes; blanks around it do not matter.  There is a limit on
the number of digits, for the time that a longer numeral would take.

## Main definitions

* `Integer.parse`: the number that a text writes, or why it writes none.
* `Integer.ParseError`, `Integer.ParseError.message`
-/
namespace LogRelay.Integer

/-- The most digits that a numeral may have. -/
def maxDigits : Nat := 4300

/-- Why a text is not an integer: it has another form, or more digits than are read. -/
inductive ParseError where
  | malformed (given : Text)
  | tooLong (digits : Nat)
  deriving DecidableEq

/-- The error in words; a long text is shown by the start of its quoted form. -/
def ParseError.message : ParseError → Text
  | .malformed given =>
    "invalid literal for int() with base 10: " ++ given.quoted.take 200
  | .tooLong digits =>
    "Exceeds the limit (4300 digits) for integer string conversion: value has "
      ++ Text.ofNat digits
      ++ " digits; use sys.set_int_max_str_digits() to increase the limit"

/-- A sign in front of a numeral: whether it is a minus, and what follows. -/
def splitSign : Text → Bool × Text
  | [] => (false, [])
  | c :: rest =>
    if c = '-' then (true, rest)
    else if c = '+' then (false, rest)
    else (false, c :: rest)

/-- The value of a digit of a base up to sixteen. -/
def digitIn? (base : Nat) (c : CodePoint) : Option Nat :=
  (c.digit?.or c.hexDigit?).filter (· < base)

/-- The digits at the start of a text, last first, with single underscores between them, and what
follows.  `digits` are those already read; `gap` says that an underscore has just been passed. -/
def takeDigits (base : Nat) (digits : List Nat) (gap : Bool) : Text → List Nat × Bool × Text
  | [] => (digits, gap, [])
  | c :: rest =>
    match digitIn? base c with
    | some d => takeDigits base (d :: digits) false rest
    | none =>
      if c = '_' ∧ gap = false ∧ digits ≠ [] then takeDigits base digits true rest
      else (digits, gap, c :: rest)

/-- The mark of a base, a zero and a letter, is dropped where a numeral starts with it; an
underscore may stand after it. -/
def dropMark (base : Nat) (t : Text) : Text :=
  let letters : Text := match base with
    | 2 => "bB"
    | 8 => "oO"
    | 16 => "xX"
    | _ => []
  match t with
  | zero :: letter :: rest =>
    if zero = '0' ∧ letters.contains letter then
      if rest.head? = some (CodePoint.ofChar '_') then rest.drop 1 else rest
    else t
  | _ => t

/-- The integer that a text writes in a base.  Only a numeral in base ten, which takes long to read,
may have too many digits. -/
def parseIn (base : Nat) (t : Text) : Except ParseError Int :=
  let (negative, unsigned) := splitSign t.trimNumeral
  let (digits, gap, rest) := takeDigits base [] false (dropMark base unsigned)
  if digits = [] ∨ gap then .error (.malformed t)
  else if base = 10 ∧ digits.length > maxDigits then .error (.tooLong digits.length)
  else if rest ≠ [] then .error (.malformed t)
  else
    let value : Int := (digits.reverse.foldl (fun n d => n * base + d) 0 : Nat)
    .ok (if negative then -value else value)

/-- The integer that a text writes. -/
def parse (t : Text) : Except ParseError Int :=
  parseIn 10 t

/-- The numeral of an integer, if that does not have more digits than are written. -/
def render? (n : Int) : Option Text :=
  let t := Text.ofInt n
  if (Text.ofNat n.natAbs).length ≤ maxDigits then some t else none

end LogRelay.Integer
