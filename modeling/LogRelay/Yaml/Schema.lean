import LogRelay.Yaml.Cursor
/-!
# The types of plain scalars

A plain scalar without a tag gets one from its form.  The forms are those of YAML 1.1: words for
nothing, true and false, integers in four bases and in groups of sixty, numbers with a point,
dates, and the signs that merge mappings or stand for a default value.

## Main definitions

* `Yaml.Tag`: the tags that name a type.
* `Yaml.tagOf`: the tag of a plain scalar.
-/
namespace LogRelay.Yaml

/-! ## Tags -/

/-- What all tags of the standard types start with. -/
def standard : Text := "tag:yaml.org,2002:"

/-- The standard tag of a name. -/
def Tag (name : String) : Text := standard ++ (name : Text)

/-! ## Forms -/

/-- Drop a sign. -/
def unsigned : Text → Text
  | [] => []
  | c :: rest => if c = '+' ∨ c = '-' then rest else c :: rest

/-- Whether a row of code points consists of digits of a base up to ten, and underscores. -/
def isRow (base : Nat) (t : Text) : Bool :=
  t.all fun c => c = '_' || c.asciiDigit?.any (· < base)

/-- Whether the text starts with a digit and goes on with digits and underscores. -/
def isDecimal (t : Text) : Bool :=
  t.head?.any CodePoint.isAsciiDigit && isRow 10 t

/-- Whether the text writes a number below sixty in at most two digits. -/
def isSixtieth (t : Text) : Bool :=
  match t.map CodePoint.asciiDigit? with
  | [some _] => true
  | [some tens, some _] => tens ≤ 5
  | _ => false

/-- Whether the text is a number in groups of sixty: a decimal number, and at least one more number
after a colon each. -/
def isSexagesimal (t : Text) : Bool :=
  match Text.splitOn ':' t with
  | first :: rest => isDecimal first && !rest.isEmpty && rest.all isSixtieth
  | [] => false

/-- Whether the text is an integer. -/
def isInteger (t : Text) : Bool :=
  let u := unsigned t
  let startsAboveZero := u.head?.any fun (c : CodePoint) => c.isAsciiDigit && c.val != 0x30
  if u.startsWith "0b" then u.length > 2 && isRow 2 (u.drop 2)
  else if u.startsWith "0x" then
    u.length > 2 && (u.drop 2).all fun c => c = '_' || c.hexDigit?.isSome
  else
    (u.length > 1 && u.startsWith "0" && isRow 8 u) || u = "0"
      || (startsAboveZero && (isRow 10 u || isSexagesimal u))

/-- Whether the text is empty or an exponent with its sign. -/
def isExponent : Text → Bool
  | [] => true
  | e :: sign :: digits =>
    (e = 'e' || e = 'E') && (sign = '+' || sign = '-') && !digits.isEmpty
      && digits.all CodePoint.isAsciiDigit
  | _ => false

/-- Whether the text after a point is that of a number: digits and underscores, and an exponent. -/
def isFraction (t : Text) : Bool :=
  isExponent (t.dropWhile fun c => c = '_' || c.isAsciiDigit)

/-- Whether the text is a number with a point, or the name of an infinity or of no number. -/
def isFloat (t : Text) : Bool :=
  let u := unsigned t
  let isInfinity := [(".inf" : Text), ".Inf", ".INF"].contains u
  let isNoNumber := [(".nan" : Text), ".NaN", ".NAN"].contains t
  isInfinity || isNoNumber || match Text.cut? '.' u with
    | none => false
    | some (whole, fraction) =>
      if whole = [] then
        t = u && fraction.head?.any CodePoint.isAsciiDigit && isFraction fraction
      else
        (isDecimal whole && isFraction fraction) || (isSexagesimal whole && isRow 10 fraction)

/-! ## Dates -/

/-- The parts of a date, as they are written.  The offset is a sign with hours and minutes. -/
structure DateParts where
  year : Text
  month : Text
  day : Text
  time : Option (Text × Text × Text) := none
  fraction : Text := []
  universal : Bool := false
  offset : Option (Bool × Text × Text) := none

/-- The digits at the start of a text, at least `least` and at most `most` of them, and the rest. -/
def digits? (least most : Nat) (t : Text) : Option (Text × Text) :=
  let digits := (t.take most).takeWhile CodePoint.isAsciiDigit
  if least ≤ digits.length then some (digits, t.drop digits.length) else none

/-- The text after the given code point. -/
def after? (c : CodePoint) (t : Text) : Option Text :=
  if t.head? = some c then some (t.drop 1) else none

/-- The text after the blanks at its start. -/
def trimBlanks (t : Text) : Text :=
  t.dropWhile fun c => c = ' ' || c = '\t'

/-- The offset at the end of a date. -/
def zone? (d : DateParts) (t : Text) : Option DateParts :=
  match trimBlanks t with
  | [] => if t = [] then some d else none
  | c :: rest =>
    if c = 'Z' then if rest = [] then some { d with universal := true } else none
    else if c = '+' ∨ c = '-' then do
      let (hours, rest) ← digits? 1 2 rest
      if rest = [] then some { d with offset := some (c = '-', hours, []) }
      else
        let (minutes, rest) ← digits? 2 2 (← after? ':' rest)
        if rest = [] then some { d with offset := some (c = '-', hours, minutes) } else none
    else none

/-- The parts of a date that a text writes: a day, or a time of a day, perhaps with an offset. -/
def dateParts? (t : Text) : Option DateParts := do
  let (year, t) ← digits? 4 4 t
  let (month, t) ← digits? 1 2 (← after? '-' t)
  let (day, t) ← digits? 1 2 (← after? '-' t)
  let d : DateParts := { year, month, day }
  if t = [] then some d
  else
    let clock := match t with
      | c :: rest => if c = 'T' ∨ c = 't' then rest else trimBlanks t
      | [] => []
    if clock.length = t.length then none
    else
      let (hour, t) ← digits? 1 2 clock
      let (minute, t) ← digits? 2 2 (← after? ':' t)
      let (second, t) ← digits? 2 2 (← after? ':' t)
      let d := { d with time := some (hour, minute, second) }
      match after? '.' t with
      | none => zone? d t
      | some t =>
        let fraction := t.takeWhile CodePoint.isAsciiDigit
        zone? { d with fraction } (t.drop fraction.length)

/-- Whether the text is a date.  A day alone must be written with two digits for month and day. -/
def isDate (t : Text) : Bool :=
  (dateParts? t).any fun d => d.time.isSome || (d.month.length = 2 && d.day.length = 2)

/-! ## The tag of a plain scalar -/

/-- The words for true and false. -/
def truthWords : List (String × Bool) :=
  [("yes", true), ("no", false), ("true", true), ("false", false), ("on", true), ("off", false)]

/-- A word in its three spellings: in small letters, with one capital letter, and in capitals. -/
def spellings (word : String) : List Text :=
  [(word : Text), ((word.capitalize : String) : Text), ((word.map Char.toUpper : String) : Text)]

/-- Whether the text is a word for true or false. -/
def isTruthWord (t : Text) : Bool :=
  truthWords.any fun (word, _) => (spellings word).contains t

/-- The name of the type that a plain scalar has by its form. -/
def typeOf (t : Text) : String :=
  if isTruthWord t then "bool"
  else if isFloat t then "float"
  else if isInteger t then "int"
  else if t = "<<" then "merge"
  else if t = [] ∨ t = "~" ∨ (spellings "null").contains t then "null"
  else if isDate t then "timestamp"
  else if t = "=" then "value"
  else if [("!" : Text), "&", "*"].contains t then "yaml"
  else "str"

/-- The tag of a plain scalar.  A line feed at its end does not count. -/
def tagOf (t : Text) : Text :=
  let line := if t.getLast? = some (CodePoint.ofChar '\n') then t.dropLast else t
  -- The form of nothing at all is that of the empty text alone.
  Tag (if line = [] ∧ t ≠ [] then "str" else typeOf line)

end LogRelay.Yaml
