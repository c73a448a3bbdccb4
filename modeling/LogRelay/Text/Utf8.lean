import LogRelay.Text.Basic
/-!
# UTF-8

A code point is written in one to four bytes, and a surrogate has no written form.  Reading is an
automaton over the bytes.  Between two code points it is idle; inside a sequence it knows how many
continuation bytes are still awaited and between which bounds the next one must lie, which excludes
overlong forms, numbers above `0x10FFFF` and, unless they are asked for, surrogates.  A byte that
does not fit ends an ill-formed part and is then read again from the idle state, so each ill-formed
part is as long as it can be while it is still the start of a well-formed sequence.

## Main definitions

* `Utf8.encodePoint`, `Utf8.encode?`, `Utf8.encodeLossy`
* `Utf8.scan`: a byte sequence as the code points and the ill-formed parts that it consists of.
* `Utf8.decode?`: the text of a well-formed byte sequence.
* `Utf8.decodeLossy`: the text with a replacement character for each ill-formed part.
* `Utf8.decodeWithSurrogates?`: well-formed but for surrogates, which are read like other code
  points.
-/
namespace LogRelay.Utf8

/-! ## Writing -/

/-- The byte with the given value. -/
private def byte (n : Nat) : UInt8 := UInt8.ofNat n

/-- The bytes of one code point. -/
def encodePoint (c : CodePoint) : Bytes :=
  if c.val < 0x80 then [byte c.val]
  else if c.val < 0x800 then [byte (0xC0 + c.val / 0x40), byte (0x80 + c.val % 0x40)]
  else if c.val < 0x10000 then
    [byte (0xE0 + c.val / 0x1000), byte (0x80 + c.val / 0x40 % 0x40), byte (0x80 + c.val % 0x40)]
  else
    [byte (0xF0 + c.val / 0x40000), byte (0x80 + c.val / 0x1000 % 0x40),
      byte (0x80 + c.val / 0x40 % 0x40), byte (0x80 + c.val % 0x40)]

/-- The bytes of a text, if it holds no surrogate. -/
def encode? (t : Text) : Option Bytes :=
  if t.hasSurrogate then none else some (t.flatMap encodePoint)

/-- The bytes of a text, with a question mark for each surrogate. -/
def encodeLossy (t : Text) : Bytes :=
  t.flatMap fun c => if c.isSurrogate then [0x3F] else encodePoint c

/-! ## Reading -/

/-- Where the automaton stands: idle between code points, or inside a sequence whose first bytes
gave `value`, with `more` continuation bytes to come, the next one from `low` to `high`. -/
inductive Place where
  | idle
  | inside (value more low high : Nat)
  deriving DecidableEq

/-- What a first byte leads to: a whole code point, the inside of a sequence, or neither. -/
inductive Lead where
  | point (c : CodePoint)
  | inside (value more low high : Nat)
  | bad

/-- The reading of a first byte.  The bounds on the second one exclude overlong forms, surrogates
(unless `surrogates` lets them pass) and numbers that are too large. -/
def lead (surrogates : Bool) (b : Nat) : Lead :=
  if b < 0x80 then .point (CodePoint.ofNat b)
  else if b < 0xC2 then .bad
  else if b < 0xE0 then .inside (b - 0xC0) 1 0x80 0xBF
  else if b = 0xE0 then .inside 0 2 0xA0 0xBF
  else if b = 0xED ∧ ¬ surrogates then .inside 0xD 2 0x80 0x9F
  else if b < 0xF0 then .inside (b - 0xE0) 2 0x80 0xBF
  else if b = 0xF0 then .inside 0 3 0x90 0xBF
  else if b < 0xF4 then .inside (b - 0xF0) 3 0x80 0xBF
  else if b = 0xF4 then .inside 4 3 0x80 0x8F
  else .bad

/-- A reader: its place, and what it has read so far, last first.  `none` stands for an ill-formed
part. -/
structure Scanner where
  place : Place
  read : List (Option CodePoint)

/-- Take a byte as the first one of a code point. -/
def Scanner.begin (surrogates : Bool) (s : Scanner) (b : UInt8) : Scanner :=
  match lead surrogates b.toNat with
  | .point c => ⟨.idle, some c :: s.read⟩
  | .inside value more low high => ⟨.inside value more low high, s.read⟩
  | .bad => ⟨.idle, none :: s.read⟩

/-- Take the next byte. -/
def Scanner.step (surrogates : Bool) (s : Scanner) (b : UInt8) : Scanner :=
  match s.place with
  | .idle => s.begin surrogates b
  | .inside value more low high =>
    if low ≤ b.toNat ∧ b.toNat ≤ high then
      let value := value * 0x40 + (b.toNat - 0x80)
      if more ≤ 1 then ⟨.idle, some (CodePoint.ofNat value) :: s.read⟩
      else ⟨.inside value (more - 1) 0x80 0xBF, s.read⟩
    else Scanner.begin surrogates ⟨.idle, none :: s.read⟩ b

/-- All that was read; a sequence that the end cuts short is ill-formed. -/
def Scanner.finish (s : Scanner) : List (Option CodePoint) :=
  match s.place with
  | .idle => s.read.reverse
  | .inside .. => (none :: s.read).reverse

/-- The code points and the ill-formed parts (`none`) of a byte sequence, in order. -/
def scan (surrogates : Bool) (bs : Bytes) : List (Option CodePoint) :=
  (bs.foldl (Scanner.step surrogates) ⟨.idle, []⟩).finish

/-- The code points of a scan without ill-formed parts. -/
def points? (parts : List (Option CodePoint)) : Option Text :=
  if parts.all Option.isSome then some (parts.filterMap id) else none

/-- The text that a byte sequence encodes, if it is well-formed. -/
def decode? (bs : Bytes) : Option Text :=
  points? (scan false bs)

/-- The text of a byte sequence that is well-formed except that it may hold surrogates. -/
def decodeWithSurrogates? (bs : Bytes) : Option Text :=
  points? (scan true bs)

/-- The text of any byte sequence, each ill-formed part as one replacement character. -/
def decodeLossy (bs : Bytes) : Text :=
  (scan false bs).map (·.getD .replacement)

end LogRelay.Utf8
