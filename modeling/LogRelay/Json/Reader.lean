import LogRelay.Json.Basic
import LogRelay.Text.WideUnits
/-!
# Reading JSON

One pass over the code points of a document.  The reader is a machine: a stack of the arrays and
objects that are still open, what the grammar allows next, and the lexeme that it is in the middle
of.  A code point that does not continue a number or a word ends it and is then taken as the first
one of what follows.  Reading stops at the first fault, so that of two faults the earlier one is
reported.

Besides the standard grammar, `NaN`, `Infinity` and `-Infinity` are numbers.  Surrogate pairs that
are written as two escapes are joined; a surrogate without its partner stays.

## Main definitions

* `Json.Fault`: why a document has no value.
* `Json.Reader`, `Json.Reader.step`: the machine.
* `Json.parse`, `Json.parseBytes`: the value of a document.
-/
namespace LogRelay.Json

/-- Why a document has no value: it is not in the grammar, its bytes are no text, one of its
integers has too many digits, or its arrays and objects are nested too deeply. -/
inductive Fault where
  | malformed
  | undecodable
  | tooLong (digits : Nat)
  | tooDeep
  deriving DecidableEq

/-- An array or an object that is still open.  Array items stand last first; `key` is the name whose
value is awaited. -/
inductive Frame where
  | array (items : List Json)
  | object (members : List (Text × Json)) (key : Text)

/-- What may come next, between two lexemes. -/
inductive Expect where
  /-- a value -/
  | value
  /-- a value, or the end of the array that has just been opened -/
  | firstItem
  /-- the name of a member -/
  | key
  /-- the name of a member, or the end of the object that has just been opened -/
  | firstKey
  /-- the colon after a name -/
  | colon
  /-- a comma, or the end of the innermost array or object -/
  | separator
  /-- nothing: the document has its value -/
  | nothing (result : Json)

/-- The numeral that is being read, digits last first. -/
inductive Numeral where
  | minus
  | whole (negative : Bool) (digits : List Nat)
  | point (negative : Bool) (digits : List Nat)
  | fraction (negative : Bool) (digits : List Nat) (places : Nat)
  | exponent (negative : Bool) (digits : List Nat) (places : Nat)
  | exponentSign (negative : Bool) (digits : List Nat) (places : Nat) (down : Bool)
  | power (negative : Bool) (digits : List Nat) (places : Nat) (down : Bool) (exp : List Nat)

/-- The lexeme that the reader is inside of.  A string is read last first; `high` says that its last
code point is a high surrogate that was written as an escape. -/
inductive Lexeme where
  | gap
  | string (read : Text) (high : Bool)
  | escape (read : Text) (high : Bool)
  | unit (read : Text) (high : Bool) (count value : Nat)
  | word (read : Text)
  | numeral (n : Numeral)

/-- The machine.  `nesting` is how deep arrays and objects may lie inside of the outermost one, which
depends on what runs the machine. -/
structure Reader where
  nesting : Nat
  stack : List Frame
  expect : Expect
  lexeme : Lexeme

/-- The machine in front of a document. -/
def Reader.start (nesting : Nat) : Reader := ⟨nesting, [], .value, .gap⟩

/-! ## Values -/

/-- Take a value that is complete. -/
def Reader.deliver (r : Reader) (value : Json) : Reader :=
  match r.stack with
  | [] => { r with expect := .nothing value, lexeme := .gap }
  | .array items :: rest => ⟨r.nesting, .array (value :: items) :: rest, .separator, .gap⟩
  | .object members key :: rest =>
    ⟨r.nesting, .object (Members.insert key value members) key :: rest, .separator, .gap⟩

/-- Take a string that is complete, as a name or as a value. -/
def Reader.deliverString (r : Reader) (text : Text) : Reader :=
  match r.expect, r.stack with
  | .key, .object members _ :: rest | .firstKey, .object members _ :: rest =>
    ⟨r.nesting, .object members text :: rest, .colon, .gap⟩
  | _, _ => r.deliver (.str text)

/-- Open an array or an object. -/
def Reader.push (r : Reader) (frame : Frame) (expect : Expect) : Except Fault Reader :=
  if r.stack.length ≤ r.nesting then .ok ⟨r.nesting, frame :: r.stack, expect, .gap⟩
  else .error .tooDeep

/-- Close the innermost array or object. -/
def Reader.close (r : Reader) : Reader :=
  match r.stack with
  | [] => r
  | .array items :: rest => Reader.deliver { r with stack := rest } (.arr items.reverse)
  | .object members _ :: rest => Reader.deliver { r with stack := rest } (.obj members)

/-- The number that a numeral writes, if it is complete. -/
def Numeral.value : Numeral → Except Fault Json
  | .whole negative digits =>
    if digits.length > Integer.maxDigits then .error (.tooLong digits.length)
    else
      let n : Int := ofDigits digits.reverse
      .ok (.int (if negative then -n else n))
  | .fraction negative digits places =>
    .ok (.float (.ofDecimal negative (ofDigits digits.reverse) (-places)))
  | .power negative digits places down exp =>
    let e : Int := ofDigits exp.reverse
    .ok (.float (.ofDecimal negative (ofDigits digits.reverse) ((if down then -e else e) - places)))
  | _ => .error .malformed

/-- The fault of a numeral that breaks off after a point or the letter of an exponent.  What stands
in front of these is a number by itself; if it is an integer, it may have too many digits. -/
def Numeral.breakFault (digits : List Nat) (places : Nat) : Fault :=
  if places = 0 ∧ digits.length > Integer.maxDigits then .tooLong digits.length else .malformed

/-- The value that a word names. -/
def ofWord (word : Text) : Except Fault Json :=
  if word = "null" then .ok .null
  else if word = "true" then .ok (.bool true)
  else if word = "false" then .ok (.bool false)
  else if word = "NaN" then .ok (.float .nan)
  else if word = "Infinity" then .ok (.float (.infinite false))
  else if word = "-Infinity" then .ok (.float (.infinite true))
  else .error .malformed

/-! ## Steps -/

/-- The white space of JSON. -/
def isSpace (c : CodePoint) : Bool :=
  c = ' ' ∨ c = '\t' ∨ c = '\n' ∨ c = '\r'

/-- A letter of ASCII. -/
def isLetter (c : CodePoint) : Bool :=
  (0x41 ≤ c.val ∧ c.val ≤ 0x5A) ∨ (0x61 ≤ c.val ∧ c.val ≤ 0x7A)

/-- The first code point of a value. -/
def Reader.beginValue (r : Reader) (c : CodePoint) : Except Fault Reader :=
  if c = '"' then .ok { r with lexeme := .string [] false }
  else if c = '[' then r.push (.array []) .firstItem
  else if c = '{' then r.push (.object [] []) .firstKey
  else if c = '-' then .ok { r with lexeme := .numeral .minus }
  else if isLetter c then .ok { r with lexeme := .word [c] }
  else match c.asciiDigit? with
    | some d => .ok { r with lexeme := .numeral (.whole false [d]) }
    | none => .error .malformed

/-- A code point between two lexemes. -/
def Reader.between (r : Reader) (c : CodePoint) : Except Fault Reader :=
  if isSpace c then .ok r
  else match r.expect with
    | .value => r.beginValue c
    | .firstItem => if c = ']' then .ok r.close else r.beginValue c
    | .key => if c = '"' then .ok { r with lexeme := .string [] false } else .error .malformed
    | .firstKey =>
      if c = '}' then .ok r.close
      else if c = '"' then .ok { r with lexeme := .string [] false }
      else .error .malformed
    | .colon => if c = ':' then .ok { r with expect := .value } else .error .malformed
    | .separator =>
      match r.stack with
      | .array _ :: _ =>
        if c = ',' then .ok { r with expect := .value }
        else if c = ']' then .ok r.close
        else .error .malformed
      | .object _ _ :: _ =>
        if c = ',' then .ok { r with expect := .key }
        else if c = '}' then .ok r.close
        else .error .malformed
      | [] => .error .malformed
    | .nothing _ => .error .malformed

/-- A code point after a numeral's last one: deliver the number and take the code point anew. -/
def Reader.endNumeral (r : Reader) (n : Numeral) (c : CodePoint) : Except Fault Reader := do
  (r.deliver (← n.value)).between c

/-- A code point inside a numeral. -/
def Reader.inNumeral (r : Reader) (n : Numeral) (c : CodePoint) : Except Fault Reader :=
  let next (n : Numeral) : Except Fault Reader := .ok { r with lexeme := .numeral n }
  match n, c.asciiDigit? with
  | .minus, some d => next (.whole true [d])
  | .minus, none =>
    if c = 'I' then .ok { r with lexeme := .word ['I', '-'] } else .error .malformed
  | .whole negative digits, some d =>
    if digits = [0] then .error .malformed else next (.whole negative (d :: digits))
  | .whole negative digits, none =>
    if c = '.' then next (.point negative digits)
    else if c = 'e' ∨ c = 'E' then next (.exponent negative digits 0)
    else r.endNumeral n c
  | .point negative digits, some d => next (.fraction negative (d :: digits) 1)
  | .point _ digits, none => .error (Numeral.breakFault digits 0)
  | .fraction negative digits places, some d =>
    next (.fraction negative (d :: digits) (places + 1))
  | .fraction negative digits places, none =>
    if c = 'e' ∨ c = 'E' then next (.exponent negative digits places) else r.endNumeral n c
  | .exponent negative digits places, some d => next (.power negative digits places false [d])
  | .exponent negative digits places, none =>
    if c = '-' then next (.exponentSign negative digits places true)
    else if c = '+' then next (.exponentSign negative digits places false)
    else .error (Numeral.breakFault digits places)
  | .exponentSign negative digits places down, some d =>
    next (.power negative digits places down [d])
  | .exponentSign _ digits places _, none => .error (Numeral.breakFault digits places)
  | .power negative digits places down exp, some d =>
    next (.power negative digits places down (d :: exp))
  | .power .., none => r.endNumeral n c

/-- The code point that an escape of one letter stands for. -/
def escaped? (c : CodePoint) : Option CodePoint :=
  if c = '"' ∨ c = '\\' ∨ c = '/' then some c
  else if c = 'b' then some (CodePoint.ofNat 0x08)
  else if c = 'f' then some (CodePoint.ofNat 0x0C)
  else if c = 'n' then some '\n'
  else if c = 'r' then some '\r'
  else if c = 't' then some '\t'
  else none

/-- The string after an escape by number: a low surrogate joins the high one that was written just
before it in the same way. -/
def withUnit (read : Text) (high : Bool) (unit : CodePoint) : Lexeme :=
  match read with
  | first :: rest =>
    if high && unit.isLowSurrogate then .string (CodePoint.ofSurrogates first unit :: rest) false
    else .string (unit :: read) unit.isHighSurrogate
  | [] => .string [unit] unit.isHighSurrogate

/-- Take the next code point of the document. -/
def Reader.step (r : Reader) (c : CodePoint) : Except Fault Reader :=
  match r.lexeme with
  | .gap => r.between c
  | .string read high =>
    if c = '"' then .ok (r.deliverString read.reverse)
    else if c = '\\' then .ok { r with lexeme := .escape read high }
    else if c.val < 0x20 then .error .malformed
    else .ok { r with lexeme := .string (c :: read) false }
  | .escape read high =>
    if c = 'u' then .ok { r with lexeme := .unit read high 0 0 }
    else match escaped? c with
      | some e => .ok { r with lexeme := .string (e :: read) false }
      | none => .error .malformed
  | .unit read high count value =>
    match c.hexDigit? with
    | none => .error .malformed
    | some d =>
      let value := value * 16 + d
      if count < 3 then .ok { r with lexeme := .unit read high (count + 1) value }
      else .ok { r with lexeme := withUnit read high (CodePoint.ofNat value) }
  | .word read =>
    if isLetter c then .ok { r with lexeme := .word (c :: read) }
    else do (r.deliver (← ofWord read.reverse)).between c
  | .numeral n => r.inNumeral n c

/-- The value of the document, once all of it has been read.  A blank at the end completes a number
or a word and changes nothing else. -/
def Reader.finish (r : Reader) : Except Fault Json := do
  let r ← r.step ' '
  match r.expect, r.lexeme with
  | .nothing result, .gap => .ok result
  | _, _ => .error .malformed

/-- The value that a text writes. -/
def parse (nesting : Nat) (t : Text) : Except Fault Json := do
  (← t.foldlM Reader.step (Reader.start nesting)).finish

/-- The value that a document writes, in whichever encoding it is. -/
def parseBytes (nesting : Nat) (bs : Bytes) : Except Fault Json :=
  match (Encoding.detect bs).decode? bs with
  | some t => parse nesting t
  | none => .error .undecodable

end LogRelay.Json
