import LogRelay.Calendar.Date
import LogRelay.Number.Integer
import LogRelay.Number.Shortest
import LogRelay.Text.Quoted
/-!
# YAML values

The values that documents stand for, and their plain notation.  A sequence, mapping or
set is named by a number, and what it holds stands beside the values: so one of them can be part of
several others, and even of itself.  Where it is shown inside of itself, three dots stand for it.

## Main definitions

* `Yaml.Value`, `Yaml.Moment`, `Yaml.Collection`
* `Yaml.Document`: a value with the collections that it is made of.
* `Yaml.Fault`: why there is no document.
* `Yaml.Value.sameKey`, `Yaml.Value.isKey`: values as keys of mappings.
* `Yaml.Collections.shownInside`, `Yaml.Collections.plain`: values as text.
-/
namespace LogRelay.Yaml

/-- A time of a day, to the microsecond, and by how many minutes it is ahead of universal time, if
that is known. -/
structure Moment where
  date : Date
  hour : Nat
  minute : Nat
  second : Nat
  micros : Nat
  offset : Option Int
  deriving DecidableEq

/-- A value. -/
inductive Value where
  | null
  | bool (b : Bool)
  | int (n : Int)
  | float (x : Double)
  | text (t : Text)
  | bytes (bs : Bytes)
  | date (d : Date)
  | moment (m : Moment)
  | collection (number : Nat)

instance : Inhabited Value := ⟨.null⟩

/-- What a collection holds.  A table is a sequence of pairs, in which a key may occur again. -/
inductive Collection where
  | sequence (items : List Value)
  | table (pairs : List (Value × Value))
  | mapping (pairs : List (Value × Value))
  | set (items : List Value)

/-- Collections by their numbers. -/
abbrev Collections := Array (Option Collection)

/-- A value with the collections that it is made of. -/
structure Document where
  root : Value
  collections : Collections

/-- The pairs of a document that is a mapping. -/
def Document.pairs (d : Document) : List (Value × Value) :=
  match d.root with
  | .collection number => match d.collections[number]?.join with
    | some (.mapping pairs) => pairs
    | _ => []
  | _ => []

/-- Why a document has no value. -/
inductive Fault where
  /-- its bytes are no text -/
  | undecodable
  /-- it holds a control character -/
  | unprintable
  /-- no token can start, or go on, at some place -/
  | lexeme
  /-- its tokens do not follow the grammar -/
  | grammar
  /-- an alias without its anchor, an anchor given twice, or more than one document -/
  | reference
  /-- a node cannot be given the value that its tag asks for -/
  | construction
  /-- a scalar does not write a value of its type, or one out of range -/
  | badScalar
  /-- a scalar writes a number that is too large -/
  | tooLarge
  /-- a scalar is not one of the words of its type -/
  | unknownWord
  /-- a scalar is empty where a number was due -/
  | emptyNumber
  /-- a scalar is no date where one was due -/
  | noDate
  /-- a date is given as the default value of a mapping -/
  | defaultDate
  /-- nodes lie too deep inside of each other -/
  | tooDeep
  deriving DecidableEq

/-- Why a value is not shown. -/
inductive Unwritable where
  /-- it is an integer, or holds one, that has too many digits -/
  | tooLong
  /-- its collections lie too deep inside of each other -/
  | tooDeep
  deriving DecidableEq

/-- The time that has gone by since the start of the year 1, in microseconds: in universal time if
the offset is known. -/
def Moment.elapsed (m : Moment) : Int :=
  let minutes : Int := (m.date.dayNumber * 24 + m.hour) * 60 + m.minute - m.offset.getD 0
  (minutes * 60 + m.second) * 1000000 + m.micros

/-- Whether two times are the same.  A time whose offset is known is never one that has none. -/
def Moment.same (m n : Moment) : Bool :=
  m.offset.isSome = n.offset.isSome && m.elapsed = n.elapsed

namespace Value

/-! ## Keys -/

/-- Whether the value can be a key of a mapping. -/
def isKey : Value → Bool
  | .collection _ => false
  | _ => true

/-- The number that a key stands for: `true` is one and `false` zero. -/
def keyNumber? : Value → Option (Int ⊕ Double)
  | .bool b => some (.inl (if b then 1 else 0))
  | .int n => some (.inl n)
  | .float x => match x.toInt? with
    | some n => some (.inl n)
    | none => some (.inr x)
  | _ => none

/-- Whether two values are one key. -/
def sameKey (a b : Value) : Bool :=
  match a, b with
  | .null, .null => true
  | .text s, .text t => s = t
  | .bytes s, .bytes t => s = t
  | .date d, .date e => d = e
  | .moment m, .moment n => m.same n
  | _, _ => match a.keyNumber?, b.keyNumber? with
    | some x, some y => x = y
    | _, _ => false

/-! ## Plain notation -/

/-- A list of numbers, with `, ` between them. -/
def commaSeparated (ns : List Nat) : Text :=
  Text.join ", " (ns.map Text.ofNat)

end Value

/-- An offset as a text of hours and minutes. -/
def offsetText (minutes : Int) : Text :=
  let sign : Text := if minutes < 0 then "-" else "+"
  sign ++ Text.padded 2 (minutes.natAbs / 60) ++ ":" ++ Text.padded 2 (minutes.natAbs % 60)

/-- An offset as a value is shown: whole days below zero, and the seconds that are left. -/
def offsetShown (minutes : Int) : Text :=
  if minutes = 0 then "datetime.timezone.utc"
  else
    let days : Text := if minutes < 0 then "days=-1, " else []
    "datetime.timezone(datetime.timedelta(" ++ days ++ "seconds="
      ++ Text.ofInt (minutes.fmod 1440 * 60) ++ "))"

/-- A date as text. -/
def dateText (d : Date) : Text :=
  Text.padded 4 d.year ++ "-" ++ Text.padded 2 d.month ++ "-" ++ Text.padded 2 d.day

namespace Moment

/-- A time as text. -/
def plain (m : Moment) : Text :=
  let fraction : Text := if m.micros = 0 then [] else "." ++ Text.padded 6 m.micros
  let offset : Text := match m.offset with
    | some minutes => offsetText minutes
    | none => []
  dateText m.date ++ " " ++ Text.padded 2 m.hour ++ ":" ++ Text.padded 2 m.minute ++ ":"
    ++ Text.padded 2 m.second ++ fraction ++ offset

/-- A time as a value is shown: its parts, without the seconds and microseconds at the end that are
zero. -/
def shown (m : Moment) : Text :=
  let parts := [m.date.year, m.date.month, m.date.day, m.hour, m.minute]
    ++ (if m.micros ≠ 0 then [m.second, m.micros] else if m.second ≠ 0 then [m.second] else [])
  let offset : Text := match m.offset with
    | some minutes => ", tzinfo=" ++ offsetShown minutes
    | none => []
  "datetime.datetime(" ++ Value.commaSeparated parts ++ offset ++ ")"

end Moment

namespace Collections

/-- Texts with `, ` between them, in brackets. -/
def bracketed (opening closing : String) (parts : List Text) : Text :=
  opening ++ Text.join ", " parts ++ closing

/-- The dots that stand for a collection inside of itself. -/
def dots : Collection → Text
  | .mapping _ | .set _ => "\x7b...\x7d"
  | .sequence _ | .table _ => "[...]"

/-- The items of a set in the order in which they are shown: integers in ascending order. -/
def inOrder (items : List Value) : List Value :=
  let numbers := items.filterMap fun
    | .int n => some n
    | _ => none
  if numbers.length = items.length then (numbers.mergeSort (· ≤ ·)).map .int else items

/-- The value as it is shown inside of the given collections, if it lies at most `room` deep. -/
def shownInside (cs : Collections) : (room : Nat) → (inside : List Nat) → Value →
    Except Unwritable Text
  | _, _, .null => .ok "None"
  | _, _, .bool b => .ok (if b then "True" else "False")
  | _, _, .int n => match Integer.render? n with
    | some t => .ok t
    | none => .error .tooLong
  | _, _, .float x => .ok x.render
  | _, _, .text t => .ok t.quoted
  | _, _, .bytes bs => .ok (Bytes.quoted bs)
  | _, _, .date d =>
    .ok ("datetime.date(" ++ Value.commaSeparated [d.year, d.month, d.day] ++ ")")
  | _, _, .moment m => .ok m.shown
  | 0, _, .collection _ => .error .tooDeep
  | room + 1, inside, .collection number => do
    let item := shownInside cs room (number :: inside)
    match cs[number]?.join with
    | none => return dots (.sequence [])
    | some c =>
      if inside.contains number then return dots c
      else match c with
        | .sequence items => return bracketed "[" "]" (← items.mapM item)
        | .table pairs =>
          return bracketed "[" "]" (← pairs.mapM fun (key, value) =>
            return bracketed "(" ")" [← item key, ← item value])
        | .mapping pairs =>
          return bracketed "\x7b" "\x7d" (← pairs.mapM fun (key, value) =>
            return (← item key) ++ ": " ++ (← item value))
        | .set items =>
          if items.isEmpty then return "set()"
          else return bracketed "\x7b" "\x7d" (← (inOrder items).mapM item)

/-- The text that stands for a value, of which collections lie at most `depth` deep inside of each
other. -/
def plain (cs : Collections) (depth : Nat) : Value → Except Unwritable Text
  | .text t => .ok t
  | .date d => .ok (dateText d)
  | .moment m => .ok m.plain
  | v => cs.shownInside depth [] v

end Collections

end LogRelay.Yaml
