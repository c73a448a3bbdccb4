import LogRelay.Calendar.Timestamp
import LogRelay.Json.Printer
import LogRelay.Json.Reader
import LogRelay.Record.Basic
/-!
# Records as documents

A record is stored as a JSON object of nine members, written compactly and in ASCII, with its time
as a timestamp.  A document that is read need only have a line and a timestamp; every other member
may be missing, and a member that is no text is taken in plain notation.

## Main definitions

* `Record.document`: the bytes of a record, or why it has none.
* `Record.ofDocument`: the record of a stored value.
* `RecordError`, `RecordError.message`
-/
namespace LogRelay

/-- The bytes of a text of which each code point is below 256. -/
def Text.toBytes (t : Text) : Bytes :=
  t.map fun c => UInt8.ofNat c.val

/-- Why a stored value is not a JSON document. -/
inductive NotJson where
  /-- there is no value -/
  | missing
  /-- its bytes are no text -/
  | undecodable
  /-- its text is not in the grammar -/
  | malformed
  deriving DecidableEq

/-- Why a stored value holds no record. -/
inductive RecordError where
  | notJson (reason : NotJson)
  | notObject
  | incomplete
  | badTimestamp (shown : Text)
  /-- one of its integers has too many digits -/
  | numeral (digits : Nat)
  /-- its arrays and objects are nested too deeply -/
  | tooDeep
  deriving DecidableEq

/-- The error in words.  The reason why something is not JSON is not spelled out. -/
def RecordError.message : RecordError → Text
  | .notJson _ => "Invalid record JSON"
  | .notObject => "Record JSON is not an object"
  | .incomplete => "Record is missing line or timestamp"
  | .badTimestamp shown => "Invalid timestamp: " ++ shown
  | .numeral digits => (Integer.ParseError.tooLong digits).message
  | .tooDeep => "nested too deeply"

/-- The error of a stored value that makes it be skipped when it is met among others: those that say
what is wrong with the record, not those that say that it was too much to read. -/
def RecordError.isSkippable : RecordError → Bool
  | .numeral _ | .tooDeep => false
  | _ => true

/-- The instant that a text names. -/
def readTimestamp (t : Text) : Except RecordError Int :=
  match Timestamp.parse? t with
  | some time => .ok time
  | none => .error (.badTimestamp t.quoted)

namespace Record

/-- The document of a record. -/
def toJson (r : Record Json) : Except Timestamp.RangeError Json := do
  return .obj [
    ("line", .str r.line),
    ("source", .str r.source),
    ("partial", .bool r.isPartial),
    ("timestamp", .str (← Timestamp.format r.time)),
    ("containerId", r.containerId),
    ("containerName", .str r.containerName),
    ("containerImageName", r.imageName),
    ("containerImageId", r.imageId),
    ("hostname", .str r.hostname)]

/-- The bytes of a record. -/
def document (r : Record Json) : Except Timestamp.RangeError Bytes := do
  return (← r.toJson).render.toBytes

/-- The value of a stored document. -/
def parse (nesting : Nat) (stored : Option Bytes) : Except RecordError Json :=
  match stored with
  | none => .error (.notJson .missing)
  | some bs => match Json.parseBytes nesting bs with
    | .ok j => .ok j
    | .error .malformed => .error (.notJson .malformed)
    | .error .undecodable => .error (.notJson .undecodable)
    | .error (.tooLong digits) => .error (.numeral digits)
    | .error .tooDeep => .error .tooDeep

/-- The record that a JSON value gives. -/
def ofJson (j : Json) : Except RecordError (Record Text) :=
  match j with
  | .obj _ =>
    let label (key : Text) : Text := (Json.orElse (j.get? key) (Json.str [])).plain
    match (j.get? "line").getD (Json.str []), j.get? "timestamp" with
    | .str line, some (.str timestamp) => do
      return {
        line
        source := label "source"
        isPartial := ((j.get? "partial").getD (Json.bool false)).isTruthy
        time := ← readTimestamp timestamp
        containerId := label "containerId"
        containerName := label "containerName"
        imageName := label "containerImageName"
        imageId := label "containerImageId"
        hostname := label "hostname" }
    | _, _ => .error .incomplete
  | _ => .error .notObject

/-- The record of a stored value. -/
def ofDocument (nesting : Nat) (stored : Option Bytes) : Except RecordError (Record Text) := do
  ofJson (← parse nesting stored)

end Record

end LogRelay
