import LogRelay.Entry.Basic
import LogRelay.Text.Unencodable
import LogRelay.Text.Utf8
import LogRelay.Wire.Field
/-!
# Entries as messages

An entry is a message of four fields: its source (1), its time (2), its line (3) and whether it is
partial (4).  A field with the value that it has anyway is left out.  A fifth field, which says of
which line the entry is a part, is checked and then dropped.  When a field comes several times, the
last one counts; a field of another number, or of another kind than it should have, counts for
nothing.

## Main definitions

* `Entry.payload`: the message of an entry, or why it has none.
* `Entry.ofPayload?`: the entry that a message writes, if it is well-formed.
-/
namespace LogRelay

/-- Why an entry has no message, or none that can be sent: its source has no UTF-8 form, its time
does not fit in 64 bits, or the length of its message does not fit in 32. -/
inductive PayloadError where
  | unencodable (refusal : Unencodable)
  | timeOutOfRange
  | tooLong (length : Nat)
  deriving DecidableEq

namespace Entry

/-- Whether a time fits in a signed number of 64 bits. -/
def fitsTime (time : Int) : Bool :=
  -0x8000000000000000 ≤ time ∧ time < 0x8000000000000000

/-- The fields of an entry whose source has the given bytes. -/
def fields (e : Entry) (source : Bytes) : List Field :=
  (if source = [] then [] else [⟨1, .bytes source⟩])
    ++ (if e.time = 0 then [] else [⟨2, .varint (Varint.ofInt e.time)⟩])
    ++ (if e.line = [] then [] else [⟨3, .bytes e.line⟩])
    ++ (if e.isPartial then [⟨4, .varint 1⟩] else [])

/-- The message of an entry. -/
def payload (e : Entry) : Except PayloadError Bytes :=
  match e.source.unencodable? with
  | some refusal => .error (.unencodable refusal)
  | none =>
    if fitsTime e.time then
      .ok ((e.fields (e.source.flatMap Utf8.encodePoint)).flatMap Field.encode)
    else .error .timeOutOfRange

/-- Whether a byte sequence is a message that places a part in its line: an optional identifier (2)
must be a text. -/
def isPlacement (bs : Bytes) : Bool :=
  match fields? (maxNesting - 1) bs with
  | none => false
  | some fields => fields.all fun f =>
    match f.number, f.value with
    | 2, .bytes id => (Utf8.decode? id).isSome
    | _, _ => true

/-- Take a field of a message into an entry. -/
def take? (e : Entry) (f : Field) : Option Entry :=
  match f.number, f.value with
  | 1, .bytes source => (Utf8.decode? source).map fun t => { e with source := t }
  | 2, .varint n => some { e with time := Varint.toInt n }
  | 3, .bytes line => some { e with line }
  | 4, .varint n => some { e with isPartial := n ≠ 0 }
  | 5, .bytes placement => if isPlacement placement then some e else none
  | _, _ => some e

/-- The entry that a message writes, if it is well-formed. -/
def ofPayload? (bs : Bytes) : Option Entry := do
  (← fields? maxNesting bs).foldlM take? {}

end Entry

end LogRelay
