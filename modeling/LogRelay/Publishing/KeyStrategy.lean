import LogRelay.Failure
/-!
# Message keys

A message may carry a key, which the broker uses to choose a partition.  The key is the record's
time, or its container's identifier, or there is none.

## Main definitions

* `KeyStrategy`, `KeyStrategy.name`, `KeyStrategy.ofJson?`
* `KeyStrategy.key`: the key of a record.
-/
namespace LogRelay

/-- How the key of a message is chosen. -/
inductive KeyStrategy where
  | byTime
  | byContainer
  | unkeyed
  deriving DecidableEq

namespace KeyStrategy

/-- All of them. -/
def all : List KeyStrategy := [.byTime, .byContainer, .unkeyed]

/-- The name under which a setting refers to it. -/
def name : KeyStrategy → Text
  | .byTime => "key_by_timestamp"
  | .byContainer => "key_by_container_id"
  | .unkeyed => "none"

/-- The strategy that a setting names. -/
def ofJson? (j : Json) : Option KeyStrategy :=
  all.find? fun s => j.str? = some s.name

/-- The strategy that a setting names, or the failure that there is none of that name. -/
def ofJson (j : Json) : Except Failure KeyStrategy :=
  match ofJson? j with
  | some s => .ok s
  | none => .error (.unknownKeyStrategy j)

/-- The bytes of a label that is meant to be a text. -/
def encodeLabel (label : Json) : Except Failure Bytes :=
  match label with
  | .str t => match t.unencodable? with
    | some refusal => .error (.unencodable refusal)
    | none => .ok (t.flatMap Utf8.encodePoint)
  | _ => .error (.shape (.noText label.typeName))

/-- The key of a record. -/
def key (s : KeyStrategy) (r : Record Json) : Except Failure (Option Bytes) :=
  match s with
  | .byTime => ((Timestamp.format r.time).map (some ·.toBytes)).mapError .range
  | .byContainer => (encodeLabel r.containerId).map some
  | .unkeyed => .ok none

end KeyStrategy

end LogRelay
