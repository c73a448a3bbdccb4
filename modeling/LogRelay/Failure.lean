import LogRelay.Frame.Basic
import LogRelay.Record.Document
/-!
# Failures

All that can go wrong in an operation, as one type: what the parts of the library find wrong with
what they are given, what the outside world fails to do, and what is refused because of the state
that things are in.

## Main definitions

* `Outage`: something outside failed.
* `Failure`, `Failure.message`
* `Failure.nature`: the kind of a failure, on which it depends who handles it.
-/
namespace LogRelay

/-- What failed outside: the broker, the operating system, or something else, in that it was given a
wrong value or simply at its work. -/
inductive Outage.Kind where
  | broker
  | system
  | value
  | runtime
  deriving DecidableEq

/-- A failure of something outside, with what it says of itself. -/
structure Outage where
  kind : Outage.Kind
  text : Text
  deriving DecidableEq

/-- What can go wrong in an operation. -/
inductive Failure where
  /-- a value of a request has the wrong shape -/
  | shape (e : ShapeError)
  /-- a stored value, or a time in a request, cannot be read -/
  | record (e : RecordError)
  /-- a time cannot be written -/
  | range (e : Timestamp.RangeError)
  /-- an entry cannot be written -/
  | payload (e : PayloadError)
  /-- a text cannot be encoded -/
  | unencodable (refusal : Unencodable)
  /-- a stream of frames cannot be read on -/
  | frame (e : FrameError)
  /-- something outside failed -/
  | outage (o : Outage)
  /-- there is no file of that name -/
  | noSuchFile
  /-- a stream is read after it was closed -/
  | streamClosed
  /-- a reader is read after it was closed -/
  | readerClosed
  /-- a topic has no partitions -/
  | topicNotFound (topic : Json)
  /-- workers are alive after they were told to stop -/
  | workersAlive (partitions : List Int)
  /-- a stream is being consumed already -/
  | streamExists (file : Json)
  /-- there is no such way to choose the key of a message -/
  | unknownKeyStrategy (given : Json)
  /-- a stream cannot be consumed because of one of its options -/
  | badOption (file : Json) (reason : Failure)

/-- The kinds of failures. -/
inductive Failure.Nature where
  /-- a value lacks an operation -/
  | attribute
  /-- a value is of the wrong type -/
  | type
  /-- a value is wrong -/
  | value
  /-- a number is too large -/
  | overflow
  /-- the operating system failed -/
  | system
  /-- the broker failed -/
  | broker
  /-- something else failed -/
  | runtime
  /-- the request is refused -/
  | refusal
  deriving DecidableEq

/-- The kind of a value's wrong shape. -/
def ShapeError.nature : ShapeError → Failure.Nature
  | .noMembers _ | .noText _ => .attribute
  | .noItems _ | .noSearch _ | .noPair _ | .noKey _ | .noNumber _ | .noStart _ | .noOrder => .type
  | .pairLength .. | .numeral _ | .notANumber => .value
  | .infinite => .overflow

/-- The kind of an outage. -/
def Outage.nature (o : Outage) : Failure.Nature :=
  match o.kind with
  | .broker => .broker
  | .system => .system
  | .value => .value
  | .runtime => .runtime

namespace Failure

/-- The kind of a failure. -/
def nature : Failure → Nature
  | .shape e => e.nature
  | .record .tooDeep | .payload (.tooLong _) => .runtime
  | .record _ | .payload _ | .unencodable _ | .streamClosed | .readerClosed
  | .unknownKeyStrategy _ => .value
  | .range .secondsOverflow => .overflow
  | .range .yearOverflow => .system
  | .range .yearOutOfRange => .value
  | .outage o => o.nature
  | .noSuchFile => .system
  | .frame _ | .topicNotFound _ | .workersAlive _ | .streamExists _ | .badOption .. => .refusal

/-- A list of numbers as messages show it. -/
def shownList (ns : List Int) : Text :=
  CodePoint.ofChar '[' :: Text.join ", " (ns.map Text.ofInt) ++ [CodePoint.ofChar ']']

/-- The failure in words. -/
def message : Failure → Text
  | .shape e => e.message
  | .record e => e.message
  | .range _ => "time out of range"
  | .payload (.unencodable refusal) => refusal.message
  | .payload .timeOutOfRange => "time out of range"
  | .payload (.tooLong _) => "'I' format requires 0 <= number <= 4294967295"
  | .unencodable refusal => refusal.message
  | .frame e => e.message
  | .outage o => o.text
  | .noSuchFile => "no such file"
  | .streamClosed => "read of closed file"
  | .readerClosed => "I/O operation on closed reader"
  | .topicNotFound topic => "No partition metadata for topic " ++ topic.shown
  | .workersAlive partitions =>
    "Workers for partitions " ++ shownList partitions ++ " did not stop in time"
  | .streamExists file => "Logger for " ++ file.plain ++ " already exists"
  | .unknownKeyStrategy given => "Unknown key strategy: " ++ given.shown
  | .badOption file reason => "Invalid log option for " ++ file.plain ++ ": " ++ reason.message

end Failure

end LogRelay
