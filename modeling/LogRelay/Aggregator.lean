import LogRelay.Entry.Basic
/-!
# Joining the pieces of a line

A runtime cuts a long line into several entries.  The first piece opens a group, to which every
later entry adds its bytes, whatever it says of itself, until the bytes of the group end in a line
feed.  Outside a group an entry that is not partial is a line of its own.

## Main definitions

* `Aggregator`, `Aggregator.process`, `Aggregator.flush`
-/
namespace LogRelay

/-- The state of the joining: outside a group, or inside of one with the bytes it has so far. -/
inductive Aggregator where
  | inactive
  | active (pending : Bytes)
  deriving DecidableEq

namespace Aggregator

instance : Inhabited Aggregator := ⟨.inactive⟩

/-- Whether a group is open. -/
def isActive : Aggregator → Bool
  | .inactive => false
  | .active _ => true

/-- The bytes of the open group. -/
def pending : Aggregator → Bytes
  | .inactive => []
  | .active bs => bs

/-- Take an entry.  The result is the line that it completes, if it completes one. -/
def process (a : Aggregator) (e : Entry) : Option Bytes × Aggregator :=
  match a with
  | .inactive => if e.isPartial then (none, .active e.line) else (some e.line, .inactive)
  | .active bs =>
    let bs := bs ++ e.line
    if endsLine bs then (some bs, .inactive) else (none, .active bs)

/-- Give up the open group, if there is one, as a line. -/
def flush : Aggregator → Option Bytes × Aggregator
  | .inactive => (none, .inactive)
  | .active bs => (some bs, .inactive)

end Aggregator

end LogRelay
