import LogRelay.Json.Basic
/-!
# Where reading starts

A reader that wants the last `tail` messages of a partition starts that many below the end of the
partition, but not in front of what the partition still holds.

## Main definitions

* `startOffset`, `startOffsets`
-/
namespace LogRelay

/-- The offset at which the last `tail` messages of a partition start.  A `tail` of zero or less
asks for all that the partition holds, and so does an unknown end. -/
def startOffset (tail oldest : Int) (high : Option Int) : Int :=
  let first := max oldest 0
  if tail ≤ 0 then first else max (high.getD first - tail) first

/-- The start offsets of all partitions in a table of first offsets. -/
def startOffsets (tail : Int) (oldest high : Members Int Int) : Members Int Int :=
  oldest.map fun (partition, first) => (partition, startOffset tail first (high.get? partition))

end LogRelay
