import LogRelay.Text.Basic
/-!
# Log entries

What a container runtime writes into a container's log stream, and what a reader of stored logs
gets back: a piece of output with its source and its time.

## Main definitions

* `Entry`
-/
namespace LogRelay

/-- One unit of a container's output.  `isPartial` marks a piece of a line that was too long to be
written at once, and `time` counts nanoseconds since the epoch. -/
structure Entry where
  line : Bytes := []
  source : Text := []
  isPartial : Bool := false
  time : Int := 0
  deriving DecidableEq

instance : Inhabited Entry := ⟨{}⟩

/-- The line feed. -/
def lineFeed : UInt8 := 0x0A

/-- Whether a byte sequence ends in a line feed. -/
def endsLine (bs : Bytes) : Bool :=
  bs.getLast? = some lineFeed

end LogRelay
