import LogRelay.Json.Basic
/-!
# The latest failures

Of the messages that the broker did not take, the latest are kept for whoever asks, and all are
counted.

## Main definitions

* `PublishFailure`, `FailureLog`
* `FailureLog.ofCapacity`: an empty log, if it can be that large.
* `FailureLog.add`, `FailureLog.recent`
-/
namespace LogRelay

/-- A message that the broker did not take. -/
structure PublishFailure where
  topic : Json
  containerId : Json
  reason : Text

instance : Inhabited PublishFailure := ⟨⟨.null, .null, []⟩⟩

/-- The latest failures, oldest first and at most `capacity` of them, and the number of all. -/
structure FailureLog where
  capacity : Nat := 100
  kept : List PublishFailure := []
  total : Nat := 0

instance : Inhabited FailureLog := ⟨{}⟩

/-- Why there is no log of a certain capacity. -/
inductive CapacityError where
  | negative
  | tooLarge
  deriving DecidableEq

namespace FailureLog

/-- The last `n` items of a list. -/
def lastItems {α : Type} (n : Nat) (items : List α) : List α :=
  items.drop (items.length - n)

/-- An empty log of the given capacity, which must be one that a machine word can hold. -/
def ofCapacity (capacity : Int) : Except CapacityError FailureLog :=
  if capacity < -0x8000000000000000 ∨ 0x8000000000000000 ≤ capacity then .error .tooLarge
  else if capacity < 0 then .error .negative
  else .ok { capacity := capacity.toNat }

/-- Add a failure; when the log is full the oldest one leaves it. -/
def add (log : FailureLog) (f : PublishFailure) : FailureLog :=
  { log with kept := lastItems log.capacity (log.kept ++ [f]), total := log.total + 1 }

/-- The latest failures that are still there, at most `n` of them, oldest first. -/
def recent (log : FailureLog) (n : Int) : List PublishFailure :=
  lastItems n.toNat log.kept

end FailureLog

end LogRelay
