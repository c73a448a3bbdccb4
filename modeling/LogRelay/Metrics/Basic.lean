import LogRelay.Text.Basic
/-!
# Counters

Four counters are kept: of records that the broker took, of records that it did not take, of stored
records of another container that a reader passed over, and of stored values that hold no record.

## Main definitions

* `Counter`, `Metrics`, `Metrics.count`
* `Metrics.increment`: count one more.
* `Metrics.takeAll`: read all counters and set them to zero.
-/
namespace LogRelay

/-- What is counted. -/
inductive Counter where
  | published
  | failed
  | dropped
  | decodeErrors
  deriving DecidableEq

/-- The values of all counters. -/
structure Metrics where
  published : Nat := 0
  failed : Nat := 0
  dropped : Nat := 0
  decodeErrors : Nat := 0
  deriving DecidableEq

instance : Inhabited Metrics := ⟨{}⟩

namespace Metrics

/-- All counters at zero. -/
def zero : Metrics := {}

/-- The value of one counter. -/
def count (m : Metrics) : Counter → Nat
  | .published => m.published
  | .failed => m.failed
  | .dropped => m.dropped
  | .decodeErrors => m.decodeErrors

/-- Count one more. -/
def increment (m : Metrics) : Counter → Metrics
  | .published => { m with published := m.published + 1 }
  | .failed => { m with failed := m.failed + 1 }
  | .dropped => { m with dropped := m.dropped + 1 }
  | .decodeErrors => { m with decodeErrors := m.decodeErrors + 1 }

/-- Count several things, one after the other. -/
def incrementAll (m : Metrics) (counters : List Counter) : Metrics :=
  counters.foldl increment m

/-- The values of all counters, and the counters set to zero. -/
def takeAll (m : Metrics) : Metrics × Metrics := (m, zero)

theorem count_increment (m : Metrics) (c d : Counter) :
    (m.increment c).count d = m.count d + if c = d then 1 else 0 := by
  cases c <;> cases d <;> rfl

end Metrics

end LogRelay
