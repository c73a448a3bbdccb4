import LogRelay.Number.Double
/-!
# Numbers

A number may be given as an integer or in double precision, and it is handed on as it was given.

## Main definitions

* `Number`
-/
namespace LogRelay

/-- A number as it is given. -/
inductive Number where
  | integer (n : Int)
  | real (x : Double)
  deriving DecidableEq

end LogRelay
