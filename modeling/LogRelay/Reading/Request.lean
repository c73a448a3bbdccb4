import LogRelay.Failure
/-!
# Requests for stored logs

What part of a container's stored records is wanted: how many of the last messages of each partition
are looked at, whether the reader waits for records that come later, and between which instants,
both included, a record must lie.

## Main definitions

* `ReadRequest`, `ReadRequest.ofJson`
* `ReadRequest.inWindow`: the times that are wanted.
-/
namespace LogRelay

/-- What part of a container's records is wanted.  A `tail` of zero or less asks for all of them. -/
structure ReadRequest where
  tail : Int := 0
  follow : Bool := true
  notBefore : Option Int := none
  notAfter : Option Int := none
  deriving DecidableEq

namespace ReadRequest

/-- Whether a record of the given time is wanted. -/
def inWindow (q : ReadRequest) (time : Int) : Bool :=
  q.notBefore.all (· ≤ time) && q.notAfter.all (time ≤ ·)

/-- How the zero time starts, which the runtime sends for a bound that is not set. -/
def zeroTime : Text := "0001-01-01T00:00:00"

/-- The bound that a value of a request sets: none if it is missing, empty or the zero time. -/
def bound (value : Option Json) : Except Failure (Option Int) :=
  match value with
  | none => .ok none
  | some j =>
    if !j.isTruthy then .ok none
    else match j with
      | .str t =>
        if t.startsWith zeroTime then .ok none
        else ((readTimestamp t).map some).mapError .record
      | _ => .error (.record (.badTimestamp j.shown))

/-- The request that the runtime's description gives. -/
def ofJson (config : Json) : Except Failure ReadRequest := do
  let members ← config.members.mapError .shape
  let member (key : Text) : Option Json := Members.get? key members
  return {
    tail := ← (Json.orElse (member "Tail") (.int 0)).toInt.mapError .shape
    follow := ((member "Follow").getD (.bool false)).isTruthy
    notBefore := ← bound (member "Since")
    notAfter := ← bound (member "Until") }

end ReadRequest

end LogRelay
