import LogRelay.Metrics.Basic
import LogRelay.Number.Basic
import LogRelay.Publishing.FailureLog
import LogRelay.Publishing.KeyStrategy
/-!
# The outlet to the broker

All records leave through one outlet, whoever publishes them.  The outlet calls the broker, which
may refuse a call at once; a call that it accepts is completed later, with success or with a
failure.  What the broker does not take is counted, kept in the log of failures and, if that is
wished, reported.

What the broker does with a call depends on the number of calls before it and on what is sent, in
whatever way: `Outlet.policy` is any function.

## Main definitions

* `Send`, `Delivery`: a call of the broker, and the record that it was made for.
* `Outlet`, `Outlet.send`
* `Outlet.succeed`, `Outlet.fail`: the completion of an accepted call.
-/
namespace LogRelay

/-- What a call hands to the broker. -/
structure Send where
  topic : Json
  value : Bytes
  key : Option Bytes
  tag : Option Bytes

/-- A call of the broker: what was sent, for which record, whether a failure of it is to be
reported, and what the broker answered at once. -/
structure Delivery where
  send : Send
  record : Record Json
  reported : Bool
  refusal : Option Outage

namespace Delivery

/-- Whether the broker accepted the call. -/
def isAccepted (d : Delivery) : Bool :=
  d.refusal.isNone

end Delivery

/-- A call that ends the use of the broker, or waits until it has done all its work. -/
inductive BrokerCall where
  | flush (timeout : Option Number)
  | close (timeout : Option Number)
  deriving DecidableEq

/-- The outlet. -/
structure Outlet where
  /-- how the broker answers the call after so many others -/
  policy : Nat → Send → Option Outage := fun _ _ => none
  /-- the calls so far -/
  deliveries : List Delivery := []
  /-- the other calls so far -/
  calls : List BrokerCall := []
  metrics : Metrics := {}
  failures : FailureLog := {}
  /-- the reports so far: a record that was not taken, and why -/
  reports : List (Record Json × Text) := []

namespace Outlet

/-- The calls that the broker accepted, in order. -/
def accepted (o : Outlet) : List Delivery :=
  o.deliveries.filter Delivery.isAccepted

/-- Let the broker answer its next calls as listed, and accept all later ones. -/
def schedule (o : Outlet) (answers : List (Option Outage)) : Outlet :=
  let done := o.deliveries.length
  { o with policy := fun n _ => (answers[n - done]?).join }

/-- Count one more. -/
def count (o : Outlet) (c : Counter) : Outlet :=
  { o with metrics := o.metrics.increment c }

/-- Note that a record was not taken. -/
def noteFailure (o : Outlet) (d : Delivery) (reason : Text) : Outlet :=
  { o with
    metrics := o.metrics.increment .failed
    failures := o.failures.add ⟨d.send.topic, d.record.containerId, reason⟩
    reports := if d.reported then o.reports ++ [(d.record, reason)] else o.reports }

/-- Call the broker.  The result is whether it accepts the call.  A refusal of the broker is noted;
any other failure of the call is for the caller. -/
def send (o : Outlet) (s : Send) (r : Record Json) (reported : Bool) :
    Except Failure Bool × Outlet :=
  let d : Delivery := ⟨s, r, reported, o.policy o.deliveries.length s⟩
  let o := { o with deliveries := o.deliveries ++ [d] }
  match d.refusal with
  | none => (.ok true, o)
  | some outage =>
    if outage.kind = .broker then (.ok false, o.noteFailure d outage.text)
    else (.error (.outage outage), o)

/-- The accepted call of the given number succeeds. -/
def succeed (o : Outlet) (i : Nat) : Outlet :=
  match o.accepted[i]? with
  | some _ => o.count .published
  | none => o

/-- The accepted call of the given number fails. -/
def fail (o : Outlet) (i : Nat) (reason : Text) : Outlet :=
  match o.accepted[i]? with
  | some d => o.noteFailure d reason
  | none => o

/-- Wait until the broker has done all its work. -/
def flush (o : Outlet) (timeout : Option Number) : Outlet :=
  { o with calls := o.calls ++ [.flush timeout] }

/-- End the use of the broker. -/
def close (o : Outlet) (timeout : Option Number) : Outlet :=
  { o with calls := o.calls ++ [.close timeout] }

end Outlet

end LogRelay
