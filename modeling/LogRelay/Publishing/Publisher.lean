import LogRelay.Publishing.Outlet
/-!
# Publishers

A publisher sends records to one topic, with keys of one kind, and with one tag, if it has any.

## Main definitions

* `Publisher`, `Publisher.make`
* `Publisher.message`: what is sent for a record.
* `Publisher.publish`
-/
namespace LogRelay

/-- Where and how records are sent.  `reports` says whether the failure to send one is reported. -/
structure Publisher where
  topic : Json
  strategy : KeyStrategy
  tag : Option Bytes
  reports : Bool

namespace Publisher

/-- The publisher for the given settings.  An empty tag is none. -/
def make (topic strategy tag : Json) (reports : Bool) : Except Failure Publisher := do
  let strategy ← KeyStrategy.ofJson strategy
  let tag ← if tag.isTruthy then (KeyStrategy.encodeLabel tag).map some else .ok none
  return { topic, strategy, tag, reports }

/-- What is sent for a record. -/
def message (p : Publisher) (r : Record Json) : Except Failure Send := do
  let value ← r.document.mapError .range
  let key ← p.strategy.key r
  return { topic := p.topic, value, key, tag := p.tag }

/-- Send a record.  The result is whether the broker accepts it.  A record of which no message can
be made, and a call that fails for another reason than that the broker refuses it, are for the
caller. -/
def publish (p : Publisher) (r : Record Json) (o : Outlet) : Except Failure Bool × Outlet :=
  match p.message r with
  | .error e => (.error e, o)
  | .ok s => o.send s r p.reports

end Publisher

end LogRelay
