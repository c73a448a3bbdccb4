import LogRelay.Json.Order
import LogRelay.Reading.Schedule
import LogRelay.Settings.Basic
import LogRelay.Stream.Relay
/-!
# The hub

The hub keeps the relays of all log streams that are being consumed, by the file of the stream, and
opens readers over what is stored.  All relays share one outlet to the broker.

## Main definitions

* `Hub`, `Hub.make`
* `Hub.start`, `Hub.stop`, `Hub.shutdown`
* `Hub.activeStreams`, `Hub.status`
* `Hub.readLogs`: open a reader of a container's stored logs.
-/
namespace LogRelay

/-- How deep documents may nest, in the bodies of requests and among what is stored. -/
structure Nesting where
  bodies : Nat
  stored : Nat

/-- The hub.  `relays` are all that were ever started, `registry` says which of them consume a
stream, `opener` opens a stream, and `consumers` counts those created for readers. -/
structure Hub where
  settings : Settings
  hostname : Text
  reports : Bool := false
  readCapacity : Int
  nesting : Nesting
  opener : Json → Except Failure Stream := fun _ => .error .noSuchFile
  outlet : Outlet := {}
  registry : Members Json Nat := []
  relays : List Relay := []
  consumers : Nat := 0

namespace Hub

/-- The hub before anything is started. -/
def make (settings : Settings) (hostname : Text) (nesting : Nesting) :
    Except CapacityError Hub := do
  let failures ← FailureLog.ofCapacity settings.errorBufferSize
  return { settings, hostname, readCapacity := settings.queueSize, nesting, outlet := { failures } }

/-! ## Topics and options -/

/-- The topic of a container: its own setting, else the hub's. -/
def topicFor (h : Hub) (c : Container) : Except ShapeError Json :=
  c.topic (c.option "topic" (.str h.settings.topic))

/-- The tag of a container: its own setting, else the hub's. -/
def tagFor (h : Hub) (c : Container) : Except ShapeError Json :=
  c.tag (c.option "tag" (.str h.settings.tag))

/-- How keys are chosen for a container: as it says itself, else as the hub does. -/
def strategyFor (h : Hub) (c : Container) : Json :=
  c.option "key_strategy" (.str h.settings.keyStrategy.name)

/-- The publisher of a container's records.  A wrong value of one of its options is the option's
fault. -/
def publisherFor (h : Hub) (file : Json) (c : Container) (topic tag : Json) :
    Except Failure Publisher :=
  (Publisher.make topic (h.strategyFor c) tag h.reports).mapError fun f =>
    if f.nature = .value then .badOption file f else f

/-- The relay of a container's stream, before its first step. -/
def relayFor (h : Hub) (file : Json) (c : Container) : Except Failure Relay := do
  let topic ← (h.topicFor c).mapError .shape
  let tag ← (h.tagFor c).mapError .shape
  let publisher ← h.publisherFor file c topic tag
  return { file, container := c, publisher, tag, hostname := h.hostname,
           limit := h.settings.maxFrameSize }

/-! ## Streams -/

/-- The relay that consumes the stream of a file. -/
def registered? (h : Hub) (file : Json) : Option Nat :=
  Members.getBy? Json.sameKey file h.registry

/-- Enter a relay under its file. -/
def register (h : Hub) (r : Relay) : Hub :=
  { h with registry := h.registry ++ [(r.file, h.relays.length)], relays := h.relays ++ [r] }

/-- Whether a relay can be given a name for its work, for which the start of the container's
identifier is wanted. -/
def isNameable (c : Container) : Bool :=
  match c.id with
  | .str _ | .arr _ => true
  | _ => false

/-- The relay of the given number, run over its stream as far as it comes. -/
def launch (h : Hub) (i : Nat) : Hub :=
  match h.relays[i]? with
  | none => h
  | some r =>
    let (r, outlet) := r.run (h.opener r.file) h.outlet
    { h with relays := h.relays.set i r, outlet }

/-- Start to consume the stream of a file.  The result is the number of its relay. -/
def start (h : Hub) (file : Json) (c : Container) : Except Failure Nat × Hub :=
  match h.relayFor file c with
  | .error f => (.error f, h)
  | .ok r =>
    if !file.isKey then (.error (.shape (.noKey file.typeName)), h)
    else if (h.registered? file).isSome then (.error (.streamExists file), h)
    else
      let i := h.relays.length
      let h := h.register r
      if isNameable c then (.ok i, h.launch i)
      else (.error (.shape (.noStart c.id.typeName)), h)

/-- Stop the relay of the given number. -/
def stopRelay (h : Hub) (i : Nat) : Except Failure Unit × Hub :=
  match h.relays[i]? with
  | none => (.ok (), h)
  | some r =>
    let (answer, r, outlet) := r.stop h.outlet
    (answer, { h with relays := h.relays.set i r, outlet })

/-- Stop to consume the stream of a file.  A file that is not consumed does not matter. -/
def stop (h : Hub) (file : Json) : Except Failure Unit × Hub :=
  if h.registry.isEmpty then (.ok (), h)
  else if !file.isKey then (.error (.shape (.noKey file.typeName)), h)
  else match h.registered? file with
    | none => (.ok (), h)
    | some i => { h with registry := Members.eraseBy Json.sameKey file h.registry }.stopRelay i

/-- Stop relays, one after the other, up to the first failure. -/
def stopAll (h : Hub) : List Nat → Except Failure Unit × Hub
  | [] => (.ok (), h)
  | i :: rest =>
    match h.stopRelay i with
    | (.ok _, h) => h.stopAll rest
    | (.error f, h) => (.error f, h)

/-- Stop all streams, wait until the broker has done its work, and end its use. -/
def shutdown (h : Hub) : Except Failure Unit × Hub :=
  let numbers := h.registry.map Prod.snd
  match { h with registry := [] }.stopAll numbers with
  | (.error f, h) => (.error f, h)
  | (.ok _, h) =>
    let timeout := h.settings.shutdownTimeout
    (.ok (), { h with outlet := (h.outlet.flush timeout).close timeout })

/-! ## Reports -/

/-- The files whose streams are consumed. -/
def activeStreams (h : Hub) : Except Failure (List Json) :=
  match Json.sorted? (h.registry.map Prod.fst) with
  | some files => .ok files
  | none => .error (.shape .noOrder)

/-- How things stand. -/
structure Status where
  metrics : Metrics
  activeStreams : List Json
  failures : Nat
  recent : List PublishFailure

/-- How things stand, with the given number of the latest failures. -/
def status (h : Hub) (recent : Int) : Except Failure Status := do
  return {
    metrics := h.outlet.metrics
    activeStreams := ← h.activeStreams
    failures := h.outlet.failures.total
    recent := h.outlet.failures.recent recent }

/-! ## Stored logs -/

/-- Open a reader of a container's stored logs. -/
def readLogs (h : Hub) (cluster : Cluster) (c : Container) (q : ReadRequest) :
    Except Failure Reader × Hub :=
  match h.topicFor c with
  | .error e => (.error (.shape e), h)
  | .ok topic =>
    (Reader.opened cluster topic ⟨c.id, q, h.nesting.stored⟩ h.readCapacity,
      { h with consumers := h.consumers + 1 })

/-- The hub after readers have counted something. -/
def withMetrics (h : Hub) (m : Metrics) : Hub :=
  { h with outlet := { h.outlet with metrics := m } }

/-- The hub after the use of a reader, whose workers have counted something and have created
consumers of their own. -/
def absorb (h : Hub) (r : Reader) (m : Metrics) : Hub :=
  { h.withMetrics m with consumers := h.consumers + (r.created - 1) }

end Hub

end LogRelay
