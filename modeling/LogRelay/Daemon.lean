import LogRelay.Service.Http
import LogRelay.Settings.Sources
/-!
# The daemon

The daemon finds its settings, sets up everything that it needs, serves requests until something
ends that, and then stops all streams and lets the broker finish its work.  What it has to do with
the world outside is noted as a list of events.

## Main definitions

* `Daemon.Event`: what the daemon asks of the world outside, and what it answers.
* `Daemon.Ending`: how the serving ends.
* `Daemon.run`: all of it.
-/
namespace LogRelay.Daemon

/-- The signals that end the daemon. -/
inductive Signal where
  | interrupt
  | terminate
  deriving DecidableEq

/-- What the daemon asks of the world outside, and what it answers. -/
inductive Event where
  /-- from which level on messages are logged -/
  | logLevel (level : Text)
  /-- the broker's producer is created -/
  | producer (brokers : List Text)
  /-- a signal is handled from now on -/
  | signal (s : Signal)
  /-- requests are served at a socket -/
  | serve (socketPath : Text)
  /-- a consumer is created -/
  | consumer (brokers : List Text)
  /-- a request is answered -/
  | reply (r : Http.Reply)

/-- How the serving ends. -/
inductive Ending where
  /-- by itself -/
  | returned
  /-- a signal ends it -/
  | signalled (s : Signal)
  /-- something fails -/
  | failed (f : Failure)

/-- Why the daemon did not come to serving. -/
inductive SetupError where
  | settings (e : SettingsError)
  | capacity (e : CapacityError)

/-- What a run came to: its events, what was done with the producer in the end, and how it ended. -/
structure Outcome where
  events : List Event
  calls : List BrokerCall
  ending : Except SetupError Ending

/-- Answer a request. -/
def answer (cluster : Cluster) (h : Hub) (q : Http.Request) : List Event × Hub :=
  let (reply, next) := Http.reply h cluster q
  (List.replicate (next.consumers - h.consumers) (.consumer h.settings.brokerList)
    ++ [.reply reply], next)

/-- Answer requests, one after the other. -/
def serve (cluster : Cluster) : List Http.Request → Hub → List Event × Hub
  | [], h => ([], h)
  | q :: rest, h =>
    let (events, h) := answer cluster h q
    let (later, h) := serve cluster rest h
    (events ++ later, h)

/-- Run the daemon on the requests that come until the given ending.  A failure of the work at the
end stands in the place of that. -/
def run (sources : Sources) (hostname : Text) (nesting : Nesting) (cluster : Cluster)
    (requests : List Http.Request) (ending : Ending) : Outcome :=
  match Settings.load sources with
  | .error e => ⟨[], [], .error (.settings e)⟩
  | .ok settings =>
    let start : List Event := [.logLevel settings.logLevel, .producer settings.brokerList]
    match Hub.make settings hostname nesting with
    | .error e => ⟨start, [], .error (.capacity e)⟩
    | .ok h =>
      let setup : List Event :=
        [.signal .interrupt, .signal .terminate, .serve settings.socketPath]
      let (events, h) := serve cluster requests h
      let (stopped, h) := h.shutdown
      let ending := match stopped with
        | .ok _ => ending
        | .error f => .failed f
      ⟨start ++ setup ++ events, h.outlet.calls, .ok ending⟩

end LogRelay.Daemon
