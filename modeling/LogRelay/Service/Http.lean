import LogRelay.Json.Reader
import LogRelay.Service.Hub
import LogRelay.Service.Target
import LogRelay.Text.Upper
/-!
# The service over HTTP

The runtime asks for everything by requests over HTTP, with JSON in their bodies.  A request that
cannot be understood is answered by what is wrong with it, and so is one that is refused.  Stored
logs are answered by a stream of frames.

## Main definitions

* `Http.Request`, `Http.Response`
* `Http.Route`, `Http.Destination`: what is asked for.
* `Http.handle`: the answer to a request.
* `Http.Reply`, `Http.reply`: the answer as a client gets it.
* `Http.isGone`: whether a client has hung up.
-/
namespace LogRelay.Http

/-- A request. -/
structure Request where
  method : Text
  target : Text
  body : Bytes

/-- An answer: a value, the stream of frames of a reader, or a page that says only what its number
says. -/
inductive Response where
  | json (status : Nat) (body : Json)
  | stream (r : Reader)
  | page (status : Nat)

/-- What is asked for.  Files are known to the service, but there are none. -/
inductive Route where
  | activate
  | start
  | stop
  | capabilities
  | readLogs
  | stats
  | file
  deriving DecidableEq

namespace Route

/-- The routes that have a path of their own. -/
def named : List Route := [.activate, .start, .stop, .capabilities, .readLogs, .stats]

/-- The path of a route, or what the paths of files start with. -/
def path : Route → Text
  | .activate => "/Plugin.Activate"
  | .start => "/LogDriver.StartLogging"
  | .stop => "/LogDriver.StopLogging"
  | .capabilities => "/LogDriver.Capabilities"
  | .readLogs => "/LogDriver.ReadLogs"
  | .stats => "/stats"
  | .file => "/static/"

/-- Whether a route can be asked for by a method. -/
def allows (r : Route) (method : Text) : Bool :=
  match r with
  | .stats | .file => method = "GET" || method = "HEAD" || method = "OPTIONS"
  | _ => method = "POST" || method = "OPTIONS"

/-- Whether the path is one of a file: it has a name, which no slash starts, on one line. -/
def isFilePath (path : Text) : Bool :=
  path.startsWith Route.file.path && match path.drop Route.file.path.length with
    | [] => false
    | c :: rest => c ≠ '/' && !rest.contains (CodePoint.ofChar '\n')

/-- The route of a path. -/
def ofPath? (path : Text) : Option Route :=
  if isFilePath path then some .file else named.find? fun r => r.path = path

end Route

/-- Where the path of a request leads: to a route, to one if pairs of slashes are merged, or
nowhere. -/
inductive Destination where
  | route (r : Route)
  | elsewhere (r : Route)
  | nowhere
  deriving DecidableEq

/-- Where a path leads. -/
def Destination.ofPath (path : Text) : Destination :=
  match Route.ofPath? path with
  | some r => .route r
  | none => match Route.ofPath? (Target.mergeSlashes path) with
    | some r => .elsewhere r
    | none => .nowhere

/-! ## Bodies -/

/-- What the body of a request holds: an object, something else, or a document that cannot be dealt
with at all. -/
inductive Content where
  | object (members : List (Text × Json))
  | other
  | tooDeep

/-- What a body holds. -/
def content (nesting : Nat) (body : Bytes) : Content :=
  match Json.parseBytes nesting body with
  | .ok (.obj members) => .object members
  | .ok _ => .other
  | .error .tooDeep => .tooDeep
  | .error _ => .other

/-- A member of a body, the empty object if it is missing or empty. -/
def objectMember (members : List (Text × Json)) (key : Text) : Json :=
  Json.orElse (Members.get? key members) (.obj [])

/-- A refusal with its reason. -/
def refuse (status : Nat) (reason : Text) : Response :=
  .json status (.obj [("Err", .str reason)])

/-- The answer to a request that was carried out. -/
def done : Response := .json 200 (.obj [("Err", .str [])])

/-- Whether a failure is one that is answered by its reason. -/
def isRefusal (f : Failure) : Bool :=
  f.nature = .refusal

/-- The answer to a request that failed. -/
def failed (f : Failure) : Response :=
  if isRefusal f then refuse 500 f.message else .page 500

/-- The file that a request names. -/
def file? (members : List (Text × Json)) : Option Json :=
  (Members.get? ("File" : Text) members).filter Json.isTruthy

/-- The container and the request for stored logs that a body describes. -/
def readRequest (members : List (Text × Json)) : Except Failure (Container × ReadRequest) := do
  let c ← (Container.ofJson (objectMember members "Info")).mapError .shape
  let q ← ReadRequest.ofJson (objectMember members "Config")
  return (c, q)

/-! ## Answers -/

/-- A failure as a report shows it. -/
def failureJson (f : PublishFailure) : Json :=
  .obj [("topic", f.topic), ("container_id", f.containerId), ("error", .str f.reason)]

/-- How things stand, as a report shows it. -/
def statusJson (s : Hub.Status) : Json :=
  .obj [
    ("published", .int s.metrics.published),
    ("failed", .int s.metrics.failed),
    ("dropped", .int s.metrics.dropped),
    ("decode_errors", .int s.metrics.decodeErrors),
    ("active_streams", .arr s.activeStreams),
    ("total_publish_failures", .int s.failures),
    ("recent_errors", .arr (s.recent.map failureJson))]

/-- What the service can do. -/
def capabilities : Json := .obj [("ReadLogs", .bool true)]

/-- Start to consume a stream. -/
def start (h : Hub) (body : Bytes) : Response × Hub :=
  match content h.nesting.bodies body with
  | .tooDeep => (.page 500, h)
  | .other => (refuse 400 "StartLogging requires a File", h)
  | .object members =>
    match file? members with
    | none => (refuse 400 "StartLogging requires a File", h)
    | some file =>
      match Container.ofJson (objectMember members "Info") with
      | .error e => (failed (.shape e), h)
      | .ok c =>
        match h.start file c with
        | (.ok _, h) => (done, h)
        | (.error f, h) => (failed f, h)

/-- Stop to consume a stream. -/
def stop (h : Hub) (body : Bytes) : Response × Hub :=
  match content h.nesting.bodies body with
  | .tooDeep => (.page 500, h)
  | .other => (refuse 400 "StopLogging requires a File", h)
  | .object members =>
    match file? members with
    | none => (refuse 400 "StopLogging requires a File", h)
    | some file =>
      match h.stop file with
      | (.ok _, h) => (done, h)
      | (.error _, h) => (.page 500, h)

/-- Open a reader. -/
def readLogs (h : Hub) (cluster : Cluster) (body : Bytes) : Response × Hub :=
  match content h.nesting.bodies body with
  | .tooDeep => (.page 500, h)
  | .other => (refuse 400 "ReadLogs requires a JSON body", h)
  | .object members =>
    match readRequest members with
    | .error f =>
      if f.nature = .type ∨ f.nature = .value then
        (refuse 400 ("Invalid ReadLogs request: " ++ f.message), h)
      else (.page 500, h)
    | .ok (c, q) =>
      match h.readLogs cluster c q with
      | (.ok r, h) => (.stream r, h)
      | (.error f, h) => (failed f, h)

/-- The answer of a route, and the hub after it. -/
def handleRoute (h : Hub) (cluster : Cluster) (r : Route) (body : Bytes) : Response × Hub :=
  match r with
  | .activate => (.json 200 (.obj [("Implements", .arr [.str "LogDriver"])]), h)
  | .capabilities => (.json 200 (.obj [("Cap", capabilities)]), h)
  | .stats => match h.status 10 with
    | .ok s => (.json 200 (statusJson s), h)
    | .error f => (failed f, h)
  | .start => start h body
  | .stop => stop h body
  | .readLogs => readLogs h cluster body
  | .file => (.page 404, h)

/-- The answer to a request, and the hub after it. -/
def handle (h : Hub) (cluster : Cluster) (q : Request) : Response × Hub :=
  let method := Text.toUpper q.method
  match Destination.ofPath (Target.path q.target) with
  | .nowhere => (.page 404, h)
  | .elsewhere r => (.page (if r.allows method then 308 else 405), h)
  | .route r =>
    if !r.allows method then (.page 405, h)
    else if method = "OPTIONS" then (.page 200, h)
    else handleRoute h cluster r q.body

/-! ## Answers as clients get them -/

/-- An answer as a client gets it: a value, or only that there is one, for a client that did not
want more; frames, or frames that break off with a failure; or a page. -/
inductive Reply where
  | json (status : Nat) (body : Json)
  | header (status : Nat)
  | frames (frames : List Bytes)
  | broken (frames : List Bytes) (f : Failure)
  | page (status : Nat)

namespace Reply

/-- The number of an answer. -/
def status : Reply → Nat
  | .json status _ | .header status | .page status => status
  | .frames _ | .broken .. => 200

/-- The type of an answer's content. -/
def mediaType : Reply → Text
  | .json .. | .header _ => "application/json"
  | .frames _ | .broken .. => "application/x-json-stream"
  | .page _ => "text/html"

end Reply

/-- What a client gets that stays until nothing more can come and then hangs up.  The reader, if
there is one, is closed then. -/
def reply (h : Hub) (cluster : Cluster) (q : Request) : Reply × Hub :=
  match handle h cluster q with
  | (.json status body, h) =>
    (if Text.toUpper q.method = "HEAD" then .header status else .json status body, h)
  | (.page status, h) => (.page status, h)
  | (.stream r, h) =>
    let (r, m) := r.settle cluster h.outlet.metrics
    let (frames, _, r, m) := r.frames cluster m
    let (closed, r, m) := r.close cluster m
    (match closed with
      | .ok _ => .frames frames
      | .error f => .broken frames f, h.absorb r m)

/-! ## Connections -/

/-- What is known of a client's connection: whether it has sent something that was not read, whether
it has closed its end, and whether our end is closed. -/
structure Connection where
  hasData : Bool := false
  peerClosed : Bool := false
  selfClosed : Bool := false

/-- Whether the client has hung up.  Something that it sent before hides that. -/
def isGone (c : Connection) : Bool :=
  c.selfClosed || (c.peerClosed && !c.hasData)

end LogRelay.Http
