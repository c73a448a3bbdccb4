import LogRelay.Entry.Codec
import LogRelay.Frame.Basic
import LogRelay.Metrics.Basic
import LogRelay.Reading.Cluster
import LogRelay.Reading.Request
/-!
# Workers

A reader has a worker for each partition of its topic.  The worker creates a consumer, assigns it
the partition and sets it to the offset where reading starts; then it polls, and for each message
decides whether it holds a record of the container in the wanted window, in which case it offers the
record's frame to the reader's queue.  It ends when it has come to where reading stops, when it is
told to stop, and when something fails; then it closes its consumer and, unless that fails too,
announces its end on the queue.

A worker goes by steps, each of which meets the world as it is at that moment.

## Main definitions

* `Job`, `Job.judge`: what is wanted, and what a stored value comes to.
* `Consumer`: what a worker has done with its consumer.
* `Worker`, `Worker.Phase`, `Worker.step`
-/
namespace LogRelay

/-! ## Stored values -/

/-- What a reader is looking for, and how deep stored documents may nest. -/
structure Job where
  containerId : Json
  request : ReadRequest
  nesting : Nat

/-- What a stored value comes to: it holds no record, or one of another container, or one outside of
the window, or one that is wanted, in its frame; or it cannot be dealt with. -/
inductive Verdict where
  | undecodable
  | foreign
  | outside
  | wanted (frame : Bytes)
  | fatal (f : Failure)

/-- What a stored value comes to. -/
def Job.judge (j : Job) (value : Option Bytes) : Verdict :=
  match Record.ofDocument j.nesting value with
  | .error e => if e.isSkippable then .undecodable else .fatal (.record e)
  | .ok r =>
    if j.containerId.str? ≠ some r.containerId then .foreign
    else if j.request.inWindow r.time then
      match Frame.encode r.toEntry with
      | .ok frame => .wanted frame
      | .error e => .fatal (.payload e)
    else .outside

/-- What is counted for a value. -/
def Verdict.counter : Verdict → Option Counter
  | .undecodable => some .decodeErrors
  | .foreign => some .dropped
  | _ => none

/-! ## Consumers -/

/-- What is done with a consumer. -/
inductive ConsumerCall where
  | assign (partition : Int)
  | seek (partition offset : Int)
  | poll
  | close
  deriving DecidableEq

/-- A consumer: where it stands, how many batches it has handed out, and what has been done with it
so far. -/
structure Consumer where
  offset : Int := 0
  batches : Nat := 0
  calls : List ConsumerCall := []
  deriving DecidableEq

namespace Consumer

/-- The consumer after a call. -/
def note (c : Consumer) (call : ConsumerCall) : Consumer :=
  { c with calls := c.calls ++ [call] }

/-- Set the consumer to an offset. -/
def seek (c : Consumer) (partition offset : Int) : Consumer :=
  { c.note (.seek partition offset) with offset }

/-- Hand out a batch; reading goes on after its last message. -/
def deliver (c : Consumer) (batch : List Message) : Consumer :=
  match batch.getLast? with
  | none => c.note .poll
  | some m => { c.note .poll with offset := m.offset + 1, batches := c.batches + 1 }

end Consumer

/-! ## Workers -/

/-- Which part of a partition is read: from `start` on, and up to `stop` unless later messages are
wanted too. -/
structure Cursor where
  partition : Int
  start : Int
  stop : Int
  deriving DecidableEq

/-- Where a worker stands. -/
inductive Worker.Phase where
  | creating
  | assigning
  | seeking
  /-- before the test whether to go on polling -/
  | checking
  | polling
  /-- with the messages of a batch that are still to be looked at -/
  | handling (batch : List Message)
  /-- with a frame that the queue has not taken yet -/
  | offering (frame : Bytes) (batch : List Message)
  | closing
  | announcing
  | ended
  deriving DecidableEq

/-- A worker.  `position` is the offset after the last message that it looked at. -/
structure Worker where
  cursor : Cursor
  phase : Worker.Phase := .creating
  position : Int
  consumer : Option Consumer := none
  deriving DecidableEq

/-- What stands on the queue between the workers and the reader. -/
inductive Item where
  /-- a frame of a partition -/
  | frame (partition : Int) (bs : Bytes)
  /-- the end of a partition's worker -/
  | done (partition : Int)
  /-- the end of the reader -/
  | closed
  deriving DecidableEq

/-- How a worker meets the world in one step: whether it is told to stop, whether the queue has
room, whether what it does now fails, and what a poll hands out. -/
structure Surroundings where
  stopping : Bool
  hasRoom : Bool
  outage : Option Outage := none
  batch : List Message := []

/-- What a step of a worker brings about: something to put on the queue, or something to count. -/
structure Effect where
  put : Option Item := none
  count : Option Counter := none

namespace Worker

/-- The worker of a cursor, before its first step. -/
def ofCursor (c : Cursor) : Worker :=
  { cursor := c, position := c.start }

/-- Whether the worker has come to where reading stops. -/
def isCaughtUp (w : Worker) (j : Job) : Bool :=
  !j.request.follow && w.cursor.stop ≤ w.position

/-- Whether the worker has ended. -/
def isEnded (w : Worker) : Bool :=
  w.phase = .ended

/-- The activity that comes next, if it is one that can fail. -/
def activity? (w : Worker) : Option Activity :=
  match w.phase with
  | .creating => some .create
  | .assigning => some .assign
  | .seeking => some .seek
  | .polling => some .poll
  | .closing => w.consumer.map fun _ => .close
  | _ => none

/-- The worker after it has done something with its consumer. -/
def called (w : Worker) (change : Consumer → Consumer) (phase : Phase) : Worker :=
  { w with consumer := w.consumer.map change, phase }

/-- Go on after a message: with the rest of the batch, unless the worker has come to where reading
stops. -/
def proceed (w : Worker) (j : Job) (batch : List Message) : Worker :=
  { w with phase := if w.isCaughtUp j then .closing else .handling batch }

/-- Look at a message. -/
def handle (w : Worker) (j : Job) (m : Message) (batch : List Message) : Worker × Effect :=
  let w := { w with position := m.offset + 1 }
  let verdict := j.judge m.value
  let effect : Effect := { count := verdict.counter }
  match verdict with
  | .wanted frame => ({ w with phase := .offering frame batch }, effect)
  | .fatal _ => ({ w with phase := .closing }, effect)
  | _ => (w.proceed j batch, effect)

/-- The next step, unless the worker has ended or waits for room on the queue. -/
def step (w : Worker) (j : Job) (s : Surroundings) : Option (Worker × Effect) :=
  let partition := w.cursor.partition
  match w.phase with
  | .creating =>
    some (match s.outage with
      | some _ => { w with phase := .closing }
      | none => { w with phase := .assigning, consumer := some {} }, {})
  | .assigning =>
    some (match s.outage with
      | some _ => { w with phase := .closing }
      | none => w.called (·.note (.assign partition)) .seeking, {})
  | .seeking =>
    some (match s.outage with
      | some _ => { w with phase := .closing }
      | none => w.called (·.seek partition w.cursor.start) .checking, {})
  | .checking =>
    some ({ w with phase := if s.stopping || w.isCaughtUp j then .closing else .polling }, {})
  | .polling =>
    some (match s.outage with
      | some _ => w.called (·.note .poll) .closing
      | none =>
        w.called (·.deliver s.batch) (if s.batch = [] then .checking else .handling s.batch), {})
  | .handling [] => some ({ w with phase := .checking }, {})
  | .handling (m :: batch) => some (w.handle j m batch)
  | .offering frame batch =>
    if s.stopping then some ({ w with phase := .closing }, {})
    else if s.hasRoom then some (w.proceed j batch, { put := some (.frame partition frame) })
    else none
  | .closing =>
    let fails := w.consumer.isSome && s.outage.isSome
    some (w.called (·.note .close) (if fails then .ended else .announcing), {})
  | .announcing =>
    if s.stopping then some ({ w with phase := .ended }, {})
    else if s.hasRoom then some ({ w with phase := .ended }, { put := some (.done partition) })
    else none
  | .ended => none

end Worker

end LogRelay
