import LogRelay.Reading.Reader
/-!
# Readers that are left alone

When nobody interferes with a reader, its workers go on until each of them waits: for messages, for
room on the queue, or for a poll that never returns.  The worker of a partition is given messages
when those of all lower partitions have no more use for them, so the frames of a reader come grouped
by partition.

## Main definitions

* `Reader.settle`: let all workers go on until they wait.
* `Reader.pull`: the next frame, waiting for it as long as it may come.
* `Reader.readAll`, `Reader.readUpTo`, `Reader.read`: bytes of the stream of frames.
* `Reader.close`
-/
namespace LogRelay.Reader

/-- Whether a worker waits for something to happen outside. -/
def waits (r : Reader) (c : Cluster) (w : Worker) (s : Surroundings) : Bool :=
  match w.phase with
  | .polling => c.isStuck w.cursor.partition || (s.outage.isNone && s.batch = [] && !s.stopping)
  | _ => (w.step r.job s).isNone

/-- The surroundings of a worker that is left alone.  One that is told to stop is given no more
messages. -/
def calm (r : Reader) (c : Cluster) (w : Worker) : Surroundings :=
  let s := r.surroundings c w c.batch
  if s.stopping then { s with batch := [], outage := if w.phase = .polling then none else s.outage }
  else s

/-- Let the worker of the given number go on while it is in one of the given phases, until it
waits. -/
def runWorker (c : Cluster) (goesOn : Worker → Bool) (i : Nat) :
    (fuel : Nat) → Reader × Metrics → Reader × Metrics
  | 0, state => state
  | fuel + 1, (r, m) =>
    match r.workers[i]? with
    | none => (r, m)
    | some w =>
      let s := r.calm c w
      if !goesOn w || r.waits c w s then (r, m)
      else match r.stepWorker i s m with
        | none => (r, m)
        | some state => runWorker c goesOn i fuel state

/-- The number of messages that the topic holds. -/
def storedMessages (r : Reader) (c : Cluster) : Nat :=
  (c.partitions r.topic).foldl (fun n p => n + p.messages.length) 0

/-- More steps than a worker can take before it waits. -/
def stepsEnough (c : Cluster) (r : Reader) : Nat :=
  8 * (r.storedMessages c + 4 * r.workers.length) + 16

/-- Whether a worker has not come to polling yet. -/
def isStarting (w : Worker) : Bool :=
  w.phase = .creating || w.phase = .assigning || w.phase = .seeking

/-- Whether a worker waits for room on the queue. -/
def wantsRoom (w : Worker) : Bool :=
  match w.phase with
  | .offering .. | .announcing => true
  | _ => false

/-- Let the workers from the given numbers on go on, in order.  None is given messages while one
before it waits for room. -/
def runAll (c : Cluster) (fuel : Nat) : List Nat → Reader × Metrics → Reader × Metrics
  | [], state => state
  | i :: rest, state =>
    let state := runWorker c (fun _ => true) i fuel state
    if (state.1.workers[i]?).any wantsRoom then state else runAll c fuel rest state

/-- Let all workers go on until they wait. -/
def settle (c : Cluster) (r : Reader) (m : Metrics) : Reader × Metrics :=
  let fuel := stepsEnough c r
  let numbers := List.range r.workers.length
  runAll c fuel numbers
    (numbers.foldl (fun state i => runWorker c isStarting i fuel state) (r, m))

/-- The next frame, waiting for it as long as it may come. -/
def pull (c : Cluster) (r : Reader) (m : Metrics) : Answer × Reader × Metrics :=
  match r.next with
  | (.waits, r) =>
    let (r, m) := r.settle c m
    let (answer, r) := r.next
    (answer, r.settle c m)
  | (answer, r) => (answer, r.settle c m)

/-- Frames until the end comes or must be waited for, onto those already read, last first. -/
def pullAll (c : Cluster) : (fuel : Nat) → Reader × Metrics → List Bytes →
    List Bytes × Answer × Reader × Metrics
  | 0, (r, m), read => (read.reverse, .waits, r, m)
  | fuel + 1, (r, m), read =>
    match r.pull c m with
    | (.frame bs, state) => pullAll c fuel state (bs :: read)
    | (answer, state) => (read.reverse, answer, state)

/-- More frames than can come before the reader waits or ends. -/
def framesEnough (c : Cluster) (r : Reader) : Nat :=
  r.storedMessages c + r.queue.length + r.workers.length + 2

/-- All frames that come before the reader waits or ends. -/
def frames (c : Cluster) (r : Reader) (m : Metrics) : List Bytes × Answer × Reader × Metrics :=
  pullAll c (framesEnough c r) (r, m) []

/-- The first `count` frames, or as many as come. -/
def framesUpTo (c : Cluster) (count : Nat) (r : Reader) (m : Metrics) :
    List Bytes × Answer × Reader × Metrics :=
  pullAll c count (r, m) []

/-- All bytes that come before the reader waits or ends. -/
def readAll (c : Cluster) (r : Reader) (m : Metrics) : Bytes × Answer × Reader × Metrics :=
  let held := r.buffer
  let (frames, answer, r, m) := frames c { r with buffer := [] } m
  (held ++ frames.flatten, answer, r, m)

/-- At most `size` bytes: what is left of a frame, or else the start of the next one. -/
def readUpTo (c : Cluster) (size : Nat) (r : Reader) (m : Metrics) :
    Bytes × Answer × Reader × Metrics :=
  if r.buffer ≠ [] then
    let (bs, r) := r.cut size
    (bs, .frame bs, r, m)
  else match r.pull c m with
    | (.frame frame, r, m) =>
      let (bs, r) := { r with buffer := frame }.cut size
      (bs, .frame bs, r, m)
    | (answer, r, m) => ([], answer, r, m)

/-- Bytes of the stream of frames: at most `size` of them, or for a negative size all that come before
the reader waits or ends.  A reader that is closed cannot be read. -/
def read (c : Cluster) (size : Int) (r : Reader) (m : Metrics) :
    Except Failure (Bytes × Answer) × Reader × Metrics :=
  if r.closed then (.error .readerClosed, r, m)
  else
    let (bs, answer, r, m) := if size < 0 then r.readAll c m else r.readUpTo c size.toNat m
    (.ok (bs, answer), r, m)

/-- Close the reader: tell the workers to stop, wait for those that do, empty the queue and mark the
end.  A reader that was closed before is left as it is. -/
def close (c : Cluster) (r : Reader) (m : Metrics) : Except Failure Unit × Reader × Metrics :=
  match r.markClosed with
  | none => (.ok (), r, m)
  | some r =>
    let (r, m) := r.signal.settle c m
    let r := r.drain.markEnd
    (r.closeAnswer, r, m)

end LogRelay.Reader
