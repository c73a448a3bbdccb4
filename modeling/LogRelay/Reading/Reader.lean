import LogRelay.Reading.Offsets
import LogRelay.Reading.Worker
/-!
# Readers

A reader of a container's stored logs gets frames from the workers of all partitions of a topic
through one queue, which may be bounded.  It ends when as many workers have announced their end as
there are, or when it is closed.  Closing tells the workers to stop, waits for them, empties the
queue, and leaves a mark there for a call that still waits; it fails when a worker is alive after
that.  All of these are steps of their own, between which others may come.

## Main definitions

* `Reader`, `Reader.plan`, `Reader.opened`
* `Reader.stepWorker`: a step of one of the workers.
* `Reader.isOver`, `Reader.take`, `Reader.next`: the next frame.
* `Reader.cut`: as many bytes as asked for.
* `Reader.markClosed`, `Reader.signal`, `Reader.drain`, `Reader.markEnd`, `Reader.alive`: the steps
  of closing.
-/
namespace LogRelay

/-- A reader.  `capacity` bounds its queue unless it is zero or less, `markers` counts the workers'
ends that it has taken from the queue, `buffer` is what is left of a frame that was read in part,
`exhausted` says that it has come to its end, and `created` counts the consumers that were created
for it. -/
structure Reader where
  topic : Json
  job : Job
  capacity : Int
  workers : List Worker
  queue : List Item := []
  stopping : Bool := false
  markers : Nat := 0
  buffer : Bytes := []
  exhausted : Bool := false
  closed : Bool := false
  created : Nat := 1

namespace Reader

/-! ## Opening -/

/-- What the planning of a reader came to, and what was done with the consumer that was created for
it, if one was. -/
structure Plan where
  consumer : Option Consumer
  cursors : Except Failure (List Cursor)

/-- The cursor of a partition. -/
def cursor (tail : Int) (p : Partition) : Cursor :=
  ⟨p.id, startOffset tail p.oldest (some p.endOffset), p.endOffset⟩

/-- The cursors of all partitions of a topic, in ascending order. -/
def cursors (c : Cluster) (topic : Json) (tail : Int) : Except Failure (List Cursor) :=
  match c.outage? .metadata none 0 with
  | some o => .error (.outage o)
  | none =>
    if !topic.isKey then .error (.shape (.noKey topic.typeName))
    else match c.partitions topic with
      | [] => .error (.topicNotFound topic)
      | ps => match c.outage? .bounds none 0 with
        | some o => .error (.outage o)
        | none => .ok ((ps.mergeSort fun p q => p.id ≤ q.id).map (cursor tail))

/-- Plan the reading of a topic, with a consumer that is created for that and then closed. -/
def plan (c : Cluster) (topic : Json) (tail : Int) : Plan :=
  match c.outage? .create none 0 with
  | some o => ⟨none, .error (.outage o)⟩
  | none =>
    let cursors := cursors c topic tail
    ⟨some (({} : Consumer).note .close), match c.outage? .close none 0 with
      | some o => .error (.outage o)
      | none => cursors⟩

/-- The reader of cursors, before any step of its workers. -/
def ofCursors (topic : Json) (job : Job) (capacity : Int) (cursors : List Cursor) : Reader :=
  { topic, job, capacity, workers := cursors.map Worker.ofCursor }

/-- Open a reader on the topic of a cluster. -/
def opened (c : Cluster) (topic : Json) (job : Job) (capacity : Int) : Except Failure Reader :=
  (plan c topic job.request.tail).cursors.map (ofCursors topic job capacity)

/-! ## Workers -/

/-- Whether the queue has room for one more item. -/
def hasRoom (r : Reader) : Bool :=
  r.capacity ≤ 0 || r.queue.length < r.capacity

/-- The partitions that are read. -/
def partitions (r : Reader) : List Int :=
  r.workers.map (·.cursor.partition)

/-- How often an activity has been done by a worker, or for the reader as a whole. -/
def countOf (r : Reader) (w : Worker) : Activity → Nat
  | .create => r.created
  | .poll => (w.consumer.map (·.batches)).getD 0
  | _ => 0

/-- How a worker meets the world.  A poll hands out at most `size` messages. -/
def surroundings (r : Reader) (c : Cluster) (w : Worker) (size : Nat) : Surroundings :=
  let partition := w.cursor.partition
  { stopping := r.stopping
    hasRoom := r.hasRoom
    outage := w.activity?.bind fun a => c.outage? a (some partition) (r.countOf w a)
    batch := match w.consumer, c.partition? r.topic partition with
      | some consumer, some p => p.fetch consumer.offset size
      | _, _ => [] }

/-- A step of the worker of the given number in the given surroundings. -/
def stepWorker (r : Reader) (i : Nat) (s : Surroundings) (m : Metrics) :
    Option (Reader × Metrics) :=
  match r.workers[i]? with
  | none => none
  | some w =>
    (w.step r.job s).map fun (next, effect) =>
      ({ r with
          workers := r.workers.set i next
          queue := r.queue ++ effect.put.toList
          created := if w.phase = .creating then r.created + 1 else r.created },
        m.incrementAll effect.count.toList)

/-! ## Frames -/

/-- Whether there are no more frames. -/
def isOver (r : Reader) : Bool :=
  r.exhausted || r.closed || r.workers.length ≤ r.markers

/-- Take the first item of the queue. -/
def take (r : Reader) : Option (Item × Reader) :=
  match r.queue with
  | [] => none
  | item :: queue => some (item, { r with
      queue
      markers := match item with
        | .done _ => r.markers + 1
        | _ => r.markers
      exhausted := r.exhausted || item = .closed })

/-- What asking for a frame comes to: a frame, the end, or waiting. -/
inductive Answer where
  | frame (bs : Bytes)
  | ended
  | waits
  deriving DecidableEq

theorem length_take_lt {r r' : Reader} {item : Item} (h : r.take = some (item, r')) :
    r'.queue.length < r.queue.length := by
  unfold take at h
  split at h
  · cases h
  · rename_i i q hq
    obtain ⟨-, rfl⟩ := Prod.mk.inj (Option.some.inj h)
    simp [hq]

/-- The next frame, as far as that is decided by what is on the queue. -/
def next (r : Reader) : Answer × Reader :=
  if r.isOver then (.ended, { r with exhausted := true })
  else
    match _h : r.take with
    | none => (.waits, r)
    | some (.frame _ bs, r') => (.frame bs, r')
    | some (.done _, r') => r'.next
    | some (.closed, r') => (.ended, r')
termination_by r.queue.length
decreasing_by exact length_take_lt _h

/-- Take the first `size` bytes out of the buffer. -/
def cut (r : Reader) (size : Nat) : Bytes × Reader :=
  (r.buffer.take size, { r with buffer := r.buffer.drop size })

/-! ## Closing -/

/-- Note that the reader is closed, unless it is already. -/
def markClosed (r : Reader) : Option Reader :=
  if r.closed then none else some { r with closed := true }

/-- Tell the workers to stop. -/
def signal (r : Reader) : Reader :=
  { r with stopping := true }

/-- Empty the queue. -/
def drain (r : Reader) : Reader :=
  { r with queue := [] }

/-- Leave a mark on the queue for a call that waits, if there is room. -/
def markEnd (r : Reader) : Reader :=
  if r.hasRoom then { r with queue := r.queue ++ [.closed] } else r

/-- The partitions whose workers have not ended. -/
def alive (r : Reader) : List Int :=
  (r.workers.filter (!·.isEnded)).map (·.cursor.partition)

/-- How the closing ends: with a failure when workers are alive. -/
def closeAnswer (r : Reader) : Except Failure Unit :=
  if r.alive = [] then .ok () else .error (.workersAlive r.alive)

end Reader

end LogRelay
