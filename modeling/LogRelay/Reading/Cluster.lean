import LogRelay.Failure
import LogRelay.Members
/-!
# Topics, partitions and messages

A cluster holds topics, a topic has partitions, and a partition holds messages with increasing
offsets.  What a reader asks of a cluster may fail, for all partitions or for one of them, at once
or after some number of times.

## Main definitions

* `Message`, `Partition`, `Cluster`
* `Partition.fetch`: the messages from an offset on.
* `Activity`, `Disturbance`, `Cluster.outage?`: what fails, and when.
-/
namespace LogRelay

/-- A stored message.  Its value may be missing. -/
structure Message where
  offset : Int
  value : Option Bytes
  deriving DecidableEq

/-- A partition: the offset of the first message that it still may hold, the offset after the last
one if that is given, and its messages in the order of their offsets. -/
structure Partition where
  id : Int
  oldest : Int := 0
  high : Option Int := none
  messages : List Message := []
  deriving DecidableEq

namespace Partition

/-- The offset that the next message gets. -/
def nextOffset (p : Partition) : Int :=
  match p.messages.getLast? with
  | some m => m.offset + 1
  | none => max p.oldest 0

/-- The offset at which the partition ends. -/
def endOffset (p : Partition) : Int :=
  p.high.getD p.nextOffset

/-- Add a message, with the next offset unless another one is given. -/
def append (p : Partition) (offset : Option Int) (value : Option Bytes) : Partition :=
  { p with messages := p.messages ++ [⟨offset.getD p.nextOffset, value⟩] }

/-- The next messages from an offset on, at most `size` of them. -/
def fetch (p : Partition) (offset : Int) (size : Nat) : List Message :=
  (p.messages.filter (offset ≤ ·.offset)).take size

end Partition

/-! ## What can fail -/

/-- What a reader asks of a cluster. -/
inductive Activity where
  | metadata
  | bounds
  | create
  | assign
  | seek
  | poll
  | close
  deriving DecidableEq

/-- A failure of an activity, for one partition or for all, once it was done `after` times. -/
structure Disturbance where
  activity : Activity
  partition : Option Int
  after : Nat
  outage : Outage
  deriving DecidableEq

/-- A cluster.  A poll hands out at most `batch` messages.  A partition in `stuck` never answers a
poll; `none` there stands for all partitions. -/
structure Cluster where
  topics : Members Json (List Partition) := []
  batch : Nat := 10
  disturbances : List Disturbance := []
  stuck : List (Option Int) := []

namespace Cluster

/-- The partitions of a topic. -/
def partitions (c : Cluster) (topic : Json) : List Partition :=
  (Members.getBy? Json.sameKey topic c.topics).getD []

/-- The partition of a topic with the given number. -/
def partition? (c : Cluster) (topic : Json) (id : Int) : Option Partition :=
  (c.partitions topic).find? fun p => p.id = id

/-- Change the partition of a topic with the given number. -/
def update (c : Cluster) (topic : Json) (id : Int) (change : Partition → Partition) : Cluster :=
  let ps := (c.partitions topic).map fun p => if p.id = id then change p else p
  { c with topics := Members.insertBy Json.sameKey topic ps c.topics }

/-- Let an activity fail, or let it not fail any more. -/
def disturb (c : Cluster) (activity : Activity) (partition : Option Int) (after : Nat)
    (outage : Option Outage) : Cluster :=
  let others := c.disturbances.filter fun d =>
    ¬ (d.activity = activity ∧ d.partition = partition)
  { c with disturbances := others ++ (outage.map (⟨activity, partition, after, ·⟩)).toList }

/-- The failure of an activity for a partition when it was done `count` times before.  What is said
of that partition counts more than what is said of all. -/
def outage? (c : Cluster) (activity : Activity) (partition : Option Int) (count : Nat) :
    Option Outage :=
  let applies (p : Option Int) : Option Disturbance :=
    c.disturbances.find? fun d => d.activity = activity ∧ d.partition = p ∧ d.after ≤ count
  match applies partition with
  | some d => some d.outage
  | none => (applies none).map (·.outage)

/-- Whether a partition never answers a poll. -/
def isStuck (c : Cluster) (partition : Int) : Bool :=
  c.stuck.contains none || c.stuck.contains (some partition)

end Cluster

end LogRelay
