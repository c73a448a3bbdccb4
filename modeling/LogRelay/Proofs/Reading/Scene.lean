import LogRelay.Proofs.Reading.Log
import LogRelay.Proofs.Reading.Transition
import LogRelay.Proofs.Runs
/-!
# A reader at work

A reader, its workers and the cluster that they read, as one system.  It moves when a worker makes a
step, when the reader takes an item from the queue, and when a message is appended to a partition;
these moves come in any order.  A poll hands out as many messages as it likes, and whatever a worker
does with its consumer may fail.

## Main definitions

* `Scene`, `Scene.log`, `Scene.delivered`: the system, the log of a partition, and the frames of a
  partition that have been handed out.
* `Move`, `Scene.step`, `Scene.run`: one move, and several of them.
* `Move.IsFaultless`: nothing fails at a move.

## Main statements

* `Reader.take_eq_some`, `Reader.next_of_frame` and the like: taking items, and the next frame.
* `step_work_eq_some`, `step_take_eq_some`, `step_append_eq_some`: what each move leads to.
* `run_induction`: what holds at the start and is kept by each move holds after every run.
-/
namespace LogRelay

/-! ## Tables -/

namespace Members

variable {κ ν : Type}

/-- A key that was there has its new value. -/
theorem getBy?_insertBy {same : κ → κ → Bool} {key : κ} {old value : ν} {table : Members κ ν}
    (h : getBy? same key table = some old) :
    getBy? same key (insertBy same key value table) = some value := by
  induction table with
  | nil => cases h
  | cons entry table ih =>
      obtain ⟨k, v⟩ := entry
      by_cases hk : same k key
      · simp [insertBy, getBy?, hk]
      · simp only [getBy?, List.find?_cons, hk] at h
        simpa [insertBy, getBy?, hk] using ih h

end Members

namespace Cluster

/-- The partitions of a topic after one of them has changed. -/
theorem partitions_update {c : Cluster} {topic : Json} (h : c.partitions topic ≠ []) (id : Int)
    (change : Partition → Partition) : (c.update topic id change).partitions topic =
      (c.partitions topic).map fun p => if p.id = id then change p else p := by
  have hsome : ∃ ps, Members.getBy? Json.sameKey topic c.topics = some ps := by
    cases hg : Members.getBy? Json.sameKey topic c.topics with
    | none => simp [partitions, hg] at h
    | some ps => exact ⟨ps, rfl⟩
  obtain ⟨ps, hps⟩ := hsome
  rw [partitions, update, Members.getBy?_insertBy hps]
  rfl

/-- One partition has changed, and no other one. -/
theorem partition?_update {c : Cluster} {topic : Json} {id : Int} {p : Partition}
    (change : Partition → Partition) (hid : ∀ p, (change p).id = p.id)
    (h : c.partition? topic id = some p) (id' : Int) :
    (c.update topic id change).partition? topic id' =
      (c.partition? topic id').map fun p => if id' = id then change p else p := by
  have hne : c.partitions topic ≠ [] := by
    intro hnil
    simp [partition?, hnil] at h
  rw [partition?, partition?, partitions_update hne, List.find?_map]
  have hfun : ((fun p : Partition => decide (p.id = id')) ∘
      fun p => if p.id = id then change p else p) = fun p => decide (p.id = id') := by
    funext q
    by_cases hq : q.id = id <;> simp [hq, hid]
  rw [hfun]
  cases hf : (c.partitions topic).find? fun p => decide (p.id = id') with
  | none => rfl
  | some q =>
      have hq : q.id = id' := by simpa using List.find?_some hf
      simp [hq]

end Cluster

/-! ## The system -/

/-- A reader at work.  `taken` are the items that it has taken from the queue so far. -/
structure Scene where
  cluster : Cluster
  reader : Reader
  metrics : Metrics := {}
  taken : List Item := []

/-- What may happen next. -/
inductive Move where
  /-- the worker of a number makes a step; if it polls it gets at most `size` messages, and if there
  is an outage, what it does with its consumer fails -/
  | work (i size : Nat) (outage : Option Outage)
  /-- the reader takes an item from the queue -/
  | take
  /-- a message is appended to a partition -/
  | append (partition : Int) (offset : Option Int) (value : Option Bytes)

/-- Nothing fails at the move. -/
def Move.IsFaultless : Move → Prop
  | .work _ _ outage => outage = none
  | _ => True

/-- The partition that an item comes from. -/
def Item.partition? : Item → Option Int
  | .frame p _ => some p
  | .done p => some p
  | .closed => none

/-- The frame of an item that comes from the given partition. -/
def Item.frameOf? (id : Int) : Item → Option Bytes
  | .frame p bs => if p = id then some bs else none
  | _ => none

/-- Whether an item is the end of a worker. -/
def Item.isDone : Item → Bool
  | .done _ => true
  | _ => false

namespace Reader

variable {r r' : Reader}

/-- Taking an item is taking the first one of the queue. -/
theorem take_eq_some {item : Item} :
    r.take = some (item, r') ↔ ∃ queue, r.queue = item :: queue ∧
      r' = { r with
        queue
        markers := r.markers + if item.isDone then 1 else 0
        exhausted := r.exhausted || item = .closed } := by
  rw [take]
  cases hq : r.queue with
  | nil => simp
  | cons first queue =>
      simp only [Option.some.injEq, Prod.mk.injEq, List.cons.injEq]
      constructor
      · rintro ⟨rfl, rfl⟩
        refine ⟨queue, ⟨rfl, rfl⟩, ?_⟩
        cases first <;> simp [Item.isDone]
      · rintro ⟨_, ⟨rfl, rfl⟩, rfl⟩
        refine ⟨rfl, ?_⟩
        cases first <;> simp [Item.isDone]

theorem take_eq_none : r.take = none ↔ r.queue = [] := by
  rw [take]
  cases r.queue <;> simp

/-! ## The next frame, case by case -/

theorem next_of_isOver (ho : r.isOver = true) : r.next = (.ended, { r with exhausted := true }) := by
  rw [next, if_pos ho]

/-- A reader that is not over waits when its queue is empty. -/
theorem next_of_queue_eq_nil (ho : r.isOver = false) (hq : r.queue = []) :
    r.next = (.waits, r) := by
  rw [next, if_neg (by simp [ho])]
  split <;> simp_all [take]

theorem next_of_frame (ho : r.isOver = false) {id : Int} {bs : Bytes}
    (ht : r.take = some (.frame id bs, r')) : r.next = (.frame bs, r') := by
  rw [next, if_neg (by simp [ho])]
  split <;> simp_all

theorem next_of_done (ho : r.isOver = false) {id : Int} (ht : r.take = some (.done id, r')) :
    r.next = r'.next := by
  rw [next, if_neg (by simp [ho])]
  split <;> simp_all

theorem next_of_closed (ho : r.isOver = false) (ht : r.take = some (.closed, r')) :
    r.next = (.ended, r') := by
  rw [next, if_neg (by simp [ho])]
  split <;> simp_all

end Reader

namespace Scene

/-- The messages of a partition. -/
def log (s : Scene) (id : Int) : List Message :=
  ((s.cluster.partition? s.reader.topic id).map (·.messages)).getD []

/-- The frames of a partition that the reader has handed out so far. -/
def delivered (s : Scene) (id : Int) : List Bytes :=
  s.taken.filterMap (Item.frameOf? id)

/-- All items of a partition that were ever put on the queue. -/
def itemsOf (s : Scene) (id : Int) : List Item :=
  (s.taken ++ s.reader.queue).filter (·.partition? = some id)

/-- How a worker meets the world at a move. -/
def surroundings (s : Scene) (w : Worker) (size : Nat) (outage : Option Outage) : Surroundings :=
  { s.reader.surroundings s.cluster w size with outage }

/-- The system after a move, if that can be made.  A message can be appended only behind all others
of its partition. -/
def step (s : Scene) : Move → Option Scene
  | .work i size outage =>
    match s.reader.workers[i]? with
    | none => none
    | some w =>
      (s.reader.stepWorker i (s.surroundings w size outage) s.metrics).map fun (reader, metrics) =>
        { s with reader, metrics }
  | .take =>
    if s.reader.isOver then none
    else s.reader.take.map fun (item, reader) => { s with reader, taken := s.taken ++ [item] }
  | .append id offset value =>
    match s.cluster.partition? s.reader.topic id with
    | none => none
    | some p =>
      if p.messages.all (·.offset < offset.getD p.nextOffset) then
        some { s with cluster := s.cluster.update s.reader.topic id (·.append offset value) }
      else none

/-- The system after several moves, if they can be made. -/
def run (s : Scene) (moves : List Move) : Option Scene :=
  moves.foldlM step s

@[simp] theorem run_nil (s : Scene) : s.run [] = some s := rfl

theorem run_cons (s : Scene) (m : Move) (moves : List Move) :
    s.run (m :: moves) = (s.step m).bind (·.run moves) := rfl

theorem run_append (s : Scene) (moves more : List Move) :
    s.run (moves ++ more) = (s.run moves).bind (·.run more) :=
  List.foldlM_append

/-- What is kept by each move is kept by a run. -/
theorem run_induction {P : Scene → Prop} {ok : Move → Prop} {s s' : Scene} {moves : List Move}
    (hstep : ∀ s m s', P s → ok m → s.step m = some s' → P s') (hs : P s)
    (hok : ∀ m ∈ moves, ok m) (h : s.run moves = some s') : P s' :=
  foldlM_induction hstep hs hok h

/-! ## What each move leads to -/

/-- A poll hands out messages from the place of the consumer on. -/
theorem surroundings_batch (s : Scene) (w : Worker) (size : Nat) (outage : Option Outage)
    {c : Consumer} (hc : w.consumer = some c) :
    (s.surroundings w size outage).batch =
      (Message.upFrom (s.log w.cursor.partition) c.offset).take size := by
  rw [surroundings, Reader.surroundings, log]
  cases hp : s.cluster.partition? s.reader.topic w.cursor.partition with
  | none => simp [hc, Message.upFrom]
  | some p => simp [hc, Message.upFrom, Partition.fetch]

@[simp] theorem surroundings_outage (s : Scene) (w : Worker) (size : Nat)
    (outage : Option Outage) : (s.surroundings w size outage).outage = outage := rfl

@[simp] theorem surroundings_stopping (s : Scene) (w : Worker) (size : Nat)
    (outage : Option Outage) : (s.surroundings w size outage).stopping = s.reader.stopping := rfl

@[simp] theorem surroundings_hasRoom (s : Scene) (w : Worker) (size : Nat)
    (outage : Option Outage) : (s.surroundings w size outage).hasRoom = s.reader.hasRoom := rfl

/-- The step of a worker changes that worker, and adds to the queue and to the counters what it
brings about. -/
theorem step_work_eq_some {s s' : Scene} {i size : Nat} {outage : Option Outage} :
    s.step (.work i size outage) = some s' ↔
      ∃ w w' e, s.reader.workers[i]? = some w ∧
        w.step s.reader.job (s.surroundings w size outage) = some (w', e) ∧
        s' = { s with
          reader := { s.reader with
            workers := s.reader.workers.set i w'
            queue := s.reader.queue ++ e.put.toList
            created := if w.phase = .creating then s.reader.created + 1 else s.reader.created }
          metrics := s.metrics.incrementAll e.count.toList } := by
  rw [step]
  cases hw : s.reader.workers[i]? with
  | none => simp
  | some w =>
      simp only [hw, Reader.stepWorker, Option.map_map, Option.map_eq_some_iff, Option.some.injEq,
        exists_and_left, exists_eq_left', Prod.exists, Function.comp_apply]
      constructor
      · rintro ⟨w', e, h, rfl⟩
        exact ⟨w', e, h, rfl⟩
      · rintro ⟨w', e, h, rfl⟩
        exact ⟨w', e, h, rfl⟩

/-- The reader takes the first item of the queue. -/
theorem step_take_eq_some {s s' : Scene} :
    s.step .take = some s' ↔
      s.reader.isOver = false ∧ ∃ item queue, s.reader.queue = item :: queue ∧
        s' = { s with
          reader := { s.reader with
            queue
            markers := s.reader.markers + if item.isDone then 1 else 0
            exhausted := s.reader.exhausted || item = .closed }
          taken := s.taken ++ [item] } := by
  rw [step]
  cases ho : s.reader.isOver with
  | true => simp
  | false =>
      simp only [Bool.false_eq_true, if_false, Option.map_eq_some_iff, Prod.exists,
        Reader.take_eq_some, true_and]
      constructor
      · rintro ⟨item, r, ⟨queue, hq, rfl⟩, rfl⟩
        exact ⟨item, queue, hq, rfl⟩
      · rintro ⟨item, queue, hq, rfl⟩
        exact ⟨item, _, ⟨queue, hq, rfl⟩, rfl⟩

/-- A message is appended to one log. -/
theorem step_append_eq_some {s s' : Scene} {id : Int} {offset : Option Int}
    {value : Option Bytes} :
    s.step (.append id offset value) = some s' ↔
      ∃ p, s.cluster.partition? s.reader.topic id = some p ∧
        (∀ m ∈ p.messages, m.offset < offset.getD p.nextOffset) ∧
        s' = { s with cluster := s.cluster.update s.reader.topic id (·.append offset value) } := by
  rw [step]
  cases hp : s.cluster.partition? s.reader.topic id with
  | none => simp
  | some p =>
      simp only [List.all_eq_true, decide_eq_true_eq, Option.some.injEq, exists_eq_left',
        Option.ite_none_right_eq_some]
      exact and_congr_right fun _ => eq_comm

/-- The logs after a message has been appended to one of them. -/
theorem log_append {s : Scene} {id : Int} {p : Partition} (offset : Option Int)
    (value : Option Bytes) (hp : s.cluster.partition? s.reader.topic id = some p) (id' : Int) :
    ({ s with cluster := s.cluster.update s.reader.topic id (·.append offset value) } : Scene).log
        id' =
      if id' = id then s.log id' ++ [⟨offset.getD p.nextOffset, value⟩] else s.log id' := by
  rw [log, log]
  simp only
  rw [Cluster.partition?_update (·.append offset value) (fun _ => rfl) hp]
  by_cases hid : id' = id
  · subst hid
    simp [hp, Partition.append]
  · simp [hid]

end Scene

end LogRelay
