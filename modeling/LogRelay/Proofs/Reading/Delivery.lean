import LogRelay.Proofs.Reading.Demand
import LogRelay.Proofs.Reading.Ending
import Mathlib.Algebra.Order.BigOperators.Group.List
import Mathlib.Algebra.Order.Group.Nat
/-!
# What a read comes to

A reader that does not wait for later messages, opened on a topic and used in any way in which nothing
fails, comes to its end.  Of each partition it has then handed out the frames of the messages between
where reading starts and the end at the time of opening, up to the first one that cannot be dealt
with, and it has counted what they come to.  That is what was asked for just if no message in between
is one that cannot be dealt with.

## Main definitions

* `Partition.toRead`: the messages of a partition that are to be read.
* `Scene.IsOutcome`: what a read comes to.
* `Scene.IsExact`: all that was asked for has been handed out and counted, and nothing else.

## Main statements

* `isOutcome_of_ended`: what a read has come to at its end.
* `isExact_iff`: when that is what was asked for.
-/
namespace LogRelay

open Message

/-- The messages of a partition that are to be read if `tail` of them are asked for. -/
def Partition.toRead (p : Partition) (tail : Int) : List Message :=
  (Reader.cursor tail p).range p.messages

namespace Cluster

/-- A partition is found by its number if that is not also the number of another one. -/
theorem partition?_of_mem {c : Cluster} {topic : Json} {p : Partition}
    (hids : ((c.partitions topic).map (·.id)).Nodup) (hp : p ∈ c.partitions topic) :
    c.partition? topic p.id = some p := by
  rw [partition?]
  cases hf : (c.partitions topic).find? fun q => q.id = p.id with
  | none =>
      have := List.find?_eq_none.1 hf p hp
      simp at this
  | some q =>
      have hq := List.mem_of_find?_eq_some hf
      have hid : q.id = p.id := by simpa using List.find?_some hf
      rw [List.inj_on_of_nodup_map hids hq hp hid]

end Cluster

namespace Reader

/-- A reader can be opened on any topic with partitions if nothing fails. -/
theorem opened_of_calm {c : Cluster} {topic : Json} (job : Job) (capacity : Int)
    (hd : c.disturbances = []) (hk : topic.isKey = true) (hps : c.partitions topic ≠ []) :
    opened c topic job capacity = .ok (ofCursors topic job capacity
      (((c.partitions topic).mergeSort fun p q => p.id ≤ q.id).map (cursor job.request.tail))) := by
  have hout (a : Activity) : c.outage? a none 0 = none := by
    simp [Cluster.outage?, hd]
  rw [opened, plan, hout, cursors, hout]
  simp only [hk, hout, Bool.not_true, Bool.false_eq_true, if_false]
  rfl

/-- A reader of a topic with one partition. -/
theorem opened_of_single {c : Cluster} {topic : Json} {p : Partition} (job : Job) (capacity : Int)
    (hd : c.disturbances = []) (hk : topic.isKey = true) (hp : c.partitions topic = [p]) :
    opened c topic job capacity =
      .ok (ofCursors topic job capacity [cursor job.request.tail p]) := by
  rw [opened_of_calm job capacity hd hk (by simp [hp]), hp, List.mergeSort_singleton]
  rfl

/-- A reader that could be opened. -/
theorem opened_eq_ok {c : Cluster} {topic : Json} {job : Job} {capacity : Int} {r : Reader}
    (h : opened c topic job capacity = .ok r) :
    r = ofCursors topic job capacity
      (((c.partitions topic).mergeSort fun p q => p.id ≤ q.id).map (cursor job.request.tail)) := by
  have hplan : ∃ cursors, (plan c topic job.request.tail).cursors = .ok cursors ∧
      r = ofCursors topic job capacity cursors := by
    rw [opened] at h
    cases hc : (plan c topic job.request.tail).cursors with
    | error f => rw [hc] at h; cases h
    | ok cursors => rw [hc] at h; cases h; exact ⟨cursors, rfl, rfl⟩
  obtain ⟨cs, hcs, rfl⟩ := hplan
  have hcursors : cursors c topic job.request.tail = .ok cs := by
    rw [plan] at hcs
    split at hcs
    · cases hcs
    · simp only at hcs
      split at hcs
      · cases hcs
      · exact hcs
  rw [cursors] at hcursors
  split at hcursors
  · cases hcursors
  · split_ifs at hcursors
    split at hcursors
    · cases hcursors
    · split at hcursors
      · cases hcursors
      · rw [Except.ok.inj hcursors]

end Reader

namespace Scene

/-- The system when a reader has just been opened. -/
def opened (c : Cluster) (r : Reader) (m : Metrics) : Scene :=
  { cluster := c, reader := r, metrics := m }

/-- What a read of the given partitions comes to if the counters stood at `before`. -/
structure IsOutcome (s : Scene) (before : Metrics) (ps : List Partition) : Prop where
  frames : ∀ p ∈ ps, s.delivered p.id =
    s.reader.job.survivors (s.reader.job.manageable (p.toRead s.reader.job.request.tail))
  nothing : ∀ id, id ∉ ps.map (·.id) → s.delivered id = []
  counts : ∀ c, s.metrics.count c = before.count c + (ps.map fun p =>
    s.reader.job.tally c (s.reader.job.manageable (p.toRead s.reader.job.request.tail))).sum

/-- All that was asked for has been handed out and counted, and nothing else: the frames of the
records that are asked for, the number of records of other containers, and the number of messages
without a record. -/
structure IsExact (s : Scene) (before : Metrics) (ps : List Partition) : Prop where
  frames : ∀ p ∈ ps, List.Forall₂ (fun r frame => Frame.encode r.toEntry = .ok frame)
    (s.reader.job.wanted (p.toRead s.reader.job.request.tail)) (s.delivered p.id)
  nothing : ∀ id, id ∉ ps.map (·.id) → s.delivered id = []
  dropped : s.metrics.count .dropped = before.count .dropped +
    (ps.map fun p => s.reader.job.foreign (p.toRead s.reader.job.request.tail)).sum
  decodeErrors : s.metrics.count .decodeErrors = before.count .decodeErrors +
    (ps.map fun p => undecodable s.reader.job.nesting (p.toRead s.reader.job.request.tail)).sum

variable {s s' : Scene} {before : Metrics} {ps : List Partition}

/-- A read comes to what was asked for just if there is no message that cannot be dealt with. -/
theorem isExact_iff (ho : s.IsOutcome before ps) :
    s.IsExact before ps ↔ ∀ p ∈ ps, ∀ m ∈ p.toRead s.reader.job.request.tail,
      ¬ s.reader.job.Overwhelms m.value := by
  constructor
  · intro he p hp m hm hover
    rcases Job.not_demand_of_isFatal hm ((judge_isFatal_iff _ _).2 hover) with hlt | hno
    · have hcount := ho.counts .decodeErrors
      rw [he.decodeErrors] at hcount
      have hsum := List.sum_lt_sum
        (fun q : Partition => s.reader.job.tally .decodeErrors
          (s.reader.job.manageable (q.toRead s.reader.job.request.tail)))
        (fun q => undecodable s.reader.job.nesting (q.toRead s.reader.job.request.tail))
        (fun q _ => (Job.tally_decodeErrors_le _).trans (Job.undecodable_manageable_le _))
        ⟨p, hp, hlt⟩
      omega
    · exact hno _ (he.frames p hp)
  · intro hall
    have hclean : ∀ p ∈ ps, ∀ m ∈ p.toRead s.reader.job.request.tail,
        s.reader.job.isFatal m = false := by
      intro p hp m hm
      rw [← Bool.not_eq_true]
      exact fun hv => hall p hp m hm ((judge_isFatal_iff _ _).1 hv)
    have hself : ∀ p ∈ ps, s.reader.job.manageable (p.toRead s.reader.job.request.tail) =
        p.toRead s.reader.job.request.tail := fun p hp =>
      s.reader.job.manageable_eq_self (hclean p hp)
    refine ⟨?_, ho.nothing, ?_, ?_⟩
    · intro p hp
      rw [ho.frames p hp, hself p hp]
      exact Job.forall₂_survivors (hclean p hp)
    · rw [ho.counts, List.map_congr_left fun p hp => by rw [hself p hp, Job.tally_dropped]]
    · rw [ho.counts, List.map_congr_left fun p hp => by
        rw [hself p hp, Job.tally_decodeErrors (hclean p hp)]]

/-! ## Runs -/

/-- A log only becomes longer. -/
theorem log_run {moves : List Move} (h : s.run moves = some s') (id : Int) :
    ∃ rest, s'.log id = s.log id ++ rest :=
  run_induction (P := fun t => ∃ rest, t.log id = s.log id ++ rest) (s := s)
    (fun t m t' ⟨rest, ht⟩ (_ : True) hstep => by
      rcases log_step hstep id with heq | ⟨n, -, heq⟩
      · exact ⟨rest, by rw [heq, ht]⟩
      · exact ⟨rest ++ [n], by rw [heq, ht, List.append_assoc]⟩)
    ⟨[], by rw [List.append_nil]⟩ (fun _ _ => trivial) h

/-- No run changes what is looked for, and where. -/
theorem cursors_run {moves : List Move} (h : s.run moves = some s') :
    s'.reader.job = s.reader.job ∧
      s'.reader.workers.map (·.cursor) = s.reader.workers.map (·.cursor) :=
  run_induction
    (P := fun t => t.reader.job = s.reader.job ∧
      t.reader.workers.map (·.cursor) = s.reader.workers.map (·.cursor))
    (fun _ _ _ ⟨hj, hc⟩ (_ : True) hstep =>
      ⟨(job_step hstep).trans hj, (cursors_step hstep).trans hc⟩)
    ⟨rfl, rfl⟩ (fun _ _ => trivial) h

/-- No two cursors of a plan are of one partition. -/
theorem nodup_cursors {c : Cluster} {topic : Json} (hids : ((c.partitions topic).map (·.id)).Nodup)
    (tail : Int) : ((((c.partitions topic).mergeSort fun p q => p.id ≤ q.id).map
      (Reader.cursor tail)).map (·.partition)).Nodup := by
  have hperm := List.mergeSort_perm (c.partitions topic) fun p q => p.id ≤ q.id
  rw [List.map_map]
  exact ((hperm.map _).nodup_iff).2 hids

/-- A reader that has just been opened keeps to its ranges. -/
theorem isBounded_opened {c : Cluster} {topic : Json} {job : Job} {capacity : Int} {r : Reader}
    (hopen : Reader.opened c topic job capacity = .ok r) (hf : job.request.follow = false)
    (hids : ((c.partitions topic).map (·.id)).Nodup)
    (hinc : ∀ p ∈ c.partitions topic, IsIncreasing p.messages)
    (hmet : ∀ p ∈ c.partitions topic, (Reader.cursor job.request.tail p).IsMet p.messages)
    (m : Metrics) : (opened c r m).IsBounded := by
  have hperm := List.mergeSort_perm (c.partitions topic) fun p q => p.id ≤ q.id
  rw [Reader.opened_eq_ok hopen]
  refine isBounded_ofCursors hf (nodup_cursors hids _) hinc ?_
  intro cursor hcursor
  obtain ⟨p, hp, rfl⟩ := List.mem_map.1 hcursor
  have hp' := hperm.mem_iff.1 hp
  have hfound : c.partition? topic (Reader.cursor job.request.tail p).partition = some p :=
    Cluster.partition?_of_mem hids hp'
  rw [hfound]
  exact hmet p hp'

/-- The log of a partition when a reader has just been opened. -/
theorem log_opened {c : Cluster} {topic : Json} {job : Job} {capacity : Int} {r : Reader}
    {before : Metrics} (hopen : Reader.opened c topic job capacity = .ok r)
    (hids : ((c.partitions topic).map (·.id)).Nodup) {p : Partition}
    (hp : p ∈ c.partitions topic) : (opened c r before).log p.id = p.messages := by
  rw [Reader.opened_eq_ok hopen]
  simp [log, opened, Reader.ofCursors, Cluster.partition?_of_mem hids hp]

/-- What is to be read of a partition does not change while it is read. -/
theorem range_run {c : Cluster} {topic : Json} {job : Job} {capacity : Int} {r : Reader}
    {before : Metrics} {moves : List Move}
    (hopen : Reader.opened c topic job capacity = .ok r)
    (hids : ((c.partitions topic).map (·.id)).Nodup) {p : Partition}
    (hp : p ∈ c.partitions topic) (hmet : (Reader.cursor job.request.tail p).IsMet p.messages)
    (hrun : (opened c r before).run moves = some s) (hinc : IsIncreasing (s.log p.id)) :
    (Reader.cursor job.request.tail p).range (s.log p.id) = p.toRead job.request.tail := by
  obtain ⟨rest, hrest⟩ := log_run hrun p.id
  rw [hrest, log_opened hopen hids hp] at hinc ⊢
  exact Cursor.range_append hinc hmet

/-- What is looked for is what the reader was opened for. -/
theorem job_of_opened {c : Cluster} {topic : Json} {job : Job} {capacity : Int} {r : Reader}
    {before : Metrics} {moves : List Move}
    (hopen : Reader.opened c topic job capacity = .ok r)
    (hrun : (opened c r before).run moves = some s) : s.reader.job = job := by
  rw [(cursors_run hrun).1, Reader.opened_eq_ok hopen]
  rfl

/-- The workers of a reader, by the partitions that they read. -/
theorem cursors_of_opened {c : Cluster} {topic : Json} {job : Job} {capacity : Int} {r : Reader}
    {before : Metrics} {moves : List Move}
    (hopen : Reader.opened c topic job capacity = .ok r)
    (hrun : (opened c r before).run moves = some s) :
    (s.reader.workers.map (·.cursor)).Perm
      ((c.partitions topic).map (Reader.cursor job.request.tail)) := by
  rw [(cursors_run hrun).2, Reader.opened_eq_ok hopen]
  simp only [opened, Reader.ofCursors, List.map_map]
  exact (List.mergeSort_perm _ _).map _

/-- The worker of a partition. -/
theorem exists_worker {c : Cluster} {topic : Json} {job : Job} {capacity : Int}
    {r : Reader} {before : Metrics} {moves : List Move}
    (hopen : Reader.opened c topic job capacity = .ok r)
    (hrun : (opened c r before).run moves = some s) {p : Partition}
    (hp : p ∈ c.partitions topic) :
    ∃ w ∈ s.reader.workers, w.cursor = Reader.cursor job.request.tail p :=
  List.mem_map.1 ((cursors_of_opened hopen hrun).mem_iff.2 (List.mem_map_of_mem hp))

/-- Only partitions of the topic are read. -/
theorem mem_ids_of_mem_partitions {c : Cluster} {topic : Json} {job : Job} {capacity : Int}
    {r : Reader} {before : Metrics} {moves : List Move}
    (hopen : Reader.opened c topic job capacity = .ok r)
    (hrun : (opened c r before).run moves = some s) {id : Int} (hid : id ∈ s.reader.partitions) :
    id ∈ (c.partitions topic).map (·.id) := by
  obtain ⟨w, hw, rfl⟩ := List.mem_map.1 hid
  obtain ⟨p, hp, hcursor⟩ :=
    List.mem_map.1 ((cursors_of_opened hopen hrun).mem_iff.1 (List.mem_map_of_mem hw))
  exact List.mem_map.2 ⟨p, hp, by rw [← hcursor]; rfl⟩

/-- A reader that has just been opened has looked at nothing. -/
theorem tally_opened {c : Cluster} {topic : Json} {job : Job} {capacity : Int} {r : Reader}
    (hopen : Reader.opened c topic job capacity = .ok r) (before : Metrics) (k : Counter) :
    (opened c r before).tally k = 0 := by
  rw [Reader.opened_eq_ok hopen, tally, List.sum_eq_zero_iff_forall_eq_nat]
  intro n hn
  obtain ⟨w, hw, rfl⟩ := List.mem_map.1 hn
  obtain ⟨cursor, -, rfl⟩ := List.mem_map.1 hw
  simp [Worker.ofCursor, Worker.seen, within_self]

/-- What a read has come to when the reader ends. -/
theorem isOutcome_of_ended {c : Cluster} {topic : Json} {job : Job} {capacity : Int} {r : Reader}
    (hopen : Reader.opened c topic job capacity = .ok r) (hf : job.request.follow = false)
    (hids : ((c.partitions topic).map (·.id)).Nodup)
    (hinc : ∀ p ∈ c.partitions topic, IsIncreasing p.messages)
    (hmet : ∀ p ∈ c.partitions topic, (Reader.cursor job.request.tail p).IsMet p.messages)
    {before : Metrics} {moves : List Move} (hm : ∀ m ∈ moves, m.IsFaultless)
    (hrun : (opened c r before).run moves = some s) (hend : s.reader.next.1 = .ended) :
    s.IsOutcome before (c.partitions topic) := by
  have hb₀ := isBounded_opened hopen hf hids hinc hmet before
  have hb := isBounded_run hb₀ hm hrun
  have hcursors := cursors_of_opened hopen hrun
  have hjob := job_of_opened hopen hrun
  have hrange (p : Partition) (hp : p ∈ c.partitions topic) :=
    range_run hopen hids hp (hmet p hp) hrun (hb.increasing p.id)
  have hleft : ∀ w ∈ s.reader.workers, w.IsLeaving := by
    intro w hw
    simp [Worker.IsLeaving, (delivered_of_ended hb.toIsSound hend hw).1]
  refine ⟨?_, ?_, ?_⟩
  · intro p hp
    obtain ⟨w, hw, hcursor⟩ := exists_worker hopen hrun hp
    have hid : w.cursor.partition = p.id := by rw [hcursor]; rfl
    obtain ⟨-, hdelivered⟩ := delivered_of_ended hb.toIsSound hend hw
    have hsurvive := (hb.keeps w hw).survivors_seen (hb.tracks w hw) (hb.increasing _) (hleft w hw)
    rw [hid] at hdelivered hsurvive
    rw [hdelivered, hsurvive, hcursor, hjob, hrange p hp]
  · intro id hid
    refine delivered_eq_nil hb.toIsSound fun hmem => hid ?_
    exact mem_ids_of_mem_partitions hopen hrun hmem
  · intro k
    have hcount := count_run hb₀.toIsSound hrun k
    rw [tally_opened hopen, Nat.add_zero] at hcount
    have hseen : s.tally k = ((s.reader.workers.map (·.cursor)).map fun cursor =>
        job.tally k (job.manageable (cursor.range (s.log cursor.partition)))).sum := by
      rw [tally, List.map_map, ← hjob]
      exact congrArg List.sum (List.map_congr_left fun w hw =>
        (hb.keeps w hw).tally_seen (hb.tracks w hw) (hb.increasing _) (hleft w hw) k)
    rw [hcount, hseen, (hcursors.map _).sum_nat, List.map_map, hjob]
    have hsum : ∀ p ∈ c.partitions topic,
        ((fun cursor : Cursor => job.tally k (job.manageable
          (cursor.range (s.log cursor.partition)))) ∘ Reader.cursor job.request.tail) p =
        job.tally k (job.manageable (p.toRead job.request.tail)) := by
      intro p hp
      rw [← hrange p hp]
      rfl
    rw [List.map_congr_left hsum]
    rfl

/-- **A read that does not wait for later messages.**  In whatever order the workers and the reader
move, how much polls hand out, what is appended, and where the queue is bounded: when the reader has
ended, the read has come to the messages of each partition between where reading starts and its end at
the time of opening, up to the first one that cannot be dealt with, and that is exactly what was asked
for just if none of them is such a message.  And the reader does end: from each moment on only so many
moves bring the reading on, and there is one as long as the reader has not ended. -/
theorem read_outcome {c : Cluster} {topic : Json} {job : Job} {capacity : Int} {r : Reader}
    (hopen : Reader.opened c topic job capacity = .ok r) (hf : job.request.follow = false)
    (hids : ((c.partitions topic).map (·.id)).Nodup)
    (hinc : ∀ p ∈ c.partitions topic, IsIncreasing p.messages)
    (hmet : ∀ p ∈ c.partitions topic, (Reader.cursor job.request.tail p).IsMet p.messages)
    {before : Metrics} {moves : List Move} (hm : ∀ m ∈ moves, m.IsFaultless)
    (hrun : (opened c r before).run moves = some s) :
    (s.reader.next.1 = .ended →
      s.IsOutcome before (c.partitions topic) ∧
        (s.IsExact before (c.partitions topic) ↔ ∀ p ∈ c.partitions topic,
          ∀ m ∈ p.toRead job.request.tail, ¬ job.Overwhelms m.value)) ∧
      s.CannotStall := by
  have hb := isBounded_run (isBounded_opened hopen hf hids hinc hmet before) hm hrun
  have hjob := job_of_opened hopen hrun
  refine ⟨?_, cannotStall hb⟩
  intro hend
  have ho := isOutcome_of_ended hopen hf hids hinc hmet hm hrun hend
  exact ⟨ho, hjob ▸ isExact_iff ho⟩

/-- A read of a partition with one message, which has no value: the message is counted. -/
theorem read_outcome_null :
    ∃ (c : Cluster) (job : Job) (r : Reader) (moves : List Move) (s : Scene),
      Reader.opened c (.str "t") job 1 = .ok r ∧ (opened c r {}).run moves = some s ∧
        s.reader.next.1 = .ended ∧ s.metrics.decodeErrors = 1 ∧
          s.IsExact {} (c.partitions (.str "t")) := by
  let p : Partition := { id := 0, messages := [⟨0, none⟩] }
  let c : Cluster := { topics := [(.str "t", [p])] }
  let job : Job := { containerId := .str "c", request := { follow := false }, nesting := 100 }
  let r : Reader := .ofCursors (.str "t") job 1 [⟨0, 0, 1⟩]
  have hparts : c.partitions (.str "t") = [p] := rfl
  have hopen : Reader.opened c (.str "t") job 1 = .ok r := by
    rw [Reader.opened_of_calm job 1 rfl rfl (by simp [hparts]), hparts, List.mergeSort_singleton]
    rfl
  obtain ⟨s, hrun, hover, hcount⟩ : ∃ s, (opened c r {}).run
      (List.replicate 8 (.work 0 1 none) ++ [.take]) = some s ∧ s.reader.isOver = true ∧
        s.metrics.decodeErrors = 1 := ⟨_, rfl, rfl, rfl⟩
  have hend : s.reader.next.1 = .ended := by rw [Reader.next, if_pos hover]
  have hinc : IsIncreasing p.messages := List.pairwise_singleton _ _
  have hmet : (Reader.cursor job.request.tail p).IsMet p.messages :=
    .inr ⟨⟨0, none⟩, List.mem_singleton_self _, rfl⟩
  obtain ⟨hout, -⟩ := read_outcome hopen rfl (by simp [hparts]) (by simpa [hparts] using hinc)
    (by simpa [hparts] using hmet) (by simp [Move.IsFaultless]) hrun
  have hread : p.toRead job.request.tail = [⟨0, none⟩] := by decide
  refine ⟨c, job, r, _, s, hopen, hrun, hend, hcount, (hout hend).2.2 ?_⟩
  simp [hparts, hread, Job.Overwhelms, Record.ofDocument, Record.parse, bind, Except.bind]

end Scene

end LogRelay
