import LogRelay.Proofs.Reading.Consumption
import LogRelay.Proofs.Reading.Delivery
/-!
# What has been handed out at each moment

As long as a reader is not closed, and whatever fails, the frames of a partition that it has handed
out are those of the first records that are asked for: of the messages from where reading starts on,
in the order of their offsets, none is left out in front of one that has been handed out, none comes
twice, and none comes that was not asked for.  A message that cannot be dealt with does not spoil
this, since its worker looks at nothing behind it.

## Main definitions

* `Job.Begins`: frames are those of the first records that are asked for.
* `Worker.IsClean`: a worker has looked at nothing behind a message that cannot be dealt with.
* `Scene.IsClean`: all workers are clean.

## Main statements

* `isClean_of_transition`: a step of a worker keeps it clean.
* `isClean_run`: every run keeps all workers clean.
* `exists_run_of_next`: the next frame is the one that the reader comes to by taking items.
* `delivered_begins`: what has been handed out at each moment.
-/
namespace LogRelay

open Message

namespace Job

variable {j : Job} {log : List Message} {frames : List Bytes}

/-- The frames are those of the first records that are asked for among the messages of a log, each
once and in their order. -/
def Begins (j : Job) (log : List Message) (frames : List Bytes) : Prop :=
  List.Forall₂ (fun r frame => Frame.encode r.toEntry = .ok frame)
    ((j.wanted log).take frames.length) frames

theorem wanted_append (j : Job) (log rest : List Message) :
    j.wanted (log ++ rest) = j.wanted log ++ j.wanted rest := by
  simp [wanted]

/-- What begins a log begins it also when further messages come. -/
theorem Begins.append (h : j.Begins log frames) (rest : List Message) :
    j.Begins (log ++ rest) frames := by
  have hlen := h.length_eq
  rw [List.length_take] at hlen
  rw [Begins, wanted_append, List.take_append_of_le_length (by omega)]
  exact h

/-- The first ones of some frames that begin a log begin it too. -/
theorem Begins.of_append {rest : List Bytes} (h : j.Begins log (frames ++ rest)) :
    j.Begins log frames := by
  have hlen : frames.length ≤ (frames ++ rest).length := by simp
  have htake := List.forall₂_take frames.length h
  rwa [List.take_take, Nat.min_eq_left hlen, List.take_left] at htake

/-- If all messages can be dealt with, the survivors begin the log. -/
theorem begins_survivors (hv : ∀ m ∈ log, j.isFatal m = false) : j.Begins log (j.survivors log) := by
  have hall := forall₂_survivors hv
  rw [Begins, ← hall.length_eq, List.take_length]
  exact hall

end Job

namespace Worker

variable {j : Job} {s : Surroundings} {w w' : Worker} {e : Effect} {log : List Message}

/-- A worker has looked at no message that cannot be dealt with, but perhaps the last one, because of
which it leaves. -/
def IsClean (w : Worker) (j : Job) (log : List Message) : Prop :=
  (∀ m ∈ w.seen log, j.isFatal m = false) ∨
    w.IsLeaving ∧ ∃ front m, w.seen log = front ++ [m] ∧
      (∀ n ∈ front, j.isFatal n = false) ∧ j.isFatal m = true

/-- A worker that does not leave has met no message that cannot be dealt with. -/
theorem IsClean.isFatal_seen (hc : w.IsClean j log) (hl : ¬ w.IsLeaving) :
    ∀ m ∈ w.seen log, j.isFatal m = false :=
  hc.resolve_right fun h => hl h.1

/-- A step that looks at no message. -/
theorem IsClean.congr (hc : w.IsClean j log) (hcur : w'.cursor = w.cursor)
    (hpos : w'.position = w.position) (hl : w.IsLeaving → w'.IsLeaving) : w'.IsClean j log := by
  have hseen : w'.seen log = w.seen log := by rw [seen, seen, hcur, hpos]
  rw [IsClean, hseen]
  exact hc.imp_right (And.imp_left hl)

/-- A step that looks at a message with which a worker can deal. -/
theorem IsClean.look (hc : w.IsClean j log) (hinc : IsIncreasing log) (ht : w.Tracks log)
    {m : Message} {batch : List Message} (hp : w.phase = .handling (m :: batch))
    (hcur : w'.cursor = w.cursor) (hpos : w'.position = m.offset + 1)
    (hm : j.isFatal m = false) : w'.IsClean j log := by
  obtain ⟨-, -, hseen, -⟩ := ht.next hinc hp
  left
  rw [seen, hcur, hpos, hseen]
  intro n hn
  rcases List.mem_append.1 hn with hn | hn
  · exact hc.isFatal_seen (by simp [IsLeaving, hp]) n hn
  · rw [List.mem_singleton.1 hn]
    exact hm

/-- A step of a worker keeps it clean, whether something fails or not. -/
theorem isClean_of_transition (h : Transition j s w w' e) (hinc : IsIncreasing log)
    (ht : w.Tracks log) (hc : w.IsClean j log) : w'.IsClean j log := by
  have hleaving (hl : w.IsLeaving) : w'.IsLeaving := (isLeaving_of_transition h hl).1
  cases h with
  | skip hp hf hv => exact hc.look hinc ht hp rfl rfl hv
  | keep hp hv => exact hc.look hinc ht hp rfl rfl (congrArg Verdict.isFatal hv)
  | giveUp hp hv =>
      obtain ⟨-, -, hseen, -⟩ := ht.next hinc hp
      exact .inr ⟨by simp [IsLeaving], _, _, hseen,
        hc.isFatal_seen (by simp [IsLeaving, hp]), hv⟩
  | _ => exact hc.congr rfl rfl hleaving

/-- A longer log does not spoil it. -/
theorem IsClean.append {m : Message} (hc : w.IsClean j log) (ht : w.Tracks log)
    (hm : ∀ n ∈ log, n.offset < m.offset) : w.IsClean j (log ++ [m]) := by
  rw [IsClean, ht.seen_append hm]
  exact hc

/-- The frames of what a clean worker has looked at begin what there is to be looked at. -/
theorem IsClean.begins_survivors (hc : w.IsClean j log) (ht : w.Tracks log)
    (hinc : IsIncreasing log) :
    j.Begins (upFrom log w.cursor.start) (j.survivors (w.seen log)) := by
  rw [← within_append_upFrom hinc ht.start_le]
  rcases hc with hclean | ⟨-, front, m, hseen, hfront, hm⟩
  · exact (Job.begins_survivors hclean).append _
  · have hrange : within log w.cursor.start w.position = front ++ [m] := hseen
    rw [hseen, hrange, Job.survivors_append, j.survivors_of_isFatal hm, List.append_nil,
      List.append_assoc]
    exact (Job.begins_survivors hfront).append _

end Worker

namespace Scene

/-- The reader is sound, and none of its workers has looked at anything behind a message that cannot be
dealt with. -/
structure IsClean (s : Scene) : Prop extends s.IsSound where
  clean : s.All fun w log _ => w.IsClean s.reader.job log

variable {s s' : Scene}

/-- Each move keeps the workers clean. -/
theorem IsClean.step {m : Move} (hs : s.IsClean) (h : s.step m = some s') : s'.IsClean where
  toIsSound := hs.toIsSound.step h
  clean := by
    rw [job_step h]
    refine hs.clean.step hs.toIsOpen h ?_ ?_
    · intro i size outage _ w hw w' e htr _ hc
      exact Worker.isClean_of_transition htr (hs.increasing _) (hs.tracks w hw) hc
    · intro w hw n hn _ hc
      exact hc.append (hs.tracks w hw) hn

/-- Every run keeps the workers clean. -/
theorem isClean_run {moves : List Move} (hs : s.IsClean) (h : s.run moves = some s') : s'.IsClean :=
  run_induction (fun _ _ _ hs (_ : True) h => hs.step h) hs (fun _ _ => trivial) h

/-- The frames of a worker's partition that have been handed out are the first ones of those that it
has put on the queue. -/
theorem exists_delivered_append (hs : s.IsSound) {w : Worker} (hw : w ∈ s.reader.workers) :
    ∃ rest, s.delivered w.cursor.partition ++ rest =
      s.reader.job.survivors (w.seen (s.log w.cursor.partition)) :=
  ⟨_, delivered_append_queue hs hw⟩

/-- The next frame that a reader hands out is the one that it comes to by taking items. -/
theorem exists_run_of_next {bs : Bytes} (h : s.reader.next.1 = .frame bs) :
    ∃ moves s' id, s.run moves = some s' ∧ (∀ k, s'.log k = s.log k) ∧
      s'.delivered id = s.delivered id ++ [bs] := by
  obtain ⟨cluster, r, metrics, taken⟩ := s
  induction r using Reader.next.induct generalizing taken with
  | case1 r ho =>
      rw [Reader.next_of_isOver ho] at h
      cases h
  | case2 r ho ht =>
      rw [Reader.next_of_queue_eq_nil (by simpa using ho) (Reader.take_eq_none.1 ht)] at h
      cases h
  | case3 r ho id bs' r' ht =>
      rw [Reader.next_of_frame (by simpa using ho) ht] at h
      obtain rfl : bs' = bs := by simpa using h
      have hstep : step ⟨cluster, r, metrics, taken⟩ .take =
          some ⟨cluster, r', metrics, taken ++ [.frame id bs']⟩ := by
        simp [step, ho, ht]
      refine ⟨[.take], _, id, by rw [run_cons, hstep]; rfl, fun k => log_take hstep k, ?_⟩
      simp [delivered, Item.frameOf?]
  | case4 r ho id r' ht ih =>
      have hstep : step ⟨cluster, r, metrics, taken⟩ .take =
          some ⟨cluster, r', metrics, taken ++ [.done id]⟩ := by
        simp [step, ho, ht]
      rw [Reader.next_of_done (by simpa using ho) ht] at h
      obtain ⟨moves, s', id', hrun, hlog, hdelivered⟩ := ih (taken ++ [.done id]) h
      refine ⟨.take :: moves, s', id', by rw [run_cons, hstep]; exact hrun, ?_, ?_⟩
      · exact fun k => (hlog k).trans (log_take hstep k)
      · rw [hdelivered]
        simp [delivered, Item.frameOf?]
  | case5 r ho r' ht =>
      rw [Reader.next_of_closed (by simpa using ho) ht] at h
      cases h

/-- A reader that has just been opened has clean workers. -/
theorem isClean_opened {c : Cluster} {topic : Json} {job : Job} {capacity : Int} {r : Reader}
    (hopen : Reader.opened c topic job capacity = .ok r)
    (hids : ((c.partitions topic).map (·.id)).Nodup)
    (hinc : ∀ p ∈ c.partitions topic, IsIncreasing p.messages) (m : Metrics) :
    (opened c r m).IsClean := by
  rw [Reader.opened_eq_ok hopen]
  refine ⟨isSound_ofCursors (nodup_cursors hids _) hinc, ?_⟩
  intro w hw
  obtain ⟨cursor, -, rfl⟩ := List.mem_map.1 hw
  left
  simp [Worker.ofCursor, Worker.seen, within_self]

/-- What has been handed out of a partition begins its log from where reading starts on. -/
theorem begins_of_run {c : Cluster} {topic : Json} {job : Job} {capacity : Int} {r : Reader}
    {before : Metrics} {moves : List Move}
    (hopen : Reader.opened c topic job capacity = .ok r)
    (hids : ((c.partitions topic).map (·.id)).Nodup)
    (hinc : ∀ p ∈ c.partitions topic, IsIncreasing p.messages)
    (hrun : (opened c r before).run moves = some s) {p : Partition}
    (hp : p ∈ c.partitions topic) :
    job.Begins (upFrom (s.log p.id) (Reader.cursor job.request.tail p).start)
      (s.delivered p.id) := by
  have hs := isClean_run (isClean_opened hopen hids hinc before) hrun
  obtain ⟨w, hw, hcursor⟩ := exists_worker hopen hrun hp
  have hid : w.cursor.partition = p.id := by rw [hcursor]; rfl
  have hbegins := (hs.clean w hw).begins_survivors (hs.tracks w hw) (hs.increasing _)
  obtain ⟨rest, hrest⟩ := exists_delivered_append hs.toIsSound hw
  rw [← hrest, job_of_opened hopen hrun, hid, hcursor] at hbegins
  exact hbegins.of_append

/-- **What a reader has handed out at each moment.**  In whatever order the workers and the reader move,
how much polls hand out, what is appended and what fails, as long as the reader is not closed: the
frames of each partition that have been handed out are those of the first records that are asked for,
among its messages from where reading starts on and in the order of their offsets; so they are with
the frame that the reader hands out next; and of other partitions there are none. -/
theorem delivered_begins {c : Cluster} {topic : Json} {job : Job} {capacity : Int} {r : Reader}
    (hopen : Reader.opened c topic job capacity = .ok r)
    (hids : ((c.partitions topic).map (·.id)).Nodup)
    (hinc : ∀ p ∈ c.partitions topic, IsIncreasing p.messages)
    {before : Metrics} {moves : List Move} (hrun : (opened c r before).run moves = some s) :
    (∀ p ∈ c.partitions topic,
      (IsIncreasing (s.log p.id) ∧ ∃ later, s.log p.id = p.messages ++ later) ∧
        job.Begins (upFrom (s.log p.id) (Reader.cursor job.request.tail p).start)
          (s.delivered p.id)) ∧
      (∀ id, id ∉ (c.partitions topic).map (·.id) → s.delivered id = []) ∧
        ∀ bs, s.reader.next.1 = .frame bs → ∃ p ∈ c.partitions topic,
          job.Begins (upFrom (s.log p.id) (Reader.cursor job.request.tail p).start)
            (s.delivered p.id ++ [bs]) := by
  have hs := isClean_run (isClean_opened hopen hids hinc before) hrun
  refine ⟨?_, ?_, ?_⟩
  · intro p hp
    obtain ⟨later, hlater⟩ := log_run hrun p.id
    rw [log_opened hopen hids hp] at hlater
    exact ⟨⟨hs.increasing p.id, later, hlater⟩, begins_of_run hopen hids hinc hrun hp⟩
  · intro id hid
    apply delivered_eq_nil hs.toIsSound
    intro hmem
    exact hid (mem_ids_of_mem_partitions hopen hrun hmem)
  · intro bs hbs
    obtain ⟨more, s', id, hmore, hlog, hnext⟩ := exists_run_of_next hbs
    have hrun' : (opened c r before).run (moves ++ more) = some s' := by
      rw [run_append, hrun]
      exact hmore
    have hs' := isClean_run hs hmore
    by_cases hid : id ∈ (c.partitions topic).map (·.id)
    · obtain ⟨p, hp, rfl⟩ := List.mem_map.1 hid
      refine ⟨p, hp, ?_⟩
      rw [← hnext, ← hlog]
      exact begins_of_run hopen hids hinc hrun' hp
    · have hnil := delivered_eq_nil hs'.toIsSound fun hmem =>
        hid (mem_ids_of_mem_partitions hopen hrun' hmem)
      rw [hnext] at hnil
      simp at hnil

/-- A record that is asked for lies behind a message without a record and a gap in the offsets; its
frame is handed out, and then the worker fails. -/
theorem delivered_begins_gap :
    ∃ (c : Cluster) (job : Job) (r : Reader) (moves : List Move) (s : Scene),
      Reader.opened c (.str "t") job 1 = .ok r ∧ (opened c r {}).run moves = some s ∧
        s.delivered 0 = [[0, 0, 0, 4, 26, 2, 120, 10]] ∧
          job.Begins (upFrom (s.log 0) 0) (s.delivered 0) := by
  let value : Bytes := Message.letter "1970-01-01T00:00:00Z"
  let p : Partition := { id := 0, messages := [⟨0, none⟩, ⟨2, some value⟩] }
  let c : Cluster := { topics := [(.str "t", [p])] }
  let job : Job := { containerId := .str "c", request := {}, nesting := 100 }
  let r : Reader := .ofCursors (.str "t") job 1 [⟨0, 0, 3⟩]
  have hparts : c.partitions (.str "t") = [p] := rfl
  have hopen : Reader.opened c (.str "t") job 1 = .ok r := by
    rw [Reader.opened_of_calm job 1 rfl rfl (by simp [hparts]), hparts, List.mergeSort_singleton]
    rfl
  let moves : List Move := List.replicate 8 (.work 0 2 none) ++
    [.take, .work 0 2 none, .work 0 2 none, .work 0 2 (some ⟨.broker, []⟩), .work 0 2 none]
  have hvalue : ((opened c r {}).run moves).map (·.delivered 0) =
      some [[0, 0, 0, 4, 26, 2, 120, 10]] := by decide +kernel
  obtain ⟨s, hrun, hdelivered⟩ := Option.map_eq_some_iff.1 hvalue
  have hinc : IsIncreasing p.messages := by simp [IsIncreasing, p]
  obtain ⟨hall, -, -⟩ := delivered_begins hopen (by simp [hparts]) (by simpa [hparts] using hinc) hrun
  exact ⟨c, job, r, moves, s, hopen, hrun, hdelivered, (hall p (by simp [hparts])).2⟩

end Scene

end LogRelay
