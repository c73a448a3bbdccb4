import LogRelay.Proofs.Reading.Prefix
/-!
# Readers that wait for later messages

A worker that waits for later messages looks at every message from where reading starts on, and hands
each one on once: what has been handed out, what is on the queue, what waits for room, what is in the
worker's hand and what it has not been given yet make up all frames of its partition.  So when the
workers have been given all messages and have nothing in hand, and the queue is empty, all frames have
been handed out.  Such a worker leaves only because something fails.

## Main definitions

* `Worker.HasPolledPast`: a worker has nothing in hand, and polls for messages behind the last one.
* `Worker.IsFaithful`: a worker leaves only because of a message that cannot be dealt with.
* `Scene.IsUnfailed`, `Scene.IsIdle`: no worker has failed, and nothing is left to be done.

## Main statements

* `survivors_upFrom_start`, `delivered_append_pending`: where the frames of a partition are.
* `isFaithful_of_transition`: a step of a worker that nothing fails keeps it faithful.
* `follow_delivers`: what has been handed out by a reader that waits for later messages.
-/
namespace LogRelay

open Message

namespace Worker

variable {j : Job} {s : Surroundings} {w w' : Worker} {e : Effect} {log : List Message}

/-! ## Where the messages of a worker are -/

/-- The worker has nothing in hand, and the place from which it polls is behind the last message. -/
structure HasPolledPast (w : Worker) (log : List Message) : Prop where
  isReading : w.IsReading
  inHand : w.inHand = []
  offered : w.offered = []
  past : ∃ c, w.consumer = some c ∧ ∀ m ∈ log, m.offset < c.offset

/-- The messages from where reading starts on are those that a worker has looked at, those that it has
in hand, and those that it has not been given yet. -/
theorem Tracks.survivors_upFrom_start (ht : w.Tracks log) (hinc : IsIncreasing log)
    (hr : w.IsReading) : ∃ c, w.consumer = some c ∧
      j.survivors (upFrom log w.cursor.start) =
        j.survivors (w.seen log) ++ (j.survivors w.inHand ++ j.survivors (upFrom log c.offset)) := by
  obtain ⟨c, hc, hle, -, hhand⟩ := ht.ahead hr
  refine ⟨c, hc, ?_⟩
  rw [hhand, seen, ← Job.survivors_append, ← Job.survivors_append, within_append_upFrom hinc hle,
    within_append_upFrom hinc ht.start_le]

/-- A worker that has polled past the last message has looked at all of them. -/
theorem HasPolledPast.seen_eq (hp : w.HasPolledPast log) (ht : w.Tracks log)
    (hinc : IsIncreasing log) : w.seen log = upFrom log w.cursor.start := by
  obtain ⟨c, hc, hle, -, hhand⟩ := ht.ahead hp.isReading
  obtain ⟨c', hc', hpast⟩ := hp.past
  obtain rfl : c = c' := Option.some.inj (hc.symm.trans hc')
  have hnone : upFrom log c.offset = [] := by
    rw [List.eq_nil_iff_forall_not_mem]
    intro m hm
    obtain ⟨hlog, hge⟩ := mem_upFrom.1 hm
    have := hpast m hlog
    omega
  calc w.seen log
      = w.seen log ++ (within log w.position c.offset ++ upFrom log c.offset) := by
        rw [hnone, ← hhand, hp.inHand, List.append_nil, List.append_nil]
    _ = upFrom log w.cursor.start := by
        rw [within_append_upFrom hinc hle, seen, within_append_upFrom hinc ht.start_le]

/-! ## Why a worker leaves -/

/-- The worker leaves only because of a message that it has looked at and that cannot be dealt with. -/
def IsFaithful (w : Worker) (j : Job) (log : List Message) : Prop :=
  w.IsLeaving → ∃ m ∈ w.seen log, j.isFatal m = true

theorem isCaughtUp_of_follow (hf : j.request.follow = true) (w : Worker) :
    w.isCaughtUp j = false := by
  simp [isCaughtUp, hf]

/-- A worker that waits for later messages goes on with the rest of the batch. -/
theorem not_isLeaving_proceed (hf : j.request.follow = true) (w : Worker) (batch : List Message) :
    ¬ (w.proceed j batch).IsLeaving := by
  simp [proceed, isCaughtUp_of_follow hf, IsLeaving]

/-- A step of a worker that waits for later messages, and that nothing fails, keeps it faithful. -/
theorem isFaithful_of_transition (h : Transition j s w w' e) (hf : j.request.follow = true)
    (hs : s.stopping = false) (ho : s.outage = none) (hinc : IsIncreasing log)
    (ht : w.Tracks log) (hw : w.IsFaithful j log) : w'.IsFaithful j log := by
  intro hl
  cases h with
  | create | assign | seek | goOn | pollNone | poll | exhaust | keep =>
      simp [IsLeaving, called] at hl
  | skip | offer => exact absurd hl (not_isLeaving_proceed hf _ _)
  | fail _ hout | failPoll _ hout | failClose _ hout =>
      rw [ho] at hout
      cases hout
  | leave hp hc =>
      rw [hs, isCaughtUp_of_follow hf w] at hc
      simp at hc
  | abandon _ hstop | vanish _ hstop =>
      rw [hs] at hstop
      cases hstop
  | giveUp hp hv =>
      obtain ⟨-, -, hseen, -⟩ := ht.next hinc hp
      refine ⟨_, ?_, hv⟩
      rw [seen, hseen]
      exact List.mem_append_right _ (List.mem_singleton_self _)
  | close hp | announce hp => exact hw (by simp [IsLeaving, hp])

end Worker

namespace Scene

variable {s s' : Scene}

/-- No worker has failed: none of them leaves. -/
def IsUnfailed (s : Scene) : Prop :=
  ∀ w ∈ s.reader.workers, ¬ w.IsLeaving

/-- All workers have polled past the last message of their partition, and the queue is empty. -/
structure IsIdle (s : Scene) : Prop where
  past : s.All fun w log _ => w.HasPolledPast log
  queue : s.reader.queue = []

/-! ## Where the frames of a partition are -/

/-- The frames of a partition: those that have been handed out, those that are on the queue, the one
that waits for room, and those of the messages in its worker's hand and of the messages that the
worker has not been given yet. -/
theorem delivered_append_pending (hs : s.IsSound) {w : Worker} (hw : w ∈ s.reader.workers)
    (hr : w.IsReading) : ∃ c, w.consumer = some c ∧
      s.delivered w.cursor.partition ++
          (s.reader.queue.filterMap (Item.frameOf? w.cursor.partition) ++ w.offered) ++
          (s.reader.job.survivors w.inHand ++
            s.reader.job.survivors (upFrom (s.log w.cursor.partition) c.offset)) =
        s.reader.job.survivors (upFrom (s.log w.cursor.partition) w.cursor.start) := by
  obtain ⟨c, hc, hall⟩ :=
    (hs.tracks w hw).survivors_upFrom_start (j := s.reader.job) (hs.increasing _) hr
  exact ⟨c, hc, by rw [delivered_append_queue hs hw, hall]⟩

/-- When nothing is left to be done, all frames of a partition have been handed out. -/
theorem delivered_of_isIdle (hs : s.IsSound) (hi : s.IsIdle) {w : Worker}
    (hw : w ∈ s.reader.workers) : s.delivered w.cursor.partition =
      s.reader.job.survivors (upFrom (s.log w.cursor.partition) w.cursor.start) := by
  have hpast := hi.past w hw
  rw [← hpast.seen_eq (hs.tracks w hw) (hs.increasing _), ← delivered_append_queue hs hw, hi.queue,
    hpast.offered]
  simp

/-- A reader none of whose workers has failed finds only frames on its queue. -/
theorem isDone_eq_false_of_isUnfailed (hs : s.IsSound) (hu : s.IsUnfailed) {item : Item}
    (hitem : item ∈ s.taken ++ s.reader.queue) : item.isDone = false := by
  cases item with
  | frame | closed => rfl
  | done id =>
      obtain ⟨w, hw, rfl⟩ := List.mem_map.1 (mem_partitions_of_done hs hitem)
      obtain ⟨frames, marks, hitems, -, hmarks⟩ := hs.feeds w hw
      have hmem : Item.done w.cursor.partition ∈ s.itemsOf w.cursor.partition :=
        List.mem_filter.2 ⟨hitem, by simp [Item.partition?]⟩
      rcases hmarks with rfl | ⟨-, hended⟩
      · rw [hitems] at hmem
        simp at hmem
      · exact absurd (by simp [Worker.IsLeaving, hended]) (hu w hw)

/-- Asking for a frame in vain changes nothing as long as no worker has failed. -/
theorem next_eq_waits (hs : s.IsSound) (hu : s.IsUnfailed) (h : s.reader.next.1 = .waits) :
    s.reader.next = (.waits, s.reader) := by
  have ho : s.reader.isOver = false := by
    by_contra ho
    rw [Reader.next_of_isOver (by simpa using ho)] at h
    cases h
  cases hq : s.reader.queue with
  | nil => exact Reader.next_of_queue_eq_nil ho hq
  | cons item queue =>
      have hdone :=
        isDone_eq_false_of_isUnfailed hs hu (List.mem_append_right _ (hq ▸ List.mem_cons_self))
      have ht := Reader.take_eq_some.2 ⟨queue, hq, rfl⟩
      cases item with
      | frame id bs => rw [Reader.next_of_frame ho ht] at h; cases h
      | done id => cases hdone
      | closed => rw [Reader.next_of_closed ho ht] at h; cases h

/-! ## Runs -/

/-- The workers of a reader that waits for later messages are clean and faithful. -/
structure IsFollowing (s : Scene) : Prop extends s.IsClean where
  follow : s.reader.job.request.follow = true
  faithful : s.All fun w log _ => w.IsFaithful s.reader.job log

/-- Each move at which nothing fails keeps the workers faithful. -/
theorem IsFollowing.step {m : Move} (hs : s.IsFollowing) (hm : m.IsFaultless)
    (h : s.step m = some s') : s'.IsFollowing where
  toIsClean := hs.toIsClean.step h
  follow := job_step h ▸ hs.follow
  faithful := by
    rw [job_step h]
    refine hs.faithful.step hs.toIsOpen h ?_ ?_
    · rintro i size outage rfl w hw w' e htr _ hfaithful
      exact Worker.isFaithful_of_transition htr hs.follow hs.going hm (hs.increasing _)
        (hs.tracks w hw) hfaithful
    · intro w hw n hn _ hfaithful
      rw [Worker.IsFaithful, (hs.tracks w hw).seen_append hn]
      exact hfaithful

/-- A run in which nothing fails keeps the workers faithful. -/
theorem isFollowing_run {moves : List Move} (hs : s.IsFollowing)
    (hm : ∀ m ∈ moves, m.IsFaultless) (h : s.run moves = some s') : s'.IsFollowing :=
  run_induction (fun _ _ _ hs hm h => hs.step hm h) hs hm h

/-- A reader that has just been opened, and waits for later messages, has faithful workers. -/
theorem isFollowing_opened {c : Cluster} {topic : Json} {job : Job} {capacity : Int} {r : Reader}
    (hopen : Reader.opened c topic job capacity = .ok r) (hf : job.request.follow = true)
    (hids : ((c.partitions topic).map (·.id)).Nodup)
    (hinc : ∀ p ∈ c.partitions topic, IsIncreasing p.messages) (m : Metrics) :
    (opened c r m).IsFollowing := by
  refine ⟨isClean_opened hopen hids hinc m, ?_, ?_⟩
  · rw [Reader.opened_eq_ok hopen]
    exact hf
  · rw [Reader.opened_eq_ok hopen]
    intro w hw hl
    obtain ⟨cursor, -, rfl⟩ := List.mem_map.1 hw
    simp [Worker.ofCursor, Worker.IsLeaving] at hl

/-- If nothing fails and there is no message that cannot be dealt with, no worker fails. -/
theorem IsFollowing.isUnfailed (hs : s.IsFollowing)
    (hv : ∀ w ∈ s.reader.workers, ∀ m ∈ upFrom (s.log w.cursor.partition) w.cursor.start,
      ¬ s.reader.job.Overwhelms m.value) : s.IsUnfailed := by
  intro w hw hl
  obtain ⟨m, hm, hfatal⟩ := hs.faithful w hw hl
  exact hv w hw m (List.mem_filter.1 hm).1 ((judge_isFatal_iff _ _).1 hfatal)

/-- **What a reader that waits for later messages has handed out.**  In whatever order the workers and
the reader move, how much polls hand out, and what is appended: if nothing fails and no message from
where reading starts on is one that cannot be dealt with, then no worker fails.  As long as no worker
has failed, asking for a frame in vain changes nothing, and in each state in which all workers have
polled past the last message of their partition and the queue is empty, the frames of each partition
that have been handed out are exactly those of the records that are asked for, among all its messages
from where reading starts on and in the order of their offsets; of other partitions there are none.
The reader, which nobody closes, ends only when all workers have ended. -/
theorem follow_delivers {c : Cluster} {topic : Json} {job : Job} {capacity : Int} {r : Reader}
    (hopen : Reader.opened c topic job capacity = .ok r) (hf : job.request.follow = true)
    (hids : ((c.partitions topic).map (·.id)).Nodup)
    (hinc : ∀ p ∈ c.partitions topic, IsIncreasing p.messages)
    {before : Metrics} {moves : List Move} (hrun : (opened c r before).run moves = some s) :
    ((∀ m ∈ moves, m.IsFaultless) →
      (∀ p ∈ c.partitions topic,
        ∀ m ∈ upFrom (s.log p.id) (Reader.cursor job.request.tail p).start,
          ¬ job.Overwhelms m.value) →
      s.IsUnfailed) ∧
    (s.IsUnfailed →
      (s.reader.next.1 = .waits → s.reader.next = (.waits, s.reader)) ∧
      (s.IsIdle →
        (∀ p ∈ c.partitions topic,
          List.Forall₂ (fun r frame => Frame.encode r.toEntry = .ok frame)
            (job.wanted (upFrom (s.log p.id) (Reader.cursor job.request.tail p).start))
            (s.delivered p.id)) ∧
        ∀ id, id ∉ (c.partitions topic).map (·.id) → s.delivered id = [])) ∧
    (s.reader.next.1 = .ended → ∀ w ∈ s.reader.workers, w.phase = .ended) := by
  have hs := isClean_run (isClean_opened hopen hids hinc before) hrun
  have hjob := job_of_opened hopen hrun
  refine ⟨?_, ?_, ?_⟩
  · intro hm hv
    apply (isFollowing_run (isFollowing_opened hopen hf hids hinc before) hm hrun).isUnfailed
    intro w hw m hmem
    obtain ⟨p, hp, hcursor⟩ := List.mem_map.1
      ((cursors_of_opened hopen hrun).mem_iff.1 (List.mem_map_of_mem hw))
    rw [← hcursor] at hmem
    rw [hjob]
    exact hv p hp m hmem
  · intro hu
    refine ⟨next_eq_waits hs.toIsSound hu, fun hi => ⟨?_, ?_⟩⟩
    · intro p hp
      obtain ⟨w, hw, hcursor⟩ := exists_worker hopen hrun hp
      have hid : w.cursor.partition = p.id := by rw [hcursor]; rfl
      have hall := (hi.past w hw).seen_eq (hs.tracks w hw) (hs.increasing _)
      have hclean := (hs.clean w hw).isFatal_seen (hu w hw)
      have hdelivered := delivered_of_isIdle hs.toIsSound hi hw
      rw [hall] at hclean
      rw [hid, hcursor, hjob] at hclean hdelivered
      rw [hdelivered]
      exact Job.forall₂_survivors hclean
    · intro id hid
      apply delivered_eq_nil hs.toIsSound
      intro hmem
      exact hid (mem_ids_of_mem_partitions hopen hrun hmem)
  · intro hend w hw
    exact (delivered_of_ended hs.toIsSound hend hw).1

/-- A message without a record is there when the reader is opened, and a record that is asked for is
appended when the worker has polled past that; its frame is handed out, and then there is nothing left
to be done. -/
theorem follow_delivers_appended :
    ∃ (c : Cluster) (job : Job) (r : Reader) (moves : List Move) (s : Scene),
      Reader.opened c (.str "t") job 1 = .ok r ∧ (opened c r {}).run moves = some s ∧
        s.IsUnfailed ∧ s.IsIdle ∧ s.delivered 0 = [[0, 0, 0, 4, 26, 2, 120, 10]] ∧
          s.reader.next = (.waits, s.reader) ∧
            List.Forall₂ (fun r frame => Frame.encode r.toEntry = .ok frame)
              (job.wanted (upFrom (s.log 0) 0)) (s.delivered 0) := by
  let value : Bytes := Message.letter "1970-01-01T00:00:00Z"
  let p : Partition := { id := 0, messages := [⟨0, none⟩] }
  let c : Cluster := { topics := [(.str "t", [p])] }
  let job : Job := { containerId := .str "c", request := {}, nesting := 100 }
  let r : Reader := .ofCursors (.str "t") job 1 [⟨0, 0, 1⟩]
  have hparts : c.partitions (.str "t") = [p] := rfl
  have hopen : Reader.opened c (.str "t") job 1 = .ok r :=
    Reader.opened_of_single job 1 rfl rfl hparts
  let moves : List Move := List.replicate 8 (.work 0 2 none) ++ [.append 0 none (some value)] ++
    List.replicate 5 (.work 0 2 none) ++ [.take]
  let polling : Worker :=
    { cursor := ⟨0, 0, 1⟩, phase := .polling, position := 2
      consumer := some ⟨2, 2, [.assign 0, .seek 0 0, .poll, .poll]⟩ }
  let log : List Message := [⟨0, none⟩, ⟨1, some value⟩]
  have hlogs : ((opened c r {}).run moves).map (fun s => (s.log 0, s.delivered 0)) =
      some (log, [[0, 0, 0, 4, 26, 2, 120, 10]]) := by decide +kernel
  have hstate : ((opened c r {}).run moves).map (fun s =>
      (s.reader.workers, s.reader.queue, s.reader.isOver)) = some ([polling], [], false) := by
    decide +kernel
  obtain ⟨s, hrun, hs⟩ := Option.map_eq_some_iff.1 hlogs
  rw [hrun, Option.map_some, Option.some.injEq, Prod.mk.injEq, Prod.mk.injEq] at hstate
  obtain ⟨hlog, hdelivered⟩ := Prod.mk.inj hs
  obtain ⟨hworkers, hqueue, hover⟩ := hstate
  have hidle : s.IsIdle := by
    refine ⟨?_, hqueue⟩
    intro w hw
    obtain rfl : w = polling := by simpa [hworkers] using hw
    change polling.HasPolledPast (s.log 0)
    rw [hlog]
    exact ⟨trivial, rfl, rfl, _, rfl, by decide⟩
  have hwaits : s.reader.next.1 = .waits := by rw [Reader.next_of_queue_eq_nil hover hqueue]
  obtain ⟨hunfailed, hexact, -⟩ := follow_delivers hopen rfl (by simp [hparts])
    (by simp [hparts, p, IsIncreasing]) hrun
  have hu : s.IsUnfailed := by
    apply hunfailed (by simp [moves, Move.IsFaultless])
    simp only [hparts, List.forall_mem_singleton]
    intro m hm hover
    have hmem : m ∈ s.log 0 := (mem_upFrom.1 hm).1
    rw [← judge_isFatal_iff] at hover
    have hall : ∀ m ∈ log, (job.judge m.value).isFatal = false := by decide +kernel
    rw [hlog] at hmem
    rw [hall m hmem] at hover
    cases hover
  obtain ⟨hframes, -⟩ := (hexact hu).2 hidle
  exact ⟨c, job, r, moves, s, hopen, hrun, hu, hidle, hdelivered, (hexact hu).1 hwaits,
    hframes p (by simp [hparts])⟩

end Scene

end LogRelay
