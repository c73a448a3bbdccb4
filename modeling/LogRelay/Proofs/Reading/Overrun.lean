import LogRelay.Proofs.Reading.Prefix
/-!
# Workers that find no message just below the captured end

A worker knows how far it has come from the offsets of the messages that it looks at, and from nothing
else.  When no message lies just below the end that was captured when the reader was opened, a worker
that does not wait for later messages goes on polling after the last message below that end, until a
message is appended; the first one from the end on is looked at like all others, and makes the worker
stop.

## Main definitions

* `Cursor.overrun`, `Cursor.reach`: what is looked at beyond the captured end, and all that is looked
  at.
* `Worker.RunsTo`: how far a worker has come in what it reaches.
* `Worker.PollsNoMore`: a worker has polled for the last time.

## Main statements

* `runsTo_of_transition`: a step of a worker that nothing fails keeps it on its way.
* `RunsTo.seen_prefix`, `RunsTo.seen_eq`: what a worker has looked at.
* `pollsNoMore_iff`: which message makes a worker stop.
* `read_past_gap`: what a read comes to when no message lies just below the captured end.
-/
namespace LogRelay

open Message

namespace Cursor

instance (c : Cursor) (log : List Message) : Decidable (c.IsMet log) :=
  inferInstanceAs (Decidable (_ ∨ _))

/-- What is looked at from the captured end on: the first message there, if none lies just below. -/
def overrun (c : Cursor) (log : List Message) : List Message :=
  if c.IsMet log then [] else (upFrom log c.stop).take 1

/-- What is looked at: the messages that are to be read, and perhaps one more. -/
def reach (c : Cursor) (log : List Message) : List Message :=
  c.range log ++ c.overrun log

end Cursor

/-- Among messages of one offset there is only one in an increasing log. -/
theorem IsIncreasing.length_le_one {log : List Message} (h : IsIncreasing log) {a : Int}
    (hall : ∀ m ∈ log, m.offset = a) : log.length ≤ 1 := by
  match log, h, hall with
  | [], _, _ => exact Nat.zero_le 1
  | [_], _, _ => exact Nat.le_refl 1
  | m :: n :: rest, h, hall =>
      have hlt := (List.pairwise_cons.1 h).1 n List.mem_cons_self
      have hm := hall m List.mem_cons_self
      have hn := hall n (List.mem_cons_of_mem m List.mem_cons_self)
      omega

/-- The messages in front of the first one that cannot be dealt with, when some are known to be such
that they can. -/
theorem Job.manageable_append {j : Job} {log : List Message} (h : ∀ m ∈ log, j.isFatal m = false)
    (rest : List Message) : j.manageable (log ++ rest) = log ++ j.manageable rest := by
  apply List.takeWhile_append_of_pos
  intro m hm
  simp [h m hm]

namespace Worker

variable {j : Job} {s : Surroundings} {w w' : Worker} {e : Effect} {log : List Message}

/-- How far a worker has come that does not wait for later messages.  All messages that it has looked
at but the last one lie further below the captured end than just below; it polls only as long as the
last one does so too; and it has left because the last one does not, or because of a message that
cannot be dealt with. -/
structure RunsTo (w : Worker) (j : Job) (log : List Message) : Prop where
  below : ∀ m ∈ w.seen log, m.offset + 1 < w.position → m.offset + 1 < w.cursor.stop
  started : w.position = w.cursor.start ∨ w.cursor.start < w.cursor.stop
  testing : w.phase = .checking → w.position = w.cursor.start ∨ w.position < w.cursor.stop
  wanting : w.phase = .polling ∨ (∃ batch, w.phase = .handling batch) →
    w.position < w.cursor.stop
  left : w.IsLeaving → w.cursor.stop ≤ w.position ∨ ∃ m ∈ w.seen log, j.isFatal m = true

/-- The worker polls no more: it leaves, or it will as soon as the queue takes the frame at hand. -/
def PollsNoMore (w : Worker) : Prop :=
  w.IsLeaving ∨ w.offered ≠ [] ∧ w.cursor.stop ≤ w.position

/-! ## Steps -/

/-- A step that looks at no message. -/
theorem RunsTo.congr (hr : w.RunsTo j log) (hcur : w'.cursor = w.cursor)
    (hpos : w'.position = w.position)
    (htesting : w'.phase = .checking → w.position = w.cursor.start ∨ w.position < w.cursor.stop)
    (hwanting : w'.phase = .polling ∨ (∃ batch, w'.phase = .handling batch) →
      w.position < w.cursor.stop)
    (hleft : w'.IsLeaving → w.cursor.stop ≤ w.position ∨ ∃ m ∈ w.seen log, j.isFatal m = true) :
    w'.RunsTo j log := by
  have hseen : w'.seen log = w.seen log := by rw [seen, seen, hcur, hpos]
  constructor
  · rw [hseen, hpos, hcur]
    exact hr.below
  · rw [hpos, hcur]
    exact hr.started
  · rw [hpos, hcur]
    exact htesting
  · rw [hpos, hcur]
    exact hwanting
  · rw [hseen, hpos, hcur]
    exact hleft

/-- After a message a worker goes on if that lies further below the captured end than just below, and
else leaves. -/
theorem RunsTo.proceed (hf : j.request.follow = false) (batch : List Message)
    (hbelow : ∀ m ∈ w.seen log, m.offset + 1 < w.position → m.offset + 1 < w.cursor.stop)
    (hstarted : w.position = w.cursor.start ∨ w.cursor.start < w.cursor.stop) :
    (w.proceed j batch).RunsTo j log := by
  rcases phase_proceed w j batch with ⟨hc, hp⟩ | ⟨hc, hp⟩
  · have hlt : ¬ w.cursor.stop ≤ w.position := by
      rw [← isCaughtUp_iff hf, hc]
      exact Bool.false_ne_true
    constructor
    · exact hbelow
    · exact hstarted
    · simp [hp]
    · intro _
      simp only [cursor_proceed, position_proceed]
      omega
    · simp [IsLeaving, hp]
  · constructor
    · exact hbelow
    · exact hstarted
    · simp [hp]
    · simp [hp]
    · intro _
      exact .inl ((isCaughtUp_iff hf).1 hc)

/-- The messages in front of the next one lie further below the captured end than just below. -/
theorem RunsTo.below_next (hr : w.RunsTo j log) (ht : w.Tracks log) (hinc : IsIncreasing log)
    {m : Message} {batch : List Message} (hp : w.phase = .handling (m :: batch)) :
    (∀ n ∈ within log w.cursor.start (m.offset + 1), n.offset + 1 < m.offset + 1 →
      n.offset + 1 < w.cursor.stop) ∧ w.cursor.start < w.cursor.stop := by
  have hpos := hr.wanting (.inr ⟨_, hp⟩)
  have hstart := ht.start_le
  obtain ⟨-, -, hseen, -⟩ := ht.next hinc hp
  refine ⟨?_, by omega⟩
  rw [hseen]
  intro n hn hlt
  rcases List.mem_append.1 hn with hn | hn
  · have := (mem_within.1 hn).2
    omega
  · rw [List.mem_singleton.1 hn] at hlt
    omega

/-- A step of a worker that nothing fails keeps it on its way. -/
theorem runsTo_of_transition (h : Transition j s w w' e) (hf : j.request.follow = false)
    (hs : s.stopping = false) (ho : s.outage = none) (hinc : IsIncreasing log) (ht : w.Tracks log)
    (hr : w.RunsTo j log) : w'.RunsTo j log := by
  cases h with
  | create hp | assign hp =>
      refine hr.congr rfl rfl ?_ ?_ ?_ <;> simp [IsLeaving, called]
  | seek hp =>
      refine hr.congr rfl rfl ?_ ?_ ?_
      · intro _
        exact .inl (ht.fresh (by simp [IsReading, hp]) (by simp [IsLeaving, hp]))
      · simp [called]
      · simp [called, IsLeaving]
  | fail hp hout | failPoll hp hout | failClose hp hout =>
      rw [ho] at hout
      cases hout
  | goOn hp _ hc =>
      have hlt : ¬ w.cursor.stop ≤ w.position := by
        rw [← isCaughtUp_iff hf, hc]
        exact Bool.false_ne_true
      refine hr.congr rfl rfl ?_ ?_ ?_
      · simp
      · intro _
        omega
      · simp [IsLeaving]
  | leave hp hc =>
      have hcaught : w.isCaughtUp j = true := by simpa [hs] using hc
      refine hr.congr rfl rfl ?_ ?_ ?_
      · simp
      · simp
      · intro _
        exact .inl ((isCaughtUp_iff hf).1 hcaught)
  | pollNone hp =>
      refine hr.congr rfl rfl ?_ ?_ ?_
      · intro _
        exact .inr (hr.wanting (.inl hp))
      · simp [called]
      · simp [called, IsLeaving]
  | poll hp =>
      refine hr.congr rfl rfl ?_ ?_ ?_
      · simp [called]
      · intro _
        exact hr.wanting (.inl hp)
      · simp [called, IsLeaving]
  | exhaust hp =>
      refine hr.congr rfl rfl ?_ ?_ ?_
      · intro _
        exact .inr (hr.wanting (.inr ⟨[], hp⟩))
      · simp
      · simp [IsLeaving]
  | skip hp =>
      obtain ⟨hbelow, hstart⟩ := hr.below_next ht hinc hp
      exact .proceed hf _ hbelow (.inr hstart)
  | keep hp =>
      obtain ⟨hbelow, hstart⟩ := hr.below_next ht hinc hp
      exact
        { below := hbelow
          started := .inr hstart
          testing := by simp
          wanting := by simp
          left := by simp [IsLeaving] }
  | giveUp hp hv =>
      obtain ⟨hbelow, hstart⟩ := hr.below_next ht hinc hp
      obtain ⟨-, -, hseen, -⟩ := ht.next hinc hp
      refine
        { below := hbelow
          started := .inr hstart
          testing := by simp
          wanting := by simp
          left := ?_ }
      intro _
      refine .inr ⟨_, ?_, hv⟩
      simp only [seen]
      rw [hseen]
      exact List.mem_append_right _ (List.mem_singleton_self _)
  | offer hp => exact .proceed hf _ hr.below hr.started
  | abandon hp hstop | vanish hp hstop =>
      rw [hs] at hstop
      cases hstop
  | close hp | announce hp =>
      refine hr.congr rfl rfl ?_ ?_ ?_
      · simp [called]
      · simp [called]
      · intro _
        exact hr.left (by simp [IsLeaving, hp])

/-- A longer log does not change how far a worker has come. -/
theorem RunsTo.append {m : Message} (hr : w.RunsTo j log) (ht : w.Tracks log)
    (hm : ∀ n ∈ log, n.offset < m.offset) : w.RunsTo j (log ++ [m]) := by
  have hseen := ht.seen_append hm
  constructor
  · rw [hseen]
    exact hr.below
  · exact hr.started
  · exact hr.testing
  · exact hr.wanting
  · rw [hseen]
    exact hr.left

/-! ## What a worker has looked at -/

/-- A worker that has come to the captured end or beyond has looked at all that it reaches. -/
theorem RunsTo.seen_eq (hr : w.RunsTo j log) (ht : w.Tracks log) (hinc : IsIncreasing log)
    (hstop : w.cursor.stop ≤ w.position) : w.seen log = w.cursor.reach log := by
  rw [Cursor.reach, Cursor.range, Cursor.overrun, seen]
  rcases hr.started with hpos | hstart
  · have hmet : w.cursor.IsMet log := .inl (by omega)
    rw [if_pos hmet, hpos, within_self, within_eq_nil (by omega), List.append_nil]
  · -- what lies from the captured end up to the position is one message at most, the last one
    have hbeyond : ∀ m ∈ within log w.cursor.stop w.position, m.offset = w.position - 1 := by
      intro m hm
      obtain ⟨⟨hlog, hle⟩, hlt⟩ := mem_within.1 hm
      have hseen : m ∈ w.seen log := mem_within.2 ⟨⟨hlog, by omega⟩, hlt⟩
      have := hr.below m hseen
      omega
    have hone : (within log w.cursor.stop w.position).length ≤ 1 :=
      IsIncreasing.length_le_one ((hinc.upFrom w.cursor.stop).filter _) hbeyond
    rw [← within_append_within hinc (by omega : w.cursor.start ≤ w.cursor.stop) hstop]
    congr 1
    by_cases hmet : w.cursor.IsMet log
    · rw [if_pos hmet]
      rcases hmet with hle | ⟨m, hm, hoff⟩
      · omega
      · have hseen : m ∈ w.seen log := mem_within.2 ⟨⟨hm, by omega⟩, by omega⟩
        have hlast := hr.below m hseen
        exact within_eq_nil (by omega)
    · obtain ⟨m, hm, hoff⟩ : ∃ m ∈ log, w.position = m.offset + 1 :=
        ht.isPlace.resolve_left (by omega)
      have hge : m.offset ≠ w.cursor.stop - 1 := fun heq => hmet (.inr ⟨m, hm, heq⟩)
      have hmem : m ∈ within log w.cursor.stop w.position :=
        mem_within.2 ⟨⟨hm, by omega⟩, by omega⟩
      have hpos := List.length_pos_of_mem hmem
      have hlen : (within log w.cursor.stop w.position).length = 1 := Nat.le_antisymm hone hpos
      rw [if_neg hmet, ← within_append_upFrom hinc hstop, ← hlen, List.take_left]

/-- What a worker has looked at are the first ones of the messages that it reaches. -/
theorem RunsTo.seen_prefix (hr : w.RunsTo j log) (ht : w.Tracks log) (hinc : IsIncreasing log) :
    ∃ rest, w.seen log ++ rest = w.cursor.reach log := by
  by_cases hstop : w.cursor.stop ≤ w.position
  · exact ⟨[], by rw [List.append_nil, hr.seen_eq ht hinc hstop]⟩
  · refine ⟨within log w.position w.cursor.stop ++ w.cursor.overrun log, ?_⟩
    rw [← List.append_assoc, seen, within_append_within hinc ht.start_le (by omega)]
    rfl

/-- The frames of what a clean worker has looked at, and of what follows. -/
theorem IsClean.survivors_manageable (hc : w.IsClean j log) (rest : List Message) :
    ((∀ m ∈ w.seen log, j.isFatal m = false) ∧ j.survivors (j.manageable (w.seen log ++ rest)) =
        j.survivors (w.seen log) ++ j.survivors (j.manageable rest)) ∨
      j.survivors (j.manageable (w.seen log ++ rest)) = j.survivors (w.seen log) := by
  rcases hc with hclean | ⟨-, front, m, hseen, hfront, hm⟩
  · left
    refine ⟨hclean, ?_⟩
    rw [Job.manageable_append hclean, Job.survivors_append]
  · right
    rw [hseen, List.append_assoc, List.singleton_append, j.manageable_append_cons hfront hm,
      Job.survivors_append, j.survivors_of_isFatal hm, List.append_nil]

/-- The frames of what a worker has looked at are the first ones of what it reaches. -/
theorem RunsTo.survivors_prefix (hr : w.RunsTo j log) (hc : w.IsClean j log) (ht : w.Tracks log)
    (hinc : IsIncreasing log) : ∃ rest, j.survivors (w.seen log) ++ rest =
      j.survivors (j.manageable (w.cursor.reach log)) := by
  obtain ⟨rest, hrest⟩ := hr.seen_prefix ht hinc
  rw [← hrest]
  rcases hc.survivors_manageable rest with ⟨-, h⟩ | h
  · exact ⟨_, h.symm⟩
  · exact ⟨[], by rw [h, List.append_nil]⟩

/-- The frames of a worker that has left. -/
theorem RunsTo.survivors_seen (hr : w.RunsTo j log) (hc : w.IsClean j log) (ht : w.Tracks log)
    (hinc : IsIncreasing log) (hl : w.IsLeaving) : j.survivors (w.seen log) =
      j.survivors (j.manageable (w.cursor.reach log)) := by
  obtain ⟨rest, hrest⟩ := hr.seen_prefix ht hinc
  rcases hc.survivors_manageable rest with ⟨hclean, -⟩ | h
  · have hstop : w.cursor.stop ≤ w.position := by
      refine (hr.left hl).resolve_right ?_
      rintro ⟨m, hm, hv⟩
      rw [hclean m hm] at hv
      cases hv
    rw [← hr.seen_eq ht hinc hstop, j.manageable_eq_self hclean]
  · rw [← hrest, h]

/-- A worker that starts below the captured end polls for the last time just if it is handed out a
message that lies just below that end or beyond, or one that cannot be dealt with. -/
theorem pollsNoMore_iff (hr : w.RunsTo j log) (hc : w.IsClean j log) (ht : w.Tracks log)
    (hstart : w.cursor.start < w.cursor.stop) :
    w.PollsNoMore ↔ ∃ m ∈ w.seen log, w.cursor.stop ≤ m.offset + 1 ∨ j.isFatal m = true := by
  constructor
  · intro hp
    have hcome : w.cursor.stop ≤ w.position ∨ ∃ m ∈ w.seen log, j.isFatal m = true :=
      hp.elim hr.left fun h => .inl h.2
    rcases hcome with hstop | ⟨m, hm, hv⟩
    · obtain ⟨m, hm, hoff⟩ := ht.isPlace.resolve_left (by omega)
      exact ⟨m, mem_within.2 ⟨⟨hm, by omega⟩, by omega⟩, .inl (by omega)⟩
    · exact ⟨m, hm, .inr hv⟩
  · rintro ⟨m, hm, hstop | hv⟩
    · obtain ⟨⟨-, hle⟩, hlt⟩ := mem_within.1 hm
      by_contra hno
      simp only [PollsNoMore, not_or, not_and] at hno
      obtain ⟨hl, hoffer⟩ := hno
      cases hp : w.phase with
      | creating | assigning | seeking =>
          have := ht.fresh (by simp [IsReading, hp]) hl
          omega
      | checking =>
          have := hr.testing hp
          omega
      | polling =>
          have := hr.wanting (.inl hp)
          omega
      | handling batch =>
          have := hr.wanting (.inr ⟨batch, hp⟩)
          omega
      | offering frame batch => exact hoffer (by simp [offered, hp]) (by omega)
      | closing | announcing | ended => exact hl (by simp [IsLeaving, hp])
    · left
      by_contra hl
      rw [hc.isFatal_seen hl m hm] at hv
      cases hv

end Worker

namespace Scene

/-- The workers are clean, the reader does not wait for later messages, and each worker is on its way
to what it reaches. -/
structure RunsOn (s : Scene) : Prop extends s.IsClean where
  nonfollow : s.reader.job.request.follow = false
  runs : s.All fun w log _ => w.RunsTo s.reader.job log

variable {s s' : Scene}

/-- Each move at which nothing fails keeps the workers on their way. -/
theorem RunsOn.step {m : Move} (hs : s.RunsOn) (hm : m.IsFaultless) (h : s.step m = some s') :
    s'.RunsOn where
  toIsClean := hs.toIsClean.step h
  nonfollow := job_step h ▸ hs.nonfollow
  runs := by
    rw [job_step h]
    refine hs.runs.step hs.toIsOpen h ?_ ?_
    · rintro i size outage rfl w hw w' e htr _ hr
      exact Worker.runsTo_of_transition htr hs.nonfollow hs.going hm (hs.increasing _)
        (hs.tracks w hw) hr
    · intro w hw n hn _ hr
      exact hr.append (hs.tracks w hw) hn

/-- A run in which nothing fails keeps the workers on their way. -/
theorem runsOn_run {moves : List Move} (hs : s.RunsOn) (hm : ∀ m ∈ moves, m.IsFaultless)
    (h : s.run moves = some s') : s'.RunsOn :=
  run_induction (fun _ _ _ hs hm h => hs.step hm h) hs hm h

/-- The workers of a reader that has just been opened have their way in front of them. -/
theorem runsOn_opened {c : Cluster} {topic : Json} {job : Job} {capacity : Int} {r : Reader}
    (hopen : Reader.opened c topic job capacity = .ok r) (hf : job.request.follow = false)
    (hids : ((c.partitions topic).map (·.id)).Nodup)
    (hinc : ∀ p ∈ c.partitions topic, IsIncreasing p.messages) (m : Metrics) :
    (opened c r m).RunsOn := by
  refine ⟨isClean_opened hopen hids hinc m, ?_, ?_⟩
  · rw [Reader.opened_eq_ok hopen]
    exact hf
  · rw [Reader.opened_eq_ok hopen]
    intro w hw
    obtain ⟨cursor, -, rfl⟩ := List.mem_map.1 hw
    exact
      { below := by simp [Worker.ofCursor, Worker.seen, within_self]
        started := .inl rfl
        testing := by simp [Worker.ofCursor]
        wanting := by simp [Worker.ofCursor]
        left := by simp [Worker.ofCursor, Worker.IsLeaving] }

/-- **A read of a partition that holds no message just below its end.**  In whatever order the workers
and the reader move, how much polls hand out, and what is appended: the worker looks at the messages
below the captured end and then at the first one that is appended from there on, and nothing makes it
poll for the last time but a message that lies just below the captured end or beyond, or one that
cannot be dealt with.  So the frame of an appended message is handed out if that is asked for, and
without one the reader ends only because of a message that cannot be dealt with. -/
theorem read_past_gap {c : Cluster} {topic : Json} {job : Job} {capacity : Int} {r : Reader}
    (hopen : Reader.opened c topic job capacity = .ok r) (hf : job.request.follow = false)
    (hids : ((c.partitions topic).map (·.id)).Nodup)
    (hinc : ∀ p ∈ c.partitions topic, IsIncreasing p.messages)
    {before : Metrics} {moves : List Move} (hm : ∀ m ∈ moves, m.IsFaultless)
    (hrun : (opened c r before).run moves = some s) {p : Partition}
    (hp : p ∈ c.partitions topic)
    (hstart : (Reader.cursor job.request.tail p).start < p.endOffset)
    (hgap : ∀ m ∈ p.messages, m.offset + 1 < p.endOffset) :
    ∃ later, s.log p.id = p.messages ++ later ∧
      (∃ w ∈ s.reader.workers, w.cursor = Reader.cursor job.request.tail p ∧
        (∃ rest, w.seen (s.log p.id) ++ rest = w.cursor.reach (s.log p.id)) ∧
        (w.PollsNoMore ↔ ∃ m ∈ w.seen (s.log p.id),
          p.endOffset ≤ m.offset + 1 ∨ job.Overwhelms m.value)) ∧
      (∃ rest, s.delivered p.id ++ rest = job.survivors
        (job.manageable ((Reader.cursor job.request.tail p).reach (s.log p.id)))) ∧
      (s.reader.next.1 = .ended →
        s.delivered p.id = job.survivors
          (job.manageable ((Reader.cursor job.request.tail p).reach (s.log p.id))) ∧
        ∃ m ∈ (Reader.cursor job.request.tail p).reach (s.log p.id),
          m ∈ later ∧ p.endOffset ≤ m.offset + 1 ∨ job.Overwhelms m.value) := by
  have hs := runsOn_run (runsOn_opened hopen hf hids hinc before) hm hrun
  have hjob := job_of_opened hopen hrun
  obtain ⟨later, hlater⟩ := log_run hrun p.id
  rw [log_opened hopen hids hp] at hlater
  obtain ⟨w, hw, hcursor⟩ := exists_worker hopen hrun hp
  have hid : w.cursor.partition = p.id := by rw [hcursor]; rfl
  have hstop : w.cursor.stop = p.endOffset := by rw [hcursor]; rfl
  have hr := hs.runs w hw
  have hc := hs.clean w hw
  have ht := hs.tracks w hw
  have hlog := hs.increasing w.cursor.partition
  have hpolls := Worker.pollsNoMore_iff hr hc ht (by rw [hstop, hcursor]; exact hstart)
  obtain ⟨unseen, hunseen⟩ := hr.seen_prefix ht hlog
  obtain ⟨unput, hunput⟩ := hr.survivors_prefix hc ht hlog
  obtain ⟨queued, hqueued⟩ := exists_delivered_append hs.toIsSound hw
  have hover (m : Message) : job.isFatal m = true ↔ job.Overwhelms m.value :=
    judge_isFatal_iff job m.value
  simp only [hid, hstop, hjob, hover] at hpolls hunseen hunput hqueued
  refine ⟨later, hlater, ⟨w, hw, hcursor, ⟨unseen, hunseen⟩, hpolls⟩, ?_, ?_⟩
  · rw [← hcursor, ← hunput, ← hqueued]
    exact ⟨queued ++ unput, (List.append_assoc _ _ _).symm⟩
  · intro hend
    obtain ⟨hended, hdelivered⟩ := delivered_of_ended hs.toIsSound hend hw
    have hleaving : w.IsLeaving := by simp [Worker.IsLeaving, hended]
    have hall := hr.survivors_seen hc ht hlog hleaving
    rw [hid, hjob] at hdelivered hall
    refine ⟨by rw [hdelivered, hall, hcursor], ?_⟩
    obtain ⟨m, hmem, hlast⟩ := hpolls.1 (.inl hleaving)
    refine ⟨m, ?_, ?_⟩
    · rw [← hcursor, ← hunseen]
      exact List.mem_append_left _ hmem
    · rcases hlast with hlast | hlast
      · have hm : m ∈ p.messages ++ later := by
          rw [← hlater]
          exact (mem_within.1 hmem).1.1
        refine .inl ⟨(List.mem_append.1 hm).resolve_left ?_, hlast⟩
        intro hm
        have := hgap m hm
        omega
      · exact .inr hlast

/-- The captured end is 5 and the only message, which has no record, lies at 0: the worker polls on until
a record is appended at 5, puts its frame on the queue, and ends. -/
theorem read_past_gap_appended :
    ∃ (c : Cluster) (job : Job) (r : Reader) (moves : List Move) (s : Scene) (p : Partition),
      Reader.opened c (.str "t") job 1 = .ok r ∧ (opened c r {}).run moves = some s ∧
        p ∈ c.partitions (.str "t") ∧ p.endOffset = 5 ∧ s.reader.next.1 = .ended ∧
        s.delivered p.id = [[0, 0, 0, 4, 26, 2, 120, 10]] ∧
          s.delivered p.id = job.survivors
            (job.manageable ((Reader.cursor job.request.tail p).reach (s.log p.id))) := by
  let value : Bytes := Message.letter "1970-01-01T00:00:00Z"
  let p : Partition := { id := 0, high := some 5, messages := [⟨0, none⟩] }
  let c : Cluster := { topics := [(.str "t", [p])] }
  let job : Job := { containerId := .str "c", request := { follow := false }, nesting := 100 }
  let r : Reader := .ofCursors (.str "t") job 1 [⟨0, 0, 5⟩]
  have hparts : c.partitions (.str "t") = [p] := rfl
  have hopen : Reader.opened c (.str "t") job 1 = .ok r := by
    rw [Reader.opened_of_calm job 1 rfl rfl (by simp [hparts]), hparts, List.mergeSort_singleton]
    rfl
  let moves : List Move := List.replicate 9 (.work 0 1 none) ++ [.append 0 (some 5) (some value)] ++
    List.replicate 5 (.work 0 1 none) ++ [.take, .work 0 1 none, .take]
  have hvalue : ((opened c r {}).run moves).map (fun s => (s.reader.isOver, s.delivered 0)) =
      some (true, [[0, 0, 0, 4, 26, 2, 120, 10]]) := by decide +kernel
  obtain ⟨s, hrun, hs⟩ := Option.map_eq_some_iff.1 hvalue
  obtain ⟨hover, hdelivered⟩ := Prod.mk.inj hs
  have hend : s.reader.next.1 = .ended := by rw [Reader.next, if_pos hover]
  have hp : p ∈ c.partitions (.str "t") := by simp [hparts]
  have hinc : IsIncreasing p.messages := List.pairwise_singleton _ _
  obtain ⟨_, -, -, -, hlast⟩ := read_past_gap hopen rfl (by simp [hparts])
    (by simpa [hparts] using hinc) (by simp [Move.IsFaultless, moves]) hrun hp (by decide)
    (by decide)
  exact ⟨c, job, r, moves, s, p, hopen, hrun, hp, rfl, hend, hdelivered, (hlast hend).1⟩

end Scene

end LogRelay
