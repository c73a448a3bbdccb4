import LogRelay.Proofs.Reading.Scene
/-!
# What a worker has looked at

At each moment a worker has looked at the messages from where reading starts up to its position.
What it has put on the queue are the frames of those of them that survive, in order, and after its
end nothing follows.  This holds of every run of a reader that is not closed, also when workers fail.

## Main definitions

* `Worker.seen`: the messages that a worker has looked at.
* `Worker.Tracks`: position, batch and consumer of a worker agree with the log of its partition.
* `Worker.Feeds`: what a worker has put on the queue.

## Main statements

* `tracks_of_transition`, `feeds_of_transition`: a step of a worker keeps both.
* `tally_of_transition`: what a step counts.
* `Tracks.append`, `Feeds.append`: so does a message that is appended to the log.
-/
namespace LogRelay

open Message

namespace Worker

/-- The messages of a log that a worker has looked at. -/
def seen (w : Worker) (log : List Message) : List Message :=
  within log w.cursor.start w.position

/-- The place of a worker agrees with its log: nothing has been looked at before it starts to read,
its position stands behind a message, and the messages at hand are those from there up to the place of
its consumer. -/
structure Tracks (w : Worker) (log : List Message) : Prop where
  start_le : w.cursor.start ≤ w.position
  isPlace : IsPlace log w.cursor.start w.position
  fresh : ¬ w.IsReading → ¬ w.IsLeaving → w.position = w.cursor.start
  equipped : w.phase = .assigning ∨ w.phase = .seeking → ∃ c, w.consumer = some c
  ahead : w.IsReading → ∃ c, w.consumer = some c ∧ w.position ≤ c.offset ∧
    IsPlace log w.cursor.start c.offset ∧ w.inHand = within log w.position c.offset

/-- What a worker has put on the queue: the frames of the messages that it has looked at and that
survive, but for the one that waits for room, and then perhaps its end. -/
def Feeds (w : Worker) (j : Job) (log : List Message) (items : List Item) : Prop :=
  ∃ frames marks, items = frames.map (Item.frame w.cursor.partition) ++ marks ∧
    frames ++ w.offered = j.survivors (w.seen log) ∧
    (marks = [] ∨ marks = [.done w.cursor.partition] ∧ w.phase = .ended)

variable {j : Job} {s : Surroundings} {w w' : Worker} {e : Effect} {log : List Message}

/-- No step changes which part of a partition is read. -/
theorem cursor_of_transition (h : Transition j s w w' e) : w'.cursor = w.cursor := by
  cases h <;> simp [called, proceed]

/-! ## The place of a worker -/

@[simp] theorem cursor_proceed (w : Worker) (j : Job) (batch : List Message) :
    (w.proceed j batch).cursor = w.cursor := rfl

@[simp] theorem position_proceed (w : Worker) (j : Job) (batch : List Message) :
    (w.proceed j batch).position = w.position := rfl

@[simp] theorem consumer_proceed (w : Worker) (j : Job) (batch : List Message) :
    (w.proceed j batch).consumer = w.consumer := rfl

/-- After a message a worker goes on with the rest of the batch, or leaves. -/
theorem phase_proceed (w : Worker) (j : Job) (batch : List Message) :
    (w.isCaughtUp j = false ∧ (w.proceed j batch).phase = .handling batch) ∨
      (w.isCaughtUp j = true ∧ (w.proceed j batch).phase = .closing) := by
  cases h : w.isCaughtUp j <;> simp [proceed, h]

theorem offered_proceed (w : Worker) (j : Job) (batch : List Message) :
    (w.proceed j batch).offered = [] := by
  rcases phase_proceed w j batch with ⟨-, h⟩ | ⟨-, h⟩ <;> simp [offered, h]

/-- A worker that reads tracks its log if its consumer is ahead of it by the messages at hand. -/
theorem Tracks.of_isReading (hr : w.IsReading) (hstart : w.cursor.start ≤ w.position)
    (hplace : IsPlace log w.cursor.start w.position)
    (hahead : ∃ c, w.consumer = some c ∧ w.position ≤ c.offset ∧
      IsPlace log w.cursor.start c.offset ∧ w.inHand = within log w.position c.offset) :
    w.Tracks log where
  start_le := hstart
  isPlace := hplace
  fresh := fun h => absurd hr h
  equipped := by
    rintro (h | h) <;> simp [IsReading, h] at hr
  ahead := fun _ => hahead

/-- A worker that leaves tracks its log if its position does. -/
theorem Tracks.of_isLeaving (hl : w.IsLeaving) (hstart : w.cursor.start ≤ w.position)
    (hplace : IsPlace log w.cursor.start w.position) : w.Tracks log where
  start_le := hstart
  isPlace := hplace
  fresh := fun _ h => absurd hl h
  equipped := by
    rintro (h | h) <;> simp [IsLeaving, h] at hl
  ahead := by
    intro h
    simp only [IsLeaving] at hl
    simp only [IsReading] at h
    split at hl <;> simp_all

/-- A worker that tracks its log still does when it goes on or leaves. -/
theorem Tracks.proceed (batch : List Message) (hstart : w.cursor.start ≤ w.position)
    (hplace : IsPlace log w.cursor.start w.position)
    (hahead : ∃ c, w.consumer = some c ∧ w.position ≤ c.offset ∧
      IsPlace log w.cursor.start c.offset ∧ batch = within log w.position c.offset) :
    (w.proceed j batch).Tracks log := by
  rcases phase_proceed w j batch with ⟨-, h⟩ | ⟨-, h⟩
  · exact .of_isReading (by simp [IsReading, h]) hstart hplace (by simpa [inHand, h] using hahead)
  · exact .of_isLeaving (by simp [IsLeaving, h]) hstart hplace

/-- The next message of the batch at hand is the next one of the log. -/
theorem Tracks.next (ht : w.Tracks log) (hinc : IsIncreasing log) {m : Message}
    {batch : List Message} (hp : w.phase = .handling (m :: batch)) :
    m ∈ log ∧ w.position ≤ m.offset ∧ within log w.cursor.start (m.offset + 1) = w.seen log ++ [m] ∧
      ∃ c, w.consumer = some c ∧ m.offset + 1 ≤ c.offset ∧ IsPlace log w.cursor.start c.offset ∧
        batch = within log (m.offset + 1) c.offset := by
  obtain ⟨c, hc, hle, hplace, hahead⟩ := ht.ahead (by simp [IsReading, hp])
  simp only [inHand, hp] at hahead
  have hmem : m ∈ within log w.position c.offset := by simp [← hahead]
  obtain ⟨⟨hlog, hm⟩, hlt⟩ := mem_within.1 hmem
  obtain ⟨hseen, hrest⟩ := within_of_within_cons hinc ht.start_le hle hahead.symm
  exact ⟨hlog, hm, hseen, c, hc, by omega, hplace, hrest.symm⟩

/-- A step of a worker keeps its place in agreement with its log. -/
theorem tracks_of_transition (h : Transition j s w w' e) (hinc : IsIncreasing log)
    (hbatch : ∀ c, w.consumer = some c → ∃ size, s.batch = (upFrom log c.offset).take size)
    (ht : w.Tracks log) : w'.Tracks log := by
  cases h with
  | create hp ho =>
      exact
        { start_le := ht.start_le
          isPlace := ht.isPlace
          fresh := fun _ _ => ht.fresh (by simp [IsReading, hp]) (by simp [IsLeaving, hp])
          equipped := fun _ => ⟨_, rfl⟩
          ahead := by simp [IsReading] }
  | assign hp ho =>
      obtain ⟨c, hc⟩ := ht.equipped (.inl hp)
      exact
        { start_le := ht.start_le
          isPlace := ht.isPlace
          fresh := fun _ _ => ht.fresh (by simp [IsReading, hp]) (by simp [IsLeaving, hp])
          equipped := fun _ => ⟨_, by simp [called, hc]; rfl⟩
          ahead := by simp [IsReading, called] }
  | seek hp ho =>
      obtain ⟨c, hc⟩ := ht.equipped (.inr hp)
      have hpos := ht.fresh (by simp [IsReading, hp]) (by simp [IsLeaving, hp])
      exact .of_isReading (by simp [IsReading, called]) ht.start_le ht.isPlace
        ⟨_, by simp only [called, hc, Option.map_some]; rfl,
          by simp [called, Consumer.seek, hpos], .inl rfl,
          by simp [called, inHand, Consumer.seek, hpos, within_self]⟩
  | fail hp ho | leave hp hc | failPoll hp ho | abandon hp hs | close hp ho | failClose hp ho
  | announce hp hs hr | vanish hp hs =>
      exact .of_isLeaving (by simp [IsLeaving, called]) ht.start_le ht.isPlace
  | goOn hp hs hc | exhaust hp =>
      obtain ⟨c, hcon, hahead⟩ := ht.ahead (by simp [IsReading, hp])
      exact .of_isReading (by simp [IsReading]) ht.start_le ht.isPlace
        ⟨c, hcon, by simpa [inHand, hp] using hahead⟩
  | pollNone hp ho hb =>
      obtain ⟨c, hcon, hahead⟩ := ht.ahead (by simp [IsReading, hp])
      exact .of_isReading (by simp [IsReading, called]) ht.start_le ht.isPlace
        ⟨_, by simp only [called, hcon, Option.map_some]; rfl,
          by simpa [called, inHand, hp, Consumer.deliver, Consumer.note] using hahead⟩
  | poll hp ho hb =>
      obtain ⟨c, hcon, hle, -, hahead⟩ := ht.ahead (by simp [IsReading, hp])
      simp only [inHand, hp] at hahead
      obtain ⟨size, hsize⟩ := hbatch c hcon
      obtain ⟨m, hm⟩ : ∃ m, s.batch.getLast? = some m :=
        ⟨_, List.getLast?_eq_some_getLast hb⟩
      have hmem : m ∈ upFrom log c.offset :=
        List.mem_of_mem_take (hsize ▸ List.mem_of_getLast? hm)
      obtain ⟨hlog, hcm⟩ := mem_upFrom.1 hmem
      have hall : s.batch = within log w.position (m.offset + 1) := by
        rw [← within_append_within hinc hle (by omega : c.offset ≤ m.offset + 1), ← hahead,
          List.nil_append, hsize]
        exact take_eq_within hinc (hsize ▸ hm)
      refine .of_isReading (by simp [IsReading, called]) ht.start_le ht.isPlace
        ⟨_, by simp only [called, hcon, Option.map_some]; rfl, ?_, ?_, ?_⟩
      · simp only [called, Consumer.deliver, hm]
        omega
      · simp only [called, Consumer.deliver, hm]
        exact .inr ⟨m, hlog, rfl⟩
      · simpa [called, inHand, Consumer.deliver, hm] using hall
  | skip hp hf hv =>
      obtain ⟨hlog, hle, -, hahead⟩ := ht.next hinc hp
      have := ht.start_le
      exact .proceed _ (by simp only; omega) (.inr ⟨_, hlog, rfl⟩) hahead
  | keep hp hv =>
      obtain ⟨hlog, hle, -, hahead⟩ := ht.next hinc hp
      have := ht.start_le
      exact .of_isReading (by simp [IsReading]) (by simp only; omega) (.inr ⟨_, hlog, rfl⟩)
        (by simpa [inHand] using hahead)
  | giveUp hp hv =>
      obtain ⟨hlog, hle, -, -⟩ := ht.next hinc hp
      have := ht.start_le
      exact .of_isLeaving (by simp [IsLeaving]) (by simp only; omega) (.inr ⟨_, hlog, rfl⟩)
  | offer hp hs hr =>
      obtain ⟨c, hcon, hahead⟩ := ht.ahead (by simp [IsReading, hp])
      exact .proceed _ ht.start_le ht.isPlace ⟨c, hcon, by simpa [inHand, hp] using hahead⟩

/-! ## What a worker puts on the queue -/

/-- Before its end a worker has put only frames on the queue. -/
theorem Feeds.frames {items : List Item} (hf : w.Feeds j log items) (hp : w.phase ≠ .ended) :
    ∃ frames, items = frames.map (Item.frame w.cursor.partition) ∧
      frames ++ w.offered = j.survivors (w.seen log) := by
  obtain ⟨frames, marks, hitems, hframes, rfl | ⟨-, he⟩⟩ := hf
  · exact ⟨frames, by simpa using hitems, hframes⟩
  · exact absurd he hp

theorem Feeds.of_frames {items : List Item} (frames : List Bytes)
    (hitems : items = frames.map (Item.frame w.cursor.partition))
    (hframes : frames ++ w.offered = j.survivors (w.seen log)) : w.Feeds j log items :=
  ⟨frames, [], by simpa using hitems, hframes, .inl rfl⟩

/-- A step that looks at no message and puts nothing on the queue. -/
theorem Feeds.congr {items : List Item} (hf : w.Feeds j log items) (hp : w.phase ≠ .ended)
    (hcur : w'.cursor = w.cursor) (hpos : w'.position = w.position)
    (hoff : w'.offered = w.offered) : w'.Feeds j log items := by
  obtain ⟨frames, hitems, hframes⟩ := hf.frames hp
  refine .of_frames frames (by rw [hcur, hitems]) ?_
  rw [hoff, hframes, seen, seen, hcur, hpos]

/-- A step that looks at a message, and offers its frame if it survives. -/
theorem Feeds.look {items : List Item} (hf : w.Feeds j log items) (hinc : IsIncreasing log)
    (ht : w.Tracks log) {m : Message} {batch : List Message} (hp : w.phase = .handling (m :: batch))
    (hcur : w'.cursor = w.cursor) (hpos : w'.position = m.offset + 1)
    (hoff : w'.offered = (j.judge m.value).frame?.toList) : w'.Feeds j log items := by
  obtain ⟨frames, hitems, hframes⟩ := hf.frames (by simp [hp])
  obtain ⟨-, -, hseen, -⟩ := ht.next hinc hp
  rw [offered] at hframes
  simp only [hp, List.append_nil] at hframes
  refine .of_frames frames (by rw [hcur, hitems]) ?_
  rw [hoff, seen, hcur, hpos, hseen, Job.survivors_append, Job.survivors_singleton, hframes]

/-- A step of a worker that is not told to stop keeps what it has put on the queue in agreement with
what it has looked at. -/
theorem feeds_of_transition (h : Transition j s w w' e) (hinc : IsIncreasing log)
    (hs : s.stopping = false) (ht : w.Tracks log) {items : List Item}
    (hf : w.Feeds j log items) : w'.Feeds j log (items ++ e.put.toList) := by
  cases h with
  | create hp ho | assign hp ho | seek hp ho | goOn hp hs hc | leave hp hc | failPoll hp ho
  | pollNone hp ho hb | poll hp ho hb | exhaust hp | close hp ho =>
      rw [Option.toList_none, List.append_nil]
      exact hf.congr (by simp [hp]) rfl rfl (by simp [offered, called, hp])
  | fail hp ho =>
      rw [Option.toList_none, List.append_nil]
      rcases hp with hp | hp | hp <;>
        exact hf.congr (by simp [hp]) rfl rfl (by simp [offered, hp])
  | skip hp hskip hv =>
      rw [Option.toList_none, List.append_nil]
      exact hf.look hinc ht hp rfl rfl (by rw [offered_proceed, hskip]; rfl)
  | keep hp hv =>
      rw [Option.toList_none, List.append_nil]
      exact hf.look hinc ht hp rfl rfl (by rw [hv]; rfl)
  | giveUp hp hv =>
      rw [Option.toList_none, List.append_nil]
      refine hf.look hinc ht hp rfl rfl ?_
      rw [← Job.survivors_singleton, j.survivors_of_isFatal hv]
      rfl
  | offer hp hstop hr =>
      rename_i frame batch
      obtain ⟨frames, hitems, hframes⟩ := hf.frames (by simp [hp])
      rw [offered] at hframes
      simp only [hp] at hframes
      refine .of_frames (frames ++ [frame]) (by rw [hitems]; simp) ?_
      rw [offered_proceed, List.append_nil, hframes]
      rfl
  | abandon hp hstop => rw [hs] at hstop; cases hstop
  | failClose hp ho =>
      rw [Option.toList_none, List.append_nil]
      exact hf.congr (by simp [hp]) rfl rfl (by simp [offered, called, hp])
  | announce hp hstop hr =>
      obtain ⟨frames, hitems, hframes⟩ := hf.frames (by simp [hp])
      refine ⟨frames, [.done w.cursor.partition], by rw [hitems]; rfl, ?_, .inr ⟨rfl, rfl⟩⟩
      rw [offered] at hframes
      simpa [hp, offered, seen] using hframes
  | vanish hp hstop => rw [hs] at hstop; cases hstop

/-- A step counts what the message comes to that it looks at. -/
theorem tally_of_transition (h : Transition j s w w' e) (hinc : IsIncreasing log)
    (ht : w.Tracks log) (c : Counter) :
    j.tally c (w'.seen log) = j.tally c (w.seen log) + if e.count = some c then 1 else 0 := by
  cases h with
  | skip hp hskip hv =>
      obtain ⟨-, -, hseen, -⟩ := ht.next hinc hp
      simp only [seen, cursor_proceed, position_proceed]
      rw [hseen, Job.tally_append, Job.tally_singleton]
      rfl
  | keep hp hv =>
      obtain ⟨-, -, hseen, -⟩ := ht.next hinc hp
      simp only [seen]
      rw [hseen, Job.tally_append, Job.tally_singleton, hv]
      simp [Verdict.counter, seen]
  | giveUp hp hv =>
      obtain ⟨-, -, hseen, -⟩ := ht.next hinc hp
      simp only [seen]
      rw [hseen, Job.tally_append, Job.tally_of_isFatal _ hv]
      simp [seen]
  | _ => simp [seen, called]

/-- What a step puts on the queue comes from the worker's partition. -/
theorem partition?_put (h : Transition j s w w' e) {item : Item} (hi : e.put = some item) :
    item.partition? = some w.cursor.partition := by
  cases h <;> cases hi <;> rfl

/-! ## Longer logs -/

section append

variable {m : Message} (hm : ∀ n ∈ log, n.offset < m.offset)

include hm

/-- A message behind all others is not among those that a worker has looked at. -/
theorem Tracks.seen_append (ht : w.Tracks log) : w.seen (log ++ [m]) = w.seen log :=
  within_append_singleton hm (Int.le_refl _) ht.isPlace

/-- The place of a worker still agrees with the log when that gets a message behind all others. -/
theorem Tracks.append (ht : w.Tracks log) : w.Tracks (log ++ [m]) where
  start_le := ht.start_le
  isPlace := ht.isPlace.append _
  fresh := ht.fresh
  equipped := ht.equipped
  ahead := by
    intro hr
    obtain ⟨c, hc, hle, hplace, hahead⟩ := ht.ahead hr
    refine ⟨c, hc, hle, hplace.append _, ?_⟩
    rw [within_append_singleton hm ht.start_le hplace, hahead]

theorem Feeds.append {items : List Item} (hf : w.Feeds j log items) (ht : w.Tracks log) :
    w.Feeds j (log ++ [m]) items := by
  obtain ⟨frames, marks, hitems, hframes, hmarks⟩ := hf
  exact ⟨frames, marks, hitems, by rw [ht.seen_append hm, hframes], hmarks⟩

end append

end Worker

end LogRelay
