import LogRelay.Proofs.Reading.Soundness
/-!
# Workers that stop at the captured end

A worker that does not wait for later messages reads up to the end of its partition as it was when
the reader was opened.  When there is a message just below that end, it looks at no message from the
end on, and if nothing fails it leaves either because it has come to the end, or because of a message
that cannot be dealt with; in the latter case that is the last message that it looks at.

## Main definitions

* `Cursor.IsMet`: reading comes to where it stops.
* `Cursor.range`: the messages that are to be read.
* `Worker.KeepsTo`: how far a worker has come in its range.
* `Scene.IsBounded`: all workers keep to their ranges.

## Main statements

* `keepsTo_of_transition`: a step of a worker that nothing fails keeps it in its range.
* `KeepsTo.survivors_seen`, `KeepsTo.tally_seen`: what has come of the range when a worker has left.
* `isBounded_run`: a run in which nothing fails keeps all workers in their ranges.
-/
namespace LogRelay

open Message

namespace Cursor

/-- There is a message just below where reading stops, unless nothing is to be read. -/
def IsMet (c : Cursor) (log : List Message) : Prop :=
  c.stop ≤ c.start ∨ ∃ m ∈ log, m.offset = c.stop - 1

/-- The messages that are to be read. -/
def range (c : Cursor) (log : List Message) : List Message :=
  within log c.start c.stop

/-- Messages that are appended later are not to be read. -/
theorem range_append {c : Cursor} {log rest : List Message} (hinc : IsIncreasing (log ++ rest))
    (hmet : c.IsMet log) : c.range (log ++ rest) = c.range log := by
  rw [range, range, within_append, List.append_right_eq_self]
  rcases hmet with hle | ⟨m, hm, hoff⟩
  · exact within_eq_nil hle
  · rw [List.eq_nil_iff_forall_not_mem]
    intro n hn
    obtain ⟨⟨hn, -⟩, hlt⟩ := mem_within.1 hn
    have := (List.pairwise_append.1 hinc).2.2 m hm n hn
    omega

theorem IsMet.append {c : Cursor} {log : List Message} (hmet : c.IsMet log)
    (rest : List Message) : c.IsMet (log ++ rest) := by
  rcases hmet with hle | ⟨m, hm, hoff⟩
  · exact .inl hle
  · exact .inr ⟨m, List.mem_append_left _ hm, hoff⟩

end Cursor

namespace Worker

variable {j : Job} {s : Surroundings} {w w' : Worker} {e : Effect} {log : List Message}
  {items : List Item}

/-- How far a worker has come in the part that it reads.  It does not look beyond where reading stops,
and polls only below that.  It has left because it has come there, or because the last message that it
looked at cannot be dealt with.  When it has ended, its end is on the queue. -/
structure KeepsTo (w : Worker) (j : Job) (log : List Message) (items : List Item) : Prop where
  bounded : w.position = w.cursor.start ∨ w.position ≤ w.cursor.stop
  wanting : w.phase = .polling ∨ (∃ batch, w.phase = .handling batch) →
    w.position < w.cursor.stop
  clean : (∀ m ∈ w.seen log, j.isFatal m = false) ∧ (w.IsLeaving → w.cursor.stop ≤ w.position) ∨
    w.IsLeaving ∧ ∃ front m, w.seen log = front ++ [m] ∧
      (∀ n ∈ front, j.isFatal n = false) ∧ j.isFatal m = true
  announced : w.phase = .ended → Item.done w.cursor.partition ∈ items

theorem isCaughtUp_iff (hf : j.request.follow = false) :
    w.isCaughtUp j = true ↔ w.cursor.stop ≤ w.position := by
  simp [isCaughtUp, hf]

/-- A worker that has not left has met no message that cannot be dealt with. -/
theorem KeepsTo.isFatal_seen (hk : w.KeepsTo j log items) (hl : ¬ w.IsLeaving) :
    ∀ m ∈ w.seen log, j.isFatal m = false := by
  rcases hk.clean with ⟨h, -⟩ | ⟨h, -⟩
  · exact h
  · exact absurd h hl

/-- A worker that goes on reading. -/
theorem KeepsTo.of_not_isLeaving (hl : ¬ w.IsLeaving)
    (hb : w.position = w.cursor.start ∨ w.position ≤ w.cursor.stop)
    (hw : w.phase = .polling ∨ (∃ batch, w.phase = .handling batch) →
      w.position < w.cursor.stop)
    (hclean : ∀ m ∈ w.seen log, j.isFatal m = false) : w.KeepsTo j log items where
  bounded := hb
  wanting := hw
  clean := .inl ⟨hclean, fun h => absurd h hl⟩
  announced := fun h => absurd (by simp [IsLeaving, h]) hl

/-- A worker that goes on after a message, or has come to where reading stops. -/
theorem KeepsTo.proceed (hf : j.request.follow = false) (batch : List Message)
    (hb : w.position = w.cursor.start ∨ w.position ≤ w.cursor.stop)
    (hclean : ∀ m ∈ w.seen log, j.isFatal m = false) :
    (w.proceed j batch).KeepsTo j log items := by
  rcases phase_proceed w j batch with ⟨hc, hp⟩ | ⟨hc, hp⟩
  · have hlt : ¬ w.cursor.stop ≤ w.position := by
      rw [← isCaughtUp_iff hf, hc]
      exact Bool.false_ne_true
    refine .of_not_isLeaving (by simp [IsLeaving, hp]) hb (fun _ => ?_) hclean
    simp only [cursor_proceed, position_proceed]
    omega
  · exact
      { bounded := hb
        wanting := by simp [hp]
        clean := .inl ⟨hclean, fun _ => (isCaughtUp_iff hf).1 hc⟩
        announced := by simp [hp] }

/-- The next message of a batch lies below where reading stops. -/
theorem KeepsTo.offset_lt (hk : w.KeepsTo j log items) (ht : w.Tracks log)
    (hinc : IsIncreasing log) (hmet : w.cursor.IsMet log) {m : Message} {batch : List Message}
    (hp : w.phase = .handling (m :: batch)) : m.offset < w.cursor.stop := by
  have hpos := hk.wanting (.inr ⟨_, hp⟩)
  have hstart := ht.start_le
  obtain ⟨-, -, hseen, -⟩ := ht.next hinc hp
  rcases hmet with hle | ⟨k, hk, hoff⟩
  · omega
  · by_contra hge
    have hmem : k ∈ within log w.cursor.start (m.offset + 1) :=
      mem_within.2 ⟨⟨hk, by omega⟩, by omega⟩
    rw [hseen, List.mem_append, List.mem_singleton] at hmem
    rcases hmem with hmem | rfl
    · have := (mem_within.1 hmem).2
      omega
    · omega

/-- A message that can be dealt with is not the one that a worker leaves because of. -/
theorem KeepsTo.isFatal_next (hk : w.KeepsTo j log items) (ht : w.Tracks log)
    (hinc : IsIncreasing log) {m : Message} {batch : List Message}
    (hp : w.phase = .handling (m :: batch)) (hm : j.isFatal m = false) :
    ∀ n ∈ within log w.cursor.start (m.offset + 1), j.isFatal n = false := by
  obtain ⟨-, -, hseen, -⟩ := ht.next hinc hp
  intro n hn
  rw [hseen, List.mem_append, List.mem_singleton] at hn
  rcases hn with hn | rfl
  · exact hk.isFatal_seen (by simp [IsLeaving, hp]) n hn
  · exact hm

/-- A step of a worker that nothing fails keeps it in the part that it reads. -/
theorem keepsTo_of_transition (h : Transition j s w w' e) (hf : j.request.follow = false)
    (hs : s.stopping = false) (ho : s.outage = none) (hinc : IsIncreasing log)
    (hmet : w.cursor.IsMet log) (ht : w.Tracks log) (hk : w.KeepsTo j log items) :
    w'.KeepsTo j log (items ++ e.put.toList) := by
  cases h with
  | create hp | assign hp | seek hp =>
      exact .of_not_isLeaving (by simp [IsLeaving, called]) hk.bounded (by simp [called])
        (hk.isFatal_seen (by simp [IsLeaving, hp]))
  | fail hp hout | failPoll hp hout | failClose hp hout =>
      rw [ho] at hout
      cases hout
  | goOn hp _ hc =>
      have hlt : ¬ w.cursor.stop ≤ w.position := by
        rw [← isCaughtUp_iff hf, hc]
        exact Bool.false_ne_true
      exact .of_not_isLeaving (by simp [IsLeaving]) hk.bounded (fun _ => by simp only; omega)
        (hk.isFatal_seen (by simp [IsLeaving, hp]))
  | leave hp hc =>
      have hcaught : w.isCaughtUp j = true := by simpa [hs] using hc
      exact
        { bounded := hk.bounded
          wanting := by simp
          clean := .inl ⟨hk.isFatal_seen (by simp [IsLeaving, hp]),
            fun _ => (isCaughtUp_iff hf).1 hcaught⟩
          announced := by simp }
  | pollNone hp | poll hp =>
      exact .of_not_isLeaving (by simp [IsLeaving, called]) hk.bounded
        (fun _ => hk.wanting (.inl hp)) (hk.isFatal_seen (by simp [IsLeaving, hp]))
  | exhaust hp =>
      exact .of_not_isLeaving (by simp [IsLeaving]) hk.bounded (by simp)
        (hk.isFatal_seen (by simp [IsLeaving, hp]))
  | skip hp hframe hv =>
      have hlt := hk.offset_lt ht hinc hmet hp
      exact .proceed hf _ (.inr (by simp only; omega)) (hk.isFatal_next ht hinc hp hv)
  | keep hp hv =>
      have hlt := hk.offset_lt ht hinc hmet hp
      have hm : j.isFatal _ = false := congrArg Verdict.isFatal hv
      exact .of_not_isLeaving (by simp [IsLeaving]) (.inr (by simp only; omega)) (by simp)
        (hk.isFatal_next ht hinc hp hm)
  | giveUp hp hv =>
      have hlt := hk.offset_lt ht hinc hmet hp
      obtain ⟨-, -, hseen, -⟩ := ht.next hinc hp
      exact
        { bounded := .inr (by simp only; omega)
          wanting := by simp
          clean := .inr ⟨by simp [IsLeaving], _, _, hseen,
            hk.isFatal_seen (by simp [IsLeaving, hp]), hv⟩
          announced := by simp }
  | offer hp =>
      exact .proceed hf _ hk.bounded (hk.isFatal_seen (by simp [IsLeaving, hp]))
  | abandon hp hstop | vanish hp hstop =>
      rw [hs] at hstop
      cases hstop
  | close hp =>
      have hclean := hk.clean
      simp only [IsLeaving, hp] at hclean
      exact
        { bounded := hk.bounded
          wanting := by simp [called]
          clean := hclean
          announced := by simp [called] }
  | announce hp =>
      have hclean := hk.clean
      simp only [IsLeaving, hp] at hclean
      exact
        { bounded := hk.bounded
          wanting := by simp
          clean := hclean
          announced := by simp }

/-- A longer log does not change how far a worker has come. -/
theorem KeepsTo.append {m : Message} (hk : w.KeepsTo j log items) (ht : w.Tracks log)
    (hm : ∀ n ∈ log, n.offset < m.offset) : w.KeepsTo j (log ++ [m]) items where
  bounded := hk.bounded
  wanting := hk.wanting
  clean := by
    rw [ht.seen_append hm]
    exact hk.clean
  announced := hk.announced

/-- A worker that has left has looked at the messages of its range up to the first one that cannot be
dealt with, and at that one if there is one. -/
theorem KeepsTo.seen_eq (hk : w.KeepsTo j log items) (ht : w.Tracks log) (hinc : IsIncreasing log)
    (hl : w.IsLeaving) :
    w.seen log = j.manageable (w.cursor.range log) ∨
      ∃ m, j.isFatal m = true ∧ w.seen log = j.manageable (w.cursor.range log) ++ [m] := by
  have hstart := ht.start_le
  rcases hk.clean with ⟨hclean, hstop⟩ | ⟨-, front, m, hseen, hfront, hm⟩
  · left
    have hrange : w.cursor.range log = w.seen log := by
      rcases hk.bounded with hpos | hpos
      · have := hstop hl
        rw [Cursor.range, seen, hpos, within_self, within_eq_nil (by omega)]
      · rw [Cursor.range, seen, Int.le_antisymm hpos (hstop hl)]
    rw [hrange, j.manageable_eq_self hclean]
  · right
    refine ⟨m, hm, ?_⟩
    have hpos : w.position ≤ w.cursor.stop := by
      rcases hk.bounded with hpos | hpos
      · rw [seen, hpos, within_self] at hseen
        simp at hseen
      · exact hpos
    have hrange : w.cursor.range log = front ++ m :: within log w.position w.cursor.stop := by
      rw [Cursor.range, ← within_append_within hinc hstart hpos]
      simp only [seen] at hseen
      rw [hseen, List.append_assoc, List.singleton_append]
    rw [hrange, j.manageable_append_cons hfront hm, hseen]

/-- The frames of a worker that has left. -/
theorem KeepsTo.survivors_seen (hk : w.KeepsTo j log items) (ht : w.Tracks log)
    (hinc : IsIncreasing log) (hl : w.IsLeaving) :
    j.survivors (w.seen log) = j.survivors (j.manageable (w.cursor.range log)) := by
  rcases hk.seen_eq ht hinc hl with h | ⟨m, hm, h⟩
  · rw [h]
  · rw [h, j.survivors_append, j.survivors_of_isFatal hm, List.append_nil]

/-- What a worker that has left has counted. -/
theorem KeepsTo.tally_seen (hk : w.KeepsTo j log items) (ht : w.Tracks log)
    (hinc : IsIncreasing log) (hl : w.IsLeaving) (c : Counter) :
    j.tally c (w.seen log) = j.tally c (j.manageable (w.cursor.range log)) := by
  rcases hk.seen_eq ht hinc hl with h | ⟨m, hm, h⟩
  · rw [h]
  · rw [h, j.tally_append, j.tally_of_isFatal hm, Nat.add_zero]

end Worker

namespace Scene

/-- The reader is sound and does not wait for later messages, and its workers keep to what they are to
read. -/
structure IsBounded (s : Scene) : Prop extends s.IsSound where
  nonfollow : s.reader.job.request.follow = false
  met : s.All fun w log _ => w.cursor.IsMet log
  keeps : s.All (Worker.KeepsTo · s.reader.job)

variable {s s' : Scene}

/-- Each move at which nothing fails keeps the workers in their ranges. -/
theorem IsBounded.step {m : Move} (hb : s.IsBounded) (hm : m.IsFaultless)
    (h : s.step m = some s') : s'.IsBounded where
  toIsSound := hb.toIsSound.step h
  nonfollow := job_step h ▸ hb.nonfollow
  met := by
    refine hb.met.step hb.toIsOpen h ?_ ?_
    · intro i size outage _ w hw w' e htr _ hmet
      rw [Worker.cursor_of_transition htr]
      exact hmet
    · intro w _ n _ _ hmet
      exact hmet.append _
  keeps := by
    rw [job_step h]
    refine hb.keeps.step hb.toIsOpen h ?_ ?_
    · rintro i size outage rfl w hw w' e htr items hk
      exact Worker.keepsTo_of_transition htr hb.nonfollow hb.going hm (hb.increasing _)
        (hb.met w hw) (hb.tracks w hw) hk
    · intro w hw n hn _ hk
      exact hk.append (hb.tracks w hw) hn

/-- A run in which nothing fails keeps the workers in their ranges. -/
theorem isBounded_run {moves : List Move} (hb : s.IsBounded) (hm : ∀ m ∈ moves, m.IsFaultless)
    (h : s.run moves = some s') : s'.IsBounded :=
  run_induction (fun _ _ _ hb hm h => hb.step hm h) hb hm h

/-- The workers of a reader that has just been opened are in their ranges. -/
theorem isBounded_ofCursors {c : Cluster} {topic : Json} {job : Job} {capacity : Int}
    {cursors : List Cursor} {m : Metrics} (hf : job.request.follow = false)
    (hnodup : (cursors.map (·.partition)).Nodup)
    (hinc : ∀ p ∈ c.partitions topic, IsIncreasing p.messages)
    (hmet : ∀ cursor ∈ cursors,
      cursor.IsMet (((c.partition? topic cursor.partition).map (·.messages)).getD [])) :
    IsBounded { cluster := c, reader := Reader.ofCursors topic job capacity cursors, metrics := m }
    where
  toIsSound := isSound_ofCursors hnodup hinc
  nonfollow := hf
  met := by
    intro w hw
    obtain ⟨cursor, hcursor, rfl⟩ := List.mem_map.1 hw
    exact hmet cursor hcursor
  keeps := by
    intro w hw
    obtain ⟨cursor, -, rfl⟩ := List.mem_map.1 hw
    exact .of_not_isLeaving (by simp [Worker.ofCursor, Worker.IsLeaving]) (.inl rfl)
      (by simp [Worker.ofCursor]) (by simp [Worker.ofCursor, Worker.seen, within_self])

end Scene

end LogRelay
