import LogRelay.Proofs.Reading.Overrun
/-!
# Reading the last messages only

A reader may ask for the last messages of each partition only.  When a partition holds a message at
every offset from where it begins to its end, a worker that is asked for the last `tail` messages
looks at that many of them, or at all that there are, and at none in front of where the partition
begins.  What a shorter tail asks for is the last part of what a longer one asks for, so the frames
that the shorter one gets are the last ones that the longer one gets, unless a message that the
longer one meets on the way is one that cannot be dealt with: then the longer one ends there.

## Main definitions

* `Partition.first`, `Partition.IsDense`, `Partition.share`: where a partition begins, that it has no
  gap, and how many of its messages a tail asks for.
* `Job.withTail`: the same records, looked for in another tail.
* `Scene.IsReached`: a moment of a read in which nothing fails.
* `Scene.Consumes`: what the worker of a partition has looked at.

## Main statements

* `length_toRead`: how many messages are to be read.
* `exists_toRead_eq_append`: a shorter tail is the last part of a longer one.
* `KeepsTo.seen_eq_range_iff`: when a worker looks at all that it is to read.
* `read_of_shorter_tail`: what two reads with different tails come to.
-/
namespace LogRelay

open Message

/-! ## Partitions without gaps -/

namespace Partition

/-- The offset at which a partition begins. -/
def first (p : Partition) : Int :=
  max p.oldest 0

/-- There is a message at every offset from where the partition begins to its end. -/
def IsDense (p : Partition) : Prop :=
  ∀ o, p.first ≤ o → o < p.endOffset → ∃ m ∈ p.messages, m.offset = o

/-- How many messages a tail asks for: `tail` of them, but not more than there are, and all of them if
`tail` is not positive. -/
def share (p : Partition) (tail : Int) : Nat :=
  if tail ≤ 0 then (p.endOffset - p.first).toNat
  else (min tail (p.endOffset - p.first)).toNat

variable {p : Partition} {narrow wide : Int}

/-- Reading starts where the partition begins, or later. -/
theorem first_le_start (p : Partition) (tail : Int) : p.first ≤ (Reader.cursor tail p).start := by
  simp only [Reader.cursor, startOffset, first]
  split_ifs <;> omega

/-- A shorter tail starts no earlier than a longer one. -/
theorem start_anti (hle : wide ≤ 0 ∨ 0 < narrow ∧ narrow ≤ wide) :
    (Reader.cursor wide p).start ≤ (Reader.cursor narrow p).start := by
  simp only [Reader.cursor, startOffset, Option.getD_some]
  split_ifs <;> omega

/-- From where reading starts to the end there are as many offsets as the tail asks for. -/
theorem toNat_sub_start (p : Partition) (tail : Int) :
    (p.endOffset - (Reader.cursor tail p).start).toNat = p.share tail := by
  simp only [Reader.cursor, startOffset, Option.getD_some, share, first]
  split_ifs <;> omega

end Partition

/-- Where there is a message at every offset, there are as many messages as offsets. -/
theorem length_within {log : List Message} (hinc : IsIncreasing log) {a b : Int}
    (hall : ∀ o, a ≤ o → o < b → ∃ m ∈ log, m.offset = o) :
    (within log a b).length = (b - a).toNat := by
  have hoffsets : ((within log a b).map (·.offset)).Nodup :=
    (List.pairwise_map.2 ((hinc.upFrom a).filter _)).imp Int.ne_of_lt
  have hnumbers : ((List.range (b - a).toNat).map fun i : Nat => a + i).Nodup :=
    List.nodup_range.map fun i k h => Int.ofNat.inj (Int.add_left_cancel h)
  have hperm := (List.perm_ext_iff_of_nodup hoffsets hnumbers).2 fun o => by
    rw [List.mem_map, List.mem_map]
    constructor
    · rintro ⟨m, hm, rfl⟩
      obtain ⟨⟨-, hle⟩, hlt⟩ := mem_within.1 hm
      exact ⟨(m.offset - a).toNat, List.mem_range.2 (by omega), by omega⟩
    · rintro ⟨i, hi, rfl⟩
      have hlt := List.mem_range.1 hi
      obtain ⟨m, hm, hoff⟩ := hall (a + i) (by omega) (by omega)
      exact ⟨m, mem_within.2 ⟨⟨hm, by omega⟩, by omega⟩, hoff⟩
  simpa using hperm.length_eq

namespace Partition

variable {p : Partition} {narrow wide : Int}

/-- Reading comes to where it stops. -/
theorem IsDense.isMet (h : p.IsDense) (tail : Int) :
    (Reader.cursor tail p).IsMet p.messages := by
  have hfirst := p.first_le_start tail
  by_cases hle : p.endOffset ≤ (Reader.cursor tail p).start
  · exact .inl hle
  · exact .inr (h (p.endOffset - 1) (by omega) (by omega))

/-- As many messages are to be read as the tail asks for. -/
theorem IsDense.length_toRead (h : p.IsDense) (hinc : IsIncreasing p.messages) (tail : Int) :
    (p.toRead tail).length = p.share tail := by
  have hfirst := p.first_le_start tail
  rw [← p.toNat_sub_start tail]
  apply length_within hinc
  intro o hstart hend
  exact h o (by omega) hend

/-- What a shorter tail asks for is the last part of what a longer one asks for. -/
theorem exists_toRead_eq_append (hinc : IsIncreasing p.messages)
    (hle : wide ≤ 0 ∨ 0 < narrow ∧ narrow ≤ wide) :
    ∃ front, p.toRead wide = front ++ p.toRead narrow := by
  have hstart := start_anti (p := p) hle
  by_cases hend : (Reader.cursor narrow p).start ≤ p.endOffset
  · exact ⟨_, (within_append_within hinc hstart hend).symm⟩
  · have hnone : p.toRead narrow = [] := within_eq_nil (by simp only [Reader.cursor] at hend ⊢; omega)
    exact ⟨p.toRead wide, by rw [hnone, List.append_nil]⟩

end Partition

/-! ## Workers -/

namespace Worker.KeepsTo

variable {w : Worker} {j : Job} {log : List Message} {items : List Item}

/-- A worker looks at the messages that it is to read from the first one on. -/
theorem seen_prefix (hk : w.KeepsTo j log items) (ht : w.Tracks log) (hinc : IsIncreasing log) :
    w.seen log <+: w.cursor.range log := by
  have hstart := ht.start_le
  rcases hk.bounded with hpos | hpos
  · rw [seen, hpos, within_self]
    exact List.nil_prefix
  · exact ⟨_, within_append_within hinc hstart hpos⟩

/-- A worker that has left has looked at all that it was to read just if none of that but the last one
is a message that cannot be dealt with. -/
theorem seen_eq_range_iff (hk : w.KeepsTo j log items) (ht : w.Tracks log)
    (hinc : IsIncreasing log) (hl : w.IsLeaving) :
    w.seen log = w.cursor.range log ↔ ∀ m ∈ (w.cursor.range log).dropLast, j.isFatal m = false := by
  obtain ⟨rest, hrest⟩ := hk.seen_prefix ht hinc
  rcases hk.clean with ⟨hclean, hstop⟩ | ⟨-, front, m, hseen, hfront, hm⟩
  · have hall : w.seen log = w.cursor.range log := by
      rcases hk.bounded with hpos | hpos
      · have := hstop hl
        rw [Cursor.range, seen, hpos, within_self, within_eq_nil (by omega)]
      · rw [Cursor.range, seen, Int.le_antisymm hpos (hstop hl)]
    refine iff_of_true hall ?_
    intro n hn
    exact hclean n (hall ▸ (List.dropLast_subset _ hn))
  · constructor
    · intro hall
      rw [← hall, hseen, List.dropLast_concat]
      exact hfront
    · intro hall
      cases hr : rest with
      | nil => rw [← hrest, hr, List.append_nil]
      | cons n rest =>
          -- otherwise the message that made the worker leave is not the last one
          have hmem : m ∈ (w.cursor.range log).dropLast := by
            rw [← hrest, hr, hseen, List.dropLast_append_of_ne_nil (List.cons_ne_nil n rest)]
            simp
          rw [hall m hmem] at hm
          cases hm

end Worker.KeepsTo

/-! ## Two reads of one log -/

/-- The partitions of a topic have numbers of their own, and each of them holds its messages in order
and without a gap. -/
structure Cluster.IsGapless (c : Cluster) (topic : Json) : Prop where
  nodup : ((c.partitions topic).map (·.id)).Nodup
  increasing : ∀ p ∈ c.partitions topic, IsIncreasing p.messages
  dense : ∀ p ∈ c.partitions topic, p.IsDense

/-- The same records, looked for among the last `tail` messages of each partition. -/
def Job.withTail (j : Job) (tail : Int) : Job :=
  { j with request := { j.request with tail } }

namespace Job

variable (j : Job) (tail : Int)

@[simp] theorem tail_withTail : (j.withTail tail).request.tail = tail := rfl

/-! What a value comes to does not depend on how many messages are asked for. -/

@[simp] theorem survivors_withTail : (j.withTail tail).survivors = j.survivors := rfl

@[simp] theorem manageable_withTail : (j.withTail tail).manageable = j.manageable := rfl

end Job

namespace Scene

/-- A moment of a read in which nothing fails: the system some moves after a reader has been opened. -/
def IsReached (c : Cluster) (topic : Json) (job : Job) (s : Scene) : Prop :=
  ∃ capacity r before moves, Reader.opened c topic job capacity = .ok r ∧
    (∀ m ∈ moves, m.IsFaultless) ∧ (opened c r before).run moves = some s

/-- What the worker of a partition has looked at if the last `tail` messages are asked for: nothing in
front of where the partition begins, and the first ones of those that are to be read.  When the reader
has ended, these are as many as were asked for just if none of them but the last one is a message that
cannot be dealt with. -/
def Consumes (s : Scene) (p : Partition) (tail : Int) : Prop :=
  ∃ w ∈ s.reader.workers, w.cursor.partition = p.id ∧
    (∀ m ∈ w.seen (s.log p.id), p.first ≤ m.offset) ∧
    w.seen (s.log p.id) <+: p.toRead tail ∧
    (s.reader.next.1 = .ended →
      ((w.seen (s.log p.id)).length = p.share tail ↔
        ∀ m ∈ (p.toRead tail).dropLast, ¬ s.reader.job.Overwhelms m.value))

variable {c : Cluster} {topic : Json} {job : Job} {s t : Scene}

/-- The workers of a read of partitions without gaps keep to their ranges. -/
theorem IsReached.isBounded (h : IsReached c topic job s) (hf : job.request.follow = false)
    (hgapless : c.IsGapless topic) : s.IsBounded := by
  obtain ⟨capacity, r, before, moves, hopen, hm, hrun⟩ := h
  exact isBounded_run (isBounded_opened hopen hf hgapless.nodup hgapless.increasing
    (fun p hp => (hgapless.dense p hp).isMet _) before) hm hrun

/-- What has been handed out of a partition when a reader has ended. -/
theorem IsReached.delivered (h : IsReached c topic job s) (hf : job.request.follow = false)
    (hgapless : c.IsGapless topic) (hend : s.reader.next.1 = .ended) {p : Partition}
    (hp : p ∈ c.partitions topic) :
    s.delivered p.id = job.survivors (job.manageable (p.toRead job.request.tail)) := by
  obtain ⟨capacity, r, before, moves, hopen, hm, hrun⟩ := h
  have ho := isOutcome_of_ended hopen hf hgapless.nodup hgapless.increasing
    (fun q hq => (hgapless.dense q hq).isMet _) hm hrun hend
  have hframes := ho.frames p hp
  rwa [job_of_opened hopen hrun] at hframes

/-- What the workers have looked at in a read of partitions without gaps. -/
theorem IsReached.consumes (h : IsReached c topic job s) (hf : job.request.follow = false)
    (hgapless : c.IsGapless topic) {p : Partition} (hp : p ∈ c.partitions topic) :
    s.Consumes p job.request.tail := by
  have hb := h.isBounded hf hgapless
  obtain ⟨capacity, r, before, moves, hopen, -, hrun⟩ := h
  have hjob := job_of_opened hopen hrun
  obtain ⟨w, hw, hcursor⟩ := exists_worker hopen hrun hp
  have hid : w.cursor.partition = p.id := by rw [hcursor]; rfl
  have hkeeps := hb.keeps w hw
  have htracks := hb.tracks w hw
  have hlog := hb.increasing p.id
  rw [hid] at hkeeps htracks
  have hrange : w.cursor.range (s.log p.id) = p.toRead job.request.tail := by
    rw [hcursor]
    exact range_run hopen hgapless.nodup hp ((hgapless.dense p hp).isMet _) hrun hlog
  have hread := hkeeps.seen_prefix htracks hlog
  rw [hrange] at hread
  refine ⟨w, hw, hid, ?_, hread, ?_⟩
  · intro m hmem
    have hstart := (mem_within.1 hmem).1.2
    have hfirst := p.first_le_start job.request.tail
    rw [hcursor] at hstart
    omega
  · intro hend
    have hleft : w.IsLeaving := by
      simp [Worker.IsLeaving, (delivered_of_ended hb.toIsSound hend hw).1]
    have hiff := hkeeps.seen_eq_range_iff htracks hlog hleft
    simp only [hrange, hjob, Job.isFatal, ← Bool.not_eq_true, judge_isFatal_iff] at hiff
    rw [hjob, ← hiff, ← (hgapless.dense p hp).length_toRead (hgapless.increasing p hp)]
    exact ⟨hread.eq_of_length, congrArg List.length⟩

/-- **A shorter tail.**  Two readers that do not wait for later messages are opened on one topic whose
partitions have no gaps, and are used in any way in which nothing fails.  Both end.  The workers of
each look at as many messages of a partition as are asked for, or at all that there are, and at none
in front of where the partition begins, unless they meet a message that cannot be dealt with.  What
the shorter tail asks for is the last part of what the longer one asks for, and the frames that it
gets are the last ones that the longer one gets, unless a message in front of that part is one that
cannot be dealt with: then the longer tail gets what is in front of the first such message.  What
becomes of a partition depends on no other one. -/
theorem read_of_shorter_tail (hf : job.request.follow = false) (hgapless : c.IsGapless topic)
    {narrow wide : Int} (hle : wide ≤ 0 ∨ 0 < narrow ∧ narrow ≤ wide)
    (hs : IsReached c topic (job.withTail narrow) s)
    (ht : IsReached c topic (job.withTail wide) t) :
    s.CannotStall ∧ t.CannotStall ∧ ∀ p ∈ c.partitions topic,
      s.Consumes p narrow ∧ t.Consumes p wide ∧
        ∃ front, p.toRead wide = front ++ p.toRead narrow ∧
          (s.reader.next.1 = .ended → t.reader.next.1 = .ended →
            ((∀ m ∈ front, ¬ job.Overwhelms m.value) →
              t.delivered p.id = job.survivors front ++ s.delivered p.id) ∧
            ((∃ m ∈ front, job.Overwhelms m.value) →
              t.delivered p.id = job.survivors (job.manageable front))) := by
  refine ⟨cannotStall (hs.isBounded hf hgapless), cannotStall (ht.isBounded hf hgapless), ?_⟩
  intro p hp
  refine ⟨hs.consumes hf hgapless hp, ht.consumes hf hgapless hp, ?_⟩
  obtain ⟨front, hfront⟩ := Partition.exists_toRead_eq_append (hgapless.increasing p hp) hle
  refine ⟨front, hfront, ?_⟩
  intro hends hendt
  have hnarrow := hs.delivered hf hgapless hends hp
  have hwide := ht.delivered hf hgapless hendt hp
  simp only [Job.survivors_withTail, Job.manageable_withTail, Job.tail_withTail] at hnarrow hwide
  rw [hfront] at hwide
  constructor
  · intro hclean
    have hall : ∀ m ∈ front, job.isFatal m = false := by
      intro m hm
      rw [← Bool.not_eq_true]
      exact fun hv => hclean m hm ((judge_isFatal_iff _ _).1 hv)
    rw [hwide, hnarrow, job.manageable_append hall, job.survivors_append]
  · rintro ⟨m, hm, hover⟩
    obtain ⟨n, rest, hsplit, hn⟩ :=
      Job.exists_manageable_append hm ((judge_isFatal_iff _ _).2 hover)
    have hall : ∀ k ∈ job.manageable front, job.isFatal k = false := by
      intro k hk
      simpa using List.mem_takeWhile_imp hk
    have hcut : job.manageable (front ++ p.toRead narrow) = job.manageable front := by
      conv_lhs => rw [hsplit, List.append_assoc, List.cons_append]
      exact job.manageable_append_cons hall hn
    rw [hwide, hcut]

/-- A record of the last second of the year 9999 in front of another one: the tail of one message gets
the frame of the second one, and the tail of two messages gets nothing. -/
theorem read_of_shorter_tail_year_9999 :
    ∃ (c : Cluster) (job : Job) (s t : Scene) (p : Partition), c.IsGapless (.str "t") ∧
      IsReached c (.str "t") (job.withTail 1) s ∧ IsReached c (.str "t") (job.withTail 2) t ∧
        s.reader.next.1 = .ended ∧ t.reader.next.1 = .ended ∧ p ∈ c.partitions (.str "t") ∧
          s.delivered p.id = [[0, 0, 0, 4, 26, 2, 120, 10]] ∧ t.delivered p.id = [] ∧
            s.Consumes p 1 ∧ t.Consumes p 2 ∧
              ∃ front, p.toRead 2 = front ++ p.toRead 1 ∧ ∃ m ∈ front, job.Overwhelms m.value := by
  let late : Bytes := Message.letter "9999-12-31T23:59:59Z"
  let value : Bytes := Message.letter "1970-01-01T00:00:00Z"
  let p : Partition := { id := 0, messages := [⟨0, some late⟩, ⟨1, some value⟩] }
  let c : Cluster := { topics := [(.str "t", [p])] }
  let job : Job := { containerId := .str "c", request := { follow := false }, nesting := 100 }
  have hparts : c.partitions (.str "t") = [p] := rfl
  have hgapless : c.IsGapless (.str "t") := by
    refine ⟨by simp [hparts], ?_, ?_⟩ <;> simp only [hparts, List.mem_singleton, forall_eq]
    · simp [IsIncreasing, p]
    · intro o hfirst hend
      have hbounds : p.first = 0 ∧ p.endOffset = 2 := by decide
      have hcases : o = 0 ∨ o = 1 := by omega
      rcases hcases with rfl | rfl <;> simp [p]
  have hopen (tail : Int) : Reader.opened c (.str "t") (job.withTail tail) 0 =
      .ok (.ofCursors (.str "t") (job.withTail tail) 0 [Reader.cursor tail p]) :=
    Reader.opened_of_single _ 0 rfl rfl hparts
  let moves (steps ends : Nat) : List Move :=
    List.replicate steps (.work 0 2 none) ++ List.replicate ends .take
  have hmoves (steps ends : Nat) : ∀ m ∈ moves steps ends, m.IsFaultless := by
    intro m hm
    rcases List.mem_append.1 hm with hm | hm <;> rw [List.eq_of_mem_replicate hm]
    · exact rfl
    · trivial
  have hread (tail : Int) (steps ends : Nat) (frames : List Bytes)
      (hvalue : ((opened c (.ofCursors (.str "t") (job.withTail tail) 0 [Reader.cursor tail p])
        {}).run (moves steps ends)).map (fun s => (s.reader.isOver, s.delivered 0)) =
          some (true, frames)) :
      ∃ s, IsReached c (.str "t") (job.withTail tail) s ∧ s.reader.next.1 = .ended ∧
        s.delivered 0 = frames := by
    obtain ⟨s, hrun, hs⟩ := Option.map_eq_some_iff.1 hvalue
    obtain ⟨hover, hframes⟩ := Prod.mk.inj hs
    exact ⟨s, ⟨0, _, {}, _, hopen tail, hmoves steps ends, hrun⟩,
      by rw [Reader.next, if_pos hover], hframes⟩
  obtain ⟨s, hs, hends, hframe⟩ := hread 1 9 2 [[0, 0, 0, 4, 26, 2, 120, 10]] (by decide +kernel)
  obtain ⟨t, ht, hendt, hnone⟩ := hread 2 8 1 [] (by decide +kernel)
  have hp : p ∈ c.partitions (.str "t") := by simp [hparts]
  obtain ⟨-, -, hall⟩ := read_of_shorter_tail rfl hgapless (.inr (by decide)) hs ht
  obtain ⟨hsone, htwo, front, hfront, hcases⟩ := hall p hp
  refine ⟨c, job, s, t, p, hgapless, hs, ht, hends, hendt, hp, hframe, hnone, hsone, htwo, front,
    hfront, ?_⟩
  -- otherwise the longer tail would have got what the shorter one got
  by_contra hno
  push Not at hno
  have hsuffix := (hcases hends hendt).1 hno
  rw [show s.delivered p.id = _ from hframe, show t.delivered p.id = _ from hnone] at hsuffix
  simp at hsuffix

end Scene

end LogRelay
