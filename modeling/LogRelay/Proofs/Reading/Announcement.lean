import LogRelay.Proofs.Reading.Prefix
/-!
# How workers announce their end

A worker that has ended has announced it on the queue, behind all its frames, however it came to its
end, with one exception: a worker that fails to close its consumer ends without a word.  So a reader
that nobody closes comes to its end exactly when all its workers have ended, none of them in that way,
and no frame is left on the queue; if there is a worker that has ended in that way, the reader waits
for ever.  Who asks for a frame does not see what a call for bytes has left of an earlier one: the reader
comes to its end over that.

## Main definitions

* `Scene.unclosed`: the partitions whose workers fail to close their consumers in a run.
* `Worker.Announces`: a worker has announced its end just if it has ended and closed its consumer.

## Main statements

* `announces_of_transition`: what a step of a worker announces.
* `announces_run`: what has been announced after a run.
* `Reader.next_of_buffer`: who asks for a frame does not see what is left of an earlier one.
* `next_eq_ended_iff`: when the reader ends.
* `ended_announces`: all of that for a reader that has been opened.
-/
namespace LogRelay

open Message

namespace Reader

/-- A reader ends if only ends of workers are on its queue, and those of all workers are there or have
been taken. -/
theorem next_eq_ended_of_isDone {r : Reader} (hq : ∀ item ∈ r.queue, item.isDone = true)
    (hlen : r.workers.length ≤ r.markers + r.queue.length) : r.next.1 = .ended := by
  induction r using Reader.next.induct with
  | case1 r ho => rw [next_of_isOver ho]
  | case2 r ho ht =>
      simp only [take_eq_none.1 ht, List.length_nil, Nat.add_zero] at hlen
      simp [isOver, hlen] at ho
  | case3 r ho id bs r' ht =>
      obtain ⟨queue, hcons, -⟩ := take_eq_some.1 ht
      simp [hcons, Item.isDone] at hq
  | case4 r ho id r' ht ih =>
      rw [next_of_done (by simpa using ho) ht]
      obtain ⟨queue, hcons, rfl⟩ := take_eq_some.1 ht
      rw [hcons] at hq hlen
      apply ih
      · exact fun item hitem => hq item (List.mem_cons_of_mem _ hitem)
      · simp only [List.length_cons, Item.isDone, if_true] at hlen ⊢
        omega
  | case5 r ho r' ht => rw [next_of_closed (by simpa using ho) ht]

/-- What is left of a frame is neither seen nor touched by who asks for the next one. -/
theorem next_of_buffer (r : Reader) (bs : Bytes) :
    ({ r with buffer := bs } : Reader).next = (r.next.1, { r.next.2 with buffer := bs }) := by
  have htake {r r' : Reader} {item : Item} (h : r.take = some (item, r')) :
      ({ r with buffer := bs } : Reader).take = some (item, { r' with buffer := bs }) := by
    obtain ⟨queue, hcons, rfl⟩ := take_eq_some.1 h
    exact take_eq_some.2 ⟨queue, hcons, rfl⟩
  induction r using Reader.next.induct with
  | case1 r ho => rw [next_of_isOver ho, next_of_isOver (r := { r with buffer := bs }) ho]
  | case2 r ho ht =>
      have ho : r.isOver = false := by simpa using ho
      have hq := take_eq_none.1 ht
      rw [next_of_queue_eq_nil ho hq, next_of_queue_eq_nil (r := { r with buffer := bs }) ho hq]
  | case3 r ho id frame r' ht =>
      have ho : r.isOver = false := by simpa using ho
      rw [next_of_frame ho ht, next_of_frame (r := { r with buffer := bs }) ho (htake ht)]
  | case4 r ho id r' ht ih =>
      have ho : r.isOver = false := by simpa using ho
      rw [next_of_done ho ht, next_of_done (r := { r with buffer := bs }) ho (htake ht), ih]
  | case5 r ho r' ht =>
      have ho : r.isOver = false := by simpa using ho
      rw [next_of_closed ho ht, next_of_closed (r := { r with buffer := bs }) ho (htake ht)]

end Reader

namespace Worker

variable {j : Job} {s : Surroundings} {w w' : Worker} {e : Effect} {log : List Message}
  {items : List Item}

/-- The end of the worker is among the items that it has put on the queue just if the worker has ended
and its partition is not one of the given ones; it has ended if its partition is one of them. -/
structure Announces (w : Worker) (items : List Item) (unclosed : List Int) : Prop where
  mem_iff : Item.done w.cursor.partition ∈ items ↔
    w.phase = .ended ∧ w.cursor.partition ∉ unclosed
  ended : w.cursor.partition ∈ unclosed → w.phase = .ended

/-- Whether a step at which there is perhaps an outage is one that fails to close the consumer. -/
def failsToClose (w : Worker) (outage : Option Outage) : Bool :=
  w.phase = .closing && w.consumer.isSome && outage.isSome

/-- A worker that has not ended has not announced its end, and has not failed to close its consumer. -/
theorem Announces.of_not_ended {unclosed : List Int} (ha : w.Announces items unclosed)
    (hp : w.phase ≠ .ended) :
    Item.done w.cursor.partition ∉ items ∧ w.cursor.partition ∉ unclosed :=
  ⟨fun h => hp (ha.mem_iff.1 h).1, fun h => hp (ha.ended h)⟩

/-- A step that puts no end on the queue, and leads to no end. -/
theorem Announces.congr {unclosed : List Int} (ha : w.Announces items unclosed)
    (hp : w.phase ≠ .ended) (hp' : w'.phase ≠ .ended) (hcur : w'.cursor = w.cursor)
    (hput : Item.done w.cursor.partition ∉ e.put.toList) :
    w'.Announces (items ++ e.put.toList) unclosed := by
  obtain ⟨hitems, hclosed⟩ := ha.of_not_ended hp
  constructor
  · rw [hcur, List.mem_append]
    exact ⟨fun h => absurd h (not_or.2 ⟨hitems, hput⟩), fun h => absurd h.1 hp'⟩
  · rw [hcur]
    exact fun h => absurd h hclosed

/-- A step of a worker that is not told to stop announces its end if it leads to that, unless the step
fails to close the consumer. -/
theorem announces_of_transition (h : Transition j s w w' e) (hs : s.stopping = false)
    {unclosed : List Int} (ha : w.Announces items unclosed) :
    w'.Announces (items ++ e.put.toList)
      (unclosed ++ if w.failsToClose s.outage then [w.cursor.partition] else []) := by
  cases h with
  | failClose hp ho hc =>
      obtain ⟨hitems, hclosed⟩ := ha.of_not_ended (by simp [hp])
      constructor
      · simp [called, failsToClose, hp, ho, hc, hitems]
      · simp [called]
  | announce hp hstop hr =>
      obtain ⟨-, hclosed⟩ := ha.of_not_ended (by simp [hp])
      constructor
      · simp [failsToClose, hp, hclosed]
      · simp
  | abandon hp hstop | vanish hp hstop =>
      rw [hs] at hstop
      cases hstop
  | close hp ho =>
      have hnot : w.failsToClose s.outage = false := by
        rcases ho with ho | ho <;> simp [failsToClose, ho]
      rw [hnot, if_neg Bool.false_ne_true, List.append_nil]
      exact ha.congr (by simp [hp]) (by simp [called]) rfl (by simp)
  | fail hp ho =>
      have hnot : w.failsToClose s.outage = false := by
        rcases hp with hp | hp | hp <;> simp [failsToClose, hp]
      rw [hnot, if_neg Bool.false_ne_true, List.append_nil]
      exact ha.congr (by rcases hp with hp | hp | hp <;> simp [hp]) (by simp) rfl (by simp)
  | create hp | assign hp | seek hp | goOn hp | leave hp | failPoll hp | pollNone hp | poll hp
  | exhaust hp | keep hp | giveUp hp =>
      have hnot : w.failsToClose s.outage = false := by simp [failsToClose, hp]
      rw [hnot, if_neg Bool.false_ne_true, List.append_nil]
      exact ha.congr (by simp [hp]) (by simp [called]) rfl (by simp)
  | skip hp | offer hp =>
      have hnot : w.failsToClose s.outage = false := by simp [failsToClose, hp]
      rw [hnot, if_neg Bool.false_ne_true, List.append_nil]
      refine ha.congr (by simp [hp]) ?_ rfl (by simp)
      rcases phase_proceed _ j _ with ⟨-, h⟩ | ⟨-, h⟩ <;> rw [h] <;> simp

end Worker

namespace Scene

variable {s s' : Scene}

/-- The partition whose worker fails to close its consumer at a move, if there is one. -/
def unclosedAt (s : Scene) : Move → List Int
  | .work i _ outage =>
    match s.reader.workers[i]? with
    | some w => if w.failsToClose outage then [w.cursor.partition] else []
    | none => []
  | _ => []

/-- The partitions whose workers fail to close their consumers in the course of some moves. -/
def unclosed (s : Scene) : List Move → List Int
  | [] => []
  | m :: moves => s.unclosedAt m ++ ((s.step m).map (·.unclosed moves)).getD []

/-- What the workers have announced after a move. -/
theorem announces_step {m : Move} {before : List Int} (ho : s.IsOpen)
    (ha : s.All fun w _ items => w.Announces items before) (h : s.step m = some s') :
    s'.All fun w _ items => w.Announces items (before ++ s.unclosedAt m) := by
  refine ha.step_to ho h ?_ ?_ ?_
  · rintro i size outage rfl w hi w' e htr items hw
    have hat : s.unclosedAt (.work i size outage) =
        if w.failsToClose outage then [w.cursor.partition] else [] := by
      rw [unclosedAt, hi]
    rw [hat]
    exact Worker.announces_of_transition htr ho.going hw
  · intro w _ hne items hw
    -- another worker's failure is not this one's
    have hnot : w.cursor.partition ∉ s.unclosedAt m := by
      cases m with
      | work i size outage =>
          cases hi : s.reader.workers[i]? with
          | none => simp [unclosedAt, hi]
          | some v =>
              have := hne i size outage rfl v hi
              simp only [unclosedAt, hi]
              split_ifs <;> simp [this]
      | take | append => simp [unclosedAt]
    constructor
    · rw [List.mem_append, not_or, and_iff_left hnot]
      exact hw.mem_iff
    · rw [List.mem_append, or_iff_left hnot]
      exact hw.ended
  · rintro id offset value rfl w _ n _ items hw
    simpa [unclosedAt] using hw

/-- What the workers have announced after a run. -/
theorem announces_run {moves : List Move} {before : List Int} (ho : s.IsOpen)
    (ha : s.All fun w _ items => w.Announces items before) (h : s.run moves = some s') :
    s'.All fun w _ items => w.Announces items (before ++ s.unclosed moves) := by
  induction moves generalizing s before with
  | nil =>
      obtain rfl : s = s' := Option.some.inj h
      rwa [unclosed, List.append_nil]
  | cons m moves ih =>
      rw [run_cons] at h
      obtain ⟨t, ht, hrun⟩ := Option.bind_eq_some_iff.1 h
      rw [unclosed, ht, Option.map_some, Option.getD_some, ← List.append_assoc]
      exact ih (ho.step ht) (announces_step ho ha ht) hrun

/-- What a worker has put on the queue: its frames, and then its end if it has announced that. -/
theorem itemsOf_eq_of_announces (hs : s.IsSound) {unclosed : List Int}
    (ha : s.All fun w _ items => w.Announces items unclosed) {w : Worker}
    (hw : w ∈ s.reader.workers) : ∃ frames : List Bytes,
      s.itemsOf w.cursor.partition = frames.map (Item.frame w.cursor.partition) ++
        if w.phase = .ended ∧ w.cursor.partition ∉ unclosed then [.done w.cursor.partition]
        else [] := by
  obtain ⟨frames, marks, hitems, -, hmarks⟩ := hs.feeds w hw
  refine ⟨frames, ?_⟩
  have hmem := (ha w hw).mem_iff
  rw [hitems] at hmem ⊢
  rcases hmarks with rfl | ⟨rfl, -⟩
  · have hnot : Item.done w.cursor.partition ∉
        frames.map (Item.frame w.cursor.partition) ++ [] := by simp
    rw [if_neg fun h => hnot (hmem.2 h)]
  · rw [if_pos (hmem.1 (by simp))]

/-- The reader ends exactly when all workers have ended and closed their consumers, and only ends of
workers are on the queue. -/
theorem next_eq_ended_iff (hs : s.IsSound) {unclosed : List Int}
    (ha : s.All fun w _ items => w.Announces items unclosed) :
    s.reader.next.1 = .ended ↔
      (∀ w ∈ s.reader.workers, w.phase = .ended ∧ w.cursor.partition ∉ unclosed) ∧
        ∀ item ∈ s.reader.queue, item.isDone = true := by
  constructor
  · intro hend
    obtain ⟨ends, rest, hq, -, hd⟩ := exists_ends_of_ended hs hend
    refine ⟨?_, ?_⟩
    · intro w hw
      apply (ha w hw).mem_iff.1
      refine List.mem_filter.2 ⟨?_, by simp [Item.partition?]⟩
      rw [hq, ← List.append_assoc]
      exact List.mem_append_left rest (hd w hw)
    · intro item hitem
      cases item with
      | done id => rfl
      | closed => exact absurd hitem (closed_notMem hs)
      | frame id bs =>
          -- its worker has ended, and all its frames have been handed out
          obtain ⟨k, hk, hpart⟩ := hs.owned _ (List.mem_append_right s.taken hitem)
          obtain ⟨w, hw, rfl⟩ := List.mem_map.1 hk
          obtain rfl : id = w.cursor.partition := Option.some.inj hpart
          have hqueued := delivered_append_queue hs hw
          rw [(delivered_of_ended hs hend hw).2, List.append_right_eq_self,
            List.append_eq_nil_iff, List.filterMap_eq_nil_iff] at hqueued
          have := hqueued.1 _ hitem
          simp [Item.frameOf?] at this
  · rintro ⟨hall, hqueue⟩
    apply Reader.next_eq_ended_of_isDone hqueue
    have hsub : s.reader.partitions ⊆ (s.taken ++ s.reader.queue).filterMap Item.done? := by
      intro id hid
      obtain ⟨w, hw, rfl⟩ := List.mem_map.1 hid
      have hd := (List.mem_filter.1 ((ha w hw).mem_iff.2 (hall w hw))).1
      exact List.mem_filterMap.2 ⟨_, hd, rfl⟩
    have hlen := (List.subperm_of_subset hs.nodup hsub).length_le
    rw [Item.length_filterMap_done?, List.countP_append, ← hs.counted,
      List.countP_eq_length.2 hqueue, Reader.partitions, List.length_map] at hlen
    exact hlen

/-- When all workers have ended and the queue is empty, nothing happens to the reader any more. -/
theorem reader_eq_of_run {moves : List Move} (hw : ∀ w ∈ s.reader.workers, w.phase = .ended)
    (hq : s.reader.queue = []) (h : s.run moves = some s') : s'.reader = s.reader := by
  refine run_induction (P := fun t => t.reader = s.reader) ?_ rfl (fun _ _ => trivial) h
  intro t m t' ht (_ : True) hstep
  cases m with
  | work i size outage =>
      obtain ⟨w, w', e, hi, hwork, -⟩ := step_work_eq_some.1 hstep
      rw [ht] at hi
      have hended := hw w (List.mem_of_getElem? hi)
      rw [Worker.step, hended] at hwork
      cases hwork
  | take =>
      obtain ⟨-, item, queue, hcons, -⟩ := step_take_eq_some.1 hstep
      rw [ht, hq] at hcons
      cases hcons
  | append id offset value =>
      obtain ⟨p, -, -, rfl⟩ := step_append_eq_some.1 hstep
      exact ht

/-- The workers of a reader that has just been opened have announced nothing. -/
theorem announces_opened {c : Cluster} {topic : Json} {job : Job} {capacity : Int} {r : Reader}
    (hopen : Reader.opened c topic job capacity = .ok r) (before : Metrics) :
    (opened c r before).All fun w _ items => w.Announces items [] := by
  rw [Reader.opened_eq_ok hopen]
  intro w hw
  obtain ⟨cursor, -, rfl⟩ := List.mem_map.1 hw
  constructor <;> simp [Worker.ofCursor, itemsOf, opened, Reader.ofCursors]

/-- **How the workers of a reader announce their end.**  In whatever order the workers and the reader
move, what is appended, and whatever fails, as long as the reader is not closed: what a worker has put
on the queue are its frames, and then once its end just if it has ended and has not failed to close its
consumer; and the reader has counted the ends that it has taken.  So the reader ends exactly when all
workers have ended, none of them has failed to close its consumer, and no frame is left on the queue.
If all have ended and the queue is empty, but one of them has failed to close its consumer, the reader
waits, and nothing happens to it any more.  All this goes for who asks for frames whatever a call for
bytes has left of a frame that it took: the reader ends over what is left, too. -/
theorem ended_announces {c : Cluster} {topic : Json} {job : Job} {capacity : Int} {r : Reader}
    (hopen : Reader.opened c topic job capacity = .ok r)
    (hids : ((c.partitions topic).map (·.id)).Nodup)
    (hinc : ∀ p ∈ c.partitions topic, IsIncreasing p.messages)
    {before : Metrics} {moves : List Move} (hrun : (opened c r before).run moves = some s) :
    (∀ w ∈ s.reader.workers, ∃ frames : List Bytes,
      s.itemsOf w.cursor.partition = frames.map (Item.frame w.cursor.partition) ++
        if w.phase = .ended ∧ w.cursor.partition ∉ (opened c r before).unclosed moves then
          [.done w.cursor.partition]
        else []) ∧
    s.reader.markers = s.taken.countP Item.isDone ∧
    (s.reader.next.1 = .ended ↔
      (∀ w ∈ s.reader.workers,
        w.phase = .ended ∧ w.cursor.partition ∉ (opened c r before).unclosed moves) ∧
        ∀ item ∈ s.reader.queue, item.isDone = true) ∧
    ((∀ w ∈ s.reader.workers, w.phase = .ended) → s.reader.queue = [] →
      (∃ w ∈ s.reader.workers, w.cursor.partition ∈ (opened c r before).unclosed moves) →
        s.reader.next = (.waits, s.reader) ∧
          ∀ more s', s.run more = some s' → s'.reader = s.reader) ∧
    ∀ bs : Bytes, ({ s.reader with buffer := bs } : Reader).next =
      (s.reader.next.1, { s.reader.next.2 with buffer := bs }) := by
  have hstart := (isClean_opened hopen hids hinc before).toIsSound
  have hs := isSound_run hstart hrun
  have ha := announces_run hstart.toIsOpen (announces_opened hopen before) hrun
  rw [List.nil_append] at ha
  have hiff := next_eq_ended_iff hs ha
  refine ⟨fun w hw => itemsOf_eq_of_announces hs ha hw, hs.counted, hiff, ?_,
    Reader.next_of_buffer s.reader⟩
  rintro hended hq ⟨w, hw, hunclosed⟩
  refine ⟨?_, fun more s' hmore => reader_eq_of_run hended hq hmore⟩
  have hend : s.reader.next.1 ≠ .ended := fun h => ((hiff.1 h).1 w hw).2 hunclosed
  apply Reader.next_of_queue_eq_nil _ hq
  by_contra ho
  rw [Bool.not_eq_false] at ho
  rw [Reader.next, if_pos ho] at hend
  exact hend rfl

/-- A partition without messages whose worker cannot close its consumer: the reader waits for ever.  A
partition with a message: a call for no bytes takes its frame from the queue and leaves all of it, and who
then asks for a frame is told that the reader has ended. -/
theorem ended_announces_unclosed :
    (∃ (c : Cluster) (job : Job) (r : Reader) (moves : List Move) (s : Scene),
      Reader.opened c (.str "t") job 1 = .ok r ∧ (opened c r {}).run moves = some s ∧
        (∀ w ∈ s.reader.workers, w.phase = .ended) ∧ s.reader.queue = [] ∧
          s.reader.next = (.waits, s.reader) ∧
            ∀ more s', s.run more = some s' → s'.reader = s.reader) ∧
    ∃ (c : Cluster) (job : Job) (r : Reader) (moves : List Move) (s : Scene) (bs : Bytes),
      Reader.opened c (.str "t") job 1 = .ok r ∧ (opened c r {}).run moves = some s ∧
        s.taken = [.frame 0 bs] ∧ bs = [0, 0, 0, 4, 26, 2, 120, 10] ∧
          ({ s.reader with buffer := bs } : Reader).cut 0 =
            ([], { s.reader with buffer := bs }) ∧
          ({ s.reader with buffer := bs } : Reader).next.1 = .ended := by
  let job : Job := { containerId := .str "c", request := { follow := false }, nesting := 100 }
  constructor
  · let p : Partition := { id := 0 }
    let c : Cluster := { topics := [(.str "t", [p])] }
    let r : Reader := .ofCursors (.str "t") job 1 [⟨0, 0, 0⟩]
    have hparts : c.partitions (.str "t") = [p] := rfl
    have hopen : Reader.opened c (.str "t") job 1 = .ok r :=
      Reader.opened_of_single job 1 rfl rfl hparts
    let moves : List Move :=
      List.replicate 4 (.work 0 1 none) ++ [.work 0 1 (some ⟨.runtime, []⟩)]
    obtain ⟨s, hrun, hended, hqueue, hunclosed⟩ : ∃ s, (opened c r {}).run moves = some s ∧
        (∀ w ∈ s.reader.workers, w.phase = .ended) ∧ s.reader.queue = [] ∧
          ∃ w ∈ s.reader.workers, w.cursor.partition ∈ (opened c r {}).unclosed moves :=
      ⟨_, rfl, by decide, rfl, by decide⟩
    obtain ⟨-, -, -, hwaits, -⟩ := ended_announces hopen (by simp [hparts])
      (by simp [hparts, p, IsIncreasing]) hrun
    exact ⟨c, job, r, moves, s, hopen, hrun, hended, hqueue, hwaits hended hqueue hunclosed⟩
  · let value : Bytes := Message.letter "1970-01-01T00:00:00Z"
    let p : Partition := { id := 0, messages := [⟨0, some value⟩] }
    let c : Cluster := { topics := [(.str "t", [p])] }
    let r : Reader := .ofCursors (.str "t") job 1 [⟨0, 0, 1⟩]
    let bs : Bytes := [0, 0, 0, 4, 26, 2, 120, 10]
    have hparts : c.partitions (.str "t") = [p] := rfl
    have hopen : Reader.opened c (.str "t") job 1 = .ok r :=
      Reader.opened_of_single job 1 rfl rfl hparts
    let moves : List Move :=
      List.replicate 8 (.work 0 1 none) ++ [.take, .work 0 1 none]
    have hvalue : ((opened c r {}).run moves).map (fun s => (s.taken, s.reader.next.1)) =
        some ([.frame 0 bs], .ended) := by
      decide +kernel
    obtain ⟨s, hrun, hs⟩ := Option.map_eq_some_iff.1 hvalue
    obtain ⟨htaken, hnext⟩ := Prod.mk.inj hs
    obtain ⟨-, -, -, -, hbuffer⟩ := ended_announces hopen (by simp [hparts])
      (by simp [hparts, p, IsIncreasing]) hrun
    exact ⟨c, job, r, moves, s, bs, hopen, hrun, htaken, rfl, rfl, by rw [hbuffer, hnext]⟩

end Scene

end LogRelay
