import LogRelay.Proofs.Reading.Progress
import Mathlib.Data.List.Perm.Subperm
/-!
# What a reader has handed out at its end

A reader ends when as many workers have announced their end as there are.  A worker announces its end
once, and behind all its frames, so at that moment every frame has been handed out.

## Main definitions

* `Item.done?`: the partition whose worker's end an item is.
* `Scene.CannotStall`: the reading comes to an end.

## Main statements

* `next_eq_ended`: what stands on the queue when the reader ends.
* `delivered_append_queue`: where the frames are of what a worker has looked at.
* `exists_ends_of_ended`, `delivered_of_ended`: what has been taken and handed out when the reader ends.
* `exists_progress`, `cannotStall`: the reading can be brought on until the reader has ended.
-/
namespace LogRelay

/-- The partition whose worker's end the item is. -/
def Item.done? : Item → Option Int
  | .done id => some id
  | _ => none

namespace Item

theorem done?_eq_some {item : Item} {id : Int} : item.done? = some id ↔ item = .done id := by
  cases item <;> simp [done?]

theorem length_filterMap_done? (items : List Item) :
    (items.filterMap done?).length = items.countP isDone := by
  induction items with
  | nil => rfl
  | cons item items ih => cases item <;> simp [done?, isDone, List.filterMap_cons, List.countP_cons, ih]

theorem partition?_eq_of_done? {item : Item} {id : Int} (h : item.done? = some id) :
    item.partition? = some id := by
  rw [done?_eq_some.1 h]
  rfl

/-- The frames of a partition stand among its items. -/
theorem filterMap_frameOf?_filter (items : List Item) (id : Int) :
    (items.filter (·.partition? = some id)).filterMap (frameOf? id) =
      items.filterMap (frameOf? id) := by
  rw [List.filterMap_filter]
  apply List.filterMap_congr
  intro item _
  cases item <;> simp [partition?, frameOf?]

theorem filterMap_frameOf?_frames (frames : List Bytes) (id : Int) :
    (frames.map (frame id) ++ [done id]).filterMap (frameOf? id) = frames := by
  rw [List.filterMap_append, List.filterMap_map]
  simp [Function.comp_def, frameOf?]

end Item

/-- What stands on the queue when the reader ends: first the missing ends of workers. -/
theorem Reader.next_eq_ended {r : Reader} (hc : r.closed = false) (he : r.exhausted = false)
    (hq : Item.closed ∉ r.queue) (h : r.next.1 = .ended) :
    ∃ ends rest, r.queue = ends ++ rest ∧ (∀ item ∈ ends, item.isDone = true) ∧
      r.workers.length ≤ r.markers + ends.length := by
  induction r using Reader.next.induct with
  | case1 r ho =>
      refine ⟨[], r.queue, rfl, by simp, ?_⟩
      simpa [isOver, hc, he] using ho
  | case2 r ho ht =>
      rw [next_of_queue_eq_nil (by simpa using ho) (take_eq_none.1 ht)] at h
      cases h
  | case3 r ho id bs r' ht =>
      rw [next_of_frame (by simpa using ho) ht] at h
      cases h
  | case4 r ho id r' ht ih =>
      rw [next_of_done (by simpa using ho) ht] at h
      obtain ⟨queue, hqueue, rfl⟩ := take_eq_some.1 ht
      rw [hqueue, List.mem_cons, not_or] at hq
      obtain ⟨ends, rest, hrest, hends, hlen⟩ := ih hc (by simp [he]) hq.2 h
      simp only [Item.isDone, if_true] at hrest hlen
      refine ⟨.done id :: ends, rest, by rw [hqueue, hrest]; rfl, ?_, ?_⟩
      · simpa [Item.isDone] using hends
      · rw [List.length_cons]
        omega
  | case5 r ho r' ht =>
      obtain ⟨queue, hqueue, -⟩ := take_eq_some.1 ht
      exact absurd (by simp [hqueue]) hq

/-- If the ends of workers are different ones, and as many as there are workers, they are the ends of
all workers. -/
theorem mem_of_length_le_countP {ids : List Int} {items : List Item}
    (hn : (items.filterMap Item.done?).Nodup)
    (hsub : ∀ id, Item.done id ∈ items → id ∈ ids) (hlen : ids.length ≤ items.countP Item.isDone)
    {id : Int} (hid : id ∈ ids) : Item.done id ∈ items := by
  have hsubset : items.filterMap Item.done? ⊆ ids := by
    intro k hk
    obtain ⟨item, hitem, hd⟩ := List.mem_filterMap.1 hk
    exact hsub k (Item.done?_eq_some.1 hd ▸ hitem)
  have hperm := (List.subperm_of_subset hn hsubset).perm_of_length_le
    (by rw [Item.length_filterMap_done?]; exact hlen)
  obtain ⟨item, hitem, hd⟩ := List.mem_filterMap.1 (hperm.mem_iff.2 hid)
  exact Item.done?_eq_some.1 hd ▸ hitem

namespace Scene

variable {s s' : Scene}

/-- What has been put on the queue for a partition is its frames and then perhaps its end, so there is
at most one end. -/
theorem count_done_le_one (hs : s.IsSound) {w : Worker} (hw : w ∈ s.reader.workers) :
    (s.taken ++ s.reader.queue).countP (·.done? == some w.cursor.partition) ≤ 1 := by
  obtain ⟨frames, marks, hitems, -, hmarks⟩ := hs.feeds w hw
  have hframes : (frames.map (Item.frame w.cursor.partition)).countP
      (·.done? == some w.cursor.partition) = 0 := by
    simp [List.countP_eq_zero, Item.done?]
  have hcount : (s.itemsOf w.cursor.partition).countP (·.done? == some w.cursor.partition) ≤ 1 := by
    rw [hitems, List.countP_append, hframes]
    rcases hmarks with rfl | ⟨rfl, -⟩ <;> simp [Item.done?]
  refine le_trans (le_of_eq ?_) hcount
  rw [itemsOf, List.countP_filter]
  apply List.countP_congr
  intro item _
  simp only [beq_iff_eq, Bool.and_eq_true, decide_eq_true_eq]
  exact ⟨fun h => ⟨h, Item.partition?_eq_of_done? h⟩, And.left⟩

/-- No end is announced twice. -/
theorem nodup_done (hs : s.IsSound) :
    ((s.taken ++ s.reader.queue).filterMap Item.done?).Nodup := by
  rw [List.nodup_iff_count_le_one]
  intro id
  rw [List.count_filterMap]
  by_cases hid : id ∈ s.reader.partitions
  · obtain ⟨w, hw, rfl⟩ := List.mem_map.1 hid
    exact count_done_le_one hs hw
  · have hnone : (s.taken ++ s.reader.queue).countP (·.done? == some id) = 0 := by
      rw [List.countP_eq_zero]
      intro item hitem hd
      obtain ⟨k, hk, hpart⟩ := hs.owned item hitem
      rw [Item.partition?_eq_of_done? (beq_iff_eq.1 hd)] at hpart
      exact hid (Option.some.inj hpart ▸ hk)
    rw [hnone]
    exact Nat.zero_le 1

/-- What is on the queue behind the end of a worker does not come from its partition. -/
theorem itemsOf_split {ends rest : List Item} (hs : s.IsSound)
    (hq : s.reader.queue = ends ++ rest) {w : Worker} (hw : w ∈ s.reader.workers)
    (hd : Item.done w.cursor.partition ∈ s.taken ++ ends) :
    w.phase = .ended ∧
      (s.taken ++ ends).filter (·.partition? = some w.cursor.partition) =
        (s.reader.job.survivors (w.seen (s.log w.cursor.partition))).map
          (Item.frame w.cursor.partition) ++ [.done w.cursor.partition] := by
  obtain ⟨frames, marks, hitems, hframes, hmarks⟩ := hs.feeds w hw
  have hsplit : (s.taken ++ ends).filter (·.partition? = some w.cursor.partition) ++
      rest.filter (·.partition? = some w.cursor.partition) =
        frames.map (Item.frame w.cursor.partition) ++ marks := by
    rw [← hitems, itemsOf, hq, ← List.append_assoc, List.filter_append (s.taken ++ ends) rest]
  have hmem : Item.done w.cursor.partition ∈
      (s.taken ++ ends).filter (·.partition? = some w.cursor.partition) :=
    List.mem_filter.2 ⟨hd, by simp [Item.partition?]⟩
  have hnot : Item.done w.cursor.partition ∉ frames.map (Item.frame w.cursor.partition) := by
    simp
  rcases hmarks with rfl | ⟨rfl, hended⟩
  · rw [List.append_nil] at hsplit
    exact absurd (hsplit ▸ List.mem_append_left _ hmem) hnot
  · refine ⟨hended, ?_⟩
    simp only [Worker.offered, hended, List.append_nil] at hframes
    rw [← hframes]
    -- an item behind the end would make the end a frame
    rcases List.eq_nil_or_concat (rest.filter (·.partition? = some w.cursor.partition)) with
      hrest | ⟨front, last, hrest⟩
    · rwa [hrest, List.append_nil] at hsplit
    · rw [hrest, List.concat_eq_append, ← List.append_assoc] at hsplit
      obtain ⟨hfront, -⟩ := List.append_inj' hsplit rfl
      exact absurd (hfront ▸ List.mem_append_left _ hmem) hnot

/-- No end of a worker stands on the queue or has been taken but those of the partitions that are
read. -/
theorem mem_partitions_of_done (hs : s.IsSound) {id : Int}
    (h : Item.done id ∈ s.taken ++ s.reader.queue) : id ∈ s.reader.partitions := by
  obtain ⟨k, hk, hpart⟩ := hs.owned _ h
  obtain rfl : id = k := Option.some.inj hpart
  exact hk

theorem closed_notMem (hs : s.IsSound) : Item.closed ∉ s.reader.queue := by
  intro h
  obtain ⟨id, -, hpart⟩ := hs.owned _ (List.mem_append_right _ h)
  cases hpart

/-- The frames of a worker's partition that have been handed out, those that are on the queue and the
one that waits for room are those of the messages that it has looked at. -/
theorem delivered_append_queue (hs : s.IsSound) {w : Worker} (hw : w ∈ s.reader.workers) :
    s.delivered w.cursor.partition ++
        (s.reader.queue.filterMap (Item.frameOf? w.cursor.partition) ++ w.offered) =
      s.reader.job.survivors (w.seen (s.log w.cursor.partition)) := by
  obtain ⟨frames, marks, hitems, hframes, hmarks⟩ := hs.feeds w hw
  have hput : (s.itemsOf w.cursor.partition).filterMap (Item.frameOf? w.cursor.partition) =
      frames := by
    rw [hitems, List.filterMap_append, List.filterMap_map]
    rcases hmarks with rfl | ⟨rfl, -⟩ <;> simp [Function.comp_def, Item.frameOf?]
  rw [itemsOf, Item.filterMap_frameOf?_filter, List.filterMap_append] at hput
  rw [← List.append_assoc, delivered, hput, hframes]

/-- When the reader ends, the ends of all workers have been taken or are the next items on the queue. -/
theorem exists_ends_of_ended (hs : s.IsSound) (h : s.reader.next.1 = .ended) :
    ∃ ends rest, s.reader.queue = ends ++ rest ∧ (∀ item ∈ ends, item.isDone = true) ∧
      ∀ w ∈ s.reader.workers, Item.done w.cursor.partition ∈ s.taken ++ ends := by
  obtain ⟨ends, rest, hq, hends, hlen⟩ :=
    Reader.next_eq_ended hs.isOpen hs.unexhausted (closed_notMem hs) h
  refine ⟨ends, rest, hq, hends, ?_⟩
  intro w hw
  have hsub : (s.taken ++ ends).Sublist (s.taken ++ s.reader.queue) := by
    rw [hq]
    exact (List.sublist_append_left ends rest).append_left s.taken
  have hcount : s.reader.partitions.length ≤ (s.taken ++ ends).countP Item.isDone := by
    have hall : ends.countP Item.isDone = ends.length := List.countP_eq_length.2 hends
    rw [Reader.partitions, List.length_map, List.countP_append, hall, ← hs.counted]
    exact hlen
  exact mem_of_length_le_countP ((nodup_done hs).sublist (hsub.filterMap _))
    (fun id hid => mem_partitions_of_done hs (hsub.subset hid)) hcount
    (List.mem_map_of_mem hw)

/-- When the reader ends all workers have ended, and what has been handed out are the frames of what
they have looked at. -/
theorem delivered_of_ended (hs : s.IsSound) (h : s.reader.next.1 = .ended) {w : Worker}
    (hw : w ∈ s.reader.workers) :
    w.phase = .ended ∧ s.delivered w.cursor.partition =
      s.reader.job.survivors (w.seen (s.log w.cursor.partition)) := by
  obtain ⟨ends, rest, hq, hends, hd⟩ := exists_ends_of_ended hs h
  obtain ⟨hended, hitems⟩ := itemsOf_split hs hq hw (hd w hw)
  refine ⟨hended, ?_⟩
  have hnone : ends.filterMap (Item.frameOf? w.cursor.partition) = [] := by
    rw [List.filterMap_eq_nil_iff]
    intro item hitem
    have := hends item hitem
    cases item <;> simp_all [Item.isDone, Item.frameOf?]
  calc s.delivered w.cursor.partition
      = (s.taken ++ ends).filterMap (Item.frameOf? w.cursor.partition) := by
        rw [List.filterMap_append, hnone, List.append_nil, delivered]
    _ = s.reader.job.survivors (w.seen (s.log w.cursor.partition)) := by
        rw [← Item.filterMap_frameOf?_filter, hitems, Item.filterMap_frameOf?_frames]

/-- Of a partition that is not read nothing is handed out. -/
theorem delivered_eq_nil (hs : s.IsSound) {id : Int} (hid : id ∉ s.reader.partitions) :
    s.delivered id = [] := by
  rw [delivered, List.filterMap_eq_nil_iff]
  intro item hitem
  obtain ⟨k, hk, hpart⟩ := hs.owned item (List.mem_append_left _ hitem)
  cases item with
  | frame p bs =>
      have hp : p = k := Option.some.inj hpart
      exact if_neg fun (heq : p = id) => hid (heq ▸ hp ▸ hk)
  | done p | closed => rfl

/-! ## The end is reached -/

/-- As long as the reader has not ended, the reading can be brought on. -/
theorem exists_progress (hb : s.IsBounded) (h : s.reader.next.1 ≠ .ended) :
    ∃ m s', m.IsProgress ∧ s.step m = some s' := by
  have ho : s.reader.isOver = false := by
    by_contra ho
    rw [Bool.not_eq_false] at ho
    rw [Reader.next, if_pos ho] at h
    exact h rfl
  cases hq : s.reader.queue with
  | cons item queue =>
      exact ⟨.take, _, trivial, step_take_eq_some.2 ⟨ho, item, queue, hq, rfl⟩⟩
  | nil =>
      -- if all workers had ended, the reader would have taken all their ends
      have hw : ∃ w ∈ s.reader.workers, w.phase ≠ .ended := by
        by_contra hall
        simp only [ne_eq, not_exists, not_and, not_not] at hall
        have hsub : s.reader.partitions ⊆ s.taken.filterMap Item.done? := by
          intro id hid
          obtain ⟨w, hw, rfl⟩ := List.mem_map.1 hid
          have hd := (hb.keeps w hw).announced (hall w hw)
          rw [itemsOf, hq, List.append_nil, List.mem_filter] at hd
          exact List.mem_filterMap.2 ⟨_, hd.1, rfl⟩
        have hlen := (List.subperm_of_subset hb.nodup hsub).length_le
        rw [Item.length_filterMap_done?, ← hb.counted, Reader.partitions, List.length_map] at hlen
        simp [Reader.isOver, hlen] at ho
      obtain ⟨w, hw, hp⟩ := hw
      obtain ⟨i, hi⟩ := List.mem_iff_getElem?.1 hw
      have hroom : s.reader.hasRoom = true := by
        simp only [Reader.hasRoom, hq, List.length_nil, Bool.or_eq_true, decide_eq_true_eq]
        omega
      obtain ⟨⟨w', e⟩, hstep⟩ := Option.isSome_iff_exists.1
        (Worker.step_isSome (j := s.reader.job) (s := s.surroundings w 1 none) hp hroom)
      exact ⟨.work i 1 none, _, ⟨Nat.one_pos, rfl⟩, step_work_eq_some.2 ⟨w, w', e, hi, hstep, rfl⟩⟩

/-- From here on only so many moves bring the reading on, and there is one as long as the reader has
not ended. -/
def CannotStall (s : Scene) : Prop :=
  ∃ bound, ∀ more s', (∀ m ∈ more, m.IsProgress) → s.run more = some s' →
    more.length ≤ bound ∧
      (s'.reader.next.1 = .ended ∨ ∃ m s'', m.IsProgress ∧ s'.step m = some s'')

/-- A reader that does not wait for later messages comes to its end. -/
theorem cannotStall (hb : s.IsBounded) : s.CannotStall := by
  refine ⟨s.weight, ?_⟩
  intro more s' hmore hrun
  have hb' := isBounded_run hb (fun m hm => (hmore m hm).isFaultless) hrun
  refine ⟨length_le_weight hb hmore hrun, ?_⟩
  rw [or_iff_not_imp_left]
  exact exists_progress hb'

end Scene

end LogRelay
