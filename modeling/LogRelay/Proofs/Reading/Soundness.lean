import LogRelay.Proofs.Reading.Tracking
import Mathlib.Algebra.Ring.Nat
import Mathlib.Data.List.Nodup
/-!
# Every run of a reader

What each worker keeps by its own steps, and what a longer log does not spoil, holds of all workers
after every run of a reader that is not closed: the steps of one worker touch only what belongs to its
partition, and taking from the queue only moves items.

## Main definitions

* `Scene.IsOpen`: the partitions are different, their logs increasing, and nobody closes the reader.
* `Scene.All`: a property of a worker, its log and its items, for all workers.
* `Scene.IsSound`: all workers agree with their logs and with what they have put on the queue.

## Main statements

* `All.step_to`, `All.step`: what the steps of a worker and longer logs bring about or keep, each move
  does.
* `isSound_run`: every run keeps the scene sound.
* `count_run`: what a run counts.
-/
namespace LogRelay

open Message

/-! ## Lists with different keys -/

/-- The members of a list in which one has been replaced are the new one, and those that have other
keys than the old one. -/
theorem mem_set_of_nodup_map {α κ : Type} {f : α → κ} {l : List α} {i : Nat} {a b x : α}
    (hl : (l.map f).Nodup) (hi : l[i]? = some a) (hx : x ∈ l.set i b) :
    x = b ∨ x ∈ l ∧ f x ≠ f a := by
  obtain ⟨k, hk⟩ := List.mem_iff_getElem?.1 hx
  rw [List.getElem?_set] at hk
  by_cases hik : i = k
  · rw [if_pos hik] at hk
    split_ifs at hk
    exact .inl (Option.some.inj hk).symm
  · rw [if_neg hik] at hk
    refine .inr ⟨List.mem_of_getElem? hk, fun heq => hik ?_⟩
    obtain ⟨hil, hia⟩ := List.getElem?_eq_some_iff.1 hi
    obtain ⟨hkl, hkx⟩ := List.getElem?_eq_some_iff.1 hk
    have hil' : i < (l.map f).length := by simpa using hil
    have hkl' : k < (l.map f).length := by simpa using hkl
    have hsame : (l.map f)[i] = (l.map f)[k] := by simp [hia, hkx, heq]
    exact (List.Nodup.getElem_inj_iff hl).1 hsame

/-- Nothing shows of a replacement that looks the same. -/
theorem map_set_of_eq {α β : Type} {l : List α} {i : Nat} {a b : α} {f : α → β}
    (hi : l[i]? = some a) (h : f b = f a) : (l.set i b).map f = l.map f := by
  obtain ⟨hlt, rfl⟩ := List.getElem?_eq_some_iff.1 hi
  have hlt' : i < (l.map f).length := by simpa using hlt
  have hself : f l[i] = (l.map f)[i] := (List.getElem_map f).symm
  rw [List.map_set, h, hself, List.set_getElem_self]

theorem Metrics.count_incrementAll_toList (m : Metrics) (o : Option Counter) (c : Counter) :
    (m.incrementAll o.toList).count c = m.count c + if o = some c then 1 else 0 := by
  cases o with
  | none => simp [incrementAll]
  | some d => simp [incrementAll, count_increment]

namespace Scene

/-- The reader works as long as nobody closes it: its partitions are different ones with increasing
logs, and what it has put on the queue comes from them. -/
structure IsOpen (s : Scene) : Prop where
  nodup : s.reader.partitions.Nodup
  increasing : ∀ id, IsIncreasing (s.log id)
  going : s.reader.stopping = false
  isOpen : s.reader.closed = false
  unexhausted : s.reader.exhausted = false
  owned : ∀ item ∈ s.taken ++ s.reader.queue, ∃ id ∈ s.reader.partitions, item.partition? = some id
  counted : s.reader.markers = s.taken.countP Item.isDone

/-- A property of a worker, the log of its partition and the items that it has put on the queue holds
of all workers. -/
def All (s : Scene) (P : Worker → List Message → List Item → Prop) : Prop :=
  ∀ w ∈ s.reader.workers, P w (s.log w.cursor.partition) (s.itemsOf w.cursor.partition)

variable {s s' : Scene}

/-! ## What a move changes -/

theorem log_work {i size : Nat} {outage : Option Outage}
    (h : s.step (.work i size outage) = some s') (id : Int) : s'.log id = s.log id := by
  obtain ⟨w, w', e, -, -, rfl⟩ := step_work_eq_some.1 h
  rfl

theorem log_take (h : s.step .take = some s') (id : Int) : s'.log id = s.log id := by
  obtain ⟨-, item, queue, -, rfl⟩ := step_take_eq_some.1 h
  rfl

/-- Taking an item moves it from the queue to what has been taken. -/
theorem taken_append_queue_take (h : s.step .take = some s') :
    s'.taken ++ s'.reader.queue = s.taken ++ s.reader.queue := by
  obtain ⟨-, item, queue, hq, rfl⟩ := step_take_eq_some.1 h
  simp [hq]

/-- What happens to a log: it stays as it is, or gets a message behind all others. -/
theorem log_step {m : Move} (h : s.step m = some s') (id : Int) :
    s'.log id = s.log id ∨
      ∃ n : Message, (∀ k ∈ s.log id, k.offset < n.offset) ∧ s'.log id = s.log id ++ [n] := by
  cases m with
  | work i size outage => exact .inl (log_work h id)
  | take => exact .inl (log_take h id)
  | append id' offset value =>
      obtain ⟨p, hp, hlt, rfl⟩ := step_append_eq_some.1 h
      rw [log_append offset value hp]
      by_cases hid : id = id'
      · subst hid
        refine .inr ⟨⟨offset.getD p.nextOffset, value⟩, ?_, if_pos rfl⟩
        simpa [log, hp] using hlt
      · exact .inl (if_neg hid)

/-- No move changes which partitions are read. -/
theorem cursors_step {m : Move} (h : s.step m = some s') :
    s'.reader.workers.map (·.cursor) = s.reader.workers.map (·.cursor) := by
  cases m with
  | work i size outage =>
      obtain ⟨w, w', e, hi, hstep, rfl⟩ := step_work_eq_some.1 h
      exact map_set_of_eq hi (Worker.cursor_of_transition (Worker.transition_of_step hstep))
  | take =>
      obtain ⟨-, item, queue, -, rfl⟩ := step_take_eq_some.1 h
      rfl
  | append id offset value =>
      obtain ⟨p, -, -, rfl⟩ := step_append_eq_some.1 h
      rfl

theorem partitions_eq_of_cursors {r r' : Reader}
    (h : r'.workers.map (·.cursor) = r.workers.map (·.cursor)) : r'.partitions = r.partitions := by
  have := congrArg (List.map Cursor.partition) h
  simpa [Reader.partitions, Function.comp_def] using this

theorem job_step {m : Move} (h : s.step m = some s') : s'.reader.job = s.reader.job := by
  cases m with
  | work i size outage =>
      obtain ⟨w, w', e, hi, hstep, rfl⟩ := step_work_eq_some.1 h
      rfl
  | take =>
      obtain ⟨-, item, queue, -, rfl⟩ := step_take_eq_some.1 h
      rfl
  | append id offset value =>
      obtain ⟨p, -, -, rfl⟩ := step_append_eq_some.1 h
      rfl

/-- What a move puts on the queue comes from a partition that is read. -/
theorem mem_items_step {m : Move} (h : s.step m = some s') {item : Item}
    (hitem : item ∈ s'.taken ++ s'.reader.queue) :
    item ∈ s.taken ++ s.reader.queue ∨ ∃ id ∈ s.reader.partitions, item.partition? = some id := by
  cases m with
  | work i size outage =>
      obtain ⟨w, w', e, hi, hstep, rfl⟩ := step_work_eq_some.1 h
      simp only [← List.append_assoc] at hitem
      rcases List.mem_append.1 hitem with hitem | hitem
      · exact .inl hitem
      · have hput := Worker.partition?_put (Worker.transition_of_step hstep)
          (Option.mem_toList.1 hitem)
        exact .inr ⟨_, List.mem_map_of_mem (List.mem_of_getElem? hi), hput⟩
  | take => exact .inl (taken_append_queue_take h ▸ hitem)
  | append id offset value =>
      obtain ⟨p, -, -, rfl⟩ := step_append_eq_some.1 h
      exact .inl hitem

/-- Each move keeps the reader open. -/
theorem IsOpen.step {m : Move} (ho : s.IsOpen) (h : s.step m = some s') : s'.IsOpen := by
  have hparts : s'.reader.partitions = s.reader.partitions :=
    partitions_eq_of_cursors (cursors_step h)
  have howned : ∀ item ∈ s'.taken ++ s'.reader.queue,
      ∃ id ∈ s'.reader.partitions, item.partition? = some id := by
    intro item hitem
    rw [hparts]
    exact (mem_items_step h hitem).elim (ho.owned item) id
  have hinc : ∀ id, IsIncreasing (s'.log id) := by
    intro id
    rcases log_step h id with heq | ⟨n, hn, heq⟩
    · exact heq ▸ ho.increasing id
    · exact heq ▸ (ho.increasing id).concat hn
  cases m with
  | work i size outage =>
      obtain ⟨w, w', e, -, -, rfl⟩ := step_work_eq_some.1 h
      exact ⟨hparts ▸ ho.nodup, hinc, ho.going, ho.isOpen, ho.unexhausted, howned, ho.counted⟩
  | take =>
      obtain ⟨-, item, queue, hq, rfl⟩ := step_take_eq_some.1 h
      have hitem : item ≠ .closed := by
        rintro rfl
        obtain ⟨id, -, hid⟩ := ho.owned .closed (by simp [hq])
        cases hid
      refine ⟨hparts ▸ ho.nodup, hinc, ho.going, ho.isOpen, ?_, howned, ?_⟩
      · simp [ho.unexhausted, hitem]
      · rw [List.countP_append, List.countP_singleton, ho.counted]
  | append id offset value =>
      obtain ⟨p, -, -, rfl⟩ := step_append_eq_some.1 h
      exact ⟨hparts ▸ ho.nodup, hinc, ho.going, ho.isOpen, ho.unexhausted, howned, ho.counted⟩

/-- A property of all workers becomes another one by a move if that is so for the worker that makes a
step, for those that make none, and for those whose log becomes longer. -/
theorem All.step_to {P Q : Worker → List Message → List Item → Prop} {m : Move} (ho : s.IsOpen)
    (ha : s.All P) (h : s.step m = some s')
    (hwork : ∀ i size outage, m = .work i size outage → ∀ w, s.reader.workers[i]? = some w → ∀ w' e,
      Worker.Transition s.reader.job (s.surroundings w size outage) w w' e →
      ∀ items, P w (s.log w.cursor.partition) items →
        Q w' (s.log w.cursor.partition) (items ++ e.put.toList))
    (hrest : ∀ w ∈ s.reader.workers,
      (∀ i size outage, m = .work i size outage → ∀ v, s.reader.workers[i]? = some v →
        w.cursor.partition ≠ v.cursor.partition) →
      ∀ items, P w (s.log w.cursor.partition) items → Q w (s.log w.cursor.partition) items)
    (happend : ∀ id offset value, m = .append id offset value → ∀ w ∈ s.reader.workers,
      ∀ n : Message, (∀ k ∈ s.log w.cursor.partition, k.offset < n.offset) →
      ∀ items, P w (s.log w.cursor.partition) items →
        Q w (s.log w.cursor.partition ++ [n]) items) : s'.All Q := by
  intro v hv
  cases m with
  | work i size outage =>
      rw [log_work h]
      obtain ⟨w, w', e, hi, hstep, rfl⟩ := step_work_eq_some.1 h
      have htr := Worker.transition_of_step hstep
      have hput (item : Item) (h : e.put = some item) := Worker.partition?_put htr h
      simp only [itemsOf, ← List.append_assoc, List.filter_append _ e.put.toList]
      have hnodup : (s.reader.workers.map (·.cursor.partition)).Nodup := ho.nodup
      rcases mem_set_of_nodup_map hnodup hi hv with rfl | ⟨hv, hne⟩
      · rw [Worker.cursor_of_transition htr]
        have hkeep : e.put.toList.filter (·.partition? = some w.cursor.partition) = e.put.toList := by
          rw [List.filter_eq_self]
          intro item hitem
          simpa using hput item (Option.mem_toList.1 hitem)
        rw [hkeep]
        exact hwork i size outage rfl w hi _ e htr _ (ha w (List.mem_of_getElem? hi))
      · have hnone : e.put.toList.filter (·.partition? = some v.cursor.partition) = [] := by
          rw [List.filter_eq_nil_iff]
          intro item hitem
          simpa [hput item (Option.mem_toList.1 hitem)] using Ne.symm hne
        rw [hnone, List.append_nil]
        refine hrest v hv ?_ _ (ha v hv)
        rintro _ _ _ ⟨⟩ u hu
        obtain rfl : w = u := Option.some.inj (hi.symm.trans hu)
        exact hne
  | take =>
      rw [log_take h, itemsOf, taken_append_queue_take h]
      obtain ⟨-, item, queue, -, rfl⟩ := step_take_eq_some.1 h
      exact hrest v hv (by simp) _ (ha v hv)
  | append id offset value =>
      have hlog := log_step h v.cursor.partition
      obtain ⟨p, -, -, rfl⟩ := step_append_eq_some.1 h
      rcases hlog with heq | ⟨n, hn, heq⟩
      · rw [heq]
        exact hrest v hv (by simp) _ (ha v hv)
      · rw [heq]
        exact happend id offset value rfl v hv n hn _ (ha v hv)

/-- A property of all workers is kept by a move if the steps of a worker keep it and longer logs do
not spoil it. -/
theorem All.step {P : Worker → List Message → List Item → Prop} {m : Move} (ho : s.IsOpen)
    (ha : s.All P) (h : s.step m = some s')
    (hwork : ∀ i size outage, m = .work i size outage → ∀ w ∈ s.reader.workers, ∀ w' e,
      Worker.Transition s.reader.job (s.surroundings w size outage) w w' e →
      ∀ items, P w (s.log w.cursor.partition) items →
        P w' (s.log w.cursor.partition) (items ++ e.put.toList))
    (happend : ∀ w ∈ s.reader.workers, ∀ n : Message,
      (∀ k ∈ s.log w.cursor.partition, k.offset < n.offset) →
      ∀ items, P w (s.log w.cursor.partition) items →
        P w (s.log w.cursor.partition ++ [n]) items) : s'.All P :=
  ha.step_to ho h
    (fun i size outage hm w hi => hwork i size outage hm w (List.mem_of_getElem? hi))
    (fun _ _ _ _ => id) (fun _ _ _ _ => happend)

/-! ## Soundness -/

/-- The reader is open, and its workers agree with their logs and with what they have put on the
queue. -/
structure IsSound (s : Scene) : Prop extends s.IsOpen where
  tracks : s.All fun w log _ => w.Tracks log
  feeds : s.All (Worker.Feeds · s.reader.job)

/-- Each move keeps the scene sound. -/
theorem IsSound.step {m : Move} (hs : s.IsSound) (h : s.step m = some s') : s'.IsSound where
  toIsOpen := hs.toIsOpen.step h
  tracks := by
    refine hs.tracks.step hs.toIsOpen h ?_ ?_
    · intro i size outage _ w hw w' e htr _ ht
      refine Worker.tracks_of_transition htr (hs.increasing _) ?_ ht
      exact fun c hc => ⟨size, surroundings_batch s w size outage hc⟩
    · intro w _ n hn _ ht
      exact ht.append hn
  feeds := by
    rw [job_step h]
    refine hs.feeds.step hs.toIsOpen h ?_ ?_
    · intro i size outage _ w hw w' e htr items hf
      exact Worker.feeds_of_transition htr (hs.increasing _) hs.going (hs.tracks w hw) hf
    · intro w hw n hn _ hf
      exact hf.append hn (hs.tracks w hw)

/-- Every run keeps the scene sound, also when workers fail. -/
theorem isSound_run {moves : List Move} (hs : s.IsSound) (h : s.run moves = some s') :
    s'.IsSound :=
  run_induction (fun _ _ _ hs (_ : True) h => hs.step h) hs (fun _ _ => trivial) h

/-! ## Counters -/

/-- How many of the messages that the workers have looked at raise a counter. -/
def tally (s : Scene) (c : Counter) : Nat :=
  (s.reader.workers.map fun w => s.reader.job.tally c (w.seen (s.log w.cursor.partition))).sum

/-- Each move counts what the messages come to that it looks at. -/
theorem count_step {m : Move} (hs : s.IsSound) (h : s.step m = some s') (c : Counter) :
    s'.metrics.count c + s.tally c = s.metrics.count c + s'.tally c := by
  cases m with
  | work i size outage =>
      have hlog := log_work h
      obtain ⟨w, w', e, hi, hstep, rfl⟩ := step_work_eq_some.1 h
      have htr := Worker.transition_of_step hstep
      have hw := List.mem_of_getElem? hi
      have htally := Worker.tally_of_transition htr (hs.increasing _) (hs.tracks w hw) c
      have hsum := sum_map_set hi w'
        fun w => s.reader.job.tally c (w.seen (s.log w.cursor.partition))
      simp only [tally, hlog]
      rw [Worker.cursor_of_transition htr, htally] at hsum
      rw [Metrics.count_incrementAll_toList]
      omega
  | take =>
      have hlog := log_take h
      obtain ⟨-, item, queue, -, rfl⟩ := step_take_eq_some.1 h
      simp only [tally, hlog]
  | append id offset value =>
      have hseen : ∀ w ∈ s.reader.workers, w.seen (s'.log w.cursor.partition) =
          w.seen (s.log w.cursor.partition) := by
        intro w hw
        rcases log_step h w.cursor.partition with heq | ⟨n, hn, heq⟩
        · rw [heq]
        · rw [heq, (hs.tracks w hw).seen_append hn]
      obtain ⟨p, -, -, rfl⟩ := step_append_eq_some.1 h
      simp only [tally]
      rw [List.map_congr_left fun w hw => congrArg (s.reader.job.tally c) (hseen w hw)]

/-- A run counts what the messages come to that it looks at. -/
theorem count_run {moves : List Move} (hs : s.IsSound) (h : s.run moves = some s') (c : Counter) :
    s'.metrics.count c + s.tally c = s.metrics.count c + s'.tally c := by
  have hinv := run_induction
    (P := fun t => t.IsSound ∧ t.metrics.count c + s.tally c = s.metrics.count c + t.tally c)
    (fun t m t' ht (_ : True) hstep => ⟨ht.1.step hstep, by
      have := count_step ht.1 hstep c
      omega⟩) ⟨hs, rfl⟩ (fun _ _ => trivial) h
  exact hinv.2

/-- A reader that has just been opened is sound. -/
theorem isSound_ofCursors {c : Cluster} {topic : Json} {job : Job} {capacity : Int}
    {cursors : List Cursor} {m : Metrics} (hnodup : (cursors.map (·.partition)).Nodup)
    (hinc : ∀ p ∈ c.partitions topic, IsIncreasing p.messages) :
    IsSound { cluster := c, reader := Reader.ofCursors topic job capacity cursors, metrics := m }
    where
  nodup := by simpa [Reader.partitions, Reader.ofCursors, Worker.ofCursor, Function.comp_def]
  increasing := by
    intro id
    rw [log]
    cases hp : c.partition? topic id with
    | none => simp [Reader.ofCursors, hp, IsIncreasing]
    | some p => simpa [Reader.ofCursors, hp] using hinc p (List.mem_of_find?_eq_some hp)
  going := rfl
  isOpen := rfl
  unexhausted := rfl
  owned := by simp [Reader.ofCursors]
  counted := rfl
  tracks := by
    intro w hw
    obtain ⟨cursor, -, rfl⟩ := List.mem_map.1 hw
    exact
      { start_le := Int.le_refl _
        isPlace := .inl rfl
        fresh := fun _ _ => rfl
        equipped := by simp [Worker.ofCursor]
        ahead := by simp [Worker.ofCursor, Worker.IsReading] }
  feeds := by
    intro w hw
    obtain ⟨cursor, -, rfl⟩ := List.mem_map.1 hw
    refine .of_frames [] rfl ?_
    simp [Worker.ofCursor, Worker.offered, Worker.seen, within_self]

end Scene

end LogRelay
