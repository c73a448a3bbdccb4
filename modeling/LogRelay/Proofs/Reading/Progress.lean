import LogRelay.Proofs.Reading.Extent
/-!
# Readers come to their end

A reader that does not wait for later messages comes to its end whatever the order of steps is, as
long as nothing fails and a poll hands out a message if there is one.  Each such step makes the
reading lighter, and as long as the reader has not ended there is one that can be made.

## Main definitions

* `Move.IsProgress`: the steps that bring the reading on.
* `Worker.weight`, `Scene.weight`: how much is still to be done.

## Main statements

* `weight_lt_of_transition`, `weight_step_lt`: such a step makes the reading lighter.
* `exists_progress`: such a step can be made until the reader has ended.
-/
namespace LogRelay

open Message

/-- The move brings the reading on: a worker makes a step at which nothing fails and a poll may hand
out a message, or the reader takes an item. -/
def Move.IsProgress : Move → Prop
  | .work _ size outage => 0 < size ∧ outage = none
  | .take => True
  | .append .. => False

theorem Move.IsProgress.isFaultless {m : Move} (h : m.IsProgress) : m.IsFaultless := by
  cases m with
  | work i size outage => exact h.2
  | take => trivial
  | append id offset value => trivial

namespace Worker

/-- How far a phase is from the end.  A message costs at most as much as lies between its batch and
the next one. -/
def Phase.rank : Phase → Nat
  | .creating => 7
  | .assigning => 6
  | .seeking => 5
  | .checking => 4
  | .polling => 3
  | .handling [] => 5
  | .handling (_ :: _) => 2
  | .offering .. => 7
  | .closing => 3
  | .announcing => 2
  | .ended => 0

/-- How much a worker has still to do. -/
def weight (w : Worker) (log : List Message) : Nat :=
  6 * (upFrom log w.position).length + w.phase.rank

variable {j : Job} {s : Surroundings} {w w' : Worker} {e : Effect} {log : List Message}
  {items : List Item}

/-- Looking at a message leaves fewer of them. -/
theorem length_upFrom_lt (hinc : IsIncreasing log) {m : Message} {a : Int} (hm : m ∈ log)
    (ha : a ≤ m.offset) : (upFrom log (m.offset + 1)).length < (upFrom log a).length := by
  rw [← within_append_upFrom hinc (by omega : a ≤ m.offset + 1), List.length_append]
  have hmem : m ∈ within log a (m.offset + 1) := mem_within.2 ⟨⟨hm, ha⟩, by omega⟩
  have := List.length_pos_of_mem hmem
  omega

theorem rank_proceed_le (w : Worker) (j : Job) (batch : List Message) :
    (w.proceed j batch).phase.rank ≤ 5 := by
  rcases phase_proceed w j batch with ⟨-, h⟩ | ⟨-, h⟩ <;> rw [h]
  · cases batch <;> simp [Phase.rank]
  · simp [Phase.rank]

/-- A worker that polls is handed out a message. -/
theorem KeepsTo.upFrom_ne_nil (hk : w.KeepsTo j log items) (ht : w.Tracks log)
    (hinc : IsIncreasing log) (hmet : w.cursor.IsMet log) (hp : w.phase = .polling)
    {c : Consumer} (hc : w.consumer = some c) : upFrom log c.offset ≠ [] := by
  have hpos := hk.wanting (.inl hp)
  have hstart := ht.start_le
  obtain ⟨c', hc', hle, -, hahead⟩ := ht.ahead (by simp [IsReading, hp])
  obtain rfl : c = c' := Option.some.inj (hc.symm.trans hc')
  simp only [inHand, hp] at hahead
  have hup := within_append_upFrom hinc hle
  rw [← hahead, List.nil_append] at hup
  rcases hmet with hstop | ⟨m, hm, hoff⟩
  · omega
  · rw [hup]
    exact List.ne_nil_of_mem (mem_upFrom.2 ⟨hm, by omega⟩)

/-- A step at which nothing fails, and which polls only for messages that are there, leaves less to be
done, also with what it puts on the queue. -/
theorem weight_lt_of_transition (h : Transition j s w w' e) (hs : s.stopping = false)
    (ho : s.outage = none) (hbatch : w.phase = .polling → s.batch ≠ [])
    (hinc : IsIncreasing log) (ht : w.Tracks log) :
    w'.weight log + e.put.toList.length < w.weight log := by
  cases h with
  | create hp | assign hp | seek hp | goOn hp | leave hp | exhaust hp | close hp | announce hp =>
      simp [weight, called, Phase.rank, hp]
  | fail hp hout | failPoll hp hout | failClose hp hout =>
      rw [ho] at hout
      cases hout
  | abandon hp hstop | vanish hp hstop =>
      rw [hs] at hstop
      cases hstop
  | pollNone hp _ hb => exact absurd hb (hbatch hp)
  | poll hp _ hb =>
      obtain ⟨m, batch, hcons⟩ := List.exists_cons_of_ne_nil hb
      simp [weight, called, Phase.rank, hp, hcons]
  | skip hp =>
      rename_i m batch _ _
      obtain ⟨hm, hle, -, -⟩ := ht.next hinc hp
      have hlt := length_upFrom_lt hinc hm hle
      have hrank := rank_proceed_le ({ w with position := m.offset + 1 } : Worker) j batch
      have hbefore : w.phase.rank = 2 := by rw [hp]; rfl
      simp only [weight, position_proceed, Option.toList_none, List.length_nil]
      omega
  | keep hp | giveUp hp =>
      obtain ⟨hm, hle, -, -⟩ := ht.next hinc hp
      have hlt := length_upFrom_lt hinc hm hle
      simp only [weight, hp, Phase.rank, Option.toList_none, List.length_nil]
      omega
  | offer hp =>
      rename_i frame batch _ _
      have hrank := rank_proceed_le w j batch
      have hbefore : w.phase.rank = 7 := by rw [hp]; rfl
      simp only [weight, position_proceed, Option.toList_some, List.length_singleton]
      omega

/-- A worker that has not ended can make a step if there is room on the queue. -/
theorem step_isSome (hp : w.phase ≠ .ended) (hr : s.hasRoom = true) : (w.step j s).isSome := by
  rw [step]
  split <;> simp_all [apply_ite Option.isSome]

end Worker

namespace Scene

variable {s s' : Scene}

/-- How much is still to be done. -/
def weight (s : Scene) : Nat :=
  (s.reader.workers.map fun w => w.weight (s.log w.cursor.partition)).sum + s.reader.queue.length

/-- A move that brings the reading on makes it lighter. -/
theorem weight_step_lt {m : Move} (hb : s.IsBounded) (hm : m.IsProgress)
    (h : s.step m = some s') : s'.weight < s.weight := by
  cases m with
  | work i size outage =>
      obtain ⟨hsize, rfl⟩ := hm
      have hlog := log_work h
      obtain ⟨w, w', e, hi, hstep, rfl⟩ := step_work_eq_some.1 h
      have htr := Worker.transition_of_step hstep
      have hw := List.mem_of_getElem? hi
      have hbatch : w.phase = .polling → (s.surroundings w size none).batch ≠ [] := by
        intro hp
        obtain ⟨c, hc, -⟩ := (hb.tracks w hw).ahead (by simp [Worker.IsReading, hp])
        have hne := (hb.keeps w hw).upFrom_ne_nil (hb.tracks w hw) (hb.increasing _)
          (hb.met w hw) hp hc
        rw [surroundings_batch s w size none hc]
        simp only [ne_eq, List.take_eq_nil_iff, not_or]
        exact ⟨by omega, hne⟩
      have hlt := Worker.weight_lt_of_transition htr hb.going rfl hbatch (hb.increasing _)
        (hb.tracks w hw)
      have hsum := sum_map_set hi w' fun w => w.weight (s.log w.cursor.partition)
      simp only [weight, hlog, List.length_append]
      rw [Worker.cursor_of_transition htr] at hsum
      omega
  | take =>
      have hlog := log_take h
      obtain ⟨-, item, queue, hq, rfl⟩ := step_take_eq_some.1 h
      simp only [weight, hlog, hq, List.length_cons]
      omega
  | append id offset value => exact hm.elim

/-- A run that brings the reading on is no longer than what there is to be done. -/
theorem length_le_weight {moves : List Move} (hb : s.IsBounded) (hm : ∀ m ∈ moves, m.IsProgress)
    (h : s.run moves = some s') : moves.length ≤ s.weight := by
  induction moves generalizing s with
  | nil => exact Nat.zero_le _
  | cons m moves ih =>
      rw [run_cons] at h
      obtain ⟨t, ht, hrun⟩ := Option.bind_eq_some_iff.1 h
      have hmp := hm m List.mem_cons_self
      have hlt := weight_step_lt hb hmp ht
      have hle := ih (hb.step hmp.isFaultless ht) (fun n hn => hm n (List.mem_cons_of_mem m hn)) hrun
      rw [List.length_cons]
      omega

end Scene

end LogRelay
