import LogRelay.Proofs.Reading.Closing
import LogRelay.Proofs.Reading.Progress
import Mathlib.Data.Prod.Lex
/-!
# A reader after it has been closed for the first time

The first call that closes a reader comes to its end whatever the others do, and says truly which
workers are alive then.  From the moment on at which it marks the reader, who asks for a frame is told
that there are no more.  A worker that is told to stop goes straight to its end, closes its consumer on
the way, and puts nothing on the queue any more except for one item that it may be about to put there.
When the call has left its mark on the queue, a call for a frame that still waits finds something to
take, and what stands first on the queue then is the last thing that is ever taken.

## Main definitions

* `Shutdown.Reports`: what an answer says of the workers is true.
* `Shutdown.Descends`: the own moves of a party bring it nearer to its end, and those of others do not
  lead away from that.
* `Shutdown.IsRegular`: what holds whatever happens.
* `Shutdown.IsShut`, `Shutdown.WindsDown`, `Shutdown.IsReleased`: what holds of the reader once it is
  marked, of a worker once it is told to stop, and of a call that waits once the mark is on the queue.

## Main statements

* `descends_due`, `descends_remaining`: calls that close the reader, and workers that are told to stop,
  come to their ends.
* `first_close`: all of that for a reader that has been opened.
-/
namespace LogRelay

open Worker (Transition)

namespace Worker

variable {j : Job} {o : Surroundings} {w w' : Worker} {e : Effect}

/-- How many steps a worker that is told to stop has still to make, unless it polls: then that depends
on what it is handed. -/
def Phase.stepsLeft : Phase → Nat
  | .creating => 6
  | .assigning => 5
  | .seeking => 4
  | .handling batch => 4 + batch.length
  | .checking | .polling | .offering .. => 3
  | .closing => 2
  | .announcing => 1
  | .ended => 0

/-- A worker that is told to stop makes a step whatever the queue is like, unless it has ended. -/
theorem step_isSome_of_stopping (hp : w.phase ≠ .ended) (hs : o.stopping = true) :
    (w.step j o).isSome := by
  rw [step]
  split <;> simp_all

/-- A worker that is told to stop does not come to poll any more, and each of its steps but a poll
leaves it one less to make. -/
theorem stepsLeft_of_transition (h : Transition j o w w' e) (hs : o.stopping = true) :
    w'.phase ≠ .polling ∧ (w.phase = .polling ∨ w'.phase.stepsLeft < w.phase.stepsLeft) := by
  cases h with
  | create hp | assign hp | seek hp | leave hp | exhaust hp | abandon hp | close hp | failClose hp
  | vanish hp => simp [called, hp, Phase.stepsLeft]
  | fail hp => rcases hp with hp | hp | hp <;> simp [hp, Phase.stepsLeft]
  | failPoll hp | pollNone hp | poll hp => simp [called, hp]
  | keep hp | giveUp hp =>
      refine ⟨by simp, .inr ?_⟩
      rw [hp]
      simp only [Phase.stepsLeft, List.length_cons]
      omega
  | @skip m batch hp =>
      have hafter := phase_proceed { w with position := m.offset + 1 } j batch
      have hbefore : w.phase.stepsLeft = 5 + batch.length := by
        rw [hp, Phase.stepsLeft, List.length_cons]
        omega
      rw [hbefore]
      rcases hafter with ⟨-, h⟩ | ⟨-, h⟩ <;> rw [h, Phase.stepsLeft] <;>
        exact ⟨by simp, .inr (by omega)⟩
  | goOn _ hstop | offer _ hstop | announce _ hstop =>
      rw [hs] at hstop
      cases hstop

/-- A worker that has put something on the queue does not poll. -/
theorem ne_polling_of_wantsRoom (h : Transition j o w w' e) (hw : Reader.wantsRoom w = true) :
    w'.phase ≠ .polling := by
  cases h with
  | offer =>
      rcases phase_proceed _ j _ with ⟨-, h⟩ | ⟨-, h⟩ <;> rw [h] <;> simp
  | abandon | announce | vanish => simp
  | fail hp => rcases hp with hp | hp | hp <;> simp [Reader.wantsRoom, hp] at hw
  | create hp | assign hp | seek hp | goOn hp | leave hp | failPoll hp | pollNone hp | poll hp
  | exhaust hp | skip hp | keep hp | giveUp hp | close hp | failClose hp =>
      simp [Reader.wantsRoom, hp] at hw

end Worker

namespace Reader.Closing

variable {r r' : Reader} {a b : Closing} {dropped : Option Item}

/-- How much a call that closes the reader has still to do; while it empties the queue, that depends on
how much is there or on its way. -/
def due (backlog : Nat) : Closing → Nat ×ₗ Nat
  | .called => toLex (6, 0)
  | .marked => toLex (5, 0)
  | .joining => toLex (4, 0)
  | .draining => toLex (3, backlog)
  | .posting => toLex (2, 0)
  | .looking => toLex (1, 0)
  | .returned _ | .turnedAway => toLex (0, 0)

theorem due_eq_of_ne (ha : a ≠ .draining) (n n' : Nat) : a.due n = a.due n' := by
  cases a with
  | draining => exact absurd rfl ha
  | _ => rfl

theorem due_mono (a : Closing) {n n' : Nat} (h : n ≤ n') : a.due n ≤ a.due n' := by
  cases a with
  | draining => exact Prod.Lex.toLex_le_toLex.2 (.inr ⟨rfl, h⟩)
  | _ => exact le_refl _

/-- Each step of a call leaves it less to do. -/
theorem Goes.due_lt (h : Goes r a b r' dropped) (n : Nat) :
    b.due (r'.queue.length + n) < a.due (r.queue.length + n) := by
  cases h with
  | discard hq => simp [due, Prod.Lex.toLex_lt_toLex, hq]
  | _ => simp [due, Prod.Lex.toLex_lt_toLex]

theorem Goes.hasPosted (h : Goes r a b r' dropped) (ha : a.hasPosted = true) :
    b.hasPosted = true := by
  cases h with
  | look => rfl
  | _ => cases ha

end Reader.Closing

namespace Shutdown

variable {s s' : Shutdown} {m : Move}

/-! ## Workers that are about to put something on the queue -/

/-- The workers that are about to put something on the queue have something for it. -/
structure IsPutting (s : Shutdown) : Prop where
  nodup : s.putting.Nodup
  wants : ∀ i ∈ s.putting, ∃ w, s.reader.workers[i]? = some w ∧ Reader.wantsRoom w = true

/-- Each move keeps the workers about to put something on the queue in order. -/
theorem isPutting_of_goes (h : s.Goes m s') (hp : s.IsPutting) : s'.IsPutting := by
  cases h with
  | append | ask | timeOut | close => exact ⟨hp.nodup, hp.wants⟩
  | proceed hc => exact ⟨hp.nodup, by simpa [hc.frame.1] using hp.wants⟩
  | closing _ hc => exact ⟨hp.nodup, by simpa [hc.workers] using hp.wants⟩
  | giveUp => exact ⟨hp.nodup.erase _, fun i hi => hp.wants i (List.mem_of_mem_erase hi)⟩
  | approach hi hnot hr =>
      refine ⟨List.nodup_cons.2 ⟨hnot, hp.nodup⟩, ?_⟩
      intro k hk
      rcases List.mem_cons.1 hk with rfl | hk
      · exact ⟨_, hi, hr⟩
      · exact hp.wants k hk
  | work hi hnot =>
      refine ⟨hp.nodup, ?_⟩
      intro k hk
      obtain ⟨w, hw, hr⟩ := hp.wants k hk
      refine ⟨w, ?_, hr⟩
      simp only
      rw [List.getElem?_set_ne (by rintro rfl; exact hnot hk), hw]
  | put hi =>
      refine ⟨hp.nodup.erase _, ?_⟩
      intro k hk
      obtain ⟨hne, hk⟩ := hp.nodup.mem_erase_iff.1 hk
      obtain ⟨w, hw, hr⟩ := hp.wants k hk
      refine ⟨w, ?_, hr⟩
      simp only
      rw [List.getElem?_set_ne (Ne.symm hne), hw]

/-! ## Calls that close the reader come to their ends -/

/-- The own moves of a party bring it nearer to its end, and those of others do not lead away from that.
There is no infinite descent, so it makes only finitely many moves. -/
def Descends (s : Shutdown) (left : Shutdown → Nat ×ₗ Nat) (own : Move → Prop) : Prop :=
  ∀ m s', s.step m = some s' → left s' ≤ left s ∧ (own m → left s' < left s)

/-- What stands on the queue, and what is about to be put there. -/
def backlog (s : Shutdown) : Nat :=
  s.reader.queue.length + s.putting.length

/-- How much the call of a number that closes the reader has still to do. -/
def due (k : Nat) (s : Shutdown) : Nat ×ₗ Nat :=
  ((s.closings[k]?).map (·.due s.backlog)).getD (toLex (0, 0))

/-- A call that closes the reader stands where it stood unless a move is its own step. -/
theorem closing_of_goes (h : s.Goes m s') {k : Nat} {a : Reader.Closing}
    (hk : s.closings[k]? = some a) :
    (m ≠ .closing k ∧ s'.closings[k]? = some a) ∨
      (m = .closing k ∧ s'.putting = s.putting ∧ ∃ b dropped, s'.closings[k]? = some b ∧
        Reader.Closing.Goes s.reader a b s'.reader dropped) := by
  have hlt := (List.getElem?_eq_some_iff.1 hk).1
  cases h with
  | @closing k' a' b r dropped hk' hc =>
      by_cases heq : k' = k
      · subst heq
        obtain rfl : a' = a := Option.some.inj (hk'.symm.trans hk)
        exact .inr ⟨rfl, rfl, b, dropped, by simp [hlt], hc⟩
      · exact .inl ⟨by simpa using heq, by simpa [List.getElem?_set_ne heq] using hk⟩
  | close => exact .inl ⟨by simp, by simpa [List.getElem?_append_left hlt] using hk⟩
  | work | put | approach | giveUp | append | ask | proceed | timeOut => exact .inl ⟨by simp, hk⟩

/-- While the queue is emptied, nothing comes to it that was not on its way. -/
theorem backlog_of_goes (hs : s.IsOrderly) (hd : .draining ∈ s.closings) (h : s.Goes m s') :
    s'.backlog ≤ s.backlog := by
  have hstopping : s.reader.stopping = true :=
    hs.signalled.1 (List.countP_pos_iff.2 ⟨_, hd, rfl⟩)
  cases h with
  | work | append | ask | timeOut | close => exact le_refl _
  | approach _ _ _ hgoing =>
      rw [hstopping] at hgoing
      cases hgoing
  | @put i w w' e hi hp =>
      have hone : e.put.toList.length ≤ 1 := by cases e.put <;> simp
      have hpos := List.length_pos_of_mem hp
      simp only [backlog, List.length_append, List.length_erase_of_mem hp]
      omega
  | giveUp hp =>
      simp only [backlog, List.length_erase_of_mem hp]
      omega
  | proceed hc =>
      simp only [backlog, hc.queue, List.length_append]
      omega
  | closing hk hc =>
      simp only [backlog]
      rcases hc.queue with ⟨item, -, -, hq⟩ | ⟨-, hq | ⟨-, rfl⟩⟩
      · simp [hq]
      · rw [hq]
      · -- nobody else has marked the reader
        cases hs.eq_of_isFirst hd (List.mem_of_getElem? hk) rfl rfl

/-- A call that closes the reader comes nearer to its end by each of its own steps, and by no others'
away from it. -/
theorem descends_due (hs : s.IsOrderly) {k : Nat} {a : Reader.Closing}
    (hk : s.closings[k]? = some a) : s.Descends (due k) (· = .closing k) := by
  intro m s' hstep
  have hgoes := goes_of_step hstep
  rcases closing_of_goes hgoes hk with ⟨hne, hk'⟩ | ⟨heq, hputting, b, dropped, hk', hc⟩
  · refine ⟨?_, fun heq => absurd heq hne⟩
    simp only [due, hk, hk', Option.map_some, Option.getD_some]
    by_cases hd : a = .draining
    · subst hd
      exact Reader.Closing.due_mono _ (backlog_of_goes hs (List.mem_of_getElem? hk) hgoes)
    · exact (Reader.Closing.due_eq_of_ne hd _ _).le
  · have hlt := hc.due_lt s.putting.length
    simp only [due, hk, hk', Option.map_some, Option.getD_some, backlog, hputting]
    exact ⟨hlt.le, fun _ => hlt⟩

/-! ## Workers that are told to stop come to their ends -/

/-- It is a move of the worker of the given number. -/
def Move.IsOf (i : Nat) : Move → Prop
  | .work k _ _ | .approach k | .put k | .giveUp k => k = i
  | _ => False

/-- How much a worker that is told to stop has still to do; that is not bounded while it polls or is
about to put something on the queue. -/
def remaining (i : Nat) (s : Shutdown) : Nat ×ₗ Nat :=
  ((s.reader.workers[i]?).map fun w => toLex
    (if w.phase = .polling ∨ i ∈ s.putting then 1 else 0, w.phase.stepsLeft)).getD (toLex (0, 0))

theorem remaining_of_busy {i : Nat} {w : Worker} (hi : s.reader.workers[i]? = some w)
    (h : w.phase = .polling ∨ i ∈ s.putting) :
    remaining i s = toLex (1, w.phase.stepsLeft) := by
  rw [remaining, hi, Option.map_some, Option.getD_some, if_pos h]

theorem remaining_of_free {i : Nat} {w : Worker} (hi : s.reader.workers[i]? = some w)
    (h : ¬ (w.phase = .polling ∨ i ∈ s.putting)) :
    remaining i s = toLex (0, w.phase.stepsLeft) := by
  rw [remaining, hi, Option.map_some, Option.getD_some, if_neg h]

/-- A worker stands where it stood unless a move is its own. -/
theorem worker_of_goes (h : s.Goes m s') {i : Nat} (hm : ¬ m.IsOf i) :
    s'.reader.workers[i]? = s.reader.workers[i]? ∧ (i ∈ s'.putting ↔ i ∈ s.putting) := by
  cases h with
  | append | ask | timeOut | close => exact ⟨rfl, .rfl⟩
  | proceed hc => exact ⟨by rw [hc.frame.1], .rfl⟩
  | closing _ hc => exact ⟨by rw [hc.workers], .rfl⟩
  | giveUp => exact ⟨rfl, List.mem_erase_of_ne (Ne.symm hm)⟩
  | approach => exact ⟨rfl, by simp [List.mem_cons, Ne.symm hm]⟩
  | work => exact ⟨List.getElem?_set_ne hm, .rfl⟩
  | put => exact ⟨List.getElem?_set_ne hm, List.mem_erase_of_ne (Ne.symm hm)⟩

/-- After each of its own moves a worker that is told to stop neither polls nor is about to put
something on the queue, and if that was so before, it has fewer steps left. -/
theorem own_of_goes (h : s.Goes m s') (hp : s.IsPutting) (hs : s.reader.stopping = true) {i : Nat}
    {w : Worker} (hi : s.reader.workers[i]? = some w) (hm : m.IsOf i) :
    ∃ w', s'.reader.workers[i]? = some w' ∧ ¬ (w'.phase = .polling ∨ i ∈ s'.putting) ∧
      ((w.phase = .polling ∨ i ∈ s.putting) ∨ w'.phase.stepsLeft < w.phase.stepsLeft) := by
  have hlen := (List.getElem?_eq_some_iff.1 hi).1
  cases h with
  | append | ask | timeOut | close | proceed | closing => cases hm
  | approach _ _ _ hgoing =>
      rw [hs] at hgoing
      cases hgoing
  | @giveUp k hmem =>
      obtain rfl : k = i := hm
      obtain ⟨v, hv, hr⟩ := hp.wants k hmem
      obtain rfl : v = w := Option.some.inj (hv.symm.trans hi)
      have hphase : v.phase ≠ .polling := fun h => by simp [Reader.wantsRoom, h] at hr
      exact ⟨v, hv, not_or.2 ⟨hphase, hp.nodup.not_mem_erase⟩, .inl (.inr hmem)⟩
  | @work k _ _ v v' e hv hnot hr ht =>
      obtain rfl : k = i := hm
      obtain rfl : v = w := Option.some.inj (hv.symm.trans hi)
      obtain ⟨hphase, hlt⟩ := Worker.stepsLeft_of_transition ht hs
      exact ⟨v', List.getElem?_set_self hlen, not_or.2 ⟨hphase, hnot⟩, hlt.imp_left .inl⟩
  | @put k v v' e hv hmem hroom ht =>
      obtain rfl : k = i := hm
      obtain ⟨u, hu, hr⟩ := hp.wants k hmem
      obtain rfl : v = u := Option.some.inj (hv.symm.trans hu)
      exact ⟨v', List.getElem?_set_self hlen,
        not_or.2 ⟨Worker.ne_polling_of_wantsRoom ht hr, hp.nodup.not_mem_erase⟩, .inl (.inr hmem)⟩

/-- A worker that is told to stop comes nearer to its end by each of its own moves, and by no others'
away from it. -/
theorem descends_remaining (hp : s.IsPutting) (hs : s.reader.stopping = true) {i : Nat} {w : Worker}
    (hi : s.reader.workers[i]? = some w) : s.Descends (remaining i) (·.IsOf i) := by
  intro m s' hstep
  have hgoes := goes_of_step hstep
  by_cases hm : m.IsOf i
  · obtain ⟨w', hi', hfree, hless⟩ := own_of_goes hgoes hp hs hi hm
    have hlt : remaining i s' < remaining i s := by
      rw [remaining_of_free hi' hfree]
      by_cases hbusy : w.phase = .polling ∨ i ∈ s.putting
      · rw [remaining_of_busy hi hbusy, Prod.Lex.toLex_lt_toLex]
        exact .inl Nat.one_pos
      · rw [remaining_of_free hi hbusy, Prod.Lex.toLex_lt_toLex]
        exact .inr ⟨rfl, hless.resolve_left hbusy⟩
    exact ⟨hlt.le, fun _ => hlt⟩
  · obtain ⟨hworker, hputting⟩ := worker_of_goes hgoes hm
    have heq : remaining i s' = remaining i s := by simp only [remaining, hworker, hputting]
    exact ⟨heq.le, fun h => absurd h hm⟩

/-- A worker that is told to stop has always a move to make until it has ended. -/
theorem exists_own_move (hs : s.reader.stopping = true) {i : Nat} {w : Worker}
    (hi : s.reader.workers[i]? = some w) (hw : w.phase ≠ .ended) :
    ∃ m, m.IsOf i ∧ (s.step m).isSome := by
  by_cases hmem : i ∈ s.putting
  · cases hroom : s.reader.hasRoom with
    | true =>
        refine ⟨.put i, rfl, ?_⟩
        have hstep := Worker.step_isSome (j := s.reader.job)
          (s := { stopping := false, hasRoom := true }) hw rfl
        simpa [step, hmem, hroom, Reader.stepWorker, hi] using hstep
    | false => exact ⟨.giveUp i, rfl, by simp [step, hmem, hroom]⟩
  · refine ⟨.work i 0 none, rfl, ?_⟩
    have hstep := Worker.step_isSome_of_stopping (j := s.reader.job)
      (o := s.surroundings w 0 none) hw hs
    simpa [step, hmem, Reader.comesToPut, hs, Scene.step, Reader.stepWorker, hi] using hstep

/-! ## What workers that are told to stop put on the queue -/

/-- How many items of a partition were ever put on the queue. -/
def putCount (s : Shutdown) (id : Int) : Nat :=
  (s.taken ++ s.dropped ++ s.reader.queue).countP (·.partition? = some id)

theorem partitions_of_goes (h : s.Goes m s') : s'.reader.partitions = s.reader.partitions := by
  simpa [Reader.partitions, Function.comp_def] using
    congrArg (List.map (·.partition)) (cursors_of_goes h)

theorem stopping_of_goes (h : s.Goes m s') (hs : s.reader.stopping = true) :
    s'.reader.stopping = true := by
  rcases closings_of_goes h with ⟨-, -, heq⟩ | ⟨k, a, b, dropped, -, hgoes, -⟩
  · rw [heq, hs]
  · rcases hgoes.signalled with ⟨-, heq⟩ | ⟨-, -, heq⟩
    · rw [heq, hs]
    · exact heq

/-- What a worker puts on the queue counts for its own partition only. -/
theorem countP_put_le {k i : Nat} {w w' : Worker} {o : Surroundings} {e : Effect} {id : Int}
    (ht : Transition s.reader.job o w w' e) (hnodup : s.reader.partitions.Nodup)
    (hk : s.reader.workers[k]? = some w) (hid : s.reader.partitions[i]? = some id) :
    e.put.toList.countP (·.partition? = some id) ≤ if k = i then 1 else 0 := by
  have hpart : s.reader.partitions[k]? = some w.cursor.partition := by
    simp [Reader.partitions, hk]
  by_cases hki : k = i
  · rw [if_pos hki]
    exact List.countP_le_length.trans (by cases e.put <;> simp)
  · have hne : w.cursor.partition ≠ id := by
      rintro rfl
      have hlt := (List.getElem?_eq_some_iff.1 hpart).1
      exact hki ((List.getElem?_inj hlt hnodup).1 (hpart.trans hid.symm))
    rw [if_neg hki, Nat.le_zero, List.countP_eq_zero]
    intro item hitem
    simpa [Worker.partition?_put ht (Option.mem_toList.1 hitem)] using hne

/-- What a worker that is told to stop has put on the queue, with what it is about to put there. -/
theorem putCount_of_goes (h : s.Goes m s') (hp : s.IsPutting) (hs : s.reader.stopping = true)
    (hnodup : s.reader.partitions.Nodup) {i : Nat} {id : Int}
    (hid : s.reader.partitions[i]? = some id) :
    s'.putCount id + (if i ∈ s'.putting then 1 else 0) ≤
      s.putCount id + if i ∈ s.putting then 1 else 0 := by
  cases h with
  | work | append | ask | timeOut | close => exact le_refl _
  | approach _ _ _ hgoing =>
      rw [hs] at hgoing
      cases hgoing
  | giveUp =>
      refine Nat.add_le_add_left ?_ _
      split_ifs with hafter hbefore
      · exact le_refl _
      · exact absurd (List.mem_of_mem_erase hafter) hbefore
      · exact Nat.zero_le _
      · exact le_refl _
  | @put k w w' e hi hmem hroom ht =>
      have hput := countP_put_le ht hnodup hi hid
      simp only [putCount, ← List.append_assoc, List.countP_append]
      by_cases hki : k = i
      · subst hki
        rw [if_pos rfl] at hput
        rw [if_neg hp.nodup.not_mem_erase, if_pos hmem]
        omega
      · rw [if_neg hki] at hput
        simp only [List.mem_erase_of_ne (Ne.symm hki)]
        omega
  | proceed hc =>
      simp only [putCount, hc.queue, List.countP_append]
      omega
  | closing hk hc =>
      simp only [putCount, List.countP_append]
      rcases hc.queue with ⟨item, -, rfl, hq⟩ | ⟨rfl, hq | ⟨hq, -⟩⟩
      · simp only [hq, Option.toList_some, List.countP_cons, List.countP_nil]
        omega
      · simp [hq]
      · simp [hq, Item.partition?]

/-! ## What holds whatever happens -/

/-- The calls that close the reader are in order, and so are the workers about to put something on the
queue and the partitions. -/
structure IsRegular (s : Shutdown) : Prop extends s.IsOrderly, s.IsPutting where
  ascending : s.reader.partitions.Pairwise (· < ·)

/-- Each move keeps the system regular. -/
theorem isRegular_step (hs : s.IsRegular) (h : s.step m = some s') : s'.IsRegular where
  toIsOrderly := isOrderly_step hs.toIsOrderly h
  toIsPutting := isPutting_of_goes (goes_of_step h) hs.toIsPutting
  ascending := by
    rw [partitions_of_goes (goes_of_step h)]
    exact hs.ascending

/-- Every run keeps the system regular. -/
theorem isRegular_run {moves : List Move} (hs : s.IsRegular) (h : s.run moves = some s') :
    s'.IsRegular :=
  run_induction (fun _ _ _ hs h => isRegular_step hs h) hs h

/-- A reader that has been opened reads its partitions in ascending order. -/
theorem ascending_opened {c : Cluster} {topic : Json} {job : Job} {capacity : Int} {r : Reader}
    (hopen : Reader.opened c topic job capacity = .ok r)
    (hids : ((c.partitions topic).map (·.id)).Nodup) : r.partitions.Pairwise (· < ·) := by
  have hnodup := Scene.nodup_cursors hids job.request.tail
  have hsorted : ((((c.partitions topic).mergeSort fun p q => p.id ≤ q.id).map
      (Reader.cursor job.request.tail)).map (·.partition)).Pairwise (· ≤ ·) := by
    rw [List.map_map, List.pairwise_map]
    refine (List.pairwise_mergeSort ?_ ?_ (c.partitions topic)).imp fun h => of_decide_eq_true h
    · intro p q o hpq hqo
      simp only [decide_eq_true_eq] at hpq hqo ⊢
      omega
    · intro p q
      simp only [Bool.or_eq_true, decide_eq_true_eq]
      omega
  have hparts : r.partitions = (((c.partitions topic).mergeSort fun p q => p.id ≤ q.id).map
      (Reader.cursor job.request.tail)).map (·.partition) := by
    rw [Reader.opened_eq_ok hopen]
    simp [Reader.partitions, Reader.ofCursors, Worker.ofCursor]
  rw [hparts]
  exact (hsorted.and hnodup).imp fun h => lt_of_le_of_ne h.1 h.2

/-- The system is regular when a reader has just been opened. -/
theorem isRegular_opened {c : Cluster} {topic : Json} {job : Job} {capacity : Int} {r : Reader}
    (hopen : Reader.opened c topic job capacity = .ok r)
    (hids : ((c.partitions topic).map (·.id)).Nodup) (m : Metrics) : (opened c r m).IsRegular where
  toIsOrderly := isOrderly_opened hopen m
  nodup := List.nodup_nil
  wants := by simp [opened]
  ascending := ascending_opened hopen hids

/-! ## What the answer says -/

/-- What an answer says of the workers is true: it is none that names workers just if all have ended,
and else it names the partitions of those that have not, in ascending order. -/
structure Reports (s : Shutdown) (answer : Except Failure Unit) : Prop where
  ok_iff : answer = .ok () ↔ ∀ w ∈ s.reader.workers, w.phase = .ended
  error : ∀ f, answer = .error f → ∃ ids, f = .workersAlive ids ∧ ids.Pairwise (· < ·) ∧
    ∀ id, id ∈ ids ↔ ∃ w ∈ s.reader.workers, w.phase ≠ .ended ∧ w.cursor.partition = id

theorem IsRegular.reports (hs : s.IsRegular) : s.Reports s.reader.closeAnswer := by
  have hsub : s.reader.alive.Sublist s.reader.partitions := List.filter_sublist.map _
  by_cases hnil : s.reader.alive = []
  · rw [Reader.closeAnswer, if_pos hnil]
    exact ⟨iff_of_true rfl (Reader.alive_eq_nil.1 hnil), fun f hf => by cases hf⟩
  · rw [Reader.closeAnswer, if_neg hnil]
    refine ⟨iff_of_false (by simp) (fun h => hnil (Reader.alive_eq_nil.2 h)), ?_⟩
    rintro f ⟨⟩
    exact ⟨_, rfl, hs.ascending.sublist hsub, fun id => Reader.mem_alive⟩

/-- When a call answers, the answer is true. -/
theorem reports_of_goes (h : s.Goes m s') (hs : s.IsRegular) {k : Nat} {a : Reader.Closing}
    {answer : Except Failure Unit} (hk : s.closings[k]? = some a) (ha : a.answer? = none)
    (hk' : s'.closings[k]? = some (.returned answer)) : s'.Reports answer := by
  rcases closing_of_goes h hk with ⟨-, hsame⟩ | ⟨-, -, b, dropped, hb, hgoes⟩
  · obtain rfl : a = .returned answer := Option.some.inj (hsame.symm.trans hk')
    cases ha
  · obtain rfl : b = .returned answer := Option.some.inj (hb.symm.trans hk')
    obtain ⟨-, rfl, hr⟩ := hgoes.answer
    have hreports := hs.reports
    exact ⟨hr ▸ hreports.ok_iff, hr ▸ hreports.error⟩

/-! ## The reader once it is marked -/

/-- A reader that is marked has no more frames for anybody who asks, and cannot be read; that stays so,
and nothing more is taken from its queue except by a call that waits already. -/
structure IsShut (s : Shutdown) : Prop where
  next : s.reader.next.1 = .ended
  read : ∀ c size m, s.reader.read c size m = (.error .readerClosed, s.reader, m)
  proceed : ∀ timed, s.call = .testing timed →
    ∃ s', s.step .proceed = some s' ∧ s'.call = .returned .ended
  stays : ∀ more s', s.run more = some s' → s'.reader.closed = true ∧
    (s.call.isWaiting = false → s'.call.isWaiting = false ∧ s'.taken = s.taken ∧
      ∀ answer, s'.call = .returned answer → s'.call = s.call ∨ answer = .ended)

/-- After a move a call waits only if it has waited before, when the reader is marked; and nobody takes
anything but a call that waits. -/
theorem call_of_goes (h : s.Goes m s') (hc : s.reader.closed = true)
    (hw : s.call.isWaiting = false) : s'.call.isWaiting = false ∧ s'.taken = s.taken ∧
      ∀ answer, s'.call = .returned answer → s'.call = s.call ∨ answer = .ended := by
  cases h with
  | work | put | approach | giveUp | append | close | closing =>
      exact ⟨hw, rfl, fun _ _ => .inl rfl⟩
  | ask => exact ⟨rfl, rfl, fun _ h => by cases h⟩
  | timeOut hcall =>
      rw [hcall] at hw
      cases hw
  | proceed hcall =>
      obtain ⟨rfl, rfl⟩ := hcall.of_closed hc hw
      refine ⟨rfl, by simp, ?_⟩
      rintro answer ⟨⟩
      exact .inr rfl

theorem isShut (hc : s.reader.closed = true) : s.IsShut where
  next := by rw [Reader.next_of_isOver (by simp [Reader.isOver, hc])]
  read c size m := by rw [Reader.read, if_pos hc]
  proceed timed hcall := by
    refine ⟨_, step_proceed (by rw [hcall, Reader.Call.step, if_pos (by simp [Reader.isOver, hc])]),
      rfl⟩
  stays more s' hrun := by
    refine run_induction (P := fun t => t.reader.closed = true ∧ (s.call.isWaiting = false →
      t.call.isWaiting = false ∧ t.taken = s.taken ∧
        ∀ answer, t.call = .returned answer → t.call = s.call ∨ answer = .ended)) ?_
      ⟨hc, fun hw => ⟨hw, rfl, fun _ _ => .inl rfl⟩⟩ hrun
    rintro t m t' ⟨htc, ht⟩ hstep
    have hgoes := goes_of_step hstep
    refine ⟨closed_of_goes hgoes htc, fun hw => ?_⟩
    obtain ⟨htw, htaken, hanswer⟩ := ht hw
    obtain ⟨hw', htaken', hanswer'⟩ := call_of_goes hgoes htc htw
    refine ⟨hw', htaken'.trans htaken, fun answer hreturned => ?_⟩
    rcases hanswer' answer hreturned with heq | rfl
    · exact (hanswer answer (heq ▸ hreturned)).imp_left heq.trans
    · exact .inr rfl

/-! ## Workers once they are told to stop -/

/-- A worker that is told to stop comes to its end by its own moves, of which there is always one until
then; it has closed its consumer then; and it puts no more items on the queue than the one that it may
be about to put there. -/
structure WindsDown (s : Shutdown) (i : Nat) (w : Worker) : Prop where
  descends : s.Descends (remaining i) (·.IsOf i)
  goesOn : w.phase ≠ .ended → ∃ m, m.IsOf i ∧ (s.step m).isSome
  closes : w.phase = .ended → w.HasClosed
  puts : ∀ more s', s.run more = some s' → s'.putCount w.cursor.partition ≤
    s.putCount w.cursor.partition + if i ∈ s.putting then 1 else 0

theorem IsRegular.windsDown (hs : s.IsRegular) (hstop : s.reader.stopping = true) {i : Nat}
    {w : Worker} (hi : s.reader.workers[i]? = some w) : s.WindsDown i w where
  descends := descends_remaining hs.toIsPutting hstop hi
  goesOn := exists_own_move hstop hi
  closes hp := hs.tidy w (List.mem_of_getElem? hi) (.inr hp)
  puts more s' hrun := by
    have hid : s.reader.partitions[i]? = some w.cursor.partition := by
      simp [Reader.partitions, hi]
    have hinv := run_induction (P := fun t => t.IsRegular ∧ t.reader.stopping = true ∧
      t.reader.partitions = s.reader.partitions ∧
        t.putCount w.cursor.partition + (if i ∈ t.putting then 1 else 0) ≤
          s.putCount w.cursor.partition + if i ∈ s.putting then 1 else 0) ?_
      ⟨hs, hstop, rfl, le_refl _⟩ hrun
    · exact (Nat.le_add_right _ _).trans hinv.2.2.2
    · rintro t m t' ⟨ht, htstop, hparts, hle⟩ hstep
      have hgoes := goes_of_step hstep
      refine ⟨isRegular_step ht hstep, stopping_of_goes hgoes htstop,
        (partitions_of_goes hgoes).trans hparts, ?_⟩
      exact (putCount_of_goes hgoes ht.toIsPutting htstop
        (ht.ascending.imp fun h => h.ne) (hparts ▸ hid)).trans hle

/-! ## A call that waits once the mark is on the queue -/

/-- A call that waits finds something on the queue and comes to return or to look again whether the
reader is over; and of all that is on the queue, and will be, only what stands first is ever taken. -/
structure IsReleased (s : Shutdown) : Prop where
  nonempty : s.call.isWaiting = true → s.reader.queue ≠ []
  returns : ∀ timed, s.call = .waiting timed → ∃ s', s.step .proceed = some s' ∧
    ((∃ answer, s'.call = .returned answer) ∨ s'.call = .testing timed)
  last : ∀ more s', s.run more = some s' →
    ∃ items, s'.taken = s.taken ++ items ∧ items <+: s.reader.queue.take 1

theorem posted_of_goes (h : s.Goes m s') (hp : ∃ a ∈ s.closings, a.hasPosted = true) :
    ∃ a ∈ s'.closings, a.hasPosted = true := by
  obtain ⟨a, ha, hposted⟩ := hp
  obtain ⟨k, hk⟩ := List.mem_iff_getElem?.1 ha
  rcases closing_of_goes h hk with ⟨-, hsame⟩ | ⟨-, -, b, dropped, hb, hgoes⟩
  · exact ⟨a, List.mem_of_getElem? hsame, hposted⟩
  · exact ⟨b, List.mem_of_getElem? hb, hgoes.hasPosted hposted⟩

/-- Once the mark was to be left on the queue, what a call takes is what stands first there, and as long
as it waits that does not change. -/
theorem taken_of_goes (h : s.Goes m s') (hs : s.IsOrderly)
    (hp : ∃ a ∈ s.closings, a.hasPosted = true) :
    (s'.taken = s.taken ∧ (s'.call.isWaiting = true →
      s.call.isWaiting = true ∧ s'.reader.queue.take 1 = s.reader.queue.take 1)) ∨
    (s.call.isWaiting = true ∧ s'.call.isWaiting = false ∧
      s'.taken = s.taken ++ s.reader.queue.take 1) := by
  obtain ⟨c, hmem, hposted⟩ := hp
  have hfirst := Reader.Closing.isFirst_of_hasPosted hposted
  cases h with
  | work | approach | giveUp | append | close => exact .inl ⟨rfl, fun hw => ⟨hw, rfl⟩⟩
  | ask | timeOut => exact .inl ⟨rfl, fun hw => by cases hw⟩
  | put =>
      refine .inl ⟨rfl, fun hw => ⟨hw, List.take_append_of_le_length ?_⟩⟩
      exact List.length_pos_iff.2 (hs.released ⟨c, hmem, hposted⟩ hw)
  | proceed hc =>
      cases hw : s.call.isWaiting with
      | false =>
          obtain ⟨rfl, rfl⟩ := hc.of_closed (hs.closed_of_isFirst hmem hfirst) hw
          exact .inl ⟨by simp, fun h => by cases h⟩
      | true =>
          obtain ⟨hb, htaken⟩ := hc.of_waiting hw
          exact .inr ⟨rfl, hb, by rw [htaken]⟩
  | @closing k a b r dropped hk hc =>
      have hnot (ha : a = .draining ∨ a = .posting) : False := by
        have heq := hs.eq_of_isFirst hmem (List.mem_of_getElem? hk) hfirst
          (by rcases ha with rfl | rfl <;> rfl)
        rw [heq] at hposted
        rcases ha with rfl | rfl <;> cases hposted
      rcases hc.queue with ⟨item, ha, -⟩ | ⟨-, hq | ⟨-, ha⟩⟩
      · exact (hnot (.inl ha)).elim
      · exact .inl ⟨rfl, fun hw => ⟨hw, by rw [hq]⟩⟩
      · exact (hnot (.inr ha)).elim

theorem IsRegular.isReleased (hs : s.IsRegular) (hp : ∃ a ∈ s.closings, a.hasPosted = true) :
    s.IsReleased where
  nonempty := hs.released hp
  returns timed hcall := by
    have hne := hs.released hp (by rw [hcall]; rfl)
    obtain ⟨item, queue, hq⟩ := List.exists_cons_of_ne_nil hne
    refine ⟨_, step_proceed (by rw [hcall, Reader.Call.step,
      Reader.take_eq_some.2 ⟨queue, hq, rfl⟩]; rfl), ?_⟩
    cases item with
    | frame id bs => exact .inl ⟨_, rfl⟩
    | done id => exact .inr rfl
    | closed => exact .inl ⟨_, rfl⟩
  last more s' hrun := by
    have hinv := run_induction (P := fun t => t.IsRegular ∧
      (∃ a ∈ t.closings, a.hasPosted = true) ∧ ∃ items, t.taken = s.taken ++ items ∧
        items <+: s.reader.queue.take 1 ∧ (t.call.isWaiting = true →
          items = [] ∧ t.reader.queue.take 1 = s.reader.queue.take 1)) ?_
      ⟨hs, hp, [], by simp, List.nil_prefix, fun _ => ⟨rfl, rfl⟩⟩ hrun
    · obtain ⟨-, -, items, htaken, hitems, -⟩ := hinv
      exact ⟨items, htaken, hitems⟩
    · rintro t m t' ⟨ht, hposted, items, htaken, hitems, hw⟩ hstep
      have hgoes := goes_of_step hstep
      refine ⟨isRegular_step ht hstep, posted_of_goes hgoes hposted, ?_⟩
      rcases taken_of_goes hgoes ht.toIsOrderly hposted with ⟨heq, hsame⟩ | ⟨hwaits, hnot, heq⟩
      · refine ⟨items, heq.trans htaken, hitems, fun hw' => ?_⟩
        obtain ⟨hwaits, hqueue⟩ := hsame hw'
        exact ⟨(hw hwaits).1, hqueue.trans (hw hwaits).2⟩
      · obtain ⟨rfl, hqueue⟩ := hw hwaits
        refine ⟨s.reader.queue.take 1, ?_, List.prefix_refl _, fun hw' => ?_⟩
        · rw [heq, htaken, List.append_nil, hqueue]
        · rw [hnot] at hw'
          cases hw'

/-- **A reader after it has been closed for the first time.**  In whatever order the workers, a call for
a frame and any number of calls that close the reader go on, whatever fails and whoever is stuck: the
call that has marked the reader says truly which workers are alive when it ends, and it does end (the
last thing it does is to look at all workers, which is one step here: of a call that asks them one after
the other this says something only if no worker ends while it does so); from the moment on at which it
marks the reader, that has no more frames for anybody who asks and cannot be read; each worker that is
told to stop goes to its end, closes its consumer on the way, and puts nothing on the queue unless it was
about to; and when the call has left its mark there, one that waits for a frame finds something to take,
and only what stands first on the queue is ever taken. -/
theorem first_close {c : Cluster} {topic : Json} {job : Job} {capacity : Int} {r : Reader}
    (hopen : Reader.opened c topic job capacity = .ok r)
    (hids : ((c.partitions topic).map (·.id)).Nodup) {before : Metrics} {moves : List Move}
    (hrun : (opened c r before).run moves = some s) :
    (∀ k a, s.closings[k]? = some a →
      (a.answer? = none → (s.step (.closing k)).isSome ∧
        ∀ m s' answer, s.step m = some s' → s'.closings[k]? = some (.returned answer) →
          s'.Reports answer) ∧
      s.Descends (due k) (· = .closing k)) ∧
    ((∃ a ∈ s.closings, a.isFirst = true) → s.IsShut) ∧
    ((∃ a ∈ s.closings, a.hasSignalled = true) →
      ∀ i w, s.reader.workers[i]? = some w → s.WindsDown i w) ∧
    ((∃ a ∈ s.closings, a.hasPosted = true) → s.IsReleased) := by
  have hs := isRegular_run (isRegular_opened hopen hids before) hrun
  refine ⟨?_, ?_, ?_, hs.isReleased⟩
  · intro k a hk
    refine ⟨fun ha => ⟨?_, ?_⟩, descends_due hs.toIsOrderly hk⟩
    · obtain ⟨⟨b, reader, dropped⟩, hstep⟩ :=
        Option.isSome_iff_exists.1 (Reader.Closing.step_isSome (r := s.reader) ha)
      rw [step_closing hk hstep]
      rfl
    · intro m s' answer hstep hk'
      exact reports_of_goes (goes_of_step hstep) hs hk ha hk'
  · rintro ⟨a, ha, hfirst⟩
    exact isShut (hs.closed_of_isFirst ha hfirst)
  · rintro ⟨a, ha, hsignalled⟩ i w hi
    exact hs.windsDown (hs.signalled.1 (List.countP_pos_iff.2 ⟨a, ha, hsignalled⟩)) hi

/-- A worker puts a frame on the queue just before the mark is to be left there, so that there is no
room for it.  The call that closes the reader fails because the worker is alive, and the call that waits
for a frame finds that one. -/
theorem first_close_full :
    ∃ (c : Cluster) (job : Job) (r : Reader) (moves : List Move) (s : Shutdown) (w : Worker),
      Reader.opened c (.str "t") job 1 = .ok r ∧ (opened c r {}).run moves = some s ∧
        s.reader.alive = [0] ∧ s.call = .waiting false ∧
          s.reader.queue = [.frame 0 [0, 0, 0, 4, 26, 2, 120, 10]] ∧
            s.reader.workers = [w] ∧ s.IsShut ∧ s.WindsDown 0 w ∧ s.IsReleased := by
  let value : Bytes := Message.letter "1970-01-01T00:00:00Z"
  let p : Partition := { id := 0, messages := [⟨0, some value⟩, ⟨1, some value⟩] }
  let c : Cluster := { topics := [(.str "t", [p])] }
  let job : Job := { containerId := .str "c", request := {}, nesting := 100 }
  let r : Reader := .ofCursors (.str "t") job 1 [⟨0, 0, 2⟩]
  have hparts : c.partitions (.str "t") = [p] := rfl
  have hopen : Reader.opened c (.str "t") job 1 = .ok r :=
    Reader.opened_of_single job 1 rfl rfl hparts
  let moves : List Move := List.replicate 6 (.work 0 2 none) ++
    [.approach 0, .put 0, .work 0 2 none, .approach 0, .ask false, .proceed, .close] ++
    List.replicate 5 (.closing 0) ++ [.put 0, .closing 0, .closing 0]
  let leaving : Worker :=
    { cursor := ⟨0, 0, 2⟩, phase := .handling [], position := 2
      consumer := some ⟨2, 1, [.assign 0, .seek 0 0, .poll]⟩ }
  have hreader : ((opened c r {}).run moves).map (fun s =>
      (s.reader.alive, s.reader.queue, s.reader.workers)) =
      some ([0], [.frame 0 [0, 0, 0, 4, 26, 2, 120, 10]], [leaving]) := by decide +kernel
  have hcalls : ((opened c r {}).run moves).map (fun s =>
      (s.call, s.closings.map (·.hasPosted))) = some (.waiting false, [true]) := by decide +kernel
  obtain ⟨s, hrun, hs⟩ := Option.map_eq_some_iff.1 hreader
  rw [hrun, Option.map_some, Option.some.injEq, Prod.mk.injEq] at hcalls
  obtain ⟨halive, hqueue, hworkers⟩ : s.reader.alive = [0] ∧ s.reader.queue = _ ∧
    s.reader.workers = [leaving] := by simpa using hs
  obtain ⟨hcall, hclosings⟩ := hcalls
  have hposted : ∃ a ∈ s.closings, a.hasPosted = true :=
    List.mem_map.1 (hclosings ▸ List.mem_singleton_self true)
  obtain ⟨-, hshut, hwinds, hreleased⟩ := first_close hopen (by simp [hparts]) hrun
  obtain ⟨a, ha, hp⟩ := hposted
  exact ⟨c, job, r, moves, s, leaving, hopen, hrun, halive, hcall, hqueue, hworkers,
    hshut ⟨a, ha, Reader.Closing.isFirst_of_hasPosted hp⟩,
    hwinds ⟨a, ha, Reader.Closing.hasSignalled_of_hasPosted hp⟩ 0 leaving (by rw [hworkers]; rfl),
    hreleased ⟨a, ha, hp⟩⟩

end Shutdown

end LogRelay
