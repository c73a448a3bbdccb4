import LogRelay.Proofs.Reading.Shutdown
/-!
# What it means that a reader has been closed

Of all calls that close a reader one finds that it has not been marked yet.  That one stops the
workers and says which of them are alive; a call that comes later is turned away at once and says
nothing about the workers, although it returns like a call that has found all of them at their end.

## Main definitions

* `Worker.HasClosed`: what was done with the consumer of a worker includes that it was closed.
* `Reader.Admits`: an answer may be given to a call that closes the reader.
* `Shutdown.IsOrderly`: what holds of a reader and the calls that close it, whatever they do.
* `Shutdown.HasStopped`: all workers have ended, and their consumers have been closed.

## Main statements

* `isOrderly_step`, `isOrderly_run`: each move and every run keeps that.
* `close_answers`: what the answers of calls that close a reader say.
-/
namespace LogRelay

open Worker (Transition)

/-! ## Counting in a list -/

theorem countP_set_add {α : Type} {l : List α} {k : Nat} {a : α} (hk : l[k]? = some a) (b : α)
    (p : α → Bool) :
    (l.set k b).countP p + (if p a then 1 else 0) = l.countP p + if p b then 1 else 0 := by
  obtain ⟨hlt, rfl⟩ := List.getElem?_eq_some_iff.1 hk
  have hpos : p l[k] = true → 0 < l.countP p :=
    fun h => List.countP_pos_iff.2 ⟨_, List.getElem_mem hlt, h⟩
  rw [List.countP_set hlt]
  split_ifs with hp <;> simp only [hp, forall_const] at hpos <;> omega

theorem two_le_countP {α : Type} {l : List α} {a b : α} {p : α → Bool} (ha : a ∈ l) (hb : b ∈ l)
    (hne : a ≠ b) (hpa : p a = true) (hpb : p b = true) : 2 ≤ l.countP p := by
  have hsub : [a, b].Subperm l := List.subperm_of_subset (by simpa using hne) (by simp [ha, hb])
  simpa [List.countP_cons, hpa, hpb] using hsub.countP_le p

namespace Worker

variable {j : Job} {o : Surroundings} {w w' : Worker} {e : Effect}

/-- The consumer of the worker has been closed, if there is one. -/
def HasClosed (w : Worker) : Prop :=
  ∀ c, w.consumer = some c → ConsumerCall.close ∈ c.calls

/-- The worker has closed its consumer if it has come so far. -/
def IsTidy (w : Worker) : Prop :=
  w.phase = .announcing ∨ w.phase = .ended → w.HasClosed

/-- A worker that has ended makes no step. -/
theorem ne_ended_of_transition (h : Transition j o w w' e) : w.phase ≠ .ended := by
  cases h with
  | fail hp => rcases hp with hp | hp | hp <;> simp [hp]
  | create hp | assign hp | seek hp | goOn hp | leave hp | failPoll hp | pollNone hp | poll hp
  | exhaust hp | skip hp | keep hp | giveUp hp | offer hp | abandon hp | close hp | failClose hp
  | announce hp | vanish hp => simp [hp]

theorem hasClosed_called_close (w : Worker) (phase : Phase) :
    (w.called (·.note .close) phase).HasClosed := by
  intro c hc
  obtain ⟨c, -, rfl⟩ := Option.map_eq_some_iff.1 hc
  simp [Consumer.note]

/-- A step keeps a worker tidy. -/
theorem isTidy_of_transition (h : Transition j o w w' e) (ht : w.IsTidy) : w'.IsTidy := by
  cases h with
  | close | failClose => exact fun _ => hasClosed_called_close w _
  | announce hp | vanish hp => exact fun _ => ht (.inl hp)
  | skip | offer =>
      rintro (hl | hl) <;>
        rcases phase_proceed _ j _ with ⟨-, h⟩ | ⟨-, h⟩ <;> rw [h] at hl <;> cases hl
  | _ => rintro (hl | hl) <;> cases hl

end Worker

namespace Reader

variable {r r' : Reader}

theorem mem_alive {id : Int} :
    id ∈ r.alive ↔ ∃ w ∈ r.workers, w.phase ≠ .ended ∧ w.cursor.partition = id := by
  simp [alive, Worker.isEnded, and_assoc]

theorem alive_eq_nil : r.alive = [] ↔ ∀ w ∈ r.workers, w.phase = .ended := by
  simp [alive, Worker.isEnded, List.filter_eq_nil_iff]

/-- An answer may be given: it is no failure if no worker is alive, and a failure that names all workers
that are alive, and perhaps others. -/
def Admits (r : Reader) (answer : Except Failure Unit) : Prop :=
  (answer = .ok () ∧ r.alive = []) ∨
    ∃ ids, answer = .error (.workersAlive ids) ∧ ids ≠ [] ∧ r.alive ⊆ ids

theorem admits_closeAnswer (r : Reader) : r.Admits r.closeAnswer := by
  rw [closeAnswer]
  split_ifs with hnil
  · exact .inl ⟨rfl, hnil⟩
  · exact .inr ⟨_, rfl, hnil, List.Subset.refl _⟩

/-- An answer may still be given when fewer workers are alive. -/
theorem Admits.mono {answer : Except Failure Unit} (h : r.Admits answer)
    (hsub : r'.alive ⊆ r.alive) : r'.Admits answer := by
  rcases h with ⟨hok, hnil⟩ | ⟨ids, herror, hne, hids⟩
  · exact .inl ⟨hok, List.subset_nil.1 (hnil ▸ hsub)⟩
  · exact .inr ⟨ids, herror, hne, List.Subset.trans hsub hids⟩

/-- A full queue is not empty. -/
theorem queue_ne_nil_of_full (h : r.hasRoom = false) : r.queue ≠ [] := by
  intro hq
  simp only [hasRoom, hq, List.length_nil, Bool.or_eq_false_iff, decide_eq_false_iff_not] at h
  omega

/-- Only a call that has found that the reader is not over comes to wait. -/
theorem Call.Goes.isOver_eq_false {a b : Call} {taken : Option Item} (h : Goes r a b r' taken)
    (hb : b.isWaiting = true) : r.isOver = false := by
  cases h with
  | exhaust => cases hb
  | wait ho => exact ho
  | @take timed item => cases item <;> cases hb

/-- A step of a call for a frame leaves alone what the calls that close the reader go by. -/
theorem Call.Goes.frame {a b : Call} {taken : Option Item} (h : Goes r a b r' taken) :
    r'.workers = r.workers ∧ r'.closed = r.closed ∧ r'.stopping = r.stopping := by
  cases h <;> exact ⟨rfl, rfl, rfl⟩

/-- A call that has not waited yet finds that a closed reader is over. -/
theorem Call.Goes.of_closed {a b : Call} {taken : Option Item} (h : Goes r a b r' taken)
    (hc : r.closed = true) (ha : a.isWaiting = false) : b = .returned .ended ∧ taken = none := by
  cases h with
  | exhaust => exact ⟨rfl, rfl⟩
  | wait ho => simp [isOver, hc] at ho
  | take => cases ha

/-- A call that waits takes the first item of the queue, and does not wait any more then. -/
theorem Call.Goes.of_waiting {a b : Call} {taken : Option Item} (h : Goes r a b r' taken)
    (ha : a.isWaiting = true) : b.isWaiting = false ∧ taken.toList = r.queue.take 1 := by
  cases h with
  | exhaust | wait => cases ha
  | @take timed item queue hq => exact ⟨by cases item <;> rfl, by simp [hq]⟩

/-- What a call takes is the first item of the queue. -/
theorem Call.Goes.queue {a b : Call} {taken : Option Item} (h : Goes r a b r' taken) :
    r.queue = taken.toList ++ r'.queue := by
  cases h with
  | exhaust | wait => rfl
  | take hq => exact hq

theorem Closing.isFirst_of_hasPosted {a : Closing} (h : a.hasPosted = true) : a.isFirst = true := by
  cases a <;> first | rfl | cases h

theorem Closing.hasSignalled_of_hasPosted {a : Closing} (h : a.hasPosted = true) :
    a.hasSignalled = true := by
  cases a <;> first | rfl | cases h

namespace Closing.Goes

variable {a b : Closing} {dropped : Option Item}

theorem workers (h : Goes r a b r' dropped) : r'.workers = r.workers := by
  cases h <;> rfl

/-- The reader is marked by the call that becomes the first one. -/
theorem first (h : Goes r a b r' dropped) :
    (a.isFirst = b.isFirst ∧ r'.closed = r.closed) ∨
      (a.isFirst = false ∧ b.isFirst = true ∧ r.closed = false ∧ r'.closed = true) := by
  cases h with
  | mark hc => exact .inr ⟨rfl, rfl, hc, rfl⟩
  | _ => exact .inl ⟨rfl, rfl⟩

theorem signalled (h : Goes r a b r' dropped) :
    (a.hasSignalled = b.hasSignalled ∧ r'.stopping = r.stopping) ∨
      (a.hasSignalled = false ∧ b.hasSignalled = true ∧ r'.stopping = true) := by
  cases h with
  | signal => exact .inr ⟨rfl, rfl, rfl⟩
  | _ => exact .inl ⟨rfl, rfl⟩

theorem closed_of_turnedAway (h : Goes r a .turnedAway r' dropped) : r'.closed = true := by
  cases h with
  | turnAway hc => exact hc

/-- A call answers what it finds out about the workers, and changes nothing with that. -/
theorem answer {answer : Except Failure Unit} (h : Goes r a (.returned answer) r' dropped) :
    a = .looking ∧ answer = r.closeAnswer ∧ r' = r := by
  cases h
  exact ⟨rfl, rfl, rfl⟩

/-- A call takes the first item of the queue while it empties it, or leaves its mark there, or does
nothing to the queue. -/
theorem queue (h : Goes r a b r' dropped) :
    (∃ item, a = .draining ∧ dropped = some item ∧ r.queue = item :: r'.queue) ∨
      dropped = none ∧ (r'.queue = r.queue ∨ r'.queue = r.queue ++ [.closed] ∧ a = .posting) := by
  cases h with
  | discard hq => exact .inl ⟨_, rfl, rfl, hq⟩
  | post => exact .inr ⟨rfl, .inr ⟨rfl, rfl⟩⟩
  | _ => exact .inr ⟨rfl, .inl rfl⟩

/-- When a call has posted its mark, there is something on the queue. -/
theorem posted (h : Goes r a b r' dropped) (hb : b.hasPosted = true) :
    a.hasPosted = true ∨ r'.queue ≠ [] := by
  cases h with
  | post hr => exact .inr (by simp)
  | full hr => exact .inr (queue_ne_nil_of_full hr)
  | look => exact .inl rfl
  | _ => cases hb

end Closing.Goes

end Reader

namespace Shutdown

variable {s s' : Shutdown} {m : Move}

/-! ## What a move changes -/

/-- A move changes the workers by a step of one of them, or not at all. -/
theorem workers_of_goes (h : s.Goes m s') : s'.reader.workers = s.reader.workers ∨
    ∃ i w w' o e, s.reader.workers[i]? = some w ∧ Transition s.reader.job o w w' e ∧
      s'.reader.workers = s.reader.workers.set i w' := by
  cases h with
  | work hi _ _ ht | put hi _ _ ht => exact .inr ⟨_, _, _, _, _, hi, ht, rfl⟩
  | proceed hc => exact .inl hc.frame.1
  | closing _ hc => exact .inl hc.workers
  | approach | giveUp | append | ask | timeOut | close => exact .inl rfl

/-- No move changes which part of which partition is read by which worker. -/
theorem cursors_of_goes (h : s.Goes m s') :
    s'.reader.workers.map (·.cursor) = s.reader.workers.map (·.cursor) := by
  rcases workers_of_goes h with heq | ⟨i, w, w', o, e, hi, ht, heq⟩
  · rw [heq]
  · rw [heq]
    exact map_set_of_eq hi (Worker.cursor_of_transition ht)

/-- A move changes the calls that close the reader by a step of one of them, or by a new one that has
not done anything yet. -/
theorem closings_of_goes (h : s.Goes m s') :
    ((s'.closings = s.closings ∨ s'.closings = s.closings ++ [.called]) ∧
      s'.reader.closed = s.reader.closed ∧ s'.reader.stopping = s.reader.stopping) ∨
    ∃ k a b dropped, s.closings[k]? = some a ∧
      Reader.Closing.Goes s.reader a b s'.reader dropped ∧ s'.closings = s.closings.set k b := by
  cases h with
  | closing hk hc => exact .inr ⟨_, _, _, _, hk, hc, rfl⟩
  | proceed hc => exact .inl ⟨.inl rfl, hc.frame.2⟩
  | close => exact .inl ⟨.inr rfl, rfl, rfl⟩
  | work | put | approach | giveUp | append | ask | timeOut => exact .inl ⟨.inl rfl, rfl, rfl⟩

/-! ## What holds whatever happens -/

/-- The reader is marked just if one call has marked it, and one only, and the workers are told to
stop just if a call has told them; calls are turned away only when the reader is marked; what calls have
answered may still be answered; workers that have come so far have closed their consumers; and when a
mark was to be left on the queue, nobody waits in front of an empty one. -/
structure IsOrderly (s : Shutdown) : Prop where
  first : s.closings.countP (·.isFirst) = if s.reader.closed then 1 else 0
  signalled : 0 < s.closings.countP (·.hasSignalled) ↔ s.reader.stopping = true
  turnedAway : .turnedAway ∈ s.closings → s.reader.closed = true
  returned : ∀ answer, .returned answer ∈ s.closings → s.reader.Admits answer
  tidy : ∀ w ∈ s.reader.workers, w.IsTidy
  released : (∃ a ∈ s.closings, a.hasPosted = true) → s.call.isWaiting = true →
    s.reader.queue ≠ []

/-- A worker that is alive after a move was alive before. -/
theorem alive_subset_of_goes (h : s.Goes m s') : s'.reader.alive ⊆ s.reader.alive := by
  intro id hid
  obtain ⟨v, hv, hp, rfl⟩ := Reader.mem_alive.1 hid
  rw [Reader.mem_alive]
  rcases workers_of_goes h with heq | ⟨i, w, w', o, e, hi, ht, heq⟩
  · exact ⟨v, heq ▸ hv, hp, rfl⟩
  · rw [heq] at hv
    rcases List.mem_or_eq_of_mem_set hv with hv | rfl
    · exact ⟨v, hv, hp, rfl⟩
    · exact ⟨w, List.mem_of_getElem? hi, Worker.ne_ended_of_transition ht,
        by rw [Worker.cursor_of_transition ht]⟩

theorem tidy_of_goes (h : s.Goes m s') (ht : ∀ w ∈ s.reader.workers, w.IsTidy) :
    ∀ w ∈ s'.reader.workers, w.IsTidy := by
  intro v hv
  rcases workers_of_goes h with heq | ⟨i, w, w', o, e, hi, htr, heq⟩
  · exact ht v (heq ▸ hv)
  · rw [heq] at hv
    rcases List.mem_or_eq_of_mem_set hv with hv | rfl
    · exact ht v hv
    · exact Worker.isTidy_of_transition htr (ht w (List.mem_of_getElem? hi))

/-- No two calls have marked the reader. -/
theorem IsOrderly.eq_of_isFirst (hs : s.IsOrderly) {a b : Reader.Closing} (ha : a ∈ s.closings)
    (hb : b ∈ s.closings) (hfa : a.isFirst = true) (hfb : b.isFirst = true) : a = b := by
  by_contra hne
  have htwo := two_le_countP (p := (·.isFirst)) ha hb hne hfa hfb
  have hone := hs.first
  split_ifs at hone <;> omega

theorem IsOrderly.closed_of_isFirst (hs : s.IsOrderly) {a : Reader.Closing} (ha : a ∈ s.closings)
    (hf : a.isFirst = true) : s.reader.closed = true := by
  have hpos : 0 < s.closings.countP (·.isFirst) := List.countP_pos_iff.2 ⟨a, ha, hf⟩
  rw [hs.first] at hpos
  by_contra hc
  simp [hc] at hpos

/-- A reader that is marked stays so. -/
theorem closed_of_goes (h : s.Goes m s') (hc : s.reader.closed = true) :
    s'.reader.closed = true := by
  rcases closings_of_goes h with ⟨-, heq, -⟩ | ⟨k, a, b, dropped, -, hgoes, -⟩
  · rw [heq, hc]
  · rcases hgoes.first with ⟨-, heq⟩ | ⟨-, -, -, heq⟩
    · rw [heq, hc]
    · exact heq

/-- One call has marked the reader, or none. -/
theorem first_of_goes (h : s.Goes m s') (hs : s.IsOrderly) :
    s'.closings.countP (·.isFirst) = if s'.reader.closed then 1 else 0 := by
  have hfirst := hs.first
  rcases closings_of_goes h with ⟨heq, hc, -⟩ | ⟨k, a, b, dropped, hk, hgoes, heq⟩
  · rw [hc, ← hfirst]
    rcases heq with heq | heq <;> simp [heq, Reader.Closing.isFirst]
  · have hcount := countP_set_add hk b (·.isFirst)
    rw [heq]
    rcases hgoes.first with ⟨hab, hc⟩ | ⟨ha, hb, hc, hc'⟩
    · rw [hab, Nat.add_right_cancel_iff] at hcount
      rw [hc, ← hfirst, hcount]
    · simp only [ha, hb, hc, hc', Bool.false_eq_true, if_false, if_true] at hcount hfirst ⊢
      omega

theorem signalled_of_goes (h : s.Goes m s') (hs : s.IsOrderly) :
    0 < s'.closings.countP (·.hasSignalled) ↔ s'.reader.stopping = true := by
  have hsignalled := hs.signalled
  rcases closings_of_goes h with ⟨heq, -, hc⟩ | ⟨k, a, b, dropped, hk, hgoes, heq⟩
  · rw [hc, ← hsignalled]
    rcases heq with heq | heq <;> simp [heq, Reader.Closing.hasSignalled]
  · have hcount := countP_set_add hk b (·.hasSignalled)
    rw [heq]
    rcases hgoes.signalled with ⟨hab, hc⟩ | ⟨ha, hb, hc⟩
    · rw [hab, Nat.add_right_cancel_iff] at hcount
      rw [hc, ← hsignalled, hcount]
    · simp only [ha, hb, Bool.false_eq_true, if_false, if_true] at hcount
      exact iff_of_true (by omega) hc

theorem turnedAway_of_goes (h : s.Goes m s') (hs : s.IsOrderly)
    (ht : .turnedAway ∈ s'.closings) : s'.reader.closed = true := by
  rcases closings_of_goes h with ⟨heq, -⟩ | ⟨k, a, b, dropped, hk, hgoes, heq⟩
  · apply closed_of_goes h (hs.turnedAway _)
    rcases heq with heq | heq <;> simpa [heq] using ht
  · rw [heq] at ht
    rcases List.mem_or_eq_of_mem_set ht with ht | rfl
    · exact closed_of_goes h (hs.turnedAway ht)
    · exact hgoes.closed_of_turnedAway

/-- What calls have answered may still be answered. -/
theorem returned_of_goes (h : s.Goes m s') (hs : s.IsOrderly) {answer : Except Failure Unit}
    (ht : .returned answer ∈ s'.closings) : s'.reader.Admits answer := by
  have hold (hmem : .returned answer ∈ s.closings) : s'.reader.Admits answer :=
    (hs.returned answer hmem).mono (alive_subset_of_goes h)
  rcases closings_of_goes h with ⟨heq, -⟩ | ⟨k, a, b, dropped, hk, hgoes, heq⟩
  · apply hold
    rcases heq with heq | heq <;> simpa [heq] using ht
  · rw [heq] at ht
    rcases List.mem_or_eq_of_mem_set ht with ht | rfl
    · exact hold ht
    · obtain ⟨-, rfl, hr⟩ := hgoes.answer
      rw [hr]
      exact s.reader.admits_closeAnswer

/-- A call that is to wait, or that waits, finds something on the queue once the mark was to be left
there. -/
theorem released_of_goes (h : s.Goes m s') (hs : s.IsOrderly)
    (hp : ∃ a ∈ s'.closings, a.hasPosted = true) (hw : s'.call.isWaiting = true) :
    s'.reader.queue ≠ [] := by
  cases h with
  | work | approach | giveUp | append => exact hs.released hp hw
  | put => exact List.append_ne_nil_of_left_ne_nil (hs.released hp hw) _
  | ask | timeOut => cases hw
  | proceed hc =>
      -- a call that comes to wait has seen a reader that is not closed
      have hover := hc.isOver_eq_false hw
      obtain ⟨a, ha, hposted⟩ := hp
      have hclosed := hs.closed_of_isFirst ha (Reader.Closing.isFirst_of_hasPosted hposted)
      simp [Reader.isOver, hclosed] at hover
  | close =>
      obtain ⟨a, ha, hposted⟩ := hp
      rcases List.mem_append.1 ha with ha | ha
      · exact hs.released ⟨a, ha, hposted⟩ hw
      · rw [List.mem_singleton.1 ha] at hposted
        cases hposted
  | @closing k a b r dropped hk hc =>
      obtain ⟨c, hmem, hposted⟩ := hp
      have hold : (∃ c ∈ s.closings, c.hasPosted = true) → r.queue ≠ [] := by
        rintro ⟨c, hmem, hposted⟩
        rcases hc.queue with ⟨item, rfl, -, -⟩ | ⟨-, hq | ⟨hq, -⟩⟩
        · -- two calls of which one has posted its mark and one still empties the queue
          have heq := hs.eq_of_isFirst hmem (List.mem_of_getElem? hk)
            (Reader.Closing.isFirst_of_hasPosted hposted) rfl
          rw [heq] at hposted
          cases hposted
        · exact hq ▸ hs.released ⟨c, hmem, hposted⟩ hw
        · simp [hq]
      rcases List.mem_or_eq_of_mem_set hmem with hmem | rfl
      · exact hold ⟨c, hmem, hposted⟩
      · rcases hc.posted hposted with hposted | hne
        · exact hold ⟨a, List.mem_of_getElem? hk, hposted⟩
        · exact hne

/-- Each move keeps the system orderly. -/
theorem isOrderly_step (hs : s.IsOrderly) (h : s.step m = some s') : s'.IsOrderly where
  first := first_of_goes (goes_of_step h) hs
  signalled := signalled_of_goes (goes_of_step h) hs
  turnedAway := turnedAway_of_goes (goes_of_step h) hs
  returned _ := returned_of_goes (goes_of_step h) hs
  tidy := tidy_of_goes (goes_of_step h) hs.tidy
  released := released_of_goes (goes_of_step h) hs

/-- Every run keeps the system orderly. -/
theorem isOrderly_run {moves : List Move} (hs : s.IsOrderly) (h : s.run moves = some s') :
    s'.IsOrderly :=
  run_induction (fun _ _ _ hs h => isOrderly_step hs h) hs h

/-! ## Readers that have been opened -/

/-- The system when a reader has just been opened. -/
def opened (c : Cluster) (r : Reader) (m : Metrics) : Shutdown :=
  { toScene := Scene.opened c r m }

theorem isOrderly_opened {c : Cluster} {topic : Json} {job : Job} {capacity : Int} {r : Reader}
    (hopen : Reader.opened c topic job capacity = .ok r) (m : Metrics) :
    (opened c r m).IsOrderly := by
  rw [Reader.opened_eq_ok hopen]
  refine ⟨rfl, by simp [opened, Scene.opened, Reader.ofCursors], by simp [opened],
    by simp [opened], ?_, by simp [opened]⟩
  intro w hw
  obtain ⟨cursor, -, rfl⟩ := List.mem_map.1 hw
  simp [Worker.ofCursor, Worker.IsTidy]

/-- All workers have ended, and the consumers that were created for them have been closed. -/
def HasStopped (s : Shutdown) : Prop :=
  ∀ w ∈ s.reader.workers, w.phase = .ended ∧ w.HasClosed

theorem IsOrderly.hasStopped (hs : s.IsOrderly) (h : s.reader.alive = []) : s.HasStopped := by
  intro w hw
  have hended := Reader.alive_eq_nil.1 h w hw
  exact ⟨hended, hs.tidy w hw (.inr hended)⟩

/-- The consumer with which the reading was planned has been closed. -/
theorem exists_planner {c : Cluster} {topic : Json} {job : Job} {capacity : Int} {r : Reader}
    (hopen : Reader.opened c topic job capacity = .ok r) :
    ∃ planner, (Reader.plan c topic job.request.tail).consumer = some planner ∧
      ConsumerCall.close ∈ planner.calls := by
  rw [Reader.opened, Reader.plan] at hopen
  rw [Reader.plan]
  split at hopen
  · cases hopen
  · exact ⟨_, rfl, by simp [Consumer.note]⟩

/-- **What the answers of calls that close a reader say.**  In whatever order the workers, a call for a
frame and any number of calls that close the reader go on, whatever fails and whoever is stuck: at most
one of the calls that close the reader marks it.  If that call has returned, either it has not failed,
and all workers have ended and the consumers that were created for the reader have been closed, or it
has failed because of some workers, all that are alive among them.  The other calls that have returned
were turned away: a call that finds the reader marked returns without failing whatever the workers
do. -/
theorem close_answers {c : Cluster} {topic : Json} {job : Job} {capacity : Int} {r : Reader}
    (hopen : Reader.opened c topic job capacity = .ok r) {before : Metrics} {moves : List Move}
    (hrun : (opened c r before).run moves = some s) :
    s.closings.countP (·.isFirst) ≤ 1 ∧
    (∀ a ∈ s.closings, ∀ answer, a.answer? = some answer → a.isFirst = true →
      (answer = .ok () ∧ s.HasStopped ∧
        ∃ planner, (Reader.plan c topic job.request.tail).consumer = some planner ∧
          ConsumerCall.close ∈ planner.calls) ∨
      ∃ ids, answer = .error (.workersAlive ids) ∧ ids ≠ [] ∧ s.reader.alive ⊆ ids) ∧
    (∀ a ∈ s.closings, ∀ answer, a.answer? = some answer → a.isFirst = false →
      answer = .ok () ∧ s.reader.closed = true) ∧
    (∀ k, s.closings[k]? = some .called → s.reader.closed = true →
      s.step (.closing k) = some { s with closings := s.closings.set k .turnedAway }) := by
  have hs := isOrderly_run (isOrderly_opened hopen before) hrun
  refine ⟨?_, ?_, ?_, ?_⟩
  · rw [hs.first]
    split_ifs <;> omega
  · intro a ha answer hanswer hfirst
    cases a with
    | returned given =>
        obtain rfl : given = answer := Option.some.inj hanswer
        rcases hs.returned given ha with ⟨hok, hnil⟩ | herror
        · exact .inl ⟨hok, hs.hasStopped hnil, exists_planner hopen⟩
        · exact .inr herror
    | turnedAway => cases hfirst
    | _ => cases hanswer
  · intro a ha answer hanswer hfirst
    cases a with
    | turnedAway => exact ⟨(Option.some.inj hanswer).symm, hs.turnedAway ha⟩
    | returned given => cases hfirst
    | _ => cases hanswer
  · intro k hk hc
    rw [step_closing hk (by rw [Reader.Closing.step, Reader.markClosed, if_pos hc])]
    simp

/-- A worker is stuck in its poll: the first call that closes the reader fails, and the second one
returns without failing although the worker is still alive. -/
theorem close_answers_stuck :
    ∃ (c : Cluster) (job : Job) (r : Reader) (moves : List Move) (s : Shutdown),
      Reader.opened c (.str "t") job 1 = .ok r ∧ (opened c r {}).run moves = some s ∧
        s.closings = [.returned (.error (.workersAlive [0])), .turnedAway] ∧
          s.reader.alive = [0] ∧ s.closings.countP (·.isFirst) ≤ 1 := by
  let p : Partition := { id := 0, messages := [] }
  let c : Cluster := { topics := [(.str "t", [p])] }
  let job : Job := { containerId := .str "c", request := {}, nesting := 100 }
  let r : Reader := .ofCursors (.str "t") job 1 [⟨0, 0, 0⟩]
  have hparts : c.partitions (.str "t") = [p] := rfl
  have hopen : Reader.opened c (.str "t") job 1 = .ok r :=
    Reader.opened_of_single job 1 rfl rfl hparts
  obtain ⟨s, hrun, hclosings, halive⟩ : ∃ s, (opened c r {}).run
      (List.replicate 4 (.work 0 1 none) ++ [.close] ++ List.replicate 6 (.closing 0) ++
        [.close, .closing 1]) = some s ∧
      s.closings = [.returned (.error (.workersAlive [0])), .turnedAway] ∧
        s.reader.alive = [0] := ⟨_, rfl, rfl, rfl⟩
  obtain ⟨hone, -⟩ := close_answers hopen hrun
  exact ⟨c, job, r, _, s, hopen, hrun, hclosings, halive, hone⟩

end Shutdown

end LogRelay
