import LogRelay.Proofs.Reading.Closing
/-!
# What workers do with their consumers

A worker assigns its consumer the partition, sets it to the offset where reading starts, polls it any
number of times and closes it; whatever fails, and whenever the worker is told to stop, it comes from
any of these to the closing.  So the calls of a consumer are always the start of such a row of calls,
and once the worker is done with it the start of one with a closing call behind it.

## Main definitions

* `Cursor.script`: the calls of a worker that polls a number of times.
* `Worker.CallsFit`: the calls that have been made where the worker stands.
* `Worker.UsesWell`: what is promised of the calls at any time.

## Main statements

* `isCareful_of_transition`: each step of a worker keeps the calls fitting.
* `usesWell_of_callsFit`: calls that fit are as promised.
* `usesWell_run`: at any time after a reader was opened all workers use their consumers well.
-/
namespace LogRelay

open Worker (Transition)

/-! ## Rows of calls -/

namespace Consumer

@[simp] theorem calls_note (k : Consumer) (call : ConsumerCall) :
    (k.note call).calls = k.calls ++ [call] := rfl

@[simp] theorem calls_seek (k : Consumer) (id offset : Int) :
    (k.seek id offset).calls = k.calls ++ [.seek id offset] := rfl

@[simp] theorem calls_deliver (k : Consumer) (batch : List Message) :
    (k.deliver batch).calls = k.calls ++ [.poll] := by
  rw [Consumer.deliver]
  split <;> rfl

end Consumer

namespace Cursor

/-- The calls of a worker that makes its consumer ready and polls it `n` times. -/
def script (c : Cursor) (n : Nat) : List ConsumerCall :=
  .assign c.partition :: .seek c.partition c.start :: List.replicate n .poll

variable {c : Cursor} {made : List ConsumerCall} {n : Nat}

theorem script_succ (c : Cursor) (n : Nat) : c.script (n + 1) = c.script n ++ [.poll] := by
  simp [script, List.replicate_succ']

/-- How far a worker can come with its consumer before it closes it. -/
theorem prefix_script (h : made <+: c.script n) :
    made = [] ∨ made = [.assign c.partition] ∨ ∃ m, made = c.script m := by
  rcases List.prefix_cons_iff.1 h with rfl | ⟨rest, rfl, hrest⟩
  · exact .inl rfl
  rcases List.prefix_cons_iff.1 hrest with rfl | ⟨polls, rfl, hpolls⟩
  · exact .inr (.inl rfl)
  · obtain ⟨-, heq⟩ := List.prefix_replicate_iff.1 hpolls
    exact .inr (.inr ⟨polls.length, by rw [script, ← heq]⟩)

theorem close_notMem_of_prefix (h : made <+: c.script n) : ConsumerCall.close ∉ made := by
  intro hmem
  simpa [script, List.mem_replicate] using h.subset hmem

end Cursor

/-! ## Workers and their calls -/

namespace Worker

/-- The calls that a worker has made, by where it stands. -/
def CallsFit (w : Worker) (calls : List ConsumerCall) : Prop :=
  match w.phase with
  | .creating => False
  | .assigning => calls = []
  | .seeking => calls = [.assign w.cursor.partition]
  | .checking | .polling | .handling _ | .offering .. => ∃ n, calls = w.cursor.script n
  | .closing => ∃ n, calls <+: w.cursor.script n
  | .announcing | .ended => ∃ n made, made <+: w.cursor.script n ∧ calls = made ++ [.close]

/-- The calls of the worker's consumer, if there is one, fit where the worker stands. -/
def IsCareful (w : Worker) : Prop :=
  ∀ k, w.consumer = some k → w.CallsFit k.calls

/-- What is promised of the calls of a worker's consumer. -/
structure UsesWell (w : Worker) (calls : List ConsumerCall) : Prop where
  /-- it is given the worker's partition, and nothing else -/
  assigned : ∀ id, .assign id ∈ calls → id = w.cursor.partition
  once : calls.count (.assign w.cursor.partition) ≤ 1
  sought : ∀ id offset, .seek id offset ∈ calls →
    id = w.cursor.partition ∧ offset = w.cursor.start
  /-- it is not polled before it has been made ready -/
  ready : .poll ∈ calls → w.cursor.script 0 <+: calls
  /-- nothing is done with it after it was closed -/
  last : ∀ made after, calls = made ++ .close :: after → after = []
  closed : w.phase = .ended → calls.count .close = 1

variable {j : Job} {o : Surroundings} {w w' : Worker} {e : Effect} {calls made : List ConsumerCall}
  {n : Nat}

/-- What fits a worker that is at work fits it when it comes to the closing. -/
theorem CallsFit.leave (h : w.CallsFit calls) (hl : ¬ w.IsLeaving) :
    ∃ n, calls <+: w.cursor.script n := by
  cases hp : w.phase <;> simp only [CallsFit, IsLeaving, hp, not_true_eq_false] at h hl
  case assigning => exact ⟨0, h ▸ List.nil_prefix⟩
  case seeking => exact ⟨0, h ▸ ⟨_, rfl⟩⟩
  all_goals
    obtain ⟨n, rfl⟩ := h
    exact ⟨n, List.prefix_rfl⟩

/-- A worker that is reading has made its consumer ready and polled it. -/
theorem IsCareful.of_isReading (h : w.IsCareful) (hr : w.IsReading) {k : Consumer}
    (hk : w.consumer = some k) : ∃ n, k.calls = w.cursor.script n := by
  have hfit := h k hk
  cases hp : w.phase <;> simp only [CallsFit, IsReading, hp] at hfit hr
  all_goals exact hfit

/-! ## Each step -/

/-- A worker that does something with its consumer stays careful if what fitted before fits then. -/
theorem isCareful_called {change : Consumer → Consumer} {phase : Phase} (hw : w.IsCareful)
    (h : ∀ k, w.CallsFit k.calls → (w.called change phase).CallsFit (change k).calls) :
    (w.called change phase).IsCareful := by
  intro k hk
  obtain ⟨k, hsome, rfl⟩ := Option.map_eq_some_iff.1 hk
  exact h k (hw k hsome)

/-- A worker that polls stays careful if it goes where any number of polls fits. -/
theorem isCareful_poll {phase : Phase} {change : Consumer → Consumer} (hw : w.IsCareful)
    (hp : w.phase = .polling) (hchange : ∀ k, (change k).calls = k.calls ++ [.poll])
    (h : ∀ n, (w.called change phase).CallsFit (w.cursor.script n)) :
    (w.called change phase).IsCareful := by
  refine isCareful_called hw fun k hk => ?_
  obtain ⟨n, heq⟩ : ∃ n, k.calls = w.cursor.script n := by simpa only [CallsFit, hp] using hk
  rw [hchange, heq, ← Cursor.script_succ]
  exact h (n + 1)

/-- A worker that is done with a message stays careful. -/
theorem isCareful_proceed (batch : List Message)
    (h : ∀ k, w.consumer = some k → ∃ n, k.calls = w.cursor.script n) :
    (w.proceed j batch).IsCareful := by
  intro k hk
  obtain ⟨n, heq⟩ := h k hk
  rcases phase_proceed w j batch with ⟨-, hp⟩ | ⟨-, hp⟩ <;> simp only [CallsFit, hp]
  · exact ⟨n, heq⟩
  · exact ⟨n, heq ▸ List.prefix_rfl⟩

/-- A worker that closes its consumer stays careful. -/
theorem isCareful_close {phase : Phase} (hw : w.IsCareful) (hp : w.phase = .closing)
    (hphase : phase = .announcing ∨ phase = .ended) :
    (w.called (·.note .close) phase).IsCareful := by
  refine isCareful_called hw fun k hk => ?_
  obtain ⟨n, hpre⟩ : ∃ n, k.calls <+: w.cursor.script n := by simpa only [CallsFit, hp] using hk
  rcases hphase with rfl | rfl <;> exact ⟨n, k.calls, hpre, rfl⟩

/-- A step keeps a worker careful. -/
theorem isCareful_of_transition (h : Transition j o w w' e) (hw : w.IsCareful) :
    w'.IsCareful := by
  cases h with
  | create hp =>
      intro k hk
      cases hk
      rfl
  | assign hp =>
      refine isCareful_called hw fun k hk => ?_
      have hnil : k.calls = [] := by simpa only [CallsFit, hp] using hk
      simp [CallsFit, called, hnil]
  | seek hp =>
      refine isCareful_called hw fun k hk => ?_
      have hone : k.calls = [.assign w.cursor.partition] := by simpa only [CallsFit, hp] using hk
      exact ⟨0, by simp [hone, Cursor.script, called]⟩
  | fail hp =>
      intro k hk
      refine (hw k hk).leave ?_
      rcases hp with hp | hp | hp <;> simp [IsLeaving, hp]
  | goOn hp | exhaust hp | keep hp =>
      intro k hk
      exact hw.of_isReading (by simp [IsReading, hp]) hk
  | leave hp | giveUp hp | abandon hp =>
      intro k hk
      exact (hw k hk).leave (by simp [IsLeaving, hp])
  | failPoll hp => exact isCareful_poll hw hp (Consumer.calls_note · _) fun n => ⟨n, List.prefix_rfl⟩
  | pollNone hp => exact isCareful_poll hw hp (Consumer.calls_deliver · _) fun n => ⟨n, rfl⟩
  | poll hp => exact isCareful_poll hw hp (Consumer.calls_deliver · _) fun n => ⟨n, rfl⟩
  | skip hp | offer hp =>
      exact isCareful_proceed _ fun k hk => hw.of_isReading (by simp [IsReading, hp]) hk
  | close hp => exact isCareful_close hw hp (.inl rfl)
  | failClose hp => exact isCareful_close hw hp (.inr rfl)
  | announce hp | vanish hp =>
      intro k hk
      have hfit := hw k hk
      rw [CallsFit, hp] at hfit
      exact hfit

/-! ## What is promised -/

/-- What is called apart from the closing was called before it. -/
theorem mem_of_ne_close {tail : List ConsumerCall} {call : ConsumerCall}
    (htail : tail = [.close] ∨ tail = []) (hne : call ≠ .close) (h : call ∈ made ++ tail) :
    call ∈ made := by
  rcases htail with rfl | rfl <;> simpa [hne] using h

/-- The first calls of a row, with the closing call behind them or without it, are as promised. -/
theorem usesWell_of_prefix {tail : List ConsumerCall} (h : made <+: w.cursor.script n)
    (htail : tail = [.close] ∨ tail = [] ∧ w.phase ≠ .ended) : w.UsesWell (made ++ tail) where
  assigned id hmem := by
    have hmade := mem_of_ne_close (htail.imp_right And.left) (by simp) hmem
    simpa [Cursor.script, List.mem_replicate] using h.subset hmade
  once := by
    have hcount : tail.count (.assign w.cursor.partition) = 0 := by
      rcases htail with rfl | ⟨rfl, -⟩ <;> rfl
    have hscript : (w.cursor.script n).count (.assign w.cursor.partition) = 1 := by
      simp [Cursor.script, List.count_replicate]
    have hle := h.sublist.count_le (.assign w.cursor.partition)
    rw [List.count_append]
    omega
  sought id offset hmem := by
    have hmade := mem_of_ne_close (htail.imp_right And.left) (by simp) hmem
    simpa [Cursor.script, List.mem_replicate] using h.subset hmade
  ready hmem := by
    have hmade := mem_of_ne_close (htail.imp_right And.left) (by simp) hmem
    rcases Cursor.prefix_script h with rfl | rfl | ⟨m, rfl⟩
    · simp at hmade
    · simp at hmade
    · exact ⟨List.replicate m .poll ++ tail, by simp [Cursor.script]⟩
  last before after heq := by
    have hmade := Cursor.close_notMem_of_prefix h
    rcases htail with rfl | ⟨rfl, -⟩
    · by_contra hne
      -- the last call is the closing call, so one more stands in front of it
      have hdrop := congrArg List.dropLast heq
      rw [List.dropLast_concat, List.dropLast_append_of_ne_nil (List.cons_ne_nil _ _),
        List.dropLast_cons_of_ne_nil hne] at hdrop
      exact hmade (hdrop ▸ by simp)
    · rw [List.append_nil] at heq
      exact absurd (heq ▸ by simp) hmade
  closed hended := by
    rcases htail with rfl | ⟨-, hp⟩
    · rw [List.count_append, List.count_eq_zero_of_not_mem (Cursor.close_notMem_of_prefix h)]
      rfl
    · exact absurd hended hp

/-- Calls that fit are as promised. -/
theorem usesWell_of_callsFit (h : w.CallsFit calls) : w.UsesWell calls := by
  by_cases hl : w.IsLeaving
  · cases hp : w.phase <;> simp only [CallsFit, IsLeaving, hp] at h hl
    case closing =>
      obtain ⟨n, hpre⟩ := h
      rw [← List.append_nil calls]
      exact usesWell_of_prefix hpre (.inr ⟨rfl, by simp [hp]⟩)
    all_goals
      obtain ⟨n, made, hpre, rfl⟩ := h
      exact usesWell_of_prefix hpre (.inl rfl)
  · obtain ⟨n, hpre⟩ := h.leave hl
    rw [← List.append_nil calls]
    refine usesWell_of_prefix hpre (.inr ⟨rfl, fun hp => hl ?_⟩)
    rw [IsLeaving, hp]
    trivial

end Worker

/-! ## Every run -/

namespace Shutdown

variable {s s' : Shutdown} {m : Move}

theorem isCareful_of_goes (h : s.Goes m s') (hs : ∀ w ∈ s.reader.workers, w.IsCareful) :
    ∀ w ∈ s'.reader.workers, w.IsCareful := by
  intro v hv
  rcases workers_of_goes h with heq | ⟨i, w, w', o, e, hi, ht, heq⟩
  · exact hs v (heq ▸ hv)
  · rw [heq] at hv
    rcases List.mem_or_eq_of_mem_set hv with hv | rfl
    · exact hs v hv
    · exact Worker.isCareful_of_transition ht (hs w (List.mem_of_getElem? hi))

/-- Whatever happens after a reader was opened with some cursors, it reads those, and its workers use
their consumers well. -/
theorem usesWell_run {c : Cluster} {topic : Json} {job : Job} {capacity : Int}
    {cursors : List Cursor} {before : Metrics} {moves : List Move}
    (hrun : (opened c (Reader.ofCursors topic job capacity cursors) before).run moves = some s) :
    s.reader.workers.map (·.cursor) = cursors ∧
      ∀ w ∈ s.reader.workers, ∀ k, w.consumer = some k → w.UsesWell k.calls := by
  let P (s : Shutdown) : Prop :=
    s.reader.workers.map (·.cursor) = cursors ∧ ∀ w ∈ s.reader.workers, w.IsCareful
  have hstart : P (opened c (Reader.ofCursors topic job capacity cursors) before) := by
    refine ⟨by simp [opened, Scene.opened, Reader.ofCursors, Function.comp_def, Worker.ofCursor], ?_⟩
    intro w hw k hk
    obtain ⟨cursor, -, rfl⟩ := List.mem_map.1 hw
    cases hk
  have hstep (s m s') (hs : P s) (h : s.step m = some s') : P s' :=
    ⟨(cursors_of_goes (goes_of_step h)).trans hs.1, isCareful_of_goes (goes_of_step h) hs.2⟩
  obtain ⟨hcursors, hcareful⟩ := run_induction hstep hstart hrun
  exact ⟨hcursors, fun w hw k hk => Worker.usesWell_of_callsFit (hcareful w hw k hk)⟩

end Shutdown

end LogRelay
