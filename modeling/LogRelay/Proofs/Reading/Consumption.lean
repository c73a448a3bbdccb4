import LogRelay.Proofs.Reading.Tracking
/-!
# One message in front of a worker

A worker that has a message in front of it passes over it or puts one frame on the queue, and then
goes on with the next message, unless the message is one that cannot be dealt with.  Then the worker
leaves, and puts no frame on the queue any more.

## Main definitions

* `Worker.run`: several steps of a worker.
* `Worker.GoesOn`: the worker deals with a message and goes on.

## Main statements

* `run_isLeaving`: a worker that leaves puts no frame on the queue.
* `goesOn_iff`: the messages that a worker deals with.
-/
namespace LogRelay.Worker

/-- Several steps of a worker, each in surroundings of its own, and what they bring about. -/
def run (j : Job) : List Surroundings → Worker → Option (Worker × List Effect)
  | [], w => some (w, [])
  | s :: rest, w =>
    (w.step j s).bind fun (w', e) => (run j rest w').map fun (w'', es) => (w'', e :: es)

/-- The worker passes over the message in front of it, or puts one frame on the queue, and then it has
the rest of the batch in front of it or has come to where reading stops. -/
def GoesOn (w : Worker) (j : Job) (m : Message) (batch : List Message) : Prop :=
  let next := ({ w with position := m.offset + 1 } : Worker).proceed j batch
  (∀ s, ∃ e, w.step j s = some (next, e) ∧ e.put = none) ∨
    ∃ frame, ∀ s, ∃ w' e, w.step j s = some (w', e) ∧ e.put = none ∧
      ∀ s', s'.stopping = false → s'.hasRoom = true →
        w'.step j s' = some (next, { put := some (.frame w.cursor.partition frame) })

variable {j : Job} {s : Surroundings} {w w' : Worker} {e : Effect}

/-- A worker that leaves goes on leaving, and puts no frame on the queue. -/
theorem isLeaving_of_transition (h : Transition j s w w' e) (hl : w.IsLeaving) :
    w'.IsLeaving ∧ w'.position = w.position ∧ ∀ id bs, e.put ≠ some (.frame id bs) := by
  cases h with
  | close hp | failClose hp | announce hp | vanish hp => simp [IsLeaving, called]
  | fail hp => rcases hp with hp | hp | hp <;> simp [IsLeaving, hp] at hl
  | create hp | assign hp | seek hp | goOn hp | leave hp | failPoll hp | pollNone hp | poll hp
  | exhaust hp | skip hp | keep hp | giveUp hp | offer hp | abandon hp =>
      simp [IsLeaving, hp] at hl

/-- However often a worker that leaves goes on, it looks at no further message and puts no frame on
the queue. -/
theorem run_isLeaving {ss : List Surroundings} {es : List Effect} (hl : w.IsLeaving)
    (h : run j ss w = some (w', es)) :
    w'.position = w.position ∧ ∀ e ∈ es, ∀ id bs, e.put ≠ some (.frame id bs) := by
  induction ss generalizing w es with
  | nil =>
      obtain ⟨rfl, rfl⟩ := Prod.mk.inj (Option.some.inj h)
      simp
  | cons s rest ih =>
      rw [run] at h
      obtain ⟨⟨w₁, e⟩, hstep, hrest⟩ := Option.bind_eq_some_iff.1 h
      obtain ⟨⟨w₂, es'⟩, hrun, heq⟩ := Option.map_eq_some_iff.1 hrest
      obtain ⟨rfl, rfl⟩ := Prod.mk.inj heq
      obtain ⟨hl', hpos, hput⟩ := isLeaving_of_transition (transition_of_step hstep) hl
      obtain ⟨hpos', hputs⟩ := ih hl' hrun
      refine ⟨hpos'.trans hpos, ?_⟩
      intro d hd
      rcases List.mem_cons.1 hd with rfl | hd
      · exact hput
      · exact hputs d hd

/-- A worker with a message in front of it looks at that message. -/
theorem step_of_handling {m : Message} {batch : List Message}
    (hp : w.phase = .handling (m :: batch)) : w.step j s = some (w.handle j m batch) := by
  rw [step, hp]

/-- A worker that has offered a frame goes on when there is room. -/
theorem step_of_offering {frame : Bytes} {batch : List Message}
    (hp : w.phase = .offering frame batch) (hs : s.stopping = false) (hr : s.hasRoom = true) :
    w.step j s =
      some (w.proceed j batch, { put := some (.frame w.cursor.partition frame) }) := by
  rw [step, hp]
  simp [hs, hr]

/-- A message that cannot be dealt with makes the worker leave. -/
theorem handle_of_isFatal {m : Message} (batch : List Message)
    (hv : (j.judge m.value).isFatal = true) :
    w.handle j m batch = ({ w with position := m.offset + 1, phase := .closing }, {}) := by
  cases hj : j.judge m.value <;> simp [hj, Verdict.isFatal] at hv
  simp [handle, hj, Verdict.counter]

/-- Where reading stops there is nothing left to go on with. -/
theorem proceed_of_isCaughtUp (batch : List Message) (hc : w.isCaughtUp j = true) :
    w.proceed j batch = { w with phase := .closing } := by
  rw [proceed, if_pos hc]

/-- A message that can be dealt with is passed over, or its frame is put on the queue. -/
theorem goesOn_of_not_isFatal {m : Message} {batch : List Message}
    (hp : w.phase = .handling (m :: batch)) (hv : (j.judge m.value).isFatal = false) :
    w.GoesOn j m batch := by
  cases hj : j.judge m.value with
  | fatal f => simp [hj, Verdict.isFatal] at hv
  | wanted frame =>
      have hh : w.handle j m batch =
          ({ w with position := m.offset + 1, phase := .offering frame batch }, {}) := by
        simp [handle, hj, Verdict.counter]
      right
      refine ⟨frame, fun s => ⟨_, _, by rw [step_of_handling hp, hh], rfl, ?_⟩⟩
      intro s' hs hr
      rw [step_of_offering rfl hs hr]
      rfl
  | undecodable | foreign | outside =>
      left
      intro s
      refine ⟨_, by rw [step_of_handling hp, handle, hj], rfl⟩

/-- **What a stored value does to a worker.**  The decision on a value fails just if it is one that
cannot be dealt with.  The worker passes over the message or puts one frame on the queue, and goes on,
unless the message is such a one and there is something left to go on with.  If the message is such a
one, the worker looks at no message behind it and puts no frame on the queue any more, whatever steps
follow. -/
theorem goesOn_iff {m : Message} {batch : List Message} (hp : w.phase = .handling (m :: batch)) :
    ((∃ f, j.judge m.value = .fatal f) ↔ j.Overwhelms m.value) ∧
      (w.GoesOn j m batch ↔ (j.Overwhelms m.value →
        ({ w with position := m.offset + 1 } : Worker).isCaughtUp j = true)) ∧
      (j.Overwhelms m.value → ∀ s ss w' es, run j (s :: ss) w = some (w', es) →
        w'.position = m.offset + 1 ∧ ∀ e ∈ es, ∀ id bs, e.put ≠ some (.frame id bs)) := by
  rw [← judge_isFatal_iff]
  refine ⟨?_, ⟨fun hgo hv => ?_, fun hcaught => ?_⟩, fun hv s ss w' es hrun => ?_⟩
  · cases j.judge m.value <;> simp [Verdict.isFatal]
  · rw [GoesOn] at hgo
    simp only [step_of_handling hp, handle_of_isFatal batch hv, Option.some.injEq, Prod.mk.injEq]
      at hgo
    rcases hgo with hskip | ⟨frame, hframe⟩
    · obtain ⟨e, ⟨hnext, -⟩, -⟩ := hskip { stopping := false, hasRoom := true }
      have hphase := congrArg phase hnext
      rcases phase_proceed ({ w with position := m.offset + 1 } : Worker) j batch with
        ⟨-, h⟩ | ⟨h, -⟩
      · rw [h] at hphase
        cases hphase
      · exact h
    · obtain ⟨w', e, ⟨rfl, -⟩, -, hput⟩ := hframe { stopping := false, hasRoom := true }
      have := hput { stopping := false, hasRoom := true } rfl rfl
      simp [step] at this
  · cases hv : (j.judge m.value).isFatal with
    | false => exact goesOn_of_not_isFatal hp hv
    | true =>
        left
        intro s
        rw [step_of_handling hp, handle_of_isFatal batch hv, proceed_of_isCaughtUp batch (hcaught hv)]
        exact ⟨_, rfl, rfl⟩
  · rw [run, step_of_handling hp, handle_of_isFatal batch hv] at hrun
    obtain ⟨⟨w₂, es'⟩, hrest, heq⟩ := Option.map_eq_some_iff.1 hrun
    obtain ⟨rfl, rfl⟩ := Prod.mk.inj heq
    obtain ⟨hpos, hputs⟩ := run_isLeaving (by simp [IsLeaving]) hrest
    refine ⟨hpos, ?_⟩
    simpa using hputs

/-- A record of the last second of the year 9999 stops the worker that is asked for it. -/
theorem goesOn_iff_year_9999 :
    ∃ (j : Job) (m : Message) (w : Worker), w.phase = .handling [m] ∧ j.Overwhelms m.value ∧
      ¬ w.GoesOn j m [] := by
  let value : Bytes := Message.letter "9999-12-31T23:59:59Z"
  let j : Job := { containerId := .str "c", request := {}, nesting := 100 }
  let m : Message := ⟨0, some value⟩
  let w : Worker := { cursor := ⟨0, 0, 1⟩, phase := .handling [m], position := 0 }
  obtain ⟨r, hr, hid, htime⟩ : ∃ r, Record.ofDocument j.nesting (some value) = .ok r ∧
      r.containerId = "c" ∧ Entry.fitsTime r.time = false := by
    have hread : (Record.ofDocument j.nesting (some value)).toOption.map (fun r =>
        (r.containerId, Entry.fitsTime r.time)) = some (("c" : Text), false) := by decide +kernel
    cases hr : Record.ofDocument j.nesting (some value) with
    | error e =>
        rw [hr] at hread
        cases hread
    | ok r =>
        rw [hr] at hread
        simp only [Except.toOption, Option.map_some, Option.some.injEq, Prod.mk.injEq] at hread
        exact ⟨r, rfl, hread⟩
  have hover : j.Overwhelms m.value :=
    .inr (.inr ⟨r, hr, ⟨by rw [hid]; rfl, rfl⟩, .inr (.inl htime)⟩)
  obtain ⟨-, hiff, -⟩ := goesOn_iff (w := w) (j := j) rfl
  exact ⟨j, m, w, rfl, hover, fun hgo => absurd (hiff.1 hgo hover) (by decide)⟩

end LogRelay.Worker
