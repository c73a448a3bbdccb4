import LogRelay.Proofs.Reading.Verdict
/-!
# The steps of a worker, one by one

All that a step of a worker can do, as rules that name what must hold for it and what it leads to.
What is proved of workers goes by these rules and does not look into `Worker.step`.

## Main definitions

* `Worker.Transition`: the rules.
* `Worker.inHand`, `Worker.offered`: the messages that are still to be looked at, and the frame that
  waits for room.
* `Worker.IsReading`, `Worker.IsLeaving`: between the setting of the consumer and the last message;
  after that.

## Main statements

* `transition_of_step`: a step of a worker follows one of the rules.
-/
namespace LogRelay.Worker

/-- The messages of the batch at hand that are still to be looked at. -/
def inHand (w : Worker) : List Message :=
  match w.phase with
  | .handling batch => batch
  | .offering _ batch => batch
  | _ => []

/-- The frame that waits for room on the queue, if there is one. -/
def offered (w : Worker) : List Bytes :=
  match w.phase with
  | .offering frame _ => [frame]
  | _ => []

/-- The worker has set its consumer and may look at further messages. -/
def IsReading (w : Worker) : Prop :=
  match w.phase with
  | .checking | .polling | .handling _ | .offering .. => True
  | _ => False

/-- The worker looks at no further message. -/
def IsLeaving (w : Worker) : Prop :=
  match w.phase with
  | .closing | .announcing | .ended => True
  | _ => False

/-- What a step of a worker leads to, and what it brings about. -/
inductive Transition (j : Job) (s : Surroundings) (w : Worker) : Worker → Effect → Prop where
  | create (hp : w.phase = .creating) (ho : s.outage = none) :
      Transition j s w { w with phase := .assigning, consumer := some {} } {}
  | assign (hp : w.phase = .assigning) (ho : s.outage = none) :
      Transition j s w (w.called (·.note (.assign w.cursor.partition)) .seeking) {}
  | seek (hp : w.phase = .seeking) (ho : s.outage = none) :
      Transition j s w (w.called (·.seek w.cursor.partition w.cursor.start) .checking) {}
  /-- the consumer cannot be made ready -/
  | fail {o : Outage} (hp : w.phase = .creating ∨ w.phase = .assigning ∨ w.phase = .seeking)
      (ho : s.outage = some o) :
      Transition j s w { w with phase := .closing } {}
  | goOn (hp : w.phase = .checking) (hs : s.stopping = false) (hc : w.isCaughtUp j = false) :
      Transition j s w { w with phase := .polling } {}
  | leave (hp : w.phase = .checking) (hc : s.stopping = true ∨ w.isCaughtUp j = true) :
      Transition j s w { w with phase := .closing } {}
  | failPoll {o : Outage} (hp : w.phase = .polling) (ho : s.outage = some o) :
      Transition j s w (w.called (·.note .poll) .closing) {}
  /-- a poll that hands out nothing -/
  | pollNone (hp : w.phase = .polling) (ho : s.outage = none) (hb : s.batch = []) :
      Transition j s w (w.called (·.deliver []) .checking) {}
  | poll (hp : w.phase = .polling) (ho : s.outage = none) (hb : s.batch ≠ []) :
      Transition j s w (w.called (·.deliver s.batch) (.handling s.batch)) {}
  | exhaust (hp : w.phase = .handling []) :
      Transition j s w { w with phase := .checking } {}
  /-- a message that is passed over -/
  | skip {m : Message} {batch : List Message} (hp : w.phase = .handling (m :: batch))
      (hf : (j.judge m.value).frame? = none) (hv : j.isFatal m = false) :
      Transition j s w (({ w with position := m.offset + 1 } : Worker).proceed j batch)
        { count := (j.judge m.value).counter }
  /-- a message that survives -/
  | keep {m : Message} {batch : List Message} {frame : Bytes}
      (hp : w.phase = .handling (m :: batch)) (hv : j.judge m.value = .wanted frame) :
      Transition j s w { w with position := m.offset + 1, phase := .offering frame batch } {}
  /-- a message that cannot be dealt with -/
  | giveUp {m : Message} {batch : List Message} (hp : w.phase = .handling (m :: batch))
      (hv : j.isFatal m = true) :
      Transition j s w { w with position := m.offset + 1, phase := .closing } {}
  | offer {frame : Bytes} {batch : List Message} (hp : w.phase = .offering frame batch)
      (hs : s.stopping = false) (hr : s.hasRoom = true) :
      Transition j s w (w.proceed j batch) { put := some (.frame w.cursor.partition frame) }
  /-- a frame that is dropped because the worker is told to stop -/
  | abandon {frame : Bytes} {batch : List Message} (hp : w.phase = .offering frame batch)
      (hs : s.stopping = true) :
      Transition j s w { w with phase := .closing } {}
  | close (hp : w.phase = .closing) (ho : w.consumer = none ∨ s.outage = none) :
      Transition j s w (w.called (·.note .close) .announcing) {}
  | failClose {o : Outage} (hp : w.phase = .closing) (ho : s.outage = some o)
      (hc : w.consumer.isSome = true) :
      Transition j s w (w.called (·.note .close) .ended) {}
  | announce (hp : w.phase = .announcing) (hs : s.stopping = false) (hr : s.hasRoom = true) :
      Transition j s w { w with phase := .ended } { put := some (.done w.cursor.partition) }
  /-- an end that is not announced because the worker is told to stop -/
  | vanish (hp : w.phase = .announcing) (hs : s.stopping = true) :
      Transition j s w { w with phase := .ended } {}

variable {j : Job} {s : Surroundings} {w w' : Worker} {e : Effect}

/-- Looking at a message follows one of three rules. -/
theorem transition_handle {m : Message} {batch : List Message}
    (hp : w.phase = .handling (m :: batch)) :
    Transition j s w (w.handle j m batch).1 (w.handle j m batch).2 := by
  cases hv : j.judge m.value with
  | wanted frame =>
      have heq : w.handle j m batch =
          ({ w with position := m.offset + 1, phase := .offering frame batch }, {}) := by
        simp [handle, hv, Verdict.counter]
      rw [heq]
      exact .keep hp hv
  | fatal f =>
      have heq : w.handle j m batch =
          ({ w with position := m.offset + 1, phase := .closing }, {}) := by
        simp [handle, hv, Verdict.counter]
      rw [heq]
      exact .giveUp hp (by simp [Job.isFatal, hv, Verdict.isFatal])
  | undecodable | foreign | outside =>
      have heq : w.handle j m batch =
          (({ w with position := m.offset + 1 } : Worker).proceed j batch,
            { count := (j.judge m.value).counter }) := by
        simp [handle, hv]
      rw [heq]
      exact .skip hp (by simp [hv, Verdict.frame?]) (by simp [Job.isFatal, hv, Verdict.isFatal])

/-- A step follows one of the rules. -/
theorem transition_of_step (h : w.step j s = some (w', e)) : Transition j s w w' e := by
  rw [step] at h
  split at h <;> rename_i hp
  · cases ho : s.outage with
    | none => rw [ho] at h; cases h; exact .create hp ho
    | some o => rw [ho] at h; cases h; exact .fail (.inl hp) ho
  · cases ho : s.outage with
    | none => rw [ho] at h; cases h; exact .assign hp ho
    | some o => rw [ho] at h; cases h; exact .fail (.inr (.inl hp)) ho
  · cases ho : s.outage with
    | none => rw [ho] at h; cases h; exact .seek hp ho
    | some o => rw [ho] at h; cases h; exact .fail (.inr (.inr hp)) ho
  · by_cases hc : s.stopping = true ∨ w.isCaughtUp j = true
    · rw [if_pos (by simpa using hc)] at h
      cases h
      exact .leave hp hc
    · rw [if_neg (by simpa using hc)] at h
      simp only [not_or, Bool.not_eq_true] at hc
      cases h
      exact .goOn hp hc.1 hc.2
  · cases ho : s.outage with
    | none =>
        rw [ho] at h
        by_cases hb : s.batch = []
        · simp only [hb, if_true] at h
          cases h
          exact .pollNone hp ho hb
        · simp only [hb, if_false] at h
          cases h
          exact .poll hp ho hb
    | some o => rw [ho] at h; cases h; exact .failPoll hp ho
  · cases h; exact .exhaust hp
  · rename_i m batch
    have hh := Option.some.inj h
    have := transition_handle (j := j) (s := s) hp
    rwa [hh] at this
  · split_ifs at h with hs hr
    · cases h; exact .abandon hp hs
    · cases h; exact .offer hp (by simpa using hs) hr
  · cases ho : s.outage with
    | none =>
        simp only [ho, Option.isSome_none, Bool.and_false, Bool.false_eq_true, if_false] at h
        cases h
        exact .close hp (.inr ho)
    | some o =>
        cases hcon : w.consumer with
        | none =>
            simp only [hcon, Option.isSome_none, Bool.false_and, Bool.false_eq_true, if_false] at h
            cases h
            exact .close hp (.inl hcon)
        | some c =>
            simp only [hcon, ho, Option.isSome_some, Bool.and_self, if_true] at h
            cases h
            exact .failClose hp ho (by rw [hcon]; rfl)
  · split_ifs at h with hs hr
    · cases h; exact .vanish hp hs
    · cases h; exact .announce hp (by simpa using hs) hr
  · cases h

end LogRelay.Worker
