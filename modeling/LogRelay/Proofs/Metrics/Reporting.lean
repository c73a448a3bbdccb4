import LogRelay.Metrics.Reporter
import LogRelay.Proofs.Runs
import Mathlib.Algebra.Ring.Nat
import Mathlib.Data.List.Count
/-!
# Reports of counters

Threads count, read the counters, read them and set them to zero, and report what they have counted, in
any order, while reporters may be told to end at any time.  No count is lost on the way, and none is
invented: what the counters show and what has been taken from them add up to what has been counted.  A
reporter that has seen that it is to end does nothing any more.

## Main definitions

* `Reporter.taken`: the readings with which a reporter has set the counters to zero.
* `Reporter.owed`: the lines that a reporter still writes when it is to end.
* `Board`, `Board.Move`, `Board.run`: the counters, those who use them, and what may happen.
* `Board.sum`: what a counter has shown, all readings taken together.

## Main statements

* `Reporter.total_step`: a step of a reporter keeps the sum of what is taken and what is left.
* `Reporter.run_of_testing`: a reporter over intervals, a line for each of them.
* `Board.sum_run`: a run adds to the sum what is counted in it.
* `Board.run_filter_look`: readings that leave the counters alone change nothing.
* `Board.run_filter_report`: nor does a reporter that has ended.
* `Board.ended_of_run`: a reporter that is to end does so with its third step.
* `Board.counts_are_kept`: counters and reports.
-/
namespace LogRelay

/-! ## Reporters -/

/-- What a counter shows in several readings, taken together. -/
def Metrics.total (readings : List Metrics) (c : Counter) : Nat :=
  (readings.map (·.count c)).sum

theorem Metrics.total_append (readings more : List Metrics) (c : Counter) :
    total (readings ++ more) c = total readings c + total more c := by
  simp [total]

theorem Metrics.total_singleton (m : Metrics) (c : Counter) : total [m] c = m.count c := by
  simp [total]

theorem Metrics.count_zero (c : Counter) : zero.count c = 0 := by
  cases c <;> rfl

namespace Reporter

open Metrics (total total_append total_singleton count_zero)

/-- What a reporter has taken and not yet written down. -/
def pending (r : Reporter) : List Metrics :=
  match r.place with
  | .writing taken => [taken]
  | _ => []

/-- The readings with which a reporter has set the counters to zero: those that it has written down, one
to a line, and the one that it is about to write down. -/
def taken (r : Reporter) : List Metrics :=
  r.written ++ r.pending

/-- The number of lines that a reporter still writes when it is to end. -/
def owed (r : Reporter) : Nat :=
  match r.place with
  | .taking | .writing _ => 1
  | .testing | .waiting | .ended => 0

/-- The number of steps that bring a reporter to its end when it is to end. -/
def remaining (r : Reporter) : Nat :=
  match r.place with
  | .taking => 3
  | .writing _ => 2
  | .testing | .waiting => 1
  | .ended => 0

variable {r : Reporter}

/-- What a reporter takes is missing from the counters, and nothing else is. -/
theorem total_step (ending : Bool) (r : Reporter) (m : Metrics) (c : Counter) :
    total (r.step ending m).1.taken c + (r.step ending m).2.count c =
      total r.taken c + m.count c := by
  obtain ⟨place, written⟩ := r
  cases place with
  | testing | waiting => cases ending <;> rfl
  | taking => simp [step, Metrics.takeAll, taken, pending, total_append, total_singleton, count_zero]
  | writing m' => simp [step, taken, pending]
  | ended => rfl

/-- A reporter that tests whether it is to end, before or after a wait, sees it. -/
theorem step_of_tests (hr : r.place = .testing ∨ r.place = .waiting) (m : Metrics) :
    r.step true m = ({ r with place := .ended }, m) := by
  rcases hr with hr | hr <;> simp [step, hr]

/-- A reporter does nothing after its end. -/
theorem step_of_ended (hr : r.place = .ended) (ending : Bool) (m : Metrics) :
    r.step ending m = (r, m) := by
  simp [step, hr]

/-- A reporter does not end without being told to. -/
theorem ending_of_step {ending : Bool} {m : Metrics} (h : (r.step ending m).1.place = .ended) :
    r.place = .ended ∨ ending = true := by
  cases ending with
  | true => exact .inr rfl
  | false => cases hr : r.place <;> simp [step, hr] at h ⊢

/-- What is written stays. -/
theorem written_step (ending : Bool) (r : Reporter) (m : Metrics) :
    r.written <+: (r.step ending m).1.written := by
  cases hr : r.place <;> simp [step, hr]

/-- A reporter that is to end writes what it owes. -/
theorem owed_step (r : Reporter) (m : Metrics) :
    (r.step true m).1.written.length + (r.step true m).1.owed = r.written.length + r.owed := by
  cases hr : r.place <;> simp [step, hr, owed]

theorem remaining_step (r : Reporter) (m : Metrics) :
    (r.step true m).1.remaining = r.remaining - 1 := by
  cases hr : r.place <;> simp [step, hr, remaining]

theorem remaining_le (r : Reporter) : r.remaining ≤ 3 := by
  rw [remaining]
  split <;> omega

theorem ended_of_remaining (h : r.remaining = 0) : r.place = .ended := by
  cases hr : r.place <;> simp [remaining, hr] at h ⊢

/-- In an interval at whose end it is not to end, a reporter writes down what the counters have come
to. -/
theorem run_cons (counted : List Counter) (intervals : List (List Counter)) (written : List Metrics)
    (m : Metrics) : run (counted :: intervals) ⟨.testing, written⟩ m =
      run intervals ⟨.testing, written ++ [m.incrementAll counted]⟩ .zero := rfl

/-- A reporter over intervals writes a line at the end of each of them, about what has been counted in
it, and in the first one about what there was before, too. -/
theorem run_of_testing (counted : List Counter) (intervals : List (List Counter))
    (written : List Metrics) (m : Metrics) : run (counted :: intervals) ⟨.testing, written⟩ m =
      (⟨.ended, written ++ m.incrementAll counted :: intervals.map Metrics.zero.incrementAll⟩,
        .zero) := by
  induction intervals generalizing counted written m with
  | nil => rfl
  | cons next intervals ih =>
      rw [run_cons, ih]
      simp

end Reporter

/-! ## Those who use the counters -/

/-- The counters, those who report them, and what readings of others have shown: those that set the
counters to zero, and those that leave them alone. -/
structure Board where
  metrics : Metrics := .zero
  ending : Bool := false
  reporters : List Reporter := []
  resets : List Metrics := []
  looks : List Metrics := []
  deriving DecidableEq

namespace Board

/-- What may happen next. -/
inductive Move where
  /-- one more is counted -/
  | count (c : Counter)
  /-- the counters are read -/
  | look
  /-- the counters are read and set to zero -/
  | reset
  /-- all reporters are told to end -/
  | signal
  /-- a further reporter begins its work -/
  | start
  /-- the reporter of the given number makes its next step -/
  | report (i : Nat)
  deriving DecidableEq

/-- The board after a move, if that is possible. -/
def step (b : Board) : Move → Option Board
  | .count c => some { b with metrics := b.metrics.increment c }
  | .look => some { b with looks := b.looks ++ [b.metrics] }
  | .reset =>
    let (reading, metrics) := b.metrics.takeAll
    some { b with metrics, resets := b.resets ++ [reading] }
  | .signal => some { b with ending := true }
  | .start => some { b with reporters := b.reporters ++ [{}] }
  | .report i => (b.reporters[i]?).map fun r =>
    let (r, metrics) := r.step b.ending b.metrics
    { b with metrics, reporters := b.reporters.set i r }

/-- The board after several moves, if they are possible. -/
def run (b : Board) (moves : List Move) : Option Board :=
  moves.foldlM step b

/-- What a counter has shown so far: in the readings that have set the counters to zero, those of the
reporters included, and now. -/
def sum (b : Board) (c : Counter) : Nat :=
  Metrics.total b.resets c + (b.reporters.map fun r => Metrics.total r.taken c).sum +
    b.metrics.count c

/-- The board without what has been shown by readings that leave the counters alone. -/
def forget (b : Board) : Board :=
  { b with looks := [] }

variable {b b' : Board} {m : Move} {moves : List Move} {i : Nat} {r : Reporter}

/-! ### What the counters show -/

/-- A move adds what is counted with it. -/
theorem sum_step (h : b.step m = some b') (c : Counter) :
    b'.sum c = b.sum c + if m = .count c then 1 else 0 := by
  cases m with
  | count d =>
      obtain rfl := Option.some.inj h
      simp only [sum, Metrics.count_increment, Move.count.injEq]
      omega
  | look | signal =>
      obtain rfl := Option.some.inj h
      rfl
  | reset =>
      obtain rfl := Option.some.inj h
      simp only [sum, Metrics.total_append, Metrics.total_singleton,
        Metrics.count_zero, reduceCtorEq, if_false]
      omega
  | start =>
      obtain rfl := Option.some.inj h
      simp [sum, Reporter.taken, Reporter.pending, Metrics.total]
  | report i =>
      obtain ⟨r, hr, rfl⟩ := Option.map_eq_some_iff.1 h
      have hset := sum_map_set hr (r.step b.ending b.metrics).1 fun r => Metrics.total r.taken c
      have hone := r.total_step b.ending b.metrics c
      simp only [sum, reduceCtorEq, if_false] at hset ⊢
      omega

/-- A run adds what is counted in it. -/
theorem sum_run (h : b.run moves = some b') (c : Counter) :
    b'.sum c = b.sum c + moves.count (.count c) := by
  induction moves generalizing b with
  | nil =>
      obtain rfl := Option.some.inj h
      rfl
  | cons m moves ih =>
      rw [run, List.foldlM_cons] at h
      obtain ⟨t, ht, hrun⟩ := Option.bind_eq_some_iff.1 h
      rw [ih hrun, sum_step ht, List.count_cons, beq_eq_decide]
      simp only [decide_eq_true_eq]
      omega

/-! ### What changes nothing -/

/-- What readings have shown that leave the counters alone does not matter. -/
theorem forget_step (hm : m ≠ .look) : b.forget.step m = (b.step m).map forget := by
  cases m with
  | look => exact absurd rfl hm
  | count | reset | signal | start => rfl
  | report i =>
      rw [step, step, Option.map_map]
      rfl

/-- Readings that leave the counters alone can be left out. -/
theorem run_filter_look (b : Board) (moves : List Move) :
    b.forget.run (moves.filter (· ≠ .look)) = (b.run moves).map forget := by
  refine foldlM_filter forget (fun _ _ _ _ _ => trivial) ?_ ?_ trivial moves
  · rintro s m - hm
    obtain rfl : m = .look := by simpa using hm
    rfl
  · rintro s m - hm
    exact forget_step (by simpa using hm)

/-- A move leaves a reporter alone, or is a step of it. -/
theorem reporter_step (h : b.step m = some b') (hr : b.reporters[i]? = some r) :
    b'.reporters[i]? =
      some (if m = .report i then (r.step b.ending b.metrics).1 else r) := by
  cases m with
  | count | look | reset | signal =>
      obtain rfl := Option.some.inj h
      exact hr
  | start =>
      obtain rfl := Option.some.inj h
      exact List.getElem?_append_left (List.getElem?_eq_some_iff.1 hr).1 ▸ hr
  | report k =>
      obtain ⟨r', hr', rfl⟩ := Option.map_eq_some_iff.1 h
      by_cases hk : k = i
      · subst hk
        obtain rfl := Option.some.inj (hr.symm.trans hr')
        simp [List.getElem?_set_self (List.getElem?_eq_some_iff.1 hr).1]
      · simp [List.getElem?_set_ne hk, hr, hk]

/-- Reporters that have been told to end are not told anything else. -/
theorem ending_step (h : b.step m = some b') (hb : b.ending = true) : b'.ending = true := by
  cases m with
  | signal =>
      obtain rfl := Option.some.inj h
      rfl
  | count | look | reset | start =>
      obtain rfl := Option.some.inj h
      exact hb
  | report i =>
      obtain ⟨r, -, rfl⟩ := Option.map_eq_some_iff.1 h
      exact hb

/-- The steps of a reporter after its end change nothing. -/
theorem step_report_of_ended (hr : b.reporters[i]? = some r) (hended : r.place = .ended) :
    b.step (.report i) = some b := by
  obtain ⟨hi, rfl⟩ := List.getElem?_eq_some_iff.1 hr
  rw [step, hr, Option.map_some, Reporter.step_of_ended hended]
  simp

/-- A reporter that has ended stays as it is. -/
theorem reporter_step_of_ended (h : b.step m = some b') (hr : b.reporters[i]? = some r)
    (hended : r.place = .ended) : b'.reporters[i]? = some r := by
  rw [reporter_step h hr, Reporter.step_of_ended hended, ite_self]

/-- The steps of a reporter after its end can be left out. -/
theorem run_filter_report (hr : b.reporters[i]? = some r) (hended : r.place = .ended)
    (moves : List Move) : b.run (moves.filter (· ≠ .report i)) = b.run moves := by
  have hfilter : b.run (moves.filter (· ≠ .report i)) = (b.run moves).map id := by
    refine foldlM_filter id (P := fun b => b.reporters[i]? = some r) ?_ ?_ ?_ hr moves
    · intro s m s' hs hstep
      exact reporter_step_of_ended hstep hs hended
    · intro s m hs hm
      obtain rfl : m = .report i := by simpa using hm
      rw [step_report_of_ended hs hended]
      rfl
    · intro s m _ _
      rw [Option.map_id]
      rfl
  rwa [Option.map_id] at hfilter

/-! ### Reporters that are to end -/

/-- Reporters that have ended have been told to. -/
def IsObeyed (b : Board) : Prop :=
  ∀ r ∈ b.reporters, r.place = .ended → b.ending = true

theorem IsObeyed.step (hb : b.IsObeyed) (h : b.step m = some b') : b'.IsObeyed := by
  cases m with
  | count | look | reset =>
      obtain rfl := Option.some.inj h
      exact hb
  | signal =>
      obtain rfl := Option.some.inj h
      exact fun _ _ _ => rfl
  | start =>
      obtain rfl := Option.some.inj h
      intro r hr hended
      rcases List.mem_append.1 hr with hr | hr
      · exact hb r hr hended
      · obtain rfl := List.mem_singleton.1 hr
        cases hended
  | report i =>
      obtain ⟨r, hr, rfl⟩ := Option.map_eq_some_iff.1 h
      intro r' hr' hended
      rcases List.mem_or_eq_of_mem_set hr' with hr' | rfl
      · exact hb r' hr' hended
      · exact (Reporter.ending_of_step hended).elim (hb r (List.mem_of_getElem? hr)) id

theorem isObeyed_run (h : ({} : Board).run moves = some b) : b.IsObeyed :=
  foldlM_induction (fun _ _ _ hb (_ : True) hstep => IsObeyed.step hb hstep)
    (by simp [IsObeyed]) (fun _ _ => trivial) h

/-- What a reporter that is to end keeps in its steps, it keeps in a run. -/
theorem reporter_run {P : Reporter → Prop} (hb : b.ending = true) (hr : b.reporters[i]? = some r)
    (hP : P r) (hstep : ∀ r m, P r → P (r.step true m).1) (h : b.run moves = some b') :
    ∃ r', b'.reporters[i]? = some r' ∧ P r' := by
  have hkeeps : ∀ s m s', (s.ending = true ∧ ∃ r, s.reporters[i]? = some r ∧ P r) → True →
      step s m = some s' → s'.ending = true ∧ ∃ r, s'.reporters[i]? = some r ∧ P r := by
    rintro s m s' ⟨hs, t, ht, hPt⟩ - h
    refine ⟨ending_step h hs, _, reporter_step h ht, ?_⟩
    rw [hs]
    split_ifs
    · exact hstep t _ hPt
    · exact hPt
  exact (foldlM_induction hkeeps ⟨hb, r, hr, hP⟩ (fun _ _ => trivial) h).2

/-- A reporter that is to end comes closer to its end with each of its steps. -/
theorem remaining_run (hb : b.ending = true) (hr : b.reporters[i]? = some r)
    (h : b.run moves = some b') : ∃ r', b'.reporters[i]? = some r' ∧
      r'.remaining ≤ r.remaining - moves.count (.report i) := by
  induction moves generalizing b r with
  | nil =>
      obtain rfl := Option.some.inj h
      exact ⟨r, hr, Nat.le_refl _⟩
  | cons m moves ih =>
      rw [run, List.foldlM_cons] at h
      obtain ⟨t, ht, hrun⟩ := Option.bind_eq_some_iff.1 h
      obtain ⟨r', hr', hle⟩ := ih (ending_step ht hb) (reporter_step ht hr) hrun
      refine ⟨r', hr', Nat.le_trans hle ?_⟩
      rw [hb, List.count_cons, beq_eq_decide]
      simp only [decide_eq_true_eq]
      split_ifs
      · rw [Reporter.remaining_step]
        omega
      · omega

/-- A reporter that is to end does so with its third step, if not before. -/
theorem ended_of_run (hb : b.ending = true) (hr : b.reporters[i]? = some r)
    (h : b.run moves = some b') (hmoves : 3 ≤ moves.count (.report i)) :
    ∃ r', b'.reporters[i]? = some r' ∧ r'.place = .ended := by
  obtain ⟨r', hr', hle⟩ := remaining_run hb hr h
  have hthree := r.remaining_le
  exact ⟨r', hr', Reporter.ended_of_remaining (by omega)⟩

/-- **Counters and reports.**  Whatever happens to counters that nothing has been counted with before,
in whatever order, what each of them has shown in all readings that set it to zero, those of the
reporters included, and what it shows now add up to how often it has been counted up.  Readings that
leave the counters alone can be left out.  A reporter that is to end ends with its next test, leaves the
counters as they are then, and has no other way to end; from there on it stays as it is, and its steps
can be left out.  As soon as it is to end it writes only the line that it has begun, if there is one. -/
theorem counts_are_kept (h : ({} : Board).run moves = some b) :
    (∀ c, b.sum c = moves.count (.count c)) ∧
    ({} : Board).run (moves.filter (· ≠ .look)) = some b.forget ∧
    ∀ i r, b.reporters[i]? = some r →
      (b.ending = true → r.place = .testing ∨ r.place = .waiting →
        b.step (.report i) =
          some { b with reporters := b.reporters.set i { r with place := .ended } }) ∧
      (r.place = .ended → b.ending = true ∧ ∀ further b', b.run further = some b' →
        b'.reporters[i]? = some r ∧ b.run (further.filter (· ≠ .report i)) = some b') ∧
      (b.ending = true → ∀ further b', b.run further = some b' → ∃ r',
        b'.reporters[i]? = some r' ∧ r.written <+: r'.written ∧
          r'.written.length + r'.owed = r.written.length + r.owed) := by
  refine ⟨?_, ?_, ?_⟩
  · intro c
    have hzero : ({} : Board).sum c = 0 := by simp [sum, Metrics.total, Metrics.count_zero]
    rw [sum_run h, hzero, Nat.zero_add]
  · have hlooks := run_filter_look {} moves
    rwa [h] at hlooks
  · intro i r hr
    refine ⟨?_, ?_, ?_⟩
    · intro hb hplace
      rw [step, hr, hb, Option.map_some, Reporter.step_of_tests hplace]
    · intro hended
      refine ⟨isObeyed_run h r (List.mem_of_getElem? hr) hended, ?_⟩
      intro further b' hrun
      refine ⟨?_, (run_filter_report hr hended further).trans hrun⟩
      exact foldlM_induction (P := fun b => b.reporters[i]? = some r)
        (fun _ _ _ hs (_ : True) hstep => reporter_step_of_ended hstep hs hended) hr
        (fun _ _ => trivial) hrun
    · intro hb further b' hrun
      refine reporter_run hb hr ⟨List.prefix_rfl, rfl⟩ ?_ hrun
      rintro t m ⟨hpre, hlength⟩
      exact ⟨hpre.trans (t.written_step true m), (t.owed_step m).trans hlength⟩

/-- Something is counted while a reporter waits, before it takes the counters and before it writes them
down, somebody else sets them to zero, and the reporter is told to end in its second wait. -/
theorem counts_are_kept_interleaved :
    ∃ (moves : List Move) (b : Board), ({} : Board).run moves = some b ∧
      b.reporters = [⟨.ended, [⟨1, 1, 0, 0⟩]⟩] ∧ b.metrics = ⟨0, 0, 1, 1⟩ ∧
      b.sum .published = 2 ∧
      ∀ further b', b.run further = some b' → b'.reporters[0]? = some ⟨.ended, [⟨1, 1, 0, 0⟩]⟩ := by
  let moves : List Move := [.start, .report 0, .count .published, .report 0, .count .failed,
    .report 0, .count .published, .reset, .count .dropped, .report 0, .look, .report 0, .signal,
    .report 0, .count .decodeErrors, .report 0]
  let b : Board := {
    metrics := ⟨0, 0, 1, 1⟩
    ending := true
    reporters := [⟨.ended, [⟨1, 1, 0, 0⟩]⟩]
    resets := [⟨1, 0, 0, 0⟩]
    looks := [⟨0, 0, 1, 0⟩] }
  have hrun : ({} : Board).run moves = some b := by decide
  obtain ⟨hsum, -, hreporters⟩ := counts_are_kept hrun
  obtain ⟨-, hended, -⟩ := hreporters 0 _ rfl
  refine ⟨moves, b, hrun, rfl, rfl, (hsum .published).trans (by decide), ?_⟩
  intro further b' hfurther
  exact ((hended rfl).2 further b' hfurther).1

end Board

end LogRelay
