import LogRelay.Proofs.Stream.Refusal
/-!
# Streams that are left behind

A relay that has ended has closed its stream, whether it ends because the stream does, because that
cannot be read on, or because a line could not be published.  There is one exception.  Before it closes
the stream the loop publishes what is left of a line, unless somebody else has done so.  If that fails
otherwise than that the broker refuses the record, the loop ends at once, and the stream stays open for
good.

## Main definitions

* `Relay.LosesLast`: what is left of a line cannot be published.
* `Relay.IsKeeping`: what holds of a relay and its stream.
* `Session.LosesEnd`: in a run, the loop fails to publish what is left.

## Main statements

* `finish_error_iff`: the end of a relay fails just if what is left cannot be published.
* `isKeeping_run`: how a relay and its stream are after every run.
* `disposed_iff`: a relay that has ended has closed its stream just if its loop has not failed at that.
-/
namespace LogRelay

/-! ## The end of a relay -/

namespace Relay

variable {r : Relay} {o : Outlet}

/-- Something is left of a line, and is not answered by the broker when it is published. -/
def LosesLast (r : Relay) (o : Outlet) : Prop :=
  r.finished = false ∧
    ∃ line ∈ r.aggregator.leftover r.lastEntry, ¬ r.Handles o o.deliveries.length line

/-- Whether a line is published without a failure. -/
theorem publish_error_iff (r : Relay) (o : Outlet) (line : Entry × Bytes) :
    (∃ f, (r.publish line.1 line.2 o).1 = .error f) ↔ ¬ r.Handles o o.deliveries.length line := by
  constructor
  · rintro ⟨f, hf⟩ hhandles
    obtain ⟨taken, d, heq, -⟩ := publish_of_handles hhandles
    rw [heq] at hf
    cases hf
  · intro h
    obtain ⟨f, lost, heq, -⟩ := publish_of_not_handles h
    exact ⟨f, by rw [heq]⟩

/-- However it goes, the relay is finished then, and no group is open if none was when it was finished
before. -/
theorem finish_eq (r : Relay) (o : Outlet) : ∃ answer aggregator o',
    r.finish o = (answer, { r with finished := true, aggregator }, o') ∧
      ((r.finished = true → r.aggregator = .inactive) → aggregator = .inactive) := by
  cases hf : r.finished with
  | true =>
      refine ⟨.ok (), r.aggregator, o, ?_, fun h => h rfl⟩
      rw [finish_of_finished hf, ← hf]
  | false =>
      have hflush : r.aggregator.flush.2 = .inactive := by cases r.aggregator <;> rfl
      rw [finish, if_neg (by simp [hf])]
      simp only [hflush]
      split <;> exact ⟨_, .inactive, _, rfl, fun _ => rfl⟩

/-- The end of a relay fails just if something is left that cannot be published. -/
theorem finish_error_iff : (∃ f, (r.finish o).1 = .error f) ↔ r.LosesLast o := by
  cases hf : r.finished with
  | true => simp [finish_of_finished hf, LosesLast, hf]
  | false =>
      rw [LosesLast, finish, if_neg (by simp [hf])]
      cases hg : r.aggregator with
      | inactive => simp [Aggregator.flush, Aggregator.leftover]
      | active bs =>
          cases hl : r.lastEntry with
          | none => simp [Aggregator.flush, Aggregator.leftover]
          | some e =>
              have hsame : ({ r with finished := true, aggregator := .inactive } : Relay).publish e bs
                  o = r.publish e bs o := rfl
              have hiff := r.publish_error_iff o (e, bs)
              simp only [hl] at hsame
              simp only [Aggregator.flush, Aggregator.leftover, hsame, hf]
              cases hpub : (r.publish e bs o).1 <;> simp_all [Except.map]

/-- A loop that loses what is left ends at once. -/
theorem leave_of_losesLast (h : r.LosesLast o) (failure : Option Failure) : ∃ f,
    (r.leave failure o).1 = { (r.finish o).2.1 with place := .ended (some f) } := by
  obtain ⟨f, hf⟩ := finish_error_iff.2 h
  refine ⟨f, ?_⟩
  rw [leave]
  split <;> simp_all

/-- A loop that does not lose it closes the stream next. -/
theorem leave_of_not_losesLast (h : ¬ r.LosesLast o) (failure : Option Failure) :
    (r.leave failure o).1 = { (r.finish o).2.1 with place := .closing failure } := by
  rw [leave]
  split
  · simp_all
  · rename_i f r' o' hf
    exact absurd (finish_error_iff.1 ⟨f, congrArg Prod.fst hf⟩) h

/-- What the loop does at its end is what anybody does who finishes the relay, apart from where the loop
stands then. -/
theorem exists_leave_eq (r : Relay) (failure : Option Failure) (o : Outlet) :
    ∃ place, r.leave failure o = ({ (r.finish o).2.1 with place }, (r.finish o).2.2) := by
  rw [leave]
  split
  · rename_i heq
    exact ⟨.closing failure, by rw [heq]⟩
  · rename_i f _ _ heq
    exact ⟨.ended (some f), by rw [heq]⟩

/-! ## A relay and its stream -/

/-- What holds of a relay and its stream. -/
structure IsKeeping (r : Relay) : Prop where
  /-- nothing is left of a line when the relay is finished -/
  finished : r.finished = true → r.aggregator = .inactive
  /-- the loop comes to its end when the relay is finished -/
  ending : r.place.isOver = true → r.finished = true
  /-- the stream is open as long as the loop has not ended -/
  unclosed : (∀ failure, r.place ≠ .ended failure) → ∀ st ∈ r.stream, st.closed = false
  /-- without a stream there is no entry, and nothing is left of a line -/
  streamless : r.stream = none → r.aggregator = .inactive ∧ ∀ e, r.place ≠ .holding e

variable {failure : Option Failure} {st : Stream}

/-- What is lost comes from a stream. -/
theorem IsKeeping.isSome_stream (h : r.IsKeeping) (hloses : r.LosesLast o) :
    r.stream.isSome = true := by
  obtain ⟨-, line, hline, -⟩ := hloses
  by_contra hnone
  obtain ⟨hinactive, -⟩ := h.streamless (by simpa using hnone)
  rw [hinactive] at hline
  cases hline

/-- The loop is somewhere else than at its end, with the same stream or a part of it. -/
theorem IsKeeping.move (h : r.IsKeeping) {rest : Stream} {place : Place} (hst : r.stream = some st)
    (hp : ∀ failure, r.place ≠ .ended failure) (hclosed : rest.closed = st.closed)
    (hover : place.isOver = false) : ({ r with stream := some rest, place } : Relay).IsKeeping where
  finished := h.finished
  ending hplace := by simp [hover] at hplace
  unclosed _ := by
    rintro _ ⟨⟩
    rw [hclosed]
    exact h.unclosed hp st hst
  streamless := by rintro ⟨⟩

theorem IsKeeping.opened (h : r.IsKeeping) (hp : r.place = .opening) {answer : Except Failure Stream}
    (hanew : ∀ st, answer = .ok st → st.closed = false) : (r.opened answer).IsKeeping := by
  cases answer with
  | ok st =>
      refine ⟨h.finished, nofun, fun _ => ?_, nofun⟩
      rintro _ ⟨⟩
      exact hanew st rfl
  | error f =>
      refine ⟨h.finished, nofun, fun _ => h.unclosed (by simp [hp]), fun hst => ?_⟩
      exact ⟨(h.streamless hst).1, nofun⟩

theorem IsKeeping.read (h : r.IsKeeping) {a : Frame.Assembly} {r' : Relay}
    (hp : r.place = .reading a) (hst : r.stream = some st) (hread : r.read st a = some r') :
    r'.IsKeeping := by
  have hopen : ∀ failure, r.place ≠ .ended failure := by simp [hp]
  rw [Relay.read] at hread
  split at hread
  · cases hread
  · rw [← Option.some.inj hread, hst]
    exact h.move hst hopen rfl rfl
  · rename_i bs rest _
    rw [← Option.some.inj hread]
    exact h.move hst hopen rfl (Place.isOver_after (a.feed r.limit bs))

theorem IsKeeping.take (h : r.IsKeeping) {e : Entry} (hp : r.place = .holding e) (o : Outlet) :
    (r.take e o).1.IsKeeping := by
  obtain ⟨aggregator, lastEntry, place, heq, hover, hsame⟩ := r.take_fst e o
  rw [heq]
  refine ⟨fun hf => (hsame hf).trans (h.finished hf), ?_, fun _ => h.unclosed (by simp [hp]), ?_⟩
  · intro hplace
    simp [hover] at hplace
  · intro hst
    exact absurd hp ((h.streamless hst).2 e)

/-- The relay is finished, by whomsoever. -/
theorem IsKeeping.finish (h : r.IsKeeping) (o : Outlet) : (r.finish o).2.1.IsKeeping := by
  obtain ⟨answer, aggregator, o', heq, hinactive⟩ := r.finish_eq o
  rw [heq]
  exact ⟨fun _ => hinactive h.finished, fun _ => rfl, h.unclosed,
    fun hst => ⟨hinactive h.finished, (h.streamless hst).2⟩⟩

/-- What is left is published by the loop. -/
theorem IsKeeping.leave (h : r.IsKeeping) (hp : r.place = .leaving failure) (o : Outlet) :
    (r.leave failure o).1.IsKeeping := by
  have hfinish := h.finish o
  have hopen : ∀ failure, r.place ≠ .ended failure := by simp [hp]
  obtain ⟨answer, aggregator, o', heq, -⟩ := r.finish_eq o
  by_cases hloses : r.LosesLast o
  · obtain ⟨f, hleave⟩ := leave_of_losesLast hloses failure
    rw [hleave]
    rw [heq] at hfinish ⊢
    exact ⟨hfinish.finished, fun _ => rfl, fun hno => absurd rfl (hno _),
      fun hst => ⟨(hfinish.streamless hst).1, nofun⟩⟩
  · rw [leave_of_not_losesLast hloses]
    rw [heq] at hfinish ⊢
    exact ⟨hfinish.finished, fun _ => rfl, fun _ => h.unclosed hopen,
      fun hst => ⟨(hfinish.streamless hst).1, nofun⟩⟩

theorem IsKeeping.close (h : r.IsKeeping) (hp : r.place = .closing failure) :
    (r.close failure).IsKeeping := by
  have hfinished : r.finished = true := h.ending (by rw [hp]; rfl)
  obtain ⟨failure', heq⟩ := r.close_eq failure
  rw [heq]
  exact ⟨h.finished, fun _ => hfinished, fun hno => absurd rfl (hno _),
    fun _ => ⟨h.finished hfinished, nofun⟩⟩

/-- Something happens to what comes through the stream. -/
theorem IsKeeping.map (h : r.IsKeeping) {change : Stream → Stream}
    (hchange : ∀ st, (change st).closed = st.closed) :
    ({ r with stream := r.stream.map change } : Relay).IsKeeping := by
  refine ⟨h.finished, h.ending, fun hp st hst => ?_, fun hst => h.streamless (by simpa using hst)⟩
  obtain ⟨st', hst', rfl⟩ := Option.map_eq_some_iff.1 hst
  rw [hchange]
  exact h.unclosed hp st' hst'

end Relay

/-! ## The end of a loop -/

namespace Session

/-- A stream that is opened is not closed yet. -/
def Move.OpensAnew : Move → Prop
  | .opened (.ok st) => st.closed = false
  | _ => True

variable {s s' : Session} {m : Move} {moves : List Move} {failure : Option Failure}

theorem isKeeping_step (h : s.relay.IsKeeping) (hm : m.OpensAnew) (hstep : s.step m = some s') :
    s'.relay.IsKeeping := by
  cases m with
  | opened answer =>
      simp only [step] at hstep
      split at hstep
      · rename_i hp
        rw [← Option.some.inj hstep]
        refine h.opened hp ?_
        rintro st rfl
        exact hm
      · cases hstep
  | work =>
      cases works_of_work hstep with
      | look => exact h
      | draw hp hst => exact h.move hst (by simp [hp]) rfl (Relay.Place.isOver_after _)
      | read hp hst _ hread => exact h.read hp hst hread
      | take hp => exact h.take hp _
      | leave hp => exact h.leave hp _
      | close hp => exact h.close hp
  | signal =>
      rw [← Option.some.inj hstep]
      exact ⟨h.finished, h.ending, h.unclosed, h.streamless⟩
  | finish =>
      rw [← Option.some.inj hstep]
      exact h.finish _
  | receive bs =>
      rw [← Option.some.inj hstep]
      exact h.map fun _ => rfl
  | hangUp =>
      rw [← Option.some.inj hstep]
      exact h.map fun _ => rfl
  | others o =>
      rw [← Option.some.inj hstep]
      exact h

/-- However a relay and its stream have come about, they are as they should be. -/
theorem isKeeping_run (h : s.relay.IsKeeping) (hm : ∀ m ∈ moves, m.OpensAnew)
    (hrun : s.run moves = some s') : s'.relay.IsKeeping :=
  run_induction (P := fun s => s.relay.IsKeeping) (fun _ _ _ => isKeeping_step) h hm hrun

/-- A loop that has ended stays where it is, and so does its stream. -/
theorem ended_run (hended : s.relay.place = .ended failure) (hrun : s.run moves = some s') :
    s'.relay.place = .ended failure ∧
      s'.relay.stream.map Stream.closed = s.relay.stream.map Stream.closed := by
  refine run_induction (P := fun t => t.relay.place = .ended failure ∧
    t.relay.stream.map Stream.closed = s.relay.stream.map Stream.closed) ?_ ⟨hended, rfl⟩
    (fun _ _ => trivial) hrun
  rintro t m t' ⟨hp, hclosed⟩ - hstep
  cases m with
  | opened | work => simp [step, work, hp] at hstep
  | signal | others =>
      rw [← Option.some.inj hstep]
      exact ⟨hp, hclosed⟩
  | finish =>
      obtain ⟨answer, aggregator, o', heq, -⟩ := t.relay.finish_eq t.outlet
      rw [← Option.some.inj hstep, heq]
      exact ⟨hp, hclosed⟩
  | receive | hangUp =>
      rw [← Option.some.inj hstep]
      refine ⟨hp, ?_⟩
      rw [← hclosed]
      exact Option.map_map ..

/-- In a run, the loop comes to publish what is left, and that cannot be published. -/
def LosesEnd (s : Session) (moves : List Move) : Prop :=
  ∃ front back t, moves = front ++ .work :: back ∧ s.run front = some t ∧
    (∃ failure, t.relay.place = .leaving failure) ∧ t.relay.LosesLast t.outlet

/-- The loop ends by a step that closes the stream, or by one that loses what is left. -/
theorem eq_work_of_ends (hp : ∀ failure, s.relay.place ≠ .ended failure) (hstep : s.step m = some s')
    (hended : s'.relay.place = .ended failure) : m = .work ∧
      ((∃ failure, s.relay.place = .leaving failure) ∧ s.relay.LosesLast s.outlet ∨
        ∀ st ∈ s'.relay.stream, st.closed = true) := by
  have hover : s'.relay.place.isOver = true := by
    rw [hended]
    rfl
  cases m with
  | work =>
      refine ⟨rfl, ?_⟩
      cases works_of_work hstep with
      | look => exact absurd hended (hp failure)
      | draw => simp [Relay.Place.isOver_after] at hover
      | read _ _ _ hread =>
          obtain ⟨stream, place, rfl, hno, -⟩ := Relay.read_eq_some hread
          simp [hno] at hover
      | @take e _ =>
          obtain ⟨aggregator, lastEntry, place, heq, hno, -⟩ := s.relay.take_fst e s.outlet
          simp [record, heq, hno] at hover
      | leave hleaving =>
          by_cases hloses : s.relay.LosesLast s.outlet
          · exact .inl ⟨⟨_, hleaving⟩, hloses⟩
          · simp [record, Relay.leave_of_not_losesLast hloses] at hended
      | @close failure' _ =>
          right
          obtain ⟨_, heq⟩ := s.relay.close_eq failure'
          intro st hst
          rw [heq] at hst
          obtain ⟨st', -, rfl⟩ := Option.map_eq_some_iff.1 hst
          rfl
  | opened answer =>
      simp only [step] at hstep
      split at hstep
      · rw [← Option.some.inj hstep] at hended
        cases answer <;> cases hended
      · cases hstep
  | signal | others | receive | hangUp =>
      rw [← Option.some.inj hstep] at hended
      exact absurd hended (hp failure)
  | finish =>
      obtain ⟨answer, aggregator, o', heq, -⟩ := s.relay.finish_eq s.outlet
      rw [← Option.some.inj hstep, heq] at hended
      exact absurd hended (hp failure)

/-- A loop that has lost what was left has ended with a failure, and its stream is open. -/
theorem unclosed_of_losesEnd (h : s.relay.IsKeeping) (hm : ∀ m ∈ moves, m.OpensAnew)
    (hrun : s.run moves = some s') (hloses : s.LosesEnd moves) :
    ∃ f st, s'.relay.place = .ended (some f) ∧ s'.relay.stream = some st ∧ st.closed = false := by
  obtain ⟨front, back, t, rfl, hfront, ⟨failure, hp⟩, hlost⟩ := hloses
  obtain ⟨t', hstep, hback⟩ := foldlM_middle hfront hrun
  have hkeeping : t.relay.IsKeeping := isKeeping_run h
    (fun m hmem => hm m (List.mem_append_left _ hmem)) hfront
  -- the step at which it is lost
  obtain ⟨f, hleave⟩ := Relay.leave_of_losesLast hlost failure
  obtain ⟨answer, aggregator, o', heq, -⟩ := t.relay.finish_eq t.outlet
  obtain ⟨st, hst⟩ := Option.isSome_iff_exists.1 (hkeeping.isSome_stream hlost)
  have hclosed : st.closed = false := hkeeping.unclosed (by simp [hp]) st hst
  have hafter : t'.relay.place = .ended (some f) ∧ t'.relay.stream = some st := by
    have hwork : t.step .work = some (t.record (t.relay.leave failure t.outlet) none) := by
      simp only [step, work, hp]
    rw [← Option.some.inj (hwork.symm.trans hstep)]
    simp [record, hleave, heq, hst]
  obtain ⟨hended, hstays⟩ := ended_run hafter.1 hback
  rw [hafter.2, Option.map_some, hclosed] at hstays
  obtain ⟨st', hst', hclosed'⟩ := Option.map_eq_some_iff.1 hstays
  exact ⟨f, st', hended, hst', hclosed'⟩

/-- A loop that has ended otherwise has closed its stream. -/
theorem closed_of_not_losesEnd (hp : ∀ failure, s.relay.place ≠ .ended failure)
    (hrun : s.run moves = some s') (hended : s'.relay.place = .ended failure)
    (hnot : ¬ s.LosesEnd moves) : ∀ st ∈ s'.relay.stream, st.closed = true := by
  obtain ⟨front, m, back, t, t', rfl, hfront, hopen, hstep, ⟨failure', hended'⟩, hback⟩ :=
    foldlM_exists_step (P := fun s : Session => ∃ failure, s.relay.place = .ended failure)
      (by simpa using hp) ⟨failure, hended⟩ hrun
  obtain ⟨rfl, ⟨hleaving, hlost⟩ | hclosed⟩ := eq_work_of_ends (by simpa using hopen) hstep hended'
  · exact absurd ⟨front, back, t, rfl, hfront, hleaving, hlost⟩ hnot
  · obtain ⟨-, hstays⟩ := ended_run hended' hback
    intro st hst
    rw [hst, Option.map_some, eq_comm] at hstays
    obtain ⟨st', hst', heq⟩ := Option.map_eq_some_iff.1 hstays
    rw [← heq]
    exact hclosed st' hst'

/-- **A relay that has ended has closed its stream just if its loop has not failed to publish what was
left.**  Whatever comes through the stream, whoever else finishes the relay, and whatever the broker
does, a relay whose loop has ended is finished, and nothing is left of a line.  If the loop has failed to
publish what was left, it has ended with a failure, and the stream stays open for good. -/
theorem disposed_iff {r : Relay} {o : Outlet} (hr : r.IsFresh) (hp : r.place = .opening)
    (hst : r.stream = none) (hm : ∀ m ∈ moves, m.OpensAnew) (hrun : (start r o).run moves = some s)
    (hended : s.relay.place = .ended failure) :
    s.relay.finished = true ∧ s.relay.aggregator = .inactive ∧
      ((∀ st ∈ s.relay.stream, st.closed = true) ↔ ¬ (start r o).LosesEnd moves) ∧
      ((start r o).LosesEnd moves → failure ≠ none ∧ ∀ more s', s.run more = some s' →
        ∃ st, s'.relay.stream = some st ∧ st.closed = false) := by
  have hstart : (start r o).relay.IsKeeping := by
    refine ⟨by simp [start, hr.finished], by simp [start, hp, Relay.Place.isOver],
      by simp [start, hst], ?_⟩
    simp [start, hr.aggregator, hp]
  have hkeeping := isKeeping_run hstart hm hrun
  have hfinished : s.relay.finished = true := hkeeping.ending (by rw [hended]; rfl)
  refine ⟨hfinished, hkeeping.finished hfinished, ⟨fun hclosed hloses => ?_, ?_⟩, fun hloses => ?_⟩
  · obtain ⟨-, st, -, hst', hopen⟩ := unclosed_of_losesEnd hstart hm hrun hloses
    simp [hclosed st hst'] at hopen
  · exact closed_of_not_losesEnd (by simp [start, hp]) hrun hended
  · obtain ⟨f, st, hended', hst', hopen⟩ := unclosed_of_losesEnd hstart hm hrun hloses
    obtain rfl := (Relay.Place.ended.inj (hended.symm.trans hended'))
    refine ⟨by simp, fun more s' hmore => ?_⟩
    obtain ⟨-, hstays⟩ := ended_run hended hmore
    rw [hst', Option.map_some, hopen] at hstays
    exact Option.map_eq_some_iff.1 hstays

/-- A piece of a line is read, and the stream ends.  The piece cannot be published, because the operating
system fails at that: the stream stays open. -/
theorem disposed_iff_system : ∃ (o : Outlet) (moves : List Move) (s : Session) (st : Stream),
    (start Relay.plain o).run moves = some s ∧ s.relay.place = .ended (some (.outage ⟨.system, []⟩)) ∧
      s.relay.finished = true ∧ (start Relay.plain o).LosesEnd moves ∧
        s.relay.stream = some st ∧ st.closed = false := by
  let o : Outlet := { policy := fun _ _ => some ⟨.system, []⟩ }
  let held : Bytes := Frame.wrap [26, 1, 97, 32, 1]
  let moves : List Move := .opened (.ok { source := .stored held none none }) :: List.replicate 5 .work
  have hclosed : ((start Relay.plain o).run moves).map (·.relay.stream.map Stream.closed) =
      some (some false) := by
    decide +kernel
  have hplace : ((start Relay.plain o).run moves).map (·.relay.place) =
      some (.ended (some (.outage ⟨.system, []⟩))) := by
    with_unfolding_all rfl
  obtain ⟨s, hrun, hs⟩ := Option.map_eq_some_iff.1 hclosed
  obtain ⟨st, hst, hopen⟩ := Option.map_eq_some_iff.1 hs
  rw [hrun] at hplace
  have hended := Option.some.inj hplace
  obtain ⟨hfinished, -, hiff, -⟩ := disposed_iff (⟨rfl, rfl, rfl⟩ : Relay.plain.IsFresh) rfl rfl
    (by simp [moves, Move.OpensAnew]) hrun hended
  refine ⟨o, moves, s, st, hrun, hended, hfinished, ?_, hst, hopen⟩
  by_contra hloses
  simp [hiff.2 hloses st hst] at hopen

end Session

end LogRelay
