import LogRelay.Proofs.Stream.Flush
/-!
# What a relay does with different outlets

What a relay does with an outlet does not depend on what others have done with it, as long as the broker
fails in its own way only: whether a call is taken is noted in the outlet, and the relay goes on.  So a
relay that makes the same moves with another outlet goes on in the same way and sends the same.

## Main definitions

* `Outlet.Uniform`: what is done comes to the same with all outlets.
* `Session.IsAlike`: two sessions differ in their outlets at most.
* `Session.Mirrors`: what a move does to a session, and to it with another outlet.

## Main statements

* `uniform_take`, `uniform_finish`, `uniform_leave`: the steps of a relay that use the outlet.
* `mirrors_of_step`: each move is of one of two kinds.
* `exists_step_of_isAlike`: a session can make the moves of one like it.
-/
namespace LogRelay

/-! ## Steps that use the outlet -/

/-- What is done with an outlet comes to the same, and sends the same, with all outlets whose broker
fails in its own way only. -/
def Outlet.Uniform {α : Type} (act : Outlet → α × Outlet) : Prop :=
  ∃ a sends, ∀ o : Outlet, o.IsCivil → ∃ o' ds,
    act o = (a, o') ∧ o.Gains o' ds ∧ ds.map (·.send) = sends

namespace Relay

variable {r : Relay}

/-- Of a line no message can be made, with any outlet, or it is sent, whether the broker takes it or
not. -/
theorem publish_cases (r : Relay) (e : Entry) (line : Bytes) :
    (∃ f, ∀ o, r.publish e line o = (.error f, o)) ∨
      ∃ send, ∀ o : Outlet, o.IsCivil → ∃ taken o' ds, r.publish e line o = (.ok taken, o') ∧
        o.Gains o' ds ∧ ds.map (·.send) = [send] := by
  cases hm : r.publisher.message (r.record e line) with
  | error f =>
      refine .inl ⟨f, fun o => ?_⟩
      rw [publish, Publisher.publish, hm]
  | ok send =>
      refine .inr ⟨send, fun o ho => ?_⟩
      obtain ⟨taken, o', refusal, hsend, hgains⟩ :=
        ho.send send (r.record e line) r.publisher.reports
      refine ⟨taken, o', _, ?_, hgains, rfl⟩
      rw [publish, Publisher.publish, hm]
      exact hsend

theorem uniform_take (r : Relay) (e : Entry) : Outlet.Uniform (r.take e) := by
  by_cases hf : r.finished = true
  · exact ⟨_, [], fun o _ => ⟨o, [], take_of_finished hf e o, .refl o, rfl⟩⟩
  · let next : Relay := { r with
      aggregator := (r.aggregator.process e).2
      lastEntry := some e
      place := .reading .empty }
    cases hline : (r.aggregator.process e).1 with
    | none =>
        refine ⟨next, [], fun o _ => ⟨o, [], ?_, .refl o, rfl⟩⟩
        rw [take, if_neg hf]
        simp only [hline, next]
    | some line =>
        rcases next.publish_cases e line with ⟨f, hpublish⟩ | ⟨send, hpublish⟩
        · refine ⟨{ next with place := .leaving f.unhandled }, [], fun o _ =>
            ⟨o, [], ?_, .refl o, rfl⟩⟩
          rw [take, if_neg hf]
          simp only [hline, next, hpublish o]
        · refine ⟨next, [send], fun o ho => ?_⟩
          obtain ⟨taken, o', ds, hpub, hgains⟩ := hpublish o ho
          refine ⟨o', ds, ?_, hgains⟩
          rw [take, if_neg hf]
          simp only [hline, next, hpub]

/-- What is left is published in the same way with all outlets. -/
theorem exists_finish (r : Relay) : ∃ answer next sends, ∀ o : Outlet, o.IsCivil → ∃ o' ds,
    r.finish o = (answer, next, o') ∧ o.Gains o' ds ∧ ds.map (·.send) = sends := by
  by_cases hf : r.finished = true
  · exact ⟨.ok (), r, [], fun o _ => ⟨o, [], finish_of_finished hf o, .refl o, rfl⟩⟩
  let next : Relay := { r with finished := true, aggregator := r.aggregator.flush.2 }
  cases hline : r.aggregator.flush.1 with
  | none =>
      refine ⟨.ok (), next, [], fun o _ => ⟨o, [], ?_, .refl o, rfl⟩⟩
      rw [finish, if_neg hf]
      simp only [hline, next]
  | some line =>
      cases hlast : r.lastEntry with
      | none =>
          refine ⟨.ok (), next, [], fun o _ => ⟨o, [], ?_, .refl o, rfl⟩⟩
          rw [finish, if_neg hf]
          simp only [hline, hlast, next]
      | some e =>
          have hcases := next.publish_cases e line
          simp only [next, hlast] at hcases
          rcases hcases with ⟨f, hpublish⟩ | ⟨send, hpublish⟩
          · refine ⟨.error f, next, [], fun o _ => ⟨o, [], ?_, .refl o, rfl⟩⟩
            rw [finish, if_neg hf]
            simp only [hline, hlast, next, hpublish o, Except.map]
          · refine ⟨.ok (), next, [send], fun o ho => ?_⟩
            obtain ⟨taken, o', ds, hpub, hgains⟩ := hpublish o ho
            refine ⟨o', ds, ?_, hgains⟩
            rw [finish, if_neg hf]
            simp only [hline, hlast, next, hpub, Except.map]

theorem uniform_finish (r : Relay) : Outlet.Uniform fun o => (r.finish o).2 := by
  obtain ⟨answer, next, sends, hfinish⟩ := r.exists_finish
  refine ⟨next, sends, fun o ho => ?_⟩
  obtain ⟨o', ds, heq, hgains⟩ := hfinish o ho
  exact ⟨o', ds, congrArg Prod.snd heq, hgains⟩

theorem uniform_leave (r : Relay) (failure : Option Failure) :
    Outlet.Uniform (r.leave failure) := by
  obtain ⟨answer, next, sends, hfinish⟩ := r.exists_finish
  let place : Place := match answer with
    | .ok _ => .closing failure
    | .error f => .ended (some f)
  refine ⟨{ next with place }, sends, fun o ho => ?_⟩
  obtain ⟨o', ds, heq, hgains⟩ := hfinish o ho
  refine ⟨o', ds, ?_, hgains⟩
  rw [leave, heq]
  cases answer <;> rfl

end Relay

/-! ## Sessions that differ in their outlets -/

namespace Session

/-- The two sessions have gone on in the same way, but have used different outlets. -/
structure IsAlike (s t : Session) : Prop where
  relay : t.relay = s.relay
  flow : t.flow = s.flow
  taken : t.taken = s.taken
  finishedAt : t.finishedAt = s.finishedAt
  sent : t.sent.map (·.send) = s.sent.map (·.send)

/-- The move is made by the relay itself or with it. -/
def Move.isOwn : Move → Bool
  | .others _ => false
  | _ => true

/-- The session with another outlet and other calls of it. -/
def onto (s : Session) (o : Outlet) (sent : List Delivery) : Session :=
  { s with outlet := o, sent }

variable {s s' t : Session}

theorem IsAlike.eq_onto (h : s.IsAlike t) : t = s.onto t.outlet t.sent := by
  cases t
  cases h
  simp_all [onto]

theorem isAlike_onto {o : Outlet} {sent : List Delivery}
    (h : sent.map (·.send) = s.sent.map (·.send)) : s.IsAlike (s.onto o sent) :=
  ⟨rfl, rfl, rfl, rfl, h⟩

/-- A step of the loop that does not use the outlet is the same with another one. -/
theorem readPipe_onto (st : Stream) (a : Frame.Assembly) (p : Pipe) (o : Outlet)
    (sent : List Delivery) :
    (s.onto o sent).readPipe st a p = (s.readPipe st a p).onto o sent := by
  have hintake : (s.onto o sent).intake p = s.intake p := rfl
  rw [readPipe, readPipe, hintake]
  split <;> rfl

/-- What a move does to a session: it leaves the outlet alone, or records something that is done in the
same way with all outlets.  With another outlet it does the same. -/
inductive Mirrors (s : Session) (m : Move) : Session → Prop
  | quiet {s' : Session} (ho : s'.outlet = s.outlet) (hsent : s'.sent = s.sent)
      (h : ∀ o sent, (s.onto o sent).step m = some (s'.onto o sent)) : Mirrors s m s'
  | record {act : Outlet → Relay × Outlet} {entry : Option Entry} (hact : Outlet.Uniform act)
      (h : ∀ o sent, (s.onto o sent).step m = some ((s.onto o sent).record (act o) entry)) :
      Mirrors s m (s.record (act s.outlet) entry)

/-- A step of the loop is of one of these kinds. -/
theorem mirrors_of_work (h : s.work = some s') : s.Mirrors .work s' := by
  rw [work] at h
  split at h
  · rename_i a st hp hst
    split at h
    · rename_i p hsrc
      cases h
      have hread := s.readPipe_onto st a p
      refine .quiet ?_ ?_ fun o sent => ?_
      · rw [readPipe]; split <;> rfl
      · rw [readPipe]; split <;> rfl
      · simp only [step, work, onto, hp, hst, hsrc] at hread ⊢
        rw [hread]
    · rename_i hsrc
      obtain ⟨relay, hread, rfl⟩ := Option.map_eq_some_iff.1 h
      refine .quiet rfl rfl fun o sent => ?_
      cases hs : st.source with
      | pipe p => exact absurd hs (hsrc p)
      | supply | waiting => simp [step, work, onto, hp, hst, hs, hread]
  · rename_i e hp
    cases h
    refine .record (s.relay.uniform_take e) fun o sent => ?_
    simp [step, work, onto, hp]
  · rename_i failure hp
    cases h
    refine .record (s.relay.uniform_leave failure) fun o sent => ?_
    simp [step, work, onto, hp]
  · rename_i failure hp
    cases h
    refine .quiet rfl rfl fun o sent => ?_
    simp [step, work, onto, hp]
  · cases h

/-- A move of the relay itself, or with it, is of one of these kinds. -/
theorem mirrors_of_step {m : Move} (hm : m.isOwn = true) (h : s.step m = some s') :
    s.Mirrors m s' := by
  cases m with
  | opened answer =>
      simp only [step] at h
      split at h
      · rename_i hp
        cases h
        exact .quiet rfl rfl fun o sent => by simp [step, onto, hp]
      · cases h
  | work => exact mirrors_of_work h
  | finish =>
      cases h
      exact .record s.relay.uniform_finish fun o sent => rfl
  | signal | receive bs | hangUp =>
      cases h
      exact .quiet rfl rfl fun o sent => rfl
  | others o => cases hm

/-- What is recorded of something that is done in the same way with all outlets. -/
theorem record_onto {act : Outlet → Relay × Outlet} (hact : Outlet.Uniform act) (entry : Option Entry)
    (hs : s.outlet.IsCivil) : ∃ ds,
      s.outlet.Gains (s.record (act s.outlet) entry).outlet ds ∧
      (s.record (act s.outlet) entry).sent = s.sent ++ ds ∧
      ∀ o sent, o.IsCivil → sent.map (·.send) = s.sent.map (·.send) →
        (s.record (act s.outlet) entry).IsAlike ((s.onto o sent).record (act o) entry) ∧
          ((s.onto o sent).record (act o) entry).outlet.IsCivil := by
  obtain ⟨relay, sends, hact⟩ := hact
  obtain ⟨o₁, ds₁, heq₁, hgains₁, hsends₁⟩ := hact s.outlet hs
  have hdrop₁ := hgains₁.drop_eq
  rw [heq₁]
  refine ⟨ds₁, hgains₁, by simp only [record, hdrop₁], fun o sent ho hsent => ?_⟩
  obtain ⟨o₂, ds₂, heq₂, hgains₂, hsends₂⟩ := hact o ho
  have hdrop₂ := hgains₂.drop_eq
  rw [heq₂]
  refine ⟨⟨rfl, rfl, rfl, rfl, ?_⟩, hgains₂.isCivil ho⟩
  simp only [record, onto, hdrop₁, hdrop₂, List.map_append, hsent, hsends₁, hsends₂]

/-- A session makes a move as one like it does, and what it does with its outlet is added to what it
has sent. -/
theorem exists_step_of_isAlike {m : Move} (hm : m.isOwn = true) (hs : s.outlet.IsCivil)
    (h : s.step m = some s') :
    (∃ ds, s.outlet.Gains s'.outlet ds ∧ s'.sent = s.sent ++ ds) ∧
      ∀ t, s.IsAlike t → t.outlet.IsCivil →
        ∃ t', t.step m = some t' ∧ s'.IsAlike t' ∧ t'.outlet.IsCivil := by
  cases mirrors_of_step hm h with
  | quiet ho hsent hstep =>
      refine ⟨⟨[], ?_, by rw [hsent, List.append_nil]⟩, fun t ht hciv => ?_⟩
      · rw [ho]; exact .refl _
      · refine ⟨s'.onto t.outlet t.sent, ?_, isAlike_onto (by rw [ht.sent, hsent]), hciv⟩
        rw [ht.eq_onto]
        exact hstep _ _
  | record hact hstep =>
      obtain ⟨ds, hgains, hsent, hmirror⟩ := record_onto hact _ hs
      refine ⟨⟨ds, hgains, hsent⟩, fun t ht hciv => ?_⟩
      obtain ⟨halike, hciv'⟩ := hmirror t.outlet t.sent hciv ht.sent
      refine ⟨_, ?_, halike, hciv'⟩
      rw [ht.eq_onto]
      exact hstep _ _

end Session

end LogRelay
