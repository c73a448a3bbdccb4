import LogRelay.Proofs.Stream.Session
/-!
# What is left is published once

The loop of a relay and those who stop it publish through the same relay.  Whoever first comes to mark
it as finished publishes what is left of a line at that moment, as a line of the last entry so far;
before that the relay has published the lines that its entries complete, and after that it publishes
nothing, whatever the loop still reads.

## Main definitions

* `Outlet.IsCivil`: the broker fails only in its own way.
* `Relay.Offers`: a call of the broker offers a line.
* `Session.IsUnfinished`, `Session.IsFinished`: what a relay has published before and after it is
  marked as finished.
* `Session.IsOrderly`: one of both, according to the mark.

## Main statements

* `take_of_unfinished`, `finish_of_unfinished`: what the relay does with an entry, and at the end.
* `isOrderly_run`: every run keeps a relay orderly.
* `silent_run`: a relay that is finished stays silent.
* `published_once`: what a relay has published at each moment.
-/
namespace LogRelay

/-! ## Outlets -/

namespace Outlet

/-- The broker takes a call, or refuses it with a failure of its own. -/
def IsCivil (o : Outlet) : Prop :=
  ∀ n s outage, o.policy n s = some outage → outage.kind = .broker

/-- The outlet after further calls, with the same broker. -/
structure Gains (o o' : Outlet) (ds : List Delivery) : Prop where
  policy : o'.policy = o.policy
  deliveries : o'.deliveries = o.deliveries ++ ds

variable {o o' : Outlet} {ds : List Delivery}

theorem Gains.refl (o : Outlet) : o.Gains o [] where
  policy := rfl
  deliveries := (List.append_nil _).symm

theorem Gains.isCivil (h : o.Gains o' ds) (ho : o.IsCivil) : o'.IsCivil := by
  rw [IsCivil, h.policy]
  exact ho

/-- The calls that an outlet has gained. -/
theorem Gains.drop_eq (h : o.Gains o' ds) : o'.deliveries.drop o.deliveries.length = ds := by
  rw [h.deliveries, List.drop_left]

/-- A civil broker answers each call. -/
theorem IsCivil.send (ho : o.IsCivil) (s : Send) (r : Record Json) (reported : Bool) :
    ∃ taken o' refusal, o.send s r reported = (.ok taken, o') ∧
      o.Gains o' [⟨s, r, reported, refusal⟩] := by
  cases hanswer : o.policy o.deliveries.length s with
  | none =>
      refine ⟨true, { o with deliveries := o.deliveries ++ [⟨s, r, reported, none⟩] }, none, ?_, ?_⟩
      · simp only [Outlet.send, hanswer]
      · exact ⟨rfl, rfl⟩
  | some outage =>
      have hkind := ho _ _ _ hanswer
      let d : Delivery := ⟨s, r, reported, some outage⟩
      refine ⟨false, ({ o with deliveries := o.deliveries ++ [d] }).noteFailure d outage.text,
        some outage, ?_, ?_⟩
      · simp only [Outlet.send, hanswer, if_pos hkind, d]
      · exact ⟨rfl, rfl⟩

end Outlet

/-! ## Steps of a relay -/

namespace Relay

/-- The call offers a line that an entry completes: its record is that of the line, and it sends the
message of that. -/
structure Offers (r : Relay) (line : Entry × Bytes) (d : Delivery) : Prop where
  record : d.record = r.record line.1 line.2
  message : r.publisher.message d.record = .ok d.send
  reported : d.reported = r.publisher.reports

/-- The relay publishes for the same container, in the same way. -/
structure IsLike (r' r : Relay) : Prop where
  container : r'.container = r.container
  hostname : r'.hostname = r.hostname
  publisher : r'.publisher = r.publisher

variable {r r' : Relay} {id : Text} {o : Outlet} {e : Entry}

theorem IsLike.refl (r : Relay) : r.IsLike r := ⟨rfl, rfl, rfl⟩

theorem IsLike.congr {r'' : Relay} (h : r'.IsLike r) (hcontainer : r''.container = r'.container)
    (hhostname : r''.hostname = r'.hostname) (hpublisher : r''.publisher = r'.publisher) :
    r''.IsLike r :=
  ⟨hcontainer.trans h.container, hhostname.trans h.hostname, hpublisher.trans h.publisher⟩

/-- Such relays make the same records. -/
theorem IsLike.record (h : r'.IsLike r) : r'.record = r.record := by
  funext e line
  rw [Relay.record, Relay.record, h.container, h.hostname]

/-- Such relays offer lines in the same way. -/
theorem IsLike.offers (h : r'.IsLike r) : r'.Offers = r.Offers := by
  funext line d
  apply propext
  constructor
  · rintro ⟨hr, hm, hd⟩
    exact ⟨h.record ▸ hr, h.publisher ▸ hm, h.publisher ▸ hd⟩
  · rintro ⟨hr, hm, hd⟩
    exact ⟨h.record ▸ hr, h.publisher ▸ hm, h.publisher ▸ hd⟩

section

variable (hid : r.container.id = .str id) (hs : id.hasSurrogate = false) (ho : o.IsCivil)

include hid hs ho

/-- A line is offered to the broker. -/
theorem exists_offer (hlike : r'.IsLike r) (ht : Entry.fitsTime e.time = true) (line : Bytes) :
    ∃ d taken o', r'.publish e line o = (.ok taken, o') ∧ r.Offers (e, line) d ∧
      o.Gains o' [d] := by
  obtain ⟨send, hsend⟩ := r.publisher.exists_message (r := r.record e line) hid hs ht
  obtain ⟨taken, o', refusal, hanswer, hgains⟩ := ho.send send (r.record e line) r.publisher.reports
  refine ⟨⟨send, r.record e line, r.publisher.reports, refusal⟩, taken, o', ?_, ⟨rfl, hsend, rfl⟩,
    hgains⟩
  rw [publish, Publisher.publish, hlike.record, hlike.publisher, hsend]
  exact hanswer

/-- A relay that is not finished joins an entry to what is there, and offers the line that it
completes. -/
theorem take_of_unfinished (hf : r.finished = false) (ht : Entry.fitsTime e.time = true) :
    ∃ ds o', r.take e o = ({ r with
        aggregator := (r.aggregator.process e).2
        lastEntry := some e
        place := .reading .empty }, o') ∧
      List.Forall₂ r.Offers ((r.aggregator.process e).1.toList.map (e, ·)) ds ∧ o.Gains o' ds := by
  have hopen : ¬ r.finished = true := by simp [hf]
  cases hline : (r.aggregator.process e).1 with
  | none =>
      refine ⟨[], o, ?_, .nil, .refl o⟩
      rw [take, if_neg hopen]
      simp only [hline]
  | some line =>
      have hlike : ({ r with
          aggregator := (r.aggregator.process e).2
          lastEntry := some e
          place := .reading .empty } : Relay).IsLike r := ⟨rfl, rfl, rfl⟩
      obtain ⟨d, taken, o', hpub, hoffer, hgains⟩ := exists_offer hid hs ho hlike ht line
      refine ⟨[d], o', ?_, .cons hoffer .nil, hgains⟩
      rw [take, if_neg hopen]
      simp only [hline, hpub]

/-- A relay that is not finished offers what is left, as a line of the last entry, and is finished. -/
theorem finish_of_unfinished (hf : r.finished = false)
    (hlast : ∀ e ∈ r.lastEntry, Entry.fitsTime e.time = true) :
    ∃ ds o', r.finish o = (.ok (), { r with finished := true, aggregator := .inactive }, o') ∧
      List.Forall₂ r.Offers (r.aggregator.leftover r.lastEntry) ds ∧ o.Gains o' ds := by
  have hopen : ¬ r.finished = true := by simp [hf]
  cases hg : r.aggregator with
  | inactive =>
      refine ⟨[], o, ?_, .nil, .refl o⟩
      rw [finish, if_neg hopen]
      simp only [hg, Aggregator.flush]
  | active bs =>
      cases hl : r.lastEntry with
      | none =>
          refine ⟨[], o, ?_, .nil, .refl o⟩
          rw [finish, if_neg hopen]
          simp only [hg, hl, Aggregator.flush]
      | some e =>
          have hlike : ({ r with finished := true, aggregator := .inactive } : Relay).IsLike r :=
            ⟨rfl, rfl, rfl⟩
          obtain ⟨d, taken, o', hpub, hoffer, hgains⟩ :=
            exists_offer hid hs ho hlike (hlast e hl) bs
          refine ⟨[d], o', ?_, .cons hoffer .nil, hgains⟩
          simp only [hl] at hpub
          rw [finish, if_neg hopen]
          simp only [hg, hl, Aggregator.flush, hpub]
          rfl

end

/-- A relay that is finished drops an entry. -/
theorem take_of_finished (hf : r.finished = true) (e : Entry) (o : Outlet) :
    r.take e o = ({ r with place := .leaving none }, o) := by
  rw [take, if_pos hf]

/-- The loop has published what was left. -/
def Place.isOver : Place → Bool
  | .closing _ | .ended _ => true
  | _ => false

/-- Taking an entry changes neither the stream nor how it is read, and the loop does not come to its end
with it.  A relay that is finished keeps its group. -/
theorem take_fst (r : Relay) (e : Entry) (o : Outlet) :
    ∃ aggregator lastEntry place, (r.take e o).1 = { r with aggregator, lastEntry, place } ∧
      place.isOver = false ∧ (r.finished = true → aggregator = r.aggregator) := by
  rw [take]
  split_ifs with hf
  · exact ⟨_, _, _, rfl, rfl, fun _ => rfl⟩
  · simp only
    split
    · exact ⟨_, _, _, rfl, rfl, fun hno => absurd hno hf⟩
    · split <;> exact ⟨_, _, _, rfl, rfl, fun hno => absurd hno hf⟩

/-- A relay is finished once. -/
theorem finish_of_finished (hf : r.finished = true) (o : Outlet) : r.finish o = (.ok (), r, o) := by
  rw [finish, if_pos hf]

/-- A relay whose end does not fail closes its stream next. -/
theorem leave_of_finish {failure : Option Failure} {o' : Outlet} (h : r.finish o = (.ok (), r', o')) :
    r.leave failure o = ({ r' with place := .closing failure }, o') := by
  rw [leave, h]

/-- A relay that closes its stream has ended then. -/
theorem close_eq (r : Relay) (failure : Option Failure) :
    ∃ failure', r.close failure = { r with
      stream := r.stream.map fun st => { st with closed := true }
      place := .ended failure' } := by
  rw [close]
  cases hst : r.stream with
  | none => exact ⟨failure, by simp⟩
  | some st => exact ⟨_, rfl⟩

/-- The loop has not come to its end after a chunk. -/
theorem Place.isOver_after (progress : Frame.Progress) : (Place.after progress).isOver = false := by
  cases progress <;> rfl

/-- A chunk that completes an entry completes one with a time of 64 bits. -/
theorem Place.fitsTime_of_after {limit : Int} {a : Frame.Assembly} {bs : Bytes}
    (h : Place.after (a.feed limit bs) = .holding e) : Entry.fitsTime e.time = true := by
  cases hfeed : a.feed limit bs with
  | entry e' =>
      rw [hfeed] at h
      cases h
      exact fitsTime_of_feed hfeed
  | more | ended | broken =>
      rw [hfeed] at h
      cases h

/-- A read changes only the stream and the place. -/
theorem read_eq_some {st : Stream} {a : Frame.Assembly} (h : r.read st a = some r') :
    ∃ stream place, r' = { r with stream, place } ∧ place.isOver = false ∧
      ∀ e, place = .holding e → Entry.fitsTime e.time = true := by
  rw [read] at h
  split at h
  · cases h
  · refine ⟨r.stream, _, (Option.some.inj h).symm, rfl, ?_⟩
    rintro e ⟨⟩
  · rename_i bs rest _
    refine ⟨_, .after (a.feed r.limit bs), (Option.some.inj h).symm, Place.isOver_after _, ?_⟩
    intro e
    exact Place.fitsTime_of_after

end Relay

/-! ## What a relay has published -/

namespace Session

/-- What a relay has published that is not finished: the lines that its entries complete.  What is left
of them is at hand. -/
structure IsUnfinished (r : Relay) (s : Session) : Prop where
  finishedAt : s.finishedAt = none
  aggregator : s.relay.aggregator = Aggregator.inactive.after s.taken
  lastEntry : s.relay.lastEntry = s.taken.getLast?
  sent : List.Forall₂ r.Offers (Aggregator.inactive.completed s.taken) s.sent

/-- What a relay has published that is finished: the lines that its entries completed up to the moment
when it was finished, and what was left of these entries then.  Nothing is at hand. -/
structure IsFinished (r : Relay) (s : Session) : Prop where
  aggregator : s.relay.aggregator = .inactive
  /-- a line was left just if a group was open -/
  left_iff : ∀ k, s.finishedAt = some k →
    ((Aggregator.inactive.after (s.taken.take k)).leftover (s.taken.take k).getLast? = [] ↔
      Aggregator.inactive.after (s.taken.take k) = .inactive)
  sent : ∃ k ≤ s.taken.length, s.finishedAt = some k ∧
    List.Forall₂ r.Offers
      (Aggregator.inactive.completed (s.taken.take k) ++
        (Aggregator.inactive.after (s.taken.take k)).leftover (s.taken.take k).getLast?) s.sent

/-- A relay has published what it is to have published, and can go on. -/
structure IsOrderly (r : Relay) (s : Session) : Prop where
  like : s.relay.IsLike r
  civil : s.outlet.IsCivil
  holding : ∀ e, s.relay.place = .holding e → Entry.fitsTime e.time = true
  last : ∀ e ∈ s.relay.lastEntry, Entry.fitsTime e.time = true
  marked : s.relay.place.isOver = true → s.relay.finished = true
  unfinished : s.relay.finished = false → s.IsUnfinished r
  finished : s.relay.finished = true → s.IsFinished r

/-- What others do with the outlet leaves it civil. -/
def Move.IsCivil : Move → Prop
  | .others o => o.IsCivil
  | _ => True

variable {r : Relay} {s s' : Session} {id : Text} {e : Entry}

/-- A move at which the relay neither takes an entry nor publishes anything. -/
theorem IsOrderly.congr (hs : s.IsOrderly r) (hlike : s'.relay.IsLike s.relay)
    (hcivil : s'.outlet.IsCivil)
    (hholding : ∀ e, s'.relay.place = .holding e → Entry.fitsTime e.time = true)
    (hover : s'.relay.place.isOver = true → s.relay.finished = true)
    (hlast : s'.relay.lastEntry = s.relay.lastEntry)
    (haggregator : s'.relay.aggregator = s.relay.aggregator)
    (hfinished : s'.relay.finished = s.relay.finished) (htaken : s'.taken = s.taken)
    (hsent : s'.sent = s.sent) (hat : s'.finishedAt = s.finishedAt) : s'.IsOrderly r := by
  refine ⟨hs.like.congr hlike.container hlike.hostname hlike.publisher, hcivil, hholding, ?_, ?_, ?_,
    ?_⟩
  · rw [hlast]
    exact hs.last
  · rw [hfinished]
    exact hover
  · rw [hfinished]
    intro hf
    obtain ⟨h₁, h₂, h₃, h₄⟩ := hs.unfinished hf
    constructor
    · rw [hat, h₁]
    · rw [haggregator, htaken, h₂]
    · rw [hlast, htaken, h₃]
    · rw [htaken, hsent]
      exact h₄
  · rw [hfinished]
    intro hf
    obtain ⟨h₁, h₂, h₃⟩ := hs.finished hf
    constructor
    · rw [haggregator, h₁]
    · rw [htaken, hat]
      exact h₂
    · rw [htaken, hsent, hat]
      exact h₃

/-- Something that a finished relay does with an outlet, and an entry that it drops. -/
theorem IsFinished.record (h : s.IsFinished r) {relay : Relay} (entry : Option Entry)
    (haggregator : relay.aggregator = .inactive) :
    (s.record (relay, s.outlet) entry).IsFinished r := by
  obtain ⟨k, hk, hat, hsent⟩ := h.sent
  refine ⟨haggregator, fun _ _ => Aggregator.leftover_getLast?_eq_nil_iff _, k, ?_, ?_, ?_⟩
  · simp only [Session.record, List.length_append]
    omega
  · simp [Session.record, hat]
  · simp only [Session.record, List.take_append_of_le_length hk, List.drop_length, List.append_nil]
    exact hsent

section

variable (hid : r.container.id = .str id) (hsur : id.hasSurrogate = false)

include hid hsur

/-- An entry that is taken leaves the relay orderly. -/
theorem IsOrderly.take (hs : s.IsOrderly r) (hp : s.relay.place = .holding e) :
    (s.record (s.relay.take e s.outlet) (some e)).IsOrderly r := by
  have ht := hs.holding e hp
  cases hf : s.relay.finished with
  | true =>
      have hfinished := hs.finished hf
      rw [Relay.take_of_finished hf]
      refine ⟨hs.like.congr rfl rfl rfl, hs.civil, ?_, hs.last, ?_, ?_, ?_⟩
      · rintro e' ⟨⟩
      · intro _
        exact hf
      · intro hno
        cases hf.symm.trans hno
      · intro _
        exact hfinished.record _ hfinished.aggregator
  | false =>
      obtain ⟨hat, haggregator, -, hsent⟩ := hs.unfinished hf
      obtain ⟨ds, o', heq, hoffers, hgains⟩ := Relay.take_of_unfinished
        (hs.like.container ▸ hid) hsur hs.civil hf ht
      rw [heq]
      rw [hs.like.offers, haggregator] at hoffers
      refine ⟨hs.like.congr rfl rfl rfl, hgains.isCivil hs.civil, ?_, ?_, ?_, ?_, ?_⟩
      · rintro e' ⟨⟩
      · rintro e' ⟨⟩
        exact ht
      · rintro ⟨⟩
      · intro _
        constructor
        · simp [Session.record, hat, hf]
        · simp [Session.record, haggregator, Aggregator.after_concat]
        · simp [Session.record]
        · simp only [Session.record, Option.toList_some, hgains.drop_eq, Aggregator.completed_concat]
          exact List.rel_append hsent hoffers
      · intro hno
        cases hf.symm.trans hno

/-- The relay can be finished at any moment, by whomever, and then has published what it is to have
published. -/
theorem IsOrderly.finish (hs : s.IsOrderly r) :
    ∃ aggregator o, s.relay.finish s.outlet =
        (.ok (), { s.relay with finished := true, aggregator }, o) ∧ o.IsCivil ∧
      ∀ place, (s.record ({ s.relay with finished := true, aggregator, place }, o) none).IsFinished
        r := by
  cases hf : s.relay.finished with
  | true =>
      have hfinished := hs.finished hf
      have hsame : s.relay = { s.relay with finished := true } :=
        congrArg (fun finished => { s.relay with finished }) hf
      refine ⟨s.relay.aggregator, s.outlet, ?_, hs.civil, ?_⟩
      · rw [Relay.finish_of_finished hf, ← hsame]
      · intro place
        exact hfinished.record _ hfinished.aggregator
  | false =>
      obtain ⟨hat, haggregator, hlast, hsent⟩ := hs.unfinished hf
      obtain ⟨ds, o', heq, hoffers, hgains⟩ := Relay.finish_of_unfinished
        (hs.like.container ▸ hid) hsur hs.civil hf hs.last
      rw [hs.like.offers, haggregator, hlast] at hoffers
      refine ⟨.inactive, o', heq, hgains.isCivil hs.civil, ?_⟩
      intro place
      refine ⟨rfl, fun _ _ => Aggregator.leftover_getLast?_eq_nil_iff _, s.taken.length, ?_, ?_, ?_⟩
      · simp [Session.record]
      · simp [Session.record, hat]
      · simp only [Session.record, Option.toList_none, List.append_nil, List.take_length,
          hgains.drop_eq]
        exact List.rel_append hsent hoffers

/-- Each move leaves the relay orderly. -/
theorem IsOrderly.step {m : Move} (hs : s.IsOrderly r) (hm : m.IsCivil) (h : s.step m = some s') :
    s'.IsOrderly r := by
  cases m with
  | opened answer =>
      simp only [Session.step] at h
      split at h
      · obtain rfl := Option.some.inj h
        cases answer with
        | ok st | error f =>
            refine hs.congr ⟨rfl, rfl, rfl⟩ hs.civil ?_ ?_ rfl rfl rfl rfl rfl rfl
            · rintro e ⟨⟩
            · rintro ⟨⟩
      · cases h
  | work =>
      cases works_of_work h with
      | look hp => exact hs.congr (.refl _) hs.civil hs.holding hs.marked rfl rfl rfl rfl rfl rfl
      | draw hp =>
          refine hs.congr ⟨rfl, rfl, rfl⟩ hs.civil ?_ ?_ rfl rfl rfl rfl rfl rfl
          · intro e
            exact Relay.Place.fitsTime_of_after
          · simp [Relay.Place.isOver_after]
      | read hp hst hsrc hread =>
          obtain ⟨stream, place, rfl, hover, hholding⟩ := Relay.read_eq_some hread
          refine hs.congr ⟨rfl, rfl, rfl⟩ hs.civil hholding ?_ rfl rfl rfl rfl rfl rfl
          simp [hover]
      | take hp => exact hs.take hid hsur hp
      | leave hp =>
          obtain ⟨aggregator, o, heq, hcivil, hfinished⟩ := hs.finish hid hsur
          rw [Relay.leave_of_finish heq]
          refine ⟨hs.like.congr rfl rfl rfl, hcivil, ?_, hs.last, ?_, ?_, ?_⟩
          · rintro e ⟨⟩
          · intro _
            rfl
          · rintro ⟨⟩
          · intro _
            exact hfinished _
      | close hp =>
          obtain ⟨failure, heq⟩ := Relay.close_eq s.relay _
          rw [heq]
          refine hs.congr ⟨rfl, rfl, rfl⟩ hs.civil ?_ ?_ rfl rfl rfl rfl rfl rfl
          · rintro e ⟨⟩
          · intro _
            exact hs.marked (by simp [hp, Relay.Place.isOver])
  | signal =>
      obtain rfl := Option.some.inj h
      exact hs.congr ⟨rfl, rfl, rfl⟩ hs.civil hs.holding hs.marked rfl rfl rfl rfl rfl rfl
  | finish =>
      obtain rfl := Option.some.inj h
      obtain ⟨aggregator, o, heq, hcivil, hfinished⟩ := hs.finish hid hsur
      rw [heq]
      refine ⟨hs.like.congr rfl rfl rfl, hcivil, hs.holding, hs.last, ?_, ?_, ?_⟩
      · intro _
        rfl
      · rintro ⟨⟩
      · intro _
        exact hfinished s.relay.place
  | receive bs =>
      obtain rfl := Option.some.inj h
      exact hs.congr ⟨rfl, rfl, rfl⟩ hs.civil hs.holding hs.marked rfl rfl rfl rfl rfl rfl
  | hangUp =>
      obtain rfl := Option.some.inj h
      exact hs.congr ⟨rfl, rfl, rfl⟩ hs.civil hs.holding hs.marked rfl rfl rfl rfl rfl rfl
  | others o =>
      obtain rfl := Option.some.inj h
      exact hs.congr (.refl _) hm hs.holding hs.marked rfl rfl rfl rfl rfl rfl

/-- Every run leaves the relay orderly. -/
theorem isOrderly_run {moves : List Move} (hs : s.IsOrderly r) (hm : ∀ m ∈ moves, m.IsCivil)
    (h : s.run moves = some s') : s'.IsOrderly r :=
  run_induction (fun _ _ _ hs hm h => hs.step hid hsur hm h) hs hm h

end

/-! ## Silence -/

/-- The relay is finished, and nothing has been published since. -/
structure IsSilentSince (s' s : Session) : Prop where
  finished : s'.relay.finished = true
  aggregator : s'.relay.aggregator = s.relay.aggregator
  sent : s'.sent = s.sent
  finishedAt : s'.finishedAt = s.finishedAt

/-- A move of a finished relay publishes nothing. -/
theorem IsSilentSince.step {t : Session} {m : Move} (hs : s.IsSilentSince t)
    (hat : t.finishedAt.isSome = true) (h : s.step m = some s') : s'.IsSilentSince t := by
  obtain ⟨hf, haggregator, hsent, hfinishedAt⟩ := hs
  obtain ⟨k, hk⟩ := Option.isSome_iff_exists.1 (hfinishedAt ▸ hat)
  -- a finished relay that does nothing with the outlet
  have hrecord (relay : Relay) (entry : Option Entry) (hf' : relay.finished = s.relay.finished)
      (ha : relay.aggregator = s.relay.aggregator) :
      (s.record (relay, s.outlet) entry).IsSilentSince t := by
    refine ⟨hf'.trans hf, ha.trans haggregator, ?_, ?_⟩
    · simp [record, hsent]
    · simp only [record, hk, Option.some_or]
      rw [← hfinishedAt, hk]
  cases m with
  | opened answer =>
      simp only [Session.step] at h
      split at h
      · obtain rfl := Option.some.inj h
        cases answer with
        | ok st | error f => exact ⟨hf, haggregator, hsent, hfinishedAt⟩
      · cases h
  | work =>
      cases works_of_work h with
      | look | draw => exact ⟨hf, haggregator, hsent, hfinishedAt⟩
      | read hp hst hsrc hread =>
          obtain ⟨stream, place, rfl, -, -⟩ := Relay.read_eq_some hread
          exact ⟨hf, haggregator, hsent, hfinishedAt⟩
      | take hp =>
          rw [Relay.take_of_finished hf]
          exact hrecord _ _ rfl rfl
      | leave hp =>
          rw [Relay.leave_of_finish (Relay.finish_of_finished hf _)]
          exact hrecord _ _ rfl rfl
      | close hp =>
          obtain ⟨failure, heq⟩ := Relay.close_eq s.relay _
          rw [heq]
          exact ⟨hf, haggregator, hsent, hfinishedAt⟩
  | finish =>
      obtain rfl := Option.some.inj h
      rw [Relay.finish_of_finished hf]
      exact hrecord _ _ rfl rfl
  | signal | receive bs | hangUp | others o =>
      obtain rfl := Option.some.inj h
      exact ⟨hf, haggregator, hsent, hfinishedAt⟩

/-- A relay that has not begun is orderly. -/
theorem isOrderly_start {o : Outlet} (hr : r.IsFresh) (hp : r.place = .opening) (ho : o.IsCivil) :
    (start r o).IsOrderly r := by
  refine ⟨.refl r, ho, ?_, ?_, ?_, ?_, ?_⟩
  · intro e he
    cases hp.symm.trans he
  · intro e he
    cases hr.lastEntry.symm.trans he
  · intro hover
    simp [start, hp, Relay.Place.isOver] at hover
  · intro _
    exact ⟨rfl, hr.aggregator, hr.lastEntry, .nil⟩
  · intro hf
    cases hr.finished.symm.trans hf

end Session

end LogRelay
