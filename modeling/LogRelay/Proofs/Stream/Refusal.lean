import LogRelay.Proofs.Stream.Flush
/-!
# Records that the broker does not take

The broker may refuse a record; a call of it may fail in another way; and there are records of which no
message can be made.  Only a refusal is noted: it is counted, kept in the log of failures and reported,
and the relay goes on as if the broker had taken the record.  Anything else ends the relay.  The line at
which it happens is lost without being counted, and the lines behind it are not published.

## Main definitions

* `Outlet.notingAll`: the outlet after calls that the broker has answered.
* `refusalsOf`: the refusals among some calls.
* `Outlet.Answers`: calls are answered as the broker does it.
* `Relay.linesOf`: the lines of a stream.
* `Relay.Handles`, `Relay.HandlesAll`: a line is answered by the broker, and each of several is.
* `Outlet.AccountsFor`: each line is taken or counted.
* `Relay.LosesFrom`: a line is lost, and with it all that come later.

## Main statements

* `publishAll_of_handlesAll`, `publishAll_of_not_handles`: how far the publishing of lines comes.
* `run_eq`: a relay publishes the lines of its stream, whatever the broker does.
* `run_refused`: a refusal costs a relay the record that was refused, and nothing else.
* `run_accounts`: each line is taken or counted just if the broker answers each.
-/
namespace LogRelay

/-! ## Calls that the broker has answered -/

/-- The broker has taken the record of a call, or has refused it. -/
def Delivery.IsAnswered (d : Delivery) : Prop :=
  ∀ outage ∈ d.refusal, outage.kind = .broker

/-- The records of some calls that the broker did not take, and why. -/
def refusalsOf (ds : List Delivery) : List (Record Json × Text) :=
  ds.filterMap fun d => d.refusal.map fun outage => (d.record, outage.text)

theorem refusalsOf_cons (d : Delivery) (ds : List Delivery) :
    refusalsOf (d :: ds) = refusalsOf [d] ++ refusalsOf ds :=
  List.filterMap_append (l := [d])

/-- A call that is answered is accepted or refused. -/
theorem length_refusalsOf_add (ds : List Delivery) :
    (ds.filter Delivery.isAccepted).length + (refusalsOf ds).length = ds.length := by
  induction ds with
  | nil => rfl
  | cons d ds ih =>
      rw [refusalsOf_cons d ds, List.length_append, List.filter_cons, List.length_cons]
      cases hd : d.refusal with
      | none =>
          simp only [Delivery.isAccepted, hd, refusalsOf, List.filterMap_cons, Option.map_none,
            Option.isNone_none, if_true, List.filterMap_nil, List.length_cons,
            List.length_nil] at ih ⊢
          omega
      | some outage =>
          simp only [Delivery.isAccepted, hd, refusalsOf, List.filterMap_cons, Option.map_some,
            Option.isNone_some, Bool.false_eq_true, if_false, List.filterMap_nil,
            List.length_cons, List.length_nil] at ih ⊢
          omega

namespace Outlet

/-- The outlet after a call that the broker has answered. -/
def noting (o : Outlet) (d : Delivery) : Outlet :=
  match d.refusal with
  | none => o.extend [d]
  | some outage => (o.extend [d]).noteFailure d outage.text

/-- The outlet after several such calls. -/
def notingAll (o : Outlet) (ds : List Delivery) : Outlet :=
  ds.foldl noting o

variable (o : Outlet) (d : Delivery) (ds : List Delivery)

theorem notingAll_cons : o.notingAll (d :: ds) = (o.noting d).notingAll ds := rfl

theorem gains_noting : o.Gains (o.noting d) [d] := by
  rw [noting]
  split <;> exact ⟨rfl, rfl⟩

theorem gains_notingAll : o.Gains (o.notingAll ds) ds := by
  induction ds generalizing o with
  | nil => exact .refl o
  | cons d ds ih =>
      obtain ⟨hpolicy, hdeliveries⟩ := ih (o.noting d)
      obtain ⟨hpolicy', hdeliveries'⟩ := o.gains_noting d
      refine ⟨hpolicy.trans hpolicy', ?_⟩
      rw [notingAll_cons, hdeliveries, hdeliveries', List.append_assoc, List.singleton_append]

theorem count_noting (c : Counter) :
    (o.noting d).metrics.count c =
      o.metrics.count c + if c = .failed then (refusalsOf [d]).length else 0 := by
  rw [noting]
  cases hd : d.refusal with
  | none => simp [refusalsOf, hd, extend]
  | some outage =>
      have hone := Metrics.count_increment o.metrics .failed c
      by_cases hc : c = .failed
      · subst hc
        simpa [refusalsOf, hd, extend, noteFailure] using hone
      · simpa [extend, noteFailure, hc, Ne.symm hc] using hone

/-- Of the counters only that of failures rises, by the number of refusals. -/
theorem count_notingAll (c : Counter) :
    (o.notingAll ds).metrics.count c =
      o.metrics.count c + if c = .failed then (refusalsOf ds).length else 0 := by
  induction ds generalizing o with
  | nil => simp [notingAll, refusalsOf]
  | cons d ds ih =>
      rw [notingAll_cons, ih, count_noting, refusalsOf_cons d ds, List.length_append]
      split_ifs <;> omega

theorem total_noting :
    (o.noting d).failures.total = o.failures.total + (refusalsOf [d]).length := by
  rw [noting]
  cases hd : d.refusal <;> simp [refusalsOf, hd, extend, noteFailure, FailureLog.add]

/-- All refusals are counted in the log of failures. -/
theorem total_notingAll :
    (o.notingAll ds).failures.total = o.failures.total + (refusalsOf ds).length := by
  induction ds generalizing o with
  | nil => rfl
  | cons d ds ih =>
      rw [notingAll_cons, ih, total_noting, refusalsOf_cons d ds, List.length_append, Nat.add_assoc]

theorem reports_noting :
    (o.noting d).reports = o.reports ++ if d.reported then refusalsOf [d] else [] := by
  rw [noting]
  cases hd : d.refusal with
  | none => simp [refusalsOf, hd, extend]
  | some outage => cases hr : d.reported <;> simp [refusalsOf, hd, hr, extend, noteFailure]

/-- The refusals of calls that are to be reported are reported, in order. -/
theorem reports_notingAll {reported : Bool} (h : ∀ d ∈ ds, d.reported = reported) :
    (o.notingAll ds).reports = o.reports ++ if reported then refusalsOf ds else [] := by
  induction ds generalizing o with
  | nil => simp [notingAll, refusalsOf]
  | cons d ds ih =>
      obtain ⟨hd, hds⟩ := List.forall_mem_cons.1 h
      rw [notingAll_cons, ih _ hds, reports_noting, hd, refusalsOf_cons d ds]
      split_ifs <;> simp

/-- Some calls have the answers that the broker gives when they are made one after the other. -/
def Answers (o : Outlet) (ds : List Delivery) : Prop :=
  ∀ k d, ds[k]? = some d → d.refusal = o.policy (o.deliveries.length + k) d.send

/-- So many records more were taken by the broker, or counted as failures, both in the counter and in
the log. -/
structure AccountsFor (o o' : Outlet) (records : Nat) : Prop where
  counted : o'.accepted.length + o'.metrics.failed =
    o.accepted.length + o.metrics.failed + records
  total : o'.accepted.length + o'.failures.total = o.accepted.length + o.failures.total + records

theorem AccountsFor.unique {o o' : Outlet} {m n : Nat} (h : o.AccountsFor o' m)
    (h' : o.AccountsFor o' n) : m = n := by
  have hm := h.counted
  have hn := h'.counted
  omega

/-- Each call that is answered is accounted for, and no other. -/
theorem accountsFor_notingAll {lost : List Delivery} (hlost : ∀ d ∈ lost, ¬ d.IsAnswered) :
    o.AccountsFor ((o.notingAll ds).extend lost) ds.length := by
  have hnone : lost.filter Delivery.isAccepted = [] := by
    refine List.filter_eq_nil_iff.2 fun d hd haccepted => hlost d hd ?_
    have hrefusal : d.refusal = none := by simpa [Delivery.isAccepted] using haccepted
    simp [Delivery.IsAnswered, hrefusal]
  have haccepted : ((o.notingAll ds).extend lost).accepted.length =
      o.accepted.length + (ds.filter Delivery.isAccepted).length := by
    simp only [accepted, extend, (o.gains_notingAll ds).deliveries, List.filter_append, hnone,
      List.append_nil, List.length_append]
  have hfailed := o.count_notingAll ds .failed
  have htotal := o.total_notingAll ds
  have hsum := length_refusalsOf_add ds
  simp only [Metrics.count, if_true] at hfailed
  constructor
  · rw [haccepted]
    change _ + (o.notingAll ds).metrics.failed = _
    omega
  · rw [haccepted]
    change _ + (o.notingAll ds).failures.total = _
    omega

end Outlet

/-! ## Lines that are answered -/

namespace Relay

variable {r : Relay} {o o' : Outlet} {line : Entry × Bytes} {lines : List (Entry × Bytes)}

/-- A line is answered by the broker, as the call after so many others: there is a message for it,
which the broker takes or refuses. -/
def Handles (r : Relay) (o : Outlet) (n : Nat) (line : Entry × Bytes) : Prop :=
  ∃ send, r.publisher.message (r.record line.1 line.2) = .ok send ∧
    ∀ outage, o.policy n send = some outage → outage.kind = .broker

/-- Each of several lines is answered by the broker when they are published one after the other. -/
def HandlesAll (r : Relay) (o : Outlet) (lines : List (Entry × Bytes)) : Prop :=
  ∀ k line, lines[k]? = some line → r.Handles o (o.deliveries.length + k) line

/-- A line that is answered is published. -/
theorem publish_of_handles (h : r.Handles o o.deliveries.length line) :
    ∃ taken d, r.publish line.1 line.2 o = (.ok taken, o.noting d) ∧ r.Offers line d ∧
      d.refusal = o.policy o.deliveries.length d.send ∧ d.IsAnswered := by
  obtain ⟨send, hmessage, hpolicy⟩ := h
  let d : Delivery := ⟨send, r.record line.1 line.2, r.publisher.reports,
    o.policy o.deliveries.length send⟩
  have hoffers : r.Offers line d := ⟨rfl, hmessage, rfl⟩
  cases hanswer : o.policy o.deliveries.length send with
  | none =>
      refine ⟨true, d, ?_, hoffers, rfl, ?_⟩
      · simp only [publish, Publisher.publish, hmessage, Outlet.send, hanswer, Outlet.noting, d,
          Outlet.extend]
      · simp [Delivery.IsAnswered, d, hanswer]
  | some outage =>
      have hkind := hpolicy outage hanswer
      refine ⟨false, d, ?_, hoffers, rfl, ?_⟩
      · simp only [publish, Publisher.publish, hmessage, Outlet.send, hanswer, Outlet.noting, d,
          Outlet.extend, if_pos hkind]
      · simp [Delivery.IsAnswered, d, hanswer, hkind]

/-- The publishing of a line that is not answered fails, and nothing is noted: there is no message for
the line, or the call is made and fails. -/
theorem publish_of_not_handles (h : ¬ r.Handles o o.deliveries.length line) :
    ∃ f lost, r.publish line.1 line.2 o = (.error f, o.extend lost) ∧ lost.length ≤ 1 ∧
      ∀ d ∈ lost, r.Offers line d ∧ ¬ d.IsAnswered := by
  cases hmessage : r.publisher.message (r.record line.1 line.2) with
  | error f =>
      refine ⟨f, [], ?_, by simp, by simp⟩
      simp only [publish, Publisher.publish, hmessage, Outlet.extend_nil]
  | ok send =>
      obtain ⟨outage, hanswer, hkind⟩ : ∃ outage,
          o.policy o.deliveries.length send = some outage ∧ outage.kind ≠ .broker := by
        by_contra hnone
        push Not at hnone
        exact h ⟨send, hmessage, hnone⟩
      let d : Delivery := ⟨send, r.record line.1 line.2, r.publisher.reports, some outage⟩
      refine ⟨.outage outage, [d], ?_, by simp, ?_⟩
      · simp only [publish, Publisher.publish, hmessage, Outlet.send, hanswer, if_neg hkind,
          Outlet.extend, d]
      · intro d' hd'
        obtain rfl := List.mem_singleton.1 hd'
        exact ⟨⟨rfl, hmessage, rfl⟩, fun hanswered => hkind (hanswered outage rfl)⟩

/-- Whether a line is answered depends on the number of calls and on the broker only. -/
theorem Handles.congr {n : Nat} (h : r.Handles o n line) (hpolicy : o'.policy = o.policy) :
    r.Handles o' n line := by
  obtain ⟨send, hmessage, hanswer⟩ := h
  exact ⟨send, hmessage, hpolicy ▸ hanswer⟩

/-- Lines that are all answered are all published. -/
theorem publishAll_of_handlesAll (h : r.HandlesAll o lines) :
    ∃ ds, r.publishAll lines o = (none, o.notingAll ds) ∧ List.Forall₂ r.Offers lines ds ∧
      o.Answers ds ∧ ∀ d ∈ ds, d.IsAnswered := by
  induction lines generalizing o with
  | nil => exact ⟨[], rfl, .nil, by simp [Outlet.Answers], by simp⟩
  | cons line lines ih =>
      obtain ⟨taken, d, hpublish, hoffers, hanswer, hanswered⟩ := publish_of_handles (h 0 line rfl)
      obtain ⟨hpolicy, hdeliveries⟩ := o.gains_noting d
      have hrest : r.HandlesAll (o.noting d) lines := by
        intro k line' hk
        have hlater := h (k + 1) line' hk
        rw [hdeliveries, List.length_append, List.length_singleton, Nat.add_assoc, Nat.add_comm 1]
        exact hlater.congr hpolicy
      obtain ⟨ds, hall, hoffers', hanswers, hanswered'⟩ := ih hrest
      refine ⟨d :: ds, ?_, .cons hoffers hoffers', ?_,
        List.forall_mem_cons.2 ⟨hanswered, hanswered'⟩⟩
      · simp only [publishAll, hpublish, hall, Outlet.notingAll_cons]
      · intro k d' hk
        cases k with
        | zero => exact Option.some.inj hk ▸ hanswer
        | succ k =>
            have hlater := hanswers k d' hk
            rwa [hpolicy, hdeliveries, List.length_append, List.length_singleton, Nat.add_assoc,
              Nat.add_comm 1] at hlater

/-- The first lines are published, the next one is lost without being counted, and those behind it are
not published. -/
def LosesFrom (r : Relay) (k : Nat) (lines : List (Entry × Bytes)) (o o' : Outlet) : Prop :=
  ∃ ds lost, o' = (o.notingAll ds).extend lost ∧ List.Forall₂ r.Offers (lines.take k) ds ∧
    (∀ d ∈ ds, d.IsAnswered) ∧ lost.length ≤ 1 ∧
      ∀ d ∈ lost, (∃ line, lines[k]? = some line ∧ r.Offers line d) ∧ ¬ d.IsAnswered

/-- Lines are published up to the first that is not answered. -/
theorem publishAll_of_not_handles {k : Nat} (hk : lines[k]? = some line)
    (hbefore : r.HandlesAll o (lines.take k)) (h : ¬ r.Handles o (o.deliveries.length + k) line) :
    ∃ f o', r.publishAll lines o = (some f, o') ∧ r.LosesFrom k lines o o' := by
  obtain ⟨ds, hall, hoffers, -, hanswered⟩ := publishAll_of_handlesAll hbefore
  obtain ⟨hpolicy, hdeliveries⟩ := o.gains_notingAll ds
  have hlt : k < lines.length := (List.getElem?_eq_some_iff.1 hk).1
  have hlength : ds.length = k := by
    rw [← hoffers.length_eq, List.length_take]
    omega
  have hnot : ¬ r.Handles (o.notingAll ds) (o.notingAll ds).deliveries.length line := by
    rw [hdeliveries, List.length_append, hlength]
    exact fun hhandles => h (hhandles.congr hpolicy.symm)
  obtain ⟨f, lost, hpublish, hone, hlost⟩ := publish_of_not_handles hnot
  refine ⟨f, _, ?_, ds, lost, rfl, hoffers, hanswered, hone, ?_⟩
  · have hsplit : lines = lines.take k ++ line :: lines.drop (k + 1) := by
      rw [← (List.getElem?_eq_some_iff.1 hk).2, List.getElem_cons_drop, List.take_append_drop]
    rw [hsplit, publishAll_append, hall]
    simp only [publishAll, hpublish]
  · intro d hd
    obtain ⟨hoffer, hunanswered⟩ := hlost d hd
    exact ⟨⟨line, hk, hoffer⟩, hunanswered⟩

/-- The lines before the one that is lost are accounted for. -/
theorem LosesFrom.accountsFor {k : Nat} (h : r.LosesFrom k lines o o') (hk : k ≤ lines.length) :
    o.AccountsFor o' k := by
  obtain ⟨ds, lost, rfl, hoffers, -, -, hlost⟩ := h
  have hlength : ds.length = k := by
    rw [← hoffers.length_eq, List.length_take]
    omega
  rw [← hlength]
  exact o.accountsFor_notingAll ds fun d hd => (hlost d hd).2

/-- Some lines are all answered, or there is a first one that is not. -/
theorem handlesAll_or_exists (r : Relay) (o : Outlet) (lines : List (Entry × Bytes)) :
    r.HandlesAll o lines ∨ ∃ k line, lines[k]? = some line ∧ r.HandlesAll o (lines.take k) ∧
      ¬ r.Handles o (o.deliveries.length + k) line := by
  by_cases h : r.HandlesAll o lines
  · exact .inl h
  · right
    have hsome : ∃ k line, lines[k]? = some line ∧ ¬ r.Handles o (o.deliveries.length + k) line := by
      rw [HandlesAll] at h
      push Not at h
      exact h
    classical
    obtain ⟨line, hk, hnot⟩ := Nat.find_spec hsome
    refine ⟨Nat.find hsome, line, hk, fun i line' hi => ?_, hnot⟩
    by_contra hnot'
    have hlt : i < Nat.find hsome := by
      by_contra hge
      rw [List.getElem?_take_eq_none (by omega)] at hi
      cases hi
    rw [List.getElem?_take_of_lt hlt] at hi
    exact Nat.find_min hsome hlt ⟨line', hi, hnot'⟩

/-! ## Relays whose broker does not take everything -/

/-- The lines of a stream, each with the entry that completes it. -/
def linesOf (r : Relay) (s : Supply) : List (Entry × Bytes) :=
  (segments (s.entries r.limit).1).map fun g => (g.last, g.bytes)

variable {id : Text}

/-- A relay publishes the lines of its stream, up to the first that is not answered, and ends.  If none
is lost it ends without a failure, unless the stream has one that does not merely end a relay. -/
theorem run_eq (hr : r.IsFresh) (s : Supply) (failure closeFailure : Option Outage) (o : Outlet) :
    (∀ line ∈ r.linesOf s, Entry.fitsTime line.1.time = true) ∧
      ∃ r' failure', r.run (.ok { source := .supply s failure, closeFailure }) o =
          (r', (r.publishAll (r.linesOf s) o).2) ∧
        r'.place = .ended failure' ∧
        ((∀ x ∈ failure, (Failure.outage x).endsRelay = true) →
          (∀ x ∈ closeFailure, x.kind = .system) →
            (r.publishAll (r.linesOf s) o).1 = none → failure' = none) := by
  obtain ⟨es, r', failure', hes, htimes, hsettle, hended, hnone⟩ := settle_reading_eq hr.finished s
    .empty [] .inactive none { source := .supply s failure, closeFailure } rfl o
  have hentries : (s.entries r.limit).1 = es := hes
  have hlines : Aggregator.inactive.lines none es = r.linesOf s := by
    rw [lines_eq_segments, linesOf, hentries]
  have hopened : r.opened (.ok { source := .supply s failure, closeFailure }) =
      r.moved .inactive none (.reading .empty) { source := .supply s failure, closeFailure } := by
    rw [opened, moved, ← hr.aggregator, ← hr.lastEntry]
  rw [hlines] at hsettle hnone
  refine ⟨fun line hline => ?_, r', failure', ?_, hended, hnone⟩
  · rw [← hlines] at hline
    rcases Aggregator.mem_or_mem_of_mem_lines _ _ hline with hmem | hmem
    · cases hmem
    · exact htimes _ hmem
  · rw [run, hopened, hsettle]

/-- A civil broker answers each line whose time fits in 64 bits, if the container's identifier is a text
that has bytes. -/
theorem handlesAll_of_isCivil (hid : r.container.id = .str id) (hs : id.hasSurrogate = false)
    (ho : o.IsCivil) (ht : ∀ line ∈ lines, Entry.fitsTime line.1.time = true) :
    r.HandlesAll o lines := by
  intro k line hk
  obtain ⟨send, hsend⟩ := r.publisher.exists_message (r := r.record line.1 line.2) hid hs
    (ht line (List.mem_of_getElem? hk))
  exact ⟨send, hsend, fun outage hanswer => ho _ _ outage hanswer⟩

theorem reported_of_offers {ds : List Delivery} (h : List.Forall₂ r.Offers lines ds) :
    ∀ d ∈ ds, d.reported = r.publisher.reports := by
  induction h with
  | nil => simp
  | cons hoffer _ ih => exact List.forall_mem_cons.2 ⟨hoffer.reported, ih⟩

/-- What is sent for some lines does not depend on who offers them when. -/
theorem sends_eq {ds ds' : List Delivery} (h : List.Forall₂ r.Offers lines ds)
    (h' : List.Forall₂ r.IsCallFor lines ds') : ds'.map (·.send) = ds.map (·.send) := by
  induction h generalizing ds' with
  | nil =>
      cases h'
      rfl
  | cons hoffer _ ih =>
      obtain ⟨d', ds'', hcall, hrest, rfl⟩ := List.forall₂_cons_left_iff.1 h'
      have hsame : r.publisher.message _ = .ok d'.send := hcall.record ▸ hcall.message
      rw [← hoffer.record, hoffer.message] at hsame
      rw [List.map_cons, List.map_cons, ih hrest, ← Except.ok.inj hsame]

/-- **A refusal costs a relay the record that was refused, and nothing else.**  If the broker fails only
in its own way, and the stream only in that it ends, holds something else than a frame, or cannot be
read on or closed because of the operating system, then the relay publishes each of its lines once, in
order, as it does with a broker that takes them all, and ends without a failure.  Each refusal is
counted, kept in the log of failures and, if that is wished, reported with its record. -/
theorem run_refused (hr : r.IsFresh) (hid : r.container.id = .str id) (hs : id.hasSurrogate = false)
    (ho : o.IsCivil) (s : Supply) (failure closeFailure : Option Outage)
    (hread : ∀ x ∈ failure, x.kind = .system) (hclose : ∀ x ∈ closeFailure, x.kind = .system) :
    ∃ r' ds, r.run (.ok { source := .supply s failure, closeFailure }) o = (r', o.notingAll ds) ∧
      r'.place = .ended none ∧ List.Forall₂ r.Offers (r.linesOf s) ds ∧ o.Answers ds ∧
      (∀ willing : Outlet, willing.IsWilling → ∃ r'' ds',
        r.run (.ok { source := .supply s failure, closeFailure }) willing =
            (r'', willing.extend ds') ∧ ds'.map (·.send) = ds.map (·.send)) ∧
      (∀ c, (o.notingAll ds).metrics.count c =
        o.metrics.count c + if c = .failed then (refusalsOf ds).length else 0) ∧
      (o.notingAll ds).failures.total = o.failures.total + (refusalsOf ds).length ∧
      (o.notingAll ds).reports =
        o.reports ++ if r.publisher.reports then refusalsOf ds else [] := by
  obtain ⟨htimes, r', failure', hrun, hended, hnone⟩ := run_eq hr s failure closeFailure o
  obtain ⟨ds, hall, hoffers, hanswers, -⟩ :=
    publishAll_of_handlesAll (handlesAll_of_isCivil hid hs ho htimes)
  rw [hall] at hrun hnone
  obtain rfl := hnone (fun x hx => by simp [Failure.endsRelay, Failure.nature, Outage.nature,
    hread x hx]) hclose rfl
  refine ⟨r', ds, hrun, hended, hoffers, hanswers, fun willing hwilling => ?_, o.count_notingAll ds,
    o.total_notingAll ds, o.reports_notingAll ds (reported_of_offers hoffers)⟩
  obtain ⟨-, r'', -, hrun', -⟩ := run_eq hr s failure closeFailure willing
  obtain ⟨ds', hcalls, hall'⟩ := publishAll_eq hid hs hwilling htimes
  rw [hall'] at hrun'
  exact ⟨r'', ds', hrun', sends_eq hoffers hcalls⟩

/-- The broker refuses the first of two records: both are sent, and one failure is counted and
reported. -/
theorem run_refused_first : ∃ (o : Outlet) (bs : Bytes) (r' : Relay) (ds : List Delivery),
    plain.run (.ok { source := .supply (.ofBytes bs none) none }) o = (r', o.notingAll ds) ∧
      r'.place = .ended none ∧ ds.length = 2 ∧ (o.notingAll ds).failures.total = 1 ∧
      (o.notingAll ds).reports = refusalsOf ds := by
  let o : Outlet := { policy := fun n _ => if n = 0 then some ⟨.broker, []⟩ else none }
  let bs : Bytes := Frame.wrap [26, 1, 97] ++ Frame.wrap [26, 1, 98]
  have ho : o.IsCivil := by
    intro n s outage h
    simp only [o] at h
    split_ifs at h
    exact Option.some.inj h ▸ rfl
  obtain ⟨r', ds, hrun, hended, -, -, -, -, -, hreports⟩ := run_refused (r := plain) (o := o)
    ⟨rfl, rfl, rfl⟩ rfl (by decide) ho (.ofBytes bs none) none none (by simp) (by simp)
  have hvalue : (plain.run (.ok { source := .supply (.ofBytes bs none) none }) o).2.deliveries.length
      = 2 ∧ (plain.run (.ok { source := .supply (.ofBytes bs none) none }) o).2.failures.total =
        1 := by
    decide +kernel
  rw [hrun] at hvalue
  refine ⟨o, bs, r', ds, hrun, hended, ?_, hvalue.2, ?_⟩
  · simpa [(o.gains_notingAll ds).deliveries, o] using hvalue.1
  · simpa [plain, o] using hreports

/-- **A line that is not answered is lost without being counted, and so are those behind it.**  A relay
publishes the lines of its stream and ends, whatever the broker does.  Each line is taken by the broker
or counted as a failure just if there is a message for each, and the broker takes or refuses that.
Otherwise the lines before the first one for which it is different are published, that one is neither
taken nor counted, and those behind it are not handed to the broker. -/
theorem run_accounts (hr : r.IsFresh) (s : Supply) (failure closeFailure : Option Outage)
    (o : Outlet) :
    ∃ r' o', r.run (.ok { source := .supply s failure, closeFailure }) o = (r', o') ∧
      (∃ failure', r'.place = .ended failure') ∧
      (o.AccountsFor o' (r.linesOf s).length ↔ r.HandlesAll o (r.linesOf s)) ∧
      (r.HandlesAll o (r.linesOf s) →
        ∃ ds, o' = o.notingAll ds ∧ List.Forall₂ r.Offers (r.linesOf s) ds ∧ o.Answers ds) ∧
      ∀ k line, (r.linesOf s)[k]? = some line → r.HandlesAll o ((r.linesOf s).take k) →
        ¬ r.Handles o (o.deliveries.length + k) line → r.LosesFrom k (r.linesOf s) o o' := by
  obtain ⟨-, r', failure', hrun, hended, -⟩ := run_eq hr s failure closeFailure o
  -- the outlet when a line is lost
  have hlosing {k : ℕ} {line : Entry × Bytes} (hk : (r.linesOf s)[k]? = some line)
      (hbefore : r.HandlesAll o ((r.linesOf s).take k))
      (hnot : ¬ r.Handles o (o.deliveries.length + k) line) :
      r.LosesFrom k (r.linesOf s) o (r.publishAll (r.linesOf s) o).2 := by
    obtain ⟨f, o', hall, hloses⟩ := publishAll_of_not_handles hk hbefore hnot
    rw [hall]
    exact hloses
  have hall (h : r.HandlesAll o (r.linesOf s)) : ∃ ds,
      (r.publishAll (r.linesOf s) o).2 = o.notingAll ds ∧
        List.Forall₂ r.Offers (r.linesOf s) ds ∧ o.Answers ds := by
    obtain ⟨ds, hall, hoffers, hanswers, -⟩ := publishAll_of_handlesAll h
    exact ⟨ds, congrArg Prod.snd hall, hoffers, hanswers⟩
  refine ⟨r', _, hrun, ⟨failure', hended⟩, ⟨fun haccounts => ?_, fun h => ?_⟩, hall,
    fun k line => hlosing⟩
  · rcases r.handlesAll_or_exists o (r.linesOf s) with h | ⟨k, line, hk, hbefore, hnot⟩
    · exact h
    · -- a lost line is missing from the sum
      have hlt := (List.getElem?_eq_some_iff.1 hk).1
      have hsum := (hlosing hk hbefore hnot).accountsFor hlt.le
      exact absurd (hsum.unique haccounts) hlt.ne
  · obtain ⟨ds, heq, hoffers, -⟩ := hall h
    rw [heq, hoffers.length_eq]
    simpa using o.accountsFor_notingAll ds (List.forall_mem_nil _)

/-- The operating system fails at the call for the first of two records: that record is not counted, and
the other one is not sent. -/
theorem run_accounts_system : ∃ (o : Outlet) (s : Supply) (r' : Relay) (o' : Outlet),
    plain.run (.ok { source := .supply s none }) o = (r', o') ∧ (plain.linesOf s).length = 2 ∧
      ¬ o.AccountsFor o' 2 ∧ plain.LosesFrom 0 (plain.linesOf s) o o' := by
  let o : Outlet := { policy := fun n _ => if n = 0 then some ⟨.system, []⟩ else none }
  let s : Supply := .ofBytes (Frame.wrap [26, 1, 97] ++ Frame.wrap [26, 1, 98]) none
  have hlength : (plain.linesOf s).length = 2 := by decide +kernel
  obtain ⟨line, hline⟩ : ∃ line, (plain.linesOf s)[0]? = some line :=
    ⟨_, List.getElem?_eq_getElem (by omega)⟩
  have hnot : ¬ plain.Handles o 0 line := by
    rintro ⟨send, -, hanswer⟩
    cases hanswer _ rfl
  obtain ⟨r', o', hrun, -, hiff, -, hloses⟩ := run_accounts (r := plain) ⟨rfl, rfl, rfl⟩ s none none o
  refine ⟨o, s, r', o', hrun, hlength, ?_, hloses 0 line hline (by simp [HandlesAll]) hnot⟩
  rw [← hlength, hiff]
  exact fun hall => hnot (hall 0 line hline)

end Relay

end LogRelay
