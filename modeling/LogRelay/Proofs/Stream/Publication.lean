import LogRelay.Proofs.Calendar.Timestamp
import LogRelay.Proofs.Entry.Payload
import LogRelay.Proofs.Frame.Entries
import LogRelay.Proofs.Record.Document
import LogRelay.Proofs.Stream.Segmentation
import LogRelay.Stream.Relay
import Mathlib.Data.List.Forall2
/-!
# What a relay publishes

A relay whose stream can be opened, and whose broker takes every record, publishes the lines of the
entries that it reads, one record for each line, in order, and nothing else; then it ends.

## Main definitions

* `Outlet.IsWilling`: the broker takes every record.
* `Relay.IsCallFor`: a call of the broker publishes a line.
* `Relay.Publishes`: all that such a call hands to the broker, and the record that it is made for.
* `Relay.publishAll`: lines one after the other, up to the first that fails.

## Main statements

* `publish_eq`: a line is published.
* `settle_reading_eq`: what a relay publishes from some place in its stream on, whatever the broker
  does.
* `settle_reading`: what it publishes from there on to a willing broker.
* `run_publishes`: what a relay publishes of a stream.
-/
namespace LogRelay

/-- The broker takes every record. -/
def Outlet.IsWilling (o : Outlet) : Prop :=
  ∀ n s, o.policy n s = none

/-- The outlet after further calls. -/
def Outlet.extend (o : Outlet) (ds : List Delivery) : Outlet :=
  { o with deliveries := o.deliveries ++ ds }

@[simp] theorem Outlet.extend_nil (o : Outlet) : o.extend [] = o := by
  simp [extend]

@[simp] theorem Outlet.extend_extend (o : Outlet) (ds es : List Delivery) :
    (o.extend ds).extend es = o.extend (ds ++ es) := by
  simp [extend]

theorem Outlet.IsWilling.extend {o : Outlet} (ho : o.IsWilling) (ds : List Delivery) :
    (o.extend ds).IsWilling := ho

/-- The outlet sends what the broker takes. -/
theorem Outlet.send_eq {o : Outlet} (ho : o.IsWilling) (s : Send) (r : Record Json)
    (reported : Bool) : o.send s r reported = (.ok true, o.extend [⟨s, r, reported, none⟩]) := by
  simp [send, ho _ _, extend]

/-- There is a message for a record whose time fits in 64 bits and whose identifier is a text that has
bytes. -/
theorem Publisher.exists_message (p : Publisher) {r : Record Json} {id : Text}
    (hid : r.containerId = .str id) (hs : id.hasSurrogate = false)
    (ht : Entry.fitsTime r.time = true) : ∃ send, p.message r = .ok send := by
  simp only [Entry.fitsTime, decide_eq_true_eq] at ht
  obtain ⟨t, hformat, -⟩ := Timestamp.exists_format ht.1 ht.2
  have hdoc : ∃ value, r.document = .ok value := by
    simp [Record.document, Record.toJson, hformat, bind, Except.bind, pure, Except.pure]
  obtain ⟨value, hvalue⟩ := hdoc
  have hkey : ∃ key, p.strategy.key r = .ok key := by
    cases p.strategy with
    | byTime => simp [KeyStrategy.key, hformat, Except.map, Except.mapError]
    | byContainer =>
        simp [KeyStrategy.key, KeyStrategy.encodeLabel, hid, unencodable?_eq_none_iff.2 hs,
          Except.map]
    | unkeyed => exact ⟨none, rfl⟩
  obtain ⟨key, hkey⟩ := hkey
  exact ⟨_, by rw [message, hvalue, hkey]; rfl⟩

namespace Relay

/-- The call publishes a line that an entry completes: its record is that of the line, it sends the
message of that, and the broker takes it. -/
structure IsCallFor (r : Relay) (line : Entry × Bytes) (d : Delivery) : Prop where
  record : d.record = r.record line.1 line.2
  message : r.publisher.message d.record = .ok d.send
  reported : d.reported = r.publisher.reports
  accepted : d.refusal = none

/-- The key of a record of the relay's container that has the given timestamp. -/
def keyOf (r : Relay) (timestamp : Text) : Option Bytes :=
  match r.publisher.strategy with
  | .byTime => some timestamp.toBytes
  | .byContainer => r.container.id.str?.map (·.flatMap Utf8.encodePoint)
  | .unkeyed => none

/-- The call publishes the line of a group of entries.  Its record has the text of the line, the origin
of the last entry, and the container; it sends the document of that to the publisher's topic, with the
publisher's tag, and the broker takes it. -/
structure Publishes (r : Relay) (g : Segment) (d : Delivery) : Prop where
  record : d.record = {
    line := Utf8.decodeLossy g.bytes
    source := g.last.source
    isPartial := g.last.isPartial
    time := g.last.time
    containerId := r.container.id
    containerName := r.container.name
    imageName := r.container.imageName
    imageId := r.container.imageId
    hostname := r.hostname }
  send : ∃ timestamp, Timestamp.format g.last.time = .ok timestamp ∧ d.send = {
    topic := r.publisher.topic
    value := (Json.obj [
      ("line", .str (Utf8.decodeLossy g.bytes)),
      ("source", .str g.last.source),
      ("partial", .bool g.last.isPartial),
      ("timestamp", .str timestamp),
      ("containerId", r.container.id),
      ("containerName", .str r.container.name),
      ("containerImageName", r.container.imageName),
      ("containerImageId", r.container.imageId),
      ("hostname", .str r.hostname)]).render.toBytes
    key := r.keyOf timestamp
    tag := r.publisher.tag }
  reported : d.reported = r.publisher.reports
  accepted : d.refusal = none

/-- The key that the publisher chooses for the record of a line. -/
theorem eq_keyOf {r : Relay} {e : Entry} {line : Bytes} {timestamp : Text} {key : Option Bytes}
    (hformat : Timestamp.format e.time = .ok timestamp)
    (h : r.publisher.strategy.key (r.record e line) = .ok key) : key = r.keyOf timestamp := by
  rw [keyOf]
  rw [record, Record.build] at h
  cases hs : r.publisher.strategy with
  | byTime =>
      rw [hs, KeyStrategy.key, hformat] at h
      exact (Except.ok.inj h).symm
  | byContainer =>
      rw [hs, KeyStrategy.key] at h
      cases hid : r.container.id with
      | str id =>
          simp only [KeyStrategy.encodeLabel, hid] at h
          cases hu : id.unencodable? with
          | none =>
              rw [hu] at h
              exact (Except.ok.inj h).symm
          | some refusal =>
              rw [hu] at h
              cases h
      | null | bool | int | float | arr | obj =>
          rw [hid] at h
          cases h
  | unkeyed =>
      rw [hs] at h
      exact (Except.ok.inj h).symm

/-- The call for the line of a group is made for the record of that line, and sends its document. -/
theorem IsCallFor.publishes {r : Relay} {g : Segment} {d : Delivery}
    (h : r.IsCallFor (g.last, g.bytes) d) : r.Publishes g d := by
  refine ⟨h.record, ?_, h.reported, h.accepted⟩
  have hmessage := h.message
  rw [h.record, Publisher.message] at hmessage
  cases hformat : Timestamp.format g.last.time with
  | error e =>
      have hdoc : (r.record g.last g.bytes).document = .error e := by
        rw [Record.document, Record.toJson, Relay.record, Record.build, hformat]
        rfl
      rw [hdoc] at hmessage
      cases hmessage
  | ok timestamp =>
      have hdoc := Record.document_eq (r := r.record g.last g.bytes) hformat
      rw [hdoc] at hmessage
      cases hkey : r.publisher.strategy.key (r.record g.last g.bytes) with
      | error f =>
          rw [hkey] at hmessage
          cases hmessage
      | ok key =>
          rw [hkey] at hmessage
          obtain rfl := eq_keyOf hformat hkey
          exact ⟨timestamp, rfl, (Except.ok.inj hmessage).symm⟩

/-- The relay at another place, with other pieces of a line. -/
def moved (r : Relay) (aggregator : Aggregator) (lastEntry : Option Entry) (place : Place)
    (stream : Stream) : Relay :=
  { r with aggregator, lastEntry, place, stream := some stream }

variable {r : Relay} {id : Text} {o : Outlet}

/-- A line is published. -/
theorem publish_eq (hid : r.container.id = .str id) (hs : id.hasSurrogate = false)
    (ho : o.IsWilling) {e : Entry} (ht : Entry.fitsTime e.time = true) (line : Bytes) :
    ∃ d, r.IsCallFor (e, line) d ∧ r.publish e line o = (.ok true, o.extend [d]) := by
  obtain ⟨send, hsend⟩ := r.publisher.exists_message (r := r.record e line) hid hs ht
  refine ⟨⟨send, r.record e line, r.publisher.reports, none⟩, ⟨rfl, hsend, rfl, rfl⟩, ?_⟩
  rw [publish, Publisher.publish, hsend]
  exact Outlet.send_eq ho _ _ _

/-- A relay goes on as after its next step. -/
theorem settle_of_step {r' : Relay} {o' : Outlet} (h : r.step o = some (r', o')) :
    r.settle o = r'.settle o' := by
  rw [settle]
  split <;> simp_all

theorem settle_of_none (h : r.step o = none) : r.settle o = (r, o) := by
  rw [settle]
  split <;> simp_all

/-! ## Lines one after the other -/

/-- Publish lines, one after the other, up to the first that fails. -/
def publishAll (r : Relay) : List (Entry × Bytes) → Outlet → Option Failure × Outlet
  | [], o => (none, o)
  | line :: lines, o =>
    match r.publish line.1 line.2 o with
    | (.ok _, o) => r.publishAll lines o
    | (.error f, o) => (some f, o)

/-- Lines that follow others are published unless one of those fails. -/
theorem publishAll_append (lines more : List (Entry × Bytes)) (o : Outlet) :
    r.publishAll (lines ++ more) o =
      match r.publishAll lines o with
      | (none, o) => r.publishAll more o
      | (some f, o) => (some f, o) := by
  induction lines generalizing o with
  | nil => rfl
  | cons line lines ih =>
      simp only [List.cons_append, publishAll]
      split
      · exact ih _
      · rfl

/-- A willing broker takes all lines. -/
theorem publishAll_eq (hid : r.container.id = .str id) (hs : id.hasSurrogate = false)
    (ho : o.IsWilling) {lines : List (Entry × Bytes)}
    (ht : ∀ line ∈ lines, Entry.fitsTime line.1.time = true) :
    ∃ ds, List.Forall₂ r.IsCallFor lines ds ∧ r.publishAll lines o = (none, o.extend ds) := by
  induction lines generalizing o with
  | nil => exact ⟨[], .nil, by rw [publishAll, Outlet.extend_nil]⟩
  | cons line lines ih =>
      obtain ⟨hline, hlines⟩ := List.forall_mem_cons.1 ht
      obtain ⟨d, hcall, hpub⟩ := publish_eq hid hs ho hline line.2
      obtain ⟨ds, hcalls, hall⟩ := ih (ho.extend [d]) hlines
      refine ⟨d :: ds, .cons hcall hcalls, ?_⟩
      simp only [publishAll, hpub, hall, Outlet.extend_extend, List.singleton_append]

/-! ## The end of the reading -/

/-- A relay that closes its stream ends as it was to, unless the stream fails at that in another way
than that the operating system does. -/
theorem settle_closing {failure : Option Failure} (hp : r.place = .closing failure) (o : Outlet) :
    ∃ r' failure', r.settle o = (r', o) ∧ r'.place = .ended failure' ∧
      ((∀ st ∈ r.stream, ∀ x ∈ st.closeFailure, x.kind = .system) → failure' = failure) := by
  have hstep : r.step o = some (r.close failure, o) := by
    simp only [step, hp]
  have hended : ∃ failure', (r.close failure).place = .ended failure' ∧
      ((∀ st ∈ r.stream, ∀ x ∈ st.closeFailure, x.kind = .system) → failure' = failure) := by
    rw [close]
    cases hst : r.stream with
    | none => exact ⟨failure, rfl, fun _ => rfl⟩
    | some st =>
        refine ⟨_, rfl, fun hclose => ?_⟩
        cases hx : st.closeFailure with
        | none => simp [Stream.close, hx]
        | some x => simp [Stream.close, hx, Failure.nature, Outage.nature, hclose st rfl x hx]
  obtain ⟨failure', hplace, hsame⟩ := hended
  refine ⟨r.close failure, failure', ?_, hplace, hsame⟩
  rw [settle_of_step hstep, settle_of_none]
  simp only [step, hplace]

/-! ## The steps of the reading -/

/-- Where a relay stands after a chunk. -/
def Place.after : Frame.Progress → Place
  | .more a => .reading a
  | .entry e => .holding e
  | .ended => .leaving none
  | .broken e => .leaving (Failure.unhandled (.frame e))

/-- An entry that a chunk completes has a time of 64 bits. -/
theorem fitsTime_of_feed {limit : Int} {a : Frame.Assembly} {chunk : Bytes} {e : Entry}
    (h : a.feed limit chunk = .entry e) : Entry.fitsTime e.time = true := by
  have hconclude {message : Bytes} (h : Frame.Assembly.conclude message = .entry e) :
      Entry.fitsTime e.time = true := by
    rw [Frame.Assembly.conclude] at h
    split at h <;> cases h
    exact Entry.fitsTime_of_ofPayload? ‹_›
  obtain ⟨length, got⟩ := a
  simp only [Frame.Assembly.feed, Frame.Assembly.stop, Frame.Assembly.afterHeader] at h
  cases length with
  | none =>
      simp only at h
      split_ifs at h
      exact hconclude h
  | some length =>
      simp only at h
      split_ifs at h
      exact hconclude h

/-- A supply that has bytes, or does not fail after them, hands out bytes. -/
theorem read_supply {s : Supply} (failure : Option Outage) (h : s.unread ≠ [] ∨ failure = none)
    (stopping : Bool) (n : Nat) : (Source.supply s failure).read stopping n =
      .returned (s.offer n) (.supply (s.advance n) failure) := by
  simp only [Source.read]
  split
  · simp_all
  · rfl

variable {s : Supply} {failure : Option Outage} {st : Stream} {a : Frame.Assembly}

/-- A chunk that is read is fed to the frame at hand. -/
theorem step_returned {chunk : Bytes} {rest : Source}
    (h : st.source.read r.stopping a.wanted = .returned chunk rest) (g : Aggregator)
    (last : Option Entry) (o : Outlet) :
    (r.moved g last (.reading a) st).step o =
      some (r.moved g last (.after (a.feed r.limit chunk)) { st with source := rest }, o) := by
  have hstep : (r.moved g last (.reading a) st).step o =
      ((r.moved g last (.reading a) st).read st a).map (·, o) := rfl
  rw [hstep, read]
  simp only [moved, h, Option.map_some]
  rfl

/-- A read that gets a chunk takes it from the supply. -/
theorem step_fed (hst : st.source = .supply s failure) (h : s.offer a.wanted ≠ [])
    (g : Aggregator) (last : Option Entry) (o : Outlet) :
    (r.moved g last (.reading a) st).step o =
      some (r.moved g last (.after (a.feed r.limit (s.offer a.wanted)))
        { st with source := .supply (s.advance a.wanted) failure }, o) := by
  have hmore : s.unread ≠ [] := by
    intro hunread
    simp [Supply.offer, hunread] at h
  have hread := read_supply failure (.inl hmore) r.stopping a.wanted
  rw [← hst] at hread
  exact step_returned hread g last o

/-- A read that gets nothing ends the reading, with a failure only if the stream fails in a way that
does not merely end a relay. -/
theorem step_starved (hst : st.source = .supply s failure) (h : s.offer a.wanted = [])
    (g : Aggregator) (last : Option Entry) (o : Outlet) : ∃ f st',
    (r.moved g last (.reading a) st).step o = some (r.moved g last (.leaving f) st', o) ∧
      st'.closeFailure = st.closeFailure ∧
      ((∀ x ∈ failure, (Failure.outage x).endsRelay = true) → f = none) := by
  by_cases hmore : s.unread ≠ [] ∨ failure = none
  · have hread := read_supply failure hmore r.stopping a.wanted
    rw [← hst, h] at hread
    have hstep := step_returned hread g last o
    rcases feed_nil r.limit a with ⟨e, hfeed⟩ | hfeed
    · rw [hfeed] at hstep
      exact ⟨_, _, hstep, rfl, fun _ => rfl⟩
    · rw [hfeed] at hstep
      exact ⟨_, _, hstep, rfl, fun _ => rfl⟩
  · obtain ⟨hunread, hfailure⟩ := not_or.1 hmore
    obtain ⟨outage, rfl⟩ := Option.ne_none_iff_exists'.1 hfailure
    have hread : st.source.read r.stopping a.wanted = .failed outage := by
      simp [hst, Source.read, not_not.1 hunread]
    have hstep : (r.moved g last (.reading a) st).step o =
        ((r.moved g last (.reading a) st).read st a).map (·, o) := rfl
    refine ⟨Failure.unhandled (.outage outage), st, ?_, rfl, fun hends => ?_⟩
    · rw [hstep, read]
      simp only [moved, hread, Option.map_some]
    · rw [Failure.unhandled, if_pos (hends outage rfl)]

section

variable (hf : r.finished = false)

include hf

/-- What is left is published as a line of the last entry. -/
theorem leave_eq (g : Aggregator) (last : Option Entry) (failure : Option Failure) (st : Stream)
    (o : Outlet) :
    (r.moved g last (.leaving failure) st).leave failure o =
      match r.publishAll (g.lines last []) o with
      | (none, o) => ({ r.moved .inactive last (.closing failure) st with finished := true }, o)
      | (some f, o) =>
        ({ r.moved .inactive last (.ended (some f)) st with finished := true }, o) := by
  have hopen : ¬ (r.moved g last (.leaving failure) st).finished = true := by
    simp [moved, hf]
  rw [leave, finish, if_neg hopen]
  cases g with
  | inactive => rfl
  | active bs =>
      cases last with
      | none => rfl
      | some e =>
          have hsame : ({ r.moved .inactive (some e) (.leaving failure) st with
              finished := true } : Relay).publish e bs o = r.publish e bs o := rfl
          simp only [moved] at hsame
          simp only [Aggregator.lines, Aggregator.flush, publishAll, moved, hsame]
          cases hpub : r.publish e bs o with
          | mk answer o' => cases answer <;> rfl

/-- A relay that leaves publishes what is left and ends. -/
theorem settle_leaving (g : Aggregator) (last : Option Entry) (failure : Option Failure)
    (st : Stream) (o : Outlet) :
    ∃ r' failure', (r.moved g last (.leaving failure) st).settle o =
        (r', (r.publishAll (g.lines last []) o).2) ∧ r'.place = .ended failure' ∧
      ((∀ x ∈ st.closeFailure, x.kind = .system) → (r.publishAll (g.lines last []) o).1 = none →
        failure' = failure) := by
  have hstep : (r.moved g last (.leaving failure) st).step o =
      some ((r.moved g last (.leaving failure) st).leave failure o) := rfl
  rw [leave_eq hf] at hstep
  cases hpub : r.publishAll (g.lines last []) o with
  | mk lost o' =>
      rw [hpub] at hstep
      cases lost with
      | none =>
          obtain ⟨r', failure', hsettle, hended, hsame⟩ := settle_closing
            (r := { r.moved .inactive last (.closing failure) st with finished := true }) rfl o'
          refine ⟨r', failure', (settle_of_step hstep).trans hsettle, hended, ?_⟩
          rintro hclose -
          refine hsame ?_
          rintro _ ⟨⟩
          exact hclose
      | some f =>
          refine ⟨_, some f, (settle_of_step hstep).trans (settle_of_none rfl), rfl, ?_⟩
          rintro - ⟨⟩

/-! ## Reading -/

/-- An entry that is read is joined to what is there, and the line that it completes is published. -/
theorem take_eq (g : Aggregator) (last : Option Entry) (e : Entry) (st : Stream) (o : Outlet) :
    (r.moved g last (.holding e) st).take e o =
      match r.publishAll ((g.process e).1.toList.map (e, ·)) o with
      | (none, o) => (r.moved (g.process e).2 (some e) (.reading .empty) st, o)
      | (some f, o) => (r.moved (g.process e).2 (some e) (.leaving f.unhandled) st, o) := by
  have hopen : ¬ (r.moved g last (.holding e) st).finished = true := by
    simp [moved, hf]
  rw [take, if_neg hopen]
  cases hline : (g.process e).1 with
  | none =>
      simp only [moved, hline]
      rfl
  | some line =>
      have hsame : (r.moved (g.process e).2 (some e) (.reading .empty) st).publish e line o =
          r.publish e line o := rfl
      simp only [moved] at hsame
      simp only [moved, hline, hsame, Option.toList_some, List.map_singleton, publishAll]
      cases hpub : r.publish e line o with
      | mk answer o' => cases answer <;> rfl

/-- What a relay publishes from some place in its stream on: the lines of the entries that are still
to be read, up to the first that fails. -/
theorem settle_reading_eq (s : Supply) (a : Frame.Assembly) (read : List Entry) (g : Aggregator)
    (last : Option Entry) (st : Stream) (hst : st.source = .supply s failure) (o : Outlet) :
    ∃ es r' failure', (s.entriesFrom r.limit a read).1 = read.reverse ++ es ∧
      (∀ e ∈ es, Entry.fitsTime e.time = true) ∧
      (r.moved g last (.reading a) st).settle o = (r', (r.publishAll (g.lines last es) o).2) ∧
      r'.place = .ended failure' ∧
      ((∀ x ∈ failure, (Failure.outage x).endsRelay = true) →
        (∀ x ∈ st.closeFailure, x.kind = .system) →
          (r.publishAll (g.lines last es) o).1 = none → failure' = none) := by
  induction s, a, read using Supply.entriesFrom.induct r.limit generalizing g last st o with
  | case1 s a read hoffer e hstop =>
      obtain ⟨f, st', hstep, hclose, hmild⟩ := step_starved (r := r) hst hoffer g last o
      obtain ⟨r', failure', hsettle, hended, hsame⟩ := settle_leaving hf g last f st' o
      refine ⟨[], r', failure', ?_, by simp, (settle_of_step hstep).trans hsettle, hended, ?_⟩
      · rw [Supply.entriesFrom, dif_pos hoffer, hstop, List.append_nil]
      · intro hread hst' hnone
        rw [hsame (hclose ▸ hst') hnone, hmild hread]
  | case2 s a read hoffer hstop =>
      obtain ⟨f, st', hstep, hclose, hmild⟩ := step_starved (r := r) hst hoffer g last o
      obtain ⟨r', failure', hsettle, hended, hsame⟩ := settle_leaving hf g last f st' o
      refine ⟨[], r', failure', ?_, by simp, (settle_of_step hstep).trans hsettle, hended, ?_⟩
      · rw [Supply.entriesFrom, dif_pos hoffer, List.append_nil]
        split <;> rfl
      · intro hread hst' hnone
        rw [hsame (hclose ▸ hst') hnone, hmild hread]
  | case3 s a read rest hoffer a' hfeed =>
      rename_i ih
      have hstep := step_fed (r := r) hst hoffer g last o
      rw [hfeed] at hstep
      rw [settle_of_step hstep, Supply.entriesFrom, dif_neg hoffer]
      simp only [hfeed]
      exact ih g last { st with source := .supply (s.advance a.wanted) failure } rfl o
  | case4 s a read rest hoffer e hfeed =>
      rename_i ih
      let st' : Stream := { st with source := .supply (s.advance a.wanted) failure }
      have hstep := step_fed (r := r) hst hoffer g last o
      rw [hfeed] at hstep
      have htake : (r.moved g last (.holding e) st').step o = _ :=
        congrArg some (take_eq hf g last e st' o)
      have hentries : (s.entriesFrom r.limit a read).1 =
          ((s.advance a.wanted).entriesFrom r.limit .empty (e :: read)).1 := by
        rw [Supply.entriesFrom, dif_neg hoffer]
        simp only [hfeed]
      have hlines (es : List Entry) : r.publishAll (g.lines last (e :: es)) o = _ :=
        publishAll_append ((g.process e).1.toList.map (e, ·)) ((g.process e).2.lines (some e) es) o
      cases hpub : r.publishAll ((g.process e).1.toList.map (e, ·)) o with
      | mk lost o' =>
          obtain ⟨es, r', failure', heq, htimes, hsettle, hended, hsame⟩ :=
            ih (g.process e).2 (some e) st' rfl o'
          have heq' : (s.entriesFrom r.limit a read).1 = read.reverse ++ (e :: es) := by
            rw [hentries, heq, List.reverse_cons, List.append_assoc]
            rfl
          have htimes' : ∀ e' ∈ e :: es, Entry.fitsTime e'.time = true :=
            List.forall_mem_cons.2 ⟨fitsTime_of_feed hfeed, htimes⟩
          have hline := hlines es
          simp only [hpub] at htake hline
          cases lost with
          | none =>
              refine ⟨e :: es, r', failure', heq', htimes', ?_, hended, ?_⟩
              · rw [settle_of_step hstep, Place.after, settle_of_step htake, hsettle, hline]
              · rw [hline]
                exact hsame
          | some f =>
              -- the group is closed by the line that fails, so that nothing is left
              have hinactive : (g.process e).2 = .inactive := by
                cases hprocess : (g.process e).1 with
                | none => simp [hprocess, publishAll] at hpub
                | some line => exact Aggregator.process_of_some hprocess
              obtain ⟨r'', failure'', hsettle', hended', -⟩ :=
                settle_leaving hf (g.process e).2 (some e) f.unhandled st' o'
              rw [hinactive] at hsettle'
              refine ⟨e :: es, r'', failure'', heq', htimes', ?_, hended', ?_⟩
              · rw [settle_of_step hstep, Place.after, settle_of_step htake, hinactive, hsettle',
                  hline]
                rfl
              · rw [hline]
                rintro - - ⟨⟩
  | case5 s a read hoffer hfeed =>
      have hstep := step_fed (r := r) hst hoffer g last o
      rw [hfeed] at hstep
      obtain ⟨r', failure', hsettle, hended, hsame⟩ := settle_leaving hf g last none
        { st with source := .supply (s.advance a.wanted) failure } o
      refine ⟨[], r', failure', ?_, by simp, (settle_of_step hstep).trans hsettle, hended,
        fun _ => hsame⟩
      rw [Supply.entriesFrom, dif_neg hoffer]
      simp only [hfeed, List.append_nil]
  | case6 s a read hoffer e hfeed =>
      have hstep := step_fed (r := r) hst hoffer g last o
      rw [hfeed] at hstep
      obtain ⟨r', failure', hsettle, hended, hsame⟩ := settle_leaving hf g last none
        { st with source := .supply (s.advance a.wanted) failure } o
      refine ⟨[], r', failure', ?_, by simp, (settle_of_step hstep).trans hsettle, hended,
        fun _ => hsame⟩
      rw [Supply.entriesFrom, dif_neg hoffer]
      simp only [hfeed, List.append_nil]

end

/-- What a relay publishes to a willing broker from some place in its stream on: the lines of the
entries that it still reads. -/
theorem settle_reading (hid : r.container.id = .str id) (hs : id.hasSurrogate = false)
    (hf : r.finished = false) (s : Supply) (a : Frame.Assembly) (read : List Entry)
    (g : Aggregator) {last : Option Entry} (hlast : ∀ e ∈ last, Entry.fitsTime e.time = true)
    (st : Stream) (hst : st.source = .supply s failure) (ho : o.IsWilling) :
    ∃ es ds r', (s.entriesFrom r.limit a read).1 = read.reverse ++ es ∧
      List.Forall₂ r.IsCallFor (g.lines last es) ds ∧
      (r.moved g last (.reading a) st).settle o = (r', o.extend ds) ∧
        ∃ failure', r'.place = .ended failure' := by
  obtain ⟨es, r', failure', heq, htimes, hsettle, hended, -⟩ :=
    settle_reading_eq hf s a read g last st hst o
  have ht : ∀ line ∈ g.lines last es, Entry.fitsTime line.1.time = true := by
    intro line hline
    rcases g.mem_or_mem_of_mem_lines es hline with hmem | hmem
    · exact hlast _ hmem
    · exact htimes _ hmem
  obtain ⟨ds, hcalls, hall⟩ := publishAll_eq hid hs ho ht
  rw [hall] at hsettle
  exact ⟨es, ds, r', heq, hcalls, hsettle, failure', hended⟩

/-- The relay has not read anything yet. -/
structure IsFresh (r : Relay) : Prop where
  aggregator : r.aggregator = .inactive
  lastEntry : r.lastEntry = none
  finished : r.finished = false

/-- A relay of the container `c` that publishes to the topic `t`. -/
def plain : Relay where
  file := .null
  container := { id := .str "c" }
  publisher := { topic := .str "t", strategy := .byContainer, tag := none, reports := true }
  tag := .null
  hostname := "h"
  limit := 100

/-- A relay publishes the lines of the entries that it reads, each once and in order, with the origin of
the last entry of each, loses none of their bytes, and ends.  The entries are those of the bytes of its
stream, whatever the schedule, as long as no read of a stream that has bytes gets none. -/
theorem run_publishes (hr : r.IsFresh) (hid : r.container.id = .str id)
    (hs : id.hasSurrogate = false) (ho : o.IsWilling) (s : Supply)
    (failure closeFailure : Option Outage) :
    ∃ r' ds, r.run (.ok { source := .supply s failure, closeFailure }) o = (r', o.extend ds) ∧
      (∃ failure', r'.place = .ended failure') ∧
      List.Forall₂ r.Publishes (segments (s.entries r.limit).1) ds ∧
      (segments (s.entries r.limit).1).flatMap Segment.bytes = joined (s.entries r.limit).1 ∧
      (s.IsGenerous → (s.entries r.limit).1 = entriesOf r.limit s.unread) := by
  obtain ⟨es, ds, r', hes, hcalls, hsettle, hended⟩ := settle_reading hid hs hr.finished
    s .empty [] .inactive (by simp : ∀ e ∈ (none : Option Entry), Entry.fitsTime e.time = true)
    { source := .supply s failure, closeFailure } rfl ho
  rw [lines_eq_segments, List.forall₂_map_left_iff] at hcalls
  have hentries : (s.entries r.limit).1 = es := hes
  have hopened : r.opened (.ok { source := .supply s failure, closeFailure }) =
      r.moved .inactive none (.reading .empty) { source := .supply s failure, closeFailure } := by
    rw [opened, moved, ← hr.aggregator, ← hr.lastEntry]
  refine ⟨r', ds, ?_, hended, ?_, flatMap_bytes_segments _, Supply.entries_eq r.limit⟩
  · rw [run, hopened, hsettle]
  · rw [hentries]
    exact hcalls.imp fun _ _ => IsCallFor.publishes

/-- Of two pieces of a line, and a third frame within which the stream fails, one line is published, with
the source and the time of the second piece. -/
theorem run_publishes_pieces : ∃ (s : Supply) (outage : Outage) (r' : Relay) (d : Delivery),
    plain.run (.ok { source := .supply s (some outage) }) {} = (r', { deliveries := [d] }) ∧
      d.record = {
        line := "ab\n", source := "stdout", isPartial := false, time := 5
        containerId := .str "c", containerName := [], imageName := .str [], imageId := .str []
        hostname := "h" } ∧
      d.send.topic = .str "t" ∧ d.send.key = some [99] ∧ d.send.tag = none ∧
      d.send.value = Text.toBytes ("\x7b\"line\":\"ab\\n\",\"source\":\"stdout\"," ++
        "\"partial\":false,\"timestamp\":\"1970-01-01T00:00:00.000000005Z\"," ++
        "\"containerId\":\"c\",\"containerName\":\"\",\"containerImageName\":\"\"," ++
        "\"containerImageId\":\"\",\"hostname\":\"h\"\x7d" : String) ∧
      d.reported = true ∧ d.refusal = none := by
  let first : Entry := { line := [97], isPartial := true }
  let later : Entry := { line := [98, 10], source := "stdout", time := 5 }
  let s : Supply := {
    unread := Frame.wrap [26, 1, 97, 32, 1] ++
      (Frame.wrap [10, 6, 115, 116, 100, 111, 117, 116, 16, 5, 26, 2, 98, 10] ++ [0])
    schedule := fun _ => 3 }
  let outage : Outage := ⟨.broker, []⟩
  have hsmall (n : Nat) (h : n < 0x80) : Varint.encode n = [UInt8.ofNat n] := by
    rw [Varint.encode, if_pos h]
  have hfirst : Entry.ofPayload? [26, 1, 97, 32, 1] = some first := by
    refine Entry.ofPayload?_payload (Entry.payload_eq_ok_iff.2 ⟨rfl, by decide, ?_⟩) (by decide)
    simp [first, Entry.fields, Field.encode, Field.tag, hsmall]
  have hsource : (Text.ofString "stdout").flatMap Utf8.encodePoint =
      [115, 116, 100, 111, 117, 116] := by decide
  have htime : Varint.ofInt 5 = 5 := rfl
  have hlater : Entry.ofPayload? [10, 6, 115, 116, 100, 111, 117, 116, 16, 5, 26, 2, 98, 10] =
      some later := by
    refine Entry.ofPayload?_payload (Entry.payload_eq_ok_iff.2 ⟨rfl, by decide, ?_⟩) (by decide)
    simp only [later, hsource]
    simp [Entry.fields, Field.encode, Field.tag, hsmall, htime]
  obtain ⟨r', ds, hrun, -, hcalls, -, hentries⟩ := run_publishes
    (⟨rfl, rfl, rfl⟩ : plain.IsFresh) (rfl : _ = Json.str "c") (by decide)
    (fun _ _ => rfl : ({} : Outlet).IsWilling) s (some outage) none
  have hread : (s.entries plain.limit).1 = [first, later] := by
    rw [hentries fun _ => (by decide : 0 < 3), entriesOf_wrap hfirst (by decide) (by decide),
      entriesOf_wrap hlater (by decide) (by decide), entriesOf_of_none rfl]
  have hlines : segments [first, later] = [⟨first, [later]⟩] := by
    simp [segments, first, groupLength_cons, later, endsLine, lineFeed]
  rw [hread, hlines] at hcalls
  obtain ⟨d, ds', hcall, hrest, rfl⟩ := List.forall₂_cons_left_iff.1 hcalls
  cases hrest
  obtain ⟨timestamp, hformat, hsend⟩ := hcall.send
  have htimestamp : Timestamp.format 5 = .ok "1970-01-01T00:00:00.000000005Z" := by decide +kernel
  obtain rfl := Except.ok.inj (htimestamp.symm.trans hformat)
  refine ⟨s, outage, r', d, hrun, hcall.record, ?_, ?_, ?_, ?_, hcall.reported, hcall.accepted⟩
  all_goals rw [hsend]
  · rfl
  · rfl
  · rfl
  · exact congrArg Text.toBytes (by decide +kernel)

end Relay

end LogRelay
