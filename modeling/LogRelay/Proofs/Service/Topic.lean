import LogRelay.Proofs.Reading.Delivery
import LogRelay.Proofs.Service.Start
import LogRelay.Proofs.Stream.Disposal
import LogRelay.Proofs.Tables
import LogRelay.Proofs.Text.Cut
/-!
# Where the records of a container go

The topic of a container's records is what its environment says, else its option, else what the hub is
set to, and a value that stands for the container's name or identifier is replaced by that.  Whoever
publishes the records and whoever reads them finds the same topic.  The tag of the records is found in
the same way from sources of its own, and no source of one of them is one of the other.

## Main definitions

* `Container.nameOf?`, `Container.assigned?`: the name that an entry of an environment is for, and what
  an environment says of a name.
* `Container.HasTextSources`: the environment and the options of a container are texts.
* `Container.settled`: the value of a setting of a container.
* `Container.SameBut`: two containers that may differ in the sources of one setting only.
* `Session.Labels`: what a relay has sent bears its publisher's topic and tag.

## Main statements

* `Container.assigned?_eq_some_iff`: what an environment says of a name.
* `Container.settled_of_sameBut`: the sources of one setting are not those of another one.
* `Session.labels_run`: all that a relay ever sends goes to one topic.
* `Hub.writers_and_readers_agree`: topic and tag of a container.
-/
namespace LogRelay

namespace Json

/-- A text is the same key as itself only. -/
theorem sameKey_str_iff {j : Json} {t : Text} : sameKey j (.str t) = true ↔ j = .str t := by
  cases j with
  | str s => simp [sameKey]
  | null | bool | int | float | arr | obj => simp [sameKey, keyNumber?]

/-- What a table says of one text does not depend on what it says of another one. -/
theorem getBy?_eraseBy {ν : Type} {t u : Text} (h : t ≠ u) (table : Members Json ν) :
    Members.getBy? sameKey (.str u) (Members.eraseBy sameKey (.str t) table) =
      Members.getBy? sameKey (.str u) table := by
  rw [Members.getBy?, Members.getBy?, Members.eraseBy, List.find?_filter]
  congr 2
  funext entry
  obtain ⟨key, value⟩ := entry
  cases hu : sameKey key (.str u) with
  | false => simp [hu]
  | true =>
      have hkey := sameKey_str_iff.1 hu
      have ht : sameKey key (.str t) ≠ true := by
        intro ht
        rw [sameKey_str_iff.1 ht] at hkey
        exact h (Json.str.inj hkey)
      simp [ht]

end Json

namespace Container

/-! ## Environments -/

/-- The name that an entry of an environment is for: what stands in front of its first equals sign. -/
def nameOf? (entry : Text) : Option Text :=
  (Text.cut? '=' entry).map Prod.fst

/-- What an environment says of a name: what stands behind the first equals sign of the last entry that
is for the name. -/
def assigned? (env : List Text) (name : Text) : Option Text :=
  Members.lastOf? name (env.filterMap (Text.cut? '='))

variable {env env' : List Text} {name value : Text} {c c' : Container}

/-- What one entry says of a name. -/
def sayOf? (name entry : Text) : Option Text :=
  (Text.cut? '=' entry).bind fun (key, value) => if key = name then some value else none

theorem sayOf?_eq_some_iff {entry : Text} : sayOf? name entry = some value ↔
    entry = name ++ CodePoint.ofChar '=' :: value ∧ CodePoint.ofChar '=' ∉ name := by
  rw [← Text.cut?_eq_some_iff, sayOf?]
  cases Text.cut? '=' entry with
  | none => simp
  | some parts =>
      obtain ⟨key, v⟩ := parts
      by_cases h : key = name <;> simp [h]

theorem sayOf?_eq_none_iff {entry : Text} :
    sayOf? name entry = none ↔ nameOf? entry ≠ some name := by
  rw [sayOf?, nameOf?]
  cases Text.cut? '=' entry with
  | none => simp
  | some parts =>
      obtain ⟨key, v⟩ := parts
      by_cases h : key = name <;> simp [h]

/-- What an environment says of a name is what its last entry for the name says. -/
theorem assigned?_eq_getLast? (env : List Text) (name : Text) :
    assigned? env name = (env.filterMap (sayOf? name)).getLast? := by
  rw [assigned?, Members.lastOf?, List.filterMap_filterMap]
  rfl

/-- The entries for a name are those that begin with it and an equals sign, if it has none. -/
theorem assigned?_eq_some_iff : assigned? env name = some value ↔
    CodePoint.ofChar '=' ∉ name ∧ ∃ front back,
      env = front ++ (name ++ CodePoint.ofChar '=' :: value) :: back ∧
        ∀ entry ∈ back, nameOf? entry ≠ some name := by
  rw [assigned?_eq_getLast?, List.getLast?_filterMap, List.findSome?_eq_some_iff]
  simp only [sayOf?_eq_some_iff, sayOf?_eq_none_iff]
  constructor
  · rintro ⟨later, entry, earlier, henv, ⟨rfl, hname⟩, hlater⟩
    refine ⟨hname, earlier.reverse, later.reverse, ?_, ?_⟩
    · rw [← List.reverse_inj, henv]
      simp
    · intro entry hentry
      exact hlater entry (List.mem_reverse.1 hentry)
  · rintro ⟨hname, front, back, rfl, hback⟩
    refine ⟨back.reverse, _, front.reverse, by simp, ⟨rfl, hname⟩, ?_⟩
    intro entry hentry
    exact hback entry (List.mem_reverse.1 hentry)

/-- Entries that are for another name do not matter. -/
theorem assigned?_filter {other : Text} (h : other ≠ name) (env : List Text) :
    assigned? (env.filter (nameOf? · ≠ some other)) name = assigned? env name := by
  rw [assigned?_eq_getLast?, assigned?_eq_getLast?, List.filterMap_filter]
  congr 2
  funext entry
  by_cases hentry : nameOf? entry = some other
  · have hnone : sayOf? name entry = none := by
      rw [sayOf?_eq_none_iff, hentry]
      simpa using h
    simp [hentry, hnone]
  · simp [hentry]

/-- The environment of a container whose entries are texts. -/
theorem bindings_str (env : List Text) :
    bindings (env.map .str) = .ok (env.filterMap (Text.cut? '=')) := by
  induction env with
  | nil => rfl
  | cons entry env ih =>
      rw [List.map_cons, bindings, ih]
      cases hcut : Text.cut? '=' entry <;>
        simp [binding, hcut, bind, Except.bind, pure, Except.pure]

/-! ## Settings of a container -/

/-- The environment of a container is that list of texts, and its options have texts for values. -/
structure HasTextSources (c : Container) (env : List Text) : Prop where
  env : c.env = env.map .str
  options : ∀ entry ∈ c.options, ∃ t, entry.2 = .str t

/-- The text of an option, if there is one. -/
def optionText? (c : Container) (option : Text) : Option Text :=
  (Members.getBy? Json.sameKey (.str option) c.options).bind Json.str?

/-- The default of a setting: its option, unless that is empty, else what the hub is set to. -/
def default (c : Container) (option configured : Text) : Text :=
  match c.optionText? option with
  | some t => if t = [] then configured else t
  | none => configured

/-- The text that counts for a setting: what the environment says, even if that is empty, else the
default. -/
def counting (c : Container) (env : List Text) (key option configured : Text) : Text :=
  (assigned? env key).getD (c.default option configured)

/-- The value of a setting of a container: the text that counts, or the container's name or identifier if
that is what the text stands for. -/
def settled (c : Container) (env : List Text) (key option configured : Text) : Json :=
  let t := c.counting env key option configured
  if t = "$CONTAINERNAME" then .str c.name
  else if t = "$CONTAINERID" then c.id
  else .str t

/-- Two containers differ in the sources of one setting at most: in the entries of their environments
that are for it, and in its option. -/
structure SameBut (key option : Text) (c c' : Container) (env env' : List Text) : Prop where
  name : c'.name = c.name
  id : c'.id = c.id
  env : env'.filter (nameOf? · ≠ some key) = env.filter (nameOf? · ≠ some key)
  options : Members.eraseBy Json.sameKey (.str option) c'.options =
    Members.eraseBy Json.sameKey (.str option) c.options

/-- A setting does not depend on the sources of another one. -/
theorem settled_of_sameBut {key option otherKey otherOption : Text}
    (h : SameBut otherKey otherOption c c' env env') (hkey : otherKey ≠ key)
    (hoption : otherOption ≠ option) (configured : Text) :
    c'.settled env' key option configured = c.settled env key option configured := by
  have henv : assigned? env' key = assigned? env key := by
    rw [← assigned?_filter hkey env', h.env, assigned?_filter hkey env]
  have hopt : c'.optionText? option = c.optionText? option := by
    rw [optionText?, ← Json.getBy?_eraseBy hoption, h.options, Json.getBy?_eraseBy hoption,
      optionText?]
  have hcounting : c'.counting env' key option configured = c.counting env key option configured := by
    rw [counting, counting, henv, default, default, hopt]
  rw [settled, settled, hcounting, h.name, h.id]

/-- The default of a setting, as the hub finds it. -/
theorem option_eq (hc : c.HasTextSources env) (option configured : Text) :
    c.option option (.str configured) = .str (c.default option configured) := by
  rw [Container.option, default, optionText?]
  cases hget : Members.getBy? Json.sameKey (.str option) c.options with
  | none => rfl
  | some j =>
      obtain ⟨entry, hentry, rfl⟩ := Option.map_eq_some_iff.1 hget
      obtain ⟨t, ht⟩ := hc.options entry (List.mem_of_find?_eq_some hentry)
      by_cases hempty : t = [] <;> simp [Json.orElse, ht, Json.isTruthy, Json.str?, hempty]

/-- A setting of a container whose environment and options are texts. -/
theorem resolve_eq (hc : c.HasTextSources env) (key option configured : Text) :
    c.resolve key (c.option option (.str configured)) =
      .ok (c.settled env key option configured) := by
  rw [resolve, environment, hc.env, bindings_str, option_eq hc, settled, counting, assigned?]
  simp only [bind, Except.bind, pure, Except.pure, Members.get?_ofPairs]
  cases Members.lastOf? key (env.filterMap (Text.cut? '=')) <;>
    simp [substitute, Json.str?]

end Container

/-! ## What a relay sends -/

/-- The call is made to the publisher's topic, and bears its tag. -/
def Publisher.Labels (p : Publisher) (d : Delivery) : Prop :=
  d.send.topic = p.topic ∧ d.send.tag = p.tag

/-- All further calls are made to the publisher's topic, and bear its tag. -/
def Outlet.GainsFrom (o o' : Outlet) (p : Publisher) : Prop :=
  ∃ ds, o.Gains o' ds ∧ ∀ d ∈ ds, p.Labels d

theorem Outlet.GainsFrom.refl (o : Outlet) (p : Publisher) : o.GainsFrom o p :=
  ⟨[], .refl o, by simp⟩

/-- A publisher has the topic that it is made for. -/
theorem Publisher.topic_of_make {topic strategy tag : Json} {reports : Bool} {p : Publisher}
    (h : make topic strategy tag reports = .ok p) : p.topic = topic := by
  simp only [make, bind, Except.bind] at h
  split at h
  · cases h
  split_ifs at h
  · split at h
    · cases h
    · rw [← Except.ok.inj h]
  · rw [← Except.ok.inj h]

/-- What is sent for a record goes to the publisher's topic. -/
theorem Publisher.labels_of_message {p : Publisher} {record : Record Json} {d : Delivery}
    (h : p.message record = .ok d.send) : p.Labels d := by
  rw [message] at h
  cases hdoc : record.document.mapError Failure.range with
  | error f =>
      rw [hdoc] at h
      cases h
  | ok value =>
      cases hkey : p.strategy.key record with
      | error f =>
          rw [hdoc, hkey] at h
          cases h
      | ok key =>
          rw [hdoc, hkey] at h
          rw [Labels, ← Except.ok.inj h]
          exact ⟨rfl, rfl⟩

namespace Relay

variable {r r' : Relay} {o o' : Outlet}

theorem gainsFrom_publish (r : Relay) (e : Entry) (line : Bytes) (o : Outlet) :
    o.GainsFrom (r.publish e line o).2 r.publisher := by
  by_cases h : r.Handles o o.deliveries.length (e, line)
  · obtain ⟨taken, d, heq, hoffers, -⟩ := publish_of_handles h
    rw [heq]
    refine ⟨[d], o.gains_noting d, ?_⟩
    intro d' hd'
    rw [List.mem_singleton.1 hd']
    exact Publisher.labels_of_message hoffers.message
  · obtain ⟨f, lost, heq, -, hlost⟩ := publish_of_not_handles h
    rw [heq]
    refine ⟨lost, ⟨rfl, rfl⟩, ?_⟩
    intro d hd
    exact Publisher.labels_of_message (hlost d hd).1.message

theorem gainsFrom_take (r : Relay) (e : Entry) (o : Outlet) :
    o.GainsFrom (r.take e o).2 r.publisher := by
  rw [take]
  split_ifs
  · exact .refl o _
  · simp only
    split
    · exact .refl o _
    · rename_i line _
      have hgains := ({ r with
        aggregator := (r.aggregator.process e).2
        lastEntry := some e
        place := .reading .empty } : Relay).gainsFrom_publish e line o
      split <;> rename_i heq <;> rw [heq] at hgains <;> exact hgains

theorem gainsFrom_finish (r : Relay) (o : Outlet) :
    o.GainsFrom (r.finish o).2.2 r.publisher := by
  rw [finish]
  split_ifs
  · exact .refl o _
  · simp only
    split
    · rename_i line e _ _
      exact ({ r with
        finished := true
        aggregator := r.aggregator.flush.2 } : Relay).gainsFrom_publish e line o
    · exact .refl o _

end Relay

namespace Session

/-- A relay publishes with some publisher, and all that it has sent bears the topic and the tag of
that. -/
structure Labels (p : Publisher) (s : Session) : Prop where
  publisher : s.relay.publisher = p
  sent : ∀ d ∈ s.sent, p.Labels d

variable {p : Publisher} {s s' : Session}

/-- A move at which the relay may use the outlet. -/
theorem Labels.record {result : Relay × Outlet} (hs : s.Labels p) (entry : Option Entry)
    (hpublisher : result.1.publisher = s.relay.publisher)
    (hgains : s.outlet.GainsFrom result.2 s.relay.publisher) :
    (s.record result entry).Labels p := by
  obtain ⟨ds, hds, hlabels⟩ := hgains
  rw [hs.publisher] at hpublisher hlabels
  refine ⟨hpublisher, ?_⟩
  intro d hd
  rcases List.mem_append.1 hd with hd | hd
  · exact hs.sent d hd
  · rw [hds.deliveries, List.drop_left] at hd
    exact hlabels d hd

/-- A step of the loop keeps the publisher. -/
theorem Labels.works (hs : s.Labels p) (h : s.Works s') : s'.Labels p := by
  cases h with
  | look | draw => exact ⟨hs.publisher, hs.sent⟩
  | read hp hst hsrc hread =>
      obtain ⟨stream, place, rfl, -⟩ := Relay.read_eq_some hread
      exact ⟨hs.publisher, hs.sent⟩
  | take hp =>
      obtain ⟨aggregator, lastEntry, place, heq, -⟩ := s.relay.take_fst _ s.outlet
      exact hs.record _ (by rw [heq]) (s.relay.gainsFrom_take _ s.outlet)
  | leave hp =>
      obtain ⟨place, heq⟩ := s.relay.exists_leave_eq _ s.outlet
      obtain ⟨answer, aggregator, o', hfinish, -⟩ := s.relay.finish_eq s.outlet
      refine hs.record _ ?_ ?_
      · rw [heq, hfinish]
      · rw [heq]
        exact s.relay.gainsFrom_finish s.outlet
  | close hp =>
      obtain ⟨failure', heq⟩ := s.relay.close_eq _
      refine ⟨?_, hs.sent⟩
      rw [heq]
      exact hs.publisher

/-- Each move keeps the publisher, whatever others do with the outlet. -/
theorem Labels.step {m : Move} (hs : s.Labels p) (h : s.step m = some s') : s'.Labels p := by
  cases m with
  | opened answer =>
      rw [Session.step] at h
      split at h
      · obtain rfl := Option.some.inj h
        refine ⟨?_, hs.sent⟩
        cases answer <;> exact hs.publisher
      · cases h
  | work => exact hs.works (works_of_work h)
  | finish =>
      obtain rfl := Option.some.inj h
      obtain ⟨answer, aggregator, o', hfinish, -⟩ := s.relay.finish_eq s.outlet
      exact hs.record _ (by rw [hfinish]) (s.relay.gainsFrom_finish s.outlet)
  | signal | receive bs | hangUp | others o =>
      obtain rfl := Option.some.inj h
      exact ⟨hs.publisher, hs.sent⟩

/-- All that a relay ever sends bears the topic and the tag of its publisher. -/
theorem labels_run {r : Relay} {o : Outlet} {moves : List Move}
    (h : (start r o).run moves = some s) : s.Labels r.publisher :=
  run_induction (fun _ _ _ hs (_ : True) hstep => hs.step hstep) ⟨rfl, by simp [start]⟩
    (fun _ _ => trivial) h

end Session

/-! ## Writers and readers -/

namespace Hub

variable {h : Hub} {c : Container} {env : List Text} {file : Json} {r : Relay}

theorem topicFor_eq (h : Hub) (hc : c.HasTextSources env) :
    h.topicFor c = .ok (c.settled env "LOG_TOPIC" "topic" h.settings.topic) :=
  Container.resolve_eq hc _ _ _

theorem tagFor_eq (h : Hub) (hc : c.HasTextSources env) :
    h.tagFor c = .ok (c.settled env "LOG_TAG" "tag" h.settings.tag) :=
  Container.resolve_eq hc _ _ _

/-- A relay that the hub makes has a publisher for the topic and the tag of the container. -/
theorem publisher_of_relayFor {topic tag : Json} (htopic : h.topicFor c = .ok topic)
    (htag : h.tagFor c = .ok tag) (hr : h.relayFor file c = .ok r) :
    r.tag = tag ∧ Publisher.make topic (h.strategyFor c) tag h.reports = .ok r.publisher := by
  simp only [relayFor, htopic, htag, publisherFor, Except.mapError, bind, Except.bind] at hr
  cases hp : Publisher.make topic (h.strategyFor c) tag h.reports with
  | error f =>
      rw [hp] at hr
      cases hr
  | ok p =>
      rw [hp] at hr
      obtain rfl := Except.ok.inj hr
      exact ⟨rfl, rfl⟩

/-- A start that succeeds has entered a relay. -/
theorem exists_accepts_of_start {i : Nat} (hi : (h.start file c).1 = .ok i) :
    ∃ r, h.Accepts file c r := by
  by_contra hno
  push Not at hno
  obtain ⟨f, hf⟩ := start_of_not_accepts hno
  rw [hf] at hi
  cases hi

/-- **Topic and tag of a container.**  Take a container whose environment and options are texts.  Its
topic is what the last entry of the environment for `LOG_TOPIC` says, else its option, unless that is
empty, else what the hub is set to, and the name or the identifier of the container if that is what the
text stands for; and so is its tag, with `LOG_TAG` and an option of its own.  If the start of a stream
succeeds, whatever its relay sends, however it goes on, is sent to that topic.  A reader is opened on
that topic too.  Containers that differ in the sources of the topic only have the same tag, and those
that differ in the sources of the tag only have the same topic. -/
theorem writers_and_readers_agree (h : Hub) (hc : c.HasTextSources env) :
    let topic := c.settled env "LOG_TOPIC" "topic" h.settings.topic
    let tag := c.settled env "LOG_TAG" "tag" h.settings.tag
    (∀ name value, Container.assigned? env name = some value ↔
      CodePoint.ofChar '=' ∉ name ∧ ∃ front back,
        env = front ++ (name ++ CodePoint.ofChar '=' :: value) :: back ∧
          ∀ entry ∈ back, Container.nameOf? entry ≠ some name) ∧
    h.topicFor c = .ok topic ∧ h.tagFor c = .ok tag ∧
    (∀ file i, (h.start file c).1 = .ok i → ∃ r, h.Accepts file c r ∧ r.tag = tag ∧
      Publisher.make topic (h.strategyFor c) tag h.reports = .ok r.publisher ∧
      ∀ o moves s, (Session.start r o).run moves = some s →
        ∀ d ∈ s.sent, d.send.topic = topic ∧ d.send.tag = r.publisher.tag) ∧
    (∀ (h' : Hub) cluster q, h'.settings = h.settings →
      (h'.readLogs cluster c q).1 =
        Reader.opened cluster topic ⟨c.id, q, h'.nesting.stored⟩ h'.readCapacity ∧
      ∀ reader, (h'.readLogs cluster c q).1 = .ok reader → reader.topic = topic) ∧
    ∀ (h' : Hub) c' env', c'.HasTextSources env' →
      (Container.SameBut "LOG_TOPIC" "topic" c c' env env' → h'.settings.tag = h.settings.tag →
        h'.tagFor c' = h.tagFor c) ∧
      (Container.SameBut "LOG_TAG" "tag" c c' env env' → h'.settings.topic = h.settings.topic →
        h'.topicFor c' = h.topicFor c) := by
  intro topic tag
  have htopic := h.topicFor_eq hc
  have htag := h.tagFor_eq hc
  refine ⟨fun _ _ => Container.assigned?_eq_some_iff, htopic, htag, ?_, ?_, ?_⟩
  · intro file i hi
    obtain ⟨r, hr⟩ := exists_accepts_of_start hi
    obtain ⟨hrtag, hmake⟩ := publisher_of_relayFor htopic htag hr.relay
    refine ⟨r, hr, hrtag, hmake, ?_⟩
    intro o moves s hrun d hd
    obtain ⟨hdtopic, hdtag⟩ := (Session.labels_run hrun).sent d hd
    exact ⟨hdtopic.trans (Publisher.topic_of_make hmake), hdtag⟩
  · intro h' cluster q hsettings
    have hread : (h'.readLogs cluster c q).1 =
        Reader.opened cluster topic ⟨c.id, q, h'.nesting.stored⟩ h'.readCapacity := by
      rw [readLogs, h'.topicFor_eq hc, hsettings]
    refine ⟨hread, ?_⟩
    intro reader hreader
    rw [hread] at hreader
    rw [Reader.opened_eq_ok hreader]
    rfl
  · intro h' c' env' hc'
    constructor
    · intro hsame hsettings
      rw [h'.tagFor_eq hc', htag, hsettings,
        Container.settled_of_sameBut hsame (by decide) (by decide)]
    · intro hsame hsettings
      rw [h'.topicFor_eq hc', htopic, hsettings,
        Container.settled_of_sameBut hsame (by decide) (by decide)]

/-- A container whose environment names the topic twice, with an entry that is for nothing in between,
the second time by the container's name.  A relay that is started for it sends a record to that topic,
with the tag that its option names, and a reader is opened on the topic. -/
theorem writers_and_readers_agree_name :
    ∃ (c : Container) (env : List Text) (cluster : Cluster) (reader : Reader) (r : Relay)
      (moves : List Session.Move) (s : Session) (d : Delivery), c.HasTextSources env ∧
      plain.topicFor c = .ok (.str "web") ∧ plain.tagFor c = .ok (.str "opt") ∧
      (plain.readLogs cluster c {}).1 = .ok reader ∧ reader.topic = .str "web" ∧
        reader.partitions = [0] ∧
      (plain.start (.str "/run/a") c).1 = .ok 0 ∧ plain.Accepts (.str "/run/a") c r ∧
        (Session.start r {}).run moves = some s ∧ s.sent = [d] ∧ d.send.topic = .str "web" ∧
          d.send.tag = some ("opt" : Text).toBytes := by
  let env : List Text := ["LOG_TOPIC=first", "x", "LOG_TOPIC=$CONTAINERNAME"]
  let c : Container := {
    id := .str "c"
    name := "web"
    env := env.map .str
    options := [(.str "tag", .str "opt")] }
  let p : Partition := { id := 0 }
  let cluster : Cluster := { topics := [(.str "web", [p])] }
  let relay : Relay := {
    file := .str "/run/a"
    container := c
    publisher := ⟨.str "web", .byContainer, some ("opt" : Text).toBytes, false⟩
    tag := .str "opt"
    hostname := []
    limit := 100 }
  let moves : List Session.Move :=
    .opened (.ok { source := .pipe ⟨Frame.wrap [26, 1, 97], true⟩ }) :: List.replicate 5 .work
  have hc : c.HasTextSources env := ⟨rfl, by simp [c]⟩
  have hstart : (plain.start (.str "/run/a") c).1 = .ok 0 := rfl
  have hrelay : plain.relayFor (.str "/run/a") c = .ok relay := rfl
  have hsent : ((Session.start relay {}).run moves).map (·.sent.length) = some 1 := by decide +kernel
  obtain ⟨-, htopic, htag, hwrite, hread, -⟩ := writers_and_readers_agree plain hc
  obtain ⟨hopened, hreader⟩ := hread plain cluster {} rfl
  have hpartitions : cluster.partitions (.str "web") = [p] := rfl
  have hok := hopened.trans (Reader.opened_of_single ⟨c.id, {}, 100⟩ 1 rfl rfl hpartitions)
  obtain ⟨r, haccepts, -, -, hlabels⟩ := hwrite (.str "/run/a") 0 hstart
  obtain rfl : relay = r := Except.ok.inj (hrelay.symm.trans haccepts.relay)
  obtain ⟨s, hrun, hlength⟩ := Option.map_eq_some_iff.1 hsent
  obtain ⟨d, hd⟩ := List.length_eq_one_iff.1 hlength
  obtain ⟨hdtopic, hdtag⟩ := hlabels {} moves s hrun d (hd ▸ List.mem_singleton_self d)
  exact ⟨c, env, cluster, _, relay, moves, s, d, hc, htopic, htag, hok, hreader _ hok, rfl, hstart,
    haccepts, hrun, hd, hdtopic, hdtag⟩

end Hub

end LogRelay
