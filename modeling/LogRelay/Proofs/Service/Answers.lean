import LogRelay.Proofs.Service.Description
import LogRelay.Proofs.Service.Start
import LogRelay.Proofs.Stream.Disposal
import LogRelay.Service.Http
/-!
# Which requests are answered

Requests that cannot be understood, and those that are refused, are answered by the reason.  That takes
somebody who notices what is wrong with them, and not all of it is noticed: a description of the wrong
shape, an outage of the cluster, a line that cannot be published at the end.  Such a request escapes, and
all that the client gets is a page.

## Main definitions

* `Hub.StartFails`, `Hub.StopFails`, `Hub.ReadLogsFails`, `Reader.PlanFails`: what nobody notices.
* `Http.Escapes`, `Http.IsReadable`: the requests that escape, and those that can be understood.
* `Http.IsAnswer`: the answers of the protocol.

## Main statements

* `Hub.start_fails_or_not`, `Hub.stop_fails_iff`, `Hub.readLogs_fails_or_not`: what is refused and what
  fails.
* `Http.isSorted_start`, `Http.isSorted_stop`, `Http.isSorted_readLogs`: how each route answers.
* `Http.answered_iff`: every request is answered unless it escapes.
-/
namespace LogRelay

/-! ## Requests that are refused, and requests that fail -/

namespace Hub

variable {h : Hub} {file : Json} {c : Container}

/-- Something is wrong with a container that nobody has looked for: an entry of its environment is
none, or its tag is no text. -/
inductive Stumbles (h : Hub) (c : Container) : Prop
  | environment (item : Json) (hitem : item ∈ c.env) (hentry : ¬ Container.IsEntry item)
  | tag (tag : Json) (htag : h.tagFor c = .ok tag) (htruthy : tag.isTruthy = true)
      (htext : ∀ t, tag ≠ .str t) (hkeys : (KeyStrategy.ofJson? (h.strategyFor c)).isSome)

theorem isRefusal_shape (e : ShapeError) : Http.isRefusal (.shape e) = false := by
  cases e <;> rfl

theorem stumbles_iff {tag : Json} (henv : ∀ item ∈ c.env, Container.IsEntry item)
    (htag : h.tagFor c = .ok tag) : h.Stumbles c ↔ tag.isTruthy = true ∧ (∀ t, tag ≠ .str t) ∧
      (KeyStrategy.ofJson? (h.strategyFor c)).isSome := by
  constructor
  · rintro (⟨item, hitem, hentry⟩ | ⟨tag', htag', htruthy, htext, hkeys⟩)
    · exact absurd (henv item hitem) hentry
    · obtain rfl := Except.ok.inj (htag.symm.trans htag')
      exact ⟨htruthy, htext, hkeys⟩
  · rintro ⟨htruthy, htext, hkeys⟩
    exact .tag tag htag htruthy htext hkeys

theorem publisherFor_outcome (h : Hub) (file : Json) (c : Container) (topic tag : Json) :
    let stumbles := tag.isTruthy = true ∧ (∀ t, tag ≠ .str t) ∧
      (KeyStrategy.ofJson? (h.strategyFor c)).isSome
    (¬ stumbles ∧ ((∃ p, h.publisherFor file c topic tag = .ok p) ∨
      ∃ f, h.publisherFor file c topic tag = .error f ∧ Http.isRefusal f = true)) ∨
    (stumbles ∧ ∃ f, h.publisherFor file c topic tag = .error f ∧ Http.isRefusal f = false) := by
  simp only [publisherFor, Publisher.make, KeyStrategy.ofJson]
  cases hkeys : KeyStrategy.ofJson? (h.strategyFor c) with
  | none => exact .inl ⟨by simp, .inr ⟨_, rfl, rfl⟩⟩
  | some keys =>
      cases htruthy : tag.isTruthy with
      | false => exact .inl ⟨by simp, .inl ⟨_, rfl⟩⟩
      | true =>
          cases tag with
          | str t =>
              refine .inl ⟨by simp, ?_⟩
              cases ht : t.unencodable? with
              | none => exact .inl ⟨_, by simp [KeyStrategy.encodeLabel, ht]; rfl⟩
              | some refusal => exact .inr ⟨_, by simp [KeyStrategy.encodeLabel, ht]; rfl, rfl⟩
          | null | bool | int | float | arr | obj => exact .inr ⟨by simp, _, rfl, rfl⟩

/-- No relay can be made for a container with which something is wrong, nor if the start is refused. -/
theorem relayFor_outcome (h : Hub) (file : Json) (c : Container) :
    (¬ h.Stumbles c ∧ ((∃ r, h.relayFor file c = .ok r) ∨
      ∃ f, h.relayFor file c = .error f ∧ Http.isRefusal f = true)) ∨
    (h.Stumbles c ∧ ∃ f, h.relayFor file c = .error f ∧ Http.isRefusal f = false) := by
  rw [relayFor]
  rcases c.resolve_outcome "LOG_TOPIC" (c.option "topic" (.str h.settings.topic)) with
    ⟨henv, topic, htopic⟩ | ⟨henv, e, htopic⟩
  · rcases c.resolve_outcome "LOG_TAG" (c.option "tag" (.str h.settings.tag)) with
      ⟨-, tag, htag⟩ | ⟨henv', -⟩
    · rw [stumbles_iff henv htag]
      have hrelay {x : Except Failure Publisher} (hx : h.publisherFor file c topic tag = x) :
          (do
            let topic ← (h.topicFor c).mapError .shape
            let tag ← (h.tagFor c).mapError .shape
            let publisher ← h.publisherFor file c topic tag
            return ({ file, container := c, publisher, tag, hostname := h.hostname,
                      limit := h.settings.maxFrameSize } : Relay)) =
          x.map fun publisher => { file, container := c, publisher, tag, hostname := h.hostname,
                                   limit := h.settings.maxFrameSize } := by
        rw [topicFor, tagFor, Container.topic, Container.tag, htopic, htag]
        simp only [Except.mapError, bind, Except.bind, hx]
        cases x <;> rfl
      rcases h.publisherFor_outcome file c topic tag with
        ⟨hno, ⟨p, hp⟩ | ⟨f, hf, href⟩⟩ | ⟨hyes, f, hf, href⟩
      · exact .inl ⟨hno, .inl ⟨_, hrelay hp⟩⟩
      · exact .inl ⟨hno, .inr ⟨f, hrelay hf, href⟩⟩
      · exact .inr ⟨hyes, f, hrelay hf, href⟩
    · exact absurd henv henv'
  · refine .inr ⟨?_, .shape e, ?_, isRefusal_shape e⟩
    · obtain ⟨item, hitem, hentry⟩ : ∃ item ∈ c.env, ¬ Container.IsEntry item := by
        simpa using henv
      exact .environment item hitem hentry
    · rw [topicFor, Container.topic, htopic]
      rfl

/-- What makes the start of a stream fail. -/
inductive StartFails (h : Hub) (file : Json) (c : Container) : Prop
  | container (hc : h.Stumbles c)
  | file (r : Relay) (hr : h.relayFor file c = .ok r) (hkey : file.isKey = false)
  | identifier (r : Relay) (hr : h.Accepts file c r) (hid : isNameable c = false)

theorem start_fails_or_not (h : Hub) (file : Json) (c : Container) :
    (¬ h.StartFails file c ∧ ((∃ i, (h.start file c).1 = .ok i) ∨
      ∃ f, (h.start file c).1 = .error f ∧ Http.isRefusal f = true)) ∨
    (h.StartFails file c ∧ ∃ f, (h.start file c).1 = .error f ∧ Http.isRefusal f = false) := by
  have hnot (hs : ¬ h.Stumbles c) (hkey : ∀ r, h.relayFor file c = .ok r → file.isKey = true)
      (hid : ∀ r, h.Accepts file c r → isNameable c = true) : ¬ h.StartFails file c := by
    rintro (hc | ⟨r, hr, hfalse⟩ | ⟨r, hr, hfalse⟩)
    · exact hs hc
    · simp [hkey r hr] at hfalse
    · simp [hid r hr] at hfalse
  rcases h.relayFor_outcome file c with ⟨hs, ⟨r, hr⟩ | ⟨f, hf, href⟩⟩ | ⟨hs, f, hf, href⟩
  · cases hkey : file.isKey with
    | false => exact .inr ⟨.file r hr hkey, _, by rw [start, hr, hkey]; rfl, isRefusal_shape _⟩
    | true =>
        cases hreg : h.registered? file with
        | some i =>
            refine .inl ⟨hnot hs (fun _ _ => hkey) ?_, .inr ⟨.streamExists file, ?_, rfl⟩⟩
            · intro r' hr'
              cases hreg.symm.trans hr'.free
            · simp [start, hr, hkey, hreg]
        | none =>
            have hstart := start_of_accepts ⟨hr, hkey, hreg⟩
            cases hid : isNameable c with
            | true => exact .inl ⟨hnot hs (fun _ _ => hkey) fun _ _ => hid, .inl ⟨_, by
                rw [hstart, if_pos hid]⟩⟩
            | false => exact .inr ⟨.identifier r ⟨hr, hkey, hreg⟩ hid, _, by
                rw [hstart, if_neg (by simp [hid])], isRefusal_shape _⟩
  · have hnone (r : Relay) : h.relayFor file c ≠ .ok r := by simp [hf]
    exact .inl ⟨hnot hs (fun r hr => absurd hr (hnone r)) fun r hr => absurd hr.relay (hnone r),
      .inr ⟨f, by rw [start, hf], href⟩⟩
  · exact .inr ⟨.container hs, f, by rw [start, hf], href⟩

/-- What makes it fail to stop a stream: the file cannot be looked up, or what is left of a line cannot
be published. -/
inductive StopFails (h : Hub) (file : Json) : Prop
  | file (hregistry : h.registry ≠ []) (hkey : file.isKey = false)
  | last (i : Nat) (r : Relay) (hkey : file.isKey = true) (hi : h.registered? file = some i)
      (hr : h.relays[i]? = some r)
      (hlast : let told := ({ r with stopping := true } : Relay).settle h.outlet
        told.1.LosesLast told.2)

theorem stop_fails_iff (h : Hub) (file : Json) :
    (∃ f, (h.stop file).1 = .error f) ↔ h.StopFails file := by
  rw [stop]
  cases hregistry : h.registry with
  | nil =>
      refine iff_of_false (by simp) ?_
      rintro (⟨hne, -⟩ | ⟨i, r, -, hi, -⟩)
      · exact hne hregistry
      · simp [registered?, Members.getBy?, hregistry] at hi
  | cons entry registry =>
      cases hkey : file.isKey with
      | false => exact iff_of_true ⟨_, rfl⟩ (.file (by simp [hregistry]) hkey)
      | true =>
          simp only [List.isEmpty_cons, Bool.false_eq_true, if_false, Bool.not_true]
          cases hi : h.registered? file with
          | none =>
              refine iff_of_false (by simp) ?_
              rintro (⟨-, hfalse⟩ | ⟨i, r, -, hsome, -⟩)
              · simp [hkey] at hfalse
              · cases hi.symm.trans hsome
          | some i =>
              simp only [stopRelay]
              cases hr : h.relays[i]? with
              | none =>
                  refine iff_of_false (by simp) ?_
                  rintro (⟨-, hfalse⟩ | ⟨i', r, -, hsome, hr', -⟩)
                  · simp [hkey] at hfalse
                  · obtain rfl := Option.some.inj (hi.symm.trans hsome)
                    cases hr.symm.trans hr'
              | some r =>
                  simp only [Relay.stop]
                  rw [Relay.finish_error_iff]
                  constructor
                  · exact .last i r hkey hi hr
                  · rintro (⟨-, hfalse⟩ | ⟨i', r', -, hsome, hr', hlast⟩)
                    · simp [hkey] at hfalse
                    · obtain rfl := Option.some.inj (hi.symm.trans hsome)
                      obtain rfl := Option.some.inj (hr.symm.trans hr')
                      exact hlast

end Hub

namespace Reader

/-- What makes it fail to plan a reader: the topic cannot be looked up, or the cluster fails at
something that is asked of it. -/
inductive PlanFails (c : Cluster) (topic : Json) : Prop
  | create (h : (c.outage? .create none 0).isSome)
  | metadata (h : (c.outage? .metadata none 0).isSome)
  | topic (h : topic.isKey = false)
  | bounds (hpartitions : c.partitions topic ≠ []) (h : (c.outage? .bounds none 0).isSome)
  | close (h : (c.outage? .close none 0).isSome)

theorem isRefusal_outage (o : Outage) : Http.isRefusal (.outage o) = false := by
  obtain ⟨kind, text⟩ := o
  cases kind <;> rfl

theorem opened_fails_or_not (c : Cluster) (topic : Json) (job : Job) (capacity : Int) :
    (¬ PlanFails c topic ∧ ((∃ r, opened c topic job capacity = .ok r) ∨
      ∃ f, opened c topic job capacity = .error f ∧ Http.isRefusal f = true)) ∨
    (PlanFails c topic ∧
      ∃ f, opened c topic job capacity = .error f ∧ Http.isRefusal f = false) := by
  rw [opened, plan]
  cases hcreate : c.outage? .create none 0 with
  | some o => exact .inr ⟨.create (by simp [hcreate]), _, rfl, isRefusal_outage o⟩
  | none =>
  cases hclose : c.outage? .close none 0 with
  | some o => exact .inr ⟨.close (by simp [hclose]), _, rfl, isRefusal_outage o⟩
  | none =>
  rw [cursors]
  cases hmetadata : c.outage? .metadata none 0 with
  | some o => exact .inr ⟨.metadata (by simp [hmetadata]), _, rfl, isRefusal_outage o⟩
  | none =>
  cases hkey : topic.isKey with
  | false => exact .inr ⟨.topic hkey, _, rfl, Hub.isRefusal_shape _⟩
  | true =>
  have hnot (hbounds : c.partitions topic ≠ [] → c.outage? .bounds none 0 = none) :
      ¬ PlanFails c topic := by
    rintro (hfail | hfail | hfail | ⟨hpartitions, hfail⟩ | hfail)
    · simp [hcreate] at hfail
    · simp [hmetadata] at hfail
    · simp [hkey] at hfail
    · simp [hbounds hpartitions] at hfail
    · simp [hclose] at hfail
  cases hpartitions : c.partitions topic with
  | nil => exact .inl ⟨hnot (by simp [hpartitions]), .inr ⟨_, rfl, rfl⟩⟩
  | cons p ps =>
  cases hbounds : c.outage? .bounds none 0 with
  | some o => exact .inr ⟨.bounds (by simp [hpartitions]) (by simp [hbounds]), _, rfl,
      isRefusal_outage o⟩
  | none => exact .inl ⟨hnot fun _ => hbounds, .inl ⟨_, rfl⟩⟩

end Reader

namespace Hub

/-- What makes it fail to open a reader of stored logs: an entry of the environment is none, or the reader
cannot be planned. -/
inductive ReadLogsFails (h : Hub) (cluster : Cluster) (c : Container) : Prop
  | environment (item : Json) (hitem : item ∈ c.env) (hentry : ¬ Container.IsEntry item)
  | plan (topic : Json) (htopic : h.topicFor c = .ok topic) (hplan : Reader.PlanFails cluster topic)

theorem readLogs_fails_or_not (h : Hub) (cluster : Cluster) (c : Container) (q : ReadRequest) :
    (¬ h.ReadLogsFails cluster c ∧ ((∃ r, (h.readLogs cluster c q).1 = .ok r) ∨
      ∃ f, (h.readLogs cluster c q).1 = .error f ∧ Http.isRefusal f = true)) ∨
    (h.ReadLogsFails cluster c ∧
      ∃ f, (h.readLogs cluster c q).1 = .error f ∧ Http.isRefusal f = false) := by
  rw [readLogs]
  rcases c.resolve_outcome "LOG_TOPIC" (c.option "topic" (.str h.settings.topic)) with
    ⟨henv, topic, hresolve⟩ | ⟨henv, e, hresolve⟩
  · have htopic : h.topicFor c = .ok topic := hresolve
    have hiff : h.ReadLogsFails cluster c ↔ Reader.PlanFails cluster topic := by
      constructor
      · rintro (⟨item, hitem, hentry⟩ | ⟨topic', htopic', hplan⟩)
        · exact absurd (henv item hitem) hentry
        · obtain rfl := Except.ok.inj (htopic.symm.trans htopic')
          exact hplan
      · exact .plan topic htopic
    rw [htopic, hiff]
    exact Reader.opened_fails_or_not cluster topic ⟨c.id, q, h.nesting.stored⟩ h.readCapacity
  · have htopic : h.topicFor c = .error e := hresolve
    obtain ⟨item, hitem, hentry⟩ : ∃ item ∈ c.env, ¬ Container.IsEntry item := by
      simpa using henv
    rw [htopic]
    exact .inr ⟨.environment item hitem hentry, .shape e, rfl, isRefusal_shape e⟩

end Hub

/-! ## Answers -/

namespace Http

variable {h : Hub} {cluster : Cluster} {body : Bytes} {members : List (Text × Json)}

/-- The answers of the protocol: that it was done, frames, or an error with its reason. -/
inductive IsAnswer : Response → Prop
  | done : IsAnswer done
  | frames (r : Reader) : IsAnswer (.stream r)
  | error (status : Nat) (reason : Text) (hstatus : status = 400 ∨ status = 500) :
    IsAnswer (refuse status reason)

/-- The routes that are asked to do something with a stream or with stored logs. -/
def calls : List Route := [.start, .stop, .readLogs]

/-- What is asked for can be understood: a file is named, or stored logs are described. -/
def IsReadable (h : Hub) (body : Bytes) (r : Route) : Prop :=
  match content h.nesting.bodies body with
  | .object members => match r with
    | .readLogs => ∃ q, readRequest members = .ok q
    | _ => (file? members).isSome
  | _ => False

/-- What makes a request for stored logs fail. -/
inductive ReadFails (h : Hub) (cluster : Cluster) (info config : Json) : Prop
  | name (hinfo : ¬ Container.IsNamed info)
  | bounds (hinfo : Container.IsDescription info) (hconfig : ¬ ReadRequest.IsBounded config)
  | opening (c : Container) (q : ReadRequest) (hc : Container.ofJson info = .ok c)
      (hq : ReadRequest.ofJson config = .ok q) (hopen : h.ReadLogsFails cluster c)

/-- What makes a request escape. -/
def Escapes (h : Hub) (cluster : Cluster) (body : Bytes) (r : Route) : Prop :=
  match content h.nesting.bodies body with
  | .tooDeep => True
  | .other => False
  | .object members => match r with
    | .start => ∃ file, file? members = some file ∧
        (¬ Container.IsDescription (objectMember members "Info") ∨
          ∃ c, Container.ofJson (objectMember members "Info") = .ok c ∧ h.StartFails file c)
    | .stop => ∃ file, file? members = some file ∧ h.StopFails file
    | .readLogs =>
      ReadFails h cluster (objectMember members "Info") (objectMember members "Config")
    | _ => False

/-- How a request is answered: it escapes, it cannot be understood, or it is done or refused. -/
inductive IsSorted (h : Hub) (escapes readable : Prop) (result : Response × Hub) : Prop
  | page (hescapes : escapes) (hresult : result.1 = .page 500)
  | malformed (hescapes : ¬ escapes) (hreadable : ¬ readable) (reason : Text)
      (hresult : result = (refuse 400 reason, h))
  | done (hescapes : ¬ escapes) (hreadable : readable) (hresult : result.1 = done)
  | frames (hescapes : ¬ escapes) (hreadable : readable) (r : Reader)
      (hresult : result.1 = .stream r)
  | refused (hescapes : ¬ escapes) (hreadable : readable) (reason : Text)
      (hresult : result.1 = refuse 500 reason)

theorem failed_of_isRefusal {f : Failure} (hf : isRefusal f = true) :
    failed f = refuse 500 f.message :=
  if_pos hf

theorem failed_of_not_isRefusal {f : Failure} (hf : isRefusal f = false) : failed f = .page 500 :=
  if_neg (by simp [hf])

theorem isSorted_start (h : Hub) (cluster : Cluster) (body : Bytes) :
    IsSorted h (Escapes h cluster body .start) (IsReadable h body .start) (start h body) := by
  rw [start, Escapes, IsReadable]
  cases hbody : content h.nesting.bodies body with
  | tooDeep => exact .page trivial rfl
  | other => exact .malformed id id _ rfl
  | object members =>
      simp only
      cases hfile : file? members with
      | none => exact .malformed (by simp) (by simp) _ rfl
      | some file =>
          simp only [Option.some.injEq, exists_eq_left', Option.isSome_some]
          rcases Container.ofJson_outcome (objectMember members "Info") with
            ⟨hinfo, c, hc⟩ | ⟨-, hinfo, e, he, -⟩ | ⟨hname, e, he, -⟩
          · have houtcome := h.start_fails_or_not file c
            simp only [hc, Except.ok.injEq, exists_eq_left', hinfo, not_true_eq_false, false_or]
            generalize h.start file c = result at houtcome ⊢
            obtain ⟨answer, h'⟩ := result
            rcases houtcome with ⟨hno, ⟨i, rfl⟩ | ⟨f, rfl, href⟩⟩ | ⟨hyes, f, rfl, href⟩
            · exact .done hno trivial rfl
            · exact .refused hno trivial f.message (failed_of_isRefusal href)
            · exact .page hyes (failed_of_not_isRefusal href)
          · rw [he]
            exact .page (.inl hinfo) (failed_of_not_isRefusal (Hub.isRefusal_shape e))
          · rw [he]
            exact .page (.inl fun hinfo => hname hinfo.1)
              (failed_of_not_isRefusal (Hub.isRefusal_shape e))

theorem isSorted_stop (h : Hub) (cluster : Cluster) (body : Bytes) :
    IsSorted h (Escapes h cluster body .stop) (IsReadable h body .stop) (stop h body) := by
  rw [stop, Escapes, IsReadable]
  cases hbody : content h.nesting.bodies body with
  | tooDeep => exact .page trivial rfl
  | other => exact .malformed id id _ rfl
  | object members =>
      simp only
      cases hfile : file? members with
      | none => exact .malformed (by simp) (by simp) _ rfl
      | some file =>
          simp only [Option.some.injEq, exists_eq_left', Option.isSome_some]
          have hfails := h.stop_fails_iff file
          generalize h.stop file = result at hfails ⊢
          obtain ⟨answer, h'⟩ := result
          cases answer with
          | ok => exact .done (fun hfail => by simpa using hfails.2 hfail) trivial rfl
          | error f => exact .page (hfails.1 ⟨f, rfl⟩) rfl

theorem readRequest_outcome (members : List (Text × Json)) :
    let info := objectMember members "Info"
    let config := objectMember members "Config"
    ((Container.IsNamed info ∧ (Container.IsDescription info → ReadRequest.IsBounded config)) ∧
      ((∃ c q, Container.ofJson info = .ok c ∧ ReadRequest.ofJson config = .ok q ∧
          readRequest members = .ok (c, q)) ∨
        ∃ f, readRequest members = .error f ∧ f.nature.IsClients)) ∨
    ((¬ Container.IsNamed info ∨
        Container.IsDescription info ∧ ¬ ReadRequest.IsBounded config) ∧
      ∃ f, readRequest members = .error f ∧ (f.nature = .attribute ∨ f.nature = .overflow)) := by
  simp only [readRequest]
  rcases Container.ofJson_outcome (objectMember members "Info") with
    ⟨hinfo, c, hc⟩ | ⟨hname, hinfo, e, he, hclients⟩ | ⟨hname, e, he, hnature⟩
  · rcases ReadRequest.ofJson_outcome (objectMember members "Config") with
      ⟨hconfig, ⟨q, hq⟩ | ⟨f, hf, hclients⟩⟩ | ⟨hconfig, f, hf, hnature⟩
    · exact .inl ⟨⟨hinfo.1, fun _ => hconfig⟩, .inl ⟨c, q, hc, hq, by rw [hc, hq]; rfl⟩⟩
    · exact .inl ⟨⟨hinfo.1, fun _ => hconfig⟩, .inr ⟨f, by rw [hc, hf]; rfl, hclients⟩⟩
    · exact .inr ⟨.inr ⟨hinfo, hconfig⟩, f, by rw [hc, hf]; rfl, hnature⟩
  · exact .inl ⟨⟨hname, fun h => absurd h hinfo⟩, .inr ⟨.shape e, by rw [he]; rfl, hclients⟩⟩
  · exact .inr ⟨.inl hname, .shape e, by rw [he]; rfl, .inl hnature⟩

theorem isSorted_readLogs (h : Hub) (cluster : Cluster) (body : Bytes) :
    IsSorted h (Escapes h cluster body .readLogs) (IsReadable h body .readLogs)
      (readLogs h cluster body) := by
  rw [readLogs, Escapes, IsReadable]
  cases hbody : content h.nesting.bodies body with
  | tooDeep => exact .page trivial rfl
  | other => exact .malformed id id _ rfl
  | object members =>
      simp only
      rcases readRequest_outcome members with
        ⟨⟨hname, hbounds⟩, ⟨c, q, hc, hq, hrequest⟩ | ⟨f, hf, hclients⟩⟩ | ⟨hwrong, f, hf, hnature⟩
      -- the request is understood, so only the opening of the reader can go wrong
      · simp only [hrequest, Except.ok.injEq, exists_eq']
        have hfails : ReadFails h cluster (objectMember members "Info")
            (objectMember members "Config") ↔ h.ReadLogsFails cluster c := by
          constructor
          · rintro (hinfo | ⟨hinfo, hconfig⟩ | ⟨c', q', hc', -, hopen⟩)
            · exact absurd hname hinfo
            · exact absurd (hbounds hinfo) hconfig
            · obtain rfl := Except.ok.inj (hc.symm.trans hc')
              exact hopen
          · exact .opening c q hc hq
        rw [hfails]
        have houtcome := h.readLogs_fails_or_not cluster c q
        generalize h.readLogs cluster c q = result at houtcome ⊢
        obtain ⟨answer, h'⟩ := result
        rcases houtcome with ⟨hno, ⟨r, rfl⟩ | ⟨f, rfl, href⟩⟩ | ⟨hyes, f, rfl, href⟩
        · exact .frames hno trivial r rfl
        · exact .refused hno trivial f.message (failed_of_isRefusal href)
        · exact .page hyes (failed_of_not_isRefusal href)
      -- what is wrong is the client's mistake, and he is told
      · have hunreadable : ¬ ∃ q, readRequest members = .ok q := by simp [hf]
        refine .malformed ?_ hunreadable ("Invalid ReadLogs request: " ++ f.message) ?_
        · rintro (hinfo | ⟨hinfo, hconfig⟩ | ⟨c, q, hc, hq, -⟩)
          · exact hinfo hname
          · exact hconfig (hbounds hinfo)
          · exact hunreadable ⟨(c, q), by rw [readRequest, hc, hq]; rfl⟩
        · rw [hf]
          exact if_pos hclients
      · rw [hf]
        refine .page ?_ ?_
        · rcases hwrong with hinfo | ⟨hinfo, hconfig⟩
          · exact .name hinfo
          · exact .bounds hinfo hconfig
        · have hother : ¬ (f.nature = .type ∨ f.nature = .value) := by
            rcases hnature with hn | hn <;> simp [hn]
          simp only [hother, if_false]

/-- Each of the three routes sorts its requests. -/
theorem isSorted_handleRoute {r : Route} (hcall : r ∈ calls) (h : Hub) (cluster : Cluster)
    (body : Bytes) : IsSorted h (Escapes h cluster body r) (IsReadable h body r)
      (handleRoute h cluster r body) := by
  simp only [calls, List.mem_cons, List.not_mem_nil, or_false] at hcall
  rcases hcall with rfl | rfl | rfl
  · exact isSorted_start h cluster body
  · exact isSorted_stop h cluster body
  · exact isSorted_readLogs h cluster body

/-- The answer of a route. -/
theorem handle_eq {q : Request} {r : Route}
    (hroute : Destination.ofPath (Target.path q.target) = .route r) (hcall : r ∈ calls)
    (hpost : Text.toUpper q.method = "POST") :
    handle h cluster q = handleRoute h cluster r q.body := by
  have hmethod : (("POST" : Text) = "OPTIONS") = False := by decide
  simp only [handle, hroute, hpost, hmethod, if_false]
  simp only [calls, List.mem_cons, List.not_mem_nil, or_false] at hcall
  rcases hcall with rfl | rfl | rfl <;> rfl

namespace IsSorted

variable {escapes readable : Prop} {result : Response × Hub}

/-- What escapes gets a page. -/
theorem eq_page (hs : IsSorted h escapes readable result) (hescapes : escapes) :
    result.1 = .page 500 := by
  cases hs with
  | page _ hresult => exact hresult
  | malformed hno | done hno | frames hno | refused hno => exact absurd hescapes hno

/-- What does not escape is answered. -/
theorem isAnswer_iff (hs : IsSorted h escapes readable result) :
    IsAnswer result.1 ↔ ¬ escapes := by
  constructor
  · intro hanswer hescapes
    rw [hs.eq_page hescapes] at hanswer
    cases hanswer
  · intro hno
    cases hs with
    | page hescapes => exact absurd hescapes hno
    | malformed _ _ reason hresult =>
        rw [hresult]
        exact .error 400 reason (.inl rfl)
    | done _ _ hresult =>
        rw [hresult]
        exact .done
    | frames _ _ r hresult =>
        rw [hresult]
        exact .frames r
    | refused _ _ reason hresult =>
        rw [hresult]
        exact .error 500 reason (.inr rfl)

/-- What cannot be understood, and nothing else, is answered by 400. -/
theorem not_readable_iff (hs : IsSorted h escapes readable result) (hno : ¬ escapes) :
    ¬ readable ↔ ∃ reason, result = (refuse 400 reason, h) := by
  constructor
  · intro hreadable
    cases hs with
    | page hescapes => exact absurd hescapes hno
    | malformed _ _ reason hresult => exact ⟨reason, hresult⟩
    | done _ hyes | frames _ hyes | refused _ hyes => exact absurd hyes hreadable
  · rintro ⟨reason, rfl⟩
    cases hs with
    | malformed _ hreadable => exact hreadable
    | page _ hresult | done _ _ hresult | frames _ _ _ hresult | refused _ _ _ hresult =>
        simp [refuse, Http.done] at hresult

end IsSorted

/-- **Every request is answered unless it escapes.**  Somebody posts a request to start a stream, to
stop one or to read stored logs, whatever its body holds, whatever has happened at the hub before and
however the cluster fails.  It escapes just if something is wrong of the kinds that nobody looks for;
then the client gets a page.  If it does not escape it is answered: with 400 and the reason, and nothing
happens, just if it cannot be understood, else that it was done, by frames, or with 500 and the
reason. -/
theorem answered_iff {q : Request} {r : Route}
    (hroute : Destination.ofPath (Target.path q.target) = .route r) (hcall : r ∈ calls)
    (hpost : Text.toUpper q.method = "POST") (h : Hub) (cluster : Cluster) :
    (IsAnswer (handle h cluster q).1 ↔ ¬ Escapes h cluster q.body r) ∧
    (Escapes h cluster q.body r → (handle h cluster q).1 = .page 500) ∧
    (¬ Escapes h cluster q.body r → ((¬ IsReadable h q.body r) ↔
      ∃ reason, handle h cluster q = (refuse 400 reason, h))) := by
  have hsorted := isSorted_handleRoute hcall h cluster q.body
  rw [handle_eq hroute hcall hpost]
  exact ⟨hsorted.isAnswer_iff, hsorted.eq_page, hsorted.not_readable_iff⟩

/-- Stored logs are asked for while the cluster says nothing of its topics: the client gets a page. -/
theorem answered_iff_outage : ∃ (cluster : Cluster) (q : Request),
    Destination.ofPath (Target.path q.target) = .route .readLogs ∧ IsReadable Hub.plain q.body .readLogs ∧
      (handle Hub.plain cluster q).1 = .page 500 ∧ ¬ IsAnswer (handle Hub.plain cluster q).1 := by
  let cluster : Cluster := { disturbances := [⟨.metadata, none, 0, ⟨.broker, "no answer"⟩⟩] }
  let q : Request := ⟨"POST", "/LogDriver.ReadLogs", ("{}" : Text).toBytes⟩
  have hroute : Destination.ofPath (Target.path q.target) = .route .readLogs := by decide +kernel
  have hbody : content Hub.plain.nesting.bodies q.body = .object [] := by rfl
  obtain ⟨c, request, hc, hrequest, htopic⟩ : ∃ c request, Container.ofJson (.obj []) = .ok c ∧
      ReadRequest.ofJson (.obj []) = .ok request ∧ Hub.plain.topicFor c = .ok (.str "t") :=
    ⟨_, _, rfl, rfl, rfl⟩
  have hescapes : Escapes Hub.plain cluster q.body .readLogs := by
    rw [Escapes, hbody]
    exact .opening c request hc hrequest (.plan (.str "t") htopic (.metadata (by decide)))
  have hreadable : IsReadable Hub.plain q.body .readLogs := by
    rw [IsReadable, hbody]
    exact ⟨_, rfl⟩
  obtain ⟨hiff, hpage, -⟩ := answered_iff hroute (by decide) (by decide +kernel) Hub.plain
    cluster
  exact ⟨cluster, q, hroute, hreadable, hpage hescapes, fun hanswer => hiff.1 hanswer hescapes⟩

end Http

end LogRelay
