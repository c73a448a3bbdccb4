import LogRelay.Container
import LogRelay.Failure
import LogRelay.Reading.Request
import Mathlib.Tactic.SplitIfs
/-!
# What is wrong with a description

A container, and a request for its stored logs, are described by JSON values of any shape.  When a value
is not of the shape that is wanted of it, that is noticed in different ways, and the kind of the failure
is all that is left of them: some kinds are put down to the client, others are not.

## Main definitions

* `Failure.Nature.IsClients`: the kinds of failure that are put down to the client.
* `Json.IsTable`: the values that make a table.
* `Container.IsNamed`, `Container.IsDescription`: the values that describe a container.
* `Container.IsEntry`: the values that can stand in an environment.
* `ReadRequest.IsBounded`: the requests whose tail is no infinite number.

## Main statements

* `Container.ofJson_outcome`, `ReadRequest.ofJson_outcome`: what a description comes to, and what kind
  of failure there is if it comes to nothing.
* `Container.resolve_outcome`: a setting of a container can be found just if its environment is proper.
-/
namespace LogRelay

/-! ## Tables -/

/-- The kinds of failure that are put down to the request when stored logs are asked for. -/
def Failure.Nature.IsClients (n : Failure.Nature) : Prop :=
  n = .type ∨ n = .value

namespace Json

/-- A sequence of two items of which the first one can be a key. -/
def IsPair (j : Json) : Prop :=
  ∃ key value, j.items? = some [key, value] ∧ key.isKey = true

/-- An object, or a sequence of pairs. -/
def IsTable (j : Json) : Prop :=
  (∃ members, j = .obj members) ∨ ∃ items, j.items? = some items ∧ ∀ item ∈ items, item.IsPair

theorem tableOfPairs_outcome (pairs : List Json) (n : Nat) (table : Members Json Json) :
    ((∀ p ∈ pairs, p.IsPair) ∧ ∃ t, tableOfPairs n table pairs = .ok t) ∨
      ((¬ ∀ p ∈ pairs, p.IsPair) ∧
        ∃ e, tableOfPairs n table pairs = .error e ∧ e.nature.IsClients) := by
  induction pairs generalizing n table with
  | nil => exact .inl ⟨by simp, table, rfl⟩
  | cons pair pairs ih =>
      have hbad (e : ShapeError) (he : e.nature.IsClients) (hpair : ¬ pair.IsPair)
          (heq : tableOfPairs n table (pair :: pairs) = .error e) :
          (¬ ∀ p ∈ pair :: pairs, p.IsPair) ∧ ∃ e,
            tableOfPairs n table (pair :: pairs) = .error e ∧ e.nature.IsClients :=
        ⟨fun hall => hpair (hall pair List.mem_cons_self), e, heq, he⟩
      cases hitems : pair.items? with
      | none => exact .inr (hbad (.noPair n) (.inl rfl) (by simp [IsPair, hitems]) (by
          simp [tableOfPairs, hitems]))
      | some items =>
          match items, hitems with
          | [key, value], hitems =>
              cases hkey : key.isKey with
              | false => exact .inr (hbad (.noKey key.typeName) (.inl rfl)
                  (by simp [IsPair, hitems, hkey]) (by simp [tableOfPairs, hitems, hkey]))
              | true =>
                  have hpair : pair.IsPair := ⟨key, value, hitems, hkey⟩
                  simpa [tableOfPairs, hitems, hkey, hpair] using
                    ih (n + 1) (Members.insertBy sameKey key value table)
          | [], hitems => exact .inr (hbad (.pairLength n 0) (.inr rfl)
              (by simp [IsPair, hitems]) (by simp [tableOfPairs, hitems]))
          | [a], hitems => exact .inr (hbad (.pairLength n 1) (.inr rfl)
              (by simp [IsPair, hitems]) (by simp [tableOfPairs, hitems]))
          | a :: b :: c :: rest, hitems =>
              exact .inr (hbad (.pairLength n (rest.length + 3)) (.inr rfl)
                (by simp [IsPair, hitems]) (by simp [tableOfPairs, hitems]))

theorem toTable_outcome (j : Json) : (j.IsTable ∧ ∃ t, j.toTable = .ok t) ∨
    (¬ j.IsTable ∧ ∃ e, j.toTable = .error e ∧ e.nature.IsClients) := by
  have hother (hobj : ∀ members, j ≠ .obj members) :
      (j.IsTable ∧ ∃ t, (j.items >>= tableOfPairs 0 []) = .ok t) ∨
        (¬ j.IsTable ∧ ∃ e, (j.items >>= tableOfPairs 0 []) = .error e ∧ e.nature.IsClients) := by
    cases hitems : j.items? with
    | none => exact .inr ⟨by simp [IsTable, hitems, hobj], _, by simp [items, hitems]; rfl, .inl rfl⟩
    | some items =>
        simpa [IsTable, hobj, hitems, Json.items, bind, Except.bind] using
          tableOfPairs_outcome items 0 []
  cases j with
  | obj members => exact .inl ⟨.inl ⟨members, rfl⟩, _, rfl⟩
  | null | bool | int | float | str | arr => exact hother (by simp)

end Json

/-! ## Containers -/

namespace Container

/-- What a description says under a key, the default if that is missing or empty. -/
def stated (members : List (Text × Json)) (key : Text) (default : Json) : Json :=
  Json.orElse (Members.get? key members) default

/-- What describes a container is an object, and its name is a text. -/
def IsNamed (info : Json) : Prop :=
  ∃ members, info = .obj members ∧ ∃ t, stated members "ContainerName" (.str []) = .str t

/-- Apart from its name a container has an environment, which is a sequence, and options, which make a
table. -/
def IsDescription (info : Json) : Prop :=
  IsNamed info ∧ ∃ members, info = .obj members ∧
    (∃ items, (stated members "ContainerEnv" (.arr [])).items? = some items) ∧
    (stated members "Config" (.obj [])).IsTable

/-- What is wrong with a description is the client's mistake, unless it is no object or its name is no
text. -/
theorem ofJson_outcome (info : Json) :
    (IsDescription info ∧ ∃ c, ofJson info = .ok c) ∨
    (IsNamed info ∧ ¬ IsDescription info ∧ ∃ e, ofJson info = .error e ∧ e.nature.IsClients) ∨
    (¬ IsNamed info ∧ ∃ e, ofJson info = .error e ∧ e.nature = .attribute) := by
  have hnone (h : ∀ members, info ≠ .obj members) {e : ShapeError} (he : e.nature = .attribute)
      (heq : ofJson info = .error e) :
      ¬ IsNamed info ∧ ∃ e, ofJson info = .error e ∧ e.nature = .attribute :=
    ⟨fun ⟨members, hobj, _⟩ => h members hobj, e, heq, he⟩
  cases info with
  | obj members =>
      have hofJson : ofJson (.obj members) = (do
          let name ← trimName (stated members "ContainerName" (.str []))
          let env ← (stated members "ContainerEnv" (.arr [])).items
          let options ← (stated members "Config" (.obj [])).toTable
          return {
            id := stated members "ContainerID" (.str [])
            name
            imageName := stated members "ContainerImageName" (.str [])
            imageId := stated members "ContainerImageID" (.str [])
            env
            options }) := rfl
      rw [hofJson]
      simp only [IsDescription, IsNamed, Json.obj.injEq, exists_eq_left']
      cases hname : stated members "ContainerName" (.str []) with
      | str t =>
          cases henv : (stated members "ContainerEnv" (.arr [])).items? with
          | none => exact .inr (.inl ⟨⟨t, rfl⟩, by simp, _, by simp [trimName, Json.items, henv]; rfl,
              .inl rfl⟩)
          | some items =>
              rcases Json.toTable_outcome (stated members "Config" (.obj [])) with
                ⟨htable, table, heq⟩ | ⟨htable, e, heq, he⟩
              · exact .inl ⟨⟨⟨t, rfl⟩, ⟨items, rfl⟩, htable⟩, _, by
                  simp [trimName, Json.items, henv, heq, bind, Except.bind]; rfl⟩
              · exact .inr (.inl ⟨⟨t, rfl⟩, fun h => htable h.2.2, e, by
                  simp [trimName, Json.items, henv, heq, bind, Except.bind], he⟩)
      | null | bool | int | float | arr | obj => exact .inr (.inr ⟨by simp, _, rfl, rfl⟩)
  | null | bool | int | float | str | arr => exact .inr (.inr (hnone (by simp) rfl rfl))

/-- An entry of an environment: a text, or another sequence in which there is no equals sign. -/
def IsEntry (item : Json) : Prop :=
  (∃ t, item = .str t) ∨ ∃ items, item.items? = some items ∧ Json.str "=" ∉ items

theorem binding_outcome (item : Json) : (IsEntry item ∧ ∃ b, binding item = .ok b) ∨
    (¬ IsEntry item ∧ ∃ e, binding item = .error e) := by
  have hsame (j : Json) : Json.sameKey (.str "=") j = true ↔ Json.str "=" = j := by
    cases j <;> simp [Json.sameKey, Json.keyNumber?]
  have hany (items : List Json) :
      items.any (Json.sameKey (.str "=")) = true ↔ Json.str "=" ∈ items := by
    simp only [List.any_eq_true, hsame, exists_eq_right']
  have hother (hstr : ∀ t, item ≠ .str t)
      (heq : binding item = item.items?.elim (.error (.noSearch item.typeName)) fun items =>
        if items.any (Json.sameKey (.str "=")) then .error (.noText item.typeName) else .ok none) :
      (IsEntry item ∧ ∃ b, binding item = .ok b) ∨
        (¬ IsEntry item ∧ ∃ e, binding item = .error e) := by
    rw [heq]
    cases hitems : item.items? with
    | none => exact .inr ⟨by simp [IsEntry, hstr, hitems], _, rfl⟩
    | some items =>
        by_cases hmem : Json.str "=" ∈ items
        · exact .inr ⟨by simp [IsEntry, hstr, hitems, hmem], _, if_pos ((hany items).2 hmem)⟩
        · exact .inl ⟨.inr ⟨items, hitems, hmem⟩, _, if_neg (by rwa [hany])⟩
  cases item with
  | str t => exact .inl ⟨.inl ⟨t, rfl⟩, _, rfl⟩
  | null | bool | int | float | arr | obj => exact hother (by simp) rfl

theorem bindings_outcome (env : List Json) :
    ((∀ item ∈ env, IsEntry item) ∧ ∃ bs, bindings env = .ok bs) ∨
      (¬ (∀ item ∈ env, IsEntry item) ∧ ∃ e, bindings env = .error e) := by
  induction env with
  | nil => exact .inl ⟨by simp, _, rfl⟩
  | cons item env ih =>
      rw [List.forall_mem_cons]
      rcases binding_outcome item with ⟨hitem, b, heq⟩ | ⟨hitem, e, heq⟩
      · rcases ih with ⟨henv, bs, heqs⟩ | ⟨henv, e, heqs⟩
        · exact .inl ⟨⟨hitem, henv⟩, b.toList ++ bs, by rw [bindings, heq, heqs]; rfl⟩
        · exact .inr ⟨fun h => henv h.2, e, by rw [bindings, heq, heqs]; rfl⟩
      · exact .inr ⟨fun h => hitem h.1, e, by rw [bindings, heq]; rfl⟩

theorem resolve_outcome (c : Container) (key : Text) (default : Json) :
    ((∀ item ∈ c.env, IsEntry item) ∧ ∃ j, c.resolve key default = .ok j) ∨
      (¬ (∀ item ∈ c.env, IsEntry item) ∧ ∃ e, c.resolve key default = .error e) := by
  rcases bindings_outcome c.env with ⟨henv, bs, heq⟩ | ⟨henv, e, heq⟩
  · exact .inl ⟨henv, _, by rw [resolve, environment, heq]; rfl⟩
  · exact .inr ⟨henv, e, by rw [resolve, environment, heq]; rfl⟩

end Container

/-! ## Requests for stored logs -/

namespace Json

/-- No integer is to be had from an infinite number, and whatever else is wrong is the client's
mistake. -/
theorem toInt_outcome (j : Json) :
    ((∀ negative, j ≠ .float (.infinite negative)) ∧
      ((∃ n, j.toInt = .ok n) ∨ ∃ e, j.toInt = .error e ∧ e.nature.IsClients)) ∨
    ((∃ negative, j = .float (.infinite negative)) ∧ j.toInt = .error .infinite) := by
  cases j with
  | float x =>
      cases x with
      | infinite negative => exact .inr ⟨⟨negative, rfl⟩, rfl⟩
      | nan => exact .inl ⟨by simp, .inr ⟨_, rfl, .inr rfl⟩⟩
      | finite negative m e => exact .inl ⟨by simp, .inl ⟨_, rfl⟩⟩
  | str t =>
      refine .inl ⟨by simp, ?_⟩
      rw [toInt]
      cases Integer.parse t with
      | ok n => exact .inl ⟨n, rfl⟩
      | error e => exact .inr ⟨.numeral e, rfl, .inr rfl⟩
  | bool | int => exact .inl ⟨by simp, .inl ⟨_, rfl⟩⟩
  | null | arr | obj => exact .inl ⟨by simp, .inr ⟨_, rfl, .inl rfl⟩⟩

end Json

namespace ReadRequest

/-- A request is an object, and its tail, if it has one, is not infinite. -/
def IsBounded (config : Json) : Prop :=
  ∃ members, config = .obj members ∧
    ∀ negative, Members.get? ("Tail" : Text) members ≠ some (.float (.infinite negative))

theorem nature_bound {value : Option Json} {f : Failure} (h : bound value = .error f) :
    f.nature = .value := by
  cases value with
  | none => cases h
  | some j =>
      simp only [bound] at h
      split_ifs at h
      cases j with
      | str t =>
          simp only at h
          split_ifs at h
          cases ht : Timestamp.parse? t with
          | some time => simp [readTimestamp, ht, Except.map, Except.mapError] at h
          | none =>
              simp only [readTimestamp, ht, Except.map, Except.mapError, Except.error.injEq] at h
              rw [← h]
              rfl
      | null | bool | int | float | arr | obj =>
          rw [← Except.error.inj h]
          rfl

/-- A tail that is missing or empty is not infinite. -/
theorem orElse_eq_infinite_iff (value : Option Json) (negative : Bool) :
    Json.orElse value (.int 0) = .float (.infinite negative) ↔
      value = some (.float (.infinite negative)) := by
  cases value with
  | none => simp [Json.orElse]
  | some j =>
      rw [Json.orElse]
      split_ifs with htruthy
      · simp
      · constructor
        · intro h
          cases h
        · intro h
          rw [Option.some.inj h] at htruthy
          exact absurd rfl htruthy

theorem isBounded_obj_iff (members : List (Text × Json)) :
    IsBounded (.obj members) ↔ ∀ negative,
      Json.orElse (Members.get? ("Tail" : Text) members) (.int 0) ≠ .float (.infinite negative) := by
  simp only [IsBounded, Json.obj.injEq, exists_eq_left', ne_eq, orElse_eq_infinite_iff]

/-- What is wrong with a request is the client's mistake, unless it is no object or its tail is
infinite. -/
theorem ofJson_outcome (config : Json) :
    (IsBounded config ∧ ((∃ q, ofJson config = .ok q) ∨
      ∃ f, ofJson config = .error f ∧ f.nature.IsClients)) ∨
    (¬ IsBounded config ∧
      ∃ f, ofJson config = .error f ∧ (f.nature = .attribute ∨ f.nature = .overflow)) := by
  cases config with
  | obj members =>
      have hofJson : ofJson (.obj members) = (do
          let tail ← (Json.orElse (Members.get? ("Tail" : Text) members) (.int 0)).toInt.mapError .shape
          let notBefore ← bound (Members.get? ("Since" : Text) members)
          let notAfter ← bound (Members.get? ("Until" : Text) members)
          return {
            tail
            follow := ((Members.get? ("Follow" : Text) members).getD (.bool false)).isTruthy
            notBefore
            notAfter }) := rfl
      rw [hofJson, isBounded_obj_iff]
      rcases Json.toInt_outcome (Json.orElse (Members.get? ("Tail" : Text) members) (.int 0)) with
        ⟨hfinite, ⟨n, heq⟩ | ⟨e, heq, he⟩⟩ | ⟨hboundless, heq⟩
      · refine .inl ⟨hfinite, ?_⟩
        rw [heq]
        cases hs : bound (Members.get? ("Since" : Text) members) with
        | error f => exact .inr ⟨f, rfl, .inr (nature_bound hs)⟩
        | ok notBefore =>
            cases hu : bound (Members.get? ("Until" : Text) members) with
            | error f => exact .inr ⟨f, rfl, .inr (nature_bound hu)⟩
            | ok notAfter => exact .inl ⟨_, rfl⟩
      · refine .inl ⟨hfinite, .inr ⟨.shape e, ?_, he⟩⟩
        rw [heq]
        rfl
      · refine .inr ⟨?_, .shape .infinite, ?_, .inr rfl⟩
        · obtain ⟨negative, hj⟩ := hboundless
          exact fun hall => hall negative hj
        · rw [heq]
          rfl
  | null | bool | int | float | str | arr =>
      exact .inr ⟨by simp [IsBounded], _, rfl, .inl rfl⟩

end ReadRequest

end LogRelay
