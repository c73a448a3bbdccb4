import LogRelay.Proofs.Stream.Publication
import LogRelay.Service.Hub
/-!
# What starting a stream leaves behind

To start the stream of a file the hub first makes a relay from the container's options, then enters it
under the file, unless there is one already, and then starts it.  Whatever is wrong with the container's
options is found before the relay is entered.  That its work cannot be named after the container's
identifier is found after that, and the relay stays entered although it never goes on.

## Main definitions

* `Hub.Accepts`: a relay can be entered under a file.
* `Hub.HasStarted`, `Hub.HasAbandoned`: a relay was entered and goes on, or was entered and left there.

## Main statements

* `start_of_not_accepts`, `start_of_accepts`: how a start goes.
* `start_outcome`: a start is all or nothing just if the relay that is entered can be named.
-/
namespace LogRelay

/-! ## The keys of a table in order -/

namespace Json

section

variable {α : Type} {before : α → α → Bool} {item : α} {sorted : List α}

theorem placeBetween_le {low high : Nat} (h : low ≤ high) :
    placeBetween before item sorted low high ≤ high := by
  fun_induction placeBetween before item sorted low high with
  | case1 low high hlt middle hbefore ih =>
      have := ih (by omega)
      omega
  | case2 low high hlt middle hbefore ih => exact ih (by omega)
  | case3 low high hlt => exact h

theorem place_perm (before : α → α → Bool) (sorted : List α) (item : α) :
    (place before sorted item).Perm (item :: sorted) :=
  List.perm_insertIdx _ _ (placeBetween_le (Nat.zero_le _))

theorem foldl_place_perm (before : α → α → Bool) (items sorted : List α) :
    (items.foldl (place before) sorted).Perm (sorted ++ items) := by
  induction items generalizing sorted with
  | nil => simp
  | cons item items ih =>
      have hplace := (place_perm before sorted item).append_right items
      exact (ih _).trans (hplace.trans List.perm_middle.symm)

theorem takeRun_append (continues : α → α → Bool) (last : α) (items : List α) :
    (takeRun continues last items).1 ++ (takeRun continues last items).2 = items := by
  induction items generalizing last with
  | nil => rfl
  | cons item items ih =>
      rw [takeRun]
      split_ifs
      · simp [ih]
      · rfl

/-- Putting items in order loses none of them, and adds none. -/
theorem sortBy_perm (before : α → α → Bool) (items : List α) : (sortBy before items).Perm items := by
  cases items with
  | nil => rfl
  | cons first rest =>
      rw [sortBy]
      refine (foldl_place_perm _ _ _).trans ?_
      have hrun := takeRun_append (fun a b => before b a = rest.head?.any (before · first)) first rest
      split_ifs
      · refine ((List.reverse_perm _).append_right _).trans (.of_eq ?_)
        rw [List.cons_append, hrun]
      · rw [List.cons_append, hrun]

end

theorem sorted?_perm {keys sorted : List Json} (h : sorted? keys = some sorted) :
    sorted.Perm keys := by
  simp only [sorted?] at h
  split_ifs at h
  · rw [Option.some.inj h]
  · rw [← Option.some.inj h]
    exact sortBy_perm _ _

/-- A value that can be a key is the same key as itself. -/
theorem sameKey_self {a : Json} (h : a.isKey = true) : sameKey a a = true := by
  cases a with
  | arr | obj => cases h
  | float x =>
      simp only [sameKey, keyNumber?]
      cases x.toInt? <;> simp
  | null | bool | int | str => simp [sameKey, keyNumber?]

end Json

/-! ## A relay that has not begun -/

namespace Relay

/-- A relay that waits for its stream to be opened, and has not done anything yet. -/
structure IsNew (r : Relay) : Prop extends r.IsFresh where
  place : r.place = .opening

variable {r : Relay}

/-- A relay that has taken no entry has nothing left to publish. -/
theorem IsFresh.finish_eq (h : r.IsFresh) (o : Outlet) :
    r.finish o = (.ok (), { r with finished := true }, o) := by
  have hflush : r.aggregator.flush = (none, r.aggregator) := by rw [h.aggregator]; rfl
  rw [finish, if_neg (by simp [h.finished])]
  simp only [hflush]

/-- A relay that has not begun is stopped at once. -/
theorem IsNew.stop_eq (h : r.IsNew) (o : Outlet) :
    r.stop o = (.ok (), { r with stopping := true, finished := true }, o) := by
  let told : Relay := { r with stopping := true }
  have hsettle : told.settle o = (told, o) := settle_of_none (by simp [step, told, h.place])
  change (told.settle o).1.finish (told.settle o).2 = _
  rw [hsettle]
  exact IsFresh.finish_eq (r := told) ⟨h.aggregator, h.lastEntry, h.finished⟩ o

end Relay

namespace Hub

variable {h : Hub} {file : Json} {c : Container} {r : Relay}

/-! ## The two ways in which a start can go -/

/-- A relay can be entered under a file. -/
structure Accepts (h : Hub) (file : Json) (c : Container) (r : Relay) : Prop where
  relay : h.relayFor file c = .ok r
  key : file.isKey = true
  free : h.registered? file = none

/-- A relay that the hub makes is for the file and the container, and new. -/
theorem isNew_of_relayFor (hr : h.relayFor file c = .ok r) :
    r.file = file ∧ r.container = c ∧ r.IsNew := by
  simp only [relayFor, bind, Except.bind] at hr
  split at hr
  · cases hr
  split at hr
  · cases hr
  split at hr
  · cases hr
  · obtain rfl := Except.ok.inj hr
    exact ⟨rfl, rfl, ⟨rfl, rfl, rfl⟩, rfl⟩

/-- A start for which no relay can be entered leaves the hub as it was. -/
theorem start_of_not_accepts (hr : ∀ r, ¬ h.Accepts file c r) :
    ∃ f, h.start file c = (.error f, h) := by
  rw [start]
  cases hrelay : h.relayFor file c with
  | error f => exact ⟨f, rfl⟩
  | ok r =>
      cases hkey : file.isKey with
      | false => exact ⟨_, rfl⟩
      | true =>
          cases hfree : h.registered? file with
          | none => exact absurd ⟨hrelay, hkey, hfree⟩ (hr r)
          | some i => exact ⟨_, rfl⟩

/-- A start enters the relay first, and looks then whether it can be named. -/
theorem start_of_accepts (hr : h.Accepts file c r) : h.start file c =
    if isNameable c then (.ok h.relays.length, (h.register r).launch h.relays.length)
    else (.error (.shape (.noStart c.id.typeName)), h.register r) := by
  simp [start, hr.relay, hr.key, hr.free]

/-! ## Relays that are entered -/

/-- A relay that is entered is found under its file, and nothing else is found otherwise. -/
theorem registered?_register (hr : h.Accepts file c r) (other : Json) :
    (h.register r).registered? other =
      if Json.sameKey file other then (h.registered? other).or (some h.relays.length)
      else h.registered? other := by
  obtain ⟨rfl, -⟩ := isNew_of_relayFor hr.relay
  simp only [registered?, register, Members.getBy?, List.find?_append]
  cases (h.registry.find? fun entry => Json.sameKey entry.1 other) <;>
    by_cases hsame : Json.sameKey r.file other <;> simp [hsame]

/-- A relay that is entered and launched has run over its stream. -/
theorem launch_register (hr : h.Accepts file c r) :
    let result := r.run (h.opener file) h.outlet
    (h.register r).launch h.relays.length =
      { h with
        registry := h.registry ++ [(file, h.relays.length)]
        relays := h.relays ++ [result.1]
        outlet := result.2 } := by
  obtain ⟨rfl, -⟩ := isNew_of_relayFor hr.relay
  simp [launch, register]

/-- A start of a file whose relay has been entered is refused. -/
theorem start_of_registered {r' : Relay} {c' : Container} (hr' : h.relayFor file c' = .ok r')
    (hkey : file.isKey = true) (hreg : (h.registered? file).isSome) :
    h.start file c' = (.error (.streamExists file), h) := by
  simp [start, hr', hkey, hreg]

/-- Files whose relays have been entered are listed. -/
theorem mem_activeStreams {files : List Json} (hfiles : h.activeStreams = .ok files) (file : Json) :
    file ∈ files ↔ file ∈ h.registry.map Prod.fst := by
  rw [activeStreams] at hfiles
  split at hfiles
  · rename_i sorted hsorted
    rw [← Except.ok.inj hfiles]
    exact (Json.sorted?_perm hsorted).mem_iff
  · cases hfiles

/-- A relay that was entered and has not begun can be stopped, which leaves the registry as it was
before. -/
theorem stop_register (hr : h.Accepts file c r) :
    (h.register r).stop file = (.ok (), { h with
      relays := h.relays ++ [{ r with stopping := true, finished := true }] }) := by
  obtain ⟨rfl, -, hnew⟩ := isNew_of_relayFor hr.relay
  have hself := Json.sameKey_self hr.key
  have hfound : (h.register r).registered? r.file = some h.relays.length := by
    rw [registered?_register hr, if_pos hself, hr.free, Option.none_or]
  have hnone : ∀ entry ∈ h.registry, Json.sameKey entry.1 r.file = false := by
    have hfree := hr.free
    simp only [registered?, Members.getBy?, Option.map_eq_none_iff, List.find?_eq_none] at hfree
    simpa using hfree
  have herase : Members.eraseBy Json.sameKey r.file (h.register r).registry = h.registry := by
    have hkept : h.registry.filter (fun entry => !Json.sameKey entry.1 r.file) = h.registry :=
      List.filter_eq_self.2 fun entry he => by rw [hnone entry he]; rfl
    simp [Members.eraseBy, register, hself, hkept]
  have hempty : (h.register r).registry.isEmpty = false := by simp [register]
  rw [stop, hempty, hr.key, hfound, herase]
  simp [stopRelay, register, hnew.stop_eq]

/-! ## All or nothing -/

/-- A relay was entered under the file and runs over its stream; nothing else has changed. -/
structure HasStarted (h : Hub) (file : Json) (r : Relay) (result : Except Failure Nat × Hub) :
    Prop where
  answer : result.1 = .ok h.relays.length
  hub : result.2 = { h with
    registry := h.registry ++ [(file, h.relays.length)]
    relays := h.relays ++ [(r.run (h.opener file) h.outlet).1]
    outlet := (r.run (h.opener file) h.outlet).2 }

/-- A relay was entered under the file although the start has failed. -/
structure HasAbandoned (h : Hub) (file : Json) (c : Container) (r : Relay)
    (result : Except Failure Nat × Hub) : Prop where
  answer : result.1 = .error (.shape (.noStart c.id.typeName))
  hub : result.2 = { h with
    registry := h.registry ++ [(file, h.relays.length)]
    relays := h.relays ++ [r] }
  /-- the relay has not begun -/
  idle : r.IsNew
  /-- the file is listed -/
  listed : ∀ files, result.2.activeStreams = .ok files → file ∈ files
  /-- the file cannot be consumed any more -/
  blocked : ∀ c' r', h.relayFor file c' = .ok r' →
    result.2.start file c' = (.error (.streamExists file), result.2)
  /-- other files are not affected -/
  others : ∀ other, Json.sameKey file other = false →
    result.2.registered? other = h.registered? other
  /-- the file can be consumed again after a stop, which publishes nothing -/
  stopped : ∃ relays, result.2.stop file = (.ok (), { h with relays })

/-- **A start is all or nothing just if the relay that is entered can be named.**  A start of a file
that fails leaves the hub as it was, and one that does not fail has entered a relay for the file, which
runs over its stream, unless a relay can be entered for the file and the container has an identifier
that is neither a text nor a list.  Then the start fails, and the relay stays entered: the file is
listed as consumed although nobody consumes it, and it cannot be consumed until it is stopped.  Other
files are not affected. -/
theorem start_outcome (h : Hub) (file : Json) (c : Container) :
    (((∃ f, h.start file c = (.error f, h)) ∨
        ∃ r, h.Accepts file c r ∧ h.HasStarted file r (h.start file c)) ↔
      ((∃ r, h.Accepts file c r) → isNameable c = true)) ∧
    ∀ r, h.Accepts file c r → isNameable c = false → h.HasAbandoned file c r (h.start file c) := by
  have hstarted {r : Relay} (hr : h.Accepts file c r) (hn : isNameable c = true) :
      h.HasStarted file r (h.start file c) := by
    rw [start_of_accepts hr, if_pos hn]
    exact ⟨rfl, launch_register hr⟩
  constructor
  · constructor
    · rintro hresult ⟨r, hr⟩
      by_contra hn
      have hstart := start_of_accepts hr
      rw [if_neg hn] at hstart
      rcases hresult with ⟨f, heq⟩ | ⟨r', -, hs⟩
      · have hlength := congrArg (fun result => result.2.relays.length) (heq.symm.trans hstart)
        simp [register] at hlength
      · rw [hstart] at hs
        cases hs.answer
    · intro hn
      by_cases hr : ∃ r, h.Accepts file c r
      · obtain ⟨r, hr⟩ := hr
        exact .inr ⟨r, hr, hstarted hr (hn ⟨r, hr⟩)⟩
      · exact .inl (start_of_not_accepts (not_exists.1 hr))
  · intro r hr hn
    obtain ⟨rfl, -, hnew⟩ := isNew_of_relayFor hr.relay
    rw [start_of_accepts hr, if_neg (by simp [hn])]
    have hreg := registered?_register hr
    refine ⟨rfl, rfl, hnew, ?_, ?_, ?_, ⟨_, stop_register hr⟩⟩
    · intro files hfiles
      rw [mem_activeStreams hfiles]
      simp [register]
    · intro c' r' hr'
      refine start_of_registered hr' hr.key ?_
      rw [hreg, if_pos (Json.sameKey_self hr.key)]
      simp
    · intro other hother
      rw [hreg, if_neg (by simp [hother])]

/-- A hub that sends to the topic `t`. -/
def plain : Hub where
  settings := {
    brokers := []
    topic := "t"
    tag := []
    keyStrategy := .byContainer
    logLevel := []
    socketPath := []
    maxFrameSize := 100
    pollTimeout := 0
    shutdownTimeout := none
    queueSize := 1
    errorBufferSize := 1
    metricsInterval := 0 }
  hostname := []
  readCapacity := 1
  nesting := ⟨100, 100⟩

/-- A container whose identifier is a number: the start fails, and a start for a container with a proper
identifier is refused after that. -/
theorem start_outcome_number : ∃ r, plain.Accepts (.str "a") { id := .int 5 } r ∧
    (plain.start (.str "a") { id := .int 5 }).2.start (.str "a") { id := .str "c" } =
      (.error (.streamExists (.str "a")), (plain.start (.str "a") { id := .int 5 }).2) := by
  obtain ⟨r, hr⟩ : ∃ r, plain.relayFor (.str "a") { id := .int 5 } = .ok r := ⟨_, rfl⟩
  obtain ⟨r', hr'⟩ : ∃ r, plain.relayFor (.str "a") { id := .str "c" } = .ok r := ⟨_, rfl⟩
  have ha : plain.Accepts (.str "a") { id := .int 5 } r := ⟨hr, rfl, rfl⟩
  obtain ⟨-, habandoned⟩ := start_outcome plain (.str "a") { id := .int 5 }
  exact ⟨r, ha, (habandoned r ha rfl).blocked _ r' hr'⟩

end Hub

end LogRelay
