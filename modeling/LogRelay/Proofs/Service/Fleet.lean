import LogRelay.Proofs.Service.Start
import LogRelay.Proofs.Stream.Likeness
import Mathlib.Data.List.Induction
/-!
# The streams of a hub at work

All relays of a hub as one system.  Streams are started and taken out of the registry, the loops of the
relays go on by steps, those who stop them give them the sign and publish what is left, bytes come into
their streams, and calls of the broker are completed, all in any order.  The relays share the hub's
outlet, and each has a stream of its own.

## Main definitions

* `Fleet`, `Fleet.step`, `Fleet.run`: the system, one move, and several of them.
* `Fleet.own`: the moves of one relay.
* `Fleet.Goes`: what each move leads to.
* `Fleet.Keeps`: each relay has gone on as it does alone.

## Main statements

* `goes_of_step`: a move leads to what the rules say.
* `sent_alone`: each relay has sent what it sends alone.
-/
namespace LogRelay

/-! ## What others do with the outlet -/

namespace Outlet

variable {o o' o'' : Outlet} {ds es : List Delivery}

theorem Gains.trans (h : o.Gains o' ds) (h' : o'.Gains o'' es) : o.Gains o'' (ds ++ es) where
  policy := h'.policy.trans h.policy
  deliveries := by rw [h'.deliveries, h.deliveries, List.append_assoc]

/-- The completion of a call is no further call. -/
theorem gains_succeed (o : Outlet) (n : Nat) : o.Gains (o.succeed n) [] := by
  rw [succeed]
  split
  · exact ⟨rfl, (List.append_nil _).symm⟩
  · exact .refl o

theorem gains_fail (o : Outlet) (n : Nat) (reason : Text) : o.Gains (o.fail n reason) [] := by
  rw [fail]
  split
  · exact ⟨rfl, (List.append_nil _).symm⟩
  · exact .refl o

theorem succeed_calls (o : Outlet) (n : Nat) : (o.succeed n).calls = o.calls := by
  rw [succeed]
  split <;> rfl

theorem fail_calls (o : Outlet) (n : Nat) (reason : Text) : (o.fail n reason).calls = o.calls := by
  rw [fail]
  split <;> rfl

end Outlet

/-! ## The hub without its schedule -/

namespace Hub

variable {h : Hub} {file : Json} {c : Container} {r : Relay}

/-- Enter the relay of a container's stream, if one can be entered, without starting it. -/
def enter (h : Hub) (file : Json) (c : Container) : Hub :=
  match h.relayFor file c with
  | .error _ => h
  | .ok r => if file.isKey && (h.registered? file).isNone then h.register r else h

/-- Take the relay of a file out of the registry. -/
def remove (h : Hub) (file : Json) : Hub :=
  { h with registry := Members.eraseBy Json.sameKey file h.registry }

/-- What is entered is a relay that can be. -/
theorem enter_eq (h : Hub) (file : Json) (c : Container) :
    (∀ r, ¬ h.Accepts file c r) ∧ h.enter file c = h ∨
      ∃ r, h.Accepts file c r ∧ h.enter file c = h.register r := by
  rw [enter]
  split
  · rename_i f hf
    exact .inl ⟨fun r hr => (by rw [hr.relay] at hf; cases hf), rfl⟩
  · rename_i r hr
    split_ifs with hcond
    · obtain ⟨hkey, hfree⟩ := Bool.and_eq_true_iff.1 hcond
      exact .inr ⟨r, ⟨hr, hkey, by simpa using hfree⟩, rfl⟩
    · exact .inl ⟨fun r hr => hcond (by simp [hr.key, hr.free]), rfl⟩

/-- A stop takes the relay out of the registry and stops it. -/
theorem stop_eq_remove {i : Nat} (hkey : file.isKey = true) (hi : h.registered? file = some i) :
    h.stop file = (h.remove file).stopRelay i := by
  have hempty : h.registry.isEmpty = false := by
    cases hr : h.registry with
    | nil => simp [registered?, Members.getBy?, hr] at hi
    | cons entry rest => rfl
  simp [stop, hempty, hkey, hi, remove]

end Hub

/-! ## The system -/

/-- A hub at work.  The sessions are those of its relays, whose outlet is the hub's. -/
structure Fleet where
  hub : Hub
  sessions : List Session := []

namespace Fleet

/-- What may happen next. -/
inductive Move where
  /-- somebody starts the stream of a file, as far as the entering of its relay -/
  | start (file : Json) (c : Container)
  /-- a relay makes a move, or somebody makes one with it -/
  | session (i : Nat) (m : Session.Move)
  /-- somebody who stops the stream of a file takes its relay out of the registry -/
  | remove (file : Json)
  /-- an accepted call of the broker succeeds -/
  | succeed (n : Nat)
  /-- an accepted call of the broker fails -/
  | fail (n : Nat) (reason : Text)

/-- A session may make a move.  The stream of a relay that cannot be named is never opened. -/
def Permits (session : Session) : Session.Move → Bool
  | .opened _ => Hub.isNameable session.relay.container
  | m => m.isOwn

/-- The system after a move, if that can be made. -/
def step (s : Fleet) : Move → Option Fleet
  | .start file c =>
    let hub := s.hub.enter file c
    let new := hub.relays.drop s.hub.relays.length
    some { hub, sessions := s.sessions ++ new.map (Session.start · hub.outlet) }
  | .session i m =>
    match s.sessions[i]? with
    | none => none
    | some session =>
      if Permits session m then
        (({ session with outlet := s.hub.outlet } : Session).step m).map fun next => {
          hub := { s.hub with outlet := next.outlet, relays := s.hub.relays.set i next.relay }
          sessions := s.sessions.set i next }
      else none
  | .remove file => some { s with hub := s.hub.remove file }
  | .succeed n => some { s with hub := { s.hub with outlet := s.hub.outlet.succeed n } }
  | .fail n reason => some { s with hub := { s.hub with outlet := s.hub.outlet.fail n reason } }

/-- The system before any stream is started. -/
def opened (hub : Hub) : Fleet :=
  { hub := { hub with registry := [], relays := [] } }

/-- The system after several moves, if they can be made. -/
def run (s : Fleet) (moves : List Move) : Option Fleet :=
  moves.foldlM step s

/-- The move of the relay of a number, if it is one. -/
def Move.own? (i : Nat) : Move → Option Session.Move
  | .session k m => if k = i then some m else none
  | _ => none

/-- The moves of the relay of a number. -/
def own (i : Nat) (moves : List Move) : List Session.Move :=
  moves.filterMap (Move.own? i)

variable {s s' : Fleet} {hub : Hub} {moves : List Move} {m : Move}

/-! ## What each move leads to -/

/-- What a move leads to. -/
inductive Goes (s : Fleet) : Move → Fleet → Prop where
  | start {file : Json} {c : Container} {r : Relay} (hr : s.hub.Accepts file c r) :
      Goes s (.start file c) {
        hub := s.hub.register r
        sessions := s.sessions ++ [.start r s.hub.outlet] }
  | session {i : Nat} {m : Session.Move} {session next : Session}
      (hi : s.sessions[i]? = some session) (hm : m.isOwn = true)
      (h : ({ session with outlet := s.hub.outlet } : Session).step m = some next) :
      Goes s (.session i m) {
        hub := { s.hub with outlet := next.outlet, relays := s.hub.relays.set i next.relay }
        sessions := s.sessions.set i next }
  /-- neither is a relay entered or changed nor the broker called -/
  | manage {m : Move} {hub : Hub} (hm : ∀ i, m.own? i = none)
      (hmade : hub.relayFor = s.hub.relayFor) (hsettings : hub.settings = s.hub.settings)
      (hrelays : hub.relays = s.hub.relays) (hregistry : hub.registry.Sublist s.hub.registry)
      (hgains : s.hub.outlet.Gains hub.outlet []) (hcalls : hub.outlet.calls = s.hub.outlet.calls) :
      Goes s m { s with hub }

theorem isOwn_of_permits {session : Session} {m : Session.Move} (h : Permits session m = true) :
    m.isOwn = true := by
  cases m <;> first | rfl | exact h

/-- A move leads to what the rules say. -/
theorem goes_of_step (h : s.step m = some s') : s.Goes m s' := by
  cases m with
  | start file c =>
      cases h
      rcases s.hub.enter_eq file c with ⟨-, heq⟩ | ⟨r, hr, heq⟩
      · rw [heq]
        simpa using Goes.manage (s := s) (m := .start file c) (fun _ => rfl) rfl rfl rfl
          (.refl _) (.refl _) rfl
      · rw [heq]
        simpa [Hub.register] using Goes.start hr
  | session i m =>
      simp only [step] at h
      split at h
      · cases h
      · rename_i session hi
        split_ifs at h with hm
        obtain ⟨next, hnext, rfl⟩ := Option.map_eq_some_iff.1 h
        exact .session hi (isOwn_of_permits hm) hnext
  | remove file =>
      cases h
      exact .manage (fun _ => rfl) rfl rfl rfl List.filter_sublist (.refl _) rfl
  | succeed n =>
      cases h
      exact .manage (fun _ => rfl) rfl rfl rfl (.refl _) (Outlet.gains_succeed _ n)
        (Outlet.succeed_calls _ n)
  | fail n reason =>
      cases h
      exact .manage (fun _ => rfl) rfl rfl rfl (.refl _) (Outlet.gains_fail _ n reason)
        (Outlet.fail_calls _ n reason)

/-! ## What is kept -/

/-- The relay of a number was started and has gone on as it does when it makes its moves alone, with any
outlet. -/
def GoesAlone (hub : Hub) (moves : List Move) (i : Nat) (session : Session) : Prop :=
  ∃ file c r, .start file c ∈ moves ∧ hub.relayFor file c = .ok r ∧
    ∀ o : Outlet, o.IsCivil → ∃ t, (Session.start r o).run (own i moves) = some t ∧
      session.IsAlike t ∧ t.outlet.IsCivil

/-- Each relay has gone on as it does alone, and what it has sent are its own calls of the broker. -/
structure Keeps (hub : Hub) (moves : List Move) (s : Fleet) : Prop where
  made : s.hub.relayFor = hub.relayFor
  relays : s.hub.relays = s.sessions.map (·.relay)
  civil : s.hub.outlet.IsCivil
  idle : ∀ i, s.sessions.length ≤ i → own i moves = []
  alone : ∀ i session, s.sessions[i]? = some session → GoesAlone hub moves i session
  calls : ∃ log : List (Nat × Delivery),
    hub.outlet.Gains s.hub.outlet (log.map (·.2)) ∧ (∀ call ∈ log, call.1 < s.sessions.length) ∧
      ∀ i session, s.sessions[i]? = some session →
        session.sent = (log.filter (·.1 = i)).map (·.2)

variable {i : Nat} {session next : Session}

theorem own_concat (i : Nat) (moves : List Move) (m : Move) :
    own i (moves ++ [m]) = own i moves ++ (m.own? i).toList := by
  rw [own, own, List.filterMap_append]
  cases h : m.own? i <;> simp [h]

/-- A move that is not its own is none for a relay. -/
theorem own_concat_of_none (h : m.own? i = none) : own i (moves ++ [m]) = own i moves := by
  rw [own_concat, h]
  exact List.append_nil _

theorem own?_of_ne {k : Nat} (h : k ≠ i) (m : Session.Move) : (Move.session k m).own? i = none :=
  if_neg h

/-- The moves of others do not matter to a relay. -/
theorem GoesAlone.concat_of_none (h : GoesAlone hub moves i session) (hm : m.own? i = none) :
    GoesAlone hub (moves ++ [m]) i session := by
  obtain ⟨file, c, r, hstart, hr, halone⟩ := h
  refine ⟨file, c, r, List.mem_append_left _ hstart, hr, ?_⟩
  rw [own_concat_of_none hm]
  exact halone

/-- A relay that makes a move makes it alone as well. -/
theorem GoesAlone.concat_session {m : Session.Move} {o : Outlet} (h : GoesAlone hub moves i session)
    (hm : m.isOwn = true) (ho : o.IsCivil)
    (hstep : ({ session with outlet := o } : Session).step m = some next) :
    GoesAlone hub (moves ++ [.session i m]) i next := by
  obtain ⟨file, c, r, hstart, hr, halone⟩ := h
  refine ⟨file, c, r, List.mem_append_left _ hstart, hr, fun o' ho' => ?_⟩
  obtain ⟨t, hrun, halike, hciv⟩ := halone o' ho'
  obtain ⟨-, hmirror⟩ := Session.exists_step_of_isAlike hm ho hstep
  obtain ⟨t', hstep', halike', hciv'⟩ := hmirror t
    ⟨halike.relay, halike.flow, halike.taken, halike.finishedAt, halike.sent⟩ hciv
  refine ⟨t', ?_, halike', hciv'⟩
  have hown : own i (moves ++ [.session i m]) = own i moves ++ [m] := by
    simp [own_concat, Move.own?]
  rw [hown, Session.run, List.foldlM_append]
  simpa [Session.run, hstep'] using congrArg (Option.bind · fun t => t.step m) hrun

/-- A relay that has just been entered has not gone on at all. -/
theorem goesAlone_start {file : Json} {c : Container} {r : Relay} (hr : hub.relayFor file c = .ok r)
    (hidle : own i moves = []) (o : Outlet) :
    GoesAlone hub (moves ++ [.start file c]) i (.start r o) := by
  refine ⟨file, c, r, by simp, hr, fun o' ho' => ⟨.start r o', ?_, ⟨rfl, rfl, rfl, rfl, rfl⟩, ho'⟩⟩
  rw [own_concat_of_none rfl, hidle]
  rfl

theorem eq_of_getElem?_concat {α : Type} {l : List α} {a b : α} (h : (l ++ [a])[i]? = some b) :
    l[i]? = some b ∨ i = l.length ∧ b = a := by
  rcases Nat.lt_or_ge i l.length with hlt | hge
  · rw [List.getElem?_append_left hlt] at h
    exact .inl h
  · rw [List.getElem?_append_right hge, List.getElem?_singleton] at h
    split_ifs at h with hzero
    exact .inr ⟨by omega, (Option.some.inj h).symm⟩

theorem keeps_start {file : Json} {c : Container} {r : Relay} (hs : s.Keeps hub moves)
    (hr : s.hub.Accepts file c r) : Keeps hub (moves ++ [.start file c])
      { hub := s.hub.register r, sessions := s.sessions ++ [.start r s.hub.outlet] } where
  made := hs.made
  relays := by
    rw [Hub.register, hs.relays, List.map_append]
    rfl
  civil := hs.civil
  idle i hi := by
    rw [own_concat_of_none rfl]
    simp only [List.length_append, List.length_singleton] at hi
    exact hs.idle i (by omega)
  alone i session hi := by
    rcases eq_of_getElem?_concat hi with hi | ⟨rfl, rfl⟩
    · exact (hs.alone i session hi).concat_of_none rfl
    · exact goesAlone_start (hs.made ▸ hr.relay) (hs.idle _ le_rfl) _
  calls := by
    obtain ⟨log, hgains, hbound, hsent⟩ := hs.calls
    refine ⟨log, hgains, ?_, ?_⟩
    · intro call hcall
      rw [List.length_append]
      exact Nat.lt_add_right _ (hbound call hcall)
    · intro i session hi
      rcases eq_of_getElem?_concat hi with hi | ⟨rfl, rfl⟩
      · exact hsent i session hi
      · have hnone : log.filter (·.1 = s.sessions.length) = [] :=
          List.filter_eq_nil_iff.2 fun call hcall => by simpa using (hbound call hcall).ne
        rw [hnone]
        rfl

theorem keeps_session {m : Session.Move} (hs : s.Keeps hub moves) (hi : s.sessions[i]? = some session)
    (hm : m.isOwn = true)
    (hstep : ({ session with outlet := s.hub.outlet } : Session).step m = some next) :
    Keeps hub (moves ++ [.session i m]) {
      hub := { s.hub with outlet := next.outlet, relays := s.hub.relays.set i next.relay }
      sessions := s.sessions.set i next } := by
  obtain ⟨⟨ds, hgains, hsent⟩, -⟩ := Session.exists_step_of_isAlike hm hs.civil hstep
  have hlt : i < s.sessions.length := (List.getElem?_eq_some_iff.1 hi).1
  refine ⟨hs.made, ?_, hgains.isCivil hs.civil, ?_, ?_, ?_⟩
  · rw [List.map_set, ← hs.relays]
  · intro k hk
    rw [List.length_set] at hk
    rw [own_concat_of_none (own?_of_ne (by omega) m)]
    exact hs.idle k hk
  · intro k t hk
    by_cases hik : i = k
    · subst hik
      rw [List.getElem?_set_self hlt] at hk
      rw [← Option.some.inj hk]
      exact (hs.alone i session hi).concat_session hm hs.civil hstep
    · rw [List.getElem?_set_ne hik] at hk
      exact (hs.alone k t hk).concat_of_none (own?_of_ne hik m)
  · obtain ⟨log, hlog, hbound, hcalls⟩ := hs.calls
    refine ⟨log ++ ds.map (i, ·), ?_, ?_, ?_⟩
    · simpa [Function.comp_def] using hlog.trans hgains
    · intro call hcall
      rw [List.length_set]
      rcases List.mem_append.1 hcall with hcall | hcall
      · exact hbound call hcall
      · obtain ⟨d, -, rfl⟩ := List.mem_map.1 hcall
        exact hlt
    · intro k t hk
      rw [List.filter_append, List.map_append]
      by_cases hik : i = k
      · subst hik
        rw [List.getElem?_set_self hlt] at hk
        rw [← Option.some.inj hk, hsent, hcalls i session hi]
        simp [List.filter_map, Function.comp_def]
      · rw [List.getElem?_set_ne hik] at hk
        rw [hcalls k t hk]
        simp [List.filter_map, Function.comp_def, hik]

/-- A move keeps that. -/
theorem keeps_of_goes (hs : s.Keeps hub moves) (h : s.Goes m s') : s'.Keeps hub (moves ++ [m]) := by
  cases h with
  | start hr => exact keeps_start hs hr
  | session hi hm hstep => exact keeps_session hs hi hm hstep
  | manage hm hmade hsettings hrelays hregistry hgains hcalls =>
      obtain ⟨log, hlog, hbound, hcalls⟩ := hs.calls
      refine ⟨hmade.trans hs.made, hrelays.trans hs.relays, hgains.isCivil hs.civil, ?_, ?_, log, ?_,
        hbound, hcalls⟩
      · intro i hi
        rw [own_concat_of_none (hm i)]
        exact hs.idle i hi
      · intro i session hi
        exact (hs.alone i session hi).concat_of_none (hm i)
      · simpa using hlog.trans hgains

/-- Every run keeps that. -/
theorem keeps_run (hciv : hub.outlet.IsCivil) (h : (opened hub).run moves = some s) :
    s.Keeps hub moves := by
  induction moves using List.reverseRecOn generalizing s with
  | nil =>
      cases h
      exact ⟨rfl, rfl, hciv, fun _ _ => rfl, by simp [opened], [], .refl _, by simp,
        by simp [opened]⟩
  | append_singleton moves m ih =>
      rw [run, List.foldlM_append] at h
      obtain ⟨t, hrun, hstep⟩ := Option.bind_eq_some_iff.1 h
      have hstep' : t.step m = some s := by simpa using hstep
      exact keeps_of_goes (ih hrun) (goes_of_step hstep')

/-- **Streams do not influence each other.**  However the starts and stops of streams, the loops of their
relays and the writers of their streams go on, and whatever is in the streams, as long as the broker
fails in its own way only: each relay was made for some start, and has published what it publishes when
it is new and alone, with any outlet, and makes the same moves.  The calls of the broker are the relays'
calls in some order, each one's in its own. -/
theorem sent_alone (hciv : hub.outlet.IsCivil) (hrun : (opened hub).run moves = some s) :
    (∀ i session, s.sessions[i]? = some session →
      ∃ file c r, .start file c ∈ moves ∧ hub.relayFor file c = .ok r ∧ r.IsNew ∧
        ∀ o : Outlet, o.IsCivil → ∃ alone, (Session.start r o).run (own i moves) = some alone ∧
          alone.sent.map (·.send) = session.sent.map (·.send) ∧ alone.taken = session.taken ∧
            alone.relay = session.relay) ∧
    ∃ log : List (Nat × Delivery),
      s.hub.outlet.deliveries = hub.outlet.deliveries ++ log.map (·.2) ∧
        (∀ call ∈ log, call.1 < s.sessions.length) ∧
        ∀ i session, s.sessions[i]? = some session →
          session.sent = (log.filter (·.1 = i)).map (·.2) := by
  have hkeeps := keeps_run hciv hrun
  constructor
  · intro i session hi
    obtain ⟨file, c, r, hstart, hr, halone⟩ := hkeeps.alone i session hi
    refine ⟨file, c, r, hstart, hr, (Hub.isNew_of_relayFor hr).2.2, fun o ho => ?_⟩
    obtain ⟨t, ht, halike, -⟩ := halone o ho
    exact ⟨t, ht, halike.sent, halike.taken, halike.relay⟩
  · obtain ⟨log, hgains, hbound, hcalls⟩ := hkeeps.calls
    exact ⟨log, hgains.deliveries, hbound, hcalls⟩

/-- Two streams, of which one holds no frame but something else, and is started again after it has been
stopped: the line of the other one is published as if it were alone. -/
theorem sent_alone_corrupt :
    ∃ (moves : List Move) (s : Fleet), (opened Hub.plain).run moves = some s ∧
      ∃ session, s.sessions[1]? = some session ∧ session.sent.length = 1 ∧
        ∃ file c r, Move.start file c ∈ moves ∧ Hub.plain.relayFor file c = .ok r ∧
          ∃ alone, (Session.start r {}).run (own 1 moves) = some alone ∧
            alone.sent.map (·.send) = session.sent.map (·.send) := by
  let c : Container := { id := .str "c" }
  let stored (bs : Bytes) : Except Failure Stream := .ok { source := .stored bs none none }
  let moves : List Move := [.start (.str "a") c, .start (.str "b") c,
    .session 0 (.opened (stored [255, 255, 255, 255])),
    .session 1 (.opened (stored (Frame.wrap [26, 1, 97]))), .session 1 .work, .session 0 .work,
    .session 1 .work, .session 0 .work, .session 0 .work, .remove (.str "a"), .session 0 .signal,
    .session 1 .work, .start (.str "a") c, .session 0 .finish, .session 1 .work]
  have hvalue : ((opened Hub.plain).run moves).map (fun s => s.sessions.map (·.sent.length)) =
      some [0, 1, 0] := by
    decide +kernel
  obtain ⟨s, hrun, hs⟩ := Option.map_eq_some_iff.1 hvalue
  have hciv : Hub.plain.outlet.IsCivil := by simp [Outlet.IsCivil, Hub.plain]
  obtain ⟨session, hi, hlength⟩ : ∃ session, s.sessions[1]? = some session ∧
      session.sent.length = 1 := by
    have hone := congrArg (·[1]?) hs
    simpa using hone
  obtain ⟨halone, -⟩ := sent_alone hciv hrun
  obtain ⟨file, c, r, hstart, hr, -, hsame⟩ := halone 1 session hi
  obtain ⟨alone, hrun', hsent, -⟩ := hsame {} (by simp [Outlet.IsCivil])
  exact ⟨moves, s, hrun, session, hi, hlength, file, c, r, hstart, hr, alone, hrun', hsent⟩

end Fleet

end LogRelay
