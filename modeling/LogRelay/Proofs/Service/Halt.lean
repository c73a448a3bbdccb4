import LogRelay.Proofs.Service.Schedule
import LogRelay.Proofs.Stream.Disposal
/-!
# Shutting the hub down

The hub is shut down by somebody who takes all relays out of the registry at once, and then stops one
after the other: each gets the sign to stop, is waited for until its loop has ended or enough time has
passed, and is finished.  After the last one the broker is waited for, and its use is ended.  Meanwhile
the loops go on, streams are started and stopped by others, and calls of the broker are completed.

If what is left of a line in one of the relays cannot be published, otherwise than that the broker
refuses the record, and it is the shutdown that comes to publish it, then the shutdown ends there.  The
relays behind that one are not told to stop, and the broker is neither waited for nor is its use ended.

## Main definitions

* `Halt`, `Halt.step`, `Halt.run`: the system with somebody who shuts it down, one move, and several.
* `Fleet.Spares`: what each move of the system leaves as it is.
* `Halt.Nexts`: what the next step of the shutdown can be.
* `Halt.IsDue`: how far the shutdown has come.
* `Halt.LosesAt`: in a run, the shutdown fails at a relay.
* `Halt.IsComplete`, `Halt.IsCutShort`: the two ways in which it can end.

## Main statements

* `isDue_run`: every run keeps account of how far the shutdown has come.
* `halted_iff`: a shutdown that has ended is complete just if it has failed at no relay.
* `shutdown_eq_run`: a shutdown that nobody disturbs is `Hub.shutdown`.
-/
namespace LogRelay

/-! ## What the moves of a relay leave alone -/

namespace Relay

/-- Publishing a line is no call that ends the use of the broker or waits for it. -/
theorem publish_calls (r : Relay) (e : Entry) (line : Bytes) (o : Outlet) :
    (r.publish e line o).2.calls = o.calls := by
  by_cases h : r.Handles o o.deliveries.length (e, line)
  · obtain ⟨taken, d, heq, -⟩ := publish_of_handles h
    rw [heq, Outlet.noting]
    split <;> rfl
  · obtain ⟨f, lost, heq, -⟩ := publish_of_not_handles h
    rw [heq]
    rfl

theorem take_calls (r : Relay) (e : Entry) (o : Outlet) : (r.take e o).2.calls = o.calls := by
  rw [take]
  split_ifs
  · rfl
  · simp only
    split
    · rfl
    · rename_i line _
      have hcalls := ({ r with
        aggregator := (r.aggregator.process e).2
        lastEntry := some e
        place := .reading .empty } : Relay).publish_calls e line o
      split <;> simp_all

theorem finish_calls (r : Relay) (o : Outlet) : (r.finish o).2.2.calls = o.calls := by
  rw [finish]
  split_ifs
  · rfl
  · simp only
    split
    · exact publish_calls _ _ _ _
    · rfl

/-- A relay that is finished stays that, whoever finishes it. -/
theorem finish_finished (r : Relay) (o : Outlet) : (r.finish o).2.1.finished = true := by
  obtain ⟨answer, aggregator, o', heq, -⟩ := r.finish_eq o
  rw [heq]

theorem finish_stopping (r : Relay) (o : Outlet) : (r.finish o).2.1.stopping = r.stopping := by
  obtain ⟨answer, aggregator, o', heq, -⟩ := r.finish_eq o
  rw [heq]

end Relay

namespace Session

variable {s s' : Session} {m : Move}

/-- What a move that is made by a relay or with it leaves as it is. -/
structure Spares (s : Session) (m : Move) (s' : Session) : Prop where
  calls : s'.outlet.calls = s.outlet.calls
  finished : s.relay.finished = true → s'.relay.finished = true
  /-- the sign to stop is given by a move of its own -/
  stopping : m ≠ .signal → s'.relay.stopping = s.relay.stopping

theorem spares_of_work (h : s.work = some s') : s.Spares .work s' := by
  cases works_of_work h with
  | look | draw => exact ⟨rfl, id, fun _ => rfl⟩
  | read _ _ _ hread =>
      obtain ⟨stream, place, rfl, -, -⟩ := Relay.read_eq_some hread
      exact ⟨rfl, id, fun _ => rfl⟩
  | @take e _ =>
      obtain ⟨aggregator, lastEntry, place, heq, -, -⟩ := s.relay.take_fst e s.outlet
      refine ⟨s.relay.take_calls e s.outlet, ?_, ?_⟩ <;> simp [record, heq]
  | @leave failure _ =>
      obtain ⟨place, heq⟩ := s.relay.exists_leave_eq failure s.outlet
      rw [heq]
      exact ⟨s.relay.finish_calls s.outlet, fun _ => s.relay.finish_finished s.outlet,
        fun _ => s.relay.finish_stopping s.outlet⟩
  | @close failure _ =>
      obtain ⟨failure', heq⟩ := s.relay.close_eq failure
      rw [heq]
      exact ⟨rfl, id, fun _ => rfl⟩

theorem spares_of_step (hm : m.isOwn = true) (h : s.step m = some s') : s.Spares m s' := by
  cases m with
  | opened answer =>
      simp only [step] at h
      split at h
      · rw [← Option.some.inj h]
        cases answer <;> exact ⟨rfl, id, fun _ => rfl⟩
      · cases h
  | work => exact spares_of_work h
  | signal =>
      rw [← Option.some.inj h]
      exact ⟨rfl, id, fun hno => absurd rfl hno⟩
  | finish =>
      rw [← Option.some.inj h]
      exact ⟨s.relay.finish_calls s.outlet, fun _ => s.relay.finish_finished s.outlet,
        fun _ => s.relay.finish_stopping s.outlet⟩
  | receive | hangUp =>
      rw [← Option.some.inj h]
      exact ⟨rfl, id, fun _ => rfl⟩
  | others => cases hm

end Session

/-! ## What the moves of the system leave alone -/

namespace Fleet

variable {s s' : Fleet} {m : Move} {moves : List Move} {hub : Hub}

/-- The relay of a number is finished. -/
def HasFinished (s : Fleet) (k : Nat) : Prop :=
  ∃ session, s.sessions[k]? = some session ∧ session.relay.finished = true

/-- The relay of a number has got the sign to stop just if it had it before. -/
def KeepsSign (s s' : Fleet) (k : Nat) : Prop :=
  ∀ session, s.sessions[k]? = some session → ∃ next, s'.sessions[k]? = some next ∧
    next.relay.stopping = session.relay.stopping

/-- The relays that consume a stream, in the order in which they were started. -/
def numbers (s : Fleet) : List Nat :=
  s.hub.registry.map Prod.snd

/-- What a move of the system leaves as it is. -/
structure Spares (s : Fleet) (m : Move) (s' : Fleet) : Prop where
  settings : s'.hub.settings = s.hub.settings
  calls : s'.hub.outlet.calls = s.hub.outlet.calls
  sessions : ∀ k session, s.sessions[k]? = some session → ∃ next, s'.sessions[k]? = some next ∧
    (session.relay.finished = true → next.relay.finished = true) ∧
      (m ≠ .session k .signal → next.relay.stopping = session.relay.stopping)
  /-- a relay is entered by a move of its own -/
  registry : ∀ entry ∈ s'.hub.registry, entry ∈ s.hub.registry ∨ ∃ c, m = .start entry.1 c

theorem spares_of_step (h : s.step m = some s') : s.Spares m s' := by
  cases goes_of_step h with
  | @start file c r hr =>
      obtain ⟨hfile, -⟩ := Hub.isNew_of_relayFor hr.relay
      refine ⟨rfl, rfl, fun k session hk => ⟨session, ?_, id, fun _ => rfl⟩, fun entry hentry => ?_⟩
      · exact List.getElem?_append_left (List.getElem?_eq_some_iff.1 hk).1 ▸ hk
      · rcases List.mem_append.1 hentry with hold | hnew
        · exact .inl hold
        · obtain rfl := List.mem_singleton.1 hnew
          exact .inr ⟨c, by rw [hfile]⟩
  | @session i m session next hi hm hstep =>
      obtain ⟨hcalls, hfinished, hstopping⟩ := Session.spares_of_step hm hstep
      refine ⟨rfl, hcalls, fun k other hk => ?_, fun _ => .inl⟩
      by_cases hik : i = k
      · subst hik
        obtain rfl := Option.some.inj (hi.symm.trans hk)
        refine ⟨next, List.getElem?_set_self (List.getElem?_eq_some_iff.1 hi).1, hfinished, ?_⟩
        intro hne
        exact hstopping fun heq => hne (by rw [heq])
      · exact ⟨other, by rw [List.getElem?_set_ne hik, hk], id, fun _ => rfl⟩
  | manage hm hmade hsettings hrelays hregistry hgains hcalls =>
      exact ⟨hsettings, hcalls, fun k session hk => ⟨session, hk, id, fun _ => rfl⟩,
        fun entry hentry => .inl (hregistry.subset hentry)⟩

theorem Spares.hasFinished (h : s.Spares m s') {k : Nat} (hk : s.HasFinished k) :
    s'.HasFinished k := by
  obtain ⟨session, hsession, hfinished⟩ := hk
  obtain ⟨next, hnext, hkept, -⟩ := h.sessions k session hsession
  exact ⟨next, hnext, hkept hfinished⟩

/-- Each relay of the registry is there, and entered once. -/
structure IsNumbered (s : Fleet) : Prop where
  relays : s.hub.relays = s.sessions.map (·.relay)
  known : ∀ k ∈ s.numbers, k < s.sessions.length
  nodup : s.numbers.Nodup

theorem isNumbered_step (hs : s.IsNumbered) (h : s.step m = some s') : s'.IsNumbered := by
  cases goes_of_step h with
  | @start file c r hr =>
      have hnew : (s.hub.registry ++ [(r.file, s.hub.relays.length)]).map Prod.snd =
          s.numbers ++ [s.sessions.length] := by
        rw [List.map_append, hs.relays, List.length_map]
        rfl
      refine ⟨?_, ?_, ?_⟩
      · simp [Hub.register, hs.relays, Session.start]
      · intro k hk
        rw [numbers, Hub.register, hnew, List.mem_append, List.mem_singleton] at hk
        rw [List.length_append, List.length_singleton]
        rcases hk with hk | rfl
        · exact Nat.lt_succ_of_lt (hs.known k hk)
        · exact Nat.lt_succ_self _
      · rw [numbers, Hub.register, hnew]
        refine List.nodup_append.2 ⟨hs.nodup, by simp, ?_⟩
        intro k hk k' hk'
        rw [List.mem_singleton.1 hk']
        exact (hs.known k hk).ne
  | session hi hm hstep =>
      refine ⟨?_, fun k hk => ?_, hs.nodup⟩
      · rw [List.map_set, ← hs.relays]
      · rw [List.length_set]
        exact hs.known k hk
  | manage hm hmade hsettings hrelays hregistry hgains hcalls =>
      have hnumbers := hregistry.map Prod.snd
      exact ⟨hrelays.trans hs.relays, fun k hk => hs.known k (hnumbers.subset hk),
        hs.nodup.sublist hnumbers⟩

theorem isNumbered_run (hs : s.IsNumbered) (h : s.run moves = some s') : s'.IsNumbered :=
  foldlM_induction (fun _ _ _ hs (_ : True) => isNumbered_step hs) hs (fun _ _ => trivial) h

theorem isNumbered_opened (hub : Hub) : (opened hub).IsNumbered :=
  ⟨rfl, by simp [numbers, opened], by simp [numbers, opened]⟩

/-- The system after a call of the broker that is not made by a relay. -/
def call (s : Fleet) (c : BrokerCall) : Fleet :=
  { s with hub := { s.hub with outlet := { s.hub.outlet with calls := s.hub.outlet.calls ++ [c] } } }

end Fleet

/-! ## Somebody who shuts the hub down -/

/-- How far a shutdown has come. -/
inductive Halt.Phase where
  /-- those relays are to be stopped -/
  | telling (left : List Nat)
  /-- a relay has got the sign to stop and is finished next, and those are to be stopped then -/
  | waiting (i : Nat) (left : List Nat)
  /-- the broker has done its work, and its use is ended next -/
  | closing
  /-- all is done -/
  | complete
  /-- one of the relays could not be finished, and those behind it are left as they are -/
  | failed (f : Failure) (left : List Nat)

/-- A hub at work, and somebody who shuts it down. -/
structure Halt where
  fleet : Fleet
  phase : Halt.Phase

namespace Halt

namespace Phase

/-- The relays that the shutdown has not finished. -/
def left : Phase → List Nat
  | .telling left | .failed _ left => left
  | .waiting i left => i :: left
  | .closing | .complete => []

/-- The relays that have not got the sign from it. -/
def untold : Phase → List Nat
  | .telling left | .waiting _ left | .failed _ left => left
  | .closing | .complete => []

/-- The calls of the broker that it has made. -/
def calls (timeout : Option Number) : Phase → List BrokerCall
  | .closing => [.flush timeout]
  | .complete => [.flush timeout, .close timeout]
  | .telling _ | .waiting _ _ | .failed _ _ => []

/-- What it has answered, once it has ended. -/
def answer? : Phase → Option (Except Failure Unit)
  | .complete => some (.ok ())
  | .failed f _ => some (.error f)
  | .telling _ | .waiting _ _ | .closing => none

/-- What comes after a relay has been finished. -/
def told (left : List Nat) : Except Failure Unit → Phase
  | .ok _ => .telling left
  | .error f => .failed f left

end Phase

/-- What may happen next: a step of the shutdown, or something else. -/
inductive Move where
  | next
  | fleet (m : Fleet.Move)

/-- The shutdown begins: all relays are taken out of the registry. -/
def begun (s : Fleet) : Halt where
  fleet := { s with hub := { s.hub with registry := [] } }
  phase := .telling s.numbers

/-- The next step of the shutdown.  Whoever waits for a relay may go on at any time. -/
def next (h : Halt) : Option Halt :=
  let timeout := h.fleet.hub.settings.shutdownTimeout
  match h.phase with
  | .telling (i :: left) =>
    (h.fleet.step (.session i .signal)).map fun fleet => { fleet, phase := .waiting i left }
  | .waiting i left => do
    let session ← h.fleet.sessions[i]?
    let fleet ← h.fleet.step (.session i .finish)
    return { fleet, phase := .told left (session.relay.finish h.fleet.hub.outlet).1 }
  | .telling [] => some { fleet := h.fleet.call (.flush timeout), phase := .closing }
  | .closing => some { fleet := h.fleet.call (.close timeout), phase := .complete }
  | .complete | .failed _ _ => none

/-- The system after a move, if that can be made. -/
def step (h : Halt) : Move → Option Halt
  | .next => h.next
  | .fleet m => (h.fleet.step m).map fun fleet => { h with fleet }

/-- The system after several moves, if they can be made. -/
def run (h : Halt) (moves : List Move) : Option Halt :=
  moves.foldlM step h

variable {s : Fleet} {h h' : Halt} {m : Move} {moves : List Move} {i k : Nat} {left : List Nat}

/-! ## What a step of the shutdown can be -/

/-- What a step of the shutdown can lead to. -/
inductive Nexts (h : Halt) : Halt → Prop
  | tell {i left fleet} (hp : h.phase = .telling (i :: left))
      (hstep : h.fleet.step (.session i .signal) = some fleet) :
      Nexts h { fleet, phase := .waiting i left }
  | finish {i left session fleet} (hp : h.phase = .waiting i left)
      (hi : h.fleet.sessions[i]? = some session)
      (hstep : h.fleet.step (.session i .finish) = some fleet)
      (hkept : ¬ session.relay.LosesLast h.fleet.hub.outlet) :
      Nexts h { fleet, phase := .telling left }
  | lose {i left session fleet f} (hp : h.phase = .waiting i left)
      (hi : h.fleet.sessions[i]? = some session)
      (hstep : h.fleet.step (.session i .finish) = some fleet)
      (hlost : session.relay.LosesLast h.fleet.hub.outlet) :
      Nexts h { fleet, phase := .failed f left }
  | flush (hp : h.phase = .telling []) :
      Nexts h {
        fleet := h.fleet.call (.flush h.fleet.hub.settings.shutdownTimeout)
        phase := .closing }
  | close (hp : h.phase = .closing) :
      Nexts h {
        fleet := h.fleet.call (.close h.fleet.hub.settings.shutdownTimeout)
        phase := .complete }

theorem nexts_of_next (hnext : h.next = some h') : h.Nexts h' := by
  rw [next] at hnext
  split at hnext
  · rename_i i left hp
    obtain ⟨fleet, hstep, rfl⟩ := Option.map_eq_some_iff.1 hnext
    exact .tell hp hstep
  · rename_i i left hp
    obtain ⟨session, hi, hrest⟩ := Option.bind_eq_some_iff.1 hnext
    obtain ⟨fleet, hstep, heq⟩ := Option.bind_eq_some_iff.1 hrest
    obtain rfl := Option.some.inj heq
    cases hanswer : (session.relay.finish h.fleet.hub.outlet).1 with
    | ok =>
        refine .finish hp hi hstep fun hlost => ?_
        obtain ⟨f, hf⟩ := Relay.finish_error_iff.2 hlost
        cases hanswer.symm.trans hf
    | error f => exact .lose hp hi hstep (Relay.finish_error_iff.1 ⟨f, hanswer⟩)
  · exact Option.some.inj hnext ▸ .flush ‹_›
  · exact Option.some.inj hnext ▸ .close ‹_›
  · cases hnext
  · cases hnext

/-- The relay that is finished in a step of the shutdown is finished then. -/
theorem hasFinished_of_finish {fleet fleet' : Fleet}
    (hstep : fleet.step (.session i .finish) = some fleet') : fleet'.HasFinished i := by
  cases Fleet.goes_of_step hstep with
  | @session _ _ session next hi hm hfinish =>
      refine ⟨next, List.getElem?_set_self (List.getElem?_eq_some_iff.1 hi).1, ?_⟩
      rw [← Option.some.inj hfinish]
      exact session.relay.finish_finished _
  | manage hm => cases (hm i).symm.trans (if_pos rfl)

/-! ## How far the shutdown has come -/

/-- How far a shutdown has come that began with a system, if those moves are all that are made. -/
structure IsDue (s : Fleet) (moves : List Move) (h : Halt) : Prop where
  settings : h.fleet.hub.settings = s.hub.settings
  calls : h.fleet.hub.outlet.calls =
    s.hub.outlet.calls ++ h.phase.calls s.hub.settings.shutdownTimeout
  finished : ∃ done, s.numbers = done ++ h.phase.left ∧ ∀ k ∈ done, h.fleet.HasFinished k
  untold : ∀ k ∈ h.phase.untold, .fleet (.session k .signal) ∉ moves → s.KeepsSign h.fleet k
  registry : ∀ entry ∈ h.fleet.hub.registry, ∃ c, .fleet (.start entry.1 c) ∈ moves

theorem isDue_begun (s : Fleet) (moves : List Move) : (begun s).IsDue s moves where
  settings := rfl
  calls := (List.append_nil _).symm
  finished := ⟨[], rfl, by simp⟩
  untold _ _ _ session hsession := ⟨session, hsession, rfl⟩
  registry _ hentry := by cases hentry

/-- A move of the system, with which the shutdown may come further. -/
theorem IsDue.moved (hdue : h.IsDue s moves) {move : Fleet.Move} {fleet : Fleet} {phase : Phase}
    (hspares : h.fleet.Spares move fleet)
    (hcalls : ∀ timeout, phase.calls timeout = h.phase.calls timeout)
    (hfinished : ∃ done, s.numbers = done ++ phase.left ∧ ∀ k ∈ done, fleet.HasFinished k)
    (huntold : ∀ k ∈ phase.untold, k ∈ h.phase.untold ∧
      (move = .session k .signal → .fleet move ∈ moves))
    (hstart : ∀ file c, move = .start file c → .fleet move ∈ moves) :
    IsDue s moves { fleet, phase } where
  settings := hspares.settings.trans hdue.settings
  calls := by rw [hspares.calls, hdue.calls, hcalls]
  finished := hfinished
  untold k hk hno session hsession := by
    obtain ⟨huntold, hsignal⟩ := huntold k hk
    obtain ⟨now, hnow, hsame⟩ := hdue.untold k huntold hno session hsession
    obtain ⟨next, hnext, -, hstopping⟩ := hspares.sessions k now hnow
    refine ⟨next, hnext, (hstopping ?_).trans hsame⟩
    rintro rfl
    exact hno (hsignal rfl)
  registry entry hentry := by
    rcases hspares.registry entry hentry with hold | ⟨c, rfl⟩
    · exact hdue.registry entry hold
    · exact ⟨c, hstart _ _ rfl⟩

/-- A call of the broker after all relays have been finished. -/
theorem IsDue.called (hdue : h.IsDue s moves) {c : BrokerCall} {phase : Phase}
    (hcalls : phase.calls s.hub.settings.shutdownTimeout =
      h.phase.calls s.hub.settings.shutdownTimeout ++ [c])
    (hleft : h.phase.left = []) (hleft' : phase.left = []) (huntold : phase.untold = []) :
    IsDue s moves { fleet := h.fleet.call c, phase } where
  settings := hdue.settings
  calls := by
    rw [hcalls, ← List.append_assoc, ← hdue.calls]
    rfl
  finished := by
    obtain ⟨done, hnumbers, hfinished⟩ := hdue.finished
    exact ⟨done, by rw [hnumbers, hleft, hleft'], hfinished⟩
  untold k hk := by
    rw [huntold] at hk
    cases hk
  registry := hdue.registry

/-- The relay that has been waited for is finished. -/
theorem IsDue.finish (hdue : h.IsDue s moves) {fleet : Fleet} (hp : h.phase = .waiting i left)
    (hstep : h.fleet.step (.session i .finish) = some fleet) (answer : Except Failure Unit) :
    IsDue s moves { fleet, phase := .told left answer } := by
  obtain ⟨done, hnumbers, hfinished⟩ := hdue.finished
  have hspares := Fleet.spares_of_step hstep
  have hleft : (Phase.told left answer).left = left := by cases answer <;> rfl
  have huntold : (Phase.told left answer).untold = left := by cases answer <;> rfl
  have hcalls (timeout) : (Phase.told left answer).calls timeout = [] := by cases answer <;> rfl
  rw [hp] at hnumbers
  refine hdue.moved hspares (fun _ => by rw [hp, hcalls]; rfl) ⟨done ++ [i], ?_, fun k hk => ?_⟩
    (fun k hk => ⟨?_, nofun⟩) nofun
  · rw [hnumbers, hleft, List.append_assoc]
    rfl
  · rcases List.mem_append.1 hk with hk | hk
    · exact hspares.hasFinished (hfinished k hk)
    · rw [List.mem_singleton.1 hk]
      exact hasFinished_of_finish hstep
  · rwa [hp, ← huntold]

theorem isDue_next (hnodup : s.numbers.Nodup) (hdue : h.IsDue s moves) (hnext : h.next = some h') :
    h'.IsDue s moves := by
  obtain ⟨done, hnumbers, hfinished⟩ := hdue.finished
  cases nexts_of_next hnext with
  | @tell i left fleet hp hstep =>
      have hspares := Fleet.spares_of_step hstep
      rw [hp] at hnumbers
      refine hdue.moved hspares (fun _ => by rw [hp]; rfl) ⟨done, hnumbers, fun k hk => ?_⟩
        (fun k hk => ⟨?_, ?_⟩) nofun
      · exact hspares.hasFinished (hfinished k hk)
      · rw [hp]
        exact List.mem_cons_of_mem i hk
      · -- a relay is entered once
        rintro ⟨⟩
        rw [hnumbers] at hnodup
        exact absurd hk (List.nodup_cons.1 (hnodup.sublist (List.sublist_append_right ..))).1
  | finish hp hi hstep hkept => exact hdue.finish hp hstep (.ok ())
  | @lose _ _ _ _ f hp hi hstep hlost => exact hdue.finish hp hstep (.error f)
  | flush hp =>
      rw [hdue.settings]
      exact hdue.called (by rw [hp]; rfl) (by rw [hp]; rfl) rfl rfl
  | close hp =>
      rw [hdue.settings]
      exact hdue.called (by rw [hp]; rfl) (by rw [hp]; rfl) rfl rfl

theorem isDue_step (hnodup : s.numbers.Nodup) (hdue : h.IsDue s moves) (hm : m ∈ moves)
    (hstep : h.step m = some h') : h'.IsDue s moves := by
  cases m with
  | next => exact isDue_next hnodup hdue hstep
  | fleet move =>
      obtain ⟨fleet, hmove, rfl⟩ := Option.map_eq_some_iff.1 hstep
      obtain ⟨done, hnumbers, hfinished⟩ := hdue.finished
      have hspares := Fleet.spares_of_step hmove
      exact hdue.moved hspares (fun _ => rfl)
        ⟨done, hnumbers, fun k hk => hspares.hasFinished (hfinished k hk)⟩
        (fun k hk => ⟨hk, fun _ => hm⟩) fun _ _ _ => hm

/-- Every run keeps account of how far the shutdown has come. -/
theorem isDue_run (hnodup : s.numbers.Nodup) (hrun : (begun s).run moves = some h) :
    h.IsDue s moves :=
  foldlM_induction (fun _ _ _ => isDue_step hnodup) (isDue_begun s moves) (fun _ hm => hm) hrun

/-! ## The end of a shutdown -/

/-- A shutdown that has ended stays where it is. -/
theorem phase_run (hended : h.phase.answer?.isSome = true) (hrun : h.run moves = some h') :
    h'.phase = h.phase := by
  refine foldlM_induction (P := fun t => t.phase = h.phase) ?_ rfl (fun _ _ => trivial) hrun
  rintro t m t' hsame - hstep
  cases m with
  | next =>
      rw [← hsame] at hended
      cases nexts_of_next hstep with
      | tell hp | finish hp | lose hp | flush hp | close hp => simp [hp, Phase.answer?] at hended
  | fleet move =>
      obtain ⟨fleet, -, rfl⟩ := Option.map_eq_some_iff.1 hstep
      exact hsame

/-- In a run, the shutdown comes to finish a relay of which something is left that cannot be published;
those are behind it. -/
def LosesAt (s : Fleet) (moves : List Move) (i : Nat) (left : List Nat) : Prop :=
  ∃ front back t session, moves = front ++ .next :: back ∧ (begun s).run front = some t ∧
    t.phase = .waiting i left ∧ t.fleet.sessions[i]? = some session ∧
      session.relay.LosesLast t.fleet.hub.outlet

/-- A shutdown that has come to such a relay has failed there. -/
theorem failed_of_losesAt (hnodup : s.numbers.Nodup) (hrun : (begun s).run moves = some h)
    (hloses : LosesAt s moves i left) :
    (∃ f, h.phase = .failed f left) ∧ ∃ done, s.numbers = done ++ i :: left := by
  obtain ⟨front, back, t, session, rfl, hfront, hp, hi, hlost⟩ := hloses
  obtain ⟨t', hstep, hback⟩ := foldlM_middle hfront hrun
  obtain ⟨f, hfailed⟩ : ∃ f, t'.phase = .failed f left := by
    cases nexts_of_next hstep with
    | tell hp' | flush hp' | close hp' => cases hp.symm.trans hp'
    | finish hp' hi' hstep' hkept =>
        obtain ⟨rfl, rfl⟩ := Phase.waiting.inj (hp.symm.trans hp')
        obtain rfl := Option.some.inj (hi.symm.trans hi')
        exact absurd hlost hkept
    | lose hp' =>
        obtain ⟨rfl, rfl⟩ := Phase.waiting.inj (hp.symm.trans hp')
        exact ⟨_, rfl⟩
  obtain ⟨done, hnumbers, -⟩ := (isDue_run hnodup hfront).finished
  rw [hp] at hnumbers
  refine ⟨⟨f, ?_⟩, done, hnumbers⟩
  rw [← hfailed]
  exact phase_run (by rw [hfailed]; rfl) hback

/-- A shutdown that has failed has come to such a relay. -/
theorem exists_losesAt {f : Failure} (hrun : (begun s).run moves = some h)
    (hfailed : h.phase = .failed f left) : ∃ i left, LosesAt s moves i left := by
  obtain ⟨front, m, back, t, t', rfl, hfront, hopen, hstep, ⟨f', left', hfailed'⟩, -⟩ :=
    foldlM_exists_step (P := fun t : Halt => ∃ f left, t.phase = .failed f left)
      (by rintro ⟨f, left, ⟨⟩⟩) ⟨f, left, hfailed⟩ hrun
  cases m with
  | next =>
      cases nexts_of_next hstep with
      | tell | finish | flush | close => cases hfailed'
      | lose hp hi _ hlost => exact ⟨_, _, front, back, t, _, rfl, hfront, hp, hi, hlost⟩
  | fleet move =>
      obtain ⟨fleet, -, rfl⟩ := Option.map_eq_some_iff.1 hstep
      exact absurd ⟨f', left', hfailed'⟩ hopen

/-- A shutdown that has answered is complete, or has failed. -/
theorem phase_cases {answer : Except Failure Unit} (hanswer : h.phase.answer? = some answer) :
    answer = .ok () ∧ h.phase = .complete ∨
      ∃ f left, answer = .error f ∧ h.phase = .failed f left := by
  cases hp : h.phase with
  | complete =>
      rw [hp] at hanswer
      exact .inl ⟨(Option.some.inj hanswer).symm, rfl⟩
  | failed f left =>
      rw [hp] at hanswer
      exact .inr ⟨f, left, (Option.some.inj hanswer).symm, rfl⟩
  | telling | waiting | closing =>
      rw [hp] at hanswer
      cases hanswer

/-- All is done: each relay that consumed a stream when the shutdown began is finished, and the broker
has been waited for once, and its use has been ended then. -/
structure IsComplete (s : Fleet) (h : Halt) : Prop where
  finished : ∀ k ∈ s.numbers, h.fleet.HasFinished k
  calls : h.fleet.hub.outlet.calls = s.hub.outlet.calls ++
    [.flush s.hub.settings.shutdownTimeout, .close s.hub.settings.shutdownTimeout]

/-- The shutdown has failed at a relay.  The relays up to this one are finished; those behind it have not
been told to stop, unless by somebody else, and the broker has neither been waited for nor has its use
been ended. -/
structure IsCutShort (s : Fleet) (moves : List Move) (i : Nat) (left : List Nat) (h : Halt) :
    Prop where
  failed : ∃ f, h.phase = .failed f left
  finished : ∃ done, s.numbers = done ++ i :: left ∧ ∀ k ∈ done ++ [i], h.fleet.HasFinished k
  untold : ∀ k ∈ left, .fleet (.session k .signal) ∉ moves → s.KeepsSign h.fleet k
  calls : h.fleet.hub.outlet.calls = s.hub.outlet.calls

theorem IsDue.isComplete (hdue : h.IsDue s moves) (hcomplete : h.phase = .complete) :
    h.IsComplete s := by
  obtain ⟨done, hnumbers, hfinished⟩ := hdue.finished
  have hcalls := hdue.calls
  rw [hcomplete] at hnumbers hcalls
  refine ⟨fun k hk => hfinished k ?_, hcalls⟩
  rw [hnumbers] at hk
  simpa [Phase.left] using hk

theorem IsDue.isCutShort {f : Failure} (hdue : h.IsDue s moves) (hfailed : h.phase = .failed f left)
    {done : List Nat} (hnumbers : s.numbers = done ++ i :: left) : h.IsCutShort s moves i left := by
  obtain ⟨done', hnumbers', hfinished⟩ := hdue.finished
  have hcalls := hdue.calls
  have huntold := hdue.untold
  rw [hfailed] at hnumbers' hcalls huntold
  have hdone : done ++ [i] = done' := by
    rw [hnumbers, ← List.singleton_append, ← List.append_assoc] at hnumbers'
    exact List.append_cancel_right hnumbers'
  refine ⟨⟨f, hfailed⟩, ⟨done, hnumbers, hdone ▸ hfinished⟩, huntold, ?_⟩
  rw [hcalls]
  exact List.append_nil _

/-- **A shutdown is complete just if it fails at no relay.**  In whatever state the relays are when the
shutdown begins, and whatever they and others do meanwhile: a shutdown that has ended is complete, unless
it has come to finish a relay of which something was left that could not be published.  Then it is cut
short there.  No relay is in the registry that was there before. -/
theorem halted_iff {hub : Hub} {before : List Fleet.Move} {answer : Except Failure Unit}
    (hs : (Fleet.opened hub).run before = some s) (hrun : (begun s).run moves = some h)
    (hanswer : h.phase.answer? = some answer) :
    (h.IsComplete s ↔ answer = .ok ()) ∧ (answer = .ok () ↔ ∀ i left, ¬ LosesAt s moves i left) ∧
      (∀ i left, LosesAt s moves i left → h.IsCutShort s moves i left) ∧
      (∀ entry ∈ h.fleet.hub.registry, ∃ c, .fleet (.start entry.1 c) ∈ moves) ∧
      ((∀ file c, .fleet (.start file c) ∉ moves) → h.fleet.hub.activeStreams = .ok []) := by
  have hnodup := (Fleet.isNumbered_run (Fleet.isNumbered_opened hub) hs).nodup
  have hdue := isDue_run hnodup hrun
  have hcut (i : Nat) (left : List Nat) (hloses : LosesAt s moves i left) :
      h.IsCutShort s moves i left := by
    obtain ⟨⟨f, hfailed⟩, done, hnumbers⟩ := failed_of_losesAt hnodup hrun hloses
    exact hdue.isCutShort hfailed hnumbers
  refine ⟨⟨fun hcomplete => ?_, ?_⟩, ⟨?_, fun hnone => ?_⟩, hcut, hdue.registry, fun hnone => ?_⟩
  · rcases phase_cases hanswer with ⟨hok, -⟩ | ⟨f, left, -, hfailed⟩
    · exact hok
    · -- it has made no call of the broker
      have hcalls := hdue.calls
      rw [hcomplete.calls, hfailed] at hcalls
      cases List.append_cancel_left hcalls
  · rintro rfl
    rcases phase_cases hanswer with ⟨-, hcomplete⟩ | ⟨f, left, herror, -⟩
    · exact hdue.isComplete hcomplete
    · cases herror
  · rintro rfl i left hloses
    obtain ⟨⟨f, hfailed⟩, -⟩ := hcut i left hloses
    rw [hfailed] at hanswer
    cases hanswer
  · rcases phase_cases hanswer with ⟨hok, -⟩ | ⟨f, left, -, hfailed⟩
    · exact hok
    · obtain ⟨i, left', hloses⟩ := exists_losesAt hrun hfailed
      exact absurd hloses (hnone i left')
  · have hempty : h.fleet.hub.registry = [] := by
      refine List.eq_nil_iff_forall_not_mem.2 fun entry hentry => ?_
      obtain ⟨c, hc⟩ := hdue.registry entry hentry
      exact hnone _ c hc
    rw [Hub.activeStreams, hempty]
    rfl

/-- Two relays wait for more of a line, and the pieces that they have cannot be published: the shutdown
fails at the first of them, and the other one goes on. -/
theorem halted_iff_runtime : ∃ (hub : Hub) (before : List Fleet.Move) (s : Fleet) (moves : List Move)
    (h : Halt) (i : Nat) (left : List Nat), (Fleet.opened hub).run before = some s ∧
      (begun s).run moves = some h ∧ s.numbers = [0, 1] ∧ LosesAt s moves i left ∧
        h.IsCutShort s moves i left ∧ ¬ h.fleet.HasFinished 1 := by
  let hub : Hub := { Hub.plain with outlet := { policy := fun _ _ => some ⟨.runtime, []⟩ } }
  let piece : Bytes := Frame.wrap [26, 1, 97, 32, 1]
  let reads (i : Nat) : List Fleet.Move :=
    .session i (.opened (.ok { source := .pipe ⟨piece, true⟩ })) ::
      List.replicate 5 (.session i .work)
  let before : List Fleet.Move := [.start (.str "a") { id := .str "c" },
    .start (.str "b") { id := .str "c" }] ++ reads 0 ++ reads 1
  have hvalue : ((Fleet.opened hub).run before).bind (fun s => ((begun s).run [.next, .next]).map
      fun h => (s.numbers, h.fleet.sessions.map (·.relay.finished), h.phase.answer?.isSome)) =
        some ([0, 1], [true, false], true) := by
    decide +kernel
  obtain ⟨s, hs, hrest⟩ := Option.bind_eq_some_iff.1 hvalue
  obtain ⟨h, hrun, heq⟩ := Option.map_eq_some_iff.1 hrest
  simp only [Prod.mk.injEq] at heq
  obtain ⟨hnumbers, hfinished, hended⟩ := heq
  obtain ⟨answer, hanswer⟩ := Option.isSome_iff_exists.1 hended
  have hnot : ¬ h.fleet.HasFinished 1 := by
    rintro ⟨session, hsession, hf⟩
    have hone := congrArg (·[1]?) hfinished
    simp [hsession, hf] at hone
  obtain ⟨hcomplete, hok, hcut, -⟩ := halted_iff hs hrun hanswer
  have hloses : ∃ i left, LosesAt s [.next, .next] i left := by
    by_contra hnone
    push Not at hnone
    have hall := (hcomplete.2 (hok.2 hnone)).finished
    exact hnot (hall 1 (by rw [hnumbers]; simp))
  obtain ⟨i, left, hloses⟩ := hloses
  exact ⟨hub, before, s, _, h, i, left, hs, hrun, hnumbers, hloses, hcut i left hloses, hnot⟩

/-! ## A shutdown that nobody disturbs -/

/-- No read call on a pipe is between its steps. -/
def IsQuiet (s : Fleet) : Prop :=
  ∀ session ∈ s.sessions, session.flow.place = .looking

/-- The moves of the system are moves beside the shutdown. -/
theorem run_fleet {fleet fleet' : Fleet} {steps : List Fleet.Move} (phase : Phase)
    (hrun : fleet.run steps = some fleet') :
    ({ fleet, phase } : Halt).run (steps.map .fleet) = some { fleet := fleet', phase } := by
  induction steps generalizing fleet with
  | nil =>
      obtain rfl := Option.some.inj hrun
      rfl
  | cons m steps ih =>
      obtain ⟨next, hnext, hrest⟩ := Option.bind_eq_some_iff.1 hrun
      rw [List.map_cons, run, List.foldlM_cons, step, hnext]
      exact ih hrest

theorem run_next (hnext : h.next = some h') : h.run [.next] = some h' := by
  rw [run, List.foldlM_cons, step, hnext]
  rfl

/-- The first relay that is to be stopped is stopped. -/
theorem stopRelay_eq_run (hp : h.phase = .telling (i :: left)) (hn : h.fleet.IsNumbered)
    (hq : IsQuiet h.fleet) (hi : i < h.fleet.sessions.length) : ∃ moves h', h.run moves = some h' ∧
      h'.phase = .told left (h.fleet.hub.stopRelay i).1 ∧
      h'.fleet.hub = (h.fleet.hub.stopRelay i).2 ∧ h'.fleet.IsNumbered ∧ IsQuiet h'.fleet ∧
      h'.fleet.sessions.length = h.fleet.sessions.length := by
  obtain ⟨session, hsession⟩ : ∃ session, h.fleet.sessions[i]? = some session :=
    ⟨_, List.getElem?_eq_getElem hi⟩
  have hrelay : h.fleet.hub.relays[i]? = some session.relay := by
    rw [hn.relays, List.getElem?_map, hsession]
    rfl
  obtain ⟨n, waiting, final, finished, hrun, hfinal, hfinish, hstop, session', hsessions, hlooking⟩ :=
    Fleet.stopRelay_eq_run hsession hrelay (hq session (List.mem_of_getElem? hsession))
  obtain ⟨signaled, hsignal, hworks⟩ := Option.bind_eq_some_iff.1 hrun
  have htell : h.next = some { fleet := signaled, phase := .waiting i left } := by
    simp [next, hp, hsignal]
  have hend : ({ fleet := waiting, phase := .waiting i left } : Halt).next =
      some { fleet := finished, phase := .told left (h.fleet.hub.stopRelay i).1 } := by
    simp [next, hfinal, hfinish, ← hstop]
  refine ⟨_, _, foldlM_append_eq_some (run_next htell)
    (foldlM_append_eq_some (run_fleet _ hworks) (run_next hend)), rfl, congrArg Prod.snd hstop, ?_, ?_,
    by rw [hsessions, List.length_set]⟩
  · exact Fleet.isNumbered_step (Fleet.isNumbered_run hn hrun) hfinish
  · intro other hother
    rw [hsessions] at hother
    rcases List.mem_or_eq_of_mem_set hother with hold | rfl
    · exact hq other hold
    · exact hlooking

/-- The relays that are to be stopped are stopped, up to the first failure. -/
theorem stopAll_eq_run (hp : h.phase = .telling left) (hn : h.fleet.IsNumbered) (hq : IsQuiet h.fleet)
    (hleft : ∀ k ∈ left, k < h.fleet.sessions.length) : ∃ moves h' rest, h.run moves = some h' ∧
      h'.phase = .told rest (h.fleet.hub.stopAll left).1 ∧
      h'.fleet.hub = (h.fleet.hub.stopAll left).2 ∧
      ((h.fleet.hub.stopAll left).1 = .ok () → rest = []) := by
  induction left generalizing h with
  | nil => exact ⟨[], h, [], rfl, hp, rfl, fun _ => rfl⟩
  | cons i left ih =>
      obtain ⟨hi, hleft⟩ := List.forall_mem_cons.1 hleft
      obtain ⟨moves, t, hrun, hphase, hhub, hn', hq', hlength⟩ := stopRelay_eq_run hp hn hq hi
      rw [Hub.stopAll]
      split
      · rename_i hub hstop
        rw [hstop] at hphase hhub
        obtain ⟨more, h', rest, hrun', hphase', hhub', hrest⟩ := ih hphase hn' hq' (by rwa [hlength])
        rw [hhub] at hphase' hhub' hrest
        exact ⟨_, h', rest, foldlM_append_eq_some hrun hrun', hphase', hhub', hrest⟩
      · rename_i f hub hstop
        rw [hstop] at hphase hhub
        exact ⟨moves, t, left, hrun, hphase, hhub, nofun⟩

/-- **Shutting the hub down.**  A shutdown that nobody disturbs is a run of the system, if it does not
begin while a read call on a pipe is between its steps. -/
theorem shutdown_eq_run (hn : s.IsNumbered) (hq : IsQuiet s) : ∃ moves h,
    (begun s).run moves = some h ∧ h.fleet.hub = s.hub.shutdown.2 ∧
      h.phase.answer? = some s.hub.shutdown.1 := by
  have hbegun : (begun s).fleet.IsNumbered := ⟨hn.relays, nofun, List.nodup_nil⟩
  obtain ⟨moves, t, rest, hrun, hphase, hhub, hrest⟩ := stopAll_eq_run (h := begun s) rfl hbegun hq
    hn.known
  cases hstop : (begun s).fleet.hub.stopAll s.numbers with
  | mk answer hub =>
      have hall : ({ s.hub with registry := [] } : Hub).stopAll (s.hub.registry.map Prod.snd) =
          (answer, hub) := hstop
      rw [hstop] at hphase hhub hrest
      cases answer with
      | error f =>
          have hshutdown : s.hub.shutdown = (.error f, hub) := by simp only [Hub.shutdown, hall]
          refine ⟨moves, t, hrun, ?_, ?_⟩
          · rw [hshutdown, hhub]
          · rw [hshutdown, hphase]
            rfl
      | ok =>
          obtain rfl := hrest rfl
          let timeout := hub.settings.shutdownTimeout
          have hshutdown : s.hub.shutdown =
              (.ok (), { hub with outlet := (hub.outlet.flush timeout).close timeout }) := by
            simp only [Hub.shutdown, hall, timeout]
          have hflush : t.next =
              some { fleet := t.fleet.call (.flush timeout), phase := .closing } := by
            rw [next, hphase, hhub]
            rfl
          refine ⟨_, _, foldlM_append_eq_some hrun
            (foldlM_append_eq_some (run_next hflush) (run_next rfl)), ?_, ?_⟩
          · rw [hshutdown]
            simp [Fleet.call, hhub, Outlet.flush, Outlet.close, timeout]
          · rw [hshutdown]
            rfl

end Halt

end LogRelay
