import LogRelay.Proofs.Service.Fleet
/-!
# Starts and stops that nobody disturbs

The hub starts and stops a stream in one go: it lets the relay of that stream go on as far as it comes
while nothing else happens.  That is one of the orders in which the moves of the system can come.

## Main statements

* `settle_eq_run`: the steps of a loop come to `Relay.settle` if nobody disturbs them.
* `stopRelay_eq_run`: moves of the system come to `Hub.stopRelay`.
* `start_eq_run`, `stop_eq_run`: moves of the system come to `Hub.start` and `Hub.stop`.
-/
namespace LogRelay

namespace Session

variable {s s' : Session}

/-- A step of the loop that does not read a pipe does not touch the flow. -/
theorem flow_of_work (h : s.work = some s') (hsrc : ∀ a st p, s.relay.place = .reading a →
    s.relay.stream = some st → st.source ≠ .pipe p) : s'.flow = s.flow := by
  cases works_of_work h with
  | look hp hst hs | draw hp hst hs => exact absurd hs (hsrc _ _ _ hp hst)
  | read | take | leave | close => rfl

/-- The next step of a relay is done by one or two steps of its loop. -/
theorem exists_work_of_step {r : Relay} {o : Outlet} (hl : s.flow.place = .looking)
    (h : s.relay.step s.outlet = some (r, o)) :
    ∃ n s', s.run (List.replicate n .work) = some s' ∧ s'.relay = r ∧ s'.outlet = o ∧
      s'.flow.place = .looking := by
  by_cases hsrc : ∀ a st p, s.relay.place = .reading a → s.relay.stream = some st →
      st.source ≠ .pipe p
  · have heq := work_eq_step hsrc
    rw [h] at heq
    obtain ⟨s', hwork, hpair⟩ := Option.map_eq_some_iff.1 heq
    refine ⟨1, s', ?_, congrArg Prod.fst hpair, congrArg Prod.snd hpair, ?_⟩
    · simp [run, step, hwork]
    · rw [flow_of_work hwork hsrc, hl]
  · push Not at hsrc
    obtain ⟨a, st, p, hp, hst, hs⟩ := hsrc
    simp only [Relay.step, hp, hst] at h
    obtain ⟨relay, hread, heq⟩ := Option.map_eq_some_iff.1 h
    obtain ⟨flow, hplace, hwork⟩ := work_work_eq_read hp hst hs hl hread
    refine ⟨2, { s with relay, flow }, ?_, congrArg Prod.fst heq, congrArg Prod.snd heq, hplace⟩
    simpa [run, step, List.replicate] using hwork

/-- The steps of a loop that nobody disturbs come to where it waits. -/
theorem settle_eq_run (hl : s.flow.place = .looking) :
    ∃ n s', s.run (List.replicate n .work) = some s' ∧
      (s'.relay, s'.outlet) = s.relay.settle s.outlet ∧ s'.flow.place = .looking := by
  induction hw : s.relay.weight using Nat.strong_induction_on generalizing s with
  | _ w ih =>
      cases h : s.relay.step s.outlet with
      | none => exact ⟨0, s, rfl, (Relay.settle_of_none h).symm, hl⟩
      | some result =>
          obtain ⟨r, o⟩ := result
          obtain ⟨n, t, hrun, rfl, rfl, hl'⟩ := exists_work_of_step hl h
          have hlt := Relay.weight_step_lt h
          obtain ⟨k, s', hrest, hsettle, hl''⟩ := ih _ (hw ▸ hlt) hl' rfl
          refine ⟨n + k, s', ?_, hsettle.trans (Relay.settle_of_step h).symm, hl''⟩
          rw [List.replicate_add]
          exact foldlM_append_eq_some hrun hrest

end Session

namespace Fleet

variable {s s' : Fleet} {i : Nat} {session t : Session}

/-- The system after a relay has made a move. -/
def after (s : Fleet) (i : Nat) (next : Session) : Fleet where
  hub := { s.hub with outlet := next.outlet, relays := s.hub.relays.set i next.relay }
  sessions := s.sessions.set i next

theorem step_session {m : Session.Move} {next : Session} (hi : s.sessions[i]? = some session)
    (hm : Permits session m = true)
    (h : ({ session with outlet := s.hub.outlet } : Session).step m = some next) :
    s.step (.session i m) = some (s.after i next) := by
  simp [step, hi, hm, h, after]

/-- A relay makes moves that any relay may make as it makes them by itself. -/
theorem exists_run_session {moves : List Session.Move} (hi : s.sessions[i]? = some session)
    (hrelay : s.hub.relays[i]? = some session.relay)
    (hm : ∀ m ∈ moves, ∀ session, Permits session m = true)
    (h : ({ session with outlet := s.hub.outlet } : Session).run moves = some t) :
    ∃ s' o, s.run (moves.map (.session i)) = some s' ∧ s'.hub = (s.after i t).hub ∧
      s'.sessions = s.sessions.set i { t with outlet := o } := by
  induction moves generalizing s session with
  | nil =>
      cases h
      obtain ⟨hlt, hget⟩ := List.getElem?_eq_some_iff.1 hrelay
      obtain ⟨hlt', rfl⟩ := List.getElem?_eq_some_iff.1 hi
      refine ⟨s, _, rfl, ?_, (List.set_getElem_self hlt').symm⟩
      simp only [after, ← hget, List.set_getElem_self]
  | cons m moves ih =>
      obtain ⟨next, hnext, hrest⟩ := Option.bind_eq_some_iff.1 h
      have hstep := step_session hi (hm m List.mem_cons_self session) hnext
      have hltSessions := (List.getElem?_eq_some_iff.1 hi).1
      have hltRelays := (List.getElem?_eq_some_iff.1 hrelay).1
      have hi' : (s.after i next).sessions[i]? = some next := by simp [after, hltSessions]
      obtain ⟨s', o, hrun, hhub, hsessions⟩ := ih hi' (by simp [after, hltRelays])
        (fun m hmem => hm m (List.mem_cons_of_mem _ hmem)) hrest
      refine ⟨s', o, ?_, ?_, ?_⟩
      · rw [List.map_cons, run, List.foldlM_cons, hstep]
        exact hrun
      · rw [hhub]
        simp [after]
      · rw [hsessions]
        simp [after]

/-- A relay that is launched opens its stream and goes on until it waits. -/
theorem launch_eq_run (hi : s.sessions[i]? = some session)
    (hrelay : s.hub.relays[i]? = some session.relay) (hp : session.relay.place = .opening)
    (hn : Hub.isNameable session.relay.container = true) :
    ∃ moves s', s.run moves = some s' ∧ s'.hub = s.hub.launch i := by
  let answer := s.hub.opener session.relay.file
  let begun : Session := {
    session with
    relay := session.relay.opened answer
    outlet := s.hub.outlet
    flow := .opened (Session.heldOf answer) session.relay.stopping }
  have hbegun : s.step (.session i (.opened answer)) = some (s.after i begun) :=
    step_session hi hn (by simp [Session.step, hp, begun])
  obtain ⟨n, settled, hsettle, heq, -⟩ := Session.settle_eq_run (s := begun) rfl
  have hltSessions := (List.getElem?_eq_some_iff.1 hi).1
  have hltRelays := (List.getElem?_eq_some_iff.1 hrelay).1
  have hi' : (s.after i begun).sessions[i]? = some begun := by simp [after, hltSessions]
  obtain ⟨s', -, hrun, hhub, -⟩ := exists_run_session hi' (by simp [after, hltRelays])
    (fun m hm _ => by rw [List.eq_of_mem_replicate hm]; rfl) hsettle
  refine ⟨.session i (.opened answer) :: (List.replicate n .work).map (.session i), s', ?_, ?_⟩
  · rw [run, List.foldlM_cons, hbegun]
    exact hrun
  · have hlaunch : session.relay.run answer s.hub.outlet = (settled.relay, settled.outlet) :=
      heq.symm
    rw [hhub]
    simp [Hub.launch, hrelay, hlaunch, answer, after]

/-- **Starting a stream.**  A start that nobody disturbs is a run of the system. -/
theorem start_eq_run (hs : s.hub.relays = s.sessions.map (·.relay)) (file : Json) (c : Container) :
    ∃ moves s', s.run (.start file c :: moves) = some s' ∧ s'.hub = (s.hub.start file c).2 := by
  rcases s.hub.enter_eq file c with ⟨hr, heq⟩ | ⟨r, hr, heq⟩
  · obtain ⟨f, hstart⟩ := Hub.start_of_not_accepts hr
    refine ⟨[], s, ?_, by rw [hstart]⟩
    simp [run, step, heq]
  · let entered : Fleet := {
      hub := s.hub.register r
      sessions := s.sessions ++ [.start r s.hub.outlet] }
    have hentered (moves : List Move) : s.run (.start file c :: moves) = entered.run moves := by
      simp [run, step, heq, entered, Hub.register]
    rw [Hub.start_of_accepts hr]
    split_ifs with hn
    · obtain ⟨-, rfl, hnew⟩ := Hub.isNew_of_relayFor hr.relay
      have hi : entered.sessions[s.hub.relays.length]? = some (.start r s.hub.outlet) := by
        simp [entered, hs]
      obtain ⟨moves, s', hrun, hhub⟩ := launch_eq_run hi
        (by simp [entered, Hub.register, Session.start]) hnew.place hn
      exact ⟨moves, s', (hentered moves).trans hrun, hhub⟩
    · exact ⟨[], entered, hentered [], rfl⟩

/-- A relay that gets the sign to stop goes on to where it waits, and is finished then. -/
theorem stopRelay_eq_run (hi : s.sessions[i]? = some session)
    (hrelay : s.hub.relays[i]? = some session.relay) (hl : session.flow.place = .looking) :
    ∃ n waiting final finished,
      s.run (.session i .signal :: (List.replicate n .work).map (.session i)) = some waiting ∧
      waiting.sessions[i]? = some final ∧ waiting.step (.session i .finish) = some finished ∧
      ((final.relay.finish waiting.hub.outlet).1, finished.hub) = s.hub.stopRelay i ∧
      ∃ next, finished.sessions = s.sessions.set i next ∧ next.flow.place = .looking := by
  have hltSessions := (List.getElem?_eq_some_iff.1 hi).1
  have hltRelays := (List.getElem?_eq_some_iff.1 hrelay).1
  let told : Session := {
    session with
    outlet := s.hub.outlet
    relay := { session.relay with stopping := true }
    flow := session.flow.stop }
  have hsignal : s.step (.session i .signal) = some (s.after i told) := step_session hi rfl rfl
  obtain ⟨n, settled, hsettle, heq, hlooking⟩ := Session.settle_eq_run (s := told) hl
  have htold : (s.after i told).sessions[i]? = some told := by simp [after, hltSessions]
  obtain ⟨waiting, o, hworks, hhub, hsessions⟩ := exists_run_session htold
    (by simp [after, hltRelays]) (fun m hm _ => by rw [List.eq_of_mem_replicate hm]; rfl) hsettle
  have houtlet : waiting.hub.outlet = settled.outlet := by rw [hhub]; rfl
  have hfinal : waiting.sessions[i]? = some { settled with outlet := o } := by
    simp [hsessions, after, hltSessions]
  let next : Session := settled.record (settled.relay.finish settled.outlet).2 none
  have hfinish : waiting.step (.session i .finish) = some (waiting.after i next) :=
    step_session hfinal rfl (by rw [houtlet]; rfl)
  have hstop : session.relay.stop s.hub.outlet = settled.relay.finish settled.outlet := by
    change (told.relay.settle told.outlet).1.finish (told.relay.settle told.outlet).2 = _
    rw [← heq]
  refine ⟨n, waiting, _, _, ?_, hfinal, hfinish, ?_, next, ?_, hlooking⟩
  · rw [run, List.foldlM_cons, hsignal]
    exact hworks
  · simp [Hub.stopRelay, hrelay, hstop, after, hhub, next, Session.record]
  · simp [after, hsessions]

/-- **Stopping a stream.**  A stop that nobody disturbs is a run of the system, if it does not come while
a read call on the pipe is between its steps. -/
theorem stop_eq_run {file : Json} (hs : s.hub.relays = s.sessions.map (·.relay))
    (hkey : file.isKey = true) (hfound : s.hub.registered? file = some i)
    (hi : s.sessions[i]? = some session) (hl : session.flow.place = .looking) :
    ∃ moves s', s.run (.remove file :: moves) = some s' ∧ s'.hub = (s.hub.stop file).2 := by
  have hrelay : s.hub.relays[i]? = some session.relay := by rw [hs, List.getElem?_map, hi]; rfl
  let removed : Fleet := { s with hub := s.hub.remove file }
  obtain ⟨n, waiting, final, finished, hrun, -, hfinish, hstop, -⟩ :=
    stopRelay_eq_run (s := removed) hi hrelay hl
  refine ⟨(.session i .signal :: (List.replicate n .work).map (.session i)) ++ [.session i .finish],
    finished, ?_, ?_⟩
  · exact foldlM_append_eq_some hrun (by simp [hfinish])
  · rw [Hub.stop_eq_remove hkey hfound]
    exact congrArg Prod.snd hstop

end Fleet

end LogRelay
