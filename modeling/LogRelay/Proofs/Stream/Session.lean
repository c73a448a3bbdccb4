import LogRelay.Proofs.Runs
import LogRelay.Proofs.Stream.Intake
import LogRelay.Proofs.Stream.Publication
/-!
# A relay at work

A relay and the world around it as one system.  Its loop goes on by steps, where each read of a pipe
has steps of its own; meanwhile the sign to stop is given, somebody else publishes what is left and
marks the relay as finished, bytes come into the stream, its writer goes, and other relays use the
outlet.  These moves come in any order.  The system remembers which entries the loop has come to take,
which calls of the broker the relay has made, and how many entries there were when the relay was
marked as finished for the first time.

## Main definitions

* `Session`, `Session.Move`, `Session.step`, `Session.run`: the system, one move, and several of them.
* `Session.work`: the next step of the loop.
* `Session.Works`: what a step of the loop can be.

## Main statements

* `works_of_work`: a step of the loop is one of those.
* `work_eq_step`, `work_work_eq_read`: the loop does the steps of a relay when nobody interferes.
* `run_induction`: what holds at the start and is kept by each move holds after every run.
-/
namespace LogRelay

/-- A relay and the world around it. -/
structure Session where
  relay : Relay
  outlet : Outlet
  /-- what has gone through the pipe, if the stream is one -/
  flow : Flow := {}
  /-- the entries that the loop has come to take, also those that it dropped -/
  taken : List Entry := []
  /-- the calls of the broker that the relay has made -/
  sent : List Delivery := []
  /-- how many entries the loop had come to take when the relay was first marked as finished -/
  finishedAt : Option Nat := none

namespace Session

/-- What may happen next. -/
inductive Move where
  /-- the stream is opened, or cannot be -/
  | opened (answer : Except Failure Stream)
  /-- the loop makes a step -/
  | work
  /-- the sign to stop is given -/
  | signal
  /-- somebody who stops the relay publishes what is left -/
  | finish
  /-- bytes come into the stream -/
  | receive (bs : Bytes)
  /-- no more bytes will come -/
  | hangUp
  /-- others have used the outlet -/
  | others (o : Outlet)

/-- The system before the stream of its relay is opened. -/
def start (r : Relay) (o : Outlet) : Session :=
  { relay := r, outlet := o }

/-- The system after the relay has done something with the outlet, perhaps with an entry. -/
def record (s : Session) (result : Relay × Outlet) (entry : Option Entry) : Session :=
  let taken := s.taken ++ entry.toList
  { s with
    relay := result.1
    outlet := result.2
    taken
    sent := s.sent ++ result.2.deliveries.drop s.outlet.deliveries.length
    finishedAt := s.finishedAt.or (if result.1.finished then some taken.length else none) }

/-- The pipe of the relay with its flow. -/
def intake (s : Session) (p : Pipe) : Intake :=
  ⟨p, s.relay.stopping, s.flow⟩

/-- The system after a step of a read call on a pipe: a chunk that the call returns is fed to the
frame at hand. -/
def readPipe (s : Session) (st : Stream) (a : Frame.Assembly) (p : Pipe) : Session :=
  match (s.intake p).read a.wanted with
  | (none, i) => { s with flow := i.flow }
  | (some bs, i) =>
    { s with
      relay := { s.relay with
        stream := some { st with source := .pipe i.pipe }
        place := .after (a.feed s.relay.limit bs) }
      flow := i.flow }

/-- The next step of the loop, if there is one that does not wait. -/
def work (s : Session) : Option Session :=
  match s.relay.place, s.relay.stream with
  | .reading a, some st =>
    match st.source with
    | .pipe p => some (s.readPipe st a p)
    | _ => (s.relay.read st a).map fun relay => { s with relay }
  | .holding e, _ => some (s.record (s.relay.take e s.outlet) (some e))
  | .leaving failure, _ => some (s.record (s.relay.leave failure s.outlet) none)
  | .closing failure, _ => some { s with relay := s.relay.close failure }
  | _, _ => none

/-- The bytes that are in a pipe when it is opened. -/
def heldOf : Except Failure Stream → Bytes
  | .ok st => st.source.unread
  | .error _ => []

/-- The system after a move, if that can be made. -/
def step (s : Session) : Move → Option Session
  | .opened answer =>
    match s.relay.place with
    | .opening => some { s with
        relay := s.relay.opened answer
        flow := .opened (heldOf answer) s.relay.stopping }
    | _ => none
  | .work => s.work
  | .signal => some { s with relay := { s.relay with stopping := true }, flow := s.flow.stop }
  | .finish => some (s.record (s.relay.finish s.outlet).2 none)
  | .receive bs => some { s with relay := s.relay.receive bs, flow := s.flow.write bs }
  | .hangUp => some { s with relay := s.relay.hangUp }
  | .others o => some { s with outlet := o }

/-- The system after several moves, if they can be made. -/
def run (s : Session) (moves : List Move) : Option Session :=
  moves.foldlM step s

variable {s s' : Session}

/-- What is kept by each move is kept by a run. -/
theorem run_induction {P : Session → Prop} {ok : Move → Prop} {moves : List Move}
    (hstep : ∀ s m s', P s → ok m → s.step m = some s' → P s') (hs : P s)
    (hok : ∀ m ∈ moves, ok m) (h : s.run moves = some s') : P s' :=
  foldlM_induction hstep hs hok h

/-! ## What a step of the loop can be -/

section

variable {st : Stream} {a : Frame.Assembly} {p : Pipe} {i : Intake}

/-- A step at which the read call goes on. -/
theorem readPipe_going (h : (s.intake p).read a.wanted = (none, i)) :
    s.readPipe st a p = { s with flow := i.flow } := by
  simp only [readPipe, h]

/-- A step at which the read call returns a chunk. -/
theorem readPipe_returned {bs : Bytes} (h : (s.intake p).read a.wanted = (some bs, i)) :
    s.readPipe st a p = { s with
      relay := { s.relay with
        stream := some { st with source := .pipe i.pipe }
        place := .after (a.feed s.relay.limit bs) }
      flow := i.flow } := by
  simp only [readPipe, h]

end

/-- What a step of the loop can lead to. -/
inductive Works (s : Session) : Session → Prop
  | look {a st p i} (hp : s.relay.place = .reading a) (hst : s.relay.stream = some st)
      (hsrc : st.source = .pipe p) (h : (s.intake p).read a.wanted = (none, i)) :
      Works s { s with flow := i.flow }
  | draw {a st p i bs} (hp : s.relay.place = .reading a) (hst : s.relay.stream = some st)
      (hsrc : st.source = .pipe p) (h : (s.intake p).read a.wanted = (some bs, i)) :
      Works s { s with
        relay := { s.relay with
          stream := some { st with source := .pipe i.pipe }
          place := .after (a.feed s.relay.limit bs) }
        flow := i.flow }
  | read {a st relay} (hp : s.relay.place = .reading a) (hst : s.relay.stream = some st)
      (hsrc : ∀ p, st.source ≠ .pipe p) (h : s.relay.read st a = some relay) :
      Works s { s with relay }
  | take {e} (hp : s.relay.place = .holding e) :
      Works s (s.record (s.relay.take e s.outlet) (some e))
  | leave {failure} (hp : s.relay.place = .leaving failure) :
      Works s (s.record (s.relay.leave failure s.outlet) none)
  | close {failure} (hp : s.relay.place = .closing failure) :
      Works s { s with relay := s.relay.close failure }

/-- A step of the loop is one of those. -/
theorem works_of_work (h : s.work = some s') : s.Works s' := by
  rw [work] at h
  split at h
  · rename_i a st hp hst
    split at h
    · rename_i p hsrc
      obtain rfl := Option.some.inj h
      cases hread : (s.intake p).read a.wanted with
      | mk answer i =>
          cases answer with
          | none =>
              rw [readPipe_going hread]
              exact .look hp hst hsrc hread
          | some bs =>
              rw [readPipe_returned hread]
              exact .draw hp hst hsrc hread
    · rename_i hsrc
      obtain ⟨relay, hread, rfl⟩ := Option.map_eq_some_iff.1 h
      exact .read hp hst hsrc hread
  · exact Option.some.inj h ▸ .take ‹_›
  · exact Option.some.inj h ▸ .leave ‹_›
  · exact Option.some.inj h ▸ .close ‹_›
  · cases h

/-! ## The loop and the relay -/

/-- A step of the loop that does not read a pipe is the next step of the relay. -/
theorem work_eq_step (h : ∀ a st p, s.relay.place = .reading a → s.relay.stream = some st →
    st.source ≠ .pipe p) :
    s.work.map (fun s => (s.relay, s.outlet)) = s.relay.step s.outlet := by
  cases hp : s.relay.place with
  | reading a =>
      cases hst : s.relay.stream with
      | none => simp [work, Relay.step, hp, hst]
      | some st =>
          have hsrc := h a st
          cases hs : st.source with
          | pipe p => exact absurd hs (hsrc p hp hst)
          | supply | waiting => simp [work, Relay.step, hp, hst, hs, Function.comp_def]
  | holding | leaving | closing => simp [work, Relay.step, hp, record]
  | opening | ended => simp [work, Relay.step, hp]

/-- When nobody interferes with a read of a pipe, two steps of the loop are that read, if it does not
wait. -/
theorem work_work_eq_read {a : Frame.Assembly} {st : Stream} {p : Pipe} {relay : Relay}
    (hp : s.relay.place = .reading a) (hst : s.relay.stream = some st)
    (hsrc : st.source = .pipe p) (hl : s.flow.place = .looking)
    (h : s.relay.read st a = some relay) :
    ∃ flow, flow.place = .looking ∧ s.work.bind work = some { s with relay, flow } := by
  have hwork (flow : Flow) : ({ s with flow } : Session).work =
      some (({ s with flow } : Session).readPipe st a p) := by
    simp only [work, hp, hst, hsrc]
  rw [Relay.read, hsrc] at h
  simp only [Source.read] at h
  cases hread : p.read? s.relay.stopping a.wanted with
  | none =>
      rw [hread] at h
      cases h
  | some result =>
      obtain ⟨bs, q⟩ := result
      rw [hread] at h
      obtain ⟨looked, taken, hplace, hlook, htake⟩ := Intake.read_read (i := s.intake p) hl hread
      refine ⟨taken, hplace, ?_⟩
      rw [hwork s.flow, Option.bind_some, readPipe_going hlook, hwork, readPipe_returned htake,
        ← Option.some.inj h]
      rfl

end Session

end LogRelay
