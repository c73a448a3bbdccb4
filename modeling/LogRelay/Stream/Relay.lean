import LogRelay.Aggregator
import LogRelay.Publishing.Publisher
import LogRelay.Stream.Source
/-!
# Relays

A relay reads the entries of a container's log stream, joins their pieces to lines, and publishes
each line.  When the stream ends, cannot be read on, or the relay is told to stop, the piece that is
left is published, once; whoever comes to that first does it, and entries that are read later are
dropped.

A relay goes by steps: it opens its stream; it reads a chunk; it takes an entry that is complete; it
publishes what is left; it closes the stream.  Taking an entry and publishing what is left are each
done at once, all else may happen between any two steps.

## Main definitions

* `Relay`, `Relay.Place`
* `Relay.step`: the next step of a relay, if there is one that does not wait.
* `Relay.settle`: as many steps as do not wait.
* `Relay.finish`: publish what is left, unless that has been done.
* `Relay.stop`: stop a relay that is otherwise left alone.
-/
namespace LogRelay

/-- Where a relay stands. -/
inductive Relay.Place where
  /-- its stream is not open yet -/
  | opening
  /-- it reads a frame of which some bytes are there -/
  | reading (a : Frame.Assembly)
  /-- it has read an entry -/
  | holding (e : Entry)
  /-- it reads no more; what is left comes next, and then a failure that nobody has handled -/
  | leaving (failure : Option Failure)
  /-- what is left has been dealt with; the stream is closed next -/
  | closing (failure : Option Failure)
  /-- it has ended, with a failure if that was not handled -/
  | ended (failure : Option Failure)

/-- A relay. -/
structure Relay where
  file : Json
  container : Container
  publisher : Publisher
  tag : Json
  hostname : Text
  limit : Int
  aggregator : Aggregator := .inactive
  lastEntry : Option Entry := none
  finished : Bool := false
  stopping : Bool := false
  place : Relay.Place := .opening
  stream : Option Stream := none

/-- Whether a failure only ends a relay: a stream that cannot be read on, or something that went
wrong with the operating system or with a value. -/
def Failure.endsRelay (f : Failure) : Bool :=
  match f with
  | .frame _ => true
  | _ => f.nature = .system || f.nature = .value

/-- What is left of a failure once those that only end a relay have been handled. -/
def Failure.unhandled (f : Failure) : Option Failure :=
  if f.endsRelay then none else some f

namespace Relay

/-- The record of a line that an entry completes. -/
def record (r : Relay) (e : Entry) (line : Bytes) : Record Json :=
  Record.build e line r.container r.hostname

/-- Publish a line. -/
def publish (r : Relay) (e : Entry) (line : Bytes) (o : Outlet) : Except Failure Bool × Outlet :=
  r.publisher.publish (r.record e line) o

/-! ## Steps -/

/-- The stream is opened, or cannot be. -/
def opened (r : Relay) (answer : Except Failure Stream) : Relay :=
  match answer with
  | .ok s => { r with stream := some s, place := .reading .empty }
  | .error f => { r with place := .leaving f.unhandled }

/-- Read a chunk of the frame at hand, unless there is none to read now. -/
def read (r : Relay) (s : Stream) (a : Frame.Assembly) : Option Relay :=
  match s.source.read r.stopping a.wanted with
  | .waits => none
  | .failed o => some { r with place := .leaving (Failure.unhandled (.outage o)) }
  | .returned bs rest =>
    let place : Place := match a.feed r.limit bs with
      | .more a => .reading a
      | .entry e => .holding e
      | .ended => .leaving none
      | .broken e => .leaving (Failure.unhandled (.frame e))
    some { r with stream := some { s with source := rest }, place }

/-- Take an entry: drop it if what is left has been published, else join it to what is there, and
publish the line that it completes. -/
def take (r : Relay) (e : Entry) (o : Outlet) : Relay × Outlet :=
  if r.finished then ({ r with place := .leaving none }, o)
  else
    let (line, aggregator) := r.aggregator.process e
    let r := { r with aggregator, lastEntry := some e, place := .reading .empty }
    match line with
    | none => (r, o)
    | some line =>
      match r.publish e line o with
      | (.ok _, o) => (r, o)
      | (.error f, o) => ({ r with place := .leaving f.unhandled }, o)

/-- Publish what is left, as a line of the last entry, unless that has been done. -/
def finish (r : Relay) (o : Outlet) : Except Failure Unit × Relay × Outlet :=
  if r.finished then (.ok (), r, o)
  else
    let (line, aggregator) := r.aggregator.flush
    let r := { r with finished := true, aggregator }
    match line, r.lastEntry with
    | some line, some e =>
      let (answer, o) := r.publish e line o
      (answer.map fun _ => (), r, o)
    | _, _ => (.ok (), r, o)

/-- Publish what is left at the end of the reading.  A failure of that ends the relay at once. -/
def leave (r : Relay) (failure : Option Failure) (o : Outlet) : Relay × Outlet :=
  match r.finish o with
  | (.ok _, r, o) => ({ r with place := .closing failure }, o)
  | (.error f, r, o) => ({ r with place := .ended (some f) }, o)

/-- Close the stream, if there is one.  That the operating system fails at it does not matter. -/
def close (r : Relay) (failure : Option Failure) : Relay :=
  match r.stream with
  | none => { r with place := .ended failure }
  | some s =>
    let (answer, s) := s.close
    let failure := match answer with
      | .ok _ => failure
      | .error f => if f.nature = .system then failure else some f
    { r with stream := some s, place := .ended failure }

/-- The next step, if there is one that does not wait. -/
def step (r : Relay) (o : Outlet) : Option (Relay × Outlet) :=
  match r.place, r.stream with
  | .reading a, some s => (r.read s a).map (·, o)
  | .holding e, _ => some (r.take e o)
  | .leaving failure, _ => some (r.leave failure o)
  | .closing failure, _ => some (r.close failure, o)
  | _, _ => none

/-! ## As many steps as do not wait -/

/-- The bytes that the stream still has. -/
def unread (r : Relay) : Nat :=
  match r.stream with
  | some s => s.source.unread.length
  | none => 0

/-- What each step makes smaller: for every byte that is still to be read there may be several
steps, and a few at the end. -/
def weight (r : Relay) : Nat :=
  match r.place with
  | .opening | .ended _ => 0
  | .reading _ => 8 * r.unread + 5
  | .holding _ => 8 * r.unread + 6
  | .leaving _ => 3
  | .closing _ => 2

theorem feed_nil (limit : Int) (a : Frame.Assembly) :
    (∃ e, a.feed limit [] = .broken e) ∨ a.feed limit [] = .ended := by
  unfold Frame.Assembly.feed Frame.Assembly.stop
  cases a.length with
  | none => by_cases h : a.got = [] <;> simp [h]
  | some n => simp

theorem weight_read_lt {r r' : Relay} {s : Stream} {a : Frame.Assembly}
    (hp : r.place = .reading a) (hs : r.stream = some s) (h : r.read s a = some r') :
    r'.weight < r.weight := by
  have hw : r.weight = 8 * s.source.unread.length + 5 := by simp [weight, hp, unread, hs]
  unfold read at h
  split at h
  · cases h
  · obtain rfl := Option.some.inj h
    simp only [weight] at hw ⊢
    omega
  · rename_i bs rest hr
    obtain rfl := Option.some.inj h
    rw [hw]
    by_cases hbs : bs = []
    · subst hbs
      rcases feed_nil r.limit a with ⟨e, he⟩ | he <;> simp [weight, he]
    · have := Source.length_unread_lt hr hbs
      cases a.feed r.limit bs <;> simp only [weight, unread] <;> omega

theorem weight_take_lt {r : Relay} {e : Entry} (hp : r.place = .holding e) (o : Outlet) :
    (r.take e o).1.weight < r.weight := by
  have hw : r.weight = 8 * r.unread + 6 := by simp [weight, hp]
  rw [hw]
  unfold take
  by_cases hf : r.finished
  · simp only [hf, if_true, weight]
    omega
  · simp only [hf, Bool.false_eq_true, if_false]
    split
    · simp only [weight, unread]
      omega
    · split <;> simp only [weight, unread] <;> omega

theorem weight_leave_lt {r : Relay} {f : Option Failure} (hp : r.place = .leaving f) (o : Outlet) :
    (r.leave f o).1.weight < r.weight := by
  have hw : r.weight = 3 := by simp [weight, hp]
  rw [hw]
  unfold leave
  split <;> simp [weight]

theorem weight_close_lt {r : Relay} {f : Option Failure} (hp : r.place = .closing f) :
    (r.close f).weight < r.weight := by
  have hw : r.weight = 2 := by simp [weight, hp]
  rw [hw]
  unfold close
  split <;> simp [weight]

theorem weight_step_lt {r r' : Relay} {o o' : Outlet} (h : r.step o = some (r', o')) :
    r'.weight < r.weight := by
  unfold step at h
  split at h
  · rename_i a s hp hs
    obtain ⟨q, hq, hqq⟩ := Option.map_eq_some_iff.1 h
    obtain ⟨rfl, -⟩ := Prod.mk.inj hqq
    exact weight_read_lt hp hs hq
  · rename_i e hp
    have hlt := weight_take_lt hp o
    rwa [Option.some.inj h] at hlt
  · rename_i f hp
    have hlt := weight_leave_lt hp o
    rwa [Option.some.inj h] at hlt
  · rename_i f hp
    obtain ⟨rfl, -⟩ := Prod.mk.inj (Option.some.inj h)
    exact weight_close_lt hp
  · cases h

/-- As many steps as do not wait. -/
def settle (r : Relay) (o : Outlet) : Relay × Outlet :=
  match _h : r.step o with
  | none => (r, o)
  | some (r', o') => r'.settle o'
termination_by r.weight
decreasing_by exact weight_step_lt _h

/-! ## Stopping -/

/-- Stop a relay: give it the sign, let it take what is there, and publish what is left if it has
not come to that. -/
def stop (r : Relay) (o : Outlet) : Except Failure Unit × Relay × Outlet :=
  let (r, o) := ({ r with stopping := true } : Relay).settle o
  r.finish o

/-- Run a relay over a stream as far as it comes. -/
def run (r : Relay) (answer : Except Failure Stream) (o : Outlet) : Relay × Outlet :=
  (r.opened answer).settle o

/-! ## What comes from outside -/

/-- Put bytes into the stream, if it takes any. -/
def receive (r : Relay) (bs : Bytes) : Relay :=
  { r with stream := r.stream.map (·.receive bs) }

/-- No more bytes will come. -/
def hangUp (r : Relay) : Relay :=
  { r with stream := r.stream.map Stream.hangUp }

end Relay

end LogRelay
