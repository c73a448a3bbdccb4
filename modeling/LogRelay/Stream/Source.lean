import LogRelay.Failure
import LogRelay.Frame.Supply
import LogRelay.Stream.Pipe
/-!
# Streams

A stream is read in pieces of at most a wanted size, and closed in the end.  Its bytes may all be
there from the start and be handed out on some schedule, or come through a pipe, or through
something that is read without looking first and so waits whether one is to stop or not.

## Main definitions

* `Source`, `Source.read`: where bytes come from.
* `Stream`, `Stream.read`, `Stream.close`
-/
namespace LogRelay

/-- Where the bytes of a stream come from. -/
inductive Source where
  /-- they are all there, and handed out as the supply has it; after them the stream ends, or a read
  fails -/
  | supply (s : Supply) (failure : Option Outage)
  /-- they come through a pipe -/
  | pipe (p : Pipe)
  /-- some are there, and a read waits for more until no more will come -/
  | waiting (held : Bytes) (complete : Bool)

/-- What a read leads to: it waits, it returns bytes, or it fails. -/
inductive Source.Answer where
  | waits
  | returned (bs : Bytes) (rest : Source)
  | failed (o : Outage)

namespace Source

/-- A source of known bytes, handed out in pieces of at most `chunk`. -/
def stored (bs : Bytes) (chunk : Option Nat) (failure : Option Outage) : Source :=
  .supply (.ofBytes bs chunk) failure

/-- The bytes that are there. -/
def unread : Source → Bytes
  | .supply s _ => s.unread
  | .pipe p => p.held
  | .waiting bs _ => bs

/-- A read of at most `size` bytes. -/
def read (s : Source) (stopping : Bool) (size : Nat) : Answer :=
  match s with
  | .supply s failure =>
    match s.unread, failure with
    | [], some o => .failed o
    | _, _ => .returned (s.offer size) (.supply (s.advance size) failure)
  | .pipe p => match p.read? stopping size with
    | some (bs, p) => .returned bs (.pipe p)
    | none => .waits
  | .waiting bs complete =>
    if bs = [] ∧ ¬ complete then .waits
    else .returned (bs.take size) (.waiting (bs.drop size) complete)

/-- Put bytes where they come from, if more can come. -/
def receive (s : Source) (bs : Bytes) : Source :=
  match s with
  | .pipe p => .pipe (p.write bs)
  | .waiting held complete => .waiting (held ++ bs) complete
  | s => s

/-- No more bytes will come. -/
def hangUp : Source → Source
  | .pipe p => .pipe p.hangUp
  | .waiting held _ => .waiting held true
  | s => s

/-- A read that returns bytes takes them away. -/
theorem length_unread_lt {s rest : Source} {stopping : Bool} {size : Nat} {bs : Bytes}
    (h : s.read stopping size = .returned bs rest) (hbs : bs ≠ []) :
    rest.unread.length < s.unread.length := by
  have key : ∀ (held : Bytes) (n : Nat), bs = held.take n →
      (held.drop n).length < held.length := by
    intro held n hn
    have : 0 < bs.length := List.length_pos_iff.2 hbs
    rw [hn, List.length_take] at this
    rw [List.length_drop]
    omega
  cases s with
  | supply s failure =>
    simp only [read] at h
    split at h
    · cases h
    · simp only [Answer.returned.injEq] at h
      obtain ⟨rfl, rfl⟩ := h
      exact Supply.length_advance_lt hbs
  | pipe p =>
    unfold read Pipe.read? Pipe.take at h
    by_cases hr : p.isReadable <;> cases stopping <;> simp [hr] at h
    all_goals
      obtain ⟨hb, rfl⟩ := h
      first
        | exact key _ _ hb.symm
        | exact absurd hb hbs
  | waiting held complete =>
    simp only [read] at h
    split at h
    · cases h
    · simp only [Answer.returned.injEq] at h
      obtain ⟨hb, rfl⟩ := h
      exact key _ _ hb.symm

end Source

/-- A stream.  `closeFailure` is what goes wrong when it is closed, if something does. -/
structure Stream where
  source : Source
  closeFailure : Option Outage := none
  closed : Bool := false

namespace Stream

/-- A read of at most `size` bytes, which gives nothing as long as it waits.  A closed stream cannot
be read. -/
def read (s : Stream) (stopping : Bool) (size : Nat) : Except Failure (Option (Bytes × Stream)) :=
  if s.closed then .error .streamClosed
  else match s.source.read stopping size with
    | .waits => .ok none
    | .returned bs rest => .ok (some (bs, { s with source := rest }))
    | .failed o => .error (.outage o)

/-- The stream with more bytes from its writer, if it takes any. -/
def receive (s : Stream) (bs : Bytes) : Stream :=
  { s with source := s.source.receive bs }

/-- The stream when its writer has gone. -/
def hangUp (s : Stream) : Stream :=
  { s with source := s.source.hangUp }

/-- Close the stream.  It is closed also when something goes wrong at that. -/
def close (s : Stream) : Except Failure Unit × Stream :=
  (match s.closeFailure with
    | some o => .error (.outage o)
    | none => .ok (), { s with closed := true })

end Stream

end LogRelay
