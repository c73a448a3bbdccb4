import LogRelay.Frame.Basic
/-!
# Reading frames from a supply of bytes

A supply is a stream whose bytes are all known.  Asked for some bytes it hands out as many, or fewer
when it has fewer or when its schedule caps that read.  How a supply is scheduled has no influence
on which frames are read from it as long as each read hands out something.

## Main definitions

* `Supply`, `Supply.read`
* `Supply.readExactly`: as many bytes as asked for, unless the supply ends first.
* `Supply.entries`: the entries of the frames of a supply, how their sequence ends, and what of the
  supply is left.
-/
namespace LogRelay

/-- A stream of known bytes.  The read of number `i` hands out at most `schedule i` bytes. -/
structure Supply where
  unread : Bytes
  schedule : Nat → Nat
  reads : Nat := 0

/-- How a sequence of frames ends: between two frames, or in a frame that cannot be read. -/
inductive FrameEnd where
  | clean
  | broken (e : FrameError)
  deriving DecidableEq

namespace Supply

/-- A supply that hands out at most `chunk` bytes at a time, or as many as asked for. -/
def ofBytes (bs : Bytes) (chunk : Option Nat) : Supply :=
  { unread := bs, schedule := fun _ => chunk.getD bs.length }

/-- The bytes that a read of at most `n` bytes gets. -/
def offer (s : Supply) (n : Nat) : Bytes :=
  s.unread.take (min n (s.schedule s.reads))

/-- The supply after a read of at most `n` bytes. -/
def advance (s : Supply) (n : Nat) : Supply :=
  { s with unread := s.unread.drop (min n (s.schedule s.reads)), reads := s.reads + 1 }

theorem length_advance_lt {s : Supply} {n : Nat} (h : s.offer n ≠ []) :
    (s.advance n).unread.length < s.unread.length := by
  have : 0 < (s.offer n).length := List.length_pos_iff.2 h
  simp only [offer, List.length_take] at this
  simp only [advance, List.length_drop]
  omega

/-- Read until `n` bytes are there or a read gets none, onto the bytes already `got`. -/
def readExactly (s : Supply) (n : Nat) (got : Bytes) : Bytes × Supply :=
  if n ≤ got.length then (got, s)
  else
    let wanted := n - got.length
    if _h : s.offer wanted = [] then (got, s.advance wanted)
    else (s.advance wanted).readExactly n (got ++ s.offer wanted)
termination_by s.unread.length
decreasing_by exact length_advance_lt _h

/-- The entries of a supply after those already read, last first, when the frame at hand has got so
far as `a` says. -/
def entriesFrom (limit : Int) (s : Supply) (a : Frame.Assembly) (read : List Entry) :
    List Entry × FrameEnd × Supply :=
  let rest := s.advance a.wanted
  if _h : s.offer a.wanted = [] then
    match a.stop with
    | .broken e => (read.reverse, .broken e, rest)
    | _ => (read.reverse, .clean, rest)
  else
    match a.feed limit (s.offer a.wanted) with
    | .more a => rest.entriesFrom limit a read
    | .entry e => rest.entriesFrom limit .empty (e :: read)
    | .ended => (read.reverse, .clean, rest)
    | .broken e => (read.reverse, .broken e, rest)
termination_by s.unread.length
decreasing_by all_goals exact length_advance_lt _h

/-- The entries of the frames of a supply, in order, how their sequence ends, and the supply that is
left behind. -/
def entries (limit : Int) (s : Supply) : List Entry × FrameEnd × Supply :=
  s.entriesFrom limit .empty []

end Supply

end LogRelay
