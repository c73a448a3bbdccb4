import LogRelay.Text.Basic
/-!
# Pipes that can be stopped

A read of a pipe waits until something can be read: bytes, or the end of the pipe once its writer
has gone.  A reader that is told to stop waits no longer: it takes what is there, and when nothing
is there it behaves as if the pipe had ended.

A read goes by steps: it looks whether the pipe can be read; if not, it looks whether it is to stop,
and if so returns nothing, else looks at the pipe again; if the pipe can be read it takes bytes from
it.  The writer, and whoever gives the sign to stop, act between any two of these steps.

## Main definitions

* `Pipe`, `Pipe.write`, `Pipe.hangUp`
* `Gate`, `Gate.step`: a read, step by step.
* `Pipe.read?`: a read that nobody interferes with, `none` when it waits.
-/
namespace LogRelay

/-- A pipe: the bytes in it, and whether its writer may put more there. -/
structure Pipe where
  held : Bytes
  writable : Bool
  deriving DecidableEq

namespace Pipe

/-- Whether a read returns at once. -/
def isReadable (p : Pipe) : Bool :=
  p.held ≠ [] || !p.writable

/-- Put bytes into the pipe. -/
def write (p : Pipe) (bs : Bytes) : Pipe :=
  { p with held := p.held ++ bs }

/-- The writer goes. -/
def hangUp (p : Pipe) : Pipe :=
  { p with writable := false }

/-- Take at most `size` bytes. -/
def take (p : Pipe) (size : Nat) : Bytes × Pipe :=
  (p.held.take size, { p with held := p.held.drop size })

end Pipe

/-- Where a read stands: in front of looking at the pipe, after having found nothing there, or after
having found something. -/
inductive Gate.Place where
  | looking
  | refused
  | admitted
  deriving DecidableEq

/-- A read of at most `size` bytes of a pipe, and whether the sign to stop has been given. -/
structure Gate where
  pipe : Pipe
  stopping : Bool
  size : Nat
  place : Gate.Place := .looking
  deriving DecidableEq

/-- What a step of a read leads to: the read goes on, or it returns bytes. -/
inductive Gate.Outcome where
  | going (g : Gate)
  | returned (bs : Bytes) (p : Pipe)
  deriving DecidableEq

namespace Gate

/-- The next step of a read. -/
def step (g : Gate) : Outcome :=
  match g.place with
  | .looking => .going { g with place := if g.pipe.isReadable then .admitted else .refused }
  | .refused => if g.stopping then .returned [] g.pipe else .going { g with place := .looking }
  | .admitted =>
    let (bs, pipe) := g.pipe.take g.size
    .returned bs pipe

/-- The writer puts bytes into the pipe. -/
def write (g : Gate) (bs : Bytes) : Gate :=
  { g with pipe := g.pipe.write bs }

/-- The sign to stop is given. -/
def stop (g : Gate) : Gate :=
  { g with stopping := true }

end Gate

namespace Pipe

/-- A read of at most `size` bytes that nobody interferes with, `none` when it waits. -/
def read? (p : Pipe) (stopping : Bool) (size : Nat) : Option (Bytes × Pipe) :=
  if p.isReadable then some (p.take size) else if stopping then some ([], p) else none

/-- A read that nobody interferes with returns after two steps, or is where it was. -/
theorem read?_eq (p : Pipe) (stopping : Bool) (size : Nat) :
    p.read? stopping size =
      match (⟨p, stopping, size, .looking⟩ : Gate).step with
      | .returned bs q => some (bs, q)
      | .going g => match g.step with
        | .returned bs q => some (bs, q)
        | .going _ => none := by
  by_cases h : p.isReadable <;> cases stopping <;> simp [read?, Gate.step, h]

end Pipe

end LogRelay
