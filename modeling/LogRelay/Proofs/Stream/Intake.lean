import LogRelay.Stream.Pipe
import Mathlib.Data.List.Basic
/-!
# Reading a pipe that is being written

Read calls follow one another on a pipe whose writer stays.  Between any two steps of a call bytes may
come into the pipe, and the sign to stop may be given.  No byte is lost on the way, and a call that
returns nothing has found the pipe empty when it looked: what was returned by earlier calls is just
what had come by then.  It does not look again when it sees the sign, so that bytes that come in between
stay in the pipe, though they came before the sign was given.

## Main definitions

* `Flow`: what has gone through a pipe, and where the call at hand stands.
* `Intake`, `Intake.read`: a pipe with its flow, and a step of a read call.
* `Intake.Move`, `Intake.run`: what may happen next, and several such things.
* `Intake.IsKept`: the flow agrees with the pipe.
* `Intake.Drains`: what holds of a pipe that is read.

## Main statements

* `isKept_run`: every run keeps flow and pipe in agreement.
* `read_nil`: what holds when a call returns nothing.
* `read_returns`: once the sign is given each call returns within two steps.
* `drains_run`: how far the pipe is drained, whatever happens in between.
-/
namespace LogRelay

/-- What has gone through a pipe, and where the read call at hand stands. -/
structure Flow where
  /-- the bytes that have come into the pipe -/
  written : Bytes := []
  /-- the bytes that read calls have returned -/
  returned : Bytes := []
  place : Gate.Place := .looking
  /-- how many bytes had come when a call last looked at the pipe -/
  lookedAt : Nat := 0
  /-- how many bytes had come when the sign to stop was given -/
  stoppedAt : Option Nat := none

namespace Flow

/-- The flow of a pipe that is opened with some bytes in it. -/
def opened (held : Bytes) (stopping : Bool) : Flow :=
  { written := held, stoppedAt := if stopping then some held.length else none }

/-- Bytes come. -/
def write (f : Flow) (bs : Bytes) : Flow :=
  { f with written := f.written ++ bs }

/-- The sign to stop is given.  Only the first one counts. -/
def stop (f : Flow) : Flow :=
  { f with stoppedAt := f.stoppedAt.or (some f.written.length) }

end Flow

/-- A pipe that is read while bytes come, until there is a sign to stop. -/
structure Intake where
  pipe : Pipe
  stopping : Bool
  flow : Flow

namespace Intake

/-- The pipe when it has just been opened. -/
def opened (p : Pipe) (stopping : Bool) : Intake :=
  ⟨p, stopping, .opened p.held stopping⟩

/-- The next step of a read call of at most `size` bytes, and what the call returns if it does. -/
def read (i : Intake) (size : Nat) : Option Bytes × Intake :=
  match (⟨i.pipe, i.stopping, size, i.flow.place⟩ : Gate).step with
  | .going g =>
    (none, { i with flow := { i.flow with
      place := g.place
      lookedAt := if i.flow.place = .looking then i.flow.written.length else i.flow.lookedAt } })
  | .returned bs pipe =>
    (some bs, { i with
      pipe
      flow := { i.flow with place := .looking, returned := i.flow.returned ++ bs } })

/-- What may happen next.  The calls follow one another, so that a step of a call needs no more than its
size; a size that changes in the middle of a call does no harm. -/
inductive Move where
  | write (bs : Bytes)
  | stop
  | read (size : Nat)

/-- What others do than who reads. -/
def Move.IsOutside : Move → Prop
  | .read _ => False
  | _ => True

/-- The pipe after a move. -/
def step (i : Intake) : Move → Intake
  | .write bs => { i with pipe := i.pipe.write bs, flow := i.flow.write bs }
  | .stop => { i with stopping := true, flow := i.flow.stop }
  | .read size => (i.read size).2

/-- The pipe after several moves. -/
def run (i : Intake) (moves : List Move) : Intake :=
  moves.foldl step i

/-! ## The steps of a call -/

variable {i : Intake} {size : Nat}

/-- A call looks at the pipe. -/
theorem read_looking (h : i.flow.place = .looking) (size : Nat) :
    i.read size = (none, { i with flow := { i.flow with
      place := if i.pipe.isReadable then .admitted else .refused
      lookedAt := i.flow.written.length } }) := by
  simp [read, Gate.step, h]

/-- A call that has found nothing returns nothing if there is a sign to stop, and else looks again. -/
theorem read_refused (h : i.flow.place = .refused) (size : Nat) :
    i.read size =
      if i.stopping then (some [], { i with flow := { i.flow with place := .looking } })
      else (none, { i with flow := { i.flow with place := .looking } }) := by
  by_cases hs : i.stopping <;> simp [read, Gate.step, h, hs]

/-- A call that has found something takes bytes. -/
theorem read_admitted (h : i.flow.place = .admitted) (size : Nat) :
    i.read size = (some (i.pipe.held.take size), { i with
      pipe := { i.pipe with held := i.pipe.held.drop size }
      flow := { i.flow with
        place := .looking
        returned := i.flow.returned ++ i.pipe.held.take size } }) := by
  simp [read, Gate.step, h, Pipe.take]

/-- A step at which a call goes on moves no bytes. -/
theorem read_eq_none {i' : Intake} (h : i.read size = (none, i')) :
    i'.pipe = i.pipe ∧ i'.stopping = i.stopping ∧ i'.flow.written = i.flow.written ∧
      i'.flow.returned = i.flow.returned ∧ i'.flow.stoppedAt = i.flow.stoppedAt := by
  rw [read] at h
  split at h
  · obtain ⟨-, rfl⟩ := Prod.mk.inj h
    exact ⟨rfl, rfl, rfl, rfl, rfl⟩
  · cases (Prod.mk.inj h).1

/-- A step at which a call returns adds to what has been returned. -/
theorem read_eq_some {i' : Intake} {bs : Bytes} (h : i.read size = (some bs, i')) :
    i'.stopping = i.stopping ∧ i'.flow.written = i.flow.written ∧
      i'.flow.returned = i.flow.returned ++ bs ∧ i'.flow.lookedAt = i.flow.lookedAt ∧
        i'.flow.stoppedAt = i.flow.stoppedAt ∧ bs.length ≤ size := by
  rw [read] at h
  split at h
  · cases (Prod.mk.inj h).1
  · rename_i bs' pipe hstep
    obtain ⟨hbs, rfl⟩ := Prod.mk.inj h
    obtain rfl := Option.some.inj hbs
    refine ⟨rfl, rfl, rfl, rfl, rfl, ?_⟩
    rw [Gate.step] at hstep
    split at hstep
    · cases hstep
    · split at hstep
      · cases hstep
        exact Nat.zero_le _
      · cases hstep
    · cases hstep
      rw [List.length_take]
      exact Nat.min_le_left _ _

/-- Once there is a sign to stop, a call that has looked at the pipe returns at its next step. -/
theorem read_isSome (hs : i.stopping = true) (hp : i.flow.place ≠ .looking) (size : Nat) :
    (i.read size).1.isSome = true := by
  cases hplace : i.flow.place with
  | looking => exact absurd hplace hp
  | refused => simp [read_refused hplace, hs]
  | admitted => simp [read_admitted hplace]

/-- What others do leaves a call where it stands, and does not take the sign back. -/
theorem run_isOutside {moves : List Move} (hm : ∀ m ∈ moves, m.IsOutside) :
    (i.run moves).flow.place = i.flow.place ∧
      (i.stopping = true → (i.run moves).stopping = true) := by
  induction moves generalizing i with
  | nil => exact ⟨rfl, id⟩
  | cons m moves ih =>
      obtain ⟨hplace, hstopping⟩ := ih (i := i.step m) fun n hn => hm n (List.mem_cons_of_mem m hn)
      have hout := hm m List.mem_cons_self
      cases m with
      | write bs => exact ⟨hplace, hstopping⟩
      | stop => exact ⟨hplace, fun _ => hstopping rfl⟩
      | read size => exact hout.elim

/-- Once there is a sign to stop, each call returns within two steps, wherever it stands and whatever
others do in between. -/
theorem read_returns (hs : i.stopping = true) (size : Nat) {moves : List Move}
    (hm : ∀ m ∈ moves, m.IsOutside) :
    (i.read size).1.isSome = true ∨ (((i.read size).2.run moves).read size).1.isSome = true := by
  by_cases hp : i.flow.place = .looking
  · right
    obtain ⟨hplace, hstopping⟩ := run_isOutside (i := (i.read size).2) hm
    apply read_isSome
    · apply hstopping
      rw [read_looking hp]
      exact hs
    · rw [hplace, read_looking hp]
      by_cases hr : i.pipe.isReadable <;> simp [hr]
  · left
    exact read_isSome hs hp size

/-- When nobody interferes with a call that does not wait, its two steps are a read of the pipe. -/
theorem read_read {bs : Bytes} {p : Pipe} (hl : i.flow.place = .looking)
    (h : i.pipe.read? i.stopping size = some (bs, p)) :
    ∃ looked taken, taken.place = .looking ∧ i.read size = (none, { i with flow := looked }) ∧
      ({ i with flow := looked } : Intake).read size =
        (some bs, { i with pipe := p, flow := taken }) := by
  refine ⟨_, { i.flow with
    place := .looking
    lookedAt := i.flow.written.length
    returned := i.flow.returned ++ bs }, rfl, read_looking hl size, ?_⟩
  rw [Pipe.read?] at h
  by_cases hr : i.pipe.isReadable
  · rw [if_pos hr] at h
    obtain ⟨rfl, rfl⟩ := Prod.mk.inj (Option.some.inj h)
    exact read_admitted (by simp [hr]) size
  · rw [if_neg hr] at h
    by_cases hs : i.stopping = true
    · rw [if_pos hs] at h
      obtain ⟨rfl, rfl⟩ := Prod.mk.inj (Option.some.inj h)
      rw [read_refused (by simp [hr]), if_pos hs]
      simp
    · rw [if_neg hs] at h
      cases h

/-! ## What is kept -/

/-- The flow agrees with the pipe: the bytes that came are those that were returned and those that are
still there; a call has found nothing only if all that had come when it looked was returned, and has
found something only if that is still there.  No more had come when the sign was given than has come by
now. -/
structure IsKept (i : Intake) : Prop where
  writable : i.pipe.writable = true
  split : i.flow.returned ++ i.pipe.held = i.flow.written
  looked : i.flow.lookedAt ≤ i.flow.written.length
  refused : i.flow.place = .refused → i.flow.returned = i.flow.written.take i.flow.lookedAt
  admitted : i.flow.place = .admitted → i.pipe.held ≠ []
  signed : i.stopping = i.flow.stoppedAt.isSome
  stopped : ∀ n ∈ i.flow.stoppedAt, n ≤ i.flow.written.length

/-- A pipe that has just been opened. -/
theorem isKept_opened {p : Pipe} (hp : p.writable = true) (stopping : Bool) :
    (opened p stopping).IsKept where
  writable := hp
  split := List.nil_append _
  looked := Nat.zero_le _
  refused := by simp [opened, Flow.opened]
  admitted := by simp [opened, Flow.opened]
  signed := by cases stopping <;> rfl
  stopped := by simp [opened, Flow.opened]

/-- Bytes that come. -/
theorem IsKept.write (hk : i.IsKept) (bs : Bytes) : (i.step (.write bs)).IsKept where
  writable := hk.writable
  split := by simp [step, Pipe.write, Flow.write, ← hk.split]
  looked := by
    have := hk.looked
    simp only [step, Flow.write, List.length_append]
    omega
  refused := by
    intro hp
    simp only [step, Flow.write]
    rw [List.take_append_of_le_length hk.looked]
    exact hk.refused hp
  admitted := by
    intro hp
    simp [step, Pipe.write, hk.admitted hp]
  signed := hk.signed
  stopped := by
    intro n hn
    simp only [step, Flow.write, List.length_append]
    exact Nat.le_add_right_of_le (hk.stopped n hn)

/-- A sign to stop. -/
theorem IsKept.stop (hk : i.IsKept) : (i.step .stop).IsKept where
  writable := hk.writable
  split := hk.split
  looked := hk.looked
  refused := hk.refused
  admitted := hk.admitted
  signed := by simp [step, Flow.stop]
  stopped := by
    intro n hn
    simp only [step, Flow.stop] at hn ⊢
    cases hat : i.flow.stoppedAt with
    | none =>
        rw [hat, Option.none_or] at hn
        exact Nat.le_of_eq (Option.some.inj hn).symm
    | some k =>
        rw [hat, Option.some_or] at hn
        exact hk.stopped n (hat ▸ hn)

/-- A step of a call. -/
theorem IsKept.read (hk : i.IsKept) (size : Nat) : (i.read size).2.IsKept := by
  cases hp : i.flow.place with
  | looking =>
      rw [read_looking hp]
      have hreadable : i.pipe.isReadable = true ↔ i.pipe.held ≠ [] := by
        simp [Pipe.isReadable, hk.writable]
      refine ⟨hk.writable, hk.split, Nat.le_refl _, ?_, ?_, hk.signed, hk.stopped⟩
      · intro hrefused
        have hnil : i.pipe.held = [] := by
          by_contra hne
          simp [hreadable.2 hne] at hrefused
        have hsplit := hk.split
        rw [hnil, List.append_nil] at hsplit
        simpa using hsplit
      · intro hadmitted
        by_contra hnil
        have : ¬ i.pipe.isReadable = true := fun hr => hreadable.1 hr hnil
        simp [this] at hadmitted
  | refused =>
      have hagain : { i with flow := { i.flow with place := .looking } : Intake }.IsKept :=
        ⟨hk.writable, hk.split, hk.looked, by simp, by simp, hk.signed, hk.stopped⟩
      rw [read_refused hp]
      by_cases hs : i.stopping
      · rw [if_pos hs]
        exact hagain
      · rw [if_neg hs]
        exact hagain
  | admitted =>
      rw [read_admitted hp]
      refine ⟨hk.writable, ?_, hk.looked, by simp, by simp, hk.signed, hk.stopped⟩
      rw [List.append_assoc, List.take_append_drop]
      exact hk.split

/-- Each move keeps flow and pipe in agreement. -/
theorem IsKept.step (hk : i.IsKept) (m : Move) : (i.step m).IsKept := by
  cases m with
  | write bs => exact hk.write bs
  | stop => exact hk.stop
  | read size => exact hk.read size

/-- Every run keeps flow and pipe in agreement. -/
theorem isKept_run (hk : i.IsKept) (moves : List Move) : (i.run moves).IsKept := by
  induction moves generalizing i with
  | nil => exact hk
  | cons m moves ih => exact ih (hk.step m)

/-- A call of at least one byte that returns nothing has found nothing, and sees the sign to stop. -/
theorem refused_of_read_nil (hk : i.IsKept) (hsize : 0 < size) (h : (i.read size).1 = some []) :
    i.flow.place = .refused ∧ i.stopping = true := by
  cases hp : i.flow.place with
  | looking =>
      rw [read_looking hp] at h
      cases h
  | refused =>
      rw [read_refused hp] at h
      by_cases hs : i.stopping
      · exact ⟨rfl, hs⟩
      · rw [if_neg hs] at h
        cases h
  | admitted =>
      rw [read_admitted hp] at h
      have hnil := Option.some.inj h
      rw [List.take_eq_nil_iff] at hnil
      exact absurd (hnil.resolve_left (by omega)) (hk.admitted hp)

/-- When all that had come at the last look has been returned and no more, what had come when the sign was
given is among it just if it had come by that look. -/
theorem IsKept.take_prefix_iff (hk : i.IsKept)
    (hreturned : i.flow.returned = i.flow.written.take i.flow.lookedAt) {n : Nat}
    (hn : i.flow.stoppedAt = some n) :
    i.flow.written.take n <+: i.flow.returned ↔ n ≤ i.flow.lookedAt := by
  rw [hreturned]
  constructor
  · intro hprefix
    have hlen := hprefix.length_le
    rw [List.length_take, List.length_take, Nat.min_eq_left (hk.stopped n hn)] at hlen
    exact Nat.le_trans hlen (Nat.min_le_left _ _)
  · intro hle
    exact List.take_prefix_take_left hle

/-- When a call of at least one byte returns nothing, there is a sign to stop, and what has been returned
is what had come when the call looked; so what had come when the sign was given has been returned just
if the call has looked after that or nothing has come in between. -/
theorem read_nil (hk : i.IsKept) (hsize : 0 < size) (h : (i.read size).1 = some []) :
    i.flow.returned = i.flow.written.take i.flow.lookedAt ∧
      ∃ n, i.flow.stoppedAt = some n ∧
        (i.flow.written.take n <+: i.flow.returned ↔ n ≤ i.flow.lookedAt) := by
  obtain ⟨hplace, hstopping⟩ := refused_of_read_nil hk hsize h
  have hreturned := hk.refused hplace
  have hsome : i.flow.stoppedAt.isSome = true := hk.signed ▸ hstopping
  obtain ⟨n, hn⟩ := Option.isSome_iff_exists.1 hsome
  exact ⟨hreturned, n, hn, hk.take_prefix_iff hreturned hn⟩

/-- What holds of a pipe that is read: no byte is lost; once there is a sign to stop, each call returns
within two steps; and a call of at least one byte returns nothing only when all that had come when the
call looked has been returned, which is all that had come when the sign was given just if nothing came
in between. -/
structure Drains (i : Intake) : Prop where
  split : i.flow.returned ++ i.pipe.held = i.flow.written
  returns : ∀ size moves, i.stopping = true → (∀ m ∈ moves, m.IsOutside) →
    (i.read size).1.isSome = true ∨ (((i.read size).2.run moves).read size).1.isSome = true
  nil : ∀ size, 0 < size → (i.read size).1 = some [] →
    i.flow.returned = i.flow.written.take i.flow.lookedAt ∧
      ∃ n, i.flow.stoppedAt = some n ∧
        (i.flow.written.take n <+: i.flow.returned ↔ n ≤ i.flow.lookedAt)

/-- In whatever order calls, writer and sign to stop follow one another, the pipe is drained as far as
the last look of the call that returns nothing. -/
theorem drains_run {p : Pipe} (hp : p.writable = true) (stopping : Bool) (moves : List Move) :
    ((opened p stopping).run moves).Drains := by
  have hk := isKept_run (isKept_opened hp stopping) moves
  refine ⟨hk.split, ?_, ?_⟩
  · intro size moves hs hm
    exact read_returns hs size hm
  · intro size hsize h
    exact read_nil hk hsize h

end Intake

end LogRelay
