import LogRelay.Proofs.Stream.Segmentation
import Mathlib.Data.List.Induction
/-!
# Groups under calls in any order

The machine that joins pieces of lines is asked to take entries and to give up its open group, in any
order.  A group is open from a partial entry that comes outside of a group up to the first entry after
which its bytes end in a line feed, or up to the next time that it is given up.  So it can be told from
the calls alone, where the machine stands and what it gives out next.

## Main definitions

* `Aggregator.Call`, `Aggregator.call`: what the machine is asked to do.
* `Aggregator.afterCalls`, `Aggregator.emitted`, `Aggregator.taken`: where it stands after some calls,
  what it has given out, and what it has been given.
* `Aggregator.LeavesOpen`: calls leave a group open.

## Main statements

* `afterCalls_eq_active_iff`: a group is open just if the calls leave it open.
* `emitted_append_pending`: no byte is lost, and none is added.
* `calls_conserve`: what the machine does under any calls.
-/
namespace LogRelay.Aggregator

/-- What the machine is asked to do. -/
inductive Call where
  | process (e : Entry)
  | flush

/-- The line that a call brings about, if it does, and where the machine stands then. -/
def call (a : Aggregator) : Call → Option Bytes × Aggregator
  | .process e => a.process e
  | .flush => a.flush

/-- Where a new machine stands after some calls. -/
def afterCalls (calls : List Call) : Aggregator :=
  calls.foldl (fun a c => (a.call c).2) .inactive

/-- The lines that the machine gives out from one of its states on, in order. -/
def emittedFrom (a : Aggregator) : List Call → List Bytes
  | [] => []
  | c :: calls => (a.call c).1.toList ++ (a.call c).2.emittedFrom calls

/-- The lines that a new machine gives out, in order. -/
def emitted (calls : List Call) : List Bytes :=
  inactive.emittedFrom calls

/-- The entries that the machine is given, in order. -/
def taken (calls : List Call) : List Entry :=
  calls.filterMap fun
    | .process e => some e
    | .flush => none

/-- The calls leave a group open, with the given entries. -/
structure LeavesOpen (calls : List Call) (first : Entry) (later : List Entry) : Prop where
  /-- The first entry came outside of a group, and since then nothing but the later ones. -/
  opened : ∃ before, calls = before ++ .process first :: later.map .process ∧
    (afterCalls before).isActive = false
  isPartial : first.isPartial = true
  /-- No later entry has left the bytes of the group ending in a line feed. -/
  unended : ∀ k < later.length, endsLine (joined (first :: later.take (k + 1))) = false

variable {calls : List Call} {first e : Entry} {later : List Entry} {bs : Bytes}

/-! ## One more call -/

@[simp] theorem afterCalls_concat (calls : List Call) (c : Call) :
    afterCalls (calls ++ [c]) = ((afterCalls calls).call c).2 := by
  rw [afterCalls, List.foldl_append]
  rfl

theorem emittedFrom_concat (a : Aggregator) (calls : List Call) (c : Call) :
    a.emittedFrom (calls ++ [c]) = a.emittedFrom calls ++
      ((calls.foldl (fun a c => (a.call c).2) a).call c).1.toList := by
  induction calls generalizing a with
  | nil => simp [emittedFrom]
  | cons d calls ih =>
      rw [List.cons_append, emittedFrom, ih, emittedFrom, List.append_assoc]
      rfl

theorem emitted_concat (calls : List Call) (c : Call) :
    emitted (calls ++ [c]) = emitted calls ++ ((afterCalls calls).call c).1.toList :=
  emittedFrom_concat inactive calls c

theorem taken_concat_process (calls : List Call) (e : Entry) :
    taken (calls ++ [.process e]) = taken calls ++ [e] := by
  simp [taken]

theorem taken_concat_flush (calls : List Call) : taken (calls ++ [.flush]) = taken calls := by
  simp [taken]

/-- A call moves the bytes of its entry into the group or the line. -/
theorem process_conserves (a : Aggregator) (e : Entry) :
    (a.process e).1.toList.flatten ++ (a.process e).2.pending = a.pending ++ e.line := by
  cases a with
  | inactive =>
      rw [process]
      split_ifs <;> simp [pending]
  | active bs =>
      simp only [process]
      split_ifs <;> simp [pending]

/-- Giving up a group moves its bytes into a line. -/
theorem flush_conserves (a : Aggregator) :
    a.flush.1.toList.flatten ++ a.flush.2.pending = a.pending := by
  cases a <;> simp [flush, pending]

/-- The bytes that the machine has been given are those that it has given out and those that it
still holds. -/
theorem emitted_append_pending (calls : List Call) :
    (emitted calls).flatten ++ (afterCalls calls).pending = joined (taken calls) := by
  induction calls using List.reverseRecOn with
  | nil => rfl
  | append_singleton calls c ih =>
      rw [emitted_concat, afterCalls_concat, List.flatten_append, List.append_assoc]
      cases c with
      | process e =>
          rw [call, process_conserves, ← List.append_assoc, ih, taken_concat_process, joined_append,
            joined_cons, joined_nil, List.append_nil]
      | flush => rw [call, flush_conserves, ih, taken_concat_flush]

/-! ## Open groups -/

theorem joined_concat (first e : Entry) (later : List Entry) :
    joined (first :: (later ++ [e])) = joined (first :: later) ++ e.line := by
  simp

/-- A partial entry outside of a group opens one. -/
theorem leavesOpen_of_inactive (h : (afterCalls calls).isActive = false)
    (hp : e.isPartial = true) : LeavesOpen (calls ++ [.process e]) e [] where
  opened := ⟨calls, rfl, h⟩
  isPartial := hp
  unended := by simp

/-- An entry after which the bytes of a group do not end in a line feed leaves it open. -/
theorem LeavesOpen.concat (h : LeavesOpen calls first later)
    (he : endsLine (joined (first :: (later ++ [e]))) = false) :
    LeavesOpen (calls ++ [.process e]) first (later ++ [e]) where
  opened := by
    obtain ⟨before, rfl, hbefore⟩ := h.opened
    exact ⟨before, by simp, hbefore⟩
  isPartial := h.isPartial
  unended := by
    intro k hk
    rw [List.length_append, List.length_singleton] at hk
    rcases Nat.lt_or_ge k later.length with hlt | hge
    · rw [List.take_append_of_le_length hlt]
      exact h.unended k hlt
    · rwa [List.take_of_length_le (by simp; omega)]

/-- What a group that is left open was before its last entry. -/
theorem LeavesOpen.exists_of_concat (h : LeavesOpen calls first (later ++ [e])) :
    ∃ calls', calls = calls' ++ [.process e] ∧ LeavesOpen calls' first later ∧
      endsLine (joined (first :: (later ++ [e]))) = false := by
  obtain ⟨before, rfl, hbefore⟩ := h.opened
  refine ⟨before ++ .process first :: later.map .process, by simp, ⟨⟨before, rfl, hbefore⟩,
    h.isPartial, ?_⟩, ?_⟩
  · intro k hk
    have := h.unended k (by simp; omega)
    rwa [List.take_append_of_le_length hk] at this
  · have := h.unended later.length (by simp)
    rwa [List.take_of_length_le (by simp)] at this

/-- A group that the calls leave open is the one that the machine holds. -/
theorem LeavesOpen.afterCalls_eq (h : LeavesOpen calls first later) :
    afterCalls calls = .active (joined (first :: later)) := by
  induction later using List.reverseRecOn generalizing calls with
  | nil =>
      obtain ⟨before, rfl, hbefore⟩ := h.opened
      rw [List.map_nil, afterCalls_concat]
      cases hstate : afterCalls before with
      | inactive => simp [call, process, h.isPartial]
      | active bs => simp [hstate, isActive] at hbefore
  | append_singleton later e ih =>
      obtain ⟨calls', rfl, hopen, hend⟩ := h.exists_of_concat
      rw [joined_concat] at hend ⊢
      rw [afterCalls_concat, ih hopen, call, process]
      simp only [hend, Bool.false_eq_true, if_false]

/-- A group that the machine holds is one that the calls leave open. -/
theorem exists_leavesOpen (h : afterCalls calls = .active bs) :
    ∃ first later, LeavesOpen calls first later := by
  induction calls using List.reverseRecOn generalizing bs with
  | nil => cases h
  | append_singleton calls c ih =>
      rw [afterCalls_concat] at h
      cases c with
      | flush => cases hstate : afterCalls calls <;> rw [hstate] at h <;> cases h
      | process e =>
          cases hstate : afterCalls calls with
          | inactive =>
              rw [hstate, call, process] at h
              split_ifs at h with hp
              exact ⟨e, [], leavesOpen_of_inactive (by rw [hstate]; rfl) hp⟩
          | active pending =>
              obtain ⟨first, later, hopen⟩ := ih hstate
              obtain rfl := Aggregator.active.inj (hopen.afterCalls_eq.symm.trans hstate)
              rw [hstate, call, process] at h
              split_ifs at h with hend
              rw [Bool.not_eq_true, ← joined_concat] at hend
              exact ⟨first, later ++ [e], hopen.concat hend⟩

/-- Where the machine stands inside of a group. -/
theorem afterCalls_eq_active_iff : afterCalls calls = .active bs ↔
    ∃ first later, LeavesOpen calls first later ∧ bs = joined (first :: later) := by
  constructor
  · intro h
    obtain ⟨first, later, hopen⟩ := exists_leavesOpen h
    exact ⟨first, later, hopen, Aggregator.active.inj (h.symm.trans hopen.afterCalls_eq)⟩
  · rintro ⟨first, later, hopen, rfl⟩
    exact hopen.afterCalls_eq

theorem isActive_iff_exists_eq (a : Aggregator) : a.isActive = true ↔ ∃ bs, a = .active bs := by
  cases a <;> simp [isActive]

theorem isActive_afterCalls_iff : (afterCalls calls).isActive = true ↔
    ∃ first later, LeavesOpen calls first later := by
  rw [isActive_iff_exists_eq]
  constructor
  · rintro ⟨bs, h⟩
    exact exists_leavesOpen h
  · rintro ⟨first, later, hopen⟩
    exact ⟨_, hopen.afterCalls_eq⟩

/-! ## Lines -/

variable {line : Bytes}

/-- The line that an entry brings about inside of a group: the whole of it, when it ends in a line
feed. -/
theorem process_eq_some_iff :
    (afterCalls calls).isActive = true ∧ ((afterCalls calls).process e).1 = some line ↔
      ∃ first later, LeavesOpen calls first later ∧ line = joined (first :: (later ++ [e])) ∧
        endsLine line = true := by
  constructor
  · rintro ⟨hactive, hline⟩
    obtain ⟨first, later, hopen⟩ := isActive_afterCalls_iff.1 hactive
    rw [hopen.afterCalls_eq, process] at hline
    split_ifs at hline with hend
    obtain rfl := Option.some.inj hline
    exact ⟨first, later, hopen, (joined_concat first e later).symm, hend⟩
  · rintro ⟨first, later, hopen, rfl, hend⟩
    refine ⟨isActive_afterCalls_iff.2 ⟨first, later, hopen⟩, ?_⟩
    rw [joined_concat] at hend ⊢
    rw [hopen.afterCalls_eq, process, if_pos hend]

/-- The line that giving up brings about: the whole of the open group. -/
theorem flush_eq_some_iff : (afterCalls calls).flush.1 = some line ↔
    ∃ first later, LeavesOpen calls first later ∧ line = joined (first :: later) := by
  rw [← afterCalls_eq_active_iff]
  cases afterCalls calls <;> simp [flush]

/-- **The machine conserves bytes and closes a group as early as it may.**  Under calls in any order, at
every moment: the lines that have been given out and the pending bytes are together the lines of the
entries that have been taken; outside of a group nothing is pending; a group is open just if a partial
entry came outside of a group and since then the machine has been given nothing but entries, of which
none left the bytes of the group ending in a line feed; an entry inside of a group brings about a line
just if with it, and with none before it, the bytes of the group end in a line feed, and these are the
line; and giving up brings about a line just if a group is open, hence never twice in a row. -/
theorem calls_conserve (calls : List Call) :
    (emitted calls).flatten ++ (afterCalls calls).pending = joined (taken calls) ∧
      ((afterCalls calls).isActive = false → (afterCalls calls).pending = []) ∧
      ((afterCalls calls).isActive = true ↔ ∃ first later, LeavesOpen calls first later) ∧
      (∀ e line,
        (afterCalls calls).isActive = true ∧ ((afterCalls calls).process e).1 = some line ↔
          ∃ first later, LeavesOpen calls first later ∧ line = joined (first :: (later ++ [e])) ∧
            endsLine line = true) ∧
      (∀ line, (afterCalls calls).flush.1 = some line ↔
        ∃ first later, LeavesOpen calls first later ∧ line = joined (first :: later)) ∧
      ((afterCalls calls).flush.1.isSome = true ↔ (afterCalls calls).isActive = true) ∧
      (afterCalls (calls ++ [.flush])).flush.1 = none := by
  refine ⟨emitted_append_pending calls, ?_, isActive_afterCalls_iff, fun e line => process_eq_some_iff,
    fun line => flush_eq_some_iff, ?_, ?_⟩
  · cases afterCalls calls <;> simp [isActive, pending]
  · cases afterCalls calls <;> simp [isActive, flush]
  · rw [afterCalls_concat]
    cases afterCalls calls <;> rfl

-- the line feed of the entry that opens a group does not close it
example : emitted [.process { line := [97, 10], isPartial := true }, .process { line := [98, 10] },
    .flush] = [[97, 10, 98, 10]] := by decide

end LogRelay.Aggregator
