import LogRelay.Aggregator
import Mathlib.Data.List.Basic
/-!
# The lines of a sequence of entries

Which entries make up a line is said without the machine that joins them: outside a group an entry
that is not partial is a line by itself, a partial one opens a group, and the group ends with the first
later entry after which its bytes end in a line feed, or with the last entry there is.  The machine
gives these lines.

## Main definitions

* `Segment`, `segments`: the lines of a sequence of entries.
* `Aggregator.lines`: what the machine makes of a sequence of entries.
* `Aggregator.completed`, `Aggregator.after`, `Aggregator.leftover`: the same up to some entry, where
  the machine stands then, and what it gives up there.

## Main statements

* `lines_eq_segments`: the machine gives the lines.
* `completed_append_leftover`: the machine can be left after any entry.
* `flatMap_bytes_segments`: no byte is lost, and none is added.
-/
namespace LogRelay

/-- The bytes of some entries, one after the other. -/
def joined (es : List Entry) : Bytes :=
  es.flatMap (·.line)

/-- The entries that make up a line. -/
structure Segment where
  first : Entry
  later : List Entry := []

namespace Segment

/-- The last entry of a line, whose origin is that of the line. -/
def last (g : Segment) : Entry :=
  g.later.getLastD g.first

/-- The bytes of a line. -/
def bytes (g : Segment) : Bytes :=
  joined (g.first :: g.later)

end Segment

/-- How many of the entries that follow belong to a group with the given bytes: those up to the first
one after which the bytes of the group end in a line feed, or all of them. -/
def groupLength (pending : Bytes) (es : List Entry) : Nat :=
  ((List.range es.length).find? fun k => endsLine (pending ++ joined (es.take (k + 1)))).elim
    es.length (· + 1)

/-- The lines of a sequence of entries. -/
def segments : List Entry → List Segment
  | [] => []
  | e :: es =>
    if e.isPartial then
      ⟨e, es.take (groupLength e.line es)⟩ :: segments (es.drop (groupLength e.line es))
    else ⟨e, []⟩ :: segments es
termination_by es => es.length
decreasing_by
  all_goals simp only [List.length_cons, List.length_drop]; omega

/-- What the machine makes of a sequence of entries from one of its states on: lines, each with the
entry that completes it.  At the end the open group is given up as a line of the last entry. -/
def Aggregator.lines (a : Aggregator) (last : Option Entry) : List Entry → List (Entry × Bytes)
  | [] => match a.flush.1, last with
    | some line, some e => [(e, line)]
    | _, _ => []
  | e :: es => (a.process e).1.toList.map (e, ·) ++ (a.process e).2.lines (some e) es

namespace Aggregator

/-- The lines that entries complete, each with the entry that completes it. -/
def completed (a : Aggregator) : List Entry → List (Entry × Bytes)
  | [] => []
  | e :: es => (a.process e).1.toList.map (e, ·) ++ (a.process e).2.completed es

/-- Where the machine stands after some entries. -/
def after (a : Aggregator) (es : List Entry) : Aggregator :=
  es.foldl (fun a e => (a.process e).2) a

/-- The open group, if there is one, as a line of the last entry. -/
def leftover (a : Aggregator) (last : Option Entry) : List (Entry × Bytes) :=
  match a, last with
  | .active bs, some e => [(e, bs)]
  | _, _ => []

end Aggregator

/-! ## Groups -/

@[simp] theorem joined_nil : joined [] = [] := rfl

@[simp] theorem joined_cons (e : Entry) (es : List Entry) : joined (e :: es) = e.line ++ joined es :=
  rfl

@[simp] theorem joined_append (es fs : List Entry) : joined (es ++ fs) = joined es ++ joined fs := by
  simp [joined]

@[simp] theorem groupLength_nil (pending : Bytes) : groupLength pending [] = 0 := rfl

/-- A group ends with the next entry, or it goes on with the bytes of that. -/
theorem groupLength_cons (pending : Bytes) (e : Entry) (es : List Entry) :
    groupLength pending (e :: es) =
      if endsLine (pending ++ e.line) then 1 else groupLength (pending ++ e.line) es + 1 := by
  rw [groupLength, List.length_cons, List.range_succ_eq_map, List.find?_cons]
  by_cases hend : endsLine (pending ++ e.line)
  · simp [hend]
  · have hlater : ((List.range es.length).map Nat.succ).find?
        (fun k => endsLine (pending ++ joined ((e :: es).take (k + 1)))) =
        ((List.range es.length).find? fun k =>
          endsLine (pending ++ e.line ++ joined (es.take (k + 1)))).map Nat.succ := by
      rw [List.find?_map]
      simp [Function.comp_def]
    rw [hlater, groupLength, if_neg hend]
    cases (List.range es.length).find? _ <;> simp [hend]

/-- The machine closes an open group where the group ends, with its last entry. -/
theorem lines_active (pending : Bytes) (last : Entry) (es : List Entry) :
    ∃ next, (Aggregator.active pending).lines (some last) es =
      ((es.take (groupLength pending es)).getLastD last,
        pending ++ joined (es.take (groupLength pending es))) ::
      Aggregator.inactive.lines next (es.drop (groupLength pending es)) := by
  induction es generalizing pending last with
  | nil => exact ⟨none, by simp [Aggregator.lines, Aggregator.flush]⟩
  | cons e es ih =>
      rw [groupLength_cons, Aggregator.lines, Aggregator.process]
      by_cases hend : endsLine (pending ++ e.line)
      · exact ⟨some e, by simp [hend]⟩
      · obtain ⟨next, hnext⟩ := ih (pending ++ e.line) e
        refine ⟨next, ?_⟩
        simp only [hend, Bool.false_eq_true, if_false, Option.toList_none, List.map_nil,
          List.nil_append, hnext, List.take_succ_cons, List.drop_succ_cons, joined_cons,
          List.append_assoc, List.getLastD_cons]

/-- The machine gives the lines of the entries. -/
theorem lines_eq_segments (last : Option Entry) (es : List Entry) :
    Aggregator.inactive.lines last es = (segments es).map fun g => (g.last, g.bytes) := by
  induction es using segments.induct generalizing last with
  | case1 => simp [Aggregator.lines, Aggregator.flush, segments]
  | case2 e es hpartial ih =>
      obtain ⟨next, hnext⟩ := lines_active e.line e es
      rw [Aggregator.lines, segments, Aggregator.process, if_pos hpartial, if_pos hpartial]
      simp only [Option.toList_none, List.map_nil, List.nil_append, List.map_cons]
      rw [hnext, ih next]
      rfl
  | case3 e es hpartial ih =>
      rw [Aggregator.lines, segments, Aggregator.process, if_neg hpartial, if_neg hpartial,
        ih (some e)]
      simp [Segment.last, Segment.bytes]

/-! ## Leaving the machine -/

namespace Aggregator

variable (a : Aggregator) (es : List Entry) (e : Entry)

theorem completed_concat :
    a.completed (es ++ [e]) =
      a.completed es ++ ((a.after es).process e).1.toList.map (e, ·) := by
  induction es generalizing a with
  | nil => simp [completed, after]
  | cons f es ih =>
      rw [List.cons_append, completed, ih, completed, List.append_assoc]
      rfl

theorem after_concat : a.after (es ++ [e]) = ((a.after es).process e).2 := by
  rw [after, List.foldl_append]
  rfl

/-- Nothing is left over just if no group is open. -/
theorem leftover_getLast?_eq_nil_iff :
    (inactive.after es).leftover es.getLast? = [] ↔ inactive.after es = .inactive := by
  rcases List.eq_nil_or_concat es with rfl | ⟨front, e, rfl⟩
  · simp [after, leftover]
  · rw [List.concat_eq_append, List.getLast?_concat]
    cases inactive.after (front ++ [e]) <;> simp [leftover]

/-- An entry that completes a line leaves no group open. -/
theorem process_of_some {a : Aggregator} {e : Entry} {line : Bytes}
    (h : (a.process e).1 = some line) : (a.process e).2 = .inactive := by
  cases a with
  | inactive | active bs =>
      simp only [process] at h ⊢
      split_ifs at h ⊢
      rfl

/-- A line is one of an entry that is read, or of the last one before. -/
theorem mem_or_mem_of_mem_lines {last : Option Entry} {line : Entry × Bytes}
    (h : line ∈ a.lines last es) : line.1 ∈ last ∨ line.1 ∈ es := by
  induction es generalizing a last with
  | nil => cases a <;> cases last <;> simp_all [lines, flush]
  | cons e es ih =>
      rw [lines, List.mem_append] at h
      rcases h with h | h
      · obtain ⟨bs, -, rfl⟩ := List.mem_map.1 h
        simp
      · rcases ih _ h with hlast | hmem
        · cases hlast
          simp
        · exact .inr (List.mem_cons_of_mem _ hmem)

/-- What the machine has made of some entries, and what it gives up then. -/
theorem lines_eq (last : Option Entry) :
    a.lines last es = a.completed es ++ (a.after es).leftover (es.getLast?.or last) := by
  induction es generalizing a last with
  | nil => cases a <;> cases last <;> rfl
  | cons e es ih =>
      have hlast : (e :: es).getLast?.or last = es.getLast?.or (some e) := by
        cases es <;> simp [List.getLast?_cons]
      rw [lines, completed, ih, hlast, List.append_assoc]
      rfl

end Aggregator

/-- The machine can be left after any entry: with what it gives up then it has given the lines of the
entries so far. -/
theorem completed_append_leftover (es : List Entry) :
    Aggregator.inactive.completed es ++
        (Aggregator.inactive.after es).leftover es.getLast? =
      (segments es).map fun g => (g.last, g.bytes) := by
  rw [← lines_eq_segments none, Aggregator.lines_eq, Option.or_none]

/-- The lines together have the bytes of the entries. -/
theorem flatMap_bytes_segments (es : List Entry) :
    (segments es).flatMap Segment.bytes = joined es := by
  induction es using segments.induct with
  | case1 => simp [segments]
  | case2 e es hpartial ih =>
      rw [segments, if_pos hpartial, List.flatMap_cons, ih, Segment.bytes, joined_cons, joined_cons,
        List.append_assoc, ← joined_append, List.take_append_drop]
  | case3 e es hpartial ih =>
      rw [segments, if_neg hpartial, List.flatMap_cons, ih, Segment.bytes, joined_cons, joined_cons,
        joined_nil, List.append_nil]

end LogRelay
