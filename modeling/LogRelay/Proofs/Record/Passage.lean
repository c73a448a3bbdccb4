import LogRelay.Failure
import LogRelay.Proofs.Reading.Roundtrip
import LogRelay.Proofs.Record.Return
/-!
# Lines are put in order once

The record of a line is stored and read back, and its entry goes out in a frame.  On this passage the
ill-formed parts of the line are replaced, and a line feed is put at its end if there is none.  After that
there is nothing left to do, so a line that has come out passes a second time as it is, whatever container
it is then said to come from.

## Main definitions

* `Entry.passage`: the frame that comes out of a line.

## Main statements

* `Entry.returned_returned`: what has come back once comes back as it is.
* `Entry.passage_eq`: the frame is that of the entry that comes back.
* `Entry.passage_normalizes`: what comes out of a line, once and then again.
-/
namespace LogRelay

namespace Entry

/-- The frame that comes out when the record of a line, whose last entry this is, is stored and read
back. -/
def passage (nesting : Nat) (e : Entry) (line : Bytes) (c : Container) (hostname : Text) :
    Except Failure Bytes := do
  let value ← (Record.build e line c hostname).document.mapError .range
  let r ← (Record.ofDocument nesting (some value)).mapError .record
  (Frame.encode r.toEntry).mapError .payload

variable {e : Entry} {line : Bytes} {c : Container}

/-! ## Lines that have come back -/

theorem endsLine_terminated (line : Bytes) : endsLine (Record.terminated line) = true := by
  rw [Record.terminated]
  split_ifs with h
  · exact h
  · simp [endsLine]

/-- A line that is well-formed is so with a line feed at its end. -/
theorem isSome_decode?_terminated (h : (Utf8.decode? line).isSome) :
    (Utf8.decode? (Record.terminated line)).isSome := by
  rw [Record.terminated]
  split_ifs
  · exact h
  · obtain ⟨t, ht⟩ := Option.isSome_iff_exists.1 h
    obtain ⟨hs, rfl⟩ := Utf8.decode?_eq_some_iff.1 ht
    have hmore : Utf8.decode? (t.flatMap Utf8.encodePoint ++ [lineFeed]) =
        some (t ++ [CodePoint.ofChar '\n']) := by
      refine Utf8.decode?_eq_some_iff.2 ⟨?_, ?_⟩
      · rw [Text.hasSurrogate, List.any_append, Bool.or_eq_false_iff]
        exact ⟨hs, rfl⟩
      · rw [List.flatMap_append]
        rfl
    rw [hmore, Option.isSome_some]

/-- Whatever the line is, the bytes of its text are well-formed. -/
theorem isSome_decode?_encodeLossy (line : Bytes) :
    (Utf8.decode? (Utf8.encodeLossy (Utf8.decodeLossy line))).isSome := by
  have hs := Utf8.hasSurrogate_decodeLossy line
  rw [Utf8.encodeLossy_eq hs, Utf8.decode?_encode hs, Option.isSome_some]

/-- A line that has come back is well-formed and ends. -/
theorem isSome_decode?_returned (e : Entry) : (Utf8.decode? e.returned.line).isSome :=
  isSome_decode?_terminated (isSome_decode?_encodeLossy e.line)

/-- What has come back once comes back as it is. -/
theorem returned_returned (e : Entry) : e.returned.returned = e.returned :=
  returned_eq_self e.isSome_decode?_returned (endsLine_terminated _)

/-! ## Frames -/

/-- The frame is that of the entry that comes back, with the line in the place of its own. -/
theorem passage_eq (hs : e.source.hasSurrogate = false) (ht : fitsTime e.time = true)
    (hc : c.HasTexts) (nesting : Nat) (hostname : Text) : e.passage nesting line c hostname =
      (Frame.encode { e with line }.returned).mapError .payload := by
  have he : Record.build e line c hostname = Record.build { e with line } line c hostname := rfl
  obtain ⟨value, r, hdoc, hread, hentry⟩ :=
    exists_toEntry_eq_returned (e := { e with line }) hs ht hc hostname
  rw [passage, he, hdoc, ← hentry]
  simp only [Except.mapError, bind, Except.bind, hread]

/-- An entry has a frame, from which it is read again, unless its message is too long for one. -/
theorem holds_or_tooLong (hs : e.source.hasSurrogate = false) (ht : fitsTime e.time = true) :
    (e.size < Frame.lengthBound ∧ ∃ frame, Frame.encode e = .ok frame ∧ Frame.Holds frame e) ∨
      (Frame.lengthBound ≤ e.size ∧ Frame.encode e = .error (.tooLong e.size)) := by
  obtain ⟨message, hmessage⟩ := exists_payload_iff.2 ⟨hs, ht⟩
  have hlength := length_of_payload hmessage
  rw [← hlength]
  rcases Nat.lt_or_ge message.length Frame.lengthBound with hlt | hle
  · exact .inl ⟨hlt, Frame.wrap message, encode_eq_ok_iff.2 ⟨message, hmessage, hlt, rfl⟩, message,
      rfl, hlt, ofPayload?_payload hmessage (hlt.trans (by decide))⟩
  · refine .inr ⟨hle, ?_⟩
    rw [Frame.encode, hmessage]
    simp [bind, Except.bind, Nat.not_lt.2 hle, throw, throwThe, MonadExceptOf.throw]

/-- **A line is put in order once.**  The frame that comes out of a line holds an entry that differs from
the one that went in at most in its line: ill-formed parts are replaced, and a line feed stands at the end.
There is a frame unless the message is too long for one.  If the entry that has come out, with its line, is
sent the same way again, from whatever container, the same comes out. -/
theorem passage_normalizes (hs : e.source.hasSurrogate = false) (ht : fitsTime e.time = true)
    (hc : c.HasTexts) (nesting : Nat) (line : Bytes) (hostname : Text) :
    ∃ e' : Entry, (e'.source = e.source ∧ e'.isPartial = e.isPartial ∧ e'.time = e.time) ∧
      (e'.line = Record.terminated (Utf8.encodeLossy (Utf8.decodeLossy line)) ∧
        ((Utf8.decode? line).isSome → e'.line = if endsLine line then line else line ++ [lineFeed])) ∧
      ((e'.size < Frame.lengthBound ∧
          ∃ frame, e.passage nesting line c hostname = .ok frame ∧ Frame.Holds frame e') ∨
        (Frame.lengthBound ≤ e'.size ∧
          e.passage nesting line c hostname = .error (.payload (.tooLong e'.size)))) ∧
      ∀ (nesting' : Nat) (c' : Container) (hostname' : Text), c'.HasTexts →
        e'.passage nesting' e'.line c' hostname' = e.passage nesting line c hostname := by
  refine ⟨{ e with line }.returned, ⟨rfl, rfl, rfl⟩, ⟨rfl, ?_⟩, ?_, ?_⟩
  · intro hdecode
    rw [returned, Utf8.encodeLossy_decodeLossy hdecode, Record.terminated]
  · have hback : { e with line }.returned.source.hasSurrogate = false := hs
    rw [passage_eq hs ht hc]
    refine (holds_or_tooLong hback ht).imp (.imp_right ?_) (.imp_right ?_)
    · rintro ⟨frame, hframe, hholds⟩
      exact ⟨frame, by rw [hframe]; rfl, hholds⟩
    · intro htooLong
      rw [htooLong]
      rfl
  · intro nesting' c' hostname' hc'
    have hback : { e with line }.returned.source.hasSurrogate = false := hs
    rw [passage_eq hs ht hc, passage_eq hback ht hc']
    exact congrArg (fun e : Entry => (Frame.encode e).mapError Failure.payload)
      (returned_returned { e with line })

/-- A piece of a line with a byte that stands for nothing, which is replaced. -/
theorem passage_normalizes_piece : ∃ (e : Entry) (line frame : Bytes),
    e.source.hasSurrogate = false ∧ fitsTime e.time = true ∧ Container.HasTexts {} ∧
      e.passage 0 line {} [] = .ok frame ∧
      Frame.Holds frame { e with line := [0xEF, 0xBF, 0xBD, 0x61, 0x0A] } ∧
      e.passage 0 [0xEF, 0xBF, 0xBD, 0x61, 0x0A] {} [] = .ok frame := by
  obtain ⟨⟨line', source', isPartial', time'⟩, ⟨rfl, rfl, rfl⟩, ⟨hline, -⟩, hframe, hagain⟩ :=
    passage_normalizes (e := { source := "stdout", isPartial := true, time := -1 }) rfl (by decide)
      hasTexts_empty 0 [0xFF, 0x61] []
  have hreplaced : Record.terminated (Utf8.encodeLossy (Utf8.decodeLossy [0xFF, 0x61])) =
      [0xEF, 0xBF, 0xBD, 0x61, 0x0A] := by cbv
  obtain rfl := hline.trans hreplaced
  obtain ⟨-, frame, hpassage, hholds⟩ | ⟨htooLong, -⟩ := hframe
  · refine ⟨_, _, frame, rfl, by decide, hasTexts_empty, hpassage, hholds, ?_⟩
    rw [← hpassage]
    exact hagain 0 {} [] hasTexts_empty
  · have hsize : Entry.size ⟨[0xEF, 0xBF, 0xBD, 0x61, 0x0A], "stdout", true, -1⟩ = 28 := by cbv
    exact absurd (htooLong.trans_eq hsize) (by decide)

end Entry

end LogRelay
