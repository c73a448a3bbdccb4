import LogRelay.Aggregator
import LogRelay.Proofs.Entry.Size
import LogRelay.Proofs.Frame.Residue
import LogRelay.Proofs.Record.Document
/-!
# Entries that come back

An entry that is no piece of a longer line is a line of its own.  Its record is stored, read back, and
turned into an entry again, which is the one that went in but for its line: ill-formed parts have been
replaced, and there is a line feed at the end.  So the entry that comes back may be longer than the one
that went in.  A reader that has just accepted the one may find the other too long, since whoever writes
the frame of it knows nothing of limits.

## Main definitions

* `Frame.IsAccepted`: a reader of frames accepts a frame.
* `Entry.returned`: the entry that comes back.
* `Entry.ComesBackAs`: what becomes of an entry on its way.
* `Entry.CanBeSent`: an entry has a frame that is accepted.

## Main statements

* `Frame.isAccepted_iff`: which frames are accepted.
* `Entry.canBeSent_iff`: which entries have an accepted frame.
* `Entry.size_returned_le_of_decode?`, `Entry.size_returned_le`: how much longer an entry can become.
* `Entry.returns_under_limit`: an accepted entry comes back, and when it is accepted again.
-/
namespace LogRelay

/-! ## Frames that are accepted -/

namespace Frame

variable {limit : Int} {frame : Bytes} {e : Entry}

/-- A reader with the given limit finds the entry in the frame, and nothing else, whatever pieces the
bytes of the frame come in. -/
def IsAccepted (limit : Int) (frame : Bytes) (e : Entry) : Prop :=
  ∀ s : Supply, s.IsGenerous → s.unread = frame →
    (s.entries limit).1 = [e] ∧ (s.entries limit).2.1 = .clean

/-- The frames that are accepted are those that are not too long and hold the entry. -/
theorem isAccepted_iff : IsAccepted limit frame e ↔ Passes limit e frame := by
  constructor
  · intro h
    obtain ⟨hentries, hend⟩ := h ⟨frame, fun _ => 1, 0⟩ (fun _ => Nat.one_pos) rfl
    rw [Supply.entries_eq limit fun _ => Nat.one_pos] at hentries
    rw [Supply.end_eq limit fun _ => Nat.one_pos] at hend
    simp only at hentries hend
    cases hfirst : firstFrame? limit frame with
    | none =>
        rw [entriesOf_of_none hfirst] at hentries
        cases hentries
    | some r =>
        obtain ⟨e', rest⟩ := r
        rw [entriesOf_of_some hfirst] at hentries
        rw [endOf_of_some hfirst] at hend
        obtain ⟨rfl, hnone⟩ := List.cons.inj hentries
        have hrest : firstFrame? limit rest = none := by
          cases hmore : firstFrame? limit rest with
          | none => rfl
          | some r =>
              rw [entriesOf_of_some hmore] at hnone
              cases hnone
        rw [endOf_of_none hrest] at hend
        split_ifs at hend with hnil
        rw [hnil] at hfirst
        obtain ⟨frame', hframe, hpass⟩ := exists_passes_of_firstFrame? hfirst
        rwa [hframe, List.append_nil]
  · intro h s hs hunread
    have hnone : firstFrame? limit [] = none := rfl
    have hfirst := h.firstFrame? []
    rw [List.append_nil, ← hunread] at hfirst
    rw [Supply.entries_eq limit hs, Supply.end_eq limit hs, entriesOf_of_some hfirst,
      endOf_of_some hfirst, entriesOf_of_none hnone, endOf_of_none hnone]
    exact ⟨rfl, rfl⟩

end Frame

/-! ## Entries that come back -/

/-- A container that is described by texts. -/
structure Container.HasTexts (c : Container) : Prop where
  id : ∃ t : Text, c.id = .str t
  imageName : ∃ t : Text, c.imageName = .str t
  imageId : ∃ t : Text, c.imageId = .str t

namespace Entry

variable {limit : Int} {e e' : Entry}

/-- The entry has a frame, and a reader with the given limit accepts that. -/
def CanBeSent (limit : Int) (e : Entry) : Prop :=
  ∃ frame, Frame.encode e = .ok frame ∧ Frame.IsAccepted limit frame e

/-- The entry that comes back of one that is a line of its own. -/
def returned (e : Entry) : Entry :=
  { e with line := Record.terminated (Utf8.encodeLossy (Utf8.decodeLossy e.line)) }

/-- The entry is a line of its own.  Its record can be stored, and what is stored is read as a record
whose entry is the other one. -/
structure ComesBackAs (e : Entry) (c : Container) (hostname : Text) (e' : Entry) : Prop where
  line : Aggregator.inactive.process e = (some e.line, .inactive)
  record : ∃ value r, (Record.build e e.line c hostname).document = .ok value ∧
    (∀ nesting, Record.ofDocument nesting (some value) = .ok r) ∧ r.toEntry = e'

/-- The record of a line can be stored, and what is stored is read as a record whose entry is the one that
comes back. -/
theorem exists_toEntry_eq_returned (hs : e.source.hasSurrogate = false) (ht : fitsTime e.time = true)
    {c : Container} (hc : c.HasTexts) (hostname : Text) :
    ∃ value r, (Record.build e e.line c hostname).document = .ok value ∧
      (∀ nesting, Record.ofDocument nesting (some value) = .ok r) ∧ r.toEntry = e.returned := by
  have hlegible : (Record.build e e.line c hostname).IsLegible :=
    ⟨Utf8.hasSurrogate_decodeLossy _, hs, ht, hc.id, hc.imageName, hc.imageId⟩
  obtain ⟨value, r, hdoc, hread, hline, hsource, hpart, htime, -⟩ :=
    Record.exists_ofDocument_document hlegible
  refine ⟨value, r, hdoc, hread, ?_⟩
  rw [Record.toEntry, hline, hsource, hpart, htime]
  rfl

theorem comesBackAs_returned (hpartial : e.isPartial = false) (hs : e.source.hasSurrogate = false)
    (ht : fitsTime e.time = true) {c : Container} (hc : c.HasTexts) (hostname : Text) :
    e.ComesBackAs c hostname e.returned := by
  refine ⟨?_, exists_toEntry_eq_returned hs ht hc hostname⟩
  rw [Aggregator.process, hpartial]
  rfl

/-! ## How long they are -/

/-- An entry has an accepted frame just if its message is not too long. -/
theorem canBeSent_iff (hs : e.source.hasSurrogate = false) (ht : fitsTime e.time = true) :
    e.CanBeSent limit ↔ (e.size : Int) ≤ limit ∧ e.size < Frame.lengthBound := by
  obtain ⟨message, hmessage⟩ := exists_payload_iff.2 ⟨hs, ht⟩
  have hlength := length_of_payload hmessage
  rw [← hlength]
  constructor
  · rintro ⟨frame, hframe, haccepted⟩
    obtain ⟨message', hmessage', hbound, rfl⟩ := encode_eq_ok_iff.1 hframe
    obtain rfl := Except.ok.inj (hmessage.symm.trans hmessage')
    obtain ⟨held, hwrap, -, hlimit, -⟩ := Frame.isAccepted_iff.1 haccepted
    have hsame := congrArg List.length hwrap
    rw [Frame.length_wrap, Frame.length_wrap] at hsame
    exact ⟨by omega, hbound⟩
  · rintro ⟨hlimit, hbound⟩
    refine ⟨Frame.wrap message, encode_eq_ok_iff.2 ⟨message, hmessage, hbound, rfl⟩,
      Frame.isAccepted_iff.2 ⟨message, rfl, hbound, hlimit, ?_⟩⟩
    exact ofPayload?_payload hmessage (hbound.trans (by decide))

/-- The size changes only with the line. -/
theorem size_returned_add (e : Entry) :
    e.returned.size + bytesSize e.line = e.size + bytesSize e.returned.line := by
  have hreturned : e.returned.size = bytesSize (e.source.flatMap Utf8.encodePoint) +
      timeSize e.time + bytesSize e.returned.line + if e.isPartial then 2 else 0 := rfl
  rw [hreturned, size]
  omega

section

variable {bs bs' : Bytes}

theorem bytesSize_of_ne_nil (h : bs ≠ []) :
    bytesSize bs = 1 + (Varint.encode bs.length).length + bs.length :=
  if_neg h

theorem bytesSize_mono (h : bs.length ≤ bs'.length) : bytesSize bs ≤ bytesSize bs' := by
  by_cases hnil : bs = []
  · rw [hnil]
    exact Nat.zero_le _
  · have hpos := List.length_pos_iff.2 hnil
    have hmono := Varint.length_encode_mono h
    rw [bytesSize_of_ne_nil hnil, bytesSize_of_ne_nil (List.length_pos_iff.1 (hpos.trans_le h))]
    omega

/-- At most one byte, the tag and the length in front of it. -/
theorem bytesSize_le_three (h : bs.length ≤ 1) : bytesSize bs ≤ 3 := by
  have hle := bytesSize_le bs
  rw [Varint.length_encode, if_pos (by omega)] at hle
  omega

/-- One byte more may make the length longer by one, or be the first one at all. -/
theorem bytesSize_le_add (h : bs'.length ≤ bs.length + 1) : bytesSize bs' ≤ bytesSize bs + 3 := by
  by_cases hnil : bs = []
  · rw [hnil, List.length_nil] at h
    exact (bytesSize_le_three (by omega)).trans (Nat.le_add_left _ _)
  · have hle := bytesSize_le bs'
    have hgrow := Varint.length_encode_le_succ (by omega : bs'.length < 0x80 * (bs.length + 1))
    rw [bytesSize_of_ne_nil hnil]
    omega

/-- Three bytes for each one, and one more. -/
theorem bytesSize_le_mul (h : bs'.length ≤ 3 * bs.length + 1) :
    bytesSize bs' ≤ 3 * bytesSize bs + 3 := by
  by_cases hnil : bs = []
  · rw [hnil, List.length_nil] at h
    exact (bytesSize_le_three (by omega)).trans (Nat.le_add_left _ _)
  · have hle := bytesSize_le bs'
    have hgrow := Varint.length_encode_le_succ (by omega : bs'.length < 0x80 * (bs.length + 1))
    rw [bytesSize_of_ne_nil hnil]
    omega

end

/-- If the line does not become longer, neither does the entry. -/
theorem size_returned_le_of_length_le (h : e.returned.line.length ≤ e.line.length) :
    e.returned.size ≤ e.size := by
  have hadd := e.size_returned_add
  have hmono := bytesSize_mono h
  omega

/-- A line that is well-formed and ends comes back as it was. -/
theorem returned_eq_self (h : (Utf8.decode? e.line).isSome) (hend : endsLine e.line = true) :
    e.returned = e := by
  rw [returned, Utf8.encodeLossy_decodeLossy h, Record.terminated, if_pos hend]

theorem length_terminated_le (line : Bytes) : (Record.terminated line).length ≤ line.length + 1 := by
  rw [Record.terminated]
  split_ifs
  · omega
  · rw [List.length_append, List.length_singleton]

/-- A line that is well-formed makes the entry longer by three bytes at most. -/
theorem size_returned_le_of_decode? (h : (Utf8.decode? e.line).isSome) :
    e.returned.size ≤ e.size + 3 := by
  have hadd := e.size_returned_add
  have hline : e.returned.line = Record.terminated e.line := by
    rw [returned, Utf8.encodeLossy_decodeLossy h]
  have hle := bytesSize_le_add (length_terminated_le e.line)
  rw [← hline] at hle
  omega

/-- Whatever the line is, the entry becomes at most three times as long, and three bytes longer. -/
theorem size_returned_le (e : Entry) : e.returned.size ≤ 3 * e.size + 3 := by
  have hadd := e.size_returned_add
  have hlossy := Utf8.length_encodeLossy_decodeLossy_le e.line
  have hlength : e.returned.line.length ≤ (Utf8.encodeLossy (Utf8.decodeLossy e.line)).length + 1 :=
    length_terminated_le _
  have hle := bytesSize_le_mul (hlength.trans (Nat.add_le_add_right hlossy 1))
  have hline : bytesSize e.line ≤ e.size := by
    simp only [size]
    omega
  omega

/-! ## Accepted again -/

/-- **An entry that is accepted comes back, and is accepted again just if it has not become too long.**
A reader accepts the frame of an entry that is no piece of a longer line.  Then the record of the entry
can be stored and is read back, and the entry that comes back has a message.  A reader accepts the frame
of that just if the message is not longer than its limit allows, and fits in a frame at all.  So the same
reader does if the line has not become longer, as when it is well-formed and ends, and comes back as it
was.  If it is well-formed but does not end, three more bytes are enough, and whatever it is, three times
as many and three more are. -/
theorem returns_under_limit {frame : Bytes} (h : Frame.IsAccepted limit frame e)
    (hpartial : e.isPartial = false) {c : Container} (hc : c.HasTexts) (hostname : Text) :
    e.ComesBackAs c hostname e.returned ∧ ∃ message, e.returned.payload = .ok message ∧
      (∀ limit', e.returned.CanBeSent limit' ↔
        (message.length : Int) ≤ limit' ∧ message.length < Frame.lengthBound) ∧
      (e.returned.line.length ≤ e.line.length → e.returned.CanBeSent limit) ∧
      ((Utf8.decode? e.line).isSome → endsLine e.line = true → e.returned = e) ∧
      ((Utf8.decode? e.line).isSome → (message.length : Int) ≤ limit + 3) ∧
      (message.length : Int) ≤ 3 * limit + 3 := by
  obtain ⟨payload, -, hbound, hlimit, hpayload⟩ := Frame.isAccepted_iff.1 h
  have hs := hasSurrogate_source_of_ofPayload? hpayload
  have ht := fitsTime_of_ofPayload? hpayload
  have hsize := size_le_of_ofPayload? hpayload
  obtain ⟨message, hmessage⟩ : ∃ message, e.returned.payload = .ok message :=
    exists_payload_iff.2 ⟨hs, ht⟩
  have hlength := length_of_payload hmessage
  have hsent (limit' : Int) : e.returned.CanBeSent limit' ↔
      (message.length : Int) ≤ limit' ∧ message.length < Frame.lengthBound := by
    rw [hlength]
    exact canBeSent_iff hs ht
  refine ⟨comesBackAs_returned hpartial hs ht hc hostname, message, hmessage, hsent, ?_,
    returned_eq_self, ?_, ?_⟩
  · intro hline
    have hle := size_returned_le_of_length_le hline
    rw [hsent, hlength]
    omega
  · intro hdecode
    have hle := size_returned_le_of_decode? hdecode
    omega
  · have hle := e.size_returned_le
    omega

theorem hasTexts_empty : Container.HasTexts {} :=
  ⟨⟨[], rfl⟩, ⟨[], rfl⟩, ⟨[], rfl⟩⟩

/-- The letter `a`, in a frame whose message has three bytes. -/
theorem isAccepted_letter :
    Frame.IsAccepted 3 [0x00, 0x00, 0x00, 0x03, 0x1A, 0x01, 0x61] { line := [0x61] } := by
  have hpayload : ({ line := [0x61] } : Entry).payload = .ok [0x1A, 0x01, 0x61] := by cbv
  exact Frame.isAccepted_iff.2 ⟨[0x1A, 0x01, 0x61], by decide, by decide, by decide,
    ofPayload?_payload hpayload (by decide)⟩

/-- The letter comes back with a line feed, in a message of four bytes. -/
theorem returns_under_limit_letter : ∃ (frame : Bytes) (e : Entry), Frame.IsAccepted 3 frame e ∧
    e.ComesBackAs {} [] { line := [0x61, 0x0A] } ∧ e.returned.CanBeSent 4 ∧
      ¬ e.returned.CanBeSent 3 := by
  obtain ⟨hback, message, hmessage, hsent, -⟩ :=
    returns_under_limit isAccepted_letter rfl hasTexts_empty []
  have hfour : ({ line := [0x61] } : Entry).returned.payload = .ok [0x1A, 0x02, 0x61, 0x0A] := by
    cbv
  obtain rfl := Except.ok.inj (hmessage.symm.trans hfour)
  exact ⟨_, _, isAccepted_letter, hback, (hsent 4).2 (by decide), fun h => by simpa using (hsent 3).1 h⟩

/-- An accepted entry may come back as one that is not accepted under the same limit. -/
theorem exists_not_canBeSent_returned :
    ¬ ∀ (limit : Int) (frame : Bytes) (e : Entry), Frame.IsAccepted limit frame e →
      e.isPartial = false → e.source.hasSurrogate = false → ∀ (c : Container) (hostname : Text)
        (value : Bytes) (r : Record Text), (Record.build e e.line c hostname).document = .ok value →
          (∀ nesting, Record.ofDocument nesting (some value) = .ok r) →
            r.toEntry.CanBeSent limit := by
  intro hall
  obtain ⟨-, value, r, hdoc, hread, hentry⟩ :=
    comesBackAs_returned (e := { line := [0x61] }) rfl rfl (by decide) hasTexts_empty []
  have hsent := hall 3 _ { line := [0x61] } isAccepted_letter rfl rfl {} [] value r hdoc hread
  rw [hentry, canBeSent_iff rfl (by decide)] at hsent
  have hsize : ({ line := [0x61] } : Entry).returned.size = 4 := by cbv
  omega

end Entry

end LogRelay
