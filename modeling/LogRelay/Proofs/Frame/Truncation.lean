import LogRelay.Proofs.Entry.Payload
import LogRelay.Proofs.Frame.Ending
import Mathlib.Data.List.Forall2
/-!
# Frames that are read back

Entries that are written in frames, one after the other, are read back.  If the bytes break off somewhere,
those entries are read back whose frames are there as a whole; the reading ends cleanly just if the bytes
break off between two frames, and else it finds a frame that is cut short.

## Main definitions

* `Frame.Passes`: the frame of an entry, for which it is not too long.
* `FrameError.IsTruncation`: a frame is cut short.

## Main statements

* `Frame.passes_encode`: an entry whose message is not too long has such a frame.
* `exists_entriesOf_take`, `endOf_take_eq_clean`, `isTruncation_of_endOf_take`: what is read of frames
  that break off, and how it ends.
* `entries_cut`: entries are written in frames and read back.
-/
namespace LogRelay

/-- The frame holds the entry, and a reader with the given limit does not find it too long. -/
def Frame.Passes (limit : Int) (e : Entry) (frame : Bytes) : Prop :=
  ∃ payload, frame = Frame.wrap payload ∧ payload.length < Frame.lengthBound ∧
    (payload.length : Int) ≤ limit ∧ Entry.ofPayload? payload = some e

/-- The error says that a frame is cut short. -/
def FrameError.IsTruncation : FrameError → Prop
  | .truncatedHeader _ | .truncatedPayload .. => True
  | _ => False

namespace Frame

variable {limit : Int} {e : Entry} {frame : Bytes}

theorem length_wrap (payload : Bytes) : (wrap payload).length = headerSize + payload.length := by
  rw [wrap, List.length_append]
  rfl

/-- An entry has a frame that passes if its source has a UTF-8 form, its time fits in 64 bits, and its
message is not too long. -/
theorem passes_encode (hlimit : limit < lengthBound) (hs : e.source.hasSurrogate = false)
    (ht : Entry.fitsTime e.time = true)
    (hsize : ∀ payload, e.payload = .ok payload → (payload.length : Int) ≤ limit) :
    ∃ frame, encode e = .ok frame ∧ Passes limit e frame := by
  obtain ⟨payload, hpayload⟩ := Entry.exists_payload_iff.2 ⟨hs, ht⟩
  have hle := hsize payload hpayload
  have hbound : payload.length < lengthBound := by omega
  refine ⟨wrap payload, encode_eq_ok_iff.2 ⟨payload, hpayload, hbound, rfl⟩, payload, rfl, hbound,
    hle, Entry.ofPayload?_payload hpayload ?_⟩
  exact hbound.trans (by decide)

theorem Passes.length_pos (h : Passes limit e frame) : 0 < frame.length := by
  obtain ⟨payload, rfl, -⟩ := h
  rw [length_wrap]
  exact Nat.add_pos_left (by decide) _

/-- Such a frame is read, whatever follows. -/
theorem Passes.firstFrame? (h : Passes limit e frame) (rest : Bytes) :
    firstFrame? limit (frame ++ rest) = some (e, rest) := by
  obtain ⟨payload, rfl, hbound, hle, hpayload⟩ := h
  exact firstFrame?_wrap hpayload hbound hle rest

/-- If bytes of such a frame are missing, none is read, and if some are there it is cut short. -/
theorem Passes.firstFrame?_take (h : Passes limit e frame) {c : Nat} (hc : c < frame.length) :
    LogRelay.firstFrame? limit (frame.take c) = none ∧
      (frameFault limit (frame.take c)).IsTruncation := by
  obtain ⟨payload, rfl, hbound, hle, hpayload⟩ := h
  rw [length_wrap] at hc
  have hlen : ((wrap payload).take c).length = c := by
    rw [List.length_take, length_wrap]
    omega
  rw [LogRelay.firstFrame?, frameFault, hlen]
  by_cases hshort : c < headerSize
  · rw [if_pos hshort, if_pos hshort]
    exact ⟨rfl, trivial⟩
  · have hheader : lengthOf (((wrap payload).take c).take headerSize) = payload.length := by
      rw [List.take_take, Nat.min_eq_left (Nat.le_of_not_lt hshort)]
      exact lengthOf_header hbound
    have hcut : c - headerSize < payload.length := by omega
    rw [if_neg hshort, if_neg hshort, hheader, if_neg (by omega), if_neg (by omega), messageAt?,
      List.length_drop, hlen, if_pos hcut, if_pos hcut]
    exact ⟨rfl, trivial⟩

end Frame

/-! ## Frames that break off -/

section

variable {limit : Int} {es : List Entry} {frame : Bytes} {frames : List Bytes} {c : Nat}

theorem take_flatten_of_le (h : frame.length ≤ c) : (frame :: frames).flatten.take c =
    frame ++ frames.flatten.take (c - frame.length) := by
  rw [List.flatten_cons, List.take_append, List.take_of_length_le h]

theorem take_flatten_of_lt (h : c < frame.length) :
    (frame :: frames).flatten.take c = frame.take c := by
  rw [List.flatten_cons, List.take_append_of_le_length (Nat.le_of_lt h)]

theorem length_flatten_take_succ (frame : Bytes) (frames : List Bytes) (k : Nat) :
    ((frame :: frames).take (k + 1)).flatten.length =
      frame.length + (frames.take k).flatten.length := by
  rw [List.take_succ_cons, List.flatten_cons, List.length_append]

/-- The entries are read whose frames are there as a whole. -/
theorem exists_entriesOf_take (h : List.Forall₂ (Frame.Passes limit) es frames) (c : Nat) :
    ∃ n, entriesOf limit (frames.flatten.take c) = es.take n ∧
      ∀ k < es.length, k < n ↔ (frames.take (k + 1)).flatten.length ≤ c := by
  induction h generalizing c with
  | nil =>
      have hnone : firstFrame? limit [] = none := rfl
      exact ⟨0, by simp [entriesOf_of_none hnone], by simp⟩
  | @cons e frame es frames hpass _ ih =>
      rcases Nat.lt_or_ge c frame.length with hlt | hle
      · refine ⟨0, ?_, fun k _ => ?_⟩
        · rw [take_flatten_of_lt hlt, entriesOf_of_none (hpass.firstFrame?_take hlt).1]
          rfl
        · rw [length_flatten_take_succ]
          omega
      · obtain ⟨n, hentries, hcount⟩ := ih (c - frame.length)
        refine ⟨n + 1, ?_, fun k hk => ?_⟩
        · rw [take_flatten_of_le hle, entriesOf_of_some (hpass.firstFrame? _), hentries]
          rfl
        · rw [length_flatten_take_succ]
          cases k with
          | zero => simpa using hle
          | succ k =>
              rw [Nat.add_lt_add_iff_right, hcount k (Nat.lt_of_succ_lt_succ hk)]
              omega

/-- The end is clean just if the bytes end with a frame. -/
theorem endOf_take_eq_clean (h : List.Forall₂ (Frame.Passes limit) es frames)
    (hc : c ≤ frames.flatten.length) : endOf limit (frames.flatten.take c) = .clean ↔
      ∃ k ≤ es.length, (frames.take k).flatten.length = c := by
  induction h generalizing c with
  | nil =>
      have hnone : firstFrame? limit [] = none := rfl
      obtain rfl : c = 0 := by simpa using hc
      simp [endOf_of_none hnone]
  | @cons e frame es frames hpass _ ih =>
      have hpos := hpass.length_pos
      rw [List.flatten_cons, List.length_append] at hc
      rcases Nat.lt_or_ge c frame.length with hlt | hle
      · have htake : frame.take c = [] ↔ c = 0 := by
          rw [List.take_eq_nil_iff, or_iff_left (List.ne_nil_of_length_pos hpos)]
        have hclean : endOf limit (frame.take c) = .clean ↔ c = 0 := by
          rw [endOf_of_none (hpass.firstFrame?_take hlt).1, ← htake]
          split_ifs with hnil <;> simp [hnil]
        rw [take_flatten_of_lt hlt, hclean]
        constructor
        · rintro rfl
          exact ⟨0, Nat.zero_le _, rfl⟩
        · rintro ⟨k, -, hend⟩
          cases k with
          | zero => exact hend.symm
          | succ k =>
              rw [length_flatten_take_succ] at hend
              omega
      · rw [take_flatten_of_le hle, endOf_of_some (hpass.firstFrame? _), ih (by omega)]
        constructor
        · rintro ⟨k, hk, hend⟩
          exact ⟨k + 1, Nat.succ_le_succ hk, by rw [length_flatten_take_succ]; omega⟩
        · rintro ⟨k, hk, hend⟩
          cases k with
          | zero =>
              rw [List.take_zero, List.flatten_nil, List.length_nil] at hend
              omega
          | succ k =>
              rw [length_flatten_take_succ] at hend
              exact ⟨k, Nat.le_of_succ_le_succ hk, by omega⟩

/-- If the end is not clean, a frame is cut short. -/
theorem isTruncation_of_endOf_take (h : List.Forall₂ (Frame.Passes limit) es frames)
    {fault : FrameError} (hend : endOf limit (frames.flatten.take c) = .broken fault) :
    fault.IsTruncation := by
  induction h generalizing c with
  | nil =>
      have hnone : firstFrame? limit [] = none := rfl
      simp [endOf_of_none hnone] at hend
  | @cons e frame es frames hpass _ ih =>
      rcases Nat.lt_or_ge c frame.length with hlt | hle
      · obtain ⟨hnone, htruncated⟩ := hpass.firstFrame?_take hlt
        rw [take_flatten_of_lt hlt, endOf_of_none hnone] at hend
        split_ifs at hend
        cases hend
        exact htruncated
      · rw [take_flatten_of_le hle, endOf_of_some (hpass.firstFrame? _)] at hend
        exact ih hend

end

/-- **Frames are read back, also when they break off.**  Entries whose sources have a UTF-8 form, whose
times fit in 64 bits, and whose messages are no longer than a limit can be written in frames, one after
the other.  A reader with this limit that gets the first bytes of these, on whatever schedule, reads
exactly the entries whose frames are among these bytes as a whole, in order; and it comes to a clean end
just if the bytes end with a frame, and else finds a frame that is cut short. -/
theorem entries_cut {limit : Int} (hlimit : limit < Frame.lengthBound) {es : List Entry}
    (hsource : ∀ e ∈ es, e.source.hasSurrogate = false)
    (htime : ∀ e ∈ es, Entry.fitsTime e.time = true)
    (hsize : ∀ e ∈ es, ∀ payload, e.payload = .ok payload → (payload.length : Int) ≤ limit) :
    ∃ frames, es.mapM Frame.encode = .ok frames ∧
      ∀ (s : Supply) (c : Nat), s.IsGenerous → c ≤ frames.flatten.length →
        s.unread = frames.flatten.take c →
          ∃ n, (s.entries limit).1 = es.take n ∧
            (∀ k < es.length, k < n ↔ (frames.take (k + 1)).flatten.length ≤ c) ∧
            ((s.entries limit).2.1 = .clean ↔ ∃ k ≤ es.length, (frames.take k).flatten.length = c) ∧
            ∀ fault, (s.entries limit).2.1 = .broken fault → fault.IsTruncation := by
  obtain ⟨frames, hframes, hpass⟩ : ∃ frames, es.mapM Frame.encode = .ok frames ∧
      List.Forall₂ (Frame.Passes limit) es frames := by
    induction es with
    | nil => exact ⟨[], rfl, .nil⟩
    | cons e es ih =>
        rw [List.forall_mem_cons] at hsource htime hsize
        obtain ⟨frames, hframes, hall⟩ := ih hsource.2 htime.2 hsize.2
        obtain ⟨frame, hframe, hpass⟩ := Frame.passes_encode hlimit hsource.1 htime.1 hsize.1
        refine ⟨frame :: frames, ?_, .cons hpass hall⟩
        rw [List.mapM_cons, hframe, hframes]
        rfl
  refine ⟨frames, hframes, ?_⟩
  intro s c hs hc hunread
  rw [Supply.entries_eq limit hs, Supply.end_eq limit hs, hunread]
  obtain ⟨n, hentries, hcount⟩ := exists_entriesOf_take hpass c
  exact ⟨n, hentries, hcount, endOf_take_eq_clean hpass hc,
    fun fault => isTruncation_of_endOf_take hpass⟩

/-- Of two frames, the first of which has an empty message, the second one breaks off: the first entry
is read, and the end is not clean. -/
theorem entries_cut_second : ∃ (first second : Entry) (frames : List Bytes),
    [first, second].mapM Frame.encode = .ok frames ∧ frames.map List.length = [4, 25] ∧
      ∀ s : Supply, s.IsGenerous → s.unread = frames.flatten.take 20 →
        (s.entries 21).1 = [first] ∧ ∃ fault, (s.entries 21).2.1 = .broken fault := by
  let first : Entry := {}
  let second : Entry := { line := [97, 10], source := "é", time := -1, isPartial := true }
  have hsize : ∀ e ∈ [first, second], ∀ payload, e.payload = .ok payload →
      (payload.length : Int) ≤ 21 := by
    intro e he payload hpayload
    have hlen : ∀ e ∈ [first, second], (e.payload.toOption.all (·.length ≤ 21)) = true := by
      decide +kernel
    have := hlen e he
    rw [hpayload] at this
    simp only [Except.toOption, Option.all_some, decide_eq_true_eq] at this
    omega
  obtain ⟨frames, hframes, hread⟩ := entries_cut (by decide : (21 : Int) < Frame.lengthBound)
    (by decide : ∀ e ∈ [first, second], e.source.hasSurrogate = false) (by decide) hsize
  have hlengths : frames.map List.length = [4, 25] := by
    have : ([first, second].mapM Frame.encode).toOption.map (·.map List.length) = some [4, 25] := by
      decide +kernel
    rw [hframes] at this
    exact Option.some.inj this
  have hends (k : Nat) : (frames.take k).flatten.length = ([4, 25].take k).sum := by
    rw [List.length_flatten, List.map_take, hlengths]
  refine ⟨first, second, frames, hframes, hlengths, ?_⟩
  intro s hs hunread
  have hlong : 20 ≤ frames.flatten.length := by
    rw [List.length_flatten, hlengths]
    decide
  obtain ⟨n, hentries, hcount, hclean, -⟩ := hread s 20 hs hlong hunread
  simp only [hends] at hcount hclean
  have hfirst : 0 < n := (hcount 0 (by decide)).2 (by decide)
  have hsecond : ¬ 1 < n := fun h => absurd ((hcount 1 (by decide)).1 h) (by decide)
  obtain rfl : n = 1 := by omega
  refine ⟨hentries, ?_⟩
  cases hend : (s.entries 21).2.1 with
  | broken fault => exact ⟨fault, rfl⟩
  | clean => exact absurd (hclean.1 hend) (by decide)

end LogRelay
