import LogRelay.Proofs.Frame.Chunks
/-!
# What the reading of frames takes and what it leaves

The frames of a stream are read one after the other, and where there is none the reading ends.  It has
then taken the frames of the entries that it found, and of what follows so much as it needed to find out
how it ends: nothing at a clean end, a header that announces too long a message, a malformed message with
its header, or all that is left when a frame is cut short.  The rest it leaves to whoever reads on.  None
of this depends on the pieces that the bytes come in.

## Main definitions

* `restOf`: what is left of a byte sequence.
* `FrameEnd.Takes`: what the end of the reading has taken.
* `Supply.IsLively`: each read hands out something as long as there is something.
* `Supply.lavish`: a supply that does so for ever.

## Main statements

* `exists_passes_of_firstFrame?`, `takes_of_firstFrame?_eq_none`: what is taken of bytes, with a frame at
  their start and without one.
* `Supply.reads_entriesFrom_le`: the reading ends, and after how many reads.
* `Supply.unread_entries`: what is left of a supply.
* `Supply.entries_lavish`: only the reads count that are made while there is something to read.
* `Supply.entries_ignore_schedule`: all that is read, taken and left, whatever the pieces.
-/
namespace LogRelay

open LogRelay.Frame (headerSize lengthBound lengthOf header wrap Passes)

/-! ## Bytes -/

/-- The bytes that are left behind the last frame and what was taken to see that it is the last one. -/
def restOf (limit : Int) (bs : Bytes) : Bytes :=
  match _h : firstFrame? limit bs with
  | none => faultRest limit bs
  | some (_, rest) => restOf limit rest
termination_by bs.length
decreasing_by exact length_lt_of_firstFrame? _h

/-- The end of the reading has taken the bytes of the first sequence and has left those of the second
one. -/
inductive FrameEnd.Takes (limit : Int) : FrameEnd → Bytes → Bytes → Prop where
  /-- nothing is taken, since nothing is there -/
  | clean : Takes limit .clean [] []
  /-- all is taken, and it is less than a header -/
  | truncatedHeader {bs : Bytes} (hne : bs ≠ []) (hlen : bs.length < headerSize) :
    Takes limit (.broken (.truncatedHeader bs.length)) bs []
  /-- a header is taken, and its message is left -/
  | oversized {length : Nat} (hbound : length < lengthBound) (hlimit : limit < length)
    (rest : Bytes) : Takes limit (.broken (.oversized length limit)) (header length) rest
  /-- all is taken, and it is a header with less than its message -/
  | truncatedPayload {length : Nat} {bs : Bytes} (hbound : length < lengthBound)
    (hlimit : length ≤ limit) (hlen : bs.length < length) :
    Takes limit (.broken (.truncatedPayload bs.length length)) (header length ++ bs) []
  /-- a frame is taken, and its message holds no entry -/
  | invalidPayload {payload : Bytes} (hbound : payload.length < lengthBound)
    (hlimit : payload.length ≤ limit) (hnone : Entry.ofPayload? payload = none) (rest : Bytes) :
    Takes limit (.broken .invalidPayload) (wrap payload) rest

section

variable {limit : Int} {bs rest : Bytes} {e : Entry}

theorem restOf_of_none (h : firstFrame? limit bs = none) : restOf limit bs = faultRest limit bs := by
  rw [restOf]
  split <;> simp_all

theorem restOf_of_some (h : firstFrame? limit bs = some (e, rest)) :
    restOf limit bs = restOf limit rest := by
  rw [restOf]
  split <;> simp_all

/-- Bytes that are no shorter than a header start with one. -/
theorem take_eq_header (h : headerSize ≤ bs.length) :
    header (lengthOf (bs.take headerSize)) = bs.take headerSize ∧
      lengthOf (bs.take headerSize) < lengthBound := by
  have hlen : (bs.take headerSize).length = headerSize := by
    rw [List.length_take]
    omega
  exact ⟨Frame.header_lengthOf hlen, Frame.lengthOf_lt hlen⟩

/-- Bytes that hold a header with its message start with the frame of the message. -/
theorem exists_wrap (hheader : headerSize ≤ bs.length)
    (hmessage : lengthOf (bs.take headerSize) ≤ (bs.drop headerSize).length) :
    ∃ payload, payload = (bs.drop headerSize).take (lengthOf (bs.take headerSize)) ∧
      payload.length = lengthOf (bs.take headerSize) ∧
      bs = wrap payload ++ (bs.drop headerSize).drop (lengthOf (bs.take headerSize)) := by
  have hlen : ((bs.drop headerSize).take (lengthOf (bs.take headerSize))).length =
      lengthOf (bs.take headerSize) := by
    rw [List.length_take, Nat.min_eq_left hmessage]
  refine ⟨_, rfl, hlen, ?_⟩
  rw [wrap, hlen, (take_eq_header hheader).1, List.append_assoc, List.take_append_drop,
    List.take_append_drop]

/-- A frame that is read is taken as a whole, and nothing else. -/
theorem exists_passes_of_firstFrame? (h : firstFrame? limit bs = some (e, rest)) :
    ∃ frame, bs = frame ++ rest ∧ Passes limit e frame := by
  rw [firstFrame?] at h
  split_ifs at h with hshort hover
  have hheader : headerSize ≤ bs.length := Nat.le_of_not_lt hshort
  rw [messageAt?] at h
  split_ifs at h with hcut
  obtain ⟨e', hmessage, heq⟩ := Option.map_eq_some_iff.1 h
  obtain ⟨rfl, rfl⟩ := Prod.mk.inj heq
  obtain ⟨payload, hpayload, hlen, hsplit⟩ := exists_wrap hheader (Nat.le_of_not_lt hcut)
  refine ⟨wrap payload, hsplit, payload, rfl, ?_, ?_, ?_⟩
  · rw [hlen]
    exact (take_eq_header hheader).2
  · rw [hlen]
    exact Int.not_lt.1 hover
  · rw [hpayload]
    exact hmessage

/-- What is taken where there is no frame. -/
theorem takes_of_firstFrame?_eq_none (h : firstFrame? limit bs = none) :
    ∃ last, bs = last ++ faultRest limit bs ∧
      (if bs = [] then .clean else .broken (frameFault limit bs) : FrameEnd).Takes limit last
        (faultRest limit bs) := by
  by_cases hshort : bs.length < headerSize
  · refine ⟨bs, ?_, ?_⟩
    · rw [faultRest_of_lt hshort, List.append_nil]
    · rw [faultRest_of_lt hshort, frameFault, if_pos hshort]
      split_ifs with hnil
      · rw [hnil]
        exact .clean
      · exact .truncatedHeader hnil hshort
  · have hheader : headerSize ≤ bs.length := Nat.le_of_not_lt hshort
    have hne : bs ≠ [] := by
      rintro rfl
      exact hshort (by decide)
    obtain ⟨htake, hbound⟩ := take_eq_header hheader
    rw [if_neg hne, frameFault, if_neg hshort, faultRest]
    by_cases hover : limit < lengthOf (bs.take headerSize)
    · rw [if_pos hover, if_pos hover]
      refine ⟨bs.take headerSize, (List.take_append_drop _ _).symm, ?_⟩
      nth_rewrite 2 [← htake]
      exact .oversized hbound hover _
    · rw [if_neg hover, if_neg hover, ← List.drop_drop, ← List.length_drop]
      have hlimit := Int.not_lt.1 hover
      by_cases hcut : (bs.drop headerSize).length < lengthOf (bs.take headerSize)
      · rw [if_pos hcut, List.drop_of_length_le (Nat.le_of_lt hcut)]
        refine ⟨bs, (List.append_nil _).symm, ?_⟩
        have htaken := FrameEnd.Takes.truncatedPayload hbound hlimit hcut
        rwa [htake, List.take_append_drop] at htaken
      · obtain ⟨payload, hpayload, hlen, hsplit⟩ := exists_wrap hheader (Nat.le_of_not_lt hcut)
        have hnone : Entry.ofPayload? payload = none := by
          rw [firstFrame?, if_neg hshort, if_neg hover, messageAt?, if_neg hcut, ← hpayload] at h
          exact Option.map_eq_none_iff.1 h
        rw [if_neg hcut]
        rw [← hlen] at hbound hlimit
        exact ⟨wrap payload, hsplit, .invalidPayload hbound hlimit hnone _⟩

/-- What is taken of bytes, and what is left. -/
theorem exists_frames (limit : Int) (bs : Bytes) :
    ∃ frames last, List.Forall₂ (Passes limit) (entriesOf limit bs) frames ∧
      bs = frames.flatten ++ last ++ restOf limit bs ∧
      (endOf limit bs).Takes limit last (restOf limit bs) := by
  induction bs using restOf.induct limit with
  | case1 bs h =>
      obtain ⟨last, hsplit, htakes⟩ := takes_of_firstFrame?_eq_none h
      rw [entriesOf_of_none h, endOf_of_none h, restOf_of_none h]
      exact ⟨[], last, .nil, hsplit, htakes⟩
  | case2 bs e rest h ih =>
      obtain ⟨frame, hframe, hpass⟩ := exists_passes_of_firstFrame? h
      obtain ⟨frames, last, hall, hsplit, htakes⟩ := ih
      rw [entriesOf_of_some h, endOf_of_some h, restOf_of_some h]
      refine ⟨frame :: frames, last, .cons hpass hall, ?_, htakes⟩
      rw [List.flatten_cons, List.append_assoc, List.append_assoc, ← List.append_assoc frames.flatten,
        ← hsplit, hframe]

end

/-! ## Supplies -/

namespace Supply

variable {s : Supply} {limit : Int} {a : Frame.Assembly} {n : Nat}

/-- The reading ends, and it takes at most one read more than there are bytes, whether or not the reads
hand out anything. -/
theorem reads_entriesFrom_le (limit : Int) (s : Supply) (a : Frame.Assembly) (read : List Entry) :
    (s.entriesFrom limit a read).2.2.reads ≤ s.reads + s.unread.length + 1 := by
  have hread (s : Supply) (n : Nat) : (s.advance n).reads = s.reads + 1 := rfl
  induction hn : s.unread.length using Nat.strongRecOn generalizing s a read with
  | ind n ih =>
      subst hn
      by_cases hoffer : s.offer a.wanted = []
      · have hend : (s.entriesFrom limit a read).2.2 = s.advance a.wanted := by
          rw [entriesFrom, dif_pos hoffer]
          split <;> rfl
        rw [hend, hread]
        omega
      · have hlt := length_advance_lt hoffer
        rw [entriesFrom_of_offer hoffer]
        cases a.feed limit (s.offer a.wanted) with
        | more a' =>
            have := ih _ hlt (s.advance a.wanted) a' read rfl
            rw [hread] at this
            rw [goOn]
            omega
        | entry e =>
            have := ih _ hlt (s.advance a.wanted) .empty (e :: read) rfl
            rw [hread] at this
            rw [goOn]
            omega
        | ended | broken =>
            rw [goOn, hread]
            omega

/-- What is left of a supply when the reading has ended. -/
theorem unread_entriesFrom (read : List Entry) (hs : s.IsGenerous) :
    (s.entriesFrom limit .empty read).2.2.unread = restOf limit s.unread := by
  induction hbs : s.unread using restOf.induct limit generalizing s read with
  | case1 bs h =>
      subst hbs
      obtain ⟨s', hleads, heq⟩ := entriesFrom_of_none limit read hs h
      rw [heq, restOf_of_none h, hleads.unread]
  | case2 bs e rest h ih =>
      subst hbs
      obtain ⟨s', hleads, heq⟩ := entriesFrom_of_some limit read hs h
      rw [heq, restOf_of_some h]
      exact ih _ (hleads.isGenerous hs) hleads.unread

theorem unread_entries (limit : Int) (hs : s.IsGenerous) :
    (s.entries limit).2.2.unread = restOf limit s.unread :=
  unread_entriesFrom [] hs

/-! ## Schedules -/

/-- A read of some bytes hands out at least one as long as there is one, also after any reads of some
bytes. -/
def IsLively (s : Supply) : Prop :=
  ∀ sizes : List Nat, (∀ n ∈ sizes, 0 < n) → (sizes.foldl advance s).unread ≠ [] →
    0 < (sizes.foldl advance s).schedule (sizes.foldl advance s).reads

/-- The supply with a schedule that never lets a read hand out nothing. -/
def lavish (s : Supply) : Supply :=
  { s with schedule := fun i => max 1 (s.schedule i) }

theorem isGenerous_lavish (s : Supply) : s.lavish.IsGenerous :=
  fun i => Nat.lt_of_lt_of_le Nat.one_pos (Nat.le_max_left 1 (s.schedule i))

theorem foldl_advance_kept (s : Supply) (sizes : List Nat) :
    (sizes.foldl advance s).schedule = s.schedule ∧
      (sizes.foldl advance s).unread.length ≤ s.unread.length := by
  induction sizes generalizing s with
  | nil => exact ⟨rfl, Nat.le_refl _⟩
  | cons n sizes ih =>
      obtain ⟨hschedule, hle⟩ := ih (s.advance n)
      refine ⟨hschedule, Nat.le_trans hle ?_⟩
      rw [advance, List.length_drop]
      exact Nat.sub_le _ _

theorem IsGenerous.isLively (hs : s.IsGenerous) : s.IsLively := by
  intro sizes _ _
  rw [(foldl_advance_kept s sizes).1]
  exact hs _

/-- Reads that hand out as much as is asked for hand out something. -/
theorem isLively_ofBytes (bs : Bytes) : (ofBytes bs none).IsLively := by
  intro sizes _ hne
  obtain ⟨hschedule, hle⟩ := foldl_advance_kept (ofBytes bs none) sizes
  rw [hschedule]
  exact Nat.lt_of_lt_of_le (List.length_pos_iff.2 hne) hle

theorem IsLively.advance (hs : s.IsLively) (hn : 0 < n) : (s.advance n).IsLively :=
  fun sizes hsizes => hs (n :: sizes) (List.forall_mem_cons.2 ⟨hn, hsizes⟩)

/-- While there is something to read, the schedule of a lively supply lets something through. -/
theorem IsLively.schedule_pos (hs : s.IsLively) (hne : s.unread ≠ []) : 0 < s.schedule s.reads :=
  hs [] (by simp) hne

theorem offer_lavish (hs : s.IsLively) (n : Nat) : s.lavish.offer n = s.offer n := by
  by_cases hnil : s.unread = []
  · simp [offer, lavish, hnil]
  · have := hs.schedule_pos hnil
    simp only [offer, lavish, Nat.max_eq_right this]

theorem advance_lavish (hs : s.IsLively) (n : Nat) : s.lavish.advance n = (s.advance n).lavish := by
  by_cases hnil : s.unread = []
  · simp [Supply.advance, lavish, hnil]
  · have := hs.schedule_pos hnil
    simp only [Supply.advance, lavish, Nat.max_eq_right this]

/-- The result of a reading with the supply that is left made lavish. -/
def lavished (r : List Entry × FrameEnd × Supply) : List Entry × FrameEnd × Supply :=
  (r.1, r.2.1, r.2.2.lavish)

theorem entriesFrom_lavish (limit : Int) (read : List Entry) (hs : s.IsLively) (ha : a.IsProper) :
    s.lavish.entriesFrom limit a read = lavished (s.entriesFrom limit a read) := by
  induction hn : s.unread.length using Nat.strongRecOn generalizing s a read with
  | ind n ih =>
      subst hn
      have hwanted := Frame.Assembly.wanted_pos ha
      have hsame := offer_lavish hs a.wanted
      by_cases hoffer : s.offer a.wanted = []
      · rw [entriesFrom, dif_pos (hsame.trans hoffer), entriesFrom, dif_pos hoffer,
          advance_lavish hs]
        split <;> rfl
      · have hlt := length_advance_lt hoffer
        have hfeed := Frame.Assembly.entries_feed limit ha hoffer (s.length_offer_le _) []
        have hoffer' : s.lavish.offer a.wanted ≠ [] := by rwa [hsame]
        rw [entriesFrom_of_offer hoffer', entriesFrom_of_offer hoffer, hsame, advance_lavish hs]
        cases hprogress : a.feed limit (s.offer a.wanted) with
        | more a' =>
            rw [hprogress] at hfeed
            exact ih _ hlt read (hs.advance hwanted) hfeed.1 rfl
        | entry e => exact ih _ hlt (e :: read) (hs.advance hwanted) Frame.Assembly.isProper_empty rfl
        | ended | broken => rfl

/-- For a reading that makes no read of nothing, only the reads count that are made while there is
something to read. -/
theorem entries_lavish (limit : Int) (hs : s.IsLively) :
    s.lavish.entries limit = lavished (s.entries limit) :=
  entriesFrom_lavish limit [] hs Frame.Assembly.isProper_empty

/-- What is read of a lively supply, how the reading ends, and what is left. -/
theorem IsLively.entries_eq (limit : Int) (hs : s.IsLively) :
    (s.entries limit).1 = entriesOf limit s.unread ∧
      (s.entries limit).2.1 = endOf limit s.unread ∧
      (s.entries limit).2.2.unread = restOf limit s.unread := by
  have hlavish := s.isGenerous_lavish
  have heq := entries_lavish limit hs
  refine ⟨?_, ?_, ?_⟩
  · exact (congrArg (·.1) heq).symm.trans (Supply.entries_eq limit hlavish)
  · exact (congrArg (·.2.1) heq).symm.trans (Supply.end_eq limit hlavish)
  · exact (congrArg (·.2.2.unread) heq).symm.trans (unread_entries limit hlavish)

/-- **The pieces in which bytes arrive do not matter.**  Whatever the bytes of a supply are, and however
its reads are scheduled, as long as each hands out something while there is something: the reading of
frames ends, with at most one read more than there are bytes; the entries, the way in which it ends and
the bytes left are the same as if every read handed out as much as it is asked for; and the bytes taken
are those of the frames of the entries, in order, followed by what such an end takes. -/
theorem entries_ignore_schedule (limit : Int) (hs : s.IsLively) :
    let whole := (ofBytes s.unread none).entries limit
    (s.entries limit).1 = whole.1 ∧ (s.entries limit).2.1 = whole.2.1 ∧
      (s.entries limit).2.2.unread = whole.2.2.unread ∧
      (s.entries limit).2.2.reads ≤ s.reads + s.unread.length + 1 ∧
      ∃ frames last, List.Forall₂ (Passes limit) (s.entries limit).1 frames ∧
        s.unread = frames.flatten ++ last ++ (s.entries limit).2.2.unread ∧
        (s.entries limit).2.1.Takes limit last (s.entries limit).2.2.unread := by
  obtain ⟨hentries, hend, hrest⟩ := hs.entries_eq limit
  obtain ⟨hentries', hend', hrest'⟩ := (isLively_ofBytes s.unread).entries_eq limit
  refine ⟨hentries.trans hentries'.symm, hend.trans hend'.symm, hrest.trans hrest'.symm,
    reads_entriesFrom_le limit s .empty [], ?_⟩
  rw [hentries, hend, hrest]
  exact exists_frames limit s.unread

/-- Bytes come one to three at a time.  One entry is read, and behind the header of a message that is
too long the bytes are left that have come of it. -/
theorem entries_ignore_schedule_oversized : ∃ s : Supply, s.IsLively ∧ (s.entries 3).1 = [{ line := [97] }] ∧
    (s.entries 3).2.1 = .broken (.oversized 9 3) ∧ (s.entries 3).2.2.unread = [1, 2] ∧
      (s.entries 3).2.2.reads ≤ 14 := by
  let bs : Bytes := wrap [0x1A, 1, 97] ++ header 9 ++ [1, 2]
  let s : Supply := ⟨bs, fun i => i % 3 + 1, 0⟩
  have hs : s.IsLively := IsGenerous.isLively fun i => Nat.succ_pos (i % 3)
  have hwhole : ((ofBytes bs none).entries 3).1 = [{ line := [97] }] ∧
      ((ofBytes bs none).entries 3).2.1 = .broken (.oversized 9 3) ∧
        ((ofBytes bs none).entries 3).2.2.unread = [1, 2] := by decide +kernel
  obtain ⟨hentries, hend, hrest, hreads, -⟩ := entries_ignore_schedule 3 hs
  exact ⟨s, hs, hentries.trans hwhole.1, hend.trans hwhole.2.1, hrest.trans hwhole.2.2, hreads⟩

end Supply

end LogRelay
