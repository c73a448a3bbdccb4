import LogRelay.Proofs.Frame.Entries
/-!
# How the reading of frames ends

The reading of frames goes from frame to frame.  A frame that is there is read as a whole, whatever
pieces its bytes come in, and the reading stands behind it; where there is none the reading ends, cleanly
if no byte is left, and otherwise with what is wrong with the bytes that are left.

## Main definitions

* `frameFault`, `faultRest`: what is wrong where there is no frame, and what is left behind there.
* `endOf`: how the frames of a byte sequence end.
* `Supply.Leads`: a supply is what another one becomes when some bytes are read.
* `Frame.Assembly.complete`: what a frame comes to when the bytes that were missing are there.

## Main statements

* `entriesFrom_of_le`, `entriesFrom_of_lt`: the pieces that a frame comes in do not matter.
* `entriesFrom_of_some`, `entriesFrom_of_none`: the reading from frame to frame.
* `end_eq`: how the reading ends.
-/
namespace LogRelay

/-- What is wrong with bytes at whose start there is no frame. -/
def frameFault (limit : Int) (bs : Bytes) : FrameError :=
  let length := Frame.lengthOf (bs.take Frame.headerSize)
  if bs.length < Frame.headerSize then .truncatedHeader bs.length
  else if limit < length then .oversized length limit
  else if bs.length - Frame.headerSize < length then
    .truncatedPayload (bs.length - Frame.headerSize) length
  else .invalidPayload

/-- What is left of bytes at whose start there is no frame: what stands behind the header of a message
that is too long, or behind a message that is malformed. -/
def faultRest (limit : Int) (bs : Bytes) : Bytes :=
  let length := Frame.lengthOf (bs.take Frame.headerSize)
  if limit < length then bs.drop Frame.headerSize else bs.drop (Frame.headerSize + length)

/-- How the frames of a byte sequence end. -/
def endOf (limit : Int) (bs : Bytes) : FrameEnd :=
  match _h : firstFrame? limit bs with
  | none => if bs = [] then .clean else .broken (frameFault limit bs)
  | some (_, rest) => endOf limit rest
termination_by bs.length
decreasing_by exact length_lt_of_firstFrame? _h

section

variable {limit : Int} {bs rest : Bytes} {e : Entry}

/-- Nothing is left behind a header that is cut short. -/
theorem faultRest_of_lt (h : bs.length < Frame.headerSize) : faultRest limit bs = [] := by
  simp only [faultRest]
  split_ifs <;> rw [List.drop_eq_nil_iff] <;> omega

theorem endOf_of_none (h : firstFrame? limit bs = none) :
    endOf limit bs = if bs = [] then .clean else .broken (frameFault limit bs) := by
  rw [endOf]
  split <;> simp_all

theorem endOf_of_some (h : firstFrame? limit bs = some (e, rest)) :
    endOf limit bs = endOf limit rest := by
  rw [endOf]
  split <;> simp_all

end

/-! ## Frames in pieces -/

namespace Frame.Assembly

/-- How many bytes the header, or the message, has. -/
def target (a : Assembly) : Nat :=
  a.length.getD headerSize

/-- What a frame comes to when its header, or its message, is complete. -/
def complete (limit : Int) (a : Assembly) (whole : Bytes) : Progress :=
  match a.length with
  | none => afterHeader limit whole
  | some _ => conclude whole

variable {a : Assembly} {limit : Int} {chunk : Bytes}

theorem isProper_iff : a.IsProper ↔ a.got.length < a.target := by
  rw [IsProper, target]
  cases a.length <;> rfl

theorem wanted_eq (a : Assembly) : a.wanted = a.target - a.got.length := rfl

/-- The frame with some more bytes. -/
def grow (a : Assembly) (chunk : Bytes) : Assembly :=
  { a with got := a.got ++ chunk }

@[simp] theorem got_grow (a : Assembly) (chunk : Bytes) : (a.grow chunk).got = a.got ++ chunk := rfl

@[simp] theorem target_grow (a : Assembly) (chunk : Bytes) : (a.grow chunk).target = a.target := rfl

@[simp] theorem complete_grow (limit : Int) (a : Assembly) (chunk whole : Bytes) :
    (a.grow chunk).complete limit whole = a.complete limit whole := rfl

theorem wanted_grow (a : Assembly) (chunk : Bytes) :
    (a.grow chunk).wanted = a.wanted - chunk.length := by
  rw [wanted_eq, wanted_eq, target_grow, got_grow, List.length_append, Nat.sub_add_eq]

/-- A chunk completes what is at hand, or is added to it. -/
theorem feed_of_ne_nil (h : chunk ≠ []) : a.feed limit chunk =
    if a.target ≤ a.got.length + chunk.length then a.complete limit (a.got ++ chunk)
    else .more (a.grow chunk) := by
  obtain ⟨length, got⟩ := a
  rw [feed, if_neg h, ← List.length_append]
  cases length <;> rfl

end Frame.Assembly

namespace Supply

variable {s s' : Supply} {limit : Int} {a : Frame.Assembly} {read : List Entry}

/-- The supply is what the other one becomes when all but the given bytes have been read. -/
structure Leads (s s' : Supply) (rest : Bytes) : Prop where
  unread : s'.unread = rest
  schedule : s'.schedule = s.schedule

theorem Leads.isGenerous {rest : Bytes} (h : s.Leads s' rest) (hs : s.IsGenerous) :
    s'.IsGenerous := by
  rw [IsGenerous, h.schedule]
  exact hs

theorem Leads.trans {s'' : Supply} {rest rest' : Bytes} (h : s.Leads s' rest)
    (h' : s'.Leads s'' rest') : s.Leads s'' rest' :=
  ⟨h'.unread, h'.schedule.trans h.schedule⟩

theorem leads_advance (s : Supply) (n : Nat) : s.Leads (s.advance n) (s.advance n).unread :=
  ⟨rfl, rfl⟩

/-- How the reading goes on with what a frame has come to. -/
def goOn (limit : Int) (s : Supply) (read : List Entry) :
    Frame.Progress → List Entry × FrameEnd × Supply
  | .more a => s.entriesFrom limit a read
  | .entry e => s.entriesFrom limit .empty (e :: read)
  | .ended => (read.reverse, .clean, s)
  | .broken e => (read.reverse, .broken e, s)

/-- A chunk is fed to the frame at hand. -/
theorem entriesFrom_of_offer (h : s.offer a.wanted ≠ []) : s.entriesFrom limit a read =
    (s.advance a.wanted).goOn limit read (a.feed limit (s.offer a.wanted)) := by
  rw [entriesFrom, dif_neg h]
  cases a.feed limit (s.offer a.wanted) <;> rfl

/-- The end of the supply is the end of the frame at hand. -/
theorem entriesFrom_of_offer_eq_nil (h : s.offer a.wanted = []) :
    s.entriesFrom limit a read = (s.advance a.wanted).goOn limit read a.stop := by
  rw [entriesFrom, dif_pos h]
  obtain ⟨length, got⟩ := a
  cases length with
  | none => by_cases hgot : got = [] <;> simp [Frame.Assembly.stop, hgot, goOn]
  | some length => simp [Frame.Assembly.stop, goOn]

variable (limit read)

/-- When all bytes are there that a frame lacks, the pieces that they come in do not matter. -/
theorem entriesFrom_of_le (hs : s.IsGenerous) (ha : a.IsProper)
    (hle : a.target ≤ a.got.length + s.unread.length) :
    ∃ s', s.Leads s' (s.unread.drop a.wanted) ∧ s.entriesFrom limit a read =
      s'.goOn limit read (a.complete limit (a.got ++ s.unread.take a.wanted)) := by
  induction hn : s.unread.length using Nat.strongRecOn generalizing s a with
  | ind n ih =>
      subst hn
      have hlt := Frame.Assembly.isProper_iff.1 ha
      have hw := a.wanted_eq
      have hne : s.offer a.wanted ≠ [] := by
        intro hnil
        have := unread_eq_nil hs (Frame.Assembly.wanted_pos ha) hnil
        simp only [this, List.length_nil] at hle
        omega
      have hlen := s.length_offer_le a.wanted
      have hpos := List.length_pos_iff.2 hne
      have hsplit := s.offer_append_unread_advance a.wanted
      have hsum := congrArg List.length hsplit
      rw [List.length_append] at hsum
      rw [entriesFrom_of_offer hne, Frame.Assembly.feed_of_ne_nil hne]
      split_ifs with hfull
      · have hexact : (s.offer a.wanted).length = a.wanted := by omega
        refine ⟨s.advance a.wanted, ⟨?_, rfl⟩, ?_⟩
        · rw [← hsplit, List.drop_left' hexact]
        · rw [← hsplit, List.take_left' hexact]
      · have hproper : (a.grow (s.offer a.wanted)).IsProper := by
          rw [Frame.Assembly.isProper_iff, Frame.Assembly.got_grow, List.length_append]
          exact Nat.lt_of_not_le hfull
        obtain ⟨s', hleads, heq⟩ := ih (s.advance a.wanted).unread.length (by omega)
          ((s.leads_advance a.wanted).isGenerous hs) hproper
          (by simp only [Frame.Assembly.target_grow, Frame.Assembly.got_grow, List.length_append]
              omega) rfl
        rw [Frame.Assembly.wanted_grow] at hleads heq
        refine ⟨s', ⟨?_, hleads.schedule⟩, ?_⟩
        · rw [hleads.unread, ← hsplit, List.drop_append, List.drop_of_length_le hlen,
            List.nil_append]
        · rw [goOn, heq, Frame.Assembly.complete_grow, Frame.Assembly.got_grow, List.append_assoc,
            ← hsplit, List.take_append, List.take_of_length_le hlen]

/-- When some of the bytes never come that a frame lacks, it ends with those that come. -/
theorem entriesFrom_of_lt (hs : s.IsGenerous) (ha : a.IsProper)
    (hlt : a.got.length + s.unread.length < a.target) :
    ∃ s', s.Leads s' [] ∧
      s.entriesFrom limit a read = s'.goOn limit read (a.grow s.unread).stop := by
  induction hn : s.unread.length using Nat.strongRecOn generalizing s a with
  | ind n ih =>
      subst hn
      by_cases hne : s.offer a.wanted = []
      · have hnil := unread_eq_nil hs (Frame.Assembly.wanted_pos ha) hne
        refine ⟨s.advance a.wanted, ⟨?_, rfl⟩, ?_⟩
        · simp [advance, hnil]
        · rw [entriesFrom_of_offer_eq_nil hne, hnil, Frame.Assembly.grow, List.append_nil]
      · have hpos := List.length_pos_iff.2 hne
        have hsplit := s.offer_append_unread_advance a.wanted
        have hsum := congrArg List.length hsplit
        rw [List.length_append] at hsum
        rw [entriesFrom_of_offer hne, Frame.Assembly.feed_of_ne_nil hne, if_neg (by omega)]
        have hproper : (a.grow (s.offer a.wanted)).IsProper := by
          rw [Frame.Assembly.isProper_iff, Frame.Assembly.got_grow, List.length_append,
            Frame.Assembly.target_grow]
          omega
        obtain ⟨s', hleads, heq⟩ := ih (s.advance a.wanted).unread.length (by omega)
          ((s.leads_advance a.wanted).isGenerous hs) hproper
          (by simp only [Frame.Assembly.target_grow, Frame.Assembly.got_grow, List.length_append]
              omega) rfl
        refine ⟨s', ⟨hleads.unread, hleads.schedule⟩, ?_⟩
        rw [goOn, heq, ← hsplit]
        simp only [Frame.Assembly.grow, List.append_assoc]

/-! ## From frame to frame -/

/-- A message whose bytes are all there is read behind its header. -/
theorem goOn_afterHeader_of_le (hs : s.IsGenerous) {header : Bytes}
    (hl : (Frame.lengthOf header : Int) ≤ limit)
    (hle : Frame.lengthOf header ≤ s.unread.length) :
    ∃ s', s.Leads s' (s.unread.drop (Frame.lengthOf header)) ∧
      s.goOn limit read (Frame.Assembly.afterHeader limit header) =
        s'.goOn limit read (Frame.Assembly.conclude (s.unread.take (Frame.lengthOf header))) := by
  rw [Frame.Assembly.afterHeader, if_neg (by omega)]
  split_ifs with hzero
  · refine ⟨s, ⟨?_, rfl⟩, ?_⟩
    · rw [hzero, List.drop_zero]
    · rw [hzero, List.take_zero]
  · obtain ⟨s', hleads, heq⟩ := entriesFrom_of_le limit read hs
      (a := ⟨some (Frame.lengthOf header), []⟩) (Nat.pos_of_ne_zero hzero)
      (by simpa [Frame.Assembly.target] using hle)
    exact ⟨s', hleads, heq⟩

/-- A message of which bytes are missing is cut short. -/
theorem goOn_afterHeader_of_lt (hs : s.IsGenerous) {header : Bytes}
    (hl : (Frame.lengthOf header : Int) ≤ limit)
    (hlt : s.unread.length < Frame.lengthOf header) :
    ∃ s', s.Leads s' [] ∧ s.goOn limit read (Frame.Assembly.afterHeader limit header) =
      s'.goOn limit read (.broken (.truncatedPayload s.unread.length (Frame.lengthOf header))) := by
  rw [Frame.Assembly.afterHeader, if_neg (by omega), if_neg (by omega)]
  obtain ⟨s', hleads, heq⟩ := entriesFrom_of_lt limit read hs
    (a := ⟨some (Frame.lengthOf header), []⟩) (Nat.zero_lt_of_lt hlt)
    (by simpa [Frame.Assembly.target] using hlt)
  exact ⟨s', hleads, heq⟩

/-- A header that is there is read. -/
theorem entriesFrom_of_header (hs : s.IsGenerous)
    (hle : Frame.headerSize ≤ s.unread.length) :
    ∃ s', s.Leads s' (s.unread.drop Frame.headerSize) ∧ s.entriesFrom limit .empty read =
      s'.goOn limit read
        (Frame.Assembly.afterHeader limit (s.unread.take Frame.headerSize)) := by
  obtain ⟨s', hleads, heq⟩ := entriesFrom_of_le limit read hs
    Frame.Assembly.isProper_empty
    (by simpa [Frame.Assembly.target, Frame.Assembly.empty] using hle)
  exact ⟨s', hleads, heq⟩

/-- A frame that is there is read, and the reading stands behind it. -/
theorem entriesFrom_of_some (hs : s.IsGenerous) {e : Entry} {rest : Bytes}
    (h : firstFrame? limit s.unread = some (e, rest)) :
    ∃ s', s.Leads s' rest ∧
      s.entriesFrom limit .empty read = s'.entriesFrom limit .empty (e :: read) := by
  rw [firstFrame?] at h
  split_ifs at h with hshort hover
  rw [messageAt?] at h
  split_ifs at h with hcut
  obtain ⟨e', hmessage, heq⟩ := Option.map_eq_some_iff.1 h
  obtain ⟨rfl, rfl⟩ := Prod.mk.inj heq
  obtain ⟨t, hheader, hread⟩ := entriesFrom_of_header limit read hs
    (Nat.le_of_not_lt hshort)
  obtain ⟨s', hleads, hgo⟩ := goOn_afterHeader_of_le limit read (hheader.isGenerous hs)
    (Int.not_lt.1 hover) (by rw [hheader.unread]; exact Nat.le_of_not_lt hcut)
  rw [hheader.unread] at hleads hgo
  refine ⟨s', hheader.trans hleads, ?_⟩
  rw [hread, hgo, Frame.Assembly.conclude, hmessage]
  rfl

/-- Where there is no frame, the reading ends. -/
theorem entriesFrom_of_none (hs : s.IsGenerous) (h : firstFrame? limit s.unread = none) :
    ∃ s', s.Leads s' (faultRest limit s.unread) ∧ s.entriesFrom limit .empty read = (read.reverse,
      if s.unread = [] then .clean else .broken (frameFault limit s.unread), s') := by
  by_cases hshort : s.unread.length < Frame.headerSize
  · obtain ⟨s', hleads, heq⟩ := entriesFrom_of_lt limit read hs
      Frame.Assembly.isProper_empty
      (by simpa [Frame.Assembly.target, Frame.Assembly.empty] using hshort)
    refine ⟨s', by rwa [faultRest_of_lt hshort], heq.trans ?_⟩
    by_cases hnil : s.unread = []
    · simp [Frame.Assembly.grow, Frame.Assembly.empty, Frame.Assembly.stop, hnil, goOn]
    · simp [Frame.Assembly.grow, Frame.Assembly.empty, Frame.Assembly.stop, hnil, goOn, frameFault,
        hshort]
  · have hne : s.unread ≠ [] := by
      rintro hnil
      simp [hnil, Frame.headerSize] at hshort
    obtain ⟨t, hheader, hread⟩ := entriesFrom_of_header limit read hs
      (Nat.le_of_not_lt hshort)
    have ht := hheader.isGenerous hs
    have hlength := congrArg List.length hheader.unread
    rw [List.length_drop] at hlength
    rw [if_neg hne, frameFault, faultRest, if_neg hshort, hread]
    by_cases hover : limit < Frame.lengthOf (s.unread.take Frame.headerSize)
    · rw [if_pos hover, if_pos hover, Frame.Assembly.afterHeader, if_pos hover]
      exact ⟨t, hheader, rfl⟩
    · rw [if_neg hover, if_neg hover, ← hlength, ← List.drop_drop, ← hheader.unread]
      by_cases hcut : t.unread.length < Frame.lengthOf (s.unread.take Frame.headerSize)
      · obtain ⟨s', hleads, hgo⟩ := goOn_afterHeader_of_lt limit read ht (Int.not_lt.1 hover) hcut
        rw [List.drop_of_length_le (Nat.le_of_lt hcut)]
        exact ⟨s', hheader.trans hleads, by rw [if_pos hcut, hgo]; rfl⟩
      · obtain ⟨s', hleads, hgo⟩ := goOn_afterHeader_of_le limit read ht (Int.not_lt.1 hover)
          (Nat.le_of_not_lt hcut)
        -- the message is all there, so it must be malformed
        have hbad : Entry.ofPayload?
            (t.unread.take (Frame.lengthOf (s.unread.take Frame.headerSize))) = none := by
          rw [firstFrame?, if_neg hshort, if_neg hover, messageAt?, ← hheader.unread,
            if_neg hcut] at h
          exact Option.map_eq_none_iff.1 h
        refine ⟨s', hheader.trans hleads, ?_⟩
        rw [if_neg hcut, hgo, Frame.Assembly.conclude, hbad]
        rfl

/-- How the reading ends. -/
theorem entriesFrom_end (hs : s.IsGenerous) :
    (s.entriesFrom limit .empty read).2.1 = endOf limit s.unread := by
  induction hbs : s.unread using endOf.induct limit generalizing s read with
  | case1 h =>
      rw [← hbs] at h ⊢
      obtain ⟨s', -, heq⟩ := entriesFrom_of_none limit read hs h
      rw [heq, endOf_of_none h]
  | case2 bs h hne =>
      subst hbs
      obtain ⟨s', -, heq⟩ := entriesFrom_of_none limit read hs h
      rw [heq, endOf_of_none h]
  | case3 bs e rest h ih =>
      subst hbs
      obtain ⟨s', hleads, heq⟩ := entriesFrom_of_some limit read hs h
      rw [heq, endOf_of_some h]
      exact ih _ (hleads.isGenerous hs) hleads.unread

/-- How the reading ends is how the frames of the bytes end. -/
theorem end_eq (limit : Int) (hs : s.IsGenerous) :
    (s.entries limit).2.1 = endOf limit s.unread :=
  entriesFrom_end limit [] hs

end Supply

end LogRelay
