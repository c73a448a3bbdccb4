import LogRelay.Frame.Supply
import Mathlib.Data.List.Basic
/-!
# The frames of a byte sequence

Which entries a stream of frames holds depends on its bytes only: they are those of the frames at its
start, up to its end or to the first frame that is cut short, too long or malformed.  However a supply
hands out these bytes, as long as it hands out something at each read, these entries are read.

## Main definitions

* `firstFrame?`, `entriesOf`: the entries of a byte sequence.
* `Supply.IsGenerous`: each read hands out something.
* `Frame.Assembly.IsProper`: a frame of which some bytes are missing.

## Main statements

* `encode_eq_ok_iff`: which entries have a frame.
* `entriesOf_wrap`: a whole frame is read.
* `entriesOf_prefix`: what follows does not change the entries so far.
* `entriesFrom_eq`, `entries_eq`: the entries that are read are those of the bytes.
-/
namespace LogRelay

/-- The entry of a message of the given length at the start of a byte sequence, and what follows. -/
def messageAt? (length : Nat) (bs : Bytes) : Option (Entry × Bytes) :=
  if bs.length < length then none
  else (Entry.ofPayload? (bs.take length)).map (·, bs.drop length)

/-- The entry of the frame at the start of a byte sequence, and what follows. -/
def firstFrame? (limit : Int) (bs : Bytes) : Option (Entry × Bytes) :=
  if bs.length < Frame.headerSize then none
  else if limit < Frame.lengthOf (bs.take Frame.headerSize) then none
  else messageAt? (Frame.lengthOf (bs.take Frame.headerSize)) (bs.drop Frame.headerSize)

theorem length_le_of_messageAt? {length : Nat} {bs rest : Bytes} {e : Entry}
    (h : messageAt? length bs = some (e, rest)) : rest.length ≤ bs.length := by
  rw [messageAt?] at h
  split at h
  · cases h
  · obtain ⟨e', -, heq⟩ := Option.map_eq_some_iff.1 h
    obtain ⟨-, rfl⟩ := Prod.mk.inj heq
    rw [List.length_drop]
    omega

theorem length_lt_of_firstFrame? {limit : Int} {bs rest : Bytes} {e : Entry}
    (h : firstFrame? limit bs = some (e, rest)) : rest.length < bs.length := by
  rw [firstFrame?] at h
  split_ifs at h with hshort
  have hle := length_le_of_messageAt? h
  simp only [List.length_drop, Frame.headerSize] at hle hshort
  omega

/-- The entries of the frames at the start of a byte sequence. -/
def entriesOf (limit : Int) (bs : Bytes) : List Entry :=
  match _h : firstFrame? limit bs with
  | none => []
  | some (e, rest) => e :: entriesOf limit rest
termination_by bs.length
decreasing_by exact length_lt_of_firstFrame? _h

theorem entriesOf_of_none {limit : Int} {bs : Bytes} (h : firstFrame? limit bs = none) :
    entriesOf limit bs = [] := by
  rw [entriesOf]
  split <;> simp_all

theorem entriesOf_of_some {limit : Int} {bs rest : Bytes} {e : Entry}
    (h : firstFrame? limit bs = some (e, rest)) :
    entriesOf limit bs = e :: entriesOf limit rest := by
  rw [entriesOf]
  split <;> simp_all

/-- The entries of a byte sequence that starts with a message of the given length. -/
def entriesAt (limit : Int) (length : Nat) (bs : Bytes) : List Entry :=
  match messageAt? length bs with
  | none => []
  | some (e, rest) => e :: entriesOf limit rest

/-- Behind a header there is a message. -/
theorem entriesOf_eq_entriesAt {limit : Int} {bs : Bytes} (h : Frame.headerSize ≤ bs.length)
    (hl : (Frame.lengthOf (bs.take Frame.headerSize) : Int) ≤ limit) :
    entriesOf limit bs = entriesAt limit (Frame.lengthOf (bs.take Frame.headerSize))
      (bs.drop Frame.headerSize) := by
  have hfirst : firstFrame? limit bs = messageAt? (Frame.lengthOf (bs.take Frame.headerSize))
      (bs.drop Frame.headerSize) := by
    rw [firstFrame?, if_neg (by omega), if_neg (by omega)]
  rw [entriesAt]
  cases hm : messageAt? (Frame.lengthOf (bs.take Frame.headerSize)) (bs.drop Frame.headerSize) with
  | none => exact entriesOf_of_none (hfirst.trans hm)
  | some r => exact entriesOf_of_some (hfirst.trans hm)

/-! ## Whole frames -/

/-- An entry has a frame just if it has a message whose length fits in the header. -/
theorem encode_eq_ok_iff {e : Entry} {frame : Bytes} :
    Frame.encode e = .ok frame ↔
      ∃ payload, e.payload = .ok payload ∧ payload.length < Frame.lengthBound ∧
        frame = Frame.wrap payload := by
  rw [Frame.encode]
  cases e.payload with
  | error err => simp [bind, Except.bind]
  | ok payload =>
      by_cases h : payload.length < Frame.lengthBound
      · simp [bind, Except.bind, h, pure, Except.pure, eq_comm]
      · simp [bind, Except.bind, h, throw, throwThe, MonadExceptOf.throw]

/-- A header writes the length that it was made for. -/
theorem Frame.lengthOf_header {n : Nat} (h : n < lengthBound) : lengthOf (header n) = n := by
  simp only [lengthBound] at h
  simp only [lengthOf, header, List.foldl_cons, List.foldl_nil, UInt8.toNat_ofNat']
  omega

/-- A frame that is not too long, and whose message is well-formed, is read. -/
theorem firstFrame?_wrap {limit : Int} {payload : Bytes} {e : Entry}
    (h : Entry.ofPayload? payload = some e) (hb : payload.length < Frame.lengthBound)
    (hl : (payload.length : Int) ≤ limit) (rest : Bytes) :
    firstFrame? limit (Frame.wrap payload ++ rest) = some (e, rest) := by
  have hheader : (Frame.wrap payload ++ rest).take Frame.headerSize = Frame.header payload.length :=
    rfl
  have hmessage : (Frame.wrap payload ++ rest).drop Frame.headerSize = payload ++ rest := rfl
  have hshort : ¬ (Frame.wrap payload ++ rest).length < Frame.headerSize := by
    simp [Frame.wrap, Frame.header, Frame.headerSize]
  rw [firstFrame?, if_neg hshort, hheader, hmessage, Frame.lengthOf_header hb, if_neg (by omega),
    messageAt?, if_neg (by simp), List.take_left, List.drop_left, h]
  rfl

/-- A stream that starts with such a frame. -/
theorem entriesOf_wrap {limit : Int} {payload : Bytes} {e : Entry}
    (h : Entry.ofPayload? payload = some e) (hb : payload.length < Frame.lengthBound)
    (hl : (payload.length : Int) ≤ limit) (rest : Bytes) :
    entriesOf limit (Frame.wrap payload ++ rest) = e :: entriesOf limit rest :=
  entriesOf_of_some (firstFrame?_wrap h hb hl rest)

/-! ## Longer streams -/

/-- A message that is there is there also when more follows. -/
theorem messageAt?_append {length : Nat} {bs rest : Bytes} {e : Entry}
    (h : messageAt? length bs = some (e, rest)) (more : Bytes) :
    messageAt? length (bs ++ more) = some (e, rest ++ more) := by
  rw [messageAt?] at h
  split_ifs at h with hshort
  have hle : length ≤ bs.length := Nat.le_of_not_lt hshort
  obtain ⟨e', hmessage, heq⟩ := Option.map_eq_some_iff.1 h
  obtain ⟨rfl, rfl⟩ := Prod.mk.inj heq
  have hlong : ¬ (bs ++ more).length < length := by
    rw [List.length_append]
    omega
  rw [messageAt?, if_neg hlong, List.take_append_of_le_length hle, hmessage,
    List.drop_append_of_le_length hle]
  rfl

/-- A frame that is there is there also when more follows. -/
theorem firstFrame?_append {limit : Int} {bs rest : Bytes} {e : Entry}
    (h : firstFrame? limit bs = some (e, rest)) (more : Bytes) :
    firstFrame? limit (bs ++ more) = some (e, rest ++ more) := by
  rw [firstFrame?] at h
  split_ifs at h with hshort hlimit
  have hle : Frame.headerSize ≤ bs.length := Nat.le_of_not_lt hshort
  have hlong : ¬ (bs ++ more).length < Frame.headerSize := by
    rw [List.length_append]
    omega
  rw [firstFrame?, if_neg hlong, List.take_append_of_le_length hle, if_neg hlimit,
    List.drop_append_of_le_length hle]
  exact messageAt?_append h more

/-- The entries of a byte sequence come first when more follows. -/
theorem entriesOf_prefix (limit : Int) (bs more : Bytes) :
    entriesOf limit bs <+: entriesOf limit (bs ++ more) := by
  induction bs using entriesOf.induct limit with
  | case1 bs h =>
      rw [entriesOf_of_none h]
      exact List.nil_prefix
  | case2 bs e rest h ih =>
      rw [entriesOf_of_some h, entriesOf_of_some (firstFrame?_append h more)]
      exact (List.prefix_cons_inj e).2 ih

/-! ## Frames that are put together -/

namespace Frame.Assembly

/-- Some bytes of the frame are missing. -/
def IsProper (a : Assembly) : Prop :=
  match a.length with
  | none => a.got.length < headerSize
  | some length => a.got.length < length

/-- The entries of a frame of which some bytes are there, and of what follows. -/
def entries (limit : Int) (a : Assembly) (bs : Bytes) : List Entry :=
  match a.length with
  | none => entriesOf limit (a.got ++ bs)
  | some length => entriesAt limit length (a.got ++ bs)

theorem isProper_empty : empty.IsProper := by
  simp [IsProper, empty, headerSize]

theorem wanted_pos {a : Assembly} (h : a.IsProper) : 0 < a.wanted := by
  rw [IsProper] at h
  rw [wanted]
  cases hl : a.length <;> simp [hl] at h ⊢ <;> omega

/-- If there are no more bytes the frame is cut short. -/
theorem entries_nil {a : Assembly} (limit : Int) (h : a.IsProper) : a.entries limit [] = [] := by
  rw [IsProper] at h
  rw [entries, List.append_nil]
  cases hl : a.length with
  | none =>
      simp only [hl] at h
      exact entriesOf_of_none (by rw [firstFrame?, if_pos h])
  | some length =>
      simp only [hl] at h
      simp [entriesAt, messageAt?, h]

/-- A message that is complete. -/
theorem entriesAt_append (limit : Int) (message rest : Bytes) :
    entriesAt limit message.length (message ++ rest) =
      match Entry.ofPayload? message with
      | none => []
      | some e => e :: entriesOf limit rest := by
  have hm : messageAt? message.length (message ++ rest) =
      (Entry.ofPayload? message).map (·, rest) := by
    rw [messageAt?, if_neg (by simp), List.take_left, List.drop_left]
  rw [entriesAt, hm]
  cases Entry.ofPayload? message <;> rfl

/-- A message that is complete makes up the entry of its frame, or spoils it. -/
theorem entriesAt_conclude (limit : Int) (message rest : Bytes) :
    match conclude message with
    | .entry e => entriesAt limit message.length (message ++ rest) = e :: entriesOf limit rest
    | .broken _ => entriesAt limit message.length (message ++ rest) = []
    | _ => False := by
  rw [entriesAt_append, conclude]
  cases Entry.ofPayload? message <;> simp

/-- What a chunk makes of a frame, in terms of the entries that are still to come. -/
theorem entries_feed {a : Assembly} (limit : Int) {chunk : Bytes} (h : a.IsProper)
    (hne : chunk ≠ []) (hlen : chunk.length ≤ a.wanted) (rest : Bytes) :
    match a.feed limit chunk with
    | .more a' => a'.IsProper ∧ a.entries limit (chunk ++ rest) = a'.entries limit rest
    | .entry e => a.entries limit (chunk ++ rest) = e :: entriesOf limit rest
    | .ended => False
    | .broken _ => a.entries limit (chunk ++ rest) = [] := by
  obtain ⟨length, got⟩ := a
  rw [feed, if_neg hne]
  cases length with
  | none =>
      simp only [IsProper] at h
      simp only [wanted, Option.getD_none] at hlen
      simp only [entries, ← List.append_assoc]
      by_cases hfull : headerSize ≤ (got ++ chunk).length
      · have hexact : (got ++ chunk).length = headerSize := by
          rw [List.length_append] at hfull ⊢
          omega
        have htake : (got ++ chunk ++ rest).take headerSize = got ++ chunk := by
          rw [← hexact, List.take_left]
        have hdrop : (got ++ chunk ++ rest).drop headerSize = rest := by
          rw [← hexact, List.drop_left]
        have hshort : ¬ (got ++ chunk ++ rest).length < headerSize := by
          rw [List.length_append]
          omega
        rw [if_pos hfull, afterHeader]
        by_cases hl : limit < lengthOf (got ++ chunk)
        · rw [if_pos hl]
          exact entriesOf_of_none (by rw [firstFrame?, if_neg hshort, htake, if_pos hl])
        · have hat := entriesOf_eq_entriesAt (Nat.le_of_not_lt hshort)
            (by rw [htake]; omega : (lengthOf ((got ++ chunk ++ rest).take headerSize) : Int) ≤ limit)
          rw [htake, hdrop] at hat
          rw [if_neg hl, hat]
          by_cases hzero : lengthOf (got ++ chunk) = 0
          · have := entriesAt_conclude limit [] rest
            rw [if_pos hzero, hzero]
            revert this
            cases conclude [] with
            | more | ended => exact False.elim
            | entry | broken => exact id
          · rw [if_neg hzero]
            exact ⟨Nat.pos_of_ne_zero hzero, rfl⟩
      · rw [if_neg hfull]
        exact ⟨Nat.lt_of_not_le hfull, rfl⟩
  | some length =>
      simp only [IsProper] at h
      simp only [wanted, Option.getD_some] at hlen
      simp only [entries, ← List.append_assoc]
      by_cases hfull : length ≤ (got ++ chunk).length
      · have hexact : (got ++ chunk).length = length := by
          rw [List.length_append] at hfull ⊢
          omega
        have := entriesAt_conclude limit (got ++ chunk) rest
        rw [hexact] at this
        rw [if_pos hfull]
        revert this
        cases conclude (got ++ chunk) with
        | more | ended => exact False.elim
        | entry | broken => exact id
      · rw [if_neg hfull]
        exact ⟨Nat.lt_of_not_le hfull, rfl⟩

end Frame.Assembly

namespace Supply

/-- Each read hands out at least one byte as long as there is one. -/
def IsGenerous (s : Supply) : Prop :=
  ∀ i, 0 < s.schedule i

variable {s : Supply} {n : Nat}

theorem offer_append_unread_advance (s : Supply) (n : Nat) :
    s.offer n ++ (s.advance n).unread = s.unread :=
  List.take_append_drop _ _

theorem length_offer_le (s : Supply) (n : Nat) : (s.offer n).length ≤ n := by
  rw [offer, List.length_take]
  omega

/-- A supply that hands out nothing has nothing. -/
theorem unread_eq_nil (hs : s.IsGenerous) (hn : 0 < n) (h : s.offer n = []) : s.unread = [] := by
  have hsched := hs s.reads
  rw [offer, List.take_eq_nil_iff] at h
  rcases h with h | h
  · omega
  · exact h

/-- The entries that are read of the frame at hand and of what follows are those of the bytes. -/
theorem entriesFrom_eq (limit : Int) (s : Supply) (a : Frame.Assembly) (read : List Entry)
    (hs : s.IsGenerous) (ha : a.IsProper) :
    (s.entriesFrom limit a read).1 = read.reverse ++ a.entries limit s.unread := by
  induction s, a, read using Supply.entriesFrom.induct limit with
  | case1 s a read hoffer e hstop =>
      rw [entriesFrom, dif_pos hoffer, hstop,
        unread_eq_nil hs (Frame.Assembly.wanted_pos ha) hoffer, Frame.Assembly.entries_nil limit ha,
        List.append_nil]
  | case2 s a read hoffer hstop =>
      rw [entriesFrom, dif_pos hoffer,
        unread_eq_nil hs (Frame.Assembly.wanted_pos ha) hoffer, Frame.Assembly.entries_nil limit ha,
        List.append_nil]
      split <;> rfl
  | case3 s a read rest hoffer a' hfeed ih =>
      have hcase := Frame.Assembly.entries_feed limit ha hoffer (s.length_offer_le _)
        rest.unread
      rw [hfeed, s.offer_append_unread_advance] at hcase
      obtain ⟨ha', heq⟩ := hcase
      rw [entriesFrom, dif_neg hoffer]
      simp only [hfeed]
      rw [ih hs ha', heq]
  | case4 s a read rest hoffer e hfeed ih =>
      have hcase := Frame.Assembly.entries_feed limit ha hoffer (s.length_offer_le _)
        rest.unread
      rw [hfeed, s.offer_append_unread_advance] at hcase
      rw [entriesFrom, dif_neg hoffer]
      simp only [hfeed]
      rw [ih hs Frame.Assembly.isProper_empty, hcase, List.reverse_cons, List.append_assoc]
      rfl
  | case5 s a read hoffer hfeed =>
      have hcase := Frame.Assembly.entries_feed limit ha hoffer (s.length_offer_le _) []
      rw [hfeed] at hcase
      exact hcase.elim
  | case6 s a read hoffer e hfeed =>
      have hcase := Frame.Assembly.entries_feed limit ha hoffer (s.length_offer_le _)
        (s.advance a.wanted).unread
      rw [hfeed, s.offer_append_unread_advance] at hcase
      rw [entriesFrom, dif_neg hoffer]
      simp only [hfeed]
      rw [hcase, List.append_nil]

/-- The entries that are read are those of the bytes. -/
theorem entries_eq (limit : Int) (hs : s.IsGenerous) :
    (s.entries limit).1 = entriesOf limit s.unread :=
  entriesFrom_eq limit s .empty [] hs Frame.Assembly.isProper_empty

end Supply

end LogRelay
