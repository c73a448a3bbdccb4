import LogRelay.Proofs.Frame.Truncation
import LogRelay.Proofs.Text.Decoding
/-!
# Frames that are fed chunk by chunk

A frame that is being put together stands for the bytes that it has got so far, those of its header
included.  A chunk is added to these bytes.  When they make up a frame its entry is the first one of the
stream, and when they are found to be wrong the stream cannot be read whatever follows.  Of a stream of
whole frames those are read that come before the first one whose message is too long.

## Main definitions

* `Frame.Assembly.bytes`: the bytes of a frame that are there.
* `Frame.Assembly.Agrees`: what a frame has come to agrees with its bytes.
* `Frame.fits`: the message of a frame is not too long.

## Main statements

* `Frame.Assembly.agrees_feed`: what a chunk makes of a frame, in terms of the bytes of the stream.
* `Frame.entriesOf_flatten`, `Frame.endOf_flatten`: what is read of a stream of whole frames, and how it ends.
-/
namespace LogRelay

namespace Frame

/-- A header is that of the length that it writes. -/
theorem header_lengthOf {bs : Bytes} (h : bs.length = headerSize) : header (lengthOf bs) = bs := by
  match bs, h with
  | [a, b, c, d], _ =>
      have ha : a.toNat < 0x100 := a.toNat_lt
      have hb : b.toNat < 0x100 := b.toNat_lt
      have hc : c.toNat < 0x100 := c.toNat_lt
      have hd : d.toNat < 0x100 := d.toNat_lt
      have hlength : lengthOf [a, b, c, d] =
          ((a.toNat * 0x100 + b.toNat) * 0x100 + c.toNat) * 0x100 + d.toNat := by
        simp [lengthOf]
      rw [header, hlength, Utf8.ofNat_eq_of_toNat (by omega : _ = a.toNat),
        Utf8.ofNat_eq_of_toNat (by omega : _ = b.toNat),
        Utf8.ofNat_eq_of_toNat (by omega : _ = c.toNat),
        Utf8.ofNat_eq_of_toNat (by omega : _ = d.toNat)]

theorem lengthOf_lt {bs : Bytes} (h : bs.length = headerSize) : lengthOf bs < lengthBound := by
  match bs, h with
  | [a, b, c, d], _ =>
      have ha : a.toNat < 0x100 := a.toNat_lt
      have hb : b.toNat < 0x100 := b.toNat_lt
      have hc : c.toNat < 0x100 := c.toNat_lt
      have hd : d.toNat < 0x100 := d.toNat_lt
      simp only [lengthOf, List.foldl_cons, List.foldl_nil, lengthBound]
      omega

namespace Assembly

variable {a : Assembly} {limit : Int} {chunk : Bytes}

/-- The bytes of the frame that are there. -/
def bytes (a : Assembly) : Bytes :=
  match a.length with
  | none => a.got
  | some length => header length ++ a.got

@[simp] theorem bytes_empty : empty.bytes = [] := rfl

/-- Some bytes of the frame are missing, and its message is not too long. -/
structure IsLegal (limit : Int) (a : Assembly) : Prop where
  isProper : a.IsProper
  fits : ∀ length, a.length = some length → (length : Int) ≤ limit ∧ length < lengthBound

theorem isLegal_empty (limit : Int) : IsLegal limit empty where
  isProper := isProper_empty
  fits := by simp [empty]

/-- More bytes are added to those that are there. -/
theorem bytes_grow (a : Assembly) (chunk : Bytes) : (a.grow chunk).bytes = a.bytes ++ chunk := by
  obtain ⟨length, got⟩ := a
  cases length <;> simp [bytes, grow]

/-- Behind a header that is legal stands its message. -/
theorem firstFrame?_header {n : Nat} (hn : n < lengthBound) (hlimit : (n : Int) ≤ limit)
    (bs : Bytes) : firstFrame? limit (header n ++ bs) = messageAt? n bs := by
  have htake : (header n ++ bs).take headerSize = header n := rfl
  have hdrop : (header n ++ bs).drop headerSize = bs := rfl
  have hshort : ¬ (header n ++ bs).length < headerSize := by
    simp [header, headerSize]
  rw [firstFrame?, if_neg hshort, htake, hdrop, lengthOf_header hn, if_neg (by omega)]

/-- What is wrong with a stream that goes on behind a header that is legal. -/
theorem frameFault_header {n : Nat} (hn : n < lengthBound) (hlimit : (n : Int) ≤ limit)
    (bs : Bytes) : frameFault limit (header n ++ bs) =
      if bs.length < n then .truncatedPayload bs.length n else .invalidPayload := by
  have htake : (header n ++ bs).take headerSize = header n := rfl
  have hlength : (header n ++ bs).length = headerSize + bs.length := by
    simp [header, headerSize]
    omega
  simp only [frameFault, hlength, htake, lengthOf_header hn]
  rw [if_neg (by omega), if_neg (by omega), Nat.add_sub_cancel_left]

/-- A frame of which nothing more comes cannot be read, and it is found to be cut short unless nothing
of it is there. -/
theorem stop_cases (h : a.IsLegal limit) :
    match a.stop with
    | .ended => a.bytes = []
    | .broken e => a.bytes ≠ [] ∧ e.IsTruncation ∧ firstFrame? limit a.bytes = none ∧
        frameFault limit a.bytes = e
    | _ => False := by
  obtain ⟨length, got⟩ := a
  cases length with
  | none =>
      by_cases hgot : got = []
      · simp [stop, hgot, bytes]
      · have hshort : got.length < headerSize := h.isProper
        have hfault : frameFault limit got = .truncatedHeader got.length := by
          simp only [frameFault, hshort, if_true]
        simp only [stop, hgot, if_false, bytes]
        exact ⟨hgot, trivial, by rw [firstFrame?, if_pos hshort], hfault⟩
  | some length =>
      obtain ⟨hlimit, hbound⟩ := h.fits length rfl
      have hshort : got.length < length := h.isProper
      simp only [stop, bytes]
      refine ⟨by simp [header], trivial, ?_, ?_⟩
      · rw [firstFrame?_header hbound hlimit, messageAt?, if_pos hshort]
      · rw [frameFault_header hbound hlimit, if_pos hshort]

/-- What a frame has come to agrees with the bytes that are there: they are those of the frame at hand,
or make up the frame of an entry, or cannot be read whatever follows. -/
def Agrees (limit : Int) (bs : Bytes) : Progress → Prop
  | .more a => a.IsLegal limit ∧ a.bytes = bs
  | .entry e => firstFrame? limit bs = some (e, [])
  | .ended => False
  | .broken e => ∀ rest, firstFrame? limit (bs ++ rest) = none ∧ frameFault limit (bs ++ rest) = e

theorem agrees_conclude {payload : Bytes} (hlimit : (payload.length : Int) ≤ limit)
    (hbound : payload.length < lengthBound) : Agrees limit (wrap payload) (conclude payload) := by
  rw [conclude]
  cases hp : Entry.ofPayload? payload with
  | some e =>
      have hfirst := firstFrame?_wrap hp hbound hlimit []
      rwa [List.append_nil] at hfirst
  | none =>
      intro rest
      have hlong : ¬ (payload ++ rest).length < payload.length := by simp
      rw [wrap, List.append_assoc, firstFrame?_header hbound hlimit, frameFault_header hbound hlimit,
        messageAt?, if_neg hlong, if_neg hlong, List.take_left, hp]
      exact ⟨rfl, rfl⟩

theorem agrees_afterHeader {bs : Bytes} (h : bs.length = headerSize) :
    Agrees limit bs (afterHeader limit bs) := by
  have hheader := header_lengthOf h
  rw [afterHeader]
  split_ifs with hlimit hzero
  · intro rest
    have htake : (bs ++ rest).take headerSize = bs := by
      rw [← h, List.take_left]
    have hshort : ¬ (bs ++ rest).length < headerSize := by
      rw [List.length_append]
      omega
    simp only [firstFrame?, frameFault, htake, hshort, if_false, hlimit, if_true, and_self]
  · have hwrap : wrap [] = bs := by
      rw [wrap, List.append_nil, ← hheader, hzero]
      rfl
    rw [← hwrap]
    exact agrees_conclude (by simpa [hzero] using hlimit) (by decide)
  · refine ⟨⟨Nat.pos_of_ne_zero hzero, ?_⟩, by simp [bytes, hheader]⟩
    rintro _ ⟨⟩
    exact ⟨Int.not_lt.1 hlimit, lengthOf_lt h⟩

/-- What a chunk makes of a frame agrees with the bytes that were there and those of the chunk. -/
theorem agrees_feed (h : a.IsLegal limit) (hne : chunk ≠ []) (hlen : chunk.length ≤ a.wanted) :
    Agrees limit (a.bytes ++ chunk) (a.feed limit chunk) := by
  have hproper := isProper_iff.1 h.isProper
  rw [wanted_eq] at hlen
  rw [feed_of_ne_nil hne]
  split_ifs with hfull
  · have hexact : (a.got ++ chunk).length = a.target := by
      rw [List.length_append]
      omega
    obtain ⟨length, got⟩ := a
    cases length with
    | none => exact agrees_afterHeader hexact
    | some length =>
        obtain rfl : (got ++ chunk).length = length := hexact
        obtain ⟨hlimit, hbound⟩ := h.fits _ rfl
        simp only [bytes, List.append_assoc]
        exact agrees_conclude hlimit hbound
  · refine ⟨⟨isProper_iff.2 ?_, h.fits⟩, bytes_grow a chunk⟩
    rw [got_grow, target_grow, List.length_append]
    omega

end Assembly

/-! ## Streams of whole frames -/

/-- The message of a frame is at most as long as the limit says. -/
def fits (limit : Int) (frame : Bytes) : Bool :=
  (frame.length - headerSize : Nat) ≤ limit

variable {limit : Int} {frame : Bytes} {frames : List Bytes} {e : Entry}

theorem ne_nil_of_encode (h : encode e = .ok frame) : frame ≠ [] := by
  obtain ⟨payload, -, -, rfl⟩ := encode_eq_ok_iff.1 h
  simp [wrap, header]

/-- The frame of an entry is read if its message is not too long, and else it stops the reading. -/
theorem firstFrame?_encode (limit : Int) (h : encode e = .ok frame) (rest : Bytes) :
    if fits limit frame then firstFrame? limit (frame ++ rest) = some (e, rest)
    else firstFrame? limit (frame ++ rest) = none ∧ frameFault limit (frame ++ rest) =
      .oversized (frame.length - headerSize) limit := by
  obtain ⟨payload, hpayload, hbound, rfl⟩ := encode_eq_ok_iff.1 h
  have hlength : (wrap payload).length - headerSize = payload.length := by
    rw [length_wrap, Nat.add_sub_cancel_left]
  simp only [fits, hlength, decide_eq_true_eq]
  split_ifs with hlimit
  · exact firstFrame?_wrap (Entry.ofPayload?_payload hpayload (hbound.trans (by decide))) hbound
      hlimit rest
  · have htake : (wrap payload ++ rest).take headerSize = header payload.length := rfl
    have hshort : ¬ (wrap payload ++ rest).length < headerSize := by
      rw [List.length_append, length_wrap]
      omega
    simp only [firstFrame?, frameFault, hshort, if_false, htake, lengthOf_header hbound,
      Int.not_le.1 hlimit, if_true, and_self]

/-- Of a stream of whole frames those are read that come before the first one that is too long. -/
theorem entriesOf_flatten (limit : Int) (h : ∀ frame ∈ frames, ∃ e, encode e = .ok frame) :
    List.Forall₂ (fun e frame => encode e = .ok frame) (entriesOf limit frames.flatten)
      (frames.takeWhile (fits limit)) := by
  induction frames with
  | nil =>
      rw [List.flatten_nil, entriesOf_of_none (by rw [firstFrame?, if_pos (by decide)])]
      exact .nil
  | cons frame frames ih =>
      obtain ⟨e, he⟩ := h frame List.mem_cons_self
      have hfirst := firstFrame?_encode limit he frames.flatten
      rw [List.flatten_cons]
      by_cases hfits : fits limit frame = true
      · rw [if_pos hfits] at hfirst
        rw [entriesOf_of_some hfirst, List.takeWhile_cons_of_pos hfits]
        exact .cons he (ih fun frame hframe => h frame (List.mem_cons_of_mem _ hframe))
      · rw [if_neg hfits] at hfirst
        rw [entriesOf_of_none hfirst.1, List.takeWhile_cons_of_neg hfits]
        exact .nil

/-- The reading of a stream of whole frames ends cleanly, or at the first one that is too long. -/
theorem endOf_flatten (h : ∀ frame ∈ frames, ∃ e, encode e = .ok frame) :
    endOf limit frames.flatten =
      match frames.find? (!fits limit ·) with
      | none => .clean
      | some frame => .broken (.oversized (frame.length - headerSize) limit) := by
  induction frames with
  | nil => rw [List.flatten_nil, endOf_of_none (by rw [firstFrame?, if_pos (by decide)])]; rfl
  | cons frame frames ih =>
      obtain ⟨e, he⟩ := h frame List.mem_cons_self
      have hfirst := firstFrame?_encode limit he frames.flatten
      have hrest := ih fun frame hframe => h frame (List.mem_cons_of_mem _ hframe)
      rw [List.flatten_cons]
      cases hfits : fits limit frame with
      | true =>
          rw [if_pos hfits] at hfirst
          rw [endOf_of_some hfirst, hrest, List.find?_cons, hfits]
          rfl
      | false =>
          rw [if_neg (by simp [hfits])] at hfirst
          have hne : frame ++ frames.flatten ≠ [] := by
            simp [ne_nil_of_encode he]
          rw [endOf_of_none hfirst.1, if_neg hne, hfirst.2, List.find?_cons, hfits]
          rfl

end Frame

end LogRelay
