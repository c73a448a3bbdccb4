import LogRelay.Proofs.Text.Encoding
import Mathlib.Algebra.Ring.Nat
/-!
# Bytes and what is read from them

Bytes that are read without an ill-formed part are those of the text that was read, so a text and its
bytes determine each other.  Any other bytes come back changed, and may be more then, since what stands
for an ill-formed part has three bytes.

## Main definitions

* `Place.Holds`: the bytes of a sequence that is not complete.
* `Scanner.Covers`: what has been read, and the bytes that it was read from.

## Main statements

* `holds_continue`: one more byte of a sequence.
* `decode?_eq_some_iff`: the text of a well-formed byte sequence is the one that has these bytes.
* `length_encodeLossy_decodeLossy_le`: at most three bytes come back for each one.
-/
namespace LogRelay.Utf8

/-! ## Sequences that are not complete -/

/-- The bytes of a sequence that is not complete, by the number of bytes that it has in all and the
number of those that are there. -/
inductive Place.Holds : Place → Bytes → Prop
  | none : Holds .idle []
  | oneOfTwo {value : Nat} (h : 2 ≤ value) (h' : value < 0x20) :
    Holds (.inside value 1 0x80 0xBF) [UInt8.ofNat (0xC0 + value)]
  | oneOfThree {value low high : Nat} (hlow : 0x80 ≤ low) (hhigh : high ≤ 0xBF)
      (h : 0x800 ≤ value * 0x1000 + (low - 0x80) * 0x40) (h' : value < 0x10) :
    Holds (.inside value 2 low high) [UInt8.ofNat (0xE0 + value)]
  | twoOfThree {value : Nat} (h : 0x20 ≤ value) (h' : value < 0x400) :
    Holds (.inside value 1 0x80 0xBF)
      [UInt8.ofNat (0xE0 + value / 0x40), UInt8.ofNat (0x80 + value % 0x40)]
  | oneOfFour {value low high : Nat} (hlow : 0x80 ≤ low) (hhigh : high ≤ 0xBF)
      (h : 0x10 ≤ value * 0x40 + (low - 0x80)) (h' : value * 0x40 + (high - 0x80) < 0x110) :
    Holds (.inside value 3 low high) [UInt8.ofNat (0xF0 + value)]
  | twoOfFour {value : Nat} (h : 0x10 ≤ value) (h' : value < 0x110) :
    Holds (.inside value 2 0x80 0xBF)
      [UInt8.ofNat (0xF0 + value / 0x40), UInt8.ofNat (0x80 + value % 0x40)]
  | threeOfFour {value : Nat} (h : 0x400 ≤ value) (h' : value < 0x4400) :
    Holds (.inside value 1 0x80 0xBF)
      [UInt8.ofNat (0xF0 + value / 0x1000), UInt8.ofNat (0x80 + value / 0x40 % 0x40),
        UInt8.ofNat (0x80 + value % 0x40)]

theorem ofNat_eq_of_toNat {n : Nat} {b : UInt8} (h : n = b.toNat) : UInt8.ofNat n = b := by
  rw [h, UInt8.ofNat_toNat]

/-- The last byte of a sequence holds the lowest bits of its number. -/
theorem lastByte_eq (value : Nat) {b : UInt8} (hlow : 0x80 ≤ b.toNat) (hhigh : b.toNat ≤ 0xBF) :
    UInt8.ofNat (0x80 + (value * 0x40 + (b.toNat - 0x80)) % 0x40) = b :=
  ofNat_eq_of_toNat (by omega)

/-- The next byte of a sequence is one of those that go on with it. -/
theorem Place.Holds.bounds {value more low high : Nat} {held : Bytes}
    (h : (Place.inside value more low high).Holds held) : 0x80 ≤ low ∧ high ≤ 0xBF := by
  cases h with
  | oneOfThree hlow hhigh | oneOfFour hlow hhigh => exact ⟨hlow, hhigh⟩
  | oneOfTwo | twoOfThree | twoOfFour | threeOfFour => exact ⟨le_refl _, le_refl _⟩

/-- One more byte completes a sequence to the bytes of its code point, or leaves it incomplete. -/
theorem holds_continue {value more low high : Nat} {held : Bytes} {b : UInt8}
    (h : (Place.inside value more low high).Holds held) (hlow : low ≤ b.toNat)
    (hhigh : b.toNat ≤ high) :
    if more ≤ 1 then
      encodePoint (CodePoint.ofNat (value * 0x40 + (b.toNat - 0x80))) = held ++ [b]
    else (Place.inside (value * 0x40 + (b.toNat - 0x80)) (more - 1) 0x80 0xBF).Holds (held ++ [b]) := by
  obtain ⟨hleast, hmost⟩ := h.bounds
  have hlower : 0x80 ≤ b.toNat := hleast.trans hlow
  have hupper : b.toNat ≤ 0xBF := hhigh.trans hmost
  have hb := lastByte_eq value hlower hupper
  -- the lowest six bits are those of the new byte, and all others move up by six places
  cases h with
  | oneOfTwo h h' =>
      have hv : (value * 0x40 + (b.toNat - 0x80)) / 0x40 = value := by omega
      rw [if_pos (by omega), encodePoint_eq, val_ofNat (by omega), if_neg (by omega),
        if_pos (by omega), hb, hv]
      rfl
  | oneOfThree _ _ h h' =>
      have hv : (value * 0x40 + (b.toNat - 0x80)) / 0x40 = value := by omega
      have hholds := Place.Holds.twoOfThree
        (by omega : 0x20 ≤ value * 0x40 + (b.toNat - 0x80)) (by omega)
      rw [hb, hv] at hholds
      exact hholds
  | twoOfThree h h' =>
      have hv : (value * 0x40 + (b.toNat - 0x80)) / 0x1000 = value / 0x40 := by omega
      have hv' : (value * 0x40 + (b.toNat - 0x80)) / 0x40 % 0x40 = value % 0x40 := by omega
      rw [if_pos (by omega), encodePoint_eq, val_ofNat (by omega), if_neg (by omega),
        if_neg (by omega), if_pos (by omega), hb, hv, hv']
      rfl
  | oneOfFour _ _ h h' =>
      have hv : (value * 0x40 + (b.toNat - 0x80)) / 0x40 = value := by omega
      have hholds := Place.Holds.twoOfFour
        (by omega : 0x10 ≤ value * 0x40 + (b.toNat - 0x80)) (by omega)
      rw [hb, hv] at hholds
      exact hholds
  | twoOfFour h h' =>
      have hv : (value * 0x40 + (b.toNat - 0x80)) / 0x1000 = value / 0x40 := by omega
      have hv' : (value * 0x40 + (b.toNat - 0x80)) / 0x40 % 0x40 = value % 0x40 := by omega
      have hholds := Place.Holds.threeOfFour
        (by omega : 0x400 ≤ value * 0x40 + (b.toNat - 0x80)) (by omega)
      rw [hb, hv, hv'] at hholds
      exact hholds
  | threeOfFour h h' =>
      have hv : (value * 0x40 + (b.toNat - 0x80)) / 0x40000 = value / 0x1000 := by omega
      have hv' : (value * 0x40 + (b.toNat - 0x80)) / 0x1000 % 0x40 = value / 0x40 % 0x40 := by omega
      have hv'' : (value * 0x40 + (b.toNat - 0x80)) / 0x40 % 0x40 = value % 0x40 := by omega
      rw [if_pos (by omega), encodePoint_eq, val_ofNat (by omega), if_neg (by omega),
        if_neg (by omega), if_neg (by omega), hb, hv, hv', hv'']
      rfl

/-- A first byte is that of its code point, or of a sequence that is not complete. -/
theorem lead_holds (surrogates : Bool) (b : UInt8) :
    match lead surrogates b.toNat with
    | .point c => encodePoint c = [b]
    | .inside value more low high => (Place.inside value more low high).Holds [b]
    | .bad => True := by
  have hb : b.toNat < 0x100 := b.toNat_lt
  have hsum {base : Nat} (h : base ≤ b.toNat) : UInt8.ofNat (base + (b.toNat - base)) = b :=
    ofNat_eq_of_toNat (by omega)
  rw [lead]
  split_ifs with h₁ h₂ h₃ h₄ h₅ h₆ h₇ h₈ h₉
  · simp only
    rw [encodePoint_eq, val_ofNat (by omega), if_pos h₁, UInt8.ofNat_toNat]
  · trivial
  · have h := Place.Holds.oneOfTwo (by omega : 2 ≤ b.toNat - 0xC0) (by omega)
    rwa [hsum (by omega)] at h
  · have h := Place.Holds.oneOfThree (by omega : 0x80 ≤ 0xA0) (le_refl 0xBF)
      (by omega : 0x800 ≤ 0 * 0x1000 + (0xA0 - 0x80) * 0x40) (by omega)
    rwa [ofNat_eq_of_toNat (by omega : 0xE0 + 0 = b.toNat)] at h
  · have h := Place.Holds.oneOfThree (le_refl 0x80) (by omega : 0x9F ≤ 0xBF)
      (by omega : 0x800 ≤ 0xD * 0x1000 + (0x80 - 0x80) * 0x40) (by omega)
    rwa [ofNat_eq_of_toNat (by omega : 0xE0 + 0xD = b.toNat)] at h
  · have h := Place.Holds.oneOfThree (le_refl 0x80) (le_refl 0xBF)
      (by omega : 0x800 ≤ (b.toNat - 0xE0) * 0x1000 + (0x80 - 0x80) * 0x40) (by omega)
    rwa [hsum (by omega)] at h
  · have h := Place.Holds.oneOfFour (by omega : 0x80 ≤ 0x90) (le_refl 0xBF)
      (by omega : 0x10 ≤ 0 * 0x40 + (0x90 - 0x80)) (by omega)
    rwa [ofNat_eq_of_toNat (by omega : 0xF0 + 0 = b.toNat)] at h
  · have h := Place.Holds.oneOfFour (le_refl 0x80) (le_refl 0xBF)
      (by omega : 0x10 ≤ (b.toNat - 0xF0) * 0x40 + (0x80 - 0x80)) (by omega)
    rwa [hsum (by omega)] at h
  · have h := Place.Holds.oneOfFour (le_refl 0x80) (by omega : 0x8F ≤ 0xBF)
      (by omega : 0x10 ≤ 4 * 0x40 + (0x80 - 0x80)) (by omega)
    rwa [ofNat_eq_of_toNat (by omega : 0xF0 + 4 = b.toNat)] at h
  · trivial

/-! ## What has been read -/

/-- The bytes are those of the code points that have been read, and those of a sequence that is not
complete, unless there was an ill-formed part. -/
def Scanner.Covers (s : Scanner) (bs : Bytes) : Prop :=
  ∃ held, s.place.Holds held ∧
    (s.read.all Option.isSome = true →
      (s.read.reverse.filterMap id).flatMap encodePoint ++ held = bs)

variable {surrogates : Bool} {s : Scanner} {bs : Bytes} {t : Text}

theorem begin_covers {read : List (Option CodePoint)}
    (h : read.all Option.isSome = true → (read.reverse.filterMap id).flatMap encodePoint = bs)
    (b : UInt8) : (Scanner.begin surrogates ⟨.idle, read⟩ b).Covers (bs ++ [b]) := by
  have hlead := lead_holds surrogates b
  rw [Scanner.begin]
  split <;> rename_i hl <;> rw [hl] at hlead
  · refine ⟨[], .none, fun hall => ?_⟩
    have hread : read.all Option.isSome = true := by simpa using hall
    simp [← h hread, hlead]
  · exact ⟨[b], hlead, fun hall => by rw [h hall]⟩
  · exact ⟨[], .none, fun hall => by simp at hall⟩

theorem step_covers (h : s.Covers bs) (b : UInt8) : (s.step surrogates b).Covers (bs ++ [b]) := by
  obtain ⟨place, read⟩ := s
  obtain ⟨held, hheld, hread⟩ := h
  cases place with
  | idle =>
      cases hheld
      exact begin_covers (by simpa using hread) b
  | inside value more low high =>
      rw [Scanner.step]
      simp only
      split_ifs with hb hlast
      · have hlead := holds_continue hheld hb.1 hb.2
        rw [if_pos hlast] at hlead
        refine ⟨[], .none, fun hall => ?_⟩
        have hall' : read.all Option.isSome = true := by simpa using hall
        simp [← hread hall', hlead]
      · have hlead := holds_continue hheld hb.1 hb.2
        rw [if_neg hlast] at hlead
        exact ⟨held ++ [b], hlead, fun hall => by simp [← hread hall]⟩
      -- the sequence is broken off, so what has been read has an ill-formed part
      · exact begin_covers (fun hall => by simp at hall) b

theorem foldl_step_covers (more : Bytes) (h : s.Covers bs) :
    (more.foldl (Scanner.step surrogates) s).Covers (bs ++ more) := by
  induction more generalizing s bs with
  | nil => simpa using h
  | cons b more ih =>
      rw [List.foldl_cons, List.append_cons]
      exact ih (step_covers h b)

/-- Bytes that are read without an ill-formed part are those of what was read. -/
theorem flatMap_encodePoint_of_points? (h : points? (scan surrogates bs) = some t) :
    t.flatMap encodePoint = bs := by
  obtain ⟨held, hheld, hread⟩ : (bs.foldl (Scanner.step surrogates) ⟨.idle, []⟩).Covers bs :=
    foldl_step_covers bs ⟨[], .none, fun _ => rfl⟩
  rw [points?, scan] at h
  split_ifs at h with hall
  obtain rfl := Option.some.inj h
  generalize bs.foldl (Scanner.step surrogates) ⟨.idle, []⟩ = s at *
  obtain ⟨place, read⟩ := s
  cases place with
  | idle =>
      cases hheld
      simp only [Scanner.finish] at hall ⊢
      simpa using hread (by simpa using hall)
  | inside => simp [Scanner.finish] at hall

/-- If there is no ill-formed part, nothing is replaced. -/
theorem decodeLossy_of_decode? (h : decode? bs = some t) : decodeLossy bs = t := by
  rw [decode?, points?] at h
  split_ifs at h with hall
  obtain rfl := Option.some.inj h
  rw [decodeLossy]
  clear h
  generalize scan false bs = parts at hall
  induction parts with
  | nil => rfl
  | cons part parts ih =>
      cases part with
      | none => simp at hall
      | some c => simpa using ih (by simpa using hall)

/-- The text of a well-formed byte sequence is the one that has these bytes. -/
theorem decode?_eq_some_iff :
    decode? bs = some t ↔ t.hasSurrogate = false ∧ t.flatMap encodePoint = bs := by
  constructor
  · intro h
    refine ⟨?_, flatMap_encodePoint_of_points? h⟩
    rw [← decodeLossy_of_decode? h]
    exact hasSurrogate_decodeLossy bs
  · rintro ⟨hs, rfl⟩
    exact decode?_encode hs

/-- A well-formed byte sequence comes back as it was. -/
theorem encodeLossy_decodeLossy (h : (decode? bs).isSome) : encodeLossy (decodeLossy bs) = bs := by
  obtain ⟨t, ht⟩ := Option.isSome_iff_exists.1 h
  obtain ⟨hs, hbytes⟩ := decode?_eq_some_iff.1 ht
  rw [decodeLossy_of_decode? ht, encodeLossy_eq hs, hbytes]

/-! ## How much comes back -/

/-- The number of bytes that come back for what has been read, last first, when each ill-formed part
is replaced. -/
def lossyLength (read : List (Option CodePoint)) : Nat :=
  (read.map fun part => (encodePoint (part.getD .replacement)).length).sum

theorem lossyLength_some (c : CodePoint) (read : List (Option CodePoint)) :
    lossyLength (some c :: read) = (encodePoint c).length + lossyLength read := by
  simp [lossyLength]

theorem lossyLength_none (read : List (Option CodePoint)) :
    lossyLength (none :: read) = 3 + lossyLength read := by
  simp only [lossyLength, List.map_cons, List.sum_cons]
  rfl

theorem lossyLength_reverse (read : List (Option CodePoint)) :
    lossyLength read.reverse = lossyLength read := by
  simp [lossyLength, List.sum_reverse]

/-- At most three bytes come back for each one that has been read.  A sequence that is not complete
counts as the replacement that it may come to. -/
def Scanner.IsWithin (s : Scanner) (count : Nat) : Prop :=
  lossyLength s.read + (if s.place = .idle then 0 else 3) ≤ 3 * count

theorem isWithin_idle {read : List (Option CodePoint)} {count : Nat} :
    Scanner.IsWithin ⟨.idle, read⟩ count ↔ lossyLength read ≤ 3 * count := by
  simp [Scanner.IsWithin]

theorem isWithin_inside {value more low high : Nat} {read : List (Option CodePoint)} {count : Nat} :
    Scanner.IsWithin ⟨.inside value more low high, read⟩ count ↔
      lossyLength read + 3 ≤ 3 * count := by
  simp [Scanner.IsWithin]

theorem length_encodePoint_le (c : CodePoint) : (encodePoint c).length ≤ 4 := by
  rw [encodePoint_eq]
  split_ifs <;> simp

theorem begin_isWithin {read : List (Option CodePoint)} {count : Nat}
    (h : lossyLength read ≤ 3 * count) (b : UInt8) :
    (Scanner.begin surrogates ⟨.idle, read⟩ b).IsWithin (count + 1) := by
  have hlead := lead_holds surrogates b
  rw [Scanner.begin]
  split <;> rename_i hl <;> rw [hl] at hlead
  · simp only [isWithin_idle, lossyLength_some, hlead, List.length_singleton]
    omega
  · simp only [isWithin_inside]
    omega
  · simp only [isWithin_idle, lossyLength_none]
    omega

theorem step_isWithin {count : Nat} (h : s.IsWithin count) (b : UInt8) :
    (s.step surrogates b).IsWithin (count + 1) := by
  obtain ⟨place, read⟩ := s
  cases place with
  | idle => exact begin_isWithin (isWithin_idle.1 h) b
  | inside value more low high =>
      rw [isWithin_inside] at h
      rw [Scanner.step]
      simp only
      split_ifs with hb hlast
      · have hpoint := length_encodePoint_le
          (CodePoint.ofNat (value * 0x40 + (b.toNat - 0x80)))
        rw [isWithin_idle, lossyLength_some]
        omega
      · rw [isWithin_inside]
        omega
      · refine begin_isWithin ?_ b
        rw [lossyLength_none]
        omega

theorem foldl_step_isWithin (more : Bytes) {count : Nat} (h : s.IsWithin count) :
    (more.foldl (Scanner.step surrogates) s).IsWithin (count + more.length) := by
  induction more generalizing s count with
  | nil => exact h
  | cons b more ih =>
      rw [List.foldl_cons, List.length_cons, Nat.add_comm more.length, ← Nat.add_assoc]
      exact ih (step_isWithin h b)

theorem length_flatMap_getD (parts : List (Option CodePoint)) :
    ((parts.map (·.getD .replacement)).flatMap encodePoint).length = lossyLength parts := by
  rw [List.flatMap_def, List.length_flatten, List.map_map, List.map_map]
  rfl

/-- At most three bytes come back for each one. -/
theorem length_encodeLossy_decodeLossy_le (bs : Bytes) :
    (encodeLossy (decodeLossy bs)).length ≤ 3 * bs.length := by
  have hwithin : (bs.foldl (Scanner.step false) ⟨.idle, []⟩).IsWithin (0 + bs.length) :=
    foldl_step_isWithin bs (le_refl 0)
  rw [encodeLossy_eq (hasSurrogate_decodeLossy bs), decodeLossy, length_flatMap_getD, scan]
  generalize bs.foldl (Scanner.step false) ⟨.idle, []⟩ = s at hwithin
  obtain ⟨place, read⟩ := s
  rw [Nat.zero_add] at hwithin
  rw [Scanner.finish]
  cases place with
  | idle =>
      simp only [lossyLength_reverse]
      exact isWithin_idle.1 hwithin
  | inside =>
      rw [isWithin_inside] at hwithin
      simp only [lossyLength_reverse, lossyLength_none]
      omega

end LogRelay.Utf8
