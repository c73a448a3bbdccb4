import LogRelay.Text.Unencodable
import LogRelay.Text.Utf8
import Mathlib.Data.List.TakeWhile
/-!
# Texts and their UTF-8 form

A text without surrogates can be read back from its UTF-8 form.  What a decoder makes of any byte
sequence is such a text.

## Main statements

* `unencodable?_eq_none_iff`: the texts that have a UTF-8 form.
* `decode?_encode`: the text that was written is read.
* `hasSurrogate_decodeLossy`: no surrogate comes out of a decoder.
-/
namespace LogRelay

theorem hasSurrogate_eq_false_iff {t : Text} :
    t.hasSurrogate = false ↔ ∀ c ∈ t, c.isSurrogate = false := by
  simp [Text.hasSurrogate]

/-- The texts that an encoder does not refuse. -/
theorem unencodable?_eq_none_iff {t : Text} : t.unencodable? = none ↔ t.hasSurrogate = false := by
  rw [hasSurrogate_eq_false_iff, Text.unencodable?]
  split
  · rename_i h
    simpa using List.dropWhile_eq_nil_iff.1 h
  · rename_i c rest h
    have hc : c.isSurrogate = true := by
      simpa [h] using List.head?_dropWhile_not (fun c : CodePoint => !c.isSurrogate) t
    have hmem : c ∈ t := List.dropWhile_subset _ (h ▸ List.mem_cons_self)
    simp only [reduceCtorEq, false_iff]
    intro hall
    rw [hall c hmem] at hc
    cases hc

namespace Utf8

/-- The bytes of one code point, by the number of them. -/
theorem encodePoint_eq (c : CodePoint) :
    encodePoint c =
      if c.val < 0x80 then [UInt8.ofNat c.val]
      else if c.val < 0x800 then
        [UInt8.ofNat (0xC0 + c.val / 0x40), UInt8.ofNat (0x80 + c.val % 0x40)]
      else if c.val < 0x10000 then
        [UInt8.ofNat (0xE0 + c.val / 0x1000), UInt8.ofNat (0x80 + c.val / 0x40 % 0x40),
          UInt8.ofNat (0x80 + c.val % 0x40)]
      else
        [UInt8.ofNat (0xF0 + c.val / 0x40000), UInt8.ofNat (0x80 + c.val / 0x1000 % 0x40),
          UInt8.ofNat (0x80 + c.val / 0x40 % 0x40), UInt8.ofNat (0x80 + c.val % 0x40)] :=
  rfl

theorem toNat_byte {n : Nat} (h : n < 0x100) : (UInt8.ofNat n).toNat = n := by
  rw [UInt8.toNat_ofNat']
  omega

/-! ## First bytes -/

section Lead

variable {surrogates : Bool} {b : Nat}

theorem lead_ascii (h : b < 0x80) : lead surrogates b = .point (CodePoint.ofNat b) := by
  simp [lead, h]

theorem lead_two (h₁ : 0xC2 ≤ b) (h₂ : b < 0xE0) :
    lead surrogates b = .inside (b - 0xC0) 1 0x80 0xBF := by
  rw [lead, if_neg (by omega), if_neg (by omega), if_pos (by omega)]

/-- The first of three bytes.  Its bounds on the second one leave out what has a shorter form, and
surrogates. -/
theorem lead_three (surrogates : Bool) {v : Nat} (h₁ : 0x800 ≤ v) (h₂ : v < 0x10000) (hs : v < 0xD800 ∨ 0xE000 ≤ v) :
    ∃ low high, lead surrogates (0xE0 + v / 0x1000) = .inside (v / 0x1000) 2 low high ∧
      low ≤ 0x80 + v / 0x40 % 0x40 ∧ 0x80 + v / 0x40 % 0x40 ≤ high := by
  rcases (by omega : v / 0x1000 = 0 ∨ v / 0x1000 = 0xD ∨
    (0 < v / 0x1000 ∧ v / 0x1000 ≠ 0xD)) with h | h | ⟨h, h'⟩
  · exact ⟨0xA0, 0xBF, by rw [h]; rfl, by omega, by omega⟩
  · cases surrogates with
    | false => exact ⟨0x80, 0x9F, by rw [h]; rfl, by omega, by omega⟩
    | true => exact ⟨0x80, 0xBF, by rw [h]; rfl, by omega, by omega⟩
  · refine ⟨0x80, 0xBF, ?_, by omega, by omega⟩
    rw [lead, if_neg (by omega), if_neg (by omega), if_neg (by omega), if_neg (by omega),
      if_neg (by omega), if_pos (by omega), Nat.add_sub_cancel_left]

/-- The first of four bytes.  Its bounds on the second one leave out what has a shorter form, and
numbers that are too large. -/
theorem lead_four (surrogates : Bool) {v : Nat} (h₁ : 0x10000 ≤ v) (h₂ : v < 0x110000) :
    ∃ low high, lead surrogates (0xF0 + v / 0x40000) = .inside (v / 0x40000) 3 low high ∧
      low ≤ 0x80 + v / 0x1000 % 0x40 ∧ 0x80 + v / 0x1000 % 0x40 ≤ high := by
  rcases (by omega : v / 0x40000 = 0 ∨ v / 0x40000 = 4 ∨
    (0 < v / 0x40000 ∧ v / 0x40000 < 4)) with h | h | ⟨h, h'⟩
  · exact ⟨0x90, 0xBF, by rw [h]; rfl, by omega, by omega⟩
  · exact ⟨0x80, 0x8F, by rw [h]; rfl, by omega, by omega⟩
  · refine ⟨0x80, 0xBF, ?_, by omega, by omega⟩
    rw [lead, if_neg (by omega), if_neg (by omega), if_neg (by omega), if_neg (by omega),
      if_neg (by omega), if_neg (by omega), if_neg (by omega), if_pos (by omega),
      Nat.add_sub_cancel_left]

end Lead

/-! ## Reading back -/

variable (surrogates : Bool) (read : List (Option CodePoint))

theorem step_idle_point {n : Nat} {c : CodePoint} (hn : n < 0x100)
    (h : lead surrogates n = .point c) :
    Scanner.step surrogates ⟨.idle, read⟩ (UInt8.ofNat n) = ⟨.idle, some c :: read⟩ := by
  simp only [Scanner.step, Scanner.begin, toNat_byte hn, h]

theorem step_idle_inside {n value more low high : Nat} (hn : n < 0x100)
    (h : lead surrogates n = .inside value more low high) :
    Scanner.step surrogates ⟨.idle, read⟩ (UInt8.ofNat n) =
      ⟨.inside value more low high, read⟩ := by
  simp only [Scanner.step, Scanner.begin, toNat_byte hn, h]

/-- A continuation byte between its bounds. -/
theorem step_inside {value more low high n : Nat} (hlow : low ≤ 0x80 + n) (hhigh : 0x80 + n ≤ high)
    (hn : n < 0x40) :
    Scanner.step surrogates ⟨.inside value more low high, read⟩ (UInt8.ofNat (0x80 + n)) =
      if more ≤ 1 then ⟨.idle, some (CodePoint.ofNat (value * 0x40 + n)) :: read⟩
      else ⟨.inside (value * 0x40 + n) (more - 1) 0x80 0xBF, read⟩ := by
  simp only [Scanner.step, toNat_byte (by omega : 0x80 + n < 0x100), hlow, hhigh, and_self, if_true,
    Nat.add_sub_cancel_left]

theorem val_ofNat {n : Nat} (h : n < 0x110000) : (CodePoint.ofNat n).val = n := by
  simp [CodePoint.ofNat, h]

theorem ofNat_val (c : CodePoint) : CodePoint.ofNat c.val = c := by
  simp [CodePoint.ofNat, c.isLt]

/-- The bytes of a code point that is no surrogate are read as that code point. -/
theorem foldl_step_encodePoint {c : CodePoint} (h : c.isSurrogate = false) :
    (encodePoint c).foldl (Scanner.step surrogates) ⟨.idle, read⟩ = ⟨.idle, some c :: read⟩ := by
  have hlt := c.isLt
  have hs : c.val < 0xD800 ∨ 0xE000 ≤ c.val := by
    simp only [CodePoint.isSurrogate, Bool.and_eq_false_iff, decide_eq_false_iff_not] at h
    omega
  have hval {n : Nat} (hn : n = c.val) : CodePoint.ofNat n = c := by rw [hn, ofNat_val]
  rw [encodePoint_eq]
  split_ifs with h₁ h₂ h₃
  · rw [List.foldl_cons, step_idle_point _ _ (by omega) (lead_ascii h₁), ofNat_val, List.foldl_nil]
  · rw [List.foldl_cons, step_idle_inside _ _ (by omega) (lead_two (by omega) (by omega)),
      List.foldl_cons, step_inside _ _ (by omega) (by omega) (by omega), if_pos (by omega),
      hval (by omega), List.foldl_nil]
  · obtain ⟨low, high, hlead, hlow, hhigh⟩ :=
      lead_three surrogates (by omega : 0x800 ≤ c.val) h₃ hs
    rw [List.foldl_cons, step_idle_inside _ _ (by omega) hlead,
      List.foldl_cons, step_inside _ _ hlow hhigh (by omega), if_neg (by omega),
      List.foldl_cons, step_inside _ _ (by omega) (by omega) (by omega), if_pos (by omega),
      hval (by omega), List.foldl_nil]
  · obtain ⟨low, high, hlead, hlow, hhigh⟩ :=
      lead_four surrogates (by omega : 0x10000 ≤ c.val) hlt
    rw [List.foldl_cons, step_idle_inside _ _ (by omega) hlead,
      List.foldl_cons, step_inside _ _ hlow hhigh (by omega), if_neg (by omega),
      List.foldl_cons, step_inside _ _ (by omega) (by omega) (by omega), if_neg (by omega),
      List.foldl_cons, step_inside _ _ (by omega) (by omega) (by omega), if_pos (by omega),
      hval (by omega), List.foldl_nil]

/-- The bytes of a text without surrogates are read as that text, onto what has been read. -/
theorem foldl_step_encode {t : Text} (h : t.hasSurrogate = false) :
    (t.flatMap encodePoint).foldl (Scanner.step surrogates) ⟨.idle, read⟩ =
      ⟨.idle, (t.map some).reverse ++ read⟩ := by
  rw [hasSurrogate_eq_false_iff] at h
  induction t generalizing read with
  | nil => rfl
  | cons c t ih =>
      rw [List.flatMap_cons, List.foldl_append,
        foldl_step_encodePoint _ _ (h c List.mem_cons_self),
        ih _ fun d hd => h d (List.mem_cons_of_mem c hd)]
      simp

theorem scan_encode {t : Text} (h : t.hasSurrogate = false) :
    scan surrogates (t.flatMap encodePoint) = t.map some := by
  simp [scan, foldl_step_encode surrogates [] h, Scanner.finish]

theorem points?_map_some (t : Text) : points? (t.map some) = some t := by
  simp [points?, List.filterMap_map]

/-- The text that was written is read. -/
theorem decode?_encode {t : Text} (h : t.hasSurrogate = false) :
    decode? (t.flatMap encodePoint) = some t := by
  rw [decode?, scan_encode false h, points?_map_some]

/-- The same when surrogates are let pass. -/
theorem decodeWithSurrogates?_encode {t : Text} (h : t.hasSurrogate = false) :
    decodeWithSurrogates? (t.flatMap encodePoint) = some t := by
  rw [decodeWithSurrogates?, scan_encode true h, points?_map_some]

/-- A text without surrogates has the same lossy form. -/
theorem encodeLossy_eq {t : Text} (h : t.hasSurrogate = false) :
    encodeLossy t = t.flatMap encodePoint := by
  rw [hasSurrogate_eq_false_iff] at h
  rw [encodeLossy, List.flatMap_def, List.flatMap_def]
  congr 1
  apply List.map_congr_left
  intro c hc
  simp [h c hc]

/-! ## No surrogates come out -/

/-- A number outside the range of the surrogates. -/
def IsPlain (n : Nat) : Prop :=
  n < 0xD800 ∨ 0xE000 ≤ n

/-- How many numbers there are for what follows the next of so many continuation bytes. -/
def tailCount : Nat → Nat
  | 0 | 1 => 1
  | 2 => 0x40
  | _ => 0x1000

/-- All numbers that a sequence can still lead to are outside the range of the surrogates. -/
def Place.IsPlain : Place → Prop
  | .idle => True
  | .inside value more low high =>
    1 ≤ more ∧ more ≤ 3 ∧ 0x80 ≤ low ∧
      ((value * 0x40 + (high - 0x80) + 1) * tailCount more ≤ 0xD800 ∨
        0xE000 ≤ (value * 0x40 + (low - 0x80)) * tailCount more)

theorem isSurrogate_ofNat {n : Nat} (h : IsPlain n) : (CodePoint.ofNat n).isSurrogate = false := by
  rw [IsPlain] at h
  rw [CodePoint.ofNat]
  split_ifs
  · simp only [CodePoint.isSurrogate, Bool.and_eq_false_iff, decide_eq_false_iff_not]
    omega
  · decide

theorem isPlain_inside_iff {value more low high : Nat} :
    (Place.inside value more low high).IsPlain ↔
      1 ≤ more ∧ more ≤ 3 ∧ 0x80 ≤ low ∧
        ((value * 0x40 + (high - 0x80) + 1) * tailCount more ≤ 0xD800 ∨
          0xE000 ≤ (value * 0x40 + (low - 0x80)) * tailCount more) :=
  Iff.rfl

/-- What has been read holds no surrogate, and none is coming. -/
structure Scanner.IsPlain (s : Scanner) : Prop where
  read : ∀ c, some c ∈ s.read → c.isSurrogate = false
  place : s.place.IsPlain

theorem lead_isPlain (b : Nat) :
    match lead false b with
    | .point c => c.isSurrogate = false
    | .inside value more low high => (Place.inside value more low high).IsPlain
    | .bad => True := by
  rw [lead]
  simp only [Bool.false_eq_true, not_false_eq_true, and_true]
  split_ifs
  · exact isSurrogate_ofNat (by rw [Utf8.IsPlain]; omega)
  all_goals simp only [isPlain_inside_iff, tailCount]
  all_goals omega

/-- A continuation byte narrows down what a sequence can lead to. -/
theorem isPlain_narrow {value more low high n : Nat}
    (h : (Place.inside value more low high).IsPlain) (hlow : low ≤ n) (hhigh : n ≤ high) :
    if more ≤ 1 then IsPlain (value * 0x40 + (n - 0x80))
    else (Place.inside (value * 0x40 + (n - 0x80)) (more - 1) 0x80 0xBF).IsPlain := by
  obtain ⟨hmore, hmore', hbound, hspan⟩ := isPlain_inside_iff.1 h
  rcases (by omega : more = 1 ∨ more = 2 ∨ more = 3) with rfl | rfl | rfl
  · simp only [tailCount] at hspan
    simp only [le_refl, if_true, IsPlain]
    omega
  · simp only [tailCount] at hspan
    rw [if_neg (by omega), isPlain_inside_iff]
    simp only [Nat.reduceSub, tailCount]
    omega
  · simp only [tailCount] at hspan
    rw [if_neg (by omega), isPlain_inside_iff]
    simp only [Nat.reduceSub, tailCount]
    omega

theorem begin_isPlain {s : Scanner} (h : ∀ c, some c ∈ s.read → c.isSurrogate = false) (b : UInt8) :
    (s.begin false b).IsPlain := by
  have hb := lead_isPlain b.toNat
  rw [Scanner.begin]
  split <;> rename_i hl <;> rw [hl] at hb
  · refine ⟨?_, trivial⟩
    intro c hc
    rcases List.mem_cons.1 hc with hc | hc
    · exact Option.some.inj hc ▸ hb
    · exact h c hc
  · exact ⟨h, hb⟩
  · refine ⟨?_, trivial⟩
    intro c hc
    rcases List.mem_cons.1 hc with hc | hc
    · cases hc
    · exact h c hc

theorem step_isPlain {s : Scanner} (h : s.IsPlain) (b : UInt8) : (s.step false b).IsPlain := by
  rw [Scanner.step]
  split
  · exact begin_isPlain h.read b
  · rename_i value more low high hs
    have hplace := h.place
    rw [hs] at hplace
    split_ifs with hb hlast
    · have hplain := isPlain_narrow hplace hb.1 hb.2
      rw [if_pos hlast] at hplain
      refine ⟨?_, trivial⟩
      intro c hc
      rcases List.mem_cons.1 hc with hc | hc
      · rw [Option.some.inj hc]
        exact isSurrogate_ofNat hplain
      · exact h.read c hc
    · have hplain := isPlain_narrow hplace hb.1 hb.2
      rw [if_neg hlast] at hplain
      exact ⟨h.read, hplain⟩
    · apply begin_isPlain
      intro c hc
      rcases List.mem_cons.1 hc with hc | hc
      · cases hc
      · exact h.read c hc

theorem foldl_step_isPlain (bs : Bytes) {s : Scanner} (h : s.IsPlain) :
    (bs.foldl (Scanner.step false) s).IsPlain := by
  induction bs generalizing s with
  | nil => exact h
  | cons b bs ih => exact ih (step_isPlain h b)

/-- No surrogate comes out of a decoder. -/
theorem hasSurrogate_decodeLossy (bs : Bytes) : (decodeLossy bs).hasSurrogate = false := by
  rw [hasSurrogate_eq_false_iff]
  have hplain := foldl_step_isPlain bs (s := ⟨.idle, []⟩) ⟨by simp, trivial⟩
  intro c hc
  obtain ⟨part, hpart, rfl⟩ := List.mem_map.1 hc
  cases part with
  | none => decide
  | some c =>
      apply hplain.read
      rw [scan, Scanner.finish] at hpart
      split at hpart <;> simpa using hpart

/-! ## ASCII -/

/-- A text of ASCII characters has the same bytes in UTF-8. -/
theorem flatMap_encodePoint_eq_map {t : Text} (h : ∀ c ∈ t, c.val < 0x80) :
    t.flatMap encodePoint = t.map fun c => UInt8.ofNat c.val := by
  induction t with
  | nil => rfl
  | cons c t ih =>
      have hc : encodePoint c = [UInt8.ofNat c.val] := by
        rw [encodePoint_eq, if_pos (h c List.mem_cons_self)]
      rw [List.flatMap_cons, hc, ih fun d hd => h d (List.mem_cons_of_mem c hd)]
      rfl

theorem hasSurrogate_of_ascii {t : Text} (h : ∀ c ∈ t, c.val < 0x80) : t.hasSurrogate = false := by
  rw [hasSurrogate_eq_false_iff]
  intro c hc
  have := h c hc
  simp only [CodePoint.isSurrogate, Bool.and_eq_false_iff, decide_eq_false_iff_not]
  omega

end Utf8

end LogRelay
