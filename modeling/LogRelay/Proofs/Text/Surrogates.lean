import LogRelay.Proofs.Text.Encoding
import LogRelay.Text.WideUnits
import Mathlib.Data.List.Chain
/-!
# Surrogate pairs

A code point above `0xFFFF` goes as two surrogates where there are only sixteen bits, and whoever reads
these joins each high surrogate with a low one that follows it.  The texts that this leaves as they are
are those in which no low surrogate follows a high one; every other text becomes shorter.

## Main definitions

* `Text.IsUnpaired`: no low surrogate follows a high one.

## Main statements

* `CodePoint.toSurrogates_spec`: the two surrogates of a code point, and what they are joined to.
* `Encoding.joinPairs_eq_iff`: the texts that are left as they are.
-/
namespace LogRelay

/-! ## One code point -/

namespace CodePoint

variable {c : CodePoint}

theorem not_isLowSurrogate_of_isHighSurrogate (h : c.isHighSurrogate = true) :
    c.isLowSurrogate = false := by
  simp only [isHighSurrogate, Bool.and_eq_true, decide_eq_true_eq] at h
  simp only [isLowSurrogate, Bool.and_eq_false_iff, decide_eq_false_iff_not]
  omega

/-- A code point that is no surrogate is neither half of a pair. -/
theorem halves_of_not_isSurrogate (h : c.isSurrogate = false) :
    c.isHighSurrogate = false ∧ c.isLowSurrogate = false := by
  simp only [isSurrogate, Bool.and_eq_false_iff, decide_eq_false_iff_not] at h
  simp only [isHighSurrogate, isLowSurrogate, Bool.and_eq_false_iff, decide_eq_false_iff_not]
  omega

/-- A surrogate pair, and the code point that it names. -/
theorem toSurrogates_spec (h : 0x10000 ≤ c.val) :
    (c.toSurrogates.1.isHighSurrogate = true ∧ c.toSurrogates.1.val < 0x10000) ∧
      (c.toSurrogates.2.isLowSurrogate = true ∧ c.toSurrogates.2.val < 0x10000) ∧
        ofSurrogates c.toSurrogates.1 c.toSurrogates.2 = c := by
  have hlt := c.isLt
  have hhigh : c.toSurrogates.1.val = 0xD800 + (c.val - 0x10000) / 0x400 := by
    rw [toSurrogates, Utf8.val_ofNat (by omega)]
  have hlow : c.toSurrogates.2.val = 0xDC00 + (c.val - 0x10000) % 0x400 := by
    rw [toSurrogates, Utf8.val_ofNat (by omega)]
  refine ⟨⟨?_, by omega⟩, ⟨?_, by omega⟩, ?_⟩
  · simp only [isHighSurrogate, hhigh, Bool.and_eq_true, decide_eq_true_eq]
    omega
  · simp only [isLowSurrogate, hlow, Bool.and_eq_true, decide_eq_true_eq]
    omega
  · rw [ofSurrogates, hhigh, hlow]
    have hval : 0x10000 + (0xD800 + (c.val - 0x10000) / 0x400 - 0xD800) * 0x400 +
        (0xDC00 + (c.val - 0x10000) % 0x400 - 0xDC00) = c.val := by omega
    rw [hval, Utf8.ofNat_val]

end CodePoint

/-! ## Texts -/

/-- No high surrogate is directly followed by a low one. -/
def Text.IsUnpaired (t : Text) : Prop :=
  t.IsChain fun c d => ¬(c.isHighSurrogate = true ∧ d.isLowSurrogate = true)

instance (t : Text) : Decidable t.IsUnpaired :=
  inferInstanceAs (Decidable (List.IsChain _ t))

theorem Text.isUnpaired_of_hasSurrogate {t : Text} (h : t.hasSurrogate = false) : t.IsUnpaired := by
  rw [hasSurrogate_eq_false_iff] at h
  rw [IsUnpaired, List.isChain_iff_forall_rel_of_append_cons_cons]
  rintro c d before rest rfl ⟨hhigh, -⟩
  have hc := h c (List.mem_append_right before List.mem_cons_self)
  rw [(CodePoint.halves_of_not_isSurrogate hc).1] at hhigh
  cases hhigh

namespace Encoding

theorem length_joinPairs_le (read t : Text) : (joinPairs read t).length ≤ read.length + t.length := by
  fun_induction joinPairs read t with
  | case1 read => rw [List.length_reverse]; exact Nat.le_add_right _ _
  | case2 read c => rw [List.length_reverse, List.length_cons, List.length_singleton]
  | case3 read c d rest h ih =>
      simp only [List.length_cons] at ih ⊢
      omega
  | case4 read c d rest h ih =>
      simp only [List.length_cons] at ih ⊢
      omega

/-- Where there is no pair, nothing is joined. -/
theorem joinPairs_of_isUnpaired (read : Text) {t : Text} (h : t.IsUnpaired) :
    joinPairs read t = read.reverse ++ t := by
  fun_induction joinPairs read t with
  | case1 read => rw [List.append_nil]
  | case2 read c => rw [List.reverse_cons]
  | case3 read c d rest hpair ih =>
      rw [Bool.and_eq_true] at hpair
      exact absurd hpair (List.isChain_cons_cons.1 h).1
  | case4 read c d rest hpair ih =>
      rw [ih (List.isChain_cons_cons.1 h).2, List.reverse_cons, List.append_assoc]
      rfl

/-- A pair that is joined leaves the text shorter. -/
theorem isUnpaired_or_length_joinPairs_lt (read t : Text) :
    t.IsUnpaired ∨ (joinPairs read t).length < read.length + t.length := by
  fun_induction joinPairs read t with
  | case1 read => exact .inl .nil
  | case2 read c => exact .inl (.singleton c)
  | case3 read c d rest hpair ih =>
      have hle := length_joinPairs_le (CodePoint.ofSurrogates c d :: read) rest
      simp only [List.length_cons] at hle ⊢
      exact .inr (by omega)
  | case4 read c d rest hpair ih =>
      rw [Bool.and_eq_true] at hpair
      rcases ih with hrest | hlt
      · exact .inl (List.isChain_cons_cons.2 ⟨hpair, hrest⟩)
      · simp only [List.length_cons] at hlt ⊢
        exact .inr (by omega)

/-- The texts that are left as they are. -/
theorem joinPairs_eq_iff {t : Text} : joinPairs [] t = t ↔ t.IsUnpaired := by
  constructor
  · intro heq
    rcases isUnpaired_or_length_joinPairs_lt [] t with h | hlt
    · exact h
    · rw [heq, List.length_nil, Nat.zero_add] at hlt
      exact absurd hlt (Nat.lt_irrefl _)
  · exact joinPairs_of_isUnpaired []

example : joinPairs [] [CodePoint.ofNat 0xDE00, CodePoint.ofNat 0xD83D, CodePoint.ofNat 0xDE00] =
    [CodePoint.ofNat 0xDE00, CodePoint.ofNat 0x1F600] := by
  decide

theorem joinPairs_of_hasSurrogate {t : Text} (h : t.hasSurrogate = false) : joinPairs [] t = t :=
  joinPairs_eq_iff.2 (Text.isUnpaired_of_hasSurrogate h)

end Encoding

end LogRelay
