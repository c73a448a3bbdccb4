import LogRelay.Text.Digit
import Mathlib.Data.List.Induction
import Mathlib.Tactic.IntervalCases
/-!
# Rows of decimal digits

A number that is written with zeros in front has exactly the wanted number of digits, all of them
digits of ASCII, and they write that number.  Whoever reads a row of digits may also come upon digits
of other scripts, which write the same numbers.

## Main definitions

* `CodePoint.ofDigit`: the code point of a digit.
* `Text.row`: the last digits of a number.
* `numberOf`, `digitsOf`: the number of a row of digits, and the last digits of a number.
* `Text.Writes`: a text writes a row of digits, each of them in whatever script.
* `Text.HasAsciiDigits`: the texts with no digits of other scripts.

## Main statements

* `padded_eq_row`: a number that is filled with zeros is the row of its digits.
* `ofDigits_row`: what the row writes.
* `Text.exists_writes`: a text of digits writes some digits.
* `Text.Writes.eq_numeral`: digits have one form in ASCII.
-/
namespace LogRelay

namespace CodePoint

/-- The code point of a digit. -/
def ofDigit (d : Nat) : CodePoint :=
  ofChar d.digitChar

variable {d : Nat}

theorem val_ofDigit (h : d < 10) : (ofDigit d).val = 0x30 + d := by
  interval_cases d <;> rfl

theorem digit?_ofDigit (h : d < 10) : (ofDigit d).digit? = some d := by
  interval_cases d <;> rfl

theorem isDigit_of_digit? {c : CodePoint} (h : c.digit? = some d) : c.isDigit = true := by
  rw [isDigit, h, Option.isSome_some]

theorem isDigit_ofDigit (h : d < 10) : (ofDigit d).isDigit = true :=
  isDigit_of_digit? (digit?_ofDigit h)

theorem asciiDigit?_ofDigit (h : d < 10) : (ofDigit d).asciiDigit? = some d := by
  rw [asciiDigit?, val_ofDigit h, if_pos (by omega), Nat.add_sub_cancel_left]

theorem isAsciiDigit_ofDigit (h : d < 10) : (ofDigit d).isAsciiDigit = true := by
  rw [isAsciiDigit, asciiDigit?_ofDigit h, Option.isSome_some]

theorem eq_ofDigit_of_asciiDigit? {c : CodePoint} (h : c.asciiDigit? = some d) :
    d < 10 ∧ c = ofDigit d := by
  rw [asciiDigit?] at h
  split_ifs at h with hrange
  obtain rfl := Option.some.inj h
  have hlt : c.val - 0x30 < 10 := by omega
  have hval : c.val = (ofDigit (c.val - 0x30)).val := by
    rw [val_ofDigit hlt]
    omega
  exact ⟨hlt, by cases c; exact mk.injEq .. ▸ hval⟩

/-- The digits of a script are those from zero to nine. -/
theorem digit?_lt {c : CodePoint} (h : c.digit? = some d) : d < 10 := by
  obtain ⟨first, hfirst, rfl⟩ := Option.map_eq_some_iff.1 h
  have hrange := List.find?_some (Array.find?_toList .. ▸ hfirst)
  simp only [Bool.and_eq_true, decide_eq_true_eq] at hrange
  omega

/-- In ASCII a digit has one form. -/
theorem eq_ofDigit {c : CodePoint} (hascii : c.isAsciiDigit = true) (h : c.digit? = some d) :
    c = ofDigit d := by
  obtain ⟨e, he⟩ := Option.isSome_iff_exists.1 hascii
  obtain ⟨hlt, rfl⟩ := eq_ofDigit_of_asciiDigit? he
  rw [digit?_ofDigit hlt] at h
  rw [Option.some.inj h]

end CodePoint

/-! ## Digits and numbers -/

/-- The number of a row of digits. -/
def numberOf (ds : List (Fin 10)) : Nat :=
  ofDigits (ds.map Fin.val)

/-- The last digits of a number, so many of them. -/
def digitsOf : (width n : Nat) → List (Fin 10)
  | 0, _ => []
  | width + 1, n => digitsOf width (n / 10) ++ [⟨n % 10, Nat.mod_lt _ (by decide)⟩]

theorem numberOf_append (ds : List (Fin 10)) (d : Fin 10) :
    numberOf (ds ++ [d]) = 10 * numberOf ds + d := by
  simp [numberOf, ofDigits]

@[simp] theorem length_digitsOf (width n : Nat) : (digitsOf width n).length = width := by
  induction width generalizing n with
  | zero => rfl
  | succ width ih => rw [digitsOf, List.length_append, ih, List.length_singleton]

theorem numberOf_lt (ds : List (Fin 10)) : numberOf ds < 10 ^ ds.length := by
  induction ds using List.reverseRecOn with
  | nil => exact Nat.one_pos
  | append_singleton ds d ih =>
      rw [numberOf_append, List.length_append, List.length_singleton, Nat.pow_succ]
      omega

theorem numberOf_digitsOf {width n : Nat} (h : n < 10 ^ width) : numberOf (digitsOf width n) = n := by
  induction width generalizing n with
  | zero =>
      obtain rfl : n = 0 := by simpa using h
      rfl
  | succ width ih =>
      rw [Nat.pow_succ] at h
      rw [digitsOf, numberOf_append, ih (by omega)]
      exact Nat.div_add_mod n 10

theorem digitsOf_numberOf (ds : List (Fin 10)) : digitsOf ds.length (numberOf ds) = ds := by
  induction ds using List.reverseRecOn with
  | nil => rfl
  | append_singleton ds d ih =>
      have hdiv : (10 * numberOf ds + d) / 10 = numberOf ds := by omega
      have hmod : (10 * numberOf ds + d) % 10 = d := by omega
      rw [numberOf_append, List.length_append, List.length_singleton, digitsOf, hdiv, ih]
      congr

namespace Text

open CodePoint

/-- The last digits of a number, so many of them. -/
def row : (width n : Nat) → Text
  | 0, _ => []
  | width + 1, n => row width (n / 10) ++ [ofDigit (n % 10)]

variable {width n : Nat}

@[simp] theorem length_row (width n : Nat) : (row width n).length = width := by
  induction width generalizing n with
  | zero => rfl
  | succ width ih => rw [row, List.length_append, ih, List.length_singleton]

theorem row_two (n : Nat) : row 2 n = [ofDigit (n / 10 % 10), ofDigit (n % 10)] := rfl

theorem row_zero (width : Nat) : row width 0 = List.replicate width (ofChar '0') := by
  induction width with
  | zero => rfl
  | succ width ih =>
      rw [row, Nat.zero_div, ih, List.replicate_succ']
      rfl

/-- A numeral is the numeral of what is left of it, and its last digit. -/
theorem ofNat_eq_if (n : Nat) :
    ofNat n = if n < 10 then [ofDigit n] else ofNat (n / 10) ++ [ofDigit (n % 10)] := by
  rw [ofNat, Nat.toDigits_eq_if (by decide)]
  split
  · rfl
  · rw [List.map_append]
    rfl

/-- A number that is filled with zeros is the row of its digits. -/
theorem padded_eq_row (hw : 0 < width) (h : n < 10 ^ width) : padded width n = row width n := by
  induction width generalizing n with
  | zero => omega
  | succ width ih =>
      rw [padded, row]
      rw [ofNat_eq_if]
      by_cases hn : n < 10
      · simp only [hn, if_true, List.length_singleton, Nat.add_sub_cancel]
        rw [Nat.div_eq_of_lt hn, Nat.mod_eq_of_lt hn, row_zero]
      · simp only [hn, if_false, List.length_append, List.length_singleton]
        have hwidth : 0 < width := by
          rcases Nat.eq_zero_or_pos width with rfl | hpos
          · simp at h
            omega
          · exact hpos
        have hdiv : n / 10 < 10 ^ width := by
          rw [Nat.pow_succ] at h
          omega
        rw [← ih hwidth hdiv, padded, ← List.append_assoc, Nat.add_sub_add_right]

/-- A numeral has no more digits than the number has. -/
theorem length_ofNat_le (hw : 0 < width) (h : n < 10 ^ width) : (ofNat n).length ≤ width := by
  have hlength := congrArg List.length (padded_eq_row hw h)
  rw [padded, List.length_append, List.length_replicate, length_row] at hlength
  omega

/-- A numeral of as many digits as the number has is not filled. -/
theorem ofNat_eq_row (hlow : 10 ^ width ≤ n) (h : n < 10 ^ (width + 1)) :
    ofNat n = row (width + 1) n := by
  induction width generalizing n with
  | zero =>
      rw [ofNat_eq_if, if_pos (by simpa using h), row, Nat.mod_eq_of_lt (by simpa using h)]
      rfl
  | succ width ih =>
      have hten : 10 ≤ 10 ^ (width + 1) := by
        rw [Nat.pow_succ]
        have := Nat.pow_pos (n := width) (by decide : 0 < 10)
        omega
      rw [ofNat_eq_if, if_neg (by omega), row, ih]
      · rw [Nat.pow_succ] at hlow
        omega
      · rw [Nat.pow_succ] at h
        omega

/-! ## Digits of every script -/

/-- The digits as they are written in ASCII. -/
def numeral (ds : List (Fin 10)) : Text :=
  ds.map fun d => ofDigit d.val

theorem row_eq_numeral (width n : Nat) : row width n = numeral (digitsOf width n) := by
  induction width generalizing n with
  | zero => rfl
  | succ width ih =>
      rw [row, digitsOf, ih]
      simp [numeral]

/-- The text writes these digits, each of them in whatever script. -/
def Writes (ds : List (Fin 10)) (t : Text) : Prop :=
  t.map digit? = ds.map fun d => some d.val

variable {ds : List (Fin 10)} {t : Text}

/-- Such digits as the text has are digits of ASCII. -/
def HasAsciiDigits (t : Text) : Prop :=
  ∀ c ∈ t, c.isDigit = true → c.isAsciiDigit = true

instance (t : Text) : Decidable t.HasAsciiDigits :=
  inferInstanceAs (Decidable (∀ c ∈ t, c.isDigit = true → c.isAsciiDigit = true))

theorem hasAsciiDigits_append {u : Text} :
    (t ++ u).HasAsciiDigits ↔ t.HasAsciiDigits ∧ u.HasAsciiDigits :=
  List.forall_mem_append

theorem hasAsciiDigits_cons {c : CodePoint} : HasAsciiDigits (c :: t) ↔
    (c.isDigit = true → c.isAsciiDigit = true) ∧ t.HasAsciiDigits :=
  List.forall_mem_cons

theorem writes_numeral (ds : List (Fin 10)) : Writes ds (numeral ds) := by
  rw [Writes, numeral, List.map_map]
  apply List.map_congr_left
  intro d _
  exact digit?_ofDigit d.isLt

theorem writes_row (width n : Nat) : Writes (digitsOf width n) (row width n) :=
  row_eq_numeral width n ▸ writes_numeral _

/-- A text of digits writes some digits. -/
theorem exists_writes (h : t.all isDigit = true) : ∃ ds, Writes ds t := by
  induction t with
  | nil => exact ⟨[], rfl⟩
  | cons c t ih =>
      rw [List.all_cons, Bool.and_eq_true] at h
      obtain ⟨d, hd⟩ := Option.isSome_iff_exists.1 h.1
      obtain ⟨ds, hds⟩ := ih h.2
      refine ⟨⟨d, digit?_lt hd⟩ :: ds, ?_⟩
      rw [Writes, List.map_cons, List.map_cons, hd, hds]

namespace Writes

theorem length (h : Writes ds t) : t.length = ds.length := by
  simpa using congrArg List.length h

theorem all_isDigit (h : Writes ds t) : t.all isDigit = true := by
  rw [List.all_eq_true]
  intro c hc
  have hmem : c.digit? ∈ ds.map fun d => some d.val := h ▸ List.mem_map_of_mem hc
  obtain ⟨d, -, hd⟩ := List.mem_map.1 hmem
  exact isDigit_of_digit? hd.symm

theorem filterMap (h : Writes ds t) : t.filterMap digit? = ds.map Fin.val := by
  have hid : t.filterMap digit? = (t.map digit?).filterMap id := by
    rw [List.filterMap_map]
    rfl
  rw [hid, h, List.filterMap_map, ← List.filterMap_eq_map]
  rfl

/-- In ASCII digits have one form. -/
theorem eq_numeral (h : Writes ds t) (hascii : t.HasAsciiDigits) : t = numeral ds := by
  induction t generalizing ds with
  | nil =>
      obtain rfl : ds = [] := by simpa [Writes] using h
      rfl
  | cons c t ih =>
      cases ds with
      | nil => cases h
      | cons d ds =>
          obtain ⟨hc, ht⟩ := List.cons.inj h
          obtain ⟨hfirst, hrest⟩ := hasAsciiDigits_cons.1 hascii
          rw [numeral, List.map_cons, eq_ofDigit (hfirst (isDigit_of_digit? hc)) hc, ih ht hrest, numeral]

end Writes

/-- A row writes the number again. -/
theorem ofDigits_row (h : n < 10 ^ width) : ofDigits ((row width n).filterMap digit?) = n := by
  rw [(writes_row width n).filterMap]
  exact numberOf_digitsOf h

theorem row_inj {m : Nat} (hn : n < 10 ^ width) (hm : m < 10 ^ width) :
    row width n = row width m ↔ n = m := by
  constructor
  · intro h
    rw [← ofDigits_row hn, h, ofDigits_row hm]
  · exact fun h => h ▸ rfl

end Text

end LogRelay
