import LogRelay.Proofs.Calendar.Stamp
/-!
# Which texts are timestamps

The texts that should be read are those in the form of RFC 3339: the texts of stamps whose clock was set as
a clock can be set.  They are all read.  Some other texts are read too, namely the spellings of stamps with
digits of other scripts, with a line feed behind them, or with an offset of more than 23 hours or 59
minutes.  No other text is.

## Main definitions

* `IsRfc3339`: the texts that should be read.
* `IsTolerated`: the other texts that are read.

## Main statements

* `Spelling.Of.eq_plain`: a stamp has one spelling in ASCII with nothing behind it.
* `accepted_iff`: which texts are read.
-/
namespace LogRelay.Timestamp

open CodePoint Text

variable {s s' : Stamp} {p : Spelling} {t : Text}

/-- Hours and minutes that a clock can show. -/
def Zone.IsUsual : Zone → Prop
  | universal => True
  | offset _ hours minutes => hours.val ≤ 23 ∧ minutes.val ≤ 59

instance (z : Zone) : Decidable z.IsUsual :=
  match z with
  | .universal => .isTrue trivial
  | .offset _ hours minutes => inferInstanceAs (Decidable (hours.val ≤ 23 ∧ minutes.val ≤ 59))

/-- The texts in the form of RFC 3339. -/
def IsRfc3339 (t : Text) : Prop :=
  ∃ s : Stamp, s.zone.IsUsual ∧ s.text = t

/-- The spellings with an offset that no clock shows, with a digit of another script, or with a line feed
behind them. -/
def IsTolerated (t : Text) : Prop :=
  ∃ (s : Stamp) (p : Spelling), p.Of s ∧ p.text = t ∧
    (¬ s.zone.IsUsual ∨ ¬ t.HasAsciiDigits ∨ p.ending ≠ [])

/-! ## Spellings in ASCII -/

theorem WritesFraction.eq_fractionText {ds : List (Fin 10)} (h : WritesFraction ds t)
    (hascii : t.HasAsciiDigits) : t = fractionText ds := by
  rw [WritesFraction] at h
  rw [fractionText]
  split_ifs at h ⊢ with hnil
  · exact h
  · obtain ⟨row, rfl, hrow⟩ := h
    rw [hrow.eq_numeral (hasAsciiDigits_cons.1 hascii).2]

theorem Zone.IsWrittenBy.eq_text {z : Zone} (h : z.IsWrittenBy t) (hascii : t.HasAsciiDigits) :
    t = z.text := by
  cases z with
  | universal => exact h
  | offset isBehind hours minutes =>
      obtain ⟨first, second, rfl, hfirst, hsecond⟩ := h
      simp only [hasAsciiDigits_cons, hasAsciiDigits_append] at hascii
      rw [text, row_eq_numeral, row_eq_numeral, hfirst.eq_numeral hascii.2.1,
        hsecond.eq_numeral hascii.2.2.2]

/-- A stamp has one spelling in ASCII with nothing behind it. -/
theorem Spelling.Of.eq_plain (h : p.Of s) (hascii : p.text.HasAsciiDigits) (hend : p.ending = []) :
    p = s.plain := by
  obtain ⟨-, ⟨-, hmonth⟩, -, hday⟩ := Date.bounds_of_isReal s.isReal
  simp only [Spelling.text, hasAsciiDigits_append, hasAsciiDigits_cons] at hascii
  obtain ⟨hyear, -, hmonths, -, hdays, -, hhours, -, hminutes, -, hseconds, hfraction, hzone, -⟩ :=
    hascii
  cases p
  simp only [Stamp.plain, Spelling.mk.injEq, row_eq_numeral 4]
  exact ⟨h.year.eq_numeral hyear, h.month.eq_row (by omega) hmonths, h.day.eq_row (by omega) hdays,
    h.hour.eq_row (by omega) hhours, h.minute.eq_row (by omega) hminutes,
    h.second.eq_row (by omega) hseconds, h.fraction.eq_fractionText hfraction,
    h.zone.eq_text hzone, hend⟩

/-! ## The texts of stamps -/

theorem hasAsciiDigits_text (s : Stamp) : s.text.HasAsciiDigits := by
  have hmarks : ∀ c ∈ marks, c.isDigit = false := by decide
  intro c hc hdigit
  rcases s.isMarked_text c hc with h | h
  · exact h
  · rw [hmarks c h] at hdigit
    cases hdigit

theorem lineFeed_notMem_text (s : Stamp) : ofChar '\n' ∉ s.text := by
  intro h
  rcases s.isMarked_text _ h with hdigit | hmark
  · cases hdigit
  · revert hmark
    decide

/-- An offset ends in a digit, and universal time does not. -/
theorem Zone.map_isDigit_getLast? (front : Text) (z : Zone) :
    (front ++ z.text).getLast?.map isDigit = some (decide (z ≠ universal)) := by
  cases z with
  | universal =>
      rw [text, List.getLast?_concat]
      rfl
  | offset isBehind hours minutes =>
      have hdigit := isDigit_ofDigit (Nat.mod_lt minutes.val (by decide : 0 < 10))
      simp [text, row_two, hdigit]

theorem Zone.sign_inj {isBehind isBehind' : Bool} (h : sign isBehind = sign isBehind') :
    isBehind = isBehind' := by
  revert h
  cases isBehind <;> cases isBehind' <;> decide

/-- Texts that are equal end in the same zone. -/
theorem zone_eq_of_append {z z' : Zone} {front front' : Text}
    (h : front ++ z.text = front' ++ z'.text) : z = z' := by
  have hkind : decide (z ≠ .universal) = decide (z' ≠ .universal) := by
    have hlast := Zone.map_isDigit_getLast? front z
    rw [h, Zone.map_isDigit_getLast?] at hlast
    exact (Option.some.inj hlast).symm
  cases z with
  | universal =>
      cases z' with
      | universal => rfl
      | offset isBehind hours minutes => cases hkind
  | offset isBehind hours minutes =>
      cases z' with
      | universal => cases hkind
      | offset isBehind' hours' minutes' =>
          obtain ⟨-, hzone⟩ := List.append_inj' h (by simp [Zone.text])
          obtain ⟨hsign, hrest⟩ := List.cons.inj hzone
          obtain ⟨hhours, hminutes⟩ := List.append_inj hrest (by simp)
          rw [row_inj hours.isLt hours'.isLt, Fin.val_inj] at hhours
          rw [List.cons.injEq, row_inj minutes.isLt minutes'.isLt, Fin.val_inj] at hminutes
          rw [Zone.sign_inj hsign, hhours, hminutes.2]

/-- What should be read is not among what is tolerated. -/
theorem not_isTolerated_of_isRfc3339 (h : IsRfc3339 t) : ¬ IsTolerated t := by
  obtain ⟨s, hs, rfl⟩ := h
  rintro ⟨s', p, hp, htext, hodd⟩
  have hascii := hasAsciiDigits_text s
  have hend : p.ending = [] := by
    rcases hp.ending with hend | hend
    · exact hend
    · refine absurd ?_ (lineFeed_notMem_text s)
      rw [← htext, Spelling.text, hend]
      simp
  obtain rfl := hp.eq_plain (htext ▸ hascii) hend
  have hzone : s'.zone = s.zone := by
    simp only [Stamp.text, Stamp.plain, Spelling.text, List.append_nil, ← List.cons_append,
      ← List.append_assoc] at htext
    exact zone_eq_of_append htext
  rcases hodd with hodd | hodd | hodd
  · exact hodd (hzone ▸ hs)
  · exact hodd hascii
  · exact hodd hend

/-- **A text is read just if it is in the form of RFC 3339 or is one of those that are tolerated.**  It is
never both.  If it is neither, it is refused as a timestamp. -/
theorem accepted_iff (t : Text) :
    ((∃ time, readTimestamp t = .ok time) ↔ IsRfc3339 t ∨ IsTolerated t) ∧
      ¬ (IsRfc3339 t ∧ IsTolerated t) ∧
        ((∃ time, readTimestamp t = .ok time) ∨ readTimestamp t = .error (.badTimestamp t.quoted)) := by
  refine ⟨⟨?_, ?_⟩, fun h => not_isTolerated_of_isRfc3339 h.1 h.2, ?_⟩
  · rintro ⟨time, h⟩
    obtain ⟨s, p, hp, rfl, -⟩ := parse?_eq_some_iff.1 (readTimestamp_eq_ok_iff.1 h)
    by_cases hodd : ¬ s.zone.IsUsual ∨ ¬ p.text.HasAsciiDigits ∨ p.ending ≠ []
    · exact .inr ⟨s, p, hp, rfl, hodd⟩
    · push Not at hodd
      obtain ⟨husual, hascii, hend⟩ := hodd
      obtain rfl := hp.eq_plain hascii hend
      exact .inl ⟨s, husual, rfl⟩
  · rintro (⟨s, -, rfl⟩ | ⟨s, p, hp, rfl, -⟩)
    · exact ⟨_, readTimestamp_text s⟩
    · exact ⟨_, readTimestamp_eq_ok_iff.2 (parse?_of_spells hp)⟩
  · rw [readTimestamp]
    cases parse? t with
    | none => exact .inr rfl
    | some time => exact .inl ⟨time, rfl⟩

/-- The start of the year 1970 with a line feed behind it, with a wide zero as its last digit, and by a
clock that is ahead by 99 hours and 99 minutes. -/
example : parse? "1970-01-01T00:00:00Z\n" = some 0 ∧ parse? "1970-01-01T00:00:0０Z" = some 0 ∧
    parse? "1970-01-01T00:00:00+99:99" = some (-362340 * 10 ^ 9) := by
  decide +kernel

end LogRelay.Timestamp
