import LogRelay.Calendar.Date
import Mathlib.Algebra.BigOperators.Intervals
import Mathlib.Algebra.BigOperators.Ring.Finset
import Mathlib.Tactic.IntervalCases
/-!
# Days and dates

The date of a day is one of the calendar, and the day of that date is the day again.  The number of a
day is what comes out when the lengths of the years and months in front of it are added up.

## Main definitions

* `yearLength`
* `daysFromEpoch`: the days from the first of January 1970, forwards or backwards.

## Main statements

* `daysBeforeYear_yearOf_le`, `lt_daysBeforeYear_yearOf`: a day lies in its year.
* `dayNumber_ofDayNumber`: the date of a day names that day.
* `isReal_ofDayNumber`: it stands in the calendar up to the year 9999.
* `daysFromEpoch_eq`: counting gives the number of the day.
-/
namespace LogRelay.Date

/-! ## Years -/

/-- A year is as long as its months. -/
theorem sum_monthLengths (year : Nat) :
    (monthLengths year).sum = if isLeapYear year then 366 else 365 := by
  cases h : isLeapYear year <;> simp [monthLengths, h]

theorem daysBeforeYear_succ {year : Nat} (h : 1 ≤ year) :
    daysBeforeYear (year + 1) = daysBeforeYear year + (monthLengths year).sum := by
  obtain ⟨y, rfl⟩ := Nat.exists_eq_add_of_le' h
  rw [sum_monthLengths]
  simp only [daysBeforeYear, isLeapYear, Nat.add_sub_cancel]
  have h4 := Nat.succ_div (a := y) (b := 4)
  have h100 := Nat.succ_div (a := y) (b := 100)
  have h400 := Nat.succ_div (a := y) (b := 400)
  simp only [Nat.dvd_iff_mod_eq_zero] at h4 h100 h400
  by_cases d4 : (y + 1) % 4 = 0
  · by_cases d100 : (y + 1) % 100 = 0
    · by_cases d400 : (y + 1) % 400 = 0
      · simp only [d4, d100, d400, if_true] at h4 h100 h400
        simp only [d4, d400, decide_true, or_true, and_self, if_true]
        omega
      · simp only [d4, d100, d400, if_true, if_false] at h4 h100 h400
        simp only [d4, d100, d400, ne_eq, not_true_eq_false, or_self, and_false, decide_false,
          Bool.false_eq_true, if_false]
        omega
    · have d400 : ¬ (y + 1) % 400 = 0 := by omega
      simp only [d4, d100, d400, if_true, if_false] at h4 h100 h400
      simp only [d4, d100, ne_eq, not_false_eq_true, true_or, and_self, decide_true, if_true]
      omega
  · have d100 : ¬ (y + 1) % 100 = 0 := by omega
    have d400 : ¬ (y + 1) % 400 = 0 := by omega
    simp only [d4, d100, d400, if_false] at h4 h100 h400
    simp only [d4, false_and, decide_false, Bool.false_eq_true, if_false]
    omega

/-- Each year has days. -/
theorem daysBeforeYear_mono {a b : Nat} (h : a ≤ b) : daysBeforeYear a ≤ daysBeforeYear b := by
  rcases Nat.eq_or_lt_of_le h with rfl | hlt
  · exact Nat.le_refl _
  · simp only [daysBeforeYear]
    omega

theorem one_le_yearOf (n : Nat) : 1 ≤ yearOf n := by
  simp only [yearOf]
  split
  · rename_i h
    simp only [daysBeforeYear] at h
    omega
  · split <;> omega

/-- A day does not lie in front of its year. -/
theorem daysBeforeYear_yearOf_le (n : Nat) : daysBeforeYear (yearOf n) ≤ n := by
  simp only [yearOf]
  split
  · simp only [daysBeforeYear] at *
    omega
  · split <;> omega

/-- A day does not lie behind its year. -/
theorem lt_daysBeforeYear_yearOf (n : Nat) : n < daysBeforeYear (yearOf n + 1) := by
  simp only [yearOf]
  split
  · rename_i h
    have : 1 ≤ n * 400 / 146097 := by
      simp only [daysBeforeYear] at h
      omega
    rwa [Nat.add_sub_cancel]
  · split
    · simp only [daysBeforeYear] at *
      omega
    · omega

/-- A day lies in no year behind its own. -/
theorem yearOf_le {n year : Nat} (h : n < daysBeforeYear (year + 1)) : yearOf n ≤ year := by
  have hle := daysBeforeYear_yearOf_le n
  by_contra hlt
  have := daysBeforeYear_mono (by omega : year + 1 ≤ yearOf n)
  omega

/-- A day lies in no year in front of its own. -/
theorem le_yearOf {n year : Nat} (h : daysBeforeYear year ≤ n) : year ≤ yearOf n := by
  have hlt := lt_daysBeforeYear_yearOf n
  by_contra hgt
  have := daysBeforeYear_mono (by omega : yearOf n + 1 ≤ year)
  omega

/-! ## Months -/

/-- A day of the year lies in the month that it is found in. -/
theorem splitMonths_eq (month : Nat) {lengths : List Nat} {n : Nat} (h : n < lengths.sum) :
    ∃ k day, splitMonths month lengths n = (month + k, day + 1) ∧
      ∃ hk : k < lengths.length, day < lengths[k] ∧ (lengths.take k).sum + day = n := by
  induction lengths generalizing month n with
  | nil => simp at h
  | cons length lengths ih =>
      rw [List.sum_cons] at h
      rw [splitMonths]
      by_cases hn : n < length
      · exact ⟨0, n, if_pos hn, by simp, by simpa using hn, by simp⟩
      · obtain ⟨k, day, heq, hk, hday, hsum⟩ := ih (month + 1) (n := n - length) (by omega)
        refine ⟨k + 1, day, ?_, by simpa using hk, by simpa using hday, ?_⟩
        · rw [if_neg hn, heq, Nat.add_assoc, Nat.add_comm 1 k]
        · rw [List.take_succ_cons, List.sum_cons]
          omega

/-- No month is longer than 31 days. -/
theorem monthLength_le (year month : Nat) : monthLength year month ≤ 31 := by
  rw [monthLength]
  split
  · exact Nat.zero_le _
  · cases h : (monthLengths year)[month - 1]? with
    | none => exact Nat.zero_le _
    | some length =>
        have hmem := List.mem_of_getElem? h
        simp only [monthLengths, List.mem_cons, List.not_mem_nil, or_false] at hmem
        rw [Option.getD_some]
        split at hmem <;> omega

/-! ## Dates -/

/-- The numbers of a date of the calendar. -/
theorem bounds_of_isReal {d : Date} (h : d.isReal = true) :
    (1 ≤ d.year ∧ d.year < 10 ^ 4) ∧ (1 ≤ d.month ∧ d.month ≤ 12) ∧ 1 ≤ d.day ∧ d.day ≤ 31 := by
  have hle := monthLength_le d.year d.month
  simp only [isReal, decide_eq_true_eq] at h
  omega

/-- The date of a day: its year, its month and its day are those in which it lies. -/
theorem ofDayNumber_eq (n : Nat) :
    ∃ k day, ofDayNumber n = ⟨yearOf n, 1 + k, day + 1⟩ ∧ k < 12 ∧
      day < monthLength (yearOf n) (1 + k) ∧
      daysBeforeYear (yearOf n) + ((monthLengths (yearOf n)).take k).sum + day = n := by
  have hle := daysBeforeYear_yearOf_le n
  have hlt := lt_daysBeforeYear_yearOf n
  rw [daysBeforeYear_succ (one_le_yearOf n)] at hlt
  obtain ⟨k, day, hsplit, hk, hday, hsum⟩ :=
    splitMonths_eq 1 (by omega : n - daysBeforeYear (yearOf n) < (monthLengths (yearOf n)).sum)
  refine ⟨k, day, ?_, by simpa [monthLengths] using hk, ?_, by omega⟩
  · rw [ofDayNumber, hsplit]
  · rw [monthLength, if_neg (by omega), Nat.add_sub_cancel_left, List.getElem?_eq_getElem hk]
    exact hday

/-- The date of a day names that day. -/
theorem dayNumber_ofDayNumber (n : Nat) : (ofDayNumber n).dayNumber = n := by
  obtain ⟨k, day, heq, -, -, hsum⟩ := ofDayNumber_eq n
  rw [heq, dayNumber, daysBeforeMonth, Nat.add_sub_cancel_left, Nat.add_sub_cancel,
    ← List.sum_eq_foldl]
  exact hsum

/-- The date of a day stands in the calendar up to the year 9999. -/
theorem isReal_ofDayNumber {n : Nat} (h : n < daysBeforeYear 10000) :
    (ofDayNumber n).isReal = true := by
  obtain ⟨k, day, heq, hk, hday, -⟩ := ofDayNumber_eq n
  have hone := one_le_yearOf n
  have hyear : yearOf n ≤ 9999 := yearOf_le h
  rw [heq]
  simp only [isReal, decide_eq_true_eq]
  omega

/-! ## Counting -/

/-- The days of a year. -/
def yearLength (year : Nat) : Nat :=
  if isLeapYear year then 366 else 365

/-- The days from the first of January 1970 to a date: those of the years from 1970 on, or less those of
the years up to 1970, and then those of the months and days of its own year. -/
def daysFromEpoch (d : Date) : Int :=
  ∑ year ∈ Finset.Ico 1970 d.year, (yearLength year : Int)
    - ∑ year ∈ Finset.Ico d.year 1970, (yearLength year : Int)
    + ∑ month ∈ Finset.Ico 1 d.month, (monthLength d.year month : Int) + (d.day - 1)

/-- Between two years lie the days of the years from the one to the other. -/
theorem daysBeforeYear_add_sum {a b : Nat} (ha : 1 ≤ a) (h : a ≤ b) :
    daysBeforeYear a + ∑ year ∈ Finset.Ico a b, yearLength year = daysBeforeYear b := by
  induction b, h using Nat.le_induction with
  | base => simp
  | succ b hab ih =>
      rw [Finset.sum_Ico_succ_top hab, ← Nat.add_assoc, ih, daysBeforeYear_succ (ha.trans hab),
        sum_monthLengths, yearLength]

theorem daysBeforeMonth_succ {year month : Nat} (h : 1 ≤ month) :
    daysBeforeMonth year (month + 1) = daysBeforeMonth year month + monthLength year month := by
  obtain ⟨k, rfl⟩ := Nat.exists_eq_add_of_le' h
  simp only [daysBeforeMonth, monthLength, Nat.add_sub_cancel, ← List.sum_eq_foldl,
    if_neg (Nat.succ_ne_zero k), List.take_add_one, List.sum_append]
  cases (monthLengths year)[k]? <;> simp

theorem daysBeforeMonth_eq_sum {year month : Nat} (h : 1 ≤ month) :
    daysBeforeMonth year month = ∑ m ∈ Finset.Ico 1 month, monthLength year m := by
  induction month, h using Nat.le_induction with
  | base => rfl
  | succ month hmonth ih => rw [daysBeforeMonth_succ hmonth, ih, Finset.sum_Ico_succ_top hmonth]

/-- Counting gives the number of the day, from that of the first of January 1970. -/
theorem daysFromEpoch_eq {d : Date} (h : d.isReal = true) :
    d.daysFromEpoch = (d.dayNumber : Int) - epochDay := by
  obtain ⟨⟨hyear, -⟩, ⟨hmonth, -⟩, hday, -⟩ := bounds_of_isReal h
  have hmonths : (daysBeforeMonth d.year d.month : Int) =
      ∑ month ∈ Finset.Ico 1 d.month, (monthLength d.year month : Int) := by
    exact_mod_cast (daysBeforeMonth_eq_sum hmonth : daysBeforeMonth d.year d.month = _)
  have hepoch : daysBeforeYear 1970 = epochDay := rfl
  rw [daysFromEpoch, dayNumber]
  rcases Nat.le_total 1970 d.year with hle | hle
  · have hyears : (epochDay : Int) + ∑ year ∈ Finset.Ico 1970 d.year, (yearLength year : Int) =
        daysBeforeYear d.year := by
      exact_mod_cast hepoch ▸ daysBeforeYear_add_sum (by decide) hle
    rw [Finset.Ico_eq_empty_of_le hle, Finset.sum_empty]
    omega
  · have hyears : (daysBeforeYear d.year : Int) +
        ∑ year ∈ Finset.Ico d.year 1970, (yearLength year : Int) = epochDay := by
      exact_mod_cast hepoch ▸ daysBeforeYear_add_sum hyear hle
    rw [Finset.Ico_eq_empty_of_le hle, Finset.sum_empty]
    omega

/-- Of the seventy years up to 1970 that start with 1900, seventeen are leap years, but not 1900. -/
example : daysFromEpoch ⟨1900, 3, 1⟩ = -(70 * 365 + 17) + 31 + 28 := by
  decide +kernel

end LogRelay.Date
