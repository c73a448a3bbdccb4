import LogRelay.Proofs.Calendar.Stamp
import LogRelay.Proofs.Text.Encoding
/-!
# Timestamps are read back

Every instant of 64 bits has a text, which is that of a stamp in universal time with nine digits behind the
point, and that text names the instant.  Instants of other years have a text from the year 1 to the year
9999, but since the year is not filled with zeros it is read only from the year 1000 on.

## Main definitions

* `Stamp.IsUniversal`, `Stamp.ofDay`: the stamps that are written.

## Main statements

* `format_eq_ok_iff`: which instants have a text.
* `exists_stamp_format`: the text of an instant in a year of four digits.
* `exists_format`: an instant of 64 bits has a text, which names it and is in ASCII.
* `format_reads_back`: which instants are read back from their text.
-/
namespace LogRelay.Timestamp

open CodePoint Text

variable {s : Stamp} {t : Text} {time seconds : Int} {nanos : Nat}

/-- Universal time, with nine digits behind the point. -/
structure Stamp.IsUniversal (s : Stamp) : Prop where
  zone : s.zone = .universal
  fraction : s.fraction.length = 9

/-- The text of a stamp is in ASCII. -/
theorem hasSurrogate_text (s : Stamp) : s.text.hasSurrogate = false := by
  have hmarks : ∀ c ∈ marks, c.val < 0x80 := by decide
  apply Utf8.hasSurrogate_of_ascii
  intro c hc
  rcases s.isMarked_text c hc with hdigit | hmark
  · obtain ⟨d, hd⟩ := Option.isSome_iff_exists.1 hdigit
    obtain ⟨hlt, rfl⟩ := eq_ofDigit_of_asciiDigit? hd
    rw [val_ofDigit hlt]
    omega
  · exact hmarks c hmark

/-! ## What is written -/

/-- The stamp in universal time of a second of a day, with nine digits for the nanoseconds. -/
def Stamp.ofDay (d : Date) (h : d.isReal = true) (second : Fin 86400) (nanos : Nat) : Stamp where
  date := d
  isReal := h
  hour := ⟨second.val / 3600, by omega⟩
  minute := ⟨second.val / 60 % 60, by omega⟩
  second := ⟨second.val % 60, by omega⟩
  fraction := digitsOf 9 nanos
  length_fraction := (length_digitsOf 9 nanos).le
  zone := .universal

section

variable {d : Date} (h : d.isReal = true) (second : Fin 86400)

theorem Stamp.isUniversal_ofDay (nanos : Nat) : (ofDay d h second nanos).IsUniversal :=
  ⟨rfl, length_digitsOf 9 nanos⟩

theorem Stamp.instant_ofDay (hn : nanos < 10 ^ 9) : (ofDay d h second nanos).instant =
    (((d.dayNumber : Int) - epochDay) * 86400 + second.val) * nanosPerSecond + nanos := by
  have hnanos : nanosOf (digitsOf 9 nanos) = nanos := by
    rw [nanosOf, length_digitsOf, numberOf_digitsOf hn, Nat.sub_self, Nat.pow_zero, Nat.mul_one]
  have htime : second.val / 3600 * 3600 + second.val / 60 % 60 * 60 + second.val % 60 = second.val := by
    omega
  rw [instant_eq]
  simp only [ofDay, Zone.seconds, Int.sub_zero, hnanos, htime]

/-- Its text, as it is put together from numerals.  The year is not filled with zeros. -/
theorem Stamp.text_ofDay (hyear : 1000 ≤ d.year) (hn : nanos < 10 ^ 9) :
    (ofDay d h second nanos).text =
      Text.ofNat d.year ++ "-" ++ Text.padded 2 d.month ++ "-" ++ Text.padded 2 d.day ++ "T"
        ++ Text.padded 2 (second.val / 3600) ++ ":" ++ Text.padded 2 (second.val / 60 % 60) ++ ":"
        ++ Text.padded 2 (second.val % 60) ++ "." ++ Text.padded 9 nanos ++ "Z" := by
  obtain ⟨⟨-, hyear'⟩, ⟨-, hmonth⟩, -, hday⟩ := Date.bounds_of_isReal h
  have hfraction : fractionText (digitsOf 9 nanos) = ofChar '.' :: Text.row 9 nanos := by
    rw [fractionText, if_neg, row_eq_numeral]
    intro hnil
    simpa [hnil] using length_digitsOf 9 nanos
  rw [ofNat_eq_row (by omega : 10 ^ 3 ≤ d.year) hyear', padded_eq_row (by decide) (by omega),
    padded_eq_row (by decide) (by omega), padded_eq_row (by decide) (by omega),
    padded_eq_row (by decide) (by omega), padded_eq_row (by decide) (by omega),
    padded_eq_row (by decide) hn]
  simp only [text, plain, ofDay, Spelling.text, Zone.text, hfraction, List.append_assoc]
  rfl

end

/-- What is written is the text of a stamp, if the year has four digits. -/
theorem exists_stamp_render (hn : nanos < 10 ^ 9)
    (h₁ : (Date.daysBeforeYear 1000 : Int) ≤ seconds / 86400 + epochDay)
    (h₂ : seconds / 86400 + epochDay < Date.daysBeforeYear 10000) :
    ∃ s : Stamp, s.IsUniversal ∧ s.instant = seconds * nanosPerSecond + nanos ∧
      render seconds nanos = s.text := by
  have hreal := Date.isReal_ofDayNumber
    (by omega : (seconds / 86400 + epochDay).toNat < Date.daysBeforeYear 10000)
  have hyear : 1000 ≤ (Date.ofDayNumber (seconds / 86400 + epochDay).toNat).year :=
    Date.le_yearOf (by omega)
  have hsecond : (seconds % 86400).toNat < 86400 := by omega
  refine ⟨.ofDay _ hreal ⟨_, hsecond⟩ nanos, Stamp.isUniversal_ofDay .., ?_, ?_⟩
  · have hseconds : (((seconds / 86400 + epochDay).toNat : Int) - epochDay) * 86400
        + ((seconds % 86400).toNat : Int) = seconds := by omega
    rw [Stamp.instant_ofDay hreal _ hn, Date.dayNumber_ofDayNumber, hseconds]
  · rw [render, Int.fdiv_eq_ediv_of_nonneg _ (by decide), Int.fmod_eq_emod_of_nonneg _ (by decide),
      Stamp.text_ofDay hreal _ hyear hn]

/-- A mark among the first code points is not read as a digit. -/
theorem digits?_eq_none {n : Nat} {front rest : Text} {c : CodePoint} (h : front.length < n)
    (hc : c.isDigit = false) : digits? n (front ++ c :: rest) = none := by
  rw [Option.eq_none_iff_forall_ne_some]
  rintro ⟨row, behind⟩ hsome
  obtain ⟨happend, rfl, hall⟩ := digits?_eq_some_iff.1 hsome
  have hmem : c ∈ row := by
    rcases List.append_eq_append_iff.1 happend with ⟨more, rfl, hmore⟩ | ⟨more, rfl, -⟩
    · cases more with
      | nil => simp at h
      | cons d more =>
          obtain ⟨rfl, -⟩ := List.cons.inj hmore
          simp
    · rw [List.length_append] at h
      omega
  rw [List.all_eq_true.1 hall c hmem] at hc
  cases hc

/-- The numeral of a year below 1000 is not filled, so what is written is not read. -/
theorem parse?_render_eq_none (h : seconds / 86400 + epochDay < Date.daysBeforeYear 1000) :
    parse? (render seconds nanos) = none := by
  have hday : (seconds / 86400 + epochDay).toNat < Date.daysBeforeYear 1000 := by
    have hpos : 0 < Date.daysBeforeYear 1000 := by decide
    omega
  obtain ⟨k, day, hdate, -⟩ := Date.ofDayNumber_eq (seconds / 86400 + epochDay).toNat
  have hyear : Date.yearOf (seconds / 86400 + epochDay).toNat ≤ 999 := Date.yearOf_le hday
  have hlength : (Text.ofNat (Date.yearOf (seconds / 86400 + epochDay).toNat)).length ≤ 3 :=
    length_ofNat_le (by decide) (by omega)
  rw [render, Int.fdiv_eq_ediv_of_nonneg _ (by decide), hdate]
  simp only [List.append_assoc]
  have hmark (rest : Text) : ("-" : Text) ++ rest = ofChar '-' :: rest := rfl
  rw [hmark, parse?, digits?_eq_none (by omega) (by decide)]
  rfl

/-! ## Which instants have a text -/

theorem format_eq_ok_iff : format time = .ok t ↔
    firstSecond ≤ time / nanosPerSecond ∧ time / nanosPerSecond ≤ lastSecond ∧
      render (time / nanosPerSecond) (time % nanosPerSecond).toNat = t := by
  have hfirst : firstSecond = -62135596800 := rfl
  have hlast : lastSecond = 253402300799 := rfl
  rw [format, Int.fdiv_eq_ediv_of_nonneg _ (by decide), Int.fmod_eq_emod_of_nonneg _ (by decide)]
  split_ifs with h₁ h₂ h₃
  · simp only [false_iff]
    omega
  · simp only [false_iff]
    omega
  · simp only [false_iff]
    omega
  · rw [Except.ok.injEq]
    exact ⟨fun h => ⟨by omega, by omega, h⟩, fun h => h.2.2⟩

/-! ## Reading back -/

/-- The first instant of the year 1000, in nanoseconds. -/
def firstReadable : Int := -30610224000 * 10 ^ 9

/-- The last instant of the year 9999, in nanoseconds. -/
def lastReadable : Int := 253402300800 * 10 ^ 9 - 1

/-- The text of an instant in a year of four digits is that of a stamp which has this instant. -/
theorem exists_stamp_format (h₁ : firstReadable ≤ time) (h₂ : time ≤ lastReadable) :
    ∃ s : Stamp, s.IsUniversal ∧ s.instant = time ∧ format time = .ok s.text := by
  have hfirst : (Date.daysBeforeYear 1000 : Int) ≤ time / nanosPerSecond / 86400 + epochDay := by
    have hdays : Date.daysBeforeYear 1000 = 364877 := rfl
    simp only [firstReadable, nanosPerSecond, epochDay, hdays] at *
    omega
  have hlast : time / nanosPerSecond / 86400 + epochDay < Date.daysBeforeYear 10000 := by
    have hdays : Date.daysBeforeYear 10000 = 3652059 := rfl
    simp only [lastReadable, nanosPerSecond, epochDay, hdays] at *
    omega
  have hnanos : (time % nanosPerSecond).toNat < 10 ^ 9 := by
    simp only [nanosPerSecond]
    omega
  obtain ⟨s, hs, hinstant, hrender⟩ := exists_stamp_render hnanos hfirst hlast
  refine ⟨s, hs, ?_, format_eq_ok_iff.2 ⟨?_, ?_, hrender⟩⟩
  · rw [hinstant]
    simp only [nanosPerSecond]
    omega
  · simp only [firstReadable, firstSecond, nanosPerSecond] at *
    omega
  · simp only [lastReadable, lastSecond, nanosPerSecond] at *
    omega

/-- Every instant of 64 bits has a text, which names it and is in ASCII. -/
theorem exists_format (h₁ : -0x8000000000000000 ≤ time) (h₂ : time < 0x8000000000000000) :
    ∃ t, format time = .ok t ∧ parse? t = some time ∧ t.hasSurrogate = false := by
  obtain ⟨s, -, rfl, hformat⟩ := exists_stamp_format (by rw [firstReadable]; omega : _ ≤ time)
    (by rw [lastReadable]; omega)
  exact ⟨s.text, hformat, parse?_of_spells s.of_plain, hasSurrogate_text s⟩

/-- An instant is read back from its text just if it lies in a year of four digits. -/
theorem reads_back_iff : (∃ t, format time = .ok t ∧ readTimestamp t = .ok time) ↔
    firstReadable ≤ time ∧ time ≤ lastReadable := by
  constructor
  · rintro ⟨t, hformat, hread⟩
    obtain ⟨-, hlast, rfl⟩ := format_eq_ok_iff.1 hformat
    have hfirst : ¬ time / nanosPerSecond / 86400 + epochDay < Date.daysBeforeYear 1000 := by
      intro hlt
      rw [readTimestamp_eq_ok_iff, parse?_render_eq_none hlt] at hread
      cases hread
    have hdays : Date.daysBeforeYear 1000 = 364877 := rfl
    simp only [firstReadable, lastReadable, lastSecond, nanosPerSecond, epochDay, hdays] at *
    omega
  · rintro ⟨h₁, h₂⟩
    obtain ⟨s, -, rfl, hformat⟩ := exists_stamp_format h₁ h₂
    exact ⟨s.text, hformat, readTimestamp_text s⟩

/-- **Instants of 64 bits are read back exactly.**  Such an instant has a text, which is that of a stamp in
universal time with nine digits behind the point, and it is read as the instant again.  Of all instants
those are read back from their text that lie in a year of four digits. -/
theorem format_reads_back (time : Int) :
    (-0x8000000000000000 ≤ time → time < 0x8000000000000000 → ∃ s : Stamp, s.IsUniversal ∧
      s.instant = time ∧ format time = .ok s.text ∧ readTimestamp s.text = .ok time) ∧
    ((∃ t, format time = .ok t ∧ readTimestamp t = .ok time) ↔
      firstReadable ≤ time ∧ time ≤ lastReadable) := by
  refine ⟨fun h₁ h₂ => ?_, reads_back_iff⟩
  obtain ⟨s, hs, rfl, hformat⟩ := exists_stamp_format (by rw [firstReadable]; omega : _ ≤ time)
    (by rw [lastReadable]; omega)
  exact ⟨s, hs, rfl, hformat, readTimestamp_text s⟩

/-- The least number of 64 bits. -/
theorem format_reads_back_least :
    format (-0x8000000000000000) = .ok ("1677-09-21T00:12:43.145224192Z" : Text) ∧
      readTimestamp "1677-09-21T00:12:43.145224192Z" = .ok (-0x8000000000000000) := by
  obtain ⟨s, -, -, hformat, hread⟩ :=
    (format_reads_back (-0x8000000000000000)).1 (by decide) (by decide)
  have htext : format (-0x8000000000000000) = .ok ("1677-09-21T00:12:43.145224192Z" : Text) := by
    decide +kernel
  have hsame := Except.ok.inj (hformat.symm.trans htext)
  exact ⟨htext, hsame ▸ hread⟩

end LogRelay.Timestamp
