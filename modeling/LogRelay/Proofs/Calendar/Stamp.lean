import LogRelay.Proofs.Calendar.Date
import LogRelay.Proofs.Calendar.Parts
import LogRelay.Record.Document
import Mathlib.Data.Rat.Cast.Order
import Mathlib.Tactic.FieldSimp
import Mathlib.Tactic.Ring
/-!
# What a timestamp says

A stamp is what a timestamp says: a date of the calendar, a time of day, a fraction of a second of at most
nine digits, and how the clock was set.  It has one text in the form of RFC 3339, and the texts that are
read are those of stamps, and some more: digits of other scripts may stand in some places, a line feed may
follow, and the clock may be set to hours and minutes that no clock shows.

## Main definitions

* `Stamp`, `Stamp.text`
* `Stamp.instant`, `Stamp.moment`: the instant of a stamp, in nanoseconds and in seconds.
* `Spelling.Of`: the ways in which a stamp may be written.

## Main statements

* `parse?_eq_some_iff`: what is read, and as which instant.
* `instant_eq_moment`: nanoseconds are what the instant counts.
* `reads_instant`: the text of a stamp names its instant.
-/
namespace LogRelay.Timestamp

open CodePoint Text

/-! ## Stamps -/

/-- A date of the calendar, a time of day, the digits of a fraction of a second, and how the clock was
set.  The fraction is empty if there is none. -/
structure Stamp where
  date : Date
  isReal : date.isReal = true
  hour : Fin 24
  minute : Fin 60
  second : Fin 60
  fraction : List (Fin 10)
  length_fraction : fraction.length ≤ 9
  zone : Zone

/-- The parts of a timestamp, and what stands behind it. -/
structure Spelling where
  year : Text
  month : Text
  day : Text
  hour : Text
  minute : Text
  second : Text
  fraction : Text
  zone : Text
  ending : Text

/-- The parts with the marks between them. -/
def Spelling.text (p : Spelling) : Text :=
  p.year ++ ofChar '-' :: (p.month ++ ofChar '-' :: (p.day ++ ofChar 'T' ::
    (p.hour ++ ofChar ':' :: (p.minute ++ ofChar ':' :: (p.second ++
      (p.fraction ++ (p.zone ++ p.ending)))))))

/-- The zone in ASCII. -/
def Zone.text : Zone → Text
  | universal => [ofChar 'Z']
  | offset isBehind hours minutes => sign isBehind :: (row 2 hours ++ ofChar ':' :: row 2 minutes)

/-- The digits of a fraction in ASCII, behind a point if there are any. -/
def fractionText (ds : List (Fin 10)) : Text :=
  if ds = [] then [] else ofChar '.' :: numeral ds

namespace Stamp

/-- The parts of the text of a stamp. -/
def plain (s : Stamp) : Spelling where
  year := row 4 s.date.year
  month := row 2 s.date.month
  day := row 2 s.date.day
  hour := row 2 s.hour
  minute := row 2 s.minute
  second := row 2 s.second
  fraction := fractionText s.fraction
  zone := s.zone.text
  ending := []

/-- The text of a stamp: `YYYY-MM-DDTHH:MM:SS`, a point and up to nine digits if it has a fraction, and `Z`,
`+HH:MM` or `-HH:MM`. -/
def text (s : Stamp) : Text :=
  s.plain.text

/-- The instant of a stamp in nanoseconds since the start of the year 1970. -/
def instant (s : Stamp) : Int :=
  10 ^ 9 * (86400 * s.date.daysFromEpoch + 3600 * s.hour.val + 60 * s.minute.val + s.second.val
    - s.zone.seconds) + nanosOf s.fraction

end Stamp

/-- The part of a second that the digits behind a point write. -/
def fractionValue : List (Fin 10) → ℚ
  | [] => 0
  | d :: ds => (d.val + fractionValue ds) / 10

/-- The time that has gone by since the start of the year 1970, in seconds. -/
def Stamp.moment (s : Stamp) : ℚ :=
  86400 * s.date.daysFromEpoch + 3600 * s.hour.val + 60 * s.minute.val + s.second.val
    - s.zone.seconds + fractionValue s.fraction

/-! ## Spellings -/

/-- The parts spell the stamp.  Its digits may be those of any script but for the month, and the first
digits of the day and of the hour, minute and second, and a second digit that not every digit could stand
for.  A line feed may follow. -/
structure Spelling.Of (p : Spelling) (s : Stamp) : Prop where
  year : Writes (digitsOf 4 s.date.year) p.year
  month : ShowsField 1 12 s.date.month p.month
  day : ShowsField 1 31 s.date.day p.day
  hour : ShowsField 0 23 s.hour p.hour
  minute : ShowsField 0 59 s.minute p.minute
  second : ShowsField 0 59 s.second p.second
  fraction : WritesFraction s.fraction p.fraction
  zone : s.zone.IsWrittenBy p.zone
  ending : p.ending = [] ∨ p.ending = [ofChar '\n']

variable {s : Stamp} {p : Spelling} {t : Text} {time : Int}

theorem Zone.isWrittenBy_text (z : Zone) : z.IsWrittenBy z.text := by
  cases z with
  | universal => rfl
  | offset isBehind hours minutes => exact ⟨_, _, rfl, writes_row _ _, writes_row _ _⟩

theorem writesFraction_text (ds : List (Fin 10)) : WritesFraction ds (fractionText ds) := by
  rw [WritesFraction, fractionText]
  split_ifs
  · rfl
  · exact ⟨_, rfl, writes_numeral ds⟩

theorem Stamp.of_plain (s : Stamp) : s.plain.Of s := by
  obtain ⟨-, ⟨-, hmonth⟩, -, hday⟩ := Date.bounds_of_isReal s.isReal
  exact {
    year := writes_row _ _
    month := showsField_row (by omega)
    day := showsField_row (by omega)
    hour := showsField_row (by omega)
    minute := showsField_row (by omega)
    second := showsField_row (by omega)
    fraction := writesFraction_text _
    zone := s.zone.isWrittenBy_text
    ending := .inl rfl }

/-- Neither a digit nor a point comes behind the fraction. -/
theorem Zone.IsWrittenBy.endsFraction {z : Zone} (h : z.IsWrittenBy t) (rest : Text) :
    EndsFraction (t ++ rest) := by
  intro c hc
  cases z with
  | universal =>
      obtain rfl := h
      obtain rfl := Option.some.inj hc
      decide
  | offset isBehind hours minutes =>
      obtain ⟨first, second, rfl, -⟩ := h
      obtain rfl := Option.some.inj hc
      cases isBehind <;> decide

/-- The instant, from the number of the day. -/
theorem Stamp.instant_eq (s : Stamp) : s.instant =
    (((s.date.dayNumber : Int) - epochDay) * 86400
      + (s.hour.val * 3600 + s.minute.val * 60 + s.second.val : Nat) - s.zone.seconds) * nanosPerSecond
      + nanosOf s.fraction := by
  rw [instant, Date.daysFromEpoch_eq s.isReal, nanosPerSecond]
  push_cast
  ring

/-- A spelling of a stamp is read as its instant. -/
theorem parse?_of_spells (h : p.Of s) : parse? p.text = some s.instant := by
  obtain ⟨⟨-, hyear⟩, ⟨hmonth, hmonth'⟩, hday, hday'⟩ := Date.bounds_of_isReal s.isReal
  have hvalue : value p.year = s.date.year := value_eq_of_writes h.year hyear
  have hending : ¬ (p.ending ≠ [] ∧ p.ending ≠ [ofChar '\n']) := by
    rcases h.ending with hend | hend <;> simp [hend]
  have hmonths := (field?_eq_some_iff (by decide)).2 ⟨hmonth, hmonth', h.month⟩
  have hdays := (field?_eq_some_iff (by decide)).2 ⟨hday, hday', h.day⟩
  have hhours := (field?_eq_some_iff (by decide)).2 ⟨Nat.zero_le _, by omega, h.hour⟩
  have hminutes := (field?_eq_some_iff (by decide)).2 ⟨Nat.zero_le _, by omega, h.minute⟩
  have hseconds := (field?_eq_some_iff (by decide)).2 ⟨Nat.zero_le _, by omega, h.second⟩
  refine digits?_bind_eq_some_iff.2 ⟨p.year, _, rfl, isRow_of_writes h.year, ?_⟩
  refine after?_bind_eq_some_iff.2 ⟨_, rfl, ?_⟩
  refine digits?_bind_eq_some_iff.2 ⟨p.month, _, rfl, h.month.isRow (by omega), ?_⟩
  refine after?_bind_eq_some_iff.2 ⟨_, rfl, ?_⟩
  refine digits?_bind_eq_some_iff.2 ⟨p.day, _, rfl, h.day.isRow (by omega), ?_⟩
  refine after?_bind_eq_some_iff.2 ⟨_, rfl, ?_⟩
  refine digits?_bind_eq_some_iff.2 ⟨p.hour, _, rfl, h.hour.isRow (by omega), ?_⟩
  refine after?_bind_eq_some_iff.2 ⟨_, rfl, ?_⟩
  refine digits?_bind_eq_some_iff.2 ⟨p.minute, _, rfl, h.minute.isRow (by omega), ?_⟩
  refine after?_bind_eq_some_iff.2 ⟨_, rfl, ?_⟩
  refine digits?_bind_eq_some_iff.2 ⟨p.second, _, rfl, h.second.isRow (by omega), ?_⟩
  refine Option.bind_eq_some_iff.2 ⟨_,
    fraction?_of_writes h.fraction s.length_fraction (h.zone.endsFraction p.ending), ?_⟩
  refine Option.bind_eq_some_iff.2 ⟨_, offset?_of_isWrittenBy h.zone p.ending, ?_⟩
  dsimp only
  rw [if_neg hending, hmonths, hdays, hhours, hminutes, hseconds, hvalue, s.instant_eq]
  exact if_pos s.isReal

/-- What is read is a spelling of a stamp. -/
theorem exists_spelling_of_parse? (h : parse? t = some time) :
    ∃ (s : Stamp) (p : Spelling), p.Of s ∧ p.text = t ∧ s.instant = time := by
  obtain ⟨year, t, rfl, hyear, h⟩ := digits?_bind_eq_some_iff.1 h
  obtain ⟨t, rfl, h⟩ := after?_bind_eq_some_iff.1 h
  obtain ⟨month, t, rfl, -, h⟩ := digits?_bind_eq_some_iff.1 h
  obtain ⟨t, rfl, h⟩ := after?_bind_eq_some_iff.1 h
  obtain ⟨day, t, rfl, -, h⟩ := digits?_bind_eq_some_iff.1 h
  obtain ⟨t, rfl, h⟩ := after?_bind_eq_some_iff.1 h
  obtain ⟨hour, t, rfl, -, h⟩ := digits?_bind_eq_some_iff.1 h
  obtain ⟨t, rfl, h⟩ := after?_bind_eq_some_iff.1 h
  obtain ⟨minute, t, rfl, -, h⟩ := digits?_bind_eq_some_iff.1 h
  obtain ⟨t, rfl, h⟩ := after?_bind_eq_some_iff.1 h
  obtain ⟨second, t, rfl, -, h⟩ := digits?_bind_eq_some_iff.1 h
  obtain ⟨⟨nanos, t⟩, hfraction, h⟩ := Option.bind_eq_some_iff.1 h
  obtain ⟨⟨offset, ending⟩, hoffset, h⟩ := Option.bind_eq_some_iff.1 h
  obtain ⟨ds, fraction, hlength, hds, rfl, rfl⟩ := exists_writesFraction hfraction
  obtain ⟨z, zone, hz, rfl, rfl⟩ := exists_isWrittenBy hoffset
  obtain ⟨-, hyears⟩ := hyear.writes_value
  dsimp only at h
  split_ifs at h with hending
  obtain ⟨m, hm, h⟩ := Option.bind_eq_some_iff.1 h
  obtain ⟨d, hd, h⟩ := Option.bind_eq_some_iff.1 h
  obtain ⟨hr, hhr, h⟩ := Option.bind_eq_some_iff.1 h
  obtain ⟨mn, hmn, h⟩ := Option.bind_eq_some_iff.1 h
  obtain ⟨sc, hsc, h⟩ := Option.bind_eq_some_iff.1 h
  split_ifs at h with hreal
  obtain ⟨-, -, hm⟩ := (field?_eq_some_iff (by decide)).1 hm
  obtain ⟨-, -, hd⟩ := (field?_eq_some_iff (by decide)).1 hd
  obtain ⟨-, hhr', hhr⟩ := (field?_eq_some_iff (by decide)).1 hhr
  obtain ⟨-, hmn', hmn⟩ := (field?_eq_some_iff (by decide)).1 hmn
  obtain ⟨-, hsc', hsc⟩ := (field?_eq_some_iff (by decide)).1 hsc
  let s : Stamp := ⟨⟨value year, m, d⟩, hreal, ⟨hr, by omega⟩, ⟨mn, by omega⟩, ⟨sc, by omega⟩, ds,
    hlength, z⟩
  refine ⟨s, ⟨year, month, day, hour, minute, second, fraction, zone, ending⟩,
    ⟨hyears, hm, hd, hhr, hmn, hsc, hds, hz, ?_⟩, rfl, ?_⟩
  · exact Decidable.or_iff_not_not_and_not.2 hending
  · rw [s.instant_eq]
    exact Option.some.inj h

/-- A text is read just if it spells a stamp, and then as the instant of that. -/
theorem parse?_eq_some_iff :
    parse? t = some time ↔ ∃ (s : Stamp) (p : Spelling), p.Of s ∧ p.text = t ∧ s.instant = time := by
  constructor
  · exact exists_spelling_of_parse?
  · rintro ⟨s, p, hp, rfl, rfl⟩
    exact parse?_of_spells hp

theorem readTimestamp_eq_ok_iff : readTimestamp t = .ok time ↔ parse? t = some time := by
  rw [readTimestamp]
  cases parse? t <;> simp

/-! ## The texts of stamps -/

/-- What stands in the text of a stamp besides digits. -/
def marks : Text := "-T:.Z+"

/-- Nothing stands in the text but digits of ASCII and marks. -/
def IsMarked (t : Text) : Prop :=
  ∀ c ∈ t, c.isAsciiDigit = true ∨ c ∈ marks

theorem isMarked_append {u : Text} : IsMarked (t ++ u) ↔ IsMarked t ∧ IsMarked u :=
  List.forall_mem_append

theorem isMarked_cons {c : CodePoint} :
    IsMarked (c :: t) ↔ (c.isAsciiDigit = true ∨ c ∈ marks) ∧ IsMarked t :=
  List.forall_mem_cons

theorem isMarked_numeral (ds : List (Fin 10)) : IsMarked (numeral ds) := by
  intro c hc
  obtain ⟨d, -, rfl⟩ := List.mem_map.1 hc
  exact .inl (isAsciiDigit_ofDigit d.isLt)

theorem isMarked_row (width n : Nat) : IsMarked (row width n) :=
  row_eq_numeral width n ▸ isMarked_numeral _

theorem isMarked_fractionText (ds : List (Fin 10)) : IsMarked (fractionText ds) := by
  rw [fractionText]
  split_ifs
  · exact List.forall_mem_nil _
  · exact isMarked_cons.2 ⟨.inr (by decide), isMarked_numeral ds⟩

theorem Zone.isMarked_text (z : Zone) : IsMarked z.text := by
  cases z with
  | universal => exact isMarked_cons.2 ⟨.inr (by decide), List.forall_mem_nil _⟩
  | offset isBehind hours minutes =>
      have hsign : sign isBehind ∈ marks := by cases isBehind <;> decide
      rw [Zone.text, isMarked_cons, isMarked_append, isMarked_cons]
      exact ⟨.inr hsign, isMarked_row _ _, .inr (by decide), isMarked_row _ _⟩

theorem Stamp.isMarked_text (s : Stamp) : IsMarked s.text := by
  simp only [text, plain, Spelling.text, isMarked_append, isMarked_cons]
  exact ⟨isMarked_row _ _, .inr (by decide), isMarked_row _ _, .inr (by decide), isMarked_row _ _,
    .inr (by decide), isMarked_row _ _, .inr (by decide), isMarked_row _ _, .inr (by decide),
    isMarked_row _ _, isMarked_fractionText _, s.zone.isMarked_text, List.forall_mem_nil _⟩

/-! ## The instant -/

theorem fractionValue_append (ds : List (Fin 10)) (d : Fin 10) :
    fractionValue (ds ++ [d]) = fractionValue ds + d.val / 10 ^ (ds.length + 1) := by
  induction ds with
  | nil => simp [fractionValue]
  | cons e ds ih =>
      rw [List.cons_append, fractionValue, ih, fractionValue, List.length_cons, pow_succ _ (ds.length + 1)]
      field_simp
      ring

theorem numberOf_eq_fractionValue (ds : List (Fin 10)) :
    (numberOf ds : ℚ) = 10 ^ ds.length * fractionValue ds := by
  induction ds using List.reverseRecOn with
  | nil => simp [numberOf, ofDigits, fractionValue]
  | append_singleton ds d ih =>
      rw [numberOf_append, fractionValue_append, List.length_append, List.length_singleton]
      push_cast
      rw [ih, pow_succ]
      field_simp

/-- The instant is the moment, counted in nanoseconds. -/
theorem Stamp.instant_eq_moment (s : Stamp) : (s.instant : ℚ) = 10 ^ 9 * s.moment := by
  have hpow : (10 : ℚ) ^ (9 - s.fraction.length) * 10 ^ s.fraction.length = 10 ^ 9 := by
    rw [← pow_add, Nat.sub_add_cancel s.length_fraction]
  have hnanos : (nanosOf s.fraction : ℚ) = 10 ^ 9 * fractionValue s.fraction := by
    rw [nanosOf, ← hpow]
    push_cast
    rw [numberOf_eq_fractionValue]
    ring
  rw [instant, moment]
  push_cast
  rw [hnanos]
  ring

theorem readTimestamp_text (s : Stamp) : readTimestamp s.text = .ok s.instant :=
  readTimestamp_eq_ok_iff.2 (parse?_of_spells s.of_plain)

/-- **The text of a stamp names its instant.**  Two texts are read as the same number just if the moments
are the same. -/
theorem reads_instant (s : Stamp) : readTimestamp s.text = .ok s.instant ∧
    ∀ s' : Stamp, readTimestamp s'.text = readTimestamp s.text ↔ s'.moment = s.moment := by
  refine ⟨readTimestamp_text s, fun s' => ?_⟩
  have hne : (10 : ℚ) ^ 9 ≠ 0 := by norm_num
  rw [readTimestamp_text, readTimestamp_text, Except.ok.injEq, ← Int.cast_inj (α := ℚ), s'.instant_eq_moment,
    s.instant_eq_moment, mul_right_inj' hne]

/-- The last half second of February 2000, in two ways. -/
example : parse? "2000-02-29T23:59:59.5Z" = some 951868799500000000 ∧
    parse? "2000-03-01T01:29:59.500000+01:30" = some 951868799500000000 := by
  decide +kernel

end LogRelay.Timestamp
