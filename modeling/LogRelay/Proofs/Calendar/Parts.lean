import LogRelay.Calendar.Timestamp
import LogRelay.Proofs.Text.Numeral
import Mathlib.Data.List.TakeWhile
/-!
# The parts of a timestamp

A timestamp is read part by part, from the front.  For each part it is said here which texts are read as
that part, and what they are read as.

## Main definitions

* `IsRow`: so many digits.
* `ShowsField`: the two digits of a month, a day, an hour, a minute or a second.
* `nanosOf`, `WritesFraction`: the fraction of a second.
* `Zone`, `Zone.IsWrittenBy`: how far a clock is ahead of universal time or behind it.

## Main statements

* `digits?_eq_some_iff`, `after?_eq_some_iff`, `field?_eq_some_iff`: the texts that are read as a part.
* `fraction?_of_writes`, `exists_writesFraction`: the same for the fraction, which takes what it can.
* `offset?_of_isWrittenBy`, `exists_isWrittenBy`: the same for the zone.
-/
namespace LogRelay.Timestamp

open CodePoint Text

variable {t row rest : Text} {ds : List (Fin 10)}

/-! ## Digits and marks -/

/-- So many digits, each of them of whatever script. -/
structure IsRow (n : Nat) (t : Text) : Prop where
  length : t.length = n
  all_isDigit : t.all isDigit = true

theorem digits?_eq_some_iff {n : Nat} :
    digits? n t = some (row, rest) ↔ t = row ++ rest ∧ IsRow n row := by
  rw [digits?]
  constructor
  · intro h
    split_ifs at h with hrow
    obtain ⟨rfl, rfl⟩ := Prod.mk.inj (Option.some.inj h)
    exact ⟨(List.take_append_drop n t).symm, hrow.1, hrow.2⟩
  · rintro ⟨rfl, rfl, hall⟩
    simp only [List.take_left, List.drop_left, hall, and_self, if_true]

theorem after?_eq_some_iff {c : CodePoint} : after? c t = some rest ↔ t = c :: rest := by
  cases t with
  | nil => simp [after?]
  | cons d t =>
      rw [after?]
      by_cases hd : d = c <;> simp [hd]

section

variable {α : Type} {a : α}

/-- A reader that goes on behind digits. -/
theorem digits?_bind_eq_some_iff {n : Nat} {f : Text × Text → Option α} :
    (digits? n t).bind f = some a ↔
      ∃ row rest, t = row ++ rest ∧ IsRow n row ∧ f (row, rest) = some a := by
  simp only [Option.bind_eq_some_iff, Prod.exists, digits?_eq_some_iff, and_assoc]

/-- A reader that goes on behind a mark. -/
theorem after?_bind_eq_some_iff {c : CodePoint} {f : Text → Option α} :
    (after? c t).bind f = some a ↔ ∃ rest, t = c :: rest ∧ f rest = some a := by
  simp only [Option.bind_eq_some_iff, after?_eq_some_iff]

end

theorem value_of_writes (h : Writes ds t) : value t = numberOf ds := by
  rw [value, h.filterMap]
  rfl

section

variable {width n : Nat}

theorem isRow_of_writes (h : Writes (digitsOf width n) t) : IsRow width t :=
  ⟨h.length.trans (length_digitsOf width n), h.all_isDigit⟩

theorem value_eq_of_writes (h : Writes (digitsOf width n) t) (hn : n < 10 ^ width) : value t = n :=
  (value_of_writes h).trans (numberOf_digitsOf hn)

/-- A row of digits writes its value. -/
theorem IsRow.writes_value (h : IsRow width t) :
    value t < 10 ^ width ∧ Writes (digitsOf width (value t)) t := by
  obtain ⟨rfl, hall⟩ := h
  obtain ⟨ds, hds⟩ := exists_writes hall
  rw [value_of_writes hds, hds.length]
  exact ⟨numberOf_lt ds, (digitsOf_numberOf ds).symm ▸ hds⟩

end

/-! ## Fields of two digits -/

/-- Two digits that show a number.  The first one is a digit of ASCII, and so is the second one unless
each digit may stand behind the first, given the bounds of the number. -/
def ShowsField (low high n : Nat) (t : Text) : Prop :=
  ∃ c : CodePoint, t = [ofDigit (n / 10), c] ∧ c.digit? = some (n % 10) ∧
    (c.isAsciiDigit = true ∨ low ≤ n / 10 * 10 ∧ n / 10 * 10 + 9 ≤ high)

variable {low high n : Nat}

theorem showsField_row (h : n < 100) : ShowsField low high n (Text.row 2 n) := by
  have hones : n % 10 < 10 := Nat.mod_lt _ (by decide)
  refine ⟨ofDigit (n % 10), ?_, digit?_ofDigit hones, .inl (isAsciiDigit_ofDigit hones)⟩
  rw [row_two, Nat.mod_eq_of_lt (by omega)]

theorem ShowsField.eq_row (h : ShowsField low high n t) (hn : n < 100)
    (hascii : t.HasAsciiDigits) : t = Text.row 2 n := by
  obtain ⟨c, rfl, hc, -⟩ := h
  rw [row_two, Nat.mod_eq_of_lt (by omega),
    eq_ofDigit (hascii c (by simp) (isDigit_of_digit? hc)) hc]

theorem ShowsField.isRow (h : ShowsField low high n t) (hn : n < 100) : IsRow 2 t := by
  obtain ⟨c, rfl, hc, -⟩ := h
  have htens : (ofDigit (n / 10)).isDigit = true := isDigit_ofDigit (by omega)
  exact ⟨rfl, by simp [htens, isDigit_of_digit? hc]⟩

theorem field?_pair (low high : Nat) (a b : CodePoint) :
    field? low high [a, b] = a.asciiDigit?.bind fun tens =>
      (if low ≤ tens * 10 ∧ tens * 10 + 9 ≤ high then b.digit? else b.asciiDigit?).bind fun ones =>
        if low ≤ tens * 10 + ones ∧ tens * 10 + ones ≤ high then some (tens * 10 + ones) else none := by
  rw [field?]
  cases a.asciiDigit? with
  | none => rfl
  | some tens =>
      by_cases hfree : low ≤ tens * 10 ∧ tens * 10 + 9 ≤ high <;> simp [hfree]

/-- The digit behind a digit, if it is one that may stand there. -/
theorem secondDigit_eq_some_iff {free : Prop} [Decidable free] {c : CodePoint} {d : Nat} :
    (if free then c.digit? else c.asciiDigit?) = some d ↔
      c.digit? = some d ∧ (c.isAsciiDigit = true ∨ free) := by
  constructor
  · intro h
    split_ifs at h with hfree
    · exact ⟨h, .inr hfree⟩
    · obtain ⟨hd, rfl⟩ := eq_ofDigit_of_asciiDigit? h
      exact ⟨digit?_ofDigit hd, .inl (by rw [isAsciiDigit, h, Option.isSome_some])⟩
  · rintro ⟨h, hascii | hfree⟩
    · have hd := digit?_lt h
      rw [eq_ofDigit hascii h, digit?_ofDigit hd, asciiDigit?_ofDigit hd, ite_self]
    · rw [if_pos hfree, h]

theorem field?_eq_some_iff (hhigh : high < 100) :
    field? low high t = some n ↔ low ≤ n ∧ n ≤ high ∧ ShowsField low high n t := by
  constructor
  · intro h
    rcases t with _ | ⟨a, _ | ⟨b, _ | ⟨c, t⟩⟩⟩
    · cases h
    · cases h
    · rw [field?_pair] at h
      obtain ⟨tens, htens, hrest⟩ := Option.bind_eq_some_iff.1 h
      obtain ⟨ones, hones, hn⟩ := Option.bind_eq_some_iff.1 hrest
      obtain ⟨hten, rfl⟩ := eq_ofDigit_of_asciiDigit? htens
      split_ifs at hn with hrange
      obtain rfl := Option.some.inj hn
      obtain ⟨hdigit, hfree⟩ := secondDigit_eq_some_iff.1 hones
      have hone := digit?_lt hdigit
      have hdiv : (tens * 10 + ones) / 10 = tens := by omega
      have hmod : (tens * 10 + ones) % 10 = ones := by omega
      refine ⟨hrange.1, hrange.2, b, ?_, ?_, ?_⟩
      · rw [hdiv]
      · rw [hmod, hdigit]
      · rw [hdiv]
        exact hfree
    · cases h
  · rintro ⟨hlow, hle, c, rfl, hc, hfree⟩
    have hn : n / 10 * 10 + n % 10 = n := by omega
    rw [field?_pair, asciiDigit?_ofDigit (by omega), Option.bind_some,
      secondDigit_eq_some_iff.2 ⟨hc, hfree⟩, Option.bind_some, hn, if_pos ⟨hlow, hle⟩]

/-! ## Fractions -/

/-- The nanoseconds that the digits after a point write. -/
def nanosOf (ds : List (Fin 10)) : Nat :=
  numberOf ds * 10 ^ (9 - ds.length)

/-- The text writes the digits of a fraction behind a point.  Without digits there is no point. -/
def WritesFraction (ds : List (Fin 10)) (t : Text) : Prop :=
  if ds = [] then t = [] else ∃ row, t = ofChar '.' :: row ∧ Writes ds row

/-- What follows a fraction is neither a digit nor a point. -/
def EndsFraction (rest : Text) : Prop :=
  ∀ c ∈ rest.head?, c.isDigit = false ∧ c ≠ ofChar '.'

/-- The reader takes the digits and stops behind them. -/
theorem takeWhile_take_of_writes (h : Writes ds row) (hlength : ds.length ≤ 9)
    (hrest : EndsFraction rest) : ((row ++ rest).take 9).takeWhile isDigit = row := by
  have hstop : (rest.take (9 - row.length)).takeWhile isDigit = [] := by
    cases rest with
    | nil => simp
    | cons c rest =>
        cases 9 - row.length with
        | zero => rfl
        | succ k => simp [(hrest c rfl).1]
  rw [List.take_append, List.take_of_length_le (h.length.trans_le hlength),
    List.takeWhile_append_of_pos (by simpa using h.all_isDigit), hstop, List.append_nil]

/-- What the reader takes are digits, at most nine of them, from the front. -/
theorem exists_writes_takeWhile_take (t : Text) :
    ∃ (ds : List (Fin 10)) (row : Text), (t.take 9).takeWhile isDigit = row ∧ ds.length ≤ 9 ∧
      Writes ds row ∧ row ++ t.drop row.length = t := by
  have hall : ((t.take 9).takeWhile isDigit).all isDigit = true := by
    rw [List.all_eq_true]
    intro c hc
    exact List.mem_takeWhile_imp hc
  have hfront : (t.take 9).takeWhile isDigit <+: t.take 9 := List.takeWhile_prefix _
  obtain ⟨ds, hds⟩ := exists_writes hall
  refine ⟨ds, _, rfl, ?_, hds, List.prefix_iff_eq_append.1 (hfront.trans (List.take_prefix 9 t))⟩
  rw [← hds.length]
  exact hfront.length_le.trans (List.length_take_le 9 t)

theorem fraction?_of_writes (h : WritesFraction ds t) (hlength : ds.length ≤ 9)
    (hrest : EndsFraction rest) : fraction? (t ++ rest) = some (nanosOf ds, rest) := by
  rw [WritesFraction] at h
  split_ifs at h with hnil
  · have hpoint : after? '.' rest = none := by
      cases rest with
      | nil => rfl
      | cons c rest => rw [after?, if_neg (hrest c rfl).2]
    rw [h, hnil, fraction?, List.nil_append, hpoint]
    rfl
  · obtain ⟨row, rfl, hrow⟩ := h
    have hne : row ≠ [] := by
      rw [← List.length_pos_iff, hrow.length]
      exact List.length_pos_iff.2 hnil
    rw [fraction?, List.cons_append, after?_eq_some_iff.2 rfl]
    simp only [takeWhile_take_of_writes hrow hlength hrest, if_neg hne, List.drop_left]
    rw [value_of_writes hrow, hrow.length]
    rfl

theorem exists_writesFraction (h : fraction? t = some (n, rest)) :
    ∃ ds row, ds.length ≤ 9 ∧ WritesFraction ds row ∧ t = row ++ rest ∧ nanosOf ds = n := by
  rw [fraction?] at h
  cases hpoint : after? '.' t with
  | none =>
      rw [hpoint] at h
      obtain ⟨rfl, rfl⟩ := Prod.mk.inj (Option.some.inj h)
      exact ⟨[], [], Nat.zero_le _, by rw [WritesFraction, if_pos rfl], rfl, rfl⟩
  | some u =>
      obtain rfl := after?_eq_some_iff.1 hpoint
      obtain ⟨ds, row, htake, hlength, hds, happend⟩ := exists_writes_takeWhile_take u
      rw [hpoint] at h
      simp only [htake] at h
      split_ifs at h with hnil
      obtain ⟨hn, rfl⟩ := Prod.mk.inj (Option.some.inj h)
      have hne : ds ≠ [] := by
        rintro rfl
        exact hnil (List.length_eq_zero_iff.1 hds.length)
      refine ⟨ds, ofChar '.' :: row, hlength, ?_, ?_, ?_⟩
      · rw [WritesFraction, if_neg hne]
        exact ⟨row, rfl, hds⟩
      · rw [List.cons_append, happend]
      · rw [← hn, nanosOf, value_of_writes hds, hds.length]
        rfl

/-! ## Zones -/

/-- How far a clock is from universal time: not at all, or ahead or behind by hours and minutes. -/
inductive Zone where
  | universal
  | offset (isBehind : Bool) (hours minutes : Fin 100)
  deriving DecidableEq

namespace Zone

/-- The seconds by which the clock is ahead of universal time. -/
def seconds : Zone → Int
  | universal => 0
  | offset isBehind hours minutes =>
    (if isBehind then -1 else 1) * (hours.val * 3600 + minutes.val * 60)

/-- The sign of an offset. -/
def sign (isBehind : Bool) : CodePoint :=
  if isBehind then ofChar '-' else ofChar '+'

/-- The text writes the zone, its digits in whatever script. -/
def IsWrittenBy : Zone → Text → Prop
  | universal, t => t = [ofChar 'Z']
  | offset isBehind hours minutes, t => ∃ first second,
    t = sign isBehind :: (first ++ ofChar ':' :: second) ∧
      Writes (digitsOf 2 hours) first ∧ Writes (digitsOf 2 minutes) second

end Zone

/-- Behind a sign come the hours and the minutes. -/
theorem offset?_sign (isBehind : Bool) (t : Text) :
    offset? (Zone.sign isBehind :: t) = (digits? 2 t).bind fun p =>
      (after? ':' p.2).bind fun u => (digits? 2 u).bind fun q =>
        some ((if isBehind then -1 else 1) * (value p.1 * 3600 + value q.1 * 60 : Int), q.2) := by
  have hplus : ofChar '+' ≠ ofChar 'Z' ∧ ofChar '+' ≠ ofChar '-' := by decide
  have hminus : ofChar '-' ≠ ofChar 'Z' := by decide
  rw [offset?]
  cases isBehind with
  | false =>
      simp only [Zone.sign, Bool.false_eq_true, if_false, if_neg hplus.1, hplus.2, if_true, true_or,
        one_mul]
      rfl
  | true =>
      simp only [Zone.sign, if_true, if_neg hminus, or_true, neg_mul, one_mul]
      rfl

theorem offset?_of_isWrittenBy {z : Zone} (h : z.IsWrittenBy t) (rest : Text) :
    offset? (t ++ rest) = some (z.seconds, rest) := by
  cases z with
  | universal =>
      obtain rfl := h
      rfl
  | offset isBehind hours minutes =>
      obtain ⟨first, second, rfl, hfirst, hsecond⟩ := h
      rw [List.cons_append, List.append_assoc, List.cons_append, offset?_sign]
      refine digits?_bind_eq_some_iff.2 ⟨first, _, rfl, isRow_of_writes hfirst, ?_⟩
      refine after?_bind_eq_some_iff.2 ⟨_, rfl, ?_⟩
      refine digits?_bind_eq_some_iff.2 ⟨second, _, rfl, isRow_of_writes hsecond, ?_⟩
      rw [value_eq_of_writes hfirst hours.isLt, value_eq_of_writes hsecond minutes.isLt]
      rfl

theorem exists_isWrittenBy_of_sign {o : Int} (isBehind : Bool)
    (h : offset? (Zone.sign isBehind :: t) = some (o, rest)) :
    ∃ (z : Zone) (piece : Text), z.IsWrittenBy piece ∧ Zone.sign isBehind :: t = piece ++ rest ∧
      z.seconds = o := by
  rw [offset?_sign] at h
  obtain ⟨first, u, rfl, hfirst, h⟩ := digits?_bind_eq_some_iff.1 h
  obtain ⟨u, rfl, h⟩ := after?_bind_eq_some_iff.1 h
  obtain ⟨second, u, rfl, hsecond, h⟩ := digits?_bind_eq_some_iff.1 h
  obtain ⟨rfl, rfl⟩ := Prod.mk.inj (Option.some.inj h)
  obtain ⟨hhours, hw⟩ := hfirst.writes_value
  obtain ⟨hminutes, hw'⟩ := hsecond.writes_value
  refine ⟨.offset isBehind ⟨_, hhours⟩ ⟨_, hminutes⟩, _, ⟨first, second, rfl, hw, hw'⟩, ?_, rfl⟩
  rw [List.cons_append, List.append_assoc, List.cons_append]

theorem exists_isWrittenBy {o : Int} (h : offset? t = some (o, rest)) :
    ∃ (z : Zone) (piece : Text), z.IsWrittenBy piece ∧ t = piece ++ rest ∧ z.seconds = o := by
  cases t with
  | nil => cases h
  | cons c u =>
      by_cases hz : c = ofChar 'Z'
      · subst hz
        obtain ⟨rfl, rfl⟩ := Prod.mk.inj (Option.some.inj h)
        exact ⟨.universal, [ofChar 'Z'], rfl, rfl, rfl⟩
      · by_cases hplus : c = ofChar '+'
        · subst hplus
          exact exists_isWrittenBy_of_sign false h
        · by_cases hminus : c = ofChar '-'
          · subst hminus
            exact exists_isWrittenBy_of_sign true h
          · rw [offset?, if_neg hz, if_neg (by simp [hplus, hminus])] at h
            cases h

end LogRelay.Timestamp
