import LogRelay.Json.Printer
import LogRelay.Json.Reader
import LogRelay.Proofs.Text.Numeral
import LogRelay.Proofs.Text.Surrogates
/-!
# Strings in documents

A string is written in printable ASCII, and what is written is read back.  Only a high surrogate that
is followed by a low one is not: the reader joins the two, as the escapes of a code point above
`0xFFFF` are joined.

## Main definitions

* `Json.Reader.take`: the machine after some code points.
* `Json.shortEscapes`: the code points that are written with one letter.

## Main statements

* `escape_cases`: the four ways in which a code point is written.
* `take_escape`: what a code point that has been written adds to the string that is read.
* `take_renderString`: a string is read back with its surrogate pairs joined.
* `isPrinted_of_mem_escape`, `length_encodePoint_le`: the form in which a code point is written.
-/
namespace LogRelay

open CodePoint (ofDigit)

/-! ## Digits of base 16 -/

theorem CodePoint.hexDigit?_ofDigit {d : Nat} (h : d < 16) : (ofDigit d).hexDigit? = some d := by
  interval_cases d <;> rfl

theorem CodePoint.val_ofDigit_lt {d : Nat} (h : d < 16) :
    0x20 ≤ (ofDigit d).val ∧ (ofDigit d).val < 0x7F := by
  interval_cases d <;> decide

/-- The four digits of a unit of sixteen bits. -/
theorem Text.hex_eq {n : Nat} (h : n < 0x10000) :
    hex 4 n = [ofDigit (n / 0x1000), ofDigit (n / 0x100 % 0x10), ofDigit (n / 0x10 % 0x10),
      ofDigit (n % 0x10)] := by
  have hdigits (n : Nat) : Nat.toDigits 16 n =
      if n < 16 then [n.digitChar] else Nat.toDigits 16 (n / 16) ++ [(n % 16).digitChar] :=
    Nat.toDigits_eq_if (by decide)
  have hzero : (ofDigit 0) = CodePoint.ofChar '0' := rfl
  rw [hex]
  by_cases h₁ : n < 0x10
  · have hvals : n / 0x1000 = 0 ∧ n / 0x100 % 0x10 = 0 ∧ n / 0x10 % 0x10 = 0 ∧ n % 0x10 = n := by
      omega
    rw [hdigits n, if_pos h₁]
    simp [hvals, hzero]
    rfl
  · by_cases h₂ : n < 0x100
    · have hvals : n / 0x1000 = 0 ∧ n / 0x100 % 0x10 = 0 ∧ n / 0x10 % 0x10 = n / 0x10 := by omega
      rw [hdigits n, if_neg h₁, hdigits (n / 16), if_pos (by omega)]
      simp [hvals, hzero]
      exact ⟨rfl, rfl⟩
    · by_cases h₃ : n < 0x1000
      · have hvals : n / 0x1000 = 0 ∧ n / 0x100 % 0x10 = n / 0x100 := by omega
        rw [hdigits n, if_neg h₁, hdigits (n / 16), if_neg (by omega), Nat.div_div_eq_div_mul,
          hdigits (n / (16 * 16)), if_pos (by omega)]
        simp [hvals, hzero]
        exact ⟨rfl, rfl, rfl⟩
      · rw [hdigits n, if_neg h₁, hdigits (n / 16), if_neg (by omega), Nat.div_div_eq_div_mul,
          hdigits (n / (16 * 16)), if_neg (by omega), Nat.div_div_eq_div_mul,
          hdigits (n / (16 * 16 * 16)), if_pos (by omega)]
        simp
        exact ⟨rfl, rfl, rfl, rfl⟩

namespace Json

/-! ## The machine -/

namespace Reader

/-- The machine after some code points. -/
def take (r : Reader) (t : Text) : Except Fault Reader :=
  t.foldlM step r

variable {r r' : Reader} {c : CodePoint} {s t : Text}

@[simp] theorem take_nil (r : Reader) : r.take [] = .ok r := rfl

theorem take_cons (h : r.step c = .ok r') (t : Text) : r.take (c :: t) = r'.take t := by
  rw [take, List.foldlM_cons, h]
  rfl

theorem take_append (h : r.take s = .ok r') (t : Text) : r.take (s ++ t) = r'.take t := by
  rw [take] at h
  rw [take, List.foldlM_append, h]
  rfl

theorem take_singleton (r : Reader) (c : CodePoint) : r.take [c] = r.step c := by
  rw [take, List.foldlM_cons]
  cases r.step c <;> rfl

end Reader

open Reader

variable {c : CodePoint} {r : Reader} {read : Text} {high : Bool}

/-! ## One code point -/

/-- What is read stays in front, unless a low surrogate joins a high one there. -/
theorem withUnit_of_not_joins (h : (high && c.isLowSurrogate) = false) (read : Text) :
    withUnit read high c = .string (c :: read) c.isHighSurrogate := by
  cases read <;> simp [withUnit, h]

/-- A code point that is no surrogate is only added to the string. -/
theorem withUnit_of_not_surrogate (h : c.isSurrogate = false) (read : Text) (high : Bool) :
    withUnit read high c = .string (c :: read) false := by
  obtain ⟨hhigh, hlow⟩ := CodePoint.halves_of_not_isSurrogate h
  rw [withUnit_of_not_joins (by rw [hlow, Bool.and_false]), hhigh]

/-- The four digits of a unit. -/
theorem take_hex {n : Nat} (h : n < 0x10000) (r : Reader) (read : Text) (high : Bool) :
    ({ r with lexeme := .unit read high 0 0 } : Reader).take (Text.hex 4 n) =
      .ok { r with lexeme := withUnit read high (CodePoint.ofNat n) } := by
  have hvalue : (((0 * 16 + n / 0x1000) * 16 + n / 0x100 % 0x10) * 16 + n / 0x10 % 0x10) * 16 +
      n % 0x10 = n := by omega
  have hdigit {d : Nat} (hd : d < 16) (count value : Nat) :
      ({ r with lexeme := .unit read high count value } : Reader).step (ofDigit d) =
        if count < 3 then .ok { r with lexeme := .unit read high (count + 1) (value * 16 + d) }
        else .ok { r with lexeme := withUnit read high (CodePoint.ofNat (value * 16 + d)) } := by
    simp only [step, CodePoint.hexDigit?_ofDigit hd]
  rw [Text.hex_eq h]
  rw [take_cons (hdigit (by omega) 0 0), take_cons (hdigit (by omega) 1 _),
    take_cons (hdigit (by omega) 2 _), take_singleton, hdigit (by omega) 3 _, hvalue]
  rfl

/-- A unit that is written as an escape. -/
theorem take_escapeUnit (h : c.val < 0x10000) (r : Reader) (read : Text) (high : Bool) :
    ({ r with lexeme := .string read high } : Reader).take (escapeUnit c) =
      .ok { r with lexeme := withUnit read high c } := by
  have hstart : ({ r with lexeme := .string read high } : Reader).take "\\u" =
      .ok { r with lexeme := .unit read high 0 0 } := rfl
  rw [escapeUnit, take_append hstart, take_hex h, Utf8.ofNat_val]

/-- The escapes of a surrogate pair are joined. -/
theorem take_toSurrogates (h : 0x10000 ≤ c.val) (r : Reader) (read : Text) (high : Bool) :
    ({ r with lexeme := .string read high } : Reader).take
        (escapeUnit c.toSurrogates.1 ++ escapeUnit c.toSurrogates.2) =
      .ok { r with lexeme := .string (c :: read) false } := by
  obtain ⟨⟨hhigh, hhigh'⟩, ⟨hlow, hlow'⟩, hjoin⟩ := CodePoint.toSurrogates_spec h
  have hnot := CodePoint.not_isLowSurrogate_of_isHighSurrogate hhigh
  rw [take_append (take_escapeUnit hhigh' r read high),
    withUnit_of_not_joins (by rw [hnot, Bool.and_false]), take_escapeUnit hlow', hhigh]
  simp [withUnit, hlow, hjoin]

/-- A code point that is written as it is. -/
theorem step_printable (h : 0x20 ≤ c.val) (h₁ : c ≠ '"') (h₂ : c ≠ '\\') (r : Reader) (read : Text)
    (high : Bool) : ({ r with lexeme := .string read high } : Reader).step c =
      .ok { r with lexeme := .string (c :: read) false } := by
  rw [step]
  simp only [h₁, h₂, if_false, if_neg (by omega : ¬ c.val < 0x20)]

/-- A printable character of ASCII, as those are that documents are written in. -/
def IsPrinted (c : CodePoint) : Prop :=
  0x20 ≤ c.val ∧ c.val < 0x7F

instance (c : CodePoint) : Decidable (IsPrinted c) :=
  inferInstanceAs (Decidable (_ ∧ _))

/-- The code points that are written with one letter behind a backslash, and the letters. -/
def shortEscapes : List (CodePoint × CodePoint) :=
  [('"', '"'), ('\\', '\\'), ('\n', 'n'), ('\r', 'r'), ('\t', 't'), (CodePoint.ofNat 0x08, 'b'),
    (CodePoint.ofNat 0x0C, 'f')]

/-- How a code point is written: with one letter, as it is, as one unit, or as two. -/
theorem escape_cases (c : CodePoint) :
    (∃ d, (c, d) ∈ shortEscapes ∧ escape c = [CodePoint.ofChar '\\', d]) ∨
      (IsPrinted c ∧ c ≠ '"' ∧ c ≠ '\\' ∧ escape c = [c]) ∨
        (c.val < 0x10000 ∧ escape c = escapeUnit c) ∨
          (0x10000 ≤ c.val ∧
            escape c = escapeUnit c.toSurrogates.1 ++ escapeUnit c.toSurrogates.2) := by
  rw [escape]
  by_cases h₁ : c = '"'
  · subst h₁
    exact .inl ⟨'"', by decide, rfl⟩
  by_cases h₂ : c = '\\'
  · subst h₂
    exact .inl ⟨'\\', by decide, rfl⟩
  rw [if_neg h₁, if_neg h₂]
  by_cases h₃ : c = '\n'
  · subst h₃
    exact .inl ⟨'n', by decide, rfl⟩
  by_cases h₄ : c = '\r'
  · subst h₄
    exact .inl ⟨'r', by decide, rfl⟩
  by_cases h₅ : c = '\t'
  · subst h₅
    exact .inl ⟨'t', by decide, rfl⟩
  rw [if_neg h₃, if_neg h₄, if_neg h₅]
  by_cases h₆ : c.val = 0x08
  · have hc : c = CodePoint.ofNat 0x08 := by rw [← h₆, Utf8.ofNat_val]
    subst hc
    exact .inl ⟨'b', by decide, rfl⟩
  by_cases h₇ : c.val = 0x0C
  · have hc : c = CodePoint.ofNat 0x0C := by rw [← h₇, Utf8.ofNat_val]
    subst hc
    exact .inl ⟨'f', by decide, rfl⟩
  rw [if_neg h₆, if_neg h₇]
  by_cases h₈ : 0x20 ≤ c.val ∧ c.val < 0x7F
  · exact .inr (.inl ⟨h₈, h₁, h₂, if_pos h₈⟩)
  by_cases h₉ : c.val < 0x10000
  · rw [if_neg h₈, if_pos h₉]
    exact .inr (.inr (.inl ⟨h₉, rfl⟩))
  · rw [if_neg h₈, if_neg h₉]
    refine .inr (.inr (.inr ⟨by omega, ?_⟩))
    cases c.toSurrogates
    rfl

/-- A code point that is written with one letter. -/
theorem take_shortEscape {d : CodePoint} (h : (c, d) ∈ shortEscapes) (r : Reader) (read : Text)
    (high : Bool) : ({ r with lexeme := .string read high } : Reader).take ['\\', d] =
      .ok { r with lexeme := .string (c :: read) false } := by
  have hstart : ({ r with lexeme := .string read high } : Reader).step '\\' =
      .ok { r with lexeme := .escape read high } := rfl
  have hletter : escaped? d = some c ∧ d ≠ 'u' :=
    (by decide : ∀ p ∈ shortEscapes, escaped? p.2 = some p.1 ∧ p.2 ≠ 'u') _ h
  rw [take_cons hstart, take_singleton, step]
  simp only [hletter.1, hletter.2, if_false]

/-- What a code point that has been written adds to the string that is read. -/
theorem take_escape (c : CodePoint) (r : Reader) (read : Text) (high : Bool) :
    ({ r with lexeme := .string read high } : Reader).take (escape c) =
      .ok { r with lexeme := withUnit read high c } := by
  have hsmall (h : c.val < 0xD800 ∨ 0xE000 ≤ c.val) :
      withUnit read high c = .string (c :: read) false := by
    apply withUnit_of_not_surrogate
    simp only [CodePoint.isSurrogate, Bool.and_eq_false_iff, decide_eq_false_iff_not]
    omega
  obtain ⟨d, hd, hesc⟩ | ⟨hp, h₁, h₂, hesc⟩ | ⟨h, hesc⟩ | ⟨h, hesc⟩ := escape_cases c
  · have hlt : c.val < 0x80 := (by decide : ∀ p ∈ shortEscapes, p.1.val < 0x80) _ hd
    rw [hesc, take_shortEscape hd, hsmall (by omega)]
  · have hlt : c.val < 0x7F := hp.2
    rw [hesc, take_singleton, step_printable hp.1 h₁ h₂, hsmall (by omega)]
  · rw [hesc, take_escapeUnit h]
  · rw [hesc, take_toSurrogates h, hsmall (by omega)]

/-! ## Strings -/

/-- A text that has been written, behind some text whose last code point it does not join: its
surrogate pairs are joined. -/
theorem take_flatMap_escape (t : Text) (r : Reader) (read : Text) {high : Bool}
    (h : ∀ c ∈ t.head?, (high && c.isLowSurrogate) = false) :
    ∃ read' high', ({ r with lexeme := .string read high } : Reader).take (t.flatMap escape) =
        .ok { r with lexeme := .string read' high' } ∧
      read'.reverse = Encoding.joinPairs read t := by
  -- the text that `joinPairs` carries along is the one that the reader has read
  fun_induction Encoding.joinPairs read t generalizing high with
  | case1 read => exact ⟨read, high, rfl, rfl⟩
  | case2 read c =>
      have hc := withUnit_of_not_joins (h c rfl) read
      refine ⟨c :: read, c.isHighSurrogate, ?_, rfl⟩
      rw [List.flatMap_singleton, take_escape, hc]
  | case3 read c d rest hpair ih =>
      rw [Bool.and_eq_true] at hpair
      have hc := withUnit_of_not_joins (h c rfl) read
      have hd : withUnit (c :: read) true d = .string (CodePoint.ofSurrogates c d :: read) false := by
        rw [withUnit, hpair.2, Bool.and_true, if_pos rfl]
      rw [List.flatMap_cons, take_append (take_escape c r read high), hc, hpair.1, List.flatMap_cons,
        take_append (take_escape d r (c :: read) true), hd]
      exact ih fun e _ => Bool.false_and _
  | case4 read c d rest hpair ih =>
      have hc := withUnit_of_not_joins (h c rfl) read
      rw [List.flatMap_cons, take_append (take_escape c r read high), hc]
      apply ih
      rintro e ⟨⟩
      exact Bool.eq_false_of_not_eq_true hpair

/-- A string is read back with its surrogate pairs joined. -/
theorem take_renderString (t : Text) (r : Reader) :
    ∃ read high, ({ r with lexeme := .string [] false } : Reader).take
        (t.flatMap escape ++ [CodePoint.ofChar '"']) =
      .ok (({ r with lexeme := .string read high } : Reader).deliverString (Encoding.joinPairs [] t)) := by
  obtain ⟨read, high, htake, hread⟩ := take_flatMap_escape t r [] fun c _ => Bool.false_and _
  refine ⟨read, high, ?_⟩
  rw [take_append htake, take_singleton, ← hread]
  rfl

/-! ## The form in which a text is written -/

theorem isPrinted_of_mem_escapeUnit (h : c.val < 0x10000) : ∀ d ∈ escapeUnit c, IsPrinted d := by
  have hdigit {n : Nat} (hn : n < 0x10) : IsPrinted (ofDigit n) := CodePoint.val_ofDigit_lt hn
  have hstart : ∀ d ∈ ("\\u" : Text), IsPrinted d := by decide
  intro d hd
  rw [escapeUnit, Text.hex_eq h, List.mem_append] at hd
  rcases hd with hd | hd
  · exact hstart d hd
  · simp only [List.mem_cons, List.not_mem_nil, or_false] at hd
    rcases hd with rfl | rfl | rfl | rfl
    · exact hdigit (by omega)
    · exact hdigit (by omega)
    · exact hdigit (by omega)
    · exact hdigit (by omega)

/-- A code point is written in printable characters of ASCII. -/
theorem isPrinted_of_mem_escape (c : CodePoint) : ∀ d ∈ escape c, IsPrinted d := by
  intro e he
  obtain ⟨d, hd, hesc⟩ | ⟨hp, -, -, hesc⟩ | ⟨h, hesc⟩ | ⟨h, hesc⟩ := escape_cases c
  · have hletter : IsPrinted d := (by decide : ∀ p ∈ shortEscapes, IsPrinted p.2) _ hd
    rw [hesc, List.mem_cons, List.mem_singleton] at he
    rcases he with rfl | rfl
    · decide
    · exact hletter
  · rw [hesc, List.mem_singleton] at he
    rw [he]
    exact hp
  · rw [hesc] at he
    exact isPrinted_of_mem_escapeUnit h e he
  · obtain ⟨⟨-, hhigh⟩, ⟨-, hlow⟩, -⟩ := CodePoint.toSurrogates_spec h
    rw [hesc, List.mem_append] at he
    rcases he with he | he
    · exact isPrinted_of_mem_escapeUnit hhigh e he
    · exact isPrinted_of_mem_escapeUnit hlow e he

/-- A string is written in printable characters of ASCII. -/
theorem isPrinted_of_mem_renderString (t : Text) : ∀ d ∈ renderString t, IsPrinted d := by
  intro d hd
  simp only [renderString, List.cons_append, List.mem_cons, List.mem_append, List.not_mem_nil,
    or_false, List.mem_flatMap] at hd
  rcases hd with rfl | ⟨c, -, hd⟩ | rfl
  · decide
  · exact isPrinted_of_mem_escape c d hd
  · decide

/-- A code point is not written in fewer characters than it has bytes. -/
theorem length_encodePoint_le (c : CodePoint) :
    (Utf8.encodePoint c).length ≤ (escape c).length := by
  have hunit {e : CodePoint} (he : e.val < 0x10000) : (escapeUnit e).length = 6 := by
    rw [escapeUnit, Text.hex_eq he]
    rfl
  have hbytes : (Utf8.encodePoint c).length =
      if c.val < 0x80 then 1 else if c.val < 0x800 then 2 else if c.val < 0x10000 then 3 else 4 := by
    rw [Utf8.encodePoint_eq, apply_ite List.length, apply_ite List.length, apply_ite List.length]
    rfl
  rw [hbytes]
  obtain ⟨d, hd, hesc⟩ | ⟨hp, -, -, hesc⟩ | ⟨h, hesc⟩ | ⟨h, hesc⟩ := escape_cases c
  · have hlt : c.val < 0x80 := (by decide : ∀ p ∈ shortEscapes, p.1.val < 0x80) _ hd
    rw [if_pos hlt, hesc]
    exact Nat.le_succ 1
  · have hlt : c.val < 0x7F := hp.2
    rw [if_pos (by omega), hesc]
    exact Nat.le_refl 1
  · rw [hesc, hunit h]
    split_ifs <;> omega
  · obtain ⟨⟨-, hhigh⟩, ⟨-, hlow⟩, -⟩ := CodePoint.toSurrogates_spec h
    rw [hesc, List.length_append, hunit hhigh, hunit hlow]
    split_ifs <;> omega

/-- A text is not written in fewer characters than it has bytes. -/
theorem length_flatMap_encodePoint_le (t : Text) :
    (t.flatMap Utf8.encodePoint).length ≤ (renderString t).length := by
  have hle : (t.flatMap Utf8.encodePoint).length ≤ (t.flatMap escape).length := by
    induction t with
    | nil => exact Nat.le_refl 0
    | cons c t ih =>
        rw [List.flatMap_cons, List.flatMap_cons, List.length_append, List.length_append]
        exact Nat.add_le_add (length_encodePoint_le c) ih
  rw [renderString, List.length_append, List.length_cons]
  omega

end Json

end LogRelay
