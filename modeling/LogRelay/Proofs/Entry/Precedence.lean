import LogRelay.Proofs.Entry.Payload
import LogRelay.Proofs.Text.Decoding
import Mathlib.Data.List.Induction
/-!
# Which fields of a message count

A message may hold any fields, in any order and more than once.  The entry that it writes has, for each
of its four parts, the value of the last field with the number of the part and a value of its kind, and
the part that every entry has anyway if there is none.  All other fields count for nothing, so a peer that
knows of more fields, or that gives a known number another kind of value, is understood.

## Main definitions

* `lastOf?`, `Field.varint?`, `Field.bytes?`: the last field that is looked for.
* `Field.IsSound`: a text or a placement stands where one must stand.
* `Field.counts`: the fields that count.
* `Entry.ofFields`: the entry of the last fields.

## Main statements

* `Entry.take?_ofFields`: what one more field changes.
* `Entry.isPlacement_of_forall₂`: which byte sequences are placements.
* `Entry.last_fields_count`: the entry of a message of fields in any form.
-/
namespace LogRelay

/-! ## The last field -/

/-- What is found in the last field in which something is found. -/
def lastOf? {α : Type} (find : Field → Option α) (fs : List Field) : Option α :=
  (fs.filterMap find).getLast?

theorem lastOf?_concat {α : Type} (find : Field → Option α) (fs : List Field) (f : Field) :
    lastOf? find (fs ++ [f]) = (find f).or (lastOf? find fs) := by
  rw [lastOf?, lastOf?, List.filterMap_append]
  cases h : find f with
  | none => simp [h]
  | some a => simp [h]

namespace Field

/-- The integer of a field of the given number. -/
def varint? (number : Nat) (f : Field) : Option Nat :=
  match f.value with
  | .varint n => if f.number = number then some n else none
  | _ => none

/-- The byte sequence of a field of the given number. -/
def bytes? (number : Nat) (f : Field) : Option Bytes :=
  match f.value with
  | .bytes bs => if f.number = number then some bs else none
  | _ => none

/-- The bytes of a source are those of a text, and the bytes of a placement make up one. -/
def IsSound (f : Field) : Prop :=
  match f.number, f.value with
  | 1, .bytes source =>
    ∃ t : Text, t.hasSurrogate = false ∧ source = t.flatMap Utf8.encodePoint
  | 5, .bytes placement => Entry.isPlacement placement = true
  | _, _ => True

/-- The field has the number of a part of an entry and a value of its kind. -/
def counts (f : Field) : Bool :=
  match f.number, f.value with
  | 1, .bytes _ | 2, .varint _ | 3, .bytes _ | 4, .varint _ => true
  | _, _ => false

variable {f : Field} {number : Nat}

theorem cases_of_counts (h : f.counts = true) :
    (∃ source, f = ⟨1, .bytes source⟩) ∨ (∃ n, f = ⟨2, .varint n⟩) ∨
      (∃ line, f = ⟨3, .bytes line⟩) ∨ ∃ n, f = ⟨4, .varint n⟩ := by
  obtain ⟨number, value⟩ := f
  rw [counts] at h
  split at h <;> simp_all

theorem bytes?_eq_none (h : f.counts = false) (hn : number = 1 ∨ number = 3) :
    f.bytes? number = none := by
  obtain ⟨m, value⟩ := f
  cases value with
  | bytes bs =>
      have hne : m ≠ number := by
        rintro rfl
        rcases hn with rfl | rfl <;> cases h
      simp [bytes?, hne]
  | varint | fixed64 | fixed32 => rfl

theorem varint?_eq_none (h : f.counts = false) (hn : number = 2 ∨ number = 4) :
    f.varint? number = none := by
  obtain ⟨m, value⟩ := f
  cases value with
  | varint n =>
      have hne : m ≠ number := by
        rintro rfl
        rcases hn with rfl | rfl <;> cases h
      simp [varint?, hne]
  | bytes | fixed64 | fixed32 => rfl

end Field

/-- Fields that count for nothing are not looked for. -/
theorem lastOf?_filter {α : Type} (find : Field → Option α) (fs : List Field)
    (h : ∀ f, f.counts = false → find f = none) :
    lastOf? find (fs.filter Field.counts) = lastOf? find fs := by
  rw [lastOf?, lastOf?, List.filterMap_filter]
  congr 2
  funext f
  cases hf : f.counts with
  | true => rfl
  | false => rw [h f hf]; rfl

namespace Entry

variable {e : Entry} {f : Field} {fs : List Field}

/-- The entry with the parts that the last fields give. -/
def ofFields (fs : List Field) : Entry where
  source := ((lastOf? (Field.bytes? 1) fs).bind Utf8.decode?).getD []
  time := (lastOf? (Field.varint? 2) fs).elim 0 Varint.toInt
  line := (lastOf? (Field.bytes? 3) fs).getD []
  isPartial := (lastOf? (Field.varint? 4) fs).any (· ≠ 0)

/-- Fields that count for nothing give no part. -/
theorem ofFields_filter (fs : List Field) : ofFields (fs.filter Field.counts) = ofFields fs := by
  have hbytes {number : Nat} (hn : number = 1 ∨ number = 3) :=
    lastOf?_filter (Field.bytes? number) fs fun f h => Field.bytes?_eq_none h hn
  have hvarint {number : Nat} (hn : number = 2 ∨ number = 4) :=
    lastOf?_filter (Field.varint? number) fs fun f h => Field.varint?_eq_none h hn
  rw [ofFields, ofFields, hbytes (.inl rfl), hbytes (.inr rfl), hvarint (.inl rfl),
    hvarint (.inr rfl)]

/-- A field that counts for nothing is passed over. -/
theorem take?_of_not_counts (hf : f.IsSound) (h : f.counts = false) : e.take? f = some e := by
  obtain ⟨number, value⟩ := f
  rw [take?]
  split
  · simp_all [Field.counts]
  · simp_all [Field.counts]
  · simp_all [Field.counts]
  · simp_all [Field.counts]
  · rename_i placement hnumber hvalue
    simp only at hnumber hvalue
    subst hnumber hvalue
    exact if_pos hf
  · rfl

/-- One more field replaces the part that it gives. -/
theorem take?_ofFields (hf : f.IsSound) (fs : List Field) :
    (ofFields fs).take? f = some (ofFields (fs ++ [f])) := by
  cases h : f.counts with
  | false =>
      have hfilter : (fs ++ [f]).filter Field.counts = fs.filter Field.counts := by
        simp [List.filter_append, h]
      rw [take?_of_not_counts hf h, ← ofFields_filter (fs ++ [f]), hfilter, ofFields_filter]
  | true =>
      simp only [ofFields, lastOf?_concat]
      obtain ⟨source, rfl⟩ | ⟨n, rfl⟩ | ⟨line, rfl⟩ | ⟨n, rfl⟩ := Field.cases_of_counts h
      · obtain ⟨t, ht, rfl⟩ := hf
        simp [take?, Field.bytes?, Field.varint?, Utf8.decode?_encode ht]
      · simp [take?, Field.bytes?, Field.varint?]
      · simp [take?, Field.bytes?, Field.varint?]
      · simp [take?, Field.bytes?, Field.varint?]

/-- Sound fields, taken one after the other, make up the entry of the last ones. -/
theorem foldlM_take?_ofFields {fs : List Field} (h : ∀ f ∈ fs, f.IsSound) :
    fs.foldlM take? {} = some (ofFields fs) := by
  induction fs using List.reverseRecOn with
  | nil => rfl
  | append_singleton fs f ih =>
      rw [List.forall_mem_append, List.forall_mem_singleton] at h
      rw [List.foldlM_append, ih h.1]
      simpa using take?_ofFields h.2 fs

/-- Fields in any form make up a placement if the identifiers among them are texts. -/
theorem isPlacement_of_forall₂ {forms : List Bytes} (h : List.Forall₂ Field.Writes forms fs)
    (hid : ∀ id, (⟨2, .bytes id⟩ : Field) ∈ fs →
      ∃ t : Text, t.hasSurrogate = false ∧ id = t.flatMap Utf8.encodePoint) :
    isPlacement forms.flatten = true := by
  rw [isPlacement, fields?_of_forall₂ _ h]
  simp only [List.all_eq_true]
  rintro ⟨number, value⟩ hf
  split
  · rename_i id hnumber hvalue
    simp only at hnumber hvalue
    subst hnumber hvalue
    obtain ⟨t, ht, rfl⟩ := hid id hf
    rw [Utf8.decode?_encode ht]
    rfl
  · rfl

/-- **A message of any fields is understood.**  Fields whose numbers fit in a tag and whose values are
ones that can be read, in any order and with any repetition, the sources among them being texts and the
placements placements, are the message of an entry: it has, for each of its parts, the value of the last
field with the number and the kind of the part, and the default if there is none.  So it is whatever form
the fields are written in, and the fields that do not count may as well be left out. -/
theorem last_fields_count (hwritable : ∀ f ∈ fs, f.IsWritable) (hsound : ∀ f ∈ fs, f.IsSound) :
    ofPayload? (fs.flatMap Field.encode) = some (ofFields fs) ∧
      (∀ forms, List.Forall₂ Field.Writes forms fs →
        ofPayload? forms.flatten = some (ofFields fs)) ∧
      ofPayload? ((fs.filter Field.counts).flatMap Field.encode) = some (ofFields fs) := by
  have hforms {fs : List Field} (hs : ∀ f ∈ fs, f.IsSound) {forms : List Bytes}
      (h : List.Forall₂ Field.Writes forms fs) : ofPayload? forms.flatten = some (ofFields fs) := by
    rw [ofPayload?, fields?_of_forall₂ maxNesting h]
    exact foldlM_take?_ofFields hs
  refine ⟨hforms hsound (forall₂_writes_encode hwritable), fun forms => hforms hsound, ?_⟩
  rw [← ofFields_filter fs]
  exact hforms (fun f hf => hsound f (List.mem_of_mem_filter hf))
    (forall₂_writes_encode fun f hf => hwritable f (List.mem_of_mem_filter hf))

/-- Numbers that come twice, that nobody knows, or that come with a value of another kind. -/
theorem last_fields_count_repeated :
    let fs : List Field := [⟨4, .bytes [1]⟩, ⟨2, .varint (Varint.wordSize - 1)⟩, ⟨1, .bytes [97]⟩,
      ⟨536870911, .fixed64 [1, 2, 3, 4, 5, 6, 7, 8]⟩, ⟨5, .bytes [0x12, 1, 98]⟩, ⟨1, .bytes [98]⟩,
      ⟨3, .bytes [10]⟩, ⟨3, .fixed32 [1, 2, 3, 4]⟩, ⟨4, .varint 0⟩, ⟨4, .varint 2⟩]
    (∀ f ∈ fs, f.IsWritable) ∧ (∀ f ∈ fs, f.IsSound) ∧ ofPayload? (fs.flatMap Field.encode) =
      some { source := "b", time := -1, line := [10], isPartial := true } := by
  intro fs
  have hwritable : ∀ f ∈ fs, f.IsWritable := by
    simp [fs, Field.IsWritable, Varint.wordSize]
  have hb : ∃ t : Text, t.hasSurrogate = false ∧ [98] = t.flatMap Utf8.encodePoint :=
    ⟨"b", by decide, by decide⟩
  have hplacement : isPlacement [0x12, 1, 98] = true := by
    have hbytes : ([⟨2, .bytes [98]⟩].map Field.encode).flatten = [0x12, 1, 98] := by
      decide +kernel
    rw [← hbytes]
    refine isPlacement_of_forall₂ (forall₂_writes_encode ?_) ?_
    · simp [Field.IsWritable]
    · intro id hid
      simp only [List.mem_singleton, Field.mk.injEq, Field.Value.bytes.injEq, true_and] at hid
      rwa [hid]
  have hsound : ∀ f ∈ fs, f.IsSound := by
    have ha : ∃ t : Text, t.hasSurrogate = false ∧ [97] = t.flatMap Utf8.encodePoint :=
      ⟨"a", by decide, by decide⟩
    simpa [fs, Field.IsSound] using ⟨ha, hplacement, hb⟩
  have hlast : ofFields fs = { source := "b", time := -1, line := [10], isPartial := true } := by
    decide +kernel
  refine ⟨hwritable, hsound, ?_⟩
  rw [← hlast]
  exact (last_fields_count hwritable hsound).1

end Entry

end LogRelay
