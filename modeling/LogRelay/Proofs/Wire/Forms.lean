import LogRelay.Wire.Field
import Mathlib.Algebra.Ring.Nat
import Mathlib.Data.List.Forall2
/-!
# The forms of numbers and fields

A number can be written in more groups of seven bits than it needs, so a field has many forms: its tag,
an integer and a length may each be longer than they need to be, as far as a reader goes.  Whatever form
they come in, fields that stand one after the other are read.

## Main definitions

* `Varint.Writes`: a byte sequence writes a number.
* `Field.IsTag`, `Field.Writes`: a byte sequence writes a tag, or a field.

## Main statements

* `Varint.writes_encode`: a number is written in the form that it gets.
* `Varint.read?_of_writes`, `Field.piece?_of_writes`, `fields?_of_forall₂`: numbers and fields are read in
  any form.
-/
namespace LogRelay

/-! ## Numbers -/

namespace Varint

/-- The bytes write the number in groups of seven bits, lowest first, and each but the last says that
another one follows. -/
inductive Writes : Bytes → Nat → Prop where
  | last {b : UInt8} (hb : b.toNat < 0x80) : Writes [b] b.toNat
  | more {b : UInt8} {bs : Bytes} {n : Nat} (hb : 0x80 ≤ b.toNat) (hbs : Writes bs n) :
    Writes (b :: bs) (b.toNat - 0x80 + 0x80 * n)

variable {bs : Bytes} {n room : Nat}

theorem Writes.ne_nil (h : Writes bs n) : bs ≠ [] := by
  cases h <;> simp

/-- A number is written in the form that it gets. -/
theorem writes_encode (n : Nat) : Writes (encode n) n := by
  induction n using Nat.strongRecOn with
  | ind n ih =>
      rw [encode]
      split_ifs with hn
      · have hb : (UInt8.ofNat n).toNat = n := by
          rw [UInt8.toNat_ofNat']
          omega
        have := Writes.last (b := UInt8.ofNat n) (by omega)
        rwa [hb] at this
      · have hb : (UInt8.ofNat (0x80 + n % 0x80)).toNat = 0x80 + n % 0x80 := by
          rw [UInt8.toNat_ofNat']
          omega
        have := Writes.more (b := UInt8.ofNat (0x80 + n % 0x80)) (by omega)
          (ih (n / 0x80) (by omega))
        rwa [hb, Nat.add_sub_cancel_left, Nat.mod_add_div] at this

theorem readFrom?_of_writes (h : Writes bs n) (weight sum : Nat) (hlen : bs.length ≤ room)
    (rest : Bytes) :
    readFrom? weight sum room (bs ++ rest) = some (sum + weight * n, rest) := by
  induction h generalizing weight sum room with
  | last hb =>
      obtain ⟨room, rfl⟩ := Nat.exists_eq_add_of_lt hlen
      rw [List.singleton_append, readFrom?, if_pos hb]
  | @more b bs n hb _ ih =>
      obtain ⟨room, rfl⟩ := Nat.exists_eq_add_of_lt (Nat.lt_of_lt_of_le (Nat.succ_pos _) hlen)
      rw [List.length_cons] at hlen
      have hsum : sum + weight * (b.toNat - 0x80) + weight * 0x80 * n =
          sum + weight * (b.toNat - 0x80 + 0x80 * n) := by
        rw [Nat.mul_add, Nat.mul_assoc, Nat.add_assoc]
      rw [List.cons_append, readFrom?, if_neg (Nat.not_lt.2 hb), ih _ _ (by omega), hsum]

/-- A number is read in any form that is not too long. -/
theorem read?_of_writes (h : Writes bs n) (hlen : bs.length ≤ room) (rest : Bytes) :
    read? room (bs ++ rest) = some (n, rest) := by
  rw [read?, readFrom?_of_writes h 1 0 hlen, Nat.zero_add, Nat.one_mul]

end Varint

/-! ## Fields -/

namespace Field

/-- The bytes write a tag for a field of the given number and a value of the given kind. -/
structure IsTag (number kind : Nat) (bs : Bytes) : Prop where
  writes : Varint.Writes bs (number * 8 + kind)
  length_le : bs.length ≤ 5
  number_pos : 0 < number
  number_lt : number < 0x20000000

/-- The bytes write the field: a tag, and a value of its kind.  Of an integer only 64 bits count. -/
inductive Writes : Bytes → Field → Prop where
  | varint {number n : Nat} {start value : Bytes} (htag : IsTag number 0 start)
    (hvalue : Varint.Writes value n) (hlen : value.length ≤ 10) :
    Writes (start ++ value) ⟨number, .varint (n % Varint.wordSize)⟩
  | fixed64 {number : Nat} {start value : Bytes} (htag : IsTag number 1 start)
    (hlen : value.length = 8) : Writes (start ++ value) ⟨number, .fixed64 value⟩
  | bytes {number : Nat} {start size value : Bytes} (htag : IsTag number 2 start)
    (hsize : Varint.Writes size value.length) (hlen : size.length ≤ 5) :
    Writes (start ++ size ++ value) ⟨number, .bytes value⟩
  | fixed32 {number : Nat} {start value : Bytes} (htag : IsTag number 5 start)
    (hlen : value.length = 4) : Writes (start ++ value) ⟨number, .fixed32 value⟩

variable {number kind : Nat} {bs start : Bytes} {f : Field}

theorem split?_append {n : Nat} {bs : Bytes} (rest : Bytes) (h : bs.length = n) :
    split? n (bs ++ rest) = some (bs, rest) := by
  subst h
  simp [split?]

/-- Behind its tag the body of a field is read. -/
theorem piece?_of_isTag (h : IsTag number kind start) (inGroup : Bool) (bs : Bytes)
    (hkind : kind < 8) : piece? inGroup (start ++ bs) = body? number kind bs := by
  have hpos := h.number_pos
  have hlt := h.number_lt
  have hdiv : (number * 8 + kind) / 8 = number := by omega
  have hmod : (number * 8 + kind) % 8 = kind := by omega
  rw [piece?, Varint.read?_of_writes h.writes h.length_le]
  simp only [hdiv, hmod]
  rw [if_neg (by omega)]

/-- A field is read in any form. -/
theorem piece?_of_writes (h : Writes bs f) (inGroup : Bool) (rest : Bytes) :
    piece? inGroup (bs ++ rest) = some (.field f, rest) := by
  cases h with
  | varint htag hvalue hlen =>
      rw [List.append_assoc, piece?_of_isTag htag inGroup _ (by decide)]
      simp [body?, Varint.read?_of_writes hvalue hlen]
  | fixed64 htag hlen =>
      rw [List.append_assoc, piece?_of_isTag htag inGroup _ (by decide)]
      simp [body?, split?_append rest hlen]
  | bytes htag hsize hlen =>
      rw [List.append_assoc, List.append_assoc, piece?_of_isTag htag inGroup _ (by decide)]
      simp [body?, Varint.read?_of_writes hsize hlen, split?_append rest rfl]
  | fixed32 htag hlen =>
      rw [List.append_assoc, piece?_of_isTag htag inGroup _ (by decide)]
      simp [body?, split?_append rest hlen]

theorem Writes.ne_nil (h : Writes bs f) : bs ≠ [] := by
  cases h with
  | varint htag | fixed64 htag | bytes htag | fixed32 htag => simp [htag.writes.ne_nil]

end Field

variable {forms : List Bytes} {fs : List Field}

/-- Fields are read in any form, behind those that have been read. -/
theorem fieldsFrom?_of_forall₂ (room : Nat) (read : List Field)
    (h : List.Forall₂ Field.Writes forms fs) :
    fieldsFrom? room [] read forms.flatten = some (read.reverse ++ fs) := by
  induction h generalizing read with
  | nil => simp [fieldsFrom?]
  | @cons bs f forms fs hwrites _ ih =>
      have hne : bs ++ forms.flatten ≠ [] := by simp [hwrites.ne_nil]
      have hpiece := Field.piece?_of_writes hwrites (!([] : List Nat).isEmpty) forms.flatten
      rw [List.flatten_cons, fieldsFrom?, if_neg hne]
      split
      · rename_i hp
        rw [hpiece] at hp
        cases hp
      · rename_i g rest hp
        rw [hpiece] at hp
        cases hp
        rw [if_pos rfl, ih]
        simp
      · rename_i number rest hp
        rw [hpiece] at hp
        cases hp
      · rename_i number rest hp
        rw [hpiece] at hp
        cases hp

/-- Fields are read in any form. -/
theorem fields?_of_forall₂ (room : Nat) (h : List.Forall₂ Field.Writes forms fs) :
    fields? room forms.flatten = some fs := by
  rw [fields?, fieldsFrom?_of_forall₂ room [] h, List.reverse_nil, List.nil_append]

end LogRelay
