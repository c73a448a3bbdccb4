import LogRelay.Proofs.Wire.Forms
/-!
# What is written in fields is read back

The form that a field gets is one in which it is read, and so is that of a number, unless there is no room
for all its groups.

## Main definitions

* `Field.IsWritable`: the fields that can be read back.

## Main statements

* `toInt_ofInt`: numbers of 64 bits are read back.
* `writes_encode`, `forall₂_writes_encode`, `fields?_flatMap_encode`: fields are read back.
-/
namespace LogRelay

namespace Varint

theorem encode_ne_nil (n : Nat) : encode n ≠ [] :=
  (writes_encode n).ne_nil

/-- A number that has so many groups of seven bits takes no more bytes. -/
theorem length_encode_le {room n : Nat} (hr : 0 < room) (h : n < 0x80 ^ room) :
    (encode n).length ≤ room := by
  induction room generalizing n with
  | zero => omega
  | succ room ih =>
      rw [encode]
      by_cases hn : n < 0x80
      · rw [if_pos hn, List.length_singleton]
        omega
      · have hroom : 0 < room := by
          rcases Nat.eq_zero_or_pos room with rfl | hpos
          · simp only [Nat.zero_add, Nat.pow_one] at h
            omega
          · exact hpos
        have hdiv : n / 0x80 < 0x80 ^ room := by
          rw [Nat.pow_succ] at h
          omega
        have := ih hroom hdiv
        rw [if_neg hn, List.length_cons]
        omega

theorem ofInt_eq (n : Int) : ofInt n = (n % 0x10000000000000000).toNat := rfl

theorem ofInt_lt (n : Int) : ofInt n < wordSize := by
  rw [ofInt_eq, wordSize]
  omega

/-- A number of 64 bits is read back. -/
theorem toInt_ofInt {n : Int} (h₁ : -0x8000000000000000 ≤ n) (h₂ : n < 0x8000000000000000) :
    toInt (ofInt n) = n := by
  have hlt := ofInt_lt n
  simp only [toInt, Nat.mod_eq_of_lt hlt]
  simp only [ofInt_eq, wordSize] at hlt ⊢
  omega

/-- Every number that is read fits in 64 bits. -/
theorem toInt_bounds (n : Nat) :
    -0x8000000000000000 ≤ toInt n ∧ toInt n < 0x8000000000000000 := by
  simp only [toInt, wordSize]
  omega

end Varint

namespace Field

/-- The field can be read back: its number can be written in a tag, and its value is one that the
reader of its kind takes. -/
def IsWritable (f : Field) : Prop :=
  0 < f.number ∧ f.number < 0x20000000 ∧ match f.value with
    | .varint n => n < Varint.wordSize
    | .fixed64 bs => bs.length = 8
    | .bytes bs => bs.length < 0x80 ^ 5
    | .fixed32 bs => bs.length = 4

theorem isTag_tag {number kind : Nat} (hpos : 0 < number) (hlt : number < 0x20000000)
    (hkind : kind < 8) : IsTag number kind (tag number kind) where
  writes := Varint.writes_encode _
  length_le := Varint.length_encode_le (by decide) (by omega)
  number_pos := hpos
  number_lt := hlt

/-- A field that can be read back is written in the form that it gets. -/
theorem writes_encode {f : Field} (h : f.IsWritable) : Writes f.encode f := by
  obtain ⟨number, value⟩ := f
  obtain ⟨hpos, hlt, hvalue⟩ := h
  have htag {kind : Nat} (hkind : kind < 8) := isTag_tag hpos hlt hkind
  cases value with
  | varint n =>
      have hlen : (Varint.encode n).length ≤ 10 :=
        Varint.length_encode_le (by decide) (Nat.lt_of_lt_of_le hvalue (by decide))
      have := Writes.varint (htag (by decide)) (Varint.writes_encode n) hlen
      rwa [Nat.mod_eq_of_lt hvalue] at this
  | fixed64 bs => exact .fixed64 (htag (by decide)) hvalue
  | bytes bs =>
      exact .bytes (htag (by decide)) (Varint.writes_encode bs.length)
        (Varint.length_encode_le (by decide) hvalue)
  | fixed32 bs => exact .fixed32 (htag (by decide)) hvalue

end Field

theorem forall₂_writes_encode {fs : List Field} (h : ∀ f ∈ fs, f.IsWritable) :
    List.Forall₂ Field.Writes (fs.map Field.encode) fs := by
  induction fs with
  | nil => exact .nil
  | cons f fs ih =>
      rw [List.forall_mem_cons] at h
      exact .cons (Field.writes_encode h.1) (ih h.2)

/-- The fields that are written are read back. -/
theorem fields?_flatMap_encode (room : Nat) {fs : List Field} (h : ∀ f ∈ fs, f.IsWritable) :
    fields? room (fs.flatMap Field.encode) = some fs :=
  fields?_of_forall₂ room (forall₂_writes_encode h)

end LogRelay
