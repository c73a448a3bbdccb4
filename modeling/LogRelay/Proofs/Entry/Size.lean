import LogRelay.Proofs.Entry.Payload
import LogRelay.Proofs.Runs
import LogRelay.Proofs.Text.Decoding
/-!
# Messages are as short as they can be

A number can be written with more groups than it needs, and a message can hold fields that come again or
that count for nothing.  The message that an entry gets is no longer than any other one from which the
entry is read.

## Main definitions

* `Entry.size`: the length of the message of an entry.
* `Entry.bytesSize`: what a byte sequence contributes to it.

## Main statements

* `length_encode_le_of_read?`, `length_flatMap_encode_le_of_fields?`: numbers and fields take up as much
  room as they need, at least.
* `size_le_of_ofPayload?`: no message from which an entry is read is shorter than its own.
* `length_of_payload`: how the message changes with the line.
-/
namespace LogRelay

/-! ## Numbers -/

namespace Varint

theorem length_encode (n : Nat) :
    (encode n).length = if n < 0x80 then 1 else (encode (n / 0x80)).length + 1 := by
  rw [encode]
  split_ifs <;> rfl

/-- A smaller number takes up no more room. -/
theorem length_encode_mono {m n : Nat} (h : m ≤ n) : (encode m).length ≤ (encode n).length := by
  induction n using Nat.strong_induction_on generalizing m with
  | h n ih =>
      rw [length_encode m, length_encode n]
      split_ifs with hm hn
      · exact le_refl 1
      · omega
      · omega
      · have := ih (n / 0x80) (by omega) (by omega : m / 0x80 ≤ n / 0x80)
        omega

/-- A number that grows by less than a group of seven bits takes up at most one byte more. -/
theorem length_encode_le_succ {m n : Nat} (h : m < 0x80 * (n + 1)) :
    (encode m).length ≤ (encode n).length + 1 := by
  rw [length_encode m]
  split_ifs with hm
  · omega
  · have := length_encode_mono (by omega : m / 0x80 ≤ n)
    omega

theorem length_encode_le_of_readFrom? {weight sum room n : Nat} {bs rest : Bytes}
    (h : readFrom? weight sum room bs = some (n, rest)) :
    ∃ m, n = sum + weight * m ∧ (encode m).length + rest.length ≤ bs.length := by
  induction room generalizing weight sum bs with
  | zero => simp [readFrom?] at h
  | succ room ih =>
      cases bs with
      | nil => simp [readFrom?] at h
      | cons b bs =>
          rw [readFrom?] at h
          split_ifs at h with hb
          · obtain ⟨rfl, rfl⟩ := Prod.mk.inj (Option.some.inj h)
            refine ⟨b.toNat, rfl, ?_⟩
            rw [length_encode, if_pos hb, List.length_cons]
            omega
          · obtain ⟨m, rfl, hlen⟩ := ih h
            refine ⟨b.toNat - 0x80 + 0x80 * m, ?_, ?_⟩
            · rw [Nat.mul_add, Nat.mul_assoc, Nat.add_assoc]
            · have hb' : b.toNat < 0x100 := b.toNat_lt
              have hdiv : (b.toNat - 0x80 + 0x80 * m) / 0x80 = m := by omega
              rw [length_encode, hdiv, List.length_cons]
              split_ifs <;> omega

/-- A number takes up as much room as it needs, at least. -/
theorem length_encode_le_of_read? {room n : Nat} {bs rest : Bytes}
    (h : read? room bs = some (n, rest)) : (encode n).length + rest.length ≤ bs.length := by
  obtain ⟨m, rfl, hlen⟩ := length_encode_le_of_readFrom? h
  simpa using hlen

end Varint

/-! ## Fields -/

namespace Field

theorem length_encode_le_of_body? {number kind : Nat} {bs rest : Bytes} {f : Field}
    (h : body? number kind bs = some (.field f, rest)) :
    f.number = number ∧ f.encode.length + rest.length ≤ (tag number kind).length + bs.length := by
  have hsplit {n : Nat} {bs value rest : Bytes} (hs : split? n bs = some (value, rest)) :
      value.length = n ∧ value.length + rest.length = bs.length := by
    rw [split?] at hs
    split_ifs at hs with hle
    obtain ⟨rfl, rfl⟩ := Prod.mk.inj (Option.some.inj hs)
    rw [List.length_take, List.length_drop]
    omega
  unfold body? at h
  split at h
  · obtain ⟨⟨n, rest'⟩, hr, hs⟩ := Option.bind_eq_some_iff.1 h
    obtain ⟨hf, rfl⟩ := Prod.mk.inj (Option.some.inj hs)
    obtain rfl := Piece.field.inj hf
    have hread := Varint.length_encode_le_of_read? hr
    have hmono := Varint.length_encode_mono (Nat.mod_le n Varint.wordSize)
    simp only [encode, List.length_append, true_and]
    omega
  · obtain ⟨⟨value, rest'⟩, hv, hs⟩ := Option.bind_eq_some_iff.1 h
    obtain ⟨hf, rfl⟩ := Prod.mk.inj (Option.some.inj hs)
    obtain rfl := Piece.field.inj hf
    obtain ⟨-, hlen⟩ := hsplit hv
    simp only [encode, List.length_append, true_and]
    omega
  · obtain ⟨⟨n, rest'⟩, hr, hs⟩ := Option.bind_eq_some_iff.1 h
    obtain ⟨⟨value, rest''⟩, hv, hs⟩ := Option.bind_eq_some_iff.1 hs
    obtain ⟨hf, rfl⟩ := Prod.mk.inj (Option.some.inj hs)
    obtain rfl := Piece.field.inj hf
    have hread := Varint.length_encode_le_of_read? hr
    obtain ⟨hvalue, hlen⟩ := hsplit hv
    simp only [encode, List.length_append, true_and, hvalue]
    omega
  · cases h
  · cases h
  · obtain ⟨⟨value, rest'⟩, hv, hs⟩ := Option.bind_eq_some_iff.1 h
    obtain ⟨hf, rfl⟩ := Prod.mk.inj (Option.some.inj hs)
    obtain rfl := Piece.field.inj hf
    obtain ⟨-, hlen⟩ := hsplit hv
    simp only [encode, List.length_append, true_and]
    omega
  · cases h

/-- A field takes up as much room as it needs, at least. -/
theorem length_encode_le_of_piece? {inGroup : Bool} {bs rest : Bytes} {f : Field}
    (h : piece? inGroup bs = some (.field f, rest)) :
    f.encode.length + rest.length ≤ bs.length := by
  rw [piece?] at h
  split at h
  · cases h
  · rename_i t after hr
    split_ifs at h
    have hread := Varint.length_encode_le_of_read? hr
    obtain ⟨-, hbody⟩ := length_encode_le_of_body? h
    have ht : t / 8 * 8 + t % 8 = t := by omega
    rw [tag, ht] at hbody
    omega

end Field

/-- Fields take up as much room as they need, at least, and so do groups that are passed over. -/
theorem length_flatMap_encode_le_of_fieldsFrom? {room : Nat} {groups : List Nat}
    {read fs : List Field} {bs : Bytes} (h : fieldsFrom? room groups read bs = some fs) :
    (fs.flatMap Field.encode).length ≤ (read.flatMap Field.encode).length + bs.length := by
  fun_induction fieldsFrom? room groups read bs with
  | case1 read =>
      obtain rfl := Option.some.inj h
      have := (List.reverse_perm read).flatMap_right Field.encode
      rw [this.length_eq]
      exact Nat.le_add_right _ _
  | case4 groups read bs hbs f rest hpiece ih =>
      have hle := ih h
      have hfield := Field.length_encode_le_of_piece? hpiece
      -- inside a group the field is passed over
      split_ifs at hle
      · rw [List.flatMap_cons, List.length_append] at hle
        omega
      · omega
  | case5 groups read bs hbs number rest hpiece hroom ih =>
      have hle := ih h
      have hlt := Field.length_lt_of_piece? hpiece
      omega
  | case8 read bs hbs rest innermost outer hpiece hpiece' ih =>
      have hle := ih h
      have hlt := Field.length_lt_of_piece? hpiece
      omega
  | case2 | case3 | case6 | case7 | case9 => cases h

theorem length_flatMap_encode_le_of_fields? {room : Nat} {fs : List Field} {bs : Bytes}
    (h : fields? room bs = some fs) : (fs.flatMap Field.encode).length ≤ bs.length := by
  simpa using length_flatMap_encode_le_of_fieldsFrom? h

/-! ## Entries -/

namespace Entry

variable {e e' : Entry} {bs : Bytes}

/-- The room that a byte sequence takes up in a message. -/
def bytesSize (bs : Bytes) : Nat :=
  if bs = [] then 0 else 1 + (Varint.encode bs.length).length + bs.length

/-- The room that a time takes up in a message. -/
def timeSize (time : Int) : Nat :=
  if time = 0 then 0 else 1 + (Varint.encode (Varint.ofInt time)).length

/-- The length of the message of an entry, if it has one. -/
def size (e : Entry) : Nat :=
  bytesSize (e.source.flatMap Utf8.encodePoint) + timeSize e.time + bytesSize e.line +
    if e.isPartial then 2 else 0

theorem length_tag {number kind : Nat} (h : number * 8 + kind < 0x80) :
    (Field.tag number kind).length = 1 := by
  rw [Field.tag, Varint.length_encode, if_pos h]

theorem length_encode_bytes {number : Nat} (h : number * 8 + 2 < 0x80) (value : Bytes) :
    (Field.encode ⟨number, .bytes value⟩).length =
      1 + (Varint.encode value.length).length + value.length := by
  simp only [Field.encode, List.length_append, length_tag h]

theorem length_encode_varint {number : Nat} (h : number * 8 + 0 < 0x80) (n : Nat) :
    (Field.encode ⟨number, .varint n⟩).length = 1 + (Varint.encode n).length := by
  simp only [Field.encode, List.length_append, length_tag h]

theorem length_of_payload (h : e.payload = .ok bs) : bs.length = e.size := by
  obtain ⟨-, -, rfl⟩ := payload_eq_ok_iff.1 h
  have hbytes {number : Nat} (hn : number * 8 + 2 < 0x80) (value : Bytes) :
      ((if value = [] then [] else [(⟨number, .bytes value⟩ : Field)]).flatMap Field.encode).length =
        bytesSize value := by
    rw [bytesSize]
    split_ifs
    · rfl
    · rw [List.flatMap_singleton, length_encode_bytes hn]
  have htime : ((if e.time = 0 then [] else
      [(⟨2, .varint (Varint.ofInt e.time)⟩ : Field)]).flatMap Field.encode).length =
        timeSize e.time := by
    rw [timeSize]
    split_ifs
    · rfl
    · rw [List.flatMap_singleton, length_encode_varint (by decide)]
  have hpartial : ((if e.isPartial then [(⟨4, .varint 1⟩ : Field)] else []).flatMap
      Field.encode).length = if e.isPartial then 2 else 0 := by
    split_ifs
    · rw [List.flatMap_singleton, length_encode_varint (by decide), Varint.length_encode]
      rfl
    · rfl
  rw [fields, List.flatMap_append, List.flatMap_append, List.flatMap_append, List.length_append,
    List.length_append, List.length_append, hbytes (by decide), htime, hbytes (by decide), hpartial,
    size]

theorem bytesSize_le (value : Bytes) :
    bytesSize value ≤ 1 + (Varint.encode value.length).length + value.length := by
  rw [bytesSize]
  split_ifs <;> omega

theorem timeSize_toInt_le (n : Nat) :
    timeSize (Varint.toInt n) ≤ 1 + (Varint.encode n).length := by
  have hmod : Varint.ofInt (Varint.toInt n) ≤ n := by
    have hle := Nat.mod_le n Varint.wordSize
    simp only [Varint.ofInt_eq, Varint.toInt, Varint.wordSize] at hle ⊢
    omega
  have hmono := Varint.length_encode_mono hmod
  rw [timeSize]
  split_ifs <;> omega

/-- A field adds no more to the size of an entry than it takes up itself. -/
theorem size_le_of_take? {f : Field} (h : e.take? f = some e') :
    e'.size ≤ e.size + f.encode.length := by
  obtain ⟨number, value⟩ := f
  rw [take?] at h
  split at h
  · rename_i source hnumber hvalue
    obtain ⟨t, ht, rfl⟩ := Option.map_eq_some_iff.1 h
    obtain ⟨-, hbytes⟩ := Utf8.decode?_eq_some_iff.1 ht
    have hle := bytesSize_le source
    simp only at hnumber hvalue
    rw [hnumber, hvalue, length_encode_bytes (by decide)]
    simp only [size, hbytes]
    omega
  · rename_i n hnumber hvalue
    obtain rfl := Option.some.inj h
    have hle := timeSize_toInt_le n
    simp only at hnumber hvalue
    rw [hnumber, hvalue, length_encode_varint (by decide)]
    simp only [size]
    omega
  · rename_i line hnumber hvalue
    obtain rfl := Option.some.inj h
    have hle := bytesSize_le line
    simp only at hnumber hvalue
    rw [hnumber, hvalue, length_encode_bytes (by decide)]
    simp only [size]
    omega
  · rename_i n hnumber hvalue
    obtain rfl := Option.some.inj h
    have hpos := List.length_pos_iff.2 (Varint.encode_ne_nil n)
    simp only at hnumber hvalue
    rw [hnumber, hvalue, length_encode_varint (by decide)]
    simp only [size]
    split_ifs <;> omega
  · split_ifs at h
    obtain rfl := Option.some.inj h
    exact Nat.le_add_right _ _
  · obtain rfl := Option.some.inj h
    exact Nat.le_add_right _ _

theorem size_le_of_foldlM_take? {fs : List Field} (h : fs.foldlM take? e = some e') :
    e'.size ≤ e.size + (fs.flatMap Field.encode).length := by
  induction fs generalizing e with
  | nil =>
      obtain rfl := Option.some.inj h
      exact Nat.le_add_right _ _
  | cons f fs ih =>
      rw [List.foldlM_cons] at h
      obtain ⟨e₁, htake, hrest⟩ := Option.bind_eq_some_iff.1 h
      have hone := size_le_of_take? htake
      have hmore := ih hrest
      rw [List.flatMap_cons, List.length_append]
      omega

/-- No message from which an entry is read is shorter than its own. -/
theorem size_le_of_ofPayload? (h : ofPayload? bs = some e) : e.size ≤ bs.length := by
  obtain ⟨fs, hfs, hfold⟩ := Option.bind_eq_some_iff.1 h
  have hzero : ({} : Entry).size = 0 := rfl
  have hfields := size_le_of_foldlM_take? hfold
  have hle := length_flatMap_encode_le_of_fields? hfs
  omega

theorem hasSurrogate_source_of_take? {f : Field} (he : e.source.hasSurrogate = false)
    (h : e.take? f = some e') : e'.source.hasSurrogate = false := by
  rw [take?] at h
  split at h
  · obtain ⟨t, ht, rfl⟩ := Option.map_eq_some_iff.1 h
    exact (Utf8.decode?_eq_some_iff.1 ht).1
  · obtain rfl := Option.some.inj h
    exact he
  · obtain rfl := Option.some.inj h
    exact he
  · obtain rfl := Option.some.inj h
    exact he
  · split_ifs at h
    obtain rfl := Option.some.inj h
    exact he
  · obtain rfl := Option.some.inj h
    exact he

/-- The source of an entry that has been read has a UTF-8 form. -/
theorem hasSurrogate_source_of_ofPayload? (h : ofPayload? bs = some e) :
    e.source.hasSurrogate = false := by
  obtain ⟨fs, -, hfold⟩ := Option.bind_eq_some_iff.1 h
  have hstart : ({} : Entry).source.hasSurrogate = false := rfl
  refine foldlM_induction (P := fun e : Entry => e.source.hasSurrogate = false) ?_ hstart
    (fun _ _ => trivial : ∀ f ∈ fs, True) hfold
  intro e₀ f e₁ he _ htake
  exact hasSurrogate_source_of_take? he htake

end Entry

end LogRelay
