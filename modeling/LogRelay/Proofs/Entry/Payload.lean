import LogRelay.Entry.Codec
import LogRelay.Proofs.Text.Encoding
import LogRelay.Proofs.Wire.Fields
/-!
# The message of an entry is read back

An entry that has a message is the entry that its message writes, and whatever entry a message writes
has a time of 64 bits.

## Main statements

* `ofPayload?_payload`: an entry is read back from its message.
* `fitsTime_of_ofPayload?`: the time of an entry that has been read fits in 64 bits.
-/
namespace LogRelay.Entry

variable {e e' : Entry} {bs : Bytes}

/-- An entry that has a message. -/
theorem payload_eq_ok_iff : e.payload = .ok bs ↔
    e.source.hasSurrogate = false ∧ fitsTime e.time = true ∧
      bs = (e.fields (e.source.flatMap Utf8.encodePoint)).flatMap Field.encode := by
  rw [payload]
  cases hs : e.source.unencodable? with
  | none =>
      simp only [unencodable?_eq_none_iff.1 hs, true_and]
      by_cases ht : fitsTime e.time = true <;> simp [ht, eq_comm]
  | some refusal =>
      have hne : ¬ e.source.hasSurrogate = false := by
        rw [← unencodable?_eq_none_iff, hs]
        exact Option.some_ne_none _
      simp [hne]

/-- An entry has a message just if its source has a UTF-8 form and its time fits in 64 bits. -/
theorem exists_payload_iff :
    (∃ bs, e.payload = .ok bs) ↔ e.source.hasSurrogate = false ∧ fitsTime e.time = true := by
  constructor
  · rintro ⟨bs, h⟩
    obtain ⟨hs, ht, -⟩ := payload_eq_ok_iff.1 h
    exact ⟨hs, ht⟩
  · rintro ⟨hs, ht⟩
    exact ⟨_, payload_eq_ok_iff.2 ⟨hs, ht, rfl⟩⟩

/-- The fields of an entry can be read back if their values are not too long. -/
theorem isWritable_of_mem_fields {source : Bytes} (hs : source.length < 0x80 ^ 5)
    (hl : e.line.length < 0x80 ^ 5) : ∀ f ∈ e.fields source, f.IsWritable := by
  intro f hf
  simp only [fields, List.mem_append] at hf
  rcases hf with ((hf | hf) | hf) | hf <;> split at hf <;> simp at hf <;> subst hf
  · exact ⟨by simp, by simp, hs⟩
  · exact ⟨by simp, by simp, Varint.ofInt_lt _⟩
  · exact ⟨by simp, by simp, hl⟩
  · exact ⟨by simp, by simp, by decide⟩

/-- A byte sequence is no longer than the message with a field that holds it. -/
theorem length_le_of_mem_fields {fs : List Field} {number : Nat} {value : Bytes}
    (h : ⟨number, .bytes value⟩ ∈ fs) : value.length ≤ (fs.flatMap Field.encode).length := by
  obtain ⟨before, behind, rfl⟩ := List.append_of_mem h
  simp only [List.flatMap_append, List.flatMap_cons, Field.encode, List.length_append]
  omega

/-- A message is not much longer than the texts in it. -/
theorem length_le_of_payload (h : e.payload = .ok bs)
    (hs : (e.source.flatMap Utf8.encodePoint).length < 0x80 ^ 5) (hl : e.line.length < 0x80 ^ 5) :
    bs.length ≤ (e.source.flatMap Utf8.encodePoint).length + e.line.length + 25 := by
  obtain ⟨-, -, rfl⟩ := payload_eq_ok_iff.1 h
  have htag {number kind : Nat} (hn : number * 8 + kind < 0x80) :
      (Field.tag number kind).length = 1 := by
    rw [Field.tag, Varint.encode, if_pos hn, List.length_singleton]
  have hbytes {number : Nat} {value : Bytes} (hn : number * 8 + 2 < 0x80)
      (hv : value.length < 0x80 ^ 5) : ((if value = [] then [] else
        [(⟨number, .bytes value⟩ : Field)]).flatMap Field.encode).length ≤ 6 + value.length := by
    have hlen := Varint.length_encode_le (by decide) hv
    split_ifs
    · simp
    · simp only [List.flatMap_cons, List.flatMap_nil, List.append_nil, Field.encode,
        List.length_append, htag hn]
      omega
  have htime : ((if e.time = 0 then [] else
      [(⟨2, .varint (Varint.ofInt e.time)⟩ : Field)]).flatMap Field.encode).length ≤ 11 := by
    have hlen := Varint.length_encode_le (by decide)
      ((Varint.ofInt_lt e.time).trans (by decide : _ < 0x80 ^ 10))
    split_ifs
    · simp
    · simp only [List.flatMap_cons, List.flatMap_nil, List.append_nil, Field.encode,
        List.length_append, htag (by decide : 2 * 8 + 0 < 0x80)]
      omega
  have hpartial : ((if e.isPartial then [(⟨4, .varint 1⟩ : Field)] else []).flatMap
      Field.encode).length ≤ 2 := by
    have hlen := Varint.length_encode_le (by decide) (by decide : 1 < 0x80 ^ 1)
    split_ifs
    · simp only [List.flatMap_cons, List.flatMap_nil, List.append_nil, Field.encode,
        List.length_append, htag (by decide : 4 * 8 + 0 < 0x80)]
      omega
    · simp
  have hsource := hbytes (by decide : 1 * 8 + 2 < 0x80) hs
  have hline := hbytes (by decide : 3 * 8 + 2 < 0x80) hl
  rw [fields, List.flatMap_append, List.flatMap_append, List.flatMap_append, List.length_append,
    List.length_append, List.length_append]
  omega

/-- The fields of an entry, taken one after the other, make up the entry. -/
theorem foldlM_take?_fields (hs : e.source.hasSurrogate = false) (ht : fitsTime e.time = true) :
    (e.fields (e.source.flatMap Utf8.encodePoint)).foldlM take? {} = some e := by
  obtain ⟨line, source, isPartial, time⟩ := e
  simp only [fitsTime, decide_eq_true_eq] at ht
  have htime := Varint.toInt_ofInt ht.1 ht.2
  have hdecode := Utf8.decode?_encode hs
  have h₁ : (if source.flatMap Utf8.encodePoint = [] then [] else
      [(⟨1, .bytes (source.flatMap Utf8.encodePoint)⟩ : Field)]).foldlM take? {} =
        some { source } := by
    split
    · rename_i hnil
      rw [hnil] at hdecode
      cases hdecode
      rfl
    · simp [take?, hdecode]
  have h₂ : (if time = 0 then [] else [(⟨2, .varint (Varint.ofInt time)⟩ : Field)]).foldlM take?
      { source } = some { source, time } := by
    split
    · rename_i hzero
      rw [hzero]
      rfl
    · simp [take?, htime]
  have h₃ : (if line = [] then [] else [(⟨3, .bytes line⟩ : Field)]).foldlM take?
      { source, time } = some { source, time, line } := by
    split
    · rename_i hnil
      rw [hnil]
      rfl
    · simp [take?]
  have h₄ : (if isPartial then [(⟨4, .varint 1⟩ : Field)] else []).foldlM take?
      { source, time, line } = some { source, time, line, isPartial } := by
    cases isPartial <;> rfl
  simp only [fields, List.foldlM_append, h₁, Option.bind_eq_bind, Option.bind_some, h₂, h₃, h₄]

/-- An entry is read back from its message. -/
theorem ofPayload?_payload (h : e.payload = .ok bs) (hb : bs.length < 0x80 ^ 5) :
    ofPayload? bs = some e := by
  obtain ⟨hs, ht, rfl⟩ := payload_eq_ok_iff.1 h
  have hsource : (e.source.flatMap Utf8.encodePoint).length < 0x80 ^ 5 := by
    by_cases hnil : e.source.flatMap Utf8.encodePoint = []
    · simp [hnil]
    · exact Nat.lt_of_le_of_lt (length_le_of_mem_fields (by simp [fields, hnil] : (⟨1, .bytes _⟩ : Field) ∈ _)) hb
  have hline : e.line.length < 0x80 ^ 5 := by
    by_cases hnil : e.line = []
    · simp [hnil]
    · exact Nat.lt_of_le_of_lt (length_le_of_mem_fields (by simp [fields, hnil] : (⟨3, .bytes _⟩ : Field) ∈ _)) hb
  rw [ofPayload?, fields?_flatMap_encode maxNesting (isWritable_of_mem_fields hsource hline)]
  exact foldlM_take?_fields hs ht

/-- Taking a field leaves a time of 64 bits. -/
theorem fitsTime_of_take? {f : Field} (he : fitsTime e.time = true) (h : e.take? f = some e') :
    fitsTime e'.time = true := by
  rw [take?] at h
  split at h
  · obtain ⟨t, -, rfl⟩ := Option.map_eq_some_iff.1 h
    exact he
  · cases h
    simpa [fitsTime] using Varint.toInt_bounds _
  · cases h
    exact he
  · cases h
    exact he
  · split at h <;> cases h
    exact he
  · cases h
    exact he

/-- The time of an entry that has been read fits in 64 bits. -/
theorem fitsTime_of_ofPayload? (h : ofPayload? bs = some e) : fitsTime e.time = true := by
  obtain ⟨fs, -, hfold⟩ := Option.bind_eq_some_iff.1 h
  have hall : ∀ e₀ : Entry, fitsTime e₀.time = true → ∀ e₁, fs.foldlM take? e₀ = some e₁ →
      fitsTime e₁.time = true := by
    clear hfold h
    induction fs with
    | nil =>
        intro e₀ he e₁ h
        cases h
        exact he
    | cons f fs ih =>
        intro e₀ he e₁ h
        obtain ⟨e', htake, hrest⟩ := Option.bind_eq_some_iff.1 h
        exact ih e' (fitsTime_of_take? he htake) e₁ hrest
  exact hall {} (by decide) e hfold

end LogRelay.Entry
