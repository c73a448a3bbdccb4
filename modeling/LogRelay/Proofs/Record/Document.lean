import LogRelay.Proofs.Calendar.Timestamp
import LogRelay.Proofs.Entry.Payload
import LogRelay.Proofs.Json.Objects
/-!
# Records are read back from their documents

A record of texts whose time is one of 64 bits has a document in printable ASCII, and the record that is
read from that is the same but for its surrogate pairs, which are joined.

## Main definitions

* `Record.joinPairs`: the record with the surrogate pairs of its texts joined.
* `Record.IsUnpaired`: the records of texts that hold no surrogate pairs.
* `Record.IsStorable`: the records of a stream that are read back.
* `Record.IsLegible`: the records of which the entry is read back, if not the container.

## Main statements

* `document_lossless`: what is read from the document of a record of texts, and when it is the record.
* `exists_ofDocument_document`, `ofDocument_document`: the record of a stream is read back from its
  document.
* `length_le_of_document`: a document is not shorter than what an entry has of it.
-/
namespace LogRelay.Record

/-- A record of texts whose line, source and container have bytes, and whose time is one of 64 bits. -/
structure IsStorable (r : Record Json) : Prop where
  line : r.line.hasSurrogate = false
  source : r.source.hasSurrogate = false
  time : Entry.fitsTime r.time = true
  containerId : ∃ id : Text, r.containerId = .str id ∧ id.hasSurrogate = false
  imageName : ∃ t : Text, r.imageName = .str t
  imageId : ∃ t : Text, r.imageId = .str t

/-- A record of texts whose line and source have bytes, and whose time is one of 64 bits. -/
structure IsLegible (r : Record Json) : Prop where
  line : r.line.hasSurrogate = false
  source : r.source.hasSurrogate = false
  time : Entry.fitsTime r.time = true
  containerId : ∃ t : Text, r.containerId = .str t
  imageName : ∃ t : Text, r.imageName = .str t
  imageId : ∃ t : Text, r.imageId = .str t

theorem IsStorable.isLegible {r : Record Json} (h : r.IsStorable) : r.IsLegible where
  line := h.line
  source := h.source
  time := h.time
  containerId := by
    obtain ⟨id, hid, -⟩ := h.containerId
    exact ⟨id, hid⟩
  imageName := h.imageName
  imageId := h.imageId

/-- The members of the document of a record with the given timestamp. -/
def members (r : Record Json) (timestamp : Text) : List (Text × Json) :=
  [("line", .str r.line), ("source", .str r.source), ("partial", .bool r.isPartial),
    ("timestamp", .str timestamp), ("containerId", r.containerId),
    ("containerName", .str r.containerName), ("containerImageName", r.imageName),
    ("containerImageId", r.imageId), ("hostname", .str r.hostname)]

variable {r : Record Json} {timestamp : Text}

theorem document_eq (h : Timestamp.format r.time = .ok timestamp) :
    r.document = .ok (Json.render (.obj (r.members timestamp))).toBytes := by
  rw [document, toJson, h]
  rfl

/-- The names of the members. -/
def memberNames : List Text :=
  ["line", "source", "partial", "timestamp", "containerId", "containerName", "containerImageName",
    "containerImageId", "hostname"]

theorem map_fst_members (r : Record Json) (timestamp : Text) :
    (r.members timestamp).map Prod.fst = memberNames := rfl

theorem nodup_members (r : Record Json) (timestamp : Text) :
    ((r.members timestamp).map Prod.fst).Nodup := by
  rw [map_fst_members]
  decide

/-- A text is taken as a label. -/
theorem plain_orElse (t : Text) : (Json.orElse (some (.str t)) (.str [])).plain = t := by
  cases t <;> rfl

/-! ## Records of texts -/

section

variable {r : Record Text} {value : Bytes}

/-- The record with the surrogate pairs of its texts joined. -/
def joinPairs (r : Record Text) : Record Text where
  line := Encoding.joinPairs [] r.line
  source := Encoding.joinPairs [] r.source
  isPartial := r.isPartial
  time := r.time
  containerId := Encoding.joinPairs [] r.containerId
  containerName := Encoding.joinPairs [] r.containerName
  imageName := Encoding.joinPairs [] r.imageName
  imageId := Encoding.joinPairs [] r.imageId
  hostname := Encoding.joinPairs [] r.hostname

/-- The texts of a record. -/
def texts (r : Record Text) : List Text :=
  [r.line, r.source, r.containerId, r.containerName, r.imageName, r.imageId, r.hostname]

/-- In none of the texts a high surrogate is directly followed by a low one. -/
def IsUnpaired (r : Record Text) : Prop :=
  ∀ t ∈ r.texts, t.IsUnpaired

instance (r : Record Text) : Decidable r.IsUnpaired :=
  inferInstanceAs (Decidable (∀ t ∈ r.texts, t.IsUnpaired))

/-- The records that are left as they are. -/
theorem joinPairs_eq_iff : r.joinPairs = r ↔ r.IsUnpaired := by
  cases r
  simp only [joinPairs, IsUnpaired, texts, Record.mk.injEq, Encoding.joinPairs_eq_iff, true_and,
    List.forall_mem_cons, List.not_mem_nil, false_imp_iff, implies_true, and_true]

/-- A record of texts makes up a flat object. -/
theorem isFlat_members (r : Record Text) (timestamp : Text) :
    ∀ m ∈ (r.map Json.str).members timestamp, m.1.IsUnpaired ∧ m.2.IsFlat := by
  have hnames : ∀ name ∈ memberNames, name.IsUnpaired := by decide
  intro m hm
  constructor
  · apply hnames
    rw [← map_fst_members (r.map Json.str) timestamp]
    exact List.mem_map_of_mem hm
  · simp only [members, map, List.mem_cons, List.not_mem_nil, or_false] at hm
    rcases hm with rfl | rfl | rfl | rfl | rfl | rfl | rfl | rfl | rfl
    all_goals trivial

/-- The members of a document, and what is read of them. -/
theorem map_readBack_members (r : Record Text) (timestamp : Text) :
    ((r.map Json.str).members timestamp).map (Prod.map id Json.readBack) =
      (r.joinPairs.map Json.str).members (Encoding.joinPairs [] timestamp) := rfl

/-- The record of the members of its document. -/
theorem ofJson_members {timestamp : Text} (h : Timestamp.parse? timestamp = some r.time) :
    ofJson (.obj ((r.map Json.str).members timestamp)) = .ok r := by
  have hfields : ofJson (.obj ((r.map Json.str).members timestamp)) = do
      return {
        line := r.line
        source := (Json.orElse (some (.str r.source)) (.str [])).plain
        isPartial := r.isPartial
        time := ← readTimestamp timestamp
        containerId := (Json.orElse (some (.str r.containerId)) (.str [])).plain
        containerName := (Json.orElse (some (.str r.containerName)) (.str [])).plain
        imageName := (Json.orElse (some (.str r.imageName)) (.str [])).plain
        imageId := (Json.orElse (some (.str r.imageId)) (.str [])).plain
        hostname := (Json.orElse (some (.str r.hostname)) (.str [])).plain } := rfl
  rw [hfields, readTimestamp, h]
  simp only [plain_orElse]
  rfl

/-- A record of texts is read back from its document with its surrogate pairs joined. -/
theorem ofDocument_document_map (ht : Entry.fitsTime r.time = true) :
    ∃ value, (r.map Json.str).document = .ok value ∧
      ∀ nesting, ofDocument nesting (some value) = .ok r.joinPairs := by
  simp only [Entry.fitsTime, decide_eq_true_eq] at ht
  obtain ⟨timestamp, hformat, hparse, hts⟩ := Timestamp.exists_format ht.1 ht.2
  have hne : (r.map Json.str).members timestamp ≠ [] := List.cons_ne_nil _ _
  have hflat := isFlat_members r timestamp
  refine ⟨_, document_eq hformat, ?_⟩
  intro nesting
  have hjson := Json.parse_render_obj nesting hne hflat (nodup_members _ timestamp)
  rw [map_readBack_members, Encoding.joinPairs_of_hasSurrogate hts] at hjson
  have hparsed : parse nesting (some (Json.render (.obj ((r.map Json.str).members timestamp))).toBytes) =
      .ok (.obj ((r.joinPairs.map Json.str).members timestamp)) := by
    rw [parse, Json.parseBytes_toBytes hne fun m hm => (hflat m hm).2, hjson]
  rw [ofDocument, hparsed]
  exact ofJson_members hparse

/-- The document of a record of texts is in printable ASCII. -/
theorem isPrinted_of_document (h : (r.map Json.str).document = .ok value) :
    ∀ b ∈ value, 0x20 ≤ b.toNat ∧ b.toNat < 0x7F := by
  cases hformat : Timestamp.format r.time with
  | error e =>
      rw [document, toJson, map, hformat] at h
      cases h
  | ok timestamp =>
      rw [document_eq hformat] at h
      cases h
      intro b hb
      obtain ⟨c, hc, rfl⟩ := List.mem_map.1 hb
      have hprinted : Json.IsPrinted c :=
        Json.isPrinted_of_mem_render_obj (fun m hm => (isFlat_members r timestamp m hm).2) c hc
      rw [Utf8.toNat_byte (hprinted.2.trans (by decide))]
      exact hprinted

/-- **Documents lose nothing.**  A record of texts whose time is one of 64 bits has a document, in printable
ASCII.  The record that is read from that has the surrogate pairs of the texts joined, so it is the same
in all its fields just if no text has a high surrogate directly followed by a low one. -/
theorem document_lossless (r : Record Text) (ht : Entry.fitsTime r.time = true) :
    ∃ value, (r.map Json.str).document = .ok value ∧
      (∀ b ∈ value, 0x20 ≤ b.toNat ∧ b.toNat < 0x7F) ∧
        ∀ nesting, ofDocument nesting (some value) = .ok r.joinPairs ∧
          (ofDocument nesting (some value) = .ok r ↔ r.IsUnpaired) := by
  obtain ⟨value, hdoc, hread⟩ := ofDocument_document_map ht
  refine ⟨value, hdoc, isPrinted_of_document hdoc, fun nesting => ⟨hread nesting, ?_⟩⟩
  rw [hread, Except.ok.injEq, joinPairs_eq_iff]

/-- Surrogates without their partners, a character from above `0xFFFF`, control characters, quotes and
backslashes, empty texts, and a time before the epoch. -/
theorem document_lossless_lone :
    let r : Record Text :=
      { line := [CodePoint.ofNat 0x1F600, CodePoint.ofNat 0xD83D, '"', '\\', CodePoint.ofNat 0xDE00,
          CodePoint.ofNat 0xD83D, CodePoint.ofNat 0]
        source := "", isPartial := true, time := -1
        containerId := [CodePoint.ofNat 0xDE00, CodePoint.ofNat 0xD83D, CodePoint.ofNat 0xD83D]
        containerName := "\n\t\u007f", imageName := "", imageId := "é", hostname := "" }
    Entry.fitsTime r.time = true ∧ r.IsUnpaired ∧ ∃ value, (r.map Json.str).document = .ok value ∧
      (∀ b ∈ value, 0x20 ≤ b.toNat ∧ b.toNat < 0x7F) ∧
        ∀ nesting, ofDocument nesting (some value) = .ok r := by
  intro r
  have hpairs : r.IsUnpaired := by decide
  obtain ⟨value, hdoc, hprinted, hread⟩ := document_lossless r (by decide)
  exact ⟨by decide, hpairs, value, hdoc, hprinted, fun nesting => (hread nesting).2.2 hpairs⟩

end

/-! ## Records of a stream -/

/-- A record that carries texts as its labels is one of texts. -/
theorem IsLegible.exists_map (h : r.IsLegible) : ∃ t : Record Text, r = t.map Json.str := by
  obtain ⟨id, hid⟩ := h.containerId
  obtain ⟨imageName, himageName⟩ := h.imageName
  obtain ⟨imageId, himageId⟩ := h.imageId
  refine ⟨{ r with containerId := id, imageName, imageId }, ?_⟩
  rw [map, ← hid, ← himageName, ← himageId]

/-- A record is read back from its document, with its container unless that holds surrogates. -/
theorem exists_ofDocument_document (h : r.IsLegible) :
    ∃ value r', r.document = .ok value ∧ (∀ nesting, ofDocument nesting (some value) = .ok r') ∧
      r'.line = r.line ∧ r'.source = r.source ∧ r'.isPartial = r.isPartial ∧ r'.time = r.time ∧
        ∀ id : Text, id.hasSurrogate = false → r.containerId = .str id → r'.containerId = id := by
  obtain ⟨t, rfl⟩ := h.exists_map
  obtain ⟨value, hdoc, hread⟩ := ofDocument_document_map h.time
  refine ⟨value, t.joinPairs, hdoc, hread, Encoding.joinPairs_of_hasSurrogate h.line,
    Encoding.joinPairs_of_hasSurrogate h.source, rfl, rfl, ?_⟩
  rintro id hid ⟨⟩
  exact Encoding.joinPairs_of_hasSurrogate hid

/-- A record that can be stored is read back from its document. -/
theorem ofDocument_document (h : r.IsStorable) :
    ∃ value r', r.document = .ok value ∧ (∀ nesting, ofDocument nesting (some value) = .ok r') ∧
      r'.line = r.line ∧ r'.source = r.source ∧ r'.isPartial = r.isPartial ∧ r'.time = r.time ∧
        r.containerId = .str r'.containerId := by
  obtain ⟨id, hid, hids⟩ := h.containerId
  obtain ⟨value, r', hdoc, hread, hl, hsrc, hp, htm, hc⟩ := exists_ofDocument_document h.isLegible
  exact ⟨value, r', hdoc, hread, hl, hsrc, hp, htm, by rw [hid, hc id hids hid]⟩

/-- A document is not shorter than what an entry has of it. -/
theorem length_le_of_document {value : Bytes} (h : r.document = .ok value) :
    (r.line.flatMap Utf8.encodePoint).length + (r.source.flatMap Utf8.encodePoint).length ≤
      value.length := by
  have hline := Json.length_flatMap_encodePoint_le r.line
  have hsource := Json.length_flatMap_encodePoint_le r.source
  cases hformat : Timestamp.format r.time with
  | error e =>
      rw [document, toJson, hformat] at h
      cases h
  | ok timestamp =>
      rw [document_eq hformat] at h
      cases h
      simp only [Text.toBytes, List.length_map, Json.render, members, Json.renderMembers,
        List.length_append, List.length_cons]
      omega

end LogRelay.Record
