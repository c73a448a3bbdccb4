import LogRelay.Wire.Varint
/-!
# Fields

A message is a sequence of fields.  Each starts with a tag, which holds the field's number and the
kind of its value: a variable-length integer, eight bytes, four bytes, or a byte sequence behind its
length.  Two more kinds open and close a group of fields.  Groups are not used by any message here,
so a group is passed over, but it must be closed under the number that it was opened with.

## Main definitions

* `Field`, `Field.Value`, `Field.encode`
* `fields?`: the fields of a message outside all groups, if the bytes are well-formed.
-/
namespace LogRelay

/-- The value of a field, by kind. -/
inductive Field.Value where
  | varint (n : Nat)
  | fixed64 (bs : Bytes)
  | bytes (bs : Bytes)
  | fixed32 (bs : Bytes)
  deriving DecidableEq

/-- A field of a message. -/
structure Field where
  number : Nat
  value : Field.Value
  deriving DecidableEq

namespace Field

/-- The tag of a field. -/
def tag (number kind : Nat) : Bytes :=
  Varint.encode (number * 8 + kind)

/-- The bytes of a field. -/
def encode (f : Field) : Bytes :=
  match f.value with
  | .varint n => tag f.number 0 ++ Varint.encode n
  | .fixed64 bs => tag f.number 1 ++ bs
  | .bytes bs => tag f.number 2 ++ Varint.encode bs.length ++ bs
  | .fixed32 bs => tag f.number 5 ++ bs

/-- What the bytes of a message consist of. -/
inductive Piece where
  | field (f : Field)
  | openGroup (number : Nat)
  | closeGroup (number : Nat)

/-- The first `n` bytes, if there are that many, and the rest. -/
def split? (n : Nat) (bs : Bytes) : Option (Bytes × Bytes) :=
  if n ≤ bs.length then some (bs.take n, bs.drop n) else none

/-- The value of a field of the given number and kind, and the bytes after it.  An integer has at
most ten bytes, and a length five. -/
def body? (number kind : Nat) (bs : Bytes) : Option (Piece × Bytes) :=
  match kind with
  | 0 => do
    let (n, rest) ← Varint.read? 10 bs
    some (.field ⟨number, .varint (n % Varint.wordSize)⟩, rest)
  | 1 => do
    let (value, rest) ← split? 8 bs
    some (.field ⟨number, .fixed64 value⟩, rest)
  | 2 => do
    let (length, rest) ← Varint.read? 5 bs
    let (value, rest) ← split? length rest
    some (.field ⟨number, .bytes value⟩, rest)
  | 3 => some (.openGroup number, bs)
  | 4 => some (.closeGroup number, bs)
  | 5 => do
    let (value, rest) ← split? 4 bs
    some (.field ⟨number, .fixed32 value⟩, rest)
  | _ => none

/-- The piece at the start of a message, and the bytes after it.  A tag has at most five bytes and
32 bits.  Only inside of a group, which nobody looks into, may its number be zero. -/
def piece? (inGroup : Bool) (bs : Bytes) : Option (Piece × Bytes) :=
  match Varint.read? 5 bs with
  | none => none
  | some (tag, rest) =>
    if 0x100000000 ≤ tag ∨ (tag / 8 = 0 ∧ ¬ inGroup) then none
    else body? (tag / 8) (tag % 8) rest

theorem length_le_of_split? {n : Nat} {bs : Bytes} {r : Bytes × Bytes}
    (h : split? n bs = some r) : r.2.length ≤ bs.length := by
  unfold split? at h
  split at h
  · obtain rfl := Option.some.inj h
    simp
  · simp at h

theorem length_le_of_body? {number kind : Nat} {bs : Bytes} {r : Piece × Bytes}
    (h : body? number kind bs = some r) : r.2.length ≤ bs.length := by
  unfold body? at h
  split at h
  · obtain ⟨⟨n, rest⟩, hr, hs⟩ := Option.bind_eq_some_iff.1 h
    obtain rfl := Option.some.inj hs
    exact Nat.le_of_lt (Varint.length_lt_of_read? hr)
  · obtain ⟨p, hp, hs⟩ := Option.bind_eq_some_iff.1 h
    obtain rfl := Option.some.inj hs
    exact length_le_of_split? hp
  · obtain ⟨⟨n, rest⟩, hr, hs⟩ := Option.bind_eq_some_iff.1 h
    obtain ⟨p, hp, hs⟩ := Option.bind_eq_some_iff.1 hs
    obtain rfl := Option.some.inj hs
    exact Nat.le_trans (length_le_of_split? hp) (Nat.le_of_lt (Varint.length_lt_of_read? hr))
  · obtain rfl := Option.some.inj h
    exact Nat.le_refl _
  · obtain rfl := Option.some.inj h
    exact Nat.le_refl _
  · obtain ⟨p, hp, hs⟩ := Option.bind_eq_some_iff.1 h
    obtain rfl := Option.some.inj hs
    exact length_le_of_split? hp
  · simp at h

theorem length_lt_of_piece? {inGroup : Bool} {bs : Bytes} {p : Piece} {rest : Bytes}
    (h : piece? inGroup bs = some (p, rest)) : rest.length < bs.length := by
  unfold piece? at h
  split at h
  · simp at h
  · rename_i tag after hr
    split at h
    · simp at h
    · have h₁ := length_le_of_body? h
      have h₂ := Varint.length_lt_of_read? hr
      simp only at h₁
      omega

end Field

/-- The most groups and messages that may lie inside each other. -/
def maxNesting : Nat := 100

/-- The fields outside all groups, onto those read already, last first.  `groups` are the numbers of
the groups that are open, innermost first, and `room` is the number of them that may be. -/
def fieldsFrom? (room : Nat) (groups : List Nat) (read : List Field) (bs : Bytes) :
    Option (List Field) :=
  if bs = [] then if groups = [] then some read.reverse else none
  else
    match _h : Field.piece? (!groups.isEmpty) bs with
    | none => none
    | some (.field f, rest) =>
      fieldsFrom? room groups (if groups = [] then f :: read else read) rest
    | some (.openGroup number, rest) =>
      if groups.length < room then fieldsFrom? room (number :: groups) read rest else none
    | some (.closeGroup number, rest) =>
      match groups with
      | [] => none
      | innermost :: outer =>
        if innermost = number then fieldsFrom? room outer read rest else none
termination_by bs.length
decreasing_by all_goals exact Field.length_lt_of_piece? (by assumption)

/-- The fields of a message outside all groups, if the bytes are well-formed and groups lie at most
`room` deep. -/
def fields? (room : Nat) (bs : Bytes) : Option (List Field) :=
  fieldsFrom? room [] [] bs

end LogRelay
