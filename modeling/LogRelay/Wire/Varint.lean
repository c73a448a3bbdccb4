import LogRelay.Text.Basic
/-!
# Variable-length integers

A natural number is written in groups of seven bits, the lowest group first, each in one byte whose
top bit says that another one follows.

## Main definitions

* `Varint.encode`, `Varint.read?`
* `Varint.ofInt`, `Varint.toInt`: signed numbers of 64 bits as naturals, in two's complement.
-/
namespace LogRelay.Varint

/-- The bytes of a number. -/
def encode (n : Nat) : Bytes :=
  if n < 0x80 then [UInt8.ofNat n] else UInt8.ofNat (0x80 + n % 0x80) :: encode (n / 0x80)

/-- The number at the start of a byte sequence, written in at most `room` bytes, and the bytes after
it.  `weight` is the value of the lowest bit to come, and `sum` what the groups so far add up to. -/
def readFrom? (weight sum : Nat) : (room : Nat) → Bytes → Option (Nat × Bytes)
  | 0, _ => none
  | _, [] => none
  | room + 1, b :: rest =>
    if b.toNat < 0x80 then some (sum + weight * b.toNat, rest)
    else readFrom? (weight * 0x80) (sum + weight * (b.toNat - 0x80)) room rest

/-- The number at the start of a byte sequence, written in at most `room` bytes, and the bytes after
it. -/
def read? (room : Nat) (bs : Bytes) : Option (Nat × Bytes) :=
  readFrom? 1 0 room bs

theorem length_lt_of_readFrom? {weight sum room : Nat} {bs rest : Bytes} {n : Nat}
    (h : readFrom? weight sum room bs = some (n, rest)) : rest.length < bs.length := by
  induction room generalizing weight sum bs with
  | zero => simp [readFrom?] at h
  | succ room ih =>
    cases bs with
    | nil => simp [readFrom?] at h
    | cons b bs =>
      rw [readFrom?] at h
      split at h
      · obtain ⟨_, rfl⟩ := h
        simp
      · have := ih h
        simp only [List.length_cons]
        omega

theorem length_lt_of_read? {room n : Nat} {bs rest : Bytes}
    (h : read? room bs = some (n, rest)) : rest.length < bs.length :=
  length_lt_of_readFrom? h

/-- The number of values that 64 bits have. -/
def wordSize : Nat := 0x10000000000000000

/-- A signed number of 64 bits as a natural number. -/
def ofInt (n : Int) : Nat :=
  (n.emod wordSize).toNat

/-- The signed number that the low 64 bits of a natural number write. -/
def toInt (n : Nat) : Int :=
  let low : Nat := n % wordSize
  if 2 * low < wordSize then (low : Int) else (low : Int) - wordSize

end LogRelay.Varint
