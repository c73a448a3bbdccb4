import LogRelay.Yaml.Cursor
/-!
# What can be read of a document

A document is not read as a whole.  Its bytes are decoded in pieces, the text is taken over in
blocks, and a block is looked through for control characters at the time when it is taken.  So a
fault of a block is met only by who has to go on reading at the end of the block before it.

## Main definitions

* `Yaml.Decoder`, `Yaml.Decoder.take`: bytes as text, in pieces.
* `Yaml.Readable`, `Yaml.readable`: the text up to the first block that has a fault, and the fault.
-/
namespace LogRelay.Yaml

/-! ## Decoding -/

/-- The text with a line feed for each carriage return and for each pair of the two. -/
def unifyBreaks : Text → Text
  | [] => []
  | [c] => [if c = '\r' then '\n' else c]
  | c :: d :: rest =>
    if c = '\r' then
      if d = '\n' then CodePoint.ofChar '\n' :: unifyBreaks rest
      else CodePoint.ofChar '\n' :: unifyBreaks (d :: rest)
    else c :: unifyBreaks (d :: rest)

/-- A text that is being decoded: its bytes that are left, where in a code point the last one ended,
whether it was a carriage return, the text that is ready, and the numbers of bytes and of code
points of the latest piece. -/
structure Decoder where
  bytes : Bytes
  place : Utf8.Place := .idle
  afterReturn : Bool := false
  ready : Text := []
  latest : Nat × Nat := (0, 0)

namespace Decoder

/-- The least number of bytes that are decoded at once. -/
def pieceSize : Nat := 8192

/-- The decoder after the next piece.  The piece is larger if more bytes are needed for the code
points that are wanted, by the measure of the piece before it.  A carriage return at its end is kept
for the next one. -/
def pull (wanted : Nat) (d : Decoder) : Except Fault Decoder :=
  let size := max pieceSize (wanted * d.latest.1 / max 1 d.latest.2)
  let piece := d.bytes.take size
  let s := piece.foldl (Utf8.Scanner.step false) ⟨d.place, []⟩
  let ending := piece.isEmpty
  if s.read.any Option.isNone ∨ (ending ∧ s.place ≠ .idle) then .error .undecodable
  else
    let text := s.read.reverse.filterMap id
    let whole := if d.afterReturn then CodePoint.ofChar '\r' :: text else text
    let holds := !ending && whole.getLast? = some (CodePoint.ofChar '\r')
    let text := unifyBreaks (if holds then whole.dropLast else whole)
    .ok {
      bytes := d.bytes.drop size
      place := s.place
      afterReturn := holds
      ready := d.ready ++ text
      latest := (piece.length, text.length) }

/-- The next code points, so many as are wanted if there are so many. -/
def take (wanted : Nat) : (fuel : Nat) → Decoder → Except Fault (Text × Decoder)
  | 0, d => .ok (d.ready, { d with ready := [] })
  | fuel + 1, d =>
    let held := d.ready.length
    if wanted ≤ held then .ok (d.ready.take wanted, { d with ready := d.ready.drop wanted })
    else do
      let next ← d.pull (wanted - held)
      if d.bytes.isEmpty then return (next.ready, { next with ready := [] })
      take wanted fuel next

end Decoder

/-! ## Blocks -/

/-- Whether the code point can stand in a document. -/
def isAllowed (c : CodePoint) : Bool :=
  c = '\t' || c = '\n' || c = '\r' || (0x20 ≤ c.val && c.val ≤ 0x7E) || c.val = 0x85
    || (0xA0 ≤ c.val && c.val ≤ 0xD7FF) || (0xE000 ≤ c.val && c.val ≤ 0xFFFD) || 0x10000 ≤ c.val

/-- What can be read of a document, and the fault that is found behind that, if there is one. -/
structure Readable where
  text : Text
  fault : Option Fault

/-- The length of a block. -/
def blockLength : Nat := 4096

/-- The blocks of a document, up to the first one that has a fault. -/
def blocks : (fuel : Nat) → Decoder → List (Except Fault Text)
  | 0, _ => []
  | fuel + 1, d =>
    match d.take blockLength (d.bytes.length + 2) with
    | .error fault => [.error fault]
    | .ok (block, d) => if block = [] then [] else .ok block :: blocks fuel d

/-- What can be read of blocks that are taken over one by one. -/
def readBlocks : List (Except Fault Text) → Readable
  | [] => ⟨[], none⟩
  | .error fault :: _ => ⟨[], some fault⟩
  | .ok block :: rest =>
    if block.all isAllowed then
      let ⟨text, fault⟩ := readBlocks rest
      ⟨block ++ text, fault⟩
    else ⟨[], some .unprintable⟩

/-- What can be read of a document.  The first two blocks are taken over together. -/
def readable (bs : Bytes) : Readable :=
  match blocks (bs.length + 2) { bytes := bs } with
  | .ok first :: .ok second :: rest => readBlocks (.ok (first ++ second) :: rest)
  | .ok _ :: .error fault :: _ => ⟨[], some fault⟩
  | parts => readBlocks parts

end LogRelay.Yaml
