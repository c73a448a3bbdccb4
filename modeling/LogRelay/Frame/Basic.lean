import LogRelay.Entry.Codec
/-!
# Frames

On a stream of bytes each entry travels in a frame: the length of its message in four bytes, highest
first, and then the message.  A frame is put together from whatever pieces the stream hands out, so
the reader of frames is a machine that is fed chunk by chunk, an empty chunk being the end of the
stream.

## Main definitions

* `Frame.encode`: an entry in its frame.
* `Frame.Assembly`, `Frame.Assembly.feed`: the frame that is being put together.
* `FrameError`, `FrameError.message`: why a stream cannot be read on.
-/
namespace LogRelay

/-- Why a stream holds no further frame: it ends inside a header or a message, a message is longer
than is allowed, or a message is malformed. -/
inductive FrameError where
  | truncatedHeader (got : Nat)
  | oversized (length : Nat) (limit : Int)
  | truncatedPayload (got length : Nat)
  | invalidPayload
  deriving DecidableEq

namespace Frame

/-- The length of a header. -/
def headerSize : Nat := 4

end Frame

/-- The error in words. -/
def FrameError.message : FrameError → Text
  | .truncatedHeader got =>
    "Truncated frame header: got " ++ Text.ofNat got ++ " of " ++ Text.ofNat Frame.headerSize
      ++ " bytes"
  | .oversized length limit =>
    "Frame of " ++ Text.ofNat length ++ " bytes exceeds limit of " ++ Text.ofInt limit
  | .truncatedPayload got length =>
    "Truncated frame payload: got " ++ Text.ofNat got ++ " of " ++ Text.ofNat length ++ " bytes"
  | .invalidPayload => "Invalid LogEntry payload"

namespace Frame

/-- The limit on the length of a message when none is set. -/
def defaultLimit : Int := 1000000

/-- The header of a message of the given length. -/
def header (length : Nat) : Bytes :=
  [UInt8.ofNat (length / 0x1000000 % 0x100), UInt8.ofNat (length / 0x10000 % 0x100),
    UInt8.ofNat (length / 0x100 % 0x100), UInt8.ofNat (length % 0x100)]

/-- The length that a header writes. -/
def lengthOf (header : Bytes) : Nat :=
  header.foldl (fun n b => n * 0x100 + b.toNat) 0

/-- The frame of a message. -/
def wrap (payload : Bytes) : Bytes :=
  header payload.length ++ payload

/-- The lengths that a header can write are those below this one. -/
def lengthBound : Nat := 0x100000000

/-- The frame of an entry, or why it has none. -/
def encode (e : Entry) : Except PayloadError Bytes := do
  let payload ← e.payload
  if payload.length < lengthBound then return wrap payload else throw (.tooLong payload.length)

/-- A frame of which some bytes are there: those of its header, or those of its message once the
length of that is known. -/
structure Assembly where
  length : Option Nat := none
  got : Bytes := []
  deriving DecidableEq

/-- What a chunk makes of a frame: it is still incomplete, it is complete, the stream ended in front
of it, or it is broken. -/
inductive Progress where
  | more (a : Assembly)
  | entry (e : Entry)
  | ended
  | broken (e : FrameError)
  deriving DecidableEq

namespace Assembly

/-- A frame of which nothing is there yet. -/
def empty : Assembly := {}

/-- How many bytes the header, or the message, still lacks. -/
def wanted (a : Assembly) : Nat :=
  a.length.getD headerSize - a.got.length

/-- The entry of a message that is complete. -/
def conclude (payload : Bytes) : Progress :=
  match Entry.ofPayload? payload with
  | some e => .entry e
  | none => .broken .invalidPayload

/-- A header that is complete.  A message of no bytes is complete with it. -/
def afterHeader (limit : Int) (header : Bytes) : Progress :=
  let length := lengthOf header
  if limit < length then .broken (.oversized length limit)
  else if length = 0 then conclude []
  else .more ⟨some length, []⟩

/-- The end of the stream. -/
def stop (a : Assembly) : Progress :=
  match a.length with
  | none => if a.got = [] then .ended else .broken (.truncatedHeader a.got.length)
  | some length => .broken (.truncatedPayload a.got.length length)

/-- Take a chunk of at most as many bytes as are wanted; the empty one is the end of the stream. -/
def feed (limit : Int) (a : Assembly) (chunk : Bytes) : Progress :=
  if chunk = [] then a.stop
  else
    let got := a.got ++ chunk
    match a.length with
    | none =>
      if headerSize ≤ got.length then afterHeader limit got else .more { a with got }
    | some length =>
      if length ≤ got.length then conclude got else .more { a with got }

end Assembly

end Frame

end LogRelay
