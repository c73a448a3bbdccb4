import LogRelay.Container
import LogRelay.Entry.Basic
import LogRelay.Text.Utf8
/-!
# Records

A record is one line of a container's output together with where it came from.  It is what is stored
in a topic.  A record that is on its way out carries the container's labels as the runtime sent
them, so they are JSON values; in a record that has been read back they are texts.

## Main definitions

* `Record`, `Record.map`
* `Record.build`: the record of a line.
* `Record.toEntry`: the entry of a record that has been read back.
-/
namespace LogRelay

/-- A line with its origin.  `α` is the type of the labels that a container carries. -/
structure Record (α : Type) where
  line : Text
  source : Text
  isPartial : Bool
  time : Int
  containerId : α
  containerName : Text
  imageName : α
  imageId : α
  hostname : Text
  deriving DecidableEq

namespace Record

/-- The record with its labels changed. -/
def map {α β : Type} (f : α → β) (r : Record α) : Record β :=
  { r with
    containerId := f r.containerId
    imageName := f r.imageName
    imageId := f r.imageId }

/-- The record of a line: its origin is that of the entry that completed it. -/
def build (e : Entry) (line : Bytes) (c : Container) (hostname : Text) : Record Json :=
  { line := Utf8.decodeLossy line
    source := e.source
    isPartial := e.isPartial
    time := e.time
    containerId := c.id
    containerName := c.name
    imageName := c.imageName
    imageId := c.imageId
    hostname }

/-- The line as bytes, with a line feed at its end. -/
def terminated (line : Bytes) : Bytes :=
  if endsLine line then line else line ++ [lineFeed]

/-- The entry of a record that has been read back.  A surrogate in the line has no bytes, so a
question mark stands for it. -/
def toEntry {α : Type} (r : Record α) : Entry :=
  { line := terminated (Utf8.encodeLossy r.line)
    source := r.source
    isPartial := r.isPartial
    time := r.time }

end Record

end LogRelay
