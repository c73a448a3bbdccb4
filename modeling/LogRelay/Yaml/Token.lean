import LogRelay.Yaml.Cursor
/-!
# YAML tokens

The tokens of a document, and how those are read that are not scalars: directives, the names of
anchors and aliases, and tags.

## Main definitions

* `Yaml.Token`, `Yaml.Directive`
* `Yaml.Lex.directive`, `Yaml.Lex.name`, `Yaml.Lex.tag`
-/
namespace LogRelay.Yaml

/-- What a directive says: the version of the format, what a tag handle stands for, or something
else. -/
inductive Directive where
  | version (major : Nat)
  | tagHandle (handle stem : Text)
  | other
  deriving DecidableEq

/-- A token.  A scalar is plain if it is written without quotes or block indicators. -/
inductive Token where
  | directive (d : Directive)
  | documentStart
  | documentEnd
  | streamEnd
  | blockSequenceStart
  | blockMappingStart
  | blockEnd
  | flowSequenceStart
  | flowMappingStart
  | flowSequenceEnd
  | flowMappingEnd
  | blockEntry
  | flowEntry
  | key
  | value
  | alias (name : Text)
  | anchor (name : Text)
  | tag (handle : Option Text) (suffix : Text)
  | scalar (plain : Bool) (text : Text)
  deriving DecidableEq

namespace Lex

/-! ## Tags -/

/-- The handle at the start of a tag: `!`, or a name between two of them. -/
def tagHandle : Lex Text := do
  require ((← peek 0) = some (CodePoint.ofChar '!'))
  if (← peek 1) = some (CodePoint.ofChar ' ') then take 1
  else
    let name := ((← get).rest.drop 1).takeWhile isNamePart
    require ((← peek (name.length + 1)) = some (CodePoint.ofChar '!'))
    take (name.length + 2)

/-- Whether the code point can stand in a tag as it is. -/
def isUriPart (c : CodePoint) : Bool :=
  isNamePart c || isOneOf ";/?:@&=+$,.!~*'()[]" c

/-- A row of escaped bytes, as the text that they encode. -/
def uriEscapes (fuel : Nat) (read : Bytes) : Lex Text := do
  match fuel, ← peek 0 with
  | fuel + 1, some c =>
    if c = '%' then
      match (← peek 1).bind CodePoint.hexDigit?, (← peek 2).bind CodePoint.hexDigit? with
      | some high, some low =>
        skip 3
        uriEscapes fuel (UInt8.ofNat (high * 16 + low) :: read)
      | _, _ => throw .lexeme
    else finish
  | _, _ => finish
where
  /-- The text of the bytes. -/
  finish : Lex Text :=
    match Utf8.decode? read.reverse with
    | some text => pure text
    | none => throw .lexeme

/-- The pieces of the second part of a tag. -/
def uriPieces : (fuel : Nat) → Lex Text
  | 0 => pure []
  | fuel + 1 => do
    let piece ← takeWhile isUriPart
    if (← peek 0) = some (CodePoint.ofChar '%') then
      let escaped ← uriEscapes (← get).rest.length []
      return piece ++ escaped ++ (← uriPieces fuel)
    else return piece

/-- The second part of a tag, which must not be empty. -/
def uri : Lex Text := do
  let start := (← get).index
  let text ← uriPieces ((← get).rest.length + 1)
  require (start < (← get).index)
  return text

/-- A tag: in angle brackets, a lone `!`, or a handle and a suffix. -/
def tag : Lex Token := do
  let token ← match ← peek 1 with
    | none => loneTag
    | some c =>
      if c = '<' then
        skip 2
        let suffix ← uri
        require ((← peek 0) = some (CodePoint.ofChar '>'))
        skip 1
        pure (Token.tag none suffix)
      else if atBlank (some c) then loneTag
      else
        let word := ((← get).rest.drop 1).takeWhile fun c => !atSpace (some c)
        if word.contains (CodePoint.ofChar '!') then
          let handle ← tagHandle
          pure (Token.tag (some handle) (← uri))
        else
          reach (word.length + 2)
          skip 1
          pure (Token.tag (some [CodePoint.ofChar '!']) (← uri))
  require (atSpace (← peek 0))
  return token
where
  /-- The tag of a node that is not to be looked at further. -/
  loneTag : Lex Token := do
    skip 1
    return .tag none [CodePoint.ofChar '!']

/-! ## Anchors and aliases -/

/-- The name of an anchor or alias, after the mark in front of it. -/
def name : Lex Text := do
  skip 1
  let name ← takeWhile isNamePart
  require (name ≠ [])
  let after ← peek 0
  require (atBlank after || after.any (isOneOf "?:,]\x7d%@\x60"))
  return name

/-! ## Directives -/

/-- A number in a directive. -/
def directiveNumber : Lex Nat := do
  let digits ← takeWhile CodePoint.isAsciiDigit
  require (digits ≠ [])
  return ofDigits (digits.filterMap CodePoint.asciiDigit?)

/-- A directive, with the end of its line. -/
def directive : Lex Token := do
  skip 1
  let name ← takeWhile isNamePart
  require (name ≠ [])
  require (atSpace (← peek 0))
  let d ←
    if name = "YAML" then do
      skipSpaces
      let major ← directiveNumber
      require ((← peek 0) = some (CodePoint.ofChar '.'))
      skip 1
      discard directiveNumber
      require (atSpace (← peek 0))
      pure (Directive.version major)
    else if name = "TAG" then do
      skipSpaces
      let handle ← tagHandle
      require ((← peek 0) = some (CodePoint.ofChar ' '))
      skipSpaces
      let stem ← uri
      require (atSpace (← peek 0))
      pure (Directive.tagHandle handle stem)
    else do
      discard (takeWhile (!isBreak ·))
      pure Directive.other
  endLine
  return .directive d

end Lex

end LogRelay.Yaml
