import LogRelay.Yaml.Readable
import LogRelay.Yaml.Scalar
/-!
# Reading YAML tokens

Whether a scalar or a bracket starts a key is known only when the colon after it is met, and then a
token has to be put in front of what has been read meanwhile.  So the lexer holds tokens back until
it is clear that nothing more can be put in front of them: a key ends on the line that it starts on,
and is at most 1024 code points long.  Indentation opens and closes block collections.

Tokens are given out as soon as they can be, and a fault only ends the sequence, so whoever consumes
the tokens meets what is wrong with a document in the order in which it stands there.

## Main definitions

* `Yaml.Lexer`, `Yaml.Lexer.fetch`
* `Yaml.Tokens`, `Yaml.tokens`: the tokens of a document, and the fault that ends them, if one does.
-/
namespace LogRelay.Yaml

/-- A token that may turn out to start a key: its number, its place, and whether it must, because
nothing else can stand there. -/
structure KeyStart where
  number : Nat
  required : Bool
  index : Nat
  line : Nat
  column : Nat

/-- The state of the reading.  `flowDepth` counts the brackets that are open, and may fall below
zero in a document that is not well-formed; `indent` is the column of the innermost block
collection, and `indents` are those outside of it; `keyStarts` holds, for each depth, the token that
may turn out to start a key. -/
structure Lexer where
  cursor : Cursor
  given : List Token := []
  count : Nat := 0
  held : List Token := []
  flowDepth : Int := 0
  indent : Int := -1
  indents : List Int := []
  keyAllowed : Bool := true
  keyStarts : List (Int × KeyStart) := []
  ended : Bool := false

namespace Lexer

/-- Whether brackets are open. -/
def inFlow (l : Lexer) : Bool :=
  l.flowDepth ≠ 0

/-- Hold a token. -/
def hold (t : Token) (l : Lexer) : Lexer :=
  { l with held := l.held ++ [t] }

/-- Hold a token as the one with the given number. -/
def holdAt (number : Nat) (t : Token) (l : Lexer) : Lexer :=
  { l with held := l.held.insertIdx (number - l.count) t }

/-- Read something. -/
def lex {α : Type} (action : Lex α) (l : Lexer) : Except Fault (α × Lexer) := do
  let (a, cursor) ← action.run l.cursor
  return (a, { l with cursor })

/-- Read a token and hold it. -/
def lexToken (action : Lex Token) (l : Lexer) : Except Fault Lexer := do
  let (t, l) ← l.lex action
  return l.hold t

/-! ## Keys -/

/-- Forget the tokens that can no longer start a key. -/
def dropStale (l : Lexer) : Except Fault Lexer :=
  let isStale (k : KeyStart) : Bool :=
    k.line ≠ l.cursor.line || k.index + 1024 < l.cursor.index
  if l.keyStarts.any fun (_, k) => isStale k && k.required then .error .lexeme
  else .ok { l with keyStarts := l.keyStarts.filter fun (_, k) => !isStale k }

/-- Forget the token that may start a key at this depth. -/
def dropKeyStart (l : Lexer) : Except Fault Lexer :=
  if l.keyStarts.any fun (depth, k) => depth = l.flowDepth && k.required then .error .lexeme
  else .ok { l with keyStarts := l.keyStarts.filter fun (depth, _) => depth ≠ l.flowDepth }

/-- Note that the next token may start a key. -/
def saveKeyStart (l : Lexer) : Except Fault Lexer := do
  if l.keyAllowed then
    let k : KeyStart :=
      { number := l.count + l.held.length
        required := !l.inFlow && l.indent = l.cursor.column
        index := l.cursor.index
        line := l.cursor.line
        column := l.cursor.column }
    let l ← l.dropKeyStart
    return { l with keyStarts := l.keyStarts ++ [(l.flowDepth, k)] }
  else return l

/-! ## Indentation -/

/-- Close the block collections that are indented by more than a column. -/
def unwind (column : Int) : List Int → Lexer → Lexer
  | [], l => l
  | outer :: rest, l =>
    if l.indent > column then
      unwind column rest { l.hold .blockEnd with indent := outer, indents := rest }
    else l

/-- Close the block collections that are indented by more than a column, outside of brackets. -/
def unwindTo (column : Int) (l : Lexer) : Lexer :=
  if l.inFlow then l else unwind column l.indents l

/-- Open a block collection at a column, unless one is open there; its first token gets the given
number. -/
def openAt (column number : Nat) (start : Token) (l : Lexer) : Lexer :=
  if l.indent < column then
    { l.holdAt number start with indents := l.indent :: l.indents, indent := column }
  else l

/-- Open a block collection here if none is, where one may be opened. -/
def openHere (start : Token) (l : Lexer) : Except Fault Lexer :=
  if l.inFlow then .ok l
  else if l.keyAllowed then .ok (l.openAt l.cursor.column (l.count + l.held.length) start)
  else .error .lexeme

/-! ## Tokens -/

/-- Pass over what stands between tokens. -/
def skipGap : (fuel : Nat) → Lexer → Except Fault Lexer
  | 0, l => .ok l
  | fuel + 1, l => do
    let (lineEnd, l) ← l.lex (do Lex.skipSpaces; Lex.skipComment; Lex.lineBreak)
    if lineEnd = [] then return l
    else skipGap fuel { l with keyAllowed := l.keyAllowed || !l.inFlow }

/-- Pass over a byte order mark at the start of the document. -/
def skipMark : Lex Unit := do
  if (← get).index = 0 ∧ (← Lex.peek 0) = some ⟨0xFEFF, by decide⟩ then Lex.skip 1

/-- A mark of `length` code points. -/
def mark (length : Nat) (t : Token) (l : Lexer) : Except Fault Lexer :=
  l.lexToken do
    Lex.skip length
    return t

/-- The end of the document. -/
def fetchEnd (l : Lexer) : Except Fault Lexer := do
  let l ← (l.unwindTo (-1)).dropKeyStart
  return { l.hold .streamEnd with keyAllowed := false, keyStarts := [], ended := true }

/-- A directive, or the mark of the start or end of a document. -/
def fetchOutside (l : Lexer) : Except Fault Lexer := do
  let l ← (l.unwindTo (-1)).dropKeyStart
  return { l with keyAllowed := false }

/-- An opening bracket. -/
def fetchOpening (t : Token) (l : Lexer) : Except Fault Lexer := do
  let l ← l.saveKeyStart
  { l with flowDepth := l.flowDepth + 1, keyAllowed := true }.mark 1 t

/-- A closing bracket. -/
def fetchClosing (t : Token) (l : Lexer) : Except Fault Lexer := do
  let l ← l.dropKeyStart
  { l with flowDepth := l.flowDepth - 1, keyAllowed := false }.mark 1 t

/-- The comma between two items in brackets. -/
def fetchFlowEntry (l : Lexer) : Except Fault Lexer := do
  let l ← { l with keyAllowed := true }.dropKeyStart
  l.mark 1 .flowEntry

/-- The dash in front of an item of a block sequence. -/
def fetchBlockEntry (l : Lexer) : Except Fault Lexer := do
  let l ← l.openHere .blockSequenceStart
  let l ← { l with keyAllowed := true }.dropKeyStart
  l.mark 1 .blockEntry

/-- The question mark in front of a key. -/
def fetchKey (l : Lexer) : Except Fault Lexer := do
  let l ← l.openHere .blockMappingStart
  let l ← { l with keyAllowed := !l.inFlow }.dropKeyStart
  l.mark 1 .key

/-- The colon in front of a value. -/
def fetchValue (l : Lexer) : Except Fault Lexer := do
  match l.keyStarts.find? fun (depth, _) => depth = l.flowDepth with
  | some (_, k) =>
    let l := { l with
      keyStarts := l.keyStarts.filter fun (depth, _) => depth ≠ l.flowDepth
      keyAllowed := false }.holdAt k.number .key
    let l := if l.inFlow then l else l.openAt k.column k.number .blockMappingStart
    l.mark 1 .value
  | none =>
    let l ← l.openHere .blockMappingStart
    let l ← { l with keyAllowed := !l.inFlow }.dropKeyStart
    l.mark 1 .value

/-- An anchor, an alias, a tag or a scalar in quotes. -/
def fetchWord (action : Lex Token) (l : Lexer) : Except Fault Lexer := do
  let l ← l.saveKeyStart
  { l with keyAllowed := false }.lexToken action

/-- A scalar that is a block. -/
def fetchBlock (folded : Bool) (l : Lexer) : Except Fault Lexer := do
  let l ← { l with keyAllowed := true }.dropKeyStart
  l.lexToken (return .scalar false (← Lex.block folded l.indent))

/-- A plain scalar. -/
def fetchPlain (l : Lexer) : Except Fault Lexer := do
  let l ← l.saveKeyStart
  let ((text, broke), l) ← l.lex (Lex.plain l.inFlow (l.indent + 1))
  return { l with keyAllowed := broke }.hold (.scalar true text)

/-- Whether a plain scalar starts here, with the given code point and the one after it. -/
def startsPlain (l : Lexer) (c : CodePoint) (after : Option CodePoint) : Bool :=
  !(atBlank (some c) || isOneOf "-?:,[]\x7b\x7d#&*!|>'\"%@\x60" c)
    || (!atBlank after && (c = '-' || (!l.inFlow && (c = '?' || c = ':'))))

/-- The token that starts with the given code point, which comes next. -/
def fetchAt (l : Lexer) (c : CodePoint) : Except Fault Lexer := do
  let (after, l) ← l.lex (Lex.peek 1)
  let atStart := l.cursor.column = 0
  let (atMarks, l) ← if atStart ∧ (c = '-' ∨ c = '.') then l.lex Lex.atDocumentMarks
    else pure (false, l)
  if c = '%' ∧ atStart then (← l.fetchOutside).lexToken Lex.directive
  else if atMarks then
    (← l.fetchOutside).mark 3 (if c = '-' then .documentStart else .documentEnd)
  else if c = '[' then l.fetchOpening .flowSequenceStart
  else if c.val = 0x7B then l.fetchOpening .flowMappingStart
  else if c = ']' then l.fetchClosing .flowSequenceEnd
  else if c.val = 0x7D then l.fetchClosing .flowMappingEnd
  else if c = ',' then l.fetchFlowEntry
  else if c = '-' ∧ atBlank after then l.fetchBlockEntry
  else if c = '?' ∧ (l.inFlow ∨ atBlank after) then l.fetchKey
  else if c = ':' ∧ (l.inFlow ∨ atBlank after) then l.fetchValue
  else if c = '*' then l.fetchWord (return .alias (← Lex.name))
  else if c = '&' then l.fetchWord (return .anchor (← Lex.name))
  else if c = '!' then l.fetchWord Lex.tag
  else if c = '|' ∧ ¬ l.inFlow then l.fetchBlock false
  else if c = '>' ∧ ¬ l.inFlow then l.fetchBlock true
  else if c = '\'' then l.fetchWord (return .scalar false (← Lex.quoted false))
  else if c = '"' then l.fetchWord (return .scalar false (← Lex.quoted true))
  else if l.startsPlain c after then l.fetchPlain
  else .error .lexeme

/-- Read the next token, with the tokens that its place and indentation bring with it. -/
def fetch (l : Lexer) : Except Fault Lexer := do
  let (_, l) ← l.lex skipMark
  let l ← l.skipGap (l.cursor.rest.length + 1)
  let l ← l.dropStale
  let l := l.unwindTo l.cursor.column
  match ← l.lex (Lex.peek 0) with
  | (none, l) => l.fetchEnd
  | (some c, l) => l.fetchAt c

/-- Give out the tokens in front of which nothing more can be put. -/
def giveOut (l : Lexer) : Lexer :=
  let first := l.keyStarts.foldl (fun n (_, k) => min n k.number) (l.count + l.held.length)
  let ready := first - l.count
  { l with
    given := (l.held.take ready).reverse ++ l.given
    count := l.count + ready
    held := l.held.drop ready }

end Lexer

/-- The tokens of a document in order, and the fault behind the last of them, if there is one. -/
structure Tokens where
  tokens : List Token
  fault : Option Fault

/-- Read tokens until the document ends or a fault is found.  A state in which no token can be given
out that was wanted leads to the next one at once. -/
def tokensFrom : (fuel : Nat) → Lexer → Tokens
  | 0, l => ⟨l.given.reverse, none⟩
  | fuel + 1, l =>
    match l.fetch with
    | .error fault => ⟨l.given.reverse, some fault⟩
    | .ok l =>
      match l.dropStale with
      | .error fault => ⟨l.given.reverse, some fault⟩
      | .ok l =>
        let l := l.giveOut
        if l.ended then ⟨l.given.reverse, none⟩ else tokensFrom fuel l

/-- The tokens of a document. -/
def tokens (r : Readable) : Tokens :=
  tokensFrom (r.text.length + 2) { cursor := { rest := r.text, fault := r.fault } }

end LogRelay.Yaml
