import LogRelay.Yaml.Token
/-!
# YAML scalars

Scalars are written plainly, in quotes, or as indented blocks.  In the first two forms the end of a
line stands for a space, and each empty line after it for a line feed; in a block the ends of lines
stay, unless it is a folded one.

## Main definitions

* `Yaml.Lex.plain`, `Yaml.Lex.quoted`, `Yaml.Lex.block`
-/
namespace LogRelay.Yaml.Lex

/-! ## Plain scalars -/

/-- The length of the word at the start of a text.  Inside of brackets it ends in front of any of
them and of a comma or question mark. -/
def wordLength (inFlow : Bool) : Text → Nat
  | [] => 0
  | c :: rest =>
    let ends :=
      atBlank (some c)
        || (c = ':' && (atBlank rest.head?
          || (inFlow && rest.head?.any (isOneOf ",[]\x7b\x7d"))))
        || (inFlow && isOneOf ",?[]\x7b\x7d" c)
    if ends then 0 else wordLength inFlow rest + 1

/-- Take the word that comes next.  A colon behind it is told by what follows it. -/
def word (inFlow : Bool) : Lex Text := do
  let rest := (← get).rest
  let length := wordLength inFlow rest
  if rest[length]? = some (CodePoint.ofChar ':') then reach (length + 2)
  take length

/-- The empty lines, and the spaces, after the end of a line inside a plain scalar: their line ends,
or `none` where a document starts or ends. -/
def plainBreaks : (fuel : Nat) → Text → Lex (Option Text)
  | 0, breaks => pure (some breaks)
  | fuel + 1, breaks => do
    skipSpaces
    let lineEnd ← lineBreak
    if lineEnd = [] then return some breaks
    else if ← atDocumentMarks then return none
    else plainBreaks fuel (breaks ++ lineEnd)

/-- What stands between two words of a plain scalar, nothing if no further word can follow, and
whether a line ended. -/
def plainGap : Lex (Text × Bool) := do
  let spaces ← takeWhile (· = ' ')
  let lineEnd ← lineBreak
  if lineEnd = [] then return (spaces, false)
  else if ← atDocumentMarks then return ([], true)
  else match ← plainBreaks ((← get).rest.length + 1) [] with
    | none => return ([], true)
    | some breaks => return (joined lineEnd breaks, true)
where
  /-- The text that the end of a line and the empty lines after it stand for. -/
  joined (lineEnd breaks : Text) : Text :=
    if lineEnd ≠ [CodePoint.ofChar '\n'] then lineEnd ++ breaks
    else if breaks = [] then [CodePoint.ofChar ' ']
    else breaks

/-- The words of a plain scalar after those already `read`, from which `gap` separates them. -/
def plainWords (inFlow : Bool) (indent : Int) : (fuel : Nat) → (read gap : Text) → (broke : Bool) →
    Lex (Text × Bool)
  | 0, read, _, broke => pure (read, broke)
  | fuel + 1, read, gap, broke => do
    let word ← word inFlow
    if word = [] then return (read, broke)
    let read := read ++ gap ++ word
    let (gap, broke) ← plainGap
    if gap = [] ∨ (← peek 0) = some (CodePoint.ofChar '#')
        ∨ (¬ inFlow ∧ (← get).column < indent) then
      return (read, broke)
    else plainWords inFlow indent fuel read gap broke

/-- A plain scalar whose lines are indented by at least `indent` columns, and whether a line ended
after its last word. -/
def plain (inFlow : Bool) (indent : Int) : Lex (Text × Bool) := do
  plainWords inFlow indent ((← get).rest.length + 1) [] [] false

/-! ## Scalars in quotes -/

/-- The empty lines inside a scalar in quotes. -/
def quotedBreaks : (fuel : Nat) → Text → Lex Text
  | 0, breaks => pure breaks
  | fuel + 1, breaks => do
    require (!(← atDocumentMarks))
    discard (takeWhile fun c => c = ' ' || c = '\t')
    let lineEnd ← lineBreak
    if lineEnd = [] then return breaks else quotedBreaks fuel (breaks ++ lineEnd)

/-- The text that an escape of one letter stands for. -/
def escaped? (c : CodePoint) : Option CodePoint :=
  if c = '0' then some (CodePoint.ofNat 0)
  else if c = 'a' then some (CodePoint.ofNat 0x07)
  else if c = 'b' then some (CodePoint.ofNat 0x08)
  else if c = 't' ∨ c = '\t' then some '\t'
  else if c = 'n' then some '\n'
  else if c = 'v' then some (CodePoint.ofNat 0x0B)
  else if c = 'f' then some (CodePoint.ofNat 0x0C)
  else if c = 'r' then some '\r'
  else if c = 'e' then some (CodePoint.ofNat 0x1B)
  else if c = ' ' ∨ c = '"' ∨ c = '\\' ∨ c = '/' then some c
  else if c = 'N' then some (CodePoint.ofNat 0x85)
  else if c = '_' then some (CodePoint.ofNat 0xA0)
  else if c = 'L' then some (CodePoint.ofNat 0x2028)
  else if c = 'P' then some (CodePoint.ofNat 0x2029)
  else none

/-- How many digits follow the letter of an escape by number. -/
def escapeWidth? (c : CodePoint) : Option Nat :=
  if c = 'x' then some 2 else if c = 'u' then some 4 else if c = 'U' then some 8 else none

/-- The code point of a number. -/
def codePoint (n : Nat) : Lex CodePoint :=
  if h : n < 0x110000 then pure ⟨n, h⟩
  else if n < 0x80000000 then throw .badScalar
  else throw .tooLarge

/-- What follows a backslash. -/
def escape : Lex Text := do
  match ← peek 0 with
  | none => throw .lexeme
  | some c =>
    match escaped? c, escapeWidth? c with
    | some e, _ =>
      skip 1
      return [e]
    | none, some width =>
      skip 1
      let digits := ((← get).rest.take width).map CodePoint.hexDigit? |>.takeWhile Option.isSome
      if digits.length < width then reach (digits.length + 1)
      require (digits.length = width)
      let digits := digits.filterMap id
      let point ← codePoint (digits.foldl (fun n d => n * 16 + d) 0)
      skip width
      return [point]
    | none, none =>
      require (isBreak c)
      discard lineBreak
      quotedBreaks ((← get).rest.length + 1) []

/-- The blanks inside a scalar in quotes, which may go over several lines. -/
def quotedGap : Lex Text := do
  let blanks ← takeWhile fun c => c = ' ' || c = '\t'
  require (← peek 0).isSome
  let lineEnd ← lineBreak
  if lineEnd = [] then return blanks
  else return plainGap.joined lineEnd (← quotedBreaks ((← get).rest.length + 1) [])

/-- The rest of a scalar in quotes, onto the text already `read`. -/
def quotedParts (double : Bool) : (fuel : Nat) → (read : Text) → Lex Text
  | 0, _ => throw .lexeme
  | fuel + 1, read => do
    match ← peek 0 with
    | none => throw .lexeme
    | some c =>
      if !double && c = '\'' && (← peek 1) = some (CodePoint.ofChar '\'') then
        skip 2
        quotedParts double fuel (read ++ [c])
      else if c = (if double then CodePoint.ofChar '"' else CodePoint.ofChar '\'') then
        skip 1
        return read
      else if double && c = '\\' then
        skip 1
        let text ← escape
        quotedParts double fuel (read ++ text)
      else if atBlank (some c) then
        let text ← quotedGap
        quotedParts double fuel (read ++ text)
      else
        let text ← takeWhile fun c => !atBlank (some c) && !isOneOf "'\"\\" c
        if text = [] then
          skip 1
          quotedParts double fuel (read ++ [c])
        else quotedParts double fuel (read ++ text)

/-- A scalar in quotes. -/
def quoted (double : Bool) : Lex Text := do
  skip 1
  quotedParts double ((← get).rest.length + 1) []

/-! ## Blocks -/

/-- What becomes of the line ends at the end of a block: all but one are dropped, all are, or none
is. -/
inductive Chomping where
  | clip
  | strip
  | keep
  deriving DecidableEq

/-- The sign of a block's header. -/
def chomping? : Lex (Option Chomping) := do
  let c ← peek 0
  if c = some (CodePoint.ofChar '+') then
    skip 1
    return some .keep
  else if c = some (CodePoint.ofChar '-') then
    skip 1
    return some .strip
  else return none

/-- The digit of a block's header, which is not zero. -/
def increment? : Lex (Option Nat) := do
  match (← peek 0).bind CodePoint.asciiDigit? with
  | none => return none
  | some n =>
    require (n ≠ 0)
    skip 1
    return some n

/-- The header of a block: a sign and a digit, in either order, and each of them optional. -/
def blockHeader : Lex (Chomping × Option Nat) := do
  match ← chomping? with
  | some chomping =>
    let increment ← increment?
    require (atSpace (← peek 0))
    return (chomping, increment)
  | none =>
    let increment ← increment?
    let chomping ← if increment.isSome then chomping? else pure none
    require (atSpace (← peek 0))
    return (chomping.getD .clip, increment)

/-- Pass over spaces up to a column. -/
def skipIndent (indent : Nat) : Lex Unit := do
  let spaces := ((← get).rest.takeWhile fun c => c = CodePoint.ofChar ' ').length
  skip (min spaces (indent - (← get).column))

/-- The empty lines in front of a line of a block, and its indentation up to a column. -/
def blockBreaks (indent : Nat) : (fuel : Nat) → Text → Lex Text
  | 0, breaks => pure breaks
  | fuel + 1, breaks => do
    skipIndent indent
    let lineEnd ← lineBreak
    if lineEnd = [] then return breaks else blockBreaks indent fuel (breaks ++ lineEnd)

/-- The empty lines at the start of a block, and the widest indentation up to its first line. -/
def blockIndent : (fuel : Nat) → (breaks : Text) → (widest : Nat) → Lex (Text × Nat)
  | 0, breaks, widest => pure (breaks, widest)
  | fuel + 1, breaks, widest => do
    skipSpaces
    let widest := max widest (← get).column
    let lineEnd ← lineBreak
    if lineEnd = [] then return (breaks, widest) else blockIndent fuel (breaks ++ lineEnd) widest

/-- The lines of a block, onto those already `read`, after which `breaks` are empty ones.  The
result ends with the last line's end and the empty lines after it, apart. -/
def blockLines (folded : Bool) (indent : Nat) : (fuel : Nat) → (read breaks lineEnd : Text) →
    Lex (Text × Text × Text)
  | 0, read, breaks, lineEnd => pure (read, lineEnd, breaks)
  | fuel + 1, read, breaks, lineEnd => do
    let first ← peek 0
    if (← get).column ≠ indent ∨ first = none then return (read, lineEnd, breaks)
    let isFlush (c : Option CodePoint) : Bool := !c.any (isOneOf " \t")
    let line ← takeWhile (!isBreak ·)
    let lineEnd ← lineBreak
    let after ← blockBreaks indent ((← get).rest.length + 1) []
    let read := read ++ breaks ++ line
    let next ← peek 0
    if (← get).column ≠ indent ∨ next = none then return (read, lineEnd, after)
    else
      let joint :=
        if folded ∧ lineEnd = [CodePoint.ofChar '\n'] ∧ isFlush first ∧ isFlush next then
          if after = [] then [CodePoint.ofChar ' '] else []
        else lineEnd
      blockLines folded indent fuel (read ++ joint) after []

/-- A block inside of a collection whose indentation is `parent`. -/
def block (folded : Bool) (parent : Int) : Lex Text := do
  skip 1
  let (chomping, increment) ← blockHeader
  endLine
  let least := (max (parent + 1) 1).toNat
  let size := (← get).rest.length + 1
  let (breaks, indent) ← match increment with
    | none =>
      let (breaks, widest) ← blockIndent size [] 0
      pure (breaks, max least widest)
    | some n =>
      let indent := least + n - 1
      pure (← blockBreaks indent size [], indent)
  let (text, lineEnd, after) ← blockLines folded indent size [] breaks []
  return text ++ (if chomping = .strip then [] else lineEnd)
    ++ (if chomping = .keep then after else [])

end LogRelay.Yaml.Lex
