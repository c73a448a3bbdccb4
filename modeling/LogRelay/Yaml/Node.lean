import LogRelay.Members
import LogRelay.Yaml.Lexer
import LogRelay.Yaml.Schema
/-!
# YAML nodes

The nodes of a document are put together from its tokens.  Each node has a tag; where none is
written, a plain scalar gets it from its form.  Nodes are named by numbers, in the order in which
they start, and collections hold the numbers of their nodes.  An alias is the number of the node
that its anchor names, so it may be a collection that it lies inside of.

## Main definitions

* `Yaml.Node`, `Yaml.Graph`
* `Yaml.Graph.ofTokens?`: the nodes of a document, or `none` when there is no document.
-/
namespace LogRelay.Yaml

/-- What a node holds: a text, or the numbers of other nodes. -/
inductive Content where
  | scalar (text : Text)
  | sequence (items : List Nat)
  | mapping (pairs : List (Nat × Nat))

/-- A node. -/
structure Node where
  tag : Text
  content : Content

instance : Inhabited Node := ⟨⟨[], .scalar []⟩⟩

/-- The nodes of a document by their numbers, and the number of the outermost one. -/
structure Graph where
  nodes : Array Node
  root : Nat

/-- The state of the reading of nodes: the tokens that are left, what the tag handles stand for, the
nodes so far, the numbers that anchors name, and how many more collections may lie inside of those
that are open. -/
structure NodeState where
  left : Tokens
  handles : List (Text × Text)
  nodes : Array Node := #[]
  anchors : List (Text × Nat) := []
  room : Nat

/-- What takes tokens and may find a fault. -/
abbrev ReadNode := StateT NodeState (Except Fault)

namespace ReadNode

/-- The next token. -/
def peek : ReadNode Token := do
  match (← get).left with
  | ⟨t :: _, _⟩ => return t
  | ⟨[], some fault⟩ => throw fault
  | ⟨[], none⟩ => return .streamEnd

/-- Pass over a token. -/
def skip : ReadNode Unit := do
  discard peek
  modify fun c => { c with left := { c.left with tokens := c.left.tokens.drop 1 } }

/-- Pass over the next token if it is the given one. -/
def skipIf (t : Token) : ReadNode Bool := do
  if (← peek) = t then
    skip
    return true
  else return false

/-- Fail unless a condition holds. -/
def require (condition : Bool) : ReadNode Unit :=
  if condition then pure () else throw .grammar

/-- The number of a new node. -/
def add (n : Node) : ReadNode Nat := do
  let number := (← get).nodes.size
  modify fun c => { c with nodes := c.nodes.push n }
  return number

/-- The node of nothing at all. -/
def emptyScalar : ReadNode Nat :=
  add ⟨Tag "null", .scalar []⟩

/-! ## What stands in front of a node -/

/-- What an anchor and a tag in front of a node say of it. -/
structure Properties where
  anchor : Option Text := none
  tag : Option Text := none

/-- The anchor, if one comes next. -/
def anchor? : ReadNode (Option Text) := do
  match ← peek with
  | .anchor name =>
    skip
    return some name
  | _ => return none

/-- The tag, if one comes next: its handle and its suffix. -/
def tag? : ReadNode (Option (Option Text × Text)) := do
  match ← peek with
  | .tag handle suffix =>
    skip
    return some (handle, suffix)
  | _ => return none

/-- The tag that a handle and a suffix write. -/
def resolveTag (handle : Option Text) (suffix : Text) : ReadNode Text := do
  match handle with
  | none => return suffix
  | some handle =>
    match Members.get? handle (← get).handles with
    | some stem => return stem ++ suffix
    | none => throw .grammar

/-- The anchor and the tag in front of a node, in either order. -/
def properties : ReadNode Properties := do
  let anchor ← anchor?
  let tag ← tag?
  let anchor ← if anchor.isNone ∧ tag.isSome then anchor? else pure anchor
  let tag ← tag.mapM fun (handle, suffix) => resolveTag handle suffix
  return { anchor, tag }

/-- The tag of a collection: the written one, unless it is missing or the lone mark. -/
def Properties.collectionTag (p : Properties) (name : String) : Text :=
  match p.tag with
  | none => Tag name
  | some tag => if tag = "!" then Tag name else tag

/-- The tag of a scalar: the written one, or else that of its form if it is plain, or marked by a
lone mark, and that of texts if not. -/
def Properties.scalarTag (p : Properties) (plain : Bool) (text : Text) : Text :=
  match p.tag with
  | none => if plain then tagOf text else Tag "str"
  | some tag => if tag = "!" then tagOf text else tag

/-- The number of a new node with the given properties.  Its anchor must be a new one. -/
def create (p : Properties) (n : Node) : ReadNode Nat := do
  if let some name := p.anchor then
    if (Members.get? name (← get).anchors).isSome then throw .reference
  let number ← add n
  if let some name := p.anchor then
    modify fun c => { c with anchors := Members.insert name number c.anchors }
  return number

/-- Complete a node. -/
def complete (number : Nat) (n : Node) : ReadNode Nat := do
  modify fun c => { c with nodes := c.nodes.setIfInBounds number n }
  return number

/-- A node that is a scalar. -/
def scalar (p : Properties) (plain : Bool) (text : Text) : ReadNode Nat :=
  create p ⟨p.scalarTag plain text, .scalar text⟩

/-- Read what lies inside of a collection. -/
def inside {α : Type} (read : ReadNode α) : ReadNode α := do
  let room := (← get).room
  if room = 0 then throw .tooDeep
  modify fun c => { c with room := room - 1 }
  let a ← read
  modify fun c => { c with room }
  return a

/-- A node that is a sequence of the given items. -/
def sequence (p : Properties) (items : ReadNode (List Nat)) : ReadNode Nat := do
  let tag := p.collectionTag "seq"
  let number ← create p ⟨tag, .sequence []⟩
  complete number ⟨tag, .sequence (← inside items)⟩

/-- A node that is a mapping of the given pairs. -/
def mapping (p : Properties) (pairs : ReadNode (List (Nat × Nat))) : ReadNode Nat := do
  let tag := p.collectionTag "map"
  let number ← create p ⟨tag, .mapping []⟩
  complete number ⟨tag, .mapping (← inside pairs)⟩

/-! ## Nodes -/

mutual

/-- A node.  `block` allows block collections, and `indentless` a block sequence that is not
indented. -/
def node (block indentless : Bool) : (fuel : Nat) → ReadNode Nat
  | 0 => throw .grammar
  | fuel + 1 => do
    match ← peek with
    | .alias name =>
      skip
      match Members.get? name (← get).anchors with
      | some number => return number
      | none => throw .reference
    | _ =>
      let p ← properties
      match ← peek with
      | .scalar plain text =>
        skip
        scalar p plain text
      | .blockEntry =>
        if indentless then sequence p (indentlessItems fuel) else missing p
      | .flowSequenceStart =>
        skip
        sequence p (flowItems true fuel)
      | .flowMappingStart =>
        skip
        mapping p (flowPairs true fuel)
      | .blockSequenceStart =>
        if block then
          skip
          sequence p (blockItems fuel)
        else missing p
      | .blockMappingStart =>
        if block then
          skip
          mapping p (blockPairs fuel)
        else missing p
      | _ => missing p
where
  /-- The node of which there are only an anchor or a tag. -/
  missing (p : Properties) : ReadNode Nat :=
    if p.anchor.isSome ∨ p.tag.isSome then
      -- Without a tag the form of nothing decides, and a lone mark counts as none.
      scalar p true []
    else throw .grammar

/-- A node, or the empty one in front of any of the given tokens. -/
def nodeUnless (stops : List Token) (block indentless : Bool) : (fuel : Nat) → ReadNode Nat
  | 0 => throw .grammar
  | fuel + 1 => do
    if stops.contains (← peek) then emptyScalar else node block indentless fuel

/-- The items of a block sequence, to its end. -/
def blockItems : (fuel : Nat) → ReadNode (List Nat)
  | 0 => throw .grammar
  | fuel + 1 => do
    if ← skipIf .blockEntry then
      let item ← nodeUnless [.blockEntry, .blockEnd] true false fuel
      return item :: (← blockItems fuel)
    else
      require (← skipIf .blockEnd)
      return []

/-- The items of a block sequence that is not indented. -/
def indentlessItems : (fuel : Nat) → ReadNode (List Nat)
  | 0 => throw .grammar
  | fuel + 1 => do
    if ← skipIf .blockEntry then
      let item ← nodeUnless [.blockEntry, .key, .value, .blockEnd] true false fuel
      return item :: (← indentlessItems fuel)
    else return []

/-- The value after a key, if there is a colon. -/
def valueUnless (stops : List Token) (block : Bool) : (fuel : Nat) → ReadNode Nat
  | 0 => throw .grammar
  | fuel + 1 => do
    if ← skipIf .value then nodeUnless stops block block fuel
    else
      discard peek
      emptyScalar

/-- The pairs of a block mapping, to its end. -/
def blockPairs : (fuel : Nat) → ReadNode (List (Nat × Nat))
  | 0 => throw .grammar
  | fuel + 1 => do
    let stops := [Token.key, .value, .blockEnd]
    if ← skipIf .key then
      let key ← nodeUnless stops true true fuel
      let value ← valueUnless stops true fuel
      return (key, value) :: (← blockPairs fuel)
    else
      require (← skipIf .blockEnd)
      return []

/-- The items of a sequence in brackets, to the closing one.  An item with a colon is a mapping of
one pair. -/
def flowItems (first : Bool) : (fuel : Nat) → ReadNode (List Nat)
  | 0 => throw .grammar
  | fuel + 1 => do
    if ← skipIf .flowSequenceEnd then return []
    else
      unless first do require (← skipIf .flowEntry)
      if ← skipIf .key then
        let item ← mapping {} do
          let key ← nodeUnless [.value, .flowEntry, .flowSequenceEnd] false false fuel
          let value ← valueUnless [.flowEntry, .flowSequenceEnd] false fuel
          return [(key, value)]
        return item :: (← flowItems false fuel)
      else if ← skipIf .flowSequenceEnd then return []
      else
        let item ← node false false fuel
        return item :: (← flowItems false fuel)

/-- The pairs of a mapping in braces, to the closing one.  A key may stand without a value. -/
def flowPairs (first : Bool) : (fuel : Nat) → ReadNode (List (Nat × Nat))
  | 0 => throw .grammar
  | fuel + 1 => do
    if ← skipIf .flowMappingEnd then return []
    else
      unless first do require (← skipIf .flowEntry)
      if ← skipIf .key then
        let key ← nodeUnless [.value, .flowEntry, .flowMappingEnd] false false fuel
        let value ← valueUnless [.flowEntry, .flowMappingEnd] false fuel
        return (key, value) :: (← flowPairs false fuel)
      else if ← skipIf .flowMappingEnd then return []
      else
        let key ← node false false fuel
        discard peek
        return (key, ← emptyScalar) :: (← flowPairs false fuel)

end

/-! ## Documents -/

/-- The handles that every document knows. -/
def commonHandles : List (Text × Text) := [("!", "!"), ("!!", standard)]

/-- The directives in front of a document: the handles that they define, and whether they give a
version, which must be one of the first edition. -/
def directives (versioned : Bool) (handles : List (Text × Text)) : (fuel : Nat) →
    ReadNode (List (Text × Text))
  | 0 => throw .grammar
  | fuel + 1 => do
    match ← peek with
    | .directive (.version major) =>
      require (!versioned && major = 1)
      skip
      directives true handles fuel
    | .directive (.tagHandle handle stem) =>
      require (Members.get? handle handles).isNone
      skip
      directives versioned (handles ++ [(handle, stem)]) fuel
    | .directive .other =>
      skip
      directives versioned handles fuel
    | _ => return handles ++ commonHandles.filter fun (h, _) => (Members.get? h handles).isNone

/-- Pass over marks of the end of a document. -/
def skipDocumentEnds : (fuel : Nat) → ReadNode Unit
  | 0 => pure ()
  | fuel + 1 => do
    if ← skipIf .documentEnd then skipDocumentEnds fuel

/-- The start of a document that is marked, unless the stream ends. -/
def documentStart (fuel : Nat) : ReadNode Bool := do
  skipDocumentEnds fuel
  if (← peek) = .streamEnd then return false
  else
    let handles ← directives false [] fuel
    modify fun c => { c with handles }
    require (← skipIf .documentStart)
    return true

/-- Whether the token is a directive. -/
def isDirective : Token → Bool
  | .directive _ => true
  | _ => false

/-- The outermost node of a marked document. -/
def content (fuel : Nat) : ReadNode Nat := do
  let t ← peek
  if isDirective t || t = .documentStart || t = .documentEnd || t = .streamEnd then emptyScalar
  else node true false fuel

/-- The outermost node of the only document, if there is one. -/
def document (fuel : Nat) : ReadNode (Option Nat) := do
  let t ← peek
  let marked := isDirective t || t = .documentStart || t = .streamEnd
  let root ←
    if marked then
      if ← documentStart fuel then some <$> content fuel else pure none
    else some <$> node true false fuel
  if root.isSome then
    discard (skipIf .documentEnd)
    if ← documentStart fuel then throw .reference
  return root

end ReadNode

/-- The nodes of a document, `none` when there is no document.  Collections may lie at most `depth`
deep inside of each other. -/
def Graph.ofTokens? (depth : Nat) (t : Tokens) : Except Fault (Option Graph) := do
  let fuel := 4 * (t.tokens.length + 4)
  let (root, c) ← (ReadNode.document fuel).run
    { left := t, handles := ReadNode.commonHandles, room := depth }
  return root.map fun root => ⟨c.nodes, root⟩

end LogRelay.Yaml
