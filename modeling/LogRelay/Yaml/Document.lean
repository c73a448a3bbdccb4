import LogRelay.Yaml.Conversion
import LogRelay.Yaml.Merge
/-!
# Loading YAML documents

The value of a document is that of its outermost node.  A collection has its value at once; what it
holds is found later, when all collections have been met that are less deep.  So of two faults the
one that lies less deep is found first.

Settings take the loader of their file as a parameter, `Sources.loader`; `Yaml.load` is the one that the
command line runs with, and nothing that is proved of settings depends on it.

## Main definitions

* `Yaml.Build`, `Yaml.Build.valueOf`, `Yaml.Build.fill`: the values of nodes.
* `Yaml.load`: the value of a document.
-/
namespace LogRelay.Yaml

/-! ## The values of nodes -/

/-- The state in which values are found: the nodes, the values that are known, what is known of
collections, and the collections of which nothing is known yet, the latest first. -/
structure BuildState where
  graph : Graph
  values : Array (Option Value)
  collections : Collections
  pending : List Nat := []

/-- What finds values and may find a fault. -/
abbrev Build := StateT BuildState (Except Fault)

namespace Build

/-- The text of a node where a scalar is due.  A mapping may give a default value for that, which
may be such a mapping itself. -/
def textOf (g : Graph) : (fuel number : Nat) → Except Fault Text
  | 0, _ => .error .tooDeep
  | fuel + 1, number => match g.content number with
    | .scalar text => .ok text
    | .mapping pairs => match pairs.find? fun (key, _) => g.tag key = Tag "value" with
      | some (_, value) => textOf g fuel value
      | none => .error .construction
    | .sequence _ => .error .construction

/-- The date of a node.  There is no default value for one. -/
def dateOf (content : Content) (text : Text) : Except Fault Value :=
  match content with
  | .mapping _ => .error .defaultDate
  | _ => toDate text

/-- Whether a tag is that of a collection. -/
def isCollection (tag : Text) : Bool :=
  [Tag "seq", Tag "omap", Tag "pairs", Tag "map", Tag "set"].contains tag

/-- The value of a scalar. -/
def scalarOf (g : Graph) (number : Nat) : Except Fault Value := do
  let tag := g.tag number
  let names := ["str", "null", "bool", "int", "float", "timestamp", "binary"]
  if !(names.map Tag).contains tag then throw .construction
  let text ← textOf g (g.nodes.size + 1) number
  if tag = Tag "str" then return .text text
  else if tag = Tag "null" then return .null
  else if tag = Tag "bool" then return .bool (← toBool text)
  else if tag = Tag "int" then return .int (← toInt text)
  else if tag = Tag "float" then return .float (← toDouble text)
  else if tag = Tag "timestamp" then dateOf (g.content number) text
  else return .bytes (← toBytes text)

/-- The value of a node. -/
def valueOf (number : Nat) : Build Value := do
  let s ← get
  match s.values[number]?.join with
  | some v => return v
  | none =>
    let waits := isCollection (s.graph.tag number)
    let v ← if waits then pure (.collection number) else scalarOf s.graph number
    set { s with
      values := s.values.setIfInBounds number (some v)
      pending := if waits then number :: s.pending else s.pending }
    return v

/-- The pair of a mapping that has only one. -/
def pairOf (number : Nat) : Build (Value × Value) := do
  match (← get).graph.content number with
  | .mapping [(key, value)] => return (← valueOf key, ← valueOf value)
  | _ => throw .construction

/-- The mapping of a node: the last value for a key counts. -/
def mappingOf (number : Nat) : Build (List (Value × Value)) := do
  if ((← get).graph.pairs? number).isNone then throw .construction
  let graph ← (← get).graph.merge number
  modify fun s => { s with graph }
  (graph.pairs number).foldlM (fun table (key, value) => do
    let key ← valueOf key
    if !key.isKey then throw .construction
    return Members.insertBy Value.sameKey key (← valueOf value) table) []

/-- What the collection of a node holds. -/
def collectionOf (number : Nat) : Build Collection := do
  let g := (← get).graph
  let tag := g.tag number
  if tag = Tag "map" then return .mapping (← mappingOf number)
  else if tag = Tag "set" then return .set ((← mappingOf number).map Prod.fst)
  else match g.content number with
    | .sequence items =>
      if tag = Tag "seq" then return .sequence (← items.mapM valueOf)
      else return .table (← items.mapM pairOf)
    | _ => throw .construction

/-- Find out what collections hold, in the order in which they were met. -/
def fill : (fuel : Nat) → Build Unit
  | 0 => pure ()
  | fuel + 1 => do
    let pending := (← get).pending.reverse
    if pending.isEmpty then return
    modify fun s => { s with pending := [] }
    for number in pending do
      let c ← collectionOf number
      modify fun s => { s with collections := s.collections.setIfInBounds number (some c) }
    fill fuel

end Build

/-! ## Documents -/

/-- The value that a graph stands for.  Each round of the search meets at least one new node. -/
def Document.ofGraph (g : Graph) : Except Fault Document := do
  let size := g.nodes.size
  let find : Build Value := do
    let root ← Build.valueOf g.root
    Build.fill (size + 1)
    return root
  let (root, s) ← find.run {
    graph := g
    values := Array.replicate size none
    collections := Array.replicate size none }
  return ⟨root, s.collections⟩

/-- The value of a document, `none` when there is none.  Collections may lie at most `depth` deep
inside of each other. -/
def load (depth : Nat) (bs : Bytes) : Except Fault (Option Document) := do
  match ← Graph.ofTokens? depth (tokens (readable bs)) with
  | none => return none
  | some g => return some (← Document.ofGraph g)

end LogRelay.Yaml
