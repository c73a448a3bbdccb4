import LogRelay.Yaml.Node
/-!
# Merging mappings

A merge key brings the pairs of other mappings into its own one, in front of the pairs that stand
there.  Mappings are merged when their values are asked for, and what is merged then stays merged:
the nodes of a document change.  A mapping may merge itself, and then sees of itself what is not
merged yet.

## Main definitions

* `Yaml.Graph.merge`: a graph in which the merge keys of a mapping are carried out.
-/
namespace LogRelay.Yaml.Graph

/-- What changes the nodes of a document and may find a fault. -/
abbrev Change := StateT Graph (Except Fault)

/-- The tag of a node. -/
def tag (g : Graph) (number : Nat) : Text :=
  (g.nodes[number]?.getD default).tag

/-- What a node holds. -/
def content (g : Graph) (number : Nat) : Content :=
  (g.nodes[number]?.getD default).content

/-- The pairs of a node, if it is a mapping. -/
def pairs? (g : Graph) (number : Nat) : Option (List (Nat × Nat)) :=
  match g.content number with
  | .mapping pairs => some pairs
  | _ => none

/-- The pairs of a node, none if it is no mapping. -/
def pairs (g : Graph) (number : Nat) : List (Nat × Nat) :=
  (g.pairs? number).getD []

/-- The graph with other pairs for a mapping. -/
def setPairs (number : Nat) (pairs : List (Nat × Nat)) (g : Graph) : Graph :=
  { g with nodes := g.nodes.modify number fun n => { n with content := .mapping pairs } }

/-- The graph in which nodes that are the sign of a default value are texts. -/
def ordinary (numbers : List Nat) (g : Graph) : Graph :=
  let signs := numbers.filter fun number => g.tag number = Tag "value"
  { g with nodes := signs.foldl (fun nodes number =>
      nodes.modify number fun n => { n with tag := Tag "str" }) g.nodes }

/-- The number of pairs in all mappings. -/
def pairCount (g : Graph) : Nat :=
  g.nodes.foldl (fun count n => match n.content with
    | .mapping pairs => count + pairs.length
    | _ => count) 0

/-- Carry out the merge keys of a mapping from its pair of the given index on.  `merged` are the
pairs that those before it have brought in.  Each merge key is taken away before the mappings that
it names are merged themselves, so `room` need not be larger than the number of pairs. -/
def mergeFrom : (room number index : Nat) → (merged : List (Nat × Nat)) → Change Unit
  | 0, _, _, _ => pure ()
  | room + 1, number, index, merged => do
    let g ← get
    let pairs := g.pairs number
    let isMerge (pair : Nat × Nat) : Bool := g.tag pair.1 = Tag "merge"
    let passed := (pairs.drop index).takeWhile fun pair => !isMerge pair
    modify (ordinary (passed.map Prod.fst))
    let index := index + passed.length
    match pairs[index]? with
    | none => if merged ≠ [] then modify (setPairs number (merged ++ pairs))
    | some (_, source) =>
      modify (setPairs number (pairs.eraseIdx index))
      let pairsOf (source : Nat) : Change (List (Nat × Nat)) := do
        if ((← get).pairs? source).isNone then throw .construction
        mergeFrom room source 0 []
        return (← get).pairs source
      let brought ← match (← get).content source with
        | .sequence sources => pure (← sources.mapM pairsOf).reverse.flatten
        | _ => pairsOf source
      mergeFrom room number index (merged ++ brought)

/-- Carry out the merge keys of a mapping. -/
def merge (number : Nat) (g : Graph) : Except Fault Graph :=
  Prod.snd <$> (mergeFrom (g.pairCount + 1) number 0 []).run g

end LogRelay.Yaml.Graph
