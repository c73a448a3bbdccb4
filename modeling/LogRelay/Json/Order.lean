import LogRelay.Json.Basic
/-!
# Keys in order

Texts have an order among themselves, and so have numbers.  What is no number is neither before nor
after any number, so where it ends up among them depends on the way in which keys are sorted: each
one is put among those before it at a place that is found by halving.

## Main definitions

* `Json.before?`: whether a key comes before another one.
* `Json.sorted?`: keys in order, if they have one.
-/
namespace LogRelay.Json

/-! ## Comparing -/

/-- The place of a number: on which side of all fractions it lies, zero for none, and the fraction
that it is.  What is no number has no place. -/
def numberPlace? : Int ⊕ Double → Option (Int × Int × Nat)
  | .inl n => some (0, n, 1)
  | .inr (.infinite negative) => some (if negative then -1 else 1, 0, 1)
  | .inr x => x.toFraction?.map fun (negative, num, den) =>
    (0, if negative then -(num : Int) else num, den)

/-- Whether a number is less than another one. -/
def numberLt (x y : Int ⊕ Double) : Bool :=
  match numberPlace? x, numberPlace? y with
  | some (i, a, c), some (j, b, d) => i < j || (i = j && a * d < b * c)
  | _, _ => false

/-- Whether a key comes before another one, if they are of one kind: texts by their code points,
numbers by value. -/
def before? (a b : Json) : Option Bool :=
  match a, b with
  | .str s, .str t => some (!t.precedes s)
  | _, _ => match a.keyNumber?, b.keyNumber? with
    | some x, some y => some (numberLt x y)
    | _, _ => none

/-! ## Sorting -/

variable {α : Type}

/-- The place for an item between two places of a list, found by halving: all items there that it
comes before should stand behind all others. -/
def placeBetween (before : α → α → Bool) (item : α) (sorted : List α) (low high : Nat) : Nat :=
  if low < high then
    let middle := low + (high - low) / 2
    if sorted[middle]?.any (before item) then placeBetween before item sorted low middle
    else placeBetween before item sorted (middle + 1) high
  else low
termination_by high - low

/-- Put an item into a list that is in order. -/
def place (before : α → α → Bool) (sorted : List α) (item : α) : List α :=
  sorted.insertIdx (placeBetween before item sorted 0 sorted.length) item

/-- The items after `last` up to the first one that does not stand to its neighbour as the others
do, and the rest. -/
def takeRun (continues : α → α → Bool) (last : α) : List α → List α × List α
  | [] => ([], [])
  | item :: rest =>
    if continues last item then
      let (run, rest) := takeRun continues item rest
      (item :: run, rest)
    else ([], item :: rest)

/-- The list in order.  What is in order at its start, either way round, is taken as it is. -/
def sortBy (before : α → α → Bool) : List α → List α
  | [] => []
  | first :: rest =>
    let falls := rest.head?.any (before · first)
    let (run, rest) := takeRun (fun a b => before b a = falls) first rest
    let run := if falls then (first :: run).reverse else first :: run
    rest.foldl (place before) run

/-- Keys in order, if they have one. -/
def sorted? (keys : List Json) : Option (List Json) :=
  let comparable := keys.all fun a => keys.all fun b => (before? a b).isSome
  if keys.length ≤ 1 then some keys
  else if comparable then some (sortBy (fun a b => (before? a b).getD false) keys)
  else none

end LogRelay.Json
