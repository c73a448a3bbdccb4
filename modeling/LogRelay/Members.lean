/-!
# Tables in order of insertion

A table keeps its keys in the order in which they were first inserted, and for each key the value
that was inserted last.

## Main definitions

* `Members`, `Members.insert`, `Members.get?`, `Members.ofPairs`
* `Members.insertBy`, `Members.getBy?`, `Members.eraseBy`: the same for any sense in which two keys
  are one.
-/
namespace LogRelay

/-- A table kept in the order in which its keys were first inserted. -/
abbrev Members (κ ν : Type) := List (κ × ν)

namespace Members

variable {κ ν : Type}

/-- Give a key its value: in its old place if there is one, else at the end.  `same` says which
keys are one key. -/
def insertBy (same : κ → κ → Bool) (key : κ) (value : ν) : Members κ ν → Members κ ν
  | [] => [(key, value)]
  | (k, v) :: rest =>
    if same k key then (k, value) :: rest else (k, v) :: insertBy same key value rest

/-- The value of a key. -/
def getBy? (same : κ → κ → Bool) (key : κ) (table : Members κ ν) : Option ν :=
  (table.find? fun (k, _) => same k key).map Prod.snd

/-- The table without a key. -/
def eraseBy (same : κ → κ → Bool) (key : κ) (table : Members κ ν) : Members κ ν :=
  table.filter fun (k, _) => !same k key

/-- Give a key its value, keys being equal or not. -/
def insert [DecidableEq κ] (key : κ) (value : ν) (table : Members κ ν) : Members κ ν :=
  insertBy (fun a b => a = b) key value table

/-- The value of a key, keys being equal or not. -/
def get? [DecidableEq κ] (key : κ) (table : Members κ ν) : Option ν :=
  getBy? (fun a b => a = b) key table

/-- The table of a list of pairs: the place of a key is its first one, its value the last one. -/
def ofPairs [DecidableEq κ] (pairs : List (κ × ν)) : Members κ ν :=
  pairs.foldl (fun table (k, v) => table.insert k v) []

end Members

end LogRelay
