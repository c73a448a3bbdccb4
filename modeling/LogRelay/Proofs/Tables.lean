import LogRelay.Members
import Mathlib.Data.List.Basic
/-!
# What counts for a key

Of several values for one key the last one counts.

## Main definitions

* `Members.lastOf?`: the value of the last pair with a key.

## Main statements

* `Members.get?_insert`: what one more value changes.
* `Members.get?_foldl_insert`, `Members.get?_ofPairs`: in a table the last value counts.
-/
namespace LogRelay.Members

variable {κ ν : Type} [DecidableEq κ]

/-- The value of the last pair with a key. -/
def lastOf? (key : κ) (pairs : List (κ × ν)) : Option ν :=
  (pairs.filterMap fun (k, v) => if k = key then some v else none).getLast?

variable {key k : κ} {v : ν} {pairs rest : List (κ × ν)}

@[simp] theorem lastOf?_nil : lastOf? key ([] : List (κ × ν)) = none := rfl

theorem lastOf?_append (key : κ) (pairs rest : List (κ × ν)) :
    lastOf? key (pairs ++ rest) = (lastOf? key rest).or (lastOf? key pairs) := by
  rw [lastOf?, List.filterMap_append, List.getLast?_append]
  rfl

theorem lastOf?_cons (key k : κ) (v : ν) (rest : List (κ × ν)) :
    lastOf? key ((k, v) :: rest) = (lastOf? key rest).or (if k = key then some v else none) := by
  rw [← List.singleton_append, lastOf?_append]
  congr 1
  by_cases h : k = key <;> simp [lastOf?, h]

/-- What one more value changes. -/
theorem get?_insert (key k : κ) (v : ν) (table : Members κ ν) :
    get? key (insert k v table) = if k = key then some v else get? key table := by
  induction table with
  | nil => by_cases h : k = key <;> simp [insert, insertBy, get?, getBy?, h]
  | cons entry table ih =>
      obtain ⟨k', v'⟩ := entry
      simp only [insert, get?, getBy?] at ih ⊢
      by_cases hk : k' = k
      · by_cases h : k = key <;> simp [insertBy, hk, h]
      · by_cases hkey : k' = key
        · subst hkey
          simp [insertBy, hk, Ne.symm hk]
        · simpa [insertBy, hk, hkey] using ih

/-- Values that are given one after the other: the last one for a key counts. -/
theorem get?_foldl_insert (key : κ) (pairs : List (κ × ν)) (table : Members κ ν) :
    get? key (pairs.foldl (fun table (k, v) => table.insert k v) table) =
      (lastOf? key pairs).or (get? key table) := by
  induction pairs generalizing table with
  | nil => rfl
  | cons pair rest ih =>
      obtain ⟨k, v⟩ := pair
      rw [List.foldl_cons, ih, lastOf?_cons, get?_insert]
      by_cases h : k = key <;> simp [h]

/-- In the table of a list of pairs the last value of a key counts. -/
theorem get?_ofPairs (key : κ) (pairs : List (κ × ν)) :
    get? key (ofPairs pairs) = lastOf? key pairs := by
  rw [ofPairs, get?_foldl_insert]
  exact Option.or_none

end LogRelay.Members
