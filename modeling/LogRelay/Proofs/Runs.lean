import Mathlib.Algebra.Ring.Nat
import Mathlib.Data.List.Basic
/-!
# Runs

A system that moves by steps, each of which can be made or not, is run by making several of them in a
row.

## Main statements

* `foldlM_induction`: what holds at the start and is kept by each move holds after every run.
* `foldlM_append_eq_some`, `foldlM_middle`: a run made of two runs, and what follows a part of a run.
* `foldlM_exists_step`: what does not hold at the start and holds after a run begins to hold with one of
  its moves.
* `foldlM_filter`: a run without the moves that do not show.
* `sum_map_set`: a sum over the parts of a system, of which one is replaced.
-/
namespace LogRelay

variable {σ μ : Type} {step : σ → μ → Option σ} {P : σ → Prop} {ok : μ → Prop}

/-- What is kept by each move is kept by a run. -/
theorem foldlM_induction {s s' : σ} {moves : List μ}
    (hstep : ∀ s m s', P s → ok m → step s m = some s' → P s') (hs : P s)
    (hok : ∀ m ∈ moves, ok m) (h : moves.foldlM step s = some s') : P s' := by
  induction moves generalizing s with
  | nil => exact Option.some.inj h ▸ hs
  | cons m moves ih =>
      rw [List.foldlM_cons] at h
      obtain ⟨t, ht, hrun⟩ := Option.bind_eq_some_iff.1 h
      refine ih (hstep s m t hs (hok m List.mem_cons_self) ht) ?_ hrun
      intro n hn
      exact hok n (List.mem_cons_of_mem m hn)

/-- A run that begins where another one ends goes on with it. -/
theorem foldlM_append_eq_some {s t s' : σ} {front back : List μ}
    (hfront : front.foldlM step s = some t) (hback : back.foldlM step t = some s') :
    (front ++ back).foldlM step s = some s' := by
  rw [List.foldlM_append]
  exact Option.bind_eq_some_iff.2 ⟨t, hfront, hback⟩

/-- After the front of a run comes the next move, and after that the rest. -/
theorem foldlM_middle {s t s' : σ} {front back : List μ} {m : μ}
    (hfront : front.foldlM step s = some t) (h : (front ++ m :: back).foldlM step s = some s') :
    ∃ t', step t m = some t' ∧ back.foldlM step t' = some s' := by
  rw [List.foldlM_append, hfront] at h
  exact Option.bind_eq_some_iff.1 h

/-- A run that comes to where something holds has a move with which it begins to hold. -/
theorem foldlM_exists_step {s s' : σ} {moves : List μ} (hs : ¬ P s) (hs' : P s')
    (h : moves.foldlM step s = some s') :
    ∃ front m back t t', moves = front ++ m :: back ∧ front.foldlM step s = some t ∧ ¬ P t ∧
      step t m = some t' ∧ P t' ∧ back.foldlM step t' = some s' := by
  induction moves generalizing s with
  | nil => exact absurd (Option.some.inj h ▸ hs') hs
  | cons m moves ih =>
      rw [List.foldlM_cons] at h
      obtain ⟨t, ht, hrun⟩ := Option.bind_eq_some_iff.1 h
      by_cases hP : P t
      · exact ⟨[], m, moves, s, t, rfl, rfl, hs, ht, hP, hrun⟩
      · obtain ⟨front, m', back, u, u', rfl, hfront, hrest⟩ := ih hP hrun
        refine ⟨m :: front, m', back, u, u', rfl, ?_, hrest⟩
        rw [List.foldlM_cons]
        exact Option.bind_eq_some_iff.2 ⟨t, ht, hfront⟩

/-- Moves that do not show can be left out of a run, if what does not show does not matter for the
other ones. -/
theorem foldlM_filter (view : σ → σ) {keep : μ → Bool}
    (hstep : ∀ s m s', P s → step s m = some s' → P s')
    (hdrop : ∀ s m, P s → keep m = false → (step s m).map view = some (view s))
    (hkeep : ∀ s m, P s → keep m = true → step (view s) m = (step s m).map view) {s : σ} (hs : P s)
    (moves : List μ) :
    (moves.filter keep).foldlM step (view s) = (moves.foldlM step s).map view := by
  induction moves generalizing s with
  | nil => rfl
  | cons m moves ih =>
      cases hm : keep m with
      | false =>
          obtain ⟨t, ht, hview⟩ := Option.map_eq_some_iff.1 (hdrop s m hs hm)
          rw [List.filter_cons_of_neg (by simp [hm]), List.foldlM_cons, ht, ← hview]
          exact ih (hstep s m t hs ht)
      | true =>
          rw [List.filter_cons_of_pos hm, List.foldlM_cons, List.foldlM_cons, hkeep s m hs hm]
          cases ht : step s m with
          | none => rfl
          | some t => exact ih (hstep s m t hs ht)

/-- What a move changes in a sum over all parts of a system when it replaces one of them. -/
theorem sum_map_set {α : Type} {l : List α} {i : Nat} {a : α} (hi : l[i]? = some a) (b : α)
    (f : α → Nat) : ((l.set i b).map f).sum + f a = (l.map f).sum + f b := by
  induction l generalizing i with
  | nil => simp at hi
  | cons x l ih =>
      cases i with
      | zero =>
          obtain rfl : x = a := by simpa using hi
          simp only [List.set_cons_zero, List.map_cons, List.sum_cons]
          omega
      | succ i =>
          have := ih (by simpa using hi)
          simp only [List.set_cons_succ, List.map_cons, List.sum_cons]
          omega

end LogRelay
