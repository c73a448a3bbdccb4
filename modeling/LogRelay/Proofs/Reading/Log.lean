import LogRelay.Reading.Reader
import Mathlib.Data.List.Basic
/-!
# Logs in the order of their offsets

The messages of a partition stand in the order of their offsets, so that whoever reads the partition
in pieces meets each message once: what is read up to an offset and what is left from there on make
up the log.

## Main definitions

* `IsIncreasing`: each message has a greater offset than the one before it.
* `Message.upFrom`, `Message.within`: the messages from an offset on, and those from one offset up
  to another one.
* `Message.IsPlace`: an offset that a reader can come to.

## Main statements

* `within_append_upFrom`: reading from one place to another and then on is reading on.
* `upFrom_of_cons`: the first message that is left is the next one to be read.
* `take_eq_within`: a batch is what lies up to its last message.
* `within_append_singleton`: a longer log is the same up to a place that a reader has come to.
-/
namespace LogRelay

/-- Each message has a greater offset than all those before it. -/
def IsIncreasing (log : List Message) : Prop :=
  log.Pairwise fun m n => m.offset < n.offset

namespace Message

/-- The messages of a log from an offset on. -/
def upFrom (log : List Message) (start : Int) : List Message :=
  log.filter (start ≤ ·.offset)

/-- The messages of a log from one offset up to another one, which is left out. -/
def within (log : List Message) (start stop : Int) : List Message :=
  (upFrom log start).filter (·.offset < stop)

end Message

open Message

variable {log : List Message} {a b c : Int}

@[simp] theorem mem_upFrom {m : Message} : m ∈ upFrom log a ↔ m ∈ log ∧ a ≤ m.offset := by
  simp [upFrom]

@[simp] theorem mem_within {m : Message} :
    m ∈ within log a b ↔ (m ∈ log ∧ a ≤ m.offset) ∧ m.offset < b := by
  simp [within]

theorem IsIncreasing.upFrom (h : IsIncreasing log) (a : Int) : IsIncreasing (upFrom log a) :=
  h.filter _

/-- An increasing log is increasing with a message behind all others. -/
theorem IsIncreasing.concat {m : Message} (h : IsIncreasing log)
    (hm : ∀ n ∈ log, n.offset < m.offset) : IsIncreasing (log ++ [m]) := by
  rw [IsIncreasing, List.pairwise_append]
  exact ⟨h, List.pairwise_singleton _ _, by simpa using hm⟩

theorem upFrom_append (log rest : List Message) (a : Int) :
    upFrom (log ++ rest) a = upFrom log a ++ upFrom rest a := by
  simp [Message.upFrom]

theorem within_append (log rest : List Message) (a b : Int) :
    within (log ++ rest) a b = within log a b ++ within rest a b := by
  simp [within, upFrom_append]

/-- Messages from a later offset on are those of them that come that late. -/
theorem upFrom_upFrom (hab : a ≤ b) : (upFrom log a).filter (b ≤ ·.offset) = upFrom log b := by
  rw [Message.upFrom, Message.upFrom, List.filter_filter]
  apply List.filter_congr
  intro m _
  have : b ≤ m.offset → a ≤ m.offset := by omega
  by_cases hb : b ≤ m.offset <;> simp [hb, this]

/-- An increasing list is its part below an offset and then its part from there on. -/
theorem filter_lt_append_filter_le (h : IsIncreasing log) (b : Int) :
    log.filter (·.offset < b) ++ log.filter (b ≤ ·.offset) = log := by
  induction log with
  | nil => rfl
  | cons m log ih =>
      obtain ⟨hm, hlog⟩ := List.pairwise_cons.1 h
      by_cases hb : m.offset < b
      · have : ¬ b ≤ m.offset := by omega
        simp [hb, this, ih hlog]
      · have hle : b ≤ m.offset := by omega
        have hall : ∀ n ∈ log, b ≤ n.offset := by
          intro n hn
          have := hm n hn
          omega
        have hnone : log.filter (·.offset < b) = [] := by
          rw [List.filter_eq_nil_iff]
          intro n hn
          have := hall n hn
          simp only [decide_eq_true_eq]
          omega
        have hrest : log.filter (b ≤ ·.offset) = log := by
          rw [List.filter_eq_self]
          intro n hn
          simpa using hall n hn
        simp [hb, hle, hnone, hrest]

/-- What is read from one place to another, and what is left from there on. -/
theorem within_append_upFrom (h : IsIncreasing log) (hab : a ≤ b) :
    within log a b ++ upFrom log b = upFrom log a := by
  rw [← upFrom_upFrom hab]
  exact filter_lt_append_filter_le (h.upFrom a) b

theorem within_self (log : List Message) (a : Int) : within log a a = [] := by
  rw [within, List.filter_eq_nil_iff]
  intro m hm
  have := (mem_upFrom.1 hm).2
  simp only [decide_eq_true_eq]
  omega

theorem within_eq_nil (h : b ≤ a) : within log a b = [] := by
  rw [within, List.filter_eq_nil_iff]
  intro m hm
  have := (mem_upFrom.1 hm).2
  simp only [decide_eq_true_eq]
  omega

/-- What is left behind the first message that is left. -/
theorem upFrom_of_cons (h : IsIncreasing log) {m : Message} {rest : List Message}
    (hm : upFrom log a = m :: rest) : upFrom log (m.offset + 1) = rest := by
  have hinc := hm ▸ h.upFrom a
  have ha : a ≤ m.offset := (mem_upFrom.1 (hm ▸ List.mem_cons_self : m ∈ upFrom log a)).2
  rw [← upFrom_upFrom (by omega : a ≤ m.offset + 1), hm,
    List.filter_cons_of_neg (by rw [decide_eq_true_eq]; omega), List.filter_eq_self]
  intro n hn
  have := (List.pairwise_cons.1 hinc).1 n hn
  simp only [decide_eq_true_eq]
  omega

/-- What has been read grows by the first message that was left. -/
theorem within_of_cons (h : IsIncreasing log) {m : Message} {rest : List Message} (hab : a ≤ b)
    (hm : upFrom log b = m :: rest) : within log a (m.offset + 1) = within log a b ++ [m] := by
  have hb : b ≤ m.offset := (mem_upFrom.1 (hm ▸ List.mem_cons_self : m ∈ upFrom log b)).2
  have hread := within_append_upFrom h (by omega : a ≤ m.offset + 1)
  rw [upFrom_of_cons h hm, ← within_append_upFrom h hab, hm] at hread
  exact List.append_cancel_right (hread.trans (by simp))

/-- What is read from one place to a second one, and then to a third one. -/
theorem within_append_within (h : IsIncreasing log) (hab : a ≤ b) (hbc : b ≤ c) :
    within log a b ++ within log b c = within log a c := by
  refine (List.append_left_inj (upFrom log c)).1 ?_
  rw [List.append_assoc, within_append_upFrom h hbc, within_append_upFrom h hab,
    within_append_upFrom h (by omega)]

/-- A batch of the next messages, and what is left behind its last one. -/
theorem append_upFrom_of_take (h : IsIncreasing log) {size : Nat} {m : Message}
    (hm : ((upFrom log a).take size).getLast? = some m) :
    (upFrom log a).take size ++ upFrom log (m.offset + 1) = upFrom log a := by
  obtain ⟨front, hfront⟩ := List.getLast?_eq_some_iff.1 hm
  have hall := List.take_append_drop size (upFrom log a)
  have hinc := h.upFrom a
  rw [← hall, hfront] at hinc
  have hle : a ≤ m.offset := by
    have : m ∈ (upFrom log a).take size := by simp [hfront]
    exact (mem_upFrom.1 (List.mem_of_mem_take this)).2
  suffices hrest : upFrom log (m.offset + 1) = (upFrom log a).drop size by rw [hrest, hall]
  rw [← upFrom_upFrom (by omega : a ≤ m.offset + 1)]
  nth_rewrite 1 [← hall]
  obtain ⟨hbatch, -, hdrop⟩ := List.pairwise_append.1 hinc
  rw [List.filter_append, List.filter_eq_nil_iff.2, List.nil_append, List.filter_eq_self]
  · intro n hn
    have := hdrop m (by simp) n hn
    simp only [decide_eq_true_eq]
    omega
  · intro n hn
    rw [hfront, List.mem_append, List.mem_singleton] at hn
    have : n.offset ≤ m.offset := by
      rcases hn with hn | rfl
      · exact Int.le_of_lt ((List.pairwise_append.1 hbatch).2.2 n hn m (by simp))
      · exact Int.le_refl _
    simp only [decide_eq_true_eq]
    omega

/-- A batch of the next messages is what lies up to its last one. -/
theorem take_eq_within (h : IsIncreasing log) {size : Nat} {m : Message}
    (hm : ((upFrom log a).take size).getLast? = some m) :
    (upFrom log a).take size = within log a (m.offset + 1) := by
  have hle : a ≤ m.offset :=
    (mem_upFrom.1 (List.mem_of_mem_take (List.mem_of_getLast? hm))).2
  refine (List.append_left_inj (upFrom log (m.offset + 1))).1 ?_
  rw [append_upFrom_of_take h hm, within_append_upFrom h (by omega)]

/-- The first message of a batch has been read, and the others are left. -/
theorem within_of_within_cons (h : IsIncreasing log) {m : Message} {rest : List Message}
    (hab : a ≤ b) (hbc : b ≤ c) (hm : within log b c = m :: rest) :
    within log a (m.offset + 1) = within log a b ++ [m] ∧ within log (m.offset + 1) c = rest := by
  have hmem : m ∈ within log b c := by simp [hm]
  have hlt := (mem_within.1 hmem).2
  have hup : upFrom log b = m :: (rest ++ upFrom log c) := by
    rw [← within_append_upFrom h hbc, hm, List.cons_append]
  refine ⟨within_of_cons h hab hup, ?_⟩
  refine (List.append_left_inj (upFrom log c)).1 ?_
  rw [within_append_upFrom h (by omega), upFrom_of_cons h hup]

/-! ## Longer logs -/

namespace Message

/-- Where one can stand who reads a log from an offset on: there, or behind a message. -/
def IsPlace (log : List Message) (start a : Int) : Prop :=
  a = start ∨ ∃ m ∈ log, a = m.offset + 1

theorem IsPlace.append {start : Int} (ha : IsPlace log start a) (rest : List Message) :
    IsPlace (log ++ rest) start a := by
  rcases ha with rfl | ⟨m, hm, rfl⟩
  · exact .inl rfl
  · exact .inr ⟨m, List.mem_append_left _ hm, rfl⟩

end Message

/-- A message behind all others does not come in front of a place. -/
theorem within_append_singleton {start : Int} {m : Message} (hm : ∀ n ∈ log, n.offset < m.offset)
    (hsa : start ≤ a) (hb : IsPlace log start b) :
    within (log ++ [m]) a b = within log a b := by
  rw [within_append, List.append_right_eq_self]
  rcases hb with rfl | ⟨n, hn, rfl⟩
  · exact within_eq_nil hsa
  · have := hm n hn
    rw [List.eq_nil_iff_forall_not_mem]
    intro k hk
    obtain ⟨⟨hk, -⟩, hlt⟩ := mem_within.1 hk
    rw [List.mem_singleton] at hk
    subst hk
    omega

end LogRelay
