import LogRelay.Proofs.Reading.Verdict
import Mathlib.Data.List.Forall2
/-!
# What is asked of a reader

What a reader should hand out and count for some messages, in terms of the records that they hold:
the frames of those records that are asked for, the number of records of other containers, and the
number of messages that hold no record.  If none of the messages is one that cannot be dealt with,
this is what the verdicts on them come to; if one is, it is not what becomes of the messages in front
of it.

## Main definitions

* `Job.wanted`: the records that are asked for.
* `Job.foreign`, `Message.undecodable`: how many messages hold a record of another container, or none.

## Main statements

* `forall₂_survivors`, `tally_dropped`, `tally_decodeErrors`: what the verdicts come to.
* `not_demand_of_isFatal`: a message that cannot be dealt with spoils it.
-/
namespace LogRelay

/-- How many messages hold no record. -/
def Message.undecodable (nesting : Nat) (log : List Message) : Nat :=
  log.countP fun m => (Record.ofDocument nesting m.value).toOption.isNone

open Message

namespace Job

variable (j : Job)

instance (r : Record Text) : Decidable (j.Matches r) :=
  inferInstanceAs (Decidable (_ ∧ _))

/-- The record of a value, if it is asked for. -/
def wanted? (value : Option Bytes) : Option (Record Text) :=
  (Record.ofDocument j.nesting value).toOption.filter (j.Matches ·)

/-- The records that are asked for among those of some messages, in order. -/
def wanted (log : List Message) : List (Record Text) :=
  log.filterMap (j.wanted? ·.value)

/-- Whether a value holds a record of another container. -/
def isForeign (value : Option Bytes) : Bool :=
  (Record.ofDocument j.nesting value).toOption.any fun r => j.containerId.str? ≠ some r.containerId

/-- How many messages hold a record of another container. -/
def foreign (log : List Message) : Nat :=
  log.countP (j.isForeign ·.value)

variable {j} {value : Option Bytes} {log : List Message} {m : Message}

theorem wanted?_eq_some {r : Record Text} :
    j.wanted? value = some r ↔ Record.ofDocument j.nesting value = .ok r ∧ j.Matches r := by
  rw [wanted?, Option.filter_eq_some_iff, decide_eq_true_eq]
  cases Record.ofDocument j.nesting value <;> simp [Except.toOption]

/-! ## The verdict on one value -/

/-- A value is counted as one of another container just if it is. -/
theorem counter_eq_dropped_iff :
    (j.judge value).counter = some .dropped ↔ j.isForeign value = true := by
  rw [isForeign]
  cases h : Record.ofDocument j.nesting value with
  | error e =>
      rw [judge, h]
      cases hs : e.isSkippable <;> simp [hs, Verdict.counter, Except.toOption]
  | ok r =>
      rw [judge_of_ofDocument j h]
      by_cases hc : j.containerId.str? = some r.containerId
      · by_cases hw : j.request.inWindow r.time
        · cases hf : Frame.encode r.toEntry <;>
            simp [hc, hw, Verdict.counter, Except.toOption]
        · simp [hc, hw, Verdict.counter, Except.toOption]
      · simp [hc, Verdict.counter, Except.toOption]

/-- A value that is counted as one without a record holds none. -/
theorem isNone_of_counter (h : (j.judge value).counter = some .decodeErrors) :
    (Record.ofDocument j.nesting value).toOption.isNone = true := by
  cases ho : Record.ofDocument j.nesting value with
  | error e => rfl
  | ok r =>
      rw [judge_of_ofDocument j ho] at h
      split_ifs at h
      · cases h
      · cases hf : Frame.encode r.toEntry <;> rw [hf] at h <;> cases h
      · cases h

/-- A value that holds no record is counted as such unless it cannot be dealt with. -/
theorem counter_of_isNone (hv : (j.judge value).isFatal = false)
    (h : (Record.ofDocument j.nesting value).toOption.isNone = true) :
    (j.judge value).counter = some .decodeErrors := by
  cases ho : Record.ofDocument j.nesting value with
  | error e =>
      rw [judge, ho] at hv ⊢
      cases hs : e.isSkippable <;> simp_all [Verdict.isFatal, Verdict.counter]
  | ok r => simp [ho, Except.toOption] at h

/-- The frame of a record that is asked for. -/
theorem frame?_of_wanted? {r : Record Text} (h : j.wanted? value = some r) :
    (j.judge value).frame? = (Frame.encode r.toEntry).toOption := by
  obtain ⟨ho, hc, hw⟩ := wanted?_eq_some.1 h
  rw [judge_of_ofDocument j ho, if_neg (not_not.2 hc), if_pos hw]
  cases Frame.encode r.toEntry <;> rfl

/-- What is not asked for has no frame. -/
theorem frame?_of_wanted?_none (h : j.wanted? value = none) : (j.judge value).frame? = none := by
  cases ho : Record.ofDocument j.nesting value with
  | error e =>
      rw [judge, ho]
      cases hs : e.isSkippable <;> simp [hs, Verdict.frame?]
  | ok r =>
      rw [judge_of_ofDocument j ho]
      split_ifs with hc hw
      · rfl
      · rw [not_not] at hc
        rw [wanted?_eq_some.2 ⟨ho, hc, hw⟩] at h
        cases h
      · rfl

/-- A record that is asked for has a frame unless it cannot be dealt with. -/
theorem encode_isOk_of_wanted? {r : Record Text} (hv : (j.judge value).isFatal = false)
    (h : j.wanted? value = some r) : ∃ frame, Frame.encode r.toEntry = .ok frame := by
  obtain ⟨ho, hc, hw⟩ := wanted?_eq_some.1 h
  rw [judge_of_ofDocument j ho, if_neg (not_not.2 hc), if_pos hw] at hv
  cases hf : Frame.encode r.toEntry with
  | ok frame => exact ⟨frame, rfl⟩
  | error e => simp [hf, Verdict.isFatal] at hv

/-- A value that cannot be dealt with holds no record, or one that is asked for and has no frame. -/
theorem isNone_or_wanted?_of_isFatal (hv : (j.judge value).isFatal = true) :
    (Record.ofDocument j.nesting value).toOption.isNone = true ∨
      ∃ r e, j.wanted? value = some r ∧ Frame.encode r.toEntry = .error e := by
  cases ho : Record.ofDocument j.nesting value with
  | error e => exact .inl rfl
  | ok r =>
      right
      rw [judge_of_ofDocument j ho] at hv
      split_ifs at hv with hc hw
      · cases hv
      · rw [not_not] at hc
        cases hf : Frame.encode r.toEntry with
        | ok frame => simp [hf, Verdict.isFatal] at hv
        | error e => exact ⟨r, e, wanted?_eq_some.2 ⟨ho, hc, hw⟩, hf⟩
      · cases hv

/-! ## The verdicts on several messages -/

/-- As many messages are counted as those of another container as there are. -/
theorem tally_dropped (log : List Message) : j.tally .dropped log = j.foreign log := by
  rw [tally, foreign]
  apply List.countP_congr
  intro m _
  simpa using counter_eq_dropped_iff

/-- No more messages are counted as those without a record than there are. -/
theorem tally_decodeErrors_le (log : List Message) :
    j.tally .decodeErrors log ≤ undecodable j.nesting log := by
  rw [tally, undecodable]
  apply List.countP_mono_left
  intro m _ h
  exact isNone_of_counter (by simpa using h)

/-- If all messages can be dealt with, as many are counted as those without a record as there are. -/
theorem tally_decodeErrors (hv : ∀ m ∈ log, j.isFatal m = false) :
    j.tally .decodeErrors log = undecodable j.nesting log := by
  rw [tally, undecodable]
  apply List.countP_congr
  intro m hm
  simp only [decide_eq_true_eq]
  exact ⟨isNone_of_counter, counter_of_isNone (hv m hm)⟩

/-- If all messages can be dealt with, the survivors are the frames of the records that are asked
for. -/
theorem forall₂_survivors (hv : ∀ m ∈ log, j.isFatal m = false) :
    List.Forall₂ (fun r frame => Frame.encode r.toEntry = .ok frame) (j.wanted log)
      (j.survivors log) := by
  induction log with
  | nil => exact .nil
  | cons m log ih =>
      have htail := ih fun n hn => hv n (List.mem_cons_of_mem m hn)
      rw [wanted, survivors, List.filterMap_cons, List.filterMap_cons]
      cases hw : j.wanted? m.value with
      | none =>
          rw [frame?_of_wanted?_none hw]
          exact htail
      | some r =>
          obtain ⟨frame, hf⟩ := encode_isOk_of_wanted? (hv m List.mem_cons_self) hw
          rw [frame?_of_wanted? hw, hf]
          exact .cons hf htail

/-- A log with a message that cannot be dealt with: the messages in front of the first such one, that
one, and those behind it. -/
theorem exists_manageable_append (hm : m ∈ log) (hv : j.isFatal m = true) :
    ∃ n rest, log = j.manageable log ++ n :: rest ∧ j.isFatal n = true := by
  have hsplit := @List.takeWhile_append_dropWhile _ (!j.isFatal ·) log
  cases hd : log.dropWhile (!j.isFatal ·) with
  | nil =>
      have hall := List.dropWhile_eq_nil_iff.1 hd m hm
      simp [hv] at hall
  | cons n rest =>
      refine ⟨n, rest, by rw [manageable, ← hd, hsplit], ?_⟩
      have hhead := List.head?_dropWhile_not (!j.isFatal ·) log
      rw [hd] at hhead
      simpa using hhead

/-- The messages in front of the first one that cannot be dealt with are some of those of the log. -/
theorem undecodable_manageable_le (log : List Message) :
    undecodable j.nesting (j.manageable log) ≤ undecodable j.nesting log :=
  (List.takeWhile_sublist _).countP_le

/-- A message that cannot be dealt with spoils it: what is in front of it has counted too few messages
without a record, or a record that is asked for has no frame. -/
theorem not_demand_of_isFatal (hm : m ∈ log) (hv : j.isFatal m = true) :
    j.tally .decodeErrors (j.manageable log) < undecodable j.nesting log ∨
      ∀ frames, ¬ List.Forall₂ (fun r frame => Frame.encode r.toEntry = .ok frame) (j.wanted log)
        frames := by
  obtain ⟨n, rest, hlog, hn⟩ := exists_manageable_append hm hv
  rcases isNone_or_wanted?_of_isFatal hn with hnone | ⟨r, e, hw, hf⟩
  · left
    have hle := tally_decodeErrors_le (j := j) (j.manageable log)
    have hsum : undecodable j.nesting log =
        undecodable j.nesting (j.manageable log) + (undecodable j.nesting rest + 1) := by
      conv_lhs => rw [hlog]
      simp [undecodable, List.countP_append, hnone]
    omega
  · right
    intro frames hall
    have hmem : r ∈ j.wanted log := by
      rw [hlog]
      exact List.mem_filterMap.2 ⟨n, by simp, hw⟩
    obtain ⟨hframe, -⟩ := (List.forall₂_and_left _ _).1 (hall.imp fun r frame hok =>
      (⟨⟨frame, hok⟩, hok⟩ : (∃ frame, Frame.encode r.toEntry = .ok frame) ∧ _))
    obtain ⟨frame, hok⟩ := hframe r hmem
    rw [hf] at hok
    cases hok

end Job

end LogRelay
