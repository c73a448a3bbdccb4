import LogRelay.Proofs.Entry.Payload
import LogRelay.Proofs.Frame.Entries
import LogRelay.Reading.Worker
/-!
# What becomes of a stored value

A value is passed over, or it survives with a frame of its own, or it cannot be dealt with at all.
The last happens to documents that are too much to read, and to records that are wanted but have no
frame.

## Main definitions

* `Verdict.frame?`, `Verdict.isFatal`: the frame of a value that survives, and whether a value
  cannot be dealt with.
* `Job.survivors`: the frames of those messages that survive.
* `Job.manageable`: the messages up to the first one that cannot be dealt with.
* `Job.tally`: how many messages raise a counter.
* `Job.Overwhelms`: what there is about a value that cannot be dealt with.
* `Message.letter`: a value to try things out on.

## Main statements

* `judge_isFatal_iff`: the values that cannot be dealt with are those that `Job.Overwhelms` says.
-/
namespace LogRelay

/-- The value of a message with a record of the container `c` and of the line `x`, at some time. -/
def Message.letter (timestamp : String) : Bytes :=
  Text.toBytes ("\x7b\"line\":\"x\",\"timestamp\":\"" ++ timestamp ++
    "\",\"containerId\":\"c\"\x7d" : String)

/-- The frame of a value that survives. -/
def Verdict.frame? : Verdict → Option Bytes
  | .wanted frame => some frame
  | _ => none

/-- Whether a value cannot be dealt with. -/
def Verdict.isFatal : Verdict → Bool
  | .fatal _ => true
  | _ => false

namespace Job

variable (j : Job)

/-- The frames of those messages that survive, in order. -/
def survivors (log : List Message) : List Bytes :=
  log.filterMap fun m => (j.judge m.value).frame?

/-- Whether a message cannot be dealt with. -/
def isFatal (m : Message) : Bool :=
  (j.judge m.value).isFatal

/-- The messages up to the first one that cannot be dealt with. -/
def manageable (log : List Message) : List Message :=
  log.takeWhile (!j.isFatal ·)

/-- How many messages raise a counter. -/
def tally (c : Counter) (log : List Message) : Nat :=
  log.countP fun m => (j.judge m.value).counter = some c

@[simp] theorem survivors_nil : j.survivors [] = [] := rfl

@[simp] theorem survivors_append (log rest : List Message) :
    j.survivors (log ++ rest) = j.survivors log ++ j.survivors rest := by
  simp [survivors]

theorem survivors_singleton (m : Message) :
    j.survivors [m] = (j.judge m.value).frame?.toList := by
  cases h : (j.judge m.value).frame? <;> simp [survivors, h]

@[simp] theorem tally_nil (c : Counter) : j.tally c [] = 0 := rfl

@[simp] theorem tally_append (c : Counter) (log rest : List Message) :
    j.tally c (log ++ rest) = j.tally c log + j.tally c rest := by
  simp [tally]

theorem tally_singleton (c : Counter) (m : Message) :
    j.tally c [m] = if (j.judge m.value).counter = some c then 1 else 0 := by
  simp [tally, List.countP_cons]

/-- A message that cannot be dealt with leaves no frame. -/
theorem survivors_of_isFatal {m : Message} (h : j.isFatal m) : j.survivors [m] = [] := by
  rw [survivors_singleton]
  cases hv : j.judge m.value <;> simp_all [isFatal, Verdict.isFatal, Verdict.frame?]

/-- A message that cannot be dealt with is not counted. -/
theorem tally_of_isFatal {m : Message} (h : j.isFatal m) (c : Counter) : j.tally c [m] = 0 := by
  rw [tally_singleton]
  cases hv : j.judge m.value <;> simp_all [isFatal, Verdict.isFatal, Verdict.counter]

/-- All messages can be dealt with. -/
theorem manageable_eq_self {log : List Message} (h : ∀ m ∈ log, j.isFatal m = false) :
    j.manageable log = log := by
  rw [manageable, List.takeWhile_eq_self_iff]
  intro m hm
  simp [h m hm]

/-- The messages in front of the first one that cannot be dealt with. -/
theorem manageable_append_cons {log rest : List Message} {m : Message}
    (h : ∀ n ∈ log, j.isFatal n = false) (hm : j.isFatal m) :
    j.manageable (log ++ m :: rest) = log := by
  rw [manageable, List.takeWhile_append_of_pos, List.takeWhile_cons_of_neg, List.append_nil]
  · simp [hm]
  · intro n hn
    simp [h n hn]

/-! ## What cannot be dealt with -/

/-- Whether a record is of the container and in the window that are asked for. -/
def Matches (r : Record Text) : Prop :=
  j.containerId.str? = some r.containerId ∧ j.request.inWindow r.time

/-- What there is about a value that cannot be dealt with: an integer of more digits than are read,
arrays and objects inside each other deeper than is read, or a record that is asked for and whose
source has no UTF-8 form, whose time does not fit in 64 bits, or whose message is longer than a
header can say. -/
def Overwhelms (value : Option Bytes) : Prop :=
  (∃ digits, Record.ofDocument j.nesting value = .error (.numeral digits)) ∨
    Record.ofDocument j.nesting value = .error .tooDeep ∨
    ∃ r, Record.ofDocument j.nesting value = .ok r ∧ j.Matches r ∧
      (r.source.hasSurrogate = true ∨ Entry.fitsTime r.time = false ∨
        ∃ payload, r.toEntry.payload = .ok payload ∧ Frame.lengthBound ≤ payload.length)

end Job

/-- The verdict on a value that holds a record. -/
theorem judge_of_ofDocument (j : Job) {value : Option Bytes} {r : Record Text}
    (h : Record.ofDocument j.nesting value = .ok r) :
    j.judge value =
      if j.containerId.str? ≠ some r.containerId then .foreign
      else if j.request.inWindow r.time then
        match Frame.encode r.toEntry with
        | .ok frame => .wanted frame
        | .error e => .fatal (.payload e)
      else .outside := by
  by_cases hc : j.containerId.str? ≠ some r.containerId
  · simp [Job.judge, h, hc]
  · by_cases hw : j.request.inWindow r.time
    · cases hf : Frame.encode r.toEntry <;> simp [Job.judge, h, hc, hw, hf]
    · simp [Job.judge, h, hc, hw]

/-- A record that is asked for and has a frame survives with it. -/
theorem judge_of_matches {j : Job} {value : Option Bytes} {r : Record Text} {frame : Bytes}
    (h : Record.ofDocument j.nesting value = .ok r) (hm : j.Matches r)
    (hf : Frame.encode r.toEntry = .ok frame) : j.judge value = .wanted frame := by
  rw [judge_of_ofDocument j h, if_neg (by simp [hm.1]), if_pos hm.2, hf]

/-- A value survives only with the frame of a record that is asked for. -/
theorem exists_encode_of_frame? {j : Job} {value : Option Bytes} {frame : Bytes}
    (h : (j.judge value).frame? = some frame) :
    ∃ r, Record.ofDocument j.nesting value = .ok r ∧ j.Matches r ∧ Frame.encode r.toEntry = .ok frame := by
  cases hr : Record.ofDocument j.nesting value with
  | error e =>
      rw [Job.judge, hr] at h
      cases hs : e.isSkippable <;> simp [hs, Verdict.frame?] at h
  | ok r =>
      rw [judge_of_ofDocument j hr] at h
      split_ifs at h with hc hw
      · cases h
      · cases hf : Frame.encode r.toEntry with
        | ok bs =>
            rw [hf] at h
            obtain rfl : bs = frame := Option.some.inj h
            exact ⟨r, rfl, ⟨not_not.1 hc, hw⟩, hf⟩
        | error e =>
            rw [hf] at h
            cases h
      · cases h

/-- A record of another container is passed over. -/
theorem judge_of_foreign {j : Job} {value : Option Bytes} {r : Record Text}
    (h : Record.ofDocument j.nesting value = .ok r) (hc : j.containerId.str? ≠ some r.containerId) :
    j.judge value = .foreign := by
  rw [judge_of_ofDocument j h, if_pos hc]

/-- The values that cannot be dealt with. -/
theorem judge_isFatal_iff (j : Job) (value : Option Bytes) :
    (j.judge value).isFatal = true ↔ j.Overwhelms value := by
  rw [Job.Overwhelms]
  cases h : Record.ofDocument j.nesting value with
  | error e =>
      rw [Job.judge, h]
      cases e <;> simp [RecordError.isSkippable, Verdict.isFatal]
  | ok r =>
      rw [judge_of_ofDocument j h]
      simp only [reduceCtorEq, exists_false, false_or, Except.ok.injEq, exists_eq_left']
      by_cases hc : j.containerId.str? = some r.containerId
      · by_cases hw : j.request.inWindow r.time
        · have hm : j.Matches r := ⟨hc, hw⟩
          simp only [hc, ne_eq, not_true_eq_false, if_false, hw, if_true, hm, true_and]
          have hpay := Entry.exists_payload_iff (e := r.toEntry)
          cases hf : Frame.encode r.toEntry with
          | ok frame =>
              obtain ⟨payload, hp, hlen, -⟩ := encode_eq_ok_iff.1 hf
              obtain ⟨hs, ht⟩ := hpay.1 ⟨payload, hp⟩
              have hs' : r.source.hasSurrogate = false := hs
              have ht' : Entry.fitsTime r.time = true := ht
              simp only [Verdict.isFatal, Bool.false_eq_true, hs', ht', hp, Except.ok.injEq,
                false_or, false_iff, not_exists, reduceCtorEq]
              rintro q ⟨rfl, hq⟩
              omega
          | error e =>
              simp only [Verdict.isFatal, true_iff]
              by_contra hno
              simp only [not_or, Bool.not_eq_true, Bool.not_eq_false, not_exists, not_and,
                Nat.not_le] at hno
              obtain ⟨hs, ht, hlen⟩ := hno
              obtain ⟨payload, hp⟩ := hpay.2 ⟨hs, ht⟩
              rw [encode_eq_ok_iff.2 ⟨payload, hp, hlen payload hp, rfl⟩] at hf
              cases hf
        · have hm : ¬ j.Matches r := fun h => hw h.2
          simp [hc, hw, hm, Verdict.isFatal]
      · have hm : ¬ j.Matches r := fun h => hc h.1
        simp [hc, hm, Verdict.isFatal]

end LogRelay
