import LogRelay.Proofs.Reading.Extent
import Mathlib.Data.List.Forall2
/-!
# Values that are stored

Values that come to a partition one after the other stand there at consecutive offsets, in the order in
which they came, and all of them are to be read by a reader that asks for all there is.

## Main definitions

* `numbered`: values at consecutive offsets.
* `Partition.store`, `Cluster.store`: a partition, and a topic, after values have been stored in it.

## Main statements

* `messages_store`, `partitions_store`: what is stored, and where.
* `range_store`: what is to be read of it.
-/
namespace LogRelay

open Message

/-- Values at consecutive offsets. -/
def numbered (first : Int) : List Bytes → List Message
  | [] => []
  | value :: values => ⟨first, some value⟩ :: numbered (first + 1) values

/-- The partition after values have been stored in it. -/
def Partition.store (p : Partition) (values : List Bytes) : Partition :=
  values.foldl (fun p value => p.append none (some value)) p

/-- The values that come to a partition, of those that are stored in a topic. -/
def valuesAt (placed : List (Int × Bytes)) (id : Int) : List Bytes :=
  (placed.filter (·.1 = id)).map Prod.snd

/-- The cluster after values have been stored in a topic, each in the partition of a given number. -/
def Cluster.store (c : Cluster) (topic : Json) (placed : List (Int × Bytes)) : Cluster :=
  placed.foldl (fun c x => c.update topic x.1 (·.append none (some x.2))) c

/-! ## Consecutive offsets -/

/-- The offsets run from the first one to the number of values after it. -/
theorem offset_of_mem_numbered {first : Int} {values : List Bytes} {m : Message}
    (h : m ∈ numbered first values) : first ≤ m.offset ∧ m.offset < first + values.length := by
  induction values generalizing first with
  | nil => cases h
  | cons value values ih =>
      rw [List.length_cons]
      rcases List.mem_cons.1 h with rfl | h
      · simp only
        omega
      · have := ih h
        omega

theorem isIncreasing_numbered (first : Int) (values : List Bytes) :
    IsIncreasing (numbered first values) := by
  induction values generalizing first with
  | nil => exact List.Pairwise.nil
  | cons value values ih =>
      refine List.Pairwise.cons ?_ (ih (first + 1))
      intro m hm
      have := (offset_of_mem_numbered hm).1
      simp only
      omega

/-- There is a message just below the end. -/
theorem exists_last_numbered (first : Int) {values : List Bytes} (h : values ≠ []) :
    ∃ m ∈ numbered first values, m.offset = first + values.length - 1 := by
  induction values generalizing first with
  | nil => exact absurd rfl h
  | cons value values ih =>
      rw [numbered, List.length_cons]
      cases values with
      | nil => exact ⟨_, List.mem_cons_self, by simp⟩
      | cons next values =>
          obtain ⟨m, hm, hoffset⟩ := ih (first + 1) (List.cons_ne_nil _ _)
          exact ⟨m, List.mem_cons_of_mem _ hm, by omega⟩

/-! ## Partitions -/

namespace Partition

variable (p : Partition)

@[simp] theorem id_append (offset : Option Int) (value : Option Bytes) :
    (p.append offset value).id = p.id := rfl

theorem nextOffset_append (value : Option Bytes) :
    (p.append none value).nextOffset = p.nextOffset + 1 := by
  simp [nextOffset, append]

/-- A partition after values have been stored in it differs in its messages only. -/
theorem store_eq (values : List Bytes) :
    p.store values = { p with messages := p.messages ++ numbered p.nextOffset values } := by
  induction values generalizing p with
  | nil => simp [store, numbered]
  | cons value values ih =>
      have hstep : p.store (value :: values) = (p.append none (some value)).store values := rfl
      rw [hstep, ih, nextOffset_append, numbered]
      simp [append]

theorem nextOffset_store (values : List Bytes) :
    (p.store values).nextOffset = p.nextOffset + values.length := by
  induction values generalizing p with
  | nil => simp [store]
  | cons value values ih =>
      have hstep : p.store (value :: values) = (p.append none (some value)).store values := rfl
      rw [hstep, ih, nextOffset_append, List.length_cons]
      omega

@[simp] theorem id_store (values : List Bytes) : (p.store values).id = p.id := by
  rw [store_eq]

variable {p} {tail : Int}

/-- Where the reading of a partition starts and stops that held nothing before values were stored in
it. -/
theorem cursor_store (hm : p.messages = []) (hh : p.high = none) (ht : tail ≤ 0)
    (values : List Bytes) : Reader.cursor tail (p.store values) =
      ⟨p.id, p.nextOffset, p.nextOffset + values.length⟩ := by
  have hend : (p.store values).endOffset = p.nextOffset + values.length := by
    rw [endOffset, nextOffset_store, store_eq, hh, Option.getD_none]
  have hstart : max p.oldest 0 = p.nextOffset := by
    rw [nextOffset, hm]
    rfl
  rw [Reader.cursor, hend, startOffset, id_store, if_pos ht, store_eq, hstart]

/-- All of what has been stored is to be read. -/
theorem range_store (hm : p.messages = []) (hh : p.high = none) (ht : tail ≤ 0)
    (values : List Bytes) : (Reader.cursor tail (p.store values)).range (p.store values).messages =
      numbered p.nextOffset values := by
  rw [cursor_store hm hh ht, store_eq, hm, List.nil_append, Cursor.range, within, upFrom,
    List.filter_filter, List.filter_eq_self]
  intro m hmem
  simpa using (offset_of_mem_numbered hmem).symm

/-- There is a message just below where reading stops. -/
theorem isMet_store (hm : p.messages = []) (hh : p.high = none) (ht : tail ≤ 0)
    (values : List Bytes) :
    (Reader.cursor tail (p.store values)).IsMet (p.store values).messages := by
  rw [cursor_store hm hh ht, store_eq, hm, List.nil_append, Cursor.IsMet]
  by_cases hv : values = []
  · left
    simp [hv]
  · right
    exact exists_last_numbered _ hv

theorem isIncreasing_store (hm : p.messages = []) (values : List Bytes) :
    IsIncreasing (p.store values).messages := by
  rw [store_eq, hm, List.nil_append]
  exact isIncreasing_numbered _ _

end Partition

/-! ## Topics -/

namespace Cluster

variable {c : Cluster} {topic : Json}

/-- The partitions of a topic after values have been stored in it. -/
theorem partitions_store (h : c.partitions topic ≠ []) (placed : List (Int × Bytes)) :
    (c.store topic placed).partitions topic =
      (c.partitions topic).map fun p => p.store (valuesAt placed p.id) := by
  induction placed generalizing c with
  | nil => simp [store, valuesAt, Partition.store]
  | cons x placed ih =>
      have hstep : c.store topic (x :: placed) =
          (c.update topic x.1 (·.append none (some x.2))).store topic placed := rfl
      have hparts := partitions_update h x.1 (·.append none (some x.2))
      rw [hstep, ih (by rw [hparts]; simpa using h), hparts, List.map_map]
      apply List.map_congr_left
      intro p _
      simp only [Function.comp_apply]
      by_cases hid : p.id = x.1
      · simp [hid, valuesAt, Partition.store]
      · simp [hid, Ne.symm hid, valuesAt]

/-- Storing values disturbs nothing. -/
theorem disturbances_store (c : Cluster) (topic : Json) (placed : List (Int × Bytes)) :
    (c.store topic placed).disturbances = c.disturbances := by
  induction placed generalizing c with
  | nil => rfl
  | cons x placed ih => exact ih (c.update topic x.1 (·.append none (some x.2)))

end Cluster

end LogRelay
