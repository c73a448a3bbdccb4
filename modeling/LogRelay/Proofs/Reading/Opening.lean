import LogRelay.Proofs.Reading.Consumers
/-!
# Opening a reader is all or nothing

A reader is opened in steps: a consumer is created, it is asked which partitions the topic has, where
they start and where they end, and it is closed; where reading starts is computed from the two tables,
and then one worker after another is started.  Each of the calls may fail.  None of them comes after a
worker was started, so when the opening fails no worker goes on, and the consumer is closed on every
way out.

## Main definitions

* `Opening`, `Opening.step`, `Opening.run`: how far an opening has come, one step, several of them.
* `Opening.Fits`: what holds where it stands.
* `Cluster.outageAt`: what fails in a cluster with its disturbances.

## Main statements

* `fits_of_step`, `fits_run`: each step and every run keeps that.
* `opened_eq_run`: with the disturbances of the cluster the steps come to `Reader.opened`.
* `opening_outcome`: how an opening can end, and what holds of the reader after that.
-/
namespace LogRelay

/-! ## What the calls answer -/

namespace Cluster

/-- The numbers of the partitions of a topic. -/
def ids (c : Cluster) (topic : Json) : List Int :=
  (c.partitions topic).map (·.id)

/-- A table of what is said of each of some partitions. -/
def bounds (c : Cluster) (topic : Json) (said : Partition → Int) (ids : List Int) :
    Members Int Int :=
  ids.filterMap fun id => (c.partition? topic id).map fun p => (id, said p)

end Cluster

/-- The cursor of a partition, by the tables of where partitions start and where they end. -/
def Cursor.ofBounds? (tail : Int) (oldest high : Members Int Int) (id : Int) : Option Cursor :=
  match (startOffsets tail oldest high).get? id, high.get? id with
  | some start, some stop => some ⟨id, start, stop⟩
  | _, _ => none

/-! ## The steps -/

/-- Where an opening stands. -/
inductive Opening.Place where
  | creating
  /-- before it asks which partitions there are -/
  | asking
  /-- before it asks where they start -/
  | finding (ids : List Int)
  /-- before it asks where they end -/
  | measuring (ids : List Int) (oldest : Members Int Int)
  /-- before it closes the consumer -/
  | closing (result : Except Failure (List Cursor))
  | starting (cursors : List Cursor)
  | returned
  | raised (f : Failure)

/-- An opening.  `answered` says that the consumer has said which partitions there are, and
`closeFailure` how closing it has failed. -/
structure Opening where
  place : Opening.Place := .creating
  planner : Option Consumer := none
  answered : Bool := false
  closeFailure : Option Outage := none
  started : List Worker := []

namespace Opening

/-- The reader of the workers that were started. -/
def reader (s : Opening) (topic : Json) (job : Job) (capacity : Int) : Reader :=
  { topic, job, capacity, workers := s.started }

/-- What the opening has come to. -/
def outcome? (s : Opening) (topic : Json) (job : Job) (capacity : Int) :
    Option (Except Failure Reader) :=
  match s.place with
  | .returned => some (.ok (s.reader topic job capacity))
  | .raised f => some (.error f)
  | _ => none

/-- The opening has a question to its consumer. -/
def IsAsking (s : Opening) : Prop :=
  match s.place with
  | .asking | .finding _ | .measuring .. => True
  | _ => False

variable (c : Cluster) (topic : Json) (tail : Int)

/-- What comes after the question which partitions there are. -/
def answer (s : Opening) : Opening :=
  if topic.isKey then
    { s with
      answered := true
      place := if c.ids topic = [] then .closing (.error (.topicNotFound topic))
        else .finding ((c.ids topic).mergeSort (· ≤ ·)) }
  else { s with place := .closing (.error (.shape (.noKey topic.typeName))) }

/-- The next step, which may fail. -/
def step (s : Opening) (outage : Option Outage) : Option Opening :=
  match s.place with
  | .creating => some (match outage with
    | some o => { s with place := .raised (.outage o) }
    | none => { s with place := .asking, planner := some {} })
  | .asking => some (match outage with
    | some o => { s with place := .closing (.error (.outage o)) }
    | none => s.answer c topic)
  | .finding ids => some (match outage with
    | some o => { s with place := .closing (.error (.outage o)) }
    | none => { s with place := .measuring ids (c.bounds topic (·.oldest) ids) })
  | .measuring ids oldest => some (match outage with
    | some o => { s with place := .closing (.error (.outage o)) }
    | none =>
      let high := c.bounds topic (·.endOffset) ids
      let cursors := ids.filterMap (Cursor.ofBounds? tail oldest high)
      { s with place := .closing (.ok cursors) })
  | .closing result => some { s with
      planner := s.planner.map (·.note .close)
      closeFailure := outage
      place := match outage, result with
        | some o, _ => .raised (.outage o)
        | none, .error f => .raised f
        | none, .ok cursors => .starting cursors }
  | .starting [] => some { s with place := .returned }
  | .starting (cursor :: cursors) =>
    some { s with started := s.started ++ [.ofCursor cursor], place := .starting cursors }
  | .returned | .raised _ => none

/-- The opening after several steps. -/
def run (s : Opening) (outages : List (Option Outage)) : Option Opening :=
  outages.foldlM (step c topic tail) s

/-! ## What a step leads to -/

/-- What a step leads to. -/
inductive Goes (s : Opening) : Opening → Prop where
  | failCreate {o : Outage} (hp : s.place = .creating) :
      Goes s { s with place := .raised (.outage o) }
  | create (hp : s.place = .creating) : Goes s { s with place := .asking, planner := some {} }
  | fail {o : Outage} (hp : s.IsAsking) :
      Goes s { s with place := .closing (.error (.outage o)) }
  | noKey (hp : s.place = .asking) :
      Goes s { s with place := .closing (.error (.shape (.noKey topic.typeName))) }
  | notFound (hp : s.place = .asking) (hnil : c.ids topic = []) :
      Goes s { s with
        answered := true, place := .closing (.error (.topicNotFound topic)) }
  | found (hp : s.place = .asking) (hne : c.ids topic ≠ []) :
      Goes s { s with
        answered := true, place := .finding ((c.ids topic).mergeSort (· ≤ ·)) }
  | find {ids : List Int} (hp : s.place = .finding ids) :
      Goes s { s with place := .measuring ids (c.bounds topic (·.oldest) ids) }
  | measure {ids : List Int} {oldest : Members Int Int} (hp : s.place = .measuring ids oldest) :
      Goes s { s with place := .closing (.ok (ids.filterMap
        (Cursor.ofBounds? tail oldest (c.bounds topic (·.endOffset) ids)))) }
  | failClose {result : Except Failure (List Cursor)} {o : Outage}
      (hp : s.place = .closing result) :
      Goes s { s with
        planner := s.planner.map (·.note .close), closeFailure := some o
        place := .raised (.outage o) }
  | raise {f : Failure} (hp : s.place = .closing (.error f)) :
      Goes s { s with
        planner := s.planner.map (·.note .close), closeFailure := none, place := .raised f }
  | close {cursors : List Cursor} (hp : s.place = .closing (.ok cursors)) :
      Goes s { s with
        planner := s.planner.map (·.note .close), closeFailure := none
        place := .starting cursors }
  | start {cursor : Cursor} {cursors : List Cursor} (hp : s.place = .starting (cursor :: cursors)) :
      Goes s { s with started := s.started ++ [.ofCursor cursor], place := .starting cursors }
  | finish (hp : s.place = .starting []) : Goes s { s with place := .returned }

variable {c : Cluster} {topic : Json} {tail : Int} {s s' : Opening} {outage : Option Outage}

/-- A step leads to what the rules say. -/
theorem goes_of_step (h : s.step c topic tail outage = some s') : s.Goes c topic tail s' := by
  unfold step at h
  split at h <;> rename_i hp
  · cases outage <;> cases h
    · exact .create hp
    · exact .failCreate hp
  · cases outage with
    | some o => cases h; exact .fail (by simp [IsAsking, hp])
    | none =>
        rw [← Option.some.inj h, answer]
        split_ifs with hkey hnil
        · exact .notFound hp hnil
        · exact .found hp hnil
        · exact .noKey hp
  · cases outage <;> cases h
    · exact .find hp
    · exact .fail (by simp [IsAsking, hp])
  · cases outage <;> cases h
    · exact .measure hp
    · exact .fail (by simp [IsAsking, hp])
  · rename_i result
    cases outage with
    | some o => cases h; exact .failClose hp
    | none =>
        cases result <;> cases h
        · exact .raise hp
        · exact .close hp
  · cases h; exact .finish hp
  · cases h; exact .start hp
  · cases h
  · cases h

end Opening

/-! ## The cursors -/

theorem get?_startOffsets (tail : Int) (oldest high : Members Int Int) (id : Int) :
    (startOffsets tail oldest high).get? id =
      (oldest.get? id).map fun first => startOffset tail first (high.get? id) := by
  simp only [startOffsets, Members.get?, Members.getBy?, List.find?_map, Option.map_map,
    Function.comp_def]
  cases hf : oldest.find? fun entry => decide (entry.1 = id) with
  | none => simp
  | some entry =>
      obtain rfl : entry.1 = id := by simpa using List.find?_some hf
      simp

namespace Cluster

variable {c : Cluster} {topic : Json}

theorem get?_bounds {ids : List Int} {id : Int} {p : Partition} (said : Partition → Int)
    (hp : c.partition? topic id = some p) (hid : id ∈ ids) :
    (c.bounds topic said ids).get? id = some (said p) := by
  induction ids with
  | nil => cases hid
  | cons k ids ih =>
      rw [bounds, List.filterMap_cons]
      by_cases hk : k = id
      · subst hk
        simp [hp, Members.get?, Members.getBy?]
      · have hrest := ih (List.mem_of_ne_of_mem (Ne.symm hk) hid)
        cases c.partition? topic k with
        | none => exact hrest
        | some q => simpa [Members.get?, Members.getBy?, hk, bounds] using hrest

/-- The cursors of the partitions of a topic, in ascending order. -/
def cursors (c : Cluster) (topic : Json) (tail : Int) : List Cursor :=
  ((c.partitions topic).mergeSort fun p q => p.id ≤ q.id).map (Reader.cursor tail)

/-- The tables of where the partitions start and where they end lead to their cursors. -/
theorem filterMap_ofBounds (hids : (c.ids topic).Nodup) (tail : Int) :
    let ids := (c.ids topic).mergeSort (· ≤ ·)
    ids.filterMap (Cursor.ofBounds? tail (c.bounds topic (·.oldest) ids)
      (c.bounds topic (·.endOffset) ids)) = c.cursors topic tail := by
  intro ids
  have hsort : ids = ((c.partitions topic).mergeSort fun p q => p.id ≤ q.id).map (·.id) :=
    (List.map_mergeSort (f := Partition.id) fun _ _ _ _ => rfl).symm
  have hentry : ∀ p ∈ (c.partitions topic).mergeSort (fun p q => p.id ≤ q.id),
      Cursor.ofBounds? tail (c.bounds topic (·.oldest) ids) (c.bounds topic (·.endOffset) ids) p.id =
        some (Reader.cursor tail p) := by
    intro p hp
    have hfound := partition?_of_mem hids ((List.mergeSort_perm _ _).mem_iff.1 hp)
    have hid : p.id ∈ ids := hsort ▸ List.mem_map_of_mem hp
    rw [Cursor.ofBounds?, get?_startOffsets, get?_bounds _ hfound hid, get?_bounds _ hfound hid]
    rfl
  calc ids.filterMap _
    _ = ((c.partitions topic).mergeSort fun p q => p.id ≤ q.id).filterMap
          (Cursor.ofBounds? tail (c.bounds topic (·.oldest) ids)
            (c.bounds topic (·.endOffset) ids) ∘ Partition.id) := by
        rw [← List.filterMap_map, ← hsort]
    _ = c.cursors topic tail := by
        rw [cursors, ← List.filterMap_eq_map]
        exact List.filterMap_congr hentry

end Cluster

namespace Opening

variable {c : Cluster} {topic : Json} {tail : Int} {s s' : Opening}

/-! ## What holds where an opening stands -/

/-- The consumer has been created and not closed, and no worker has been started. -/
structure IsPlanning (s : Opening) : Prop where
  planner : s.planner = some {}
  started : s.started = []

/-- The consumer has said that there are partitions. -/
structure HasFound (c : Cluster) (topic : Json) (s : Opening) : Prop where
  answered : s.answered = true
  ne_nil : c.ids topic ≠ []

/-- A failure says that the topic was not found just if the consumer has said that there are no
partitions. -/
def Blames (c : Cluster) (topic : Json) (s : Opening) (f : Failure) : Prop :=
  f = .topicNotFound topic ↔ s.answered = true ∧ c.ids topic = []

/-- What holds where the opening stands. -/
def Fits (c : Cluster) (topic : Json) (tail : Int) (s : Opening) : Prop :=
  match s.place with
  | .creating => s.planner = none ∧ s.answered = false ∧ s.started = []
  | .asking => s.IsPlanning ∧ s.answered = false
  | .finding ids => s.IsPlanning ∧ s.HasFound c topic ∧ ids = (c.ids topic).mergeSort (· ≤ ·)
  | .measuring ids oldest =>
    s.IsPlanning ∧ s.HasFound c topic ∧ ids = (c.ids topic).mergeSort (· ≤ ·) ∧
      oldest = c.bounds topic (·.oldest) ids
  | .closing (.error f) => s.IsPlanning ∧ s.Blames c topic f
  | .closing (.ok cursors) =>
    s.IsPlanning ∧ s.HasFound c topic ∧ cursors = c.cursors topic tail
  | .starting cursors =>
    s.planner = some (({} : Consumer).note .close) ∧ s.HasFound c topic ∧
      s.started ++ cursors.map Worker.ofCursor = (c.cursors topic tail).map Worker.ofCursor
  | .returned =>
    s.planner = some (({} : Consumer).note .close) ∧ s.HasFound c topic ∧
      s.started = (c.cursors topic tail).map Worker.ofCursor
  | .raised f =>
    (∀ k, s.planner = some k → k.calls = [.close]) ∧ s.started = [] ∧
      (s.closeFailure = none → s.Blames c topic f)

theorem blames_outage {o : Outage} (h : s.answered = true → c.ids topic ≠ []) :
    s.Blames c topic (.outage o) :=
  iff_of_false (by simp) fun hnil => h hnil.1 hnil.2

/-- A question that fails leads to the closing of the consumer. -/
theorem fits_unanswered (hs : s.Fits c topic tail) {o : Outage} (h : s.IsAsking) :
    Fits c topic tail { s with place := .closing (.error (.outage o)) } := by
  have hfacts : s.IsPlanning ∧ (s.answered = true → c.ids topic ≠ []) := by
    cases hp : s.place <;> simp only [Fits, IsAsking, hp] at hs h
    case asking => exact ⟨hs.1, by simp [hs.2]⟩
    all_goals exact ⟨hs.1, fun _ => hs.2.1.ne_nil⟩
  exact ⟨⟨hfacts.1.planner, hfacts.1.started⟩, blames_outage hfacts.2⟩

/-- What holds is kept by a step. -/
theorem fits_of_goes (hids : (c.ids topic).Nodup) (hs : s.Fits c topic tail)
    (h : s.Goes c topic tail s') : s'.Fits c topic tail := by
  cases h with
  | failCreate hp =>
      simp only [Fits, hp] at hs
      obtain ⟨hplanner, hanswered, hstarted⟩ := hs
      exact ⟨by simp [hplanner], hstarted, fun _ => blames_outage (by simp [hanswered])⟩
  | create hp =>
      simp only [Fits, hp] at hs
      exact ⟨⟨rfl, hs.2.2⟩, hs.2.1⟩
  | fail hp => exact fits_unanswered hs hp
  | noKey hp =>
      simp only [Fits, hp] at hs
      exact ⟨⟨hs.1.planner, hs.1.started⟩, iff_of_false (by simp) (by simp [hs.2])⟩
  | notFound hp hnil =>
      simp only [Fits, hp] at hs
      exact ⟨⟨hs.1.planner, hs.1.started⟩, iff_of_true rfl ⟨rfl, hnil⟩⟩
  | found hp hne =>
      simp only [Fits, hp] at hs
      exact ⟨⟨hs.1.planner, hs.1.started⟩, ⟨rfl, hne⟩, rfl⟩
  | find hp =>
      simp only [Fits, hp] at hs
      obtain ⟨hplanning, hfound, hsorted⟩ := hs
      exact ⟨⟨hplanning.planner, hplanning.started⟩, ⟨hfound.answered, hfound.ne_nil⟩, hsorted, rfl⟩
  | measure hp =>
      simp only [Fits, hp] at hs
      obtain ⟨hplanning, hfound, rfl, rfl⟩ := hs
      exact ⟨⟨hplanning.planner, hplanning.started⟩, ⟨hfound.answered, hfound.ne_nil⟩,
        Cluster.filterMap_ofBounds hids tail⟩
  | @failClose result o hp =>
      have hplanning : s.IsPlanning := by
        cases result <;> simp only [Fits, hp] at hs <;> exact hs.1
      refine ⟨?_, hplanning.started, by simp⟩
      simp [hplanning.planner, Consumer.note]
  | raise hp =>
      simp only [Fits, hp] at hs
      refine ⟨?_, hs.1.started, fun _ => hs.2⟩
      simp [hs.1.planner, Consumer.note]
  | close hp =>
      simp only [Fits, hp] at hs
      obtain ⟨hplanning, hfound, rfl⟩ := hs
      refine ⟨by rw [hplanning.planner]; rfl, ⟨hfound.answered, hfound.ne_nil⟩, ?_⟩
      rw [hplanning.started]
      rfl
  | start hp =>
      simp only [Fits, hp] at hs
      obtain ⟨hplanner, hfound, hall⟩ := hs
      exact ⟨hplanner, ⟨hfound.answered, hfound.ne_nil⟩, by simpa using hall⟩
  | finish hp =>
      simp only [Fits, hp] at hs
      obtain ⟨hplanner, hfound, hall⟩ := hs
      exact ⟨hplanner, ⟨hfound.answered, hfound.ne_nil⟩, by simpa using hall⟩

theorem fits_run (hids : (c.ids topic).Nodup) {outages : List (Option Outage)}
    (h : run c topic tail {} outages = some s) : s.Fits c topic tail := by
  have hstart : Fits c topic tail {} := ⟨rfl, rfl, rfl⟩
  exact foldlM_induction (fun _ _ _ hs (_ : True) h => fits_of_goes hids hs (goes_of_step h))
    hstart (fun _ _ => trivial) h

/-! ## Every opening ends -/

/-- More steps than are left. -/
def left (c : Cluster) (topic : Json) (s : Opening) : Nat :=
  match s.place with
  | .creating => (c.ids topic).length + 6
  | .asking => (c.ids topic).length + 5
  | .finding ids => ids.length + 4
  | .measuring ids _ => ids.length + 3
  | .closing (.ok cursors) => cursors.length + 2
  | .closing (.error _) => 1
  | .starting cursors => cursors.length + 1
  | .returned | .raised _ => 0

theorem left_lt_of_goes (h : s.Goes c topic tail s') : s'.left c topic < s.left c topic := by
  cases h with
  | fail hp => cases hq : s.place <;> simp [IsAsking, left, hq] at hp ⊢
  | failClose hp => rename_i result o; cases result <;> simp [left, hp]
  | @measure ids oldest hp =>
      have hle := List.length_filterMap_le
        (Cursor.ofBounds? tail oldest (c.bounds topic (·.endOffset) ids)) ids
      simp only [left, hp]
      omega
  | failCreate hp | create hp | noKey hp | notFound hp | found hp | find hp | raise hp | close hp
  | start hp | finish hp => simp [left, hp]

theorem isOver_of_step {outage : Option Outage} (h : s.step c topic tail outage = none) :
    s.place = .returned ∨ ∃ f, s.place = .raised f := by
  cases hp : s.place with
  | returned => exact .inl rfl
  | raised f => exact .inr ⟨f, rfl⟩
  | starting cursors => cases cursors <;> simp [step, hp] at h
  | _ => simp [step, hp] at h

/-- An opening goes on whatever fails until it has returned or raised a failure. -/
theorem exists_run (faults : Nat → Option Outage) (s : Opening) :
    ∃ n s', run c topic tail s ((List.range n).map faults) = some s' ∧
      (s'.place = .returned ∨ ∃ f, s'.place = .raised f) := by
  induction hn : s.left c topic using Nat.strong_induction_on generalizing s faults with
  | _ n ih =>
      cases hstep : s.step c topic tail (faults 0) with
      | none =>
          exact ⟨0, s, rfl, isOver_of_step hstep⟩
      | some t =>
          have hlt := left_lt_of_goes (goes_of_step hstep)
          obtain ⟨k, s', hrun, hover⟩ := ih _ (hn ▸ hlt) (faults ∘ Nat.succ) t rfl
          refine ⟨k + 1, s', ?_, hover⟩
          rw [List.range_succ_eq_map, List.map_cons, List.map_map, run, List.foldlM_cons, hstep]
          exact hrun

/-! ## An opening in a cluster with its disturbances -/

end Opening

/-- What fails in the cluster where an opening stands.  Both tables count as one question. -/
def Cluster.outageAt (c : Cluster) : Opening.Place → Option Outage
  | .creating => c.outage? .create none 0
  | .asking => c.outage? .metadata none 0
  | .finding _ => c.outage? .bounds none 0
  | .closing _ => c.outage? .close none 0
  | _ => none

namespace Opening

variable {c : Cluster} {topic : Json} {s : Opening}

/-- One state comes to another one if what fails is what fails in the cluster. -/
def Comes (c : Cluster) (topic : Json) (tail : Int) : Opening → Opening → Prop :=
  Relation.ReflTransGen fun s s' => s.step c topic tail (c.outageAt s.place) = some s'

/-- With what fails in the cluster, the questions come to `Reader.cursors`. -/
theorem comes_to_cursors (hids : (c.ids topic).Nodup) (tail : Int) (hs : s.place = .asking) :
    ∃ answered, Comes c topic tail s
      { s with answered, place := .closing (Reader.cursors c topic tail) } := by
  cases hmeta : c.outage? .metadata none 0 with
  | some o =>
      exact ⟨s.answered, .single (by simp [step, hs, Cluster.outageAt, Reader.cursors, hmeta])⟩
  | none =>
      cases hkey : topic.isKey with
      | false =>
          refine ⟨s.answered, .single ?_⟩
          simp [step, hs, Cluster.outageAt, Reader.cursors, hmeta, answer, hkey]
      | true =>
          refine ⟨true, ?_⟩
          cases hps : c.partitions topic with
          | nil =>
              refine .single ?_
              simp [step, hs, Cluster.outageAt, Reader.cursors, hmeta, answer, hkey, Cluster.ids, hps]
          | cons p ps =>
              let ids := (c.ids topic).mergeSort (· ≤ ·)
              let found : Opening := { s with answered := true, place := .finding ids }
              have hfound : s.step c topic tail (c.outageAt s.place) = some found := by
                simp [step, hs, Cluster.outageAt, hmeta, answer, hkey, Cluster.ids, hps, found, ids]
              refine .head hfound ?_
              cases hbounds : c.outage? .bounds none 0 with
              | some o =>
                  refine .single ?_
                  simp [found, step, Cluster.outageAt, Reader.cursors, hmeta, hkey, hps, hbounds]
              | none =>
                  let oldest := c.bounds topic (·.oldest) ids
                  have hfind : found.step c topic tail (c.outageAt found.place) =
                      some { found with place := .measuring ids oldest } := by
                    simp [found, step, Cluster.outageAt, hbounds, oldest]
                  have hcursors : Reader.cursors c topic tail = .ok (c.cursors topic tail) := by
                    simp [Reader.cursors, hmeta, hkey, hps, hbounds, Cluster.cursors]
                  refine .head hfind (.single ?_)
                  rw [hcursors, ← Cluster.filterMap_ofBounds hids tail]
                  rfl

/-- The workers of the cursors are started one after another. -/
theorem comes_to_returned {tail : Int} {cursors : List Cursor} (hs : s.place = .starting cursors) :
    Comes c topic tail s
      { s with started := s.started ++ cursors.map Worker.ofCursor, place := .returned } := by
  induction cursors generalizing s with
  | nil => exact .single (by simp [step, hs])
  | cons cursor cursors ih =>
      let next : Opening :=
        { s with started := s.started ++ [.ofCursor cursor], place := .starting cursors }
      have hstep : s.step c topic tail (c.outageAt s.place) = some next := by simp [step, hs, next]
      have hrest := ih (s := next) rfl
      rw [List.append_assoc] at hrest
      exact .head hstep hrest

/-- **The steps come to what opening a reader comes to.**  With what fails in the cluster, an opening
ends as `Reader.opened` does, and has done with its consumer what `Reader.plan` says. -/
theorem opened_eq_run (hids : (c.ids topic).Nodup) (job : Job) (capacity : Int) :
    ∃ s, Comes c topic job.request.tail {} s ∧
      s.planner = (Reader.plan c topic job.request.tail).consumer ∧
      s.outcome? topic job capacity = some (Reader.opened c topic job capacity) := by
  rw [Reader.opened, Reader.plan]
  cases hcreate : c.outage? .create none 0 with
  | some o =>
      let raised : Opening := { place := .raised (.outage o) }
      have hstep : step c topic job.request.tail {} (c.outageAt .creating) = some raised := by
        simp [step, Cluster.outageAt, hcreate, raised]
      exact ⟨raised, .single hstep, rfl, rfl⟩
  | none =>
      let asking : Opening := { place := .asking, planner := some {} }
      have hstep : step c topic job.request.tail {} (c.outageAt .creating) = some asking := by
        simp [step, Cluster.outageAt, hcreate, asking]
      obtain ⟨answered, hcomes⟩ := comes_to_cursors hids job.request.tail
        (s := asking) rfl
      have hclosing : Comes c topic job.request.tail {} _ := .head hstep hcomes
      let closed (place : Place) : Opening :=
        { place, answered, planner := some (({} : Consumer).note .close)
          closeFailure := c.outage? .close none 0 }
      cases hclose : c.outage? .close none 0 with
      | some o =>
          refine ⟨closed (.raised (.outage o)), hclosing.tail ?_, rfl, rfl⟩
          simp [step, Cluster.outageAt, hclose, closed, asking]
      | none =>
          cases hresult : Reader.cursors c topic job.request.tail with
          | error f =>
              refine ⟨closed (.raised f), hclosing.tail ?_, rfl, rfl⟩
              simp [step, Cluster.outageAt, hclose, closed, asking, hresult]
          | ok cursors =>
              have hstarting : Comes c topic job.request.tail {} (closed (.starting cursors)) := by
                refine hclosing.tail ?_
                simp [step, Cluster.outageAt, hclose, closed, asking, hresult]
              exact ⟨_, hstarting.trans (comes_to_returned rfl), rfl, rfl⟩

/-! ## How an opening can end -/

/-- Where reading starts, by the bounds of the partition. -/
theorem cursor_eq (tail : Int) (p : Partition) : Reader.cursor tail p =
    ⟨p.id, if 0 < tail then max (p.endOffset - tail) (max p.oldest 0) else max p.oldest 0,
      p.endOffset⟩ := by
  by_cases htail : 0 < tail
  · simp [Reader.cursor, startOffset, htail, not_le.2 htail]
  · simp [Reader.cursor, startOffset, htail, not_lt.1 htail]

/-- **Opening a reader is all or nothing.**  Whichever calls fail, an opening goes on until it has
raised a failure or returned a reader.  If it has raised a failure, no worker was started, and the
consumer, if it was created, was closed; and unless that was what failed, the failure is that the topic
was not found just if the consumer has said that there are no partitions.  If it has returned a reader,
the consumer was closed, and there is a worker for each partition and no other one, each of which starts
`tail` messages below the end, but not below the first message, or there if `tail` is not positive.
Whatever happens after that, the consumer of a worker is assigned its partition at most once and no
other one, it is not used after it was closed, and it has been closed once when the worker has
ended. -/
theorem opening_outcome (hids : ((c.partitions topic).map (·.id)).Nodup) (job : Job)
    (capacity : Int) {outages : List (Option Outage)}
    (hrun : run c topic job.request.tail {} outages = some s) :
    (∀ faults : Nat → Option Outage, ∃ n s',
      run c topic job.request.tail s ((List.range n).map faults) = some s' ∧
        (s'.place = .returned ∨ ∃ f, s'.place = .raised f)) ∧
    (∀ f, s.place = .raised f →
      s.started = [] ∧ (∀ k, s.planner = some k → k.calls = [.close]) ∧
        (s.closeFailure = none →
          (f = .topicNotFound topic ↔ s.answered = true ∧ c.partitions topic = []))) ∧
    (s.place = .returned →
      (∃ k, s.planner = some k ∧ k.calls = [.close]) ∧
        s.answered = true ∧ c.partitions topic ≠ [] ∧
        ∃ cursors : List Cursor,
          cursors.Perm ((c.partitions topic).map fun p => ⟨p.id,
            if 0 < job.request.tail then max (p.endOffset - job.request.tail) (max p.oldest 0)
            else max p.oldest 0, p.endOffset⟩) ∧
          s.reader topic job capacity = .ofCursors topic job capacity cursors ∧
          ∀ before moves t,
            (Shutdown.opened c (s.reader topic job capacity) before).run moves = some t →
              t.reader.workers.map (·.cursor) = cursors ∧
                ∀ w ∈ t.reader.workers, ∀ k, w.consumer = some k → w.UsesWell k.calls) := by
  have hfits := fits_run hids hrun
  have hempty : c.ids topic = [] ↔ c.partitions topic = [] := List.map_eq_nil_iff
  refine ⟨fun faults => exists_run faults s, ?_, ?_⟩
  · intro f hplace
    simp only [Fits, hplace] at hfits
    obtain ⟨hcalls, hstarted, hblames⟩ := hfits
    refine ⟨hstarted, hcalls, fun hclose => ?_⟩
    rw [← hempty]
    exact hblames hclose
  · intro hplace
    simp only [Fits, hplace] at hfits
    obtain ⟨hplanner, hfound, hstarted⟩ := hfits
    have hreader : s.reader topic job capacity =
        .ofCursors topic job capacity (c.cursors topic job.request.tail) := by
      rw [reader, hstarted, Reader.ofCursors]
    have hperm := (List.mergeSort_perm (c.partitions topic) fun p q => p.id ≤ q.id).map
      (Reader.cursor job.request.tail)
    refine ⟨⟨_, hplanner, rfl⟩, hfound.answered, hempty.not.1 hfound.ne_nil, _, ?_, hreader, ?_⟩
    · exact hperm.trans (.of_eq (List.map_congr_left fun p _ => cursor_eq _ p))
    · intro before moves t ht
      rw [hreader] at ht
      exact Shutdown.usesWell_run ht

/-- A topic with one partition: the reader is opened, and its worker comes to its end, having closed its
consumer once. -/
theorem opening_outcome_single :
    ∃ (c : Cluster) (job : Job) (s : Opening) (moves : List Shutdown.Move) (t : Shutdown)
      (w : Worker) (k : Consumer),
      run c (.str "t") job.request.tail {} (List.replicate 7 none) = some s ∧
        (Shutdown.opened c (s.reader (.str "t") job 1) {}).run moves = some t ∧
          t.reader.workers = [w] ∧ w.phase = .ended ∧ w.consumer = some k ∧
            k.calls.count .close = 1 := by
  let p : Partition := { id := 0, messages := [] }
  let c : Cluster := { topics := [(.str "t", [p])] }
  let job : Job := { containerId := .str "c", request := { follow := false }, nesting := 100 }
  have hparts : c.partitions (.str "t") = [p] := rfl
  have hids : c.ids (.str "t") = [0] := by rw [Cluster.ids, hparts]; rfl
  have hcursors : [(0 : Int)].filterMap (Cursor.ofBounds? job.request.tail
      (c.bounds (.str "t") (·.oldest) [0]) (c.bounds (.str "t") (·.endOffset) [0])) =
        [⟨0, 0, 0⟩] := rfl
  let s : Opening := {
    place := .returned
    planner := some (({} : Consumer).note .close)
    answered := true
    started := [.ofCursor ⟨0, 0, 0⟩] }
  have hrun : run c (.str "t") job.request.tail {} (List.replicate 7 none) = some s := by
    simp only [run, List.replicate, List.foldlM, step, answer, hids, Json.isKey, if_true,
      List.mergeSort_singleton, Option.bind_eq_bind, Option.bind_some, List.cons_ne_nil, if_false,
      hcursors]
    rfl
  let k : Consumer := { calls := [.assign 0, .seek 0 0, .close] }
  let w : Worker := { cursor := ⟨0, 0, 0⟩, phase := .ended, position := 0, consumer := some k }
  obtain ⟨t, ht, hworkers⟩ : ∃ t, (Shutdown.opened c (s.reader (.str "t") job 1) {}).run
      (List.replicate 5 (.work 0 1 none) ++ [.approach 0, .put 0]) = some t ∧
        t.reader.workers = [w] := ⟨_, rfl, rfl⟩
  obtain ⟨-, -, hreturned⟩ := opening_outcome (by simp [hparts]) job 1 hrun
  obtain ⟨-, -, -, cursors, -, -, hlater⟩ := hreturned rfl
  have hwell := (hlater {} _ t ht).2 w (by simp [hworkers]) k rfl
  exact ⟨c, job, s, _, t, w, k, hrun, ht, hworkers, rfl, rfl, hwell.closed rfl⟩

end Opening

end LogRelay
