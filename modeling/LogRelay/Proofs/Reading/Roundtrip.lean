import LogRelay.Proofs.Reading.Delivery
import LogRelay.Proofs.Reading.Storage
import LogRelay.Proofs.Record.Document
import LogRelay.Service.Hub
/-!
# What is published is read

The records of several containers are stored in the partitions of one topic, each in whichever of
them.  A reader that is opened for one of the containers then hands out, for each partition, the
records of that container, in the order in which they came, and nothing of the others.  The entry of a
record that comes back is that of the line that was published.

## Main definitions

* `Posting`: a line that is published.
* `Posting.readBack`: the entry that comes back of it.
* `Frame.Holds`: an entry in its frame.

## Main statements

* `judge_document`: what the document of a record comes to when it is read.
* `read_published`: what is published is read.
-/
namespace LogRelay

/-- The length of a stored value is a signed number of 32 bits. -/
def Message.lengthBound : Nat := 0x80000000

/-- The frame is that of an entry. -/
def Frame.Holds (frame : Bytes) (e : Entry) : Prop :=
  ∃ payload, frame = Frame.wrap payload ∧ payload.length < Frame.lengthBound ∧
    Entry.ofPayload? payload = some e

/-! ## One record -/

/-- The entry of a record that can be stored has a frame. -/
theorem holds_encode {r : Record Json} (h : r.IsStorable) {value : Bytes}
    (hdoc : r.document = .ok value) (hsize : value.length < Message.lengthBound) :
    ∃ frame, Frame.encode r.toEntry = .ok frame ∧ Frame.Holds frame r.toEntry := by
  have hlen := Record.length_le_of_document hdoc
  have hline : r.toEntry.line.length ≤ (r.line.flatMap Utf8.encodePoint).length + 1 := by
    have hlossy := Utf8.encodeLossy_eq h.line
    simp only [Record.toEntry, Record.terminated, hlossy]
    split
    · omega
    · rw [List.length_append, List.length_singleton]
  obtain ⟨payload, hpayload⟩ : ∃ payload, r.toEntry.payload = .ok payload :=
    Entry.exists_payload_iff.2 ⟨h.source, h.time⟩
  have hsource : (r.toEntry.source.flatMap Utf8.encodePoint).length =
    (r.source.flatMap Utf8.encodePoint).length := rfl
  simp only [Message.lengthBound] at hsize
  have hle := Entry.length_le_of_payload hpayload (by omega) (by omega)
  have hbound : payload.length < Frame.lengthBound := by
    simp only [Frame.lengthBound]
    omega
  refine ⟨Frame.wrap payload, encode_eq_ok_iff.2 ⟨payload, hpayload, hbound, rfl⟩,
    payload, rfl, hbound, ?_⟩
  exact Entry.ofPayload?_payload hpayload (by omega)

section

variable {r : Record Json} {value : Bytes} {job : Job} (h : r.IsStorable)
  (hdoc : r.document = .ok value)

include h hdoc

/-- The record that is read from a document has the same entry and the same container. -/
theorem exists_ofDocument (nesting : Nat) :
    ∃ r' : Record Text, Record.ofDocument nesting (some value) = .ok r' ∧
      r'.toEntry = r.toEntry ∧ r.containerId = .str r'.containerId := by
  obtain ⟨value', r', hdoc', hread, hline, hsource, hpartial, htime, hid⟩ :=
    Record.ofDocument_document h
  rw [hdoc] at hdoc'
  cases hdoc'
  refine ⟨r', hread nesting, ?_, hid⟩
  rw [Record.toEntry, Record.toEntry, hline, hsource, hpartial, htime]

/-- The document of a record of the container whose records are all read. -/
theorem judge_document_own (hsize : value.length < Message.lengthBound)
    (hid : job.containerId = r.containerId) (hsince : job.request.notBefore = none)
    (huntil : job.request.notAfter = none) :
    ∃ frame, job.judge (some value) = .wanted frame ∧ Frame.Holds frame r.toEntry := by
  obtain ⟨r', hread, hentry, hid'⟩ := exists_ofDocument h hdoc job.nesting
  obtain ⟨frame, hframe, hholds⟩ := holds_encode h hdoc hsize
  have hmatches : job.Matches r' := by
    constructor
    · rw [hid, hid']
      rfl
    · simp [ReadRequest.inWindow, hsince, huntil]
  exact ⟨frame, judge_of_matches hread hmatches (hentry ▸ hframe), hholds⟩

/-- The document of a record of another container. -/
theorem judge_document_foreign (hid : job.containerId ≠ r.containerId) :
    job.judge (some value) = .foreign := by
  obtain ⟨r', hread, -, hid'⟩ := exists_ofDocument h hdoc job.nesting
  apply judge_of_foreign hread
  intro hsame
  apply hid
  rw [hid']
  cases hc : job.containerId <;> simp_all [Json.str?]

end

/-! ## Records of several containers -/

/-- A line that is published: the number of its container, what was read of the runtime, the bytes of
the line, the host, and the partition that it comes to. -/
structure Posting (n : Nat) where
  sender : Fin n
  entry : Entry
  line : Bytes
  hostname : Text
  partition : Int

namespace Posting

variable {n : Nat}

/-- The record of the line. -/
def record (containers : Fin n → Container) (x : Posting n) : Record Json :=
  .build x.entry x.line (containers x.sender) x.hostname

/-- What comes to the partition. -/
def placed (containers : Fin n → Container) (x : Posting n) :
    Except Timestamp.RangeError (Int × Bytes) := do
  return (x.partition, ← (x.record containers).document)

/-- The entry that comes back: that which was read of the runtime, but with the line that was
published, in which what is no text has been replaced and which now ends in a line feed. -/
def readBack (x : Posting n) : Entry :=
  { x.entry with line := Record.terminated ((Utf8.decodeLossy x.line).flatMap Utf8.encodePoint) }

end Posting

/-- The cluster after lines have been published to a topic. -/
def Cluster.publish {n : Nat} (c : Cluster) (topic : Json) (containers : Fin n → Container)
    (xs : List (Posting n)) : Except Timestamp.RangeError Cluster := do
  return c.store topic (← xs.mapM (Posting.placed containers))

/-- A container that is described by texts, and whose identifier has bytes. -/
structure Container.IsTextual (c : Container) : Prop where
  id : ∃ id : Text, c.id = .str id ∧ id.hasSurrogate = false
  imageName : ∃ t : Text, c.imageName = .str t
  imageId : ∃ t : Text, c.imageId = .str t

/-- A line that can be stored: its source has bytes, its time is one of 64 bits, and its record is not
too long for a message. -/
structure Posting.IsStorable {n : Nat} (x : Posting n) (containers : Fin n → Container) : Prop where
  source : x.entry.source.hasSurrogate = false
  time : Entry.fitsTime x.entry.time = true
  size : ∀ value, (x.record containers).document = .ok value → value.length < Message.lengthBound

namespace Posting

variable {n : Nat} {containers : Fin n → Container} {x : Posting n}
  {xs : List (Posting n)}

theorem IsStorable.record (hx : x.IsStorable containers)
    (hc : (containers x.sender).IsTextual) : (x.record containers).IsStorable where
  line := Utf8.hasSurrogate_decodeLossy _
  source := hx.source
  time := hx.time
  containerId := hc.id
  imageName := hc.imageName
  imageId := hc.imageId

theorem toEntry_record (containers : Fin n → Container) (x : Posting n) :
    (x.record containers).toEntry = x.readBack := by
  have hlossy := Utf8.encodeLossy_eq (Utf8.hasSurrogate_decodeLossy x.line)
  rw [Posting.record, Record.toEntry, Record.build, readBack]
  simp only [hlossy]

/-- Lines that can be stored are published, each in its partition. -/
theorem exists_mapM_placed (hcs : ∀ i, (containers i).IsTextual)
    (hxs : ∀ x ∈ xs, x.IsStorable containers) :
    ∃ placed, xs.mapM (Posting.placed containers) = .ok placed ∧ ∀ id,
      List.Forall₂ (fun x value => (x.record containers).document = .ok value)
        (xs.filter (·.partition = id)) (valuesAt placed id) := by
  induction xs with
  | nil => exact ⟨[], rfl, fun _ => .nil⟩
  | cons x xs ih =>
      obtain ⟨placed, hmap, hall⟩ := ih fun y hy => hxs y (List.mem_cons_of_mem x hy)
      obtain ⟨value, -, hdoc, -⟩ :=
        Record.ofDocument_document ((hxs x List.mem_cons_self).record (hcs x.sender))
      refine ⟨(x.partition, value) :: placed, ?_, ?_⟩
      · rw [List.mapM_cons, hmap, Posting.placed, hdoc]
        rfl
      · intro id
        by_cases hid : x.partition = id
        · simp only [valuesAt, hid, List.filter_cons_of_pos, decide_true, List.map_cons]
          exact .cons hdoc (hall id)
        · simp only [valuesAt, hid, decide_false, Bool.false_eq_true, not_false_eq_true,
            List.filter_cons_of_neg]
          exact hall id

/-- What is read of the values of some lines are the frames of those of one container. -/
theorem forall₂_survivors_numbered (hcs : ∀ i, (containers i).IsTextual)
    (hdistinct : Function.Injective fun i => (containers i).id) {i : Fin n} {job : Job}
    (hjob : job.containerId = (containers i).id) (hsince : job.request.notBefore = none)
    (huntil : job.request.notAfter = none) {values : List Bytes}
    (hxs : ∀ x ∈ xs, x.IsStorable containers)
    (h : List.Forall₂ (fun x value => (x.record containers).document = .ok value) xs values)
    (first : Int) :
    (∀ m ∈ numbered first values, job.isFatal m = false) ∧
      List.Forall₂ (fun x frame => Frame.Holds frame x.readBack) (xs.filter (·.sender = i))
        (job.survivors (numbered first values)) := by
  induction h generalizing first with
  | nil => exact ⟨by simp [numbered], .nil⟩
  | @cons x value xs values hdoc _ ih =>
      obtain ⟨hrest, hframes⟩ := ih (fun y hy => hxs y (List.mem_cons_of_mem x hy)) (first + 1)
      have hx := hxs x List.mem_cons_self
      have hrecord := hx.record (hcs x.sender)
      rw [numbered, Job.survivors, List.filterMap_cons]
      by_cases hi : x.sender = i
      · obtain ⟨frame, hjudge, hholds⟩ := judge_document_own hrecord hdoc (hx.size value hdoc)
          (hjob.trans (congrArg (fun k => (containers k).id) hi.symm)) hsince huntil
        constructor
        · intro m hm
          rcases List.mem_cons.1 hm with rfl | hm
          · rw [Job.isFatal, hjudge]
            rfl
          · exact hrest m hm
        · rw [hjudge, List.filter_cons_of_pos (by simpa using hi)]
          exact .cons (toEntry_record containers x ▸ hholds) hframes
      · have hforeign : job.containerId ≠ (x.record containers).containerId := by
          intro heq
          exact hi (hdistinct (hjob.symm.trans heq)).symm
        have hjudge := judge_document_foreign hrecord hdoc hforeign
        constructor
        · intro m hm
          rcases List.mem_cons.1 hm with rfl | hm
          · rw [Job.isFatal, hjudge]
            rfl
          · exact hrest m hm
        · rw [hjudge, List.filter_cons_of_neg (by simpa using hi)]
          exact hframes

end Posting

/-! ## The whole way -/

/-- A topic that holds something is a key. -/
theorem Cluster.isKey_of_partitions {c : Cluster} {topic : Json} (h : c.partitions topic ≠ []) :
    topic.isKey = true := by
  have hsame (k : Json) (hk : Json.sameKey k topic = true) : topic.isKey = true := by
    cases topic <;> cases k <;> simp_all [Json.sameKey, Json.keyNumber?, Json.isKey]
  rw [partitions, Members.getBy?] at h
  cases hf : c.topics.find? fun x => Json.sameKey x.1 topic with
  | none => simp [hf] at h
  | some entry => exact hsame entry.1 (by simpa using List.find?_some hf)

/-- **What is published is read.**  Lines of several containers, whose records come to the partitions
of one topic in whatever way: a reader of all records of one of the containers can be opened, it comes
to its end, and it has then handed out, for each partition, one frame for each line of its container
that came there, in the order in which they came, which holds the entry of that line; and nothing
else. -/
theorem read_published {n : Nat} {containers : Fin n → Container}
    (hcs : ∀ i, (containers i).IsTextual)
    (hdistinct : Function.Injective fun i => (containers i).id) {hub : Hub} {topic : Json}
    (htopic : ∀ i, hub.topicFor (containers i) = .ok topic) {c : Cluster}
    (hcalm : c.disturbances = []) (hsome : c.partitions topic ≠ [])
    (hids : ((c.partitions topic).map (·.id)).Nodup)
    (hempty : ∀ p ∈ c.partitions topic, p.messages = [] ∧ p.high = none) {xs : List (Posting n)}
    (hxs : ∀ x ∈ xs, x.IsStorable containers) (i : Fin n)
    {q : ReadRequest} (hfollow : q.follow = false) (htail : q.tail ≤ 0)
    (hsince : q.notBefore = none) (huntil : q.notAfter = none) :
    ∃ c' r hub', c.publish topic containers xs = .ok c' ∧
      hub.readLogs c' (containers i) q = (.ok r, hub') ∧
      ∀ before moves s, (∀ m ∈ moves, m.IsFaultless) → (Scene.opened c' r before).run moves = some s →
        s.CannotStall ∧ (s.reader.next.1 = .ended →
          (∀ p ∈ c.partitions topic,
            List.Forall₂ (fun x frame => Frame.Holds frame x.readBack)
              (xs.filter fun x => x.sender = i ∧ x.partition = p.id) (s.delivered p.id)) ∧
          ∀ id, id ∉ (c.partitions topic).map (·.id) → s.delivered id = []) := by
  obtain ⟨placed, hplaced, hvalues⟩ := Posting.exists_mapM_placed hcs hxs
  have hparts := Cluster.partitions_store hsome placed
  have hsome' : (c.store topic placed).partitions topic ≠ [] := by
    rw [hparts]
    simpa using hsome
  have hnumbers : ((c.store topic placed).partitions topic).map (·.id) =
      (c.partitions topic).map (·.id) := by
    rw [hparts, List.map_map]
    exact List.map_congr_left fun p _ => Partition.id_store p _
  -- what holds of the partitions that were filled holds of all
  have hfilled {P : Partition → Prop}
      (h : ∀ p ∈ c.partitions topic, P (p.store (valuesAt placed p.id))) :
      ∀ p ∈ (c.store topic placed).partitions topic, P p := by
    intro p' hp'
    rw [hparts] at hp'
    obtain ⟨p, hp, rfl⟩ := List.mem_map.1 hp'
    exact h p hp
  have hinc := hfilled (P := fun p => IsIncreasing p.messages) fun p hp =>
    Partition.isIncreasing_store (hempty p hp).1 _
  have hmet := hfilled (P := fun p => (Reader.cursor q.tail p).IsMet p.messages) fun p hp =>
    Partition.isMet_store (hempty p hp).1 (hempty p hp).2 htail _
  obtain ⟨r, hopen⟩ : ∃ r, Reader.opened (c.store topic placed) topic
      ⟨(containers i).id, q, hub.nesting.stored⟩ hub.readCapacity = .ok r :=
    ⟨_, Reader.opened_of_calm _ _ ((c.disturbances_store topic placed).trans hcalm)
      (Cluster.isKey_of_partitions hsome) hsome'⟩
  refine ⟨c.store topic placed, r, { hub with consumers := hub.consumers + 1 }, ?_, ?_, ?_⟩
  · rw [Cluster.publish, hplaced]
    rfl
  · rw [Hub.readLogs, htopic i]
    simp only [hopen]
  · intro before moves s hm hrun
    have hb := Scene.isBounded_run
      (Scene.isBounded_opened hopen hfollow (hnumbers ▸ hids) hinc hmet before) hm hrun
    refine ⟨Scene.cannotStall hb, ?_⟩
    intro hend
    have ho := Scene.isOutcome_of_ended hopen hfollow (hnumbers ▸ hids) hinc hmet hm hrun hend
    have hjob := Scene.job_of_opened hopen hrun
    constructor
    · intro p hp
      have hframes := ho.frames (p.store (valuesAt placed p.id))
        (hparts ▸ List.mem_map_of_mem hp)
      have hxs' : ∀ x ∈ xs.filter (·.partition = p.id), x.IsStorable containers :=
        fun x hx => hxs x (List.mem_of_mem_filter hx)
      obtain ⟨hclean, hall⟩ := Posting.forall₂_survivors_numbered hcs hdistinct
        (rfl : (Job.mk (containers i).id q hub.nesting.stored).containerId = _) hsince huntil
        hxs' (hvalues p.id) p.nextOffset
      rw [Partition.toRead, hjob, Partition.range_store (hempty p hp).1 (hempty p hp).2 htail,
        Job.manageable_eq_self _ hclean, Partition.id_store] at hframes
      rw [hframes]
      simpa [List.filter_filter] using hall
    · intro id hid
      exact ho.nothing id (hnumbers ▸ hid)

/-- Of the lines of two containers in one partition the reader of the first one hands out one. -/
theorem read_published_two : ∃ (hub : Hub) (c : Cluster) (containers : Fin 2 → Container)
    (xs : List (Posting 2)) (c' : Cluster) (r : Reader) (hub' : Hub),
    c.publish (.str "logs") containers xs = .ok c' ∧
      hub.readLogs c' (containers 0) { follow := false } = (.ok r, hub') ∧
      ∀ moves s, (∀ m ∈ moves, m.IsFaultless) → (Scene.opened c' r {}).run moves = some s →
        s.reader.next.1 = .ended → ∃ frame, s.delivered 0 = [frame] ∧
          Frame.Holds frame { line := [104, 105, 10], source := "stdout", time := 5 } := by
  let settings : Settings := {
    brokers := "localhost"
    topic := "logs"
    tag := []
    keyStrategy := .byTime
    logLevel := "INFO"
    socketPath := []
    maxFrameSize := 1000000
    pollTimeout := 1000
    shutdownTimeout := none
    queueSize := 1
    errorBufferSize := 1
    metricsInterval := 0 }
  let hub : Hub := { settings, hostname := "h", readCapacity := 1, nesting := ⟨100, 100⟩ }
  let containers : Fin 2 → Container := fun i => { id := .str (if i = 0 then "a" else "b") }
  let c : Cluster := { topics := [(.str "logs", [{ id := 0 }])] }
  let x : Posting 2 := ⟨0, { source := "stdout", time := 5 }, [104, 105], "h", 0⟩
  let y : Posting 2 := ⟨1, { source := "stderr", time := 3 }, [255], "h", 0⟩
  have hcs : ∀ i, (containers i).IsTextual := by
    intro i
    refine ⟨⟨_, rfl, ?_⟩, ⟨[], rfl⟩, ⟨[], rfl⟩⟩
    revert i
    decide
  have hdistinct : Function.Injective fun i => (containers i).id := by
    have hids : ∀ i j : Fin 2, (if i = 0 then ("a" : Text) else "b") =
        (if j = 0 then ("a" : Text) else "b") → i = j := by decide
    intro i j h
    exact hids i j (Json.str.inj h)
  have hsize {r : Record Json} {k : Nat} (hk : k < Message.lengthBound)
      (h : r.document.toOption.map List.length = some k) :
      ∀ value, r.document = .ok value → value.length < Message.lengthBound := by
    intro value hvalue
    rw [hvalue] at h
    exact Option.some.inj h ▸ hk
  have hx : x.IsStorable containers := ⟨by decide, by decide, hsize (by decide)
    (by decide +kernel : (Record.build { source := "stdout", time := 5 } [104, 105]
      { id := .str "a" } "h").document.toOption.map List.length = some 190)⟩
  have hy : y.IsStorable containers := ⟨by decide, by decide, hsize (by decide)
    (by decide +kernel : (Record.build { source := "stderr", time := 3 } [255]
      { id := .str "b" } "h").document.toOption.map List.length = some 194)⟩
  obtain ⟨c', r, hub', hpublish, hopen, hrun⟩ := read_published hcs hdistinct
    (fun _ => rfl : ∀ i, hub.topicFor (containers i) = .ok (.str "logs")) (rfl : c.disturbances = [])
    (by decide) (by decide) (by decide) (by simp [hx, hy] : ∀ z ∈ [x, y], z.IsStorable containers) 0
    (rfl : ({ follow := false } : ReadRequest).follow = false) (by decide) rfl rfl
  refine ⟨hub, c, containers, [x, y], c', r, hub', hpublish, hopen, ?_⟩
  intro moves s hm hmoves hend
  obtain ⟨hframes, -⟩ := (hrun {} moves s hm hmoves).2 hend
  have hown : List.Forall₂ (fun z frame => Frame.Holds frame z.readBack) [x] (s.delivered 0) :=
    hframes { id := 0 } (List.mem_singleton_self _)
  obtain ⟨frame, frames, hholds, hrest, heq⟩ := List.forall₂_cons_left_iff.1 hown
  cases hrest
  have hback : x.readBack = { line := [104, 105, 10], source := "stdout", time := 5 } := by decide
  exact ⟨frame, heq, hback ▸ hholds⟩

end LogRelay
