import LogRelay.Proofs.Frame.Chunks
import LogRelay.Proofs.Reading.Tap
/-!
# The bytes that are read from a reader

Whoever reads bytes from a reader that nobody closes gets those of the frames that the workers put on the
queue, in that order and without gaps, whatever sizes he asks for and whatever the workers do meanwhile.
A call that is to get at least one byte gets none just if all frames have been handed out and the workers
have said that they have ended; and a call for all bytes comes back only then.  What a call has taken from the queue and not
handed out yet it has in hand, or it has left it for the next call: that is the invariant.

## Main definitions

* `Scene.frames`: the frames that have been put on the queue.
* `Scene.HaveEnded`, `Scene.HaveFinished`: all workers have ended, and have said so.
* `Tap.handedOut`: the bytes that have been handed out.
* `Tap.IsSteady`: the invariant.
* `Tap.IsFaithful`: what holds of the bytes that are read.

## Main statements

* `isSteady_run`: each run keeps the invariant.
* `IsSteady.isFaithful`: the bytes that are read are as they should be.
-/
namespace LogRelay

open Message

/-- The frame that an item is, if it is one. -/
def Item.frame? : Item → Option Bytes
  | .frame _ bs => some bs
  | _ => none

/-- An item as it comes from a worker: a frame is not empty, and nobody marks the end of the reader. -/
def Item.IsProper : Item → Prop
  | .frame _ bs => bs ≠ []
  | .done _ => True
  | .closed => False

namespace Scene

variable {s s' : Scene}

/-- The frames that were ever put on the queue, in order. -/
def frames (s : Scene) : List Bytes :=
  (s.taken ++ s.reader.queue).filterMap Item.frame?

/-- All workers have ended. -/
def HaveEnded (s : Scene) : Prop :=
  ∀ w ∈ s.reader.workers, w.phase = .ended

/-- The ends of all workers have been put on the queue. -/
def HaveFinished (s : Scene) : Prop :=
  ∀ w ∈ s.reader.workers, Item.done w.cursor.partition ∈ s.taken ++ s.reader.queue

/-- Each frame on the queue is that of a record that is asked for and is stored in its partition. -/
theorem exists_encode_of_mem (hs : s.IsSound) {id : Int} {bs : Bytes}
    (h : Item.frame id bs ∈ s.taken ++ s.reader.queue) : ∃ m ∈ s.log id, ∃ r,
      Record.ofDocument s.reader.job.nesting m.value = .ok r ∧ s.reader.job.Matches r ∧
        Frame.encode r.toEntry = .ok bs := by
  obtain ⟨k, hk, hpart⟩ := hs.owned _ h
  obtain ⟨w, hw, rfl⟩ := List.mem_map.1 hk
  obtain rfl : id = w.cursor.partition := Option.some.inj hpart
  obtain ⟨frames, marks, hitems, hframes, hmarks⟩ := hs.feeds w hw
  have hmem : Item.frame w.cursor.partition bs ∈ s.itemsOf w.cursor.partition :=
    List.mem_filter.2 ⟨h, by simp [Item.partition?]⟩
  have hbs : bs ∈ frames := by
    rw [hitems, List.mem_append] at hmem
    rcases hmem with hmem | hmem
    · simpa using hmem
    · rcases hmarks with rfl | ⟨rfl, -⟩ <;> simp at hmem
  have hsurvivor : bs ∈ s.reader.job.survivors (w.seen (s.log w.cursor.partition)) :=
    hframes ▸ List.mem_append_left _ hbs
  obtain ⟨m, hm, hframe⟩ := List.mem_filterMap.1 hsurvivor
  exact ⟨m, (mem_within.1 hm).1.1, exists_encode_of_frame? hframe⟩

/-- When all workers have ended, none of them makes a step. -/
theorem HaveEnded.step_work (h : s.HaveEnded) (i size : Nat) (outage : Option Outage) :
    s.step (.work i size outage) = none := by
  by_contra hsome
  obtain ⟨s', hs'⟩ := Option.ne_none_iff_exists'.1 hsome
  obtain ⟨w, w', e, hi, hstep, -⟩ := step_work_eq_some.1 hs'
  rw [Worker.step, h w (List.mem_of_getElem? hi)] at hstep
  cases hstep

end Scene

namespace Reader

variable {r r' : Reader}

/-- The reader without what a call for bytes leaves in it. -/
def plain (r : Reader) : Reader :=
  { r with buffer := [], exhausted := false }

namespace Drawing

/-- Where a call for bytes can stand: while it asks for a frame nothing is left of an earlier one, only
a call for all bytes has gathered some, and it waits only if the reader is not over. -/
inductive Fits (r : Reader) : Drawing → Prop where
  | idle : Fits r .idle
  | asked (size : Int) : Fits r (.asked size)
  | testing {size : Int} {gathered : Bytes} (hb : r.buffer = []) (hg : 0 ≤ size → gathered = []) :
      Fits r (.fetching size gathered (.testing false))
  | waiting {size : Int} {gathered : Bytes} (hb : r.buffer = []) (hg : 0 ≤ size → gathered = [])
      (ho : r.isOver = false) : Fits r (.fetching size gathered (.waiting false))
  | received {size : Int} {gathered bs : Bytes} (hb : r.buffer = [])
      (hg : 0 ≤ size → gathered = []) (hbs : bs ≠ []) :
      Fits r (.fetching size gathered (.returned (.frame bs)))
  | ended {size : Int} {gathered : Bytes} (hb : r.buffer = []) (hg : 0 ≤ size → gathered = [])
      (ho : r.isOver = true) : Fits r (.fetching size gathered (.returned .ended))
  | returned (size : Int) (bs : Bytes) : Fits r (.returned size bs)

variable {a b : Drawing} {taken : Option Item}

theorem Fits.congr (h : a.Fits r) (hb : r'.buffer = r.buffer) (ho : r'.isOver = r.isOver) :
    a.Fits r' := by
  cases h with
  | idle => exact .idle
  | asked => exact .asked _
  | testing hb' hg => exact .testing (hb.trans hb') hg
  | waiting hb' hg ho' => exact .waiting (hb.trans hb') hg (ho.trans ho')
  | received hb' hg hbs => exact .received (hb.trans hb') hg hbs
  | ended hb' hg ho' => exact .ended (hb.trans hb') hg (ho.trans ho')
  | returned => exact .returned _ _

/-- A step leads to where a call can stand. -/
theorem Goes.fits (h : Goes r a b r' taken) (ha : a.Fits r)
    (hq : ∀ item ∈ r.queue, item.IsProper) : b.Fits r' := by
  cases h with
  | gatherRest hs => exact .testing rfl fun h => absurd hs (Int.not_lt.2 h)
  | fetch hs hb => exact .testing hb fun _ => rfl
  | cutRest | cut | stop => exact .returned _ _
  | gather hs =>
      cases ha with
      | received hb => exact .testing hb fun h => absurd hs (Int.not_lt.2 h)
  | call hc =>
      cases hc with
      | exhaust ho =>
          cases ha with
          | testing hb hg => exact .ended hb hg (by simp [isOver])
      | wait ho =>
          cases ha with
          | testing hb hg => exact .waiting hb hg ho
      | @take timed item queue hcons =>
          have hproper := hq item (hcons ▸ List.mem_cons_self)
          cases ha with
          | waiting hb hg ho =>
              cases item with
              | frame id bs => exact .received hb hg hproper
              | done id => exact .testing hb hg
              | closed => exact hproper.elim

/-- A step hands out bytes, has them in hand or leaves them, but loses none. -/
theorem Goes.bytes (h : Goes r a b r' taken) (ha : a.Fits r) :
    (b.answer?.toList.map Prod.snd).flatten ++ b.held ++ r'.buffer =
      a.held ++ r.buffer ++ (taken.toList.filterMap Item.frame?).flatten := by
  cases h with
  | gatherRest | fetch | cutRest | gather | stop => simp [answer?, held]
  | cut hs =>
      cases ha with
      | received hb hg => simp [answer?, held, hb, hg hs]
  | call hc =>
      cases hc with
      | exhaust | wait => simp [answer?, held]
      | @take timed item queue hcons =>
          cases ha with
          | waiting hb => cases item <;> simp [answer?, held, hb, Call.receive, Item.frame?]

/-- A step takes the first item of a reader that is not over, or leaves the queue as it is. -/
theorem Goes.queue (h : Goes r a b r' taken) (ha : a.Fits r) :
    (taken = none ∧ r'.plain = r.plain) ∨
      ∃ item queue, taken = some item ∧ r.isOver = false ∧ r.queue = item :: queue ∧
        r'.plain = { r.plain with
          queue
          markers := r.markers + if item.isDone then 1 else 0 } := by
  cases h with
  | gatherRest | fetch | cutRest | gather | cut | stop => exact .inl ⟨rfl, rfl⟩
  | call hc =>
      cases hc with
      | exhaust | wait => exact .inl ⟨rfl, rfl⟩
      | @take timed item queue hcons =>
          cases ha with
          | waiting hb hg ho => exact .inr ⟨item, queue, rfl, ho, hcons, rfl⟩

/-- A reader that is over has taken the ends of all its workers. -/
theorem Goes.length_le_markers (h : Goes r a b r' taken) (hq : ∀ item ∈ r.queue, item.IsProper)
    (ho : r.isOver = true → r.workers.length ≤ r.markers) (ho' : r'.isOver = true) :
    r'.workers.length ≤ r'.markers := by
  cases h with
  | gatherRest | fetch | cutRest | gather | cut | stop => exact ho ho'
  | call hc =>
      cases hc with
      | exhaust hover => exact ho hover
      | wait => exact ho ho'
      | @take timed item queue hcons =>
          have hproper := hq item (hcons ▸ List.mem_cons_self)
          cases item with
          | frame id bs => exact ho (by simpa [isOver, Item.isDone] using ho')
          | done id =>
              by_cases hover : r.isOver = true
              · exact (ho hover).trans (Nat.le_add_right _ _)
              · simp only [isOver, Bool.or_eq_true, not_or, Bool.not_eq_true] at hover
                simpa [isOver, hover.1.1, hover.1.2, Item.isDone] using ho'
          | closed => exact hproper.elim

end Drawing

end Reader

namespace Tap

variable {s s' : Tap} {unclosed : List Int}

/-- The bytes that have been handed out, those of all calls together. -/
def handedOut (s : Tap) : Bytes :=
  (s.answers.map Prod.snd).flatten

/-- The scene without what a call for bytes leaves in the reader. -/
def plain (s : Tap) : Scene :=
  { s.toScene with reader := s.reader.plain }

/-- The bytes of the frames that have been taken from the queue have been handed out, or the call at
hand has them, or they are left of a frame; all else is as in a scene without calls for bytes. -/
structure IsSteady (s : Tap) (unclosed : List Int) : Prop where
  sound : s.plain.IsSound
  announces : s.plain.All fun w _ items => w.Announces items unclosed
  fits : s.drawing.Fits s.reader
  isOver : s.reader.isOver = true → s.reader.workers.length ≤ s.reader.markers
  bytes : s.handedOut ++ s.drawing.held ++ s.reader.buffer =
    (s.taken.filterMap Item.frame?).flatten

/-- All frames that were put on the queue are those of entries. -/
theorem IsSteady.exists_encode (hs : s.IsSteady unclosed) :
    ∀ frame ∈ s.frames, ∃ e, Frame.encode e = .ok frame := by
  intro frame hframe
  obtain ⟨item, hitem, heq⟩ := List.mem_filterMap.1 hframe
  cases item with
  | frame id bs =>
      obtain rfl : bs = frame := Option.some.inj heq
      obtain ⟨m, -, r, -, -, hf⟩ := Scene.exists_encode_of_mem hs.sound hitem
      exact ⟨_, hf⟩
  | done | closed => cases heq

/-- All items on the queue come from workers. -/
theorem IsSteady.isProper (hs : s.IsSteady unclosed) :
    ∀ item ∈ s.reader.queue, item.IsProper := by
  intro item hitem
  cases item with
  | frame id bs =>
      obtain ⟨m, -, r, -, -, hf⟩ :=
        Scene.exists_encode_of_mem hs.sound (List.mem_append_right s.taken hitem)
      exact Frame.ne_nil_of_encode hf
  | done id => trivial
  | closed => exact Scene.closed_notMem hs.sound hitem

/-- What workers do and what is appended has nothing to do with calls for bytes. -/
theorem plain_step {m : LogRelay.Move} {scene : Scene} (h : s.toScene.step m = some scene)
    (hm : m ≠ .take) : s.plain.step m = some { scene with reader := scene.reader.plain } ∧
      scene.reader.buffer = s.reader.buffer ∧ scene.reader.isOver = s.reader.isOver := by
  cases m with
  | work i size outage =>
      obtain ⟨w, w', e, hi, hstep, rfl⟩ := Scene.step_work_eq_some.1 h
      exact ⟨Scene.step_work_eq_some.2 ⟨w, w', e, hi, hstep, rfl⟩, rfl,
        by simp [Reader.isOver]⟩
  | append id offset value =>
      obtain ⟨p, hp, hlt, rfl⟩ := Scene.step_append_eq_some.1 h
      exact ⟨Scene.step_append_eq_some.2 ⟨p, hp, hlt, rfl⟩, rfl, rfl⟩
  | take => exact absurd rfl hm

/-- What workers do and what is appended keeps the invariant. -/
theorem IsSteady.outside {m : LogRelay.Move} {scene : Scene} (hs : s.IsSteady unclosed)
    (h : s.toScene.step m = some scene) (hm : m ≠ .take) :
    IsSteady { s with toScene := scene } (unclosed ++ s.toScene.unclosedAt m) := by
  obtain ⟨hplain, hbuffer, hover⟩ := plain_step h hm
  have hlen : scene.reader.workers.length = s.reader.workers.length ∧
      scene.reader.markers = s.reader.markers ∧ scene.taken = s.taken := by
    cases m with
    | work i size outage =>
        obtain ⟨w, w', e, -, -, rfl⟩ := Scene.step_work_eq_some.1 h
        simp
    | append id offset value =>
        obtain ⟨p, -, -, rfl⟩ := Scene.step_append_eq_some.1 h
        simp
    | take => exact absurd rfl hm
  obtain ⟨hworkers, hmarkers, htaken⟩ := hlen
  have hat : s.plain.unclosedAt m = s.toScene.unclosedAt m := by cases m <;> rfl
  constructor
  · exact hs.sound.step hplain
  · rw [← hat]
    exact Scene.announces_step hs.sound.toIsOpen hs.announces hplain
  · exact hs.fits.congr hbuffer hover
  · intro ho
    simp only [hworkers, hmarkers]
    exact hs.isOver (hover ▸ ho)
  · have hbytes := hs.bytes
    rw [← htaken, ← hbuffer] at hbytes
    exact hbytes

/-- A step of a call for bytes takes an item in the scene without such calls, or does nothing there. -/
theorem plain_proceed (hs : s.IsSteady unclosed) (h : s.step .proceed = some s') :
    s'.plain = s.plain ∨ s.plain.step .take = some s'.plain := by
  cases goes_of_step h with
  | proceed hd =>
      rcases hd.queue hs.fits with ⟨rfl, hplain⟩ | ⟨item, queue, rfl, ho, hcons, hplain⟩
      · left
        simp [plain, hplain]
      · right
        have hproper := hs.isProper item (hcons ▸ List.mem_cons_self)
        have hitem : item ≠ .closed := by
          rintro rfl
          exact hproper
        simp only [Reader.isOver, Bool.or_eq_false_iff] at ho
        refine Scene.step_take_eq_some.2 ⟨?_, item, queue, hcons, ?_⟩
        · simp [plain, Reader.plain, Reader.isOver, ho.1.2, ho.2]
        · simp only [plain, hplain]
          simp [Reader.plain, hitem]

/-- Each move keeps the invariant. -/
theorem isSteady_step {m : Move} (hs : s.IsSteady unclosed) (h : s.step m = some s') :
    s'.IsSteady (unclosed ++ s.unclosedAt m) := by
  cases goes_of_step h with
  | work hscene => exact hs.outside hscene (by simp)
  | append hscene => exact hs.outside hscene (by simp)
  | ask hd =>
      simp only [unclosedAt, List.append_nil]
      refine ⟨hs.sound, hs.announces, .asked _, hs.isOver, ?_⟩
      have hheld : s.drawing.held = [] := by
        cases hdrawing : s.drawing with
        | idle | returned => rfl
        | asked | fetching => rw [hdrawing] at hd; cases hd
      have hbytes := hs.bytes
      rw [hheld] at hbytes
      exact hbytes
  | @proceed drawing reader taken hd =>
      simp only [unclosedAt, List.append_nil]
      have hfits := hd.fits hs.fits hs.isProper
      have hover := hd.length_le_markers hs.isProper hs.isOver
      have hbytes : (s.handedOut ++ (drawing.answer?.toList.map Prod.snd).flatten) ++ drawing.held ++
          reader.buffer = ((s.taken ++ taken.toList).filterMap Item.frame?).flatten := by
        rw [List.filterMap_append, List.flatten_append, ← hs.bytes, List.append_assoc s.handedOut,
          List.append_assoc s.handedOut, hd.bytes hs.fits]
        simp only [List.append_assoc]
      rw [handedOut, ← List.flatten_append, ← List.map_append] at hbytes
      -- in the scene without calls nothing happens, or an item is taken
      rcases plain_proceed hs h with heq | htake
      · exact ⟨heq ▸ hs.sound, heq ▸ hs.announces, hfits, hover, hbytes⟩
      · have hannounces := Scene.announces_step hs.sound.toIsOpen hs.announces htake
        simp only [Scene.unclosedAt, List.append_nil] at hannounces
        exact ⟨hs.sound.step htake, hannounces, hfits, hover, hbytes⟩

/-- Each run keeps the invariant. -/
theorem isSteady_run {moves : List Move} (hs : s.IsSteady unclosed) (h : s.run moves = some s') :
    s'.IsSteady (unclosed ++ s.unclosed moves) := by
  induction moves generalizing s unclosed with
  | nil =>
      obtain rfl : s = s' := Option.some.inj h
      rwa [Tap.unclosed, List.append_nil]
  | cons m moves ih =>
      rw [run_cons] at h
      obtain ⟨t, ht, hrun⟩ := Option.bind_eq_some_iff.1 h
      rw [Tap.unclosed, ht, Option.map_some, Option.getD_some, ← List.append_assoc]
      exact ih (isSteady_step hs ht) hrun

theorem isSteady_opened {c : Cluster} {topic : Json} {job : Job} {capacity : Int} {r : Reader}
    (hopen : Reader.opened c topic job capacity = .ok r)
    (hids : ((c.partitions topic).map (·.id)).Nodup)
    (hinc : ∀ p ∈ c.partitions topic, IsIncreasing p.messages) (m : Metrics) :
    (opened c r m).IsSteady [] := by
  have hplain : (opened c r m).plain = Scene.opened c r m := by
    rw [Reader.opened_eq_ok hopen]
    rfl
  constructor
  · rw [hplain]
    exact (Scene.isClean_opened hopen hids hinc m).toIsSound
  · rw [hplain]
    exact Scene.announces_opened hopen m
  · exact .idle
  · rw [Reader.opened_eq_ok hopen]
    intro ho
    simpa [opened, Scene.opened, Reader.isOver, Reader.ofCursors] using ho
  · rw [Reader.opened_eq_ok hopen]
    rfl

/-! ## What the invariant says -/

/-- All frames have been taken if only ends of workers are on the queue. -/
theorem frames_eq_of_isDone (s : Scene) (hq : ∀ item ∈ s.reader.queue, item.isDone = true) :
    s.frames = s.taken.filterMap Item.frame? := by
  have hnone : s.reader.queue.filterMap Item.frame? = [] := by
    rw [List.filterMap_eq_nil_iff]
    intro item hitem
    have hdone := hq item hitem
    cases item with
    | done id => rfl
    | frame | closed => cases hdone
  rw [Scene.frames, List.filterMap_append, hnone, List.append_nil]

/-- The ends of all workers have been put on the queue just if all have ended, and none has failed to
close its consumer. -/
theorem IsSteady.haveFinished_iff (hs : s.IsSteady unclosed) : s.HaveFinished ↔
    ∀ w ∈ s.reader.workers, w.phase = .ended ∧ w.cursor.partition ∉ unclosed := by
  have hmem : ∀ w ∈ s.reader.workers, Item.done w.cursor.partition ∈ s.taken ++ s.reader.queue ↔
      w.phase = .ended ∧ w.cursor.partition ∉ unclosed := by
    intro w hw
    rw [← (hs.announces w hw).mem_iff]
    simp [Scene.itemsOf, plain, Reader.plain, Item.partition?]
  exact forall₂_congr hmem

theorem IsSteady.haveEnded (hs : s.IsSteady unclosed) (h : s.HaveFinished) : s.HaveEnded :=
  fun w hw => (hs.haveFinished_iff.1 h w hw).1

/-- If the reader has taken the ends of all its workers, these have been put on the queue, and all frames
have been taken. -/
theorem IsSteady.haveFinished (hs : s.IsSteady unclosed)
    (h : s.reader.workers.length ≤ s.reader.markers) :
    s.HaveFinished ∧ s.frames = s.taken.filterMap Item.frame? := by
  have hover : s.plain.reader.isOver = true := by
    simp [plain, Reader.plain, Reader.isOver, h]
  obtain ⟨hended, hqueue⟩ := (Scene.next_eq_ended_iff hs.sound hs.announces).1
    (by rw [Reader.next_of_isOver hover])
  exact ⟨hs.haveFinished_iff.2 hended, frames_eq_of_isDone _ hqueue⟩

/-- A reader that is not over and has nothing on its queue has a worker whose end has not been put
there. -/
theorem IsSteady.not_haveFinished (hs : s.IsSteady unclosed) (ho : s.reader.isOver = false)
    (hq : s.reader.queue = []) : ¬ s.HaveFinished := by
  intro hfinished
  have hnext := (Scene.next_eq_ended_iff hs.sound hs.announces).2
    ⟨hs.haveFinished_iff.1 hfinished, by simp [plain, Reader.plain, hq]⟩
  have hplain : s.plain.reader.isOver = false := by
    simp only [Reader.isOver, Bool.or_eq_false_iff] at ho
    simp [plain, Reader.plain, Reader.isOver, ho.1.2, ho.2]
  rw [Reader.next_of_queue_eq_nil hplain hq] at hnext
  cases hnext

/-- The bytes that have been handed out, those that are in hand or left, and those on the queue are
those of all frames. -/
theorem IsSteady.flatten_frames (hs : s.IsSteady unclosed) :
    s.handedOut ++ (s.drawing.held ++ s.reader.buffer ++
      (s.reader.queue.filterMap Item.frame?).flatten) = s.frames.flatten := by
  rw [Scene.frames, List.filterMap_append, List.flatten_append, ← hs.bytes]
  simp only [List.append_assoc]

/-- What a call returns: at most as many bytes as are asked for, and none just if none are asked for or
all frames have been handed out and the ends of the workers put on the queue; or all bytes that there
are, when the ends have been put there. -/
structure Returns (s : Tap) (size : Int) (bs : Bytes) : Prop where
  length_le : 0 ≤ size → (bs.length : Int) ≤ size
  eq_nil_iff : 0 < size → (bs = [] ↔ s.HaveFinished ∧ s.handedOut = s.frames.flatten)
  all : size < 0 → s.HaveFinished ∧ s.handedOut ++ bs = s.frames.flatten

/-- Bytes that are cut off from a part of the stream that has not been handed out. -/
theorem returns_take {size : Int} {rest more : Bytes} (hsize : 0 ≤ size) (hrest : rest ≠ [])
    (h : s.handedOut ++ (rest ++ more) = s.frames.flatten) :
    s.Returns size (rest.take size.toNat) where
  length_le := by
    intro _
    rw [List.length_take]
    omega
  eq_nil_iff := by
    intro hpos
    constructor
    · intro hnil
      rw [List.take_eq_nil_iff] at hnil
      rcases hnil with hzero | hnil
      · omega
      · exact absurd hnil hrest
    · rintro ⟨-, hall⟩
      rw [hall, List.append_right_eq_self, List.append_eq_nil_iff] at h
      exact absurd h.1 hrest
  all := fun hneg => absurd hneg (Int.not_lt.2 hsize)

/-- A call returns what it should. -/
theorem IsSteady.returns (hs : s.IsSteady unclosed) (h : s.step .proceed = some s') {size : Int}
    {bs : Bytes} (hd : s'.drawing = .returned size bs) :
    s.Returns size bs ∧ s'.handedOut = s.handedOut ++ bs := by
  have hbytes := hs.flatten_frames
  have htaken := hs.bytes
  have hfits := hs.fits
  cases goes_of_step h with
  | @proceed drawing reader taken hgoes =>
      obtain rfl : drawing = .returned size bs := hd
      have hout : ((s.answers ++ [(size, bs)]).map Prod.snd).flatten = s.handedOut ++ bs := by
        simp [handedOut]
      refine ⟨?_, hout⟩
      generalize s.drawing = a at hgoes hbytes htaken hfits
      cases hgoes with
      | cutRest hsize hb =>
          simp only [Reader.Drawing.held, List.nil_append] at hbytes
          exact returns_take hsize hb hbytes
      | cut hsize =>
          cases hfits with
          | received hb hg hbs =>
              rw [Reader.Drawing.held, hg hsize, List.nil_append, hb, List.append_nil] at hbytes
              exact returns_take hsize hbs hbytes
      | stop =>
          cases hfits with
          | ended hb hg ho =>
              -- the reader is over, so all frames have been taken and none of them is left in it
              obtain ⟨hfinished, hframes⟩ := hs.haveFinished (hs.isOver ho)
              rw [Reader.Drawing.held, hb, List.append_nil, ← hframes] at htaken
              · constructor
                · intro hsize
                  simpa [hg hsize] using hsize
                · intro hsize
                  rw [hg hsize.le, List.append_nil] at htaken
                  exact ⟨fun _ => ⟨hfinished, htaken⟩, fun _ => hg hsize.le⟩
                · exact fun _ => ⟨hfinished, htaken⟩
              · simp

/-- A call that cannot go on waits, and there is nothing on the queue; then the end of some worker has not
been put there. -/
theorem IsSteady.waits (hs : s.IsSteady unclosed) (hp : s.drawing.isPending = true)
    (h : s.step .proceed = none) :
    s.handedOut ++ s.drawing.held = s.frames.flatten ∧
      (s.drawing.isForAll = false → s.drawing.held = []) ∧ ¬ s.HaveFinished := by
  have hbytes := hs.flatten_frames
  have hfits := hs.fits
  have hnone : s.drawing.step s.reader = none := Option.map_eq_none_iff.1 h
  have hfinished := hs.not_haveFinished
  generalize s.drawing = a at hp hnone hbytes hfits
  cases hfits with
  | idle | returned => cases hp
  | asked | testing | received | ended => cases hnone
  | waiting hb hg ho =>
      simp only [Reader.Drawing.step, Reader.Call.step, Option.map_eq_none_iff,
        Reader.take_eq_none] at hnone
      simp only [hb, hnone, List.filterMap_nil, List.flatten_nil, List.append_nil] at hbytes
      refine ⟨hbytes, ?_, hfinished ho hnone⟩
      intro hfor
      exact hg (by simpa [Reader.Drawing.isForAll] using hfor)

end Tap

/-! ## Calls come to their ends -/

namespace Reader

/-- How many items a call for bytes still takes at most: one for all bytes may take all that are on the
queue, and another one takes ends of workers until it comes to a frame. -/
def backlog (r : Reader) (size : Int) : Nat :=
  if size < 0 then r.queue.length else r.workers.length - r.markers

namespace Drawing

/-- How many steps a call has still to make at most, if no worker puts anything on the queue that it
takes. -/
def left (r : Reader) : Drawing → Nat
  | .asked size => 3 * r.backlog size + 4
  | .fetching size _ (.testing _) => 3 * r.backlog size + 3
  | .fetching size _ (.waiting _) => 3 * r.backlog size + 2
  | .fetching size _ (.returned (.frame _)) => if size < 0 then 3 * r.backlog size + 4 else 1
  | .fetching _ _ (.returned _) => 1
  | _ => 0

variable {r r' : Reader} {a b : Drawing} {taken : Option Item}

/-- Each step of a call leaves it less to do. -/
theorem Goes.left_lt (h : Goes r a b r' taken) (ha : a.Fits r) : b.left r' < a.left r := by
  cases h with
  | gatherRest hs => simp [left, backlog, hs]
  | fetch => simp [left]
  | cutRest => simp [left]
  | gather hs => simp [left, hs]
  | cut hs => simp [left, Int.not_lt.2 hs]
  | stop => simp [left]
  | @call size gathered call call' reader item hc =>
      cases hc with
      | exhaust => simp [left]
      | wait => simp [left]
      | @take timed item queue hcons =>
          cases ha with
          | waiting hb hg ho =>
              simp only [isOver, Bool.or_eq_false_iff, decide_eq_false_iff_not] at ho
              cases item with
              -- a call for all bytes has one item less to take, and another one has got its frame or
              -- has the end of one worker less to come
              | frame id bs | done id =>
                  by_cases hs : size < 0
                  · simp only [Call.receive, left, backlog, hs, if_true, hcons, List.length_cons]
                    omega
                  · simp only [Call.receive, left, backlog, hs, if_false, Item.isDone, if_true]
                    omega
              | closed => simp [Call.receive, left]

/-- What a call that is not for all bytes has to do does not depend on the queue. -/
theorem left_congr (ha : a.isForAll = false) (hw : r'.workers.length = r.workers.length)
    (hm : r'.markers = r.markers) : a.left r' = a.left r := by
  have hbacklog (size : Int) (hsize : ¬ size < 0) : r'.backlog size = r.backlog size := by
    rw [backlog, backlog, if_neg hsize, if_neg hsize, hw, hm]
  cases a with
  | idle | returned => rfl
  | asked size => simp only [left, hbacklog size (by simpa [isForAll] using ha)]
  | fetching size gathered call =>
      have hsame := hbacklog size (by simpa [isForAll] using ha)
      rcases call with _ | _ | _ | (_ | _ | _) <;> simp only [left, hsame]

/-- A call that is not for all bytes takes at most the ends of all workers, and a frame. -/
theorem left_le (ha : a.isForAll = false) : a.left r ≤ 3 * r.workers.length + 4 := by
  have hbacklog (size : Int) (hsize : ¬ size < 0) : r.backlog size ≤ r.workers.length := by
    rw [backlog, if_neg hsize]
    exact Nat.sub_le ..
  cases a with
  | idle | returned => exact Nat.zero_le _
  | asked size =>
      have := hbacklog size (by simpa [isForAll] using ha)
      simp only [left]
      omega
  | fetching size gathered call =>
      have hsize : ¬ size < 0 := by simpa [isForAll] using ha
      have := hbacklog size hsize
      rcases call with _ | _ | _ | (_ | _ | _) <;> simp only [left, hsize, if_false] <;> omega

/-- A call does not become one for all bytes. -/
theorem Goes.isForAll (h : Goes r a b r' taken) (hb : b.isForAll = true) : a.isForAll = true := by
  cases h with
  | gatherRest | fetch | gather => exact hb
  | call => exact hb
  | cutRest | cut | stop => cases hb

end Drawing

end Reader

namespace Tap

variable {s s' : Tap} {unclosed : List Int}

/-- How many steps the call at hand has still to make at most. -/
def left (s : Tap) : Nat :=
  s.drawing.left s.reader

/-- What the call at hand has to do is bounded: it is not one for all bytes, or all workers have
ended. -/
def IsBounded (s : Tap) : Prop :=
  s.drawing.isForAll = false ∨ s.HaveEnded

theorem haveEnded_step {m : Move} (hended : s.HaveEnded) (h : s.step m = some s') :
    s'.HaveEnded := by
  cases goes_of_step h with
  | work hscene =>
      rw [hended.step_work] at hscene
      cases hscene
  | append hscene =>
      obtain ⟨p, -, -, rfl⟩ := Scene.step_append_eq_some.1 hscene
      exact hended
  | ask => exact hended
  | proceed hd =>
      rw [Scene.HaveEnded, hd.workers]
      exact hended

/-- Calls for bytes neither put anything on the queue nor lose an item. -/
theorem items_proceed (hs : s.IsSteady unclosed) (h : s.step .proceed = some s') :
    s'.taken ++ s'.reader.queue = s.taken ++ s.reader.queue := by
  change s'.plain.taken ++ s'.plain.reader.queue = s.plain.taken ++ s.plain.reader.queue
  rcases plain_proceed hs h with heq | htake
  · rw [heq]
  · exact Scene.taken_append_queue_take htake

theorem haveFinished_step {m : Move} (hs : s.IsSteady unclosed) (hfinished : s.HaveFinished)
    (h : s.step m = some s') : s'.HaveFinished := by
  have hitems : m = .proceed → s'.taken ++ s'.reader.queue = s.taken ++ s.reader.queue := by
    rintro rfl
    exact items_proceed hs h
  cases goes_of_step h with
  | work hscene =>
      rw [(hs.haveEnded hfinished).step_work] at hscene
      cases hscene
  | append hscene =>
      obtain ⟨p, -, -, rfl⟩ := Scene.step_append_eq_some.1 hscene
      exact hfinished
  | ask => exact hfinished
  | proceed hd =>
      rw [Scene.HaveFinished, hd.workers, hitems rfl]
      exact hfinished

/-- What a call has to do stays bounded if nobody asks again, and becomes less by each of its steps. -/
theorem left_step {m : Move} (hs : s.IsSteady unclosed) (hb : s.IsBounded)
    (hm : m.isAsk = false) (h : s.step m = some s') :
    s'.IsBounded ∧
      s'.left + (if m.isProceed then 1 else 0) ≤ s.left := by
  have hended (hended : s.HaveEnded) := haveEnded_step hended h
  cases goes_of_step h with
  -- a worker still goes on, so the call is not for all bytes, and what is on the queue does not count
  | work hscene =>
      have hfor : s.drawing.isForAll = false := by
        rcases hb with hb | hb
        · exact hb
        · rw [hb.step_work] at hscene
          cases hscene
      obtain ⟨w, w', e, -, -, rfl⟩ := Scene.step_work_eq_some.1 hscene
      refine ⟨.inl hfor, Eq.le ?_⟩
      exact Reader.Drawing.left_congr (r := s.reader) hfor (by simp) rfl
  | append hscene =>
      obtain ⟨p, -, -, rfl⟩ := Scene.step_append_eq_some.1 hscene
      exact ⟨hb.imp_right hended, le_refl _⟩
  | ask => cases hm
  | proceed hd =>
      refine ⟨hb.imp ?_ hended, hd.left_lt hs.fits⟩
      intro hfor
      by_contra hall
      rw [hd.isForAll (by simpa using hall)] at hfor
      cases hfor

theorem countP_isProceed_le {moves : List Move} (hs : s.IsSteady unclosed)
    (hb : s.IsBounded) (hm : ∀ m ∈ moves, m.isAsk = false) (h : s.run moves = some s') :
    moves.countP Move.isProceed ≤ s.left := by
  induction moves generalizing s unclosed with
  | nil => exact Nat.zero_le _
  | cons m moves ih =>
      rw [run_cons] at h
      obtain ⟨t, ht, hrun⟩ := Option.bind_eq_some_iff.1 h
      obtain ⟨hb', hleft⟩ := left_step hs hb (hm m List.mem_cons_self) ht
      have hrest := ih (isSteady_step hs ht) hb' (fun n hn => hm n (List.mem_cons_of_mem m hn)) hrun
      rw [List.countP_cons]
      omega

/-! ## The stream of frames -/

/-- A move puts at most one more frame behind the others, and only a worker does that. -/
theorem frames_step {m : Move} (hs : s.IsSteady unclosed) (h : s.step m = some s') :
    s.frames <+: s'.frames ∧ (s.HaveEnded → s'.frames = s.frames) := by
  have hframes : m = .proceed → s'.frames = s.frames := by
    rintro rfl
    exact congrArg (List.filterMap Item.frame?) (items_proceed hs h)
  cases goes_of_step h with
  | work hscene =>
      refine ⟨?_, ?_⟩
      · obtain ⟨w, w', e, -, -, rfl⟩ := Scene.step_work_eq_some.1 hscene
        simp only [Scene.frames, ← List.append_assoc]
        exact (List.prefix_append _ _).filterMap _
      · intro hended
        rw [hended.step_work] at hscene
        cases hscene
  | append hscene =>
      obtain ⟨p, -, -, rfl⟩ := Scene.step_append_eq_some.1 hscene
      exact ⟨List.prefix_refl _, fun _ => rfl⟩
  | ask => exact ⟨List.prefix_refl _, fun _ => rfl⟩
  | proceed hd =>
      have heq := hframes rfl
      exact ⟨heq ▸ List.prefix_refl _, fun _ => heq⟩

/-- A move hands out bytes only if a call returns with it. -/
theorem handedOut_step {m : Move} (h : s.step m = some s')
    (hd : m = .proceed → s'.drawing.answer? = none) : s'.handedOut = s.handedOut := by
  cases goes_of_step h with
  | work hscene =>
      obtain ⟨w, w', e, -, -, rfl⟩ := Scene.step_work_eq_some.1 hscene
      rfl
  | append hscene =>
      obtain ⟨p, -, -, rfl⟩ := Scene.step_append_eq_some.1 hscene
      rfl
  | ask => rfl
  | proceed => simp [handedOut, hd rfl]

/-- A call is at hand after a move if somebody asks with it, or if it was at hand before. -/
theorem isPending_step {m : Move} (h : s.step m = some s')
    (hp : s'.drawing.isPending = true ∨ m = .proceed) :
    (∃ size, m = .ask size ∧ s'.drawing = .asked size) ∨
      s.drawing.isPending = true ∧ s'.drawing.size? = s.drawing.size? := by
  cases goes_of_step h with
  | work | append => exact .inr ⟨by simpa using hp, rfl⟩
  | ask => exact .inl ⟨_, rfl, rfl⟩
  | proceed hd => exact .inr ⟨hd.isPending, hd.size?⟩

theorem isPending_eq_step {m : Move} (h : s.step m = some s') (hm : m.isAsk = false)
    (hd : m = .proceed → s'.drawing.answer? = none) :
    s'.drawing.isPending = s.drawing.isPending := by
  cases goes_of_step h with
  | work | append => rfl
  | ask => cases hm
  | proceed hgoes => rw [hgoes.isPending, hgoes.isPending_of_answer? (hd rfl)]

theorem length_workers_step {m : Move} (h : s.step m = some s') :
    s'.reader.workers.length = s.reader.workers.length := by
  cases goes_of_step h with
  | work hscene =>
      obtain ⟨w, w', e, -, -, rfl⟩ := Scene.step_work_eq_some.1 hscene
      exact List.length_set ..
  | append hscene =>
      obtain ⟨p, -, -, rfl⟩ := Scene.step_append_eq_some.1 hscene
      rfl
  | ask => rfl
  | proceed hd => rw [hd.workers]

/-- What holds of the bytes that are read from a reader, after each run: they are a prefix of the stream
of frames, which only grows at its end; a call returns what it should; one that cannot go on waits
because all there is has been handed out, or is in its hand, and the end of some worker has not been put
on the queue; and it makes only so many steps, unless it is one for all bytes and some worker has not
ended.  The ends of all workers have been put there just if all have ended and closed their consumers. -/
structure IsFaithful (s : Tap) (unclosed : List Int) : Prop where
  handedOut : s.handedOut <+: s.frames.flatten
  frames : ∀ {m s'}, s.step m = some s' → s.frames <+: s'.frames
  returns : ∀ {s' size bs}, s.step .proceed = some s' → s'.drawing = .returned size bs →
    s.Returns size bs
  waits : s.drawing.isPending = true → s.step .proceed = none →
    s.handedOut ++ s.drawing.held = s.frames.flatten ∧
      (s.drawing.isForAll = false → s.drawing.held = []) ∧ ¬ s.HaveFinished
  finished : s.HaveFinished ↔
    ∀ w ∈ s.reader.workers, w.phase = .ended ∧ w.cursor.partition ∉ unclosed
  bounded : s.IsBounded → ∃ bound, ∀ moves s', (∀ m ∈ moves, m.isAsk = false) →
    s.run moves = some s' → moves.countP Move.isProceed ≤ bound

theorem IsSteady.isFaithful (hs : s.IsSteady unclosed) : s.IsFaithful unclosed where
  handedOut := by
    rw [← hs.flatten_frames]
    exact List.prefix_append ..
  frames := fun h => (frames_step hs h).1
  returns := fun h hd => (hs.returns h hd).1
  waits := hs.waits
  finished := hs.haveFinished_iff
  bounded := fun hb => ⟨s.left, fun _ _ hm h => countP_isProceed_le hs hb hm h⟩

end Tap

end LogRelay
