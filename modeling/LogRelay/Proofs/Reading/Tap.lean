import LogRelay.Proofs.Reading.Announcement
import LogRelay.Proofs.Reading.Shutdown
/-!
# Reading bytes from a reader

A reader whose workers are at work, and somebody who reads bytes from it, as one system.  A call for
bytes looks at what is left of a frame that was read in part.  If there is something it cuts off as many
bytes as are asked for, and else it asks for a frame, waits for that, and cuts the bytes off from it.  A
call for all bytes, which is one with a negative size, takes what is left and gathers all frames up to
the end.  Between any two of its steps the workers may go on, and messages may be appended.  Nobody
closes the reader.

## Main definitions

* `Reader.Drawing`, `Reader.Drawing.step`: where a call for bytes stands, and its next step.
* `Reader.Drawing.Goes`: what each step of a call leads to.
* `Tap`, `Tap.step`, `Tap.run`: the system, one move, and several of them.

## Main statements

* `goes_of_step`: a move leads to what the rules say.
* `read_eq_run`: a call that only the workers disturb comes to `Reader.read`.
-/
namespace LogRelay

namespace Reader

/-! ## Calls for bytes -/

/-- Where a call for bytes stands. -/
inductive Drawing where
  | idle
  /-- before it looks at what is left of a frame -/
  | asked (size : Int)
  /-- it asks for a frame; if it is to get all bytes, those of `gathered` are there already -/
  | fetching (size : Int) (gathered : Bytes) (call : Call)
  | returned (size : Int) (bs : Bytes)
  deriving DecidableEq

namespace Drawing

/-- Whether the call has begun and not returned. -/
def isPending : Drawing → Bool
  | .asked _ | .fetching .. => true
  | _ => false

/-- The size and the bytes of a call that has returned. -/
def answer? : Drawing → Option (Int × Bytes)
  | .returned size bs => some (size, bs)
  | _ => none

/-- Whether the call is one for all bytes. -/
def isForAll : Drawing → Bool
  | .asked size | .fetching size .. => size < 0
  | _ => false

/-- How many bytes a call asks for, or has asked for. -/
def size? : Drawing → Option Int
  | .idle => none
  | .asked size | .fetching size .. | .returned size _ => some size

/-- The bytes that a call has in hand. -/
def held : Drawing → Bytes
  | .fetching _ gathered (.returned (.frame bs)) => gathered ++ bs
  | .fetching _ gathered _ => gathered
  | _ => []

/-- What becomes of a call when a frame has come: one for all bytes gathers it and asks for the next. -/
def receive (r : Reader) (size : Int) (gathered frame : Bytes) : Drawing × Reader :=
  if size < 0 then (.fetching size (gathered ++ frame) (.testing false), r)
  else
    let (bs, r) := { r with buffer := frame }.cut size.toNat
    (.returned size bs, r)

/-- The next step of a call, and the item that it takes. -/
def step (r : Reader) : Drawing → Option (Drawing × Reader × Option Item)
  | .asked size =>
    some (if size < 0 then
        (.fetching size r.buffer (.testing false), { r with buffer := [] }, none)
      else if r.buffer = [] then (.fetching size [] (.testing false), r, none)
      else
        let (bs, r) := r.cut size.toNat
        (.returned size bs, r, none))
  | .fetching size gathered (.returned (.frame bs)) =>
    let (drawing, r) := receive r size gathered bs
    some (drawing, r, none)
  | .fetching size gathered (.returned .ended) => some (.returned size gathered, r, none)
  | .fetching size gathered call =>
    (call.step r).map fun (call, r, taken) => (.fetching size gathered call, r, taken)
  | .idle | .returned .. => none

/-- What a step of a call leads to. -/
inductive Goes (r : Reader) : Drawing → Drawing → Reader → Option Item → Prop where
  | gatherRest {size : Int} (hs : size < 0) :
      Goes r (.asked size) (.fetching size r.buffer (.testing false)) { r with buffer := [] } none
  | fetch {size : Int} (hs : 0 ≤ size) (hb : r.buffer = []) :
      Goes r (.asked size) (.fetching size [] (.testing false)) r none
  | cutRest {size : Int} (hs : 0 ≤ size) (hb : r.buffer ≠ []) :
      Goes r (.asked size) (.returned size (r.buffer.take size.toNat))
        { r with buffer := r.buffer.drop size.toNat } none
  | call {size : Int} {gathered : Bytes} {a b : Call} {r' : Reader} {taken : Option Item}
      (hc : Call.Goes r a b r' taken) :
      Goes r (.fetching size gathered a) (.fetching size gathered b) r' taken
  | gather {size : Int} {gathered bs : Bytes} (hs : size < 0) :
      Goes r (.fetching size gathered (.returned (.frame bs)))
        (.fetching size (gathered ++ bs) (.testing false)) r none
  | cut {size : Int} {gathered bs : Bytes} (hs : 0 ≤ size) :
      Goes r (.fetching size gathered (.returned (.frame bs))) (.returned size (bs.take size.toNat))
        { r with buffer := bs.drop size.toNat } none
  | stop {size : Int} {gathered : Bytes} :
      Goes r (.fetching size gathered (.returned .ended)) (.returned size gathered) r none

variable {r r' : Reader} {a b : Drawing} {taken : Option Item}

/-- A step follows one of the rules. -/
theorem goes_of_step (h : a.step r = some (b, r', taken)) : Goes r a b r' taken := by
  cases a with
  | asked size =>
      simp only [step, cut] at h
      split_ifs at h with hs hb
      · cases h
        exact .gatherRest hs
      · cases h
        exact .fetch (Int.not_lt.1 hs) hb
      · cases h
        exact .cutRest (Int.not_lt.1 hs) hb
  | fetching size gathered call =>
      rcases call with _ | timed | timed | (bs | _ | _)
      case returned.frame =>
        simp only [step, receive, cut] at h
        split_ifs at h with hs
        · cases h
          exact .gather hs
        · cases h
          exact .cut (Int.not_lt.1 hs)
      case returned.ended =>
        cases h
        exact .stop
      all_goals
        simp only [step, Option.map_eq_some_iff, Prod.exists] at h
        obtain ⟨call, r'', item, hcall, heq⟩ := h
        cases heq
        exact .call (Call.goes_of_step hcall)
  | idle | returned size bs => cases h

theorem Goes.size? (h : Goes r a b r' taken) : b.size? = a.size? := by
  cases h <;> rfl

theorem Goes.isPending (h : Goes r a b r' taken) : a.isPending = true := by
  cases h <;> rfl

/-- After a step a call has returned, or it is still at hand. -/
theorem Goes.isPending_of_answer? (h : Goes r a b r' taken) (hb : b.answer? = none) :
    b.isPending = true := by
  cases h with
  | gatherRest | fetch | call | gather => rfl
  | cutRest | cut | stop => cases hb

theorem Goes.workers (h : Goes r a b r' taken) : r'.workers = r.workers := by
  cases h with
  | call hc => cases hc <;> rfl
  | _ => rfl

theorem Goes.stopping (h : Goes r a b r' taken) : r'.stopping = r.stopping := by
  cases h with
  | call hc => cases hc <;> rfl
  | _ => rfl

end Drawing

end Reader

/-! ## The system -/

/-- A reader from which bytes are read.  `answers` are the sizes and the bytes of the calls that have
returned. -/
structure Tap extends Scene where
  drawing : Reader.Drawing := .idle
  answers : List (Int × Bytes) := []

namespace Reader

/-- A reader whose next frame is to be waited for is not over. -/
theorem isOver_of_next {r r' : Reader} (h : r.next = (.waits, r')) : r'.isOver = false := by
  induction r using Reader.next.induct with
  | case1 r ho => rw [next_of_isOver ho] at h; cases h
  | case2 r ho ht =>
      have ho : r.isOver = false := by simpa using ho
      rw [next_of_queue_eq_nil ho (take_eq_none.1 ht)] at h
      cases h
      exact ho
  | case3 r ho id bs r'' ht => rw [next_of_frame (by simpa using ho) ht] at h; cases h
  | case4 r ho id r'' ht ih =>
      rw [next_of_done (by simpa using ho) ht] at h
      exact ih h
  | case5 r ho r'' ht => rw [next_of_closed (by simpa using ho) ht] at h; cases h

end Reader

namespace Tap

/-- What may happen next. -/
inductive Move where
  /-- the worker of a number makes a step -/
  | work (i size : Nat) (outage : Option Outage)
  /-- a message is appended to a partition -/
  | append (partition : Int) (offset : Option Int) (value : Option Bytes)
  /-- somebody asks for at most `size` bytes, or for all if that is negative -/
  | ask (size : Int)
  /-- the call for bytes makes a step -/
  | proceed

/-- Whether somebody begins to ask for bytes. -/
def Move.isAsk : Move → Bool
  | .ask _ => true
  | _ => false

/-- Whether the call for bytes makes a step. -/
def Move.isProceed : Move → Bool
  | .proceed => true
  | _ => false

/-- The system after a move, if that can be made. -/
def step (s : Tap) : Move → Option Tap
  | .work i size outage =>
    (s.toScene.step (.work i size outage)).map fun scene => { s with toScene := scene }
  | .append id offset value =>
    (s.toScene.step (.append id offset value)).map fun scene => { s with toScene := scene }
  | .ask size => if s.drawing.isPending then none else some { s with drawing := .asked size }
  | .proceed => (s.drawing.step s.reader).map fun (drawing, reader, taken) =>
      { s with
        drawing
        reader
        taken := s.taken ++ taken.toList
        answers := s.answers ++ drawing.answer?.toList }

/-- The system after several moves, if they can be made. -/
def run (s : Tap) (moves : List Move) : Option Tap :=
  moves.foldlM step s

theorem run_cons (s : Tap) (m : Move) (moves : List Move) :
    s.run (m :: moves) = (s.step m).bind (·.run moves) := rfl

/-- A reader that has just been opened. -/
def opened (c : Cluster) (r : Reader) (m : Metrics) : Tap :=
  { Scene.opened c r m with }

/-- The partition whose worker fails to close its consumer at a move, if there is one. -/
def unclosedAt (s : Tap) : Move → List Int
  | .work i size outage => s.toScene.unclosedAt (.work i size outage)
  | _ => []

/-- The partitions whose workers fail to close their consumers in the course of some moves. -/
def unclosed (s : Tap) : List Move → List Int
  | [] => []
  | m :: moves => s.unclosedAt m ++ ((s.step m).map (·.unclosed moves)).getD []

/-- What a move leads to. -/
inductive Goes (s : Tap) : Move → Tap → Prop where
  | work {i size : Nat} {outage : Option Outage} {scene : Scene}
      (h : s.toScene.step (.work i size outage) = some scene) :
      Goes s (.work i size outage) { s with toScene := scene }
  | append {id : Int} {offset : Option Int} {value : Option Bytes} {scene : Scene}
      (h : s.toScene.step (.append id offset value) = some scene) :
      Goes s (.append id offset value) { s with toScene := scene }
  | ask {size : Int} (hd : s.drawing.isPending = false) :
      Goes s (.ask size) { s with drawing := .asked size }
  | proceed {drawing : Reader.Drawing} {reader : Reader} {taken : Option Item}
      (hd : Reader.Drawing.Goes s.reader s.drawing drawing reader taken) :
      Goes s .proceed { s with
        drawing
        reader
        taken := s.taken ++ taken.toList
        answers := s.answers ++ drawing.answer?.toList }

variable {s s' : Tap}

/-- A move leads to what the rules say. -/
theorem goes_of_step {m : Move} (h : s.step m = some s') : s.Goes m s' := by
  cases m with
  | work i size outage =>
      obtain ⟨scene, hscene, rfl⟩ := Option.map_eq_some_iff.1 h
      exact .work hscene
  | append id offset value =>
      obtain ⟨scene, hscene, rfl⟩ := Option.map_eq_some_iff.1 h
      exact .append hscene
  | ask size =>
      simp only [step] at h
      split_ifs at h with hd
      cases h
      exact .ask (by simpa using hd)
  | proceed =>
      obtain ⟨⟨drawing, reader, taken⟩, hdrawing, rfl⟩ := Option.map_eq_some_iff.1 h
      exact .proceed (Reader.Drawing.goes_of_step hdrawing)

/-! ## Calls that only the workers disturb -/

/-- One state can come after another one. -/
def Comes : Tap → Tap → Prop :=
  Relation.ReflTransGen fun s s' => ∃ m, s.step m = some s'

/-- What can come after a state comes after it in a run. -/
theorem exists_run_of_comes (h : s.Comes s') : ∃ moves, s.run moves = some s' := by
  induction h using Relation.ReflTransGen.head_induction_on with
  | refl => exact ⟨[], rfl⟩
  | head h _ ih =>
      obtain ⟨m, hm⟩ := h
      obtain ⟨moves, hrun⟩ := ih
      exact ⟨m :: moves, by rw [run_cons, hm]; exact hrun⟩

theorem step_proceed {drawing : Reader.Drawing} {reader : Reader} {taken : Option Item}
    (h : s.drawing.step s.reader = some (drawing, reader, taken)) :
    s.step .proceed = some { s with
      drawing
      reader
      taken := s.taken ++ taken.toList
      answers := s.answers ++ drawing.answer?.toList } := by
  rw [step, h]
  rfl

/-- Nobody tells the workers to stop. -/
theorem stopping_of_comes (h : s.Comes s') : s'.reader.stopping = s.reader.stopping := by
  induction h with
  | refl => rfl
  | @tail t u _ h ih =>
      obtain ⟨m, hm⟩ := h
      rw [← ih]
      cases goes_of_step hm with
      | work h =>
          obtain ⟨w, w', e, -, -, rfl⟩ := Scene.step_work_eq_some.1 h
          rfl
      | append h =>
          obtain ⟨p, -, -, rfl⟩ := Scene.step_append_eq_some.1 h
          rfl
      | ask => rfl
      | proceed hd => exact hd.stopping

/-- The workers of a reader can make the reader and its counters what is given, all else staying as it
is. -/
structure CanMake (s : Tap) (state : Reader × Metrics) : Prop where
  comes : s.Comes { s with reader := state.1, metrics := state.2 }
  isOver : state.1.isOver = s.reader.isOver

theorem canMake_stepWorker {state : Reader × Metrics} {r : Reader} {m : Metrics} {i : Nat}
    {w : Worker} (hs : s.reader.stopping = false) (hc : s.CanMake (r, m))
    (hi : r.workers[i]? = some w) (h : r.stepWorker i (r.calm s.cluster w) m = some state) :
    s.CanMake state := by
  obtain ⟨hcomes, hover⟩ := hc
  have hcalm : r.calm s.cluster w = r.surroundings s.cluster w s.cluster.batch := by
    have hgoing : r.stopping = false := (stopping_of_comes hcomes).trans hs
    simp [Reader.calm, Reader.surroundings, hgoing]
  rw [hcalm] at h
  constructor
  · let outage := (r.surroundings s.cluster w s.cluster.batch).outage
    refine hcomes.tail ⟨.work i s.cluster.batch outage, ?_⟩
    simp [step, Scene.step, Scene.surroundings, hi, h, outage]
  · rw [Reader.stepWorker, hi] at h
    obtain ⟨_, -, rfl⟩ := Option.map_eq_some_iff.1 h
    rw [← hover]
    simp [Reader.isOver]

theorem canMake_settle (hs : s.reader.stopping = false) :
    s.CanMake (s.reader.settle s.cluster s.metrics) :=
  Reader.settle_induction (fun hc hi hstep => canMake_stepWorker hs hc hi hstep) ⟨.refl, rfl⟩

/-- The system while a call for bytes, which stands where it is said, asks for a frame. -/
def during (s : Tap) (drawing : Reader.Drawing) (state : Reader × Metrics) (taken : List Item) :
    Tap :=
  { s with reader := state.1, metrics := state.2, drawing, taken }

section

variable {size : Int} {r : Reader} {m : Metrics}

/-- A call for bytes makes a step with which it does not return. -/
theorem comes_step {drawing drawing' : Reader.Drawing} {r' : Reader} {item : Option Item}
    (h : drawing.step r = some (drawing', r', item)) (hd : drawing'.answer? = none) (s : Tap)
    (m : Metrics) (taken : List Item) :
    (s.during drawing (r, m) taken).Comes (s.during drawing' (r', m) (taken ++ item.toList)) := by
  refine .single ⟨.proceed, (step_proceed (s := s.during drawing (r, m) taken) h).trans ?_⟩
  simp [during, hd]

/-- A call for a frame that is part of a call for bytes makes its own steps. -/
theorem comes_of_comesTo {a b : Reader.Call} {r' : Reader} {items items' : List Item}
    (h : Reader.Call.ComesTo b r' items' a r items) (s : Tap) (size : Int) (gathered : Bytes)
    (m : Metrics) : (s.during (.fetching size gathered a) (r, m) items).Comes
      (s.during (.fetching size gathered b) (r', m) items') := by
  induction h with
  | refl => exact .refl
  | @step a c r r'' item items hstep _ ih =>
      have hdrawing : (Reader.Drawing.fetching size gathered a).step r =
          some (.fetching size gathered c, r'', item) := by
        cases a with
        | idle | returned answer => cases hstep
        | testing timed | waiting timed => simp [Reader.Drawing.step, hstep]
      exact (comes_step hdrawing rfl s m items).trans ih

/-- A call for a frame that is part of a call for bytes comes to `Reader.pull` if only the workers
disturb it. -/
theorem comes_pull (hs : r.stopping = false) (s : Tap) (size : Int) (gathered : Bytes) (m : Metrics)
    (taken : List Item) : ∃ taken',
    (s.during (.fetching size gathered (.testing false)) (r, m) taken).Comes
      (s.during (.fetching size gathered (.resting false (r.pull s.cluster m).1))
        (r.pull s.cluster m).2 taken') := by
  obtain ⟨taken', hfirst⟩ := Reader.Call.comesTo_next (r := r) false (.inl rfl) taken
  have hnext := comes_of_comesTo hfirst s size gathered m
  have hgoing := (stopping_of_comes hnext).trans hs
  obtain ⟨hsettled, hover⟩ := canMake_settle hgoing
  have hcomes := hnext.trans hsettled
  rw [Reader.pull]
  split
  -- the call waits, so the workers come to their rest before it looks once more
  · rename_i r' hr
    rw [hr] at hcomes hover hsettled
    have hwaiting : (r'.settle s.cluster m).1.isOver = false :=
      hover.trans (Reader.isOver_of_next hr)
    obtain ⟨taken'', hsecond⟩ := Reader.Call.comesTo_next false (.inr ⟨rfl, hwaiting⟩) taken'
    have hagain := comes_of_comesTo hsecond s size gathered (r'.settle s.cluster m).2
    have hgoing' := (stopping_of_comes (hcomes.trans hagain)).trans hs
    exact ⟨taken'', (hcomes.trans hagain).trans (canMake_settle hgoing').comes⟩
  · rename_i answer r' hne hr
    rw [hr] at hcomes
    exact ⟨_, hcomes⟩

/-- A call for bytes that only the workers disturb comes to `bs` and `answer`: it returns them, or it
has them in hand and waits for more. -/
def ComesTo (s : Tap) (size : Int) (bs : Bytes) (answer : Reader.Answer)
    (state : Reader × Metrics) : Prop :=
  ∃ s', s.Comes s' ∧ s'.reader = state.1 ∧ s'.metrics = state.2 ∧
    if answer = .waits then
      s'.drawing.isPending = true ∧ s'.drawing.held = bs ∧ s'.answers = s.answers
    else s'.drawing = .returned size bs ∧ s'.answers = s.answers ++ [(size, bs)]

theorem ComesTo.head {t : Tap} {bs : Bytes} {answer : Reader.Answer} {state : Reader × Metrics}
    (ht : t.ComesTo size bs answer state) (h : s.Comes t) (ha : t.answers = s.answers) :
    s.ComesTo size bs answer state := by
  obtain ⟨s', hcomes, hr, hm, hdrawing⟩ := ht
  rw [ha] at hdrawing
  exact ⟨s', h.trans hcomes, hr, hm, hdrawing⟩

theorem comesTo_returned {drawing : Reader.Drawing} {r' : Reader} {bs : Bytes}
    {answer : Reader.Answer} (h : drawing.step r = some (.returned size bs, r', none))
    (ha : answer ≠ .waits) (s : Tap) (m : Metrics) (taken : List Item) :
    (s.during drawing (r, m) taken).ComesTo size bs answer (r', m) := by
  have hstep := step_proceed (s := s.during drawing (r, m) taken) h
  refine ⟨_, .single ⟨.proceed, hstep⟩, rfl, rfl, ?_⟩
  rw [if_neg ha]
  exact ⟨rfl, rfl⟩

/-- A call for all bytes that only the workers disturb comes to `Reader.pullAll`. -/
theorem comesTo_pullAll (hs : r.stopping = false) (hsize : size < 0) (s : Tap) (gathered : Bytes)
    (m : Metrics) (taken : List Item) (fuel : Nat) (read : List Bytes) :
    ∃ frames answer state, Reader.pullAll s.cluster fuel (r, m) read =
      (read.reverse ++ frames, answer, state) ∧
        (s.during (.fetching size gathered (.testing false)) (r, m) taken).ComesTo size
          (gathered ++ frames.flatten) answer state := by
  -- of what `pullAll` gathers in reverse the call has the bytes
  induction fuel generalizing r gathered m taken read with
  | zero =>
      refine ⟨[], .waits, (r, m), by rw [Reader.pullAll, List.append_nil], _, .refl, rfl, rfl, ?_⟩
      simp [during, Reader.Drawing.isPending, Reader.Drawing.held]
  | succ fuel ih =>
      obtain ⟨taken', hpull⟩ := comes_pull hs s size gathered m taken
      have hgoing := (stopping_of_comes hpull).trans hs
      rw [Reader.pullAll]
      cases hr : r.pull s.cluster m with
      | mk answer state =>
          rw [hr] at hpull hgoing
          cases answer with
          | frame bs =>
              obtain ⟨frames, answer, state', heq, hcomes⟩ :=
                ih (r := state.1) hgoing (gathered ++ bs) state.2 taken' (bs :: read)
              have hgather : (Reader.Drawing.fetching size gathered (.returned (.frame bs))).step
                  state.1 = some (.fetching size (gathered ++ bs) (.testing false), state.1, none) := by
                simp [Reader.Drawing.step, Reader.Drawing.receive, hsize]
              have hnext := hpull.trans (comes_step hgather rfl s state.2 taken')
              rw [Option.toList_none, List.append_nil] at hnext
              refine ⟨bs :: frames, answer, state', ?_, ?_⟩
              · simpa using heq
              · rw [List.flatten_cons, ← List.append_assoc]
                exact hcomes.head hnext rfl
          | ended =>
              refine ⟨[], .ended, state, by simp, ?_⟩
              rw [List.flatten_nil, List.append_nil]
              exact (comesTo_returned rfl (by simp) s state.2 taken').head hpull rfl
          | waits =>
              refine ⟨[], .waits, state, by simp, _, hpull, rfl, rfl, ?_⟩
              simp [during, Reader.Call.resting, Reader.Drawing.isPending, Reader.Drawing.held]

theorem during_self {drawing : Reader.Drawing} (hd : s.drawing = drawing) :
    s.during drawing (s.reader, s.metrics) s.taken = s := by
  rw [← hd]
  rfl

/-- A call for all bytes that only the workers disturb comes to `Reader.readAll`. -/
theorem comesTo_readAll (hd : s.drawing = .asked size) (hs : s.reader.stopping = false)
    (hsize : size < 0) : ∃ bs answer state,
      s.reader.readAll s.cluster s.metrics = (bs, answer, state) ∧
        s.ComesTo size bs answer state := by
  have hbegin : (Reader.Drawing.asked size).step s.reader = some
      (.fetching size s.reader.buffer (.testing false), { s.reader with buffer := [] }, none) := by
    rw [Reader.Drawing.step, if_pos hsize]
  have hnext := comes_step hbegin rfl s s.metrics s.taken
  rw [during_self hd, Option.toList_none, List.append_nil] at hnext
  obtain ⟨frames, answer, state, heq, hcomes⟩ :=
    comesTo_pullAll (r := { s.reader with buffer := [] }) hs hsize s s.reader.buffer s.metrics
      s.taken (Reader.framesEnough s.cluster { s.reader with buffer := [] }) []
  rw [List.reverse_nil, List.nil_append] at heq
  refine ⟨s.reader.buffer ++ frames.flatten, answer, state, ?_, hcomes.head hnext rfl⟩
  simp [Reader.readAll, Reader.frames, heq]

/-- A call for so many bytes that only the workers disturb comes to `Reader.readUpTo`. -/
theorem comesTo_readUpTo (hd : s.drawing = .asked size) (hs : s.reader.stopping = false)
    (hsize : ¬ size < 0) : ∃ bs answer state,
      s.reader.readUpTo s.cluster size.toNat s.metrics = (bs, answer, state) ∧
        s.ComesTo size bs answer state := by
  rw [Reader.readUpTo]
  by_cases hb : s.reader.buffer = []
  · have hfetch : (Reader.Drawing.asked size).step s.reader = some
        (.fetching size [] (.testing false), s.reader, none) := by
      rw [Reader.Drawing.step, if_neg hsize, if_pos hb]
    obtain ⟨taken, hpull⟩ := comes_pull hs s size [] s.metrics (s.taken ++ [])
    have hnext := (comes_step hfetch rfl s s.metrics s.taken).trans hpull
    rw [during_self hd] at hnext
    rw [if_neg (by simpa using hb)]
    cases hr : s.reader.pull s.cluster s.metrics with
    | mk answer state =>
        rw [hr] at hnext
        cases answer with
        | frame frame =>
            have hcut : (Reader.Drawing.fetching size [] (.returned (.frame frame))).step state.1 =
                some (.returned size (frame.take size.toNat),
                  { state.1 with buffer := frame.drop size.toNat }, none) := by
              simp [Reader.Drawing.step, Reader.Drawing.receive, Reader.cut, hsize]
            exact ⟨_, _, _, rfl, (comesTo_returned hcut (by simp) s state.2 taken).head hnext rfl⟩
        | ended =>
            exact ⟨_, _, _, rfl, (comesTo_returned rfl (by simp) s state.2 taken).head hnext rfl⟩
        | waits => exact ⟨_, _, _, rfl, _, hnext, rfl, rfl, rfl, rfl, rfl⟩
  · have hcut : (Reader.Drawing.asked size).step s.reader = some
        (.returned size (s.reader.buffer.take size.toNat),
          { s.reader with buffer := s.reader.buffer.drop size.toNat }, none) := by
      rw [Reader.Drawing.step, if_neg hsize, if_neg hb, Reader.cut]
    have hanswer : Reader.Answer.frame (s.reader.buffer.take size.toNat) ≠ .waits := by simp
    have hreturned := comesTo_returned hcut hanswer s s.metrics s.taken
    rw [during_self hd] at hreturned
    rw [if_pos hb]
    exact ⟨_, _, _, rfl, hreturned⟩

/-- A call for bytes that only the workers disturb comes to `Reader.read`. -/
theorem read_eq_run (hd : s.drawing = .asked size) (hs : s.reader.stopping = false)
    (hc : s.reader.closed = false) : ∃ bs answer state,
      s.reader.read s.cluster size s.metrics = (.ok (bs, answer), state) ∧
        s.ComesTo size bs answer state := by
  rw [Reader.read, hc, if_neg Bool.false_ne_true]
  by_cases hsize : size < 0
  · obtain ⟨bs, answer, state, heq, hcomes⟩ := comesTo_readAll hd hs hsize
    rw [if_pos hsize, heq]
    exact ⟨bs, answer, state, rfl, hcomes⟩
  · obtain ⟨bs, answer, state, heq, hcomes⟩ := comesTo_readUpTo hd hs hsize
    rw [if_neg hsize, heq]
    exact ⟨bs, answer, state, rfl, hcomes⟩

end

end Tap

end LogRelay
