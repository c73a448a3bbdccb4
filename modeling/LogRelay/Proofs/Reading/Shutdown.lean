import LogRelay.Proofs.Reading.Delivery
import LogRelay.Reading.Schedule
/-!
# Closing a reader that is in use

A reader, its workers, a call for a frame and calls that close the reader, as one system in which all
of them go by steps that come in any order.  A worker that has something for the queue looks first
whether it is told to stop, and then waits for room; what it is told in between it sees only after
that.  A call for a frame looks whether the reader is over and then takes an item or waits for one, so
the reader can be closed while it waits.  A call that closes the reader marks it, unless another call
has, tells the workers to stop, waits for them for some time, empties the queue item by item, leaves a
mark there if there is room, and looks which workers are alive; it looks at all of them in one step.

## Main definitions

* `Reader.Call`, `Reader.Closing`: where a call for a frame and a call that closes the reader stand.
* `Reader.Call.ComesTo`: where a call for a frame comes to if nobody disturbs it.
* `Shutdown`, `Shutdown.step`, `Shutdown.run`: the system, one move, and several of them.
* `Shutdown.Goes`: what each move leads to.

## Main statements

* `goes_of_step`: a move leads to what the rules say.
* `reaches_of_work`: what the workers do in a `Scene` they can do here.
* `next_eq_run`, `close_eq_run`: calls that nobody disturbs come to `Reader.next` and `Reader.close`.
-/
namespace LogRelay

open Worker (Transition)

namespace Reader

/-! ## Calls for a frame -/

/-- Where a call for a frame stands.  One that is `timed` waits for a limited time only. -/
inductive Call where
  | idle
  /-- before the test whether the reader is over -/
  | testing (timed : Bool)
  | waiting (timed : Bool)
  | returned (answer : Answer)
  deriving DecidableEq

namespace Call

/-- Whether the call has begun and not returned. -/
def isPending : Call → Bool
  | .testing _ | .waiting _ => true
  | _ => false

/-- Whether the call waits for an item. -/
def isWaiting : Call → Bool
  | .waiting _ => true
  | _ => false

/-- What a call comes to with an item from the queue. -/
def receive (timed : Bool) : Item → Call
  | .frame _ bs => .returned (.frame bs)
  | .done _ => .testing timed
  | .closed => .returned .ended

/-- The next step of a call, and the item that it takes. -/
def step (r : Reader) : Call → Option (Call × Reader × Option Item)
  | .testing timed =>
    some (if r.isOver then (.returned .ended, { r with exhausted := true }, none)
      else (.waiting timed, r, none))
  | .waiting timed => r.take.map fun (item, r) => (receive timed item, r, some item)
  | _ => none

/-- What a step of a call leads to. -/
inductive Goes (r : Reader) : Call → Call → Reader → Option Item → Prop where
  | exhaust {timed : Bool} (ho : r.isOver = true) :
      Goes r (.testing timed) (.returned .ended) { r with exhausted := true } none
  | wait {timed : Bool} (ho : r.isOver = false) : Goes r (.testing timed) (.waiting timed) r none
  | take {timed : Bool} {item : Item} {queue : List Item} (hq : r.queue = item :: queue) :
      Goes r (.waiting timed) (receive timed item)
        { r with
          queue
          markers := r.markers + if item.isDone then 1 else 0
          exhausted := r.exhausted || item = .closed } (some item)

variable {r r' : Reader} {a b : Call} {taken : Option Item}

/-- A step follows one of the rules. -/
theorem goes_of_step (h : a.step r = some (b, r', taken)) : Goes r a b r' taken := by
  cases a with
  | testing timed =>
      cases ho : r.isOver with
      | true =>
          simp only [step, ho, if_true] at h
          cases h
          exact .exhaust ho
      | false =>
          simp only [step, ho, Bool.false_eq_true, if_false] at h
          cases h
          exact .wait ho
  | waiting timed =>
      obtain ⟨⟨item, r''⟩, ht, heq⟩ := Option.map_eq_some_iff.1 h
      obtain ⟨queue, hq, rfl⟩ := take_eq_some.1 ht
      cases heq
      exact .take hq
  | idle | returned answer => cases h

/-- Where a call rests with an answer: it waits, or it has returned. -/
def resting (timed : Bool) : Answer → Call
  | .waits => .waiting timed
  | answer => .returned answer

/-- By its own steps alone a call comes to where it stands in the end.  `items` are all items that have
been taken. -/
inductive ComesTo (b : Call) (r' : Reader) (items' : List Item) :
    Call → Reader → List Item → Prop where
  | refl : ComesTo b r' items' b r' items'
  | step {a c : Call} {r r'' : Reader} {item : Option Item} {items : List Item}
      (h : a.step r = some (c, r'', item))
      (hrest : ComesTo b r' items' c r'' (items ++ item.toList)) : ComesTo b r' items' a r items

/-- A call of a reader that is not over comes to where it comes to from waiting. -/
theorem ComesTo.of_waiting {timed : Bool} {items items' : List Item}
    (h : ComesTo b r' items' (.waiting timed) r items) (ho : r.isOver = false)
    (hc : a = .testing timed ∨ a = .waiting timed) : ComesTo b r' items' a r items := by
  rcases hc with rfl | rfl
  · have hwait : (Call.testing timed).step r = some (.waiting timed, r, none) := by
      rw [Call.step, if_neg (by simp [ho])]
    exact .step hwait (by simpa using h)
  · exact h

/-- A call for a frame that nobody disturbs comes to `Reader.next`. -/
theorem comesTo_next (timed : Bool)
    (hc : a = .testing timed ∨ a = .waiting timed ∧ r.isOver = false) (items : List Item) :
    ∃ items', ComesTo (resting timed r.next.1) r.next.2 items' a r items := by
  induction r using Reader.next.induct generalizing a items with
  | case1 r ho =>
      rcases hc with rfl | ⟨-, hnot⟩
      · have hstop : (Call.testing timed).step r =
            some (.returned .ended, { r with exhausted := true }, none) := by
          rw [Call.step, if_pos ho]
        rw [next_of_isOver ho]
        exact ⟨_, .step hstop .refl⟩
      · rw [hnot] at ho
        cases ho
  | case2 r ho ht =>
      have ho : r.isOver = false := by simpa using ho
      rw [next_of_queue_eq_nil ho (take_eq_none.1 ht)]
      exact ⟨_, .of_waiting .refl ho (hc.imp_right And.left)⟩
  | case3 r ho id bs r' ht =>
      have ho : r.isOver = false := by simpa using ho
      have htake : (Call.waiting timed).step r =
          some (.returned (.frame bs), r', some (.frame id bs)) := by
        rw [Call.step, ht]
        rfl
      rw [next_of_frame ho ht]
      exact ⟨_, .of_waiting (.step htake .refl) ho (hc.imp_right And.left)⟩
  | case4 r ho id r' ht ih =>
      have ho : r.isOver = false := by simpa using ho
      have htake : (Call.waiting timed).step r = some (.testing timed, r', some (.done id)) := by
        rw [Call.step, ht]
        rfl
      obtain ⟨items', hrest⟩ := ih (.inl rfl) (items ++ [.done id])
      rw [next_of_done ho ht]
      exact ⟨items', .of_waiting (.step htake hrest) ho (hc.imp_right And.left)⟩
  | case5 r ho r' ht =>
      have ho : r.isOver = false := by simpa using ho
      have htake : (Call.waiting timed).step r = some (.returned .ended, r', some .closed) := by
        rw [Call.step, ht]
        rfl
      rw [next_of_closed ho ht]
      exact ⟨_, .of_waiting (.step htake .refl) ho (hc.imp_right And.left)⟩

end Call

/-! ## Calls that close the reader -/

/-- Where a call that closes the reader stands. -/
inductive Closing where
  | called
  /-- it has marked the reader -/
  | marked
  /-- it has told the workers to stop, and waits for them -/
  | joining
  | draining
  | posting
  /-- before it looks which workers are alive -/
  | looking
  | returned (answer : Except Failure Unit)
  /-- it has returned because another call had marked the reader -/
  | turnedAway

namespace Closing

/-- Whether it is this call that has marked the reader. -/
def isFirst : Closing → Bool
  | .called | .turnedAway => false
  | _ => true

/-- Whether the call has told the workers to stop. -/
def hasSignalled : Closing → Bool
  | .called | .turnedAway | .marked => false
  | _ => true

/-- Whether the call has left its mark on the queue, or found no room there. -/
def hasPosted : Closing → Bool
  | .looking | .returned _ => true
  | _ => false

/-- What the call has answered, if it has returned. -/
def answer? : Closing → Option (Except Failure Unit)
  | .returned answer => some answer
  | .turnedAway => some (.ok ())
  | _ => none

/-- The next step of a call, and the item that it throws away.  The look at the workers with which a
call ends is one step, although they are asked one after the other. -/
def step (r : Reader) : Closing → Option (Closing × Reader × Option Item)
  | .called =>
    some (match r.markClosed with
      | none => (.turnedAway, r, none)
      | some r => (.marked, r, none))
  | .marked => some (.joining, r.signal, none)
  | .joining => some (.draining, r, none)
  | .draining =>
    some (match r.queue with
      | [] => (.posting, r, none)
      | item :: queue => (.draining, { r with queue }, some item))
  | .posting => some (.looking, r.markEnd, none)
  | .looking => some (.returned r.closeAnswer, r, none)
  | .returned _ | .turnedAway => none

/-- What a step of a call leads to. -/
inductive Goes (r : Reader) : Closing → Closing → Reader → Option Item → Prop where
  | mark (hc : r.closed = false) : Goes r .called .marked { r with closed := true } none
  | turnAway (hc : r.closed = true) : Goes r .called .turnedAway r none
  | signal : Goes r .marked .joining { r with stopping := true } none
  | stopJoining : Goes r .joining .draining r none
  | discard {item : Item} {queue : List Item} (hq : r.queue = item :: queue) :
      Goes r .draining .draining { r with queue } (some item)
  | drained (hq : r.queue = []) : Goes r .draining .posting r none
  | post (hr : r.hasRoom = true) :
      Goes r .posting .looking { r with queue := r.queue ++ [.closed] } none
  /-- the queue is full, and no mark is left there -/
  | full (hr : r.hasRoom = false) : Goes r .posting .looking r none
  | look : Goes r .looking (.returned r.closeAnswer) r none

variable {r r' : Reader} {a b : Closing} {dropped : Option Item}

/-- A step follows one of the rules. -/
theorem goes_of_step (h : a.step r = some (b, r', dropped)) : Goes r a b r' dropped := by
  cases a with
  | called =>
      simp only [step, markClosed] at h
      split at h <;> rename_i hm
      · cases h
        exact .turnAway (by simpa using hm)
      · cases h
        split at hm
        · cases hm
        · rename_i hc
          cases hm
          exact .mark (by simpa using hc)
  | marked => cases h; exact .signal
  | joining => cases h; exact .stopJoining
  | draining =>
      simp only [step] at h
      split at h <;> rename_i hq
      · cases h; exact .drained hq
      · cases h; exact .discard hq
  | posting =>
      simp only [step, markEnd] at h
      split_ifs at h with hr
      · cases h; exact .post hr
      · cases h; exact .full (by simpa using hr)
  | looking => cases h; exact .look
  | returned answer | turnedAway => cases h

/-- A call that has not returned can always go on. -/
theorem step_isSome (h : a.answer? = none) : (a.step r).isSome := by
  cases a with
  | returned answer | turnedAway => cases h
  | _ => rfl

end Closing

/-! ## Workers that are left alone -/

section

variable {c : Cluster} {P : Reader × Metrics → Prop}

/-- What is kept by each step of a worker that is left alone is kept while it goes on. -/
theorem runWorker_induction
    (hstep : ∀ {r m i w state}, P (r, m) → r.workers[i]? = some w →
      r.stepWorker i (r.calm c w) m = some state → P state)
    {state : Reader × Metrics} (h : P state) (goesOn : Worker → Bool) (i fuel : Nat) :
    P (runWorker c goesOn i fuel state) := by
  induction fuel generalizing state with
  | zero => exact h
  | succ fuel ih =>
      rw [runWorker]
      split
      · exact h
      · rename_i w hi
        simp only
        split_ifs
        · exact h
        · split
          · exact h
          · rename_i state hnext
            exact ih (hstep h hi hnext)

theorem runAll_induction
    (hstep : ∀ {r m i w state}, P (r, m) → r.workers[i]? = some w →
      r.stepWorker i (r.calm c w) m = some state → P state)
    {state : Reader × Metrics} (h : P state) (fuel : Nat) (numbers : List Nat) :
    P (runAll c fuel numbers state) := by
  induction numbers generalizing state with
  | nil => exact h
  | cons i numbers ih =>
      rw [runAll]
      split_ifs
      · exact runWorker_induction hstep h _ i fuel
      · exact ih (runWorker_induction hstep h _ i fuel)

/-- What is kept by each step of a worker that is left alone is kept until all workers wait. -/
theorem settle_induction {r : Reader} {m : Metrics}
    (hstep : ∀ {r m i w state}, P (r, m) → r.workers[i]? = some w →
      r.stepWorker i (r.calm c w) m = some state → P state)
    (h : P (r, m)) : P (r.settle c m) := by
  rw [settle]
  apply runAll_induction hstep
  exact List.foldlRecOn _ _ h fun _ h i _ => runWorker_induction hstep h _ i _

end

/-- Whether the worker of a number has something for the queue and is not told to stop. -/
def comesToPut (r : Reader) (i : Nat) : Bool :=
  r.workers[i]?.any wantsRoom && !r.stopping

end Reader

namespace Worker

/-- Only a worker that wants room and is not told to stop puts something on the queue. -/
theorem put_eq_none {j : Job} {o : Surroundings} {w w' : Worker} {e : Effect}
    (h : Transition j o w w' e) (hr : Reader.wantsRoom w = true → o.stopping = true) :
    e.put = none := by
  cases h with
  | offer hp hs hroom | announce hp hs hroom =>
      rw [hr (by simp [Reader.wantsRoom, hp])] at hs
      cases hs
  | _ => rfl

/-- What a worker that wants room and is not told to stop does depends on nothing but room. -/
theorem step_of_wantsRoom {j : Job} {o : Surroundings} {w : Worker} {result : Worker × Effect}
    (hw : Reader.wantsRoom w = true) (hs : o.stopping = false) (h : w.step j o = some result) :
    o.hasRoom = true ∧ w.step j { stopping := false, hasRoom := true } = some result := by
  rw [step] at h ⊢
  cases hp : w.phase with
  | offering frame batch | announcing =>
      simp only [hp, hs, Bool.false_eq_true, if_false] at h ⊢
      split_ifs at h with hroom
      exact ⟨hroom, h⟩
  | _ => simp [Reader.wantsRoom, hp] at hw

end Worker

/-! ## The system -/

/-- A reader that is in use.  `putting` are the workers that have found that they are not told to stop
and are about to put something on the queue, `dropped` are the items that were thrown away. -/
structure Shutdown extends Scene where
  putting : List Nat := []
  call : Reader.Call := .idle
  closings : List Reader.Closing := []
  dropped : List Item := []

namespace Shutdown

/-- What may happen next. -/
inductive Move where
  /-- the worker of a number makes a step that puts nothing on the queue -/
  | work (i size : Nat) (outage : Option Outage)
  /-- a worker with something for the queue finds that it is not told to stop -/
  | approach (i : Nat)
  | put (i : Nat)
  /-- a worker finds no room on the queue for some time -/
  | giveUp (i : Nat)
  /-- a message is appended to a partition -/
  | append (partition : Int) (offset : Option Int) (value : Option Bytes)
  /-- somebody asks for a frame -/
  | ask (timed : Bool)
  /-- the call for a frame makes a step -/
  | proceed
  /-- the call for a frame has waited long enough -/
  | timeOut
  /-- somebody closes the reader -/
  | close
  /-- the call of a number that closes the reader makes a step -/
  | closing (k : Nat)

/-- The system after a move, if that can be made. -/
def step (s : Shutdown) : Move → Option Shutdown
  | .work i size outage =>
    if i ∈ s.putting ∨ s.reader.comesToPut i = true then none
    else (s.toScene.step (.work i size outage)).map fun scene => { s with toScene := scene }
  | .approach i =>
    if i ∉ s.putting ∧ s.reader.comesToPut i = true then
      some { s with putting := i :: s.putting }
    else none
  | .put i =>
    if i ∈ s.putting ∧ s.reader.hasRoom = true then
      (s.reader.stepWorker i { stopping := false, hasRoom := true } s.metrics).map
        fun (reader, metrics) => { s with reader, metrics, putting := s.putting.erase i }
    else none
  | .giveUp i =>
    if i ∈ s.putting ∧ s.reader.hasRoom = false then
      some { s with putting := s.putting.erase i }
    else none
  | .append id offset value =>
    (s.toScene.step (.append id offset value)).map fun scene => { s with toScene := scene }
  | .ask timed => if s.call.isPending then none else some { s with call := .testing timed }
  | .proceed => (s.call.step s.reader).map fun (call, reader, taken) =>
      { s with call, reader, taken := s.taken ++ taken.toList }
  | .timeOut =>
    if s.call = .waiting true ∧ s.reader.queue = [] then some { s with call := .returned .waits }
    else none
  | .close => some { s with closings := s.closings ++ [.called] }
  | .closing k =>
    match s.closings[k]? with
    | none => none
    | some closing => (closing.step s.reader).map fun (closing, reader, dropped) =>
      { s with
        reader
        closings := s.closings.set k closing
        dropped := s.dropped ++ dropped.toList }

/-- The system after several moves, if they can be made. -/
def run (s : Shutdown) (moves : List Move) : Option Shutdown :=
  moves.foldlM step s

theorem run_cons (s : Shutdown) (m : Move) (moves : List Move) :
    s.run (m :: moves) = (s.step m).bind (·.run moves) := rfl

theorem run_append (s : Shutdown) (moves more : List Move) :
    s.run (moves ++ more) = (s.run moves).bind (·.run more) :=
  List.foldlM_append

/-- What is kept by each move is kept by a run. -/
theorem run_induction {P : Shutdown → Prop} {s s' : Shutdown} {moves : List Move}
    (hstep : ∀ s m s', P s → s.step m = some s' → P s') (hs : P s)
    (h : s.run moves = some s') : P s' :=
  foldlM_induction (fun s m s' hs (_ : True) => hstep s m s' hs) hs (fun _ _ => trivial) h

/-! ## What each move leads to -/

/-- What a move leads to. -/
inductive Goes (s : Shutdown) : Move → Shutdown → Prop where
  | work {i size : Nat} {outage : Option Outage} {w w' : Worker} {e : Effect}
      (hi : s.reader.workers[i]? = some w) (hp : i ∉ s.putting)
      (hr : Reader.wantsRoom w = true → s.reader.stopping = true)
      (ht : Transition s.reader.job (s.surroundings w size outage) w w' e) :
      Goes s (.work i size outage)
        { s with
          reader := { s.reader with
            workers := s.reader.workers.set i w'
            created := if w.phase = .creating then s.reader.created + 1 else s.reader.created }
          metrics := s.metrics.incrementAll e.count.toList }
  | approach {i : Nat} {w : Worker} (hi : s.reader.workers[i]? = some w) (hp : i ∉ s.putting)
      (hr : Reader.wantsRoom w = true) (hs : s.reader.stopping = false) :
      Goes s (.approach i) { s with putting := i :: s.putting }
  | put {i : Nat} {w w' : Worker} {e : Effect} (hi : s.reader.workers[i]? = some w)
      (hp : i ∈ s.putting) (hroom : s.reader.hasRoom = true)
      (ht : Transition s.reader.job { stopping := false, hasRoom := true } w w' e) :
      Goes s (.put i)
        { s with
          reader := { s.reader with
            workers := s.reader.workers.set i w'
            queue := s.reader.queue ++ e.put.toList
            created := if w.phase = .creating then s.reader.created + 1 else s.reader.created }
          metrics := s.metrics.incrementAll e.count.toList
          putting := s.putting.erase i }
  | giveUp {i : Nat} (hp : i ∈ s.putting) (hroom : s.reader.hasRoom = false) :
      Goes s (.giveUp i) { s with putting := s.putting.erase i }
  | append {id : Int} {offset : Option Int} {value : Option Bytes} {p : Partition}
      (hp : s.cluster.partition? s.reader.topic id = some p)
      (hlt : ∀ m ∈ p.messages, m.offset < offset.getD p.nextOffset) :
      Goes s (.append id offset value)
        { s with cluster := s.cluster.update s.reader.topic id (·.append offset value) }
  | ask {timed : Bool} (hc : s.call.isPending = false) :
      Goes s (.ask timed) { s with call := .testing timed }
  | proceed {call : Reader.Call} {reader : Reader} {taken : Option Item}
      (hc : Reader.Call.Goes s.reader s.call call reader taken) :
      Goes s .proceed { s with call, reader, taken := s.taken ++ taken.toList }
  | timeOut (hc : s.call = .waiting true) (hq : s.reader.queue = []) :
      Goes s .timeOut { s with call := .returned .waits }
  | close : Goes s .close { s with closings := s.closings ++ [.called] }
  | closing {k : Nat} {a b : Reader.Closing} {reader : Reader} {dropped : Option Item}
      (hk : s.closings[k]? = some a) (hc : Reader.Closing.Goes s.reader a b reader dropped) :
      Goes s (.closing k)
        { s with reader, closings := s.closings.set k b, dropped := s.dropped ++ dropped.toList }

variable {s s' : Shutdown}

/-- A move leads to what the rules say. -/
theorem goes_of_step {m : Move} (h : s.step m = some s') : s.Goes m s' := by
  cases m with
  | work i size outage =>
      simp only [step] at h
      split_ifs at h with hcond
      rw [not_or, Bool.not_eq_true] at hcond
      obtain ⟨hp, hput⟩ := hcond
      obtain ⟨scene, hscene, rfl⟩ := Option.map_eq_some_iff.1 h
      obtain ⟨w, w', e, hi, hstep, rfl⟩ := Scene.step_work_eq_some.1 hscene
      have hr : Reader.wantsRoom w = true → s.reader.stopping = true := by
        intro hw
        simpa [Reader.comesToPut, hi, hw] using hput
      have ht := Worker.transition_of_step hstep
      have hgoes := Goes.work hi hp hr ht
      rw [Worker.put_eq_none ht hr]
      simpa using hgoes
  | approach i =>
      simp only [step, Reader.comesToPut, Bool.and_eq_true, Bool.not_eq_true',
        Option.any_eq_true] at h
      split_ifs at h with hcond
      obtain ⟨hp, ⟨w, hi, hr⟩, hs⟩ := hcond
      cases h
      exact .approach hi hp hr hs
  | put i =>
      simp only [step, Reader.stepWorker] at h
      split_ifs at h with hcond
      obtain ⟨hp, hroom⟩ := hcond
      cases hi : s.reader.workers[i]? with
      | none => simp [hi] at h
      | some w =>
          simp only [hi, Option.map_map, Option.map_eq_some_iff, Function.comp_apply,
            Prod.exists] at h
          obtain ⟨w', e, hstep, rfl⟩ := h
          exact .put hi hp hroom (Worker.transition_of_step hstep)
  | giveUp i =>
      simp only [step] at h
      split_ifs at h with hcond
      cases h
      exact .giveUp hcond.1 hcond.2
  | append id offset value =>
      obtain ⟨scene, hscene, rfl⟩ := Option.map_eq_some_iff.1 h
      obtain ⟨p, hp, hlt, rfl⟩ := Scene.step_append_eq_some.1 hscene
      exact .append hp hlt
  | ask timed =>
      simp only [step] at h
      split_ifs at h with hc
      cases h
      exact .ask (by simpa using hc)
  | proceed =>
      obtain ⟨⟨call, reader, taken⟩, hcall, rfl⟩ := Option.map_eq_some_iff.1 h
      exact .proceed (Reader.Call.goes_of_step hcall)
  | timeOut =>
      simp only [step] at h
      split_ifs at h with hc
      cases h
      exact .timeOut hc.1 hc.2
  | close => cases h; exact .close
  | closing k =>
      cases hk : s.closings[k]? with
      | none => simp [step, hk] at h
      | some a =>
          simp only [step, hk] at h
          obtain ⟨⟨b, reader, dropped⟩, hclosing, rfl⟩ := Option.map_eq_some_iff.1 h
          exact .closing hk (Reader.Closing.goes_of_step hclosing)

/-! ## Calls that nobody disturbs -/

/-- One state can come after another one. -/
def Reaches (s s' : Shutdown) : Prop :=
  ∃ moves, s.run moves = some s'

theorem Reaches.refl (s : Shutdown) : s.Reaches s :=
  ⟨[], rfl⟩

theorem Reaches.head {t : Shutdown} {m : Move} (h : s.step m = some t) (ht : t.Reaches s') :
    s.Reaches s' := by
  obtain ⟨moves, hrun⟩ := ht
  exact ⟨m :: moves, by rw [run_cons, h]; exact hrun⟩

theorem Reaches.trans {t : Shutdown} (h : s.Reaches t) (ht : t.Reaches s') : s.Reaches s' := by
  obtain ⟨moves, hrun⟩ := h
  obtain ⟨more, hmore⟩ := ht
  exact ⟨moves ++ more, by rw [run_append, hrun]; exact hmore⟩

theorem Reaches.single {m : Move} (h : s.step m = some s') : s.Reaches s' :=
  .head h (.refl s')

theorem step_proceed {call : Reader.Call} {reader : Reader} {taken : Option Item}
    (h : s.call.step s.reader = some (call, reader, taken)) : s.step .proceed =
      some { s with call, reader, taken := s.taken ++ taken.toList } := by
  rw [step, h]
  rfl

theorem step_closing {k : Nat} {a b : Reader.Closing} {reader : Reader} {dropped : Option Item}
    (hk : s.closings[k]? = some a) (h : a.step s.reader = some (b, reader, dropped)) :
    s.step (.closing k) = some { s with
      reader, closings := s.closings.set k b, dropped := s.dropped ++ dropped.toList } := by
  simp only [step, hk, h]
  rfl

/-- A worker that has something for the queue and is left alone puts it there as in `Scene.step`. -/
theorem reaches_of_work {i size : Nat} {outage : Option Outage} {scene : Scene} (hp : i ∉ s.putting)
    (h : s.toScene.step (.work i size outage) = some scene) :
    s.Reaches { s with toScene := scene } := by
  by_cases hput : s.reader.comesToPut i = true
  · obtain ⟨w, w', e, hi, hstep, rfl⟩ := Scene.step_work_eq_some.1 h
    obtain ⟨hw, hs⟩ : Reader.wantsRoom w = true ∧ s.reader.stopping = false := by
      simpa [Reader.comesToPut, hi] using hput
    obtain ⟨hroom, hstep'⟩ := Worker.step_of_wantsRoom hw hs hstep
    have happroach : s.step (.approach i) = some { s with putting := i :: s.putting } := by
      rw [step, if_pos ⟨hp, hput⟩]
    refine .head happroach (.single (m := .put i) ?_)
    rw [step, if_pos ⟨List.mem_cons_self, hroom⟩]
    simp [Reader.stepWorker, hi, hstep']
  · refine .single (m := .work i size outage) ?_
    rw [step, if_neg (not_or.2 ⟨hp, hput⟩), h]
    rfl

/-- What a call for a frame comes to by its own steps it comes to by moves of the system. -/
theorem reaches_of_comesTo {a b : Reader.Call} {r r' : Reader} {items items' : List Item}
    (h : Reader.Call.ComesTo b r' items' a r items) (s : Shutdown) :
    { s with call := a, reader := r, taken := items }.Reaches
      { s with call := b, reader := r', taken := items' } := by
  induction h with
  | refl => exact .refl _
  | step hstep _ ih => exact .head (step_proceed hstep) ih

/-- A call for a frame that nobody disturbs comes to `Reader.next`, after which it has returned or
waits. -/
theorem next_eq_run {timed : Bool} (hc : s.call = .testing timed) :
    ∃ s', s.Reaches s' ∧ s'.reader = s.reader.next.2 ∧
      s'.call = .resting timed s.reader.next.1 := by
  obtain ⟨items, hcomes⟩ := Reader.Call.comesTo_next (r := s.reader) timed (.inl rfl) s.taken
  have hreach := reaches_of_comesTo hcomes s
  rw [← hc] at hreach
  exact ⟨_, hreach, rfl, rfl⟩

/-- The workers of a reader that are told to stop can make the reader and its counters what is given,
all else staying as it is. -/
def CanMake (s : Shutdown) (state : Reader × Metrics) : Prop :=
  state.1.stopping = true ∧ s.Reaches { s with reader := state.1, metrics := state.2 }

/-- A worker that is told to stop and left alone meets the world as in one of the moves. -/
theorem calm_eq_surroundings {c : Cluster} {r : Reader} {w : Worker} (hs : r.stopping = true) :
    r.calm c w = { r.surroundings c w 0 with outage := (r.calm c w).outage } := by
  have hnone : (r.surroundings c w 0).batch = [] := by
    simp only [Reader.surroundings]
    split <;> simp [Partition.fetch]
  rw [Surroundings.mk.injEq, hnone]
  simp [Reader.calm, Reader.surroundings, hs]

theorem canMake_stepWorker {state : Reader × Metrics} {r : Reader} {m : Metrics} {i : Nat}
    {w : Worker} (hp : s.putting = []) (hc : s.CanMake (r, m)) (hi : r.workers[i]? = some w)
    (h : r.stepWorker i (r.calm s.cluster w) m = some state) : s.CanMake state := by
  obtain ⟨(hs : r.stopping = true), hreach⟩ := hc
  constructor
  · rw [Reader.stepWorker, hi] at h
    obtain ⟨_, -, rfl⟩ := Option.map_eq_some_iff.1 h
    exact hs
  · refine hreach.trans (.single (m := .work i 0 (r.calm s.cluster w).outage) ?_)
    rw [calm_eq_surroundings hs] at h
    simp [step, Scene.step, Scene.surroundings, Reader.comesToPut, hp, hs, hi, h]

/-- Workers that are told to stop come to where they wait by moves of the system. -/
theorem canMake_settle (hp : s.putting = []) (hs : s.reader.stopping = true) :
    s.CanMake (s.reader.settle s.cluster s.metrics) :=
  Reader.settle_induction (fun hc hi hstep => canMake_stepWorker hp hc hi hstep) ⟨hs, .refl s⟩

/-- The system with one more call that closes the reader, and with the given reader and counters. -/
def closedBy (s : Shutdown) (a : Reader.Closing) (state : Reader × Metrics)
    (dropped : List Item) : Shutdown :=
  { s with
    reader := state.1
    metrics := state.2
    closings := s.closings ++ [a]
    dropped }

theorem reaches_closedBy {a b : Reader.Closing} {r r' : Reader} {item : Option Item}
    (h : a.step r = some (b, r', item)) (m : Metrics) (dropped : List Item) :
    (s.closedBy a (r, m) dropped).Reaches (s.closedBy b (r', m) (dropped ++ item.toList)) := by
  have hstep := step_closing (s := s.closedBy a (r, m) dropped) (k := s.closings.length)
    (by simp [closedBy]) h
  refine .single (hstep.trans ?_)
  simp [closedBy]

/-- While a call waits for the workers, they come to where they wait. -/
theorem reaches_settle {r : Reader} (hp : s.putting = []) (hs : r.stopping = true)
    (a : Reader.Closing) (m : Metrics) (dropped : List Item) :
    (s.closedBy a (r, m) dropped).Reaches (s.closedBy a (r.settle s.cluster m) dropped) :=
  (canMake_settle (s := s.closedBy a (r, m) dropped) hp hs).2

/-- A call that empties the queue comes to its end if nobody disturbs it. -/
theorem reaches_drain {r : Reader} (m : Metrics) (dropped : List Item) : ∃ dropped',
    (s.closedBy .draining (r, m) dropped).Reaches (s.closedBy .posting (r.drain, m) dropped') := by
  induction hq : r.queue generalizing r dropped with
  | nil =>
      have hdrain : r.drain = r := by rw [Reader.drain, ← hq]
      rw [hdrain]
      exact ⟨_, reaches_closedBy (by rw [Reader.Closing.step, hq]) m dropped⟩
  | cons item queue ih =>
      obtain ⟨dropped', hreach⟩ := ih (r := { r with queue }) (dropped ++ [item]) rfl
      exact ⟨dropped', (reaches_closedBy (by rw [Reader.Closing.step, hq]) m dropped).trans hreach⟩

/-- A call that closes the reader comes to `Reader.close` if only the workers disturb it. -/
theorem close_eq_run (hp : s.putting = []) : ∃ a dropped,
    s.Reaches (s.closedBy a (s.reader.close s.cluster s.metrics).2 dropped) ∧
      a.answer? = some (s.reader.close s.cluster s.metrics).1 := by
  have hcalled : s.Reaches (s.closedBy .called (s.reader, s.metrics) s.dropped) :=
    .single (m := .close) rfl
  cases hc : s.reader.closed with
  | true =>
      have hmark : s.reader.markClosed = none := by rw [Reader.markClosed, if_pos hc]
      rw [Reader.close, hmark]
      exact ⟨.turnedAway, _, hcalled.trans
        (reaches_closedBy (by rw [Reader.Closing.step, hmark]) _ _), rfl⟩
  | false =>
      have hmark : s.reader.markClosed = some { s.reader with closed := true } := by
        rw [Reader.markClosed, if_neg (by simp [hc])]
      have hmarked := hcalled.trans (reaches_closedBy (by rw [Reader.Closing.step, hmark]) _ _)
      have hsignalled := hmarked.trans (reaches_closedBy rfl _ _)
      have hsettled := hsignalled.trans (reaches_settle hp rfl _ _ _)
      have hdraining := hsettled.trans (reaches_closedBy rfl _ _)
      obtain ⟨dropped, hdrained⟩ := reaches_drain _ _
      have hposted := (hdraining.trans hdrained).trans (reaches_closedBy rfl _ _)
      have hlooked := hposted.trans (reaches_closedBy rfl _ _)
      rw [Reader.close, hmark]
      exact ⟨.returned _, _, hlooked, rfl⟩

end Shutdown

end LogRelay
