import LogRelay.Proofs.Reading.Bytes
/-!
# Reading the frames of a reader

Frames are read from a stream of bytes by whoever puts them together again: he asks for as many bytes as
the header or the message at hand still lacks, and for more when fewer have come.  When that stream is a
reader whose workers are at work, he gets the entries whose frames they have put on the queue, in that
order, up to the first one whose message is longer than he allows.  There he stops; if there is none he
gets all of them, and then the end.

## Main definitions

* `Reception`, `Reception.step`, `Reception.run`: the system, one move, and several of them.
* `Reception.IsReading`: the invariant.
* `Reception.IsFaithful`: what holds of the entries that are read.

## Main statements

* `isReading_run`: each run keeps the invariant.
* `reads_faithfully`: what is read from a reader, as bytes and as entries.
-/
namespace LogRelay

open Message

/-- Somebody who reads frames from a reader.  `assembly` is the frame at hand, and `ending` says how the
reading has ended, if it has. -/
structure Reception extends Tap where
  limit : Int
  assembly : Frame.Assembly := .empty
  entries : List Entry := []
  ending : Option FrameEnd := none

namespace Reception

/-- What becomes of the frame at hand when a call has returned. -/
def receive (s : Reception) (bs : Bytes) : Reception :=
  match s.assembly.feed s.limit bs with
  | .more assembly => { s with assembly }
  | .entry e => { s with assembly := .empty, entries := s.entries ++ [e] }
  | .ended => { s with ending := some .clean }
  | .broken e => { s with ending := some (.broken e) }

/-- The system after a move, if that can be made.  As long as the reading has not ended, as many bytes
are asked for as the frame at hand lacks. -/
def step (s : Reception) : Tap.Move → Option Reception
  | .ask size =>
    if s.ending = none ∧ size = s.assembly.wanted then
      (s.toTap.step (.ask size)).map fun tap => { s with toTap := tap }
    else none
  | .proceed => (s.toTap.step .proceed).map fun tap =>
    match tap.drawing with
    | .returned _ bs => { s with toTap := tap }.receive bs
    | _ => { s with toTap := tap }
  | m => (s.toTap.step m).map fun tap => { s with toTap := tap }

/-- The system after several moves, if they can be made. -/
def run (s : Reception) (moves : List Tap.Move) : Option Reception :=
  moves.foldlM step s

/-- A reader that has just been opened, and somebody who reads its frames. -/
def opened (limit : Int) (c : Cluster) (r : Reader) (m : Metrics) : Reception :=
  { Tap.opened c r m with limit }

/-- What a move leads to. -/
inductive Goes (s : Reception) : Tap.Move → Reception → Prop where
  /-- the frame at hand is not touched -/
  | pass {m : Tap.Move} {tap : Tap} (h : s.toTap.step m = some tap)
      (hask : ∀ size, m = .ask size → s.ending = none ∧ size = s.assembly.wanted)
      (hd : m = .proceed → tap.drawing.answer? = none) : Goes s m { s with toTap := tap }
  | receive {tap : Tap} {size : Int} {bs : Bytes} (h : s.toTap.step .proceed = some tap)
      (hd : tap.drawing = .returned size bs) : Goes s .proceed ({ s with toTap := tap }.receive bs)

variable {s s' : Reception} {m : Tap.Move} {unclosed : List Int}

/-- A move leads to what the rules say. -/
theorem goes_of_step (h : s.step m = some s') : s.Goes m s' := by
  cases m with
  | work i size outage =>
      obtain ⟨tap, htap, rfl⟩ := Option.map_eq_some_iff.1 h
      exact .pass htap (by simp) (by simp)
  | append id offset value =>
      obtain ⟨tap, htap, rfl⟩ := Option.map_eq_some_iff.1 h
      exact .pass htap (by simp) (by simp)
  | ask size =>
      simp only [step] at h
      split_ifs at h with hask
      obtain ⟨tap, htap, rfl⟩ := Option.map_eq_some_iff.1 h
      refine .pass htap ?_ (by simp)
      rintro _ ⟨⟩
      exact hask
  | proceed =>
      obtain ⟨tap, htap, rfl⟩ := Option.map_eq_some_iff.1 h
      cases hd : tap.drawing with
      | returned size bs => exact .receive htap hd
      | idle | asked | fetching => exact .pass htap (by simp) (by simp [hd, Reader.Drawing.answer?])

@[simp] theorem toTap_receive (s : Reception) (bs : Bytes) : (s.receive bs).toTap = s.toTap := by
  rw [receive]
  split <;> rfl

@[simp] theorem limit_receive (s : Reception) (bs : Bytes) : (s.receive bs).limit = s.limit := by
  rw [receive]
  split <;> rfl

theorem toTap_step (h : s.step m = some s') : s.toTap.step m = some s'.toTap := by
  cases goes_of_step h with
  | pass htap => exact htap
  | receive htap => rwa [toTap_receive]

theorem limit_step (h : s.step m = some s') : s'.limit = s.limit := by
  cases goes_of_step h with
  | pass => rfl
  | receive => rw [limit_receive]

theorem limit_run {moves : List Tap.Move} (h : s.run moves = some s') : s'.limit = s.limit := by
  refine foldlM_induction (P := fun t => t.limit = s.limit) ?_ rfl (fun _ _ => trivial) h
  intro t m t' ht _ hstep
  exact (limit_step hstep).trans ht

/-- Each run is one of the reader from which the bytes are read. -/
theorem toTap_run {moves : List Tap.Move} (h : s.run moves = some s') :
    s.toTap.run moves = some s'.toTap := by
  induction moves generalizing s with
  | nil =>
      obtain rfl : s = s' := Option.some.inj h
      rfl
  | cons m moves ih =>
      obtain ⟨t, ht, hrun⟩ := Option.bind_eq_some_iff.1 h
      rw [Tap.run_cons, toTap_step ht]
      exact ih hrun

/-! ## What has been read -/

/-- The bytes that have been handed out are those of the frames of the entries that have been read, and
then those that are there of the frame at hand; when the reading has ended, no others come that can be
read. -/
structure IsReading (s : Reception) : Prop where
  legal : s.assembly.IsLegal s.limit
  asked : s.drawing.isPending = true →
    s.ending = none ∧ s.drawing.size? = some (s.assembly.wanted : Int)
  reads : s.ending = none → ∀ rest,
    entriesOf s.limit (s.handedOut ++ rest) =
        s.entries ++ entriesOf s.limit (s.assembly.bytes ++ rest) ∧
      endOf s.limit (s.handedOut ++ rest) = endOf s.limit (s.assembly.bytes ++ rest)
  clean : s.ending = some .clean → s.HaveFinished ∧ s.handedOut = s.frames.flatten ∧
    entriesOf s.limit s.handedOut = s.entries ∧ endOf s.limit s.handedOut = .clean
  broken : ∀ {e}, s.ending = some (.broken e) → ∀ rest,
    entriesOf s.limit (s.handedOut ++ rest) = s.entries ∧
      endOf s.limit (s.handedOut ++ rest) = .broken e

/-- A move with which no call returns keeps the invariant. -/
theorem IsReading.pass {tap : Tap} (hr : s.IsReading) (hs : s.IsSteady unclosed)
    (h : s.toTap.step m = some tap)
    (hask : ∀ size, m = .ask size → s.ending = none ∧ size = s.assembly.wanted)
    (hd : m = .proceed → tap.drawing.answer? = none) :
    IsReading { s with toTap := tap } := by
  have hout : tap.handedOut = s.handedOut := Tap.handedOut_step h hd
  constructor
  · exact hr.legal
  · intro hp
    rcases Tap.isPending_step h (.inl hp) with ⟨size, rfl, hdrawing⟩ | ⟨hpending, hsize⟩
    · obtain ⟨hending, rfl⟩ := hask size rfl
      exact ⟨hending, by rw [hdrawing]; rfl⟩
    · rw [hsize]
      exact hr.asked hpending
  · intro hending rest
    rw [hout]
    exact hr.reads hending rest
  · intro hending
    obtain ⟨hfinished, hall, hentries, hend⟩ := hr.clean hending
    have hframes : tap.frames = s.frames := (Tap.frames_step hs h).2 (hs.haveEnded hfinished)
    rw [hout, hframes]
    exact ⟨Tap.haveFinished_step hs hfinished h, hall, hentries, hend⟩
  · intro e hending rest
    rw [hout]
    exact hr.broken hending rest

/-- When there are no more bytes, nothing is there of the frame at hand, since all frames are whole. -/
theorem IsReading.stop (hr : s.IsReading) (hs : s.IsSteady unclosed)
    (hending : s.ending = none) (hall : s.handedOut = s.frames.flatten) :
    s.assembly.stop = .ended ∧ entriesOf s.limit s.handedOut = s.entries ∧
      endOf s.limit s.handedOut = .clean := by
  have hreads := hr.reads hending []
  simp only [List.append_nil] at hreads
  have hstop := Frame.Assembly.stop_cases hr.legal
  cases h : s.assembly.stop with
  | more | entry =>
      rw [h] at hstop
      exact hstop.elim
  | ended =>
      rw [h] at hstop
      have hnone : firstFrame? s.limit [] = none := by rw [firstFrame?, if_pos (by decide)]
      rw [hstop, entriesOf_of_none hnone, endOf_of_none hnone, List.append_nil, if_pos rfl] at hreads
      exact ⟨rfl, hreads⟩
  | broken e =>
      rw [h] at hstop
      obtain ⟨hne, htruncated, hnone, hfault⟩ := hstop
      rw [hall, Frame.endOf_flatten hs.exists_encode, endOf_of_none hnone, if_neg hne, hfault] at hreads
      cases hfind : s.frames.find? (!Frame.fits s.limit ·) with
      | none =>
          rw [hfind] at hreads
          cases hreads.2
      | some frame =>
          rw [hfind] at hreads
          obtain rfl := FrameEnd.broken.inj hreads.2
          exact htruncated.elim

/-- A call that returns was at hand, and comes with at most as many bytes as the frame lacks; with none
only if there are no more. -/
theorem IsReading.returned {tap : Tap} {size : Int} {bs : Bytes} (hr : s.IsReading)
    (hs : s.IsSteady unclosed) (h : s.toTap.step .proceed = some tap)
    (hd : tap.drawing = .returned size bs) :
    s.drawing.isPending = true ∧ s.ending = none ∧ bs.length ≤ s.assembly.wanted ∧
      (bs = [] → s.HaveFinished ∧ s.handedOut = s.frames.flatten) := by
  obtain ⟨hpending, hsize⟩ : s.drawing.isPending = true ∧ tap.drawing.size? = s.drawing.size? := by
    rcases Tap.isPending_step h (.inr rfl) with ⟨size, hask, -⟩ | hpending
    · cases hask
    · exact hpending
  obtain ⟨hending, hasked⟩ := hr.asked hpending
  obtain rfl : size = s.assembly.wanted := by
    rw [hasked, hd] at hsize
    exact Option.some.inj hsize
  have hwanted := Frame.Assembly.wanted_pos hr.legal.isProper
  have hreturns := (hs.returns h hd).1
  refine ⟨hpending, hending, ?_, (hreturns.eq_nil_iff (by omega)).1⟩
  have := hreturns.length_le (by omega)
  omega

/-- When a call returns with no bytes the reading ends cleanly. -/
theorem IsReading.receive_nil {tap : Tap} {size : Int} (hr : s.IsReading)
    (hs : s.IsSteady unclosed) (h : s.toTap.step .proceed = some tap)
    (hd : tap.drawing = .returned size []) : IsReading ({ s with toTap := tap }.receive []) := by
  obtain ⟨-, hending, -, hend⟩ := hr.returned hs h hd
  obtain ⟨hfinished, hall⟩ := hend rfl
  obtain ⟨hstop, hentries, hclean⟩ := hr.stop hs hending hall
  have hframes : tap.frames = s.frames := (Tap.frames_step hs h).2 (hs.haveEnded hfinished)
  have hout : tap.handedOut = s.handedOut := by
    rw [(hs.returns h hd).2, List.append_nil]
  rw [Reception.receive, Frame.Assembly.feed, if_pos rfl]
  simp only [hstop]
  constructor
  · exact hr.legal
  · intro hp
    simp [hd, Reader.Drawing.isPending] at hp
  · simp
  · intro _
    rw [hout, hframes]
    exact ⟨Tap.haveFinished_step hs hfinished h, hall, hentries, hclean⟩
  · simp

/-- When a call returns with some bytes they are added to the frame at hand. -/
theorem IsReading.receive_chunk {tap : Tap} {size : Int} {bs : Bytes} (hr : s.IsReading)
    (hs : s.IsSteady unclosed) (h : s.toTap.step .proceed = some tap)
    (hd : tap.drawing = .returned size bs) (hbs : bs ≠ []) :
    IsReading ({ s with toTap := tap }.receive bs) := by
  obtain ⟨-, hending, hlen, -⟩ := hr.returned hs h hd
  have hout := (hs.returns h hd).2
  have hidle : tap.drawing.isPending = false := by rw [hd]; rfl
  have hagrees := Frame.Assembly.agrees_feed hr.legal hbs hlen
  have hreads (rest : Bytes) := hr.reads hending (bs ++ rest)
  simp only [← List.append_assoc, ← hout] at hreads
  rw [Reception.receive]
  simp only
  cases hfeed : s.assembly.feed s.limit bs with
  | more assembly =>
      rw [hfeed] at hagrees
      obtain ⟨hlegal, hbytes⟩ := hagrees
      refine ⟨hlegal, by simp [hidle], ?_, by simp [hending], by simp [hending]⟩
      intro _ rest
      simp only [hbytes]
      exact hreads rest
  -- what was there of the stream begins with this frame, and goes on with the rest
  | entry e =>
      rw [hfeed] at hagrees
      refine ⟨Frame.Assembly.isLegal_empty _, by simp [hidle], ?_, by simp [hending],
        by simp [hending]⟩
      intro _ rest
      have hfirst := firstFrame?_append hagrees rest
      rw [List.nil_append] at hfirst
      obtain ⟨hentries, hend⟩ := hreads rest
      rw [hentries, hend, entriesOf_of_some hfirst, endOf_of_some hfirst]
      simp
  | ended =>
      rw [hfeed] at hagrees
      exact hagrees.elim
  -- the frame is wrong whatever follows
  | broken e =>
      rw [hfeed] at hagrees
      refine ⟨hr.legal, by simp [hidle], by simp, by simp, ?_⟩
      rintro _ ⟨⟩ rest
      obtain ⟨hnone, hfault⟩ := hagrees rest
      obtain ⟨hentries, hend⟩ := hreads rest
      have hne : s.assembly.bytes ++ bs ++ rest ≠ [] := by simp [hbs]
      rw [hentries, hend, entriesOf_of_none hnone, endOf_of_none hnone, if_neg hne, hfault]
      exact ⟨List.append_nil _, rfl⟩

/-- A call that returns keeps the invariant. -/
theorem IsReading.receive {tap : Tap} {size : Int} {bs : Bytes} (hr : s.IsReading)
    (hs : s.IsSteady unclosed) (h : s.toTap.step .proceed = some tap)
    (hd : tap.drawing = .returned size bs) :
    IsReading ({ s with toTap := tap }.receive bs) := by
  by_cases hbs : bs = []
  · subst hbs
    exact hr.receive_nil hs h hd
  · exact hr.receive_chunk hs h hd hbs

/-- Each move keeps the invariant. -/
theorem isReading_step (hr : s.IsReading) (hs : s.IsSteady unclosed)
    (h : s.step m = some s') : s'.IsReading := by
  cases goes_of_step h with
  | pass htap hask hd => exact hr.pass hs htap hask hd
  | receive htap hd => exact hr.receive hs htap hd

/-- Each run keeps the invariant. -/
theorem isReading_run {moves : List Tap.Move} (hr : s.IsReading)
    (hs : s.IsSteady unclosed) (h : s.run moves = some s') :
    s'.IsReading := by
  induction moves generalizing s unclosed with
  | nil =>
      obtain rfl : s = s' := Option.some.inj h
      exact hr
  | cons m moves ih =>
      obtain ⟨t, ht, hrun⟩ := Option.bind_eq_some_iff.1 h
      exact ih (isReading_step hr hs ht) (Tap.isSteady_step hs (toTap_step ht)) hrun

theorem isReading_opened (limit : Int) (c : Cluster) (r : Reader) (m : Metrics) :
    (opened limit c r m).IsReading where
  legal := Frame.Assembly.isLegal_empty limit
  asked := by simp [opened, Tap.opened, Reader.Drawing.isPending]
  reads := fun _ _ => ⟨rfl, rfl⟩
  clean := by simp [opened]
  broken := by simp [opened]

/-! ## The reading comes to its end -/

/-- It is a move of the one who reads the frames. -/
def isOwn (m : Tap.Move) : Bool :=
  m.isAsk || m.isProceed

/-- How many own moves there are at most until the next call returns, or the reading has ended. -/
def due (s : Reception) : Nat :=
  if s.ending.isSome then 0
  else if s.drawing.isPending then s.left
  else 3 * s.reader.workers.length + 5

/-- How many own moves there are at most when all workers have ended: those of the call at hand, and
those of one more call for each byte that has not been handed out. -/
def weight (s : Reception) : Nat :=
  (s.frames.flatten.length - s.handedOut.length) * (3 * s.reader.workers.length + 6) + s.due

theorem IsReading.isForAll (hr : s.IsReading) : s.drawing.isForAll = false := by
  have hasked := hr.asked
  cases hd : s.drawing with
  | idle | returned => rfl
  | asked size | fetching size =>
      rw [hd] at hasked
      obtain ⟨-, hsize⟩ := hasked rfl
      obtain rfl : size = s.assembly.wanted := Option.some.inj hsize
      simp [Reader.Drawing.isForAll]

theorem IsReading.due_le (hr : s.IsReading) : s.due ≤ 3 * s.reader.workers.length + 5 := by
  have hleft : s.left ≤ 3 * s.reader.workers.length + 4 := Reader.Drawing.left_le hr.isForAll
  rw [due]
  split_ifs <;> omega

/-- Each own move with which no call returns leaves less to do until then. -/
theorem due_pass {tap : Tap} (hr : s.IsReading) (hs : s.IsSteady unclosed)
    (h : s.toTap.step m = some tap)
    (hask : ∀ size, m = .ask size → s.ending = none ∧ size = s.assembly.wanted)
    (hd : m = .proceed → tap.drawing.answer? = none) :
    due { s with toTap := tap } + (if isOwn m then 1 else 0) ≤ s.due := by
  have hworkers := Tap.length_workers_step h
  cases hm : m.isAsk with
  -- the steps of the call that begins are counted from now on
  | true =>
      obtain ⟨size, rfl⟩ : ∃ size, m = .ask size := by
        cases m <;> simp [Tap.Move.isAsk] at hm ⊢
      obtain ⟨hending, rfl⟩ := hask size rfl
      cases Tap.goes_of_step h with
      | ask hidle =>
          have hleft : Reader.Drawing.left s.reader (.asked s.assembly.wanted) ≤ _ :=
            Reader.Drawing.left_le (by simp [Reader.Drawing.isForAll])
          simp only [due, hending, hidle]
          simp [Reader.Drawing.isPending, Tap.left, isOwn, Tap.Move.isAsk]
          omega
  | false =>
      have hpending := Tap.isPending_eq_step h hm hd
      obtain ⟨-, hleft⟩ := Tap.left_step hs (.inl hr.isForAll) hm h
      have hown : isOwn m = m.isProceed := by simp [isOwn, hm]
      rw [hown]
      cases hp : s.drawing.isPending with
      | true =>
          obtain ⟨hending, -⟩ := hr.asked hp
          simpa [due, hending, hpending, hp] using hleft
      | false =>
          have hnot : m.isProceed = false := by
            cases m with
            | proceed =>
                rcases Tap.isPending_step h (.inr rfl) with ⟨size, hask, -⟩ | ⟨hp', -⟩
                · cases hask
                · rw [hp] at hp'
                  cases hp'
            | work | append | ask => rfl
          simp [due, hpending, hp, hworkers, hnot]

/-- With no bytes a call leaves nothing to do, and with each byte at most one more call. -/
theorem due_receive {tap : Tap} {size : Int} {bs : Bytes} (hr : s.IsReading)
    (hs : s.IsSteady unclosed) (h : s.toTap.step .proceed = some tap)
    (hd : tap.drawing = .returned size bs) :
    ({ s with toTap := tap }.receive bs).due + 1 ≤
      s.due + bs.length * (3 * s.reader.workers.length + 6) := by
  obtain ⟨hpending, hending, -, hend⟩ := hr.returned hs h hd
  have hbefore : s.due = s.left := by simp [due, hending, hpending]
  have hleft : tap.left + 1 ≤ s.left := (Tap.left_step hs (.inl hr.isForAll) rfl h).2
  by_cases hbs : bs = []
  · subst hbs
    obtain ⟨-, hall⟩ := hend rfl
    obtain ⟨hstop, -⟩ := hr.stop hs hending hall
    have hafter : ({ s with toTap := tap }.receive []).due = 0 := by
      rw [Reception.receive, Frame.Assembly.feed, if_pos rfl]
      simp [hstop, due]
    omega
  · have hdue := (hr.receive hs h hd).due_le
    rw [toTap_receive, Tap.length_workers_step h] at hdue
    have hone := Nat.le_mul_of_pos_left (3 * s.reader.workers.length + 6) (List.length_pos_iff.2 hbs)
    omega

/-- Each own move makes the reading lighter when all workers have ended. -/
theorem weight_step (hr : s.IsReading) (hs : s.IsSteady unclosed)
    (hended : s.HaveEnded) (h : s.step m = some s') :
    s'.weight + (if isOwn m then 1 else 0) ≤ s.weight := by
  have htap := toTap_step h
  have hframes : s'.frames = s.frames := (Tap.frames_step hs htap).2 hended
  have hworkers := Tap.length_workers_step htap
  have hlong : s'.handedOut.length ≤ s'.frames.flatten.length :=
    (Tap.isSteady_step hs htap).isFaithful.handedOut.length_le
  simp only [weight, hframes, hworkers] at hlong ⊢
  cases goes_of_step h with
  | @pass m tap htap' hask hd =>
      have hout : tap.handedOut = s.handedOut := Tap.handedOut_step htap' hd
      have hdue := due_pass hr hs htap' hask hd
      simp only [hout]
      omega
  | @receive tap size bs htap' hd =>
      have hout := (hs.returns htap' hd).2
      have hdue := due_receive hr hs htap' hd
      simp only [toTap_receive, hout, List.length_append] at hlong ⊢
      -- each byte that is handed out pays for one more call
      have hsplit : s.frames.flatten.length - s.handedOut.length =
          s.frames.flatten.length - (s.handedOut.length + bs.length) + bs.length := by
        omega
      rw [hsplit, Nat.add_mul]
      simp only [isOwn, Tap.Move.isProceed, Bool.or_true, if_true]
      omega

/-- Only so many own moves can be made when all workers have ended. -/
theorem countP_isOwn_le {moves : List Tap.Move} (hr : s.IsReading)
    (hs : s.IsSteady unclosed) (hended : s.HaveEnded) (h : s.run moves = some s') :
    moves.countP isOwn ≤ s.weight := by
  induction moves generalizing s unclosed with
  | nil => exact Nat.zero_le _
  | cons m moves ih =>
      obtain ⟨t, ht, hrun⟩ := Option.bind_eq_some_iff.1 h
      have htap := toTap_step ht
      have hweight := weight_step hr hs hended ht
      have hrest := ih (isReading_step hr hs ht) (Tap.isSteady_step hs htap)
        (Tap.haveEnded_step hended htap) hrun
      rw [List.countP_cons]
      omega

/-- As long as the reading has not ended, there is an own move, unless all frames have been handed out
and the end of some worker has not been put on the queue. -/
theorem exists_own_move (hr : s.IsReading) (hs : s.IsSteady unclosed)
    (hending : s.ending = none) : (∃ m s', isOwn m = true ∧ s.step m = some s') ∨
      s.handedOut = s.frames.flatten ∧ ¬ s.HaveFinished := by
  cases hp : s.drawing.isPending with
  | false =>
      left
      have hask : (s.step (.ask s.assembly.wanted)).isSome := by
        rw [step, if_pos ⟨hending, rfl⟩, Tap.step, hp]
        rfl
      obtain ⟨s', hs'⟩ := Option.isSome_iff_exists.1 hask
      exact ⟨_, s', rfl, hs'⟩
  | true =>
      cases hstep : s.toTap.step .proceed with
      | some tap =>
          left
          have hproceed : (s.step .proceed).isSome := by
            rw [step, hstep]
            rfl
          obtain ⟨s', hs'⟩ := Option.isSome_iff_exists.1 hproceed
          exact ⟨_, s', rfl, hs'⟩
      | none =>
          right
          obtain ⟨hall, hheld, hnot⟩ := hs.waits hp hstep
          rw [hheld hr.isForAll, List.append_nil] at hall
          exact ⟨hall, hnot⟩

/-! ## What is read -/

/-- What holds of the entries that are read from a reader, after each run.  They are, in order, those of
the first frames that have been put on the queue, and none whose frame is too long.  If the reading has
ended, all frames in front of the first one that is too long have been read: then that one is complained
about, or there is none, the ends of the workers have been put on the queue too, and the end is clean.
As long as it has not ended it goes on, unless all frames have been handed out and the end of some worker
has not been put on the queue; and when all workers have ended it makes only so many moves. -/
structure IsFaithful (s : Reception) : Prop where
  begins : ∃ entries, s.entries <+: entries ∧
    List.Forall₂ (fun e frame => Frame.encode e = .ok frame) entries
      (s.frames.takeWhile (Frame.fits s.limit))
  clean : s.ending = some .clean → s.HaveFinished ∧
    (∀ frame ∈ s.frames, Frame.fits s.limit frame = true) ∧
      List.Forall₂ (fun e frame => Frame.encode e = .ok frame) s.entries s.frames
  broken : ∀ {e}, s.ending = some (.broken e) → ∃ front frame back,
    s.frames = front ++ frame :: back ∧ (∀ frame ∈ front, Frame.fits s.limit frame = true) ∧
      Frame.fits s.limit frame = false ∧
      e = .oversized (frame.length - Frame.headerSize) s.limit ∧
      List.Forall₂ (fun e frame => Frame.encode e = .ok frame) s.entries front
  goesOn : s.ending = none → (∃ m s', isOwn m = true ∧ s.step m = some s') ∨
    s.handedOut = s.frames.flatten ∧ ¬ s.HaveFinished
  bounded : s.HaveEnded → ∃ bound, ∀ moves s', s.run moves = some s' →
    moves.countP isOwn ≤ bound

/-- When the reading has ended, all that can be read of the stream has been read. -/
theorem IsReading.of_ended (hr : s.IsReading) (hs : s.IsSteady unclosed)
    {ending : FrameEnd} (h : s.ending = some ending) :
    entriesOf s.limit s.frames.flatten = s.entries ∧ endOf s.limit s.frames.flatten = ending := by
  cases ending with
  | clean =>
      obtain ⟨-, hall, hentries, hend⟩ := hr.clean h
      rw [← hall]
      exact ⟨hentries, hend⟩
  | broken e =>
      obtain ⟨rest, hrest⟩ := hs.isFaithful.handedOut
      rw [← hrest]
      exact hr.broken h rest

/-- What has been read is the beginning of what can be read of the stream. -/
theorem IsReading.entries_prefix (hr : s.IsReading) (hs : s.IsSteady unclosed) :
    s.entries <+: entriesOf s.limit s.frames.flatten := by
  cases hending : s.ending with
  | none =>
      obtain ⟨rest, hrest⟩ := hs.isFaithful.handedOut
      rw [← hrest, (hr.reads hending rest).1]
      exact List.prefix_append ..
  | some ending =>
      have hentries := (hr.of_ended hs hending).1
      exact hentries.symm ▸ List.prefix_refl _

theorem IsReading.isFaithful (hr : s.IsReading) (hs : s.IsSteady unclosed) :
    s.IsFaithful where
  begins := ⟨_, hr.entries_prefix hs, Frame.entriesOf_flatten s.limit hs.exists_encode⟩
  clean := by
    intro hending
    obtain ⟨hentries, hend⟩ := hr.of_ended hs hending
    have hall := Frame.entriesOf_flatten s.limit hs.exists_encode
    rw [Frame.endOf_flatten hs.exists_encode] at hend
    cases hfind : s.frames.find? (!Frame.fits s.limit ·) with
    | some frame =>
        rw [hfind] at hend
        cases hend
    | none =>
        have hfits : ∀ frame ∈ s.frames, Frame.fits s.limit frame = true := by
          simpa using hfind
        rw [hentries, List.takeWhile_eq_self_iff.2 hfits] at hall
        exact ⟨(hr.clean hending).1, hfits, hall⟩
  broken := by
    intro e hending
    obtain ⟨hentries, hend⟩ := hr.of_ended hs hending
    have hall := Frame.entriesOf_flatten s.limit hs.exists_encode
    rw [Frame.endOf_flatten hs.exists_encode] at hend
    cases hfind : s.frames.find? (!Frame.fits s.limit ·) with
    | none =>
        rw [hfind] at hend
        cases hend
    | some frame =>
        rw [hfind] at hend
        obtain rfl := FrameEnd.broken.inj hend
        obtain ⟨hlong, front, back, hsplit, hfront⟩ := List.find?_eq_some_iff_append.1 hfind
        simp only [Bool.not_not, Bool.not_eq_true'] at hlong hfront
        rw [hentries, hsplit, List.takeWhile_append_of_pos hfront, List.takeWhile_cons_of_neg
          (by simp [hlong]), List.append_nil] at hall
        exact ⟨front, frame, back, hsplit, hfront, hlong, rfl, hall⟩
  goesOn := exists_own_move hr hs
  bounded := fun hended => ⟨s.weight, fun _ _ h => countP_isOwn_le hr hs hended h⟩

/-- Whatever the workers do and whatever sizes are asked for, the bytes that are read from a reader that
has been opened, and that nobody closes, are as they should be; and so are the entries, whatever limit
he sets who reads the frames. -/
theorem reads_faithfully {c : Cluster} {topic : Json} {job : Job} {capacity : Int} {r : Reader}
    (hopen : Reader.opened c topic job capacity = .ok r)
    (hids : ((c.partitions topic).map (·.id)).Nodup)
    (hinc : ∀ p ∈ c.partitions topic, IsIncreasing p.messages) (before : Metrics) :
    (∀ moves s, (Tap.opened c r before).run moves = some s →
      s.IsFaithful ((Tap.opened c r before).unclosed moves)) ∧
    ∀ limit moves s, (opened limit c r before).run moves = some s →
      s.limit = limit ∧ s.IsFaithful := by
  have hopened := Tap.isSteady_opened hopen hids hinc before
  have hsteady {moves : List Tap.Move} {s : Tap} (h : (Tap.opened c r before).run moves = some s) :
      s.IsSteady ((Tap.opened c r before).unclosed moves) := by
    simpa using Tap.isSteady_run hopened h
  constructor
  · intro moves s hrun
    exact (hsteady hrun).isFaithful
  · intro limit moves s hrun
    have hreading := isReading_run (isReading_opened limit c r before) hopened hrun
    exact ⟨limit_run hrun, hreading.isFaithful (hsteady (toTap_run hrun))⟩

/-- A partition with a message whose line is `x`, and a reader that ends after it.  Its frame has a
message of four bytes: who allows that comes to the end, and who allows three does not. -/
theorem opened_letter : ∃ (c : Cluster) (job : Job) (r : Reader),
    Reader.opened c (.str "t") job 1 = .ok r ∧ ((c.partitions (.str "t")).map (·.id)).Nodup ∧
      (∀ p ∈ c.partitions (.str "t"), IsIncreasing p.messages) ∧
        (∃ moves s, (opened 4 c r {}).run moves = some s ∧ s.ending = some .clean ∧
          s.frames = [[0, 0, 0, 4, 26, 2, 120, 10]]) ∧
            ∃ moves s, (opened 3 c r {}).run moves = some s ∧
              s.ending = some (.broken (.oversized 4 3)) := by
  let value : Bytes := Message.letter "1970-01-01T00:00:00Z"
  let p : Partition := { id := 0, messages := [⟨0, some value⟩] }
  let c : Cluster := { topics := [(.str "t", [p])] }
  let job : Job := { containerId := .str "c", request := { follow := false }, nesting := 100 }
  let r : Reader := .ofCursors (.str "t") job 1 [⟨0, 0, 1⟩]
  let header : List Tap.Move :=
    List.replicate 8 (.work 0 1 none) ++ [.ask 4] ++ List.replicate 4 .proceed
  let rest : List Tap.Move :=
    [.work 0 1 none, .ask 4, .proceed, .ask 4] ++ List.replicate 5 .proceed
  have hparts : c.partitions (.str "t") = [p] := rfl
  refine ⟨c, job, r, Reader.opened_of_single job 1 rfl rfl hparts, by simp [hparts],
    by simp [hparts, p, IsIncreasing], ?_, ?_⟩
  · have hmap : ((opened 4 c r {}).run (header ++ rest)).map (fun s => (s.ending, s.frames)) =
        some (some .clean, [[0, 0, 0, 4, 26, 2, 120, 10]]) := by decide +kernel
    obtain ⟨s, hrun, hs⟩ := Option.map_eq_some_iff.1 hmap
    exact ⟨header ++ rest, s, hrun, Prod.mk.inj hs⟩
  · have hmap : ((opened 3 c r {}).run header).map Reception.ending =
        some (some (.broken (.oversized 4 3))) := by decide +kernel
    obtain ⟨s, hrun, hs⟩ := Option.map_eq_some_iff.1 hmap
    exact ⟨header, s, hrun, hs⟩

/-- The message fits, so its entry is read, and then the end. -/
theorem reads_faithfully_letter : ∃ (c : Cluster) (job : Job) (r : Reader) (moves : List Tap.Move)
    (s : Reception), Reader.opened c (.str "t") job 1 = .ok r ∧
      (opened 4 c r {}).run moves = some s ∧ s.ending = some .clean ∧ s.HaveFinished ∧
        List.Forall₂ (fun e frame => Frame.encode e = .ok frame) s.entries
          [[0, 0, 0, 4, 26, 2, 120, 10]] ∧
            s.handedOut <+: [0, 0, 0, 4, 26, 2, 120, 10] := by
  obtain ⟨c, job, r, hopen, hids, hinc, ⟨moves, s, hrun, hending, hframes⟩, -⟩ := opened_letter
  obtain ⟨hbytes, hentries⟩ := reads_faithfully hopen hids hinc {}
  obtain ⟨-, hfaithful⟩ := hentries 4 moves s hrun
  obtain ⟨hfinished, -, hall⟩ := hfaithful.clean hending
  have hprefix := (hbytes moves s.toTap (toTap_run hrun)).handedOut
  rw [hframes] at hall hprefix
  exact ⟨c, job, r, moves, s, hopen, hrun, hending, hfinished, hall, hprefix⟩

/-- Who reads the frames may come to an end that is not clean, since one of them does not fit. -/
theorem exists_ending_ne_clean :
    ¬ ∀ (c : Cluster) (topic : Json) (job : Job) (capacity : Int) (r : Reader),
      Reader.opened c topic job capacity = .ok r → ((c.partitions topic).map (·.id)).Nodup →
        (∀ p ∈ c.partitions topic, IsIncreasing p.messages) →
          ∀ (limit : Int) (before : Metrics) (moves : List Tap.Move) (s : Reception),
            (opened limit c r before).run moves = some s → s.ending ≠ none →
              s.ending = some .clean ∧
                List.Forall₂ (fun e frame => Frame.encode e = .ok frame) s.entries s.frames := by
  intro hall
  obtain ⟨c, job, r, hopen, hids, hinc, -, moves, s, hrun, hending⟩ := opened_letter
  obtain ⟨hclean, -⟩ :=
    hall c (.str "t") job 1 r hopen hids hinc 3 {} moves s hrun (by simp [hending])
  rw [hending] at hclean
  cases hclean

end Reception

end LogRelay
