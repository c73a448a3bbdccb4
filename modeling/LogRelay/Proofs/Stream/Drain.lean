import LogRelay.Proofs.Stream.Flush
/-!
# Stopping drains the pipe

A relay whose stream is a pipe reads on when it is told to stop, until a read finds the pipe empty.
Then it has taken the entries of all bytes that had come when that read looked, and of no others: the
read sees the sign without looking again, so that a frame that came in between stays in the pipe.  The
relay stops earlier only at a frame that cannot be read, having taken the entries in front of it, or at
an entry that it drops because somebody else has finished it in the meantime.

## Main definitions

* `Session.HasDrained`, `Session.IsStuck`, `Session.HasDropped`: why a loop reads no more.
* `Session.HasRead`: which entries have been taken, and which are still to come.
* `Session.IsOnPipe`: a relay that reads a pipe whose writer stays.

## Main statements

* `isBoundToPipe_run`: over a run, a relay that reads such a pipe takes the entries of its bytes.
* `stop_drains`: what has been returned, taken and published when a read returns nothing and when the
  loop reads no more.
-/
namespace LogRelay

namespace Session

/-- The loop has found the pipe empty and has seen the sign to stop: all bytes that had come when it
looked have been returned, and their entries taken. -/
structure HasDrained (limit : Int) (s : Session) : Prop where
  signed : s.flow.stoppedAt.isSome = true
  returned : s.flow.returned = s.flow.written.take s.flow.lookedAt
  taken : s.taken = entriesOf limit s.flow.returned

/-- Behind the entries that have been taken the bytes go on with a frame that cannot be read, whatever
follows. -/
def IsStuck (limit : Int) (s : Session) : Prop :=
  ∀ more, entriesOf limit (s.flow.returned ++ more) = s.taken

/-- The last entry has been dropped, because somebody else had finished the relay. -/
def HasDropped (s : Session) : Prop :=
  ∃ k, s.finishedAt = some k ∧ k < s.taken.length

/-- The loop reads no more, for one of these reasons. -/
def HasStopped (limit : Int) (s : Session) : Prop :=
  s.HasDrained limit ∨ s.IsStuck limit ∨ s.HasDropped

/-- Whatever follows the bytes that have been returned, their entries are those that have been taken and
then those of the frame at hand, as long as the loop reads. -/
def HasRead (limit : Int) (s : Session) : Prop :=
  match s.relay.place with
  | .opening => False
  | .reading a => a.IsProper ∧ ∀ more,
      entriesOf limit (s.flow.returned ++ more) = s.taken ++ a.entries limit more
  | .holding e => ∀ more,
      entriesOf limit (s.flow.returned ++ more) = s.taken ++ e :: entriesOf limit more
  | _ => s.HasStopped limit

/-- The relay reads a pipe whose writer stays. -/
structure IsOnPipe (limit : Int) (s : Session) (p : Pipe) : Prop where
  limited : s.relay.limit = limit
  source : s.relay.stream.map (·.source) = some (.pipe p)
  kept : (s.intake p).IsKept
  read : s.HasRead limit

/-- The stream is such a pipe, and stays it. -/
def Move.IsOnPipe : Move → Prop
  | .opened answer => ∃ p closeFailure, p.writable = true ∧
      answer = .ok { source := .pipe p, closeFailure }
  | .hangUp => False
  | _ => True

variable {limit : Int} {s s' : Session} {p : Pipe} {r : Relay} {name : Text}

/-- The pipe and the flow that a step of a read call has led to. -/
theorem isKept_intake {i : Intake} (hk : i.IsKept) (hp : i.pipe = p)
    (hs : i.stopping = s.relay.stopping) (hf : i.flow = s.flow) : (s.intake p).IsKept := by
  rw [intake, ← hp, ← hs, ← hf]
  exact hk

/-- Nothing has been read in between: at most, bytes have come, there has been a sign to stop, and the
relay has been finished. -/
structure IsQuietSince (s' s : Session) : Prop where
  taken : s'.taken = s.taken
  returned : s'.flow.returned = s.flow.returned
  lookedAt : s'.flow.lookedAt = s.flow.lookedAt
  written : ∃ bs, s'.flow.written = s.flow.written ++ bs
  stoppedAt : s.flow.stoppedAt.isSome = true → s'.flow.stoppedAt.isSome = true
  finishedAt : ∀ k, s.finishedAt = some k → s'.finishedAt = some k

/-- Something that the relay does with the outlet. -/
theorem isQuietSince_record (s : Session) (result : Relay × Outlet) :
    (s.record result none).IsQuietSince s where
  taken := by simp [record]
  returned := rfl
  lookedAt := rfl
  written := ⟨[], by simp [record]⟩
  stoppedAt := id
  finishedAt := by
    intro k hk
    simp [record, hk]

/-- A loop that reads no more goes on to do so for the same reason. -/
theorem HasStopped.congr (h : s.HasStopped limit) (hkept : (s.intake p).IsKept)
    (hq : s'.IsQuietSince s) : s'.HasStopped limit := by
  rcases h with ⟨hsigned, hreturned, htaken⟩ | hstuck | ⟨k, hat, hlt⟩
  · left
    obtain ⟨bs, hwritten⟩ := hq.written
    constructor
    · exact hq.stoppedAt hsigned
    · have hle : s.flow.lookedAt ≤ s.flow.written.length := hkept.looked
      rw [hq.returned, hwritten, hq.lookedAt, List.take_append_of_le_length hle, hreturned]
    · rw [hq.taken, hq.returned, htaken]
  · right
    left
    intro more
    rw [hq.returned, hq.taken]
    exact hstuck more
  · right
    right
    refine ⟨k, hq.finishedAt k hat, ?_⟩
    rw [hq.taken]
    exact hlt

/-- What has been read stays as long as nothing is read. -/
theorem HasRead.congr (h : s.HasRead limit) (hkept : (s.intake p).IsKept)
    (hq : s'.IsQuietSince s) (hplace : s'.relay.place = s.relay.place) : s'.HasRead limit := by
  rw [HasRead, hplace]
  rw [HasRead] at h
  cases hp : s.relay.place with
  | opening =>
      rw [hp] at h
      exact h
  | reading a | holding e =>
      rw [hp] at h
      simp only [hq.returned, hq.taken]
      exact h
  | leaving | closing | ended =>
      rw [hp] at h
      exact HasStopped.congr h hkept hq

/-- A chunk that a read call returns. -/
theorem HasRead.draw {a : Frame.Assembly} {bs : Bytes} {i : Intake} (h : s.HasRead limit)
    (hkept : (s.intake p).IsKept) (hp : s.relay.place = .reading a)
    (hread : (s.intake p).read a.wanted = (some bs, i)) (stream : Option Stream) :
    ({ s with
      relay := { s.relay with stream, place := .after (a.feed limit bs) }
      flow := i.flow } : Session).HasRead limit := by
  simp only [HasRead, hp] at h
  obtain ⟨hproper, hentries⟩ := h
  obtain ⟨-, hwritten, hreturned, hlooked, hstopped, hlen⟩ := Intake.read_eq_some hread
  by_cases hbs : bs = []
  · -- the call has found nothing, and the loop ends between two frames or within one
    subst hbs
    have hwanted := Frame.Assembly.wanted_pos hproper
    have hnil : ((s.intake p).read a.wanted).1 = some [] := by rw [hread]
    obtain ⟨hall, n, hn, -⟩ := Intake.read_nil hkept hwanted hnil
    have hdrained : ({ s with
        relay := { s.relay with stream, place := .after (a.feed limit []) }
        flow := i.flow } : Session).HasDrained limit := by
      constructor
      · simp only [hstopped, hn]
        rfl
      · simp only [hwritten, hreturned, hlooked, List.append_nil]
        exact hall
      · simp only [hreturned, List.append_nil]
        have := hentries []
        rw [List.append_nil, Frame.Assembly.entries_nil limit hproper, List.append_nil] at this
        exact this.symm
    rcases Relay.feed_nil limit a with ⟨e, hfeed⟩ | hfeed
    · rw [hfeed] at hdrained ⊢
      exact .inl hdrained
    · rw [hfeed] at hdrained ⊢
      exact .inl hdrained
  · have hfed (more : Bytes) := Frame.Assembly.entries_feed limit hproper hbs hlen more
    have hnext (more : Bytes) : entriesOf limit (i.flow.returned ++ more) =
        s.taken ++ a.entries limit (bs ++ more) := by
      rw [hreturned, List.append_assoc]
      exact hentries (bs ++ more)
    cases hfeed : a.feed limit bs with
    | more a' =>
        simp only [hfeed] at hfed
        simp only [HasRead, Relay.Place.after]
        refine ⟨(hfed []).1, ?_⟩
        intro more
        rw [hnext, (hfed more).2]
    | entry e =>
        simp only [hfeed] at hfed
        simp only [HasRead, Relay.Place.after]
        intro more
        rw [hnext, hfed]
    | ended =>
        simp only [hfeed] at hfed
        exact (hfed []).elim
    | broken e =>
        simp only [hfeed] at hfed
        simp only [HasRead, Relay.Place.after]
        right
        left
        intro more
        simp only [hnext, hfed, List.append_nil]

/-- The loop takes an entry, or drops it if the relay is finished. -/
theorem HasRead.take {e : Entry} (h : s.HasRead limit) (ho : s.IsOrderly r)
    (hid : r.container.id = .str name) (hsur : name.hasSurrogate = false)
    (hp : s.relay.place = .holding e) :
    (s.record (s.relay.take e s.outlet) (some e)).HasRead limit := by
  simp only [HasRead, hp] at h
  cases hf : s.relay.finished with
  | true =>
      obtain ⟨k, hk, hat, -⟩ := (ho.finished hf).sent
      rw [Relay.take_of_finished hf]
      refine .inr (.inr ⟨k, ?_, ?_⟩)
      · simp [record, hat]
      · simp only [record, Option.toList_some, List.length_append, List.length_singleton]
        omega
  | false =>
      obtain ⟨ds, o', heq, -, -⟩ := Relay.take_of_unfinished (ho.like.container ▸ hid) hsur ho.civil
        hf (ho.holding e hp)
      rw [heq]
      refine ⟨Frame.Assembly.isProper_empty, ?_⟩
      intro more
      simp only [record, Option.toList_some]
      rw [h more, List.append_assoc]
      rfl

/-- Each move keeps the relay on its pipe. -/
theorem IsOnPipe.step {m : Move} (hs : s.IsOnPipe limit p) (ho : s.IsOrderly r)
    (hid : r.container.id = .str name) (hsur : name.hasSurrogate = false) (hm : m.IsOnPipe)
    (h : s.step m = some s') : ∃ p', s'.IsOnPipe limit p' := by
  obtain ⟨hlimit, hsource, hkept, hread⟩ := hs
  cases m with
  | opened answer =>
      simp only [Session.step] at h
      split at h
      · rename_i hp
        simp only [HasRead, hp] at hread
      · cases h
  | work =>
      cases works_of_work h with
      | @look a st q i hp hst hsrc hgo =>
          have hq : q = p := by simpa [hst, hsrc] using hsource
          subst hq
          have hkept' := hkept.read a.wanted
          obtain ⟨hpipe, hstopping, hwritten, hreturned, -⟩ := Intake.read_eq_none hgo
          rw [hgo] at hkept'
          refine ⟨q, hlimit, hsource, ?_, ?_⟩
          · exact isKept_intake hkept' hpipe hstopping rfl
          · simp only [HasRead, hp] at hread
            simp only [HasRead, hp, hreturned]
            exact hread
      | @draw a st q i bs hp hst hsrc hgo =>
          have hq : q = p := by simpa [hst, hsrc] using hsource
          subst hq
          have hkept' := hkept.read a.wanted
          rw [hgo] at hkept'
          subst hlimit
          refine ⟨i.pipe, rfl, rfl, ?_, hread.draw hkept hp hgo _⟩
          exact isKept_intake hkept' rfl (Intake.read_eq_some hgo).1 rfl
      | @read a st relay hp hst hsrc _ =>
          exact absurd (by simpa [hst] using hsource) (hsrc p)
      | @take e hp =>
          have htake := hread.take ho hid hsur hp
          obtain ⟨aggregator, lastEntry, place, heq, -⟩ := s.relay.take_fst e s.outlet
          refine ⟨p, ?_, ?_, ?_, htake⟩
          · simp only [record, heq]
            exact hlimit
          · simp only [record, heq]
            exact hsource
          · simp only [intake, record, heq]
            exact hkept
      | @leave failure hp =>
          obtain ⟨aggregator, o, heq, -, -⟩ := ho.finish hid hsur
          rw [Relay.leave_of_finish heq]
          simp only [HasRead, hp] at hread
          refine ⟨p, hlimit, hsource, hkept, HasStopped.congr hread hkept ?_⟩
          exact isQuietSince_record _ _
      | @close failure hp =>
          obtain ⟨failure', heq⟩ := Relay.close_eq s.relay failure
          rw [heq]
          simp only [HasRead, hp] at hread
          refine ⟨p, hlimit, ?_, hkept, ?_⟩
          · rw [← hsource]
            simp [Function.comp_def]
          · exact HasStopped.congr hread hkept ⟨rfl, rfl, rfl, ⟨[], by simp⟩, id, fun _ => id⟩
  | signal =>
      obtain rfl := Option.some.inj h
      refine ⟨p, hlimit, hsource, hkept.stop, ?_⟩
      refine hread.congr hkept ⟨rfl, rfl, rfl, ⟨[], by simp [Flow.stop]⟩, ?_, fun _ => id⟩ rfl
      simp [Flow.stop]
  | finish =>
      obtain rfl := Option.some.inj h
      obtain ⟨aggregator, o, heq, -, -⟩ := ho.finish hid hsur
      rw [heq]
      refine ⟨p, hlimit, hsource, hkept, ?_⟩
      exact hread.congr hkept (isQuietSince_record _ _) rfl
  | receive bs =>
      obtain rfl := Option.some.inj h
      refine ⟨p.write bs, hlimit, ?_, hkept.write bs, ?_⟩
      · have hmap : (s.relay.receive bs).stream.map (·.source) =
            (s.relay.stream.map (·.source)).map (·.receive bs) := by
          simp [Relay.receive, Stream.receive, Function.comp_def]
        rw [hmap, hsource]
        rfl
      · exact hread.congr hkept ⟨rfl, rfl, rfl, ⟨bs, rfl⟩, id, fun _ => id⟩ rfl
  | hangUp => exact hm.elim
  | others o =>
      obtain rfl := Option.some.inj h
      refine ⟨p, hlimit, hsource, hkept, hread.congr hkept ?_ rfl⟩
      exact ⟨rfl, rfl, rfl, ⟨[], by simp⟩, id, fun _ => id⟩

/-- The relay has not opened its pipe yet, or reads it. -/
def IsBoundToPipe (limit : Int) (s : Session) : Prop :=
  (s.relay.place = .opening ∧ s.relay.limit = limit ∧ s.taken = []) ∨ ∃ p, s.IsOnPipe limit p

/-- Each move keeps the relay bound to its pipe. -/
theorem IsBoundToPipe.step {m : Move} (hs : s.IsBoundToPipe limit) (ho : s.IsOrderly r)
    (hid : r.container.id = .str name) (hsur : name.hasSurrogate = false) (hm : m.IsOnPipe)
    (h : s.step m = some s') : s'.IsBoundToPipe limit := by
  rcases hs with ⟨hp, hlimit, htaken⟩ | ⟨p, hs⟩
  · cases m with
    | opened answer =>
        obtain ⟨p, closeFailure, hwritable, rfl⟩ := hm
        simp only [Session.step, hp, Option.some.injEq] at h
        subst h
        refine .inr ⟨p, hlimit, rfl, Intake.isKept_opened hwritable _, ?_⟩
        refine ⟨Frame.Assembly.isProper_empty, ?_⟩
        intro more
        rw [htaken]
        rfl
    | work =>
        simp [Session.step, work, hp] at h
    | finish =>
        obtain rfl := Option.some.inj h
        obtain ⟨aggregator, o, heq, -, -⟩ := ho.finish hid hsur
        rw [heq]
        exact .inl ⟨hp, hlimit, by simp [record, htaken]⟩
    | signal | receive bs | others o =>
        obtain rfl := Option.some.inj h
        exact .inl ⟨hp, hlimit, htaken⟩
    | hangUp => exact hm.elim
  · exact .inr (hs.step ho hid hsur hm h)

/-- Every run keeps the relay bound to its pipe. -/
theorem isBoundToPipe_run {moves : List Move} (hs : s.IsBoundToPipe limit) (ho : s.IsOrderly r)
    (hid : r.container.id = .str name) (hsur : name.hasSurrogate = false)
    (hm : ∀ m ∈ moves, m.IsCivil ∧ m.IsOnPipe) (h : s.run moves = some s') :
    s'.IsBoundToPipe limit := by
  have hboth := run_induction (P := fun t => t.IsBoundToPipe limit ∧ t.IsOrderly r)
    (fun t m t' ht (hm : m.IsCivil ∧ m.IsOnPipe) hstep =>
      ⟨ht.1.step ht.2 hid hsur hm.2 hstep, ht.2.step hid hsur hm.1 hstep⟩) ⟨hs, ho⟩ hm h
  exact hboth.1

/-- What a loop has come to that has not dropped anything: it has drained the pipe, or met a frame that
cannot be read; it has taken the entries of all bytes that had come when it last looked, and in the
second case of all bytes; and the lines of these entries have been published.  In the first case all
that had come when the sign was given has been read just if it had come by that look. -/
structure HasServed (r : Relay) (s : Session) : Prop where
  reason : s.HasDrained r.limit ∨ s.IsStuck r.limit
  taken : ∀ n, n ≤ s.flow.lookedAt ∨ s.IsStuck r.limit →
    entriesOf r.limit (s.flow.written.take n) <+: s.taken
  reached : s.HasDrained r.limit → ∀ n ∈ s.flow.stoppedAt,
    (s.flow.written.take n <+: s.flow.returned ↔ n ≤ s.flow.lookedAt)
  sent : List.Forall₂ (fun g => r.Offers (g.last, g.bytes)) (segments s.taken) s.sent

/-- The entries of the first bytes come among those that have been taken. -/
theorem IsOnPipe.entriesOf_take_prefix (hs : s.IsOnPipe limit p) {n : Nat}
    (h : s.HasDrained limit ∧ n ≤ s.flow.lookedAt ∨ s.IsStuck limit) :
    entriesOf limit (s.flow.written.take n) <+: s.taken := by
  rcases h with ⟨hdrained, hle⟩ | hstuck
  · obtain ⟨rest, hrest⟩ : s.flow.written.take n <+: s.flow.written.take s.flow.lookedAt :=
      List.take_prefix_take_left hle
    rw [hdrained.taken, hdrained.returned, ← hrest]
    exact entriesOf_prefix limit _ rest
  · have hall : entriesOf limit s.flow.written = s.taken := by
      have hsplit : s.flow.returned ++ p.held = s.flow.written := hs.kept.split
      rw [← hsplit]
      exact hstuck p.held
    rw [← hall]
    nth_rewrite 2 [← List.take_append_drop n s.flow.written]
    exact entriesOf_prefix limit _ _

/-- The lines of the entries have been published if none of them has been dropped. -/
theorem IsFinished.sent_segments (h : s.IsFinished r) (hno : ¬ s.HasDropped) :
    List.Forall₂ (fun g => r.Offers (g.last, g.bytes)) (segments s.taken) s.sent := by
  obtain ⟨k, hle, hat, hsent⟩ := h.sent
  have hk : k = s.taken.length := by
    by_contra hne
    exact hno ⟨k, hat, by omega⟩
  rw [hk, List.take_length, completed_append_leftover, List.forall₂_map_left_iff] at hsent
  exact hsent

/-- **Stopping drains the pipe**, as far as its last look goes.  Whatever read calls follow one another
on a pipe whose writer stays, and whenever bytes come and the sign to stop is given: no byte is lost, and
a call returns nothing only when what has been returned is all that had come when it looked.  So when
the loop of a relay has come to its end, it has dropped an entry because somebody else had finished the
relay; or it has taken, and published as lines, the entries of all bytes that had come when it last
looked, up to the first frame that cannot be read.  What came after that look and before the sign was
given is not read. -/
theorem stop_drains {o : Outlet} (hr : r.IsFresh) (hp : r.place = .opening)
    (hid : r.container.id = .str name) (hsur : name.hasSurrogate = false) (ho : o.IsCivil)
    {moves : List Move} (hm : ∀ m ∈ moves, m.IsCivil ∧ m.IsOnPipe)
    (hrun : (start r o).run moves = some s) :
    (∀ (q : Pipe) (stopping : Bool) (calls : List Intake.Move), q.writable = true →
        ((Intake.opened q stopping).run calls).Drains) ∧
      (s.relay.place.isOver = true → s.HasDropped ∨ s.HasServed r) := by
  constructor
  · intro q stopping calls hq
    exact Intake.drains_run hq stopping calls
  · intro hover
    have hstart := isOrderly_start hr hp ho
    have hs := isOrderly_run hid hsur hstart (fun m hmem => (hm m hmem).1) hrun
    have hbound : (start r o).IsBoundToPipe r.limit := .inl ⟨hp, rfl, rfl⟩
    rw [or_iff_not_imp_left]
    intro hno
    rcases isBoundToPipe_run hbound hstart hid hsur hm hrun with ⟨hplace, -⟩ | ⟨q, hq⟩
    · rw [hplace] at hover
      cases hover
    · have hstopped : s.HasStopped r.limit := by
        have hread := hq.read
        rw [HasRead] at hread
        split at hread <;> simp_all [Relay.Place.isOver]
      have hreason : s.HasDrained r.limit ∨ s.IsStuck r.limit := by
        rcases hstopped with h | h | h
        · exact .inl h
        · exact .inr h
        · exact absurd h hno
      have hsent := (hs.finished (hs.marked hover)).sent_segments hno
      refine ⟨hreason, ?_, fun hdrained n hn => hq.kept.take_prefix_iff hdrained.returned hn, hsent⟩
      intro n hn
      apply hq.entriesOf_take_prefix
      rcases hreason with h | h
      · rcases hn with hn | hn
        · exact .inl ⟨h, hn⟩
        · exact .inr hn
      · exact .inr h

/-- Two frames are in the pipe, or come into it, before the sign to stop: both entries are taken and
published.  A frame comes after a call has looked and before the sign: it is not read.  A byte comes so:
the call returns nothing, with the byte in the pipe. -/
theorem stop_drains_two :
    (∃ (moves : List Move) (s : Session), (start Relay.plain {}).run moves = some s ∧
      s.relay.place.isOver = true ∧ s.taken.length = 2 ∧ s.HasServed Relay.plain) ∧
    (∃ (moves : List Move) (s : Session), (start Relay.plain {}).run moves = some s ∧
      s.relay.place.isOver = true ∧ s.flow.written = Frame.wrap [26, 1, 97] ∧
        s.flow.stoppedAt = some s.flow.written.length ∧ s.flow.returned = [] ∧ s.taken = [] ∧
          s.HasServed Relay.plain) ∧
    ∃ calls : List Intake.Move,
      ((Intake.opened ⟨[], true⟩ false).run calls).Drains ∧
        ((Intake.opened ⟨[], true⟩ false).run calls).flow.stoppedAt = some 1 ∧
          (((Intake.opened ⟨[], true⟩ false).run calls).read 1).1 = some [] ∧
            ((Intake.opened ⟨[], true⟩ false).run calls).pipe.held = [0] := by
  let early : List Move :=
    [.opened (.ok { source := .pipe ⟨Frame.wrap [26, 1, 97], true⟩ }), .work, .work,
      .receive (Frame.wrap [26, 1, 98]), .signal] ++ List.replicate 12 .work
  let late : List Move :=
    [.opened (.ok { source := .pipe ⟨[], true⟩ }), .work, .receive (Frame.wrap [26, 1, 97]),
      .signal] ++ List.replicate 3 .work
  have hplace : Relay.plain.place = .opening := rfl
  have hid : Relay.plain.container.id = .str "c" := rfl
  have hcivil : ({} : Outlet).IsCivil := by simp [Outlet.IsCivil]
  have hearly : ∀ m ∈ early, m.IsCivil ∧ m.IsOnPipe := by
    simp [early, Move.IsCivil, Move.IsOnPipe]
  have hlate : ∀ m ∈ late, m.IsCivil ∧ m.IsOnPipe := by
    simp [late, Move.IsCivil, Move.IsOnPipe]
  have hboth : ((start Relay.plain {}).run early).map
      (fun s => (s.relay.place.isOver, s.taken.length, s.finishedAt)) = some (true, 2, some 2) := by
    decide +kernel
  have hnone : ((start Relay.plain {}).run late).map
      (fun s => (s.relay.place.isOver, s.flow.written, s.flow.stoppedAt, s.flow.returned, s.taken)) =
      some (true, Frame.wrap [26, 1, 97], some (Frame.wrap [26, 1, 97]).length, [], []) := by
    decide +kernel
  obtain ⟨s, hrun, hs⟩ := Option.map_eq_some_iff.1 hboth
  obtain ⟨t, hrun', ht⟩ := Option.map_eq_some_iff.1 hnone
  simp only [Prod.mk.injEq] at hs ht
  obtain ⟨hover, htaken, hat⟩ := hs
  obtain ⟨hover', hwritten, hstopped, hreturned, hnil⟩ := ht
  obtain ⟨hcalls, hend⟩ := stop_drains ⟨rfl, rfl, rfl⟩ hplace hid (by decide) hcivil hearly hrun
  obtain ⟨-, hend'⟩ := stop_drains ⟨rfl, rfl, rfl⟩ hplace hid (by decide) hcivil hlate hrun'
  refine ⟨⟨early, s, hrun, hover, htaken, (hend hover).resolve_left ?_⟩,
    ⟨late, t, hrun', hover', hwritten, hwritten ▸ hstopped, hreturned, hnil,
      (hend' hover').resolve_left ?_⟩,
    [.read 1, .write [0], .stop], hcalls ⟨[], true⟩ false _ rfl, rfl, rfl, rfl⟩
  · rintro ⟨k, hk, hlt⟩
    rw [hat] at hk
    cases hk
    omega
  · rintro ⟨k, -, hlt⟩
    rw [hnil] at hlt
    exact absurd hlt (Nat.not_lt_zero k)

end Session

end LogRelay
