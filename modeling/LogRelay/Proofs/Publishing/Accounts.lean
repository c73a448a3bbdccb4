import LogRelay.Publishing.Publisher
import Mathlib.Algebra.Ring.Nat
import Mathlib.Data.List.Forall2
/-!
# The accounts of an outlet

Publishers send records through one outlet, the broker completes the calls that it has accepted, with
success or with a failure and whenever it likes, and now and then the counters are read and set to
zero.  In whatever order all of this happens, nothing is lost and nothing is counted twice: what the
counters have shown, the log of failures and the reports all agree with what has happened.

## Main definitions

* `Occurrence`, `Ledger`, `Ledger.run`: what happens at an outlet, one thing after the other.
* `Ledger.sum`: what a counter has shown, all readings taken together.
* `callsOf`, `failuresOf`: the calls of the broker and the failures among some occurrences.
* `Ledger.BringsAbout`: what lies between two ledgers.
* `Ledger.Balances`: the accounts agree with what has happened.

## Main statements

* `bringsAbout_of_step`, `bringsAbout_run`: what one occurrence changes, and what several of them do.
* `accounts_balance`: the accounts agree with what has happened.
-/
namespace LogRelay

/-! ## What happens at an outlet -/

/-- What happens at an outlet. -/
inductive Occurrence where
  /-- a publisher sends a record -/
  | publish (p : Publisher) (r : Record Json)
  /-- the accepted call of the given number succeeds -/
  | succeed (i : Nat)
  /-- the accepted call of the given number fails -/
  | fail (i : Nat) (reason : Text)
  /-- the counters are read and set to zero -/
  | reset

/-- An outlet, and what its counters showed whenever they were set to zero. -/
structure Ledger where
  outlet : Outlet
  readings : List Metrics := []

/-- How the broker answers the call after so many others. -/
abbrev Policy := Nat → Send → Option Outage

namespace Ledger

/-- The ledger of an outlet before anything has happened, whose log keeps so many failures. -/
def new (policy : Policy) (capacity : Nat) : Ledger :=
  { outlet := { policy, failures := { capacity } } }

/-- The ledger after an occurrence, if that is possible: only an accepted call can be completed. -/
def step (b : Ledger) : Occurrence → Option Ledger
  | .publish p r => some { b with outlet := (p.publish r b.outlet).2 }
  | .succeed i => (b.outlet.accepted[i]?).map fun _ => { b with outlet := b.outlet.succeed i }
  | .fail i reason => (b.outlet.accepted[i]?).map fun _ => { b with outlet := b.outlet.fail i reason }
  | .reset =>
    let (reading, metrics) := b.outlet.metrics.takeAll
    some { outlet := { b.outlet with metrics }, readings := b.readings ++ [reading] }

/-- The ledger after several occurrences, if they are possible. -/
def run (b : Ledger) (happened : List Occurrence) : Option Ledger :=
  happened.foldlM step b

/-- What a counter has shown so far: the sum of all readings and of what it shows now. -/
def sum (b : Ledger) (c : Counter) : Nat :=
  (b.readings.map (·.count c)).sum + b.outlet.metrics.count c

end Ledger

/-! ## What has happened -/

/-- A failure to hand a record to the broker: the call, and why it failed. -/
abbrev CallFailure := Delivery × Text

namespace CallFailure

/-- What is kept in the log of a failure. -/
def entry (f : CallFailure) : PublishFailure :=
  ⟨f.1.send.topic, f.1.record.containerId, f.2⟩

/-- What is reported of a failure. -/
def report (f : CallFailure) : Record Json × Text :=
  (f.1.record, f.2)

end CallFailure

/-- Why the broker has rejected a call, if it has. -/
def Delivery.rejection? (d : Delivery) : Option Text :=
  d.refusal.bind fun outage => if outage.kind = .broker then some outage.text else none

namespace Occurrence

/-- A publication of a record of which there is a message. -/
def publication? : Occurrence → Option (Publisher × Record Json)
  | .publish p r => match p.message r with
    | .ok _ => some (p, r)
    | .error _ => none
  | _ => none

/-- The call of the broker that an occurrence makes as the one after `n` others. -/
def call? (policy : Policy) (n : Nat) : Occurrence → Option Delivery
  | .publish p r => match p.message r with
    | .ok send => some ⟨send, r, p.reports, policy n send⟩
    | .error _ => none
  | _ => none

/-- The failure that an occurrence is after some calls: a call that the broker rejects, or an accepted
call that fails. -/
def failure? (policy : Policy) (calls : List Delivery) (x : Occurrence) : Option CallFailure :=
  match x with
  | .publish .. => (x.call? policy calls.length).bind fun d => d.rejection?.map (d, ·)
  | .fail i reason => ((calls.filter Delivery.isAccepted)[i]?).map (·, reason)
  | _ => none

/-- Whether a call succeeds. -/
def isSuccess : Occurrence → Bool
  | .succeed _ => true
  | _ => false

/-- Whether an accepted call fails. -/
def isFailure : Occurrence → Bool
  | .fail .. => true
  | _ => false

end Occurrence

/-- The calls of the broker that occurrences make after some others, in order. -/
def callsOf (policy : Policy) (calls : List Delivery) : List Occurrence → List Delivery
  | [] => []
  | x :: rest =>
    let made := (x.call? policy calls.length).toList
    made ++ callsOf policy (calls ++ made) rest

/-- The call hands the message of a publication to the broker. -/
structure IsCallOf (x : Publisher × Record Json) (d : Delivery) : Prop where
  message : x.1.message x.2 = .ok d.send
  record : d.record = x.2
  reported : d.reported = x.1.reports

/-- The failures among occurrences after some calls, in order. -/
def failuresOf (policy : Policy) (calls : List Delivery) : List Occurrence → List CallFailure
  | [] => []
  | x :: rest =>
    (x.failure? policy calls).toList ++
      failuresOf policy (calls ++ (x.call? policy calls.length).toList) rest

/-! ## The log of failures -/

namespace FailureLog

variable {α : Type}

theorem lastItems_suffix (n : Nat) (items : List α) : lastItems n items <:+ items :=
  List.drop_suffix _ _

theorem length_lastItems (n : Nat) (items : List α) :
    (lastItems n items).length = min n items.length := by
  rw [lastItems, List.length_drop]
  omega

/-- What was dropped before is not missed when more items have come. -/
theorem lastItems_append (n : Nat) (items more : List α) :
    lastItems n (lastItems n items ++ more) = lastItems n (items ++ more) := by
  simp only [lastItems, List.length_append, List.length_drop, List.drop_append]
  rw [List.drop_drop]
  congr 2 <;> omega

end FailureLog

namespace Ledger

variable {policy : Policy} {capacity : Nat} {b b' : Ledger} {x : Occurrence}
  {happened : List Occurrence}

/-! ## What one occurrence changes -/

/-- The second ledger is the first one with so many calls and failures more, and so many successes. -/
structure BringsAbout (b b' : Ledger) (calls : List Delivery) (failures : List CallFailure)
    (successes : Nat) : Prop where
  policy : b'.outlet.policy = b.outlet.policy
  calls : b'.outlet.deliveries = b.outlet.deliveries ++ calls
  published : b'.sum .published = b.sum .published + successes
  failed : b'.sum .failed = b.sum .failed + failures.length
  total : b'.outlet.failures.total = b.outlet.failures.total + failures.length
  capacity : b'.outlet.failures.capacity = b.outlet.failures.capacity
  kept : ∀ earlier, b.outlet.failures.kept =
      FailureLog.lastItems b.outlet.failures.capacity earlier →
    b'.outlet.failures.kept =
      FailureLog.lastItems b.outlet.failures.capacity (earlier ++ failures.map CallFailure.entry)
  reports : b'.outlet.reports =
    b.outlet.reports ++ (failures.filter (·.1.reported)).map CallFailure.report

/-- Calls of which nothing is noted. -/
theorem bringsAbout_call (b : Ledger) (calls : List Delivery) :
    b.BringsAbout { b with outlet := { b.outlet with
      deliveries := b.outlet.deliveries ++ calls } } calls [] 0 where
  policy := rfl
  calls := rfl
  published := rfl
  failed := rfl
  total := rfl
  capacity := rfl
  kept := by simp
  reports := by simp

/-- A failure is noted in all places where it should be. -/
theorem bringsAbout_failure (b : Ledger) (calls : List Delivery) (d : Delivery) (reason : Text) :
    b.BringsAbout { b with outlet := { b.outlet with
      deliveries := b.outlet.deliveries ++ calls }.noteFailure d reason } calls [(d, reason)] 0 where
  policy := rfl
  calls := rfl
  published := by simp [sum, Outlet.noteFailure, Metrics.count_increment]
  failed := by simp [sum, Outlet.noteFailure, Metrics.count_increment, Nat.add_assoc]
  total := rfl
  capacity := rfl
  kept := by
    intro earlier h
    simp [Outlet.noteFailure, FailureLog.add, h, FailureLog.lastItems_append, CallFailure.entry]
  reports := by
    cases hd : d.reported <;> simp [Outlet.noteFailure, hd, CallFailure.report]

/-- **Each occurrence changes what it should.** -/
theorem bringsAbout_of_step (h : b.step x = some b') :
    b.BringsAbout b' (x.call? b.outlet.policy b.outlet.deliveries.length).toList
      (x.failure? b.outlet.policy b.outlet.deliveries).toList (if x.isSuccess then 1 else 0) := by
  cases x with
  | publish p r =>
      obtain rfl := Option.some.inj h
      cases hm : p.message r with
      | error f =>
          have := b.bringsAbout_call []
          simpa [Publisher.publish, hm, Occurrence.call?, Occurrence.failure?,
            Occurrence.isSuccess] using this
      | ok send =>
          let d : Delivery := ⟨send, r, p.reports, b.outlet.policy b.outlet.deliveries.length send⟩
          have hcall : (Occurrence.publish p r).call? b.outlet.policy b.outlet.deliveries.length =
              some d := by
            simp [Occurrence.call?, hm, d]
          have hfailure : (Occurrence.publish p r).failure? b.outlet.policy b.outlet.deliveries =
              d.rejection?.map (d, ·) := by
            simp [Occurrence.failure?, hcall]
          rw [hcall, hfailure]
          cases ha : b.outlet.policy b.outlet.deliveries.length send with
          | none =>
              have := b.bringsAbout_call [d]
              simpa [Publisher.publish, hm, Outlet.send, ha, Delivery.rejection?, d,
                Occurrence.isSuccess] using this
          | some outage =>
              by_cases hk : outage.kind = .broker
              · have := b.bringsAbout_failure [d] d outage.text
                simpa [Publisher.publish, hm, Outlet.send, ha, Delivery.rejection?, d, hk,
                  Occurrence.isSuccess] using this
              · have := b.bringsAbout_call [d]
                simpa [Publisher.publish, hm, Outlet.send, ha, Delivery.rejection?, d, hk,
                  Occurrence.isSuccess] using this
  | succeed i =>
      obtain ⟨d, hd, rfl⟩ := Option.map_eq_some_iff.1 h
      refine ⟨?_, ?_, ?_, ?_, ?_, ?_, ?_, ?_⟩
      all_goals simp [Outlet.succeed, hd, Outlet.count, sum, Metrics.count_increment,
        Occurrence.call?, Occurrence.failure?, Occurrence.isSuccess, Nat.add_assoc]
  | fail i reason =>
      obtain ⟨d, hd, rfl⟩ := Option.map_eq_some_iff.1 h
      have hfailure : (Occurrence.fail i reason).failure? b.outlet.policy b.outlet.deliveries =
          some (d, reason) := by
        rw [Outlet.accepted] at hd
        simp [Occurrence.failure?, hd]
      rw [hfailure]
      have := b.bringsAbout_failure [] d reason
      simpa [Outlet.fail, hd, Occurrence.call?, Occurrence.isSuccess] using this
  | reset =>
      obtain rfl := Option.some.inj h
      refine ⟨?_, ?_, ?_, ?_, ?_, ?_, ?_, ?_⟩
      all_goals simp [sum, Metrics.zero, Metrics.count, Occurrence.call?,
        Occurrence.failure?, Occurrence.isSuccess]

/-! ## What several of them change -/

theorem BringsAbout.trans {b'' : Ledger} {calls calls' : List Delivery}
    {failures failures' : List CallFailure} {m n : Nat} (h : b.BringsAbout b' calls failures m)
    (h' : b'.BringsAbout b'' calls' failures' n) :
    b.BringsAbout b'' (calls ++ calls') (failures ++ failures') (m + n) where
  policy := h'.policy.trans h.policy
  calls := by rw [h'.calls, h.calls, List.append_assoc]
  published := by rw [h'.published, h.published, Nat.add_assoc]
  failed := by rw [h'.failed, h.failed, List.length_append, Nat.add_assoc]
  total := by rw [h'.total, h.total, List.length_append, Nat.add_assoc]
  capacity := h'.capacity.trans h.capacity
  kept := by
    intro earlier hearlier
    have hkept := h.kept earlier hearlier
    rw [← h.capacity] at hkept ⊢
    rw [h'.kept _ hkept, List.map_append, List.append_assoc]
  reports := by
    rw [h'.reports, h.reports, List.filter_append, List.map_append, List.append_assoc]

/-- What happens brings about the calls, the failures and the successes that it consists of. -/
theorem bringsAbout_run (h : b.run happened = some b') :
    b.BringsAbout b' (callsOf b.outlet.policy b.outlet.deliveries happened)
      (failuresOf b.outlet.policy b.outlet.deliveries happened)
      (happened.countP Occurrence.isSuccess) := by
  induction happened generalizing b with
  | nil =>
      obtain rfl := Option.some.inj h
      simpa [callsOf, failuresOf] using b.bringsAbout_call []
  | cons x happened ih =>
      rw [run, List.foldlM_cons] at h
      obtain ⟨t, ht, hrun⟩ := Option.bind_eq_some_iff.1 h
      have hstep := bringsAbout_of_step ht
      have hrest := ih hrun
      rw [hstep.policy, hstep.calls] at hrest
      have hall := hstep.trans hrest
      rw [List.countP_cons, Nat.add_comm]
      exact hall

/-! ## Calls and failures -/

/-- There is one call for each publication of which there is a message. -/
theorem forall₂_callsOf (policy : Policy) (calls : List Delivery) (happened : List Occurrence) :
    List.Forall₂ IsCallOf (happened.filterMap Occurrence.publication?)
      (callsOf policy calls happened) := by
  induction happened generalizing calls with
  | nil => exact .nil
  | cons x happened ih =>
      rw [callsOf, List.filterMap_cons]
      cases x with
      | publish p r =>
          cases hm : p.message r with
          | error f => simpa [Occurrence.publication?, Occurrence.call?, hm] using ih _
          | ok send =>
              simp only [Occurrence.publication?, Occurrence.call?, hm]
              exact .cons ⟨hm, rfl, rfl⟩ (ih _)
      | succeed | fail | reset => simpa [Occurrence.publication?, Occurrence.call?] using ih _

/-- Each call is answered as the broker answers the call after so many others. -/
theorem refusal_of_callsOf {calls : List Delivery} {k : Nat} {d : Delivery}
    (h : (callsOf policy calls happened)[k]? = some d) :
    d.refusal = policy (calls.length + k) d.send := by
  induction happened generalizing calls k with
  | nil => simp [callsOf] at h
  | cons x happened ih =>
      rw [callsOf] at h
      cases hx : x.call? policy calls.length with
      | none =>
          simp only [hx, Option.toList_none, List.nil_append, List.append_nil] at h
          exact ih h
      | some d' =>
          simp only [hx, Option.toList_some, List.singleton_append] at h
          cases k with
          | zero =>
              obtain rfl := Option.some.inj h
              cases x with
              | publish p r =>
                  cases hm : p.message r with
                  | error f => simp [Occurrence.call?, hm] at hx
                  | ok send =>
                      simp only [Occurrence.call?, hm, Option.some.injEq] at hx
                      rw [← hx]
                      rfl
              | succeed | fail | reset => cases hx
          | succ k =>
              have := ih h
              rw [this, List.length_append, List.length_singleton]
              congr 1
              omega

/-- The failures are the calls that were rejected and the accepted ones that failed. -/
theorem length_failuresOf (h : b.run happened = some b') :
    (failuresOf b.outlet.policy b.outlet.deliveries happened).length =
      (callsOf b.outlet.policy b.outlet.deliveries happened).countP (·.rejection?.isSome) +
        happened.countP Occurrence.isFailure := by
  induction happened generalizing b with
  | nil => rfl
  | cons x happened ih =>
      rw [run, List.foldlM_cons] at h
      obtain ⟨t, ht, hrun⟩ := Option.bind_eq_some_iff.1 h
      have hstep := bringsAbout_of_step ht
      have hrest := ih hrun
      rw [hstep.policy, hstep.calls] at hrest
      -- only an accepted call can fail later, so a failure that is completed is one that is noted
      have hone : (x.failure? b.outlet.policy b.outlet.deliveries).toList.length =
          (x.call? b.outlet.policy b.outlet.deliveries.length).toList.countP
            (·.rejection?.isSome) + if x.isFailure then 1 else 0 := by
        cases x with
        | publish p r =>
            cases hc : (Occurrence.publish p r).call? b.outlet.policy b.outlet.deliveries.length with
            | none => simp [Occurrence.failure?, hc, Occurrence.isFailure]
            | some d =>
                cases hd : d.rejection? <;>
                  simp [Occurrence.failure?, hc, hd, Occurrence.isFailure]
        | fail i reason =>
            obtain ⟨d, hd, -⟩ := Option.map_eq_some_iff.1 ht
            rw [Outlet.accepted] at hd
            simp [Occurrence.failure?, Occurrence.call?, hd, Occurrence.isFailure]
        | succeed | reset => rfl
      rw [failuresOf, callsOf, List.length_append, List.countP_append, List.countP_cons, hone, hrest]
      omega

/-! ## The balance -/

/-- The accounts agree with what has happened at an outlet whose log keeps so many failures. -/
structure Balances (b : Ledger) (policy : Policy) (capacity : Nat) (happened : List Occurrence) :
    Prop where
  /-- the broker is called once for each publication, in order -/
  calls : List.Forall₂ IsCallOf (happened.filterMap Occurrence.publication?) b.outlet.deliveries
  answers : ∀ k d, b.outlet.deliveries[k]? = some d → d.refusal = policy k d.send
  /-- successes are counted once, however often the counters were set to zero -/
  published : b.sum .published = happened.countP Occurrence.isSuccess
  /-- and so are calls that the broker rejects, and accepted ones that fail -/
  failed : b.sum .failed = b.outlet.deliveries.countP (·.rejection?.isSome) +
    happened.countP Occurrence.isFailure
  total : b.outlet.failures.total = b.sum .failed
  all : (failuresOf policy [] happened).length = b.sum .failed
  /-- each failure whose publisher wants that is reported once, with its own record, in order -/
  reports : b.outlet.reports =
    ((failuresOf policy [] happened).filter (·.1.reported)).map CallFailure.report
  /-- of all failures the last ones are shown: as many as are asked for, but no more than are kept -/
  recent : ∀ n : Int,
    b.outlet.failures.recent n <:+ (failuresOf policy [] happened).map CallFailure.entry ∧
    ((b.outlet.failures.recent n).length : Int) =
      min (max n 0) (min capacity b.outlet.failures.total)

/-- **The accounts of an outlet balance.**  Publishers share an outlet, in whatever order they send
records, the broker completes accepted calls, and the counters are set to zero.  Then the broker has
been called once for each publication; the counters, all readings taken together, have counted each
success and each failure once; the log has counted all failures, and shows the last ones of them; and
each failure whose publisher wants that has been reported once. -/
theorem accounts_balance (h : (new policy capacity).run happened = some b) :
    b.Balances policy capacity happened := by
  have hall := bringsAbout_run h
  have hlength := length_failuresOf h
  have hcalls : b.outlet.deliveries = callsOf policy [] happened := hall.calls
  have hkept := hall.kept [] (by simp [new, FailureLog.lastItems])
  have hfailed : b.sum .failed = (failuresOf policy [] happened).length := by
    simpa [sum, new, Metrics.count] using hall.failed
  have htotal : b.outlet.failures.total = (failuresOf policy [] happened).length := by
    simpa [new] using hall.total
  refine ⟨?_, ?_, ?_, ?_, ?_, hfailed.symm, ?_, ?_⟩
  · rw [hcalls]
    exact forall₂_callsOf policy [] happened
  · intro k d hd
    rw [hcalls] at hd
    simpa using refusal_of_callsOf hd
  · simpa [sum, new, Metrics.count] using hall.published
  · rw [hfailed, hcalls]
    exact hlength
  · rw [htotal, hfailed]
  · simpa [new] using hall.reports
  · intro n
    rw [FailureLog.recent, hkept]
    constructor
    · exact (FailureLog.lastItems_suffix _ _).trans (FailureLog.lastItems_suffix _ _)
    · rw [FailureLog.length_lastItems, FailureLog.length_lastItems, htotal]
      simp only [new, List.nil_append, List.length_map]
      omega

/-- Of two publications the second one is rejected and the first one fails later, after the counters
have been set to zero; the log keeps one failure, and only the second publisher wants reports. -/
theorem accounts_balance_evicted : ∃ (p q : Publisher) (r : Record Json) (b : Ledger),
    (new (fun n _ => if n = 1 then some ⟨.broker, "rejected"⟩ else none) 1).run
      [.publish p r, .publish q r, .reset, .fail 0 "too late", .succeed 0] = some b ∧
    b.outlet.deliveries.length = 2 ∧ b.sum .published = 1 ∧ b.sum .failed = 2 ∧
      b.outlet.failures.total = 2 ∧ b.outlet.reports = [(r, ("rejected" : Text))] ∧
      b.outlet.failures.recent 5 = [⟨.str "t", .str "c", "too late"⟩] := by
  let p : Publisher := ⟨.str "t", .unkeyed, none, false⟩
  let q : Publisher := ⟨.str "s", .unkeyed, none, true⟩
  let r : Record Json := .build {} [] { id := .str "c" } "h"
  let policy : Policy := fun n _ => if n = 1 then some ⟨.broker, "rejected"⟩ else none
  let happened : List Occurrence :=
    [.publish p r, .publish q r, .reset, .fail 0 "too late", .succeed 0]
  have hpossible : ((new policy 1).run happened).isSome = true := by decide +kernel
  obtain ⟨b, hb⟩ := Option.isSome_iff_exists.1 hpossible
  have hbalances := accounts_balance hb
  have hentries : (failuresOf policy [] happened).map CallFailure.entry =
      [⟨.str "s", .str "c", "rejected"⟩, ⟨.str "t", .str "c", "too late"⟩] := rfl
  have hfailed : b.sum .failed = 2 := by
    rw [← hbalances.all, ← List.length_map CallFailure.entry, hentries]
    rfl
  refine ⟨p, q, r, b, hb, ?_, hbalances.published, hfailed, hbalances.total.trans hfailed,
    hbalances.reports.trans rfl, ?_⟩
  · exact hbalances.calls.length_eq.symm.trans rfl
  · obtain ⟨hsuffix, hlength⟩ := hbalances.recent 5
    rw [hentries] at hsuffix
    rw [hbalances.total, hfailed] at hlength
    have hone : (b.outlet.failures.recent 5).length = 1 := by omega
    rw [List.suffix_iff_eq_drop.1 hsuffix, hone]
    rfl

end Ledger

end LogRelay
