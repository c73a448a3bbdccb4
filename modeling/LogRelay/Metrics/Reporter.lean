import LogRelay.Metrics.Basic
/-!
# Reporting counters

A reporter wakes up at regular intervals, takes all counters, and writes down what it took, until it
sees that it is to end: it looks before each wait and after it.  It is a machine of four steps, so that
counting may go on between any two of them.

## Main definitions

* `Reporter`, `Reporter.step`
* `Reporter.run`: the reporter over intervals in which known things are counted.
* `Metrics.line`: the line that is written.
-/
namespace LogRelay

/-- The counters as a line. -/
def Metrics.line (m : Metrics) : Text :=
  "[metrics] published=" ++ Text.ofNat m.published ++ " failed=" ++ Text.ofNat m.failed
    ++ " dropped=" ++ Text.ofNat m.dropped ++ " decode_errors=" ++ Text.ofNat m.decodeErrors

/-- Where a reporter stands: in front of the test that comes before a wait, in a wait, in front of
taking the counters, in front of writing down what it took, or at its end. -/
inductive Reporter.Place where
  | testing
  | waiting
  | taking
  | writing (taken : Metrics)
  | ended
  deriving DecidableEq

/-- A reporter and what it has written so far. -/
structure Reporter where
  place : Reporter.Place := .testing
  written : List Metrics := []
  deriving DecidableEq

namespace Reporter

/-- The next step of a reporter.  `ending` says whether it is to end. -/
def step (ending : Bool) (r : Reporter) (m : Metrics) : Reporter × Metrics :=
  match r.place with
  | .testing => ({ r with place := if ending then .ended else .waiting }, m)
  | .waiting => ({ r with place := if ending then .ended else .taking }, m)
  | .taking =>
    let (taken, left) := m.takeAll
    ({ r with place := .writing taken }, left)
  | .writing taken => ({ place := .testing, written := r.written ++ [taken] }, m)
  | .ended => (r, m)

/-- One turn of a reporter that is in front of its first test: the test, a wait in which `counted`
is counted, and, unless it is to end by then, a line. -/
def turn (counted : List Counter) (endsMeanwhile : Bool) (r : Reporter) (m : Metrics) :
    Reporter × Metrics :=
  let (r, m) := r.step false m
  let (r, m) := r.step endsMeanwhile (m.incrementAll counted)
  let (r, m) := r.step endsMeanwhile m
  r.step endsMeanwhile m

/-- A reporter over intervals, in each of which the given things are counted.  It is told to end in
the one that follows the last of them. -/
def run (intervals : List (List Counter)) (r : Reporter) (m : Metrics) : Reporter × Metrics :=
  let (r, m) := intervals.foldl (fun (r, m) counted => r.turn counted false m) (r, m)
  r.turn [] true m

end Reporter

end LogRelay
