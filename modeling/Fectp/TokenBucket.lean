import Fectp.Execution
import Fectp.Float

namespace Fectp

/-!
# What a run costs, and token buckets

The costs of a run's events add up.  A bucket fills at a steady rate, and what
is had from it is paid out of it.
-/

namespace Execution

variable {State Event : Type*} {step : State → Event → State}

/-- What the events of a run cost, each in the state it is applied to. -/
def total (step : State → Event → State) (cost : State → Event → Nat) :
    State → List Event → Nat
  | _, [] =>
      0
  | state, event :: rest =>
      cost state event + total step cost (step state event) rest

/-- Events that each cost less cost less together. -/
theorem total_le_total {cost more : State → Event → Nat} {state : State} {events : List Event}
    (less : Admits step (fun state event => cost state event ≤ more state event) state events) :
    total step cost state events ≤ total step more state events := by
  induction events generalizing state with
  | nil => exact le_refl 0
  | cons event rest inductionHypothesis => exact Nat.add_le_add less.1 (inductionHypothesis less.2)

end Execution

namespace TokenBucket

/--
Refills a bucket at so much a second for so many nanoseconds, up to the most it
holds, and takes a price out of it if it is there.
-/
def spend
    (format : FloatFormat)
    (left : Int)
    (elapsed : Nat)
    (rate most price : Int) :
    Bool × Int :=
  let refill := format.mul (format.seconds elapsed) rate
  let left := min (format.add left refill) most
  if left < price then (false, left) else (true, format.sub left price)

end TokenBucket

end Fectp
