import Mathlib.Data.Rat.Floor
import Orchestrator.Engine.Bucket
import Orchestrator.Engine.Decode
import Orchestrator.Lib.Extended

/-!
# `Orchestrator.Engine.Durations`: the conversions to `time.Duration`

Three places turn seconds into a `time.Duration`, a signed 64-bit number of nanoseconds: the
deadline of an attempt (`executeTask`), the sleep between two attempts (`sleepWithJitter`) and the
wait of a limiter (`AcquireN`). A `float64` is an exact number with the special values, so the
divisions by a rate or a period of zero are as in the engine. `toDuration` has no result where Go
leaves the result to the implementation.

The texts of durations have no upper bound, and neither the schema nor `Parse` sets one. The sleep
doubles with each attempt, and the wait divides by a rate that a long period makes small. So each of
the three conversions can leave the range, and the module on their bounds says exactly when.

Each definition returns what is converted, before the conversion. The jitter of a sleep is the
parameter `rnd`, a number from 0 below 1.
-/

set_option autoImplicit false

namespace Orchestrator.Engine

open Orchestrator.Lib

/-- `float64(time.Second)`. -/
def nanosPerSecond : ℚ := 1000000000

/-- `time.Duration(x)`. -/
def toDuration (x : Extended ℚ) : Option Int := x.toSigned 64

/-- What `executeTask` converts: the timeout of the attempt. -/
def timeoutNanos (timeout : Duration) : Extended ℚ := .fin (nanosPerSecond * timeout)

/-- What `sleepWithJitter` converts, if it sleeps. `rnd` is `rand.Float64()`, so with jitter the
result lies between half the base and the whole of it. The exponential base doubles with each
attempt and has no ceiling. -/
def sleepWithJitter (r : Retry) (attempt : Int) (rnd : ℚ) : Option (Extended ℚ) :=
  if r.backoff = "none" then none
  else
    let base := if r.backoff = "fixed" then r.base else r.base * 2 ^ (attempt - 1)
    let base := if r.jitter = true ∧ base > 0 then base * (1 / 2 + rnd / 2) else base
    if base > 0 then some (.fin (base * nanosPerSecond)) else none

/-- The rate of the limiter that `Run` builds, as `New` computes it. -/
def limiterRate (requests : Int) (per : Duration) : Extended ℚ :=
  .div (.fin requests) (.fin per)

/-- What `AcquireN` converts when the tokens fall short. -/
def waitNanos (requests : Int) (per : Duration) (deficit : ℚ) : Extended ℚ :=
  .div (.fin (nanosPerSecond * deficit)) (limiterRate requests per)

end Orchestrator.Engine
