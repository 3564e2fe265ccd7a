import Orchestrator.Engine.Scheduler
import Orchestrator.Lib.Float64

/-!
# `Orchestrator.Engine.FloatBucket`: the `float64` limiter (`engine/internal/ratelimit/bucket.go`)

`Orchestrator.Engine.Bucket` has the limiter with exact numbers. Here the tokens, the capacity and
the rate are `float64`, as in the source. A division by zero gives an infinity or a NaN, a period
beyond the range is an infinity, and a refill that is too small for the last bit of the tokens is
lost.

The order of the operations is the one of the source, since each of them rounds: the elapsed time is
converted to seconds first (`floatSeconds`, in two parts as `Duration.Seconds` does it), then
multiplied by the rate, then added to the tokens. The elapsed time itself is an integer and stops at
the longest `time.Duration`.

A decoded document has the exact value of the text of a period. `ParseDuration` rounds the digits
and then their product or quotient with the unit, and two texts of one value may round differently,
so the rounded period is a parameter (`floatLimiter`). Nothing is assumed of it.

The number of requests is converted to `float64`, which rounds from `2 ^ 53` on. The comparison with
the capacity is `<`, so a NaN among the tokens stays there.
-/

set_option autoImplicit false

namespace Orchestrator.Engine

open Orchestrator.Lib

/-- `Duration.Seconds` of a number of nanoseconds. -/
def floatSeconds (d : Nat) : Float64 :=
  (Float64.ofRat (d / 1000000000 : Nat)).add
    ((Float64.ofRat (d % 1000000000 : Nat)).div (Float64.ofRat 1000000000))

/-- `Bucket`, with the numbers of the source. Its rate may be infinite, for a period that is too
short, and its content then becomes a NaN. It may be zero, for a period that is too long, and then
nothing ever comes in. -/
structure FloatBucket where
  tokens : Float64
  capacity : Float64
  /-- Tokens per second. -/
  rate : Float64
  /-- In nanoseconds. -/
  updated : Nat
deriving DecidableEq

namespace FloatBucket

/-- `New`. -/
def new (rate per : Float64) (now : Nat) : FloatBucket :=
  let capacity := rate
  { tokens := capacity, capacity := capacity, rate := rate.div per, updated := now }

/-- `now.Sub(b.updated)`, which is cut off at the longest `time.Duration`. -/
def elapsed (b : FloatBucket) (now : Nat) : Nat := min (now - b.updated) (2 ^ 63 - 1)

/-- `refill`. Where the elapsed seconds times the rate is below half of the last bit of the tokens,
the tokens stay as they are, and the instant of the refill is set all the same. -/
def refill (b : FloatBucket) (now : Nat) : FloatBucket :=
  let tokens := b.tokens.add ((floatSeconds (b.elapsed now)).mul b.rate)
  { b with tokens := if b.capacity.lt tokens then b.capacity else tokens, updated := now }

/-- The locked section of `AcquireN`. -/
def acquireN (b : FloatBucket) (n : Float64) (now : Nat) : Bool × FloatBucket :=
  let b := b.refill now
  if n.le b.tokens then (true, { b with tokens := b.tokens.sub n }) else (false, b)

/-- The locked section sets the instant of the last refill. -/
theorem acquireN_updated (b : FloatBucket) (n : Float64) (now : Nat) :
    (b.acquireN n now).2.updated = now := by
  unfold acquireN
  dsimp only
  split <;> rfl

end FloatBucket

/-- The amount that `Acquire` asks for. -/
def oneToken : Float64 := .finite 1

/-- The limiter that `Run` builds for a rate limit. `period` is the `float64` that `ParseDuration`
made of a period. -/
def floatLimiter (period : Duration → Float64) : Limiter FloatBucket where
  new requests per now := FloatBucket.new (Float64.ofRat requests) (period per) now
  tryAcquire b now := b.acquireN oneToken now

end Orchestrator.Engine
