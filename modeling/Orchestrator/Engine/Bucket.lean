import Mathlib.Algebra.Order.Ring.Rat
import Orchestrator.Engine.Scheduler
import Orchestrator.Lib.SharedBucket

/-!
# `Orchestrator.Engine.Bucket`: the rate limiter (`engine/internal/ratelimit/bucket.go`)

`Bucket` with exact rationals in the place of `float64`. `AcquireN` is a loop around a locked
section, which is `Bucket.acquireN` here, and a wait. The length of the wait is not modelled: the
timer of the scheduler's model fires at any time, which includes the time that the source computes.

A new bucket is full, and its capacity is the number of requests. The section refills the bucket by
the time since the last section, up to the capacity, and takes the amount when it is there. A
refused request has refilled the bucket all the same.

`acquireN_view` says that the section is a request to a token bucket, so the library bounds what it
gives out. `Bucket.acquirers` has the runs of any number of calls of `AcquireN` on one bucket, and
`bucketLimiter` is the limiter that the scheduler is given.

With rounding the bounds do not hold to the last bit, and a bucket may never fill.
`Orchestrator.Engine.FloatBucket` has the arithmetic of the source, for the results about progress.
-/

set_option autoImplicit false

namespace Orchestrator.Engine

open Orchestrator.Lib

/-- `Bucket`, with exact numbers. The lock of the source is not a field: a step of a goroutine is a
whole locked section.

It serves the results that take the arithmetic to be exact. `FloatBucket` is the same record with
the numbers of the source. -/
structure Bucket where
  tokens : ℚ
  capacity : ℚ
  /-- Tokens per second. -/
  rate : ℚ
  /-- In nanoseconds. -/
  updated : Nat
deriving DecidableEq

/-- The seconds of a number of nanoseconds. -/
def seconds (ns : Nat) : ℚ := (ns : ℚ) / 1000000000

/-- Later instants have more seconds. -/
theorem seconds_mono {m n : Nat} (h : m ≤ n) : seconds m ≤ seconds n := by
  unfold seconds
  exact div_le_div_of_nonneg_right (by exact_mod_cast h) (by norm_num)

namespace Bucket

/-- `New`. -/
def new (rate per : ℚ) (now : Nat) : Bucket :=
  let capacity := rate
  { tokens := capacity, capacity := capacity, rate := rate / per, updated := now }

/-- `refill`: the time since the last refill times the rate, up to the capacity. -/
def refill (b : Bucket) (now : Nat) : Bucket :=
  let elapsed := seconds now - seconds b.updated
  let tokens := b.tokens + elapsed * b.rate
  { b with tokens := if tokens > b.capacity then b.capacity else tokens, updated := now }

/-- The locked section of `AcquireN`. -/
def acquireN (b : Bucket) (n : ℚ) (now : Nat) : Bool × Bucket :=
  let b := b.refill now
  if b.tokens ≥ n then (true, { b with tokens := b.tokens - n }) else (false, b)

/-- Any number of goroutines in `AcquireN`, on one new bucket. -/
def acquirers (rate per : ℚ) (start : Nat) :
    System (SharedBucket.State Bucket ℚ) (SharedBucket.Action ℚ) :=
  SharedBucket.acquirers (fun b n now => some (b.acquireN n now)) (new rate per start) start

/-- The bucket as a token bucket. What the bucket does in a locked section is what the token bucket
does (`acquireN_view`), so the bounds on the latter hold of it. -/
def view (b : Bucket) : TokenBucket ℚ where
  tokens := b.tokens
  capacity := b.capacity
  rate := b.rate
  updated := seconds b.updated

/-- A refill is one of the token bucket, at the instant in seconds. -/
theorem refill_view (b : Bucket) (now : Nat) :
    (b.refill now).view = b.view.refill (seconds now) := by
  have htokens : (b.refill now).tokens
      = min b.capacity (b.tokens + (seconds now - seconds b.updated) * b.rate) := by
    show (if _ > _ then _ else _) = _
    split
    · rename_i h
      exact (min_eq_left (le_of_lt h)).symm
    · rename_i h
      exact (min_eq_right (not_lt.mp h)).symm
  unfold view TokenBucket.refill
  rw [htokens]
  rfl

/-- The locked section is a request to a token bucket. -/
theorem acquireN_view {b b' : Bucket} {n : ℚ} {now : Nat} {ok : Bool}
    (h : b.acquireN n now = (ok, b')) : b.view.take n (seconds now) = (ok, b'.view) := by
  unfold TokenBucket.take
  simp only [← refill_view]
  simp only [acquireN] at h
  show (if n ≤ (b.refill now).tokens then _ else _) = _
  split at h
  · rename_i hle
    cases h
    exact if_pos hle
  · rename_i hlt
    cases h
    exact if_neg hlt

/-- The locked section sets the instant of the last refill. -/
theorem acquireN_updated {b b' : Bucket} {n : ℚ} {now : Nat} {ok : Bool}
    (h : b.acquireN n now = (ok, b')) : b'.updated = now := by
  simp only [acquireN] at h
  split at h <;> cases h <;> rfl

end Bucket

/-- The limiter that `Run` builds for a rate limit. -/
def bucketLimiter : Limiter Bucket where
  new requests per now := Bucket.new requests per now
  tryAcquire b now := b.acquireN 1 now

end Orchestrator.Engine
