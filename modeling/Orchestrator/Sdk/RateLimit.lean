import Mathlib.Data.Rat.Defs
import Mathlib.Algebra.Order.Ring.Rat
import Orchestrator.Lib.SharedBucket
import Orchestrator.Sdk.Spec

/-!
# `Orchestrator.Sdk.RateLimit`: the token bucket (`sdk-python/orchestrator/ratelimit.py`)

`TokenBucket` with exact rationals in the place of floats. The monotonic clock counts nanoseconds.
`asyncio.Lock` is left out: the section it guards has no `await`, so no coroutine ever finds it
taken.

A coroutine in `acquire` goes round a loop: it refills, takes its tokens if they are there, and
sleeps otherwise. `TokenBucket.acquire` is one round, and a sleep may end at any later instant, so a
theorem about all runs covers every length of a sleep. `TokenBucket.acquirers` puts any number of
coroutines on one bucket.

`bucketFor` and `tokenBucketFor` build the bucket of a limit. Where there is none the code takes a
`NullBucket`, which is `none` here.
-/

set_option autoImplicit false

namespace Orchestrator.Sdk

open Orchestrator.Lib

/-- A token bucket. It is refilled when it is asked, not by a timer, up to the instant `updated`. -/
structure TokenBucket where
  /-- Tokens added per `per` seconds. -/
  rate : ℚ
  per : ℚ
  capacity : ℚ
  tokens : ℚ
  name : String
  /-- `_updated`. -/
  updated : Nat
deriving DecidableEq

namespace TokenBucket

/-- `TokenBucket(rate, per, capacity, name)`, at a given instant. It starts full. Without a capacity
of its own it holds what one period brings. -/
def make (rate per : ℚ) (capacity : Option ℚ) (name : String) (now : Nat) :
    Except PyError TokenBucket :=
  if rate ≤ 0 ∨ per ≤ 0 then .error (.valueError "rate and per must be positive")
  else
    let capacity := capacity.getD rate
    .ok
      { rate := rate
        per := per
        capacity := capacity
        tokens := capacity
        name := name
        updated := now }

/-- `_refill`: the tokens for the time since the last call, up to the capacity. -/
def refill (b : TokenBucket) (now : Nat) : TokenBucket :=
  let elapsed : ℚ := ((now : ℚ) - b.updated) / 1000000000
  { b with
      tokens := min b.capacity (b.tokens + elapsed * (b.rate / b.per))
      updated := now }

/-- One round of `acquire`: whether the amount is granted, and the bucket afterwards. The code
compares the amount with the capacity before its first round only. The capacity of a bucket
does not change. In the message the amount is a float and the capacity, which comes from the
document, an integer where it is one. -/
def acquire (lib : PyLib) (b : TokenBucket) (amount : ℚ) (now : Nat) :
    Except PyError (Bool × TokenBucket) :=
  if amount > b.capacity then
    .error (.valueError (s!"requested {lib.repr (.num (.float amount))} exceeds bucket capacity " ++
      lib.repr (.num (.ofRat b.capacity))))
  else
    let b := b.refill now
    if b.tokens ≥ amount then .ok (true, { b with tokens := b.tokens - amount })
    else .ok (false, b)

/-- Any number of coroutines in `acquire`, on one bucket. -/
def acquirers (lib : PyLib) (b : TokenBucket) (start : Nat) :
    System (SharedBucket.State TokenBucket ℚ) (SharedBucket.Action ℚ) :=
  SharedBucket.acquirers (fun b amount now => (b.acquire lib amount now).toOption) b start

end TokenBucket

/-- `bucket_for`. `none` is a `NullBucket`, which grants everything. A limit of no requests is
refused here, when the run is prepared, and not when the document is read. -/
def bucketFor (rl : Option RateLimit) (name : String) (now : Nat) :
    Except PyError (Option TokenBucket) :=
  match rl with
  | none => .ok none
  | some rl => (TokenBucket.make rl.requests rl.per (some rl.requests) name now).map some

/-- `token_bucket_for`. There is a bucket only if both the tokens and their period are given. -/
def tokenBucketFor (rl : Option RateLimit) (name : String) (now : Nat) :
    Except PyError (Option TokenBucket) :=
  match rl with
  | none => .ok none
  | some rl =>
    match rl.tokens, rl.perTokens with
    | some tokens, some perTokens =>
      (TokenBucket.make tokens perTokens (some tokens) name now).map some
    | _, _ => .ok none

end Orchestrator.Sdk
