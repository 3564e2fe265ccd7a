import Orchestrator.Engine.Bucket
import Orchestrator.Proofs.RunnerBuckets
import Orchestrator.Proofs.Serialization

/-!
# `Orchestrator.Proofs.BucketWindow`: what a bucket grants in a window of time

The locked sections of both buckets are requests to a `TokenBucket`, so both keep the books of
`SharedBucket`: the amount granted between any two instants is at most the capacity and what is
refilled between them (`token_bucket_bound`).

The bucket of the engine is `Engine.Bucket`, and that of the SDK `Sdk.TokenBucket`. One is shared by
goroutines under a mutex, the other by the coroutines of an event loop. For the bound this does not
matter, since both are instances of the bucket of `Lib.TokenBucket`, and the argument is made there
once: the tokens in the bucket are a potential, which no grant raises and time raises at the rate of
the bucket.

The runs are those of any number of acquirers, who may come, wait and go at any instant and ask for
any amount between 0 and the capacity. Both buckets compute with exact numbers here; what floating
point makes of the Go bucket is the subject of `FloatBuckets`.
-/

set_option autoImplicit false

namespace Orchestrator.Proofs

open Orchestrator.Lib Orchestrator.Engine

/-- What a bucket of capacity `R` and period `P` holds, and what it grants in a window. -/
structure WithinLimit (R P tokens : ℚ) (grants : List (ℚ × ℚ)) : Prop where
  tokens_nonneg : 0 ≤ tokens
  tokens_le : tokens ≤ R
  window : ∀ s t, s ≤ t → Lib.TokenBucket.givenBetween grants s t ≤ R + R / P * (t - s)

/-- The books of a shared bucket bound its grants. The window may begin and end at any point of the
run. -/
theorem withinLimit_of_booked {B : Type} {view : B → Lib.TokenBucket ℚ} {R P : ℚ}
    {s : SharedBucket.State B ℚ} (h : SharedBucket.Booked view seconds R (R / P) s) :
    WithinLimit R P (view s.bucket).tokens (SharedBucket.timed seconds s) :=
  ⟨h.window.tokens_nonneg, h.window.tokens_le, h.window.between⟩

/-- In every run of acquirers that ask for amounts between 0 and the capacity, the buckets of both
engines hold between 0 and their capacity and grant, in any window, at most the capacity and the
refill of the window.

Each bucket is seen as the token bucket of the library, whose books balance over whole runs
(`SharedBucket.reachable_booked`). What is shown here is that a round of either engine is a request
to that bucket. -/
theorem token_bucket_bound (R P : ℚ) (hR : 1 ≤ R) (hP : 0 < P) (start : Nat) :
    (∀ s, (Bucket.acquirers R P start).ReachableBy (SharedBucket.AsksWithin R) s →
      WithinLimit R P s.bucket.tokens (SharedBucket.timed seconds s)) ∧
    ∀ (lib : Sdk.PyLib) (capacity : Option ℚ) (name : String) (b : Sdk.TokenBucket),
      capacity.getD R = R → Sdk.TokenBucket.make R P capacity name start = .ok b →
      ∀ s, (Sdk.TokenBucket.acquirers lib b start).ReachableBy (SharedBucket.AsksWithin R) s →
        WithinLimit R P s.bucket.tokens (SharedBucket.timed seconds s) := by
  have hcap : 0 ≤ R := zero_le_one.trans hR
  have hrate : 0 ≤ R / P := div_nonneg hcap hP.le
  constructor
  · -- The Go bucket is a token bucket as it stands.
    intro s hs
    exact withinLimit_of_booked (SharedBucket.reachable_booked Bucket.view seconds_mono
      (fun h => Bucket.acquireN_view (Option.some.inj h)) hcap hrate rfl hs)
  · intro lib capacity name b hcapacity hmake s hs
    -- A round of the Python bucket is a request to one, and an amount that never fits raises before
    -- it.
    have hlocked : ∀ {b b' : Sdk.TokenBucket} {amount : ℚ} {now : Nat} {ok : Bool},
        (b.acquire lib amount now).toOption = some (ok, b') →
        b.view.take amount (seconds now) = (ok, b'.view) := by
      intro b b' amount now ok h
      rcases b.acquire_cases lib amount now with ⟨e, he, -⟩ | ⟨g, b₁, hb, -, hview, -⟩
      · rw [he] at h
        cases h
      · rw [hb] at h
        cases h
        exact hview
    have hinit : b.view
        = { tokens := R, capacity := R, rate := R / P, updated := seconds start } := by
      unfold Sdk.TokenBucket.make at hmake
      rw [if_neg (by push Not; exact ⟨by linarith, hP⟩)] at hmake
      cases hmake
      simp only [Sdk.TokenBucket.view, hcapacity]
    exact withinLimit_of_booked (SharedBucket.reachable_booked Sdk.TokenBucket.view
      seconds_mono hlocked hcap hrate hinit hs)

/-- Two acquirers of a bucket of two tokens in ten seconds: the second waits for its token. -/
def twoAcquirers : List (SharedBucket.Action ℚ) :=
  [.call 2, .call 1, .locked 0, .locked 1, .tick 5000000000, .timer 1, .locked 1]

/-- A Python bucket of two tokens in ten seconds, full at the start. It serves the sample run of the
bound. -/
def twoTokens : Sdk.TokenBucket where
  rate := 2
  per := 10
  capacity := 2
  tokens := 2
  name := "global"
  updated := 0

/-- Both buckets grant three tokens within five seconds, as many as a window of that length
allows. -/
theorem token_bucket_bound_two :
    (∃ s, SharedBucket.timed seconds s = [(0, 2), (5, 1)] ∧
      WithinLimit 2 10 s.bucket.tokens (SharedBucket.timed seconds s) ∧
      (Bucket.acquirers 2 10 0).Reachable s) ∧
    ∃ (b : Sdk.TokenBucket) (s : SharedBucket.State Sdk.TokenBucket ℚ),
      SharedBucket.timed seconds s = [(0, 2), (5, 1)] ∧
      WithinLimit 2 10 s.bucket.tokens (SharedBucket.timed seconds s) ∧
      (Sdk.TokenBucket.acquirers asciiLib b 0).Reachable s := by
  constructor
  · -- The runs are computed, and the theorem is applied to the states in which they end.
    have hrun : (((Bucket.acquirers 2 10 0).guard (SharedBucket.asksCheck 2)).run?
        twoAcquirers).any (fun s => SharedBucket.timed seconds s = [(0, 2), (5, 1)]) = true := by
      decide +kernel
    obtain ⟨s, hs, hgrants⟩ := System.exists_of_run hrun
    have hby := System.ReachableBy.of_guard SharedBucket.asksWithin_of_check hs
    exact ⟨s, of_decide_eq_true hgrants,
      (token_bucket_bound 2 10 (by norm_num) (by norm_num) 0).1 s hby, hby.reachable⟩
  · have hrun : (((Sdk.TokenBucket.acquirers asciiLib twoTokens 0).guard
        (SharedBucket.asksCheck 2)).run? twoAcquirers).any
          (fun s => SharedBucket.timed seconds s = [(0, 2), (5, 1)]) = true := by
      decide +kernel
    obtain ⟨s, hs, hgrants⟩ := System.exists_of_run hrun
    have hby := System.ReachableBy.of_guard SharedBucket.asksWithin_of_check hs
    exact ⟨twoTokens, s, of_decide_eq_true hgrants,
      (token_bucket_bound 2 10 (by norm_num) (by norm_num) 0).2 asciiLib none "global" twoTokens
        rfl (by rfl) s hby, hby.reachable⟩

end Orchestrator.Proofs
