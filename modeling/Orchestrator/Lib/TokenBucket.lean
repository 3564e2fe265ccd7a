import Mathlib.Algebra.Order.Field.Basic
import Mathlib.Tactic.Linarith
import Mathlib.Tactic.Ring

/-!
# `Orchestrator.Lib.TokenBucket`: token buckets

A bucket refills at a constant rate, up to its capacity, and gives out what it holds. The amount
given out between two instants is at most the capacity plus the refill of the time between them
(`Spent.le`).

`Spent` is the invariant behind it, for a bucket whose refill is only computed when somebody asks:
what was given out and what is left come from the initial capacity and from the refill so far. It
speaks of an amount that is given out at least, so it can be used for a window of time that starts
when the bucket is not full. `Spent.refill`, `Spent.take_true` and `Spent.take_false` keep it.

`exists_enough` is the other direction: what the bucket can hold, it holds at some time.

The numbers are those of a linearly ordered field, so the arithmetic is exact. A bucket with rounded
numbers needs other lemmas, and `Orchestrator.Lib.BucketProgress` asks only for what such a bucket
still does.
-/

set_option autoImplicit false

namespace Orchestrator.Lib

/-- A bucket, with the instant its content was computed at. Between two instants the content is not
stored anywhere: whoever looks at the bucket first adds what has come in since `updated`. -/
structure TokenBucket (α : Type*) where
  tokens : α
  capacity : α
  rate : α
  updated : α

namespace TokenBucket

variable {α : Type*} [Field α] [LinearOrder α]

/-- The bucket at a later instant. -/
def refill (b : TokenBucket α) (now : α) : TokenBucket α :=
  { b with tokens := min b.capacity (b.tokens + (now - b.updated) * b.rate), updated := now }

/-- Take an amount if there is enough. -/
def take (b : TokenBucket α) (amount now : α) : Bool × TokenBucket α :=
  let b := b.refill now
  if amount ≤ b.tokens then (true, { b with tokens := b.tokens - amount }) else (false, b)

/-- A request sets the instant of the content. -/
@[simp] theorem take_updated (b : TokenBucket α) (amount now : α) :
    (b.take amount now).2.updated = now := by
  unfold take
  by_cases hle : amount ≤ (b.refill now).tokens
  · simp only [hle, if_true]
    rfl
  · simp only [hle, if_false]
    rfl

/-- A refused request only refills the bucket. -/
theorem take_refused {b b' : TokenBucket α} {amount now : α}
    (h : b.take amount now = (false, b')) : b' = b.refill now := by
  unfold take at h
  by_cases hle : amount ≤ (b.refill now).tokens
  · simp only [hle, if_true, Prod.mk.injEq, Bool.true_eq_false, false_and] at h
  · simp only [hle, if_false, Prod.mk.injEq, true_and] at h
    exact h.symm

/-- The bucket of a capacity and a rate, full since `start`, has given out at least `spent`.
`budget` is the potential: given out and left together never exceed what was there at the start and
what has come in since. -/
structure Spent (capacity rate start : α) (b : TokenBucket α) (spent : α) : Prop where
  capacity_eq : b.capacity = capacity
  rate_eq : b.rate = rate
  tokens_nonneg : 0 ≤ b.tokens
  budget : spent + b.tokens ≤ capacity + rate * (b.updated - start)

variable {capacity rate start spent now amount : α} {b b' : TokenBucket α}

/-- A full bucket has given out nothing. -/
theorem spent_full (hcap : 0 ≤ capacity) :
    Spent capacity rate start
      { tokens := capacity, capacity := capacity, rate := rate, updated := start } 0 where
  capacity_eq := rfl
  rate_eq := rfl
  tokens_nonneg := hcap
  budget := by rw [sub_self, mul_zero, zero_add, add_zero]

variable [IsStrictOrderedRing α]

/-- Less was given out, too. -/
theorem Spent.mono {less : α} (h : Spent capacity rate start b spent) (hle : less ≤ spent) :
    Spent capacity rate start b less where
  capacity_eq := h.capacity_eq
  rate_eq := h.rate_eq
  tokens_nonneg := h.tokens_nonneg
  budget := by
    have := h.budget
    linarith

/-- Refilling a bucket gives out nothing, and what comes in is covered by the time that has
passed. -/
theorem Spent.refill (h : Spent capacity rate start b spent) (hcap : 0 ≤ capacity)
    (hrate : 0 ≤ rate) (hnow : b.updated ≤ now) :
    Spent capacity rate start (b.refill now) spent where
  capacity_eq := h.capacity_eq
  rate_eq := h.rate_eq
  tokens_nonneg := by
    have hgain : 0 ≤ (now - b.updated) * b.rate :=
      mul_nonneg (sub_nonneg.mpr hnow) (h.rate_eq ▸ hrate)
    exact le_min (h.capacity_eq ▸ hcap) (add_nonneg h.tokens_nonneg hgain)
  budget := by
    have hle : (b.refill now).tokens ≤ b.tokens + (now - b.updated) * b.rate := min_le_right _ _
    rw [h.rate_eq] at hle
    have hsplit : rate * (now - start)
        = rate * (b.updated - start) + (now - b.updated) * rate := by ring
    show spent + (b.refill now).tokens ≤ capacity + rate * (now - start)
    rw [hsplit]
    have := h.budget
    linarith

/-- What is taken is given out. -/
theorem Spent.take_true (h : Spent capacity rate start b spent) (hcap : 0 ≤ capacity)
    (hrate : 0 ≤ rate) (hnow : b.updated ≤ now) (htake : b.take amount now = (true, b')) :
    Spent capacity rate start b' (spent + amount) := by
  have hr := h.refill hcap hrate hnow
  unfold take at htake
  by_cases hle : amount ≤ (b.refill now).tokens
  · simp only [hle, if_true, Prod.mk.injEq, true_and] at htake
    subst htake
    refine ⟨hr.capacity_eq, hr.rate_eq, sub_nonneg.mpr hle, ?_⟩
    have := hr.budget
    show spent + amount + ((b.refill now).tokens - amount) ≤ _
    linarith
  · simp only [hle, if_false, Prod.mk.injEq, Bool.false_eq_true, false_and] at htake

/-- A refused request gives out nothing. -/
theorem Spent.take_false (h : Spent capacity rate start b spent) (hcap : 0 ≤ capacity)
    (hrate : 0 ≤ rate) (hnow : b.updated ≤ now) (htake : b.take amount now = (false, b')) :
    Spent capacity rate start b' spent := by
  have hr := h.refill hcap hrate hnow
  unfold take at htake
  by_cases hle : amount ≤ (b.refill now).tokens
  · simp only [hle, if_true, Prod.mk.injEq, Bool.true_eq_false, false_and] at htake
  · simp only [hle, if_false, Prod.mk.injEq, true_and] at htake
    subst htake
    exact hr

/-- The amount given out by an instant, whenever the last request was: the time since then only adds
to the bound. -/
theorem Spent.le (h : Spent capacity rate start b spent) (hrate : 0 ≤ rate)
    (hnow : b.updated ≤ now) : spent ≤ capacity + rate * (now - start) := by
  have hmono : rate * (b.updated - start) ≤ rate * (now - start) :=
    mul_le_mul_of_nonneg_left (by linarith) hrate
  have := h.budget
  have := h.tokens_nonneg
  linarith

/-- Two refills are one, so it does not matter how often the content is computed. The cap does not
spoil this, since the rate is not negative. -/
theorem refill_refill (b : TokenBucket α) {before : α} (hrate : 0 ≤ b.rate) (hle : before ≤ now) :
    (b.refill before).refill now = b.refill now := by
  have hgain : 0 ≤ (now - before) * b.rate := mul_nonneg (sub_nonneg.mpr hle) hrate
  have hsplit : b.tokens + (before - b.updated) * b.rate + (now - before) * b.rate
      = b.tokens + (now - b.updated) * b.rate := by ring
  have htokens : min b.capacity
      (min b.capacity (b.tokens + (before - b.updated) * b.rate) + (now - before) * b.rate)
        = min b.capacity (b.tokens + (now - b.updated) * b.rate) := by
    rw [← min_add_add_right, hsplit, ← min_assoc, min_eq_left (le_add_of_nonneg_right hgain)]
  exact congrArg (fun t => { b with tokens := t, updated := now }) htokens

/-- A bucket that can hold an amount has it from some instant on. -/
theorem exists_enough (b : TokenBucket α) (hrate : 0 < b.rate) (hle : amount ≤ b.capacity) :
    ∃ start, ∀ now, start ≤ now → amount ≤ (b.refill now).tokens := by
  refine ⟨b.updated + (amount - b.tokens) / b.rate, fun now hnow => le_min hle ?_⟩
  have hgain : (amount - b.tokens) / b.rate * b.rate ≤ (now - b.updated) * b.rate :=
    mul_le_mul_of_nonneg_right (by linarith) hrate.le
  rw [div_mul_cancel₀ _ hrate.ne'] at hgain
  linarith

end TokenBucket

end Orchestrator.Lib
