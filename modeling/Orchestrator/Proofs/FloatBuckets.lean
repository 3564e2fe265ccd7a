import Mathlib.Algebra.Order.Floor.Semiring
import Orchestrator.Engine.FloatBucket
import Orchestrator.Lib.BucketProgress

/-!
# `Orchestrator.Proofs.FloatBuckets`: what a refill brings in `float64`

As long as the numbers of a bucket are finite, a refill is one rounding of the seconds, one of the
product with the rate and one of the sum, cut off at the capacity (`Level.refill`). No rounding
turns a gain into a loss, so a refusal leaves the bucket at least as full. But a gain may be lost:
below one token the sum is off by up to `2 ^ (-54)` (`nearest_error`). When a nanosecond is worth
more than that, every refusal at a later instant brings the bucket nearer to a token by a fixed
amount, and `floatBucket_fills` is what `eventually_quiet` asks for.

A bucket of more than `2 ^ 53 + 2` requests needs no refill: from `2 ^ 53 + 4` on, taking one token
is lost in the rounding too (`Plenty`).
-/

set_option autoImplicit false

namespace Orchestrator.Proofs

open Orchestrator.Lib Orchestrator.Engine

/-! ### Seconds -/

/-- The number that `Duration.Seconds` computes. -/
def secondsOf (d : Nat) : ℚ :=
  nearest ((d / 1000000000 : Nat) + nearest ((d % 1000000000 : Nat) / 1000000000))

/-- No time is no seconds. -/
theorem secondsOf_zero : secondsOf 0 = 0 := by simp [secondsOf, nearest_zero]

/-- A number of seconds is not negative. -/
theorem secondsOf_nonneg (d : Nat) : 0 ≤ secondsOf d :=
  nearest_nonneg (add_nonneg (Nat.cast_nonneg _) (nearest_nonneg (by positivity)))

/-- The whole seconds are not rounded down. -/
theorem le_secondsOf {n d : Nat} (hn : n ≤ 2 ^ 53) (h : n * 1000000000 ≤ d) :
    (n : ℚ) ≤ secondsOf d := by
  have hle : n ≤ d / 1000000000 := (Nat.le_div_iff_mul_le (by norm_num)).mpr h
  calc (n : ℚ) = nearest n := (nearest_natCast hn).symm
    _ ≤ secondsOf d := nearest_mono (Nat.cast_nonneg n) (le_add_of_le_of_nonneg
        (by exact_mod_cast hle) (nearest_nonneg (by positivity)))

/-- A nanosecond is rounded once. -/
theorem secondsOf_one : secondsOf 1 = nearest (1 / 1000000000) := by
  have h := nearest_idem (q := 1 / 1000000000) (by norm_num)
  simpa [secondsOf] using h

/-- A nanosecond is the shortest time. -/
theorem secondsOf_one_le {d : Nat} (h : 1 ≤ d) : secondsOf 1 ≤ secondsOf d := by
  rw [secondsOf_one]
  by_cases hrest : d % 1000000000 = 0
  · -- Then there is a whole second.
    have hsec : 1 * 1000000000 ≤ d := by omega
    calc nearest (1 / 1000000000) ≤ nearest 1 := nearest_mono (by norm_num) (by norm_num)
      _ = ((1 : Nat) : ℚ) := by rw [nearest_one, Nat.cast_one]
      _ ≤ secondsOf d := le_secondsOf (by norm_num) hsec
  · have hone : (1 : ℚ) ≤ (d % 1000000000 : Nat) := by
      exact_mod_cast Nat.one_le_iff_ne_zero.mpr hrest
    calc nearest (1 / 1000000000) = nearest (nearest (1 / 1000000000)) :=
          (nearest_idem (by norm_num)).symm
      _ ≤ secondsOf d := nearest_mono (nearest_nonneg (by norm_num))
          (le_add_of_nonneg_of_le (Nat.cast_nonneg _) (nearest_mono (by norm_num)
            (div_le_div_of_nonneg_right hone (by norm_num))))

/-- A nanosecond is below a power of two. -/
theorem secondsOf_one_le_zpow : secondsOf 1 ≤ 2 ^ (-29 : Int) := by
  rw [secondsOf_one, ← nearest_two_zpow (e := -29) (by norm_num)]
  exact nearest_mono (by norm_num) (by norm_num)

/-- Small numbers are below the range. -/
theorem lt_range {q : ℚ} (h : q ≤ 2 ^ 53) : q < 2 ^ 1024 :=
  h.trans_lt (pow_lt_pow_right₀ one_lt_two (by norm_num))

/-- Below `2 ^ 63` nanoseconds the conversion gives a finite number, so the times of a run that
lasts less than three centuries are no obstacle. -/
theorem floatSeconds_eq {d : Nat} (h : d < 2 ^ 63) : floatSeconds d = .finite (secondsOf d) := by
  -- The whole seconds are small enough to be represented, and the rest is less than one, so neither
  -- the quotient nor the sum overflows.
  have hsec : d / 1000000000 ≤ 2 ^ 52 := by omega
  have hfrac : ((d % 1000000000 : Nat) : ℚ) / 1000000000 ≤ 1 := by
    rw [div_le_one (by norm_num)]
    exact_mod_cast (Nat.mod_lt d (by norm_num)).le
  have hnear : nearest (((d % 1000000000 : Nat) : ℚ) / 1000000000) ≤ 1 :=
    (nearest_mono (by positivity) hfrac).trans_eq nearest_one
  have hbillion : Float64.ofRat 1000000000 = .finite 1000000000 := by
    simpa using Float64.ofRat_natCast (n := 1000000000) (by norm_num)
  have hsum : secondsOf d ≤ 2 ^ 53 := by
    have hle : ((d / 1000000000 : Nat) : ℚ)
        + nearest (((d % 1000000000 : Nat) : ℚ) / 1000000000) ≤ ((2 ^ 53 : Nat) : ℚ) := by
      have hsec' : ((d / 1000000000 : Nat) : ℚ) ≤ ((2 ^ 52 : Nat) : ℚ) := by exact_mod_cast hsec
      push_cast at hsec' ⊢
      linarith
    calc secondsOf d ≤ nearest ((2 ^ 53 : Nat) : ℚ) :=
          nearest_mono (add_nonneg (Nat.cast_nonneg _) (nearest_nonneg (by positivity))) hle
      _ = 2 ^ 53 := by rw [nearest_natCast le_rfl]; norm_num
  unfold floatSeconds
  rw [Float64.ofRat_natCast (by omega), Float64.ofRat_natCast (by omega), hbillion,
    Float64.div_finite (by norm_num),
    Float64.ofRat_finite (by positivity) (lt_range (hnear.trans (by norm_num)))]
  exact Float64.ofRat_finite (add_nonneg (Nat.cast_nonneg _) (nearest_nonneg (by positivity)))
    (lt_range hsum)

/-! ### Levels -/

/-- The bucket holds `t` tokens, all its numbers being finite. The content stays between zero and
the capacity, so no sum of the arithmetic leaves the range. -/
structure Level (cap r : ℚ) (b : FloatBucket) (t : ℚ) : Prop where
  tokens : b.tokens = .finite t
  capacity : b.capacity = .finite cap
  rate : b.rate = .finite r
  nonneg : 0 ≤ t
  le : t ≤ cap
  /-- The tokens are a `float64`. -/
  float : nearest t = t

/-- What the bucket holds after a refill of `d` nanoseconds. -/
def refilled (cap r t : ℚ) (d : Nat) : ℚ := min cap (nearest (t + nearest (secondsOf d * r)))

/-- The capacity and the rate of a limiter whose numbers are finite. A limit whose period is zero,
or overflows, has no such numbers. -/
structure Proper (cap r : ℚ) : Prop where
  rate_pos : 0 < r
  one_le : 1 ≤ cap
  lt : cap < 2 ^ 1024
  /-- The capacity is a `float64`. -/
  float : nearest cap = cap

section Levels

variable {cap r t : ℚ} {b : FloatBucket}

/-- A refill loses nothing. -/
theorem Level.le_refilled (h : Level cap r b t) (hp : Proper cap r) (d : Nat) :
    t ≤ refilled cap r t d := by
  have hgain : 0 ≤ nearest (secondsOf d * r) :=
    nearest_nonneg (mul_nonneg (secondsOf_nonneg d) hp.rate_pos.le)
  exact le_min h.le (h.float.symm.trans_le (nearest_mono h.nonneg (le_add_of_nonneg_right hgain)))

/-- At the instant of the last request nothing comes in. -/
theorem Level.refilled_zero (h : Level cap r b t) : refilled cap r t 0 = t := by
  unfold refilled
  rw [secondsOf_zero, zero_mul, nearest_zero, add_zero, h.float, min_eq_right h.le]

/-- A refill of a bucket of finite numbers leaves finite numbers. What comes in may overflow, and
the minimum with the capacity takes it back. -/
theorem Level.refill (h : Level cap r b t) (hp : Proper cap r) (now : Nat) :
    Level cap r (b.refill now) (refilled cap r t (b.elapsed now)) := by
  have helapsed : b.elapsed now < 2 ^ 63 := by
    unfold FloatBucket.elapsed
    omega
  have hprod : 0 ≤ secondsOf (b.elapsed now) * r := mul_nonneg (secondsOf_nonneg _) hp.rate_pos.le
  have hgain := nearest_nonneg hprod
  have hsum := add_nonneg h.nonneg hgain
  -- A product beyond the range makes a sum beyond the range.
  have hadd : (Float64.finite t).add ((floatSeconds (b.elapsed now)).mul (.finite r))
      = Float64.ofRat (t + nearest (secondsOf (b.elapsed now) * r)) := by
    rw [floatSeconds_eq helapsed, Float64.mul_finite, Float64.ofRat_of_nonneg hprod]
    split
    · rename_i hle
      have hmore : nearest (secondsOf (b.elapsed now) * r)
          ≤ nearest (t + nearest (secondsOf (b.elapsed now) * r)) :=
        (nearest_idem hprod).symm.trans_le
          (nearest_mono hgain (le_add_of_nonneg_left h.nonneg))
      exact (Float64.ofRat_infinite hsum (hle.trans hmore)).symm
    · rfl
  have htokens : (b.refill now).tokens = .finite (refilled cap r t (b.elapsed now)) := by
    unfold FloatBucket.refill
    simp only [h.tokens, h.capacity, h.rate, hadd, Float64.ofRat_of_nonneg hsum]
    by_cases hbeyond : 2 ^ 1024 ≤ nearest (t + nearest (secondsOf (b.elapsed now) * r))
    · rw [if_pos hbeyond, Float64.lt_infinite, if_pos rfl, refilled,
        min_eq_left (hp.lt.le.trans hbeyond)]
    · rw [if_neg hbeyond, Float64.lt_finite]
      by_cases hover : cap < nearest (t + nearest (secondsOf (b.elapsed now) * r))
      · rw [if_pos (decide_eq_true hover), refilled, min_eq_left hover.le]
      · rw [if_neg (by simpa using hover), refilled, min_eq_right (not_lt.mp hover)]
  refine ⟨htokens, h.capacity, h.rate, h.nonneg.trans (h.le_refilled hp _), min_le_left _ _, ?_⟩
  unfold refilled
  rcases min_choice cap (nearest (t + nearest (secondsOf (b.elapsed now) * r))) with hmin | hmin
  · rw [hmin, hp.float]
  · rw [hmin, nearest_idem hsum]

/-- A request is granted when the refilled bucket holds a token, which is then taken from it. -/
theorem Level.granted (h : Level cap r b t) (hp : Proper cap r) {now : Nat}
    (hone : 1 ≤ refilled cap r t (b.elapsed now)) :
    (b.acquireN oneToken now).1 = true ∧ Level cap r (b.acquireN oneToken now).2
      (nearest (refilled cap r t (b.elapsed now) - 1)) := by
  have hlevel := h.refill hp now
  have hle : oneToken.le (b.refill now).tokens = true := by
    rw [hlevel.tokens]
    exact decide_eq_true hone
  have hsub : 0 ≤ refilled cap r t (b.elapsed now) - 1 := sub_nonneg.mpr hone
  -- A bucket that gives a token away is not fuller than before, even after rounding.
  have hdown : nearest (refilled cap r t (b.elapsed now) - 1) ≤ refilled cap r t (b.elapsed now) :=
    (nearest_mono hsub (sub_le_self _ zero_le_one)).trans_eq hlevel.float
  have htokens : (b.refill now).tokens.sub oneToken
      = .finite (nearest (refilled cap r t (b.elapsed now) - 1)) := by
    rw [hlevel.tokens, oneToken, Float64.sub_finite,
      Float64.ofRat_finite hsub (hdown.trans_lt (hlevel.le.trans_lt hp.lt))]
  unfold FloatBucket.acquireN
  simp only [hle, if_true, htokens, true_and]
  exact ⟨rfl, hlevel.capacity, hlevel.rate, nearest_nonneg hsub, hdown.trans hlevel.le,
    nearest_idem hsub⟩

/-- Otherwise it is refused, and the refill stays. -/
theorem Level.refused (h : Level cap r b t) (hp : Proper cap r) {now : Nat}
    (hone : refilled cap r t (b.elapsed now) < 1) :
    (b.acquireN oneToken now).1 = false ∧ Level cap r (b.acquireN oneToken now).2
      (refilled cap r t (b.elapsed now)) := by
  have hlevel := h.refill hp now
  have hle : oneToken.le (b.refill now).tokens = false := by
    rw [hlevel.tokens]
    exact decide_eq_false (not_le.mpr hone)
  unfold FloatBucket.acquireN
  simp only [hle, Bool.false_eq_true, if_false, true_and]
  exact hlevel

/-- A refusal at a later instant brings at least what a nanosecond is worth, up to the rounding. -/
theorem Level.gain (h : Level cap r b t) (hp : Proper cap r) {d : Nat} (hd : 1 ≤ d)
    (hone : refilled cap r t d < 1) :
    t + (nearest (secondsOf 1 * r) - 1 / 2 ^ 54) ≤ refilled cap r t d := by
  have hprod : 0 ≤ secondsOf 1 * r := mul_nonneg (secondsOf_nonneg _) hp.rate_pos.le
  have hmore : nearest (secondsOf 1 * r) ≤ nearest (secondsOf d * r) :=
    nearest_mono hprod (mul_le_mul_of_nonneg_right (secondsOf_one_le hd) hp.rate_pos.le)
  have hsum : 0 ≤ t + nearest (secondsOf d * r) :=
    add_nonneg h.nonneg ((nearest_nonneg hprod).trans hmore)
  -- The refill stays below a token, so it is not cut off at the capacity, and the rounding of the
  -- sum costs no more than `2 ^ (-54)`.
  have hmin : refilled cap r t d = nearest (t + nearest (secondsOf d * r)) := by
    refine min_eq_right (le_of_not_gt fun hover => ?_)
    have heq : refilled cap r t d = cap := min_eq_left hover.le
    exact absurd (heq ▸ hone) (not_lt.mpr hp.one_le)
  have hbelow : t + nearest (secondsOf d * r) ≤ 1 := by
    by_contra hover
    have := nearest_mono zero_le_one (le_of_not_ge hover)
    rw [nearest_one, ← hmin] at this
    exact absurd hone (not_lt.mpr this)
  have herror := nearest_error hsum hbelow
  rw [hmin]
  linarith

end Levels

/-! ### Goroutines -/

/-- The locked section, which does not fail. -/
def lockedSection (b : FloatBucket) (n : Float64) (now : Nat) : Option (Bool × FloatBucket) :=
  some (b.acquireN n now)

/-- Any number of goroutines in `AcquireN` on a limiter. -/
def sharers (b : FloatBucket) (start : Nat) :
    System (SharedBucket.State FloatBucket Float64) (SharedBucket.Action Float64) :=
  SharedBucket.acquirers lockedSection b start

/-- The calls are calls of `Acquire`. -/
def AsksOne (_ : SharedBucket.State FloatBucket Float64) (a : SharedBucket.Action Float64) : Prop :=
  ∀ amount, a = .call amount → amount = oneToken

/-! ### Progress -/

/-- The number, if it is one. -/
def number : Float64 → ℚ
  | .finite q => q
  | _ => 0

/-- The bucket comes to a token, however often it is asked: a nanosecond is worth more than the
rounding takes away, or there are so many tokens that taking one changes nothing. -/
def FillsUp (b : FloatBucket) : Prop :=
  ∃ cap r t, Proper cap r ∧ Level cap r b t ∧
    (1 / 2 ^ 54 < nearest (secondsOf 1 * r) ∨ 2 ^ 53 + 4 ≤ t)

/-- How many refusals, each later than the one before, the bucket is away from a token at most. -/
def refusalsLeft (b : FloatBucket) : Nat :=
  ⌈(1 - number b.tokens) / (nearest (secondsOf 1 * number b.rate) - 1 / 2 ^ 54)⌉₊

/-- The refusals left to a bucket of finite numbers, from what it holds. -/
theorem Level.refusalsLeft {cap r t : ℚ} {b : FloatBucket} (h : Level cap r b t) :
    refusalsLeft b = ⌈(1 - t) / (nearest (secondsOf 1 * r) - 1 / 2 ^ 54)⌉₊ := by
  unfold Proofs.refusalsLeft
  rw [h.tokens, h.rate]
  rfl

/-- So many tokens, less one, are rounded up again. -/
theorem plenty_le_nearest {q : ℚ} (h : 2 ^ 53 + 3 ≤ q) : 2 ^ 53 + 4 ≤ nearest q := by
  have htie := nearest_middle (n := 2 ^ 52 + 1) (by norm_num) (by norm_num) (e := 1) (by norm_num)
  have heq : (((2 ^ 52 + 1 : Nat) : ℚ) + 1 / 2) * 2 ^ (1 : Int) = 2 ^ 53 + 3 := by norm_num
  calc (2 : ℚ) ^ 53 + 4 = nearest (2 ^ 53 + 3) := by
        rw [← heq, htie]
        norm_num
    _ ≤ nearest q := nearest_mono (by norm_num) h

variable {b : FloatBucket}

/-- A request keeps it so. -/
theorem FillsUp.acquireN (h : FillsUp b) (now : Nat) : FillsUp (b.acquireN oneToken now).2 := by
  obtain ⟨cap, r, t, hp, hlevel, hgain⟩ := h
  have hmore := hlevel.le_refilled hp (b.elapsed now)
  rcases le_or_gt 1 (refilled cap r t (b.elapsed now)) with hone | hone
  · refine ⟨cap, r, _, hp, (hlevel.granted hp hone).2,
      hgain.imp_right fun hplenty => plenty_le_nearest ?_⟩
    have := hplenty.trans hmore
    linarith
  · exact ⟨cap, r, _, hp, (hlevel.refused hp hone).2,
      hgain.imp_right fun hplenty => hplenty.trans hmore⟩

/-- A refused request, and a later one. The later one finds less missing, by an amount that does not
depend on the bucket, so there are not many refusals. -/
theorem FillsUp.refused (h : FillsUp b) {now : Nat}
    (hrefused : (b.acquireN oneToken now).1 = false) :
    refusalsLeft (b.acquireN oneToken now).2 ≤ refusalsLeft b ∧
      (b.updated < now → refusalsLeft (b.acquireN oneToken now).2 < refusalsLeft b) := by
  obtain ⟨cap, r, t, hp, hlevel, hgain⟩ := h
  have hmore := hlevel.le_refilled hp (b.elapsed now)
  have hone : refilled cap r t (b.elapsed now) < 1 := by
    by_contra hle
    rw [(hlevel.granted hp (not_lt.mp hle)).1] at hrefused
    cases hrefused
  have hpos : 0 < nearest (secondsOf 1 * r) - 1 / 2 ^ 54 := by
    rcases hgain with hgain | hplenty
    · exact sub_pos.mpr hgain
    · have hlarge : (1 : ℚ) ≤ 2 ^ 53 + 4 := by norm_num
      exact absurd hone (not_lt.mpr (hlarge.trans (hplenty.trans hmore)))
  rw [hlevel.refusalsLeft, (hlevel.refused hp hone).2.refusalsLeft]
  refine ⟨Nat.ceil_mono (div_le_div_of_nonneg_right (by linarith) hpos.le), fun hlater => ?_⟩
  have helapsed : 1 ≤ b.elapsed now := by
    unfold FloatBucket.elapsed
    omega
  have hup := hlevel.gain hp helapsed hone
  -- The distance to a token shrinks by one step at least.
  have hstep : (1 - refilled cap r t (b.elapsed now)) / (nearest (secondsOf 1 * r) - 1 / 2 ^ 54) + 1
      ≤ (1 - t) / (nearest (secondsOf 1 * r) - 1 / 2 ^ 54) := by
    rw [div_add_one hpos.ne']
    exact div_le_div_of_nonneg_right (by linarith) hpos.le
  have hceil : (⌈(1 - refilled cap r t (b.elapsed now)) /
      (nearest (secondsOf 1 * r) - 1 / 2 ^ 54)⌉₊ : ℚ)
      < ⌈(1 - t) / (nearest (secondsOf 1 * r) - 1 / 2 ^ 54)⌉₊ :=
    (Nat.ceil_lt_add_one (div_nonneg (sub_nonneg.mpr hone.le) hpos.le)).trans_le
      (hstep.trans (Nat.le_ceil _))
  exact_mod_cast hceil

/-- What `eventually_quiet` asks for. -/
theorem floatBucket_fills :
    SharedBucket.Fills lockedSection (· = oneToken) FillsUp (·.updated) refusalsLeft where
  total b amount now := ⟨_, rfl⟩
  keeps := by
    rintro b b' amount now ok h rfl heq
    have := h.acquireN now
    rwa [Option.some.inj heq] at this
  stamped := by
    intro b b' amount now ok heq
    have := b.acquireN_updated amount now
    rwa [Option.some.inj heq] at this
  refused := by
    rintro b b' amount now h rfl - heq
    have := h.refused (congrArg Prod.fst (Option.some.inj heq))
    rwa [Option.some.inj heq] at this

/-- From some instant on a request is granted. The bucket has filled up by then, whatever the
rounding has taken away on the way. -/
theorem FillsUp.granted (h : FillsUp b) {now : Nat} (hnow : b.updated + 10 ^ 18 ≤ now) :
    (b.acquireN oneToken now).1 = true := by
  obtain ⟨cap, r, t, hp, hlevel, hgain⟩ := h
  refine (hlevel.granted hp ?_).1
  rcases hgain with hgain | hplenty
  · -- The rate is above `2 ^ (-25)`, and there are a billion seconds.
    have hprod : 2 ^ (-54 : Int) < secondsOf 1 * r := by
      by_contra hle
      have hnear := nearest_mono (mul_nonneg (secondsOf_nonneg 1) hp.rate_pos.le) (not_lt.mp hle)
      rw [nearest_two_zpow (by norm_num)] at hnear
      have heq : (2 : ℚ) ^ (-54 : Int) = 1 / 2 ^ 54 := by norm_num
      exact absurd hgain (not_lt.mpr (hnear.trans_eq heq))
    have hrate : (2 : ℚ) ^ (-25 : Int) < r := by
      have hle := mul_le_mul_of_nonneg_right secondsOf_one_le_zpow hp.rate_pos.le
      have hsplit : (2 : ℚ) ^ (-54 : Int) = 2 ^ (-29 : Int) * 2 ^ (-25 : Int) := by norm_num
      rw [hsplit] at hprod
      exact lt_of_mul_lt_mul_left (hprod.trans_le hle) (two_zpow_pos _).le
    have helapsed : 1000000000 * 1000000000 ≤ b.elapsed now := by
      unfold FloatBucket.elapsed
      omega
    have hseconds : ((1000000000 : Nat) : ℚ) ≤ secondsOf (b.elapsed now) :=
      le_secondsOf (by norm_num) helapsed
    have hmany : 1 ≤ secondsOf (b.elapsed now) * r := by
      have := mul_le_mul hseconds hrate.le (two_zpow_pos _).le (secondsOf_nonneg _)
      refine le_trans ?_ this
      norm_num
    have hnear : 1 ≤ nearest (secondsOf (b.elapsed now) * r) :=
      nearest_one.symm.trans_le (nearest_mono zero_le_one hmany)
    exact le_min hp.one_le (nearest_one.symm.trans_le (nearest_mono zero_le_one
      (le_add_of_nonneg_of_le hlevel.nonneg hnear)))
  · have hlarge : (1 : ℚ) ≤ 2 ^ 53 + 4 := by norm_num
    exact hlarge.trans (hplenty.trans (hlevel.le_refilled hp _))

end Orchestrator.Proofs
