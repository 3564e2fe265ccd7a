import Mathlib.Tactic.FieldSimp
import Mathlib.Tactic.NormNum
import Mathlib.Tactic.Positivity
import Orchestrator.Engine.Durations

/-!
# `Orchestrator.Proofs.DurationBounds`: the durations that fit into a `time.Duration`

A duration of a document is a number, of any size, and a unit, so it is a natural number of
nanoseconds (`parseDuration_eq`). Nothing bounds it before it is converted, and neither the doubling
of the backoff nor the division by a small rate does. `no_overflow_iff` says for which numbers each
of the three conversions is in range. Out of range the result is what the implementation makes of
it, so that the longest timeouts may end an attempt at once.

The three uses of a duration (`Use`) are a timeout, the base of a backoff, and the period of a rate
limit. A timeout is converted as it is. The pause before a retry is the base times a power of two,
reduced by the jitter; it is longest before the last attempt, so that one attempt decides
(`sleep_fits_iff`). The wait for a token is the period divided by the number of requests, times what
is missing of a token; it is longest for a whole token, and without requests it is infinite
(`waitNanos_none`).

Besides the range, the theorem has that the conversions keep the order of durations and their sign.
-/

set_option autoImplicit false

namespace Orchestrator.Proofs

open Orchestrator.Lib Orchestrator.Engine

/-! ### Nanoseconds -/

/-- The nanoseconds of a unit. They are whole numbers, so that the bounds below are statements about
integers. -/
def unitNanos : String → Option Nat
  | "ms" => some 1000000
  | "s" => some 1000000000
  | "m" => some 60000000000
  | "h" => some 3600000000000
  | _ => none

/-- The number that a duration writes, and the nanoseconds of its unit. A text that `parseDuration`
refuses has neither. -/
def written (s : String) : Option (Nat × Nat) :=
  let (digits, unit) := spanDigits (trimSpace s.toList)
  if digits = [] then none
  else (unitNanos (String.ofList unit)).map fun u => (Nat.ofDigitChars 10 digits 0, u)

/-- The seconds in a unit are its nanoseconds, divided. -/
theorem unitSeconds_eq (unit : String) :
    unitSeconds unit = (unitNanos unit).map fun u : Nat => (u : ℚ) / nanosPerSecond := by
  unfold unitSeconds unitNanos nanosPerSecond
  split <;> simp <;> norm_num

/-- A duration is its number times its unit. -/
theorem parseDuration_eq (s : String) :
    parseDuration s = (written s).map fun w : Nat × Nat =>
    ((w.1 * w.2 : Nat) : ℚ) / nanosPerSecond := by
  unfold parseDuration written
  by_cases hdigits : (spanDigits (trimSpace s.toList)).1 = []
  · simp only [hdigits, if_true, Option.map_none]
  · simp only [hdigits, if_false, unitSeconds_eq, Option.map_map]
    refine congrArg (fun f => Option.map f _) (funext fun u => ?_)
    show _ * (_ / _) = _ / _
    push_cast
    ring

/-! ### Uses -/

/-- What a duration is used for. The three places in the source convert it to nanoseconds in three
ways, with bounds of their own. -/
inductive Use
  | timeout
  /-- The base of a retry policy. -/
  | retry (r : Retry)
  /-- The period of a rate limit. -/
  | period (requests : Int)

/-- The attempts after which a policy sleeps: it lets `retry.Max+1` of them run, a 64-bit sum, and
sleeps after each but the last. -/
def lastSleep (r : Retry) : Int := min r.max (int64 (r.max + 1))

/-- The values that a use of a duration converts: one for a timeout, one for each sleep that the
policy allows and each random factor, and one for each deficit of a bucket. -/
inductive Converted : Use → Duration → Extended ℚ → Prop
  | timeout (d : Duration) : Converted .timeout d (timeoutNanos d)
  | sleep (r : Retry) (d : Duration) (attempt : Int) (rnd : ℚ) (x : Extended ℚ)
      (hfirst : 1 ≤ attempt) (hlast : attempt ≤ lastSleep r) (hrnd : 0 ≤ rnd) (hone : rnd < 1)
      (hx : sleepWithJitter { r with base := d } attempt rnd = some x) : Converted (.retry r) d x
  | wait (requests : Int) (d : Duration) (deficit : ℚ) (hpos : 0 < deficit) (hle : deficit ≤ 1) :
      Converted (.period requests) d (waitNanos requests d deficit)

/-- Every value that a use of the duration text converts is in range. -/
def NoOverflow (use : Use) (s : String) : Prop :=
  ∀ d, parseDuration s = some d → ∀ x, Converted use d x → (toDuration x).isSome = true

/-- How much longer than its base the sleep after an attempt is. -/
def growth (r : Retry) (attempt : Int) : Nat :=
  if r.backoff = "fixed" then 1 else 2 ^ (attempt - 1).toNat

/-- The nanoseconds of a duration that a use can convert. Each case is the exact bound, so the
theorem about it can be an equivalence. -/
def Fits (ns : Nat) : Use → Prop
  | .timeout => ns < 2 ^ 63
  | .retry r => lastSleep r ≤ 0 ∨ r.backoff = "none" ∨ ns * growth r (lastSleep r) < 2 ^ 63 ∨
      -- The jitter takes something off every sleep.
      r.jitter = true ∧ ns * growth r (lastSleep r) = 2 ^ 63
  | .period requests =>
      0 < requests ∧ (ns : Int) < 2 ^ 63 * requests ∨
      requests < 0 ∧ (ns : Int) < (2 ^ 63 + 1) * -requests

/-- A conversion is in range when the number, cut off towards zero, is an `int64`. -/
theorem toDuration_fin_isSome {a : ℚ} :
    (toDuration (.fin a)).isSome = true ↔ -2 ^ 63 - 1 < a ∧ a < 2 ^ 63 :=
  Extended.toSigned_fin_isSome

/-- A number that is not negative. -/
theorem toDuration_nonneg_isSome {a : ℚ} (ha : 0 ≤ a) :
    (toDuration (.fin a)).isSome = true ↔ a < 2 ^ 63 := by
  rw [toDuration_fin_isSome]
  exact and_iff_right (by linarith)

/-! ### Timeouts -/

/-- The conversion of a timeout is in range exactly when its nanoseconds are. -/
theorem timeout_fits_iff (ns : Nat) :
    (toDuration (timeoutNanos (ns / nanosPerSecond))).isSome = true ↔ Fits ns .timeout := by
  have hvalue : nanosPerSecond * (ns / nanosPerSecond) = ns := by
    unfold nanosPerSecond
    field_simp
  unfold timeoutNanos
  rw [hvalue, toDuration_nonneg_isSome (Nat.cast_nonneg ns)]
  show (ns : ℚ) < 2 ^ 63 ↔ ns < 2 ^ 63
  exact_mod_cast Iff.rfl

/-! ### Waits -/

/-- Without requests the wait is infinite, or no number. -/
theorem waitNanos_none (per : Duration) {deficit : ℚ} (hpos : 0 < deficit) :
    (toDuration (waitNanos 0 per deficit)).isSome = false := by
  have hne : nanosPerSecond * deficit ≠ 0 := by
    unfold nanosPerSecond
    positivity
  unfold waitNanos limiterRate
  by_cases hper : per = 0
  · rw [hper, Int.cast_zero, Extended.div_zero, if_pos rfl]
    rfl
  · rw [Int.cast_zero, Extended.div_fin hper, zero_div, Extended.div_zero, if_neg hne]
    rfl

/-- The wait is the part of the period that the deficit takes. A period of zero has an infinite
rate, and no wait. -/
theorem waitNanos_eq {requests : Int} (hreq : requests ≠ 0) (ns : Nat) (deficit : ℚ) :
    waitNanos requests (ns / nanosPerSecond) deficit = .fin (deficit * (ns / requests)) := by
  have hreq' : (requests : ℚ) ≠ 0 := by exact_mod_cast hreq
  unfold waitNanos limiterRate
  by_cases hns : ns = 0
  · subst hns
    rw [Nat.cast_zero, zero_div, Extended.div_zero, if_neg hreq', zero_div, mul_zero]
    rfl
  · have hns' : (ns : ℚ) ≠ 0 := by exact_mod_cast hns
    have hper : (ns : ℚ) / nanosPerSecond ≠ 0 := by
      unfold nanosPerSecond
      positivity
    rw [Extended.div_fin hper, Extended.div_fin (div_ne_zero hreq' hper)]
    unfold nanosPerSecond
    congr 1
    field_simp

/-- The deficits are at most 1, so the bound on the longest wait is one on the ratio. -/
theorem wait_bounded_iff {x bound : ℚ} (hx : 0 ≤ x) :
    (∀ deficit : ℚ, 0 < deficit → deficit ≤ 1 → deficit * x < bound) ↔ x < bound := by
  constructor
  · intro h
    simpa using h 1 one_pos le_rfl
  · intro h deficit _ hle
    exact (mul_le_of_le_one_left hx hle).trans_lt h

/-- The waits for a positive rate. -/
theorem wait_fits_of_pos {requests : Int} (hpos : 0 < requests) (ns : Nat) :
    (∀ deficit : ℚ, 0 < deficit → deficit ≤ 1 →
      (toDuration (waitNanos requests (ns / nanosPerSecond) deficit)).isSome = true) ↔
      (ns : Int) < 2 ^ 63 * requests := by
  have hreq : (0 : ℚ) < requests := by exact_mod_cast hpos
  have hratio : 0 ≤ (ns : ℚ) / requests := div_nonneg (Nat.cast_nonneg ns) hreq.le
  have hbound : (ns : ℚ) / requests < 2 ^ 63 ↔ (ns : Int) < 2 ^ 63 * requests := by
    rw [div_lt_iff₀ hreq]
    exact_mod_cast Iff.rfl
  rw [← hbound, ← wait_bounded_iff hratio]
  refine forall_congr' fun deficit => forall_congr' fun hd => forall_congr' fun _ => ?_
  rw [waitNanos_eq hpos.ne', toDuration_nonneg_isSome (mul_nonneg hd.le hratio)]

/-- The waits for a negative rate, which are negative. Such a limit is not refused, so its bound is
a part of the condition. -/
theorem wait_fits_of_neg {requests : Int} (hneg : requests < 0) (ns : Nat) :
    (∀ deficit : ℚ, 0 < deficit → deficit ≤ 1 →
      (toDuration (waitNanos requests (ns / nanosPerSecond) deficit)).isSome = true) ↔
      (ns : Int) < (2 ^ 63 + 1) * -requests := by
  have hreq : (requests : ℚ) < 0 := by exact_mod_cast hneg
  have hratio : 0 ≤ -((ns : ℚ) / requests) :=
    neg_nonneg.mpr (div_nonpos_of_nonneg_of_nonpos (Nat.cast_nonneg ns) hreq.le)
  have hbound : -((ns : ℚ) / requests) < 2 ^ 63 + 1 ↔ (ns : Int) < (2 ^ 63 + 1) * -requests := by
    rw [← div_neg, div_lt_iff₀ (neg_pos.mpr hreq)]
    exact_mod_cast Iff.rfl
  rw [← hbound, ← wait_bounded_iff hratio]
  refine forall_congr' fun deficit => forall_congr' fun hd => forall_congr' fun _ => ?_
  rw [waitNanos_eq hneg.ne, toDuration_fin_isSome]
  -- Only the lower bound of the range matters.
  have hnonneg : 0 ≤ deficit * -((ns : ℚ) / requests) := mul_nonneg hd.le hratio
  constructor
  · rintro ⟨h, -⟩
    linarith
  · intro h
    exact ⟨by linarith, by linarith⟩

/-- All waits of a period are in range exactly when the longest one is. -/
theorem wait_fits_iff (requests : Int) (ns : Nat) :
    (∀ deficit : ℚ, 0 < deficit → deficit ≤ 1 →
      (toDuration (waitNanos requests (ns / nanosPerSecond) deficit)).isSome = true) ↔
      Fits ns (.period requests) := by
  rcases lt_trichotomy requests 0 with hneg | rfl | hpos
  · rw [wait_fits_of_neg hneg]
    unfold Fits
    omega
  · refine iff_of_false (fun h => ?_) ?_
    · have hone := h 1 one_pos le_rfl
      rw [waitNanos_none _ one_pos] at hone
      cases hone
    · unfold Fits
      omega
  · rw [wait_fits_of_pos hpos]
    unfold Fits
    omega

/-! ### Sleeps -/

/-- What the jitter makes of a sleep. -/
def jitterFactor (r : Retry) (rnd : ℚ) : ℚ := if r.jitter = true then 1 / 2 + rnd / 2 else 1

/-- The jitter leaves something of a sleep. -/
theorem jitterFactor_pos (r : Retry) {rnd : ℚ} (hrnd : 0 ≤ rnd) : 0 < jitterFactor r rnd := by
  unfold jitterFactor
  split
  · linarith
  · exact one_pos

/-- No sleep is shrunk to nothing. -/
theorem growth_pos (r : Retry) (attempt : Int) : 0 < growth r attempt := by
  unfold growth
  split
  · exact Nat.one_pos
  · exact Nat.two_pow_pos _

/-- The sleeps get longer from attempt to attempt. -/
theorem growth_mono (r : Retry) {a b : Int} (h : a ≤ b) : growth r a ≤ growth r b := by
  unfold growth
  split
  · exact le_rfl
  · exact Nat.pow_le_pow_right Nat.two_pos (by omega)

/-- The sleep after an attempt, as an integer times a factor between a half and one. -/
theorem sleepWithJitter_eq {r : Retry} (hnone : r.backoff ≠ "none") {ns : Nat} (hns : ns ≠ 0)
    {attempt : Int} (hfirst : 1 ≤ attempt) {rnd : ℚ} (hrnd : 0 ≤ rnd) :
    sleepWithJitter { r with base := ns / nanosPerSecond } attempt rnd
      = some (.fin (ns * growth r attempt * jitterFactor r rnd)) := by
  have hns' : (0 : ℚ) < ns := by exact_mod_cast Nat.pos_of_ne_zero hns
  have hsecond : (0 : ℚ) < nanosPerSecond := by
    unfold nanosPerSecond
    positivity
  have hgrowth : (0 : ℚ) < growth r attempt := by exact_mod_cast growth_pos r attempt
  -- The base of the attempt, before the jitter.
  have hbase : (if r.backoff = "fixed" then (ns : ℚ) / nanosPerSecond
      else ns / nanosPerSecond * 2 ^ (attempt - 1)) = ns / nanosPerSecond * growth r attempt := by
    unfold growth
    split
    · rw [Nat.cast_one, mul_one]
    · have hexp : attempt - 1 = ((attempt - 1).toNat : Int) := by omega
      rw [hexp, zpow_natCast]
      push_cast
      rfl
  have hpos : 0 < (ns : ℚ) / nanosPerSecond * growth r attempt := by positivity
  have hjitter : (if r.jitter = true ∧ (ns : ℚ) / nanosPerSecond * growth r attempt > 0 then
      (ns : ℚ) / nanosPerSecond * growth r attempt * (1 / 2 + rnd / 2)
      else ns / nanosPerSecond * growth r attempt)
        = ns / nanosPerSecond * growth r attempt * jitterFactor r rnd := by
    unfold jitterFactor
    by_cases hj : r.jitter = true
    · rw [if_pos ⟨hj, hpos⟩, if_pos hj]
    · rw [if_neg fun h => hj h.1, if_neg hj, mul_one]
  unfold sleepWithJitter
  simp only [if_neg hnone, hbase, hjitter]
  rw [if_pos (mul_pos hpos (jitterFactor_pos r hrnd))]
  congr 2
  field_simp

/-- Without a base there is no sleep. -/
theorem sleepWithJitter_zero (r : Retry) (attempt : Int) (rnd : ℚ) :
    sleepWithJitter { r with base := 0 } attempt rnd = none := by
  unfold sleepWithJitter
  simp

/-- A sleep is in range, whatever the jitter makes of it, exactly when it is before the jitter. The
jitter takes something off, so that the bound itself is in range. -/
theorem jitter_fits_iff (r : Retry) {x : ℚ} (hx : 0 ≤ x) :
    (∀ rnd : ℚ, 0 ≤ rnd → rnd < 1 → x * jitterFactor r rnd < 2 ^ 63) ↔
      x < 2 ^ 63 ∨ r.jitter = true ∧ x = 2 ^ 63 := by
  by_cases hj : r.jitter = true
  · simp only [jitterFactor, if_pos hj]
    constructor
    · intro h
      by_contra hnot
      -- A number next to 1 leaves too much of a sleep that is longer.
      have hlong : 2 ^ 63 < x := by
        rcases lt_trichotomy x (2 ^ 63) with hlt | heq | hgt
        · exact absurd (Or.inl hlt) hnot
        · exact absurd (Or.inr ⟨hj, heq⟩) hnot
        · exact hgt
      have hxpos : 0 < x := lt_trans (by positivity) hlong
      have hratio : 2 ^ 63 / x < 1 := (div_lt_one hxpos).mpr hlong
      have hmax : max 0 (2 * (2 ^ 63 / x) - 1) < 1 := max_lt one_pos (by linarith)
      have hshort := h _ (le_max_left _ _) hmax
      have hhalf : 2 ^ 63 / x ≤ 1 / 2 + max 0 (2 * (2 ^ 63 / x) - 1) / 2 := by
        have := le_max_right 0 (2 * (2 ^ 63 / x) - 1)
        linarith
      have hle : 2 ^ 63 ≤ x * (1 / 2 + max 0 (2 * (2 ^ 63 / x) - 1) / 2) := by
        calc (2 : ℚ) ^ 63 = x * (2 ^ 63 / x) := by field_simp
          _ ≤ _ := mul_le_mul_of_nonneg_left hhalf hx
      linarith
    · intro h rnd hrnd hone
      have hle : x ≤ 2 ^ 63 := by
        rcases h with h | ⟨-, h⟩
        · exact h.le
        · exact h.le
      have hpow : (0 : ℚ) < 2 ^ 63 := by positivity
      calc x * (1 / 2 + rnd / 2) ≤ 2 ^ 63 * (1 / 2 + rnd / 2) :=
            mul_le_mul_of_nonneg_right hle (by linarith)
        _ < 2 ^ 63 * 1 := mul_lt_mul_of_pos_left (by linarith) hpow
        _ = 2 ^ 63 := mul_one _
  · simp only [jitterFactor, if_neg hj, mul_one]
    constructor
    · exact fun h => Or.inl (h 0 le_rfl one_pos)
    · rintro (h | ⟨h, -⟩) _ _ _
      · exact h
      · exact absurd h hj

/-- The longest sleep of a policy decides. From left to right it is itself among the sleeps, with
the greatest factor where there is a jitter. -/
theorem sleep_fits_iff (r : Retry) (ns : Nat) :
    (∀ x, Converted (.retry r) (ns / nanosPerSecond) x → (toDuration x).isSome = true) ↔
      Fits ns (.retry r) := by
  by_cases hlast : lastSleep r ≤ 0
  · refine iff_of_true (fun x hx => ?_) (Or.inl hlast)
    cases hx with
    | sleep _ _ attempt _ _ hfirst hle => omega
  by_cases hnone : r.backoff = "none"
  · refine iff_of_true (fun x hx => ?_) (Or.inr (Or.inl hnone))
    cases hx with
    | sleep _ _ attempt rnd _ _ _ _ _ hx =>
        rw [sleepWithJitter, if_pos hnone] at hx
        cases hx
  by_cases hns : ns = 0
  · subst hns
    refine iff_of_true (fun x hx => ?_) (Or.inr (Or.inr (Or.inl (by simp))))
    cases hx with
    | sleep _ _ attempt rnd _ _ _ _ _ hx =>
        rw [Nat.cast_zero, zero_div, sleepWithJitter_zero] at hx
        cases hx
  have hnonneg : ∀ attempt : Int, (0 : ℚ) ≤ ns * growth r attempt := fun attempt =>
    mul_nonneg (Nat.cast_nonneg _) (Nat.cast_nonneg _)
  have hsleep : ∀ (attempt : Int) {rnd : ℚ}, 0 ≤ rnd →
      (0 : ℚ) ≤ ns * growth r attempt * jitterFactor r rnd := fun attempt _ hrnd =>
    mul_nonneg (hnonneg attempt) (jitterFactor_pos r hrnd).le
  have hfits : Fits ns (.retry r) ↔ (ns * growth r (lastSleep r) : ℚ) < 2 ^ 63 ∨
      r.jitter = true ∧ (ns * growth r (lastSleep r) : ℚ) = 2 ^ 63 := by
    unfold Fits
    simp only [hlast, hnone, false_or]
    exact_mod_cast Iff.rfl
  rw [hfits]
  constructor
  · intro h
    refine (jitter_fits_iff r (hnonneg _)).mp fun rnd hrnd hone => ?_
    have hx := sleepWithJitter_eq hnone hns (show 1 ≤ lastSleep r by omega) hrnd
    have hin := h _ (.sleep r _ _ rnd _ (by omega) le_rfl hrnd hone hx)
    exact (toDuration_nonneg_isSome (hsleep _ hrnd)).mp hin
  · intro h x hx
    cases hx with
    | sleep _ _ attempt rnd _ hfirst hle hrnd hone hx =>
        rw [sleepWithJitter_eq hnone hns hfirst hrnd] at hx
        cases hx
        -- An earlier sleep is at most as long as the last one.
        have hgrowth : (growth r attempt : ℚ) ≤ growth r (lastSleep r) := by
          exact_mod_cast growth_mono r hle
        have hshorter : (ns * growth r attempt : ℚ) ≤ ns * growth r (lastSleep r) :=
          mul_le_mul_of_nonneg_left hgrowth (Nat.cast_nonneg ns)
        have hbefore : (ns * growth r attempt : ℚ) < 2 ^ 63 ∨
            r.jitter = true ∧ (ns * growth r attempt : ℚ) = 2 ^ 63 := by
          rcases h with h | ⟨hj, h⟩
          · exact Or.inl (hshorter.trans_lt h)
          · rcases (hshorter.trans h.le).lt_or_eq with hlt | heq
            · exact Or.inl hlt
            · exact Or.inr ⟨hj, heq⟩
        rw [toDuration_nonneg_isSome (hsleep _ hrnd)]
        exact (jitter_fits_iff r (hnonneg _)).mpr hbefore rnd hrnd hone

/-! ### Every duration -/

/-- What a use of a number of nanoseconds converts is in range exactly when the number fits. -/
theorem converted_fits_iff (use : Use) (ns : Nat) :
    (∀ x, Converted use (ns / nanosPerSecond) x → (toDuration x).isSome = true) ↔ Fits ns use := by
  -- A timeout is converted once. The other two uses have a longest value, which decides.
  cases use with
  | timeout =>
      rw [← timeout_fits_iff]
      constructor
      · exact fun h => h _ (.timeout _)
      · intro h x hx
        cases hx
        exact h
  | retry r => exact sleep_fits_iff r ns
  | period requests =>
      rw [← wait_fits_iff]
      constructor
      · exact fun h deficit hpos hle => h _ (.wait requests _ deficit hpos hle)
      · intro h x hx
        cases hx with
        | wait _ _ deficit hpos hle => exact h deficit hpos hle

/-- No use of a duration overflows exactly when its number of nanoseconds fits the use. In range a
longer value does not become a shorter one, nor a negative one of one that is not.

A use converts one or several values: a timeout the duration itself, a retry the sleeps before its
attempts, a limiter the waits for its tokens. The largest of them decides, and `Fits` names it for
each use. The last two parts say that the conversion itself is monotone and keeps the sign. -/
theorem no_overflow_iff (use : Use) (s : String) :
    (NoOverflow use s ↔ ∀ n u, written s = some (n, u) → Fits (n * u) use) ∧
      (∀ (a b : ℚ) (m n : Int), a ≤ b → toDuration (.fin a) = some m →
        toDuration (.fin b) = some n → m ≤ n) ∧
      ∀ (a : ℚ) (n : Int), 0 ≤ a → toDuration (.fin a) = some n → 0 ≤ n := by
  refine ⟨?_, fun a b m n => Extended.toSigned_mono, fun a n => Extended.toSigned_nonneg⟩
  unfold NoOverflow
  rw [parseDuration_eq]
  constructor
  · intro h n u hs
    rw [hs] at h
    exact (converted_fits_iff use (n * u)).mp (h _ rfl)
  · intro h d hd
    obtain ⟨w, hw, rfl⟩ := Option.map_eq_some_iff.mp hd
    exact (converted_fits_iff use _).mpr (h w.1 w.2 hw)

/-- A timeout of 292 years and some hours. -/
theorem overlong_timeout : ¬ ∀ (use : Use) (s : String), NoOverflow use s := by
  intro h
  have hparse : parseDuration "2562048h" = some (2562048 * 3600) := by decide +kernel
  have hin := h .timeout "2562048h" _ hparse _ (.timeout _)
  rw [timeoutNanos, toDuration_fin_isSome] at hin
  unfold nanosPerSecond at hin
  norm_num at hin

end Orchestrator.Proofs
