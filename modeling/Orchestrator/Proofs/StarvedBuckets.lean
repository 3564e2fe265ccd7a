import Orchestrator.Proofs.FloatBuckets

/-!
# `Orchestrator.Proofs.StarvedBuckets`: limiters that leave a goroutine waiting for ever

A limiter can have a capacity of a token and a positive rate, and still never give one.

* When the rate is an infinity, a request at the instant of the last one multiplies it by zero. The
  tokens are a NaN from then on, and every comparison with them is false (`exists_nan`).
* When a nanosecond is worth `2 ^ (-54)` of a token or less, it is lost in the rounding as soon as
  the bucket holds half a token. Some goroutines empty the bucket, and one that asks once in a
  nanosecond then waits for ever (`exists_starved`). Each of its requests sets the instant of the
  last refill, so the small gains do not add up. One goroutine alone would sleep longer, but several
  that share the bucket ask as often as that.
-/

set_option autoImplicit false

namespace Orchestrator.Proofs

open Orchestrator.Lib Orchestrator.Engine

/-! ### Infinite rates -/

/-- A bucket whose tokens are no number refuses, and stays so. -/
theorem nan_refused {b : FloatBucket} (h : b.tokens = .nan) (now : Nat) :
    (b.acquireN oneToken now).1 = false ∧ (b.acquireN oneToken now).2.tokens = .nan := by
  have hadd : ∀ x : Float64, Float64.nan.add x = .nan := fun x => by cases x <;> rfl
  have hlt : ∀ x : Float64, x.lt .nan = false := fun x => by cases x <;> rfl
  have htokens : (b.refill now).tokens = .nan := by
    unfold FloatBucket.refill
    simp [h, hadd, hlt]
  unfold FloatBucket.acquireN
  simp only [htokens]
  exact ⟨rfl, htokens⟩

/-- The first request to a bucket with an infinite rate, at the instant of its making. -/
theorem infinite_rate_nan {b : FloatBucket} (h : b.rate = .infinite false) :
    (b.acquireN oneToken b.updated).1 = false ∧
    (b.acquireN oneToken b.updated).2.tokens = .nan := by
  have hadd : ∀ x : Float64, x.add .nan = .nan := fun x => by cases x <;> rfl
  have hlt : ∀ x : Float64, x.lt .nan = false := fun x => by cases x <;> rfl
  have helapsed : b.elapsed b.updated = 0 := by simp [FloatBucket.elapsed]
  have hgain : (floatSeconds 0).mul (.infinite false) = .nan := by
    rw [floatSeconds_eq (by norm_num), secondsOf_zero]
    rfl
  have htokens : (b.refill b.updated).tokens = .nan := by
    unfold FloatBucket.refill
    simp [helapsed, h, hgain, hadd, hlt]
  unfold FloatBucket.acquireN
  simp only [htokens]
  exact ⟨rfl, htokens⟩

/-! ### Requests -/

variable {b : FloatBucket} {start : Nat}

/-- One more goroutine calls `Acquire`. -/
def called (s : SharedBucket.State FloatBucket Float64) : SharedBucket.State FloatBucket Float64 :=
  { s with acquirers := s.acquirers ++ [{ amount := oneToken, pc := .ask }] }

/-- One more call of `Acquire` is always possible. -/
theorem reachable_called {s : SharedBucket.State FloatBucket Float64}
    (hs : (sharers b start).ReachableBy AsksOne s) :
    (sharers b start).ReachableBy AsksOne (called s) := by
  refine hs.step (a := .call oneToken) ?_ rfl
  rintro amount heq
  cases heq
  rfl

/-- It asks at once. -/
theorem exists_asked {s : SharedBucket.State FloatBucket Float64}
    (hs : (sharers b start).ReachableBy AsksOne s) :
    ∃ s', (sharers b start).ReachableBy AsksOne s' ∧
      s'.bucket = (s.bucket.acquireN oneToken s.clock).2 ∧ s'.clock = s.clock := by
  have ha : (called s).acquirers[s.acquirers.length]? = some { amount := oneToken, pc := .ask } :=
    List.getElem?_concat_length
  have hasks : AsksOne (called s) (.locked s.acquirers.length) := by
    rintro amount heq
    cases heq
  -- Granted or not, the bucket is what the call leaves of it.
  cases hacq : s.bucket.acquireN oneToken s.clock with
  | mk ok b' =>
      have hlocked : lockedSection (called s).bucket oneToken (called s).clock = some (ok, b') :=
        congrArg some hacq
      cases ok with
      | true =>
          have hstep : SharedBucket.step? lockedSection (called s) (.locked _) = some _ :=
            SharedBucket.step_granted ha rfl hlocked
          exact ⟨_, (reachable_called hs).step hasks hstep, rfl, rfl⟩
      | false =>
          have hstep : SharedBucket.step? lockedSection (called s) (.locked _) = some _ :=
            SharedBucket.step_refused ha rfl hlocked
          exact ⟨_, (reachable_called hs).step hasks hstep, rfl, rfl⟩

/-- A run comes to a bucket that never grants. -/
theorem exists_nan (h : b.rate = .infinite false) (hstart : b.updated = start) :
    ∃ s, (sharers b start).ReachableBy AsksOne s ∧
      ∀ now, (s.bucket.acquireN oneToken now).1 = false := by
  have hinit : (sharers b start).ReachableBy AsksOne (sharers b start).init := .init
  obtain ⟨s, hs, hbucket, -⟩ := exists_asked hinit
  refine ⟨s, hs, fun now => (nan_refused ?_ now).1⟩
  rw [hbucket]
  show (b.acquireN oneToken start).2.tokens = .nan
  rw [← hstart]
  exact (infinite_rate_nan h).2

/-! ### Small rates -/

section Small

variable {cap r : ℚ} (hp : Proper cap r)
include hp

/-- One more goroutine takes a token at the instant of the last request. -/
theorem exists_less {s : SharedBucket.State FloatBucket Float64}
    (hs : (sharers b start).ReachableBy AsksOne s) {t : ℚ} (hlevel : Level cap r s.bucket t)
    (hnow : s.bucket.updated = s.clock) (hone : 1 ≤ t) :
    ∃ s', (sharers b start).ReachableBy AsksOne s' ∧ Level cap r s'.bucket (nearest (t - 1)) ∧
      s'.bucket.updated = s'.clock := by
  have helapsed : s.bucket.elapsed s.clock = 0 := by simp [FloatBucket.elapsed, hnow]
  have hfull : refilled cap r t (s.bucket.elapsed s.clock) = t := by
    rw [helapsed, hlevel.refilled_zero]
  have hless := (hlevel.granted hp (hone.trans_eq hfull.symm)).2
  rw [hfull] at hless
  obtain ⟨s', hs', hbucket, hclock⟩ := exists_asked hs
  refine ⟨s', hs', hbucket ▸ hless, ?_⟩
  rw [hbucket, hclock]
  exact s.bucket.acquireN_updated oneToken s.clock

/-- So they can take a number of tokens. -/
theorem exists_empty {n : Nat} (hn : n ≤ 2 ^ 53) {s : SharedBucket.State FloatBucket Float64}
    (hs : (sharers b start).ReachableBy AsksOne s) (hlevel : Level cap r s.bucket n)
    (hnow : s.bucket.updated = s.clock) :
    ∃ s', (sharers b start).ReachableBy AsksOne s' ∧ Level cap r s'.bucket 0 ∧
      s'.bucket.updated = s'.clock := by
  induction n generalizing s with
  | zero => exact ⟨s, hs, by simpa using hlevel, hnow⟩
  | succ n ih =>
      obtain ⟨s', hs', hlevel', hnow'⟩ := exists_less hp hs hlevel hnow (by simp)
      have hless : nearest ((n + 1 : Nat) - 1) = n := by
        rw [Nat.cast_add_one, add_sub_cancel_right, nearest_natCast (by omega)]
      exact ih (by omega) hs' (hless ▸ hlevel') hnow'

/-- A gain that is lost in the rounding above a half leaves the bucket below it. -/
theorem Level.refilled_le_half {t : ℚ} {b : FloatBucket} (h : Level cap r b t)
    (hsmall : nearest (secondsOf 1 * r) ≤ 1 / 2 ^ 54) (ht : t ≤ 1 / 2) :
    refilled cap r t 1 ≤ 1 / 2 := by
  have hgain : 0 ≤ nearest (secondsOf 1 * r) :=
    nearest_nonneg (mul_nonneg (secondsOf_nonneg 1) hp.rate_pos.le)
  have hmiddle := nearest_middle (n := 2 ^ 52) le_rfl (by norm_num) (e := -53) (by norm_num)
  have heq : (((2 ^ 52 : Nat) : ℚ) + 1 / 2) * 2 ^ (-53 : Int) = 1 / 2 + 1 / 2 ^ 54 := by norm_num
  calc refilled cap r t 1 ≤ nearest (t + nearest (secondsOf 1 * r)) := min_le_right _ _
    _ ≤ nearest (1 / 2 + 1 / 2 ^ 54) :=
        nearest_mono (add_nonneg h.nonneg hgain) (add_le_add ht hsmall)
    _ = 1 / 2 := by
        rw [← heq, hmiddle]
        norm_num

/-- A limiter of not too many requests can be emptied. Behind `2 ^ 53` the first token that is taken
leads to `2 ^ 53`. -/
theorem exists_drained {requests : Nat} (hle : requests ≤ 2 ^ 53 + 2)
    (hcap : cap = nearest requests) (hb : Level cap r b cap) (hstart : b.updated = start) :
    ∃ s, (sharers b start).ReachableBy AsksOne s ∧ Level cap r s.bucket 0 ∧
      s.bucket.updated = s.clock := by
  -- Halfway between two floats the even one is chosen, and this is the power of two.
  have hmiddle : nearest (2 ^ 53 + 1) = ((2 ^ 53 : Nat) : ℚ) := by
    have hnear := nearest_middle (n := 2 ^ 52) le_rfl (by norm_num) (e := 1) (by norm_num)
    have heq : (((2 ^ 52 : Nat) : ℚ) + 1 / 2) * 2 ^ (1 : Int) = 2 ^ 53 + 1 := by norm_num
    rw [← heq, hnear]
    norm_num
  -- Up to the power the capacity is exact, so as many calls as it has tokens drain it. Two numbers
  -- are left above.
  rcases le_or_gt requests (2 ^ 53) with hsmall | hlarge
  · have hsame : cap = requests := hcap.trans (nearest_natCast hsmall)
    exact exists_empty hp hsmall .init (hsame ▸ hb) hstart
  · obtain rfl | rfl : requests = 2 ^ 53 + 1 ∨ requests = 2 ^ 53 + 2 := by omega
    · have hsame : cap = ((2 ^ 53 : Nat) : ℚ) := by
        rw [hcap, ← hmiddle]
        norm_num
      exact exists_empty hp le_rfl .init (hsame ▸ hb) hstart
    · have hsame : cap = 2 ^ 53 + 2 := by
        have hself := nearest_mul_zpow (n := 2 ^ 52 + 1) (by norm_num) (e := 1) (by norm_num)
        have heq : ((2 ^ 52 + 1 : Nat) : ℚ) * 2 ^ (1 : Int) = 2 ^ 53 + 2 := by norm_num
        rw [heq] at hself
        rw [hcap, ← hself]
        norm_num
      have hinit : (sharers b start).ReachableBy AsksOne (sharers b start).init := .init
      -- The first call takes the capacity down to the power.
      obtain ⟨s, hs, hlevel, hnow⟩ := exists_less hp hinit hb hstart hp.one_le
      have hless : nearest (cap - 1) = ((2 ^ 53 : Nat) : ℚ) := by
        rw [hsame, ← hmiddle]
        norm_num
      exact exists_empty hp le_rfl hs (hless ▸ hlevel) hnow

/-- The `i`-th goroutine asks once in a nanosecond. `n` counts its steps: time passes, the request
is refused, the timer fires. -/
structure Starving (cap r : ℚ) (i calls t n : Nat)
    (s : SharedBucket.State FloatBucket Float64) : Prop where
  acquirer : s.acquirers[i]? = some { amount := oneToken, pc := if n % 3 = 2 then .wait else .ask }
  length : s.acquirers.length = calls
  level : ∃ x ≤ 1 / 2, Level cap r s.bucket x
  updated : s.bucket.updated = t + (n + 1) / 3
  clock : s.clock = t + (n + 2) / 3

/-- The labels of these steps. -/
def starvingLabel (i n : Nat) : SharedBucket.Action Float64 :=
  if n % 3 = 0 then .tick 1 else if n % 3 = 1 then .locked i else .timer i

/-- The refill of one nanosecond does not lead to a token. -/
theorem Starving.step {i calls t n : Nat} {s : SharedBucket.State FloatBucket Float64}
    (hsmall : nearest (secondsOf 1 * r) ≤ 1 / 2 ^ 54) (h : Starving cap r i calls t n s) :
    ∃ s', SharedBucket.step? lockedSection s (starvingLabel i n) = some s' ∧
      Starving cap r i calls t (n + 1) s' := by
  obtain ⟨x, hx, hlevel⟩ := h.level
  have hlt : i < s.acquirers.length := (List.getElem?_eq_some_iff.mp h.acquirer).1
  have hset : ∀ a : SharedBucket.Acquirer Float64, (s.acquirers.set i a)[i]? = some a :=
    fun a => List.getElem?_set_self hlt
  unfold starvingLabel
  -- The clock moves by a nanosecond, the caller asks and is refused, its timer fires: three steps,
  -- and round again.
  obtain hn | hn | hn : n % 3 = 0 ∨ n % 3 = 1 ∨ n % 3 = 2 := by omega
  · refine ⟨{ s with clock := s.clock + 1 }, by rw [if_pos hn]; rfl, ?_, h.length, h.level, ?_, ?_⟩
    · rw [if_neg (by omega)]
      exact h.acquirer.trans (by rw [if_neg (by omega)])
    · exact h.updated.trans (by omega)
    · show s.clock + 1 = _
      rw [h.clock]
      omega
  · have hask : s.acquirers[i]? = some { amount := oneToken, pc := .ask } :=
      h.acquirer.trans (by rw [if_neg (by omega)])
    have helapsed : s.bucket.elapsed s.clock = 1 := by
      unfold FloatBucket.elapsed
      rw [h.clock, h.updated]
      omega
    -- What a nanosecond brings is lost in rounding as soon as there is half a token, so there is
    -- never more.
    have hhalf := hlevel.refilled_le_half hp hsmall hx
    have hbelow : refilled cap r x (s.bucket.elapsed s.clock) < 1 := by
      rw [helapsed]
      exact hhalf.trans_lt (by norm_num)
    obtain ⟨hrefused, hlevel'⟩ := hlevel.refused hp hbelow
    rw [helapsed] at hlevel'
    have hstep : SharedBucket.step? lockedSection s (.locked i) = some _ :=
      SharedBucket.step_refused hask rfl
        (congrArg some (Prod.ext hrefused (rfl : (s.bucket.acquireN oneToken s.clock).2 = _)))
    refine ⟨_, by rw [if_neg (by omega), if_pos hn]; exact hstep, ?_, ?_,
      ⟨_, hhalf, hlevel'⟩, ?_, ?_⟩
    · rw [if_pos (by omega)]
      exact hset _
    · exact List.length_set.trans h.length
    · refine (s.bucket.acquireN_updated oneToken s.clock).trans (h.clock.trans ?_)
      omega
    · exact h.clock.trans (by omega)
  · have hwait : s.acquirers[i]? = some { amount := oneToken, pc := .wait } :=
      h.acquirer.trans (by rw [if_pos hn])
    have hstep : SharedBucket.step? lockedSection s (.timer i) = some _ :=
      SharedBucket.step_timer hwait rfl
    refine ⟨SharedBucket.move s i { amount := oneToken, pc := .wait } .ask,
      by rw [if_neg (by omega), if_neg (by omega)]; exact hstep, ?_, ?_, h.level, ?_, ?_⟩
    · rw [if_neg (by omega)]
      exact hset _
    · exact List.length_set.trans h.length
    · exact h.updated.trans (by omega)
    · exact h.clock.trans (by omega)

/-- Such a goroutine waits for ever, with finitely many others and while time goes on. -/
theorem exists_starved (hsmall : nearest (secondsOf 1 * r) ≤ 1 / 2 ^ 54)
    {s : SharedBucket.State FloatBucket Float64} (hs : (sharers b start).ReachableBy AsksOne s)
    (hlevel : Level cap r s.bucket 0) (hnow : s.bucket.updated = s.clock) :
    ∃ e : (sharers b start).Execution, (∀ n, AsksOne (e.state n) (e.label n)) ∧
      (∀ t, ∃ n, t ≤ (e.state n).clock) ∧
      (∃ calls, ∀ n, (e.state n).acquirers.length ≤ calls) ∧
      ∀ n, ∃ m, n ≤ m ∧ ∃ i, e.label m = .locked i := by
  have hinit : Starving cap r s.acquirers.length (s.acquirers.length + 1) s.clock 0 (called s) :=
    ⟨List.getElem?_concat_length, by simp [called], ⟨0, by norm_num, hlevel⟩, hnow, rfl⟩
  have hstep : ∀ n x, Starving cap r s.acquirers.length (s.acquirers.length + 1) s.clock n x →
      ∃ x', ((sharers b start).startAt (called s)).step? x (starvingLabel s.acquirers.length n)
        = some x' ∧ Starving cap r s.acquirers.length (s.acquirers.length + 1) s.clock (n + 1) x' :=
    fun n x h => h.step hp hsmall
  obtain ⟨f, hf⟩ := System.Execution.exists_schedule _ hinit hstep
  obtain ⟨e, k, hasks, hsame⟩ := System.Execution.exists_continuation (reachable_called hs) f
    fun n amount heq => by
      rw [(hf n).2] at heq
      unfold starvingLabel at heq
      split at heq
      · cases heq
      · split at heq <;> cases heq
  have hstate : ∀ n, Starving cap r s.acquirers.length (s.acquirers.length + 1) s.clock n
      (e.state (k + n)) := fun n => by
    rw [(hsame n).1]
    exact (hf n).1
  refine ⟨e, hasks, fun t => ⟨k + 3 * t, ?_⟩, ⟨s.acquirers.length + 1, fun n => ?_⟩, fun n => ?_⟩
  · rw [(hstate (3 * t)).clock]
    omega
  · -- No goroutine goes away, and from `k` on none is added.
    have hmono : Monotone fun n => (e.state n).acquirers.length :=
      monotone_nat_of_le_succ fun m => SharedBucket.length_le_of_step (e.next m)
    exact (hmono (Nat.le_add_left n k)).trans_eq (hstate n).length
  · refine ⟨k + (3 * n + 1), by omega, s.acquirers.length, ?_⟩
    rw [(hsame _).2, (hf _).2]
    unfold starvingLabel
    rw [if_neg (by omega), if_pos (by omega)]

end Small

end Orchestrator.Proofs
