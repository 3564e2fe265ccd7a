import Orchestrator.Engine.Decode
import Orchestrator.Proofs.RateLimits
import Orchestrator.Proofs.SchemaValues
import Orchestrator.Proofs.StarvedBuckets

/-!
# `Orchestrator.Proofs.SatisfiableLimits`: rate limits that can be met

`Parse` takes any number of requests and any period, a missing one as zero, so it accepts limits
that no task can ever get a token of. `rate_limits_satisfiable_iff` says for which documents all
limiters of the run are as they should be, with the `float64` of the limiter: the divisions are by
positive numbers, the capacity holds a token, and from every state a goroutine that waits for a
token gets one, without going round its loop for ever.

The condition is `Lasting`, for each rate limit. Besides the requests and the period it asks that
the rate is a number, and that a nanosecond at this rate is not lost when it is added to the tokens.
`Orchestrator.Proofs.FloatBuckets` has what follows from it, and
`Orchestrator.Proofs.StarvedBuckets` the runs that go wrong without it.
-/

set_option autoImplicit false

namespace Orchestrator.Proofs

open Orchestrator.Lib Orchestrator.Engine

/-! ### Limiters -/

/-- The limiter of a period serves those who wait for it: its divisions are by positive numbers, its
capacity holds a token, and whoever waits is granted one. -/
structure Satisfiable (per : Float64) (b : FloatBucket) (start : Nat) : Prop where
  /-- `New` does not divide by zero. -/
  per_pos : (Float64.finite 0).lt per = true
  /-- Neither does `AcquireN`. -/
  rate_pos : (Float64.finite 0).lt b.rate = true
  capacity : oneToken.le b.capacity = true
  /-- In every state of the bucket, `Acquire` succeeds from some instant on. -/
  succeeds : ∀ s, (sharers b start).ReachableBy AsksOne s →
    ∃ t, ∀ now, t ≤ now → (s.bucket.acquireN oneToken now).1 = true
  /-- No loop of `AcquireN` goes on for ever: while time goes on, and however many calls there are,
  from some point on no locked section is entered any more. -/
  ends : ∀ e : (sharers b start).Execution, (∀ n, AsksOne (e.state n) (e.label n)) →
    (∀ t, ∃ n, t ≤ (e.state n).clock) → ∀ calls, (∀ n, (e.state n).acquirers.length ≤ calls) →
    ∃ n, ∀ m, n ≤ m → ∀ i, e.label m ≠ .locked i

section Limiter

variable (period : Duration → Float64)

/-- The rate that `New` computes for a rate limit. -/
def refillRate (l : RateLimit) : Float64 := (Float64.ofRat l.requests).div (period l.per)

/-- A rate limit that a limiter can keep for ever. The capacity is a token at least, the rate is a
positive finite number, and what comes in within a nanosecond is not lost in the rounding. -/
structure Lasting (l : RateLimit) : Prop where
  requests : 1 ≤ l.requests
  per_pos : (Float64.finite 0).lt (period l.per) = true
  rate_pos : (Float64.finite 0).lt (refillRate period l) = true
  rate_lt : (refillRate period l).lt (.infinite false) = true
  /-- A nanosecond is worth more than the rounding below one token takes away. A bucket with more
  requests does not become empty. -/
  nanosecond : l.requests ≤ 2 ^ 53 + 2 →
    (Float64.finite (1 / 2 ^ 54)).lt ((floatSeconds 1).mul (refillRate period l)) = true

variable {period} {l : RateLimit}

/-- The numbers of such a limiter are finite, and positive. -/
theorem exists_rate (hpos : (Float64.finite 0).lt (refillRate period l) = true)
    (hlt : (refillRate period l).lt (.infinite false) = true) :
    ∃ r, refillRate period l = .finite r ∧ 0 < r := by
  cases hr : refillRate period l with
  | finite r =>
      rw [hr] at hpos
      exact ⟨r, rfl, of_decide_eq_true hpos⟩
  | infinite s =>
      rw [hr] at hpos hlt
      cases s with
      | true => cases hpos
      | false => cases hlt
  | nan =>
      rw [hr] at hpos
      cases hpos

/-- Neither is the capacity an infinity then. -/
theorem capacity_finite (hreq : 1 ≤ l.requests) {r : ℚ} (hr : refillRate period l = .finite r) :
    nearest l.requests < 2 ^ 1024 := by
  by_contra hle
  have hcap : Float64.ofRat l.requests = .infinite false :=
    Float64.ofRat_infinite (by exact_mod_cast (Int.le_trans Int.one_nonneg hreq)) (not_lt.mp hle)
  rw [refillRate, hcap] at hr
  cases hper : period l.per with
  | finite p => rw [hper] at hr; cases hr
  | infinite s => rw [hper] at hr; cases hr
  | nan => rw [hper] at hr; cases hr

/-- The bucket of a rate limit with finite numbers. -/
theorem new_level (hreq : 1 ≤ l.requests) {r : ℚ} (hr : refillRate period l = .finite r)
    (hpos : 0 < r) (start : Nat) : Proper (nearest l.requests) r ∧
      Level (nearest l.requests) r ((floatLimiter period).new l.requests l.per start)
        (nearest l.requests) := by
  have hreq' : (1 : ℚ) ≤ l.requests := by exact_mod_cast hreq
  have hnonneg : (0 : ℚ) ≤ l.requests := zero_le_one.trans hreq'
  have hlt := capacity_finite hreq hr
  have hcap := Float64.ofRat_finite hnonneg hlt
  exact ⟨⟨hpos, nearest_one.symm.trans_le (nearest_mono zero_le_one hreq'), hlt,
      nearest_idem hnonneg⟩,
    ⟨hcap, hcap, hr, nearest_nonneg hnonneg, le_rfl, nearest_idem hnonneg⟩⟩

/-- What a nanosecond is worth. -/
theorem nanosecond_iff {r : ℚ} (hr : refillRate period l = .finite r) (hpos : 0 < r) :
    (Float64.finite (1 / 2 ^ 54)).lt ((floatSeconds 1).mul (refillRate period l)) = true ↔
      1 / 2 ^ 54 < nearest (secondsOf 1 * r) := by
  rw [hr, floatSeconds_eq (by norm_num), Float64.mul_finite,
    Float64.ofRat_of_nonneg (mul_nonneg (secondsOf_nonneg 1) hpos.le)]
  split
  · rename_i hle
    have hsmall : (1 : ℚ) / 2 ^ 54 < 2 ^ 1024 := lt_range (by norm_num)
    exact ⟨fun _ => hsmall.trans_le hle, fun _ => rfl⟩
  · exact decide_eq_true_iff

/-- The bucket of a limit that lasts comes to its tokens. -/
theorem Lasting.fillsUp (h : Lasting period l) (start : Nat) :
    FillsUp ((floatLimiter period).new l.requests l.per start) := by
  obtain ⟨r, hr, hpos⟩ := exists_rate h.rate_pos h.rate_lt
  obtain ⟨hp, hlevel⟩ := new_level h.requests hr hpos start
  refine ⟨_, r, _, hp, hlevel, ?_⟩
  rcases le_or_gt l.requests (2 ^ 53 + 2) with hle | hlt
  · exact Or.inl ((nanosecond_iff hr hpos).mp (h.nanosecond hle))
  · exact Or.inr (plenty_le_nearest (by exact_mod_cast (by omega : 2 ^ 53 + 3 ≤ l.requests)))

/-- So it serves everyone. -/
theorem Lasting.satisfiable (h : Lasting period l) (start : Nat) :
    Satisfiable (period l.per) ((floatLimiter period).new l.requests l.per start) start := by
  have hfills := h.fillsUp start
  refine ⟨h.per_pos, h.rate_pos, ?_, fun s hs => ?_, fun e hasks hclock calls hcalls => ?_⟩
  · obtain ⟨r, hr, hpos⟩ := exists_rate h.rate_pos h.rate_lt
    obtain ⟨hp, hlevel⟩ := new_level h.requests hr hpos start
    rw [hlevel.capacity]
    exact decide_eq_true hp.one_le
  · have hgood := (SharedBucket.reachable_good floatBucket_fills hfills le_rfl hs).1
    exact ⟨_, fun now hnow => hgood.granted hnow⟩
  · exact SharedBucket.eventually_quiet floatBucket_fills hfills le_rfl e hasks hclock hcalls

/-- Any other limiter leaves someone waiting, or divides by what is not positive. -/
theorem Satisfiable.lasting {start : Nat}
    (h : Satisfiable (period l.per) ((floatLimiter period).new l.requests l.per start) start) :
    Lasting period l := by
  have hreq : 1 ≤ l.requests := by exact_mod_cast Float64.pos_of_le_ofRat h.capacity
  have hlt : (refillRate period l).lt (.infinite false) = true := by
    by_contra hinf
    have hrate : refillRate period l = .infinite false := by
      have hpos : (Float64.finite 0).lt (refillRate period l) = true := h.rate_pos
      cases hr : refillRate period l with
      | finite r => exact absurd (by rw [hr]; rfl) hinf
      | infinite s =>
          rw [hr] at hpos
          cases s with
          | true => cases hpos
          | false => rfl
      | nan =>
          rw [hr] at hpos
          cases hpos
    -- An infinite rate makes the content not a number at the second call, and from then on every
    -- call is refused.
    obtain ⟨s, hs, hnever⟩ := exists_nan
      (b := (floatLimiter period).new l.requests l.per start) hrate rfl
    obtain ⟨t, ht⟩ := h.succeeds s hs
    exact absurd ((hnever t).symm.trans (ht t le_rfl)) Bool.false_ne_true
  refine ⟨hreq, h.per_pos, h.rate_pos, hlt, fun hle => ?_⟩
  obtain ⟨r, hr, hpos⟩ := exists_rate h.rate_pos hlt
  obtain ⟨hp, hlevel⟩ := new_level hreq hr hpos start
  rw [nanosecond_iff hr hpos]
  by_contra hsmall
  -- With a rate too small the bucket is drained first. Then a caller waits for a token that no
  -- refill of a nanosecond brings.
  obtain ⟨n, hn⟩ := Int.eq_ofNat_of_zero_le (Int.le_trans Int.one_nonneg hreq)
  obtain ⟨s, hs, hempty, hnow⟩ := exists_drained hp (by omega : n ≤ 2 ^ 53 + 2)
    (by rw [hn]; rfl) hlevel rfl
  obtain ⟨e, hasks, hclock, ⟨calls, hcalls⟩, hforever⟩ :=
    exists_starved hp (not_lt.mp hsmall) hs hempty hnow
  obtain ⟨k, hquiet⟩ := h.ends e hasks hclock calls hcalls
  obtain ⟨m, hm, i, hi⟩ := hforever k
  exact hquiet m hm i hi

end Limiter

/-! ### The limiters of a run -/

/-- A limiter that `Run` builds, and its rate limit. It is the global one or that of a provider, and
the results hold of either. -/
inductive Built (env : Env FloatBucket) : RateLimit → FloatBucket → Prop
  | global (l : RateLimit) (b : FloatBucket) (hl : env.wf.rateLimit = some l)
      (hb : env.initial.globalLimiter = some b) : Built env l b
  | provider (name : String) (p : Provider) (l : RateLimit) (b : FloatBucket)
      (hp : env.wf.providers.get? name = some p) (hl : p.rateLimit = some l)
      (hb : env.initial.provLimiters.get? name = some (some b)) : Built env l b

/-- A rate limit of a decoded document, wherever it stands in it. -/
inductive Limits (rw : RawWorkflow) (l : RateLimit) : Prop
  | global (c : RawConcurrency) (hc : rw.concurrency = some c) (hl : c.rateLimit = some l)
  | provider (name : String) (p : Provider) (hp : rw.providers.get? name = some (some p))
      (hl : p.rateLimit = some l)

section Run

variable {period : Duration → Float64} {env : Env FloatBucket} {iter : MapOrder}
  {rw : RawWorkflow} {l : RateLimit}

/-- `New`. -/
theorem newLimiter_some (henv : env.limiter = floatLimiter period) (l : RateLimit) :
    env.newLimiter (some l) = some ((floatLimiter period).new l.requests l.per env.startedAt) := by
  unfold Env.newLimiter
  rw [henv]
  rfl

/-- `Run` builds a limiter by `New`, from a rate limit of the document. -/
theorem Built.limits (henv : env.limiter = floatLimiter period)
    (hparse : parse iter rw = .ok env.wf)
    {b : FloatBucket} (h : Built env l b) :
    Limits rw l ∧ b = (floatLimiter period).new l.requests l.per env.startedAt := by
  obtain ⟨-, hlimit, hproviders, -⟩ := parse_fields hparse
  cases h with
  | global _ _ hl hb =>
      rw [hl] at hlimit
      obtain ⟨c, hc, hcl⟩ := Option.bind_eq_some_iff.mp hlimit.symm
      refine ⟨.global c hc hcl, ?_⟩
      have hb' : env.newLimiter env.wf.rateLimit = some b := hb
      rw [hl, newLimiter_some henv] at hb'
      exact (Option.some.inj hb').symm
  | provider name p _ _ hp hl hb =>
      -- Naming a provider keeps its rate limit, so the one in the workflow is the one in the
      -- document.
      obtain ⟨q, hq, hql⟩ := nameProviders_rateLimit hproviders hp hl
      refine ⟨.provider name q hq hql, ?_⟩
      have hb' : (env.wf.providers.mapValues fun _ p => env.newLimiter p.rateLimit).get? name
          = some (some b) := hb
      rw [Dict.get?_mapValues, hp, Option.map_some, hl,
        newLimiter_some henv] at hb'
      exact (Option.some.inj (Option.some.inj hb')).symm

/-- For every rate limit of the document, `Run` builds a limiter. -/
theorem Limits.built (henv : env.limiter = floatLimiter period)
    (hparse : parse iter rw = .ok env.wf)
    (h : Limits rw l) : ∃ b, Built env l b := by
  obtain ⟨-, hlimit, hproviders, -⟩ := parse_fields hparse
  cases h with
  | global c hc hl =>
      have hwf : env.wf.rateLimit = some l := by
        rw [hlimit, hc]
        exact hl
      have hb : env.newLimiter env.wf.rateLimit
          = some ((floatLimiter period).new l.requests l.per env.startedAt) := by
        rw [hwf]
        exact newLimiter_some henv l
      exact ⟨_, .global l _ hwf hb⟩
  | provider name p hp hl =>
      have hwf : env.wf.providers.get? name = some { name := name, rateLimit := some l } := by
        unfold nameProviders at hproviders
        split at hproviders
        · cases hproviders
        · rw [← Except.ok.inj hproviders, Dict.get?_mapValues, hp]
          show some ({ name := name, rateLimit := p.rateLimit } : Provider) = _
          rw [hl]
      -- One limiter is built for each provider, before any task is started.
      have hb : (env.wf.providers.mapValues fun _ p => env.newLimiter p.rateLimit).get? name
          = some (some ((floatLimiter period).new l.requests l.per env.startedAt)) := by
        rw [Dict.get?_mapValues, hwf]
        exact congrArg some (newLimiter_some henv l)
      exact ⟨_, .provider name _ l _ hwf rfl hb⟩

end Run

/-- The limiters of a run of a parsed workflow are satisfiable exactly when each rate limit of the
document lasts, whatever `ParseDuration` makes of the periods.

Every limit of the document has its limiter and every limiter comes from a limit (`Limits.built`,
`Built.limits`). So the theorem is about one of them. If its limit lasts, the bucket fills up from
every state; if it does not, a division is by no positive number, or there is a run after which a
caller waits for ever. -/
theorem rate_limits_satisfiable_iff (period : Duration → Float64) (env : Env FloatBucket)
    (henv : env.limiter = floatLimiter period) (iter : MapOrder) (rw : RawWorkflow)
    (hparse : parse iter rw = .ok env.wf) :
    (∀ l b, Built env l b → Satisfiable (period l.per) b env.startedAt) ↔
      ∀ l, Limits rw l → Lasting period l := by
  constructor
  · intro h l hl
    obtain ⟨b, hb⟩ := hl.built henv hparse
    have hs := h l b hb
    rw [(hb.limits henv hparse).2] at hs
    exact hs.lasting
  · intro h l b hb
    obtain ⟨hl, rfl⟩ := hb.limits henv hparse
    exact (h l hl).satisfiable env.startedAt

/-- A document of one task whose only rate limit is the global one, with so many requests in a
second. -/
def limitedDocument (requests : Int) : Json :=
  .obj [("workflow", .obj [("name", .str "w"),
    ("concurrency", .obj [("rate_limit", .obj [("requests", .num requests), ("per", .str "1s")])]),
    ("tasks", .arr [.obj [("id", .str "a"), ("skill", .str "s")]])])]

/-- `Parse` accepts a document, and the limit is its only one. -/
def acceptsLimit (l : RateLimit) (rw : RawWorkflow) : Bool :=
  (parse .insertion rw).toBool && rw.providers.entries.isEmpty &&
    decide (rw.concurrency.bind (·.rateLimit) = some l)

/-- The run of such a document. -/
theorem exists_limited (period : Duration → Float64) {doc : Json} {l : RateLimit}
    (h : (decodeDocument doc).any (acceptsLimit l) = true) :
    ∃ (env : Env FloatBucket) (rw : RawWorkflow), decodeDocument doc = some rw ∧
      env.limiter = floatLimiter period ∧ parse .insertion rw = .ok env.wf ∧
      ∀ l', Limits rw l' ↔ l' = l := by
  obtain ⟨rw, hrw, haccept⟩ := (Option.any_eq_true _ _).mp h
  simp only [acceptsLimit, Bool.and_eq_true, decide_eq_true_eq, List.isEmpty_iff] at haccept
  -- The document has no providers, so the limit of its `concurrency` is the only one.
  obtain ⟨⟨hok, hempty⟩, hlimit⟩ := haccept
  cases hparse : parse .insertion rw with
  | error f =>
      rw [hparse] at hok
      cases hok
  | ok wf =>
      refine ⟨{ twoLimits with wf := wf, limiter := floatLimiter period }, rw, hrw, rfl,
        hparse, fun l' => ?_⟩
      constructor
      · intro hl
        cases hl with
        | global c hc hl =>
            rw [hc] at hlimit
            exact Option.some.inj (hl.symm.trans hlimit)
        | provider name p hp _ =>
            have hmem := (rw.providers.mem_entries name (some p)).mpr hp
            rw [hempty] at hmem
            cases hmem
      · rintro rfl
        obtain ⟨c, hc, hl⟩ := Option.bind_eq_some_iff.mp hlimit
        exact .global c hc hl

/-- A run with one request in a second. -/
theorem one_request_satisfiable : ∃ (env : Env FloatBucket) (l : RateLimit) (b : FloatBucket),
    Built env l b ∧ l.requests = 1 ∧
      ∀ l b, Built env l b → Satisfiable (Float64.ofRat l.per) b env.startedAt := by
  obtain ⟨env, rw, -, henv, hparse, hlimits⟩ := @exists_limited Float64.ofRat (limitedDocument 1)
    { requests := 1, per := 1, tokens := 0, perTokens := none } (by decide +kernel)
  obtain ⟨b, hb⟩ := Limits.built henv hparse ((hlimits _).mpr rfl)
  refine ⟨env, _, b, hb, rfl,
    (rate_limits_satisfiable_iff Float64.ofRat env henv .insertion rw hparse).mpr ?_⟩
  intro l hl
  obtain rfl := (hlimits l).mp hl
  exact ⟨le_rfl, by decide +kernel, by decide +kernel, by decide +kernel,
    fun _ => by decide +kernel⟩

/-- A bucket that cannot hold a token grants none. -/
theorem acquire_refused {b : FloatBucket} {c : ℚ} (hcap : b.capacity = .finite c) (h : c < 1)
    (now : Nat) : (b.acquireN oneToken now).1 = false := by
  -- The refill stops at the capacity, and the comparison fails as well where the content is not a
  -- number.
  have hle : oneToken.le (b.refill now).tokens = false := by
    unfold FloatBucket.refill
    simp only [hcap]
    generalize b.tokens.add ((floatSeconds (b.elapsed now)).mul b.rate) = x
    cases x with
    | finite q =>
        rw [Float64.lt_finite]
        by_cases hover : c < q
        · rw [if_pos (decide_eq_true hover)]
          exact decide_eq_false (not_le.mpr h)
        · rw [if_neg (by simpa using hover)]
          exact decide_eq_false (not_le.mpr ((not_lt.mp hover).trans_lt h))
    | infinite s =>
        cases s with
        | true => rfl
        | false => exact decide_eq_false (not_le.mpr h)
    | nan => rfl
  unfold FloatBucket.acquireN
  simp only [hle, Bool.false_eq_true, if_false]

/-- `Parse` accepts a document with no request in a second, and its limiter never grants a token. -/
theorem no_request_unsatisfiable : ∃ (env : Env FloatBucket) (rw : RawWorkflow),
    decodeDocument (limitedDocument 0) = some rw ∧ env.limiter = floatLimiter Float64.ofRat ∧
    parse .insertion rw = .ok env.wf ∧ ∃ (l : RateLimit) (b : FloatBucket), Built env l b ∧
      (∀ now, (b.acquireN oneToken now).1 = false) ∧
      ¬ Satisfiable (Float64.ofRat l.per) b env.startedAt := by
  obtain ⟨env, rw, hdec, henv, hparse, hlimits⟩ := @exists_limited Float64.ofRat (limitedDocument 0)
    { requests := 0, per := 1, tokens := 0, perTokens := none } (by decide +kernel)
  obtain ⟨b, hb⟩ := Limits.built henv hparse ((hlimits _).mpr rfl)
  have hcap : b.capacity = .finite 0 := by
    rw [(hb.limits henv hparse).2]
    exact Float64.ofRat_natCast (n := 0) (by norm_num)
  refine ⟨env, rw, hdec, henv, hparse, _, b, hb, acquire_refused hcap one_pos, fun h => ?_⟩
  have hone := h.capacity
  rw [hcap, oneToken, Float64.le_finite] at hone
  exact absurd (of_decide_eq_true hone) (by norm_num)

end Orchestrator.Proofs
