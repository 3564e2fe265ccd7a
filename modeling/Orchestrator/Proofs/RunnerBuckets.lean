import Mathlib.Algebra.Order.Archimedean.Basic
import Orchestrator.Engine.Bucket
import Orchestrator.Proofs.Throttling

/-!
# `Orchestrator.Proofs.RunnerBuckets`: the buckets of a Python run give a token in the end

`BucketsOk` says that the buckets of a run refill, which `prepare` checks. So from some instant on a
bucket refuses nobody who asks for one token (`exists_readyFrom`), and a refusal does not move that
instant (`ReadyFrom.refuse`).

A round of `acquire` is a request to the bucket of `Lib.TokenBucket` (`acquire_cases`), where the
numbers are exact: a refill adds what the time is worth, and a refusal takes nothing away. The
capacity of the bucket of a rate limit is its number of requests, so a whole token always fits.

A run has several buckets, the global one and those of the providers, and a coroutine asks one at a
time (`askedKey`). `BucketStep` says what a step does to the bucket at a key, and `ReadyAt` is
readiness there. As long as no token is granted, readiness is kept by all steps, and the proof that
a fair run ends uses this from the point on at which no more grants happen.
-/

set_option autoImplicit false

namespace Orchestrator.Sdk

open Orchestrator.Engine (seconds)

namespace TokenBucket

/-- The bucket as a token bucket. The source keeps the rate and its period apart and divides when it
refills. -/
def view (b : TokenBucket) : Lib.TokenBucket ℚ where
  tokens := b.tokens
  capacity := b.capacity
  rate := b.rate / b.per
  updated := seconds b.updated

/-- A refill is one of the token bucket behind it. -/
theorem refill_view (b : TokenBucket) (now : Nat) :
    (b.refill now).view = b.view.refill (seconds now) := by
  have helapsed : ((now : ℚ) - b.updated) / 1000000000 = seconds now - seconds b.updated :=
    sub_div _ _ _
  show Lib.TokenBucket.mk (min b.capacity (b.tokens + _ / 1000000000 * _)) _ _ _ = _
  rw [helapsed]
  rfl

/-- A round of `acquire` is a request to a token bucket, unless the amount never fits. -/
theorem acquire_cases (lib : PyLib) (b : TokenBucket) (amount : ℚ) (now : Nat) :
    (∃ e, b.acquire lib amount now = .error e ∧ b.capacity < amount) ∨
      ∃ granted b', b.acquire lib amount now = .ok (granted, b') ∧ amount ≤ b.capacity ∧
        b.view.take amount (seconds now) = (granted, b'.view) ∧
        b'.rate = b.rate ∧ b'.per = b.per ∧ b'.capacity = b.capacity := by
  unfold acquire
  by_cases hcap : amount > b.capacity
  · exact Or.inl ⟨_, if_pos hcap, hcap⟩
  · simp only [hcap, if_false, Lib.TokenBucket.take, ← refill_view]
    refine Or.inr ?_
    by_cases hle : amount ≤ (b.refill now).tokens
    · have hview : amount ≤ (b.refill now).view.tokens := hle
      simp only [ge_iff_le, hle, if_true, hview]
      exact ⟨_, _, rfl, not_lt.mp hcap, rfl, rfl, rfl, rfl⟩
    · have hview : ¬ amount ≤ (b.refill now).view.tokens := hle
      simp only [ge_iff_le, hle, if_false, hview]
      exact ⟨_, _, rfl, not_lt.mp hcap, rfl, rfl, rfl, rfl⟩

end TokenBucket

namespace Runner

open Orchestrator.Lib Env

variable {env : Env}

/-- The bucket at a key: the global one, or the one of a provider. -/
def bucketAt (s : State) : Option String → Option TokenBucket
  | none => s.globalBucket
  | some name => (s.provReq.get? name).join

/-- The bucket that a coroutine asks in its `acquire`: that of a provider by its name, or the global
one. -/
def askedKey (c : Coro) : Option String :=
  match c.pc with
  | .provider | .providerSleep => some (c.task.provider.getD "")
  | _ => none

/-- The bucket refills. -/
def Refills (b : TokenBucket) : Prop := 0 < b.rate ∧ 0 < b.per

/-- Every bucket of the run refills. -/
def BucketsOk (s : State) : Prop := ∀ key b, bucketAt s key = some b → Refills b

/-- From an instant on, no round finds the bucket without a token. -/
def ReadyFrom (env : Env) (b : Option TokenBucket) (t : Nat) : Prop :=
  ∀ now, t ≤ now → isRefused (env.acquireRound b now) = false

/-- What a refused round does to the bucket. -/
theorem refused_view {b : TokenBucket} {now : Nat} {b' : Option TokenBucket}
    (h : env.acquireRound (some b) now = .ok (false, b')) :
    ∃ b₁, b' = some b₁ ∧ b₁.view = b.view.refill (seconds now) ∧ b₁.capacity = b.capacity ∧
      (Refills b → Refills b₁) := by
  rcases b.acquire_cases env.lib 1 now with ⟨e, he, -⟩ | ⟨granted, b₁, hb, -, hview, hr, hp, hc⟩
  · rw [acquireRound, he] at h
    cases h
  · rw [acquireRound, hb] at h
    cases h
    refine ⟨b₁, rfl, Lib.TokenBucket.take_refused hview, hc, fun hok => ?_⟩
    rwa [Refills, hr, hp]

/-- A round is refused when the amount fits and is not there. -/
theorem isRefused_iff (b : TokenBucket) (now : Nat) :
    isRefused (env.acquireRound (some b) now) = true ↔
      1 ≤ b.capacity ∧ ¬ 1 ≤ (b.view.refill (seconds now)).tokens := by
  -- A bucket too small for one token raises an error. Every other one answers by what it holds
  -- after the refill.
  rcases b.acquire_cases env.lib 1 now with ⟨e, he, hcap⟩ | ⟨granted, b', hb, hcap, hview, -⟩
  · rw [acquireRound, he]
    show false = true ↔ _
    simp [hcap]
  · have hround : isRefused (env.acquireRound (some b) now) = !granted := by
      rw [acquireRound, hb]
      rfl
    have hgranted : granted = decide (1 ≤ (b.view.refill (seconds now)).tokens) := by
      unfold Lib.TokenBucket.take at hview
      by_cases hle : 1 ≤ (b.view.refill (seconds now)).tokens
      · simp only [hle, if_true, Prod.mk.injEq] at hview
        simp [hle, ← hview.1]
      · simp only [hle, if_false, Prod.mk.injEq] at hview
        simp [hle, ← hview.1]
    rw [hround, hgranted]
    simp [hcap]

/-- A bucket that refills refuses nobody from some instant on. -/
theorem exists_readyFrom (b : Option TokenBucket) (hok : ∀ b₁, b = some b₁ → Refills b₁) :
    ∃ t, ReadyFrom env b t := by
  cases b with
  | none => exact ⟨0, fun _ _ => rfl⟩
  | some b =>
      have hrate : 0 < b.view.rate := div_pos (hok b rfl).1 (hok b rfl).2
      -- A bucket with room for a token fills up in the end; one without never refuses, it raises.
      by_cases hcap : 1 ≤ b.capacity
      · obtain ⟨start, hstart⟩ := b.view.exists_enough hrate hcap
        obtain ⟨t, ht⟩ := exists_nat_ge (start * 1000000000)
        refine ⟨t, fun now hnow => ?_⟩
        have hge : start ≤ seconds now := by
          have hcast : (t : ℚ) ≤ now := by exact_mod_cast hnow
          unfold seconds
          rw [le_div_iff₀ (by norm_num)]
          exact ht.trans hcast
        exact Bool.eq_false_iff.mpr fun h => ((isRefused_iff b now).mp h).2 (hstart _ hge)
      · exact ⟨0, fun now _ => Bool.eq_false_iff.mpr fun h => hcap ((isRefused_iff b now).mp h).1⟩

/-- A refusal leaves the bucket ready when it was. -/
theorem ReadyFrom.refuse {b b' : Option TokenBucket} {t now : Nat} (hb : ReadyFrom env b t)
    (hok : ∀ b₁, b = some b₁ → Refills b₁) (hle : now ≤ t)
    (h : env.acquireRound b now = .ok (false, b')) : ReadyFrom env b' t := by
  cases b with
  | none => cases h
  | some b =>
      obtain ⟨b₁, rfl, hview, hcap, -⟩ := refused_view h
      intro u hu
      have hrate : 0 ≤ b.view.rate := (div_pos (hok b rfl).1 (hok b rfl).2).le
      have hseconds : seconds now ≤ seconds u := Engine.seconds_mono (hle.trans hu)
      have hold := Bool.eq_false_iff.mp (hb u hu)
      refine Bool.eq_false_iff.mpr fun hnew => hold ?_
      rw [isRefused_iff, hview, Lib.TokenBucket.refill_refill _ hrate hseconds, hcap] at hnew
      exact (isRefused_iff b u).mpr hnew

/-! ### Along a run -/

/-- The bucket of a rate limit refills. -/
theorem bucketFor_refills {rl : Option RateLimit} {name : String} {now : Nat} {b : TokenBucket}
    (h : bucketFor rl name now = .ok (some b)) : Refills b := by
  cases rl with
  | none => cases h
  | some rl =>
      simp only [bucketFor, TokenBucket.make] at h
      split at h
      · cases h
      · rename_i hpos
        cases h
        exact ⟨not_le.mp (not_or.mp hpos).1, not_le.mp (not_or.mp hpos).2⟩

/-- What holds of the bucket of every rate limit holds of the buckets that `prepare` builds. -/
theorem prepare_buckets {P : TokenBucket → Prop}
    (hnew : ∀ rl name now b, bucketFor rl name now = .ok (some b) → P b) {now : Nat}
    {buckets : Option TokenBucket × Dict String (Option TokenBucket)}
    (h : env.prepare now = .ok buckets) :
    (∀ b, buckets.1 = some b → P b) ∧ ∀ name b, (buckets.2.get? name).join = some b → P b := by
  unfold prepare at h
  obtain ⟨_, -, h⟩ := except_bind_ok h
  obtain ⟨globalBucket, hglobal, h⟩ := except_bind_ok h
  obtain ⟨provReq, hprov, h⟩ := except_bind_ok h
  obtain ⟨_, -, h⟩ := except_bind_ok h
  -- The last part of the setup builds nothing: it raises or returns what there is.
  have hbuckets : buckets = (globalBucket, provReq) := by
    split at h
    · obtain ⟨_, hx, -⟩ := except_bind_ok h
      cases hx
    · cases h
      rfl
  subst hbuckets
  constructor
  · rintro b rfl
    exact hnew _ _ _ _ hglobal
  · intro name b hb
    have hentry := @get?_foldlM_ok _ _ _ _ _
      (fun n (p : Provider) => bucketFor p.rateLimit (n ++ ".req") now) name _ .empty provReq
      env.wf.providers.nodup hprov
    obtain ⟨hsome, hnone⟩ := hentry
    cases hfind : Dict.find name env.wf.providers.entries with
    | none =>
        rw [hnone hfind] at hb
        cases hb
    | some p =>
        obtain ⟨x, hx, hget⟩ := hsome p hfind
        rw [hget] at hb
        cases hb
        exact hnew _ _ _ _ hx

/-- Putting a coroutine back leaves the buckets alone. -/
theorem bucketAt_setCoro (s : State) (i : Nat) (c : Coro) (key : Option String) :
    bucketAt (setCoro s i c) key = bucketAt s key := by
  cases key <;> rfl

/-- A round at one bucket leaves the others, and the bucket refills as before. -/
theorem bucketAt_putBucket {s : State} (name : String) (b : Option TokenBucket)
    (key : Option String) :
    bucketAt { s with provReq := putBucket s.provReq name b } key
      = if key = some name ∧ s.provReq.contains name = true then b else bucketAt s key := by
  cases key with
  | none => rfl
  | some n =>
      show ((putBucket s.provReq name b).get? n).join = _
      unfold putBucket
      -- A provider that has no bucket is not given one.
      by_cases hc : s.provReq.contains name = true
      · by_cases hn : n = name
        · subst hn
          simp [hc]
        · have hne : ¬ (some n = some name) := fun h => hn (Option.some.inj h)
          rw [if_pos hc, Dict.get?_set_ne _ _ hn, if_neg (fun h => hne h.1)]
          rfl
      · rw [if_neg hc, if_neg (fun h => hc h.2)]
        rfl

/-- A round keeps the rate and the capacity of its bucket. -/
theorem round_kept {b : Option TokenBucket} {now : Nat} {granted : Bool} {b' : TokenBucket}
    (h : env.acquireRound b now = .ok (granted, some b')) :
    ∃ b₁, b = some b₁ ∧ b'.rate = b₁.rate ∧ b'.per = b₁.per ∧ b'.capacity = b₁.capacity := by
  cases b with
  | none => cases h
  | some b =>
      rcases b.acquire_cases env.lib 1 now with ⟨e, he, -⟩ | ⟨g, b₁, hb, -, -, hkept⟩
      · rw [acquireRound, he] at h
        cases h
      · rw [acquireRound, hb] at h
        cases h
        exact ⟨b, rfl, hkept⟩

/-- What a step of a coroutine does to a bucket: nothing, or one round of `acquire`. The bound on a
window is proved from these two. -/
inductive BucketStep (env : Env) (s : State) (c : Coro) (a : CoroAction)
    (b b' : Option TokenBucket) : Prop
  | keep (hb : b' = b)
  | round (granted : Bool) (ha : a = .acquire) (hr : refused env s c = !granted)
      (hb : env.acquireRound b s.clock = .ok (granted, b'))

/-- A step of a coroutine leaves a bucket alone, or it is a round at that bucket. -/
theorem CoroStep.bucketStep {s s' : State} {i : Nat} {c : Coro} {a : CoroAction}
    (h : CoroStep env s i c a s') (key : Option String) :
    BucketStep env s c a (bucketAt s key) (bucketAt s' key) := by
  -- The global bucket and the provider's are kept in different places, so a round changes one of
  -- them only.
  have hglobal : ∀ {granted : Bool} {b : Option TokenBucket} {c' : Coro},
      refused env s c = !granted → env.acquireRound s.globalBucket s.clock = .ok (granted, b) →
      BucketStep env s c .acquire (bucketAt s key)
        (bucketAt (setCoro { s with globalBucket := b } i c') key) := by
    intro granted b c' hr hb
    cases key with
    | none => exact .round granted rfl hr hb
    | some n => exact .keep rfl
  have hprovider : ∀ {granted : Bool} {b : Option TokenBucket} {c' : Coro},
      refused env s c = !granted →
      env.acquireRound (s.provReq.get? (c.task.provider.getD "")).join s.clock
        = .ok (granted, b) →
      BucketStep env s c .acquire (bucketAt s key) (bucketAt (setCoro
        { s with provReq := putBucket s.provReq (c.task.provider.getD "") b } i c') key) := by
    intro granted b c' hr hb
    have hput := @bucketAt_putBucket s (c.task.provider.getD "") b key
    by_cases hkey : key = some (c.task.provider.getD "") ∧
        s.provReq.contains (c.task.provider.getD "") = true
    · rw [if_pos hkey] at hput
      refine .round granted rfl hr ?_
      rw [bucketAt_setCoro, hput, hkey.1]
      exact hb
    · rw [if_neg hkey] at hput
      exact .keep ((bucketAt_setCoro _ _ _ _).trans hput)
  cases h with
  | grantGlobal b hpc hcr hb => exact hglobal (by simp [refused, isRefused, hpc, hb]) hb
  | denyGlobal b hpc hcr hb => exact hglobal (by simp [refused, isRefused, hpc, hb]) hb
  | grantProvider b hpc hcr hb => exact hprovider (by simp [refused, isRefused, hpc, hb]) hb
  | denyProvider b hpc hcr hb => exact hprovider (by simp [refused, isRefused, hpc, hb]) hb
  | _ => cases key <;> exact .keep rfl

/-- What holds of every new bucket, and depends on its rate and its capacity alone, holds of every
bucket of a reachable state. -/
theorem reachable_buckets {P : TokenBucket → Prop}
    (hnew : ∀ rl name now b, bucketFor rl name now = .ok (some b) → P b)
    (hkept : ∀ b b', b'.rate = b.rate → b'.per = b.per → b'.capacity = b.capacity → P b → P b')
    {s : State} (hs : env.system.Reachable s) : ∀ key b, bucketAt s key = some b → P b := by
  have hinit : ∀ key b, bucketAt env.initial key = some b → P b := by
    intro key b hb
    cases key <;> cases hb
  refine hs.holds (P := fun s => ∀ key b, bucketAt s key = some b → P b) hinit
    fun s a s' _ h ha => ?_
  cases step_inv ha with
  | main hm =>
      cases hm with
      -- The buckets are built once, before the loop. From then on only their content changes.
      | setup buckets hpc hb =>
          obtain ⟨hglobal, hprov⟩ := prepare_buckets hnew hb
          intro key b hkey
          cases key with
          | none => exact hglobal b hkey
          | some n => exact hprov n b hkey
      | _ => exact h
  | @coro i c b _ hi hy hstep =>
      intro key b' hb'
      cases hstep.bucketStep key with
      | keep hb =>
          rw [hb] at hb'
          exact h key b' hb'
      | round granted _ _ hb =>
          rw [hb'] at hb
          obtain ⟨b₁, hb₁, hr, hp, hc⟩ := round_kept hb
          exact hkept b₁ b' hr hp hc (h key b₁ hb₁)
  | _ => exact h

/-- Every bucket of a reachable state refills. -/
theorem reachable_bucketsOk {s : State} (hs : env.system.Reachable s) : BucketsOk s :=
  reachable_buckets (fun _ _ _ _ => bucketFor_refills)
    (fun b b' hr hp _ h => by rwa [Refills, hr, hp]) hs

/-- The bucket of a rate limit holds a whole token: its capacity is a positive integer. -/
theorem bucketFor_capacity {rl : Option RateLimit} {name : String} {now : Nat} {b : TokenBucket}
    (h : bucketFor rl name now = .ok (some b)) : 1 ≤ b.capacity := by
  cases rl with
  | none => cases h
  | some rl =>
      simp only [bucketFor, TokenBucket.make] at h
      split at h
      · cases h
      · rename_i hpos
        cases h
        have hreq : (0 : ℚ) < rl.requests := not_le.mp (not_or.mp hpos).1
        show (1 : ℚ) ≤ rl.requests
        exact_mod_cast hreq

/-- No round of `acquire` for one token raises. -/
theorem acquireRound_ok {s : State} (hs : env.system.Reachable s) (key : Option String)
    (now : Nat) : ∃ r, env.acquireRound (bucketAt s key) now = .ok r := by
  have hcap := reachable_buckets (P := fun b => 1 ≤ b.capacity)
    (fun _ _ _ _ => bucketFor_capacity) (fun b b' _ _ hc h => by rwa [hc]) hs key
  cases hb : bucketAt s key with
  | none => exact ⟨_, rfl⟩
  | some b =>
      rcases b.acquire_cases env.lib 1 now with ⟨e, -, hlt⟩ | ⟨granted, b', hround, -⟩
      · exact absurd (hcap b hb) (not_le.mpr hlt)
      · exact ⟨(granted, some b'), by rw [acquireRound, hround]; rfl⟩

/-- From an instant on, the bucket at a key refuses nobody. -/
def ReadyAt (env : Env) (s : State) (key : Option String) (t : Nat) : Prop :=
  ReadyFrom env (bucketAt s key) (max t s.clock)

/-- A step that grants no token leaves the buckets ready. -/
theorem CoroStep.readyAt {s s' : State} {i : Nat} {c : Coro} {a : CoroAction}
    (h : CoroStep env s i c a s') (hok : BucketsOk s) (hclock : s'.clock = s.clock)
    (hquiet : a = .acquire → refused env s c = true) {key : Option String} {t : Nat}
    (hready : ReadyAt env s key t) : ReadyAt env s' key t := by
  unfold ReadyAt at hready ⊢
  rw [hclock]
  cases h.bucketStep key with
  | keep hb =>
      rw [hb]
      exact hready
  | round granted ha hr hb =>
      have hfalse : granted = false := by
        rw [hquiet ha] at hr
        simpa using hr.symm
      rw [hfalse] at hb
      exact hready.refuse (hok key) (le_max_right _ _) hb

/-- A bucket that is ready refuses no coroutine. -/
theorem ReadyAt.not_refused {s : State} {c : Coro} {t : Nat} (h : ReadyAt env s (askedKey c) t)
    (hle : t ≤ s.clock) : refused env s c = false := by
  have hround := h s.clock (max_le hle le_rfl)
  cases hpc : c.pc with
  | global => simpa [refused, askedKey, bucketAt, hpc] using hround
  | provider => simpa [refused, askedKey, bucketAt, hpc] using hround
  | _ => simp [refused, hpc]

end Runner

end Orchestrator.Sdk
