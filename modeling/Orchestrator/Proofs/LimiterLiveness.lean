import Orchestrator.Proofs.Completion
import Orchestrator.Proofs.SatisfiableLimits

/-!
# `Orchestrator.Proofs.LimiterLiveness`: with its real limiters, a run comes to its report

`Orchestrator.Proofs.Completion` takes it for granted that each call of a limiter returns. Here the
limiters are the buckets of `internal/ratelimit` with their `float64`, and that is proved: time goes
on, and a goroutine in `AcquireN` that waits for its timer or can lock the bucket is scheduled at
some point.

Other goroutines may take the tokens before it does. But a grant is progress, so from some point on
there is none (`eventually_quiet`), and a bucket that only refuses comes nearer to a token with each
refusal that is later than the last one. So refusals end too (`requests_end`). The goroutine asks
again after that, and is granted.

What a step does to a limiter is `LimiterStep`: it leaves it alone, or it is a request to it. The
limiters of a run are the global one and one for each provider that has a limit, and a goroutine
asks one of them only when it has looked it up (`LimitersOk`).

`Scheduled` is what remains as an assumption. It speaks about the clock and about fairness, and no
longer about calls. That a rate limit ever fills is a property of its numbers in `float64`
(`FillsUp`); `SatisfiableLimits` says which limits of a document have it.
-/

set_option autoImplicit false

namespace Orchestrator.Proofs

open Orchestrator.Lib Orchestrator.Engine Orchestrator.Engine.Env

variable {period : Duration → Float64} {env : Env FloatBucket}

/-! ### Limiters -/

/-- The limiter at a key: the global one, or the one of a provider. -/
def limiterAt (s : State FloatBucket) : Option String → Option (Option FloatBucket)
  | none => some s.globalLimiter
  | some name => s.provLimiters.get? name

/-- The limiter that a goroutine asks. -/
def askedLimiter (g : Goroutine) : Option String :=
  if stage g.pc = .provider then some g.task.provider else none

/-- A locked section on a bucket. -/
theorem tryAcquire_floatBucket (hlim : env.limiter = floatLimiter period) {b : FloatBucket}
    {now : Nat} {ok : Bool} {b' : Option FloatBucket}
    (h : env.tryAcquire (some b) now = (ok, b')) :
    ∃ c, b' = some c ∧ lockedSection b oneToken now = some (ok, c) := by
  simp only [tryAcquire, hlim, Prod.mk.injEq] at h
  exact ⟨_, h.2.symm, congrArg some (Prod.ext h.1 rfl)⟩

/-! ### What a step does to a limiter -/

/-- A step leaves a limiter alone, or it is a request to it. A granted one ends the wait. -/
inductive LimiterStep (env : Env FloatBucket) (now : Nat) (left : Prop)
    (o o' : Option (Option FloatBucket)) :
    Prop
  | keep (h : o' = o)
  | round (ok : Bool) (b b' : Option FloatBucket) (ho : o = some b) (ho' : o' = some b')
      (hb : env.tryAcquire b now = (ok, b')) (hleft : ok = true → left)

/-- Putting a goroutine back leaves the limiters alone. -/
theorem limiterAt_setGo (s : State FloatBucket) (i : Nat) (g : Goroutine) (key : Option String) :
    limiterAt (setGo s i g) key = limiterAt s key := by
  cases key <;> rfl

/-- The limiters after a request to the one of a provider. -/
theorem limiterAt_setProvider (s : State FloatBucket) (name : String) (b : Option FloatBucket)
    (key : Option String) :
    limiterAt { s with provLimiters := s.provLimiters.set name b } key
      = if key = some name then some b else limiterAt s key := by
  cases key with
  | none => rfl
  | some n =>
      show (s.provLimiters.set name b).get? n = _
      by_cases hn : n = name
      · rw [if_pos (congrArg some hn), hn, Dict.get?_set_self]
      · rw [if_neg fun h => hn (Option.some.inj h), Dict.get?_set_ne _ _ hn]
        rfl

/-- A step of a task goroutine and the limiter at a key: it asks this limiter, or leaves it
alone. -/
theorem TaskStep.limiterStep {s s' : State FloatBucket} {i : Nat} {g : Goroutine} {a : TaskAction}
    (h : TaskStep env s i g a s') (hg : s.gos[i]? = some g) (key : Option String) :
    LimiterStep env s.clock (∀ g', s'.gos[i]? = some g' → stage g'.pc ≠ stage g.pc)
      (limiterAt s key) (limiterAt s' key) := by
  have hself : ∀ {t : State FloatBucket} {g' x : Goroutine}, t.gos = s.gos →
      (setGo t i g').gos[i]? = some x → x = g' := by
    intro t g' x ht hx
    have hx : (t.gos.set i g')[i]? = some x := hx
    rw [ht, List.getElem?_set_self (List.getElem?_eq_some_iff.mp hg).1] at hx
    exact (Option.some.inj hx).symm
  -- A round at the global limiter changes this one only.
  have hglobal : ∀ {ok : Bool} {b : Option FloatBucket} {g' : Goroutine},
      env.tryAcquire s.globalLimiter s.clock = (ok, b) → (ok = true → stage g'.pc ≠ stage g.pc) →
      LimiterStep env s.clock
        (∀ x, (setGo { s with globalLimiter := b } i g').gos[i]? = some x →
          stage x.pc ≠ stage g.pc)
        (limiterAt s key) (limiterAt (setGo { s with globalLimiter := b } i g') key) := by
    intro ok b g' hb hleft
    cases key with
    | none =>
        refine .round ok _ b rfl rfl hb fun hok x hx => ?_
        obtain rfl := @hself { s with globalLimiter := b } _ _ rfl hx
        exact hleft hok
    | some n => exact .keep rfl
  -- A round at a provider changes the entry of that provider only.
  have hprovider : ∀ {ok : Bool} {b b' : Option FloatBucket} {g' : Goroutine},
      s.provLimiters.get? g.task.provider = some b → env.tryAcquire b s.clock = (ok, b') →
      (ok = true → stage g'.pc ≠ stage g.pc) →
      LimiterStep env s.clock
        (∀ x, (setGo { s with provLimiters := s.provLimiters.set g.task.provider b' } i
          g').gos[i]? = some x → stage x.pc ≠ stage g.pc)
        (limiterAt s key) (limiterAt (setGo
          { s with provLimiters := s.provLimiters.set g.task.provider b' } i g') key) := by
    intro ok b b' g' hp hb hleft
    rw [limiterAt_setGo, limiterAt_setProvider]
    by_cases hkey : key = some g.task.provider
    · subst hkey
      rw [if_pos rfl]
      refine .round ok b b' hp rfl hb fun hok x hx => ?_
      obtain rfl := @hself { s with provLimiters := s.provLimiters.set g.task.provider b' } _ _
        rfl hx
      exact hleft hok
    · rw [if_neg hkey]
      exact .keep rfl
  cases h with
  | grantGlobal b hpc hb =>
      refine hglobal hb fun _ => ?_
      rcases afterGlobal_pc g s.provLimiters with h | h <;> simp [h, hpc, stage]
  | denyGlobal b hpc hb => exact hglobal hb (by simp)
  | grantProvider b b' hpc hp hb => exact hprovider hp hb fun _ => by simp [hpc, stage]
  | denyProvider b b' hpc hp hb => exact hprovider hp hb (by simp)
  | _ => exact .keep (by cases key <;> rfl)

/-- The limiters of a run fill up, they were asked in the past, and a goroutine asks one that is
there. -/
structure LimitersOk (s : State FloatBucket) : Prop where
  fillsUp : ∀ key b, limiterAt s key = some (some b) → FillsUp b
  past : ∀ key b, limiterAt s key = some (some b) → b.updated ≤ s.clock
  known : ∀ g ∈ s.gos, limiterAt s (askedLimiter g) ≠ none

/-- A limiter stays there. -/
theorem LimiterStep.known {now : Nat} {left : Prop} {o o' : Option (Option FloatBucket)}
    (h : LimiterStep env now left o o') (ho : o ≠ none) : o' ≠ none := by
  cases h with
  | keep h => exact h ▸ ho
  | round ok b b' _ ho' _ _ => simp [ho']

/-- A goroutine that comes to the limiter of its provider has looked it up. -/
theorem TaskStep.asks_known {s s' : State FloatBucket} {i : Nat} {g g' : Goroutine} {a : TaskAction}
    (h : TaskStep env s i g a s') (hg : s.gos[i]? = some g) (hgs : GoStep s s' i g g' a)
    (hknown : limiterAt s (askedLimiter g) ≠ none) : limiterAt s' (askedLimiter g') ≠ none := by
  have hother : stage g'.pc ≠ .provider → limiterAt s' (askedLimiter g') ≠ none := by
    intro hst
    rw [askedLimiter, if_neg hst]
    simp [limiterAt]
  by_cases hst : stage g'.pc = .provider
  · have hasked : askedLimiter g' = some g.task.provider := by
      rw [askedLimiter, if_pos hst, hgs.task]
    rw [hasked]
    refine (h.limiterStep hg _).known ?_
    by_cases hold : stage g.pc = .provider
    · rwa [askedLimiter, if_pos hold] at hknown
    · -- Only the global limiter leads to the one of the provider.
      have hset : ∀ {x : Goroutine}, s'.gos = s.gos.set i x → x = g' := fun hx =>
        eq_of_set_eq hg (hx.symm.trans hgs.gos)
      cases h with
      | resolve hpc =>
          obtain rfl := hset rfl
          rcases resolveInputs_pc env g s.clock with h | h <;> simp [h, stage] at hst
      | grantGlobal b hpc hb =>
          obtain rfl := hset rfl
          have hst : stage (afterGlobal g s.provLimiters) = .provider := hst
          unfold afterGlobal at hst
          split at hst
          · rename_i hprov
            intro hnone
            simp only [limiterAt] at hnone
            simp [Dict.contains, hnone] at hprov
          · cases hst
      | denyProvider b b' hpc hp hb => exact absurd (by simp [hpc, stage]) hold
      | timerProvider hpc => exact absurd (by simp [hpc, stage]) hold
      | ret res err hpc =>
          obtain rfl := hset rfl
          rcases afterExecute_pc env g s.clock res err with h | h <;> simp [h, stage] at hst
      | wake hpc =>
          obtain rfl := hset rfl
          rcases enterAttempt_pc env g s.clock (g.span.attempts + 1) with h | h <;>
            simp [h, stage] at hst
      | _ =>
          obtain rfl := hset rfl
          simp [stage] at hst
  · exact hother hst

/-- Time does not go back. -/
theorem clock_le {s s' : State FloatBucket} {a : Action} (h : env.step? s a = some s') :
    s.clock ≤ s'.clock := by
  rcases step_inv h with ⟨-, hm⟩ | ⟨i, b, g, -, -, ht⟩ | ⟨-, rfl⟩ | ⟨d, -, rfl⟩
  · exact hm.frame.2.1.ge
  · exact ht.calls.1.ge
  · exact le_rfl
  · exact Nat.le_add_right _ _

/-- What a step does to the limiter at a key. -/
theorem step_limiter {s s' : State FloatBucket} {a : Action} (h : env.step? s a = some s')
    (key : Option String) :
    limiterAt s' key = limiterAt s key ∨ ∃ i b g, s.gos[i]? = some g ∧ TaskStep env s i g b s' ∧
      LimiterStep env s.clock (∀ g', s'.gos[i]? = some g' → stage g'.pc ≠ stage g.pc)
        (limiterAt s key) (limiterAt s' key) := by
  rcases step_inv h with ⟨-, hm⟩ | ⟨i, b, g, -, hg, ht⟩ | ⟨-, rfl⟩ | ⟨d, -, rfl⟩
  · obtain ⟨-, -, hglobal, hprov⟩ := hm.frame
    left
    cases key with
    | none => exact congrArg some hglobal
    | some n => exact congrArg (fun d => Dict.get? d n) hprov
  · exact Or.inr ⟨i, b, g, hg, ht, ht.limiterStep hg key⟩
  · exact Or.inl rfl
  · exact Or.inl (by cases key <;> rfl)

/-- `LimitersOk` holds in every reachable state: every limiter fills up, its stamp is not in the
future, and whoever asks a limiter finds one. -/
theorem reachable_limitersOk (hlim : env.limiter = floatLimiter period)
    (hinit : ∀ key b, limiterAt env.initial key = some (some b) →
      FillsUp b ∧ b.updated ≤ env.initial.clock) {s : State FloatBucket}
    (hs : env.system.Reachable s) : LimitersOk s := by
  refine hs.holds ⟨fun key b hb => (hinit key b hb).1, fun key b hb => (hinit key b hb).2,
    fun g hg => by cases hg⟩ fun s a s' _ h ha => ?_
  -- Only a round changes a limiter. What it stores fills up again and carries the present clock as
  -- its stamp.
  have hbucket : ∀ key c, limiterAt s' key = some (some c) → FillsUp c ∧ c.updated ≤ s'.clock := by
    intro key c hc
    have hkeep : limiterAt s' key = limiterAt s key → FillsUp c ∧
      c.updated ≤ s'.clock := fun hsame =>
      ⟨h.fillsUp key c (hsame ▸ hc), (h.past key c (hsame ▸ hc)).trans (clock_le ha)⟩
    rcases step_limiter ha key with hsame | ⟨i, b, g, -, ht, hstep⟩
    · exact hkeep hsame
    · cases hstep with
      | keep hsame => exact hkeep hsame
      | round ok b b' ho ho' hb _ =>
          rw [ho'] at hc
          cases hc
          cases b with
          | none => cases hb
          | some b =>
              obtain ⟨x, hx, hacq⟩ := tryAcquire_floatBucket hlim hb
              cases hx
              exact ⟨floatBucket_fills.keeps (h.fillsUp key b ho) rfl hacq,
                (floatBucket_fills.stamped hacq).le.trans ht.calls.1.ge⟩
  refine ⟨fun key c hc => (hbucket key c hc).1, fun key c hc => (hbucket key c hc).2, ?_⟩
  -- What is left is that every goroutine at a limiter asks one that exists.
  rcases step_inv ha with ⟨-, hm⟩ | ⟨i, b, g, -, hg, ht⟩ | ⟨-, rfl⟩ | ⟨d, -, rfl⟩
  · have hsame : limiterAt s' = limiterAt s := by
      obtain ⟨-, -, hglobal, hprov⟩ := hm.frame
      funext key
      cases key with
      | none => exact congrArg some hglobal
      | some n => exact congrArg (fun d => Dict.get? d n) hprov
    rw [hsame]
    rcases hm.gos with hgos | ⟨t, hgos⟩ <;> rw [hgos]
    · exact h.known
    · intro g hg
      rcases List.mem_append.mp hg with hg | hg
      · exact h.known g hg
      · obtain rfl := List.mem_singleton.mp hg
        simp [askedLimiter, newGoroutine, stage, limiterAt]
  · obtain ⟨g', hgs⟩ := ht.goStep
    rw [hgs.gos]
    exact forall_mem_set (fun x hx => (ht.limiterStep hg _).known (h.known x hx))
      (ht.asks_known hg hgs (h.known g (List.mem_of_getElem? hg)))
  · exact h.known
  · exact h.known

/-! ### A goroutine in a limiter -/

/-- It can step. -/
theorem limiter_enabled {s : State FloatBucket} {i : Nat} {g : Goroutine} (hg : s.gos[i]? = some g)
    (hin : inLimiter g.pc = true) (hknown : limiterAt s (askedLimiter g) ≠ none) :
    ∃ a, (env.step? s (.task i a)).isSome = true := by
  cases hpc : g.pc with
  | global => exact ⟨.acquire, by simp [step?, hg, taskStep, hpc]⟩
  | globalWait => exact ⟨.timer, by simp [step?, hg, taskStep, hpc]⟩
  | provider =>
      have hkey : askedLimiter g = some g.task.provider := by simp [askedLimiter, hpc, stage]
      rw [hkey] at hknown
      obtain ⟨b, hb⟩ := Option.ne_none_iff_exists'.mp hknown
      have hb : s.provLimiters.get? g.task.provider = some b := hb
      exact ⟨.acquire, by simp [step?, hg, taskStep, hpc, hb]⟩
  | providerWait => exact ⟨.timer, by simp [step?, hg, taskStep, hpc]⟩
  | _ => simp [hpc, inLimiter, stage] at hin

/-- A request to a limiter that is refused. -/
def Refused (env : Env FloatBucket) (o : Option (Option FloatBucket)) (now : Nat)
    (o' : Option (Option FloatBucket)) : Prop :=
  ∃ b b', o = some b ∧ o' = some b' ∧ env.tryAcquire b now = (false, b')

/-- A step that does not leave the limiter is the timer, or a refused request. -/
theorem TaskStep.round {s s' : State FloatBucket} {i : Nat} {g g' : Goroutine} {a : TaskAction}
    (h : TaskStep env s i g a s') (hg : s.gos[i]? = some g) (hgs : GoStep s s' i g g' a)
    (hin : inLimiter g.pc = true) (hst : stage g'.pc = stage g.pc) :
    (g.pc ≠ stage g.pc ∧ g'.pc = stage g'.pc) ∨
      Refused env (limiterAt s (askedLimiter g)) s.clock (limiterAt s' (askedLimiter g)) := by
  have hset : ∀ {x : Goroutine}, s'.gos = s.gos.set i x → x = g' := fun hx =>
    eq_of_set_eq hg (hx.symm.trans hgs.gos)
  -- A step inside the limiter that keeps the stage is the timer's or a refusal; every other one
  -- leaves the stage.
  cases h with
  | grantGlobal b hpc hb =>
      obtain rfl := hset rfl
      rcases afterGlobal_pc g s.provLimiters with h | h <;> simp [h, hpc, stage] at hst
  | denyGlobal b hpc hb =>
      have hkey : askedLimiter g = none := by simp [askedLimiter, hpc, stage]
      rw [hkey]
      exact .inr ⟨s.globalLimiter, b, rfl, rfl, hb⟩
  | grantProvider b b' hpc hp hb =>
      obtain rfl := hset rfl
      simp [hpc, stage] at hst
  | denyProvider b b' hpc hp hb =>
      have hkey : askedLimiter g = some g.task.provider := by simp [askedLimiter, hpc, stage]
      rw [hkey]
      refine .inr ⟨b, b', hp, ?_, hb⟩
      rw [limiterAt_setGo, limiterAt_setProvider, if_pos rfl]
  | timerGlobal hpc =>
      obtain rfl := hset rfl
      exact .inl ⟨by simp [hpc, stage], rfl⟩
  | timerProvider hpc =>
      obtain rfl := hset rfl
      exact .inl ⟨by simp [hpc, stage], rfl⟩
  | cancelWait hpc hc =>
      obtain rfl := hset rfl
      rcases hpc with hpc | hpc <;> simp [hpc, stage] at hst
  | _ =>
      rename_i hpc
      simp [*, inLimiter, stage] at hin

/-! ### Along a run -/

/-- What a run relies on when its limiters are buckets. The calls of a limiter are not mentioned. -/
structure Scheduled {B : Type} {env : Env B} (e : env.system.Execution) : Prop where
  /-- Each call of `Execute` returns. -/
  returns : ∀ (n i : Nat) (g : Goroutine), (e.state n).gos[i]? = some g → g.pc = .exec →
    ∃ (m : Nat) (g' : Goroutine), n ≤ m ∧ (e.state m).gos[i]? = some g' ∧ g'.pc ≠ .exec
  /-- Time goes on. -/
  clock : ∀ t, ∃ n, t ≤ (e.state n).clock
  /-- A task goroutine that can step from some point on takes a step. -/
  task : ∀ n i : Nat, (∀ m, n ≤ m → ∃ a, (env.step? (e.state m) (.task i a)).isSome = true) →
    ∃ (m : Nat) (a : TaskAction), n ≤ m ∧ e.label m = .task i a
  /-- The main goroutine, when it can step from some point on, takes a step. -/
  main : ∀ n : Nat, (∀ m, n ≤ m → (env.mainStep (e.state m)).isSome = true) →
    ∃ m, n ≤ m ∧ e.label m = .main

/-- A goroutine keeps its task. -/
theorem exists_go {s s' : State FloatBucket} {a : Action} (h : env.step? s a = some s') {i : Nat}
    {t : Task} (hi : ∃ g, s.gos[i]? = some g ∧ g.task = t) :
    ∃ g, s'.gos[i]? = some g ∧ g.task = t := by
  obtain ⟨g, hg, rfl⟩ := hi
  by_cases ha : ∃ b, a = .task i b
  · obtain ⟨b, rfl⟩ := ha
    obtain ⟨x, hx, ht⟩ := Option.bind_eq_some_iff.mp h
    obtain rfl : g = x := Option.some.inj (hg.symm.trans hx)
    obtain ⟨g', hgs⟩ := (taskStep_inv ht).goStep
    refine ⟨g', ?_, hgs.task⟩
    rw [hgs.gos, List.getElem?_set_self (List.getElem?_eq_some_iff.mp hg).1]
  · exact ⟨g, go_frame h hg fun b hb => ha ⟨b, hb⟩, rfl⟩

section Run

variable (hlim : env.limiter = floatLimiter period) (e : env.system.Execution)
  (hok : ∀ n, LimitersOk (e.state n))
include hlim hok

/-- A limiter that nobody leaves any more is not asked any more from some point on. -/
theorem requests_end (hclock : ∀ t, ∃ n, t ≤ (e.state n).clock) {n : Nat}
    (hview : ∀ m, n ≤ m → SameView (e.state n) (e.state m)) (key : Option String) :
    ∃ k, n ≤ k ∧ ∀ m, k ≤ m → ¬ Refused env (limiterAt (e.state m) key) (e.state m).clock
      (limiterAt (e.state (m + 1)) key) := by
  -- A limiter that is not there, or is no bucket, is not asked.
  let bucket : Nat → Option FloatBucket := fun m => (limiterAt (e.state m) key).join
  have hmono : Monotone fun m => (e.state m).clock :=
    monotone_nat_of_le_succ fun m => clock_le (e.next m)
  refine SharedBucket.refusals_end (fun m => ((bucket m).map refusalsLeft).getD 0)
    (fun m => ((bucket m).map (·.updated)).getD 0) _ hmono hclock ?_ ?_ ?_
  · intro m _
    cases hb : bucket m with
    | none => exact Nat.zero_le _
    | some b => exact (hok m).past key b (Option.join_eq_some_iff.mp hb)
  · intro m hm hidle
    have hsame : bucket (m + 1) = bucket m := by
      refine congrArg Option.join ?_
      rcases step_limiter (e.next m) key with hsame | ⟨i, a, g, hg, -, hstep⟩
      · exact hsame
      · cases hstep with
        | keep hsame => exact hsame
        | round ok b b' ho ho' hb hleft =>
            cases ok with
            | true =>
                -- The goroutine that got the token would have left its place.
                have hstage := ((hview _ (Nat.le_succ_of_le hm)).stage_eq i).trans
                  ((hview m hm).stage_eq i).symm
                rw [hg] at hstage
                obtain ⟨g', hg', hst⟩ := Option.map_eq_some_iff.mp hstage
                exact absurd hst (hleft rfl g' hg')
            | false => exact absurd ⟨b, b', ho, ho', hb⟩ hidle
    simp only [hsame, and_self]
  · rintro m hm ⟨b, b', ho, ho', hb⟩
    cases b with
    | none => cases hb
    | some b =>
        obtain ⟨c, rfl, hacq⟩ := tryAcquire_floatBucket hlim hb
        have hbm : bucket m = some b := congrArg Option.join ho
        have hcm : bucket (m + 1) = some c := congrArg Option.join ho'
        obtain ⟨hdown, hlower⟩ := floatBucket_fills.refused ((hok m).fillsUp key b ho) rfl
          ((hok m).past key b ho) hacq
        simp only [hbm, hcm, Option.map_some, Option.getD_some]
        exact ⟨hdown, hlower, floatBucket_fills.stamped hacq⟩

/-- So a goroutine does not stay in a limiter. If it did, its limiter would be asked at ever later
instants and refuse only so often, and the next request would be granted. -/
theorem limiter_returns (hacc : Accepted env.wf) (hsched : Scheduled e) (n i : Nat)
    (g : Goroutine) (hg : (e.state n).gos[i]? = some g) (hin : inLimiter g.pc = true) :
    ∃ (m : Nat) (g' : Goroutine), n ≤ m ∧ (e.state m).gos[i]? = some g' ∧
      stage g'.pc ≠ stage g.pc := by
  by_contra hnever
  have hstay : ∀ m, n ≤ m → ∀ x, (e.state m).gos[i]? = some x → stage x.pc = stage g.pc := by
    intro m hm x hx
    by_contra hne
    exact hnever ⟨m, x, hm, hx, hne⟩
  have hgo : ∀ m, n ≤ m → ∃ x, (e.state m).gos[i]? = some x ∧ x.task = g.task := fun m hm =>
    e.stays (P := fun s => ∃ x, s.gos[i]? = some x ∧ x.task = g.task)
      (fun s a s' _ hs ha => exists_go ha hs) hm ⟨g, hg, rfl⟩
  have hinside : ∀ m, n ≤ m → ∀ x, (e.state m).gos[i]? = some x → inLimiter x.pc = true := by
    intro m hm x hx
    rw [inLimiter, hstay m hm x hx]
    exact hin
  have hasked : ∀ m, n ≤ m → ∀ x, (e.state m).gos[i]? = some x →
      askedLimiter x = askedLimiter g := by
    intro m hm x hx
    obtain ⟨y, hy, htask⟩ := hgo m hm
    obtain rfl : x = y := Option.some.inj (hx.symm.trans hy)
    rw [askedLimiter, hstay m hm x hx, htask]
    rfl
  have hstep : ∀ k, n ≤ k → ∃ (m : Nat) (a : TaskAction), k ≤ m ∧ e.label m = .task i a := by
    intro k hk
    refine hsched.task k i fun m hm => ?_
    obtain ⟨x, hx, -⟩ := hgo m (hk.trans hm)
    exact limiter_enabled hx (hinside m (hk.trans hm) x hx)
      ((hok m).known x (List.mem_of_getElem? hx))
  -- From `k` on, the limiter refuses nobody.
  have hready : ∃ k, n ≤ k ∧ ∀ m, k ≤ m → ¬ Refused env (limiterAt (e.state m) (askedLimiter g))
      (e.state m).clock (limiterAt (e.state (m + 1)) (askedLimiter g)) := by
    obtain ⟨N, hquiet⟩ := eventually_quiet hacc e
    have hview : ∀ m, max n N ≤ m → SameView (e.state (max n N)) (e.state m) := by
      intro m hm
      have h₁ := (hquiet _ (le_max_right n N)).1
      have h₂ := (hquiet m ((le_max_right n N).trans hm)).1
      exact ⟨h₂.main.trans h₁.main.symm, h₂.doneCh.trans h₁.doneCh.symm, h₂.sem.trans h₁.sem.symm,
        h₂.stages.trans h₁.stages.symm⟩
    obtain ⟨k, hk, hend⟩ := requests_end hlim e hok hsched.clock hview (askedLimiter g)
    exact ⟨k, (le_max_left n N).trans hk, hend⟩
  obtain ⟨k, hk, hend⟩ := hready
  -- So each of its steps is a timer, which leads to where it asks.
  have htimer : ∀ m, k ≤ m → ∀ a, e.label m = .task i a → ∀ x, (e.state m).gos[i]? = some x →
      x.pc ≠ stage x.pc ∧ ∀ x', (e.state (m + 1)).gos[i]? = some x' → x'.pc = stage x'.pc := by
    intro m hm a hlabel x hx
    have hnext : env.step? (e.state m) (e.label m) = some (e.state (m + 1)) := e.next m
    rw [hlabel] at hnext
    obtain ⟨y, hy, hs⟩ := Option.bind_eq_some_iff.mp hnext
    obtain rfl : x = y := Option.some.inj (hx.symm.trans hy)
    have hts := taskStep_inv hs
    obtain ⟨x', hgs⟩ := hts.goStep
    have hx' : (e.state (m + 1)).gos[i]? = some x' := by
      rw [hgs.gos, List.getElem?_set_self (List.getElem?_eq_some_iff.mp hx).1]
    have hkm := hk.trans hm
    have hsame := (hstay _ (Nat.le_succ_of_le hkm) x' hx').trans (hstay m hkm x hx).symm
    rcases hts.round hx hgs (hinside m hkm x hx) hsame with ⟨hwait, hask⟩ | hrefused
    · refine ⟨hwait, fun z hz => ?_⟩
      obtain rfl : x' = z := Option.some.inj (hx'.symm.trans hz)
      exact hask
    · rw [hasked m hkm x hx] at hrefused
      exact absurd hrefused (hend m hm)
  obtain ⟨m₁, a₁, hm₁, hlabel₁⟩ := hstep k hk
  have hasks : ∀ m, m₁ + 1 ≤ m → ∀ x, (e.state m).gos[i]? = some x → x.pc = stage x.pc := by
    intro m hm
    induction hm with
    | refl =>
        obtain ⟨x, hx, -⟩ := hgo m₁ (hk.trans hm₁)
        exact (htimer m₁ hm₁ a₁ hlabel₁ x hx).2
    | @step m hm ih =>
        have hkm : k ≤ m := hm₁.trans (Nat.le_of_succ_le hm)
        obtain ⟨x, hx, -⟩ := hgo m (hk.trans hkm)
        by_cases ha : ∃ a, e.label m = .task i a
        · obtain ⟨a, ha⟩ := ha
          exact (htimer m hkm a ha x hx).2
        · have hkept := go_frame (e.next m) hx fun a h => ha ⟨a, h⟩
          intro x' hx'
          obtain rfl : x = x' := Option.some.inj (hkept.symm.trans hx')
          exact ih x hx
  obtain ⟨m₂, a₂, hm₂, hlabel₂⟩ := hstep (m₁ + 1) (by omega)
  obtain ⟨x, hx, -⟩ := hgo m₂ (by omega)
  exact (htimer m₂ (by omega) a₂ hlabel₂ x hx).1 (hasks m₂ hm₂ x hx)

end Run

/-- The limiters of a run are those of its document, so a condition on the document is one on the
run. -/
theorem initial_fillsUp {iter : MapOrder} {rw : RawWorkflow}
    (hlim : env.limiter = floatLimiter period) (hparse : parse iter rw = .ok env.wf)
    (hlimits : ∀ l, Limits rw l → Lasting period l) (key : Option String) (b : FloatBucket)
    (hb : limiterAt env.initial key = some (some b)) :
    FillsUp b ∧ b.updated ≤ env.initial.clock := by
  -- Each limiter of the initial state was built from a limit of the document.
  have hbuilt : ∃ l, Built env l b := by
    cases key with
    | none =>
        have hb' : env.newLimiter env.wf.rateLimit = some b := Option.some.inj hb
        obtain ⟨l, hl, -⟩ := Option.map_eq_some_iff.mp hb'
        exact ⟨l, .global l b hl (Option.some.inj hb)⟩
    | some name =>
        have hb' : (env.wf.providers.mapValues fun _ p => env.newLimiter p.rateLimit).get? name
            = some (some b) := hb
        rw [Dict.get?_mapValues] at hb'
        obtain ⟨p, hp, hnew⟩ := Option.map_eq_some_iff.mp hb'
        obtain ⟨l, hl, -⟩ := Option.map_eq_some_iff.mp hnew
        exact ⟨l, .provider name p l b hp hl hb⟩
  obtain ⟨l, hl⟩ := hbuilt
  obtain ⟨hdoc, rfl⟩ := hl.limits hlim hparse
  exact ⟨(hlimits l hdoc).fillsUp env.startedAt, le_rfl⟩

/-- A run under rate limits that last returns a report with one span for each task in document
order, and all its goroutines are done. Nothing is assumed of the limiters.

With `float64` buckets a goroutine may be refused any number of times while others take the tokens.
But every grant takes a goroutine out of its limiter, and a limiter without grants fills up
(`limiter_returns`). So every call of a limiter returns, and `fair_returns` does the rest. -/
theorem limited_run_completes (period : Duration → Float64) (env : Env FloatBucket)
    (iter : MapOrder) (rw : RawWorkflow) (hlim : env.limiter = floatLimiter period)
    (hparse : parse iter rw = .ok env.wf) (hlimits : ∀ l, Limits rw l → Lasting period l)
    (e : env.system.Execution) (hsched : Scheduled e) :
    ∃ n rep, (e.state n).report? = some rep ∧ rep.tasks.map (·.id) = env.wf.ids ∧
      ∀ g ∈ (e.state n).gos, g.pc = .done := by
  obtain ⟨hval, hpar⟩ := parse_spec hparse
  have hacc := accepted_of_validate hval
  have hok : ∀ n, LimitersOk (e.state n) := fun n =>
    reachable_limitersOk hlim (initial_fillsUp hlim hparse hlimits) (e.reachable n)
  have hreturns := limiter_returns hlim e hok hacc hsched
  -- The calls of the limiters return because the buckets fill up, those of the transport by
  -- assumption.
  have hfair : Fair e := by
    refine ⟨fun n i g hg hcall => ?_, hsched.task, hsched.main⟩
    by_cases hin : inLimiter g.pc = true
    · exact hreturns n i g hg hin
    · have hexec : g.pc = .exec := by simpa [inCall, hin] using hcall
      obtain ⟨m, g', hm, hg', hne⟩ := hsched.returns n i g hg hexec
      refine ⟨m, g', hm, hg', fun hst => hne ?_⟩
      rw [pc_of_stage hst (by simpa using hin), hexec]
  obtain ⟨n, hn⟩ := fair_returns hacc hpar e hfair
  obtain ⟨rep, hrep⟩ := Option.isSome_iff_exists.mp hn
  have hcourse := reachable_onCourse hacc (e.reachable n)
  exact ⟨n, rep, hrep, (hcourse.tasks rep hrep).1, (hcourse.none_running hn).1⟩

/-! ### A run to the end -/

/-- A finite run that leaves all goroutines at their end goes on while time passes. -/
theorem scheduled_of_run {B : Type} {env : Env B} {as : List Action} {s : State B}
    (h : env.system.run? as = some s) (hmain : s.report?.isSome = true)
    (hgos : ∀ g ∈ s.gos, g.pc = .done) : ∃ e : env.system.Execution, Scheduled e := by
  obtain ⟨e, hend, hidle⟩ := @System.Execution.exists_of_run _ _ env.system as (.tick 1) s h
    fun s => ⟨_, rfl⟩
  -- Behind the run only the clock moves, by one at every step.
  have hstate : ∀ k, e.state (as.length + k) = { s with clock := s.clock + k } := by
    intro k
    induction k with
    | zero => exact hend
    | succ k ih =>
        have hnext : env.step? (e.state (as.length + k)) (e.label (as.length + k))
            = some (e.state (as.length + (k + 1))) := e.next _
        rw [hidle _ (Nat.le_add_right _ _), ih] at hnext
        exact (Option.some.inj hnext).symm
  refine ⟨e, ⟨fun n i g hg hpc => ?_, fun t => ?_, fun n i hen => ?_, fun n hen => ?_⟩⟩
  · -- Every goroutine is done, so one that is in a call has left it by then.
    have hthere := e.stays (P := fun s => s.gos[i]?.isSome = true)
      (fun s a s' _ hs ha => gos_persist ha hs) (Nat.le_add_left n as.length) (by simp [hg])
    obtain ⟨g', hg'⟩ := Option.isSome_iff_exists.mp hthere
    refine ⟨_, g', Nat.le_add_left n as.length, hg', ?_⟩
    rw [hstate] at hg'
    simp [hgos g' (List.mem_of_getElem? hg')]
  · refine ⟨as.length + t, ?_⟩
    rw [hstate]
    exact Nat.le_add_left t s.clock
  · -- A finished goroutine has no step that could stay enabled, and the main goroutine has
    -- returned.
    obtain ⟨a, ha⟩ := hen _ (Nat.le_add_left n as.length)
    rw [hstate] at ha
    obtain ⟨s', hs'⟩ := Option.isSome_iff_exists.mp ha
    obtain ⟨g, hg, ht⟩ := Option.bind_eq_some_iff.mp hs'
    obtain ⟨g', hgs⟩ := (taskStep_inv ht).goStep
    exact absurd (hgos g (List.mem_of_getElem? hg)) hgs.not_done
  · have hm := hen _ (Nat.le_add_left n as.length)
    obtain ⟨rep, hrep⟩ := Option.isSome_iff_exists.mp hmain
    have hpc : s.main.pc = .returned rep := report?_eq_some.mp hrep
    rw [hstate, mainStep, hpc] at hm
    cases hm

/-- A document with the limits of `twoLimits`. Both tasks take a token of the global limiter and one
of the provider, so the second one has to wait for both. -/
def limitedPair : RawWorkflow :=
  { loneDocument with
    concurrency := some
      { maxParallel := 8
        rateLimit := some { requests := 1, per := 10, tokens := 0, perTokens := none } }
    providers := Dict.empty.set "p"
      (some
        { name := "p"
          rateLimit := some { requests := 1, per := 20, tokens := 0, perTokens := none } })
    tasks := [some { plainTask "a" [] "" with provider := "p" },
      some { plainTask "b" [] "" with provider := "p" }] }

/-- Its run. -/
def floatTwoLimits : Env FloatBucket := { twoLimits with limiter := floatLimiter Float64.ofRat }

/-- `b` waits for a token of each limiter, and the run ends. Both waits end by the lapse of time. -/
theorem limited_run_completes_twoLimits :
    ∃ e : floatTwoLimits.system.Execution, Scheduled e ∧
      ∃ n rep, (e.state n).report? = some rep ∧ rep.tasks.map (·.id) = ["a", "b"] := by
  -- `a` passes both limiters at once. `b` is refused by each of them in turn and waits for its next
  -- token.
  have hrun : (floatTwoLimits.system.run?
      ([.main, .main, .main, .main, .task 0 .resolve, .task 0 .takeSlot, .task 0 .acquire,
        .task 0 .acquire, .task 0 .call, .task 1 .resolve, .task 1 .takeSlot, .task 1 .acquire,
        .tick 10000000000, .task 1 .timer, .task 1 .acquire, .task 1 .acquire,
        .tick 10000000000, .task 1 .timer, .task 1 .acquire, .task 1 .call,
        .task 0 (.ret {} none), .task 0 .send, .task 1 (.ret {} none), .task 1 .send,
        .main, .main, .main, .main, .main, .main])).any
      (fun s => s.report?.isSome && s.gos.all (fun g => g.pc = .done)) = true := by
    decide +kernel
  obtain ⟨s, hs, hend⟩ := (Option.any_eq_true _ _).mp hrun
  rw [Bool.and_eq_true, List.all_eq_true] at hend
  obtain ⟨e, hsched⟩ := scheduled_of_run hs hend.1 fun g hg => by simpa using hend.2 g hg
  have hlasting : ∀ per : Duration, per = 10 ∨ per = 20 → Lasting Float64.ofRat
      { requests := 1, per := per, tokens := 0, perTokens := none } := by
    rintro per (rfl | rfl) <;>
      exact ⟨le_rfl, by decide +kernel, by decide +kernel, by decide +kernel,
        fun _ => by decide +kernel⟩
  have hlimits : ∀ l, Limits limitedPair l → Lasting Float64.ofRat l := by
    intro l hl
    cases hl with
    | global c hc hl =>
        cases hc
        cases hl
        exact hlasting 10 (Or.inl rfl)
    | provider name p hp hl =>
        have hp : (Dict.empty.set "p" _).get? name = some (some p) := hp
        rw [Dict.get?_set] at hp
        split at hp
        · cases hp
          cases hl
          exact hlasting 20 (Or.inr rfl)
        · cases hp
  obtain ⟨n, rep, hrep, hids, -⟩ := limited_run_completes Float64.ofRat floatTwoLimits .insertion
    limitedPair rfl (by rfl) hlimits e hsched
  exact ⟨e, hsched, n, rep, hrep, hids⟩

end Orchestrator.Proofs
