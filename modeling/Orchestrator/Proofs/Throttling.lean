import Orchestrator.Engine.Bucket
import Orchestrator.Proofs.RunnerSlots
import Orchestrator.Proofs.Serialization
import Orchestrator.Proofs.Slots

/-!
# `Orchestrator.Proofs.Throttling`: slots and rate limits

Both engines take the slot of an attempt before its tokens. So a task that waits for a token holds
its slot while it waits, and tasks that one limiter throttles can take every slot and keep a task of
another provider from running (`throttled_hold_slots`).

`throttled_yield` says when this does not happen: in the runs in which a task asks a limiter only
while it has a token. One refusal is enough to leave them.

`Yields` says what it means for waiting tasks to yield: every slot that is taken is held by a task
that does not wait for a token. Since a throttled task holds a slot (`holdsSlot_of_throttled`), this
is to say that no task is throttled, and a task becomes throttled by a refusal and in no other way
(`TaskStep.throttled_iff`, `CoroStep.throttled_iff`). So the condition on a step is that the limiter
which is asked has a token (`tokenReady`), and it is exact for whole runs by the rule for exact
conditions of `Lib.System`.

The module goes through the engine first, then through the runner, and ends with the two together.
The counterexample has one slot and a provider with one token.
-/

set_option autoImplicit false

/-! ### The Go engine -/

namespace Orchestrator.Proofs

open Orchestrator.Lib Orchestrator.Engine Orchestrator.Engine.Env

variable {B : Type} {env : Env B}

/-- The goroutine waits in `Acquire` for a token. It is past its slot then, in both of the places
where a limiter is asked. -/
def throttled (g : Goroutine) : Bool :=
  match g.pc with
  | .globalWait | .providerWait => true
  | _ => false

/-- A goroutine with a slot that does not wait for a token. -/
def active (g : Goroutine) : Bool := holdsSlot g && !throttled g

/-- Waiting for a token takes no slot. This is what the design asks of the scheduler, and the
theorem says when it holds. -/
structure Yields (env : Env B) (s : State B) : Prop where
  /-- A task that waits for a token holds no slot. -/
  yielded : ∀ g ∈ s.gos, throttled g = true → holdsSlot g = false
  /-- A task that finds no slot waits for `MaxParallel` tasks none of which waits for a token. -/
  unblocked : ∀ g ∈ s.gos, g.pc = .slot → ¬ (s.sem : Int) < env.wf.maxParallel →
    env.wf.maxParallel ≤ s.gos.countP active

/-- The limiter that a goroutine asks has a token. The answer can be computed from the state before
the step. -/
def granted (env : Env B) (s : State B) (g : Goroutine) : Bool :=
  match g.pc with
  | .global => (env.tryAcquire s.globalLimiter s.clock).1
  | .provider =>
    (s.provLimiters.get? g.task.provider).all (fun b => (env.tryAcquire b s.clock).1)
  | _ => true

/-- The condition on a step: a task asks a limiter only while the limiter has a token. -/
def tokenReady (env : Env B) (s : State B) : Action → Bool
  | .task i .acquire => (s.gos[i]?).all (granted env s)
  | _ => true

/-- Only a refusal makes a goroutine wait for a token. -/
theorem TaskStep.throttled_iff {s s' : State B} {i : Nat} {g : Goroutine} {a : TaskAction}
    (h : TaskStep env s i g a s') :
    ∃ g', s'.gos = s.gos.set i g' ∧
      (throttled g' = true ↔ a = .acquire ∧ granted env s g = false) := by
  -- A goroutine is throttled while its timer runs, and only a denied request starts the timer.
  cases h with
  | resolve hpc =>
      refine ⟨_, rfl, ?_⟩
      rcases resolveInputs_pc env g s.clock with h | h <;> simp [throttled, h]
  | takeSlot hpc _ => exact ⟨_, rfl, by simp [throttled]⟩
  | cancelSlot hpc _ => exact ⟨_, rfl, by simp [throttled]⟩
  | grantGlobal b hpc hb =>
      refine ⟨_, rfl, ?_⟩
      rcases afterGlobal_pc g s.provLimiters with h | h <;>
        simp [throttled, granted, h, hpc, hb]
  | denyGlobal b hpc hb => exact ⟨_, rfl, by simp [throttled, granted, hpc, hb]⟩
  | grantProvider b b' hpc hp hb => exact ⟨_, rfl, by simp [throttled, granted, hpc, hp, hb]⟩
  | denyProvider b b' hpc hp hb => exact ⟨_, rfl, by simp [throttled, granted, hpc, hp, hb]⟩
  | timerGlobal hpc => exact ⟨_, rfl, by simp [throttled]⟩
  | timerProvider hpc => exact ⟨_, rfl, by simp [throttled]⟩
  | cancelWait hpc _ => exact ⟨_, rfl, by simp [throttled]⟩
  | call hpc => exact ⟨_, rfl, by simp [throttled]⟩
  | ret res err hpc =>
      refine ⟨_, rfl, ?_⟩
      rcases afterExecute_pc env g s.clock res err with h | h <;> simp [throttled, h]
  | wake hpc =>
      refine ⟨_, rfl, ?_⟩
      rcases enterAttempt_pc env g s.clock (g.span.attempts + 1) with h | h <;>
        simp [throttled, h]
  | send hpc _ => exact ⟨_, rfl, by simp [throttled]⟩

/-- A goroutine that waits for a token holds a slot. -/
theorem holdsSlot_of_throttled {g : Goroutine} (h : throttled g = true) : holdsSlot g = true := by
  unfold throttled at h
  split at h
  · rename_i hpc
    simp [holdsSlot, hpc]
  · rename_i hpc
    simp [holdsSlot, hpc]
  · cases h

/-- No goroutine waits for a token. -/
def Unthrottled (s : State B) : Prop := ∀ g ∈ s.gos, throttled g = false

/-- A step that meets the condition makes no goroutine wait for a token. -/
theorem Unthrottled.step {s s' : State B} {a : Action} (h : Unthrottled s)
    (hready : tokenReady env s a = true) (ha : env.step? s a = some s') : Unthrottled s' := by
  rcases step_inv ha with ⟨-, hm⟩ | ⟨i, b, g, rfl, hg, ht⟩ | ⟨-, rfl⟩ | ⟨d, -, rfl⟩
  · intro g hg
    rcases hm.gos with hgos | ⟨t, hgos⟩
    · exact h g (hgos ▸ hg)
    · rw [hgos, List.mem_append, List.mem_singleton] at hg
      rcases hg with hg | rfl
      · exact h g hg
      · rfl
  · obtain ⟨g', hgos, hiff⟩ := ht.throttled_iff
    -- The step is no request, or there is a token for it.
    have hg' : throttled g' = false := by
      by_contra hw
      obtain ⟨rfl, hdenied⟩ := hiff.mp (by simpa using hw)
      rw [tokenReady, hg, Option.all_some, hdenied] at hready
      cases hready
    unfold Unthrottled
    rw [hgos]
    exact forall_mem_set h hg'
  · exact h
  · exact h

/-- A step that does not meet the condition makes a goroutine wait for a token. -/
theorem throttled_of_not_ready {s s' : State B} {a : Action}
    (hready : ¬ tokenReady env s a = true) (ha : env.step? s a = some s') :
    ∃ g ∈ s'.gos, throttled g = true := by
  rcases step_inv ha with ⟨rfl, -⟩ | ⟨i, b, g, rfl, hg, ht⟩ | ⟨rfl, -⟩ | ⟨d, rfl, -⟩
  · exact absurd rfl hready
  · obtain ⟨g', hgos, hiff⟩ := ht.throttled_iff
    refine ⟨g', ?_, hiff.mpr ?_⟩
    · rw [hgos]
      exact mem_set_self hg
    · cases b with
      | acquire =>
          rw [tokenReady, hg, Option.all_some] at hready
          exact ⟨rfl, by simpa using hready⟩
      | _ => exact absurd rfl hready
  · exact absurd rfl hready
  · exact absurd rfl hready

/-- Where no goroutine waits for a token, every slot is held by an active one. -/
theorem Unthrottled.yields {s : State B} (h : Unthrottled s) (hsem : SemOk s) : Yields env s := by
  refine ⟨fun g hg hw => ?_, fun g _ _ hfull => ?_⟩
  · rw [h g hg] at hw
    cases hw
  · have hactive : s.gos.countP active = s.gos.countP holdsSlot :=
      List.countP_congr fun g hg => by simp [active, h g hg]
    unfold SemOk at hsem
    rw [hactive]
    omega

/-- The runs of the Go engine that keep `Yields` are those in which no limiter refuses. -/
theorem exactFor_yields (env : Env B) :
    env.system.ExactFor (fun s a => tokenReady env s a = true) (Yields env) := by
  refine ⟨fun s hs => ?_, fun s a s' _ ha hready hyields => ?_⟩
  · have hinit : Unthrottled env.initial := fun g hg => by simp [Env.initial] at hg
    have hun : Unthrottled s := hs.holds hinit fun _ _ _ _ h hready ha => h.step hready ha
    exact hun.yields (reachable_semOk hs.reachable)
  · obtain ⟨g, hg, hw⟩ := throttled_of_not_ready hready ha
    have hnone := hyields.yielded g hg hw
    rw [holdsSlot_of_throttled hw] at hnone
    cases hnone

end Orchestrator.Proofs

/-! ### The Python engine -/

namespace Orchestrator.Sdk.Runner

open Orchestrator.Lib Env

variable {env : Env}

/-- The coroutine sleeps in `acquire`, in one of the two places where a bucket is asked. -/
def throttled (c : Coro) : Bool :=
  match c.pc with
  | .globalSleep | .providerSleep => true
  | _ => false

/-- A coroutine with a slot that does not wait for a token. -/
def active (c : Coro) : Bool := holdsSlot c && !throttled c

/-- Waiting for a token takes no slot, as the header of the module with the buckets promises. -/
structure Yields (env : Env) (s : State) : Prop where
  /-- A task that waits for a token holds no slot. -/
  yielded : ∀ c ∈ s.coros, throttled c = true → holdsSlot c = false
  /-- A task that finds no slot waits for `max_parallel` tasks none of which waits for a
  token. -/
  unblocked : ∀ c ∈ s.coros, c.pc = .slot → ¬ 0 < s.sem →
    env.wf.maxParallel ≤ s.coros.countP active

/-- A round of `acquire` ends without a token. -/
def isRefused : Except PyError (Bool × Option TokenBucket) → Bool
  | .ok (granted, _) => !granted
  | .error _ => false

/-- The bucket that a coroutine asks refuses. A bucket that raises has not refused. -/
def refused (env : Env) (s : State) (c : Coro) : Bool :=
  match c.pc with
  | .global => isRefused (env.acquireRound s.globalBucket s.clock)
  | .provider =>
    isRefused (env.acquireRound (s.provReq.get? (c.task.provider.getD "")).join s.clock)
  | _ => false

/-- The condition on a step: a task asks a bucket only while the bucket has a token. -/
def tokenReady (env : Env) (s : State) : Action → Bool
  | .coro i .acquire => (s.coros[i]?).all (fun c => !refused env s c)
  | _ => true

/-- After a failed attempt a coroutine does not wait for a token. -/
theorem failAttempt_throttled (c : Coro) (ctx : SkillContext) (err : String) (now : Nat) :
    throttled (env.failAttempt c ctx err now) = false := by
  rcases failAttempt_cases env c now ctx err with ⟨d, -, -, h⟩ | ⟨e, -, -, h⟩ | ⟨-, h⟩ <;>
    simp [h, throttled]

/-- Only a refusal makes a coroutine wait for a token. -/
theorem CoroStep.throttled_iff {s s' : State} {i : Nat} {c : Coro} {a : CoroAction}
    (h : CoroStep env s i c a s') :
    ∃ c', s'.coros = s.coros.set i c' ∧
      (throttled c' = true ↔ a = .acquire ∧ refused env s c = true) := by
  -- A coroutine is throttled while it sleeps in a limiter, and only a refused request puts it to
  -- sleep.
  cases h with
  | start hpc hc =>
      refine ⟨_, rfl, ?_⟩
      rcases startTask_cases env c s.clock s.currentInputs s.main.results with
        ⟨e, -, h⟩ | ⟨r, -, h⟩
      · simp [h, throttled]
      · rw [h]
        rcases enterAttempt_cases env (firstAttempt c s.clock r) s.clock 1 with
          ⟨-, h⟩ | ⟨-, h⟩ <;> simp [h, throttled]
  | acquireSlot hpc hc hfree => exact ⟨_, rfl, by simp [throttled]⟩
  | grantGlobal b hpc hc hb =>
      refine ⟨_, rfl, ?_⟩
      rcases afterGlobal_pc c with h | h <;> simp [throttled, refused, isRefused, h, hpc, hb]
  | denyGlobal b hpc hc hb => exact ⟨_, rfl, by simp [throttled, refused, isRefused, hpc, hb]⟩
  | grantProvider b hpc hc hb => exact ⟨_, rfl, by simp [throttled, refused, isRefused, hpc, hb]⟩
  | denyProvider b hpc hc hb => exact ⟨_, rfl, by simp [throttled, refused, isRefused, hpc, hb]⟩
  | acquireError e hc he =>
      refine ⟨_, rfl, ?_⟩
      rw [failAttempt_throttled]
      rcases he with ⟨hpc, he⟩ | ⟨hpc, he⟩ <;> simp [refused, isRefused, hpc, he]
  | timerGlobal hpc hc => exact ⟨_, rfl, by simp [throttled]⟩
  | timerProvider hpc hc => exact ⟨_, rfl, by simp [throttled]⟩
  | noSkill hpc hc hk => exact ⟨_, rfl, by rw [failAttempt_throttled]; simp⟩
  | invoke kind hpc hc hk => exact ⟨_, rfl, by simp [throttled]⟩
  | finish ctx out hpc hc =>
      refine ⟨_, rfl, ?_⟩
      rcases afterInvoke_cases env c s.clock ctx out with
        ⟨o, -, h⟩ | ⟨-, h⟩ | ⟨type, exits, -, h⟩ | ⟨err, -, -, h⟩
      · simp [h, throttled, succeed]
      · simp [h, throttled]
      · simp [h, throttled, escape]
      · rw [h, failAttempt_throttled]
        simp
  | lose hpc hc hk => exact ⟨_, rfl, by simp [throttled]⟩
  | timeout ctx hpc hc ht => exact ⟨_, rfl, by rw [failAttempt_throttled]; simp⟩
  | wake hpc hc =>
      refine ⟨_, rfl, ?_⟩
      rcases enterAttempt_cases env c s.clock (c.span.attempts + 1) with ⟨-, h⟩ | ⟨-, h⟩ <;>
        simp [h, throttled]
  | cancelOutside ctx hpc hc => exact ⟨_, rfl, by simp [throttled]⟩
  | cancelSlot ctx hpc hc => exact ⟨_, rfl, by simp [throttled]⟩
  | cancelHolder ctx hpc hc => exact ⟨_, rfl, by simp [throttled]⟩
  | cancelHandler ctx hpc hc => exact ⟨_, rfl, by simp [throttled]⟩

/-- A coroutine that waits for a token holds a slot. -/
theorem holdsSlot_of_throttled {c : Coro} (h : throttled c = true) : holdsSlot c = true := by
  unfold throttled at h
  split at h
  · rename_i hpc
    simp [holdsSlot, CoroPc.holds, hpc]
  · rename_i hpc
    simp [holdsSlot, CoroPc.holds, hpc]
  · cases h

/-- No coroutine waits for a token. -/
def Unthrottled (s : State) : Prop := ∀ c ∈ s.coros, throttled c = false

/-- `run` makes no coroutine wait for a token. -/
theorem MainStepped.unthrottled {s s' : State} (hm : MainStepped env s s')
    (h : Unthrottled s) : Unthrottled s' := by
  cases hm with
  | dispatch tid rest t hpc hready hskip ht =>
      intro c hc
      rcases List.mem_append.mp hc with hc | hc
      · exact h c hc
      · rw [List.mem_singleton.mp hc]
        rfl
  -- A request to cancel leaves the program counter alone.
  | cancelAll i rest c t hpc hi hdone hst ht hpol hmore =>
      intro c hc
      obtain ⟨j, hj, rfl⟩ := List.mem_mapIdx.mp hc
      have hold := h _ (List.getElem_mem hj)
      unfold cancelCoro
      split
      · exact hold
      · exact hold
  | _ => exact h

/-- A step that meets the condition makes no coroutine wait for a token. -/
theorem Unthrottled.step {s s' : State} {a : Action} (h : Unthrottled s)
    (hready : tokenReady env s a = true) (ha : env.step? s a = some s') : Unthrottled s' := by
  cases step_inv ha with
  | main hm => exact hm.unthrottled h
  | wake order hw => exact h
  | @coro i c b _ hi hy hstep =>
      obtain ⟨c', hcoros, hiff⟩ := hstep.throttled_iff
      have hc' : throttled c' = false := by
        by_contra hw
        obtain ⟨rfl, hrefused⟩ := hiff.mp (by simpa using hw)
        rw [tokenReady, hi, Option.all_some, hrefused] at hready
        cases hready
      unfold Unthrottled
      rw [hcoros]
      exact forall_mem_set h hc'
  | threadEnd i attempt ho => exact h
  | cancel hpc => exact h
  | tick d => exact h

/-- A step that does not meet the condition makes a coroutine wait for a token. -/
theorem throttled_of_not_ready {s s' : State} {a : Action}
    (hready : ¬ tokenReady env s a = true) (ha : env.step? s a = some s') :
    ∃ c ∈ s'.coros, throttled c = true := by
  cases step_inv ha with
  | @coro i c b _ hi hy hstep =>
      obtain ⟨c', hcoros, hiff⟩ := hstep.throttled_iff
      refine ⟨c', ?_, hiff.mpr ?_⟩
      · rw [hcoros]
        exact mem_set_self hi
      · cases b with
        | acquire =>
            rw [tokenReady, hi, Option.all_some] at hready
            exact ⟨rfl, by simpa using hready⟩
        | _ => exact absurd rfl hready
  | _ => exact absurd rfl hready

/-- Where no coroutine waits for a token, every slot is held by an active one. -/
theorem Unthrottled.yields {s : State} (h : Unthrottled s) (hslots : SlotsOk env s) :
    Yields env s := by
  refine ⟨fun c hc hw => ?_, fun c hc _ hfull => ?_⟩
  · rw [h c hc] at hw
    cases hw
  · have hactive : s.coros.countP active = s.coros.countP holdsSlot :=
      List.countP_congr fun c hc => by simp [active, h c hc]
    have hcounted := hslots.counted (List.ne_nil_of_mem hc)
    unfold Counted at hcounted
    rw [hactive]
    omega

/-- The runs of the Python engine that keep `Yields` are those in which no bucket refuses. -/
theorem exactFor_yields (env : Env) :
    env.system.ExactFor (fun s a => tokenReady env s a = true) (Yields env) := by
  refine ⟨fun s hs => ?_, fun s a s' _ ha hready hyields => ?_⟩
  · have hinit : Unthrottled env.initial := fun c hc => by simp [Env.initial] at hc
    have hun : Unthrottled s := hs.holds hinit fun _ _ _ _ h hready ha => h.step hready ha
    exact hun.yields (reachable_slotsOk hs.reachable)
  · obtain ⟨c, hc, hw⟩ := throttled_of_not_ready hready ha
    have hnone := hyields.yielded c hc hw
    rw [holdsSlot_of_throttled hw] at hnone
    cases hnone

/-- Two tasks of a provider with one token and a task of none, and one slot. -/
def oneToken : Env where
  wf :=
    { name := "w"
      tasks := [{ id := "a", skill := "s", provider := some "p" },
        { id := "b", skill := "s", provider := some "p" }, { id := "c", skill := "s" }]
      maxParallel := 1
      providers := Dict.empty.set "p"
        { name := "p"
          rateLimit := some { requests := 1, per := 3600, tokens := none, perTokens := none } } }
  runID := ""
  inputs := .empty
  lib := Proofs.asciiLib
  skills := fun _ => some .async
  startedWall := ""
  startedAt := 0

/-- The steps of that run up to its first wait, with a slot and a token for `a`. -/
def firstToken : List Action :=
  [.main, .main, .main, .main, .main, .main, .coro 0 .start, .coro 1 .start, .coro 2 .start,
    .coro 0 .acquireSlot, .coro 0 .acquire, .coro 0 .acquire, .coro 0 .invoke]

end Orchestrator.Sdk.Runner

/-! ### Both engines -/

namespace Orchestrator.Proofs

open Orchestrator.Lib Orchestrator.Engine Orchestrator.Engine.Env

variable {B : Type}

/-- Throttled tasks yield their slots in the runs in which no limiter refuses, and in no others. In
both engines a task takes its slot first and keeps it while it waits for a token, so the first
refusal already breaks the promise. -/
theorem throttled_yield (env : Env B) (env' : Sdk.Runner.Env) :
    env.system.ExactFor (fun s a => tokenReady env s a = true) (Yields env) ∧
      env'.system.ExactFor (fun s a => Sdk.Runner.tokenReady env' s a = true)
        (Sdk.Runner.Yields env') :=
  ⟨exactFor_yields env, Sdk.Runner.exactFor_yields env'⟩

/-- Two tasks of a provider with one token and a task of none, and one slot. -/
def oneToken : Env Bucket where
  wf := { plainWorkflow [{ plainTask "a" [] "" with provider := "p" },
        { plainTask "b" [] "" with provider := "p" }, plainTask "c" [] ""] with
      maxParallel := 1
      providers := Dict.empty.set "p"
        { name := "p"
          rateLimit := some { requests := 1, per := 3600, tokens := 0, perTokens := none } } }
  runID := "r"
  inputs := .empty
  lib := plainLib
  iter := .insertion
  limiter := bucketLimiter
  startedAt := 0

/-- The steps of that run up to its first wait, with a slot and a token for `a`. -/
def firstToken : List Action :=
  [.main, .main, .main, .main, .main, .task 0 .resolve, .task 1 .resolve, .task 2 .resolve,
    .task 0 .takeSlot, .task 0 .acquire, .task 0 .acquire, .task 0 .call]

/-- While `a` executes with the only slot and the only token, the two others wait for a task
that does not wait for a token. -/
theorem throttled_yield_firstToken :
    (∃ s, s.gos.map (·.pc) = [.exec, .slot, .slot] ∧ Yields oneToken s) ∧
      ∃ s, s.coros.map (·.pc) = [.handler, .slot, .slot] ∧
        Sdk.Runner.Yields Sdk.Runner.oneToken s := by
  obtain ⟨hgo, hpy⟩ := throttled_yield oneToken Sdk.Runner.oneToken
  constructor
  · obtain ⟨s, hs, hp⟩ := @System.exists_of_run _ _ (oneToken.system.guard (tokenReady oneToken))
      firstToken (fun s => s.gos.map (·.pc) = [.exec, .slot, .slot]) (by decide +kernel)
    exact ⟨s, by simpa using hp, hgo.holds s (.of_guard (fun _ _ h => h) hs)⟩
  · obtain ⟨s, hs, hp⟩ := @System.exists_of_run _ _
      (Sdk.Runner.oneToken.system.guard (Sdk.Runner.tokenReady Sdk.Runner.oneToken))
      Sdk.Runner.firstToken (fun s => s.coros.map (·.pc) = [.handler, .slot, .slot])
      (by decide +kernel)
    exact ⟨s, by simpa using hp, hpy.holds s (.of_guard (fun _ _ h => h) hs)⟩

/-- When `a` has ended, `b` takes the only slot and waits an hour for a token, and `c`, which
needs no token, cannot run. -/
theorem throttled_hold_slots :
    (¬ ∀ s, oneToken.system.Reachable s → Yields oneToken s) ∧
      ¬ ∀ s, Sdk.Runner.oneToken.system.Reachable s →
        Sdk.Runner.Yields Sdk.Runner.oneToken s := by
  constructor
  · intro h
    -- The first task has used the only token. The second one waits for the next in a slot, and the
    -- third waits for the slot.
    obtain ⟨s, hs, hp⟩ := @System.exists_of_run _ _ oneToken.system
      (firstToken ++ [Action.task 0 (.ret {} none), .task 1 .takeSlot, .task 1 .acquire,
        .task 1 .acquire])
      (fun s => s.gos.any (·.pc = .slot) && s.sem = 1 && s.gos.countP active = 0)
      (by decide +kernel)
    simp only [Bool.and_eq_true, List.any_eq_true, decide_eq_true_eq] at hp
    obtain ⟨⟨⟨g, hg, hpc⟩, hsem⟩, hnone⟩ := hp
    have hactive := (h s hs).unblocked g hg hpc (by rw [hsem]; decide)
    rw [hnone] at hactive
    exact absurd hactive (by decide)
  · intro h
    obtain ⟨s, hs, hp⟩ := @System.exists_of_run _ _ Sdk.Runner.oneToken.system
      (Sdk.Runner.firstToken ++ [Sdk.Runner.Env.Action.coro 0 (.finish {} (.returned .null)),
        .coro 1 .acquireSlot, .coro 1 .acquire, .coro 1 .acquire])
      (fun s => s.coros.any (·.pc = .slot) && s.sem = 0 &&
        s.coros.countP Sdk.Runner.active = 0)
      (by decide +kernel)
    simp only [Bool.and_eq_true, List.any_eq_true, decide_eq_true_eq] at hp
    obtain ⟨⟨⟨c, hc, hpc⟩, hsem⟩, hnone⟩ := hp
    have hactive := (h s hs).unblocked c hc hpc (by rw [hsem]; decide)
    rw [hnone] at hactive
    exact absurd hactive (by decide)

end Orchestrator.Proofs
