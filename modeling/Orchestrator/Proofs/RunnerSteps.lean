import Orchestrator.Sdk.Runner

/-!
# `Orchestrator.Proofs.RunnerSteps`: what one step of a Python run can do

`CoroStep` and `MainStepped` list the steps of a task coroutine and of `run`, each with its guard
and its effect. `coroStep_inv`, `mainStep_inv` and `step_inv` invert the step functions into these
lists, so that later proofs split on named cases and never unfold a step.

The first section is about the pieces of `_execute_task`. The `simp` lemmas say which fields of a
coroutine a piece leaves alone, and the lemmas that end in `_cases` say which ways lead out of it:
`enterAttempt_cases`, `startTask_cases`, `failAttempt_cases`, `afterInvoke_cases`. The states in
between have names of their own (`firstAttempt`, `afterFailure`, `succeed`, `escape`), which the
lists use.

A step of the event loop is possible while it runs. When a handler has stopped it, only a
cancellation of `run` and the passing of time are left (`Stepped`).
-/

set_option autoImplicit false

namespace Orchestrator.Sdk.Runner

open Orchestrator.Lib Env

variable {env : Env}

/-! ### The pieces of `_execute_task` -/

section Pieces

variable (env) (c : Coro) (now : Nat)

/-- Returning the span keeps the task. -/
@[simp] theorem returnSpan_task : (returnSpan c now).task = c.task := rfl

/-- Returning the span ends the coroutine. -/
@[simp] theorem returnSpan_pc : (returnSpan c now).pc = .returned := rfl

/-- Returning the span keeps the id of the span. -/
@[simp] theorem returnSpan_span_id : (returnSpan c now).span.id = c.span.id := rfl

/-- The exit of a cancelled task keeps the task. -/
@[simp] theorem skipSpan_task : (skipSpan c now).task = c.task := rfl

/-- The exit of a cancelled task ends the coroutine. -/
@[simp] theorem skipSpan_pc : (skipSpan c now).pc = .returned := rfl

/-- The exit of a cancelled task keeps the id of the span. -/
@[simp] theorem skipSpan_span_id : (skipSpan c now).span.id = c.span.id := rfl

/-- Giving up keeps the task. -/
@[simp] theorem failSpan_task : (failSpan c now).task = c.task := rfl

/-- Giving up ends the coroutine. -/
@[simp] theorem failSpan_pc : (failSpan c now).pc = .returned := rfl

/-- Giving up keeps the id of the span. -/
@[simp] theorem failSpan_span_id : (failSpan c now).span.id = c.span.id := rfl

/-- The head of the attempt loop starts an attempt or gives up. -/
theorem enterAttempt_cases (attempt : Int) :
    (attempt < (effectiveRetry env.wf c.task).max + 2 ∧ env.enterAttempt c attempt now
        = { c with pc := .slot, span := { c.span with attempts := attempt } }) ∨
    (¬ attempt < (effectiveRetry env.wf c.task).max + 2 ∧
      env.enterAttempt c attempt now = failSpan c now) := by
  unfold enterAttempt
  split
  · rename_i h
    exact Or.inl ⟨h, rfl⟩
  · rename_i h
    exact Or.inr ⟨h, rfl⟩

/-- The head of the attempt loop keeps the task. -/
@[simp] theorem enterAttempt_task (attempt : Int) :
    (env.enterAttempt c attempt now).task = c.task := by
  rcases enterAttempt_cases env c now attempt with ⟨-, h⟩ | ⟨-, h⟩ <;> simp [h]

/-- The head of the attempt loop keeps the id of the span. -/
@[simp] theorem enterAttempt_span_id (attempt : Int) :
    (env.enterAttempt c attempt now).span.id = c.span.id := by
  rcases enterAttempt_cases env c now attempt with ⟨-, h⟩ | ⟨-, h⟩ <;> simp [h]

/-- The coroutine at its first attempt, with its inputs resolved and a span that counts nothing
yet. -/
def firstAttempt (c : Coro) (now : Nat) (resolved : Json) : Coro :=
  { c with
      resolvedInputs := resolved
      span := { id := c.task.id, status := .failed }
      lastErr := "unknown error"
      startedAt := now }

/-- The start of a coroutine raises or leads to the head of the attempt loop. -/
theorem startTask_cases (currentInputs results : Dict String Json) :
    (∃ e, resolveTemplate env.lib (.obj (templateScope currentInputs results).entries)
        (.obj c.task.inputs.entries) = .error e ∧
      env.startTask c currentInputs results now = { c with pc := .raised e }) ∨
    (∃ resolved, resolveTemplate env.lib (.obj (templateScope currentInputs results).entries)
        (.obj c.task.inputs.entries) = .ok resolved ∧
      env.startTask c currentInputs results now
        = env.enterAttempt (firstAttempt c now resolved) 1 now) := by
  unfold startTask
  simp only
  split
  · rename_i e he
    exact Or.inl ⟨e, he, rfl⟩
  · rename_i resolved hr
    exact Or.inr ⟨resolved, hr, rfl⟩

variable (ctx : SkillContext) (err : String)

/-- The coroutine after an attempt that failed, before its next step is chosen. -/
def afterFailure (c : Coro) (ctx : SkillContext) (err : String) : Coro :=
  recordContext { c with lastErr := err, cancelRequested := false } ctx

/-- A failed attempt keeps the task. -/
@[simp] theorem afterFailure_task : (afterFailure c ctx err).task = c.task := rfl

/-- A failed attempt keeps the id of the span. -/
@[simp] theorem afterFailure_span_id : (afterFailure c ctx err).span.id = c.span.id := rfl

/-- A failed attempt keeps the attempt number. -/
@[simp] theorem afterFailure_span_attempts :
    (afterFailure c ctx err).span.attempts = c.span.attempts := rfl

/-- A failed attempt takes back a request to stop. -/
@[simp] theorem afterFailure_cancelRequested :
    (afterFailure c ctx err).cancelRequested = false := rfl

/-- A failed attempt leads to the backoff sleep, to an overflow of its length, or to the end. -/
theorem failAttempt_cases :
    (∃ d, c.span.attempts ≤ (effectiveRetry env.wf c.task).max ∧
      backoff (effectiveRetry env.wf c.task) c.span.attempts = .ok d ∧
      env.failAttempt c ctx err now = { afterFailure c ctx err with pc := .backoff }) ∨
    (∃ e, c.span.attempts ≤ (effectiveRetry env.wf c.task).max ∧
      backoff (effectiveRetry env.wf c.task) c.span.attempts = .error e ∧
      env.failAttempt c ctx err now = { afterFailure c ctx err with pc := .raised e }) ∨
    (¬ c.span.attempts ≤ (effectiveRetry env.wf c.task).max ∧
      env.failAttempt c ctx err now = failSpan (afterFailure c ctx err) now) := by
  unfold failAttempt
  simp only
  split
  · rename_i hle
    split
    · rename_i d hd
      exact Or.inl ⟨d, hle, hd, rfl⟩
    · rename_i e he
      exact Or.inr (Or.inl ⟨e, hle, he, rfl⟩)
  · rename_i hgt
    exact Or.inr (Or.inr ⟨hgt, rfl⟩)

/-- A failed attempt keeps the task. -/
@[simp] theorem failAttempt_task : (env.failAttempt c ctx err now).task = c.task := by
  rcases failAttempt_cases env c now ctx err with ⟨_, -, -, h⟩ | ⟨_, -, -, h⟩ | ⟨-, h⟩ <;> simp [h]

/-- A failed attempt keeps the id of the span. -/
@[simp] theorem failAttempt_span_id :
    (env.failAttempt c ctx err now).span.id = c.span.id := by
  rcases failAttempt_cases env c now ctx err with ⟨_, -, -, h⟩ | ⟨_, -, -, h⟩ | ⟨-, h⟩ <;> simp [h]

/-- The coroutine after a successful attempt. -/
def succeed (c : Coro) (ctx : SkillContext) (output : Json) (now : Nat) : Coro :=
  let c := recordContext { c with cancelRequested := false } ctx
  returnSpan { c with span := { c.span with status := .succeeded, output := output } } now

/-- The coroutine after an exception that nothing catches. Its future takes the exception, or the
event loop itself does if the exception is an exit. -/
def escape (c : Coro) (ctx : SkillContext) (type : String) (exits : Bool) : Coro :=
  { c with
      pc := .raised (if exits then .exit type else .uncaught type)
      cancelRequested := false
      contexts := c.contexts ++ [ctx] }

/-- The end of a handler: a success, a cancellation, an exception that nothing catches, or a failed
attempt. -/
theorem afterInvoke_cases (out : Outcome) :
    (∃ output, out = .returned output ∧
      env.afterInvoke c ctx out now = succeed c ctx output now) ∨
    (out = .cancelledError ∧
      env.afterInvoke c ctx out now = skipSpan { c with contexts := c.contexts ++ [ctx] } now) ∨
    (∃ type exits, out = .uncaught type exits ∧
      env.afterInvoke c ctx out now = escape c ctx type exits) ∨
    (∃ err, (∀ output, out ≠ .returned output) ∧ out ≠ .cancelledError ∧
      env.afterInvoke c ctx out now = env.failAttempt c ctx err now) := by
  cases out with
  | returned output => exact Or.inl ⟨output, rfl, rfl⟩
  | timeoutError => exact Or.inr (Or.inr (Or.inr ⟨_, by simp, by simp, rfl⟩))
  | cancelledError => exact Or.inr (Or.inl ⟨rfl, rfl⟩)
  | exception type message => exact Or.inr (Or.inr (Or.inr ⟨_, by simp, by simp, rfl⟩))
  | uncaught type exits => exact Or.inr (Or.inr (Or.inl ⟨type, exits, rfl, rfl⟩))

/-- The end of a handler keeps the task. -/
@[simp] theorem afterInvoke_task (out : Outcome) :
    (env.afterInvoke c ctx out now).task = c.task := by
  rcases afterInvoke_cases env c now ctx out with
    ⟨_, -, h⟩ | ⟨-, h⟩ | ⟨_, _, -, h⟩ | ⟨_, -, -, h⟩ <;> simp [h, succeed, recordContext, escape]

/-- The end of a handler keeps the id of the span. -/
@[simp] theorem afterInvoke_span_id (out : Outcome) :
    (env.afterInvoke c ctx out now).span.id = c.span.id := by
  rcases afterInvoke_cases env c now ctx out with
    ⟨_, -, h⟩ | ⟨-, h⟩ | ⟨_, _, -, h⟩ | ⟨_, -, -, h⟩ <;> simp [h, succeed, recordContext, escape]

/-- The first step of a coroutine keeps the task. -/
@[simp] theorem startTask_task (currentInputs results : Dict String Json) :
    (env.startTask c currentInputs results now).task = c.task := by
  rcases startTask_cases env c now currentInputs results with ⟨e, -, h⟩ | ⟨r, -, h⟩ <;>
    simp [h, firstAttempt]

/-- The first step of a coroutine gives the span the id of the task. -/
theorem startTask_span_id (currentInputs results : Dict String Json)
    (hid : c.span.id = c.task.id) :
    (env.startTask c currentInputs results now).span.id = c.task.id := by
  rcases startTask_cases env c now currentInputs results with ⟨e, -, h⟩ | ⟨r, -, h⟩ <;>
    simp [h, firstAttempt, hid]

/-- After the global bucket comes the provider's bucket or the handler. -/
theorem afterGlobal_pc : afterGlobal c = .provider ∨ afterGlobal c = .invoke := by
  unfold afterGlobal
  split
  · exact Or.inl rfl
  · exact Or.inr rfl

end Pieces

/-! ### The steps of a task coroutine -/

/-- The coroutine holds a slot and waits for a token or for its handler to be called. -/
def CoroPc.holds : CoroPc → Bool
  | .global | .globalSleep | .provider | .providerSleep | .invoke => true
  | _ => false

/-- The coroutine raised. -/
def CoroPc.isRaised : CoroPc → Bool
  | .raised _ => true
  | _ => false

/-- The steps of the `i`-th coroutine `c` from the state `s`, one constructor for each way that a
step can go. Every invariant of the runner is proved over these, and none unfolds `coroStep`. -/
inductive CoroStep (env : Env) (s : State) (i : Nat) (c : Coro) : CoroAction → State → Prop
  | start (hpc : c.pc = .start) (hc : c.cancelRequested = false) :
      CoroStep env s i c .start
        (setCoro s i (env.startTask c s.currentInputs s.main.results s.clock))
  | acquireSlot (hpc : c.pc = .slot) (hc : c.cancelRequested = false) (hfree : 0 < s.sem) :
      CoroStep env s i c .acquireSlot
        (setCoro { s with sem := s.sem - 1 } i { c with pc := .global })
  | grantGlobal (b : Option TokenBucket) (hpc : c.pc = .global) (hc : c.cancelRequested = false)
      (hb : env.acquireRound s.globalBucket s.clock = .ok (true, b)) :
      CoroStep env s i c .acquire
        (setCoro { s with globalBucket := b } i { c with pc := afterGlobal c })
  | denyGlobal (b : Option TokenBucket) (hpc : c.pc = .global) (hc : c.cancelRequested = false)
      (hb : env.acquireRound s.globalBucket s.clock = .ok (false, b)) :
      CoroStep env s i c .acquire
        (setCoro { s with globalBucket := b } i { c with pc := .globalSleep })
  | grantProvider (b : Option TokenBucket) (hpc : c.pc = .provider)
      (hc : c.cancelRequested = false)
      (hb : env.acquireRound (s.provReq.get? (c.task.provider.getD "")).join s.clock
        = .ok (true, b)) :
      CoroStep env s i c .acquire
        (setCoro { s with provReq := putBucket s.provReq (c.task.provider.getD "") b } i
          { c with pc := .invoke })
  | denyProvider (b : Option TokenBucket) (hpc : c.pc = .provider)
      (hc : c.cancelRequested = false)
      (hb : env.acquireRound (s.provReq.get? (c.task.provider.getD "")).join s.clock
        = .ok (false, b)) :
      CoroStep env s i c .acquire
        (setCoro { s with provReq := putBucket s.provReq (c.task.provider.getD "") b } i
          { c with pc := .providerSleep })
  | acquireError (e : PyError) (hc : c.cancelRequested = false)
      (he : (c.pc = .global ∧ env.acquireRound s.globalBucket s.clock = .error e) ∨
        (c.pc = .provider ∧ env.acquireRound
          (s.provReq.get? (c.task.provider.getD "")).join s.clock = .error e)) :
      CoroStep env s i c .acquire
        (setCoro { s with sem := s.sem + 1 } i (env.failAttempt c {} (bucketErr e) s.clock))
  | timerGlobal (hpc : c.pc = .globalSleep) (hc : c.cancelRequested = false) :
      CoroStep env s i c .timer (setCoro s i { c with pc := .global })
  | timerProvider (hpc : c.pc = .providerSleep) (hc : c.cancelRequested = false) :
      CoroStep env s i c .timer (setCoro s i { c with pc := .provider })
  | noSkill (hpc : c.pc = .invoke) (hc : c.cancelRequested = false)
      (hk : env.skills c.task.skill = none) :
      CoroStep env s i c .invoke
        (setCoro { s with sem := s.sem + 1 } i
          (env.failAttempt c {} (env.noSkillErr c.task) s.clock))
  | invoke (kind : SkillKind) (hpc : c.pc = .invoke) (hc : c.cancelRequested = false)
      (hk : env.skills c.task.skill = some kind) :
      CoroStep env s i c .invoke
        (setCoro { s with executing := s.executing ++ [(i, c.span.attempts)] } i
          { c with pc := .handler })
  | finish (ctx : SkillContext) (out : Outcome) (hpc : c.pc = .handler)
      (hc : c.cancelRequested = false ∨ env.skills c.task.skill = some .async) :
      CoroStep env s i c (.finish ctx out)
        (setCoro { s with
          sem := s.sem + 1
          executing := s.executing.erase (i, c.span.attempts) } i
          (env.afterInvoke c ctx out s.clock))
  | lose (hpc : c.pc = .handler) (hc : c.cancelRequested = false)
      (hk : env.skills c.task.skill = some .sync) :
      CoroStep env s i c .lose
        (setCoro { s with executing := s.executing.erase (i, c.span.attempts) } i
          { c with pc := .lost })
  | timeout (ctx : SkillContext) (hpc : c.pc = .handler ∨ c.pc = .lost)
      (hc : c.cancelRequested = false)
      (ht : (effectiveTimeout env.wf c.task).isSome = true) :
      CoroStep env s i c (.timeout ctx)
        (setCoro { s with sem := s.sem + 1, executing := env.leaveHandler s i c } i
          (env.failAttempt c ctx (env.timeoutErr c.task) s.clock))
  | wake (hpc : c.pc = .backoff) (hc : c.cancelRequested = false) :
      CoroStep env s i c .wake
        (setCoro s i (env.enterAttempt c (c.span.attempts + 1) s.clock))
  | cancelOutside (ctx : SkillContext) (hpc : c.pc = .start ∨ c.pc = .backoff)
      (hc : c.cancelRequested = true) :
      CoroStep env s i c (.cancel ctx) (setCoro s i { c with pc := .cancelled })
  | cancelSlot (ctx : SkillContext) (hpc : c.pc = .slot) (hc : c.cancelRequested = true) :
      CoroStep env s i c (.cancel ctx) (setCoro s i (skipSpan c s.clock))
  | cancelHolder (ctx : SkillContext) (hpc : CoroPc.holds c.pc = true)
      (hc : c.cancelRequested = true) :
      CoroStep env s i c (.cancel ctx)
        (setCoro { s with sem := s.sem + 1 } i (skipSpan c s.clock))
  | cancelHandler (ctx : SkillContext) (hpc : c.pc = .handler ∨ c.pc = .lost)
      (hc : c.cancelRequested = true) :
      CoroStep env s i c (.cancel ctx)
        (setCoro { s with sem := s.sem + 1, executing := env.leaveHandler s i c } i
          (skipSpan { c with contexts := c.contexts ++ [ctx] } s.clock))

/-- A step of a coroutine leaves the variables of `run` alone. -/
theorem CoroStep.main_eq {s s' : State} {i : Nat} {c : Coro} {a : CoroAction}
    (h : CoroStep env s i c a s') : s'.main = s.main := by
  cases h <;> rfl

/-- Inversion of `coroStep`. -/
theorem coroStep_inv {s s' : State} {i : Nat} {c : Coro} {a : CoroAction}
    (h : env.coroStep s i c a = some s') : CoroStep env s i c a s' := by
  cases a with
  | start =>
      simp only [coroStep, Option.ite_none_right_eq_some, Option.some.injEq] at h
      obtain ⟨⟨hpc, hc⟩, rfl⟩ := h
      exact .start hpc hc
  | acquireSlot =>
      simp only [coroStep, Option.ite_none_right_eq_some, Option.some.injEq] at h
      obtain ⟨⟨hpc, hc, hfree⟩, rfl⟩ := h
      exact .acquireSlot hpc hc hfree
  -- Both limiters are asked by the same action; the program counter says which one.
  | acquire =>
      simp only [coroStep, Option.ite_none_left_eq_some] at h
      obtain ⟨hc, h⟩ := h
      have hc : c.cancelRequested = false := by simpa using hc
      split at h
      · rename_i hpc
        split at h
        · rename_i e he
          cases h
          exact .acquireError e hc (Or.inl ⟨hpc, he⟩)
        · rename_i r hr
          obtain ⟨granted, b⟩ := r
          cases h
          cases granted with
          | false => exact .denyGlobal b hpc hc hr
          | true => exact .grantGlobal b hpc hc hr
      · rename_i hpc
        split at h
        · rename_i e he
          cases h
          exact .acquireError e hc (Or.inr ⟨hpc, he⟩)
        · rename_i r hr
          obtain ⟨granted, b⟩ := r
          cases h
          cases granted with
          | false => exact .denyProvider b hpc hc hr
          | true => exact .grantProvider b hpc hc hr
      · cases h
  | timer =>
      simp only [coroStep, Option.ite_none_left_eq_some] at h
      obtain ⟨hc, h⟩ := h
      have hc : c.cancelRequested = false := by simpa using hc
      split at h
      · rename_i hpc
        cases h
        exact .timerGlobal hpc hc
      · rename_i hpc
        cases h
        exact .timerProvider hpc hc
      · cases h
  | invoke =>
      simp only [coroStep, Option.ite_none_right_eq_some] at h
      obtain ⟨⟨hpc, hc⟩, h⟩ := h
      split at h
      · rename_i hk
        cases h
        exact .noSkill hpc hc hk
      · rename_i kind hk
        cases h
        exact .invoke kind hpc hc hk
  | finish ctx out =>
      simp only [coroStep, Option.ite_none_right_eq_some, Option.some.injEq] at h
      obtain ⟨⟨hpc, hc⟩, rfl⟩ := h
      exact .finish ctx out hpc hc
  | lose =>
      simp only [coroStep, Option.ite_none_right_eq_some, Option.some.injEq] at h
      obtain ⟨⟨hpc, hc, hk⟩, rfl⟩ := h
      exact .lose hpc hc hk
  | timeout ctx =>
      simp only [coroStep, Option.ite_none_right_eq_some, Option.some.injEq] at h
      obtain ⟨⟨hpc, hc, ht⟩, rfl⟩ := h
      exact .timeout ctx hpc hc ht
  | wake =>
      simp only [coroStep, Option.ite_none_right_eq_some, Option.some.injEq] at h
      obtain ⟨⟨hpc, hc⟩, rfl⟩ := h
      exact .wake hpc hc
  -- One case for each place in which a coroutine can be cancelled; what it does depends on whether
  -- it holds a slot.
  | cancel ctx =>
      simp only [coroStep, Option.ite_none_right_eq_some] at h
      obtain ⟨hc, h⟩ := h
      cases hpc : c.pc <;> simp only [hpc, Option.some.injEq, reduceCtorEq] at h <;> cases h
      · exact .cancelOutside ctx (Or.inl hpc) hc
      · exact .cancelSlot ctx hpc hc
      · exact .cancelHolder ctx (by simp [hpc, CoroPc.holds]) hc
      · exact .cancelHolder ctx (by simp [hpc, CoroPc.holds]) hc
      · exact .cancelHolder ctx (by simp [hpc, CoroPc.holds]) hc
      · exact .cancelHolder ctx (by simp [hpc, CoroPc.holds]) hc
      · exact .cancelHolder ctx (by simp [hpc, CoroPc.holds]) hc
      · exact .cancelHandler ctx (Or.inl hpc) hc
      · exact .cancelHandler ctx (Or.inr hpc) hc
      · exact .cancelOutside ctx (Or.inr hpc) hc

/-! ### The steps of `run` -/

/-- The variables of `run` after `running.pop(fut)` and with the span of the task recorded. -/
def popped (m : Main) (i : Nat) (tid : String) (span : TaskSpan) : Main :=
  recordSpan { m with running := m.running.erase i } tid span

/-- The variables of `run` once the run has failed fast. The error that comes first stays the
first. -/
def failedFast (m : Main) (i : Nat) (tid : String) (span : TaskSpan) : Main :=
  { popped m i tid span with
      firstError := m.firstError.orElse (fun _ => span.error)
      runFailed := true }

/-- A task coroutine before its first step. `create_task` only schedules it, so nothing of its body
has run. -/
def newCoro (t : Task) (now : Nat) : Coro where
  task := t
  pc := .start
  span := { id := t.id, status := .failed }
  resolvedInputs := .null
  lastErr := ""
  startedAt := now
  cancelRequested := false
  contexts := []

/-- Every future that `run` waits for is done. -/
def AllDone (s : State) : Prop :=
  ∀ i ∈ s.main.running, ∃ c, s.coros[i]? = some c ∧ c.pc.isDone = true

/-- The steps of `run` from the state `s`, one constructor for each way that a step can go. -/
inductive MainStepped (env : Env) (s : State) : State → Prop
  | refuse (e : PyError) (hpc : s.main.pc = .start) (he : env.prepare s.clock = .error e) :
      MainStepped env s
        { s with currentInputs := env.inputs, main := { s.main with pc := .raised e } }
  | setup (buckets : Option TokenBucket × Dict String (Option TokenBucket))
      (hpc : s.main.pc = .start) (hb : env.prepare s.clock = .ok buckets) :
      MainStepped env s
        { s with
            currentInputs := env.inputs
            main := env.initialMain s.clock
            sem := env.wf.maxParallel
            globalBucket := buckets.1
            provReq := buckets.2 }
  | enter (hpc : s.main.pc = .head) (hor : s.main.ready ≠ [] ∨ s.main.running ≠ []) :
      MainStepped env s { s with main := { s.main with pc := .dispatch } }
  | leave (hpc : s.main.pc = .head ∨ s.main.pc = .dispatch) (hready : s.main.ready = [])
      (hrunning : s.main.running = []) :
      MainStepped env s { s with main := { s.main with pc := .finish } }
  | suspend (hpc : s.main.pc = .dispatch) (hready : s.main.ready = [])
      (hrunning : s.main.running ≠ []) :
      MainStepped env s { s with main := { s.main with pc := .wait } }
  | drop (tid : String) (rest : List String) (hpc : s.main.pc = .dispatch)
      (hready : s.main.ready = tid :: rest) (hskip : tid ∈ s.main.skipped) :
      MainStepped env s { s with main := { s.main with ready := rest } }
  | dispatch (tid : String) (rest : List String) (t : Task) (hpc : s.main.pc = .dispatch)
      (hready : s.main.ready = tid :: rest) (hskip : tid ∉ s.main.skipped)
      (ht : env.wf.taskMap.get? tid = some t) :
      MainStepped env s
        { s with
            main := { s.main with
              ready := rest, running := s.main.running ++ [s.coros.length] }
            coros := s.coros ++ [newCoro t s.clock] }
  | next (hpc : s.main.pc = .process []) :
      MainStepped env s { s with main := { s.main with pc := .head } }
  | succeeded (i : Nat) (rest : List Nat) (c : Coro) (hpc : s.main.pc = .process (i :: rest))
      (hi : s.coros[i]? = some c) (hdone : c.pc = .returned) (hst : c.span.status = .succeeded) :
      MainStepped env s
        { s with main := { popped s.main i c.task.id c.span with
            pc := .process rest
            results := s.main.results.set c.task.id c.span.output
            indeg := (releaseChildren s.main.skipped (env.children c.task.id) s.main.indeg
              s.main.ready).1
            ready := (releaseChildren s.main.skipped (env.children c.task.id) s.main.indeg
              s.main.ready).2 } }
  | «continue» (i : Nat) (rest : List Nat) (c : Coro) (t : Task)
      (hpc : s.main.pc = .process (i :: rest)) (hi : s.coros[i]? = some c)
      (hdone : c.pc = .returned) (hst : c.span.status ≠ .succeeded)
      (ht : env.wf.taskMap.get? c.task.id = some t)
      (hpol : effectiveOnError env.wf t ≠ "fail_fast") :
      MainStepped env s
        { s with main := { popped s.main i c.task.id c.span with
            pc := .process rest
            firstError := s.main.firstError.orElse (fun _ => c.span.error)
            spans := (env.markDescendantsSkipped c.task.id
              { spans := s.main.spans.set c.task.id c.span, skipped := s.main.skipped }).spans
            skipped := (env.markDescendantsSkipped c.task.id
              { spans := s.main.spans.set c.task.id c.span, skipped := s.main.skipped }).skipped } }
  | failFast (i : Nat) (rest : List Nat) (c : Coro) (t : Task)
      (hpc : s.main.pc = .process (i :: rest)) (hi : s.coros[i]? = some c)
      (hdone : c.pc = .returned) (hst : c.span.status ≠ .succeeded)
      (ht : env.wf.taskMap.get? c.task.id = some t)
      (hpol : effectiveOnError env.wf t = "fail_fast") (hlast : s.main.running.erase i = []) :
      MainStepped env s { s with main := env.abandon (failedFast s.main i c.task.id c.span) }
  | cancelAll (i : Nat) (rest : List Nat) (c : Coro) (t : Task)
      (hpc : s.main.pc = .process (i :: rest)) (hi : s.coros[i]? = some c)
      (hdone : c.pc = .returned) (hst : c.span.status ≠ .succeeded)
      (ht : env.wf.taskMap.get? c.task.id = some t)
      (hpol : effectiveOnError env.wf t = "fail_fast") (hmore : s.main.running.erase i ≠ []) :
      MainStepped env s
        { s with
            main := { failedFast s.main i c.task.id c.span with pc := .cancelWait }
            coros := s.coros.mapIdx (cancelCoro (s.main.running.erase i)) }
  | raise (i : Nat) (rest : List Nat) (c : Coro) (e : PyError)
      (hpc : s.main.pc = .process (i :: rest)) (hi : s.coros[i]? = some c)
      (hdone : c.pc = .raised e ∨ (c.pc = .cancelled ∧ e = .cancelledError)) :
      MainStepped env s
        { s with main := { s.main with
            running := s.main.running.erase i, pc := .raised e } }
  | abandon (hpc : s.main.pc = .cancelWait) (hall : AllDone s) :
      MainStepped env s { s with main := env.abandon s.main }
  | finish (hpc : s.main.pc = .finish) :
      MainStepped env s
        { s with main := { s.main with pc := .returned (env.report s.clock s.main) } }

/-- Inversion of `processFuture`. -/
theorem processFuture_inv {s s' : State} {i : Nat} {rest : List Nat}
    (hpc : s.main.pc = .process (i :: rest)) (h : env.processFuture s i rest = some s') :
    MainStepped env s s' := by
  obtain ⟨c, hi, h⟩ := Option.bind_eq_some_iff.mp h
  cases hdone : c.pc <;> simp only [hdone, reduceCtorEq] at h
  -- `result()` gives the span or raises what the coroutine raised.
  case returned =>
      simp only [processSpan] at h
      split at h
      · rename_i hst
        cases h
        exact .succeeded i rest c hpc hi hdone hst
      · rename_i hst
        obtain ⟨t, ht, h⟩ := Option.bind_eq_some_iff.mp h
        split at h
        · rename_i hpol
          split at h
          · rename_i hlast
            cases h
            exact .failFast i rest c t hpc hi hdone hst ht hpol hlast
          · rename_i hmore
            cases h
            exact .cancelAll i rest c t hpc hi hdone hst ht hpol hmore
        · rename_i hpol
          cases h
          exact .continue i rest c t hpc hi hdone hst ht hpol
  case raised e =>
      cases h
      exact .raise i rest c e hpc hi (Or.inl hdone)
  case cancelled =>
      cases h
      exact .raise i rest c .cancelledError hpc hi (Or.inr ⟨hdone, rfl⟩)

/-- Inversion of `mainStep`. -/
theorem mainStep_inv {s s' : State} (h : env.mainStep s = some s') : MainStepped env s s' := by
  unfold mainStep at h
  split at h
  · -- The cases come in the order of the program counter, as in the definition.
    rename_i hpc
    simp only at h
    split at h
    · rename_i e he
      cases h
      exact .refuse e hpc he
    · rename_i buckets hb
      cases h
      exact .setup buckets hpc hb
  · rename_i hpc
    split at h
    · rename_i hor
      cases h
      exact .enter hpc hor
    · rename_i hor
      cases h
      obtain ⟨hready, hrunning⟩ := not_or.mp hor
      exact .leave (Or.inl hpc) (not_not.mp hready) (not_not.mp hrunning)
  · rename_i hpc
    split at h
    · rename_i hready
      split at h
      · rename_i hrunning
        cases h
        exact .leave (Or.inr hpc) hready hrunning
      · rename_i hrunning
        cases h
        exact .suspend hpc hready hrunning
    · rename_i tid rest hready
      split at h
      · rename_i hskip
        cases h
        exact .drop tid rest hpc hready hskip
      · rename_i hskip
        obtain ⟨t, ht, h⟩ := Option.bind_eq_some_iff.mp h
        cases h
        exact .dispatch tid rest t hpc hready hskip ht
  · rename_i hpc
    cases h
    exact .next hpc
  · rename_i i rest hpc
    exact processFuture_inv hpc h
  · rename_i hpc
    split at h
    · rename_i hall
      cases h
      refine .abandon hpc fun i hi => ?_
      have := List.all_eq_true.mp hall i hi
      rwa [Option.any_eq_true] at this
    · cases h
  · rename_i hpc
    cases h
    exact .finish hpc
  · cases h
  · cases h
  · cases h

/-- The order in which the futures are visited is one of those that are done. -/
structure Woken (s : State) (order : List Nat) : Prop where
  pc : s.main.pc = .wait
  some_done : order ≠ []
  perm : order.Perm (doneFutures s)

/-- Inversion of `wakeStep`. -/
theorem wakeStep_inv {s s' : State} {order : List Nat} (h : wakeStep s order = some s') :
    Woken s order ∧ s' = { s with main := { s.main with pc := .process order } } := by
  unfold wakeStep at h
  split at h
  · rename_i hpc
    rw [Option.ite_none_right_eq_some] at h
    obtain ⟨⟨hne, hperm⟩, h⟩ := h
    exact ⟨⟨hpc, hne, hperm⟩, (Option.some.inj h).symm⟩
  · cases h

/-- What a step of the run can be. The invariants are proved by a case for each. -/
inductive Stepped (env : Env) (s : State) : Action → State → Prop
  | main {s' : State} (hm : MainStepped env s s') : Stepped env s .main s'
  | wake (order : List Nat) (hw : Woken s order) :
      Stepped env s (.wake order) { s with main := { s.main with pc := .process order } }
  | coro {i : Nat} {c : Coro} {a : CoroAction} {s' : State} (hi : s.coros[i]? = some c)
      (hy : s.main.pc.yields = true) (hs : CoroStep env s i c a s') :
      Stepped env s (.coro i a) s'
  | threadEnd (i : Nat) (attempt : Int) (ho : isOrphan s i attempt = true) :
      Stepped env s (.threadEnd i attempt)
        { s with executing := s.executing.erase (i, attempt) }
  | cancel (hpc : s.main.pc = .wait ∨ s.main.pc = .cancelWait) :
      Stepped env s .cancel
        { s with main := { s.main with pc := .raised .cancelledError } }
  | tick (d : Nat) : Stepped env s (.tick d) { s with clock := s.clock + d }

/-- A step is one of the event loop. -/
theorem loopStep_of_step {s s' : State} {a : Action} (h : env.step? s a = some s') :
    env.loopStep s a = some s' := by
  rw [step?, Option.ite_none_left_eq_some] at h
  exact h.2

/-- While the event loop runs, its steps are the steps. -/
theorem step_of_running {s : State} (h : s.stopped = false) (a : Action) :
    env.step? s a = env.loopStep s a := by
  rw [step?, h]
  rfl

/-- Time passes whether or not the event loop runs. -/
theorem step_tick (s : State) (d : Nat) :
    env.step? s (.tick d) = some { s with clock := s.clock + d } := by
  rw [step?, Action.outside, Bool.not_true, Bool.and_false]
  rfl

/-- Inversion of `step?`. -/
theorem step_inv {s s' : State} {a : Action} (h : env.step? s a = some s') :
    Stepped env s a s' := by
  have h := loopStep_of_step h
  cases a with
  | main => exact .main (mainStep_inv h)
  | wake order =>
      obtain ⟨hw, rfl⟩ := wakeStep_inv h
      exact .wake order hw
  | coro i a =>
      obtain ⟨c, hi, h⟩ := Option.bind_eq_some_iff.mp h
      rw [Option.ite_none_right_eq_some] at h
      exact .coro hi h.1 (coroStep_inv h.2)
  | threadEnd i attempt =>
      simp only [loopStep, Option.ite_none_right_eq_some, Option.some.injEq] at h
      obtain ⟨ho, rfl⟩ := h
      exact .threadEnd i attempt ho
  -- The main task takes a cancel up in its two waits only.
  | cancel =>
      simp only [loopStep] at h
      split at h
      · rename_i hpc
        cases h
        exact .cancel (Or.inl hpc)
      · rename_i hpc
        cases h
        exact .cancel (Or.inr hpc)
      · cases h
  | tick d =>
      cases h
      exact .tick d

end Orchestrator.Sdk.Runner
