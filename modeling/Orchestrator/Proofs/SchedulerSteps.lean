import Orchestrator.Proofs.Validate

/-!
# `Orchestrator.Proofs.SchedulerSteps`: what one step of a run can do

`TaskStep` and `MainStepped` list the steps of a task goroutine and of the main goroutine, each with
its guard and its effect. `taskStep_inv` and `mainStep_inv` invert the step functions into these
lists, so that later proofs split on named cases and never unfold a step.

The `simp` lemmas before them say which fields of a goroutine the pieces of `executeTask` leave
alone. Each piece has a lemma on the ways out of it (`enterAttempt_cases`, `resolveInputs_cases`,
`afterExecute_cases`), and these are the only places in which its code is looked at.

The main goroutine's reception of a span is a list of its own (`Received`), since the three ways to
go on (a success, a failure that ends the run, a failure that does not) matter to nearly every
invariant. `step_inv` says that a step of the run is one of the main goroutine, one of a task
goroutine, a cancellation, or a passage of time.
-/

set_option autoImplicit false

namespace Orchestrator.Proofs

open Orchestrator.Lib Orchestrator.Engine Orchestrator.Engine.Env

variable {B : Type} {env : Env B}

/-! ### The pieces of `executeTask` -/

section Pieces

variable (env) (g : Goroutine) (now : Nat)

/-- Returning the span keeps the task. -/
@[simp] theorem finishSpan_task : (finishSpan g now).task = g.task := rfl

/-- Returning the span keeps the snapshot. -/
@[simp] theorem finishSpan_snapshot : (finishSpan g now).snapshot = g.snapshot := rfl

/-- Returning the span keeps the results so far. -/
@[simp] theorem finishSpan_returned : (finishSpan g now).returned = g.returned := rfl

/-- Returning the span leads to the send on `doneCh`. -/
@[simp] theorem finishSpan_pc : (finishSpan g now).pc = .send := rfl

/-- Returning the span keeps the id of the span. -/
@[simp] theorem finishSpan_span_id : (finishSpan g now).span.id = g.span.id := rfl

/-- Returning the span keeps the status of the span. -/
@[simp] theorem finishSpan_span_status : (finishSpan g now).span.status = g.span.status := rfl

/-- Returning the span keeps the attempt number. -/
@[simp] theorem finishSpan_span_attempts :
    (finishSpan g now).span.attempts = g.span.attempts := rfl

/-- Returning the span keeps the usage. -/
@[simp] theorem finishSpan_span_llm : (finishSpan g now).span.llm = g.span.llm := rfl

/-- The exit of a cancelled task keeps the task. -/
@[simp] theorem skipSpan_task : (skipSpan g now).task = g.task := rfl

/-- The exit of a cancelled task keeps the snapshot. -/
@[simp] theorem skipSpan_snapshot : (skipSpan g now).snapshot = g.snapshot := rfl

/-- The exit of a cancelled task keeps the results so far. -/
@[simp] theorem skipSpan_returned : (skipSpan g now).returned = g.returned := rfl

/-- The exit of a cancelled task leads to the send on `doneCh`. -/
@[simp] theorem skipSpan_pc : (skipSpan g now).pc = .send := rfl

/-- The exit of a cancelled task keeps the id of the span. -/
@[simp] theorem skipSpan_span_id : (skipSpan g now).span.id = g.span.id := rfl

/-- The exit of a cancelled task makes the span a skipped one. -/
@[simp] theorem skipSpan_span_status : (skipSpan g now).span.status = .skipped := rfl

/-- The exit of a cancelled task keeps the attempt number. -/
@[simp] theorem skipSpan_span_attempts :
    (skipSpan g now).span.attempts = g.span.attempts := rfl

/-- The exit of a cancelled task keeps the usage. -/
@[simp] theorem skipSpan_span_llm : (skipSpan g now).span.llm = g.span.llm := rfl

/-- The head of the attempt loop starts an attempt or returns the span as it stands. -/
theorem enterAttempt_cases (attempt : Int) :
    (attempt ≤ int64 ((g.task.effectiveRetry env.wf.defaultRetry).max + 1) ∧
      env.enterAttempt g attempt now
        = { g with pc := .slot, span := { g.span with attempts := attempt } }) ∨
    (¬ attempt ≤ int64 ((g.task.effectiveRetry env.wf.defaultRetry).max + 1) ∧
      env.enterAttempt g attempt now = finishSpan g now) := by
  unfold enterAttempt
  split
  · rename_i h
    exact Or.inl ⟨h, rfl⟩
  · rename_i h
    exact Or.inr ⟨h, rfl⟩

/-- The head of the attempt loop keeps the task. -/
@[simp] theorem enterAttempt_task (attempt : Int) :
    (env.enterAttempt g attempt now).task = g.task := by
  rcases enterAttempt_cases env g now attempt with ⟨-, h⟩ | ⟨-, h⟩ <;> simp [h]

/-- The head of the attempt loop keeps the snapshot. -/
@[simp] theorem enterAttempt_snapshot (attempt : Int) :
    (env.enterAttempt g attempt now).snapshot = g.snapshot := by
  rcases enterAttempt_cases env g now attempt with ⟨-, h⟩ | ⟨-, h⟩ <;> simp [h]

/-- The head of the attempt loop keeps the results so far. -/
@[simp] theorem enterAttempt_returned (attempt : Int) :
    (env.enterAttempt g attempt now).returned = g.returned := by
  rcases enterAttempt_cases env g now attempt with ⟨-, h⟩ | ⟨-, h⟩ <;> simp [h]

/-- The head of the attempt loop keeps the id of the span. -/
@[simp] theorem enterAttempt_span_id (attempt : Int) :
    (env.enterAttempt g attempt now).span.id = g.span.id := by
  rcases enterAttempt_cases env g now attempt with ⟨-, h⟩ | ⟨-, h⟩ <;> simp [h]

/-- The head of the attempt loop keeps the status of the span. -/
@[simp] theorem enterAttempt_span_status (attempt : Int) :
    (env.enterAttempt g attempt now).span.status = g.span.status := by
  rcases enterAttempt_cases env g now attempt with ⟨-, h⟩ | ⟨-, h⟩ <;> simp [h]

/-- The head of the attempt loop keeps the usage. -/
@[simp] theorem enterAttempt_span_llm (attempt : Int) :
    (env.enterAttempt g attempt now).span.llm = g.span.llm := by
  rcases enterAttempt_cases env g now attempt with ⟨-, h⟩ | ⟨-, h⟩ <;> simp [h]

/-- The head of the attempt loop leads to the slot or to the send. -/
theorem enterAttempt_pc (attempt : Int) :
    (env.enterAttempt g attempt now).pc = .slot ∨ (env.enterAttempt g attempt now).pc = .send := by
  rcases enterAttempt_cases env g now attempt with ⟨-, h⟩ | ⟨-, h⟩ <;> simp [h]

/-- The goroutine that enters its first attempt, with its inputs resolved and a span that counts
nothing yet. -/
def firstAttempt (env : Env B) (g : Goroutine) (now : Nat) (resolved : Json) : Goroutine :=
  { g with
      inputsJSON := env.lib.marshal resolved
      span := { id := g.task.id, status := .failed }
      startedAt := now }

/-- Resolving the inputs fails the task or leads to the head of the attempt loop. -/
theorem resolveInputs_cases :
    (∃ e, resolve env.lib (.obj (buildScope env.inputs g.snapshot).entries)
        (.obj g.task.inputs.entries) = .error e ∧
      env.resolveInputs g now =
        { g with
            pc := .send
            span := { id := g.task.id, status := .failed, attempts := 1, error := e } }) ∨
    (∃ resolved, resolve env.lib (.obj (buildScope env.inputs g.snapshot).entries)
        (.obj g.task.inputs.entries) = .ok resolved ∧
      env.resolveInputs g now = env.enterAttempt (firstAttempt env g now resolved) 1 now) := by
  unfold resolveInputs
  simp only
  split
  · rename_i e he
    exact Or.inl ⟨e, he, rfl⟩
  · rename_i resolved hr
    exact Or.inr ⟨resolved, hr, rfl⟩

/-- Resolving the inputs keeps the task. -/
@[simp] theorem resolveInputs_task : (env.resolveInputs g now).task = g.task := by
  rcases resolveInputs_cases env g now with ⟨e, -, h⟩ | ⟨r, -, h⟩ <;> rw [h]
  simp [firstAttempt]

/-- Resolving the inputs keeps the snapshot. -/
@[simp] theorem resolveInputs_snapshot : (env.resolveInputs g now).snapshot = g.snapshot := by
  rcases resolveInputs_cases env g now with ⟨e, -, h⟩ | ⟨r, -, h⟩ <;> rw [h]
  simp [firstAttempt]

/-- Resolving the inputs keeps the results so far. -/
@[simp] theorem resolveInputs_returned : (env.resolveInputs g now).returned = g.returned := by
  rcases resolveInputs_cases env g now with ⟨e, -, h⟩ | ⟨r, -, h⟩ <;> rw [h]
  simp [firstAttempt]

/-- Resolving the inputs gives the span the id of the task. -/
@[simp] theorem resolveInputs_span_id : (env.resolveInputs g now).span.id = g.task.id := by
  rcases resolveInputs_cases env g now with ⟨e, -, h⟩ | ⟨r, -, h⟩ <;> rw [h]
  simp [firstAttempt]

/-- Resolving the inputs starts with a failed span. -/
@[simp] theorem resolveInputs_span_status : (env.resolveInputs g now).span.status = .failed := by
  rcases resolveInputs_cases env g now with ⟨e, -, h⟩ | ⟨r, -, h⟩ <;> rw [h]
  simp [firstAttempt]

/-- Resolving the inputs starts without usage. -/
@[simp] theorem resolveInputs_span_llm : (env.resolveInputs g now).span.llm = none := by
  rcases resolveInputs_cases env g now with ⟨e, -, h⟩ | ⟨r, -, h⟩ <;> rw [h]
  simp [firstAttempt]

/-- Resolving the inputs leads to the slot or to the send. -/
theorem resolveInputs_pc :
    (env.resolveInputs g now).pc = .slot ∨ (env.resolveInputs g now).pc = .send := by
  rcases resolveInputs_cases env g now with ⟨e, -, h⟩ | ⟨r, -, h⟩ <;> rw [h]
  · exact Or.inr rfl
  · exact enterAttempt_pc _ _ _ _

variable (span : TaskSpan) (res : Result) (err : Option String)

/-- Merging the usage of an attempt keeps the id of the span. -/
@[simp] theorem mergeUsage_id : (env.mergeUsage span res).id = span.id := by
  unfold mergeUsage; split <;> rfl

/-- Merging the usage of an attempt keeps the status of the span. -/
@[simp] theorem mergeUsage_status : (env.mergeUsage span res).status = span.status := by
  unfold mergeUsage; split <;> rfl

/-- Merging the usage of an attempt keeps the attempt number. -/
@[simp] theorem mergeUsage_attempts : (env.mergeUsage span res).attempts = span.attempts := by
  unfold mergeUsage; split <;> rfl

/-- After `Execute` a goroutine retries, gives up, or succeeds. -/
theorem afterExecute_cases :
    (∃ error, g.span.attempts ≤ (g.task.effectiveRetry env.wf.defaultRetry).max ∧
      (err ≠ none ∨ res.err ≠ none) ∧
      env.afterExecute g res err now =
        { g with
            pc := .sleep
            span := { env.mergeUsage g.span res with error := error }
            returned := g.returned ++ [res] }) ∨
    (∃ error, ¬ g.span.attempts ≤ (g.task.effectiveRetry env.wf.defaultRetry).max ∧
      (err ≠ none ∨ res.err ≠ none) ∧
      env.afterExecute g res err now =
        finishSpan { g with
            span := { env.mergeUsage g.span res with error := error }
            returned := g.returned ++ [res] } now) ∨
    (err = none ∧ res.err = none ∧
      env.afterExecute g res err now =
        finishSpan { g with
            span := { env.mergeUsage g.span res with
              status := .succeeded, output := env.decodeOutput res.outputJSON }
            returned := g.returned ++ [res] } now) := by
  unfold afterExecute
  simp only [mergeUsage_attempts]
  -- A call fails by its own error or by the one in its result. The loop treats both alike.
  cases err with
  | some e =>
      by_cases ha : g.span.attempts ≤ (g.task.effectiveRetry env.wf.defaultRetry).max
      · exact Or.inl ⟨e, ha, by simp, by simp [ha]⟩
      · exact Or.inr (Or.inl ⟨e, ha, by simp, by simp [ha]⟩)
  | none =>
      cases hres : res.err with
      | some e =>
          by_cases ha : g.span.attempts ≤ (g.task.effectiveRetry env.wf.defaultRetry).max
          · exact Or.inl ⟨e.error, ha, by simp, by simp [ha]⟩
          · exact Or.inr (Or.inl ⟨e.error, ha, by simp, by simp [ha]⟩)
      | none => exact Or.inr (Or.inr ⟨rfl, rfl, rfl⟩)

/-- The return of `Execute` keeps the task. -/
@[simp] theorem afterExecute_task : (env.afterExecute g res err now).task = g.task := by
  rcases afterExecute_cases env g now res err with
    ⟨e, -, -, h⟩ | ⟨e, -, -, h⟩ | ⟨-, -, h⟩ <;> simp [h]

/-- The return of `Execute` keeps the snapshot. -/
@[simp] theorem afterExecute_snapshot :
    (env.afterExecute g res err now).snapshot = g.snapshot := by
  rcases afterExecute_cases env g now res err with
    ⟨e, -, -, h⟩ | ⟨e, -, -, h⟩ | ⟨-, -, h⟩ <;> simp [h]

/-- The return of `Execute` adds a result to those so far. -/
@[simp] theorem afterExecute_returned :
    (env.afterExecute g res err now).returned = g.returned ++ [res] := by
  rcases afterExecute_cases env g now res err with
    ⟨e, -, -, h⟩ | ⟨e, -, -, h⟩ | ⟨-, -, h⟩ <;> simp [h]

/-- The return of `Execute` keeps the id of the span. -/
@[simp] theorem afterExecute_span_id :
    (env.afterExecute g res err now).span.id = g.span.id := by
  rcases afterExecute_cases env g now res err with
    ⟨e, -, -, h⟩ | ⟨e, -, -, h⟩ | ⟨-, -, h⟩ <;> rw [h] <;> simp

/-- The return of `Execute` keeps the attempt number. -/
@[simp] theorem afterExecute_span_attempts :
    (env.afterExecute g res err now).span.attempts = g.span.attempts := by
  rcases afterExecute_cases env g now res err with
    ⟨e, -, -, h⟩ | ⟨e, -, -, h⟩ | ⟨-, -, h⟩ <;> rw [h] <;> simp

/-- The return of `Execute` makes no span skipped. -/
theorem afterExecute_skipped (h : (env.afterExecute g res err now).span.status = .skipped) :
    g.span.status = .skipped := by
  rcases afterExecute_cases env g now res err with
    ⟨e, -, -, he⟩ | ⟨e, -, -, he⟩ | ⟨-, -, he⟩ <;> rw [he] at h
  · simpa using h
  · simpa using h
  · cases h

/-- The return of `Execute` leads to the sleep before a retry or to the send. -/
theorem afterExecute_pc :
    (env.afterExecute g res err now).pc = .sleep ∨
      (env.afterExecute g res err now).pc = .send := by
  rcases afterExecute_cases env g now res err with
    ⟨e, -, -, h⟩ | ⟨e, -, -, h⟩ | ⟨-, -, h⟩ <;> simp [h]

/-- Behind the global token comes the limiter of the provider, or the call. -/
theorem afterGlobal_pc (prov : Dict String (Option B)) :
    afterGlobal g prov = .provider ∨ afterGlobal g prov = .call := by
  unfold afterGlobal
  split
  · exact Or.inl rfl
  · exact Or.inr rfl

end Pieces

/-! ### The steps of a task goroutine -/

/-- The steps of the `i`-th goroutine `g` from the state `s`, one constructor for each way that a
step can go. Every invariant of the scheduler is proved over these, and none unfolds `taskStep`
(`taskStep_inv`). -/
inductive TaskStep (env : Env B) (s : State B) (i : Nat) (g : Goroutine) :
    TaskAction → State B → Prop
  | resolve (hpc : g.pc = .resolve) :
      TaskStep env s i g .resolve (setGo s i (env.resolveInputs g s.clock))
  | takeSlot (hpc : g.pc = .slot) (hfree : (s.sem : Int) < env.wf.maxParallel) :
      TaskStep env s i g .takeSlot (setGo { s with sem := s.sem + 1 } i { g with pc := .global })
  | cancelSlot (hpc : g.pc = .slot) (hc : s.cancelled = true) :
      TaskStep env s i g .cancelSlot (setGo s i (skipSpan g s.clock))
  | grantGlobal (b : Option B) (hpc : g.pc = .global)
      (hb : env.tryAcquire s.globalLimiter s.clock = (true, b)) :
      TaskStep env s i g .acquire
        (setGo { s with globalLimiter := b } i { g with pc := afterGlobal g s.provLimiters })
  | denyGlobal (b : Option B) (hpc : g.pc = .global)
      (hb : env.tryAcquire s.globalLimiter s.clock = (false, b)) :
      TaskStep env s i g .acquire
        (setGo { s with globalLimiter := b } i { g with pc := .globalWait })
  | grantProvider (b b' : Option B) (hpc : g.pc = .provider)
      (hp : s.provLimiters.get? g.task.provider = some b)
      (hb : env.tryAcquire b s.clock = (true, b')) :
      TaskStep env s i g .acquire
        (setGo { s with provLimiters := s.provLimiters.set g.task.provider b' } i
          { g with pc := .call })
  | denyProvider (b b' : Option B) (hpc : g.pc = .provider)
      (hp : s.provLimiters.get? g.task.provider = some b)
      (hb : env.tryAcquire b s.clock = (false, b')) :
      TaskStep env s i g .acquire
        (setGo { s with provLimiters := s.provLimiters.set g.task.provider b' } i
          { g with pc := .providerWait })
  | timerGlobal (hpc : g.pc = .globalWait) :
      TaskStep env s i g .timer (setGo s i { g with pc := .global })
  | timerProvider (hpc : g.pc = .providerWait) :
      TaskStep env s i g .timer (setGo s i { g with pc := .provider })
  | cancelWait (hpc : g.pc = .globalWait ∨ g.pc = .providerWait) (hc : s.cancelled = true) :
      TaskStep env s i g .cancelWait
        (setGo { s with sem := s.sem - 1 } i (skipSpan g s.clock))
  | call (hpc : g.pc = .call) :
      TaskStep env s i g .call
        (setGo { s with
          calls := s.calls ++ [{ inv := env.invocation g, startedAt := s.clock }] } i
          { g with pc := .exec })
  | ret (res : Result) (err : Option String) (hpc : g.pc = .exec) :
      TaskStep env s i g (.ret res err)
        (setGo { s with sem := s.sem - 1 } i (env.afterExecute g res err s.clock))
  | wake (hpc : g.pc = .sleep) :
      TaskStep env s i g .wake
        (setGo s i (env.enterAttempt g (g.span.attempts + 1) s.clock))
  | send (hpc : g.pc = .send) (hroom : s.doneCh.length < env.wf.tasks.length + 4) :
      TaskStep env s i g .send
        (setGo { s with doneCh := s.doneCh ++ [g.span] } i { g with pc := .done })

/-- Inversion of `taskStep`. -/
theorem taskStep_inv {s s' : State B} {i : Nat} {g : Goroutine} {a : TaskAction}
    (h : env.taskStep s i g a = some s') : TaskStep env s i g a s' := by
  cases a with
  | resolve =>
      simp only [taskStep, Option.ite_none_right_eq_some, Option.some.injEq] at h
      obtain ⟨hpc, rfl⟩ := h
      exact .resolve hpc
  | takeSlot =>
      simp only [taskStep, Option.ite_none_right_eq_some, Option.some.injEq] at h
      obtain ⟨⟨hpc, hfree⟩, rfl⟩ := h
      exact .takeSlot hpc hfree
  | cancelSlot =>
      simp only [taskStep, Option.ite_none_right_eq_some, Option.some.injEq] at h
      obtain ⟨⟨hpc, hc⟩, rfl⟩ := h
      exact .cancelSlot hpc hc
  -- Both limiters are asked by the same action; the program counter says which one.
  | acquire =>
      simp only [taskStep] at h
      split at h
      · rename_i hpc
        cases h
        cases hb : env.tryAcquire s.globalLimiter s.clock with
        | mk ok b =>
            cases ok
            · exact .denyGlobal b hpc hb
            · exact .grantGlobal b hpc hb
      · rename_i hpc
        split at h
        · cases h
        · rename_i b hp
          cases h
          cases hb : env.tryAcquire b s.clock with
          | mk ok b' =>
              cases ok
              · exact .denyProvider b b' hpc hp hb
              · exact .grantProvider b b' hpc hp hb
      · cases h
  | timer =>
      simp only [taskStep] at h
      split at h
      · rename_i hpc
        cases h
        exact .timerGlobal hpc
      · rename_i hpc
        cases h
        exact .timerProvider hpc
      · cases h
  | cancelWait =>
      simp only [taskStep, Option.ite_none_right_eq_some, Option.some.injEq] at h
      obtain ⟨⟨hpc, hc⟩, rfl⟩ := h
      exact .cancelWait hpc hc
  | call =>
      simp only [taskStep, Option.ite_none_right_eq_some, Option.some.injEq] at h
      obtain ⟨hpc, rfl⟩ := h
      exact .call hpc
  | ret res err =>
      simp only [taskStep, Option.ite_none_right_eq_some, Option.some.injEq] at h
      obtain ⟨hpc, rfl⟩ := h
      exact .ret res err hpc
  | wake =>
      simp only [taskStep, Option.ite_none_right_eq_some, Option.some.injEq] at h
      obtain ⟨hpc, rfl⟩ := h
      exact .wake hpc
  | send =>
      simp only [taskStep, Option.ite_none_right_eq_some, Option.some.injEq] at h
      obtain ⟨⟨hpc, hroom⟩, rfl⟩ := h
      exact .send hpc hroom

/-! ### The steps of the main goroutine -/

/-- The variables of the main goroutine once a span is recorded and counted. This much is common to
every kind of completion. -/
def recordSpan (m : Main) (span : TaskSpan) : Main :=
  { m with
      inFlight := m.inFlight - 1
      spans := m.spans.set span.id span
      totals := addTotals m.totals span
      received := m.received ++ [span] }

/-- What the main loop does with a span it receives, by the status of the span and the policy of its
task. -/
inductive Received (env : Env B) (now : Nat) (m : Main) (span : TaskSpan) : MainStep → Prop
  | succeeded (hs : span.status = .succeeded) :
      Received env now m span
        { main := { recordSpan m span with
            pc := .head
            results := m.results.set span.id span.output
            indeg := (release (env.children span.id) m.indeg m.ready).1
            ready := (release (env.children span.id) m.indeg m.ready).2 }
          emitted := [env.event now .taskSucceeded span.id] }
  | failFast (t : Task) (hs : span.status ≠ .succeeded)
      (ht : env.wf.taskMap.get? span.id = some t)
      (hpol : t.effectiveOnError env.wf.defaultOnError = "fail_fast") :
      Received env now m span
        { main := { recordSpan m span with
            pc := .drain, errors := m.errors ++ [span.error], runFailed := true }
          emitted := [env.event now .taskFailed span.id]
          cancel := true }
  | continue (t : Task) (hs : span.status ≠ .succeeded)
      (ht : env.wf.taskMap.get? span.id = some t)
      (hpol : t.effectiveOnError env.wf.defaultOnError ≠ "fail_fast") :
      Received env now m span
        { main := { recordSpan m span with
            pc := .head
            errors := m.errors ++ [span.error]
            spans := (env.markDescendantsSkipped now span.id (m.spans.set span.id span)).spans }
          emitted := [env.event now .taskFailed span.id] ++
            (env.markDescendantsSkipped now span.id (m.spans.set span.id span)).emitted }

/-- Inversion of `receive`. -/
theorem receive_inv {now : Nat} {m : Main} {span : TaskSpan} {r : MainStep}
    (h : env.receive now m span = some r) : Received env now m span r := by
  simp only [receive] at h
  by_cases hs : span.status = .succeeded
  · simp only [hs, if_true] at h
    cases h
    simpa [hs, recordSpan] using @Received.succeeded B env now m span hs
  · simp only [hs, if_false] at h
    obtain ⟨t, ht, h⟩ := Option.bind_eq_some_iff.mp h
    -- The policy of the task is looked up only after a failure.
    by_cases hpol : t.effectiveOnError env.wf.defaultOnError = "fail_fast"
    · simp only [hpol, if_true] at h
      cases h
      simpa [hs, recordSpan] using
        @Received.failFast B env now m span t hs ht hpol
    · simp only [hpol, if_false] at h
      cases h
      simpa [hs, recordSpan] using
        @Received.continue B env now m span t hs ht hpol

/-- The goroutine a dispatch starts. Its snapshot is a copy of the results at this moment, which is
all that its templates will see. -/
def newGoroutine (s : State B) (t : Task) : Goroutine where
  task := t
  snapshot := s.main.results
  pc := .resolve
  span := { id := t.id, status := .failed }
  inputsJSON := ""
  startedAt := s.clock
  returned := []

/-- The steps of the main goroutine from the state `s`, one constructor for each place and test of
`Run`. -/
inductive MainStepped (env : Env B) (s : State B) : State B → Prop
  | enter (hpc : s.main.pc = .head) (h : s.main.ready ≠ [] ∨ 0 < s.main.inFlight) :
      MainStepped env s { s with main := { s.main with pc := .dispatch } }
  | leave (hpc : s.main.pc = .head) (hr : s.main.ready = []) (hf : ¬ 0 < s.main.inFlight) :
      MainStepped env s { s with main := { s.main with pc := .finish } }
  | block (hpc : s.main.pc = .dispatch) (hr : s.main.ready = []) :
      MainStepped env s { s with main := { s.main with pc := .recv } }
  | dispatch (tid : String) (rest : List String) (t : Task) (hpc : s.main.pc = .dispatch)
      (hr : s.main.ready = tid :: rest) (ht : env.wf.taskMap.get? tid = some t) :
      MainStepped env s
        { s with
            main := { s.main with ready := rest, inFlight := s.main.inFlight + 1 }
            emitted := s.emitted ++ [env.event s.clock .taskStarted t.id]
            gos := s.gos ++ [newGoroutine s t] }
  | receive (span : TaskSpan) (rest : List TaskSpan) (r : MainStep) (hpc : s.main.pc = .recv)
      (hch : s.doneCh = span :: rest) (hr : Received env s.clock s.main span r) :
      MainStepped env s
        { s with
            main := r.main
            doneCh := rest
            emitted := s.emitted ++ r.emitted
            cancelled := s.cancelled || r.cancel }
  | drain (span : TaskSpan) (rest : List TaskSpan) (hpc : s.main.pc = .drain)
      (hf : 0 < s.main.inFlight) (hch : s.doneCh = span :: rest) :
      MainStepped env s
        { s with
            main := { s.main with
              inFlight := s.main.inFlight - 1
              spans := s.main.spans.set span.id span
              drained := s.main.drained ++ [span] }
            doneCh := rest }
  | drained (hpc : s.main.pc = .drain) (hf : ¬ 0 < s.main.inFlight) :
      MainStepped env s
        { s with
            main := { s.main with
              pc := .finish
              ready := []
              spans := (env.markAllUndispatchedSkipped s.clock s.main.spans).spans }
            emitted := s.emitted ++
              (env.markAllUndispatchedSkipped s.clock s.main.spans).emitted }
  | finish (hpc : s.main.pc = .finish) :
      MainStepped env s
        { s with main := { s.main with pc := .returned (env.report s.clock s.main) } }

/-- The main goroutine starts at most one task goroutine in a step, and changes none. -/
theorem MainStepped.gos {s s' : State B} (h : MainStepped env s s') :
    s'.gos = s.gos ∨ ∃ t, s'.gos = s.gos ++ [newGoroutine s t] := by
  cases h with
  | dispatch tid rest t _ _ _ => exact Or.inr ⟨t, rfl⟩
  | _ => exact Or.inl rfl

/-- Inversion of `mainStep`. -/
theorem mainStep_inv {s s' : State B} (h : env.mainStep s = some s') : MainStepped env s s' := by
  unfold mainStep at h
  -- One case for each value of the program counter, in the order of the definition.
  split at h
  · rename_i hpc
    split at h
    · rename_i hor
      cases h
      exact .enter hpc hor
    · rename_i hor
      cases h
      push Not at hor
      exact .leave hpc hor.1 (by omega)
  · rename_i hpc
    split at h
    · rename_i hr
      cases h
      exact .block hpc hr
    · rename_i tid rest hr
      obtain ⟨t, ht, h⟩ := Option.bind_eq_some_iff.mp h
      cases h
      exact .dispatch tid rest t hpc hr ht
  · rename_i hpc
    split at h
    · cases h
    · rename_i span rest hch
      obtain ⟨r, hr, h⟩ := Option.bind_eq_some_iff.mp h
      cases h
      exact .receive span rest r hpc hch (receive_inv hr)
  · rename_i hpc
    split at h
    · rename_i hf
      split at h
      · cases h
      · rename_i span rest hch
        cases h
        exact .drain span rest hpc hf hch
    · rename_i hf
      cases h
      exact .drained hpc hf
  · rename_i hpc
    cases h
    exact .finish hpc
  · cases h

/-- A step of the run is one of the main goroutine, one of a task goroutine, a cancellation,
or a passage of time. -/
theorem step_inv {s s' : State B} {a : Action} (h : env.step? s a = some s') :
    (a = .main ∧ MainStepped env s s') ∨
    (∃ i b g, a = .task i b ∧ s.gos[i]? = some g ∧ TaskStep env s i g b s') ∨
    (a = .cancel ∧ s' = { s with cancelled := true }) ∨
    (∃ d, a = .tick d ∧ s' = { s with clock := s.clock + d }) := by
  cases a with
  | main => exact Or.inl ⟨rfl, mainStep_inv h⟩
  | task i b =>
      obtain ⟨g, hg, h⟩ := Option.bind_eq_some_iff.mp h
      exact Or.inr (Or.inl ⟨i, b, g, rfl, hg, taskStep_inv h⟩)
  | cancel =>
      cases h
      exact Or.inr (Or.inr (Or.inl ⟨rfl, rfl⟩))
  | tick d =>
      cases h
      exact Or.inr (Or.inr (Or.inr ⟨d, rfl, rfl⟩))

end Orchestrator.Proofs
