import Orchestrator.Engine.Report
import Orchestrator.Engine.Spec
import Orchestrator.Engine.Template
import Orchestrator.Lib.Ledger
import Orchestrator.Lib.System

/-!
# `Orchestrator.Engine.Scheduler`: the scheduler (`engine/internal/scheduler/scheduler.go`)

`Scheduler.Run` is one main goroutine and one goroutine per dispatched task. The model is a system
whose steps are the points where they interact:

* `Action.main` is the next step of the main loop. It blocks where `<-doneCh` blocks.
* `Action.task i a` is a step of the `i`-th task goroutine, which runs `executeTask`. Each `select`
  is a choice of label, so any ready case may be taken.
* `Action.cancel` cancels the run context from outside, at any moment.
* `Action.tick d` lets `d` nanoseconds pass.

What lies between two such points touches only the variables of one goroutine, and is one step.

`Execute` is a call of an interface: it starts with `TaskAction.call` and returns, some time later,
whatever result and error the label `TaskAction.ret` carries. A `Limiter` is an interface as well,
given by what one locked section of `AcquireN(ctx, 1)` does. The order in which Go ranges over a map
is a parameter of `Env`, and time passes by labels, so that a theorem about `Env.system` is about
every order and every timing.

`Run` starts with the tables of the scheduler (`children`, `initialIndeg`, `initialReady`), which
the loops over the tasks and their dependencies build. `mainStep` is the main goroutine: it
dispatches the ready tasks, receives a finished span, marks what must be skipped and closes the
report. `taskStep` is a task goroutine: the templates, the slot, then the attempts with their two
tokens, the call, and the pause before a retry.

Fields documented as histories record what happened; no step reads them. The deferred `cancelRun` at
the return of `Run` is left out: no task goroutine is left to see it.
-/

set_option autoImplicit false

namespace Orchestrator.Engine

open Orchestrator.Lib

/-! ### What the executor returns -/

/-- The error of a failed skill call as the client sends it: its kind, its text, and whether another
attempt may help. `executeTask` reads the last of them. -/
structure SkillError where
  type : String
  message : String
  retryable : Bool
deriving DecidableEq

/-- `(*SkillError).Error`. -/
def SkillError.error (e : SkillError) : String := e.type ++ ": " ++ e.message

/-- A decision as the client sends it. Its data is JSON in a text, which `convertDecisions`
decodes. -/
structure WireDecision where
  atMs : Int
  summary : String
  rationale : String
  dataJSON : String
deriving DecidableEq

/-- What the executor returns for one invocation. An attempt has succeeded if neither the executor
nor the result has an error. -/
structure Result where
  invocationID : String := ""
  outputJSON : String := ""
  err : Option SkillError := none
  decisions : List WireDecision := []
  llmUsage : Option LLMUsage := none
  toolCalls : Int := 0
deriving DecidableEq

/-- What the executor is handed to run one skill call. The id names the run, the task and the
attempt, so that an answer can be given to the call it is for. -/
structure Invocation where
  runID : String
  taskID : String
  skill : String
  inputsJSON : String
  attempt : Int
  invocationID : String
deriving DecidableEq

/-- The kinds of event that `emit` is called with. An attempt that fails and is tried again has
none. -/
inductive EventType
  | taskStarted
  | taskSucceeded
  | taskFailed
  | taskSkipped
deriving DecidableEq

/-- An event of the run: what happened to which task, and when. The transports put it on the
wire. -/
structure Event where
  type : EventType
  runID : String
  taskID : String
  atUnixMs : Nat
deriving DecidableEq

/-- `ratelimit.Limiter`, by its construction and by one locked section of `AcquireN(ctx, 1)`
at a given instant: whether the token is granted, and the bucket afterwards. -/
structure Limiter (B : Type) where
  new : (requests : Int) → (per : Duration) → (now : Nat) → B
  tryAcquire : B → (now : Nat) → Bool × B

/-- The arguments of one `Run`, and what it takes from its surroundings: the library, the order in
which maps are ranged over, the limiters, and the instant at which it starts. -/
structure Env (B : Type) where
  wf : Workflow
  runID : String
  inputs : Dict String Json
  lib : GoLib
  iter : MapOrder
  limiter : Limiter B
  /-- The instant at which the run starts, in nanoseconds. -/
  startedAt : Nat

/-! ### State -/

/-- Where a task goroutine is in `executeTask`. A place is a point at which the goroutine can wait
or at which another one can see what it did. -/
inductive TaskPc
  /-- Before `spec.Resolve`. -/
  | resolve
  /-- At the `select` on `ctx.Done()` and the semaphore. -/
  | slot
  /-- In `global.Acquire`, before its locked section. -/
  | global
  /-- In `global.Acquire`, at the `select` on `ctx.Done()` and the timer. -/
  | globalWait
  /-- In `pl.Acquire`, before its locked section. -/
  | provider
  /-- In `pl.Acquire`, at the `select` on `ctx.Done()` and the timer. -/
  | providerWait
  /-- About to call `exec.Execute`. -/
  | call
  /-- In `exec.Execute`. -/
  | exec
  /-- In `sleepWithJitter`. -/
  | sleep
  /-- At the send on `doneCh`. -/
  | send
  | done
deriving DecidableEq

/-- A task goroutine: its arguments and the variables of `executeTask`. The attempt number is
`span.attempts`, since the code raises both together. -/
structure Goroutine where
  task : Task
  /-- `resultSnapshot`. -/
  snapshot : Dict String Json
  pc : TaskPc
  span : TaskSpan
  inputsJSON : String
  /-- `t0`. -/
  startedAt : Nat
  /-- History: the results `Execute` returned, in order. -/
  returned : List Result

/-- Where the main goroutine is in `Run`: at the head of its loop, dispatching, waiting for a span,
draining under `fail_fast`, behind the loop, or at its end. -/
inductive MainPc
  /-- At the condition of the main loop. -/
  | head
  /-- In the inner loop that dispatches the ready tasks. -/
  | dispatch
  /-- At `<-doneCh` in the main loop. -/
  | recv
  /-- At `<-doneCh` in the `fail_fast` drain. -/
  | drain
  /-- After the main loop. -/
  | finish
  | returned (rep : Report)

/-- The variables of the main goroutine. No other goroutine reads or writes them, apart from the
channel `doneCh`. -/
structure Main where
  pc : MainPc
  indeg : String → Int
  ready : List String
  spans : Dict String TaskSpan
  results : Dict String Json
  totals : Totals
  errors : List String
  inFlight : Int
  runFailed : Bool
  /-- History: the spans received in the main loop, in order. -/
  received : List TaskSpan
  /-- History: the spans received in the drain, in order. -/
  drained : List TaskSpan

/-- A call of `Execute`, with the instant it starts. -/
structure Call where
  inv : Invocation
  startedAt : Nat
deriving DecidableEq

/-- The state of a run: both kinds of goroutine, what they share (the slots, the limiters, `doneCh`,
the clock, the run context), and the histories. -/
structure State (B : Type) where
  main : Main
  /-- The events passed to `emit`, oldest first. -/
  emitted : List Event
  /-- The task goroutines, in dispatch order. -/
  gos : List Goroutine
  /-- The buffer of `doneCh`. -/
  doneCh : List TaskSpan
  /-- The occupied slots of `sem`. -/
  sem : Nat
  /-- `runCtx` is done. -/
  cancelled : Bool
  /-- `globalLimiter`; `none` is a `NullBucket`. -/
  globalLimiter : Option B
  /-- `provLimiters`; `none` is a `NullBucket`. -/
  provLimiters : Dict String (Option B)
  clock : Nat
  /-- History: the calls of `Execute`, in order. -/
  calls : List Call

variable {B : Type}

/-- The report, once `Run` has returned it. The goroutines may still be there at this moment. -/
def State.report? (s : State B) : Option Report :=
  match s.main.pc with
  | .returned rep => some rep
  | _ => none

namespace Env

variable (env : Env B)

/-- `children`, as the loop over the tasks and their dependencies builds it: a dependency named
twice gives two edges. -/
def children : String → List String :=
  env.wf.tasks.foldl (fun m t =>
    t.dependsOn.foldl (fun m dep => Function.update m dep (m dep ++ [t.id])) m) (fun _ => [])

/-- `indeg`, as the loop over the tasks builds it: the number of entries of `depends_on`, doubled
ones included. -/
def initialIndeg : String → Int :=
  env.wf.tasks.foldl (fun m t => Function.update m t.id t.dependsOn.length) (fun _ => 0)

/-- The initial ready set. -/
def initialReady : List String :=
  env.wf.tasks.foldl (fun ready t =>
    if env.initialIndeg t.id = 0 then ready ++ [t.id] else ready) []

/-- A limiter for an optional rate limit. -/
def newLimiter (rl : Option RateLimit) : Option B :=
  rl.map (fun rl => env.limiter.new rl.requests rl.per env.startedAt)

/-- The state before the main loop: nothing has started, and the tasks without dependencies are
ready, in the order of the document. -/
def initial : State B where
  main :=
    { pc := .head
      indeg := env.initialIndeg
      ready := env.initialReady
      spans := .empty
      results := .empty
      totals := {}
      errors := []
      inFlight := 0
      runFailed := false
      received := []
      drained := [] }
  emitted := []
  gos := []
  doneCh := []
  sem := 0
  cancelled := false
  globalLimiter := env.newLimiter env.wf.rateLimit
  provLimiters := env.wf.providers.mapValues (fun _ p => env.newLimiter p.rateLimit)
  clock := env.startedAt
  calls := []

/-- `nowMs`. -/
def nowMs (now : Nat) : Nat := now / 1000000

/-- The milliseconds of `time.Since(t0)`. -/
def sinceMs (now t0 : Nat) : Int := ((now - t0) / 1000000 : Nat)

/-- An event for a task. -/
def event (now : Nat) (type : EventType) (taskID : String) : Event :=
  { type := type, runID := env.runID, taskID := taskID, atUnixMs := nowMs now }

/-! ### `executeTask` -/

/-- `buildScope`. -/
def buildScope (inputs results : Dict String Json) : Dict String Json :=
  results.entries.foldl (fun scope e => scope.set e.1 (.obj [("output", e.2)]))
    (Dict.empty.set "input" (.obj inputs.entries))

/-- The goroutine returns from `executeTask` with its span as it stands. -/
def finishSpan (g : Goroutine) (now : Nat) : Goroutine :=
  { g with pc := .send, span := { g.span with durationMs := sinceMs now g.startedAt } }

/-- The goroutine returns a span skipped by cancellation. -/
def skipSpan (g : Goroutine) (now : Nat) : Goroutine :=
  finishSpan { g with span := { g.span with status := .skipped, error := "cancelled" } } now

/-- The head of the attempt loop. `retry.Max+1` is a 64-bit sum: with the largest `max` it is
negative, and no attempt is made. -/
def enterAttempt (g : Goroutine) (attempt : Int) (now : Nat) : Goroutine :=
  -- `attempt <= retry.Max+1`
  if attempt ≤ int64 ((g.task.effectiveRetry env.wf.defaultRetry).max + 1) then
    { g with pc := .slot, span := { g.span with attempts := attempt } }
  else finishSpan g now

/-- From the start of `executeTask` to its first wait. A template that does not resolve ends the
task before it asks for a slot. -/
def resolveInputs (g : Goroutine) (now : Nat) : Goroutine :=
  let scope := buildScope env.inputs g.snapshot
  match resolve env.lib (.obj scope.entries) (.obj g.task.inputs.entries) with
  | .error e =>
    -- This return comes before `t0` is taken, so the span has no duration.
    { g with
        pc := .send
        span := { id := g.task.id, status := .failed, attempts := 1, error := e } }
  | .ok resolved =>
    env.enterAttempt
      { g with
          inputsJSON := env.lib.marshal resolved
          span := { id := g.task.id, status := .failed }
          startedAt := now } 1 now

/-- Where an attempt goes after the global token: to the provider limiter when the provider
has one. -/
def afterGlobal (g : Goroutine) (prov : Dict String (Option B)) : TaskPc :=
  if g.task.provider ≠ "" ∧ prov.contains g.task.provider then .provider else .call

/-- The invocation of an attempt. The number of the attempt is that of the span, which is counted up
before the call. -/
def invocation (g : Goroutine) : Invocation where
  runID := env.runID
  taskID := g.task.id
  skill := g.task.skill
  inputsJSON := g.inputsJSON
  attempt := g.span.attempts
  invocationID := env.runID ++ "-" ++ g.task.id ++ "-" ++ toString g.span.attempts

/-- `convertDecisions`. Data that does not decode is dropped in silence, and the decision stays. -/
def convertDecisions (ds : List WireDecision) : List Decision :=
  ds.map (fun d =>
    { atMs := d.atMs
      summary := d.summary
      rationale := d.rationale
      data := if d.dataJSON ≠ "" then (env.lib.unmarshal d.dataJSON).getD .null else .null })

/-- Merge the decisions and the LLM usage of an attempt into the span. The token counts are `int64`,
and their sums wrap around. -/
def mergeUsage (span : TaskSpan) (res : Result) : TaskSpan :=
  let span := { span with decisions := span.decisions ++ env.convertDecisions res.decisions }
  match res.llmUsage with
  | none => span
  | some u =>
    let llm := span.llm.getD
      { provider := u.provider, model := u.model, tokensIn := 0, tokensOut := 0 }
    { span with
        llm := some { llm with
          tokensIn := int64 (llm.tokensIn + u.tokensIn)
          tokensOut := int64 (llm.tokensOut + u.tokensOut) } }

/-- The output of a successful attempt: decoded, or the raw string when it does not decode. -/
def decodeOutput (outputJSON : String) : Json :=
  if outputJSON ≠ "" then (env.lib.unmarshal outputJSON).getD (.str outputJSON) else .null

/-- From the return of `Execute` to the next wait of the goroutine: the usage is merged, and the
task succeeds, fails, or pauses for another attempt. -/
def afterExecute (g : Goroutine) (res : Result) (execErr : Option String) (now : Nat) :
    Goroutine :=
  let max := (g.task.effectiveRetry env.wf.defaultRetry).max
  let g := { g with span := env.mergeUsage g.span res, returned := g.returned ++ [res] }
  match execErr with
  | some e =>
    -- `execErr` goes before whatever the result says.
    let g := { g with span := { g.span with error := e } }
    if g.span.attempts ≤ max then { g with pc := .sleep } else finishSpan g now
  | none =>
    match res.err with
    | some e =>
      let g := { g with span := { g.span with error := e.error } }
      -- `Retryable` decides nothing: the second test repeats the first.
      let retryable := e.retryable || decide (g.span.attempts ≤ max)
      if retryable = true ∧ g.span.attempts ≤ max then { g with pc := .sleep }
      else finishSpan g now
    | none =>
      finishSpan { g with span := { g.span with
        status := .succeeded, output := env.decodeOutput res.outputJSON } } now

/-! ### The main loop -/

/-- What the main goroutine writes while it handles one message: spans, visited tasks and events. It
is carried through the walk that marks the descendants of a failed task. -/
structure Marks where
  spans : Dict String TaskSpan
  seen : List String
  emitted : List Event

/-- Mark a task as skipped. The span that it gets has no attempts and no error, and its event is
emitted right away. -/
def markSkipped (now : Nat) (m : Marks) (id : String) : Marks where
  spans := m.spans.set id { id := id, status := .skipped }
  seen := id :: m.seen
  emitted := m.emitted ++ [env.event now .taskSkipped id]

/-- `seen[cid] || spans[cid] != nil`. -/
def isMarked (m : Marks) (id : String) : Bool := decide (id ∈ m.seen) || m.spans.contains id

/-- `markDescendantsSkipped`, by its stack. The fuel covers the initial stack and the children of
every task, so the walk never stops early. -/
def markDescendantsSkipped (now : Nat) (fromID : String) (spans : Dict String TaskSpan) : Marks :=
  let stack := (env.children fromID).reverse
  let fuel := stack.length + (env.wf.ids.map (fun id => (env.children id).length)).sum
  walk env.children isMarked (env.markSkipped now) fuel stack
    { spans := spans, seen := [], emitted := [] }

/-- `markAllUndispatchedSkipped`: each task that has no span gets one. A task that is dispatched has
a span already, with a placeholder for its status. -/
def markAllUndispatchedSkipped (now : Nat) (spans : Dict String TaskSpan) : Marks :=
  env.wf.tasks.foldl (fun m t =>
    if m.spans.contains t.id then m else env.markSkipped now m t.id)
    { spans := spans, seen := [], emitted := [] }

/-- Add the usage of a received span to the totals. The sums of tokens wrap around like those of
`int64`. -/
def addTotals (totals : Totals) (span : TaskSpan) : Totals :=
  let totals := { totals with retries := totals.retries + (span.attempts - 1) }
  match span.llm with
  | none => totals
  | some u =>
    { totals with
        llmTokensIn := int64 (totals.llmTokensIn + u.tokensIn)
        llmTokensOut := int64 (totals.llmTokensOut + u.tokensOut) }

/-- The result of one step of the main goroutine: its own state, the events that it emits, and
whether it cancels the context of the run. -/
structure MainStep where
  main : Main
  emitted : List Event := []
  cancel : Bool := false

/-- One round of the main loop after `<-doneCh`: the span is filed, a success releases its children,
and a failure is marked on its descendants or ends the run. `none` is the nil dereference of an
unknown task. -/
def receive (now : Nat) (m : Main) (span : TaskSpan) : Option MainStep :=
  -- A skipped span is announced as a failure.
  let evType : EventType := if span.status ≠ .succeeded then .taskFailed else .taskSucceeded
  let m := { m with
    inFlight := m.inFlight - 1
    spans := m.spans.set span.id span
    totals := addTotals m.totals span
    received := m.received ++ [span] }
  let emitted := [env.event now evType span.id]
  if span.status = .succeeded then
    let released := release (env.children span.id) m.indeg m.ready
    some
      { main := { m with
          pc := .head
          results := m.results.set span.id span.output
          indeg := released.1
          ready := released.2 }
        emitted := emitted }
  else do
    -- `taskMap[span.ID]` is dereferenced.
    let t ← env.wf.taskMap.get? span.id
    let m := { m with errors := m.errors ++ [span.error] }
    if t.effectiveOnError env.wf.defaultOnError = "fail_fast" then
      some
        { main := { m with pc := .drain, runFailed := true }, emitted := emitted, cancel := true }
    else
      let marks := env.markDescendantsSkipped now span.id m.spans
      some
        { main := { m with pc := .head, spans := marks.spans }
          emitted := emitted ++ marks.emitted }

/-- The report, from the end of the main loop to the return of `Run`. The spans come in the order of
the workflow, and the critical path is computed from them. -/
def report (now : Nat) (m : Main) : Report :=
  let status : Status :=
    if m.runFailed then .failed
    else if (env.iter.range m.spans).any (fun e => e.2.status = .failed) then .failed
    else .succeeded
  let output : Json :=
    if status = .succeeded ∧ env.wf.output ≠ "" then
      match resolve env.lib (.obj (buildScope env.inputs m.results).entries)
        (.str env.wf.output) with
      | .ok v => v
      | .error _ => .null
    else .null
  { workflow := env.wf.name
    runID := env.runID
    status := status
    startedAt := env.lib.rfc3339 env.startedAt
    durationMs := sinceMs now env.startedAt
    tasks := env.wf.tasks.filterMap (fun t => m.spans.get? t.id)
    criticalPath := criticalPath env.iter m.spans env.wf.deps
    totals := m.totals
    errors := m.errors
    output := output }

/-! ### Steps -/

/-- A step of a task goroutine. Where it waits in a `select`, each case is a step of its own, and
which of the enabled ones is taken is left to the run. -/
inductive TaskAction
  | resolve
  /-- The `select` takes the case of a free slot. -/
  | takeSlot
  /-- The `select` takes the case of the cancelled context. -/
  | cancelSlot
  /-- A locked section of a limiter. -/
  | acquire
  /-- The timer of a limiter fires. -/
  | timer
  /-- The `select` in a limiter takes the case of the cancelled context. -/
  | cancelWait
  /-- The call of `Execute`. -/
  | call
  /-- The return of `Execute`. -/
  | ret (res : Result) (err : Option String)
  /-- The end of the backoff sleep. -/
  | wake
  /-- The send on `doneCh`. -/
  | send
deriving DecidableEq

/-- A step of the run: the main goroutine, a task goroutine, the outside, or the clock. A run is any
sequence of steps that are enabled, so it stands for one interleaving. -/
inductive Action
  | main
  | task (i : Nat) (a : TaskAction)
  | cancel
  | tick (d : Nat)
deriving DecidableEq

/-- The locked section of a limiter, at the instant of the state. A `NullBucket` grants at once. -/
def tryAcquire (b : Option B) (now : Nat) : Bool × Option B :=
  match b with
  | none => (true, none)
  | some b =>
    let r := env.limiter.tryAcquire b now
    (r.1, some r.2)

/-- Put a goroutine back. -/
def setGo (s : State B) (i : Nat) (g : Goroutine) : State B := { s with gos := s.gos.set i g }

/-- The next step of the main goroutine. It is deterministic: what it waits for is the only thing
the others decide. -/
def mainStep (s : State B) : Option (State B) :=
  match s.main.pc with
  | .head =>
    -- `for len(ready) > 0 || inFlight > 0`
    if s.main.ready ≠ [] ∨ 0 < s.main.inFlight then
      some { s with main := { s.main with pc := .dispatch } }
    else some { s with main := { s.main with pc := .finish } }
  | .dispatch =>
    match s.main.ready with
    | [] => some { s with main := { s.main with pc := .recv } }
    | tid :: rest => do
      -- `dispatch(taskMap[tid], copyMap(results))`
      let t ← env.wf.taskMap.get? tid
      some
        { s with
            main := { s.main with ready := rest, inFlight := s.main.inFlight + 1 }
            emitted := s.emitted ++ [env.event s.clock .taskStarted t.id]
            gos := s.gos ++
              [{ task := t
                 snapshot := s.main.results
                 pc := .resolve
                 span := { id := t.id, status := .failed }
                 inputsJSON := ""
                 startedAt := s.clock
                 returned := [] }] }
  | .recv =>
    match s.doneCh with
    | [] => none
    | span :: rest => do
      let r ← env.receive s.clock s.main span
      some
        { s with
            main := r.main
            doneCh := rest
            emitted := s.emitted ++ r.emitted
            cancelled := s.cancelled || r.cancel }
  | .drain =>
    -- The drain counts no usage and emits no event.
    if 0 < s.main.inFlight then
      match s.doneCh with
      | [] => none
      | span :: rest =>
        some
          { s with
              main := { s.main with
                inFlight := s.main.inFlight - 1
                spans := s.main.spans.set span.id span
                drained := s.main.drained ++ [span] }
              doneCh := rest }
    else
      let marks := env.markAllUndispatchedSkipped s.clock s.main.spans
      some
        { s with
            main := { s.main with pc := .finish, ready := [], spans := marks.spans }
            emitted := s.emitted ++ marks.emitted }
  | .finish =>
    some { s with main := { s.main with pc := .returned (env.report s.clock s.main) } }
  | .returned _ => none

/-- A step of the `i`-th task goroutine. The label says which case of a `select` is taken, and the
step is there only when that case is ready. -/
def taskStep (s : State B) (i : Nat) (g : Goroutine) : TaskAction → Option (State B)
  | .resolve =>
    if g.pc = .resolve then some (setGo s i (env.resolveInputs g s.clock)) else none
  | .takeSlot =>
    if g.pc = .slot ∧ (s.sem : Int) < env.wf.maxParallel then
      some (setGo { s with sem := s.sem + 1 } i { g with pc := .global })
    else none
  | .cancelSlot =>
    if g.pc = .slot ∧ s.cancelled then some (setGo s i (skipSpan g s.clock)) else none
  | .acquire =>
    match g.pc with
    | .global =>
      let r := env.tryAcquire s.globalLimiter s.clock
      let pc := if r.1 then afterGlobal g s.provLimiters else .globalWait
      some (setGo { s with globalLimiter := r.2 } i { g with pc := pc })
    | .provider =>
      match s.provLimiters.get? g.task.provider with
      | none => none
      | some b =>
        let r := env.tryAcquire b s.clock
        let pc := if r.1 then .call else .providerWait
        some (setGo { s with provLimiters := s.provLimiters.set g.task.provider r.2 } i
          { g with pc := pc })
    | _ => none
  | .timer =>
    match g.pc with
    | .globalWait => some (setGo s i { g with pc := .global })
    | .providerWait => some (setGo s i { g with pc := .provider })
    | _ => none
  | .cancelWait =>
    if (g.pc = .globalWait ∨ g.pc = .providerWait) ∧ s.cancelled then
      some (setGo { s with sem := s.sem - 1 } i (skipSpan g s.clock))
    else none
  | .call =>
    if g.pc = .call then
      some (setGo { s with
        calls := s.calls ++ [{ inv := env.invocation g, startedAt := s.clock }] } i
        { g with pc := .exec })
    else none
  | .ret res err =>
    -- The slot is released before the result is looked at.
    if g.pc = .exec then
      some (setGo { s with sem := s.sem - 1 } i (env.afterExecute g res err s.clock))
    else none
  | .wake =>
    if g.pc = .sleep then
      some (setGo s i (env.enterAttempt g (g.span.attempts + 1) s.clock))
    else none
  | .send =>
    if g.pc = .send ∧ s.doneCh.length < env.wf.tasks.length + 4 then
      some (setGo { s with doneCh := s.doneCh ++ [g.span] } i { g with pc := .done })
    else none

/-- A step of the run; `none` if it is not enabled. A goroutine that blocks has no step until what
it waits for is there. -/
def step? (s : State B) : Action → Option (State B)
  | .main => env.mainStep s
  | .task i a => do
    let g ← s.gos[i]?
    env.taskStep s i g a
  | .cancel => some { s with cancelled := true }
  | .tick d => some { s with clock := s.clock + d }

/-- The runs of `Scheduler.Run`. -/
def system : System (State B) Action where
  init := env.initial
  step? := env.step?

end Env

end Orchestrator.Engine
