import Orchestrator.Engine.Report
import Orchestrator.Lib.System
import Orchestrator.Lib.Walk
import Orchestrator.Sdk.RateLimit
import Orchestrator.Sdk.Template

/-!
# `Orchestrator.Sdk.Runner`: the Python scheduler (`sdk-python/orchestrator/engine.py`)

`Orchestrator.run` is one coroutine, and `_execute_task` is one coroutine per dispatched task. An
event loop runs them one at a time: a task coroutine steps only while `run` is suspended in
`asyncio.wait`, or has ended. The steps are

* `Action.main`, the next step of `run` up to its next choice or suspension;
* `Action.wake order`, the return of `asyncio.wait(FIRST_COMPLETED)`: the futures that are done, in
  the order in which `for fut in done` visits the set;
* `Action.coro i a`, a step of the `i`-th task coroutine between two points where it may be
  suspended;
* `Action.threadEnd`, the end of a synchronous handler that nobody awaits any more;
* `Action.cancel`, the cancellation of `run` from outside;
* `Action.tick d`, the passing of `d` nanoseconds.

What a handler returns or raises is a choice of the label (`Outcome`), and it may raise anything:
what the `except` clauses of `_execute_task` let through ends the coroutine. A `SystemExit` or a
`KeyboardInterrupt` does more, since `asyncio` raises it through the event loop. The loop stops, and
all that is left is that `asyncio.run` cancels `run` (`State.stopped`). The length of a sleep is not
modelled: it ends at any later step.

The order of the definitions is that of the source: the critical path, the helpers of the runner,
`_execute_task` in pieces between its suspensions (`startTask`, `enterAttempt`, `afterInvoke` and so
on), then the pieces of `run`, and last the steps that put them together. `Env.coroStep` and
`Env.mainStep` are the only places where the pieces meet.

Fields documented as histories are read by no step.
-/

set_option autoImplicit false

namespace Orchestrator.Sdk.Runner

open Orchestrator.Lib
open Orchestrator.Engine (Status)

/-! ### The report (`report.py`)

The dataclasses with the types of their annotations. `Sdk.Report` has the same classes as
`Report.from_dict` fills them, without a type check. -/

/-- A decision that a skill recorded in its context, with the milliseconds since the start of its
attempt. -/
structure Decision where
  atMs : Int
  summary : String
  rationale : Option String
  data : Json

/-- The usage of one provider and model by a task. Python integers have no bound, so unlike on the
side of Go the sums cannot wrap. -/
structure LlmUsage where
  provider : String
  model : String
  tokensIn : Int
  tokensOut : Int
deriving DecidableEq

/-- What the report says about a task. The runner fills it in as the attempts go by. -/
structure TaskSpan where
  id : String
  status : Status
  durationMs : Int := 0
  attempts : Int := 0
  llm : Option LlmUsage := none
  decisions : List Decision := []
  error : Option String := none
  output : Json := .null
  /-- `_tool_calls`, and 0 where the attribute is not set. -/
  toolCalls : Int := 0

/-- The totals of a run. They add up the spans that `run` processes, so a task whose span is never
processed does not count. -/
structure Totals where
  llmTokensIn : Int := 0
  llmTokensOut : Int := 0
  toolCalls : Int := 0
  retries : Int := 0
deriving DecidableEq

/-- The report of a run, as `run` builds it at its end. The tasks stand in the order of the
workflow, each with the span that was recorded for it. -/
structure Report where
  workflow : String
  runID : String
  status : Status
  startedAt : String
  durationMs : Int
  tasks : List TaskSpan
  criticalPath : List String
  totals : Totals
  errors : List String
  output : Json

/-- `dep in spans and spans[dep].status == "succeeded"`. -/
def hasSucceeded (spans : Dict String TaskSpan) (id : String) : Bool :=
  (spans.get? id).any (fun s => s.status = .succeeded)

/-- `best_cost` and `best_prev`. -/
structure CostTable where
  bestCost : Dict String Int := .empty
  bestPrev : Dict String (Option String) := .empty

/-- `cost` in `compute_critical_path`. The fuel bounds the depth of the recursion; on an acyclic
graph the number of spans is enough. -/
def cost (spans : Dict String TaskSpan) (dependsOn : String → List String) :
    Nat → String → CostTable → Int × CostTable
  | 0, _, table => (0, table)
  | n + 1, node, table =>
    match table.bestCost.get? node with
    | some c => (c, table)
    | none =>
      let own := match spans.get? node with
        | some s => if s.status = .succeeded then s.durationMs else 0
        | none => 0
      let (prevBest, prevNode, table) := (dependsOn node).foldl
        (fun (acc : Int × Option String × CostTable) dep =>
          if hasSucceeded spans dep then
            let (c, table) := cost spans dependsOn n dep acc.2.2
            if c > acc.1 then (c, some dep, table) else (acc.1, acc.2.1, table)
          else acc)
        (0, none, table)
      let total := own + prevBest
      (total,
        { bestCost := table.bestCost.set node total
          bestPrev := table.bestPrev.set node prevNode })

/-- The chain that ends at `node`, read back along `best_prev`. The walk ends at `None`, or at a
task that was never computed. -/
def chainFrom (bestPrev : Dict String (Option String)) : Nat → Option String → List String →
    List String
  | 0, _, chain => chain
  | _ + 1, none, chain => chain
  | n + 1, some node, chain => chainFrom bestPrev n (bestPrev.get? node).join (node :: chain)

/-- `compute_critical_path`. Every succeeded task is a candidate for the end, not only the sinks.
`max` keeps the first of several best ends. -/
def computeCriticalPath (spans : Dict String TaskSpan) (dependsOn : String → List String) :
    List String :=
  let fuel := spans.entries.length + 1
  let succeeded := (spans.entries.filter (fun e => e.2.status = .succeeded)).map (·.1)
  let (best, table) := succeeded.foldl
    (fun (acc : Option (Int × String) × CostTable) id =>
      let (c, table) := cost spans dependsOn fuel id acc.2
      match acc.1 with
      | none => (some (c, id), table)
      | some b => (if c > b.1 then some (c, id) else some b, table))
    (none, {})
  match best with
  | none => []
  | some b => chainFrom table.bestPrev fuel (some b.2) []

/-! ### Handlers (`registry.py`) -/

/-- How a registered handler runs: as a coroutine, or in a thread of the executor. -/
inductive SkillKind
  | async
  | sync
deriving DecidableEq

/-- What a `SkillContext` has collected when its attempt ends. The context is made anew for each
attempt, and the span takes over what it has when the attempt is recorded. -/
structure SkillContext where
  decisions : List Decision := []
  llmUsage : Option LlmUsage := none
  toolCalls : Int := 0

/-- How `_invoke` ends: with an output, with an exception of one of the kinds that are told apart,
or in the end of its coroutine. -/
inductive Outcome
  | returned (output : Json)
  | timeoutError
  | cancelledError
  /-- Any other `Exception`, by the name of its type and its text. -/
  | exception (type message : String)
  /-- An exception that leaves `_execute_task`, by the name of its type: a `BaseException` that is
  no `Exception` and no cancellation, or what `str()` of an `Exception` raises in the clause that
  wants its text (no cancellation either). The flag marks `SystemExit` and `KeyboardInterrupt`. -/
  | uncaught (type : String) (exits : Bool)

/-- The arguments of one `run`, the registry of skills, and what the runtime decides for it. -/
structure Env where
  wf : Workflow
  runID : String
  inputs : Dict String Json
  lib : PyLib
  skills : String → Option SkillKind
  /-- `started_wall.isoformat()`. -/
  startedWall : String
  /-- The monotonic clock at the start, in nanoseconds. -/
  startedAt : Nat

/-! ### State -/

/-- Where a task coroutine is in `_execute_task`. A place is a point at which it may be suspended,
or its end. -/
inductive CoroPc
  /-- Not started yet. -/
  | start
  /-- At `async with sem`. -/
  | slot
  /-- In `global_bucket.acquire`, before a round. -/
  | global
  /-- In the sleep of `global_bucket.acquire`. -/
  | globalSleep
  /-- In `acquire` of the provider's bucket, before a round. -/
  | provider
  /-- In the sleep of `acquire` of the provider's bucket. -/
  | providerSleep
  /-- About to call `_invoke`. -/
  | invoke
  /-- In `_invoke`, waiting for the handler. -/
  | handler
  /-- In `_invoke`, waiting for a future that is never done. -/
  | lost
  /-- In the backoff sleep. -/
  | backoff
  /-- The coroutine returned its span. -/
  | returned
  /-- The coroutine raised. -/
  | raised (e : PyError)
  /-- The coroutine was cancelled outside its `try`. -/
  | cancelled
deriving DecidableEq

/-- A task coroutine: its argument and the variables of `_execute_task`. The attempt number is
`span.attempts`. -/
structure Coro where
  task : Task
  pc : CoroPc
  span : TaskSpan
  resolvedInputs : Json
  lastErr : String
  /-- `t_task`. -/
  startedAt : Nat
  /-- The task was cancelled and has not run since. -/
  cancelRequested : Bool
  /-- History: the contexts of the attempts that ended, in order. -/
  contexts : List SkillContext

/-- The future of the coroutine is done. -/
def CoroPc.isDone : CoroPc → Bool
  | .returned | .raised _ | .cancelled => true
  | _ => false

/-- Where `run` is. It is suspended in the two calls of `asyncio.wait` only, so the other places are
left within one step of the event loop. -/
inductive MainPc
  /-- Before `_validate_inputs`. -/
  | start
  /-- At the condition of the main loop. -/
  | head
  /-- In the inner loop that starts the ready tasks. -/
  | dispatch
  /-- In `asyncio.wait(FIRST_COMPLETED)`. -/
  | wait
  /-- In `for fut in done`, with the futures still to visit. -/
  | process (done : List Nat)
  /-- In the `asyncio.wait` of `fail_fast`. -/
  | cancelWait
  /-- After the main loop. -/
  | finish
  | returned (rep : Report)
  | raised (e : PyError)

/-- The variables of `run`. A future is the index of its coroutine, and the set of the pending ones
is `running`. -/
structure Main where
  pc : MainPc
  indeg : String → Int
  ready : List String
  results : Dict String Json
  spans : Dict String TaskSpan
  totals : Totals
  skipped : List String
  running : List Nat
  runFailed : Bool
  firstError : Option String
  /-- `t0`. -/
  startedAt : Nat
  /-- History: the spans processed, in order. -/
  processed : List TaskSpan

/-- The state of a run: `run`, its coroutines, what they share, and the histories. -/
structure State where
  main : Main
  /-- The task coroutines, in the order of their start. -/
  coros : List Coro
  /-- The value of the semaphore. -/
  sem : Int
  /-- `global_bucket`; `none` is a `NullBucket`. -/
  globalBucket : Option TokenBucket
  /-- `prov_req`; `none` is a `NullBucket`. -/
  provReq : Dict String (Option TokenBucket)
  /-- `_current_inputs` of the `Orchestrator`. -/
  currentInputs : Dict String Json
  /-- The handlers that are executing: coroutine and attempt. -/
  executing : List (Nat × Int)
  clock : Nat

/-- A handler has raised through the event loop. -/
def CoroPc.exited : CoroPc → Bool
  | .raised (.exit _) => true
  | _ => false

/-- The report, once `run` has returned it. A run that has raised has none. -/
def State.report? (s : State) : Option Report :=
  match s.main.pc with
  | .returned rep => some rep
  | _ => none

/-- `run` has returned or raised. -/
def MainPc.isEnded : MainPc → Bool
  | .returned _ | .raised _ => true
  | _ => false

/-- The event loop has stopped under `run`. -/
def State.stopped (s : State) : Bool :=
  !s.main.pc.isEnded && s.coros.any fun c => c.pc.exited

/-- The task coroutines may run: `run` is suspended or has ended. -/
def MainPc.yields : MainPc → Bool
  | .wait | .cancelWait => true
  | pc => pc.isEnded

/-- The retry policy of a task. -/
def effectiveRetry (wf : Workflow) (t : Task) : Retry :=
  (t.retry.orElse (fun _ => wf.defaultRetry)).getD {}

/-- The timeout of a task. -/
def effectiveTimeout (wf : Workflow) (t : Task) : Option ℚ :=
  t.timeout.orElse (fun _ => wf.defaultTimeout)

/-- `task.on_error or workflow.default_on_error`. -/
def effectiveOnError (wf : Workflow) (t : Task) : String :=
  let onError := t.onError.getD ""
  if onError ≠ "" then onError else wf.defaultOnError

/-- `_backoff`, up to the random factor of the jitter. Python converts the integer power to a
float, which holds no number from `2 ^ 1024` on. -/
def backoff (retry : Retry) (attempt : Int) : Except PyError ℚ :=
  if retry.backoff = "none" then .ok 0
  else if retry.backoff = "fixed" then .ok retry.base
  else
    let exponent := (attempt - 1).toNat
    if 1024 ≤ exponent then .error .overflowError else .ok (retry.base * 2 ^ exponent)

/-- `_validate_inputs`. Only the presence of the required inputs is checked, in the order of the
schema; types and defaults are not looked at. -/
def validateInputs (lib : PyLib) (wf : Workflow) (inputs : Dict String Json) :
    Except PyError Unit :=
  wf.inputsSchema.entries.forM (fun e => do
    let required ← pyGet e.2 "required" .null
    if truthy required ∧ inputs.contains e.1 = false then
      .error (.valueError ("missing required input: " ++ lib.repr (.str e.1))))

/-- The milliseconds between two instants. -/
def sinceMs (now t0 : Nat) : Int := ((now - t0) / 1000000 : Nat)

/-- The scope of the templates: `{"input": ..., **{tid: {"output": out} ...}}`. -/
def templateScope (inputs results : Dict String Json) : Dict String Json :=
  results.entries.foldl (fun scope e => scope.set e.1 (.obj [("output", e.2)]))
    (Dict.empty.set "input" (.obj inputs.entries))

namespace Env

variable (env : Env)

/-! ### `_execute_task` -/

/-- The coroutine returns its span. -/
def returnSpan (c : Coro) (now : Nat) : Coro :=
  { c with pc := .returned, span := { c.span with durationMs := sinceMs now c.startedAt } }

/-- `except asyncio.CancelledError`: the cancellation is caught and the task returns a span that
says so. -/
def skipSpan (c : Coro) (now : Nat) : Coro :=
  returnSpan { c with
    cancelRequested := false
    span := { c.span with status := .skipped, error := some "cancelled" } } now

/-- After the attempt loop. -/
def failSpan (c : Coro) (now : Nat) : Coro :=
  returnSpan { c with span := { c.span with status := .failed, error := some c.lastErr } } now

/-- The head of the attempt loop: another attempt is made while there are some left, and the task
fails otherwise. -/
def enterAttempt (c : Coro) (attempt : Int) (now : Nat) : Coro :=
  if attempt < (effectiveRetry env.wf c.task).max + 2 then
    { c with pc := .slot, span := { c.span with attempts := attempt } }
  else failSpan c now

/-- From the start of `_execute_task` to its first suspension. The inputs are resolved here, outside
of the `try`, so an error of a template goes to the future instead of the span. -/
def startTask (c : Coro) (currentInputs results : Dict String Json) (now : Nat) : Coro :=
  let scope := templateScope currentInputs results
  match resolveTemplate env.lib (.obj scope.entries) (.obj c.task.inputs.entries) with
  | .error e => { c with pc := .raised e }
  | .ok resolved =>
    env.enterAttempt
      { c with
          resolvedInputs := resolved
          span := { id := c.task.id, status := .failed }
          lastErr := "unknown error"
          startedAt := now } 1 now

/-- Where an attempt goes after the global bucket. -/
def afterGlobal (c : Coro) : CoroPc :=
  if c.task.provider.getD "" ≠ "" then .provider else .invoke

/-- The context of an attempt in the span. An attempt that ends in an exception is recorded as well,
a cancelled one is not. -/
def recordContext (c : Coro) (ctx : SkillContext) : Coro :=
  { c with
      span := { c.span with
        decisions := ctx.decisions
        llm := ctx.llmUsage
        toolCalls := ctx.toolCalls }
      contexts := c.contexts ++ [ctx] }

/-- An attempt ends in an exception other than a cancellation. If it was the last one, the span
fails with its error. If not, the coroutine sleeps, and a backoff that `asyncio.sleep` cannot take
raises. -/
def failAttempt (c : Coro) (ctx : SkillContext) (lastErr : String) (now : Nat) : Coro :=
  let retry := effectiveRetry env.wf c.task
  let c := recordContext { c with lastErr := lastErr, cancelRequested := false } ctx
  if c.span.attempts ≤ retry.max then
    match backoff retry c.span.attempts with
    | .ok _ => { c with pc := .backoff }
    | .error e => { c with pc := .raised e }
  else failSpan c now

/-- `last_err` after a timeout. -/
def timeoutErr (t : Task) : String :=
  s!"timeout after {env.lib.repr (jsonOpt (fun q => .num (.float q)) (effectiveTimeout env.wf t))}s"

/-- From the end of `_invoke` to the next suspension: the task succeeds, fails, or goes to sleep
before another attempt. -/
def afterInvoke (c : Coro) (ctx : SkillContext) (out : Outcome) (now : Nat) : Coro :=
  match out with
  | .returned output =>
    -- A handler that returns although it was cancelled clears the request.
    let c := recordContext { c with cancelRequested := false } ctx
    returnSpan { c with span := { c.span with status := .succeeded, output := output } } now
  | .timeoutError => env.failAttempt c ctx (env.timeoutErr c.task) now
  | .cancelledError => skipSpan { c with contexts := c.contexts ++ [ctx] } now
  | .exception type message => env.failAttempt c ctx (type ++ ": " ++ message) now
  | .uncaught type exits =>
    { c with
        pc := .raised (if exits then .exit type else .uncaught type)
        cancelRequested := false
        contexts := c.contexts ++ [ctx] }

/-- `last_err` when `get_skill` finds no handler. The text of a `KeyError` is the `repr` of its
argument. -/
def noSkillErr (t : Task) : String :=
  "KeyError: " ++ env.lib.repr (.str ("no skill registered for " ++ env.lib.repr (.str t.skill)))

/-- `last_err` for an exception of a bucket. -/
def bucketErr : PyError → String
  | .valueError msg => "ValueError: " ++ msg
  | _ => ""

/-! ### `run` -/

/-- `children`, as the loop over the tasks and their dependencies builds it. -/
def children : String → List String :=
  env.wf.tasks.foldl (fun m t =>
    t.dependsOn.foldl (fun m dep => Function.update m dep (m dep ++ [t.id])) m) (fun _ => [])

/-- `indeg`, as the loop over the tasks builds it. -/
def initialIndeg : String → Int :=
  env.wf.tasks.foldl (fun m t => Function.update m t.id t.dependsOn.length) (fun _ => 0)

/-- The initial `ready`. -/
def initialReady : List String := env.wf.ids.filter (fun id => env.initialIndeg id = 0)

/-- A bucket for each provider, in the order of the workflow. The first one that cannot be built
ends the run before it starts. -/
def providerBuckets (bucket : String → Provider → Except PyError (Option TokenBucket)) :
    Except PyError (Dict String (Option TokenBucket)) :=
  env.wf.providers.entries.foldlM (fun d e => do
    let b ← bucket e.1 e.2
    .ok (d.set e.1 b)) .empty

/-- The checks and the buckets of `run`, up to its semaphore. The token buckets of the
providers are built and never used. -/
def prepare (now : Nat) :
    Except PyError (Option TokenBucket × Dict String (Option TokenBucket)) := do
  validateInputs env.lib env.wf env.inputs
  let globalBucket ← bucketFor env.wf.rateLimit "global" now
  let provReq ← env.providerBuckets (fun n p => bucketFor p.rateLimit (n ++ ".req") now)
  let _ ← env.providerBuckets (fun n p => tokenBucketFor p.rateLimit (n ++ ".tok") now)
  if env.wf.maxParallel < 0 then .error (.valueError "Semaphore initial value must be >= 0")
  .ok (globalBucket, provReq)

/-- The variables of `run` before the main loop: no task has started, and those without dependencies
are ready. -/
def initialMain (now : Nat) : Main where
  pc := .head
  indeg := env.initialIndeg
  ready := env.initialReady
  results := .empty
  spans := .empty
  totals := {}
  skipped := []
  running := []
  runFailed := false
  firstError := none
  startedAt := now
  processed := []

/-- The state before `run`. The buckets and the slots come into being with its first step, so the
values that they have here are never read. -/
def initial : State where
  main := { env.initialMain env.startedAt with pc := .start }
  coros := []
  sem := 0
  globalBucket := none
  provReq := .empty
  currentInputs := .empty
  executing := []
  clock := env.startedAt

/-- What `mark_descendants_skipped` writes. -/
structure Marks where
  spans : Dict String TaskSpan
  skipped : List String

/-- Mark a task as skipped. -/
def markSkipped (m : Marks) (id : String) : Marks where
  spans := m.spans.set id { id := id, status := .skipped }
  skipped := id :: m.skipped

/-- `cid in skipped or cid in spans`. -/
def isMarked (m : Marks) (id : String) : Bool := decide (id ∈ m.skipped) || m.spans.contains id

/-- `mark_descendants_skipped`. The fuel covers the initial stack and the children of every task,
which is all that is ever pushed (`walk_spec`). -/
def markDescendantsSkipped (start : String) (m : Marks) : Marks :=
  let stack := (env.children start).reverse
  let fuel := stack.length + (env.wf.ids.map (fun id => (env.children id).length)).sum
  walk env.children isMarked markSkipped fuel stack m

/-- Everything not yet terminal is skipped: each task without a span gets one, at the end of the
run. -/
def skipRest (spans : Dict String TaskSpan) : Dict String TaskSpan :=
  env.wf.taskMap.keys.foldl (fun spans other =>
    if spans.contains other then spans else spans.set other { id := other, status := .skipped })
    spans

/-- The loop over the children of a succeeded task. A child is taken off once for each entry of its
list of dependencies, and one that was skipped in the meantime does not become ready. -/
def releaseChildren (skipped cs : List String) (indeg : String → Int) (ready : List String) :
    (String → Int) × List String :=
  cs.foldl (fun p c =>
    let n := p.1 c - 1
    (Function.update p.1 c n, if n = 0 ∧ c ∉ skipped then p.2 ++ [c] else p.2)) (indeg, ready)

/-- Add the usage of a span to the totals. A span with no attempt has no retries, so the count never
goes down. -/
def addTotals (totals : Totals) (span : TaskSpan) : Totals :=
  { llmTokensIn := totals.llmTokensIn + (span.llm.map (·.tokensIn)).getD 0
    llmTokensOut := totals.llmTokensOut + (span.llm.map (·.tokensOut)).getD 0
    toolCalls := totals.toolCalls + span.toolCalls
    retries := totals.retries + max 0 (span.attempts - 1) }

/-- Record the span that the future of a task returned. Whatever `run` learns about a task, it
learns from this span. -/
def recordSpan (m : Main) (tid : String) (span : TaskSpan) : Main :=
  { m with
      spans := m.spans.set tid span
      totals := addTotals m.totals span
      processed := m.processed ++ [span] }

/-- `f.cancel()`. A done future ignores it. -/
def cancelCoro (running : List Nat) (i : Nat) (c : Coro) : Coro :=
  if i ∈ running ∧ c.pc.isDone = false then { c with cancelRequested := true } else c

/-- The end of the `fail_fast` branch, after its `asyncio.wait`. -/
def abandon (m : Main) : Main :=
  { m with pc := .finish, running := [], ready := [], spans := env.skipRest m.spans }

/-- The body of `for fut in done` after `fut.result()`, for a span of the task `tid`. `m` are the
variables of `run` after `running.pop(fut)`. `none` is the `KeyError` of an unknown task. -/
def processSpan (s : State) (m : Main) (tid : String) (span : TaskSpan) (rest : List Nat) :
    Option State :=
  let m := recordSpan m tid span
  if span.status = .succeeded then
    let released := releaseChildren m.skipped (env.children tid) m.indeg m.ready
    some { s with main := { m with
      pc := .process rest
      results := m.results.set tid span.output
      indeg := released.1
      ready := released.2 } }
  else do
    -- `task_map[tid]`
    let t ← env.wf.taskMap.get? tid
    let m : Main := { m with firstError := m.firstError.orElse (fun _ => span.error) }
    if effectiveOnError env.wf t = "fail_fast" then
      let m : Main := { m with runFailed := true }
      -- `asyncio.wait` on nothing is skipped.
      if m.running = [] then some { s with main := env.abandon m }
      else
        some { s with
          main := { m with pc := .cancelWait }
          coros := s.coros.mapIdx (cancelCoro m.running) }
    else
      let marks := env.markDescendantsSkipped tid { spans := m.spans, skipped := m.skipped }
      some { s with main := { m with
        pc := .process rest, spans := marks.spans, skipped := marks.skipped } }

/-- The body of `for fut in done` for the future of the `i`-th coroutine. -/
def processFuture (s : State) (i : Nat) (rest : List Nat) : Option State := do
  let c ← s.coros[i]?
  let m := { s.main with running := s.main.running.erase i }
  match c.pc with
  | .returned => env.processSpan s m c.task.id c.span rest
  | .raised e => some { s with main := { m with pc := .raised e } }
  | .cancelled => some { s with main := { m with pc := .raised .cancelledError } }
  | _ => none

/-- The report, from the end of the main loop to the return of `run`. -/
def report (now : Nat) (m : Main) : Report :=
  let status : Status :=
    if m.runFailed ∨ m.spans.entries.any (fun e => e.2.status = .failed) then .failed
    else .succeeded
  let template := env.wf.output.getD ""
  let output : Json :=
    if status = .succeeded ∧ template ≠ "" then
      let scope := templateScope env.inputs m.results
      match resolveTemplate env.lib (.obj scope.entries) (.str template) with
      | .ok v => v
      | .error _ => .null
    else .null
  { workflow := env.wf.name
    runID := env.runID
    status := status
    startedAt := env.startedWall
    durationMs := sinceMs now m.startedAt
    tasks := env.wf.tasks.filterMap (fun t => m.spans.get? t.id)
    criticalPath := computeCriticalPath m.spans env.wf.deps
    totals := m.totals
    errors := if m.firstError.getD "" ≠ "" then [m.firstError.getD ""] else []
    output := output }

/-! ### Steps -/

/-- A step of a task coroutine, from one suspension to the next. Coroutines share one thread, so
nothing happens in between. -/
inductive CoroAction
  | start
  | acquireSlot
  /-- A round of `acquire` of a bucket. -/
  | acquire
  /-- The end of the sleep of a bucket. -/
  | timer
  /-- The call of `_invoke`. -/
  | invoke
  /-- The end of the handler. -/
  | finish (ctx : SkillContext) (out : Outcome)
  /-- A synchronous handler ends in `StopIteration`. Before Python 3.12 no future takes it, and the
  one of the handler is never done. Since then it is a `RuntimeError`. -/
  | lose
  /-- `asyncio.wait_for` times out. -/
  | timeout (ctx : SkillContext)
  /-- The end of the backoff sleep. -/
  | wake
  /-- The coroutine gets the `CancelledError` that was requested. The context is the one of the
  handler it waits for, if any. -/
  | cancel (ctx : SkillContext)

/-- A step of the run. The event loop decides which suspended coroutine goes on, and `wake` says in
which order the set of done futures is visited. -/
inductive Action
  | main
  | wake (order : List Nat)
  | coro (i : Nat) (a : CoroAction)
  | threadEnd (i : Nat) (attempt : Int)
  | cancel
  | tick (d : Nat)

/-- Put a coroutine back. -/
def setCoro (s : State) (i : Nat) (c : Coro) : State := { s with coros := s.coros.set i c }

/-- One round of `acquire`. A `NullBucket` grants at once. A bucket may refuse, and the coroutine
then sleeps and tries again. -/
def acquireRound (b : Option TokenBucket) (now : Nat) :
    Except PyError (Bool × Option TokenBucket) :=
  match b with
  | none => .ok (true, none)
  | some b => (b.acquire env.lib 1 now).map (fun r => (r.1, some r.2))

/-- The provider's bucket after a round. -/
def putBucket (provReq : Dict String (Option TokenBucket)) (name : String)
    (b : Option TokenBucket) : Dict String (Option TokenBucket) :=
  if provReq.contains name then provReq.set name b else provReq

/-- The next step of `run`. It starts a coroutine for every ready task and then waits; the semaphore
is left to the coroutines. -/
def mainStep (s : State) : Option State :=
  match s.main.pc with
  | .start =>
    -- `self._current_inputs` is set before anything can fail.
    let s := { s with currentInputs := env.inputs }
    match env.prepare s.clock with
    | .error e => some { s with main := { s.main with pc := .raised e } }
    | .ok buckets =>
      some { s with
        main := env.initialMain s.clock
        sem := env.wf.maxParallel
        globalBucket := buckets.1
        provReq := buckets.2 }
  | .head =>
    if s.main.ready ≠ [] ∨ s.main.running ≠ [] then
      some { s with main := { s.main with pc := .dispatch } }
    else some { s with main := { s.main with pc := .finish } }
  | .dispatch =>
    match s.main.ready with
    | [] =>
      if s.main.running = [] then some { s with main := { s.main with pc := .finish } }
      else some { s with main := { s.main with pc := .wait } }
    | tid :: rest =>
      -- A task skipped while it was in `ready` is dropped here.
      if tid ∈ s.main.skipped then some { s with main := { s.main with ready := rest } }
      else do
        let t ← env.wf.taskMap.get? tid
        some { s with
          main := { s.main with ready := rest, running := s.main.running ++ [s.coros.length] }
          coros := s.coros ++
            [{ task := t
               pc := .start
               span := { id := t.id, status := .failed }
               resolvedInputs := .null
               lastErr := ""
               startedAt := s.clock
               cancelRequested := false
               contexts := [] }] }
  | .process [] => some { s with main := { s.main with pc := .head } }
  | .process (i :: rest) => env.processFuture s i rest
  | .cancelWait =>
    -- `return_when` is `ALL_COMPLETED`.
    if s.main.running.all (fun i => (s.coros[i]?).any (fun c => c.pc.isDone)) then
      some { s with main := env.abandon s.main }
    else none
  | .finish =>
    some { s with main := { s.main with pc := .returned (env.report s.clock s.main) } }
  | .wait | .returned _ | .raised _ => none

/-- The futures that are done, among those `run` waits for. -/
def doneFutures (s : State) : List Nat :=
  s.main.running.filter (fun i => (s.coros[i]?).any (fun c => c.pc.isDone))

/-- `asyncio.wait` returns. It does so once some future is done, and then it hands over all that
are. -/
def wakeStep (s : State) (order : List Nat) : Option State :=
  match s.main.pc with
  | .wait =>
    -- The set of done futures is visited in any order.
    if order ≠ [] ∧ order.Perm (doneFutures s) then
      some { s with main := { s.main with pc := .process order } }
    else none
  | _ => none

/-- The handlers that go on executing when coroutine `i` stops waiting for its own: all others,
and its own when it runs in a thread. -/
def leaveHandler (s : State) (i : Nat) (c : Coro) : List (Nat × Int) :=
  if env.skills c.task.skill = some .sync then s.executing
  else s.executing.erase (i, c.span.attempts)

/-- A step of the `i`-th task coroutine, from one suspension to the next. The label says what its
wait came to. -/
def coroStep (s : State) (i : Nat) (c : Coro) : CoroAction → Option State
  | .start =>
    if c.pc = .start ∧ c.cancelRequested = false then
      some (setCoro s i (env.startTask c s.currentInputs s.main.results s.clock))
    else none
  | .acquireSlot =>
    if c.pc = .slot ∧ c.cancelRequested = false ∧ 0 < s.sem then
      some (setCoro { s with sem := s.sem - 1 } i { c with pc := .global })
    else none
  | .acquire =>
    if c.cancelRequested then none
    else
      match c.pc with
      | .global =>
        match env.acquireRound s.globalBucket s.clock with
        | .error e =>
          some (setCoro { s with sem := s.sem + 1 } i
            (env.failAttempt c {} (bucketErr e) s.clock))
        | .ok r =>
          let pc := if r.1 then afterGlobal c else .globalSleep
          some (setCoro { s with globalBucket := r.2 } i { c with pc := pc })
      | .provider =>
        let name := c.task.provider.getD ""
        match env.acquireRound (s.provReq.get? name).join s.clock with
        | .error e =>
          some (setCoro { s with sem := s.sem + 1 } i
            (env.failAttempt c {} (bucketErr e) s.clock))
        | .ok r =>
          let pc := if r.1 then .invoke else .providerSleep
          some (setCoro { s with provReq := putBucket s.provReq name r.2 } i { c with pc := pc })
      | _ => none
  | .timer =>
    if c.cancelRequested then none
    else
      match c.pc with
      | .globalSleep => some (setCoro s i { c with pc := .global })
      | .providerSleep => some (setCoro s i { c with pc := .provider })
      | _ => none
  | .invoke =>
    if c.pc = .invoke ∧ c.cancelRequested = false then
      match env.skills c.task.skill with
      | none =>
        some (setCoro { s with sem := s.sem + 1 } i
          (env.failAttempt c {} (env.noSkillErr c.task) s.clock))
      | some _ =>
        some (setCoro { s with executing := s.executing ++ [(i, c.span.attempts)] } i
          { c with pc := .handler })
    else none
  | .finish ctx out =>
    -- A coroutine handler may catch its cancellation. A thread gives no result any more.
    if c.pc = .handler ∧
        (c.cancelRequested = false ∨ env.skills c.task.skill = some .async) then
      some (setCoro { s with
        sem := s.sem + 1
        executing := s.executing.erase (i, c.span.attempts) } i
        (env.afterInvoke c ctx out s.clock))
    else none
  | .lose =>
    if c.pc = .handler ∧ c.cancelRequested = false ∧ env.skills c.task.skill = some .sync then
      some (setCoro { s with executing := s.executing.erase (i, c.span.attempts) } i
        { c with pc := .lost })
    else none
  | .timeout ctx =>
    if (c.pc = .handler ∨ c.pc = .lost) ∧ c.cancelRequested = false ∧
        (effectiveTimeout env.wf c.task).isSome then
      some (setCoro { s with sem := s.sem + 1, executing := env.leaveHandler s i c } i
        (env.afterInvoke c ctx .timeoutError s.clock))
    else none
  | .wake =>
    if c.pc = .backoff ∧ c.cancelRequested = false then
      some (setCoro s i (env.enterAttempt c (c.span.attempts + 1) s.clock))
    else none
  | .cancel ctx =>
    if c.cancelRequested then
      match c.pc with
      -- Outside the `try` nothing catches the cancellation.
      | .start | .backoff => some (setCoro s i { c with pc := .cancelled })
      | .slot => some (setCoro s i (skipSpan c s.clock))
      | .handler | .lost =>
        some (setCoro { s with sem := s.sem + 1, executing := env.leaveHandler s i c } i
          (skipSpan { c with contexts := c.contexts ++ [ctx] } s.clock))
      -- `async with sem` releases the slot on the way out.
      | .global | .globalSleep | .provider | .providerSleep | .invoke =>
        some (setCoro { s with sem := s.sem + 1 } i (skipSpan c s.clock))
      | .returned | .raised _ | .cancelled => none
    else none

/-- A thread is left to itself: no coroutine waits for this attempt of its handler. -/
def isOrphan (s : State) (i : Nat) (attempt : Int) : Bool :=
  (i, attempt) ∈ s.executing ∧
    (s.coros[i]?).all (fun c => c.pc ≠ .handler ∨ c.span.attempts ≠ attempt)

/-- A step of the run, while the event loop runs. A coroutine moves only while `run` is suspended,
and a thread that was given up may end at any time. -/
def loopStep (s : State) : Action → Option State
  | .main => env.mainStep s
  | .wake order => wakeStep s order
  | .coro i a => do
    let c ← s.coros[i]?
    if s.main.pc.yields then env.coroStep s i c a else none
  | .threadEnd i attempt =>
    if isOrphan s i attempt then
      some { s with executing := s.executing.erase (i, attempt) }
    else none
  | .cancel =>
    match s.main.pc with
    -- `run` is suspended only in its two calls of `asyncio.wait`.
    | .wait | .cancelWait => some { s with main := { s.main with pc := .raised .cancelledError } }
    | _ => none
  | .tick d => some { s with clock := s.clock + d }

/-- The step is possible when the event loop has stopped. -/
def Action.outside : Action → Bool
  | .threadEnd _ _ | .cancel | .tick _ => true
  | _ => false

/-- A step of the run. -/
def step? (s : State) (a : Action) : Option State :=
  if s.stopped && !a.outside then none else env.loopStep s a

/-- The runs of `Orchestrator.run`. -/
def system : System State Action where
  init := env.initial
  step? := env.step?

end Env

end Orchestrator.Sdk.Runner
