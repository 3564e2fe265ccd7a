import Mathlib.Data.Rat.Defs
import Orchestrator.Engine.GoLib
import Orchestrator.Lib.Dfs

/-!
# `Orchestrator.Engine.Spec`: the workflow model (`engine/internal/spec/spec.go`)

The typed workflow, the fallback of a task's policies to the workflow defaults, `Validate` with its
three-colour cycle search, and the part of `Parse` that follows the JSON decoding. A pointer is an
`Option`. Durations are seconds, taken as exact rationals; where the engine rounds them is the
affair of the modules that compute with them.

`Validate` checks that ids are distinct, that dependencies and providers are declared, and that
there is no cycle. It reads no template, no retry limit and no rate limit, and does not look at the
other rules of the schema.

`Parse` checks the name and the tasks, fills in the defaults and validates. The elements of
`providers` and `tasks` are pointers in the source, and the decoder leaves nil for a `null` there.
So the loops that dereference them can panic, and `ParseFailure` keeps that apart from an error.
Which of the two happens first is a matter of the order of the loops: a pair of tasks with one id
before the nil entry is reported as such.

`MapOrder` is the order of `range` over a map. The cycle search starts from the ids in that order,
so the text of its error may depend on it, and the verdict does not.
-/

set_option autoImplicit false

namespace Orchestrator.Engine

open Orchestrator.Lib

/-- Seconds. -/
abbrev Duration := ℚ

/-- `RateLimit`: a number of requests in a period, and a limit on tokens that no code of the engine
reads. -/
structure RateLimit where
  requests : Int
  per : Duration
  tokens : Int
  perTokens : Option Duration
deriving DecidableEq

/-- `Retry`: how often a failed attempt is repeated, and how long the engine sleeps in between. -/
structure Retry where
  max : Int
  /-- `none`, `fixed`, or anything else for exponential. -/
  backoff : String
  base : Duration
  jitter : Bool
deriving DecidableEq

/-- `DefaultRetry`. -/
def defaultRetry : Retry := { max := 0, backoff := "exponential", base := 1 / 2, jitter := true }

/-- `Provider`, with its own rate limit if it has one. -/
structure Provider where
  name : String
  rateLimit : Option RateLimit
deriving DecidableEq

/-- `InputSpec`: the declaration of a run input. The type is kept and checked nowhere. -/
structure InputSpec where
  type : String
  required : Bool
  default : Json

/-- `Task`, as `Parse` returns it. What is missing in the document is empty or nil here; the
defaults of the workflow are put in when the task runs. -/
structure Task where
  id : String
  skill : String
  /-- Empty when the task names no provider. -/
  provider : String
  dependsOn : List String
  inputs : Dict String Json
  retry : Option Retry
  timeout : Option Duration
  /-- `fail_fast`, `continue`, or empty for the workflow default. -/
  onError : String
  idempotent : Bool

/-- The task's retry policy, falling back to the workflow default. -/
def Task.effectiveRetry (t : Task) (dflt : Retry) : Retry := t.retry.getD dflt

/-- The task's timeout, falling back to the workflow default. -/
def Task.effectiveTimeout (t : Task) (dflt : Option Duration) : Option Duration :=
  if t.timeout.isSome then t.timeout else dflt

/-- The task's error policy, falling back to the workflow default. -/
def Task.effectiveOnError (t : Task) (dflt : String) : String :=
  if t.onError ≠ "" then t.onError else dflt

/-- `Workflow`: a parsed workflow, with its defaults filled in. The types allow more than `Parse`
returns; `Accepted` says what it checks. -/
structure Workflow where
  name : String
  version : Int
  maxParallel : Int
  rateLimit : Option RateLimit
  providers : Dict String Provider
  defaultRetry : Retry
  defaultTimeout : Option Duration
  defaultOnError : String
  inputsSchema : Dict String InputSpec
  tasks : List Task
  output : String

namespace Workflow

/-- `TaskMap`: the tasks by id. Of several tasks with one id the last one is there, but `Validate`
lets no such workflow pass. -/
def taskMap (w : Workflow) : Dict String Task :=
  w.tasks.foldl (fun m t => m.set t.id t) Dict.empty

/-- The task ids in spec order. -/
def ids (w : Workflow) : List String := w.tasks.map (·.id)

/-- The `map[string][]string` from a task id to its dependencies, as `detectCycle` and `Run`
build it. A missing key reads as the empty list. -/
def dependsOnMap (w : Workflow) : Dict String (List String) :=
  w.tasks.foldl (fun m t => m.set t.id t.dependsOn) Dict.empty

/-- The dependencies of a task id. -/
def deps (w : Workflow) (id : String) : List String := (w.dependsOnMap.get? id).getD []

end Workflow

/-! ### Validation -/

/-- The errors of `Parse` and `Validate`, with the names that their texts mention.
`Orchestrator.Engine.Main` has the texts. -/
inductive SpecError
  /-- `spec parse error: ...` -/
  | decode (msg : String)
  /-- `spec: workflow.name is required` -/
  | nameRequired
  /-- `spec: workflow.tasks must have at least one task` -/
  | noTasks
  /-- `spec: duplicate task id %q` -/
  | duplicateId (id : String)
  /-- `spec: task %q depends on unknown task %q` -/
  | unknownDependency (task dep : String)
  /-- `spec: task %q references unknown provider %q` -/
  | unknownProvider (task provider : String)
  /-- `spec: dependency cycle detected at %q → %q` -/
  | cycle (node dep : String)
  /-- The recursion of the cycle search ran out of stack. -/
  | stackOverflow
deriving DecidableEq

/-- The first loop of `Validate`: no id occurs twice. `ids` holds the ids seen so far. -/
def checkIds : List Task → List String → Except SpecError (List String)
  | [], ids => .ok ids
  | t :: rest, ids =>
    if t.id ∈ ids then .error (.duplicateId t.id) else checkIds rest (t.id :: ids)

/-- The inner loop of `Validate`: each dependency is a task. A dependency may be listed twice, and
on the task itself it is left to the search for cycles. -/
def checkDeps (ids : List String) (t : Task) : List String → Except SpecError Unit
  | [] => .ok ()
  | dep :: rest =>
    if dep ∈ ids then checkDeps ids t rest else .error (.unknownDependency t.id dep)

/-- The second loop of `Validate`: dependencies and providers are declared. The first task in the
document that violates it is the one named in the error. -/
def checkTasks (w : Workflow) (ids : List String) : List Task → Except SpecError Unit
  | [] => .ok ()
  | t :: rest => do
    checkDeps ids t t.dependsOn
    if t.provider ≠ "" ∧ w.providers.contains t.provider = false then
      .error (.unknownProvider t.id t.provider)
    checkTasks w ids rest

/-- `detectCycle`: a depth-first search from each node, in the order of the map. The fuel is
one more than the number of nodes, which no chain of white nodes exceeds. -/
def Workflow.detectCycle (w : Workflow) (iter : MapOrder) : Except SpecError Unit :=
  match visitAll w.deps (w.tasks.length + 1) (iter.order w.dependsOnMap.keys)
      (fun _ => .white) with
  | .ok _ => .ok ()
  | .error (.cycle node dep) => .error (.cycle node dep)
  | .error .outOfFuel => .error .stackOverflow

/-- `Validate`. The cycle search comes last, so its graph has no edge to an unknown task. -/
def Workflow.validate (w : Workflow) (iter : MapOrder) : Except SpecError Unit := do
  let ids ← checkIds w.tasks []
  checkTasks w ids w.tasks
  w.detectCycle iter

/-! ### Parsing, after the JSON decoding -/

/-- The `concurrency` object of a document. -/
structure RawConcurrency where
  maxParallel : Int
  rateLimit : Option RateLimit

/-- The `defaults` object of a document, before `Parse` fills in what it lacks. -/
structure RawDefaults where
  retry : Option Retry
  timeout : Option Duration
  onError : String

/-- The decoded document, but for the tasks. The elements of `providers` are pointers and may be
nil. -/
structure RawFields where
  name : String
  version : Int
  concurrency : Option RawConcurrency
  providers : Dict String (Option Provider)
  defaults : Option RawDefaults
  inputs : Dict String InputSpec
  output : String

/-- The decoded document. The elements of `tasks` are pointers and may be nil. -/
structure RawWorkflow extends RawFields where
  tasks : List (Option Task)

/-- How `Parse` ends without a workflow: an error, or a nil pointer dereference. -/
inductive ParseFailure
  | error (e : SpecError)
  | nilPointer
deriving DecidableEq

/-- The loop that sets `p.Name`. It dereferences every provider, so one that is `null` in the
document makes `Parse` panic. -/
def nameProviders (providers : Dict String (Option Provider)) :
    Except ParseFailure (Dict String Provider) :=
  if providers.entries.any (fun e => e.2.isNone) then .error .nilPointer
  else .ok (providers.mapValues (fun name p => { name := name, rateLimit := p.bind (·.rateLimit) }))

/-- The tasks, dereferenced in order. `Validate` reads the id of each task in its first loop,
so a nil entry panics unless an earlier pair of tasks shares its id. -/
def derefTasks : List (Option Task) → List String → Except ParseFailure (List Task)
  | [], _ => .ok []
  | none :: _, _ => .error .nilPointer
  | some t :: rest, ids =>
    if t.id ∈ ids then .error (.error (.duplicateId t.id))
    else do
      let rest ← derefTasks rest (t.id :: ids)
      .ok (t :: rest)

/-- `Parse` on a decoded document: check the required fields, fill in the defaults, validate. A
limit on parallel tasks that is not positive becomes 8, as a missing one does, and the version 0
becomes 1. -/
def parse (iter : MapOrder) (rw : RawWorkflow) : Except ParseFailure Workflow := do
  if rw.name = "" then .error (.error .nameRequired)
  if rw.tasks = [] then .error (.error .noTasks)
  let providers ← nameProviders rw.providers
  let tasks ← derefTasks rw.tasks []
  let wf : Workflow :=
    { name := rw.name
      version := if rw.version = 0 then 1 else rw.version
      maxParallel := match rw.concurrency with
        | some c => if c.maxParallel > 0 then c.maxParallel else 8
        | none => 8
      rateLimit := rw.concurrency.bind (·.rateLimit)
      providers := providers
      defaultRetry := (rw.defaults.bind (·.retry)).getD Engine.defaultRetry
      defaultTimeout := rw.defaults.bind (·.timeout)
      defaultOnError := match rw.defaults with
        | some d => if d.onError ≠ "" then d.onError else "fail_fast"
        | none => "fail_fast"
      inputsSchema := rw.inputs
      tasks := tasks
      output := rw.output }
  match wf.validate iter with
  | .ok _ => .ok wf
  | .error e => .error (.error e)

end Orchestrator.Engine
