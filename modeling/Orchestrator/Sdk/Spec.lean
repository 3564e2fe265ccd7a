import Orchestrator.Lib.Dfs
import Orchestrator.Sdk.Value

/-!
# `Orchestrator.Sdk.Spec`: the workflow model of the SDK (`sdk-python/orchestrator/spec.py`)

The dataclasses with the types their annotations give, `Workflow.from_dict`, `validate` and
`to_dict`. Durations are seconds, taken as exact rationals.

`from_dict` stores some values as they come, and Python checks no annotation. So the dataclasses
stand here twice: the ones of `Stored` hold what `from_dict` fills in, and `validate` runs on them.
A workflow that it has accepted is then read with the annotated types (`Stored.Workflow.typed`),
which is what the runner works on. Where a value has another type this ends in `PyError.untyped`,
which is no exception of Python.

The checks are made in the order of the source, because a document with two faults is refused with
the message of the first one. `validate` compares ids and dependencies as Python compares values:
`1`, `1.0` and `True` are one key of a dictionary (`Key`), and a list or a dictionary has no hash
and ends the check in a `TypeError`.

`Workflow.validate` of the typed workflow is the same check on strings. `Proofs.TypedWorkflow` has
that the two agree, so that the later modules can work with the simple one.
-/

set_option autoImplicit false

namespace Orchestrator.Sdk

open Orchestrator.Lib

/-! ### Dataclasses -/

/-- A rate limit as annotated: so many requests in a period, and perhaps a budget of tokens in
another. -/
structure RateLimit where
  requests : Int
  per : ℚ
  tokens : Option Int
  perTokens : Option ℚ
deriving DecidableEq

/-- A retry policy as annotated. `max` counts the attempts after the first, so a policy of zero
still makes one. -/
structure Retry where
  max : Int := 0
  backoff : String := "exponential"
  base : ℚ := 1 / 2
  jitter : Bool := true
deriving DecidableEq

/-- A provider as annotated, by its name. -/
structure Provider where
  name : String
  rateLimit : Option RateLimit := none
deriving DecidableEq

/-- A task as annotated. `None` in a field stands for the default of the workflow. -/
structure Task where
  id : String
  skill : String
  provider : Option String := none
  dependsOn : List String := []
  inputs : Dict String Json := .empty
  retry : Option Retry := none
  timeout : Option ℚ := none
  onError : Option String := none
  idempotent : Bool := false

/-- A workflow as annotated. Nothing enforces the annotations; `typed` gives the workflows that meet
them. -/
structure Workflow where
  name : String
  tasks : List Task
  version : Int := 1
  maxParallel : Int := 8
  rateLimit : Option RateLimit := none
  providers : Dict String Provider := .empty
  defaultRetry : Option Retry := none
  defaultTimeout : Option ℚ := none
  defaultOnError : String := "fail_fast"
  inputsSchema : Dict String Json := .empty
  output : Option String := none

/-! ### The dataclasses as `from_dict` fills them

Python checks no annotation. A value that `from_dict` does not convert is kept as it comes. -/

namespace Stored

/-- A rate limit as `from_dict` stores it. The token budget is taken over unchecked. -/
structure RateLimit where
  requests : Int
  per : Option ℚ
  tokens : Json
  perTokens : Option ℚ

/-- A retry policy as `from_dict` stores it. The kind of backoff is taken over unchecked. -/
structure Retry where
  max : Int := 0
  backoff : Json := .str "exponential"
  base : Option ℚ := some (1 / 2)
  jitter : Bool := true

/-- A provider as `from_dict` stores it. Its name is a key of the document, so it is a string. -/
structure Provider where
  name : String
  rateLimit : Option RateLimit

/-- A task as `from_dict` stores it. The id, the skill and the entries of `depends_on` are any
values. -/
structure Task where
  id : Json
  skill : Json
  provider : Json
  dependsOn : List Json
  /-- The keys and values that `dict` sets, in order. -/
  inputs : List (Json × Json)
  retry : Option Retry
  timeout : Option ℚ
  onError : Json
  idempotent : Bool

/-- A workflow as `from_dict` stores it, on which `validate` runs. Where the source converts a
member the field has the type of the conversion, and elsewhere it holds whatever the document
had. -/
structure Workflow where
  name : Json
  tasks : List Task
  version : Int
  maxParallel : Int
  rateLimit : Option RateLimit
  providers : Dict String Provider
  defaultRetry : Retry
  defaultTimeout : Option ℚ
  defaultOnError : Json
  inputsSchema : Json
  output : Json

end Stored

/-! ### Loading -/

/-- The seconds in a unit. Other units do not pass the pattern of `parse_duration`. -/
def unitSeconds : String → Option ℚ
  | "ms" => some (1 / 1000)
  | "s" => some 1
  | "m" => some 60
  | "h" => some 3600
  | _ => none

/-- The text of `parse_duration`, without the spaces around it. Digits of any script count, as they
do in the pattern of the source. -/
def durationOfText (lib : PyLib) (s : String) : Option ℚ :=
  let (digits, unit) := (strip s.toList).span (fun c => (lib.decimal c).isSome)
  if digits = [] then none
  else (unitSeconds (String.ofList unit)).map (fun u => (ofDigits lib digits : ℚ) * u)

/-- `parse_duration`. The text of a value that is no string is never digits with a unit. -/
def parseDuration (lib : PyLib) (text : Json) (default : Option ℚ) : Except PyError (Option ℚ) :=
  match text with
  | .null => .ok default
  | .str s =>
    match durationOfText lib s with
    | some d => .ok (some d)
    | none => .error (.specError ("invalid duration: " ++ lib.repr text))
  | _ => .error (.specError ("invalid duration: " ++ lib.repr text))

/-- What a value is as an element of a set or as a key of a dictionary. `True` and `1.0` are the key
`1`, since equal numbers have equal hashes. -/
inductive Key
  | none
  | num (q : ℚ)
  | str (s : String)
deriving DecidableEq

/-- The key that a value is. The function is total, and a list or a dictionary is no key. -/
def key : Json → Key
  | .bool b => .num (if b then 1 else 0)
  | .num n => .num n.value
  | .str s => .str s
  | _ => .none

/-- The value has a hash. -/
def isHashable : Json → Bool
  | .arr _ | .obj _ => false
  | _ => true

/-- The key that a value is, where it is looked up or stored. -/
def pyKey (v : Json) : Except PyError Key :=
  if isHashable v then .ok (key v) else .error .typeError

/-- `dict` of a list of pairs, from its `i`-th element on: the keys and values it sets, in order. -/
def dictOfPairs (i : Nat) : List Json → Except PyError (List (Json × Json))
  | [] => .ok []
  | item :: rest => do
    match ← pyIter item with
    | [k, v] => do
      let _ ← pyKey k
      let pairs ← dictOfPairs (i + 1) rest
      .ok ((k, v) :: pairs)
    | elems =>
      .error (.valueError (s!"dictionary update sequence element #{i} has length " ++
        s!"{elems.length}; 2 is required"))

/-- `dict(v)`: the keys and values it sets, in order. -/
def pyDict : Json → Except PyError (List (Json × Json))
  | .obj members => .ok (members.map fun e => (.str e.1, e.2))
  | v => do dictOfPairs 0 (← pyIter v)

namespace Stored

/-- `RateLimit.from_dict`. An empty object counts as no limit at all, since the test is on the truth
of the dictionary. -/
def RateLimit.fromDict (lib : PyLib) (d : Json) : Except PyError (Option RateLimit) :=
  if truthy d then do
    let requests ← pyInt lib (← pyItem d "requests")
    let per ← parseDuration lib (← pyItem d "per") none
    let tokens ← pyGet d "tokens" .null
    let perTokens ← parseDuration lib (← pyGet d "per_tokens" .null) none
    .ok (some { requests := requests, per := per, tokens := tokens, perTokens := perTokens })
  else .ok none

/-- `Retry.from_dict`. An empty object counts as no policy at all, and the default of the workflow
takes its place. -/
def Retry.fromDict (lib : PyLib) (d : Json) : Except PyError (Option Retry) :=
  if truthy d then do
    let max ← pyInt lib (← pyGet d "max" (.num 0))
    let backoff ← pyGet d "backoff" (.str "exponential")
    let base ← parseDuration lib (← pyGet d "base" .null) (some (1 / 2))
    let jitter ← pyGet d "jitter" (.bool true)
    .ok (some { max := max, backoff := backoff, base := base, jitter := truthy jitter })
  else .ok none

/-- An entry of `providers` in `Workflow.from_dict`. -/
def Provider.fromDict (lib : PyLib) (name : String) (p : Json) : Except PyError Provider := do
  let rateLimit ← RateLimit.fromDict lib (← pyGet (orEmpty p) "rate_limit" .null)
  .ok { name := name, rateLimit := rateLimit }

/-- An entry of `tasks` in `Workflow.from_dict`. The names are taken over as they are, of whatever
type, and only the numbers and durations are converted. -/
def Task.fromDict (lib : PyLib) (t : Json) : Except PyError Task := do
  let id ← pyItem t "id"
  let skill ← pyItem t "skill"
  let provider ← pyGet t "provider" .null
  let dependsOn ← pyGet t "depends_on" (.arr [])
  let dependsOn ← if truthy dependsOn then pyIter dependsOn else .ok []
  let inputs ← pyDict (orEmpty (← pyGet t "inputs" (.obj [])))
  let retry ← Retry.fromDict lib (← pyGet t "retry" .null)
  let timeout ← parseDuration lib (← pyGet t "timeout" .null) none
  let onError ← pyGet t "on_error" .null
  let idempotent ← pyGet t "idempotent" (.bool false)
  .ok
    { id := id
      skill := skill
      provider := provider
      dependsOn := dependsOn
      inputs := inputs
      retry := retry
      timeout := timeout
      onError := onError
      idempotent := truthy idempotent }

/-- `Workflow(...)` in `from_dict`, before the validation. The members are read in the order of the
source, which decides the exception when several of them would raise. -/
def Workflow.load (lib : PyLib) (doc : Json) : Except PyError Workflow := do
  let wf ← pyGet doc "workflow" .null
  match wf with
  | .obj _ =>
    let conc := orEmpty (← pyGet wf "concurrency" (.obj []))
    let defaults := orEmpty (← pyGet wf "defaults" (.obj []))
    let providers ← (← pyItems (orEmpty (← pyGet wf "providers" (.obj [])))).foldlM
      (fun (d : Dict String Provider) e => do
        let p ← Provider.fromDict lib e.1 e.2
        .ok (d.set e.1 p)) .empty
    let tasks ← (← pyIter (← pyGet wf "tasks" (.arr []))).mapM (Task.fromDict lib)
    let name ← pyItem wf "name"
    let version ← pyInt lib (← pyGet wf "version" (.num 1))
    let maxParallel ← pyInt lib (← pyGet conc "max_parallel" (.num 8))
    let rateLimit ← RateLimit.fromDict lib (← pyGet conc "rate_limit" .null)
    let retry ← Retry.fromDict lib (← pyGet defaults "retry" .null)
    let timeout ← parseDuration lib (← pyGet defaults "timeout" .null) none
    let onError ← pyGet defaults "on_error" (.str "fail_fast")
    let inputs ← pyGet wf "inputs" (.obj [])
    let output ← pyGet wf "output" .null
    .ok
      { name := name
        version := version
        tasks := tasks
        maxParallel := maxParallel
        rateLimit := rateLimit
        providers := providers
        defaultRetry := retry.getD {}
        defaultTimeout := timeout
        defaultOnError := onError
        inputsSchema := orEmpty inputs
        output := output }
  | _ => .error (.specError "missing top-level 'workflow' object")

namespace Workflow

/-- `name in self.providers`. The names are strings. -/
def declares (w : Workflow) : Key → Bool
  | .str name => w.providers.contains name
  | _ => false

/-- The loop over the dependencies of a task in `validate`. A dependency that cannot be hashed is a
`TypeError` rather than an unknown task. -/
def checkDeps (lib : PyLib) (ids : List Key) (t : Task) : List Json → Except PyError Unit
  | [] => .ok ()
  | dep :: rest => do
    let k ← pyKey dep
    if k ∉ ids then
      .error (.specError (s!"task {lib.repr t.id} depends on unknown task " ++ lib.repr dep))
    else checkDeps lib ids t rest

/-- The loop over the tasks in `validate`, on the values as stored. A provider that counts as false
is not looked up. -/
def checkTasks (lib : PyLib) (w : Workflow) (ids : List Key) : List Task → Except PyError Unit
  | [] => .ok ()
  | t :: rest => do
    checkDeps lib ids t t.dependsOn
    if truthy t.provider then
      let k ← pyKey t.provider
      if w.declares k = false then
        .error (.specError (s!"task {lib.repr t.id} references unknown provider " ++
          lib.repr t.provider))
      else checkTasks lib w ids rest
    else checkTasks lib w ids rest

/-- `graph` in `_assert_acyclic`. All its values have a hash by then. -/
def graph (w : Workflow) : Dict Key (List Key) :=
  w.tasks.foldl (fun m t => m.set (key t.id) (t.dependsOn.map key)) .empty

/-- The dependencies of a task id. -/
def deps (w : Workflow) (id : Key) : List Key := (w.graph.get? id).getD []

/-- The task of an id. -/
def taskOf (w : Workflow) (id : Key) : Option Task := w.tasks.find? fun t => key t.id = id

/-- The `node` of a message, which is the id of a task as it is written. -/
def nodeOf (w : Workflow) (node : Key) : Json := ((w.taskOf node).map (·.id)).getD .null

/-- The `dep` of a message. Of equal dependencies the first one is met. -/
def depOf (w : Workflow) (node dep : Key) : Json :=
  ((w.taskOf node).bind fun t => t.dependsOn.find? fun d => key d = dep).getD .null

/-- `_assert_acyclic`. The search recurses along the dependencies, and a chain that is longer than
the stack allows ends in a `RecursionError`. -/
def assertAcyclic (lib : PyLib) (w : Workflow) : Except PyError Unit :=
  match visitAll w.deps lib.recursionLimit w.graph.keys (fun _ => .white) with
  | .ok _ => .ok ()
  | .error (.cycle node dep) =>
    .error (.specError (s!"dependency cycle detected at {lib.repr (w.nodeOf node)} -> " ++
      lib.repr (w.depOf node dep)))
  | .error .outOfFuel => .error .recursionError

/-- `validate`, in the order of the source: ids, then references, then cycles. The first check that
fails gives the error. -/
def validate (lib : PyLib) (w : Workflow) : Except PyError Unit := do
  let ids ← w.tasks.mapM fun t => pyKey t.id
  if ¬ ids.Nodup then .error (.specError "duplicate task ids")
  checkTasks lib w ids w.tasks
  assertAcyclic lib w

/-- `Workflow.from_dict`. A workflow is returned only if it has passed the validation. -/
def fromDict (lib : PyLib) (doc : Json) : Except PyError Workflow := do
  let model ← load lib doc
  model.validate lib
  .ok model

end Workflow

end Stored

/-! ### Types -/

/-- A field annotated `str`. -/
def asStr (field : String) : Json → Except PyError String
  | .str s => .ok s
  | _ => .error (.untyped field)

/-- A field annotated `Optional[str]`. Its value is `None` or a string, or the annotation was not
met. -/
def asOptStr (field : String) : Json → Except PyError (Option String)
  | .null => .ok none
  | .str s => .ok (some s)
  | _ => .error (.untyped field)

/-- A field annotated `Optional[int]`. A float of integral value is taken for the integer, which is
equal to it in Python. -/
def asOptInt (field : String) : Json → Except PyError (Option Int)
  | .null => .ok none
  | .num n =>
    if n.value.den = 1 then .ok (some n.value.num) else .error (.untyped field)
  | _ => .error (.untyped field)

/-- A field annotated `Dict`. -/
def asDict (field : String) : Json → Except PyError (Dict String Json)
  | .obj members => .ok (members.foldl (fun d e => d.set e.1 e.2) .empty)
  | _ => .error (.untyped field)

/-- A field annotated `float`. -/
def asFloat (field : String) : Option ℚ → Except PyError ℚ
  | some q => .ok q
  | none => .error (.untyped field)

namespace Stored

/-- A rate limit, where its values have the annotated types. The number of requests was converted
when it was read, the number of tokens was not. -/
def RateLimit.typed (r : RateLimit) : Except PyError Sdk.RateLimit := do
  .ok
    { requests := r.requests
      per := ← asFloat "per" r.per
      tokens := ← asOptInt "tokens" r.tokens
      perTokens := r.perTokens }

/-- A retry policy, where its values have the annotated types. Any string will do for the
backoff. -/
def Retry.typed (r : Retry) : Except PyError Sdk.Retry := do
  .ok
    { max := r.max
      backoff := ← asStr "backoff" r.backoff
      base := ← asFloat "base" r.base
      jitter := r.jitter }

/-- A provider, where its values have the annotated types. -/
def Provider.typed (p : Provider) : Except PyError Sdk.Provider := do
  .ok { name := p.name, rateLimit := ← p.rateLimit.mapM RateLimit.typed }

/-- A task, where its values have the annotated types. The first field that fails is the one that is
named. -/
def Task.typed (t : Task) : Except PyError Sdk.Task := do
  let inputs ← t.inputs.foldlM (fun (d : Dict String Json) e => do
    let k ← asStr "inputs" e.1
    .ok (d.set k e.2)) .empty
  .ok
    { id := ← asStr "id" t.id
      skill := ← asStr "skill" t.skill
      provider := ← asOptStr "provider" t.provider
      dependsOn := ← t.dependsOn.mapM (asStr "depends_on")
      inputs := inputs
      retry := ← t.retry.mapM Retry.typed
      timeout := t.timeout
      onError := ← asOptStr "on_error" t.onError
      idempotent := t.idempotent }

/-- A workflow, where its values have the annotated types. It is applied after the validation, so it
never hides an error that Python would raise. -/
def Workflow.typed (w : Workflow) : Except PyError Sdk.Workflow := do
  let providers ← w.providers.entries.foldlM (fun (d : Dict String Sdk.Provider) e => do
    let p ← e.2.typed
    .ok (d.set e.1 p)) .empty
  .ok
    { name := ← asStr "name" w.name
      version := w.version
      tasks := ← w.tasks.mapM Task.typed
      maxParallel := w.maxParallel
      rateLimit := ← w.rateLimit.mapM RateLimit.typed
      providers := providers
      defaultRetry := some (← w.defaultRetry.typed)
      defaultTimeout := w.defaultTimeout
      defaultOnError := ← asStr "default_on_error" w.defaultOnError
      inputsSchema := ← asDict "inputs_schema" w.inputsSchema
      output := ← asOptStr "output" w.output }

end Stored

/-! ### Validation -/

namespace Workflow

/-- The task ids in spec order. -/
def ids (w : Workflow) : List String := w.tasks.map (·.id)

/-- `graph` in `_assert_acyclic`. -/
def graph (w : Workflow) : Dict String (List String) :=
  w.tasks.foldl (fun m t => m.set t.id t.dependsOn) .empty

/-- The dependencies of a task id. -/
def deps (w : Workflow) (id : String) : List String := (w.graph.get? id).getD []

/-- The loop over the tasks in `validate`, on a workflow that meets the annotations. There `find?`
does what the inner loop does. -/
def checkTasks (lib : PyLib) (w : Workflow) : List Task → Except PyError Unit
  | [] => .ok ()
  | t :: rest =>
    match t.dependsOn.find? (fun dep => dep ∉ w.ids) with
    | some dep =>
      .error (.specError (s!"task {lib.repr (.str t.id)} depends on unknown task " ++
        lib.repr (.str dep)))
    | none =>
      let p := t.provider.getD ""
      if p ≠ "" ∧ w.providers.contains p = false then
        .error (.specError (s!"task {lib.repr (.str t.id)} references unknown provider " ++
          lib.repr (.str p)))
      else checkTasks lib w rest

/-- `_assert_acyclic`. -/
def assertAcyclic (lib : PyLib) (w : Workflow) : Except PyError Unit :=
  match visitAll w.deps lib.recursionLimit w.graph.keys (fun _ => .white) with
  | .ok _ => .ok ()
  | .error (.cycle node dep) =>
    .error (.specError (s!"dependency cycle detected at {lib.repr (.str node)} -> " ++
      lib.repr (.str dep)))
  | .error .outOfFuel => .error .recursionError

/-- `validate`. -/
def validate (lib : PyLib) (w : Workflow) : Except PyError Unit := do
  if ¬ w.ids.Nodup then .error (.specError "duplicate task ids")
  checkTasks lib w w.tasks
  assertAcyclic lib w

/-- `Workflow.from_dict`, where the values it stores have the annotated types. -/
def fromDict (lib : PyLib) (doc : Json) : Except PyError Workflow := do
  let model ← Stored.Workflow.fromDict lib doc
  model.typed

/-- `task_map`. -/
def taskMap (w : Workflow) : Dict String Task :=
  w.tasks.foldl (fun m t => m.set t.id t) .empty

end Workflow

/-! ### Serialization -/

/-- An optional value in a dictionary. -/
def jsonOpt {α : Type} (f : α → Json) : Option α → Json
  | none => .null
  | some a => f a

/-- `rate_limit.__dict__`. The durations come out as numbers of seconds, where `from_dict` expects
texts. -/
def RateLimit.toDict (r : RateLimit) : Json :=
  .obj [("requests", .num r.requests), ("per", .num (.float r.per)),
    ("tokens", jsonOpt (fun n : Int => .num n) r.tokens),
    ("per_tokens", jsonOpt (fun q => .num (.float q)) r.perTokens)]

/-- `retry.__dict__`. -/
def Retry.toDict (r : Retry) : Json :=
  .obj [("max", .num r.max), ("backoff", .str r.backoff), ("base", .num (.float r.base)),
    ("jitter", .bool r.jitter)]

/-- An attribute of a `Task` that `to_dict` reads. The dataclass has no other, so any other name
raises an `AttributeError`. -/
def Task.attr (t : Task) : String → Except PyError Json
  | "id" => .ok (.str t.id)
  | "skill" => .ok (.str t.skill)
  | "provider" => .ok (jsonOpt .str t.provider)
  | "depends_on" => .ok (.arr (t.dependsOn.map .str))
  | "inputs" => .ok (.obj t.inputs.entries)
  | "retry" => .ok (jsonOpt Retry.toDict t.retry)
  | "timeout" => .ok (jsonOpt (fun q => .num (.float q)) t.timeout)
  | "on_error" => .ok (jsonOpt .str t.onError)
  | "idempotent" => .ok (.bool t.idempotent)
  | name => .error (.attributeError name)

/-- An entry of `tasks` in `to_dict`: the attributes it reads, in order, under their names. -/
def Task.toDict (t : Task) : Except PyError Json := do
  let members ← ["id", "skill", "description", "inputs", "outputs", "depends_on", "provider",
    "retry", "timeout", "on_error"].mapM (fun name => do
      let v ← t.attr name
      .ok (name, v))
  .ok (.obj members)

/-- `concurrency` in `to_dict`. The `or` of the source makes it empty only if there are no slots and
no limit. -/
def Workflow.concurrencyDict (w : Workflow) : Json :=
  if w.maxParallel ≠ 0 ∨ w.rateLimit.isSome then
    .obj [("max_parallel", .num w.maxParallel),
      ("rate_limit", jsonOpt RateLimit.toDict w.rateLimit)]
  else .obj []

/-- `providers` in `to_dict`. -/
def Workflow.providersDict (w : Workflow) : Json :=
  .obj (w.providers.entries.map
    (fun e => (e.1, .obj [("rate_limit", jsonOpt RateLimit.toDict e.2.rateLimit)])))

/-- `defaults` in `to_dict`. It is empty when every default has the value that the class gives
it. -/
def Workflow.defaultsDict (w : Workflow) : Json :=
  if w.defaultRetry.isSome ∨ (w.defaultTimeout.any (· ≠ 0)) ∨ w.defaultOnError ≠ "fail_fast" then
    .obj [("retry", jsonOpt Retry.toDict w.defaultRetry),
      ("timeout", jsonOpt (fun q => .num (.float q)) w.defaultTimeout),
      ("on_error", .str w.defaultOnError)]
  else .obj []

/-- `Workflow.to_dict`. Only the tasks can raise. The inputs are written under a name that
`from_dict` does not read. -/
def Workflow.toDict (w : Workflow) : Except PyError Json := do
  let tasks ← w.tasks.mapM Task.toDict
  .ok (.obj [("workflow", .obj
    [("name", .str w.name),
      ("version", .num w.version),
      ("concurrency", w.concurrencyDict),
      ("tasks", .arr tasks),
      ("providers", w.providersDict),
      ("defaults", w.defaultsDict),
      ("inputs_schema", .obj w.inputsSchema.entries),
      ("output", jsonOpt .str w.output)])])

end Orchestrator.Sdk
