import Orchestrator.Lib.JsonSchema

/-!
# `Orchestrator.Engine.Schema`: the document schema (`spec/spec.schema.json`)

The schema both loaders are written for, definition by definition. The objects are closed but for
the document itself and the maps from names to values: a key that the schema does not list is an
error, which neither loader reports.

What the schema asks for beyond the types are two patterns, three enumerations and some lower
bounds: at least one task, at least one request in a period, at least one parallel task, retries
that are not negative, a version of at least 1.

The names of the definitions are those of the schema, and the lists of properties have names of
their own, since the statements about what a loader enforces speak of one property at a time.
`Orchestrator.Lib.JsonSchema` has the keywords.
-/

set_option autoImplicit false

namespace Orchestrator.Engine.SpecSchema

open Orchestrator.Lib

/-- `^[0-9]+(ms|s|m|h)$` -/
def isDuration (s : String) : Bool :=
  let (digits, unit) := s.toList.span Char.isDigit
  !digits.isEmpty && decide (String.ofList unit ∈ ["ms", "s", "m", "h"])

/-- The pattern of a task id, `^[A-Za-z_][A-Za-z0-9_]*$`. Neither engine checks it. -/
def isTaskId (s : String) : Bool :=
  match s.toList with
  | [] => false
  | c :: cs => (c.isAlpha || c = '_') && cs.all (fun c => c.isAlphanum || c = '_')

/-- A text with the pattern of a duration. -/
def duration : Schema := .string isDuration

/-- The error policies. -/
def onError : Schema := .enum ["fail_fast", "continue"]

/-- The properties of a rate limit. -/
def rateLimitProperties : List (String × Schema) :=
  [("requests", .integer 1), ("per", duration), ("tokens", .integer 1), ("per_tokens", duration)]

/-- A rate limit. The requests and the period are required. -/
def rateLimit : Schema := .object ["requests", "per"] rateLimitProperties .never

/-- The properties of a retry policy. -/
def retryProperties : List (String × Schema) :=
  [("max", .integer 0), ("backoff", .enum ["none", "fixed", "exponential"]), ("base", duration),
    ("jitter", .boolean)]

/-- A retry policy, all of whose properties have defaults. -/
def retry : Schema := .object [] retryProperties .never

/-- The properties of a task. Those that name a task, a skill or a provider are any strings: which
of them exist is not for the schema to say. -/
def taskProperties : List (String × Schema) :=
  [("id", .string isTaskId), ("skill", .string fun _ => true), ("provider", .string fun _ => true),
    ("depends_on", .array 0 (.string fun _ => true)), ("inputs", .object [] [] .any),
    ("retry", retry), ("timeout", duration), ("on_error", onError), ("idempotent", .boolean)]

/-- A task. Its id and its skill are required. -/
def task : Schema := .object ["id", "skill"] taskProperties .never

/-- The properties of the concurrency limits. -/
def concurrencyProperties : List (String × Schema) :=
  [("max_parallel", .integer 1), ("rate_limit", rateLimit)]

/-- The concurrency limits. -/
def concurrency : Schema := .object [] concurrencyProperties .never

/-- A provider. -/
def provider : Schema := .object [] [("rate_limit", rateLimit)] .never

/-- The properties of the defaults. -/
def defaultsProperties : List (String × Schema) :=
  [("retry", retry), ("timeout", duration), ("on_error", onError)]

/-- The defaults of the tasks. -/
def defaults : Schema := .object [] defaultsProperties .never

/-- The declaration of a run input. All of its properties are optional, and the default need not
have the type that is declared. -/
def input : Schema :=
  .object []
    [("type", .enum ["string", "number", "boolean", "object", "array"]), ("required", .boolean),
      ("default", .any)] .never

/-- The properties of a workflow. There must be a task, and the version starts from one. -/
def workflowProperties : List (String × Schema) :=
  [("name", .string fun _ => true), ("version", .integer 1), ("concurrency", concurrency),
    ("providers", .object [] [] provider), ("defaults", defaults), ("inputs", .object [] [] input),
    ("tasks", .array 1 task), ("output", .string fun _ => true)]

/-- A workflow. Its name and its tasks are required. -/
def workflow : Schema := .object ["name", "tasks"] workflowProperties .never

/-- The schema of a document. -/
def document : Schema := .object ["workflow"] [("workflow", workflow)] .any

end Orchestrator.Engine.SpecSchema
