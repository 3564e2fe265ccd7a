import Orchestrator.Sdk.Value

/-!
# `Orchestrator.Sdk.Report`: reading a report (`sdk-python/orchestrator/report.py`)

`Report.from_dict`, and the part of `_run_go_engine` (`sdk-python/orchestrator/engine.py`) between
the exit of the engine and the report. `from_dict` checks no types, so a field that it takes over
holds any JSON value.

The classes stand here with their fields as the decoded line fills them, and are not those of a
report that the Python runner builds (`Runner.Report`), although the source has one class for both.
Where the source unpacks a dictionary into keyword arguments, a missing or an unknown key is the
`TypeError` of the call.

`readReport` is what the wrapper makes of an exit code, the error output and the lines of the
engine: it takes the last line that begins like a report, and where there is none it raises an
error.
-/

set_option autoImplicit false

namespace Orchestrator.Sdk

open Orchestrator.Lib

/-- A decision in a report that was read: its fields as they came. Nothing is converted, so a field
may hold any JSON value. -/
structure Decision where
  atMs : Json
  summary : Json
  rationale : Json
  data : Json

/-- The usage of language models in a report that was read, its fields as they came. -/
structure LlmUsage where
  provider : Json
  model : Json
  tokensIn : Json
  tokensOut : Json

/-- A task in a report that was read. Only `llm` and `decisions` are taken apart. -/
structure TaskSpan where
  id : Json
  status : Json
  durationMs : Json
  attempts : Json
  llm : Option LlmUsage
  decisions : List Decision
  error : Json

/-- The totals of a report that was read. They are taken over from the text and not compared with
the spans. -/
structure Totals where
  llmTokensIn : Json
  llmTokensOut : Json
  toolCalls : Json
  retries : Json

/-- A report that was read. Nothing says that its fields have the types of the annotations. -/
structure Report where
  workflow : Json
  runID : Json
  status : Json
  startedAt : Json
  durationMs : Json
  tasks : List TaskSpan
  criticalPath : Json
  totals : Totals
  errors : Json
  output : Json

/-- `LlmUsage(**d)`. A missing field or one that the class does not have is a `TypeError`. -/
def LlmUsage.ofKwargs (d : Json) : Except PyError LlmUsage := do
  let args ← pyKwargs ["provider", "model", "tokens_in", "tokens_out"] [] d
  .ok
    { provider := argOr args "provider" .null
      model := argOr args "model" .null
      tokensIn := argOr args "tokens_in" .null
      tokensOut := argOr args "tokens_out" .null }

/-- `Decision(**d)`. The rationale and the data have defaults, the other two must be there. -/
def Decision.ofKwargs (d : Json) : Except PyError Decision := do
  let args ← pyKwargs ["at_ms", "summary"] ["rationale", "data"] d
  .ok
    { atMs := argOr args "at_ms" .null
      summary := argOr args "summary" .null
      rationale := argOr args "rationale" .null
      data := argOr args "data" .null }

/-- `llm` in the loop over the tasks in `Report.from_dict`. A task without the member has no usage,
and a member that is `null` raises. -/
def llmOf (t : Json) : Except PyError (Option LlmUsage) := do
  if ← pyIn "llm" t then
    let u ← LlmUsage.ofKwargs (← pyItem t "llm")
    .ok (some u)
  else .ok none

/-- The body of the loop over the tasks in `Report.from_dict`. The id and the status must be there,
the rest has defaults. -/
def TaskSpan.fromDict (t : Json) : Except PyError TaskSpan := do
  let llm ← llmOf t
  let decisions ← (← pyIter (← pyGet t "decisions" (.arr []))).mapM Decision.ofKwargs
  let id ← pyItem t "id"
  let status ← pyItem t "status"
  let durationMs ← pyGet t "duration_ms" (.num 0)
  let attempts ← pyGet t "attempts" (.num 0)
  let error ← pyGet t "error" .null
  .ok
    { id := id
      status := status
      durationMs := durationMs
      attempts := attempts
      llm := llm
      decisions := decisions
      error := error }

/-- `Report.from_dict`, with its defaults for what is missing and its exceptions for what cannot be
read. -/
def Report.fromDict (d : Json) : Except PyError Report := do
  let tasks ← (← pyIter (← pyGet d "tasks" (.arr []))).mapM TaskSpan.fromDict
  let totalsDict ← pyGet d "totals" (.obj [])
  let llmTokensIn ← pyGet totalsDict "llm_tokens_in" (.num 0)
  let llmTokensOut ← pyGet totalsDict "llm_tokens_out" (.num 0)
  let toolCalls ← pyGet totalsDict "tool_calls" (.num 0)
  let retries ← pyGet totalsDict "retries" (.num 0)
  let workflow ← pyItem d "workflow"
  let runID ← pyItem d "run_id"
  let status ← pyItem d "status"
  let startedAt ← pyItem d "started_at"
  let durationMs ← pyItem d "duration_ms"
  let criticalPath ← pyGet d "critical_path" (.arr [])
  let errors ← pyGet d "errors" (.arr [])
  let output ← pyGet d "output" .null
  .ok
    { workflow := workflow
      runID := runID
      status := status
      startedAt := startedAt
      durationMs := durationMs
      tasks := tasks
      criticalPath := criticalPath
      totals :=
        { llmTokensIn := llmTokensIn
          llmTokensOut := llmTokensOut
          toolCalls := toolCalls
          retries := retries }
      errors := errors
      output := output }

/-! ### The output of the engine -/

/-- `line.startswith('{"type":"report"')`, for the compact text of an object. -/
def isReportLine : Json → Bool
  | .obj ((key, v) :: _) => key = "type" && isStr "report" v
  | _ => false

/-- What `_run_go_engine` makes of the exit code, the error output and the lines of the
engine. -/
def readReport (returncode : Int) (stderr : String) (lines : List Json) :
    Except PyError Report :=
  if returncode ≠ 0 then .error (.runtimeError ("Go engine failed: " ++ stderr))
  else
    match lines.reverse.find? isReportLine with
    | none => .error (.runtimeError "Go engine did not return a valid report")
    | some line => Report.fromDict line

end Orchestrator.Sdk
