import Orchestrator.Engine.Stdio

/-!
# `Orchestrator.Engine.Encode`: what the engine writes

`json.Marshal` of the report types and of `outMsg`, by their struct tags. A line of output is
modelled by the object on it, with its members in the order of the fields. A nil slice is encoded as
`null`, and a member with `omitempty` is left out when its value is empty.

What `omitempty` counts as empty depends on the type: the empty text, the number zero, a slice
without elements, a nil pointer. For a value of type `any` it is the nil interface, which is `null`
here. So a span that took 0 ms still has its duration, since that field has no such tag, and an
output that is `null` is left out of the report.

The two lists of texts in a report are built by `append`, so they are nil as long as nothing was
added, and a reader finds `null` where it may expect an empty array.

The output of a span has the tag `-` in the source and is not encoded at all.
-/

set_option autoImplicit false

namespace Orchestrator.Engine

open Orchestrator.Lib

/-- A member with `omitempty`. -/
def omitEmpty (empty : Bool) (key : String) (v : Json) : List (String × Json) :=
  if empty then [] else [(key, v)]

/-- A value of type `any` that holds nothing. -/
def isNil : Json → Bool
  | .null => true
  | _ => false

/-- A `[]string` that is nil when it is empty. -/
def encodeStrings (l : List String) : Json := if l = [] then .null else .arr (l.map .str)

/-- A decision of a span. The instant and the summary are always there, the rationale and the data
only when they are not empty. -/
def Decision.encode (d : Decision) : Json :=
  .obj ([("at_ms", .num d.atMs), ("summary", .str d.summary)] ++
    omitEmpty (d.rationale = "") "rationale" (.str d.rationale) ++
    omitEmpty (isNil d.data) "data" d.data)

/-- The usage of a span. -/
def LLMUsage.encode (u : LLMUsage) : Json :=
  .obj [("provider", .str u.provider), ("model", .str u.model), ("tokens_in", .num u.tokensIn),
    ("tokens_out", .num u.tokensOut)]

/-- The text of a status, for spans and for reports alike. A report is never skipped. -/
def Status.text : Status → String
  | .succeeded => "succeeded"
  | .failed => "failed"
  | .skipped => "skipped"

/-- The members of a span that `omitempty` leaves out when there is nothing to say. They stand
behind the others, in the order of the fields. -/
def TaskSpan.optionalMembers (s : TaskSpan) : List (String × Json) :=
  (match s.llm with
    | none => []
    | some u => [("llm", u.encode)]) ++
  omitEmpty s.decisions.isEmpty "decisions" (.arr (s.decisions.map Decision.encode)) ++
  omitEmpty (s.error = "") "error" (.str s.error)

/-- A span. The fields without `omitempty` come first in the struct, and so in the object. -/
def TaskSpan.encode (s : TaskSpan) : Json :=
  .obj ([("id", .str s.id), ("status", .str s.status.text), ("duration_ms", .num s.durationMs),
    ("attempts", .num s.attempts)] ++ s.optionalMembers)

/-- The totals of a run. -/
def Totals.encode (t : Totals) : Json :=
  .obj [("llm_tokens_in", .num t.llmTokensIn), ("llm_tokens_out", .num t.llmTokensOut),
    ("tool_calls", .num t.toolCalls), ("retries", .num t.retries)]

/-- A report, with its members in the order of the fields. Lists are there even when they are empty,
the output only if the workflow has one. -/
def Report.encode (r : Report) : Json :=
  .obj ([("workflow", .str r.workflow), ("run_id", .str r.runID), ("status", .str r.status.text),
    ("started_at", .str r.startedAt), ("duration_ms", .num r.durationMs),
    ("tasks", .arr (r.tasks.map TaskSpan.encode)),
    ("critical_path", encodeStrings r.criticalPath), ("totals", r.totals.encode),
    ("errors", encodeStrings r.errors)] ++ omitEmpty (isNil r.output) "output" r.output)

/-- A message of the engine. The kinds of messages share one struct, and `omitempty` leaves out what
a kind does not use. -/
def OutMsg.encode (m : OutMsg) : Json :=
  .obj ([("type", .str m.type)] ++
    omitEmpty (m.runID = "") "run_id" (.str m.runID) ++
    omitEmpty (m.invocationID = "") "invocation_id" (.str m.invocationID) ++
    omitEmpty (m.taskID = "") "task_id" (.str m.taskID) ++
    omitEmpty (m.skill = "") "skill" (.str m.skill) ++
    omitEmpty (m.inputsJSON = "") "inputs_json" (.str m.inputsJSON) ++
    omitEmpty (m.attempt = 0) "attempt" (.num m.attempt) ++
    omitEmpty (m.eventType = "") "event_type" (.str m.eventType) ++
    omitEmpty (m.atUnixMs = 0) "at_unix_ms" (.num (m.atUnixMs : Int)) ++
    (match m.report with
      | none => []
      | some b => [("report", b)]))

/-- The message of `SendReport`. -/
def reportMsg (r : Report) : OutMsg := { type := "report", report := some r.encode }

end Orchestrator.Engine
