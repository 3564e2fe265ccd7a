import Orchestrator.Engine.Encode
import Orchestrator.Proofs.Cancellation
import Orchestrator.Sdk.Report

/-!
# `Orchestrator.Proofs.ReportDecoding`: the report line and its reader

`SendReport` puts the report under the member `report` of its line. The wrapper hands the whole line
to `Report.from_dict`, which looks for `workflow` at the top, so no report is ever decoded
(`report_never_decodes`).

The object inside the line would decode (`fromDict_encode`), and then every field is right but the
lists: `encoding/json` writes a nil slice as `null`, which `d.get` takes over as `None`.

The relations `DecisionDecodes`, `UsageDecodes`, `SpanDecodes` and `TotalsDecodes` say, class by
class, when a decoded object says what the value of the engine says. A member that is left out
because it is empty is read as its default (`find_omitEmpty`), which is why an empty error comes
back as `None`. The loops over tasks and decisions are inductions over the lists of the report.
-/

set_option autoImplicit false

namespace Orchestrator.Proofs

open Orchestrator.Lib Orchestrator.Engine
open Orchestrator.Sdk (PyError pyGet pyItem pyIn pyIter pyKwargs argOr readReport isReportLine)

/-! ### What a decoded report should hold -/

/-- A text that is `None` when it is empty. -/
def textOrNone (s : String) : Json := if s = "" then .null else .str s

/-- The decoded decision says what the decision says. An empty rationale is left out on the way and
arrives as `None`. -/
structure DecisionDecodes (d : Decision) (p : Sdk.Decision) : Prop where
  atMs : p.atMs = .num d.atMs
  summary : p.summary = .str d.summary
  rationale : p.rationale = textOrNone d.rationale
  data : p.data = d.data

/-- The decoded usage says what the usage says, field by field. -/
structure UsageDecodes (u : LLMUsage) (p : Sdk.LlmUsage) : Prop where
  provider : p.provider = .str u.provider
  model : p.model = .str u.model
  tokensIn : p.tokensIn = .num u.tokensIn
  tokensOut : p.tokensOut = .num u.tokensOut

/-- The decoded span says what the span says, an empty error apart, which is `None`. -/
structure SpanDecodes (s : TaskSpan) (p : Sdk.TaskSpan) : Prop where
  id : p.id = .str s.id
  status : p.status = .str s.status.text
  durationMs : p.durationMs = .num s.durationMs
  attempts : p.attempts = .num s.attempts
  llm : Option.Rel UsageDecodes s.llm p.llm
  decisions : List.Forall₂ DecisionDecodes s.decisions p.decisions
  error : p.error = textOrNone s.error

/-- The decoded totals say what the totals say, field by field. -/
structure TotalsDecodes (t : Totals) (p : Sdk.Totals) : Prop where
  llmTokensIn : p.llmTokensIn = .num t.llmTokensIn
  llmTokensOut : p.llmTokensOut = .num t.llmTokensOut
  toolCalls : p.toolCalls = .num t.toolCalls
  retries : p.retries = .num t.retries

/-- The fields other than the two lists of strings. These are the ones that arrive from every
report. -/
structure FieldsDecode (r : Report) (p : Sdk.Report) : Prop where
  workflow : p.workflow = .str r.workflow
  runID : p.runID = .str r.runID
  status : p.status = .str r.status.text
  startedAt : p.startedAt = .str r.startedAt
  durationMs : p.durationMs = .num r.durationMs
  tasks : List.Forall₂ SpanDecodes r.tasks p.tasks
  totals : TotalsDecodes r.totals p.totals
  output : p.output = r.output

/-- The decoded report says what the report says, the two lists of strings included. -/
structure Decodes (r : Report) (p : Sdk.Report) : Prop where
  fields : FieldsDecode r p
  errors : p.errors = .arr (r.errors.map .str)
  criticalPath : p.criticalPath = .arr (r.criticalPath.map .str)

/-! ### The object inside the line -/

/-- A loop whose body succeeds on each element. -/
theorem mapM_ok {α β γ ε : Type} {f : β → Except ε γ} {g : α → β} {R : α → γ → Prop} :
    ∀ {l : List α}, (∀ x ∈ l, ∃ y, f (g x) = .ok y ∧ R x y) →
      ∃ ys, (l.map g).mapM f = .ok ys ∧ List.Forall₂ R l ys := by
  intro l
  induction l with
  | nil => exact fun _ => ⟨[], rfl, .nil⟩
  | cons x l ih =>
      intro h
      obtain ⟨y, hy, hxy⟩ := h x List.mem_cons_self
      obtain ⟨ys, hys, hrel⟩ := ih fun z hz => h z (List.mem_cons_of_mem x hz)
      refine ⟨y :: ys, ?_, .cons hxy hrel⟩
      rw [List.map_cons, List.mapM_cons, hy, hys]
      rfl

/-- Null stands for a nil value. -/
@[simp] theorem isNil_null : isNil .null = true := rfl

/-- No other value does. -/
theorem isNil_eq_false {v : Json} (h : v ≠ .null) : isNil v = false := by
  cases v with
  | null => exact absurd rfl h
  | _ => rfl

/-- A decision decodes. -/
theorem decision_decodes (d : Decision) :
    ∃ p, Sdk.Decision.ofKwargs d.encode = .ok p ∧ DecisionDecodes d p := by
  refine ⟨⟨.num d.atMs, .str d.summary, textOrNone d.rationale, d.data⟩, ?_, ⟨rfl, rfl, rfl, rfl⟩⟩
  -- Each optional member is there or left out.
  by_cases hr : d.rationale = "" <;> by_cases hd : d.data = .null <;>
    simp [Sdk.Decision.ofKwargs, Decision.encode, omitEmpty, hr, hd, isNil_eq_false, pyKwargs,
      argOr, Dict.find, textOrNone, bind, Except.bind]

/-- A usage decodes. -/
theorem usage_decodes (u : LLMUsage) :
    ∃ p, Sdk.LlmUsage.ofKwargs u.encode = .ok p ∧ UsageDecodes u p := by
  refine ⟨⟨.str u.provider, .str u.model, .num u.tokensIn, .num u.tokensOut⟩, ?_,
    ⟨rfl, rfl, rfl, rfl⟩⟩
  simp [Sdk.LlmUsage.ofKwargs, LLMUsage.encode, pyKwargs, argOr, Dict.find, bind, Except.bind]

/-- The value of a key in two lists of bindings. -/
theorem find_append (key : String) (l l' : List (String × Json)) :
    Dict.find key (l ++ l') = (Dict.find key l).or (Dict.find key l') := by
  induction l with
  | nil => rfl
  | cons e l ih =>
      obtain ⟨k, v⟩ := e
      by_cases hk : k = key <;> simp [Dict.find, hk, ih]

/-- A member with `omitempty` is there unless it is empty. -/
theorem find_omitEmpty (key key' : String) (empty : Bool) (v : Json) :
    Dict.find key (omitEmpty empty key' v)
      = if empty = false ∧ key' = key then some v else none := by
  cases empty <;> by_cases hk : key' = key <;> simp [omitEmpty, Dict.find, hk]

/-- The member `llm` of a span. -/
theorem find_llm (s : TaskSpan) :
    Dict.find "llm" s.optionalMembers = s.llm.map LLMUsage.encode := by
  rw [TaskSpan.optionalMembers, find_append, find_append, find_omitEmpty, find_omitEmpty]
  cases s.llm <;> simp [Dict.find]

/-- The member `decisions` of a span. -/
theorem find_decisions (s : TaskSpan) :
    (Dict.find "decisions" s.optionalMembers).getD (.arr [])
      = .arr (s.decisions.map Decision.encode) := by
  rw [TaskSpan.optionalMembers, find_append, find_append, find_omitEmpty, find_omitEmpty]
  cases s.llm <;> cases s.decisions <;> simp [Dict.find]

/-- The member `error` of a span. -/
theorem find_error (s : TaskSpan) :
    (Dict.find "error" s.optionalMembers).getD .null = textOrNone s.error := by
  rw [TaskSpan.optionalMembers, find_append, find_append, find_omitEmpty, find_omitEmpty]
  cases s.llm <;> by_cases he : s.error = "" <;> simp [Dict.find, he, textOrNone]

/-- The usage of a span decodes, if it has one. -/
theorem llm_decodes (s : TaskSpan) :
    ∃ llm, Sdk.llmOf s.encode = .ok llm ∧ Option.Rel UsageDecodes s.llm llm := by
  cases hs : s.llm with
  | none =>
      refine ⟨none, ?_, .none⟩
      simp [Sdk.llmOf, pyIn, TaskSpan.encode, Dict.find, find_llm, hs, bind, Except.bind]
  | some u =>
      obtain ⟨p, hp, hrel⟩ := usage_decodes u
      refine ⟨some p, ?_, .some hrel⟩
      simp [Sdk.llmOf, pyIn, pyItem, TaskSpan.encode, Dict.find, find_llm, hs, hp, bind,
        Except.bind]

/-- A span decodes. -/
theorem span_decodes (s : TaskSpan) :
    ∃ p, Sdk.TaskSpan.fromDict s.encode = .ok p ∧ SpanDecodes s p := by
  obtain ⟨ds, hds, hdsrel⟩ := mapM_ok (l := s.decisions) fun d _ => decision_decodes d
  obtain ⟨llm, hllm, hrel⟩ := llm_decodes s
  have hdecisions : pyGet s.encode "decisions" (.arr [])
      = .ok (.arr (s.decisions.map Decision.encode)) := by
    simp [pyGet, TaskSpan.encode, Dict.find, find_decisions]
  have herror : pyGet s.encode "error" .null = .ok (textOrNone s.error) := by
    simp [pyGet, TaskSpan.encode, Dict.find, find_error]
  refine ⟨⟨.str s.id, .str s.status.text, .num s.durationMs, .num s.attempts, llm, ds,
    textOrNone s.error⟩, ?_, ⟨rfl, rfl, rfl, rfl, hrel, hdsrel, rfl⟩⟩
  simp only [Sdk.TaskSpan.fromDict, hllm, hdecisions, herror, bind, Except.bind, pyIter, hds]
  simp [pyItem, pyGet, TaskSpan.encode, Dict.find]

/-- The member `output` of a report. -/
theorem find_output (r : Report) :
    (Dict.find "output" (omitEmpty (isNil r.output) "output" r.output)).getD .null = r.output := by
  by_cases ho : r.output = .null <;> simp [find_omitEmpty, ho, isNil_eq_false]

/-- The object inside the report line decodes, with every field but the two lists. An empty list
becomes `None`. -/
theorem fromDict_encode (r : Report) :
    ∃ p, Sdk.Report.fromDict r.encode = .ok p ∧ FieldsDecode r p ∧
      p.errors = encodeStrings r.errors ∧ p.criticalPath = encodeStrings r.criticalPath := by
  obtain ⟨ts, hts, hrel⟩ := mapM_ok (l := r.tasks) fun s _ => span_decodes s
  have htasks : pyGet r.encode "tasks" (.arr []) = .ok (.arr (r.tasks.map TaskSpan.encode)) := by
    simp [pyGet, Report.encode, Dict.find]
  have hout : pyGet r.encode "output" .null = .ok r.output := by
    simp [pyGet, Report.encode, Dict.find, find_output]
  refine ⟨⟨.str r.workflow, .str r.runID, .str r.status.text, .str r.startedAt, .num r.durationMs,
    ts, encodeStrings r.criticalPath, ⟨.num r.totals.llmTokensIn, .num r.totals.llmTokensOut,
    .num r.totals.toolCalls, .num r.totals.retries⟩, encodeStrings r.errors, r.output⟩, ?_,
    ⟨rfl, rfl, rfl, rfl, rfl, hrel, ⟨rfl, rfl, rfl, rfl⟩, rfl⟩, rfl, rfl⟩
  simp only [Sdk.Report.fromDict, htasks, hout, bind, Except.bind, pyIter, hts]
  simp [pyItem, pyGet, Report.encode, Totals.encode, Dict.find]

/-! ### The line -/

/-- The wrapper reads the report from the lines of an engine that exits cleanly after its
report. -/
def ReportArrives (before : List OutMsg) (r : Report) : Prop :=
  ∃ p, readReport 0 "" ((before ++ [reportMsg r]).map OutMsg.encode) = .ok p ∧ Decodes r p

/-- The wrapper looks for the fields of the report in its envelope. -/
theorem readReport_reportMsg (before : List OutMsg) (r : Report) :
    readReport 0 "" ((before ++ [reportMsg r]).map OutMsg.encode)
      = .error (.keyError "workflow") := by
  have henc : (reportMsg r).encode = .obj [("type", .str "report"), ("report", r.encode)] := by
    simp [reportMsg, OutMsg.encode, omitEmpty]
  have hline : (((before ++ [reportMsg r]).map OutMsg.encode).reverse).find? isReportLine
      = some (reportMsg r).encode := by
    rw [List.map_append, List.reverse_append, henc]
    rfl
  simp only [readReport, hline, henc]
  rfl

/-- No report arrives, whatever lines came before it and whatever is in it. The wrapper passes the
whole line to `Report.from_dict`, which looks for `workflow` in it. The engine puts the report into
an envelope, so the name is one level further down and the lookup raises. -/
theorem report_never_decodes (before : List OutMsg) (r : Report) : ¬ ReportArrives before r := by
  rintro ⟨p, hp, -⟩
  rw [readReport_reportMsg] at hp
  cases hp

/-- The report of a run whose only task succeeds does not arrive. -/
theorem report_lost_in_envelope :
    ¬ ∀ (env : Env Unit) (iter : MapOrder) (s : State Unit) (r : Report) (before : List OutMsg),
      env.wf.validate iter = .ok () → env.system.Reachable s → s.report? = some r →
      ReportArrives before r := by
  intro h
  have hrun : (loneTask.system.run? ([Env.Action.main, .main, .main] ++ wholeTask 0 {} ++
      [Env.Action.main, .main, .main])).any (fun s => s.report?.isSome) = true := by decide +kernel
  obtain ⟨s, hs, hp⟩ := System.exists_of_run hrun
  obtain ⟨r, hr⟩ := Option.isSome_iff_exists.mp hp
  obtain ⟨p, hread, -⟩ := h loneTask .insertion s r [] (by rfl) hs hr
  rw [readReport_reportMsg] at hread
  cases hread

end Orchestrator.Proofs
