import Mathlib.Data.List.Forall2
import Orchestrator.Engine.Grpc
import Orchestrator.Proofs.ClientProtocol
import Orchestrator.Proofs.OverallStatus

/-!
# `Orchestrator.Proofs.TransportsAgree`: the same messages over gRPC and over stdio

`Pb.ClientMessage.toStdio` is the line with the content of a gRPC message. The two transports are
compared at three places: what a first message starts (`startsAgree_iff`), what a skill result is
turned into (`pumps_agree`), and what the report says (`sameReport_iff`).

The results agree always. The starts do not: the handler takes no empty text for the inputs, and
does not check the required ones. Neither do the reports: the handler drops the start of the run and
the data of the decisions, and it narrows the attempts of a task to 32 bits.

What a transport starts is the workflow and the inputs of the run, if it accepts the message
(`grpcStarts`, `stdioStarts`). They agree when both refuse, for whatever reason and with whatever
text, or both accept the same. The condition (`StartCondition`) is about the message and its line:
which inputs it gives, whether they are empty, and whether the line fits the scanner of the stdio
transport.

`JsonLaws` has the three facts about `encoding/json` that the comparison uses, each about one text.
-/

set_option autoImplicit false

namespace Orchestrator.Proofs

open Orchestrator.Lib Orchestrator.Engine Orchestrator.Engine.Env

variable {B : Type} {env : Env B}

/-- What `encoding/json` says about three texts. It is all that the comparison of the transports
needs of the package. -/
structure JsonLaws (lib : GoLib) : Prop where
  /-- The empty text is no JSON. -/
  empty : lib.unmarshal "" = none
  null : lib.unmarshal "null" = some .null
  /-- Every value has a text. -/
  marshal : ∀ v, lib.marshal v ≠ ""

/-! ### The same content -/

/-- The line with the content of a message. It has the members of the message under the names that
the other transport uses. -/
def toStdio : Pb.ClientMessage → InMsg
  | .startRun start =>
    { type := "start_run"
      specJSON := start.specJSON
      inputsJSON := start.inputsJSON }
  | .skillResult sr =>
    { type := "skill_result"
      invocationID := sr.invocationID
      outputJSON := sr.getOutputJSON
      error := sr.getError.map (fun e => ⟨e.type, e.message, e.retryable⟩)
      decisions := sr.decisions.map (fun d => ⟨d.atMs, d.summary, d.rationale, d.dataJSON⟩)
      llmUsage := sr.llmUsage.map (fun u => ⟨u.provider, u.model, u.tokensIn, u.tokensOut⟩) }
  | .cancel c =>
    { type := "cancel_run"
      runID := c.runID }
  | .unset => { type := "" }

/-! ### The start of a run -/

/-- The workflow and the inputs of a run that the stdio transport accepts. -/
def stdioStarts : Boot B → Option (Workflow × Dict String Json)
  | .accepted env => some (env.wf, env.inputs)
  | _ => none

/-- The workflow and the inputs of a run that the handler accepts. -/
def grpcStarts : GrpcBoot B → Option (Workflow × Dict String Json)
  | .accepted env => some (env.wf, env.inputs)
  | _ => none

/-- On a first message both transports refuse the run, or both accept it with the same workflow and
the same inputs. -/
def StartsAgree (s : Server B) (m : Pb.ClientMessage) : Prop :=
  grpcStarts (s.execute m) = stdioStarts (s.launch.boot (toStdio m))

/-- Every required input is given. -/
def GivesRequired (wf : Workflow) (inputs : Dict String Json) : Prop :=
  ∀ name spec, wf.inputsSchema.get? name = some spec → spec.required = true →
    inputs.contains name = true

/-- The line of a message fits the scanner. -/
def ShortLine (l : Launch B) (m : InMsg) : Prop := l.lineBytes m < Launch.maxScanTokenSize

/-- The transports answer a start message alike, whose workflow and inputs decode. What is left to
differ is the length of the line, the empty text of the inputs, and the required ones. -/
structure SameAnswer (s : Server B) (start : Pb.StartRun) (wf : Workflow)
    (inputs : Dict String Json) : Prop where
  /-- The handler refuses the empty text, so the other transport has to have a reason as well. -/
  empty : start.inputsJSON = "" →
    ¬ (ShortLine s.launch (toStdio (.startRun start)) ∧ GivesRequired wf inputs)
  /-- Any other text the handler accepts when it receives the message. -/
  given : start.inputsJSON ≠ "" → (s.recvError (.startRun start) = none ↔
    ShortLine s.launch (toStdio (.startRun start)) ∧ GivesRequired wf inputs)

/-- When the transports agree on a first message. On a message that starts no run they always do. -/
def StartCondition (s : Server B) : Pb.ClientMessage → Prop
  | .startRun start => ∀ wf inputs, s.launch.parseSpec start.specJSON = .ok wf →
      s.launch.decodeInputs start.inputsJSON = some inputs → SameAnswer s start wf inputs
  | _ => True

/-- No required input is missing exactly when each of them is given. -/
theorem missingInput_eq_none_iff {l : Launch B} {wf : Workflow} {inputs : Dict String Json} :
    l.missingInput wf inputs = none ↔ GivesRequired wf inputs := by
  have hany := range_any l.iter wf.inputsSchema
    (fun e => e.2.required && !inputs.contains e.1)
  rw [Launch.missingInput, Option.map_eq_none_iff, ← Option.not_isSome_iff_eq_none,
    List.isSome_find?, hany]
  constructor
  · intro h name spec hget hreq
    by_contra hmiss
    exact h ⟨name, spec, hget, by simp [hreq, hmiss]⟩
  · rintro h ⟨name, spec, hget, hp⟩
    simp only [Bool.and_eq_true, Bool.not_eq_true'] at hp
    rw [h name spec hget hp.1] at hp
    cases hp.2

/-- Apart from the empty text the transports decode inputs alike. -/
theorem decodeInputs_eq {s : Server B} (hlaws : JsonLaws s.launch.lib) (text : String) :
    s.decodeInputs text = if text = "" then none else s.launch.decodeInputs text := by
  by_cases hempty : text = ""
  · rw [if_pos hempty, hempty, Server.decodeInputs, hlaws.empty]
    rfl
  · rw [if_neg hempty]
    by_cases hnull : text = "null"
    · -- The nil map.
      rw [hnull, Server.decodeInputs, hlaws.null, Launch.decodeInputs, if_pos (Or.inr rfl)]
      rfl
    · rw [Launch.decodeInputs, if_neg (not_or.mpr ⟨hempty, hnull⟩)]
      rfl

/-- What the handler accepts. -/
theorem grpcStarts_iff {s : Server B} {start : Pb.StartRun} {wf : Workflow}
    {inputs : Dict String Json} :
    grpcStarts (s.execute (.startRun start)) = some (wf, inputs) ↔
      s.recvError (.startRun start) = none ∧ s.launch.parseSpec start.specJSON = .ok wf ∧
        s.decodeInputs start.inputsJSON = some inputs := by
  -- The server may refuse the message, its document or its inputs; otherwise it starts the run.
  cases hrecv : s.recvError (.startRun start) with
  | some err => simp [Server.execute, hrecv, grpcStarts]
  | none =>
      rw [Server.execute, hrecv]
      show grpcStarts (s.accept (.startRun start)) = _ ↔ _
      cases hparse : s.launch.parseSpec start.specJSON with
      | error f =>
          have hnone : grpcStarts (s.accept (.startRun start)) = none := by
            rw [Server.accept, hparse]
            cases f with
            | nilPointer => rfl
            | error e => cases e <;> rfl
          simp [hnone]
      | ok w =>
          rw [Server.accept, hparse]
          show grpcStarts (s.start start.inputsJSON w) = _ ↔ _
          cases hin : s.decodeInputs start.inputsJSON <;>
            simp [Server.start, hin, grpcStarts]

/-- What the stdio transport accepts of a workflow and its inputs. -/
theorem stdioStarts_start_iff {l : Launch B} {msg : InMsg} {w wf : Workflow}
    {inputs : Dict String Json} :
    stdioStarts (l.start msg w) = some (wf, inputs) ↔
      w = wf ∧ l.decodeInputs msg.inputsJSON = some inputs ∧ GivesRequired wf inputs := by
  rw [Launch.start]
  cases hin : l.decodeInputs msg.inputsJSON with
  | none => simp [stdioStarts]
  | some d =>
      -- This transport checks the required inputs. The server does not.
      cases hmiss : l.missingInput w d with
      | some name =>
          constructor
          · intro h
            simp [stdioStarts, hmiss] at h
          · rintro ⟨rfl, hd, hgives⟩
            cases hd
            rw [missingInput_eq_none_iff.mpr hgives] at hmiss
            cases hmiss
      | none =>
          constructor
          · intro h
            simp only [hmiss, stdioStarts, Option.some.injEq, Prod.mk.injEq] at h
            obtain ⟨rfl, rfl⟩ := h
            exact ⟨rfl, rfl, missingInput_eq_none_iff.mp hmiss⟩
          · rintro ⟨rfl, hd, -⟩
            cases hd
            simp only [hmiss, stdioStarts]

/-- What the stdio transport accepts. -/
theorem stdioStarts_iff {l : Launch B} {start : Pb.StartRun} {wf : Workflow}
    {inputs : Dict String Json} :
    stdioStarts (l.boot (toStdio (.startRun start))) = some (wf, inputs) ↔
      ShortLine l (toStdio (.startRun start)) ∧ l.parseSpec start.specJSON = .ok wf ∧
        l.decodeInputs start.inputsJSON = some inputs ∧ GivesRequired wf inputs := by
  -- A line over the limit of the scanner is never read.
  by_cases hshort : l.lineBytes (toStdio (.startRun start)) < Launch.maxScanTokenSize
  · rw [Launch.boot, if_pos hshort]
    cases hparse : l.parseSpec start.specJSON with
    | error f =>
        have hnone : stdioStarts (l.accept (toStdio (.startRun start))) = none := by
          simp only [Launch.accept, toStdio, hparse, ne_eq, not_true_eq_false, if_false]
          cases f with
          | nilPointer => rfl
          | error e => cases e <;> rfl
        simp [hnone]
    | ok w =>
        have haccept : l.accept (toStdio (.startRun start))
            = l.start (toStdio (.startRun start)) w := by
          simp only [Launch.accept, toStdio, hparse, ne_eq, not_true_eq_false, if_false]
        rw [haccept, stdioStarts_start_iff, Except.ok.injEq]
        constructor
        · exact fun h => ⟨hshort, h⟩
        · exact fun h => h.2
  · rw [Launch.boot, if_neg hshort]
    simp [stdioStarts, ShortLine, hshort]

/-- Another first message starts no run over gRPC. -/
theorem grpcStarts_other {s : Server B} {m : Pb.ClientMessage} (hm : ∀ start, m ≠ .startRun start) :
    grpcStarts (s.execute m) = none := by
  rw [Server.execute]
  cases s.recvError m with
  | some err => rfl
  | none =>
      cases m with
      | startRun start => exact absurd rfl (hm start)
      | skillResult _ | cancel _ | unset => rfl

/-- Another first message starts no run over stdio. -/
theorem stdioStarts_other {l : Launch B} {m : Pb.ClientMessage}
    (hm : ∀ start, m ≠ .startRun start) : stdioStarts (l.boot (toStdio m)) = none := by
  have htype : (toStdio m).type ≠ "start_run" := by
    cases m with
    | startRun start => exact absurd rfl (hm start)
    | skillResult _ | cancel _ | unset => simp [toStdio]
  rw [Launch.boot, Launch.accept, if_pos htype]
  split <;> rfl

/-- The transports agree on a first message when they accept it for the same runs. -/
theorem startsAgree_iff_same {s : Server B} {m : Pb.ClientMessage} :
    StartsAgree s m ↔ ∀ wf inputs, grpcStarts (s.execute m) = some (wf, inputs) ↔
      stdioStarts (s.launch.boot (toStdio m)) = some (wf, inputs) := by
  constructor
  · intro h wf inputs
    rw [h]
  · intro h
    exact Option.ext (fun x => h x.1 x.2)

/-- The transports agree on a first message exactly under `StartCondition`. -/
theorem startsAgree_iff {s : Server B} (hlaws : JsonLaws s.launch.lib) (m : Pb.ClientMessage) :
    StartsAgree s m ↔ StartCondition s m := by
  cases m with
  | startRun start =>
      rw [startsAgree_iff_same]
      -- Both sides ask for the same workflow and inputs; what else they ask for is compared.
      simp only [grpcStarts_iff, stdioStarts_iff, decodeInputs_eq hlaws]
      constructor
      · intro h wf inputs hparse hin
        have hboth := h wf inputs
        constructor
        · intro hempty hstdio
          have := hboth.mpr ⟨hstdio.1, hparse, hin, hstdio.2⟩
          simp [hempty] at this
        · intro hne
          simpa [hne, hparse, hin] using hboth
      · intro h wf inputs
        by_cases hempty : start.inputsJSON = ""
        · rw [if_pos hempty]
          constructor
          · rintro ⟨-, -, hnone⟩
            cases hnone
          · rintro ⟨hshort, hparse, hin, hgives⟩
            exact absurd ⟨hshort, hgives⟩ ((h wf inputs hparse hin).empty hempty)
        · rw [if_neg hempty]
          constructor
          · rintro ⟨hrecv, hparse, hin⟩
            have hstdio := ((h wf inputs hparse hin).given hempty).mp hrecv
            exact ⟨hstdio.1, hparse, hin, hstdio.2⟩
          · rintro ⟨hshort, hparse, hin, hgives⟩
            exact ⟨((h wf inputs hparse hin).given hempty).mpr ⟨hshort, hgives⟩, hparse, hin⟩
  | skillResult _ | cancel _ | unset =>
      refine iff_of_true ?_ trivial
      rw [StartsAgree, grpcStarts_other (by simp), stdioStarts_other (by simp)]

/-! ### Later messages -/

/-- What the stdio pump makes of a line, read off its steps, so that it can be compared with what
the other transport makes of a message. -/
def stdioPumped (env : Env B) (e : Embedded B) (line : InMsg) : Option Pumped := do
  let e₁ ← env.pumpStep e (.line (some line))
  match e₁.pump with
  | .lookup _ => do
    let e₂ ← env.pumpStep e₁ .lookup
    match e₂.pump with
    | .deliver k res => some (.deliver k res)
    | _ => some .ignored
  | _ => some (if e₁.cancelled then .cancelRun else .ignored)

/-- When a cancellation was read, the pump has stopped or is about to. -/
theorem pump_of_cancelled {e : Embedded B} (h : env.embeddedSystem.Reachable e) :
    e.cancelled = true → e.pump = .check ∨ e.pump = .stopped := by
  refine h.holds (P := fun e => e.cancelled = true → e.pump = .check ∨ e.pump = .stopped)
    (fun hc => by cases hc) fun e a e' _ hinv ha hc => ?_
  cases embedded_inv ha with
  | readCancel => exact Or.inl rfl
  | readOther _ _ _ | deliver _ _ _ _ _ _ => exact Or.inl rfl
  | eof _ => exact Or.inr rfl
  | check _ => exact Or.inr (if_pos hc)
  | readResult _ hp _ | found _ _ hp _ | unknown _ hp _ =>
      rcases hinv hc with h | h <;> rw [h] at hp <;> cases hp
  | _ => exact hinv hc

/-- Whenever the stdio pump reads a line, it makes of it what the handler makes of the message. -/
theorem pumps_agree {e : Embedded B} (h : env.embeddedSystem.Reachable e) (hp : e.pump = .scan)
    (m : Pb.ClientMessage) : stdioPumped env e (toStdio m) = some (m.pump e.pending) := by
  have hrun : e.cancelled = false := by
    by_contra hne
    rcases pump_of_cancelled h (by simpa using hne) with hpc | hpc <;> rw [hp] at hpc <;> cases hpc
  cases m with
  | skillResult sr =>
      cases hk : e.pending.get? sr.invocationID with
      | some k => simp [stdioPumped, toStdio, pumpStep, hp, hk, Pb.ClientMessage.pump,
          Pb.SkillResult.dispatch, InMsg.toResult, Pb.SkillResult.toResult]
      | none => simp [stdioPumped, toStdio, pumpStep, hp, hk, Pb.ClientMessage.pump,
          Pb.SkillResult.dispatch]
  | cancel c =>
      simp [stdioPumped, toStdio, pumpStep, hp, schedStep, step?, Pb.ClientMessage.pump]
  | startRun _ | unset =>
      simp [stdioPumped, toStdio, pumpStep, hp, hrun, Pb.ClientMessage.pump]

/-! ### The report -/

/-- The text that stands for a value of type `any`. -/
def textOf (lib : GoLib) (v : Json) : String := if isNil v then "" else lib.marshal v

/-- The message has the field values of the usage, each of them. -/
structure SameUsage (u : LLMUsage) (p : Pb.LlmUsage) : Prop where
  provider : p.provider = u.provider
  model : p.model = u.model
  tokensIn : p.tokensIn = u.tokensIn
  tokensOut : p.tokensOut = u.tokensOut

/-- The message has the field values of the decision. Its data is the text of the value, or empty if
there is none. -/
structure SameDecision (lib : GoLib) (d : Decision) (p : Pb.Decision) : Prop where
  atMs : p.atMs = d.atMs
  summary : p.summary = d.summary
  rationale : p.rationale = d.rationale
  data : p.dataJSON = textOf lib d.data

/-- The message has the field values of the span, with the statuses as texts. -/
structure SameSpan (lib : GoLib) (t : TaskSpan) (p : Pb.TaskSpan) : Prop where
  id : p.id = t.id
  status : p.status = t.status.text
  durationMs : p.durationMs = t.durationMs
  attempts : p.attempts = t.attempts
  llm : Option.Rel SameUsage t.llm p.llm
  decisions : List.Forall₂ (SameDecision lib) t.decisions p.decisions
  error : p.error = t.error

/-- The message has the field values of the report, which `SendReport` writes field by field. -/
structure SameReport (lib : GoLib) (r : Report) (p : Pb.Report) : Prop where
  workflow : p.workflow = r.workflow
  runID : p.runID = r.runID
  status : p.status = r.status.text
  /-- The one is a number of milliseconds, the other a text. -/
  startedAt : lib.rfc3339 (p.startedAtUnixMs.toNat * 1000000) = r.startedAt
  durationMs : p.durationMs = r.durationMs
  tasks : List.Forall₂ (SameSpan lib) r.tasks p.tasks
  criticalPath : p.criticalPath = r.criticalPath
  llmTokensIn : p.totals.llmTokensIn = r.totals.llmTokensIn
  llmTokensOut : p.totals.llmTokensOut = r.totals.llmTokensOut
  toolCalls : p.totals.toolCalls = r.totals.toolCalls
  retries : p.totals.retries = r.totals.retries
  errors : p.errors = r.errors
  output : p.outputJSON = textOf lib r.output

/-- When the message of the handler says what the report says: the time at which it started is the
zero that the message has, the attempts fit 32 bits, and no decision has data. -/
structure ReportCondition (lib : GoLib) (r : Report) : Prop where
  /-- The run started in the first second of 1970. -/
  startedAt : r.startedAt = lib.rfc3339 0
  attempts : ∀ t ∈ r.tasks, -2 ^ 31 ≤ t.attempts ∧ t.attempts < 2 ^ 31
  data : ∀ t ∈ r.tasks, ∀ d ∈ t.decisions, isNil d.data = true

/-- A number keeps its value when it fits into 32 bits. -/
theorem int32_eq_iff {n : Int} : int32 n = n ↔ -2 ^ 31 ≤ n ∧ n < 2 ^ 31 := by
  unfold int32
  constructor
  · intro h
    have hlow := @Int.le_bmod n (2 ^ 32) (by omega)
    have hhigh := @Int.bmod_lt n (2 ^ 32) (by omega)
    rw [h] at hlow hhigh
    omega
  · intro h
    exact Int.bmod_eq_of_le (by omega) (by omega)

/-- The usage of a task keeps its content. -/
theorem sameUsage_toProto (o : Option LLMUsage) :
    Option.Rel SameUsage o (o.map LLMUsage.toProto) := by
  cases o with
  | none => exact .none
  | some u => exact .some ⟨rfl, rfl, rfl, rfl⟩

/-- A decision keeps its content exactly when it has no data. -/
theorem sameDecision_iff {lib : GoLib} (hlaws : JsonLaws lib) (d : Decision) :
    SameDecision lib d d.toProto ↔ isNil d.data = true := by
  constructor
  · intro h
    by_contra hne
    have hdata : "" = textOf lib d.data := h.data
    rw [textOf, if_neg hne] at hdata
    exact hlaws.marshal d.data hdata.symm
  · intro hnil
    exact ⟨rfl, rfl, rfl, (if_pos hnil).symm⟩

/-- A span keeps its content exactly when its attempts fit and its decisions have no data. -/
theorem sameSpan_iff {lib : GoLib} (hlaws : JsonLaws lib) (t : TaskSpan) :
    SameSpan lib t t.toProto ↔ (-2 ^ 31 ≤ t.attempts ∧ t.attempts < 2 ^ 31) ∧
      ∀ d ∈ t.decisions, isNil d.data = true := by
  -- The message has no field for the data of a decision, so it is lost where there is any.
  have hdecisions : List.Forall₂ (SameDecision lib) t.decisions t.toProto.decisions ↔
      ∀ d ∈ t.decisions, isNil d.data = true := by
    show List.Forall₂ _ _ (t.decisions.map Decision.toProto) ↔ _
    simp only [List.forall₂_map_right_iff, List.forall₂_same, sameDecision_iff hlaws]
  constructor
  · intro h
    exact ⟨int32_eq_iff.mp h.attempts, hdecisions.mp h.decisions⟩
  · rintro ⟨hattempts, hdata⟩
    exact
      { id := rfl
        status := rfl
        durationMs := rfl
        attempts := int32_eq_iff.mpr hattempts
        llm := sameUsage_toProto t.llm
        decisions := hdecisions.mpr hdata
        error := rfl }

/-- The message of the handler has the field values of the report exactly under
`ReportCondition`. -/
theorem sameReport_iff {lib : GoLib} (hlaws : JsonLaws lib) (r : Report) :
    SameReport lib r (reportToProto lib r) ↔ ReportCondition lib r := by
  have htasks : List.Forall₂ (SameSpan lib) r.tasks (reportToProto lib r).tasks ↔
      ∀ t ∈ r.tasks, (-2 ^ 31 ≤ t.attempts ∧ t.attempts < 2 ^ 31) ∧
        ∀ d ∈ t.decisions, isNil d.data = true := by
    show List.Forall₂ _ _ (r.tasks.map TaskSpan.toProto) ↔ _
    simp only [List.forall₂_map_right_iff, List.forall₂_same, sameSpan_iff hlaws]
  -- The handler leaves the start at zero.
  have hstart : lib.rfc3339 ((reportToProto lib r).startedAtUnixMs.toNat * 1000000)
      = lib.rfc3339 0 := congrArg lib.rfc3339 (Nat.zero_mul 1000000)
  constructor
  · intro h
    exact ⟨h.startedAt.symm.trans hstart, fun t ht => (htasks.mp h.tasks t ht).1,
      fun t ht => (htasks.mp h.tasks t ht).2⟩
  · intro h
    exact
      { workflow := rfl
        runID := rfl
        status := rfl
        startedAt := hstart.trans h.startedAt.symm
        durationMs := rfl
        tasks := htasks.mpr fun t ht => ⟨h.attempts t ht, h.data t ht⟩
        criticalPath := rfl
        llmTokensIn := rfl
        llmTokensOut := rfl
        toolCalls := rfl
        retries := rfl
        errors := rfl
        output := rfl }

/-! ### The transports -/

/-- A library that knows the texts of the empty object and of one document. -/
def wireLib (doc : Json) : GoLib where
  marshal := fun _ => "\x7b\x7d"
  unmarshal := fun text =>
    if text = "" then none
    else if text = "null" then some .null
    else if text = "\x7b\x7d" then some (.obj [])
    else some doc
  quote := fun s => "\"" ++ s ++ "\""
  rfc3339 := fun n => if n < 1000000000 then "1970-01-01T00:00:00Z" else "2024-01-01T00:00:00Z"

/-- A server that receives every message. -/
def serverOf (doc : Json) : Server Unit where
  launch := { launchOf doc with lib := wireLib doc }
  recvError := fun _ => none

/-- The library of the example obeys the laws. -/
theorem jsonLaws_wireLib (doc : Json) : JsonLaws (wireLib doc) where
  empty := rfl
  null := rfl
  marshal := by
    intro v
    show "\x7b\x7d" ≠ ""
    decide

/-- A report of one task with one decision, whose data the mapping loses. -/
def oneDecision (startedAt : String) (data : Json) : Report where
  workflow := "w"
  runID := "r"
  status := .succeeded
  startedAt := startedAt
  durationMs := 5
  tasks := [
    { id := "a"
      status := .succeeded
      durationMs := 5
      attempts := 1
      decisions := [{ atMs := 1, summary := "s", rationale := "", data := data }] }]
  criticalPath := ["a"]
  totals := {}
  errors := []
  output := .obj []

/-- The start message of a workflow with one task and the inputs `{}`, which both transports
accept. -/
def oneTaskStart : Pb.StartRun where
  specJSON := "\x7b\"workflow\":\x7b\"name\":\"w\",\"tasks\":[\x7b\"id\":\"a\",\"skill\":\"s\"," ++
    "\"inputs\":\x7b\"x\":\"v\"\x7d\x7d]\x7d\x7d"
  inputsJSON := "\x7b\x7d"

/-- A document that asks for the input `x`, which one of the transports does not check. -/
def requiredDocument : Json :=
  .obj [("workflow", .obj [("name", .str "w"),
    ("inputs", .obj [("x", .obj [("type", .str "string"), ("required", .bool true)])]),
    ("tasks", .arr [.obj [("id", .str "a"), ("skill", .str "s")]])])]

/-- Its start message, without the input. -/
def requiredStart : Pb.StartRun where
  specJSON := "\x7b\"workflow\":\x7b\"name\":\"w\",\"inputs\":\x7b\"x\":\x7b\"type\":\"string\"," ++
    "\"required\":true\x7d\x7d,\"tasks\":[\x7b\"id\":\"a\",\"skill\":\"s\"\x7d]\x7d\x7d"
  inputsJSON := "\x7b\x7d"

end Orchestrator.Proofs
