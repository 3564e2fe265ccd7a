import Orchestrator.Engine.Main

/-!
# `Orchestrator.Engine.Grpc`: the gRPC transport (`engine/transport/grpc/server.go`)

`Server.execute` is `Execute` up to `sched.Run`: the first message of the stream is received, its
workflow parsed and its inputs decoded. `Pb.ClientMessage.pump` is what the receiving goroutine
makes of a later message, and `reportToProto` is the report that ends the stream. The messages are
those of `orchestrator.proto`, in the namespace `Pb`. A message field that is not set has its zero
value.

The header of the Go file says that the transport mirrors the stdio transport. Three things are done
otherwise, and the definitions keep them as they are: the inputs are decoded without asking for
those that are required, an empty text of inputs is not taken for `{}`, and the attempts of a span
are narrowed to 32 bits (`int32`).

Protocol Buffers are taken at the level of their Go structs: a message is what the library hands to
the code. What the library itself refuses is an error of `Recv`.

The registry of waiting calls is an argument of `pump`, which only says to which call a result goes.
The run itself, with the goroutines that receive and send, is in `Orchestrator.Engine.GrpcSession`.
-/

set_option autoImplicit false

namespace Orchestrator.Engine

open Orchestrator.Lib

/-! ### Messages -/

namespace Pb

/-- The first message of a stream: the workflow and the inputs of the run, both as JSON text. -/
structure StartRun where
  specJSON : String
  inputsJSON : String

/-- The error of a failed skill call, field by field as on the stdio transport. -/
structure SkillError where
  type : String
  message : String
  retryable : Bool

/-- A decision of a skill, or of a span. The message has a field for its data, but `toProto` never
sets it, so the data of a span does not reach the client. -/
structure Decision where
  atMs : Int
  summary : String
  rationale : String
  dataJSON : String := ""

/-- The usage of language models by a call, or by a task: who was asked, and how many tokens went in
and came out. -/
structure LlmUsage where
  provider : String
  model : String
  tokensIn : Int
  tokensOut : Int

/-- The `oneof` of a skill result. -/
inductive Outcome
  | outputJSON (text : String)
  | error (e : SkillError)

/-- The answer to an invocation, with an output or an error. A message may carry neither of them. -/
structure SkillResult where
  invocationID : String
  outcome : Option Outcome
  decisions : List Decision
  llmUsage : Option LlmUsage

/-- `GetOutputJson`. A result that carries an error, or nothing at all, has the empty text. -/
def SkillResult.getOutputJSON (r : SkillResult) : String :=
  match r.outcome with
  | some (.outputJSON text) => text
  | _ => ""

/-- `GetError`. The outcome is a `oneof`, so a result has an output or an error and never both. -/
def SkillResult.getError (r : SkillResult) : Option SkillError :=
  match r.outcome with
  | some (.error e) => some e
  | _ => none

/-- The request to cancel the run. The engine looks at neither field. -/
structure CancelRunRequest where
  runID : String
  reason : String

/-- A message of the client. Its `oneof` may be unset, which the handler takes like any message that
it does not expect. -/
inductive ClientMessage
  | startRun (start : StartRun)
  | skillResult (r : SkillResult)
  | cancel (c : CancelRunRequest)
  | unset

/-- A task in the report: how it ended, after how many attempts, and what it used. -/
structure TaskSpan where
  id : String
  status : String
  durationMs : Int
  attempts : Int
  llm : Option LlmUsage
  decisions : List Decision
  error : String

/-- The totals of a run, field by field as the engine counts them. They have the 64 bits of the
source, so nothing is cut off. -/
structure Totals where
  llmTokensIn : Int
  llmTokensOut : Int
  toolCalls : Int
  retries : Int

/-- The report of a run, as the client of the service gets it. The statuses are texts and the output
is JSON in a text. `reportToProto` leaves `startedAtUnixMs` at its zero value. -/
structure Report where
  workflow : String
  runID : String
  status : String
  startedAtUnixMs : Int := 0
  durationMs : Int
  tasks : List TaskSpan
  criticalPath : List String
  totals : Totals
  errors : List String
  outputJSON : String

end Pb

/-! ### The start of a run -/

/-- `timeNowNs`. Nothing puts another clock in its place. -/
def timeNowNs : Int := 0

/-- `newRunID`. -/
def newRunID : String := "r_" ++ toString timeNowNs

/-- The surroundings of a server: those of a process, and the library that reads the stream. -/
structure Server (B : Type) where
  launch : Launch B
  /-- The error of `stream.Recv` on a message, such as one beyond the size limit. -/
  recvError : Pb.ClientMessage → Option String

/-- How the handler comes to the call of `sched.Run`: with the arguments of the run, with an error
of its own, or by a panic. -/
inductive GrpcBoot (B : Type)
  | accepted (env : Env B)
  /-- The handler returns an error. -/
  | error (msg : String)
  /-- A panic. -/
  | crash

variable {B : Type}

namespace Server

variable (s : Server B)

/-- `json.Unmarshal` of the inputs; `none` is an error. Of `null` it makes the nil map, which
`sched.Run` replaces by an empty one. -/
def decodeInputs (inputsJSON : String) : Option (Dict String Json) :=
  (s.launch.lib.unmarshal inputsJSON).bind (fun v => decodeMap some v .empty)

/-- From the workflow to `sched.Run`. The inputs must decode, and nothing asks whether a required
one is among them: the process does, the service does not. -/
def start (inputsJSON : String) (wf : Workflow) : GrpcBoot B :=
  match s.decodeInputs inputsJSON with
  | none => .error (s.launch.unmarshalError inputsJSON)
  | some inputs => .accepted
      { wf := wf
        runID := newRunID
        inputs := inputs
        lib := s.launch.lib
        iter := s.launch.iter
        limiter := s.launch.limiter
        startedAt := s.launch.startedAt }

/-- From a first message that was received to `sched.Run`. A panic of the handler is not recovered,
so it takes the server with it. -/
def accept : Pb.ClientMessage → GrpcBoot B
  | .startRun start =>
    match s.launch.parseSpec start.specJSON with
    | .error .nilPointer => .crash
    | .error (.error .stackOverflow) => .crash
    | .error (.error e) => .error (e.text s.launch.lib)
    | .ok wf => s.start start.inputsJSON wf
  | _ => .error "expected StartRun as first message"

/-- `Execute`, up to `sched.Run`: the first message is received, then it is looked at. -/
def execute (first : Pb.ClientMessage) : GrpcBoot B :=
  match s.recvError first with
  | some err => .error err
  | none => s.accept first

end Server

/-! ### Later messages -/

/-- The result that `dispatch` makes of a message. It copies field by field, so a result says the
same over both transports. -/
def Pb.SkillResult.toResult (sr : Pb.SkillResult) : Result where
  invocationID := sr.invocationID
  outputJSON := sr.getOutputJSON
  err := sr.getError.map fun se =>
    { type := se.type
      message := se.message
      retryable := se.retryable }
  decisions := sr.decisions.map fun d =>
    { atMs := d.atMs
      summary := d.summary
      rationale := d.rationale
      dataJSON := d.dataJSON }
  llmUsage := sr.llmUsage.map fun u =>
    { provider := u.provider
      model := u.model
      tokensIn := u.tokensIn
      tokensOut := u.tokensOut }

/-- What becomes of a message of the client: it is dropped, handed to a call, or it cancels the
run. -/
inductive Pumped
  /-- A result goes to the channel of a call. -/
  | deliver (k : Nat) (res : Result)
  | cancelRun
  | ignored
deriving DecidableEq

/-- `dispatch`, with the calls that wait for a result. A result that nobody waits for is ignored
without a word. -/
def Pb.SkillResult.dispatch (sr : Pb.SkillResult) (pending : Dict String Nat) : Pumped :=
  match pending.get? sr.invocationID with
  | some k => .deliver k sr.toResult
  | none => .ignored

/-- The receiving goroutine of `Execute`, on one message. A second start message is ignored, and so
is one without content. -/
def Pb.ClientMessage.pump (m : Pb.ClientMessage) (pending : Dict String Nat) : Pumped :=
  match m with
  | .skillResult sr => sr.dispatch pending
  | .cancel _ => .cancelRun
  | _ => .ignored

/-! ### The report -/

/-- The value of a conversion to `int32`, which wraps around. -/
def int32 (n : Int) : Int := n.bmod (2 ^ 32)

/-- The usage of a span as a message. Both sides count in 64 bits, so nothing is lost. -/
def LLMUsage.toProto (u : LLMUsage) : Pb.LlmUsage where
  provider := u.provider
  model := u.model
  tokensIn := u.tokensIn
  tokensOut := u.tokensOut

/-- A decision of a span. Its data is left behind, although the message has a field for it. -/
def Decision.toProto (d : Decision) : Pb.Decision where
  atMs := d.atMs
  summary := d.summary
  rationale := d.rationale

/-- A span of the report. Its inputs, its output and its start are not part of the message. -/
def TaskSpan.toProto (t : TaskSpan) : Pb.TaskSpan where
  id := t.id
  status := t.status.text
  durationMs := t.durationMs
  attempts := int32 t.attempts
  llm := t.llm.map LLMUsage.toProto
  decisions := t.decisions.map Decision.toProto
  error := t.error

/-- `reportToProto`. It sets every field but `started_at_unix_ms`, and it prints the output only if
there is one. -/
def reportToProto (lib : GoLib) (r : Report) : Pb.Report where
  workflow := r.workflow
  runID := r.runID
  status := r.status.text
  durationMs := r.durationMs
  tasks := r.tasks.map TaskSpan.toProto
  criticalPath := r.criticalPath
  totals :=
    { llmTokensIn := r.totals.llmTokensIn
      llmTokensOut := r.totals.llmTokensOut
      toolCalls := r.totals.toolCalls
      retries := r.totals.retries }
  errors := r.errors
  outputJSON := if isNil r.output then "" else lib.marshal r.output

end Orchestrator.Engine
