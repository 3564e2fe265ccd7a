import Orchestrator.Engine.Decode
import Orchestrator.Engine.Encode

/-!
# `Orchestrator.Engine.Main`: the start of the engine (`engine/cmd/orchestrator/main.go`)

`runEmbedded` up to `sched.Run`: the start message is read, its workflow parsed, its inputs decoded
and checked. `Launch` collects what the process finds around it: the library, the order of maps, the
limiter, the clock and the id of the run.

There are three ways to end before the run. An error is fatal: its text goes out as a report
message, and the process exits with an error status. A nil pointer in the document is a panic, and
so is a stack overflow, which no code can recover from. Both end the process without a message.

The checks come in the order of the source. The type of the message is checked before its workflow
is parsed, the inputs are decoded after it, and a missing required input is looked for last, in the
order of the map of declarations. Inputs may be given as the empty text or as `null`. The gRPC
server does not share the last check, which is why `start` is split off from `accept`.
-/

set_option autoImplicit false

namespace Orchestrator.Engine

open Orchestrator.Lib

/-- The text of an error of `Parse`, as the client reads it. A stack overflow has none, since the
process does not live to print it. -/
def SpecError.text (lib : GoLib) : SpecError → String
  | .decode msg => "spec parse error: " ++ msg
  | .nameRequired => "spec: workflow.name is required"
  | .noTasks => "spec: workflow.tasks must have at least one task"
  | .duplicateId id => "spec: duplicate task id " ++ lib.quote id
  | .unknownDependency task dep =>
    "spec: task " ++ lib.quote task ++ " depends on unknown task " ++ lib.quote dep
  | .unknownProvider task provider =>
    "spec: task " ++ lib.quote task ++ " references unknown provider " ++ lib.quote provider
  | .cycle node dep =>
    "spec: dependency cycle detected at " ++ lib.quote node ++ " → " ++ lib.quote dep
  | .stackOverflow => ""

/-- The surroundings of one process: the library, the order in which maps are ranged over, the
limiter, and what the process draws from the outside, such as its run id and its clock. -/
structure Launch (B : Type) where
  lib : GoLib
  iter : MapOrder
  limiter : Limiter B
  /-- The length in bytes of the line that holds a message. -/
  lineBytes : InMsg → Nat
  /-- The text of the error of `json.Unmarshal` on a text. -/
  unmarshalError : String → String
  runID : String
  /-- The instant at which `sched.Run` starts, in nanoseconds. -/
  startedAt : Nat

/-- How `runEmbedded` comes to the call of `sched.Run`, or how it ends before that. -/
inductive Boot (B : Type)
  | accepted (env : Env B)
  /-- `fatal` with its message. -/
  | fatal (msg : String)
  /-- A panic. -/
  | crash

variable {B : Type}

namespace Launch

variable (l : Launch B)

/-- The inputs of the start message; `none` is an error. -/
def decodeInputs (inputsJSON : String) : Option (Dict String Json) :=
  if inputsJSON = "" ∨ inputsJSON = "null" then some .empty
  else (l.lib.unmarshal inputsJSON).bind (fun v => decodeMap some v .empty)

/-- A required input that is missing, the first in the order of the map. -/
def missingInput (wf : Workflow) (inputs : Dict String Json) : Option String :=
  ((l.iter.range wf.inputsSchema).find? (fun e => e.2.required && !inputs.contains e.1)).map (·.1)

/-- From the workflow to `sched.Run`. The inputs must decode, and every required one must be among
them or have a default. -/
def start (msg : InMsg) (wf : Workflow) : Boot B :=
  match l.decodeInputs msg.inputsJSON with
  | none => .fatal ("inputs parse error: " ++ l.unmarshalError msg.inputsJSON)
  -- The inputs decode; what is left is the check for required ones.
  | some inputs =>
    match l.missingInput wf inputs with
    | some name => .fatal ("missing required input: " ++ l.lib.quote name)
    | none => .accepted
        { wf := wf
          runID := l.runID
          inputs := inputs
          lib := l.lib
          iter := l.iter
          limiter := l.limiter
          startedAt := l.startedAt }

/-- `spec.Parse` of the text in the start message. The text is decoded as a value first, and that
value into the document, so the errors of both have one form. -/
def parseSpec (specJSON : String) : Except ParseFailure Workflow :=
  match l.lib.unmarshal specJSON with
  | none => .error (.error (.decode (l.unmarshalError specJSON)))
  | some doc => parseDocument l.iter (l.unmarshalError specJSON) doc

/-- From a start message that was read to `sched.Run`. What goes wrong here is fatal and ends the
process with a message. A panic ends it without one. -/
def accept (msg : InMsg) : Boot B :=
  if msg.type ≠ "start_run" then
    .fatal ("reading start_run: stdio: expected start_run, got " ++ l.lib.quote msg.type)
  else
    match l.parseSpec msg.specJSON with
    | .error .nilPointer => .crash
    -- A stack overflow ends the process.
    | .error (.error .stackOverflow) => .crash
    | .error (.error e) => .fatal ("spec error: " ++ e.text l.lib)
    | .ok wf => l.start msg wf

/-- The room of a `bufio.Scanner` for a line and its end. -/
def maxScanTokenSize : Nat := 64 * 1024

/-- `runEmbedded`, up to `sched.Run`. -/
def boot (msg : InMsg) : Boot B :=
  if l.lineBytes msg < maxScanTokenSize then l.accept msg
  else .fatal "reading start_run: stdio: reading start_run: bufio.Scanner: token too long"

end Launch

/-- The line that `fatal` writes. -/
def fatalMsg (msg : String) : OutMsg where
  type := "report"
  report := some (.obj [("type", .str "error"), ("error", .str msg)])

end Orchestrator.Engine
