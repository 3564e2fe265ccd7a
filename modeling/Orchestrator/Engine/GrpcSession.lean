import Orchestrator.Engine.Grpc

/-!
# `Orchestrator.Engine.GrpcSession`: a run over gRPC (`engine/transport/grpc/server.go`)

`GrpcSession` is the handler `Execute` from the start of `sched.Run` on, with its goroutines: the
scheduler, the calls of `grpcExecutor.Execute`, the goroutine that receives messages and the one
that sends events. `grpcSystem` has its runs. The messages the client sends, the end of the stream
and the errors of sends are labels.

The calls go through the places of the stdio transport, `ExecPc`, and other things are not as there.
The receiving goroutine goes on after a `CancelRun` and stops when `Recv` fails. It never looks at
the run context. The errors of sends are returned as they are. An event is taken off its channel
before it is sent, so a report can overtake one.

The handler itself goes on behind `sched.Run` (`HandlerPc`): it closes `events`, sends the report
without waiting for the goroutine that sends the events, and returns. What the other goroutines do
after that is part of the run as well, as the server lives on.

Each send is one step, although no lock keeps the goroutines apart that send. A send on the closed
`events` is a panic, which `crashed` records; that it never happens is a theorem about the runs.

`sent` lists the messages in the order in which they left, so that the order of the stream can be
stated.
-/

set_option autoImplicit false

namespace Orchestrator.Engine

open Orchestrator.Lib

/-! ### Messages of the engine -/

namespace Pb

/-- The first message of the engine, with the id of the run. -/
structure RunAccepted where
  runID : String

/-- The message that asks the client to run a skill once. The inputs are JSON text. -/
structure SkillInvocation where
  runID : String
  taskID : String
  skill : String
  inputsJSON : String
  attempt : Int
  invocationID : String

/-- An event of the run. `Event.toProto` sets no data, so the text is always empty. -/
structure Event where
  runID : String
  taskID : String
  type : String
  atUnixMs : Int
  dataJSON : String := ""

/-- A message of the engine. A session sends them all on one stream, whose order is that of the
sends. -/
inductive EngineMessage
  | runAccepted (r : RunAccepted)
  | skillInvocation (inv : SkillInvocation)
  | event (e : Event)
  | report (r : Report)

end Pb

/-- The message that `grpcExecutor.Execute` sends. The attempt is cut down to 32 bits, and the id in
the text keeps the whole number. -/
def Invocation.toProto (inv : Invocation) : Pb.SkillInvocation where
  runID := inv.runID
  taskID := inv.taskID
  skill := inv.skill
  inputsJSON := inv.inputsJSON
  attempt := int32 inv.attempt
  invocationID := inv.invocationID

/-- The message of an event. The kinds of events have the same texts on both transports. -/
def Event.toProto (e : Event) : Pb.Event where
  runID := e.runID
  taskID := e.taskID
  type := e.type.text
  atUnixMs := e.atUnixMs

/-! ### State -/

/-- Where the receiving goroutine is: in `Recv`, in `dispatch` before or after the lookup, or at its
end. -/
inductive RecvPc
  /-- At `stream.Recv`. -/
  | recv
  /-- In `dispatch`, before it looks up the channel. -/
  | dispatch (sr : Pb.SkillResult)
  /-- In `dispatch`, before it sends a result to the channel of a call. -/
  | deliver (k : Nat) (res : Result)
  | stopped

/-- Where the handler is: in `sched.Run`, between the close of `events` and the report, or
returned. -/
inductive HandlerPc
  /-- In `sched.Run`. -/
  | running
  /-- Behind `close(events)`, before it sends the report. -/
  | closed
  | returned (err : Option String)
deriving DecidableEq

/-- The handler during a run: the scheduler, the calls, the registry, the two other goroutines, the
channel of events and the messages sent. -/
structure GrpcSession (B : Type) where
  sched : State B
  /-- The deadline of the stream passed before the run context ended otherwise. -/
  timedOut : Bool
  /-- The buffer of `events`. -/
  events : List Event
  /-- The event that was taken off the buffer, before it is sent. -/
  held : Option Event
  pending : Dict String Nat
  execs : List ExecCall
  recv : RecvPc
  handler : HandlerPc
  crashed : Bool
  /-- The messages sent, oldest first. -/
  sent : List Pb.EngineMessage
  /-- History: the messages received, oldest first. -/
  received : List Pb.ClientMessage

variable {B : Type}

namespace Env

variable (env : Env B)

/-- The handler when `sched.Run` starts. The acceptance has been sent by then, and the receiving
goroutine is about to read. -/
def sessionInitial : GrpcSession B where
  sched := env.initial
  timedOut := false
  events := []
  held := none
  pending := .empty
  execs := []
  recv := .recv
  handler := .running
  crashed := false
  sent := [.runAccepted { runID := env.runID }]
  received := []

/-! ### Steps -/

/-- A step of the receiving goroutine. To receive a result and to hand it over are two steps, since
the lock is taken in between. -/
inductive RecvAction
  | message (m : Pb.ClientMessage)
  /-- `Recv` fails: the client has closed its side, or the stream has ended. -/
  | error
  | dispatch
  | deliver

/-- A step of the handler. The scheduler, the calls, the receiving goroutine and the event goroutine
move on their own, so a label says who moves. -/
inductive GrpcAction
  /-- A step of the scheduler other than a call or a return of `Execute`. -/
  | sched (a : Action)
  /-- The `i`-th task goroutine calls `Execute`. -/
  | call (i : Nat)
  /-- A step of the `k`-th call of `Execute`. -/
  | exec (k : Nat) (a : ExecAction)
  | recv (a : RecvAction)
  /-- The context of the stream ends, by its deadline or otherwise. -/
  | hangUp (deadline : Bool)
  /-- The event goroutine takes an event off the buffer. -/
  | takeEvent
  /-- It sends the event; the label says whether the send works. -/
  | sendEvent (ok : Bool)
  /-- `sched.Run` has returned, and `events` is closed. -/
  | close
  /-- The report is sent, with the error of the send if it fails, and the handler returns. -/
  | finish (err : Option String)

/-- A step of the scheduler. What `emit` finds no room for is dropped, and an event after the close
of the channel is a panic. -/
def sessionSchedStep (s : GrpcSession B) (a : Action) : Option (GrpcSession B) := do
  let t ← env.step? s.sched a
  let new := t.emitted.drop s.sched.emitted.length
  some
    { s with
        sched := t
        events := (s.events ++ new).take 64
        crashed := s.crashed || (s.handler != .running && !new.isEmpty) }

/-- The text of `ctx.Err()`. -/
def sessionCtxErr (s : GrpcSession B) (c : ExecCall) : String :=
  if c.expired || s.timedOut then "context deadline exceeded" else "context canceled"

/-- The task of a call has a timeout. -/
def callHasTimeout (t : State B) (c : ExecCall) : Bool :=
  t.gos[c.go]?.any (fun g => (g.task.effectiveTimeout env.wf.defaultTimeout).isSome)

/-- Put a call back. -/
def putExec (s : GrpcSession B) (k : Nat) (c : ExecCall) : GrpcSession B :=
  { s with execs := s.execs.set k c }

/-- A step of the `k`-th call of `grpcExecutor.Execute`. It registers its channel, sends the
invocation, waits, and removes the channel again. A send that fails ends it with the error of the
send. -/
def sessionExecStep (s : GrpcSession B) (k : Nat) (c : ExecCall) :
    ExecAction → Option (GrpcSession B)
  | .register =>
    if c.pc = .register then
      some (putExec { s with pending := s.pending.set c.inv.invocationID k } k
        { c with pc := .write })
    else none
  | .write none =>
    if c.pc = .write then
      some (putExec { s with sent := s.sent ++ [.skillInvocation c.inv.toProto] } k
        { c with pc := .select })
    else none
  | .write (some err) =>
    if c.pc = .write then
      some (putExec s k { c with pc := .unregister, outcome := some ({}, some err) })
    else none
  | .expire =>
    if c.pc ≠ .returned ∧ env.callHasTimeout s.sched c = true ∧ s.sched.cancelled = false then
      some (putExec s k { c with expired := true })
    else none
  | .ctxDone =>
    if c.pc = .select ∧ (c.expired = true ∨ s.sched.cancelled = true) then
      some (putExec s k { c with
        pc := .unregister
        outcome := some ({}, some (sessionCtxErr s c)) })
    else none
  | .result =>
    match c.ch with
    | some res =>
      if c.pc = .select then
        some (putExec s k { c with pc := .unregister, ch := none, outcome := some (res, none) })
      else none
    | none => none
  | .return =>
    match c.outcome with
    | some (res, err) =>
      if c.pc = .unregister then do
        let s ← env.sessionSchedStep s (.task c.go (.ret res err))
        some (putExec { s with pending := s.pending.erase c.inv.invocationID } k
          { c with pc := .returned })
      else none
    | none => none

/-- A message is received. A result is handed over in later steps, a cancellation is passed on at
once, and anything else is dropped. -/
def receiveStep (s : GrpcSession B) (m : Pb.ClientMessage) : Option (GrpcSession B) :=
  let s := { s with received := s.received ++ [m] }
  match m with
  | .skillResult sr => some { s with recv := .dispatch sr }
  | .cancel _ => env.sessionSchedStep s .cancel
  | _ => some s

/-- A step of the receiving goroutine. A result for no registered call is dropped, and one for a
call that already holds an answer blocks it. -/
def recvStep (s : GrpcSession B) : RecvAction → Option (GrpcSession B)
  | .message m =>
    match s.recv with
    | .recv => env.receiveStep s m
    | _ => none
  | .error =>
    match s.recv with
    | .recv => do
      let s ← env.sessionSchedStep s .cancel
      some { s with recv := .stopped }
    | _ => none
  | .dispatch =>
    match s.recv with
    | .dispatch sr =>
      match sr.dispatch s.pending with
      | .deliver k res => some { s with recv := .deliver k res }
      | _ => some { s with recv := .recv }
    | _ => none
  | .deliver =>
    match s.recv with
    | .deliver k res =>
      match s.execs[k]? with
      | some c =>
        -- A send on a full channel blocks.
        if c.ch = none then
          some (putExec { s with recv := .recv } k
            { c with ch := some res, handed := c.handed ++ [res] })
        else none
      | none => none
    | _ => none

/-- The call of `Execute` by the `i`-th task goroutine. The call gets a place in the list of calls,
where it stays after its return: the list is the history of the session. -/
def sessionCallStep (s : GrpcSession B) (i : Nat) : Option (GrpcSession B) := do
  let g ← s.sched.gos[i]?
  let s' ← env.sessionSchedStep s (.task i .call)
  some
    { s' with
        execs := s'.execs ++
          [{ go := i
             inv := env.invocation g
             pc := .register
             ch := none
             expired := false
             outcome := none
             handed := [] }] }

/-- A step of the handler's own goroutine, behind `sched.Run`. It does not wait for the goroutine
that sends the events. -/
def finishStep (s : GrpcSession B) (rep : Report) (err : Option String) :
    Option (GrpcSession B) := do
  -- The deferred `cancelRun`.
  let t ← env.sessionSchedStep s .cancel
  some
    { t with
        handler := .returned err
        sent := if err = none then t.sent ++ [.report (reportToProto env.lib rep)] else t.sent }

/-- A step of the handler: of its own goroutine, of one of those it started, of the scheduler, or of
the client on the stream. -/
def grpcStep? (s : GrpcSession B) : GrpcAction → Option (GrpcSession B)
  | .sched a => if isInternal a then env.sessionSchedStep s a else none
  | .call i => env.sessionCallStep s i
  | .exec k a => do
    let c ← s.execs[k]?
    env.sessionExecStep s k c a
  | .recv a => env.recvStep s a
  | .hangUp deadline =>
    env.sessionSchedStep
    { s with timedOut := s.timedOut || (deadline && !s.sched.cancelled) } .cancel
  | .takeEvent =>
    match s.held, s.events with
    | none, ev :: rest => some { s with held := some ev, events := rest }
    | _, _ => none
  | .sendEvent ok =>
    match s.held with
    | some ev =>
      some { s with held := none, sent := if ok then s.sent ++ [.event ev.toProto] else s.sent }
    | none => none
  | .close =>
    if s.handler = .running ∧ s.sched.report?.isSome = true then some { s with handler := .closed }
    else none
  | .finish err =>
    match s.sched.report? with
    | some rep => if s.handler = .closed then env.finishStep s rep err else none
    | none => none

/-- The runs of the handler. -/
def grpcSystem : System (GrpcSession B) GrpcAction where
  init := env.sessionInitial
  step? := env.grpcStep?

end Env

end Orchestrator.Engine
