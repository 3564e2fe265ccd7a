import Orchestrator.Engine.Scheduler

/-!
# `Orchestrator.Engine.Stdio`: the stdio transport (`engine/transport/stdio/stdio.go`)

`Transport` is the executor of the embedded engine. A call of `Execute` registers a channel under
its invocation id, writes a `skill_invocation` line and waits; `PumpIncoming` reads lines and hands
each `skill_result` to the channel registered under its id.

`Embedded` is the scheduler and the transport together, from the start of `sched.Run` in
`runEmbedded` on, and `embeddedSystem` has its runs. `Env.taskStep` leaves `Execute` open: here its
call and its return are steps of the transport, so that a run of the embedded engine projects to a
run of the scheduler. Its steps are those of three parties:

* the scheduler, whose events are offered to a buffer of 128 and dropped when it is full;
* the calls of `Execute`, each at its own place `ExecPc`: it registers, writes, waits in its
  `select`, and takes its registration away again;
* the pump, which reads a line, looks up the channel under the lock, and sends outside it, where it
  may block.

The lines the pump reads are labels, so a run ranges over everything a client may send. Whether a
write fails is a label as well. The `data` of a decision and the other texts stay encoded, as the
transport passes them on.

The channel of a call has one place. A call and its channel have the same index in `Embedded.execs`,
so a channel lives on when its call has returned, as it does in Go while the pump still holds it.
-/

set_option autoImplicit false

namespace Orchestrator.Engine

open Orchestrator.Lib

/-! ### Wire types -/

/-- A message of the client, decoded. A field that is absent has its zero value. -/
structure InMsg where
  type : String
  specJSON : String := ""
  inputsJSON : String := ""
  invocationID : String := ""
  outputJSON : String := ""
  error : Option SkillError := none
  decisions : List WireDecision := []
  llmUsage : Option LLMUsage := none
  toolCalls : Int := 0
  runID : String := ""
deriving DecidableEq

/-- A message of the engine. A field with its zero value is left out of the line. -/
structure OutMsg where
  type : String
  runID : String := ""
  invocationID : String := ""
  taskID : String := ""
  skill : String := ""
  inputsJSON : String := ""
  attempt : Int := 0
  eventType : String := ""
  atUnixMs : Nat := 0
  report : Option Json := none

/-- The text of an event type, the same on both transports. -/
def EventType.text : EventType → String
  | .taskStarted => "task.started"
  | .taskSucceeded => "task.succeeded"
  | .taskFailed => "task.failed"
  | .taskSkipped => "task.skipped"

/-- The message of `SendRunAccepted`. -/
def runAcceptedMsg (runID : String) : OutMsg := { type := "run_accepted", runID := runID }

/-- The message of `SendEvent`. Fields that events do not use stay empty and are left out of the
line. -/
def eventMsg (e : Event) : OutMsg :=
  { type := "event"
    runID := e.runID
    taskID := e.taskID
    eventType := e.type.text
    atUnixMs := e.atUnixMs }

/-- The message that `Execute` sends. The client answers with the id of the invocation, and this is
all that ties the answer to the call. -/
def invocationMsg (inv : Invocation) : OutMsg :=
  { type := "skill_invocation"
    invocationID := inv.invocationID
    runID := inv.runID
    taskID := inv.taskID
    skill := inv.skill
    inputsJSON := inv.inputsJSON
    attempt := inv.attempt }

/-- The result that `PumpIncoming` makes of a `skill_result`. It is a copy: that the message names a
call which waits is checked elsewhere. -/
def InMsg.toResult (msg : InMsg) : Result where
  invocationID := msg.invocationID
  outputJSON := msg.outputJSON
  err := msg.error
  decisions := msg.decisions
  llmUsage := msg.llmUsage
  toolCalls := msg.toolCalls

/-! ### State -/

/-- Where a call of `Execute` is: before it registers, before and after it writes, in its `select`,
and at its end. -/
inductive ExecPc
  /-- Before it registers its channel. -/
  | register
  /-- Before it writes its line. -/
  | write
  /-- At the `select` on its context and its channel. -/
  | select
  /-- Before the deferred removal of its channel. -/
  | unregister
  | returned
deriving DecidableEq

/-- A call of `Execute`. Its index among the calls stands for its channel, which may hold one
result. -/
structure ExecCall where
  /-- The goroutine that made the call. -/
  go : Nat
  inv : Invocation
  pc : ExecPc
  /-- The buffer of the channel, which has room for one result. -/
  ch : Option Result
  /-- The deadline of `execCtx` passed before the run was cancelled. -/
  expired : Bool
  /-- What the call returns, from the moment that is settled. -/
  outcome : Option (Result × Option String)
  /-- History: the results sent to the channel, in order. -/
  handed : List Result

/-- Where the pump is: it reads, or it has looked up a channel and is about to send to it, or it has
returned. -/
inductive PumpPc
  /-- At `scanner.Scan`. -/
  | scan
  /-- Before it looks up the channel for a `skill_result`. -/
  | lookup (msg : InMsg)
  /-- Before it sends a result to the channel of a call. -/
  | deliver (k : Nat) (res : Result)
  /-- At the check of the context at the end of the loop. -/
  | check
  | stopped
deriving DecidableEq

/-- The embedded engine during a run: the scheduler, the calls, the registry under its lock, the
pump, the buffer of events and the lines written. -/
structure Embedded (B : Type) where
  sched : State B
  /-- The run context of `runEmbedded`, which `cancel_run` cancels, is done. -/
  cancelled : Bool
  /-- The buffer of `events`. -/
  events : List Event
  pending : Dict String Nat
  execs : List ExecCall
  pump : PumpPc
  /-- The messages written, oldest first. -/
  stdout : List OutMsg
  /-- History: the messages the pump has read, oldest first. -/
  read : List InMsg

variable {B : Type}

/-- The events that fit into the buffer; the others are dropped. -/
def offerEvents (buffer new : List Event) : List Event := (buffer ++ new).take 128

namespace Env

variable (env : Env B)

/-- The engine when `sched.Run` starts. The acceptance has been written, and the pump is about to
read its first line. -/
def embeddedInitial : Embedded B where
  sched := env.initial
  cancelled := false
  events := []
  pending := .empty
  execs := []
  pump := .scan
  stdout := [runAcceptedMsg env.runID]
  read := []

/-! ### Steps -/

/-- A step of a call of `Execute`, in the order in which they come. Only the `select` has a choice:
it takes any of its cases that is ready. -/
inductive ExecAction
  | register
  /-- The write of the line, with the error of the write if it fails. -/
  | write (err : Option String)
  /-- The deadline of the attempt passes. -/
  | expire
  /-- The `select` takes the case of the context. -/
  | ctxDone
  /-- The `select` takes the case of the channel. -/
  | result
  /-- The channel is removed and the call returns. -/
  | return
deriving DecidableEq

/-- A step of the pump, which reads lines until the input ends. The lookup of the channel and the
send on it are two steps, and the call may return in between. -/
inductive PumpAction
  /-- A line is read; `none` is an empty line or one that does not decode. -/
  | line (msg : Option InMsg)
  /-- The input ends, or a line is too long. -/
  | eof
  | lookup
  | deliver
  | check
deriving DecidableEq

/-- A step of the engine. The scheduler, the calls, the pump and the event goroutine are separate
goroutines, and a label says which of them moves. -/
inductive EmbeddedAction
  /-- A step of the scheduler other than a call or a return of `Execute`. -/
  | sched (a : Action)
  /-- The `i`-th task goroutine calls `Execute`. -/
  | call (i : Nat)
  /-- A step of the `k`-th call of `Execute`. -/
  | exec (k : Nat) (a : ExecAction)
  | pump (a : PumpAction)
  /-- The event goroutine writes the oldest event; the label says whether the write works. -/
  | sendEvent (ok : Bool)
deriving DecidableEq

/-- The scheduler steps that involve neither `Execute` nor an outside cancellation. These are the
ones that the engine takes over unchanged. -/
def isInternal : Action → Bool
  | .task _ .call => false
  | .task _ (.ret _ _) => false
  | .cancel => false
  | _ => true

/-- A step of the scheduler, whose events go to the buffer. What finds no room there is dropped, and
the scheduler does not wait. -/
def schedStep (e : Embedded B) (a : Action) : Option (Embedded B) := do
  let s ← env.step? e.sched a
  some
    { e with
        sched := s
        events := offerEvents e.events (s.emitted.drop e.sched.emitted.length) }

/-- The text of `ctx.Err()`, by which of the two contexts of a call ended. -/
def ctxErr (c : ExecCall) : String :=
  if c.expired then "context deadline exceeded" else "context canceled"

/-- The task of a call has a timeout. -/
def hasTimeout (e : Embedded B) (c : ExecCall) : Bool :=
  e.sched.gos[c.go]?.any (fun g => (g.task.effectiveTimeout env.wf.defaultTimeout).isSome)

/-- Put a call back. -/
def setExec (e : Embedded B) (k : Nat) (c : ExecCall) : Embedded B :=
  { e with execs := e.execs.set k c }

/-- A step of the `k`-th call of `Execute`. When several cases of its `select` are ready the label
says which one is taken. -/
def execStep (e : Embedded B) (k : Nat) (c : ExecCall) : ExecAction → Option (Embedded B)
  | .register =>
    if c.pc = .register then
      some (setExec { e with pending := e.pending.set c.inv.invocationID k } k
        { c with pc := .write })
    else none
  | .write none =>
    if c.pc = .write then
      some (setExec { e with stdout := e.stdout ++ [invocationMsg c.inv] } k
        { c with pc := .select })
    else none
  | .write (some err) =>
    -- A failed write ends the call; the deferred removal of the channel still runs.
    if c.pc = .write then
      some (setExec e k { c with
        pc := .unregister
        outcome := some ({}, some ("stdio: sending skill_invocation: " ++ err)) })
    else none
  | .expire =>
    if c.pc ≠ .returned ∧ env.hasTimeout e c = true ∧ e.sched.cancelled = false then
      some (setExec e k { c with expired := true })
    else none
  | .ctxDone =>
    -- The `select` may take this case although a result is waiting in the channel.
    if c.pc = .select ∧ (c.expired = true ∨ e.sched.cancelled = true) then
      some (setExec e k { c with pc := .unregister, outcome := some ({}, some (ctxErr c)) })
    else none
  | .result =>
    match c.ch with
    | some res =>
      if c.pc = .select then
        some (setExec e k { c with pc := .unregister, ch := none, outcome := some (res, none) })
      else none
    | none => none
  | .return =>
    match c.outcome with
    | some (res, err) =>
      if c.pc = .unregister then do
        let e ← env.schedStep e (.task c.go (.ret res err))
        some (setExec { e with pending := e.pending.erase c.inv.invocationID } k
          { c with pc := .returned })
      else none
    | none => none

/-- A step of the pump. Between the lookup of a channel and the send to it, the call may return and
take its registration away. -/
def pumpStep (e : Embedded B) : PumpAction → Option (Embedded B)
  | .line none => if e.pump = .scan then some e else none
  | .line (some msg) =>
    if e.pump = .scan then
      let e := { e with read := e.read ++ [msg] }
      if msg.type = "skill_result" then some { e with pump := .lookup msg }
      -- `cancel` ends the run context, which is the context of the pump as well.
      else if msg.type = "cancel_run" then do
        let e ← env.schedStep e .cancel
        some { e with pump := .check, cancelled := true }
      else some { e with pump := .check }
    else none
  | .eof => if e.pump = .scan then some { e with pump := .stopped } else none
  | .lookup =>
    match e.pump with
    | .lookup msg =>
      match e.pending.get? msg.invocationID with
      | some k => some { e with pump := .deliver k msg.toResult }
      -- A result nobody waits for is dropped, and `continue` skips the check of the context.
      | none => some { e with pump := .scan }
    | _ => none
  | .deliver =>
    match e.pump with
    | .deliver k res =>
      match e.execs[k]? with
      | some c =>
        -- A send on a full channel blocks.
        if c.ch = none then
          some (setExec { e with pump := .check } k
            { c with ch := some res, handed := c.handed ++ [res] })
        else none
      | none => none
    | _ => none
  | .check =>
    if e.pump = .check then some { e with pump := if e.cancelled then .stopped else .scan }
    else none

/-- The call of `Execute` by the `i`-th task goroutine: the goroutine is in its call, and a new call
with an empty channel is there. -/
def callStep (e : Embedded B) (i : Nat) : Option (Embedded B) := do
  let g ← e.sched.gos[i]?
  let e' ← env.schedStep e (.task i .call)
  some
    { e' with
        execs := e'.execs ++
          [{ go := i
             inv := env.invocation g
             pc := .register
             ch := none
             expired := false
             outcome := none
             handed := [] }] }

/-- A step of the engine. A step of a party changes only that party and what the parties share. -/
def embeddedStep? (e : Embedded B) : EmbeddedAction → Option (Embedded B)
  | .sched a => if isInternal a then env.schedStep e a else none
  | .call i => env.callStep e i
  | .exec k a => do
    let c ← e.execs[k]?
    env.execStep e k c a
  | .pump a => env.pumpStep e a
  | .sendEvent ok =>
    match e.events with
    | [] => none
    | ev :: rest =>
      some { e with events := rest, stdout := if ok then e.stdout ++ [eventMsg ev] else e.stdout }

/-- The runs of the embedded engine. -/
def embeddedSystem : System (Embedded B) EmbeddedAction where
  init := env.embeddedInitial
  step? := env.embeddedStep?

end Env

end Orchestrator.Engine
