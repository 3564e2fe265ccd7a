import Orchestrator.Engine.Encode

/-!
# `Orchestrator.Engine.Process`: the end of `runEmbedded` (`engine/cmd/orchestrator/main.go`)

Two more goroutines share the stream with the calls of `Execute`. The event goroutine ranges over
`events` and calls `SendEvent`; the main goroutine closes the channel once `sched.Run` has returned,
and calls `SendReport`. Closing the channel does not wait for the event goroutine, and the process
exits when `runEmbedded` returns, whatever the event goroutine still holds. So an event can follow
the report on the stream, and can be lost.

`Embedded` has everything else that happens during the run, so its event goroutine stands still
here: `Process.holding` takes its place, between its receive and its write. The two steps of
`SendEvent` are kept apart because the report may come between them.

`placed` is a history: the events that found room in the channel, in their order. A result about the
stream compares it with what was written.
-/

set_option autoImplicit false

namespace Orchestrator.Engine

open Orchestrator.Lib

/-- Where the main goroutine is in `runEmbedded`. It returns as soon as the report is written, and
does not wait for the event goroutine. -/
inductive RunPc
  /-- In `sched.Run`. -/
  | running
  /-- Before `SendReport`. -/
  | closed
  /-- After `SendReport`. -/
  | reported
  | exited
deriving DecidableEq

/-- The process of one embedded run, from the start of `sched.Run` on. What the client can see of it
is `stdout`; the other fields are where its goroutines are. -/
structure Process (B : Type) where
  engine : Embedded B
  pc : RunPc
  /-- The event that the event goroutine has received and not written yet. -/
  holding : Option Event
  /-- The messages written by all goroutines, oldest first. -/
  stdout : List OutMsg
  /-- History: the events that `emit` placed in the channel, oldest first. -/
  placed : List Event

/-- A step of the process. The event goroutine and the main goroutine share nothing but the channel
of events and the lock of the writer, so their steps come in any order. -/
inductive ProcessAction
  /-- A step of the run or of the pump. -/
  | engine (a : Env.EmbeddedAction)
  /-- The event goroutine receives the oldest event. -/
  | receive
  /-- The end of its `SendEvent`, whose error is ignored. -/
  | write (ok : Bool)
  /-- `sched.Run` returns and the channel is closed. -/
  | close
  /-- The end of `SendReport`. -/
  | report (ok : Bool)
  /-- `runEmbedded` returns. -/
  | exit
deriving DecidableEq

variable {B : Type}

namespace Env

variable (env : Env B)

/-- The process when `sched.Run` starts. The acceptance of the run is the only message so far. -/
def processInitial : Process B where
  engine := env.embeddedInitial
  pc := .running
  holding := none
  stdout := [runAcceptedMsg env.runID]
  placed := []

/-- A step of the run: its lines go to the stream, its events to the channel. -/
def runStep (p : Process B) : EmbeddedAction → Option (Process B)
  | .sendEvent _ => none
  | a => do
    let e ← env.embeddedStep? p.engine a
    some { p with
      engine := e
      stdout := p.stdout ++ e.stdout.drop p.engine.stdout.length
      placed := p.placed ++ e.events.drop p.engine.events.length }

/-- A step of the process, as long as it lives. An event that the event goroutine holds, or that is
still in the channel, is lost with the exit. -/
def processStep? (p : Process B) (a : ProcessAction) : Option (Process B) :=
  -- The exit of the process ends every goroutine.
  if p.pc = .exited then none
  else
    match a with
    | .engine a => env.runStep p a
    | .receive =>
      match p.holding, p.engine.events with
      | none, ev :: rest =>
        some { p with engine := { p.engine with events := rest }, holding := some ev }
      | _, _ => none
    | .write ok =>
      match p.holding with
      | some ev =>
        some { p with
          holding := none, stdout := if ok then p.stdout ++ [eventMsg ev] else p.stdout }
      | none => none
    | .close =>
      if p.pc = .running ∧ p.engine.sched.report?.isSome then some { p with pc := .closed }
      else none
    | .report ok =>
      match p.engine.sched.report? with
      | some rep =>
        if p.pc = .closed then
          -- `log.Fatalf` exits at once.
          some (if ok then { p with pc := .reported, stdout := p.stdout ++ [reportMsg rep] }
            else { p with pc := .exited })
        else none
      | none => none
    | .exit => if p.pc = .reported then some { p with pc := .exited } else none

/-- The runs of the process. -/
def processSystem : System (Process B) ProcessAction where
  init := env.processInitial
  step? := env.processStep?

end Env

end Orchestrator.Engine
