import Orchestrator.Engine.Main
import Orchestrator.Sdk.Report

/-!
# `Orchestrator.Sdk.GoClient`: the wrapper and the engine it starts

`Orchestrator._run_go_engine` (`sdk-python/orchestrator/engine.py`) starts the engine and calls
`proc.communicate`, which writes the start message, closes the input, reads the output to its end
and waits for the exit. `Session` is the client and the engine together, with the pipes between
them.

What the engine does is a step of `embeddedSystem`, and its pump reads the lines that the client
wrote. So every invariant of the embedded engine holds in a session as well. What is new is the
other end: the wrapper answers no invocation, because it closes the input behind its one line and
looks at the output only when the engine has exited.

A step of the session is a step of the client (`ClientPc`), a step of the engine, or its exit. The
pipes have no bound here: a full pipe would only delay a write, and `communicate` reads all the
time.
-/

set_option autoImplicit false

namespace Orchestrator.Sdk

open Orchestrator.Lib Orchestrator.Engine

/-- Where `_run_go_engine` is in `proc.communicate`, and how it ends. The wrapper writes once,
closes the input, and from then on it only reads. -/
inductive ClientPc
  /-- In `communicate`, before the start message is written. -/
  | write
  /-- In `communicate`, before the input is closed. -/
  | close
  /-- In `communicate`, until the output ends and the process exits. -/
  | read
  /-- It has returned or raised. -/
  | finished (result : Except PyError Report)

/-- Where the engine process is: at its first line, in its run, or at its exit. -/
inductive EnginePc (B : Type)
  /-- Before it has read its start message. -/
  | boot
  | running (env : Env B) (e : Embedded B)
  /-- It has exited, after writing these lines. -/
  | exited (code : Int) (stdout : List OutMsg)

/-- The client and the engine, with what is written and not yet read on the way between them. -/
structure Session (B : Type) where
  client : ClientPc
  engine : EnginePc B
  /-- The messages in the input pipe of the engine. -/
  stdin : List InMsg
  /-- The client has closed the pipe. -/
  closed : Bool
  /-- The number of output lines the client has read. -/
  linesRead : Nat
  /-- History: the messages the client has written. -/
  sent : List InMsg

variable {B : Type}

/-- The lines the engine has written, whether it still runs or not. The client has read a prefix of
them. -/
def Session.written (s : Session B) : List OutMsg :=
  match s.engine with
  | .boot => []
  | .running _ e => e.stdout
  | .exited _ stdout => stdout

/-- A step of the session: a move of the client, or one of the engine. The two are joined by pipes,
so neither waits for the other except where a pipe is empty. -/
inductive SessionAction
  /-- The client writes the start message. -/
  | write
  | close
  /-- The client reads a line of output. -/
  | readLine
  /-- The output has ended and the process has exited. -/
  | finish (stderr : String)
  /-- The timeout of `communicate`: the process is killed. -/
  | timeout
  /-- The engine reads its start message. -/
  | boot
  /-- A step of the running engine. -/
  | engine (a : Env.EmbeddedAction)
  /-- `sched.Run` has returned: the engine writes the report and exits. -/
  | report

/-- The passing of time. Such a step is always possible, so it does not count where the question is
whether the session is stuck. -/
def SessionAction.isTime : SessionAction → Bool
  | .timeout => true
  | .engine (.sched (.tick _)) => true
  | _ => false

/-- A step of the running engine in the session. The pump reads what is in the pipe, and a write
into the other pipe works. -/
def engineStep (s : Session B) (env : Env B) (e : Embedded B) (a : Env.EmbeddedAction) :
    Option (Session B) :=
  match a with
  | .pump (.line none) => none
  | .pump (.line (some msg)) =>
    match s.stdin with
    | [] => none
    | m :: rest =>
      if m = msg then
        (env.embeddedStep? e a).map (fun e => { s with engine := .running env e, stdin := rest })
      else none
  | .pump .eof =>
    if s.stdin = [] ∧ s.closed = true then
      (env.embeddedStep? e a).map (fun e => { s with engine := .running env e })
    else none
  | .exec _ (.write (some _)) => none
  | .sendEvent false => none
  | a => (env.embeddedStep? e a).map (fun e => { s with engine := .running env e })

/-- A step of the session whose start message is `start`. A client that has finished takes no step,
and the timeout kills the engine with it. -/
def sessionStep? (l : Launch B) (start : InMsg) (s : Session B) :
    SessionAction → Option (Session B)
  | .write =>
    match s.client with
    | .write =>
      some { s with client := .close, stdin := s.stdin ++ [start], sent := s.sent ++ [start] }
    | _ => none
  | .close =>
    match s.client with
    | .close => some { s with client := .read, closed := true }
    | _ => none
  | .readLine =>
    match s.client with
    | .finished _ => none
    | _ =>
      if s.linesRead < s.written.length then some { s with linesRead := s.linesRead + 1 }
      else none
  | .finish stderr =>
    match s.client, s.engine with
    | .read, .exited code stdout =>
      if s.linesRead = stdout.length then
        some { s with client := .finished (readReport code stderr (stdout.map OutMsg.encode)) }
      else none
    | _, _ => none
  | .timeout =>
    match s.client with
    | .finished _ => none
    | _ => some
        { s with
            client := .finished
              (.error (.runtimeError "Go engine execution timeout (1 hour limit)"))
            engine := .exited (-9) s.written }
  | .boot =>
    match s.engine, s.stdin with
    | .boot, msg :: rest =>
      match l.boot msg with
      | .accepted env =>
        some { s with engine := .running env env.embeddedInitial, stdin := rest }
      | .fatal text => some { s with engine := .exited 1 [fatalMsg text], stdin := rest }
      | .crash => some { s with engine := .exited 2 [], stdin := rest }
    | _, _ => none
  | .engine a =>
    match s.engine with
    | .running env e => engineStep s env e a
    | _ => none
  | .report =>
    match s.engine with
    | .running _ e =>
      match e.sched.report? with
      | some rep => some { s with engine := .exited 0 (e.stdout ++ [reportMsg rep]) }
      | none => none
    | _ => none

/-- The sessions that start with the message `start`. A run of it is what one call of
`_run_go_engine` can come to. -/
def sessionSystem (l : Launch B) (start : InMsg) : System (Session B) SessionAction where
  init :=
    { client := .write
      engine := .boot
      stdin := []
      closed := false
      linesRead := 0
      sent := [] }
  step? := sessionStep? l start

end Orchestrator.Sdk
