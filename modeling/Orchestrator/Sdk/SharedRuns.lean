import Orchestrator.Sdk.Runner

/-!
# `Orchestrator.Sdk.SharedRuns`: two runs on one object (`sdk-python/orchestrator/engine.py`)

Two coroutines `run(workflow, inputs)` of one object, on one event loop. They share the registry,
the clock and the attribute `_current_inputs`. One run steps only while the other has not begun,
waits at an `await`, or has ended.

The attribute is the reason for this module. `run` sets it at its start, and each task reads it when
it resolves its templates, so the second run overwrites what the tasks of the first one are still to
read. The state of each run holds a copy of what is shared, and a step of one of them writes it into
the other (`share`). Apart from that a run of the pair is two runs of `Env.system`, which is how
their invariants carry over.
-/

set_option autoImplicit false

namespace Orchestrator.Sdk.Runner

open Orchestrator.Lib Env

/-- An `Orchestrator`, and the instant at which its runs are created. What two runs share besides
the skills is the attribute `_current_inputs`. -/
structure OrchestratorObject where
  lib : PyLib
  skills : String → Option SkillKind
  clock : Nat

/-- A call of `run`, with the run id and the wall clock time it picks. -/
structure Call where
  workflow : Workflow
  inputs : Dict String Json
  runID : String
  startedWall : String

/-- A call of `run`, alone on the object. This is the run that an interleaved one is compared
with. -/
def OrchestratorObject.env (o : OrchestratorObject) (call : Call) : Env where
  wf := call.workflow
  runID := call.runID
  inputs := call.inputs
  lib := o.lib
  skills := o.skills
  startedWall := call.startedWall
  startedAt := o.clock

/-- Another coroutine of the event loop may step. -/
def MainPc.suspended : MainPc → Bool
  | .start => true
  | pc => pc.yields

/-- The states of the two runs. The attribute and the clock are in both of them. -/
structure SharedState where
  first : State
  second : State

/-- A step of one of the two runs, with the label it has in the run alone. -/
inductive SharedAction
  | first (a : Action)
  | second (a : Action)

/-- The state of one run after a step of the other that leads to `s`. -/
def share (s t : State) : State := { t with currentInputs := s.currentInputs, clock := s.clock }

/-- A step of one of the two runs, after which the other sees the attribute and the clock that it
left. -/
def sharedStep (e₁ e₂ : Env) (p : SharedState) : SharedAction → Option SharedState
  | .first a =>
    if p.second.main.pc.suspended then
      (e₁.step? p.first a).map fun s => { first := s, second := share s p.second }
    else none
  | .second a =>
    if p.first.main.pc.suspended then
      (e₂.step? p.second a).map fun s => { first := share s p.first, second := s }
    else none

/-- The interleavings of two runs of an `Orchestrator`. They live in one event loop, so a step of
either comes between any two steps of the other. -/
def OrchestratorObject.sharedRuns (o : OrchestratorObject) (c₁ c₂ : Call) :
    System SharedState SharedAction where
  init := { first := (o.env c₁).initial, second := (o.env c₂).initial }
  step? := sharedStep (o.env c₁) (o.env c₂)

end Orchestrator.Sdk.Runner
