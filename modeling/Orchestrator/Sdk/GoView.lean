import Orchestrator.Engine.Spec
import Orchestrator.Sdk.Spec

/-!
# `Orchestrator.Sdk.GoView`: one workflow, two data models

The Go value that means what a workflow of the SDK means, field by field. An absent text is the
empty text in Go, an absent token budget is 0, and an absent default policy is the default of
`Retry`.

Both loaders read the same document, and they keep it in different types: Python has `None` where Go
has a zero value or a nil pointer. A claim that the engines agree needs one side translated. This is
the only translation, and it goes from the SDK to Go, since the Go type can hold each value of the
other one. Nothing is computed on the way, so that equality of the Go values says that the loaders
have read the same things.
-/

set_option autoImplicit false

namespace Orchestrator.Sdk

open Orchestrator.Lib

/-- A rate limit. Where the SDK has no budget of tokens, Go has 0. -/
def RateLimit.toGo (r : RateLimit) : Engine.RateLimit where
  requests := r.requests
  per := r.per
  tokens := r.tokens.getD 0
  perTokens := r.perTokens

/-- A retry policy, which both sides keep in the same fields. A policy that is missing has been
replaced by the default on either side before it comes to this. -/
def Retry.toGo (r : Retry) : Engine.Retry where
  max := r.max
  backoff := r.backoff
  base := r.base
  jitter := r.jitter

/-- A provider, with its limit where it has one. -/
def Provider.toGo (p : Provider) : Engine.Provider where
  name := p.name
  rateLimit := p.rateLimit.map RateLimit.toGo

/-- A task. What the SDK leaves at `None` is the empty text or the nil pointer. -/
def Task.toGo (t : Task) : Engine.Task where
  id := t.id
  skill := t.skill
  provider := t.provider.getD ""
  dependsOn := t.dependsOn
  inputs := t.inputs
  retry := t.retry.map Retry.toGo
  timeout := t.timeout
  onError := t.onError.getD ""
  idempotent := t.idempotent

/-- A member of an input schema. -/
def schemaMember (key : String) : Json → Json
  | .obj members => (Dict.find key members).getD .null
  | _ => .null

/-- An input schema, which the SDK keeps as the dictionary it came in. What Go reads from its
members is read here at the time of the view. -/
def inputSpecToGo (schema : Json) : Engine.InputSpec where
  type := match schemaMember "type" schema with
    | .str s => s
    | _ => ""
  required := truthy (schemaMember "required" schema)
  default := schemaMember "default" schema

/-- A workflow, its tasks in order and its providers in the order of the document. -/
def Workflow.toGo (w : Workflow) : Engine.Workflow where
  name := w.name
  version := w.version
  maxParallel := w.maxParallel
  rateLimit := w.rateLimit.map RateLimit.toGo
  providers := w.providers.mapValues (fun _ p => p.toGo)
  defaultRetry := (w.defaultRetry.getD {}).toGo
  defaultTimeout := w.defaultTimeout
  defaultOnError := w.defaultOnError
  inputsSchema := w.inputsSchema.mapValues (fun _ schema => inputSpecToGo schema)
  tasks := w.tasks.map Task.toGo
  output := w.output.getD ""

end Orchestrator.Sdk
