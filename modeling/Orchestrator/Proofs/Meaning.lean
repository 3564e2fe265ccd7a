import Orchestrator.Lib.Dataflow
import Orchestrator.Proofs.References

/-!
# `Orchestrator.Proofs.Meaning`: a workflow as a network

A `Behaviour` says what each attempt of a task makes of the inputs that the task is handed. With it
a workflow is a network: a task gathers its inputs by resolving its templates in the scope of the
run inputs and of the values of other tasks.

Templates whose references are good read nothing of the scope but the run inputs and the transitive
dependencies (`lookup_congr_of_ok`), so the order in which other tasks finish does not show. This is
the reason why a run has a meaning at all: a task that starts sees the results of all tasks that
happen to be finished, more in one run and fewer in another.

`SeenAlike` says what two sets of results have in common where a task may look, and the templates of
both engines resolve alike in them. The output of the workflow is resolved at the end, when the
results are complete, so it may refer to any task.

The sample at the end is used by the witnesses of both engines. Its second task looks at the value
that the first one has returned.
-/

set_option autoImplicit false

namespace Orchestrator.Proofs

open Orchestrator.Lib
open Orchestrator.Engine (GoLib splitPath trimSpace)
open Orchestrator.Sdk (PyLib strip)

/-- What the `k`-th attempt of a task makes of its resolved inputs: its output, or a failure. -/
abbrev Behaviour := String → Json → Int → Option Json

/-- The values of the tasks that have one. -/
def resultsOf (ids : List String) (v : String → Option Json) : Dict String Json :=
  ids.foldl (fun m id => (v id).elim m (m.set id)) .empty

/-- The values of the tasks, looked up. -/
theorem get?_resultsOf (ids : List String) (v : String → Option Json) (id : String) :
    (resultsOf ids v).get? id = if id ∈ ids then v id else none := by
  have key : ∀ m : Dict String Json, (ids.foldl (fun m id => (v id).elim m (m.set id)) m).get? id
      = if id ∈ ids then (v id).or (m.get? id) else m.get? id := by
    induction ids with
    | nil => intro m; rfl
    | cons x ids ih =>
        intro m
        rw [List.foldl_cons, ih]
        by_cases hx : id = x
        · subst hx
          cases v id <;> simp
        · cases v x <;> simp [hx]
  rw [resultsOf, key, Dict.get?_empty, Option.or_none]

/-- A scope without any value. -/
theorem get?_resultsOf_of_not_mem {ids : List String} {v : String → Option Json} {id : String}
    (h : id ∉ ids) : (resultsOf ids v).get? id = none := by
  rw [get?_resultsOf, if_neg h]

/-- Values that agree on the tasks make the same results. -/
theorem resultsOf_congr {ids : List String} {v v' : String → Option Json}
    (h : ∀ id ∈ ids, v id = v' id) : resultsOf ids v = resultsOf ids v' := by
  have key : ∀ m : Dict String Json, ids.foldl (fun m id => (v id).elim m (m.set id)) m
      = ids.foldl (fun m id => (v' id).elim m (m.set id)) m := by
    induction ids with
    | nil => exact fun m => rfl
    | cons id ids ih =>
        intro m
        rw [List.foldl_cons, List.foldl_cons, h id List.mem_cons_self,
          ih fun x hx => h x (List.mem_cons_of_mem _ hx)]
  exact key .empty

/-- The engine looks a path up in what the scope has under its first part. -/
theorem lookup_congr {lib : GoLib} {path : List Char} {name : String} {parts : List String}
    (hpath : splitPath path = name :: parts) {scope scope' : Dict String Json}
    (h : scope.get? name = scope'.get? name) :
    Engine.lookup lib path (.obj scope.entries) = Engine.lookup lib path (.obj scope'.entries) := by
  rw [Engine.lookup, Engine.lookup, hpath, Engine.lookupFrom, Engine.lookupFrom,
    show Dict.find name scope.entries = Dict.find name scope'.entries from h]

/-- So does the runner. -/
theorem sdk_lookup_congr {path : List Char} {name : String} {parts : List String}
    (hpath : splitPath path = name :: parts) {scope scope' : Dict String Json}
    (h : scope.get? name = scope'.get? name) :
    Sdk.lookup path (.obj scope.entries) = Sdk.lookup path (.obj scope'.entries) := by
  rw [Sdk.lookup, Sdk.lookup, hpath, Sdk.lookupFrom, Sdk.lookupFrom,
    show Dict.find name scope.entries = Dict.find name scope'.entries from h]

/-- The first part of a good path is `input` or a transitive dependency. -/
theorem TaskPathOk.head {deps : String → List String} {t : String} {path : List Char}
    (h : TaskPathOk deps t path) : ∃ name parts, splitPath path = name :: parts ∧
      (name = "input" ∨ Relation.TransGen (fun d t => d ∈ deps t) name t) := by
  rcases h with ⟨part, parts, hpath⟩ | ⟨id, parts, hpath, hdep⟩
  · exact ⟨_, _, hpath, Or.inl rfl⟩
  · exact ⟨_, _, hpath, Or.inr hdep⟩

/-- What two sets of results have in common where a task may look: they have no task by the name of
the inputs, and the same results for whatever the task depends on, directly or not. -/
structure SeenAlike (deps : String → List String) (t : String)
    (results results' : Dict String Json) :
    Prop where
  free : results.get? "input" = none
  free' : results'.get? "input" = none
  deps : ∀ d, Relation.TransGen (fun d t => d ∈ deps t) d t → results.get? d = results'.get? d

namespace SeenAlike

variable {deps : String → List String} {t : String} {inputs results results' : Dict String Json}
  (h : SeenAlike deps t results results')
include h

/-- Under a name to which a good path may lead, both sets of results have the same. -/
theorem get? {name : String}
    (hname : name = "input" ∨ Relation.TransGen (fun d t => d ∈ deps t) name t) :
    results.get? name = results'.get? name := by
  rcases hname with rfl | hdep
  · rw [h.free, h.free']
  · exact h.deps name hdep

/-- A template of the engine resolves alike. -/
theorem resolve_eq (lib : GoLib) {v : Json}
    (hok : ∀ path ∈ paths trimSpace v, TaskPathOk deps t path) :
    Engine.resolve lib (.obj (Engine.Env.buildScope inputs results).entries) v
      = Engine.resolve lib (.obj (Engine.Env.buildScope inputs results').entries) v := by
  refine resolve_congr v fun path hpath => ?_
  obtain ⟨name, parts, hsplit, hname⟩ := (hok path hpath).head
  refine lookup_congr hsplit ?_
  rw [get?_buildScope, get?_buildScope, h.get? hname]

/-- A template of the runner resolves alike. -/
theorem resolveTemplate_eq (lib : PyLib) {v : Json}
    (hok : ∀ path ∈ paths strip v, TaskPathOk deps t path) :
    Sdk.resolveTemplate lib (.obj (Sdk.Runner.templateScope inputs results).entries) v
      = Sdk.resolveTemplate lib (.obj (Sdk.Runner.templateScope inputs results').entries) v := by
  refine resolveTemplate_congr v fun path hpath => ?_
  obtain ⟨name, parts, hsplit, hname⟩ := (hok path hpath).head
  refine sdk_lookup_congr hsplit ?_
  rw [get?_templateScope, get?_templateScope, h.get? hname]

end SeenAlike

/-- The template of an output resolves alike where the results are the same. -/
theorem resolve_output_eq (lib : GoLib) {inputs results results' : Dict String Json}
    {ids : List String}
    {output : String} (h : ∀ id, results.get? id = results'.get? id)
    (hok : ∀ path ∈ stringPaths trimSpace output, OutputPathOk ids path) :
    Engine.resolve lib (.obj (Engine.Env.buildScope inputs results).entries) (.str output)
      = Engine.resolve lib (.obj (Engine.Env.buildScope inputs results').entries)
      (.str output) := by
  refine resolve_congr _ fun path hpath => ?_
  rw [paths, Json.strings, List.flatMap_singleton] at hpath
  obtain ⟨name, parts, hsplit, -⟩ := hok path hpath
  refine lookup_congr hsplit ?_
  rw [get?_buildScope, get?_buildScope, h name]

/-- The output template of the runner resolves alike where the results are the same. -/
theorem resolveTemplate_output_eq (lib : PyLib) {inputs results results' : Dict String Json}
    {ids : List String} {output : String} (h : ∀ id, results.get? id = results'.get? id)
    (hok : ∀ path ∈ stringPaths strip output, OutputPathOk ids path) :
    Sdk.resolveTemplate lib (.obj (Sdk.Runner.templateScope inputs results).entries) (.str output)
      = Sdk.resolveTemplate lib (.obj (Sdk.Runner.templateScope inputs results').entries)
        (.str output) := by
  refine resolveTemplate_congr _ fun path hpath => ?_
  rw [paths, Json.strings, List.flatMap_singleton] at hpath
  obtain ⟨name, parts, hsplit, -⟩ := hok path hpath
  refine sdk_lookup_congr hsplit ?_
  rw [get?_templateScope, get?_templateScope, h name]

/-! ### A sample -/

/-- What the attempts of the sample answer: `a` answers at its second attempt, and `b` when it is
handed what `a` answered. -/
def sampleAnswer (id : String) (inputs : Json) (k : Int) : Option String :=
  match inputs with
  | .obj [("x", .str text)] => if id = "b" then some (text ++ "p") else none
  | _ => if id = "a" ∧ k = 2 then some "o" else none

/-- The behaviour of the sample, whose answers are texts. -/
def sampleBehaviour : Behaviour := fun id inputs k => (sampleAnswer id inputs k).map .str

end Orchestrator.Proofs
