import Orchestrator.Engine.Decode
import Orchestrator.Proofs.Validate
import Orchestrator.Sdk.GoView

/-!
# `Orchestrator.Proofs.Serialization`: workflows on their way to the Go engine

`to_dict` reads two attributes that `Task` does not have, so it raises for every workflow with a
task (`toDict_of_tasks`). A workflow without tasks is serialized, but `Parse` rejects it
(`parseDocument_noTasks`). So no workflow makes the round trip (`no_workflow_round_trips`).

A round trip has three parts: the workflow is serialized, `from_dict` restores it from the result,
and `Parse` makes the same workflow of it. The comment in the source speaks of the second part. The
third is what the wrapper needs, since it hands the dictionary to the Go engine.

For workflows with a task nothing has to be known about the loaders. For the others the document has
to be followed through the decoder: its list of tasks is empty, no other member goes into that field
(`fieldOf_ne_tasks`), and a workflow without tasks is refused. The theorem needs no assumption on
the order in which `Validate` visits things, since it does not get there.
-/

set_option autoImplicit false

namespace Orchestrator.Proofs

open Orchestrator.Lib Orchestrator.Engine

/-! ### The encoder -/

/-- An entry of `tasks` cannot be written, because `Task` has no `description`. -/
theorem task_toDict (t : Sdk.Task) : t.toDict = .error (.attributeError "description") := rfl

/-- `to_dict` raises on the first task. -/
theorem toDict_of_tasks {w : Sdk.Workflow} (h : w.tasks ≠ []) :
    w.toDict = .error (.attributeError "description") := by
  obtain ⟨t, rest, htasks⟩ := List.exists_cons_of_ne_nil h
  rw [Sdk.Workflow.toDict, htasks, List.mapM_cons, task_toDict]
  rfl

/-- No other member of the document goes into the field `tasks`. -/
theorem fieldOf_ne_tasks : ∀ key ∈ ["name", "version", "concurrency", "providers", "defaults",
    "inputs_schema", "output"], fieldOf workflowFields key ≠ some "tasks" := by decide

/-- The document of a workflow without tasks. -/
theorem toDict_of_noTasks {w : Sdk.Workflow} (h : w.tasks = []) :
    ∃ fields, w.toDict = .ok (.obj [("workflow", .obj fields)]) ∧
      ∀ e ∈ fields, fieldOf workflowFields e.1 = some "tasks" → e.2 = .arr [] := by
  refine ⟨_, by rw [Sdk.Workflow.toDict, h]; rfl, ?_⟩
  intro e he hfield
  simp only [List.mem_cons, List.not_mem_nil, or_false] at he
  rcases he with rfl | rfl | rfl | rfl | rfl | rfl | rfl | rfl <;>
    first | rfl | exact absurd hfield (fieldOf_ne_tasks _ (by simp))

/-! ### The decoder -/

/-- A member that is no task list leaves the tasks alone. -/
theorem setWorkflow_tasks {name : String} {v : Json} {s s' : RawBuffer} (hs : s.tasks = {})
    (hv : name = "tasks" → v = .arr []) (h : setWorkflow name v s = some s') : s'.tasks = {} := by
  unfold setWorkflow at h
  split at h
  case h_7 =>
    rw [hv rfl] at h
    cases h
    rfl
  case h_9 =>
    cases h
    exact hs
  all_goals
    obtain ⟨x, -, rfl⟩ := Option.map_eq_some_iff.mp h
    exact hs

/-- An object whose task lists are all empty decodes into a workflow without tasks. -/
theorem decodeWorkflow_noTasks {fields : List (String × Json)} {s s' : RawBuffer}
    (hs : s.tasks = {})
    (hfields : ∀ e ∈ fields, fieldOf workflowFields e.1 = some "tasks" → e.2 = .arr [])
    (h : decodeWorkflow (.obj fields) s = some s') : s'.tasks = {} := by
  unfold decodeWorkflow decodeStruct at h
  induction fields generalizing s with
  | nil =>
      cases h
      exact hs
  | cons e fields ih =>
      simp only [List.foldlM_cons] at h
      obtain ⟨t, ht, h⟩ := Option.bind_eq_some_iff.mp h
      -- Field by field: only the one named `tasks` writes the tasks, and it gives no element.
      refine ih ?_ (fun x hx => hfields x (List.mem_cons_of_mem e hx)) h
      split at ht
      · rename_i name hname
        refine setWorkflow_tasks hs (fun htasks => ?_) ht
        exact hfields e List.mem_cons_self (htasks ▸ hname)
      · cases ht
        exact hs

/-- `Parse` returns no workflow from a document without tasks. -/
theorem parse_noTasks {iter : MapOrder} {rw : RawWorkflow} (h : rw.tasks = [])
    {g : Workflow} : parse iter rw ≠ .ok g := by
  unfold parse
  by_cases hname : rw.name = "" <;> simp [hname, h, bind, Except.bind]

/-- `Parse` refuses a document whose task lists are all empty. -/
theorem parseDocument_noTasks {iter : MapOrder} {msg : String} {fields : List (String × Json)}
    (hfields : ∀ e ∈ fields, fieldOf workflowFields e.1 = some "tasks" → e.2 = .arr [])
    {g : Workflow} : parseDocument iter msg (.obj [("workflow", .obj fields)]) ≠ .ok g := by
  unfold parseDocument
  split
  · simp
  · rename_i rw hrw
    obtain ⟨buffer, hbuffer, rfl⟩ := Option.map_eq_some_iff.mp hrw
    have hdecode : decodeWorkflow (.obj fields) zeroWorkflow = some buffer := by
      simpa [decodeStruct, fieldOf] using hbuffer
    have htasks := decodeWorkflow_noTasks rfl hfields hdecode
    exact parse_noTasks (by rw [RawBuffer.raw, htasks]; rfl)

/-! ### The round trip -/

/-- `w` is serialized, `from_dict` restores it, and `Parse` makes the same workflow of it. -/
def RoundTrips (lib : Sdk.PyLib) (iter : MapOrder) (msg : String) (w : Sdk.Workflow) : Prop :=
  ∃ doc, w.toDict = .ok doc ∧ Sdk.Workflow.fromDict lib doc = .ok w ∧
    parseDocument iter msg doc = .ok w.toGo

/-- No workflow makes the round trip. A workflow with a task is not serialized at all: `to_dict`
reads two attributes that `Task` does not have, and raises. One without tasks is serialized, but
`Parse` refuses a document whose tasks are an empty list. -/
theorem no_workflow_round_trips (lib : Sdk.PyLib) (iter : MapOrder) (msg : String)
    (w : Sdk.Workflow) : ¬ RoundTrips lib iter msg w := by
  rintro ⟨doc, hdoc, -, hparse⟩
  by_cases htasks : w.tasks = []
  · obtain ⟨fields, hdict, hfields⟩ := toDict_of_noTasks htasks
    rw [hdict] at hdoc
    cases hdoc
    exact parseDocument_noTasks hfields hparse
  · rw [toDict_of_tasks htasks] at hdoc
    cases hdoc

/-- The digits of ASCII, and enough stack for a short chain. The sample runs of the SDK use it where
the texts do not matter. -/
def asciiLib : Sdk.PyLib where
  decimal c := if c.isDigit then some (c.toNat - 48) else none
  repr _ := ""
  dumps _ := ""
  recursionLimit := 900

/-- A document with one task. -/
def loneTaskDocument : Json :=
  .obj [("workflow", .obj [("name", .str "w"),
    ("tasks", .arr [.obj [("id", .str "a"), ("skill", .str "s")]])])]

/-- `from_dict` accepts a document with one task, and the workflow does not make the round
trip. -/
theorem loneTask_not_serialized :
    ¬ ∀ (lib : Sdk.PyLib) (iter : MapOrder) (msg : String) (doc : Json) (w : Sdk.Workflow),
      Sdk.Workflow.fromDict lib doc = .ok w → RoundTrips lib iter msg w := by
  intro h
  have hload : (Sdk.Workflow.fromDict asciiLib loneTaskDocument).toOption.isSome = true := by
    decide +kernel
  cases hw : Sdk.Workflow.fromDict asciiLib loneTaskDocument with
  | error e =>
      rw [hw] at hload
      cases hload
  | ok w => exact no_workflow_round_trips _ _ _ w (h asciiLib .insertion "" loneTaskDocument w hw)

end Orchestrator.Proofs
