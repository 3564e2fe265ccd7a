import Orchestrator.Proofs.RunnerData
import Orchestrator.Proofs.Scope
import Orchestrator.Proofs.TaskValues

/-!
# `Orchestrator.Proofs.References`: the references of a workflow

`ReferencesOk` says that the references of a workflow can be resolved when they are needed: a task
refers to run inputs and to outputs of its transitive dependencies, and the output of the workflow
refers to run inputs and tasks. Neither validator reads a template (`validate_withTemplates`,
`sdk_validate_withTemplates`), so it holds only of the workflows whose author saw to it.

That a check is missing is stated for a task graph: whatever templates are written over it, the
validator gives the same answer (`Checked`, `SdkChecked`). So the references over a graph are
checked exactly when the graph is refused for another reason.

For workflows with good references, a lookup at dispatch ends in a run input or in the output of a
completed task (`LeadsIn`), and can fail only on a field that is missing there. The invariant behind
it is the one about snapshots, by which a dispatched task holds the outputs of all its transitive
dependencies. A task named `input` would hide the inputs of the run in the scope, and the theorem
has to leave it out.
-/

set_option autoImplicit false

namespace Orchestrator.Proofs

open Orchestrator.Lib Orchestrator.Engine Orchestrator.Engine.Env
open Orchestrator.Sdk (strip)

variable {B : Type} {env : Env B}

/-! ### Good references -/

/-- A task may refer to this path: a run input, or the output of a transitive dependency. -/
def TaskPathOk (deps : String → List String) (t : String) (path : List Char) : Prop :=
  (∃ part parts, splitPath path = "input" :: part :: parts) ∨
    ∃ id parts, splitPath path = id :: "output" :: parts ∧
      Relation.TransGen (fun d t => d ∈ deps t) id t

/-- The output of the workflow may refer to this path: `input` or a task. -/
def OutputPathOk (ids : List String) (path : List Char) : Prop :=
  ∃ name parts, splitPath path = name :: parts ∧ (name = "input" ∨ name ∈ ids)

/-- The references of a workflow of the engine lead somewhere: those of a task to inputs and to
tasks that it depends on, directly or not, those of the output to any task. -/
structure ReferencesOk (w : Workflow) : Prop where
  inputs : ∀ t ∈ w.tasks, ∀ path ∈ paths trimSpace (.obj t.inputs.entries),
    TaskPathOk w.deps t.id path
  output : ∀ path ∈ stringPaths trimSpace w.output, OutputPathOk w.ids path

/-- The references of a workflow of the SDK. The blanks around a path are stripped as Python does
it. -/
structure SdkReferencesOk (w : Sdk.Workflow) : Prop where
  inputs : ∀ t ∈ w.tasks, ∀ path ∈ paths strip (.obj t.inputs.entries),
    TaskPathOk w.deps t.id path
  output : ∀ path ∈ stringPaths strip (w.output.getD ""), OutputPathOk w.ids path

/-- A path of one part is no reference of a task. -/
theorem not_taskPathOk {deps : String → List String} {t : String} {path : List Char}
    {name : String} (hpath : splitPath path = [name]) : ¬ TaskPathOk deps t path := by
  rintro (⟨part, parts, h⟩ | ⟨id, parts, h, -⟩) <;> rw [hpath] at h <;> cases h

/-! ### The validators -/

/-- The task with other inputs. -/
def withInputs (inputs : String → Dict String Json) (t : Task) : Task :=
  { t with inputs := inputs t.id }

/-- The workflow with other templates. -/
def withTemplates (w : Workflow) (inputs : String → Dict String Json) (output : String) :
    Workflow :=
  { w with tasks := w.tasks.map (withInputs inputs), output := output }

/-- The task of the SDK with other inputs. -/
def sdkWithInputs (inputs : String → Dict String Json) (t : Sdk.Task) : Sdk.Task :=
  { t with inputs := inputs t.id }

/-- The workflow of the SDK with other templates. -/
def sdkWithTemplates (w : Sdk.Workflow) (inputs : String → Dict String Json)
    (output : Option String) : Sdk.Workflow :=
  { w with tasks := w.tasks.map (sdkWithInputs inputs), output := output }

/-- The loop over the ids of the tasks reads no template. -/
theorem checkIds_withInputs (inputs : String → Dict String Json) (ts : List Task)
    (seen : List String) : checkIds (ts.map (withInputs inputs)) seen = checkIds ts seen := by
  induction ts generalizing seen with
  | nil => rfl
  | cons t ts ih =>
      rw [List.map_cons, checkIds, checkIds, ih]
      rfl

/-- The loop over the dependencies of a task reads no template. -/
theorem checkDeps_withInputs (inputs : String → Dict String Json) (ids : List String) (t : Task)
    (deps : List String) : checkDeps ids (withInputs inputs t) deps = checkDeps ids t deps := by
  induction deps with
  | nil => rfl
  | cons dep deps ih =>
      rw [checkDeps, checkDeps, ih]
      rfl

/-- The loop over the tasks reads no template. -/
theorem checkTasks_withTemplates (w : Workflow) (inputs : String → Dict String Json)
    (output : String) (ids : List String) (ts : List Task) :
    checkTasks (withTemplates w inputs output) ids (ts.map (withInputs inputs))
      = checkTasks w ids ts := by
  induction ts with
  | nil => rfl
  | cons t ts ih =>
      rw [List.map_cons, checkTasks, checkTasks, checkDeps_withInputs, ih]
      rfl

/-- `Validate` reads no template. -/
theorem validate_withTemplates (w : Workflow) (iter : MapOrder)
    (inputs : String → Dict String Json) (output : String) :
    (withTemplates w inputs output).validate iter = w.validate iter := by
  have hmap : (withTemplates w inputs output).dependsOnMap = w.dependsOnMap := by
    rw [Workflow.dependsOnMap, Workflow.dependsOnMap, withTemplates, List.foldl_map]
    rfl
  have hcycle : (withTemplates w inputs output).detectCycle iter = w.detectCycle iter := by
    have hlen : (withTemplates w inputs output).tasks.length = w.tasks.length := List.length_map _
    have hdeps : (withTemplates w inputs output).deps = w.deps := by
      funext id
      rw [Workflow.deps, Workflow.deps, hmap]
    rw [Workflow.detectCycle, Workflow.detectCycle, hmap, hlen, hdeps]
  have htasks : (withTemplates w inputs output).tasks = w.tasks.map (withInputs inputs) := rfl
  rw [Workflow.validate, Workflow.validate, hcycle, htasks, checkIds_withInputs]
  simp only [checkTasks_withTemplates]

/-- Other templates do not change the ids of the tasks. -/
theorem sdkWithTemplates_ids (w : Sdk.Workflow) (inputs : String → Dict String Json)
    (output : Option String) : (sdkWithTemplates w inputs output).ids = w.ids := by
  rw [Sdk.Workflow.ids, Sdk.Workflow.ids, sdkWithTemplates, List.map_map]
  rfl

/-- The loop over the tasks reads no template. -/
theorem sdk_checkTasks_withTemplates (w : Sdk.Workflow) (lib : Sdk.PyLib)
    (inputs : String → Dict String Json) (output : Option String) (ts : List Sdk.Task) :
    Sdk.Workflow.checkTasks lib (sdkWithTemplates w inputs output) (ts.map (sdkWithInputs inputs))
      = Sdk.Workflow.checkTasks lib w ts := by
  induction ts with
  | nil => rfl
  | cons t ts ih =>
      rw [List.map_cons, Sdk.Workflow.checkTasks, Sdk.Workflow.checkTasks, ih,
        sdkWithTemplates_ids]
      rfl

/-- `validate` reads no template. -/
theorem sdk_validate_withTemplates (w : Sdk.Workflow) (lib : Sdk.PyLib)
    (inputs : String → Dict String Json) (output : Option String) :
    (sdkWithTemplates w inputs output).validate lib = w.validate lib := by
  have hgraph : (sdkWithTemplates w inputs output).graph = w.graph := by
    rw [Sdk.Workflow.graph, Sdk.Workflow.graph, sdkWithTemplates, List.foldl_map]
    rfl
  have hcycle : (sdkWithTemplates w inputs output).assertAcyclic lib = w.assertAcyclic lib := by
    have hdeps : (sdkWithTemplates w inputs output).deps = w.deps := by
      funext id
      rw [Sdk.Workflow.deps, Sdk.Workflow.deps, hgraph]
    rw [Sdk.Workflow.assertAcyclic, Sdk.Workflow.assertAcyclic, hgraph, hdeps]
  have htasks : (sdkWithTemplates w inputs output).tasks = w.tasks.map (sdkWithInputs inputs) := rfl
  rw [Sdk.Workflow.validate, Sdk.Workflow.validate, hcycle, sdkWithTemplates_ids, htasks,
    sdk_checkTasks_withTemplates]

/-- The engine refuses a workflow with a bad reference, whatever templates are written over this
task graph. -/
def Checked (w : Workflow) (iter : MapOrder) : Prop :=
  ∀ inputs output, (withTemplates w inputs output).validate iter = .ok () →
    ReferencesOk (withTemplates w inputs output)

/-- The SDK refuses a workflow with a bad reference, whatever templates are written over this task
graph. -/
def SdkChecked (w : Sdk.Workflow) (lib : Sdk.PyLib) : Prop :=
  ∀ inputs output, (sdkWithTemplates w inputs output).validate lib = .ok () →
    SdkReferencesOk (sdkWithTemplates w inputs output)

/-- A template whose reference is neither to the run inputs nor to an output. -/
def strayInputs : Dict String Json := Dict.empty.set "x" (.str "$\x7bx\x7d")

/-- The engine checks the references of no task graph that it accepts. -/
theorem checked_iff (w : Workflow) (iter : MapOrder) :
    Checked w iter ↔ w.validate iter ≠ .ok () := by
  simp only [Checked, validate_withTemplates]
  -- A workflow that is accepted stays accepted with any templates, so it is enough to give it one
  -- reference that leads nowhere.
  refine ⟨fun h hok => ?_, fun hne _ _ hok => absurd hok hne⟩
  have hrefs := h (fun _ => strayInputs) "$\x7bx\x7d" hok
  cases htasks : w.tasks with
  -- Without tasks the stray reference stands in the output template.
  | nil =>
      obtain ⟨name, parts, hpath, hname⟩ := hrefs.output "x".toList
        (show "x".toList ∈ stringPaths trimSpace "$\x7bx\x7d" by decide)
      rw [show splitPath "x".toList = ["x"] by rfl] at hpath
      cases hpath
      rcases hname with hname | hname
      · exact absurd hname (by decide)
      · simp [Workflow.ids, withTemplates, htasks] at hname
  | cons t ts =>
      have hmem : withInputs (fun _ => strayInputs) t ∈ (withTemplates w (fun _ => strayInputs)
          "$\x7bx\x7d").tasks := by
        rw [withTemplates, htasks]
        exact List.mem_cons_self
      have hpath : "x".toList ∈ paths trimSpace (.obj strayInputs.entries) := by decide
      exact not_taskPathOk (show splitPath "x".toList = ["x"] by rfl)
        (hrefs.inputs _ hmem _ hpath)

/-- The SDK checks the references of no task graph that it accepts. -/
theorem sdkChecked_iff (w : Sdk.Workflow) (lib : Sdk.PyLib) :
    SdkChecked w lib ↔ w.validate lib ≠ .ok () := by
  simp only [SdkChecked, sdk_validate_withTemplates]
  -- As for the Go engine.
  refine ⟨fun h hok => ?_, fun hne _ _ hok => absurd hok hne⟩
  have hrefs := h (fun _ => strayInputs) (some "$\x7bx\x7d") hok
  cases htasks : w.tasks with
  | nil =>
      obtain ⟨name, parts, hpath, hname⟩ := hrefs.output "x".toList
        (show "x".toList ∈ stringPaths strip "$\x7bx\x7d" by decide)
      rw [show splitPath "x".toList = ["x"] by rfl] at hpath
      cases hpath
      rcases hname with hname | hname
      · exact absurd hname (by decide)
      · simp [Sdk.Workflow.ids, sdkWithTemplates, htasks] at hname
  | cons t ts =>
      have hmem : sdkWithInputs (fun _ => strayInputs) t ∈
        (sdkWithTemplates w (fun _ => strayInputs)
          (some "$\x7bx\x7d")).tasks := by
        rw [sdkWithTemplates, htasks]
        exact List.mem_cons_self
      have hpath : "x".toList ∈ paths strip (.obj strayInputs.entries) := by decide
      exact not_taskPathOk (show splitPath "x".toList = ["x"] by rfl)
        (hrefs.inputs _ hmem _ hpath)

/-! ### Lookups at dispatch -/

/-- In the engine, the lookup of a goroutine reads a run input, or the output of a transitive
dependency that has succeeded. -/
def LeadsIn (env : Env B) (s : State B) (g : Goroutine) (path : List Char) : Prop :=
  (∃ parts, splitPath path = "input" :: parts ∧
    lookup env.lib path (.obj (buildScope env.inputs g.snapshot).entries)
      = lookupFrom env.lib path (.obj env.inputs.entries) parts) ∨
  ∃ id parts sp, splitPath path = id :: "output" :: parts ∧
    Relation.TransGen (fun d t => d ∈ env.wf.deps t) id g.task.id ∧
    s.main.spans.get? id = some sp ∧ sp.status = .succeeded ∧
    lookup env.lib path (.obj (buildScope env.inputs g.snapshot).entries)
      = lookupFrom env.lib path sp.output parts

/-- In the runner, the lookup of a coroutine reads a run input, or the result of a transitive
dependency. -/
def SdkLeadsIn (env : Sdk.Runner.Env) (s : Sdk.Runner.State) (c : Sdk.Runner.Coro)
    (path : List Char) : Prop :=
  (∃ parts, splitPath path = "input" :: parts ∧
    Sdk.lookup path (.obj (Sdk.Runner.templateScope s.currentInputs s.main.results).entries)
      = Sdk.lookupFrom path (.obj env.inputs.entries) parts) ∨
  ∃ id parts out, splitPath path = id :: "output" :: parts ∧
    Relation.TransGen (fun d t => d ∈ env.wf.deps t) id c.task.id ∧
    s.main.results.get? id = some out ∧
    Sdk.lookup path (.obj (Sdk.Runner.templateScope s.currentInputs s.main.results).entries)
      = Sdk.lookupFrom path out parts

/-- In a run of the engine, good references lead in, where no completed task is named `input`. -/
theorem leadsIn (hacc : Accepted env.wf) (hrefs : ReferencesOk env.wf) {s : State B}
    (hs : env.system.Reachable s) {g : Goroutine} (hg : g ∈ s.gos)
    (hfree : g.snapshot.contains "input" = false) {path : List Char}
    (hpath : path ∈ paths trimSpace (.obj g.task.inputs.entries)) : LeadsIn env s g path := by
  have h := reachable_runInv hacc hs
  rcases hrefs.inputs g.task (h.task_mem g hg) path hpath with
    ⟨part, parts, hsplit⟩ | ⟨id, parts, hsplit, hdep⟩
  · exact Or.inl ⟨part :: parts, hsplit, lookup_input env.lib hfree hsplit⟩
  · obtain ⟨sp, hsp, hgood, hsnap⟩ := h.snapshot_output hg hdep
    exact Or.inr ⟨id, parts, sp, hsplit, hdep, hsp, hgood, lookup_output env.lib hsnap hsplit⟩

/-- In a run of the SDK, good references lead in, where no completed task is named `input`. -/
theorem sdkLeadsIn {env : Sdk.Runner.Env} (hacc : Sdk.Runner.Accepted env.wf)
    (hrefs : SdkReferencesOk env.wf) {s : Sdk.Runner.State} (hs : env.system.Reachable s)
    {c : Sdk.Runner.Coro} (hc : c ∈ s.coros) (hfree : s.main.results.contains "input" = false)
    {path : List Char} (hpath : path ∈ paths strip (.obj c.task.inputs.entries)) :
    SdkLeadsIn env s c path := by
  have h := Sdk.Runner.reachable_handed hacc hs
  rcases hrefs.inputs c.task (h.task_mem c hc) path hpath with
    ⟨part, parts, hsplit⟩ | ⟨id, parts, hsplit, hdep⟩
  · refine Or.inl ⟨part :: parts, hsplit, ?_⟩
    rw [← h.inputs (List.ne_nil_of_mem hc)]
    exact sdk_lookup_input hfree hsplit
  · obtain ⟨out, hout⟩ := h.complete c hc id hdep
    exact Or.inr ⟨id, parts, out, hsplit, hdep, hout, sdk_lookup_output hout hsplit⟩

/-- Every lookup of a run of the engine leads in, where no completed task is named `input`. -/
def LookupsLeadIn (env : Env B) : Prop :=
  ∀ s, env.system.Reachable s → ∀ g ∈ s.gos, g.snapshot.contains "input" = false →
    ∀ path ∈ paths trimSpace (.obj g.task.inputs.entries), LeadsIn env s g path

/-- Every lookup of a run of the SDK leads in, where no completed task is named `input`. -/
def SdkLookupsLeadIn (env : Sdk.Runner.Env) : Prop :=
  ∀ s, env.system.Reachable s → ∀ c ∈ s.coros, s.main.results.contains "input" = false →
    ∀ path ∈ paths strip (.obj c.task.inputs.entries), SdkLeadsIn env s c path

/-- The references over a task graph are checked exactly when the graph is refused. In the run of an
accepted workflow whose references are good, a lookup can fail only on a field that is missing in a
run input or in the output of a completed dependency.

Neither validator reads a template, so an accepted graph stays accepted with templates that lead
nowhere (`checked_iff`). What is true instead is proved over the runs: at the dispatch of a task
every good reference walks into the run inputs or into an output that is in the snapshot
(`leadsIn`). -/
theorem references_checked_iff (env : Env B) (iter : MapOrder) (pyEnv : Sdk.Runner.Env)
    (lib : Sdk.PyLib) :
    (Checked env.wf iter ↔ env.wf.validate iter ≠ .ok ()) ∧
      (SdkChecked pyEnv.wf lib ↔ pyEnv.wf.validate lib ≠ .ok ()) ∧
      (env.wf.validate iter = .ok () → ReferencesOk env.wf → LookupsLeadIn env) ∧
      (pyEnv.wf.validate lib = .ok () → SdkReferencesOk pyEnv.wf → SdkLookupsLeadIn pyEnv) := by
  refine ⟨checked_iff _ _, sdkChecked_iff _ _, fun hval hrefs s hs g hg hfree path hpath => ?_,
    fun hval hrefs s hs c hc hfree path hpath => ?_⟩
  · exact leadsIn (accepted_of_validate hval) hrefs hs hg hfree hpath
  · exact sdkLeadsIn (Sdk.Runner.accepted_of_validate hval) hrefs hs hc hfree hpath

/-! ### A chain with a good reference, and a task with a bad one -/

/-- The chain of the sample run in the SDK: the second task refers to the output of the first. -/
def sdkChain : Sdk.Runner.Env :=
  Sdk.Runner.plainRun { name := "w", tasks := [{ id := "a", skill := "s" },
    { id := "b", skill := "s", dependsOn := ["a"],
      inputs := Dict.empty.set "x" (.str "$\x7ba.output\x7d") }] } .async

/-- The one reference of a chain is good. -/
theorem taskPathOk_chain {deps : String → List String} {t : String} {path : List Char}
    {l : List (List Char)} (hdep : "a" ∈ deps "b")
    (hl : (t, l) ∈ [("a", []), ("b", ["a.output".toList])]) (hpath : path ∈ l) :
    TaskPathOk deps t path := by
  rcases List.mem_pair.mp hl with h | h <;> cases h
  · cases hpath
  · obtain rfl := List.mem_singleton.mp hpath
    have hsplit : splitPath "a.output".toList = ["a", "output"] := by rfl
    exact Or.inr ⟨"a", [], hsplit, .single hdep⟩

/-- The references of the chain are good, in the engine. -/
theorem chain_references : ReferencesOk chainEnv.wf := by
  have htasks : chainEnv.wf.tasks.map (fun t => (t.id, paths trimSpace (.obj t.inputs.entries)))
      = [("a", []), ("b", ["a.output".toList])] := by rfl
  refine ⟨fun t ht path hpath => ?_, fun path hpath => ?_⟩
  · exact taskPathOk_chain (by decide) (htasks ▸ List.mem_map_of_mem ht) hpath
  · rw [show stringPaths trimSpace chainEnv.wf.output = [] by rfl] at hpath
    cases hpath

/-- The references of the chain are good, in the SDK. -/
theorem sdkChain_references : SdkReferencesOk sdkChain.wf := by
  have htasks : sdkChain.wf.tasks.map (fun t => (t.id, paths strip (.obj t.inputs.entries)))
      = [("a", []), ("b", ["a.output".toList])] := by rfl
  refine ⟨fun t ht path hpath => ?_, fun path hpath => ?_⟩
  · exact taskPathOk_chain (by decide) (htasks ▸ List.mem_map_of_mem ht) hpath
  · rw [show stringPaths strip (sdkChain.wf.output.getD "") = [] by rfl] at hpath
    cases hpath

/-- The lookups of the chain lead in, in both engines. -/
theorem references_checked_iff_chain : LookupsLeadIn chainEnv ∧ SdkLookupsLeadIn sdkChain := by
  have h := references_checked_iff chainEnv .insertion sdkChain asciiLib
  have hval : chainEnv.wf.validate .insertion = .ok () := accept_validated chain_accepted
  exact ⟨h.2.2.1 hval chain_references, h.2.2.2 (by decide) sdkChain_references⟩

/-- A workflow with one task, whose input is `${x}`. -/
def strayWorkflow : Workflow := plainWorkflow [{ plainTask "a" [] "" with inputs := strayInputs }]

/-- The same workflow in the SDK. -/
def sdkStrayWorkflow : Sdk.Workflow :=
  { name := "w", tasks := [{ id := "a", skill := "s", inputs := strayInputs }] }

/-- Both engines accept a task whose input is `${x}`. -/
theorem references_not_checked :
    strayWorkflow.validate .insertion = .ok () ∧ ¬ ReferencesOk strayWorkflow ∧
      sdkStrayWorkflow.validate asciiLib = .ok () ∧ ¬ SdkReferencesOk sdkStrayWorkflow := by
  have hsplit : splitPath "x".toList = ["x"] := by rfl
  have hpath : "x".toList ∈ paths trimSpace (.obj strayInputs.entries) := by decide
  have hpath' : "x".toList ∈ paths strip (.obj strayInputs.entries) := by decide
  refine ⟨by rfl, fun h => ?_, by rfl, fun h => ?_⟩
  · exact not_taskPathOk hsplit (h.inputs _ List.mem_cons_self _ hpath)
  · exact not_taskPathOk hsplit (h.inputs _ List.mem_cons_self _ hpath')

end Orchestrator.Proofs
