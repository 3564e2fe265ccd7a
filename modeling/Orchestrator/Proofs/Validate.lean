import Orchestrator.Engine.Scheduler
import Orchestrator.Lib.Loops

/-!
# `Orchestrator.Proofs.Validate`: what `Validate` accepts

`Accepted w` collects what a successful `Validate` says about a workflow: the ids are distinct, each
dependency is a task, and the dependency relation is well-founded. `accepted_of_validate` reads it
off the code. Most of the development needs no more of the validator than this.

The second half turns the maps that `Run` builds before its main loop into plain functions of an
accepted workflow: `deps_task`, `taskMap_iff`, `children_eq`, `initialIndeg_task` and
`initialReady_eq`. A loop of the source that fills a map becomes an equation for the value at a key,
and from here on no proof looks at the loops again.

The search for a cycle is the one of `Lib.Dfs`, which says that it succeeds only on a graph without
a cycle; that the dependencies are then well-founded is a fact about finite graphs. `ValidateExact`
has the converse: which workflows are accepted, and with which errors the others are refused.
-/

set_option autoImplicit false

namespace Orchestrator.Proofs

open Orchestrator.Lib Orchestrator.Engine

/-! ### The validator -/

/-- What `Validate` promises about a workflow: distinct ids, dependencies that exist, and no cycle
among them. Most results about runs assume it and nothing else about the document. -/
structure Accepted (w : Workflow) : Prop where
  ids_nodup : w.ids.Nodup
  deps_mem : ∀ t ∈ w.tasks, ∀ d ∈ t.dependsOn, d ∈ w.ids
  acyclic : ∀ id ∈ w.ids, Acc (fun d t => d ∈ w.deps t) id

/-- The first loop of `Validate` collects the ids, which are distinct. -/
theorem checkIds_ok : ∀ (ts : List Task) (seen ids : List String), seen.Nodup →
    checkIds ts seen = .ok ids →
    (ts.map (·.id)).Nodup ∧ (∀ t ∈ ts, t.id ∉ seen) ∧
      ∀ id, id ∈ ids ↔ id ∈ ts.map (·.id) ∨ id ∈ seen := by
  intro ts
  induction ts with
  | nil =>
      intro seen ids _ h
      cases h
      simp
  | cons t ts ih =>
      intro seen ids hseen h
      rw [checkIds] at h
      split at h
      · cases h
      · -- The list of ids seen grows by the head, so a later duplicate is caught there.
        rename_i ht
        obtain ⟨hnd, hfresh, hids⟩ := ih _ _ (List.nodup_cons.mpr ⟨ht, hseen⟩) h
        refine ⟨?_, ?_, ?_⟩
        · rw [List.map_cons, List.nodup_cons]
          refine ⟨fun hm => ?_, hnd⟩
          obtain ⟨t', ht', heq⟩ := List.mem_map.mp hm
          exact hfresh t' ht' (heq ▸ List.mem_cons_self)
        · intro t' ht'
          rcases List.mem_cons.mp ht' with rfl | ht'
          · exact ht
          · exact fun hm => hfresh t' ht' (List.mem_cons_of_mem _ hm)
        · intro id
          rw [hids id, List.mem_cons, List.map_cons, List.mem_cons]
          tauto

/-- The inner loop of the second pass checks every dependency. -/
theorem checkDeps_ok {ids : List String} {t : Task} :
    ∀ deps : List String, checkDeps ids t deps = .ok () → ∀ d ∈ deps, d ∈ ids := by
  intro deps
  induction deps with
  | nil => simp
  | cons dep deps ih =>
      intro h d hd
      rw [checkDeps] at h
      split at h
      · rename_i hdep
        rcases List.mem_cons.mp hd with rfl | hd
        · exact hdep
        · exact ih h d hd
      · cases h

/-- The second pass checks the dependencies of every task. -/
theorem checkTasks_ok {w : Workflow} {ids : List String} :
    ∀ ts : List Task, checkTasks w ids ts = .ok () → ∀ t ∈ ts, ∀ d ∈ t.dependsOn, d ∈ ids := by
  intro ts
  induction ts with
  | nil => simp
  | cons t ts ih =>
      intro h t' ht'
      rw [checkTasks] at h
      obtain ⟨⟨⟩, hdeps, h⟩ := except_bind_ok h
      split at h
      · cases h
      · rcases List.mem_cons.mp ht' with rfl | ht'
        · exact checkDeps_ok _ hdeps
        · exact ih h t' ht'

/-- In a workflow with distinct ids, `deps` of a task's id is the task's own list. -/
theorem deps_task_of_nodup {w : Workflow} (hnd : w.ids.Nodup) {t : Task} (ht : t ∈ w.tasks) :
    w.deps t.id = t.dependsOn := by
  rw [Workflow.deps, Workflow.dependsOnMap,
    get?_foldl_set_of_mem (fun t : Task => t.id) (fun t => t.dependsOn) _ _ hnd ht]
  rfl

/-- A workflow that `Validate` accepts. -/
theorem accepted_of_validate {w : Workflow} {iter : MapOrder} (h : w.validate iter = .ok ()) :
    Accepted w := by
  rw [Workflow.validate] at h
  obtain ⟨ids, hids, h⟩ := except_bind_ok h
  obtain ⟨⟨⟩, htasks, hcycle⟩ := except_bind_ok h
  obtain ⟨hnd, -, hmem⟩ := checkIds_ok _ _ _ List.nodup_nil hids
  refine ⟨hnd, ?_, ?_⟩
  · intro t ht d hd
    have := (hmem d).mp (checkTasks_ok _ htasks t ht d hd)
    simpa [Workflow.ids] using this
  · intro id hid
    obtain ⟨t, ht, rfl⟩ := List.mem_map.mp hid
    rw [Workflow.detectCycle] at hcycle
    split at hcycle
    · rename_i c hc
      -- Every task is a key of the graph, whatever order the map is walked in, so each is visited.
      refine acyclic_of_visitAll hc t.id ?_
      rw [(iter.perm _).mem_iff, Dict.mem_keys]
      exact ⟨_, get?_foldl_set_of_mem (fun t : Task => t.id) (fun t => t.dependsOn) _ _ hnd ht⟩
    · cases hcycle
    · cases hcycle

/-- `Parse` returns validated workflows with a positive `MaxParallel`. -/
theorem parse_spec {iter : MapOrder} {raw : RawWorkflow} {w : Workflow}
    (h : parse iter raw = .ok w) : w.validate iter = .ok () ∧ 1 ≤ w.maxParallel := by
  unfold parse at h
  by_cases hname : raw.name = ""
  · simp [hname, bind, Except.bind] at h
  by_cases htasks : raw.tasks = []
  · simp [hname, htasks, bind, Except.bind] at h
  simp only [hname, htasks, if_false] at h
  obtain ⟨providers, -, h⟩ := except_bind_ok h
  obtain ⟨tasks, -, h⟩ := except_bind_ok h
  split at h
  · rename_i hval
    cases h
    refine ⟨hval, ?_⟩
    -- The default of 8 replaces a missing or non-positive value.
    cases raw.concurrency with
    | none => simp
    | some c =>
        simp only
        split <;> omega
  · cases h

/-! ### The maps of `Run` -/

section Accepted

variable {B : Type} {env : Env B} {w : Workflow}

/-- The dependencies of a task's id are the task's own. -/
theorem Accepted.deps_task (h : Accepted w) {t : Task} (ht : t ∈ w.tasks) :
    w.deps t.id = t.dependsOn :=
  deps_task_of_nodup h.ids_nodup ht

/-- The dependencies of a task id are task ids. -/
theorem Accepted.deps_ids (h : Accepted w) {id d : String} (hid : id ∈ w.ids)
    (hd : d ∈ w.deps id) : d ∈ w.ids := by
  obtain ⟨t, ht, rfl⟩ := List.mem_map.mp hid
  rw [h.deps_task ht] at hd
  exact h.deps_mem t ht d hd

/-- What has a dependency is a task. -/
theorem mem_ids_of_dep {id d : String} (hd : d ∈ w.deps id) : id ∈ w.ids := by
  by_contra hid
  have hnot : ∀ t ∈ w.tasks, t.id ≠ id := fun t ht heq => hid (List.mem_map.mpr ⟨t, ht, heq⟩)
  rw [Workflow.deps, Workflow.dependsOnMap, get?_foldl_set_of_not_mem (fun t : Task => t.id)
    (fun t => t.dependsOn) _ _ hnot] at hd
  cases hd

/-- Tasks with one id are one task. -/
theorem Accepted.task_unique (h : Accepted w) {t t' : Task} (ht : t ∈ w.tasks)
    (ht' : t' ∈ w.tasks) (hid : t.id = t'.id) : t = t' :=
  List.inj_on_of_nodup_map h.ids_nodup ht ht' hid

/-- `taskMap` finds exactly the tasks of the workflow. -/
theorem Accepted.taskMap_iff (h : Accepted w) {id : String} {t : Task} :
    w.taskMap.get? id = some t ↔ t ∈ w.tasks ∧ t.id = id :=
  get?_foldl_set_iff (fun t : Task => t.id) h.ids_nodup

/-- The `children` map of `Run`. -/
theorem Accepted.children_eq (h : Accepted env.wf) (d : String) :
    env.children d = childrenOf env.wf.ids env.wf.deps d :=
  foldl_children (fun t : Task => t.id) (fun t => t.dependsOn) env.wf.deps env.wf.tasks
    (fun _ ht => h.deps_task ht) d

/-- The initial in-degree of a task. -/
theorem Accepted.initialIndeg_task (h : Accepted env.wf) {id : String} (hid : id ∈ env.wf.ids) :
    env.initialIndeg id = (env.wf.deps id).length := by
  obtain ⟨t, ht, rfl⟩ := List.mem_map.mp hid
  rw [h.deps_task ht]
  exact foldl_update_of_mem (fun t : Task => t.id) (fun t => (t.dependsOn.length : Int)) _ _
    h.ids_nodup ht

/-- The initial ready list: the ids without a dependency, in spec order. -/
theorem initialReady_eq :
    env.initialReady = env.wf.ids.filter (fun id => env.initialIndeg id = 0) := by
  have key : ∀ (ts : List Task) (ready : List String),
      ts.foldl (fun ready t =>
          if env.initialIndeg t.id = 0 then ready ++ [t.id] else ready) ready
        = ready ++ (ts.map (·.id)).filter (fun id => env.initialIndeg id = 0) := by
    intro ts
    induction ts with
    | nil => intro ready; simp
    | cons t ts ih =>
        intro ready
        rw [List.foldl_cons, ih]
        by_cases h0 : env.initialIndeg t.id = 0 <;> simp [h0]
  rw [Env.initialReady, key, List.nil_append]
  rfl

end Accepted

end Orchestrator.Proofs
