import Orchestrator.Lib.Loops
import Orchestrator.Lib.Replace
import Orchestrator.Proofs.RunnerSteps
import Orchestrator.Proofs.ValidateExact

/-!
# `Orchestrator.Proofs.RunnerBooks`: the maps and the skip marks of a Python run

`Accepted w` is what `Workflow.validate` promises about a workflow of the SDK. For such a workflow
this module turns the maps of `run` into plain functions of it, and says what its loops leave
behind: `releaseChildren_eq` for the children of a succeeded task, `markDescendantsSkipped_spec` for
the walk after a failure, and `skipRest_get?` for the end of `fail_fast`.

The books of a Python run (`ledger`) are of the same kind as those of the engine: the counters, the
ready queue, what was dispatched, and a label for each task. So `Lib.Ledger` serves both, and each
engine only has to show which of its steps is which operation on the books. The differences are in
the loops. The runner keeps a list of skipped ids beside the spans, and it releases the children of
a task in one loop with the test for a mark, where the engine looks at the counter alone.
-/

set_option autoImplicit false

namespace Orchestrator.Sdk.Runner

open Orchestrator.Lib Env
open Orchestrator.Engine (Status)

variable {env : Env} {w : Workflow}

/-! ### The maps of `run` -/

/-- What `Workflow.validate` promises about a workflow: distinct ids, dependencies that exist, and
no cycle among them. -/
structure Accepted (w : Workflow) : Prop where
  ids_nodup : w.ids.Nodup
  deps_mem : ∀ t ∈ w.tasks, ∀ d ∈ t.dependsOn, d ∈ w.ids
  acyclic : ∀ id ∈ w.ids, Acc (fun d t => d ∈ w.deps t) id

/-- A workflow that `validate` accepts. -/
theorem accepted_of_validate {lib : PyLib} (h : w.validate lib = .ok ()) : Accepted w := by
  unfold Workflow.validate at h
  by_cases hnd : w.ids.Nodup
  · simp only [hnd, not_true, if_false] at h
    have h : (do Workflow.checkTasks lib w w.tasks; w.assertAcyclic lib) = .ok () := h
    obtain ⟨⟨⟩, htasks, hcycle⟩ := except_bind_ok h
    refine ⟨hnd, ((@Proofs.sdk_checkTasks_spec lib w w.tasks).1.mp htasks).1, fun id hid => ?_⟩
    -- The validator visits every task, and a visit that comes back shows that the task is on no
    -- cycle.
    unfold Workflow.assertAcyclic at hcycle
    split at hcycle
    · rename_i c hc
      refine acyclic_of_visitAll hc id ?_
      exact (mem_keys_foldl_set_iff (fun t : Task => t.id) (fun t => t.dependsOn) hnd).mpr hid
    · cases hcycle
    · cases hcycle
  · simp only [hnd, not_false_eq_true, if_true] at h
    cases h

/-- The dependencies of a task's id are the task's own. -/
theorem Accepted.deps_task (h : Accepted w) {t : Task} (ht : t ∈ w.tasks) :
    w.deps t.id = t.dependsOn := by
  rw [Workflow.deps, Workflow.graph,
    get?_foldl_set_of_mem (fun t : Task => t.id) (fun t => t.dependsOn) _ _ h.ids_nodup ht]
  rfl

/-- The dependencies of a task id are task ids. -/
theorem Accepted.deps_ids (h : Accepted w) {id d : String} (hid : id ∈ w.ids)
    (hd : d ∈ w.deps id) : d ∈ w.ids := by
  obtain ⟨t, ht, rfl⟩ := List.mem_map.mp hid
  rw [h.deps_task ht] at hd
  exact h.deps_mem t ht d hd

/-- `task_map` finds exactly the tasks of the workflow. -/
theorem Accepted.taskMap_iff (h : Accepted w) {id : String} {t : Task} :
    w.taskMap.get? id = some t ↔ t ∈ w.tasks ∧ t.id = id :=
  get?_foldl_set_iff (fun t : Task => t.id) h.ids_nodup

/-- The keys of `task_map` are the task ids. -/
theorem Accepted.mem_taskMap_keys (h : Accepted w) {id : String} :
    id ∈ w.taskMap.keys ↔ id ∈ w.ids := by
  rw [Dict.mem_keys]
  constructor
  · rintro ⟨t, ht⟩
    obtain ⟨htask, rfl⟩ := h.taskMap_iff.mp ht
    exact List.mem_map_of_mem htask
  · intro hid
    obtain ⟨t, ht, rfl⟩ := List.mem_map.mp hid
    exact ⟨t, h.taskMap_iff.mpr ⟨ht, rfl⟩⟩

/-- The `children` map of `run`. -/
theorem Accepted.children_eq (h : Accepted env.wf) :
    env.children = childrenOf env.wf.ids env.wf.deps :=
  funext fun d => foldl_children (fun t : Task => t.id) (fun t => t.dependsOn) env.wf.deps
    env.wf.tasks (fun _ ht => h.deps_task ht) d

/-- The initial in-degree of a task. -/
theorem Accepted.initialIndeg_task (h : Accepted env.wf) {id : String}
    (hid : id ∈ env.wf.ids) : env.initialIndeg id = (env.wf.deps id).length := by
  obtain ⟨t, ht, rfl⟩ := List.mem_map.mp hid
  rw [h.deps_task ht]
  exact foldl_update_of_mem (fun t : Task => t.id) (fun t => (t.dependsOn.length : Int)) _ _
    h.ids_nodup ht

/-! ### The loop over the children -/

/-- The children are released as in the books, when no task that may start is marked. -/
theorem releaseChildren_eq (skipped : List String) :
    ∀ (cs : List String) (indeg : String → Int) (ready : List String),
      (∀ c, 1 ≤ indeg c → indeg c ≤ cs.count c → c ∉ skipped) →
      releaseChildren skipped cs indeg ready = release cs indeg ready := by
  intro cs
  induction cs with
  | nil => intro _ _ _; rfl
  | cons c cs ih =>
      intro indeg ready hskip
      -- One round of the loop. The test for a skipped child never fails, since a child whose count
      -- comes down to zero is none.
      have hround : releaseChildren skipped (c :: cs) indeg ready
          = releaseChildren skipped cs (Function.update indeg c (indeg c - 1))
              (if indeg c - 1 = 0 ∧ c ∉ skipped then ready ++ [c] else ready) := rfl
      have hc : (indeg c - 1 = 0 ∧ c ∉ skipped) ↔ indeg c - 1 = 0 := by
        refine and_iff_left_of_imp fun h0 => hskip c (by omega) ?_
        rw [List.count_cons_self]
        push_cast
        omega
      rw [hround, release_cons, if_congr hc rfl rfl]
      refine ih _ _ fun d h1 hle => ?_
      by_cases hd : d = c
      · subst hd
        rw [Function.update_self] at h1 hle
        refine hskip d (by omega) ?_
        rw [List.count_cons_self]
        push_cast
        omega
      · rw [Function.update_of_ne hd] at h1 hle
        refine hskip d h1 ?_
        rwa [List.count_cons_of_ne (Ne.symm hd)]

/-! ### Marking tasks as skipped -/

/-- The marks after marking a list of tasks. -/
theorem foldl_markSkipped (id : String) :
    ∀ (new : List String) (m : Marks),
      (new.foldl markSkipped m).spans.get? id
          = (if id ∈ new then some { id := id, status := .skipped } else m.spans.get? id) ∧
        (id ∈ (new.foldl markSkipped m).skipped ↔ id ∈ new ∨ id ∈ m.skipped) := by
  intro new
  -- Along the list of tasks to mark; a task that occurs twice gets the same placeholder again.
  induction new with
  | nil => intro m; simp
  | cons c new ih =>
      intro m
      rw [List.foldl_cons]
      obtain ⟨hspan, hskip⟩ := ih (markSkipped m c)
      rw [hspan, hskip]
      by_cases hnew : id ∈ new
      · simp [hnew]
      · by_cases hc : id = c
        · subst hc
          simp [hnew, markSkipped]
        · simp [hnew, hc, markSkipped]

/-- Marking a task marks it and no other. -/
theorem isMarked_markSkipped (m : Marks) (c d : String) :
    isMarked (markSkipped m c) d = (isMarked m d || decide (d = c)) := by
  by_cases hdc : d = c
  · subst hdc
    simp [isMarked, markSkipped]
  · simp [isMarked, markSkipped, Dict.contains, hdc]

/-- `mark_descendants_skipped` marks the tasks a walk along the children reaches. -/
theorem markDescendantsSkipped_spec (hacc : Accepted env.wf) (start : String) (m : Marks)
    (hm : ∀ id ∈ m.skipped, m.spans.contains id = true) :
    ∃ new, Walked (childrenOf env.wf.ids env.wf.deps) (fun (d : Dict String TaskSpan) id =>
          d.contains id) m.spans (childrenOf env.wf.ids env.wf.deps start) new ∧
      env.markDescendantsSkipped start m = new.foldl markSkipped m := by
  have hids : ∀ c d, d ∈ env.children c → d ∈ env.wf.ids := by
    intro c d hd
    rw [hacc.children_eq] at hd
    exact (mem_childrenOf.mp hd).1
  -- The code asks two tables. A skipped task has a span, so one of them would do.
  have hmarked : ∀ id, isMarked m id = m.spans.contains id := by
    intro id
    rw [isMarked, Bool.or_eq_right_iff_imp, decide_eq_true_iff]
    exact hm id
  obtain ⟨new, hwalk, hw⟩ := walk_spec env.children isMarked markSkipped isMarked_markSkipped
    hacc.ids_nodup (fun c _ d hd => hids c d hd)
    ((env.children start).reverse.length +
      (env.wf.ids.map (fun id => (env.children id).length)).sum)
    (env.children start).reverse m
    (fun c hc => hids start c (List.mem_reverse.mp hc)) (by
      refine Nat.add_le_add_left (List.sum_le_sum fun id _ => ?_) _
      split
      · exact Nat.zero_le _
      · exact le_rfl)
  refine ⟨new, ?_, hwalk⟩
  rw [← hacc.children_eq]
  exact hw.congr (fun c => (hmarked c).symm) (fun c => by rw [List.mem_reverse])

/-- The end of `fail_fast` gives a span to every task that has none. -/
theorem skipRest_get? (hacc : Accepted env.wf) (spans : Dict String TaskSpan) (id : String) :
    (env.skipRest spans).get? id
      = if id ∈ env.wf.ids ∧ spans.get? id = none then some { id := id, status := .skipped }
        else spans.get? id := by
  -- For any list of ids, since the loop changes the spans as it goes along them.
  have key : ∀ (ids : List String) (spans : Dict String TaskSpan),
      (ids.foldl (fun spans other =>
          if spans.contains other then spans
          else spans.set other { id := other, status := .skipped }) spans).get? id
        = if id ∈ ids ∧ spans.get? id = none then some { id := id, status := .skipped }
          else spans.get? id := by
    intro ids
    induction ids with
    | nil => intro spans; simp
    | cons other ids ih =>
        intro spans
        rw [List.foldl_cons, ih]
        by_cases ho : other = id
        · subst ho
          cases hc : spans.get? other with
          | none => simp [Dict.contains, hc]
          | some sp => simp [Dict.contains, hc]
        · cases spans.contains other
          · simp [Ne.symm ho]
          · simp [Ne.symm ho]
  rw [skipRest, key, if_congr (and_congr_left fun _ => hacc.mem_taskMap_keys) rfl rfl]

/-! ### The books of a state -/

/-- The ids of the started tasks, in the order of their start. -/
def coroIds (coros : List Coro) : List String := coros.map (fun c => c.task.id)

/-- The status that lets dependents start. -/
def isSucceeded (st : Status) : Bool := st = .succeeded

/-- The status of a recorded span. -/
def statusOf (spans : Dict String TaskSpan) (id : String) : Option Status :=
  (spans.get? id).map (·.status)

/-- The books of a state, in the terms of `Lib.Ledger`: the tasks that started are the coroutines,
and a label is the status of a recorded span. -/
def ledger (main : Main) (coros : List Coro) : Ledger String Status where
  indeg := main.indeg
  ready := main.ready
  started := coroIds coros
  label := statusOf main.spans

/-- The books agree with the dependencies, whatever happens after a failure. -/
abbrev SafeBooks (env : Env) (main : Main) (coros : List Coro) : Prop :=
  Ledger.Safe env.wf.ids env.wf.deps isSucceeded (ledger main coros)

/-- The books agree with the dependencies, and every label has been propagated. -/
abbrev Books (env : Env) (main : Main) (coros : List Coro) : Prop :=
  Ledger.Inv env.wf.ids env.wf.deps isSucceeded .skipped (ledger main coros)

/-- Recording a span changes the status of its task. -/
theorem statusOf_set (spans : Dict String TaskSpan) (id : String) (sp : TaskSpan) :
    statusOf (spans.set id sp) = Function.update (statusOf spans) id (some sp.status) :=
  Dict.map_get?_set _ spans id sp

/-- A task has no status when it has no span. -/
theorem statusOf_eq_none {spans : Dict String TaskSpan} {id : String} :
    statusOf spans id = none ↔ spans.get? id = none := by
  simp [statusOf]

/-- A task has the status of its span. -/
theorem statusOf_eq_some {spans : Dict String TaskSpan} {id : String} {st : Status} :
    statusOf spans id = some st ↔ ∃ sp, spans.get? id = some sp ∧ sp.status = st := by
  simp [statusOf]

/-- A good node of the books is a task with a succeeded span. -/
theorem isGood_ledger {main : Main} {coros : List Coro} {id : String} :
    (ledger main coros).isGood isSucceeded id = true ↔
      ∃ sp, main.spans.get? id = some sp ∧ sp.status = .succeeded := by
  rw [Ledger.isGood_iff]
  simp only [ledger, statusOf_eq_some, isSucceeded, decide_eq_true_iff]
  constructor
  · rintro ⟨_, ⟨sp, hsp, rfl⟩, hs⟩
    exact ⟨sp, hsp, hs⟩
  · rintro ⟨sp, hsp, hs⟩
    exact ⟨sp.status, ⟨sp, hsp, rfl⟩, hs⟩

end Orchestrator.Sdk.Runner
