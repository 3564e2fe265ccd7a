import Orchestrator.Proofs.RunInv

/-!
# `Orchestrator.Proofs.DispatchSafety`: which tasks a run dispatches

In every reachable state of a run of a validated workflow, the dispatched tasks are distinct, each
was dispatched after its dependencies succeeded and with their outputs, and none that could start is
left waiting when the main loop blocks (`dispatch_safety`). The theorem reads these facts off
`RunInv`.

What a dispatched task sees is its snapshot, a copy of the results that were recorded when it was
dispatched. The outputs of all its transitive dependencies are in it (`RunInv.snapshot_output`), by
induction along a chain of dependencies, since a dependency was itself dispatched after its own ones
had succeeded.

That no task is left waiting is a statement about the moment in which the main loop blocks on
`doneCh`. At other moments a task may be ready that is still to be dispatched.

The second half of the module has the small workflows on which the witnesses of many modules run:
plain tasks, an environment without inputs and limits, and the labels of a goroutine through one
attempt.
-/

set_option autoImplicit false

namespace Orchestrator.Proofs

open Orchestrator.Lib Orchestrator.Engine Orchestrator.Engine.Env

variable {B : Type} {env : Env B}

/-- A node that a span says succeeded. -/
theorem hasSucceeded_iff {spans : Dict String TaskSpan} {id : String} :
    hasSucceeded spans id = true ↔ ∃ sp, spans.get? id = some sp ∧ sp.status = .succeeded := by
  simp [hasSucceeded, Option.any_eq_true]

/-- The dependencies of a dispatched task have succeeded. -/
theorem RunInv.deps_succeeded (hacc : Accepted env.wf) {s : State B} (h : RunInv env s)
    {g : Goroutine} (hg : g ∈ s.gos) {d : String} (hd : d ∈ g.task.dependsOn) :
    hasSucceeded s.main.spans d = true := by
  rw [← hacc.deps_task (h.task_mem g hg)] at hd
  exact hasSucceeded_iff.mpr (isGood_ledger.mp
    (h.safe.deps_good _ (List.mem_append_left _ (List.mem_map_of_mem hg)) d hd))

/-- The snapshot of a dispatched task holds the recorded outputs of its transitive
dependencies. -/
theorem RunInv.snapshot_output {s : State B} (h : RunInv env s) {g : Goroutine}
    (hg : g ∈ s.gos) {d : String}
    (hd : Relation.TransGen (fun d t => d ∈ env.wf.deps t) d g.task.id) :
    ∃ sp, s.main.spans.get? d = some sp ∧ sp.status = .succeeded ∧
      g.snapshot.get? d = some sp.output := by
  obtain ⟨v, hv⟩ := (h.snapshot g hg).deps d hd
  obtain ⟨sp, hsp, hst, rfl⟩ := h.results d v ((h.snapshot g hg).sub d v hv)
  exact ⟨sp, hsp, hst, hv⟩

/-- When the main loop blocks on `doneCh`, every task that could start has been dispatched. -/
theorem RunInv.dispatched_of_recv (hacc : Accepted env.wf) {s : State B} (h : RunInv env s)
    (hpc : s.main.pc = .recv) {t : Task} (ht : t ∈ env.wf.tasks)
    (hdeps : ∀ d ∈ t.dependsOn, hasSucceeded s.main.spans d = true) :
    t.id ∈ goIds s.gos := by
  have hphase := h.phase
  rw [Phase, hpc] at hphase
  obtain ⟨hbooks, -⟩ := h.books hphase.1
  have hmem : t.id ∈ goIds s.gos ++ s.main.ready := by
    refine hbooks.enabled t.id (List.mem_map_of_mem ht) fun d hd => ?_
    rw [hacc.deps_task ht] at hd
    exact isGood_ledger.mpr (hasSucceeded_iff.mp (hdeps d hd))
  rwa [hphase.2.1, List.append_nil] at hmem

/-- A step that dispatches a task leaves the spans alone. So what a dispatched task finds after the
step it has found before. -/
theorem spans_of_dispatch {s s' : State B} {a : Action} (hs : env.step? s a = some s')
    {g : Goroutine} (hg : g ∈ s'.gos) (hnew : g.task.id ∉ goIds s.gos) :
    s'.main.spans = s.main.spans := by
  have hold : ∀ x ∈ s.gos, x.task.id ∈ goIds s.gos := fun x hx => List.mem_map_of_mem hx
  -- A step that records a span dispatches no task, so a new goroutine rules it out.
  rcases step_inv hs with ⟨-, hm⟩ | ⟨i, b, x, -, hx, ht⟩ | ⟨-, rfl⟩ | ⟨d, -, rfl⟩
  · cases hm with
    | dispatch tid rest t hpc hr ht => rfl
    | enter hpc hor => rfl
    | leave hpc hr hf => rfl
    | block hpc hr => rfl
    | receive span rest r hpc hch hr => exact absurd (hold g hg) hnew
    | drain span rest hpc hf hch => exact absurd (hold g hg) hnew
    | drained hpc hf => exact absurd (hold g hg) hnew
    | finish hpc => rfl
  · obtain ⟨x', hgs⟩ := ht.goStep
    rw [hgs.main]
  · rfl
  · rfl

/-- What a run promises about the tasks it has dispatched: each at most once, after its
dependencies, with their outputs, and as early as it can. -/
structure DispatchSafe (env : Env B) (s : State B) : Prop where
  /-- No task id is dispatched twice. -/
  once : (s.gos.map (fun g => g.task.id)).Nodup
  /-- The dependencies of a dispatched task have succeeded. -/
  deps : ∀ g ∈ s.gos, ∀ d ∈ g.task.dependsOn, hasSucceeded s.main.spans d = true
  /-- They had succeeded when it was dispatched. -/
  deps_before : ∀ a s', env.step? s a = some s' → ∀ g ∈ s'.gos,
    g.task.id ∉ s.gos.map (fun g => g.task.id) →
    ∀ d ∈ g.task.dependsOn, hasSucceeded s.main.spans d = true
  /-- The snapshot of a dispatched task holds the recorded output of each transitive
  dependency. -/
  snapshot : ∀ g ∈ s.gos, ∀ d,
    Relation.TransGen (fun d t => d ∈ env.wf.deps t) d g.task.id →
    ∃ sp, s.main.spans.get? d = some sp ∧ sp.status = .succeeded ∧
      g.snapshot.get? d = some sp.output
  /-- Where the main loop blocks on `doneCh`, no task that could start is left. -/
  no_delay : s.main.pc = .recv → ∀ t ∈ env.wf.tasks,
    (∀ d ∈ t.dependsOn, hasSucceeded s.main.spans d = true) →
    t.id ∈ s.gos.map (fun g => g.task.id)

/-- Every reachable state of a run of a validated workflow is `DispatchSafe`: each task is
dispatched at most once, only after its dependencies have succeeded, and with their outputs in its
snapshot.

The theorem reads all of it off `RunInv`, which every step keeps (`RunInv.step`). Only the clause
about the moment of the dispatch looks at a step: the one that makes a new goroutine records no span
(`spans_of_dispatch`), so what has succeeded after it had succeeded before it. -/
theorem dispatch_safety (env : Env B) (iter : MapOrder) (hval : env.wf.validate iter = .ok ())
    {s : State B} (hs : env.system.Reachable s) : DispatchSafe env s := by
  have hacc := accepted_of_validate hval
  have h := reachable_runInv hacc hs
  refine ⟨h.flight.ids_nodup, fun g hg d hd => h.deps_succeeded hacc hg hd, ?_,
    fun g hg d hd => h.snapshot_output hg hd, fun hpc t ht => h.dispatched_of_recv hacc hpc ht⟩
  intro a s' ha g hg hnew d hd
  have h' := h.step hacc ha
  rw [← spans_of_dispatch ha hg hnew]
  exact h'.deps_succeeded hacc hg hd

/-! ### A sample run -/

/-- A task without inputs, provider, retries or timeout. The sample runs of the proofs are made of
such tasks. -/
def plainTask (id : String) (dependsOn : List String) (onError : String) : Task where
  id := id
  skill := "s"
  provider := ""
  dependsOn := dependsOn
  inputs := .empty
  retry := none
  timeout := none
  onError := onError
  idempotent := false

/-- A workflow of plain tasks, without rate limits. It has as many slots as a sample run can use. -/
def plainWorkflow (tasks : List Task) : Workflow where
  name := "w"
  version := 1
  maxParallel := 8
  rateLimit := none
  providers := .empty
  defaultRetry := { max := 0, backoff := "none", base := 0, jitter := false }
  defaultTimeout := none
  defaultOnError := "fail_fast"
  inputsSchema := .empty
  tasks := tasks
  output := ""

/-- The library functions on the few values the sample runs give them. They make runs that `decide`
can evaluate; no theorem assumes that the library is this one. -/
def plainLib : GoLib where
  marshal := fun _ => "{}"
  unmarshal := fun _ => some .null
  quote := fun s => "\"" ++ s ++ "\""
  rfc3339 := fun _ => "1970-01-01T00:00:00Z"

/-- A run of a workflow without inputs, started at the epoch. Its limiter grants everything, and
maps are ranged over in insertion order. -/
def plainEnv (wf : Workflow) : Env Unit where
  wf := wf
  runID := "r"
  inputs := .empty
  lib := plainLib
  iter := .insertion
  limiter := { new := fun _ _ _ => (), tryAcquire := fun _ _ => (true, ()) }
  startedAt := 0

/-- The steps of the `i`-th goroutine through one attempt that returns `res`. -/
def attempt (i : Nat) (res : Result) : List Action :=
  [.task i .takeSlot, .task i .acquire, .task i .call, .task i (.ret res none)]

/-- The steps of the `i`-th goroutine through a single attempt, up to its send. -/
def wholeTask (i : Nat) (res : Result) : List Action :=
  [.task i .resolve] ++ attempt i res ++ [.task i .send]

/-- `b` lists its dependency on `a` twice. -/
def doubledEdge : Env Unit :=
  plainEnv (plainWorkflow [plainTask "a" [] "", plainTask "b" ["a", "a"] ""])

/-- Two tasks with the edge between them listed twice. After `a` is received, `b` is dispatched
once: the two entries of the edge count as two dependencies, and both are taken off at once. -/
theorem dispatch_safety_doubledEdge :
    ∃ s, s.gos.map (fun g => g.task.id) = ["a", "b"] ∧ DispatchSafe doubledEdge s := by
  have hrun : (doubledEdge.system.run?
      ([Action.main, .main, .main] ++ wholeTask 0 {} ++ [Action.main, .main, .main, .main])).any
        (fun s => s.gos.map (fun g => g.task.id) = ["a", "b"]) = true := by decide +kernel
  obtain ⟨s, hs, hids⟩ := System.exists_of_run hrun
  exact ⟨s, by simpa using hids, dispatch_safety doubledEdge .insertion (by rfl) hs⟩

end Orchestrator.Proofs
