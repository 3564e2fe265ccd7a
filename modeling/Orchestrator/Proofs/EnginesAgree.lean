import Orchestrator.Proofs.LoadedWorkflow
import Orchestrator.Proofs.RunVerdict
import Orchestrator.Proofs.RunnerVerdict
import Orchestrator.Sdk.GoView

/-!
# `Orchestrator.Proofs.EnginesAgree`: the engine and the runner report the same

Two runs of one workflow, one by `Scheduler.Run` and one by `Orchestrator.run`, under the `continue`
policy. The outcomes of the attempts are the same for both, and each run goes its own way.
`Comparable` says when the runs can be compared. Then each report is the one that the plan asks for,
so the two agree, and each fair run gets to a report (`engines_agree`).

The plan is a function of the workflow and the outcomes (`Verdict`): which tasks succeed, after how
many attempts, and which are skipped. Neither scheduler is in it. `RunVerdict` and `RunnerVerdict`
prove for each engine that its report follows the plan, so that comparing the two engines is
comparing the two readings of one plan. The order in which tasks are dispatched and spans are
received never enters the comparison.

The three conditions that `Comparable` adds to `Continues` are about the start checks of `run`, the
largest number of retries, and the power in the backoff of the runner. None of them can be left out
(`engines_differ`): for each there is a pair of runs that meets the other two and ends differently.
-/

set_option autoImplicit false

namespace Orchestrator.Proofs

open Orchestrator.Lib Orchestrator.Engine Orchestrator.Engine.Env
open Orchestrator.Sdk (PyLib strip)
open Orchestrator.Sdk.Runner (SleepsFit)

/-! ### One workflow in two data models -/

section

variable (w : Sdk.Workflow)

/-- The translated workflow has the same task ids. -/
theorem toGo_ids : w.toGo.ids = w.ids := by
  show (w.tasks.map Sdk.Task.toGo).map (·.id) = w.tasks.map (·.id)
  rw [List.map_map]
  rfl

/-- The translated workflow has the same dependencies. -/
theorem toGo_deps : w.toGo.deps = w.deps := by
  have hmap : w.toGo.dependsOnMap = w.graph := List.foldl_map
  funext id
  rw [Workflow.deps, hmap, Sdk.Workflow.deps]

/-- Both fall back to the default policy of the workflow, and from there to the same constants. -/
theorem toGo_effectiveRetry (t : Sdk.Task) :
    t.toGo.effectiveRetry w.toGo.defaultRetry = (Sdk.Runner.effectiveRetry w t).toGo := by
  show (t.retry.map Sdk.Retry.toGo).getD (w.defaultRetry.getD {}).toGo
    = ((t.retry.orElse fun _ => w.defaultRetry).getD {}).toGo
  cases t.retry with
  | none => rfl
  | some r => rfl

/-- Both engines read the same error policy of a task. -/
theorem toGo_effectiveOnError (t : Sdk.Task) :
    t.toGo.effectiveOnError w.toGo.defaultOnError = Sdk.Runner.effectiveOnError w t := rfl

end

/-- Both engines find the same task under an id. -/
theorem toGo_taskMap {w : Sdk.Workflow} (hacc : Sdk.Runner.Accepted w) (id : String) :
    w.toGo.taskMap.get? id = (w.taskMap.get? id).map Sdk.Task.toGo := by
  have hmap : w.toGo.taskMap
      = w.tasks.foldl (fun m t => m.set t.id t.toGo) (Dict.empty : Dict String Task) :=
        List.foldl_map
  -- The ids are distinct, so no task overwrites another one in either map.
  by_cases hid : id ∈ w.ids
  · obtain ⟨t, ht, rfl⟩ := List.mem_map.mp hid
    rw [hmap, hacc.taskMap_iff.mpr ⟨ht, rfl⟩]
    exact get?_foldl_set_of_mem (fun t : Sdk.Task => t.id) Sdk.Task.toGo _ _ hacc.ids_nodup ht
  · have hnot : ∀ t ∈ w.tasks, t.id ≠ id := fun t ht h => hid (h ▸ List.mem_map_of_mem ht)
    rw [hmap, get?_foldl_set_of_not_mem (fun t : Sdk.Task => t.id) Sdk.Task.toGo _ _ hnot,
      Sdk.Workflow.taskMap,
      get?_foldl_set_of_not_mem (fun t : Sdk.Task => t.id) (fun t => t) _ _ hnot]
    rfl

/-! ### The comparison -/

variable {B : Type} {go : Env B} {py : Sdk.Runner.Env} {iter : MapOrder} {lib : PyLib}
  {outcome : Outcomes}

/-- One accepted workflow under the `continue` policy, with the same inputs for both engines. A
template names nothing but run inputs that are there and whole outputs of transitive dependencies,
whichever of the two ways to trim a string finds its references. -/
structure Continues (go : Env B) (py : Sdk.Runner.Env) (iter : MapOrder) (lib : PyLib) : Prop where
  workflow : go.wf = py.wf.toGo
  inputs : go.inputs = py.inputs
  goAccepts : go.wf.validate iter = .ok ()
  pyAccepts : py.wf.validate lib = .ok ()
  input_free : "input" ∉ py.wf.ids
  continues : ∀ t ∈ py.wf.tasks, Sdk.Runner.effectiveOnError py.wf t ≠ "fail_fast"
  retries : ∀ t ∈ py.wf.tasks, 0 ≤ (Sdk.Runner.effectiveRetry py.wf t).max
  untimed : ∀ t ∈ py.wf.tasks, Sdk.Runner.effectiveTimeout py.wf t = none
  leads : ∀ t ∈ py.wf.tasks, ∀ path,
    path ∈ paths trimSpace (.obj t.inputs.entries) ∨ path ∈ paths strip (.obj t.inputs.entries) →
      PathLeads py.inputs py.wf.deps t.id path
  parallel : 1 ≤ py.wf.maxParallel

/-- The checks at the start of the runner's `run` pass: the required inputs are there, and the rates
are positive. -/
def Starts (py : Sdk.Runner.Env) : Prop := ∀ now, ∃ buckets, py.prepare now = .ok buckets

/-- No task asks for the largest number of retries. -/
def LimitsFit (py : Sdk.Runner.Env) : Prop :=
  ∀ t ∈ py.wf.tasks, (Sdk.Runner.effectiveRetry py.wf t).max < 2 ^ 63 - 1

/-- The two runs can be compared. They are runs of one workflow with the same outcomes, and the
three last conditions keep away what only one of the engines would do: refuse to start, wrap a bound
around, or fail to sleep. -/
structure Comparable (go : Env B) (py : Sdk.Runner.Env) (iter : MapOrder) (lib : PyLib)
    (outcome : Outcomes) : Prop extends Continues go py iter lib where
  starts : Starts py
  limits : LimitsFit py
  sleeps : ∀ t ∈ py.wf.tasks, SleepsFit py outcome t

/-- What the two engines make of the outcomes: both come to a report, the runner never raises, and
the reports have one verdict. -/
structure SameReports (go : Env B) (py : Sdk.Runner.Env) (outcome : Outcomes) : Prop where
  /-- The runner does not raise. -/
  calm : ∀ s, py.system.ReachableBy (Sdk.Runner.Follows py outcome) s → ∀ e, s.main.pc ≠ .raised e
  goReports : ∀ e : go.system.Execution, Fair e →
    (∀ n, Follows go outcome (e.state n) (e.label n)) → ∃ n, (e.state n).report?.isSome = true
  pyReports : ∀ e : py.system.Execution, Sdk.Runner.Fair e →
    (∀ n, Sdk.Runner.Follows py outcome (e.state n) (e.label n)) →
      ∃ n, (e.state n).report?.isSome = true
  goRight : ∀ s rep, go.system.ReachableBy (Follows go outcome) s → s.report? = some rep →
    (reportVerdict rep).Right (Sdk.Runner.runPlan py outcome)
  pyRight : ∀ s rep, py.system.ReachableBy (Sdk.Runner.Follows py outcome) s →
    s.report? = some rep → (Sdk.Runner.reportVerdict rep).Right (Sdk.Runner.runPlan py outcome)
  same : ∀ s rep s' rep', go.system.ReachableBy (Follows go outcome) s → s.report? = some rep →
    py.system.ReachableBy (Sdk.Runner.Follows py outcome) s' → s'.report? = some rep' →
      reportVerdict rep = Sdk.Runner.reportVerdict rep'

namespace Comparable

variable (h : Comparable go py iter lib outcome)
include h

/-- The outcomes say the same about both runs. -/
theorem runPlan_eq : runPlan go outcome = Sdk.Runner.runPlan py outcome := by
  have hacc := Sdk.Runner.accepted_of_validate h.pyAccepts
  have hlimit : (fun id => ((go.wf.taskMap.get? id).map fun t =>
        (t.effectiveRetry go.wf.defaultRetry).max + 1).getD 0)
      = fun id => ((py.wf.taskMap.get? id).map fun t =>
        (Sdk.Runner.effectiveRetry py.wf t).max + 1).getD 0 := by
    funext id
    rw [h.workflow, toGo_taskMap hacc, Option.map_map]
    simp only [Function.comp_def, toGo_effectiveRetry, Sdk.Retry.toGo]
  rw [runPlan, Sdk.Runner.runPlan, hlimit, h.workflow, toGo_ids, toGo_deps]

/-- The tasks of the engine are those of the SDK. -/
theorem forall_tasks {P : Task → Prop} (hP : ∀ t ∈ py.wf.tasks, P t.toGo) :
    ∀ t ∈ go.wf.tasks, P t := by
  rw [h.workflow]
  intro t ht
  obtain ⟨t, hmem, rfl⟩ := List.mem_map.mp ht
  exact hP t hmem

/-- The run of the engine follows the plan. -/
theorem goPredictable : Predictable go where
  continues := h.forall_tasks fun t ht => by
    rw [h.workflow, toGo_effectiveOnError]
    exact h.continues t ht
  retries := h.forall_tasks fun t ht => by
    rw [h.workflow, toGo_effectiveRetry]
    exact ⟨h.retries t ht, h.limits t ht⟩
  leads := h.forall_tasks fun t ht path hpath => by
    rw [h.workflow, toGo_deps, h.inputs]
    exact h.leads t ht path (Or.inl hpath)
  input_free := by
    rw [h.workflow, toGo_ids]
    exact h.input_free

/-- The run of the runner follows the plan. -/
theorem pyPredictable : Sdk.Runner.Predictable py outcome where
  starts := h.starts
  continues := h.continues
  retries := h.retries
  untimed := h.untimed
  leads t ht path hpath := h.leads t ht path (Or.inr hpath)
  input_free := h.input_free
  sleeps := h.sleeps

end Comparable

/-- Where two runs can be compared, the engine and the runner agree. Both come to a report in every
fair run, the runner never raises, and each report is the right one for the plan of the outcomes.

The plan names neither engine (`runPlan_eq` shows that it is one for both), and a plan has one right
verdict. So the two reports agree without being compared with each other, whatever the orders of
events that led to them. -/
theorem engines_agree (go : Env B) (py : Sdk.Runner.Env) (iter : MapOrder) (lib : PyLib)
    (outcome : Outcomes) (h : Comparable go py iter lib outcome) : SameReports go py outcome := by
  have hgo := accepted_of_validate h.goAccepts
  have hpy := Sdk.Runner.accepted_of_validate h.pyAccepts
  -- Each engine reports what the plan of the outcomes says, and the plan is one for both.
  have hgoRight : ∀ s rep, go.system.ReachableBy (Follows go outcome) s → s.report? = some rep →
      (reportVerdict rep).Right (Sdk.Runner.runPlan py outcome) := fun s rep hs hrep =>
    h.runPlan_eq ▸ report_right hgo h.goPredictable hs hrep
  have hpyRight : ∀ s rep, py.system.ReachableBy (Sdk.Runner.Follows py outcome) s →
      s.report? = some rep → (Sdk.Runner.reportVerdict rep).Right (Sdk.Runner.runPlan py outcome) :=
    fun s rep hs hrep => Sdk.Runner.report_right hpy h.pyPredictable hs hrep
  refine ⟨fun s hs => (Sdk.Runner.reachable_onPlan hpy h.pyPredictable hs).run,
    fun e hfair _ => fair_returns hgo ?_ e hfair,
    fun e hfair hfollow =>
    Sdk.Runner.fair_reports_onPlan hpy h.pyPredictable h.parallel e hfair hfollow,
    hgoRight, hpyRight, fun s rep s' rep' hs hrep hs' hrep' =>
      (hgoRight s rep hs hrep).unique (hpyRight s' rep' hs' hrep')⟩
  rw [h.workflow]
  exact h.parallel

/-- `a` succeeds at its second attempt, and `b` uses its output. `c` fails, so `d` is skipped. -/
def branches : Sdk.Workflow where
  name := "w"
  defaultOnError := "continue"
  tasks :=
    [{ id := "a", skill := "s", retry := some { max := 1, backoff := "none", base := 0 } },
      { id := "b", skill := "s", dependsOn := ["a"]
        inputs := Dict.empty.set "x" (.str "$\x7ba.output\x7d") },
      { id := "c", skill := "s" },
      { id := "d", skill := "s", dependsOn := ["c"] }]

/-- The outcomes of the example: `b` succeeds at once, `a` at its second attempt, and `c` never. -/
def branchOk (id : String) (k : Int) : Bool := id == "b" || id == "a" && k == 2

/-- The engine runs `a` to its end before `c`. In the run of the runner it is the other way
round. -/
def goBranches : List Action :=
  [.main, .main, .main, .main, .task 0 .resolve] ++ attempt 0 { err := some ⟨"E", "m", true⟩ } ++
    [.task 0 .wake] ++ attempt 0 {} ++ [.task 0 .send] ++
    wholeTask 1 { err := some ⟨"E", "m", true⟩ } ++ [.main, .main, .main, .main] ++
    wholeTask 2 {} ++
    [.main, .main, .main, .main, .main, .main]

/-- The runner runs `c` while `a` sleeps. The order differs from that of the engine, and the report
does not. -/
def pyBranches : List Sdk.Runner.Env.Action :=
  [.main, .main, .main, .main, .main] ++ Sdk.Runner.wholeTask 0 {} (.exception "E" "m") ++
    Sdk.Runner.wholeTask 1 {} .timeoutError ++
    [.coro 0 .wake, .coro 0 .acquireSlot, .coro 0 .acquire, .coro 0 .invoke,
      .coro 0 (.finish {} (.returned .null)), .wake [1, 0], .main, .main, .main, .main,
      .main, .main] ++
    Sdk.Runner.wholeTask 2 {} (.returned .null) ++ [.wake [2], .main, .main, .main, .main]

/-- The one reference is to the output of a dependency, for either way of trimming. -/
theorem branches_leads (t : Sdk.Task) (ht : t ∈ branches.tasks) (path : List Char)
    (hpath : path ∈ paths trimSpace (.obj t.inputs.entries) ∨
      path ∈ paths strip (.obj t.inputs.entries)) :
    PathLeads Dict.empty branches.deps t.id path := by
  have hnone : paths trimSpace (.obj []) = [] ∧ paths strip (.obj []) = [] := ⟨rfl, rfl⟩
  have hb : ∀ trim ∈ [trimSpace, strip], paths trim (.obj [("x", .str "$\x7ba.output\x7d")])
      = ["a.output".toList] := by decide +kernel
  simp only [branches, List.mem_cons, List.not_mem_nil, or_false] at ht
  rcases ht with rfl | rfl | rfl | rfl
  · simp [Dict.empty, hnone] at hpath
  · have hpath : path = "a.output".toList := by
      rcases hpath with hpath | hpath
        <;> simpa [Dict.empty, Dict.set, Dict.setEntries, hb] using hpath
    subst hpath
    exact Or.inr ⟨"a", by rfl, .single (by decide)⟩
  · simp [Dict.empty, hnone] at hpath
  · simp [Dict.empty, hnone] at hpath

/-- The two runs of the example can be compared: both accept the workflow, and none of the three
things happens that would set them apart. -/
theorem branches_comparable : Comparable (plainEnv branches.toGo)
    (Sdk.Runner.plainRun branches .async) .insertion asciiLib (nullOutcomes branchOk) where
  workflow := rfl
  inputs := rfl
  goAccepts := by rfl
  pyAccepts := by rfl
  input_free := by decide
  continues := by decide
  retries := by decide
  untimed := by decide
  leads := branches_leads
  parallel := by decide
  starts now := ⟨_, rfl⟩
  limits := by
    unfold LimitsFit
    decide
  sleeps t ht := by
    have hmax : ∀ t ∈ branches.tasks, (Sdk.Runner.effectiveRetry branches t).max ≤ 1024 := by
      decide
    exact Or.inr (Or.inr (Or.inl (hmax t ht)))

/-- The two runs take different ways through the workflow, each is continued to a fair execution,
and both come to the same report. -/
theorem engines_agree_branches : ∃ (e : (plainEnv branches.toGo).system.Execution)
    (e' : (Sdk.Runner.plainRun branches .async).system.Execution) (n n' : Nat) (rep : Report)
    (rep' : Sdk.Runner.Report), Fair e ∧ Sdk.Runner.Fair e' ∧ (e.state n).report? = some rep ∧
      (e'.state n').report? = some rep' ∧ reportVerdict rep = Sdk.Runner.reportVerdict rep' := by
  -- Two runs that take different ways through the workflow, each continued to a fair execution.
  have hgo : (((plainEnv branches.toGo).system.guard (checkFollows branchOk)).run? goBranches).any
      (fun s => s.report?.isSome && s.gos.all (fun g => g.pc = .done)) = true := by decide +kernel
  have hpy : (((Sdk.Runner.plainRun branches .async).system.guard
      (Sdk.Runner.checkFollows branchOk)).run? pyBranches).any
        (fun s => s.main.pc.isEnded && s.coros.all (fun c => c.pc.isDone)) = true := by
          decide +kernel
  obtain ⟨s, hs, hend⟩ := (Option.any_eq_true _ _).mp hgo
  obtain ⟨s', hs', hend'⟩ := (Option.any_eq_true _ _).mp hpy
  rw [Bool.and_eq_true, List.all_eq_true] at hend hend'
  obtain ⟨e, hfair, hcheck⟩ := fair_of_run (fun _ => rfl) hs hend.1 fun g hg => by
    simpa using hend.2 g hg
  obtain ⟨e', hfair', hcheck'⟩ := Sdk.Runner.fair_of_run (fun _ => rfl) hs' hend'.1 hend'.2
  have hfollow := fun n => @follows_of_check branches.toGo _ _ _ (hcheck n)
  have hfollow' := fun n => @Sdk.Runner.follows_of_check branches .async _ _ _ (hcheck' n)
  have hagree := engines_agree _ _ _ _ _ branches_comparable
  obtain ⟨n, hn⟩ := hagree.goReports e hfair hfollow
  obtain ⟨n', hn'⟩ := hagree.pyReports e' hfair' hfollow'
  obtain ⟨rep, hrep⟩ := Option.isSome_iff_exists.mp hn
  obtain ⟨rep', hrep'⟩ := Option.isSome_iff_exists.mp hn'
  exact ⟨e, e', n, n', rep, rep', hfair, hfair', hrep, hrep', hagree.same _ rep _ rep'
    (e.reachableBy hfollow n) hrep (e'.reachableBy hfollow' n') hrep'⟩

/-! ### What cannot be left out -/

/-- The two runs of a workflow with one task. The policy of the task and the inputs that it declares
are left open, so that each of them can spoil the comparison. -/
theorem lone_continues (retry : Sdk.Retry) (schema : Dict String Json) (hmax : 0 ≤ retry.max) :
    Continues (plainEnv (Sdk.Runner.loneRetried retry schema).toGo)
      (Sdk.Runner.plainRun (Sdk.Runner.loneRetried retry schema) .async) .insertion asciiLib where
  -- The workflow has one task without references.
  workflow := rfl
  inputs := rfl
  goAccepts := rfl
  pyAccepts := rfl
  input_free := by
    show "input" ∉ ["a"]
    decide
  continues t ht := by
    obtain rfl := List.mem_singleton.mp ht
    show "continue" ≠ "fail_fast"
    decide
  retries t ht := by
    obtain rfl := List.mem_singleton.mp ht
    exact hmax
  untimed t ht := by
    obtain rfl := List.mem_singleton.mp ht
    rfl
  leads t ht path hpath := by
    obtain rfl := List.mem_singleton.mp ht
    rcases hpath with hpath | hpath <;> cases hpath
  parallel := by
    show (1 : Int) ≤ 8
    decide

/-- A required run input. -/
def requiredInput : Dict String Json := Dict.empty.set "x" (.obj [("required", .bool true)])

/-- As many retries as there can be. -/
def mostRetries : Sdk.Retry := { max := 2 ^ 63 - 1, backoff := "none", base := 0 }

/-- Without a required input the first step of `run` raises. The engine does not ask for it. -/
theorem missing_input_differs : ¬ SameReports
    (plainEnv (Sdk.Runner.loneRetried {} requiredInput).toGo)
    (Sdk.Runner.plainRun (Sdk.Runner.loneRetried {} requiredInput) .async)
    (nullOutcomes fun _ _ => true) := by
  intro h
  have hs := System.reachable_of_run (rfl : ((Sdk.Runner.plainRun
    (Sdk.Runner.loneRetried {} requiredInput) .async).system.guard
      (Sdk.Runner.checkFollows fun _ _ => true)).run? [.main] = some _)
  exact h.calm _ (.of_guard Sdk.Runner.follows_of_check hs) _ rfl

/-- With the largest number of retries the engine makes no attempt. Each would succeed, and the
report says that the task failed. -/
theorem most_retries_differ : ¬ SameReports
    (plainEnv (Sdk.Runner.loneRetried mostRetries .empty).toGo)
    (Sdk.Runner.plainRun (Sdk.Runner.loneRetried mostRetries .empty) .async)
    (nullOutcomes fun _ _ => true) := by
  intro h
  -- The sum in the condition of the loop is negative, so the goroutine goes from its inputs to its
  -- send.
  have hrun : (((plainEnv (Sdk.Runner.loneRetried mostRetries .empty).toGo).system.guard
      (checkFollows fun _ _ => true)).run? ([.main, .main, .main, .task 0 .resolve, .task 0 .send,
        .main, .main, .main])).any (fun s => s.report?.any fun rep =>
          rep.tasks.any fun sp => decide (sp.id = "a") && decide (sp.status = .failed)) = true := by
    decide +kernel
  obtain ⟨s, hs, hrep⟩ := (Option.any_eq_true _ _).mp hrun
  obtain ⟨rep, hrep, hsp⟩ := (Option.any_eq_true _ _).mp hrep
  obtain ⟨sp, hsp, hp⟩ := List.any_eq_true.mp hsp
  rw [Bool.and_eq_true, decide_eq_true_eq, decide_eq_true_eq] at hp
  have hright := h.goRight s rep (.of_guard follows_of_check (System.reachable_of_run hs)) hrep
  have hentry := hright.entries _ (List.mem_map_of_mem hsp)
  have hloses := (hentry.failed.mp (fateOf_failed.mpr hp.2)).2
  have hlimit : 1 ≤ (Sdk.Runner.runPlan (Sdk.Runner.plainRun
      (Sdk.Runner.loneRetried mostRetries .empty) .async) (nullOutcomes fun _ _ =>
      true)).limit sp.id := by
    rw [hp.1]
    decide +kernel
  have hok : true = false := hloses 1 le_rfl hlimit
  cases hok

/-- After 1025 failures the backoff of the runner overflows. -/
theorem overflow_differs : ¬ SameReports (plainEnv Sdk.Runner.overflowingRun.wf.toGo)
    Sdk.Runner.overflowingRun (nullOutcomes fun _ _ => false) := by
  intro h
  obtain ⟨s, e, hs, he⟩ := Sdk.Runner.overflow_raises
  exact h.calm s (.of_guard Sdk.Runner.follows_of_check hs) e he

/-- None of the three conditions can be left out. Each part has two runs that meet the others: one
misses a required input, in one the bound of the Go loop wraps around, and in one a backoff of the
runner overflows. -/
theorem engines_differ :
    (∃ (go : Env Unit) (py : Sdk.Runner.Env) (outcome : Outcomes),
      Continues go py .insertion asciiLib ∧ LimitsFit py ∧
      (∀ t ∈ py.wf.tasks, SleepsFit py outcome t) ∧
        ¬ SameReports go py outcome) ∧
    (∃ (go : Env Unit) (py : Sdk.Runner.Env) (outcome : Outcomes),
      Continues go py .insertion asciiLib ∧ Starts py ∧
      (∀ t ∈ py.wf.tasks, SleepsFit py outcome t) ∧
        (∀ t ∈ py.wf.tasks, (Sdk.Runner.effectiveRetry py.wf t).max < 2 ^ 63) ∧
        ¬ SameReports go py outcome) ∧
    ∃ (go : Env Unit) (py : Sdk.Runner.Env) (outcome : Outcomes),
      Continues go py .insertion asciiLib ∧ Starts py ∧ LimitsFit py ∧
      ¬ SameReports go py outcome := by
  -- The three pairs of runs are those of a missing input, of the largest number of retries, and of
  -- a backoff that overflows.
  refine ⟨⟨_, _, _, lone_continues {} requiredInput le_rfl, fun t ht => ?_, fun t ht => ?_,
      missing_input_differs⟩,
    ⟨_, _, _, lone_continues mostRetries .empty (by decide), fun now => ⟨_, rfl⟩, fun t ht => ?_,
      fun t ht => ?_, most_retries_differ⟩,
    ⟨_, _, _, lone_continues Sdk.Runner.overflowing .empty (by decide), fun now => ⟨_, rfl⟩,
      fun t ht => ?_, overflow_differs⟩⟩
  all_goals obtain rfl := List.mem_singleton.mp ht
  · show (0 : Int) < 2 ^ 63 - 1
    decide
  · exact Or.inr (Or.inr (Or.inl (by show (0 : Int) ≤ 1024; decide)))
  · exact Or.inl rfl
  · show (2 ^ 63 - 1 : Int) < 2 ^ 63
    decide
  · show (1025 : Int) < 2 ^ 63 - 1
    decide

end Orchestrator.Proofs
