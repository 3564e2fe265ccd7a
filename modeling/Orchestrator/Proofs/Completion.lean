import Orchestrator.Proofs.OverallStatus
import Orchestrator.Proofs.Progress

/-!
# `Orchestrator.Proofs.Completion`: every run of a parsed workflow ends with a full report

`Fair` is what a run relies on: each call of `Execute` and of a limiter returns, and a goroutine
that can step for ever is scheduled at some point. Under it a run reaches its report
(`fair_returns`): the rank cannot fall for ever, and where it stays constant every goroutine would
be stuck, which the slots and the channel rule out.

The rank and the lemmas about it are in `Progress`. It counts what the goroutines have still to do.
Apart from the passing of time and a cancellation, only the rounds inside a limiter leave it as it
is. From some point on a fair execution takes no other steps (`eventually_quiet`), so every
goroutine stays where it is. The proof of `fair_returns` goes through the places in which one could
stay and finds each of them impossible.

`run_completes` puts the termination beside what holds in every reachable state (`OnCourse`). The
workflow is one that `Parse` returned, so it is validated and `MaxParallel` is positive.

The witness has a task that fails and a dependent that is skipped, so that the marking of
descendants is part of it.
-/

set_option autoImplicit false

namespace Orchestrator.Proofs

open Orchestrator.Lib Orchestrator.Engine Orchestrator.Engine.Env

variable {B : Type} {env : Env B}

/-! ### Fairness -/

/-- The goroutine is in a call of `Execute` or of a limiter. -/
def inCall (pc : TaskPc) : Bool := inLimiter pc || pc = .exec

/-- What a run relies on. It is an assumption about what is outside the scheduler, and about the
fairness of the Go runtime. -/
structure Fair (e : env.system.Execution) : Prop where
  /-- Each call of `Execute` and of a limiter returns. -/
  returns : ∀ (n i : Nat) (g : Goroutine), (e.state n).gos[i]? = some g → inCall g.pc = true →
    ∃ (m : Nat) (g' : Goroutine), n ≤ m ∧ (e.state m).gos[i]? = some g' ∧
      stage g'.pc ≠ stage g.pc
  /-- A task goroutine that can step from some point on takes a step. -/
  task : ∀ n i : Nat, (∀ m, n ≤ m → ∃ a, (env.step? (e.state m) (.task i a)).isSome = true) →
    ∃ (m : Nat) (a : TaskAction), n ≤ m ∧ e.label m = .task i a
  /-- The main goroutine, when it can step from some point on, takes a step. -/
  main : ∀ n : Nat, (∀ m, n ≤ m → (env.mainStep (e.state m)).isSome = true) →
    ∃ m, n ≤ m ∧ e.label m = .main

/-- A finite run that leaves the main goroutine and all others at their end can go on as a fair
execution, in which nothing happens any more. -/
theorem fair_of_run {q : State B → Action → Bool} (hq : ∀ s, q s (.tick 0) = true)
    {as : List Action} {s : State B} (h : (env.system.guard q).run? as = some s)
    (hmain : s.report?.isSome = true) (hgos : ∀ g ∈ s.gos, g.pc = .done) :
    ∃ e : env.system.Execution, Fair e ∧ ∀ n, q (e.state n) (e.label n) = true := by
  obtain ⟨e, hend, hidle⟩ := @System.Execution.exists_of_run _ _ (env.system.guard q) as (.tick 0) s
    h fun s => ⟨_, if_pos (hq s)⟩
  -- From the end of the run on, only the clock is stepped, and by nothing.
  have hstate : ∀ n, as.length ≤ n → e.unguard.state n = s := by
    intro n hn
    induction hn with
    | refl => exact hend
    | @step m hn ih =>
        have hnext := e.unguard.next m
        rw [ih, show e.unguard.label m = .tick 0 from hidle _ hn] at hnext
        exact (Option.some.inj hnext).symm
  have hpast : ∀ n, as.length ≤ max n as.length := fun n => le_max_right _ _
  refine ⟨e.unguard, ⟨?_, ?_, ?_⟩, e.unguard_passes⟩
  · intro n i g hg hcall
    have hids : (e.unguard.state (max n as.length)).gos[i]?.isSome = true :=
      e.unguard.stays (P := fun s => s.gos[i]?.isSome = true)
        (fun s a s' _ hs ha => gos_persist ha hs) (le_max_left n as.length) (by simp [hg])
    obtain ⟨g', hg'⟩ := Option.isSome_iff_exists.mp hids
    refine ⟨_, g', le_max_left _ _, hg', ?_⟩
    rw [hstate _ (hpast n)] at hg'
    rw [hgos g' (List.mem_of_getElem? hg')]
    intro hst
    cases hp : g.pc <;> simp [hp, inCall, inLimiter, stage] at hcall hst
  · intro n i hen
    obtain ⟨a, ha⟩ := hen _ (le_max_left n as.length)
    rw [hstate _ (hpast n)] at ha
    obtain ⟨s', hs'⟩ := Option.isSome_iff_exists.mp ha
    obtain ⟨g, hg, ht⟩ := Option.bind_eq_some_iff.mp hs'
    obtain ⟨g', hgs⟩ := (taskStep_inv ht).goStep
    exact absurd (hgos g (List.mem_of_getElem? hg)) hgs.not_done
  · intro n hen
    have hm := hen _ (le_max_left n as.length)
    rw [hstate _ (hpast n)] at hm
    obtain ⟨rep, hrep⟩ := Option.isSome_iff_exists.mp hmain
    rw [mainStep, report?_eq_some.mp hrep] at hm
    cases hm

/-! ### Termination -/

/-- The stages of two states with the same view agree at every index. -/
theorem SameView.stage_eq {s s' : State B} (h : SameView s s') (i : Nat) :
    (s'.gos[i]?).map (fun g => stage g.pc) = (s.gos[i]?).map (fun g => stage g.pc) := by
  rw [← List.getElem?_map, ← List.getElem?_map, h.stages]

/-- A goroutine of the earlier state is there in the later one, at the same stage. -/
theorem SameView.go {s s' : State B} (h : SameView s s') {i : Nat} {g : Goroutine}
    (hg : s.gos[i]? = some g) : ∃ g', s'.gos[i]? = some g' ∧ stage g'.pc = stage g.pc := by
  have hst := h.stage_eq i
  rw [hg] at hst
  obtain ⟨g', hg', hpc⟩ := Option.map_eq_some_iff.mp hst
  exact ⟨g', hg', hpc⟩

/-- Outside a limiter the stage of a wait is the wait. -/
theorem pc_of_stage {pc pc' : TaskPc} (h : stage pc' = stage pc) (hl : inLimiter pc = false) :
    pc' = pc := by
  cases pc <;> cases pc' <;> simp_all [stage, inLimiter]

/-- From some point on, an execution that never lowers its rank keeps the view and takes no
step outside the limiters. -/
theorem eventually_quiet (hacc : Accepted env.wf) (e : env.system.Execution) :
    ∃ n, ∀ m, n ≤ m → SameView (e.state n) (e.state m) ∧ e.label m ≠ .main ∧
      ∀ i a, e.label m = .task i a →
        ∃ g, (e.state m).gos[i]? = some g ∧ inLimiter g.pc = true := by
  obtain ⟨n, hquiet⟩ := e.eventually_quiet (rank env) _ fun s a s' hs ha =>
    step_rank hacc (reachable_runInv hacc hs) (reachable_history hacc hs) ha
  refine ⟨n, fun m hm => ⟨?_, (hquiet m hm).2⟩⟩
  exact e.related_from SameView.refl (fun _ _ _ => .trans) (fun m hm => (hquiet m hm).1) hm

/-- A fair execution of a workflow with room for one task reaches its report. The proof is by the
cases of where the main goroutine stays. -/
theorem fair_returns (hacc : Accepted env.wf) (hpar : 1 ≤ env.wf.maxParallel)
    (e : env.system.Execution) (hfair : Fair e) : ∃ n, (e.state n).report?.isSome = true := by
  by_contra hnever
  have hnone : ∀ n, (e.state n).report? = none := fun n => by
    cases hr : (e.state n).report? with
    | none => rfl
    | some rep => exact absurd ⟨n, by simp [hr]⟩ hnever
  obtain ⟨n, hquiet⟩ := eventually_quiet hacc e
  have hinv := fun m => reachable_runInv hacc (e.reachable m)
  -- The main goroutine is blocked, or it could step for ever.
  have hblocked : Blocked (e.state n) := by
    by_contra hb
    obtain ⟨m, hm, hlabel⟩ := hfair.main n fun m hm => by
      by_contra hstuck
      have hview := (hquiet m hm).1
      have := main_blocked hacc (hinv m) (by simpa using hstuck) (hnone m)
      exact hb ⟨hview.main ▸ this.pc, hview.main ▸ this.in_flight, hview.doneCh ▸ this.empty⟩
    exact (hquiet m hm).2.1 hlabel
  -- No goroutine can be at a wait that ends by itself.
  have hstuck : ∀ (i : Nat) (g : Goroutine), (e.state n).gos[i]? = some g →
      g.pc = .slot ∨ g.pc = .done := by
    intro i g hg
    have hlim : inLimiter g.pc = false := by
      by_contra hl
      obtain ⟨m, g', hm, hg', hne⟩ := hfair.returns n i g hg (by simp [inCall] at hl ⊢; simp [hl])
      obtain ⟨g'', hg'', hst⟩ := (hquiet m hm).1.go hg
      rw [hg'] at hg''
      cases hg''
      exact hne hst
    have hfree : isFree g.pc = false := by
      by_contra hf
      obtain ⟨m, a, hm, hlabel⟩ := hfair.task n i fun m hm => by
        obtain ⟨g', hg', hst⟩ := (hquiet m hm).1.go hg
        exact free_enabled (hinv m) hg' (by rw [pc_of_stage hst hlim]; simpa using hf)
      obtain ⟨g', hg', hlim'⟩ := (hquiet m hm).2.2 i a hlabel
      obtain ⟨g'', hg'', hst⟩ := (hquiet m hm).1.go hg
      rw [hg'] at hg''
      cases hg''
      rw [pc_of_stage hst hlim, hlim] at hlim'
      cases hlim'
    cases hp : g.pc <;> simp_all [isFree, inLimiter, stage]
  -- So no slot is taken, and the goroutine the main one waits for could take one for ever.
  have hsem : (e.state n).sem = 0 := by
    rw [reachable_semOk (e.reachable n), List.countP_eq_zero]
    intro g hg
    obtain ⟨i, hi⟩ := List.mem_iff_getElem?.mp hg
    rcases hstuck i g hi with hp | hp <;> simp [holdsSlot, hp]
  obtain ⟨g, hg, hrun⟩ := hblocked.running (hinv n)
  obtain ⟨i, hi⟩ := List.mem_iff_getElem?.mp hg
  have hslot := (hstuck i g hi).resolve_right hrun
  obtain ⟨m, a, hm, hlabel⟩ := hfair.task n i fun m hm => by
    obtain ⟨g', hg', hst⟩ := (hquiet m hm).1.go hi
    have hpc : g'.pc = .slot := by
      rw [pc_of_stage hst (by simp [hslot, inLimiter, stage]), hslot]
    have hfree : ((e.state m).sem : Int) < env.wf.maxParallel := by
      rw [(hquiet m hm).1.sem, hsem]
      omega
    exact ⟨.takeSlot, by simp [step?, hg', taskStep, hpc, hfree]⟩
  obtain ⟨g', hg', hlim⟩ := (hquiet m hm).2.2 i a hlabel
  obtain ⟨g'', hg'', hst⟩ := (hquiet m hm).1.go hi
  rw [hg'] at hg''
  cases hg''
  rw [pc_of_stage hst (by simp [hslot, inLimiter, stage]), hslot] at hlim
  simp [inLimiter, stage] at hlim

/-! ### The report -/

/-- What holds in every reachable state of a run, on the way to a complete report. The first two
clauses speak of the way there: the main goroutine is never stuck, and it receives no more
completions than there are tasks. The last two speak of the end: when `Run` returns, nothing is left
behind, and the report lists every task. -/
structure OnCourse (env : Env B) (s : State B) : Prop where
  /-- Where the main goroutine cannot step, it has returned or a task is in flight. -/
  never_stuck : env.mainStep s = none → s.report? = none →
    0 < s.main.inFlight ∧ ∃ g ∈ s.gos, g.pc ≠ .done
  /-- Each task completes at most once. -/
  bounded : s.main.received.length + s.main.drained.length ≤ env.wf.tasks.length
  /-- At the return of `Run` no task goroutine is running, and none is left to receive. -/
  none_running : s.report?.isSome = true → (∀ g ∈ s.gos, g.pc = .done) ∧ s.doneCh = []
  /-- The report holds one span for each task, in spec order. -/
  tasks : ∀ rep, s.report? = some rep → rep.tasks.map (·.id) = env.wf.ids ∧
    ∀ sp ∈ rep.tasks, sp.status = .succeeded ∨ sp.status = .failed ∨ sp.status = .skipped

/-- The tasks of the report of a finished run are in spec order. -/
theorem report_tasks_ids {s : State B} (h : RunInv env s) {rep : Report}
    (hrep : s.report? = some rep) : rep.tasks.map (·.id) = env.wf.ids := by
  obtain ⟨-, htotal, now, rfl⟩ := h.returned hrep
  refine map_filterMap_key (fun t : Task => t.id) (fun sp : TaskSpan => sp.id) fun t ht => ?_
  obtain ⟨sp, hsp⟩ := Option.ne_none_iff_exists'.mp (htotal t.id (List.mem_map_of_mem ht))
  exact ⟨sp, hsp, h.spans.key _ _ hsp⟩

/-- Every reachable state of a run of a validated workflow is `OnCourse`. -/
theorem reachable_onCourse (hacc : Accepted env.wf) {s : State B}
    (hs : env.system.Reachable s) : OnCourse env s := by
  have h := reachable_runInv hacc hs
  have hh := reachable_history hacc hs
  refine ⟨fun hnone hrep => ?_, hh.completions_le.trans h.gos_length, fun hrep => ?_,
    fun rep hrep => ⟨report_tasks_ids h hrep, fun sp _ => ?_⟩⟩
  · have hb := main_blocked hacc h hnone hrep
    exact ⟨hb.in_flight, hb.running h⟩
  · obtain ⟨rep, hrep⟩ := Option.isSome_iff_exists.mp hrep
    obtain ⟨hzero, -⟩ := h.returned hrep
    exact ⟨fun g hg => (h.flight.all_recorded hzero g hg).1, h.flight.chan_empty hzero⟩
  · cases sp.status <;> simp

/-- A run of a parsed workflow stays on course to a complete report, and a fair one gets there.

The first half is safety: in no reachable state is the main goroutine stuck with nothing in flight,
no task completes twice, and a report has one span for each task. The second half is liveness, with
fairness as its only assumption. It rests on the rank of `Orchestrator.Proofs.Progress`, which no
step raises and which only waiting leaves as it is. -/
theorem run_completes (env : Env B) (iter : MapOrder) (rw : RawWorkflow)
    (hparse : parse iter rw = .ok env.wf) :
    (∀ s, env.system.Reachable s → OnCourse env s) ∧
      ∀ e : env.system.Execution, Fair e → ∃ n, (e.state n).report?.isSome = true := by
  obtain ⟨hval, hpar⟩ := parse_spec hparse
  have hacc := accepted_of_validate hval
  exact ⟨fun s hs => reachable_onCourse hacc hs, fun e hfair => fair_returns hacc hpar e hfair⟩

/-- A document with one task. The run of it exercises the hypotheses of the theorems that speak of a
parsed workflow. -/
def loneDocument : RawWorkflow where
  name := "w"
  version := 1
  concurrency := none
  providers := .empty
  defaults := some
    { retry := some { max := 0, backoff := "none", base := 0, jitter := false }
      timeout := none
      onError := "" }
  inputs := .empty
  tasks := [some (plainTask "a" [] "continue")]
  output := ""

/-- A document whose second task depends on the first. -/
def dependentDocument : RawWorkflow :=
  { loneDocument with
    tasks := [some (plainTask "a" [] "continue"), some (plainTask "b" ["a"] "")] }

/-- Its run. -/
def dependentRun : Env Unit :=
  plainEnv (plainWorkflow [plainTask "a" [] "continue", plainTask "b" ["a"] ""])

/-- `a` fails and `b` is skipped without a goroutine. The fair run comes to a report of both. -/
theorem run_completes_failedDependency :
    ∃ e : dependentRun.system.Execution, Fair e ∧ (∃ n, (e.state n).report?.isSome = true) ∧
      ∃ s rep, dependentRun.system.Reachable s ∧ s.report? = some rep ∧
        rep.tasks.map (·.id) = ["a", "b"] ∧
        rep.tasks.map (·.status) = [.failed, .skipped] := by
  -- `a` fails at its only attempt, and the next steps of the main goroutine mark `b`.
  have hrun : ((dependentRun.system.guard fun _ _ => true).run?
      ([Action.main, .main, .main] ++ wholeTask 0 { err := some ⟨"E", "m", false⟩ } ++
        [Action.main, .main, .main])).any
        (fun s => s.report?.any (fun rep =>
          decide (rep.tasks.map (·.status) = [.failed, .skipped])) &&
          s.gos.all (fun g => g.pc = .done)) = true := by decide +kernel
  obtain ⟨s, hs, hend⟩ := (Option.any_eq_true _ _).mp hrun
  rw [Bool.and_eq_true, List.all_eq_true] at hend
  obtain ⟨rep, hrep, hstatus⟩ := (Option.any_eq_true _ _).mp hend.1
  obtain ⟨e, hfair, -⟩ := fair_of_run (fun _ => rfl) hs (by rw [hrep]; rfl) fun g hg => by
    simpa using hend.2 g hg
  obtain ⟨hcourse, hreturns⟩ := run_completes dependentRun .insertion dependentDocument (by rfl)
  have hreach := System.reachable_of_run (System.meets_of_guard hs).1
  exact ⟨e, hfair, hreturns e hfair, s, rep, hreach, hrep, ((hcourse s hreach).tasks rep hrep).1,
    of_decide_eq_true hstatus⟩

end Orchestrator.Proofs
