import Orchestrator.Proofs.Completion
import Orchestrator.Proofs.Outcomes
import Orchestrator.Proofs.RetryLoop

/-!
# `Orchestrator.Proofs.RunVerdict`: the outcomes of the attempts settle the report of the engine

A run follows its outcomes when `Execute` returns what they say, and nobody cancels the run. When no
task fails fast and the inputs of every task resolve (`Predictable`), the report of such a run is
the one that `runPlan` asks for (`report_right`), in whatever order things happen.

`OnPlan` is the invariant. One step of a task goroutine keeps its `Attempting`, and one step of the
main goroutine adds a placeholder at most. The rest is in the books (`RunInv`): a task has a
placeholder exactly when something it depends on did not succeed.

`Attempting` says where a goroutine stands by its outcomes: in an attempt whose predecessors have
all failed, in the sleep behind one of them, or at its end, with the first attempt that succeeded or
the last one that was allowed. The plan knows only the number of attempts, so the proof for one task
is an induction over its attempts, and nothing of the other tasks is in it.

That the totals count every retry needs a run in which nothing was drained, and without `fail_fast`
there is no drain (`OnPlan.totals_retries`).
-/

set_option autoImplicit false

namespace Orchestrator.Proofs

open Orchestrator.Lib Orchestrator.Engine Orchestrator.Engine.Env
open scoped List

variable {B : Type} {env : Env B} {outcome : Outcomes}

/-- What the outcomes say about the tasks of a run. A task may be attempted once more than it may be
retried. -/
def runPlan (env : Env B) (outcome : Outcomes) : Plan String where
  nodes := env.wf.ids
  deps := env.wf.deps
  limit id := ((env.wf.taskMap.get? id).map fun t =>
    (t.effectiveRetry env.wf.defaultRetry).max + 1).getD 0
  ok := attemptOk outcome

/-- No task fails fast, the inputs of every task resolve, and no number of attempts overflows. -/
structure Predictable (env : Env B) : Prop where
  continues : ∀ t ∈ env.wf.tasks, t.effectiveOnError env.wf.defaultOnError ≠ "fail_fast"
  retries : ∀ t ∈ env.wf.tasks, 0 ≤ (t.effectiveRetry env.wf.defaultRetry).max ∧
    (t.effectiveRetry env.wf.defaultRetry).max < 2 ^ 63 - 1
  leads : ∀ t ∈ env.wf.tasks, ∀ path ∈ paths trimSpace (.obj t.inputs.entries),
    PathLeads env.inputs env.wf.deps t.id path
  input_free : "input" ∉ env.wf.ids

/-- A step that follows the outcomes: a result of `Execute` is the one that they have for the task
and the attempt. Nothing is cancelled from the outside. -/
def Follows (env : Env B) (outcome : Outcomes) (s : State B) : Action → Prop
  | .task i (.ret res err) => ∀ g, s.gos[i]? = some g →
    outcome g.task.id g.span.attempts
      = if (AttemptResult.mk res err).ok then some (env.decodeOutput res.outputJSON) else none
  | .cancel => False
  | _ => True

/-! ### One task -/

/-- Where a goroutine stands in its attempts, by the outcomes. All attempts before the present one
have failed, and the one that ended the loop settled it. -/
inductive Attempting (env : Env B) (outcome : Outcomes) (g : Goroutine) : Prop
  | fresh (hpc : g.pc = .resolve)
  | trying (hpc : beforeCall g.pc = true ∨ g.pc = .exec) (hst : g.span.status = .failed)
      (h : Tried (attemptOk outcome g.task.id) g.span.attempts)
      (hle : g.span.attempts ≤ retryMax env g + 1)
  | sleeping (hpc : g.pc = .sleep) (hst : g.span.status = .failed)
      (h : Tried (attemptOk outcome g.task.id) (g.span.attempts + 1))
      (hle : g.span.attempts ≤ retryMax env g)
  | settled (hend : hasEnded g = true) (hst : g.span.status ≠ .skipped)
      (h : Lib.Settled (attemptOk outcome g.task.id) (retryMax env g + 1) g.span.attempts
        (g.span.status = .succeeded))

namespace Attempting

variable {g : Goroutine}

/-- In an attempt, or before it, all earlier attempts have failed and the limit allows this one. -/
theorem of_trying (h : Attempting env outcome g) (hpc : beforeCall g.pc = true ∨ g.pc = .exec) :
    g.span.status = .failed ∧ Tried (attemptOk outcome g.task.id) g.span.attempts ∧
      g.span.attempts ≤ retryMax env g + 1 := by
  cases h with
  | trying _ hst h hle => exact ⟨hst, h, hle⟩
  | fresh h | sleeping h =>
      rw [h] at hpc
      rcases hpc with hpc | hpc <;> cases hpc
  | settled hend =>
      rcases hasEnded_iff.mp hend with h | h <;> rw [h] at hpc <;> rcases hpc with hpc | hpc <;>
        cases hpc

/-- In the sleep before a retry, all attempts so far have failed and the limit allows another
one. -/
theorem of_sleep (h : Attempting env outcome g) (hpc : g.pc = .sleep) :
    g.span.status = .failed ∧ Tried (attemptOk outcome g.task.id) (g.span.attempts + 1) ∧
      g.span.attempts ≤ retryMax env g := by
  cases h with
  | sleeping _ hst h hle => exact ⟨hst, h, hle⟩
  | fresh h =>
      rw [h] at hpc
      cases hpc
  | trying h =>
      rw [hpc] at h
      rcases h with h | h <;> cases h
  | settled hend =>
      rcases hasEnded_iff.mp hend with h | h <;> rw [h] at hpc <;> cases hpc

/-- A goroutine that has ended is settled: its status is decided by its outcomes. -/
theorem of_ended (h : Attempting env outcome g) (hend : hasEnded g = true) :
    g.span.status ≠ .skipped ∧ Lib.Settled (attemptOk outcome g.task.id) (retryMax env g + 1)
      g.span.attempts (g.span.status = .succeeded) := by
  cases h with
  | settled _ hst h => exact ⟨hst, h⟩
  | fresh h | sleeping h =>
      rcases hasEnded_iff.mp hend with hpc | hpc <;> rw [h] at hpc <;> cases hpc
  | trying h =>
      rcases hasEnded_iff.mp hend with hpc | hpc <;> rw [hpc] at h <;> rcases h with h | h
        <;> cases h

/-- Another wait of the same attempt. -/
theorem wait (h : Attempting env outcome g) (hpc : beforeCall g.pc = true) {pc : TaskPc}
    (hpc' : beforeCall pc = true ∨ pc = .exec) : Attempting env outcome { g with pc := pc } := by
  obtain ⟨hst, htried, hle⟩ := h.of_trying (Or.inl hpc)
  exact .trying hpc' hst htried hle

/-- The head of the loop, where an attempt is left. The sum in its condition does not overflow. -/
theorem enter (hst : g.span.status = .failed) {k : Int}
    (h : Tried (attemptOk outcome g.task.id) k) (hle : k ≤ retryMax env g + 1)
    (hmax : 0 ≤ retryMax env g ∧ retryMax env g < 2 ^ 63 - 1) (now : Nat) :
    Attempting env outcome (env.enterAttempt g k now) := by
  have hsum : int64 (retryMax env g + 1) = retryMax env g + 1 := by
    rw [int64_succ hmax.1 (by omega), if_neg (by omega)]
  rcases enterAttempt_cases env g now k with ⟨-, he⟩ | ⟨hgt, -⟩
  · rw [he]
    exact .trying (Or.inl rfl) hst h hle
  · exact absurd (hle.trans_eq hsum.symm) hgt

/-- The return of `Execute` settles the task or leads to another attempt. -/
theorem returned (h : Attempting env outcome g) (hpc : g.pc = .exec) (r : AttemptResult)
    (hfollow : outcome g.task.id g.span.attempts
      = if r.ok then some (env.decodeOutput r.res.outputJSON) else none) (now : Nat) :
    Attempting env outcome (env.afterExecute g r.res r.err now) := by
  obtain ⟨hst, htried, hle⟩ := h.of_trying (Or.inr hpc)
  have hok : attemptOk outcome g.task.id g.span.attempts = r.ok := by
    rw [attemptOk, hfollow]
    cases r.ok <;> rfl
  -- An attempt that returns is followed by a pause, by the end of the task or by its success.
  rcases afterExecute_result env g now r with ⟨hr, hmore, he⟩ | ⟨hr, hlast, he⟩ | ⟨hr, he⟩
    <;> rw [he]
  · refine .sleeping rfl (by simpa using hst) (by simpa using htried.next (hok.trans hr)) ?_
    show (env.mergeUsage g.span r.res).attempts ≤ retryMax env g
    rw [mergeUsage_attempts]
    exact hmore
  · refine .settled rfl (by simp [hst]) ?_
    show Lib.Settled _ (retryMax env g + 1) (env.mergeUsage g.span r.res).attempts
      ((env.mergeUsage g.span r.res).status = .succeeded)
    rw [mergeUsage_attempts, mergeUsage_status, hst]
    exact htried.lose hle (by omega) (hok.trans hr)
  · refine .settled rfl (by simp) ?_
    show Lib.Settled _ (retryMax env g + 1) (env.mergeUsage g.span r.res).attempts true
    rw [mergeUsage_attempts]
    exact htried.win hle (hok.trans hr)

/-- The first attempt. -/
theorem started (hres : ∃ r, resolvedInputs env g = .ok r)
    (hmax : 0 ≤ retryMax env g ∧ retryMax env g < 2 ^ 63 - 1) (now : Nat) :
    Attempting env outcome (env.resolveInputs g now) := by
  rcases resolveInputs_cases env g now with ⟨e, he, -⟩ | ⟨resolved, -, heq⟩
  · obtain ⟨r, hr⟩ := hres
    rw [resolvedInputs, he] at hr
    cases hr
  · rw [heq]
    refine enter (g := firstAttempt env g now resolved) rfl .first ?_ hmax _
    show (1 : Int) ≤ retryMax env g + 1
    omega

/-- A step of a task goroutine. -/
theorem taskStep {s s' : State B} {i : Nat} {a : TaskAction} (h : Attempting env outcome g)
    (ht : TaskStep env s i g a s') (hg : s.gos[i]? = some g)
    (hfollow : Follows env outcome s (.task i a)) (hcalm : s.cancelled = false)
    (hres : ∃ r, resolvedInputs env g = .ok r)
    (hmax : 0 ≤ retryMax env g ∧ retryMax env g < 2 ^ 63 - 1) :
    ∃ g', s'.gos = s.gos.set i g' ∧ Attempting env outcome g' := by
  -- The run is not cancelled, so no wait is cut off.
  have hno : ∀ {P : Prop}, s.cancelled = true → P := fun hc => by
    rw [hcalm] at hc
    cases hc
  cases ht with
  | resolve hpc => exact ⟨_, rfl, started hres hmax _⟩
  | takeSlot hpc _ => exact ⟨_, rfl, h.wait (by rw [hpc]; rfl) (Or.inl rfl)⟩
  | cancelSlot hpc hc => exact hno hc
  | grantGlobal b hpc _ =>
      refine ⟨_, rfl, h.wait (by rw [hpc]; rfl) (Or.inl ?_)⟩
      rcases afterGlobal_pc g s.provLimiters with h | h <;> rw [h] <;> rfl
  | denyGlobal b hpc _ => exact ⟨_, rfl, h.wait (by rw [hpc]; rfl) (Or.inl rfl)⟩
  | grantProvider b b' hpc _ _ => exact ⟨_, rfl, h.wait (by rw [hpc]; rfl) (Or.inl rfl)⟩
  | denyProvider b b' hpc _ _ => exact ⟨_, rfl, h.wait (by rw [hpc]; rfl) (Or.inl rfl)⟩
  | timerGlobal hpc => exact ⟨_, rfl, h.wait (by rw [hpc]; rfl) (Or.inl rfl)⟩
  | timerProvider hpc => exact ⟨_, rfl, h.wait (by rw [hpc]; rfl) (Or.inl rfl)⟩
  | cancelWait hpc hc => exact hno hc
  | call hpc => exact ⟨_, rfl, h.wait (by rw [hpc]; rfl) (Or.inr rfl)⟩
  | ret res err hpc => exact ⟨_, rfl, h.returned hpc ⟨res, err⟩ (hfollow g hg) _⟩
  | wake hpc =>
      obtain ⟨hst, htried, hle⟩ := h.of_sleep hpc
      exact ⟨_, rfl, enter hst htried (by omega) hmax _⟩
  | send hpc _ =>
      obtain ⟨hst, hsettled⟩ := h.of_ended (hasEnded_iff.mpr (Or.inl hpc))
      exact ⟨_, rfl, .settled rfl hst hsettled⟩

end Attempting

/-! ### The run -/

/-- The inputs of a dispatched task resolve. -/
theorem Predictable.resolves (hp : Predictable env) {s : State B} (h : RunInv env s)
    {g : Goroutine} (hg : g ∈ s.gos) : ∃ r, resolvedInputs env g = .ok r := by
  refine resolve_ok env.lib fun path hpath => ?_
  refine (hp.leads g.task (h.task_mem g hg) path hpath).follow
    (get?_buildScope env.inputs g.snapshot) ?_ (h.snapshot g hg).deps
  -- The snapshot holds results of tasks, and none of them is named `input`.
  by_contra hne
  obtain ⟨v, hv⟩ := Option.ne_none_iff_exists'.mp hne
  obtain ⟨sp, hsp, -⟩ := h.results _ v ((h.snapshot g hg).sub _ v hv)
  exact hp.input_free (h.spans.mem _ sp hsp)

/-- What holds in a run that follows its outcomes. Every policy lets the run continue, so it is
never cancelled and never drained. -/
structure OnPlan (env : Env B) (outcome : Outcomes) (s : State B) : Prop where
  calm : s.cancelled = false
  running : s.main.runFailed = false
  drained : s.main.drained = []
  attempting : ∀ g ∈ s.gos, Attempting env outcome g
  /-- The span of a task that was not dispatched is a placeholder. -/
  origin : ∀ id sp, s.main.spans.get? id = some sp →
    id ∈ goIds s.gos ∨ sp = { id := id, status := .skipped }

/-- A step of the main goroutine. -/
theorem OnPlan.mainStepped (hacc : Accepted env.wf) (hp : Predictable env) {s s' : State B}
    (h : OnPlan env outcome s) (hinv : RunInv env s) (hplaced' : Placed s')
    (hs : MainStepped env s s') : OnPlan env outcome s' := by
  -- A run that has not failed does not drain.
  have hnodrain : ∀ {P : Prop}, s.main.pc = .drain → P := fun hpc => by
    have hphase := hinv.phase
    rw [Phase, hpc, h.running] at hphase
    cases hphase
  cases hs with
  | dispatch tid rest t hpc hr ht =>
      refine ⟨h.calm, h.running, h.drained, fun g hg => ?_, hplaced'⟩
      rcases List.mem_append.mp hg with hg | hg
      · exact h.attempting g hg
      · obtain rfl := List.mem_singleton.mp hg
        exact .fresh rfl
  | receive span rest r hpc hch hr =>
      have hcalm : (s.cancelled || false) = false := by rw [h.calm, Bool.or_false]
      cases hr with
      | succeeded hst => exact ⟨hcalm, h.running, h.drained, h.attempting, hplaced'⟩
      | failFast t hst ht hpol =>
          exact absurd hpol (hp.continues t (hacc.taskMap_iff.mp ht).1)
      | «continue» t hst ht hpol => exact ⟨hcalm, h.running, h.drained, h.attempting, hplaced'⟩
  | drain span rest hpc hf hch => exact hnodrain hpc
  | drained hpc hf => exact hnodrain hpc
  | _ => exact ⟨h.calm, h.running, h.drained, h.attempting, h.origin⟩

/-- `OnPlan` holds in every run that follows its outcomes. -/
theorem reachable_onPlan (hacc : Accepted env.wf) (hp : Predictable env) {s : State B}
    (hs : env.system.ReachableBy (Follows env outcome) s) : OnPlan env outcome s := by
  have hinit : OnPlan env outcome env.initial :=
    ⟨rfl, rfl, rfl, fun g hg => (by cases hg), fun id sp hsp => by simp [Env.initial] at hsp⟩
  refine hs.holds hinit fun s a s' hs h hfollow ha => ?_
  have hinv := reachable_runInv hacc hs
  have hplaced' := reachable_placed hacc (hs.step ha)
  rcases step_inv ha with ⟨-, hm⟩ | ⟨i, b, g, rfl, hg, ht⟩ | ⟨rfl, -⟩ | ⟨d, -, rfl⟩
  · exact h.mainStepped hacc hp hinv hplaced' hm
  · have hmem := List.mem_of_getElem? hg
    obtain ⟨g₁, hgs⟩ := ht.goStep
    obtain ⟨g', hgos, hg'⟩ := (h.attempting g hmem).taskStep ht hg hfollow h.calm
      (hp.resolves hinv hmem) (hp.retries g.task (hinv.task_mem g hmem))
    refine ⟨hgs.cancelled.trans h.calm, ?_, ?_, ?_, hplaced'⟩
    · rw [hgs.main]
      exact h.running
    · rw [hgs.main]
      exact h.drained
    · rw [hgos]
      exact forall_mem_set h.attempting hg'
  · -- No cancel among the steps.
    exact hfollow.elim
  · exact ⟨h.calm, h.running, h.drained, h.attempting, h.origin⟩

/-! ### The report -/

/-- What a span says about its task. -/
def spanEntry (sp : TaskSpan) : Entry String := ⟨sp.id, fateOf sp.status, sp.attempts⟩

/-- What a report says about the tasks, without the texts, the times and the usage. -/
def reportVerdict (rep : Report) : Verdict String where
  entries := rep.tasks.map spanEntry
  retries := rep.totals.retries
  fate := fateOf rep.status

/-- The plan lets a task make one attempt more than its retry limit. -/
theorem runPlan_limit (hacc : Accepted env.wf) {g : Goroutine} (hg : g.task ∈ env.wf.tasks) :
    (runPlan env outcome).limit g.task.id = retryMax env g + 1 := by
  show ((env.wf.taskMap.get? g.task.id).map _).getD 0 = _
  rw [hacc.taskMap_iff.mpr ⟨hg, rfl⟩]
  rfl

/-- At the end of a run, the spans are settled. -/
theorem OnPlan.spansSettled (hacc : Accepted env.wf) {s : State B} (h : OnPlan env outcome s)
    (hinv : RunInv env s) (hzero : ¬ 0 < s.main.inFlight)
    (htotal : ∀ id ∈ env.wf.ids, s.main.spans.get? id ≠ none) :
    SpansSettled spanEntry s.main.spans (runPlan env outcome) (goIds s.gos) := by
  refine ⟨⟨hacc.ids_nodup, hinv.flight.ids_nodup⟩, hinv.spans.key, hinv.spans.mem, htotal,
    fun id hid => ?_, fun id sp hsp => (h.origin id sp hsp).imp_right fun hph => ?_⟩
  · obtain ⟨g, hg, rfl⟩ := List.mem_map.mp hid
    obtain ⟨hdone, hrec⟩ := hinv.flight.all_recorded hzero g hg
    obtain ⟨hst, hsettled⟩ := (h.attempting g hg).of_ended (hasEnded_iff.mpr (Or.inr hdone))
    refine ⟨g.span, hrec, fun hskip => hst (fateOf_skipped.mp hskip), ?_⟩
    rw [runPlan_limit hacc (hinv.task_mem g hg)]
    simp only [spanEntry, fateOf_succeeded]
    exact hsettled
  · rw [hph]
    rfl

/-- At the end of a run, the totals count the retries of the dispatched tasks: nothing was
drained. -/
theorem OnPlan.totals_retries {s : State B} (h : OnPlan env outcome s) (hacc : Accepted env.wf)
    (hs : env.system.Reachable s) (hzero : ¬ 0 < s.main.inFlight) : s.main.totals.retries
      = ((goIds s.gos).map fun id => (entryAt spanEntry s.main.spans id).attempts - 1).sum := by
  have hinv := reachable_runInv hacc hs
  have hall := (reachable_history hacc hs).all hinv hzero
  rw [h.drained, List.append_nil] at hall
  rw [(reachable_totalsOk hs).retries, (hall.map _).sum_eq, goIds, List.map_map, List.map_map]
  refine congrArg List.sum (List.map_congr_left fun g hg => ?_)
  show g.span.attempts - 1 = (entryAt spanEntry s.main.spans g.task.id).attempts - 1
  rw [entryAt_of_span (hinv.flight.all_recorded hzero g hg).2]
  rfl

/-- The report of a run that follows its outcomes is the one that its plan asks for. -/
theorem report_right (hacc : Accepted env.wf) (hp : Predictable env) {s : State B}
    (hs : env.system.ReachableBy (Follows env outcome) s) {rep : Report}
    (hrep : s.report? = some rep) : (reportVerdict rep).Right (runPlan env outcome) := by
  have hinv := reachable_runInv hacc hs.reachable
  have h := reachable_onPlan hacc hp hs
  have hphase := hinv.phase
  rw [Phase, report?_eq_some.mp hrep] at hphase
  obtain ⟨hready, hzero, htotal, now, rfl⟩ := hphase
  have hspans := h.spansSettled hacc hinv hzero htotal
  -- As for the meaning of a run, with the outcomes of the attempts in place of the skills.
  refine hspans.right (hinv.books h.running).1 rfl hready (fun t ht d hd => hacc.deps_ids ht hd)
    hacc.acyclic (fun id => ?_) ?_ (h.totals_retries hacc hs.reachable hzero) ?_
  · simp only [isGood_ledger, spanEntry, fateOf_succeeded]
  · show (env.wf.tasks.filterMap fun t => s.main.spans.get? t.id).map spanEntry
      = ((env.wf.tasks.map (·.id)).filterMap s.main.spans.get?).map spanEntry
    rw [List.filterMap_map]
    rfl
  · have hfailed : HasFailed s.main ↔
        ∃ id sp, s.main.spans.get? id = some sp ∧ (spanEntry sp).fate = .failed := by
      simp only [HasFailed, h.running, Bool.false_eq_true, false_or, spanEntry, fateOf_failed]
    show _ ∧ fateOf (env.report now s.main).status = _ ∨ _ ∧
      fateOf (env.report now s.main).status = _
    rw [← hfailed]
    rcases @report_status _ env now s.main with ⟨hst, hno⟩ | ⟨hst, hyes⟩
    · exact Or.inr ⟨hno, by rw [hst]; rfl⟩
    · exact Or.inl ⟨hyes, by rw [hst]; rfl⟩

/-! ### Plain runs -/

/-- Check that a step of a plain run follows its outcomes, which are given by a function that can be
evaluated. -/
def checkFollows (ok : String → Int → Bool) (s : State Unit) : Action → Bool
  | .task i (.ret res err) =>
    (s.gos[i]?).all fun g => ok g.task.id g.span.attempts == (AttemptResult.mk res err).ok
  | .cancel => false
  | _ => true

/-- A step that passes the check follows the outcomes. -/
theorem follows_of_check {wf : Workflow} {ok : String → Int → Bool} (s : State Unit) (a : Action)
    (h : checkFollows ok s a = true) : Follows (plainEnv wf) (nullOutcomes ok) s a := by
  -- Every output decodes to null, which is what the outcomes hold.
  have hdecode : ∀ text, (plainEnv wf).decodeOutput text = .null := fun text => by
    unfold decodeOutput
    split <;> rfl
  cases a with
  | task i b =>
      cases b with
      | ret res err =>
          intro g hg
          rw [checkFollows, hg] at h
          have hok : ok g.task.id g.span.attempts = (AttemptResult.mk res err).ok := by
            simpa using h
          rw [nullOutcomes, hok, hdecode]
      | _ => exact trivial
  | cancel => cases h
  | _ => exact trivial

end Orchestrator.Proofs
