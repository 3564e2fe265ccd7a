import Orchestrator.Proofs.AttemptUsage
import Orchestrator.Proofs.Outcomes
import Orchestrator.Proofs.RunReports
import Orchestrator.Proofs.RunnerData

/-!
# `Orchestrator.Proofs.RunnerVerdict`: the outcomes of the attempts settle the report of the runner

The counterpart of `Orchestrator.Proofs.RunVerdict`. A run follows its outcomes when each handler
ends as they say and nobody cancels the run. When its checks pass, no task fails fast, the inputs of
every task resolve and every sleep has a length (`Predictable`), the report is the one that
`runPlan` asks for (`report_right`).

`OnPlan` is the invariant. It also says that nothing raises, so a fair run that follows its outcomes
returns a report (`fair_reports_onPlan`). That the sleeps have lengths is used where an attempt has
failed and another one is left: the power of an exponential backoff overflows after the 1025th
failure (`SleepsFit`).

The processed spans are those of the started tasks, in some order (`processed_perm`), and the totals
are sums over them, so the order does not matter.

The last section is about a sleep that has no length (`overflow_raises`). It goes through the
attempts of one task by induction over their number, since a run of a thousand attempts is too long
to be computed.
-/

set_option autoImplicit false

namespace Orchestrator.Sdk.Runner

open Orchestrator.Lib Env
open Orchestrator.Engine (Status)
open Orchestrator.Proofs (Outcomes attemptOk nullOutcomes fateOf fateOf_succeeded fateOf_failed
  fateOf_skipped PathLeads paths SpansSettled entryAt entryAt_of_span)

variable {env : Env} {outcome : Outcomes}

/-- What the outcomes say about the tasks of a run. `runPlan_eq` shows that it is the plan of the
engine for the same workflow. -/
def runPlan (env : Env) (outcome : Outcomes) : Plan String where
  nodes := env.wf.ids
  deps := env.wf.deps
  limit id := ((env.wf.taskMap.get? id).map fun t => (effectiveRetry env.wf t).max + 1).getD 0
  ok := attemptOk outcome

/-- Every sleep of the task has a length. The power of an exponential backoff overflows after the
1025th failure. -/
def SleepsFit (env : Env) (outcome : Outcomes) (t : Task) : Prop :=
  (effectiveRetry env.wf t).backoff = "none" ∨ (effectiveRetry env.wf t).backoff = "fixed" ∨
    (effectiveRetry env.wf t).max ≤ 1024 ∨
    ∃ k, 1 ≤ k ∧ k ≤ 1025 ∧ attemptOk outcome t.id k = true

/-- The checks of `run` pass, no task fails fast or has a timeout, the inputs of every task resolve,
and every sleep has a length. -/
structure Predictable (env : Env) (outcome : Outcomes) : Prop where
  starts : ∀ now, ∃ buckets, env.prepare now = .ok buckets
  continues : ∀ t ∈ env.wf.tasks, effectiveOnError env.wf t ≠ "fail_fast"
  retries : ∀ t ∈ env.wf.tasks, 0 ≤ (effectiveRetry env.wf t).max
  untimed : ∀ t ∈ env.wf.tasks, effectiveTimeout env.wf t = none
  leads : ∀ t ∈ env.wf.tasks, ∀ path ∈ paths strip (.obj t.inputs.entries),
    PathLeads env.inputs env.wf.deps t.id path
  input_free : "input" ∉ env.wf.ids
  sleeps : ∀ t ∈ env.wf.tasks, SleepsFit env outcome t

/-- What the end of a handler says about the outcome of its attempt. A handler that is cancelled, or
raises what `_execute_task` does not catch, has none. -/
def Outcome.attempt : Outcome → Option (Option Json)
  | .returned output => some (some output)
  | .timeoutError | .exception _ _ => some none
  | .cancelledError | .uncaught _ _ => none

/-- A step of a coroutine that follows the outcomes. An attempt without a handler fails, and no
handler is lost. -/
def CoroFollows (env : Env) (outcome : Outcomes) (c : Coro) : CoroAction → Prop
  | .invoke => env.skills c.task.skill = none → outcome c.task.id c.span.attempts = none
  | .finish _ out => out.attempt = some (outcome c.task.id c.span.attempts)
  | .lose => False
  | _ => True

/-- A step that follows the outcomes. What a handler does is settled by them, and nobody cancels the
run. -/
def Follows (env : Env) (outcome : Outcomes) (s : State) : Action → Prop
  | .coro i a => ∀ c, s.coros[i]? = some c → CoroFollows env outcome c a
  | .cancel => False
  | _ => True

/-! ### One task -/

/-- The coroutine is in an attempt, and its handler is not lost. -/
def CoroPc.isTrying (pc : CoroPc) : Bool := pc.holds || pc = .slot || pc = .handler

/-- Where a coroutine stands in its attempts, by the outcomes. All attempts before the present one
have failed, and the one that ended the loop settled it. -/
inductive Attempting (env : Env) (outcome : Outcomes) (c : Coro) : Prop
  | fresh (hpc : c.pc = .start)
  | trying (hpc : c.pc.isTrying = true)
      (h : Tried (attemptOk outcome c.task.id) c.span.attempts)
      (hle : c.span.attempts ≤ (effectiveRetry env.wf c.task).max + 1)
  | sleeping (hpc : c.pc = .backoff)
      (h : Tried (attemptOk outcome c.task.id) (c.span.attempts + 1))
      (hle : c.span.attempts ≤ (effectiveRetry env.wf c.task).max)
  | settled (hpc : c.pc = .returned) (hst : c.span.status ≠ .skipped)
      (h : Lib.Settled (attemptOk outcome c.task.id) ((effectiveRetry env.wf c.task).max + 1)
        c.span.attempts (c.span.status = .succeeded))

/-- The sleep after a failed attempt has a length: where the power would overflow, no attempt is
left, or an earlier one has succeeded. -/
theorem SleepsFit.backoff_ok {t : Task} (h : SleepsFit env outcome t) {k : Int}
    (htried : Tried (attemptOk outcome t.id) (k + 1)) (hle : k ≤ (effectiveRetry env.wf t).max) :
    ∃ d, backoff (effectiveRetry env.wf t) k = .ok d := by
  unfold backoff
  by_cases hnone : (effectiveRetry env.wf t).backoff = "none"
  · exact ⟨_, if_pos hnone⟩
  · by_cases hfixed : (effectiveRetry env.wf t).backoff = "fixed"
    · exact ⟨_, by rw [if_neg hnone, if_pos hfixed]⟩
    · have hk : k ≤ 1024 := by
        rcases h with h | h | h | ⟨j, h1, hj, hok⟩
        · exact absurd h hnone
        · exact absurd h hfixed
        · exact hle.trans h
        · -- The attempts up to the `k`-th have failed, and the `j`-th succeeds.
          by_contra hgt
          have := htried.failed j h1 (by omega)
          rw [hok] at this
          cases this
      have hexp : ¬ 1024 ≤ (k - 1).toNat := by omega
      exact ⟨_, by simp only [hnone, hfixed, if_false, hexp]; rfl⟩

namespace Attempting

variable {c : Coro}

/-- In an attempt, all earlier attempts have failed and the limit allows this one. -/
theorem of_trying (h : Attempting env outcome c) {pc : CoroPc} (hpc : c.pc = pc)
    (hin : pc.isTrying = true) :
    Tried (attemptOk outcome c.task.id) c.span.attempts ∧
      c.span.attempts ≤ (effectiveRetry env.wf c.task).max + 1 := by
  subst hpc
  cases h with
  | trying _ h hle => exact ⟨h, hle⟩
  | fresh h | sleeping h | settled h =>
      rw [h] at hin
      cases hin

/-- Another wait of the same attempt. -/
theorem wait (h : Attempting env outcome c) {pc : CoroPc} (hpc : c.pc = pc)
    (hin : pc.isTrying = true) {pc' : CoroPc} (hin' : pc'.isTrying = true) :
    Attempting env outcome { c with pc := pc' } := by
  obtain ⟨htried, hle⟩ := h.of_trying hpc hin
  exact .trying hin' htried hle

/-- The head of the loop, where an attempt is left. -/
theorem enter {k : Int} (h : Tried (attemptOk outcome c.task.id) k)
    (hle : k ≤ (effectiveRetry env.wf c.task).max + 1) (now : Nat) :
    Attempting env outcome (env.enterAttempt c k now) := by
  rcases enterAttempt_cases env c now k with ⟨-, he⟩ | ⟨hgt, -⟩
  · rw [he]
    exact .trying rfl h hle
  · omega

/-- A failed attempt settles the task or leads to the sleep before another one. -/
theorem failed (h : Attempting env outcome c) {pc : CoroPc} (hpc : c.pc = pc)
    (hin : pc.isTrying = true) (hfail : outcome c.task.id c.span.attempts = none)
    (hsleeps : SleepsFit env outcome c.task) (ctx : SkillContext) (err : String) (now : Nat) :
    Attempting env outcome (env.failAttempt c ctx err now) := by
  obtain ⟨htried, hle⟩ := h.of_trying hpc hin
  have hok : attemptOk outcome c.task.id c.span.attempts = false := by
    rw [attemptOk, hfail]
    rfl
  rcases failAttempt_cases env c now ctx err
    with ⟨d, hmore, -, he⟩ | ⟨e, hmore, hover, -⟩ | ⟨hlast, he⟩
  · rw [he]
    exact .sleeping rfl (htried.next hok) hmore
  · obtain ⟨d, hd⟩ := hsleeps.backoff_ok (htried.next hok) hmore
    rw [hd] at hover
    cases hover
  · rw [he]
    have hlt : ¬ c.span.attempts < (effectiveRetry env.wf c.task).max + 1 := by omega
    exact .settled rfl Status.noConfusion (htried.lose hle hlt hok)

/-- The first attempt. -/
theorem started (currentInputs results : Dict String Json) (hres : ∃ r, resolveTemplate env.lib
      (.obj (templateScope currentInputs results).entries) (.obj c.task.inputs.entries) = .ok r)
    (hmax : 0 ≤ (effectiveRetry env.wf c.task).max) (now : Nat) :
    Attempting env outcome (env.startTask c currentInputs results now) := by
  rcases startTask_cases env c now currentInputs results with ⟨e, he, -⟩ | ⟨r, -, heq⟩
  · obtain ⟨r, hr⟩ := hres
    rw [he] at hr
    cases hr
  · rw [heq]
    refine enter (c := firstAttempt c now r) .first ?_ _
    show (1 : Int) ≤ (effectiveRetry env.wf c.task).max + 1
    omega

/-- The end of a handler. -/
theorem finished (h : Attempting env outcome c) (hpc : c.pc = .handler) {out : Outcome}
    (hfollow : out.attempt = some (outcome c.task.id c.span.attempts))
    (hsleeps : SleepsFit env outcome c.task) (ctx : SkillContext) (now : Nat) :
    Attempting env outcome (env.afterInvoke c ctx out now) := by
  cases out with
  | returned output =>
      obtain ⟨htried, hle⟩ := h.of_trying hpc rfl
      refine .settled rfl Status.noConfusion (htried.win hle ?_)
      rw [attemptOk, ← Option.some.inj hfollow]
      rfl
  | cancelledError => cases hfollow
  | uncaught type exits => cases hfollow
  | timeoutError => exact h.failed hpc rfl (Option.some.inj hfollow).symm hsleeps _ _ _
  | exception type message =>
      exact h.failed hpc rfl (Option.some.inj hfollow).symm hsleeps _ _ _

/-- The end of the backoff sleep. -/
theorem woken (h : Attempting env outcome c) (hpc : c.pc = .backoff) (now : Nat) :
    Attempting env outcome (env.enterAttempt c (c.span.attempts + 1) now) := by
  cases h with
  | sleeping _ htried hle => exact enter htried (by omega) _
  | fresh h | settled h =>
      rw [h] at hpc
      cases hpc
  | trying h =>
      rw [hpc] at h
      cases h

/-- A step of a coroutine. -/
theorem coroStep {s s' : State} {i : Nat} {a : CoroAction} (h : Attempting env outcome c)
    (hs : CoroStep env s i c a s') (hfollow : CoroFollows env outcome c a)
    (hreach : env.system.Reachable s) (hcalm : c.cancelRequested = false)
    (hres : ∃ r, resolveTemplate env.lib
      (.obj (templateScope s.currentInputs s.main.results).entries) (.obj c.task.inputs.entries)
        = .ok r)
    (hmax : 0 ≤ (effectiveRetry env.wf c.task).max)
    (huntimed : effectiveTimeout env.wf c.task = none)
    (hsleeps : SleepsFit env outcome c.task) :
    ∃ c', s'.coros = s.coros.set i c' ∧ Attempting env outcome c' := by
  have hno : ∀ {P : Prop}, c.cancelRequested = true → P := fun hc => by
    rw [hcalm] at hc
    cases hc
  cases hs with
  | start hpc _ => exact ⟨_, rfl, started _ _ hres hmax _⟩
  | acquireSlot hpc _ _ => exact ⟨_, rfl, h.wait hpc rfl rfl⟩
  | grantGlobal b hpc _ _ =>
      refine ⟨_, rfl, h.wait hpc rfl ?_⟩
      rcases afterGlobal_pc c with h | h <;> rw [h] <;> rfl
  | denyGlobal b hpc _ _ => exact ⟨_, rfl, h.wait hpc rfl rfl⟩
  | grantProvider b hpc _ _ => exact ⟨_, rfl, h.wait hpc rfl rfl⟩
  | denyProvider b hpc _ _ => exact ⟨_, rfl, h.wait hpc rfl rfl⟩
  | acquireError e _ he =>
      -- The buckets of a run hold a token at least.
      have hround := acquireRound_ok hreach
      rcases he with ⟨-, he⟩ | ⟨-, he⟩
      · obtain ⟨r, hr⟩ := hround none s.clock
        rw [show bucketAt s none = s.globalBucket from rfl, he] at hr
        cases hr
      · obtain ⟨r, hr⟩ := hround (some (c.task.provider.getD "")) s.clock
        rw [show bucketAt s (some (c.task.provider.getD ""))
          = (s.provReq.get? (c.task.provider.getD "")).join from rfl, he] at hr
        cases hr
  | timerGlobal hpc _ => exact ⟨_, rfl, h.wait hpc rfl rfl⟩
  | timerProvider hpc _ => exact ⟨_, rfl, h.wait hpc rfl rfl⟩
  | noSkill hpc _ hk =>
      exact ⟨_, rfl, h.failed hpc rfl (hfollow hk) hsleeps _ _ _⟩
  | invoke kind hpc _ _ => exact ⟨_, rfl, h.wait hpc rfl rfl⟩
  | finish ctx out hpc _ => exact ⟨_, rfl, h.finished hpc hfollow hsleeps _ _⟩
  | lose hpc _ hk => exact hfollow.elim
  | timeout ctx hpc _ ht =>
      rw [huntimed] at ht
      cases ht
  | wake hpc _ => exact ⟨_, rfl, h.woken hpc _⟩
  | cancelOutside ctx _ hc => exact hno hc
  | cancelSlot ctx _ hc => exact hno hc
  | cancelHolder ctx _ hc => exact hno hc
  | cancelHandler ctx _ hc => exact hno hc

end Attempting

/-! ### The run -/

/-- What holds in a run that follows its outcomes: `run` has not raised, the run has not failed
fast, and each coroutine is on its way through its attempts. -/
structure OnPlan (env : Env) (outcome : Outcomes) (s : State) : Prop where
  run : ∀ e, s.main.pc ≠ .raised e
  running : s.main.runFailed = false
  attempting : ∀ c ∈ s.coros, Attempting env outcome c

/-- A step of `run`. -/
theorem OnPlan.mainStepped (hacc : Accepted env.wf)
    (hstarts : ∀ now, ∃ buckets, env.prepare now = .ok buckets)
    (hcontinues : ∀ t ∈ env.wf.tasks, effectiveOnError env.wf t ≠ "fail_fast") {s s' : State}
    (h : OnPlan env outcome s) (hs : env.system.Reachable s) (hm : MainStepped env s s') :
    OnPlan env outcome s' := by
  have hpol : ∀ {id t}, env.wf.taskMap.get? id = some t → effectiveOnError env.wf t ≠ "fail_fast" :=
    fun ht => hcontinues _ (hacc.taskMap_iff.mp ht).1
  cases hm with
  | refuse e hpc he =>
      obtain ⟨buckets, hb⟩ := hstarts s.clock
      rw [he] at hb
      cases hb
  | setup buckets hpc hb => exact ⟨fun e => MainPc.noConfusion, rfl, h.attempting⟩
  | drop tid rest hpc hready hskip => exact ⟨h.run, h.running, h.attempting⟩
  | dispatch tid rest t hpc hready hskip ht =>
      refine ⟨h.run, h.running, fun c hc => ?_⟩
      rcases List.mem_append.mp hc with hc | hc
      · exact h.attempting c hc
      · obtain rfl := List.mem_singleton.mp hc
        exact .fresh rfl
  | failFast i rest c t hpc hi hdone hst ht hfast hlast => exact absurd hfast (hpol ht)
  | cancelAll i rest c t hpc hi hdone hst ht hfast hmore => exact absurd hfast (hpol ht)
  | raise i rest c e hpc hi hdone =>
      -- No future raises, and nobody asked one to stop.
      have hc := h.attempting c (List.mem_of_getElem? hi)
      have hend : ∀ pc, c.pc = pc → pc.isDone = true → pc = .returned := by
        rintro _ rfl hd
        cases hc with
        | settled hpc => exact hpc
        | fresh h | sleeping h =>
            rw [h] at hd
            cases hd
        | trying h =>
            cases hpc : c.pc <;> simp_all [CoroPc.isDone, CoroPc.isTrying, CoroPc.holds]
      rcases hdone with hpc | ⟨hpc, -⟩
      · cases hend _ hpc rfl
      · cases hend _ hpc rfl
  | abandon hpc hall =>
      have hphase := ((reachable_sound hacc hs).live (by rw [hpc]; rfl)).phase
      rw [Phase, hpc, h.running] at hphase
      cases hphase.1
  | _ => exact ⟨fun e => MainPc.noConfusion, h.running, h.attempting⟩

/-- The inputs of a started task resolve. -/
theorem Predictable.resolves (hacc : Accepted env.wf) (hp : Predictable env outcome) {s : State}
    (hs : env.system.Reachable s) (hlive : s.main.pc.isLive = true) {c : Coro} (hc : c ∈ s.coros) :
    ∃ r, resolveTemplate env.lib (.obj (templateScope s.currentInputs s.main.results).entries)
      (.obj c.task.inputs.entries) = .ok r := by
  have hhanded := reachable_handed hacc hs
  have hinv := reachable_runInv hacc hs hlive
  refine Proofs.resolveTemplate_ok env.lib fun path hpath => ?_
  rw [hhanded.inputs (List.ne_nil_of_mem hc)]
  refine (hp.leads c.task (hhanded.task_mem c hc) path hpath).follow
    (Proofs.get?_templateScope env.inputs s.main.results) ?_ (hhanded.complete c hc)
  -- The results are those of tasks, and none of them is named `input`.
  by_contra hne
  obtain ⟨v, hv⟩ := Option.ne_none_iff_exists'.mp hne
  obtain ⟨sp, hsp, -⟩ := (hinv.results _ v).mp hv
  exact hp.input_free (hinv.spans.mem _ sp hsp)

/-- `OnPlan` holds in every run that follows its outcomes. -/
theorem reachable_onPlan (hacc : Accepted env.wf) (hp : Predictable env outcome) {s : State}
    (hs : env.system.ReachableBy (Follows env outcome) s) : OnPlan env outcome s := by
  have hinit : OnPlan env outcome env.initial :=
    ⟨fun e => MainPc.noConfusion, rfl, fun c hc => by cases hc⟩
  refine hs.holds hinit fun s a s' hs h hfollow ha => ?_
  cases step_inv ha with
  | main hm => exact h.mainStepped hacc hp.starts hp.continues hs hm
  | wake order hw => exact ⟨fun e => MainPc.noConfusion, h.running, h.attempting⟩
  | @coro i c b _ hi hy hstep =>
      have hc := List.mem_of_getElem? hi
      have hmem := (reachable_handed hacc hs).task_mem c hc
      -- A coroutine steps only while the loop of the run is alive.
      have hlive : s.main.pc.isLive = true := by
        cases hpc : s.main.pc with
        | start =>
            rw [hpc] at hy
            cases hy
        | raised e => exact absurd hpc (h.run e)
        | _ => rfl
      obtain ⟨c', hcoros, hc'⟩ := (h.attempting c hc).coroStep hstep (hfollow c hi) hs
        (reachable_calm hacc hs h.running c hc).no_request (hp.resolves hacc hs hlive hc)
        (hp.retries _ hmem) (hp.untimed _ hmem) (hp.sleeps _ hmem)
      refine ⟨hstep.main_eq ▸ h.run, hstep.main_eq ▸ h.running, ?_⟩
      rw [hcoros]
      exact forall_mem_set h.attempting hc'
  | cancel hpc => exact hfollow.elim
  | _ => exact ⟨h.run, h.running, h.attempting⟩

/-! ### The report -/

/-- What a span says about its task. -/
def spanEntry (sp : TaskSpan) : Entry String := ⟨sp.id, fateOf sp.status, sp.attempts⟩

/-- What a report says about the tasks, without the texts, the times and the usage. -/
def reportVerdict (rep : Report) : Verdict String where
  entries := rep.tasks.map spanEntry
  retries := rep.totals.retries
  fate := fateOf rep.status

/-- The plan lets a task make one attempt more than its retry limit. -/
theorem runPlan_limit (hacc : Accepted env.wf) {t : Task} (ht : t ∈ env.wf.tasks) :
    (runPlan env outcome).limit t.id = (effectiveRetry env.wf t).max + 1 := by
  show ((env.wf.taskMap.get? t.id).map _).getD 0 = _
  rw [hacc.taskMap_iff.mpr ⟨ht, rfl⟩]
  rfl

namespace OnPlan

variable {s : State} (h : OnPlan env outcome s) (hend : AtEnd env s)
include h hend

/-- At the end of a run, a coroutine has returned its span. -/
theorem recorded {c : Coro} (hc : c ∈ s.coros) : s.main.spans.get? c.task.id = some c.span ∧
    c.span.status ≠ .skipped ∧
      Lib.Settled (attemptOk outcome c.task.id) ((effectiveRetry env.wf c.task).max + 1)
        c.span.attempts (c.span.status = .succeeded) := by
  obtain ⟨i, hi⟩ := List.mem_iff_getElem?.mp hc
  obtain ⟨hdone, hrec⟩ := (hend.inv.futures (not_abandoned h.running)).recorded i c hi
    (by rw [hend.running]; exact List.not_mem_nil)
  cases h.attempting c hc with
  | settled _ hst hsettled => exact ⟨hrec, hst, hsettled⟩
  | fresh hpc | sleeping hpc =>
      rw [hpc] at hdone
      cases hdone
  | trying h =>
      rw [hdone] at h
      cases h

/-- The processed spans are those of the started tasks. -/
theorem processed_perm : (s.main.processed.map (·.id)).Perm (coroIds s.coros) := by
  have hhist := hend.known.history
  -- Neither list repeats an id, so it is enough that both hold the same ones.
  refine (List.perm_ext_iff_of_nodup hhist.ids_nodup
    (List.Nodup.of_append_left hend.inv.safe.nodup)).mpr fun id => ?_
  constructor
  · intro hid
    obtain ⟨sp, hsp, rfl⟩ := List.mem_map.mp hid
    obtain ⟨i, c, hi, -, rfl⟩ := hhist.returned sp hsp
    have hc := List.mem_of_getElem? hi
    rw [hend.inv.span_id c hc]
    exact List.mem_map_of_mem hc
  · intro hid
    obtain ⟨c, hc, rfl⟩ := List.mem_map.mp hid
    obtain ⟨hrec, hst, -⟩ := h.recorded hend hc
    rcases hhist.origin _ _ hrec with hin | hph
    · exact List.mem_map.mpr ⟨c.span, hin, hend.inv.span_id c hc⟩
    · rw [hph] at hst
      exact absurd rfl hst

/-- At the end of a run, the spans are settled. -/
theorem spansSettled (hacc : Accepted env.wf) :
    SpansSettled spanEntry s.main.spans (runPlan env outcome) (coroIds s.coros) := by
  refine ⟨⟨hacc.ids_nodup, List.Nodup.of_append_left hend.inv.safe.nodup⟩, hend.inv.spans.key,
    hend.inv.spans.mem, hend.total, fun id hid => ?_, fun id sp hsp => ?_⟩
  · obtain ⟨c, hc, rfl⟩ := List.mem_map.mp hid
    obtain ⟨hrec, hst, hsettled⟩ := h.recorded hend hc
    refine ⟨c.span, hrec, fun hskip => hst (fateOf_skipped.mp hskip), ?_⟩
    rw [runPlan_limit hacc (hend.inv.task_mem c hc)]
    simp only [spanEntry, fateOf_succeeded]
    exact hsettled
  · rcases hend.known.history.origin id sp hsp with hin | rfl
    · refine Or.inl ((h.processed_perm hend).mem_iff.mp ?_)
      exact List.mem_map.mpr ⟨sp, hin, hend.inv.spans.key _ _ hsp⟩
    · exact Or.inr rfl

/-- At the end of a run, the totals count the retries of the started tasks. -/
theorem totals_retries : s.main.totals.retries
    = ((coroIds s.coros).map fun id => (entryAt spanEntry s.main.spans id).attempts - 1).sum := by
  have hhist := hend.known.history
  have hcount : s.main.totals.retries
      = (s.main.processed.map fun sp => max 0 (sp.attempts - 1)).sum := by
    rw [hhist.totals, foldl_addTotals_retries]
    exact Int.zero_add _
  -- A processed span has the attempts of the entry for its task, and there is one at least.
  have hread : (s.main.processed.map fun sp => max 0 (sp.attempts - 1))
      = (s.main.processed.map (·.id)).map
        fun id => (entryAt spanEntry s.main.spans id).attempts - 1 := by
    rw [List.map_map]
    refine List.map_congr_left fun sp hsp => ?_
    obtain ⟨i, c, hi, -, rfl⟩ := hhist.returned sp hsp
    have hc := List.mem_of_getElem? hi
    obtain ⟨hrec, -, hsettled⟩ := h.recorded hend hc
    have hpos := hsettled.pos
    show max 0 (c.span.attempts - 1) = (entryAt spanEntry s.main.spans c.span.id).attempts - 1
    rw [hend.inv.span_id c hc, entryAt_of_span hrec]
    exact max_eq_right (by omega)
  rw [hcount, hread, ((h.processed_perm hend).map _).sum_eq]

end OnPlan

/-- The loop over the spans finds a failed one exactly when there is one. -/
theorem any_failed_iff (spans : Dict String TaskSpan) :
    (spans.entries.any fun e => e.2.status = .failed) = true ↔
      ∃ id sp, spans.get? id = some sp ∧ (spanEntry sp).fate = .failed := by
  rw [List.any_eq_true]
  constructor
  · rintro ⟨e, he, hst⟩
    exact ⟨e.1, e.2, (spans.mem_entries _ _).mp he, fateOf_failed.mpr (by simpa using hst)⟩
  · rintro ⟨id, sp, hsp, hst⟩
    exact ⟨(id, sp), (spans.mem_entries _ _).mpr hsp, by simpa using fateOf_failed.mp hst⟩

/-- The report of a run that follows its outcomes is the one that its plan asks for. -/
theorem report_right (hacc : Accepted env.wf) (hp : Predictable env outcome) {s : State}
    (hs : env.system.ReachableBy (Follows env outcome) s) {rep : Report}
    (hrep : s.report? = some rep) : (reportVerdict rep).Right (runPlan env outcome) := by
  have h := reachable_onPlan hacc hp hs
  obtain ⟨hend, now, rfl⟩ := reachable_atEnd hacc hs.reachable hrep
  have hspans := h.spansSettled hend hacc
  -- The books of the scheduler and the spans of the tasks together give the one verdict that the
  -- plan allows.
  refine hspans.right (hend.inv.books h.running) rfl hend.ready
    (fun t ht d hd => hacc.deps_ids ht hd)
    hacc.acyclic (fun id => ?_) ?_ (h.totals_retries hend) ?_
  · simp only [isGood_ledger, spanEntry, fateOf_succeeded]
  · show (env.wf.tasks.filterMap fun t => s.main.spans.get? t.id).map spanEntry
      = ((env.wf.tasks.map (·.id)).filterMap s.main.spans.get?).map spanEntry
    rw [List.filterMap_map]
    rfl
  · show _ ∧ fateOf (env.report now s.main).status = _ ∨ _ ∧
      fateOf (env.report now s.main).status = _
    rw [← any_failed_iff]
    by_cases hfail : (s.main.spans.entries.any fun e => e.2.status = .failed) = true
    · exact Or.inl ⟨hfail, by simp [report, hfail, fateOf]⟩
    · refine Or.inr ⟨hfail, ?_⟩
      rw [Bool.not_eq_true] at hfail
      simp [report, hfail, h.running, fateOf]

/-- Where no future raises and no handler is lost, the event loop goes on. -/
theorem OnPlan.going {s : State} (h : OnPlan env outcome s) : Going env s := by
  have hpc : ∀ c ∈ s.coros, c.pc.isRaised = false ∧ c.pc ≠ .lost := by
    intro c hc
    cases h.attempting c hc with
    | fresh hpc | sleeping hpc | settled hpc => simp [hpc, CoroPc.isRaised]
    | trying hin =>
        cases hpc : c.pc <;> simp_all [CoroPc.isRaised, CoroPc.isTrying, CoroPc.holds]
  refine ⟨?_, fun c hc => ?_⟩
  · rw [State.stopped, Bool.and_eq_false_imp]
    intro _
    rw [List.any_eq_false]
    intro c hc
    have hraised := (hpc c hc).1
    cases hp : c.pc <;> simp_all [CoroPc.exited, CoroPc.isRaised]
  · rw [Coro.isLost, decide_eq_false (hpc c hc).2, Bool.false_and]

/-- A fair run with room for one task that follows its outcomes returns a report. -/
theorem fair_reports_onPlan (hacc : Accepted env.wf) (hp : Predictable env outcome)
    (hpar : 1 ≤ env.wf.maxParallel) (e : env.system.Execution) (hfair : Fair e)
    (hfollow : ∀ n, Follows env outcome (e.state n) (e.label n)) :
    ∃ n, (e.state n).report?.isSome = true := by
  have hplan := fun n => reachable_onPlan hacc hp (e.reachableBy hfollow n)
  obtain ⟨n, hend⟩ := fair_ends hacc hpar e hfair fun n => (hplan n).going
  have h := hplan n
  refine ⟨n, ?_⟩
  cases hpc : (e.state n).main.pc with
  | returned rep => rw [State.report?, hpc]; rfl
  | raised err => exact absurd hpc (h.run err)
  | _ =>
      rw [hpc] at hend
      cases hend

/-! ### Plain runs -/

/-- Check that a step of a plain run follows its outcomes, which are given by a function that can be
evaluated. -/
def checkFollows (ok : String → Int → Bool) (s : State) : Action → Bool
  | .coro i (.finish _ out) => (s.coros[i]?).all fun c =>
    match out with
    | .returned .null => ok c.task.id c.span.attempts
    | .timeoutError | .exception _ _ => !ok c.task.id c.span.attempts
    | _ => false
  | .coro _ .lose | .cancel => false
  | _ => true

/-- A step that passes the check follows the outcomes. -/
theorem follows_of_check {wf : Workflow} {kind : SkillKind} {ok : String → Int → Bool} (s : State)
    (a : Action) (h : checkFollows ok s a = true) :
    Follows (plainRun wf kind) (nullOutcomes ok) s a := by
  cases a with
  | coro i b =>
      intro c hc
      cases b with
      | invoke => exact fun hnone => by cases hnone
      -- As for the sample behaviour, with the outcome of the attempt in place of the answer.
      | finish ctx out =>
          rw [checkFollows, hc] at h
          show out.attempt = some (if ok c.task.id c.span.attempts then some .null else none)
          cases out with
          | returned output => cases output <;> simp_all [Outcome.attempt]
          | cancelledError | uncaught => cases h
          | _ => simp_all [Outcome.attempt]
      | lose => cases h
      | _ => exact trivial
  | cancel => cases h
  | _ => exact trivial

/-- A workflow with one task, whose policy and required inputs are what the examples vary. -/
def loneRetried (retry : Retry) (inputsSchema : Dict String Json) : Workflow where
  name := "w"
  defaultOnError := "continue"
  inputsSchema := inputsSchema
  tasks := [{ id := "a", skill := "s", retry := some retry }]

/-! ### A backoff that overflows -/

/-- As many retries as it takes. -/
def overflowing : Retry := { max := 1025, base := 0 }

/-- The run of the task with as many retries as it takes. -/
def overflowingRun : Env := plainRun (loneRetried overflowing .empty) .async

/-- The runs in which every attempt fails. -/
abbrev failing : System State Action := overflowingRun.system.guard (checkFollows fun _ _ => false)

/-- The one coroutine of the run, which goes through its attempts while `run` waits for it. Nothing
else is there that could step. -/
structure Lone (s : State) (c : Coro) : Prop where
  coros : s.coros = [c]
  retry : c.task.retry = some overflowing
  provider : c.task.provider = none
  sem : 0 < s.sem
  bucket : s.globalBucket = none
  waits : s.main.pc = .wait
  running : s.main.running = [0]

/-- An attempt whose handler raises a `TimeoutError`. -/
theorem Lone.fail {s : State} {c : Coro} (h : Lone s c) (hpc : c.pc = .slot)
    (hreq : c.cancelRequested = false) : ∃ s' err,
    failing.runFrom? s [.coro 0 .acquireSlot, .coro 0 .acquire, .coro 0 .invoke,
      .coro 0 (.finish {} .timeoutError)] = some s' ∧
    Lone s' (overflowingRun.failAttempt { c with pc := .handler } {} err s.clock) := by
  have hround : overflowingRun.acquireRound none s.clock = .ok (true, none) := rfl
  have hskill : overflowingRun.skills c.task.skill = some .async := rfl
  -- The state behind the four steps, written out: the slot is back, the handler is gone and the
  -- attempt has failed.
  refine ⟨{ s with
    sem := s.sem - 1 + 1
    globalBucket := none
    coros := [overflowingRun.failAttempt { c with pc := .handler } {}
      (overflowingRun.timeoutErr c.task) s.clock]
    executing := (s.executing ++ [(0, c.span.attempts)]).erase (0, c.span.attempts) },
    overflowingRun.timeoutErr c.task, ?_, ?_⟩
  · simp [System.runFrom?, System.guard, Env.system, step?, loopStep, State.stopped, CoroPc.exited,
      coroStep, setCoro, checkFollows, h.coros, hpc, hreq, h.sem, h.bucket, h.waits, MainPc.yields,
      hround, hskill, afterGlobal, h.provider]
    rfl
  · refine ⟨rfl, ?_, ?_, ?_, rfl, h.waits, h.running⟩
    · rw [failAttempt_task]
      exact h.retry
    · rw [failAttempt_task]
      exact h.provider
    · have := h.sem
      show 0 < s.sem - 1 + 1
      omega

/-- The length of its sleeps. -/
theorem backoff_overflowing (k : Int) : backoff overflowing k
    = if 1024 ≤ (k - 1).toNat then .error .overflowError else .ok (0 * 2 ^ (k - 1).toNat) := rfl

/-- The retry policy of its coroutine. -/
theorem Lone.effectiveRetry {s : State} {c : Coro} (h : Lone s c) (wf : Workflow) :
    effectiveRetry wf c.task = overflowing := by
  rw [Runner.effectiveRetry, h.retry]
  rfl

/-- The end of the backoff sleep. -/
theorem Lone.wake {s : State} {c : Coro} (h : Lone s c) (hpc : c.pc = .backoff)
    (hreq : c.cancelRequested = false) (hle : c.span.attempts ≤ 1025) : ∃ s',
    failing.step? s (.coro 0 .wake) = some s' ∧
      Lone s' { c with pc := .slot, span := { c.span with attempts := c.span.attempts + 1 } } := by
  rcases enterAttempt_cases overflowingRun c s.clock (c.span.attempts + 1)
    with ⟨-, hnext⟩ | ⟨hgt, -⟩
  · refine ⟨{ s with coros := [{ c with
      pc := .slot, span := { c.span with attempts := c.span.attempts + 1 } }] }, ?_,
      ⟨rfl, h.retry, h.provider, h.sem, h.bucket, h.waits, h.running⟩⟩
    simp [System.guard, checkFollows, Env.system, step?, loopStep, State.stopped, CoroPc.exited,
      coroStep, setCoro, h.coros, h.waits, hpc, hreq, hnext, MainPc.yields]
  · refine absurd ?_ hgt
    rw [h.effectiveRetry]
    show _ < (1025 : Int) + 2
    omega

/-- The exception of the coroutine leaves `run`. -/
theorem Lone.raise {s : State} {c : Coro} (h : Lone s c) (hpc : c.pc = .raised .overflowError) :
    ∃ s', failing.runFrom? s [.wake [0], .main] = some s' ∧
      s'.main.pc = .raised .overflowError := by
  refine ⟨{ s with main := { s.main with running := [], pc := .raised .overflowError } }, ?_, rfl⟩
  simp [System.runFrom?, System.guard, checkFollows, Env.system, step?, loopStep, State.stopped,
    CoroPc.exited, wakeStep, mainStep, h.waits, doneFutures, h.running, h.coros, CoroPc.isDone,
    processFuture, hpc]

/-- At its `k`-th attempt, the one coroutine waits for a slot. -/
def Reaches (k : Int) : Prop := ∃ s c, failing.Reachable s ∧ Lone s c ∧ c.pc = .slot ∧
  c.cancelRequested = false ∧ c.span.attempts = k

/-- An attempt that fails leads to the next one, as long as the sleep between them has a length. -/
theorem Reaches.next {k : Int} (h : Reaches k) (hk : k ≤ 1024) : Reaches (k + 1) := by
  obtain ⟨s, c, hs, hlone, hpc, hreq, rfl⟩ := h
  obtain ⟨s₁, err, hrun, h₁⟩ := hlone.fail hpc hreq
  have hle : ¬ 1024 ≤ (c.span.attempts - 1).toNat := by omega
  rcases failAttempt_cases overflowingRun { c with pc := .handler } s.clock {} err with
    ⟨d, -, -, he⟩ | ⟨e, -, hback, -⟩ | ⟨hgt, -⟩
  · rw [he] at h₁
    obtain ⟨s₂, hwake, h₂⟩ := h₁.wake rfl rfl (show c.span.attempts ≤ 1025 by omega)
    exact ⟨s₂, _, (hs.runFrom hrun).step hwake, h₂, rfl, rfl, rfl⟩
  · rw [hlone.effectiveRetry, backoff_overflowing, if_neg hle] at hback
    cases hback
  · rw [hlone.effectiveRetry] at hgt
    exact absurd (show c.span.attempts ≤ 1025 by omega) hgt

/-- It comes to its first attempt. -/
theorem reaches_first : Reaches 1 := by
  have hs := System.reachable_of_run
    (rfl : failing.run? [.main, .main, .main, .main, .coro 0 .start] = some _)
  exact ⟨_, _, hs, ⟨rfl, rfl, rfl, by decide, rfl, rfl, rfl⟩, rfl, rfl, rfl⟩

/-- When all of 1025 attempts have failed, `run` raises. -/
theorem overflow_raises : ∃ s e, failing.Reachable s ∧ s.main.pc = .raised e := by
  -- Each failed attempt leads to the next one, up to the one whose backoff overflows.
  have hlast : ∀ n : Nat, n ≤ 1024 → Reaches (n + 1) := by
    intro n hn
    induction n with
    | zero => exact reaches_first
    | succ n ih => exact (ih (by omega)).next (by omega)
  obtain ⟨s, c, hs, hlone, hpc, hreq, hk⟩ := hlast 1024 le_rfl
  obtain ⟨s₁, err, hrun, h₁⟩ := hlone.fail hpc hreq
  have hover : 1024 ≤ (c.span.attempts - 1).toNat := by omega
  -- At that attempt the pause cannot be computed, so the coroutine raises.
  rcases failAttempt_cases overflowingRun { c with pc := .handler } s.clock {} err with
    ⟨d, -, hback, -⟩ | ⟨e, -, hback, he⟩ | ⟨hgt, -⟩
  · rw [hlone.effectiveRetry, backoff_overflowing, if_pos hover] at hback
    cases hback
  · rw [hlone.effectiveRetry, backoff_overflowing, if_pos hover] at hback
    cases hback
    rw [he] at h₁
    obtain ⟨s₂, hraise, hpc₂⟩ := h₁.raise rfl
    exact ⟨s₂, _, (hs.runFrom hrun).runFrom hraise, hpc₂⟩
  · rw [hlone.effectiveRetry] at hgt
    exact absurd (show c.span.attempts ≤ 1025 by omega) hgt

end Orchestrator.Sdk.Runner
