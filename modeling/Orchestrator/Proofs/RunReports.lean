import Orchestrator.Proofs.RunnerCompletion
import Orchestrator.Proofs.SpansKept

/-!
# `Orchestrator.Proofs.RunReports`: when a Python run ends in a report

`run` reads `fut.result()` under the comment `_execute_task never raises`. Two statements of
`_execute_task` are outside its `try`: the resolution of the inputs and the length of the backoff
sleep. Where one of them raises, `run` raises too, and the report and the running siblings are lost
(`runs_do_not_report`). A handler can do the same with an exception that the `except` clauses let
through, or with one that has no text.

`stepFits` is the condition that none of this happens, that the checks of `run` pass, and that
nobody cancels `run`. `exactFor_contained` says that these are all the ways to raise or to wait for
ever: a run is `Contained` throughout exactly when each of its steps meets the condition.

The condition is tested where a coroutine would break (`CoroStep.isBroken`), in the state before the
step. A coroutine that nobody has asked to stop is `Calm`; it matters because a cancellation is
raised at the next `await`, and only a `fail_fast` failure asks for one.

`Handled` says what a report makes of the tasks that did not succeed. The last part reads it off the
invariants of the runner at the return of `run` (`AtEnd`): a failed task has an error, the failures
were handled by the policies of their tasks, and what depends on them was skipped.
-/

set_option autoImplicit false

namespace Orchestrator.Sdk.Runner

open Orchestrator.Lib Env

variable {env : Env}

/-! ### The steps that raise -/

/-- The run has not raised, no task coroutine has, and none waits for a future that is never
done. -/
structure Contained (env : Env) (s : State) : Prop where
  run : ∀ e, s.main.pc ≠ .raised e
  task : ∀ c ∈ s.coros, c.pc.isRaised = false
  lost : ∀ c ∈ s.coros, c.isLost env = false

/-- Where nothing has raised, the event loop runs. -/
theorem Contained.going {s : State} (h : Contained env s) : Going env s := by
  refine ⟨?_, h.lost⟩
  have hno : (s.coros.any fun c => c.pc.exited) = false := by
    rw [List.any_eq_false]
    intro c hc
    have hraised := h.task c hc
    cases hpc : c.pc <;> simp_all [CoroPc.exited, CoroPc.isRaised]
  rw [State.stopped, hno, Bool.and_false]

/-- The coroutine raised, or waits for ever. -/
def Coro.isBroken (env : Env) (c : Coro) : Bool := c.pc.isRaised || c.isLost env

/-- Where no coroutine is broken and `run` has not raised, the run is contained. -/
theorem Contained.of_coros {s : State} (hrun : ∀ e, s.main.pc ≠ .raised e)
    (h : ∀ c ∈ s.coros, c.isBroken env = false) : Contained env s :=
  ⟨hrun, fun c hc => (Bool.or_eq_false_iff.mp (h c hc)).1,
    fun c hc => (Bool.or_eq_false_iff.mp (h c hc)).2⟩

/-- No coroutine of a contained run is broken. -/
theorem Contained.coros {s : State} (h : Contained env s) :
    ∀ c ∈ s.coros, c.isBroken env = false :=
  fun c hc => Bool.or_eq_false_iff.mpr ⟨h.task c hc, h.lost c hc⟩

/-- The inputs of a task can be resolved. The test is made on the state before the coroutine starts,
which is when the runner resolves them. -/
def inputsFit (env : Env) (s : State) (c : Coro) : Bool :=
  match resolveTemplate env.lib (.obj (templateScope s.currentInputs s.main.results).entries)
      (.obj c.task.inputs.entries) with
  | .ok _ => true
  | .error _ => false

/-- The length of the sleep after a failed attempt can be computed, if the task sleeps. -/
def backoffFits (env : Env) (c : Coro) : Bool :=
  decide ((effectiveRetry env.wf c.task).max < c.span.attempts) ||
    match backoff (effectiveRetry env.wf c.task) c.span.attempts with
    | .ok _ => true
    | .error _ => false

/-- A round of `acquire` raises. -/
def isError : Except PyError (Bool × Option TokenBucket) → Bool
  | .ok _ => false
  | .error _ => true

/-- The step ends an attempt, and not in a success or a cancellation. Whether another attempt
follows is not its business. -/
def failsAttempt (env : Env) (s : State) (c : Coro) : CoroAction → Bool
  | .acquire =>
    match c.pc with
    | .global => isError (env.acquireRound s.globalBucket s.clock)
    | .provider =>
      isError (env.acquireRound (s.provReq.get? (c.task.provider.getD "")).join s.clock)
    | _ => false
  | .invoke => (env.skills c.task.skill).isNone
  | .finish _ (.exception _ _) | .finish _ .timeoutError | .timeout _ => true
  | _ => false

/-- The condition on a step of a coroutine. A handler raises nothing but an `Exception` that has a
text or a cancellation, and where it is lost, a timeout ends the wait for it. -/
def coroFits (env : Env) (s : State) (c : Coro) (a : CoroAction) : Bool :=
  match a with
  | .start => inputsFit env s c
  | .finish _ (.uncaught _ _) => false
  | .lose => (effectiveTimeout env.wf c.task).isSome
  | a => !failsAttempt env s c a || backoffFits env c

/-- The condition on a step: the checks of `run` pass, inputs can be resolved, sleeps have a length,
and nobody cancels `run`. -/
def stepFits (env : Env) (s : State) : Action → Bool
  | .main =>
    match s.main.pc, env.prepare s.clock with
    | .start, .error _ => false
    | _, _ => true
  | .coro i a => (s.coros[i]?).all fun c => coroFits env s c a
  | .cancel => false
  | _ => true

/-- A failed attempt raises when the sleep after it has no length. -/
theorem failAttempt_isBroken (c : Coro) (ctx : SkillContext) (err : String) (now : Nat) :
    (env.failAttempt c ctx err now).isBroken env = !backoffFits env c := by
  unfold backoffFits
  rcases failAttempt_cases env c now ctx err with ⟨d, hle, hd, h⟩ | ⟨e, hle, he, h⟩ | ⟨hgt, h⟩ <;>
    rw [h]
  · simp [hd, Coro.isBroken, Coro.isLost, CoroPc.isRaised]
  · simp [he, not_lt.mpr hle, Coro.isBroken, CoroPc.isRaised]
  · simp [not_le.mp hgt, Coro.isBroken, Coro.isLost, CoroPc.isRaised]

/-- The head of the attempt loop does not raise. -/
@[simp] theorem enterAttempt_isBroken (c : Coro) (attempt : Int) (now : Nat) :
    (env.enterAttempt c attempt now).isBroken env = false := by
  rcases enterAttempt_cases env c now attempt with ⟨-, h⟩ | ⟨-, h⟩ <;> rw [h] <;> rfl

/-- A step breaks its coroutine exactly when it does not meet the condition. -/
theorem CoroStep.isBroken {s s' : State} {i : Nat} {c : Coro} {a : CoroAction}
    (h : CoroStep env s i c a s') :
    ∃ c', s'.coros = s.coros.set i c' ∧ c'.isBroken env = !coroFits env s c a := by
  cases h with
  -- A task breaks at its start if its inputs do not resolve.
  | start hpc hcr =>
      refine ⟨_, rfl, ?_⟩
      show _ = !inputsFit env s c
      unfold inputsFit
      rcases startTask_cases env c s.clock s.currentInputs s.main.results with
        ⟨e, he, h⟩ | ⟨r, hr, h⟩
      · simp [h, he, Coro.isBroken, CoroPc.isRaised]
      · simp [h, hr]
  -- A failed attempt breaks the task if the wait before the next one cannot be computed.
  | acquireError e hcr he =>
      refine ⟨_, rfl, ?_⟩
      rw [failAttempt_isBroken]
      rcases he with ⟨hpc, he⟩ | ⟨hpc, he⟩ <;> simp [coroFits, failsAttempt, isError, hpc, he]
  | noSkill hpc hcr hk =>
      refine ⟨_, rfl, ?_⟩
      rw [failAttempt_isBroken]
      simp [coroFits, failsAttempt, hk]
  | finish ctx out hpc hcr =>
      refine ⟨_, rfl, ?_⟩
      cases out with
      | returned output => rfl
      | cancelledError => rfl
      | timeoutError =>
          show (env.failAttempt c ctx (env.timeoutErr c.task) s.clock).isBroken env = _
          rw [failAttempt_isBroken]
          simp [coroFits, failsAttempt]
      | exception type message =>
          show (env.failAttempt c ctx (type ++ ": " ++ message) s.clock).isBroken env = _
          rw [failAttempt_isBroken]
          simp [coroFits, failsAttempt]
      | uncaught type exits => rfl
  -- A handler that never returns is lost for good if no timeout is set.
  | lose hpc hcr hk =>
      refine ⟨_, rfl, ?_⟩
      show (decide (CoroPc.lost = .lost) && (effectiveTimeout env.wf c.task).isNone) = _
      cases ht : effectiveTimeout env.wf c.task <;> simp [coroFits, ht]
  | timeout ctx hpc hcr ht =>
      refine ⟨_, rfl, ?_⟩
      rw [failAttempt_isBroken]
      simp [coroFits, failsAttempt]
  | wake hpc hcr => exact ⟨_, rfl, by simp [coroFits, failsAttempt]⟩
  | grantGlobal b hpc hcr hb =>
      refine ⟨_, rfl, ?_⟩
      rcases afterGlobal_pc c with h | h <;>
        simp [h, coroFits, failsAttempt, isError, hpc, hb, Coro.isBroken, Coro.isLost,
          CoroPc.isRaised]
  | denyGlobal b hpc hcr hb =>
      exact ⟨_, rfl, by simp [coroFits, failsAttempt, isError, hpc, hb, Coro.isBroken, Coro.isLost,
        CoroPc.isRaised]⟩
  | grantProvider b hpc hcr hb =>
      exact ⟨_, rfl, by simp [coroFits, failsAttempt, isError, hpc, hb, Coro.isBroken, Coro.isLost,
        CoroPc.isRaised]⟩
  | denyProvider b hpc hcr hb =>
      exact ⟨_, rfl, by simp [coroFits, failsAttempt, isError, hpc, hb, Coro.isBroken, Coro.isLost,
        CoroPc.isRaised]⟩
  | invoke kind hpc hcr hk =>
      exact ⟨_, rfl, by simp [coroFits, failsAttempt, hk, Coro.isBroken, Coro.isLost,
        CoroPc.isRaised]⟩
  | _ => exact ⟨_, rfl, by simp [coroFits, failsAttempt, Coro.isBroken, Coro.isLost,
      CoroPc.isRaised]⟩

/-! ### Requests to stop -/

/-- Nobody asked the coroutine to stop. -/
structure Calm (c : Coro) : Prop where
  no_request : c.cancelRequested = false
  not_cancelled : c.pc ≠ .cancelled

/-- A failed attempt leaves a coroutine calm. -/
theorem Calm.failAttempt (c : Coro) (ctx : SkillContext) (err : String) (now : Nat) :
    Calm (env.failAttempt c ctx err now) := by
  rcases failAttempt_cases env c now ctx err with ⟨d, -, -, h⟩ | ⟨e, -, -, h⟩ | ⟨-, h⟩ <;>
    rw [h] <;> exact ⟨rfl, CoroPc.noConfusion⟩

/-- The head of the attempt loop leaves a coroutine calm. -/
theorem Calm.enterAttempt {c : Coro} (hc : c.cancelRequested = false) (attempt : Int) (now : Nat) :
    Calm (env.enterAttempt c attempt now) := by
  rcases enterAttempt_cases env c now attempt with ⟨-, h⟩ | ⟨-, h⟩ <;> rw [h] <;>
    exact ⟨hc, CoroPc.noConfusion⟩

/-- A step keeps a coroutine calm. -/
theorem CoroStep.calm {s s' : State} {i : Nat} {c : Coro} {a : CoroAction}
    (h : CoroStep env s i c a s') (hc : Calm c) :
    ∃ c', s'.coros = s.coros.set i c' ∧ Calm c' := by
  have hcr := hc.no_request
  have hno : ∀ {P : Prop}, c.cancelRequested = true → P := by
    intro P h
    rw [hcr] at h
    cases h
  cases h with
  -- Nobody has asked the task to cancel, and none of its own steps does.
  | start hpc _ =>
      refine ⟨_, rfl, ?_⟩
      rcases startTask_cases env c s.clock s.currentInputs s.main.results with
        ⟨e, -, h⟩ | ⟨r, -, h⟩ <;> rw [h]
      · exact ⟨hcr, CoroPc.noConfusion⟩
      · exact .enterAttempt (c := firstAttempt c s.clock r) hcr _ _
  | grantGlobal b hpc _ hb =>
      refine ⟨_, rfl, hcr, ?_⟩
      rcases afterGlobal_pc c with h | h <;> simp [h]
  | acquireError e _ he => exact ⟨_, rfl, .failAttempt _ _ _ _⟩
  | noSkill hpc _ hk => exact ⟨_, rfl, .failAttempt _ _ _ _⟩
  | finish ctx out hpc _ =>
      refine ⟨_, rfl, ?_⟩
      rcases afterInvoke_cases env c s.clock ctx out with
        ⟨o, -, h⟩ | ⟨-, h⟩ | ⟨type, exits, -, h⟩ | ⟨err, -, -, h⟩ <;> rw [h]
      · exact ⟨rfl, CoroPc.noConfusion⟩
      · exact ⟨rfl, CoroPc.noConfusion⟩
      · exact ⟨rfl, CoroPc.noConfusion⟩
      · exact .failAttempt _ _ _ _
  | timeout ctx hpc _ ht => exact ⟨_, rfl, .failAttempt _ _ _ _⟩
  | wake hpc _ => exact ⟨_, rfl, .enterAttempt hcr _ _⟩
  | cancelOutside ctx hpc hreq => exact hno hreq
  | cancelSlot ctx hpc hreq => exact hno hreq
  | cancelHolder ctx hpc hreq => exact hno hreq
  | cancelHandler ctx hpc hreq => exact hno hreq
  | _ => exact ⟨_, rfl, hcr, CoroPc.noConfusion⟩

/-- A step of `run` that fails nothing fast leaves the coroutines calm. -/
theorem MainStepped.calm {s s' : State} (h : MainStepped env s s')
    (hstart : s.main.pc = .start → s.coros = [])
    (hc : s.main.runFailed = false → ∀ c ∈ s.coros, Calm c) (hrun : s'.main.runFailed = false) :
    ∀ c ∈ s'.coros, Calm c := by
  cases h with
  | setup buckets hpc hb =>
      intro c hmem
      have hmem : c ∈ s.coros := hmem
      rw [hstart hpc] at hmem
      cases hmem
  | dispatch tid rest t hpc hready hskip ht =>
      intro c hmem
      rcases List.mem_append.mp hmem with hmem | hmem
      · exact hc hrun c hmem
      · rw [List.mem_singleton.mp hmem]
        exact ⟨rfl, CoroPc.noConfusion⟩
  | failFast i rest c t hpc hi hdone hst ht hpol hlast => cases hrun
  -- Tasks are cancelled only in a step that marks the run as failed as well.
  | cancelAll i rest c t hpc hi hdone hst ht hpol hmore => cases hrun
  | _ => exact hc hrun

/-- Before a `fail_fast` failure every coroutine is calm. -/
theorem reachable_calm (hacc : Accepted env.wf) {s : State} (hs : env.system.Reachable s) :
    s.main.runFailed = false → ∀ c ∈ s.coros, Calm c := by
  have hinit : env.initial.main.runFailed = false → ∀ c ∈ env.initial.coros, Calm c :=
    fun _ c hc => by cases hc
  refine hs.holds (P := fun s => s.main.runFailed = false → ∀ c ∈ s.coros, Calm c) hinit
    fun s a s' hs h ha => ?_
  cases step_inv ha with
  | main hm => exact hm.calm (reachable_sound hacc hs).start h
  | @coro i c b _ hi hy hstep =>
      intro hrun
      rw [hstep.main_eq] at hrun
      obtain ⟨c', hcoros, hc'⟩ := hstep.calm (h hrun c (List.mem_of_getElem? hi))
      rw [hcoros]
      exact forall_mem_set (h hrun) hc'
  | _ => exact h

/-! ### The condition -/

/-- A step of `run` that meets the condition does not raise. -/
theorem MainStepped.contained (hacc : Accepted env.wf) {s s' : State} (h : MainStepped env s s')
    (hs : env.system.Reachable s) (hno : Contained env s) (hfit : stepFits env s .main = true) :
    Contained env s' := by
  cases h with
  | refuse e hpc he =>
      rw [stepFits, hpc, he] at hfit
      cases hfit
  | raise i rest c e hpc hi hdone =>
      -- Nobody was asked to stop, so the future has not been cancelled.
      have hmem := List.mem_of_getElem? hi
      have hphase := ((reachable_sound hacc hs).live (by rw [hpc]; rfl)).phase
      rw [Phase, hpc] at hphase
      rcases hdone with hdone | ⟨hdone, -⟩
      · have hraised := hno.task c hmem
        rw [hdone] at hraised
        cases hraised
      · exact absurd hdone ((reachable_calm hacc hs hphase.1 c hmem).not_cancelled)
  | setup buckets hpc hb => exact ⟨fun e => MainPc.noConfusion, hno.task, hno.lost⟩
  | dispatch tid rest t hpc hready hskip ht =>
      refine .of_coros hno.run fun c hc => ?_
      rcases List.mem_append.mp hc with hc | hc
      · exact hno.coros c hc
      · rw [List.mem_singleton.mp hc]
        rfl
  | cancelAll i rest c t hpc hi hdone hst ht hpol hmore =>
      refine .of_coros (fun e => MainPc.noConfusion) fun x hx => ?_
      obtain ⟨j, hj, rfl⟩ := List.mem_mapIdx.mp hx
      have hold := hno.coros _ (List.getElem_mem hj)
      unfold cancelCoro
      split
      · exact hold
      · exact hold
  | drop tid rest hpc hready hskip => exact ⟨hno.run, hno.task, hno.lost⟩
  | _ => exact ⟨fun e => MainPc.noConfusion, hno.task, hno.lost⟩

/-- The only step of `run` that does not meet the condition is the first one, where a check
fails. -/
theorem prepare_of_not_fits {s : State} (h : ¬ stepFits env s .main = true) :
    s.main.pc = .start ∧ ∃ e, env.prepare s.clock = .error e := by
  simp only [stepFits] at h
  split at h
  · rename_i e hpc he
    exact ⟨hpc, e, he⟩
  · exact absurd rfl h

/-- The runs that are contained throughout are those whose steps all meet the condition. -/
theorem exactFor_contained (hacc : Accepted env.wf) :
    env.system.ExactFor (fun s a => stepFits env s a = true) (Contained env) := by
  constructor
  · -- The condition is enough: a step that meets it breaks neither the main task nor a coroutine.
    intro s hs
    have hinit : Contained env env.initial :=
      .of_coros (fun e => MainPc.noConfusion) fun c hc => by cases hc
    refine hs.holds hinit fun s a s' hs hno hfit ha => ?_
    cases step_inv ha with
    | main hm => exact hm.contained hacc hs hno hfit
    | wake order hw => exact ⟨fun e => MainPc.noConfusion, hno.task, hno.lost⟩
    | @coro i c b _ hi hy hstep =>
        obtain ⟨c', hcoros, hbroken⟩ := hstep.isBroken
        rw [stepFits, hi, Option.all_some] at hfit
        rw [hfit, Bool.not_true] at hbroken
        refine .of_coros (hstep.main_eq ▸ hno.run) ?_
        rw [hcoros]
        exact forall_mem_set hno.coros hbroken
    | cancel hpc => cases hfit
    | _ => exact ⟨hno.run, hno.task, hno.lost⟩
  · -- It is needed: a step that does not meet it breaks one of the two at once.
    intro s a s' hs ha hbad hno
    cases step_inv ha with
    | main hm =>
        obtain ⟨hpc, e, he⟩ := prepare_of_not_fits hbad
        have ha : env.mainStep s = some s' := loopStep_of_step ha
        simp only [mainStep, hpc, he] at ha
        cases ha
        exact hno.run e rfl
    | @coro i c b _ hi hy hstep =>
        obtain ⟨c', hcoros, hbroken⟩ := hstep.isBroken
        rw [stepFits, hi, Option.all_some, Bool.not_eq_true] at hbad
        rw [hbad, Bool.not_false] at hbroken
        have hmem : c' ∈ s'.coros := by
          rw [hcoros]
          exact mem_set_self hi
        rw [hno.coros c' hmem] at hbroken
        cases hbroken
    | cancel hpc => exact hno.run _ rfl
    | _ => exact hbad rfl

/-! ### What a report makes of a failure -/

/-- The span did not succeed, and the policy of its task is `fail_fast`. -/
def stopsRun (env : Env) (sp : TaskSpan) : Bool :=
  unsuccessful sp && (env.wf.taskMap.get? sp.id).any fun t =>
    effectiveOnError env.wf t = "fail_fast"

/-- A span that stops the run is the last one that is processed. -/
structure StopsOk (env : Env) (m : Main) : Prop where
  earlier : ∀ sp ∈ m.processed.dropLast, stopsRun env sp = false
  last : m.runFailed = m.processed.getLast?.any (stopsRun env)

/-- A processed span that stops the run is the last one. -/
theorem StopsOk.getLast? {m : Main} (h : StopsOk env m) {sp : TaskSpan} (hsp : sp ∈ m.processed)
    (hstop : stopsRun env sp = true) : m.processed.getLast? = some sp := by
  have hearlier := h.earlier
  rcases List.eq_nil_or_concat m.processed with hnil | ⟨l, x, hl⟩
  · rw [hnil] at hsp
    cases hsp
  · rw [hl, List.concat_eq_append] at hsp hearlier ⊢
    rw [List.dropLast_concat] at hearlier
    rw [List.getLast?_concat]
    rcases List.mem_append.mp hsp with hsp | hsp
    · rw [hearlier sp hsp] at hstop
      cases hstop
    · rw [List.mem_singleton.mp hsp]

/-- Before the run has failed, no processed span stops it. -/
theorem StopsOk.none {m : Main} (h : StopsOk env m) (hrun : m.runFailed = false) :
    ∀ sp ∈ m.processed, stopsRun env sp = false := by
  intro sp hsp
  rw [← Bool.not_eq_true]
  intro hstop
  have hlast := h.last
  rw [hrun, h.getLast? hsp hstop, Option.any_some, hstop] at hlast
  cases hlast

/-- One more span is processed, before the run has failed. -/
theorem StopsOk.record {m m' : Main} (h : StopsOk env m) (hrun : m.runFailed = false)
    {sp : TaskSpan} (hproc : m'.processed = m.processed ++ [sp])
    (hrun' : m'.runFailed = stopsRun env sp) : StopsOk env m' := by
  refine ⟨?_, ?_⟩
  · rw [hproc, List.dropLast_concat]
    exact h.none hrun
  · rw [hproc, List.getLast?_concat, hrun']
    rfl

/-- A step of `run` keeps `StopsOk`. -/
theorem MainStepped.stopsOk {s s' : State} (hm : MainStepped env s s') (h : StopsOk env s.main)
    (hinv : s.main.pc.isLive = true → RunInv env s) : StopsOk env s'.main := by
  -- What is known when a span is processed.
  have hlive : ∀ {i : Nat} {rest : List Nat}, s.main.pc = .process (i :: rest) →
      s.main.runFailed = false ∧ ∀ c ∈ s.coros, c.span.id = c.task.id := by
    intro i rest hpc
    have hinv := hinv (by rw [hpc]; rfl)
    have hphase := hinv.phase
    rw [Phase, hpc] at hphase
    exact ⟨hphase.1, hinv.span_id⟩
  have hbad : ∀ {sp : TaskSpan} {t : Task}, sp.status ≠ .succeeded →
      env.wf.taskMap.get? sp.id = some t →
      stopsRun env sp = decide (effectiveOnError env.wf t = "fail_fast") := by
    intro sp t hst ht
    simp [stopsRun, unsuccessful, hst, ht]
  cases hm with
  | setup buckets hpc hb => exact ⟨fun sp hsp => (by cases hsp), rfl⟩
  | succeeded i rest c hpc hi hdone hst =>
      obtain ⟨hrun, -⟩ := hlive hpc
      refine h.record hrun rfl ?_
      show s.main.runFailed = _
      simp [hrun, stopsRun, unsuccessful, hst]
  | «continue» i rest c t hpc hi hdone hst ht hpol =>
      obtain ⟨hrun, hid⟩ := hlive hpc
      refine h.record hrun rfl ?_
      show s.main.runFailed = _
      rw [hbad hst (by rw [hid c (List.mem_of_getElem? hi)]; exact ht), hrun]
      exact (decide_eq_false hpol).symm
  | failFast i rest c t hpc hi hdone hst ht hpol hlast =>
      obtain ⟨hrun, hid⟩ := hlive hpc
      refine h.record hrun rfl ?_
      rw [hbad hst (by rw [hid c (List.mem_of_getElem? hi)]; exact ht)]
      exact (decide_eq_true hpol).symm
  | cancelAll i rest c t hpc hi hdone hst ht hpol hmore =>
      obtain ⟨hrun, hid⟩ := hlive hpc
      refine h.record hrun rfl ?_
      rw [hbad hst (by rw [hid c (List.mem_of_getElem? hi)]; exact ht)]
      exact (decide_eq_true hpol).symm
  | _ => exact ⟨h.earlier, h.last⟩

/-- In every reachable state, a span that stops the run is the last one that was processed. -/
theorem reachable_stopsOk (hacc : Accepted env.wf) {s : State} (hs : env.system.Reachable s) :
    StopsOk env s.main := by
  have hinit : StopsOk env env.initial.main := ⟨fun sp hsp => (by cases hsp), rfl⟩
  refine hs.holds (P := fun s => StopsOk env s.main) hinit fun s a s' hs h ha => ?_
  cases step_inv ha with
  | main hm => exact hm.stopsOk h (reachable_sound hacc hs).live
  | coro hi hy hstep =>
      rw [hstep.main_eq]
      exact h
  | _ => exact ⟨h.earlier, h.last⟩

/-- The task `id` depends on the task `d`, directly or not. -/
def Downstream (w : Workflow) (d id : String) : Prop :=
  Relation.TransGen (fun d t => d ∈ w.deps t) d id

/-- The report covers every task. The failures are in it, and they were handled by the policies of
their tasks. -/
structure Handled (env : Env) (s : State) (rep : Report) : Prop where
  /-- The report holds one span for each task, in spec order. -/
  tasks : rep.tasks.map (·.id) = env.wf.ids
  /-- It has the span of every task that `run` has processed. -/
  reported : ∀ sp ∈ s.main.processed, sp ∈ rep.tasks
  /-- A failed task makes the run failed, and has an error. -/
  failed : ∀ sp ∈ rep.tasks, sp.status = .failed →
    rep.status = .failed ∧ ∃ err, sp.error = some err ∧ err ≠ ""
  /-- What depends on a task that did not succeed is skipped. -/
  skipped : ∀ sp ∈ s.main.processed, unsuccessful sp = true → ∀ id ∈ env.wf.ids,
    Downstream env.wf sp.id id → placeholder id ∈ rep.tasks
  /-- A failure under `fail_fast` ends the run. -/
  failFast : ∀ sp ∈ s.main.processed, stopsRun env sp = true →
    s.main.processed.getLast? = some sp
  /-- Otherwise every task runs whose dependencies have all succeeded. -/
  continued : (∀ sp ∈ s.main.processed, stopsRun env sp = false) → ∀ id ∈ env.wf.ids,
    (∀ d, Downstream env.wf d id → ∃ sp ∈ s.main.processed, sp.id = d ∧ sp.status = .succeeded) →
      ∃ sp ∈ s.main.processed, sp.id = id

/-- What holds at the return of `run`: nothing is ready or running, and every task has a span. The
report is read off it. -/
structure AtEnd (env : Env) (s : State) : Prop where
  known : Known env s
  inv : RunInv env s
  stops : StopsOk env s.main
  ready : s.main.ready = []
  running : s.main.running = []
  total : ∀ id ∈ env.wf.ids, s.main.spans.get? id ≠ none

/-- What holds at the return of `run`, and how the report was computed. -/
theorem reachable_atEnd (hacc : Accepted env.wf) {s : State} (hs : env.system.Reachable s)
    {rep : Report} (hrep : s.report? = some rep) :
    AtEnd env s ∧ ∃ now, rep = env.report now s.main := by
  have h := reachable_known hacc hs
  have hstops := reachable_stopsOk hacc hs
  obtain ⟨hinv, -, hnow⟩ := h.returned hrep
  refine ⟨?_, hnow⟩
  unfold State.report? at hrep
  split at hrep
  · rename_i hpc
    have hphase := hinv.phase
    rw [Phase, hpc] at hphase
    obtain ⟨hready, hrunning, htotal, -⟩ := hphase
    exact ⟨h, hinv, hstops, hready, hrunning, htotal⟩
  · cases hrep

/-- A recorded span is in the report. -/
theorem mem_report {s : State} {id : String} {sp : TaskSpan} (hid : id ∈ env.wf.ids)
    (hsp : s.main.spans.get? id = some sp) (now : Nat) : sp ∈ (env.report now s.main).tasks := by
  obtain ⟨t, ht, rfl⟩ := List.mem_map.mp hid
  exact List.mem_filterMap.mpr ⟨t, ht, hsp⟩

namespace AtEnd

variable {s : State} (h : AtEnd env s)
include h

/-- The tasks of the report are in spec order. -/
theorem tasks_ids (now : Nat) : (env.report now s.main).tasks.map (·.id) = env.wf.ids := by
  refine map_filterMap_key (fun t : Task => t.id) (fun sp : TaskSpan => sp.id) fun t ht => ?_
  obtain ⟨sp, hsp⟩ := Option.ne_none_iff_exists'.mp (h.total t.id (List.mem_map_of_mem ht))
  exact ⟨sp, hsp, h.inv.spans.key _ _ hsp⟩

/-- A failed task makes the run failed, and has an error. -/
theorem failed {now : Nat} {sp : TaskSpan} (hsp : sp ∈ (env.report now s.main).tasks)
    (hst : sp.status = .failed) :
    (env.report now s.main).status = .failed ∧ ∃ err, sp.error = some err ∧ err ≠ "" := by
  obtain ⟨t, ht, hget⟩ := List.mem_filterMap.mp hsp
  constructor
  · have hentry := (s.main.spans.mem_entries _ _).mpr hget
    have hany : (s.main.spans.entries.any fun e => e.2.status = .failed) = true :=
      List.any_eq_true.mpr ⟨_, hentry, by simpa using hst⟩
    simp [report, hany]
  · -- A placeholder is skipped, so the span is one that a task returned.
    rcases h.known.history.origin _ _ hget with hin | rfl
    · obtain ⟨i, c, hi, hdone, rfl⟩ := h.known.history.returned sp hin
      rcases (h.known.spans c (List.mem_of_getElem? hi)).returned hdone with
        hok | ⟨hok, -⟩ | ⟨-, err, herr, htext⟩
      · rw [hst] at hok
        cases hok
      · rw [hst] at hok
        cases hok
      · exact ⟨err, herr, htext.ne_empty⟩
    · cases hst

/-- A task that has started depends on succeeded tasks only. -/
theorem upstream_succeeded {sp : TaskSpan} (hsp : sp ∈ s.main.processed) {d : String}
    (hd : Downstream env.wf d sp.id) :
    ∃ x, s.main.spans.get? d = some x ∧ x.status = .succeeded := by
  obtain ⟨i, c, hi, -, rfl⟩ := h.known.history.returned sp hsp
  have hc := List.mem_of_getElem? hi
  rw [h.inv.span_id c hc] at hd
  exact isGood_ledger.mp (h.inv.safe.transGen_good
    (List.mem_append_left _ (List.mem_map_of_mem hc)) hd)

/-- What depends on a task that did not succeed is skipped. -/
theorem skipped {sp : TaskSpan} (hsp : sp ∈ s.main.processed) (hbad : unsuccessful sp = true)
    {id : String} (hid : id ∈ env.wf.ids) (hdown : Downstream env.wf sp.id id) (now : Nat) :
    placeholder id ∈ (env.report now s.main).tasks := by
  obtain ⟨x, hx⟩ := Option.ne_none_iff_exists'.mp (h.total id hid)
  rcases h.known.history.origin id x hx with hin | rfl
  · rw [← h.inv.spans.key _ _ hx] at hdown
    obtain ⟨y, hy, hst⟩ := h.upstream_succeeded hin hdown
    rw [h.known.history.recorded sp hsp] at hy
    cases hy
    simp [unsuccessful, hst] at hbad
  · exact mem_report hid hx now

/-- A task with a succeeded span is one that `run` has processed. -/
theorem isGood_iff (d : String) : (ledger s.main s.coros).isGood isSucceeded d = true ↔
    ∃ sp ∈ s.main.processed, sp.id = d ∧ sp.status = .succeeded := by
  rw [isGood_ledger]
  constructor
  · rintro ⟨sp, hsp, hst⟩
    rcases h.known.history.origin d sp hsp with hin | rfl
    · exact ⟨sp, hin, h.inv.spans.key _ _ hsp, hst⟩
    · cases hst
  · rintro ⟨sp, hin, rfl, hst⟩
    exact ⟨sp, h.known.history.recorded sp hin, hst⟩

/-- Where no failure has stopped the run, every task has run whose dependencies have succeeded. -/
theorem continued (hacc : Accepted env.wf)
    (hnone : ∀ sp ∈ s.main.processed, stopsRun env sp = false) {id : String} (hid : id ∈ env.wf.ids)
    (hall : ∀ d, Downstream env.wf d id →
      ∃ sp ∈ s.main.processed, sp.id = d ∧ sp.status = .succeeded) :
    ∃ sp ∈ s.main.processed, sp.id = id := by
  -- No processed span stops the run, so neither did the last one.
  have hrun : s.main.runFailed = false := by
    rw [h.stops.last, ← Bool.not_eq_true, Option.any_eq_true]
    rintro ⟨sp, hsp, hstop⟩
    rw [hnone sp (List.mem_of_getLast? hsp)] at hstop
    cases hstop
  -- By the books a task is started once all that it depends on, directly or not, have succeeded.
  have hstarted : id ∈ (ledger s.main s.coros).started :=
    ((h.inv.books hrun).started_iff (fun t ht d => hacc.deps_ids ht) hacc.acyclic h.ready
      (fun d _ => h.isGood_iff d) hid).mpr hall
  obtain ⟨c, hc, rfl⟩ := List.mem_map.mp hstarted
  obtain ⟨i, hi⟩ := List.mem_iff_getElem?.mp hc
  have hnot : i ∉ s.main.running := by
    rw [h.running]
    exact List.not_mem_nil
  obtain ⟨hdone, hrec⟩ := (h.inv.futures (not_abandoned hrun)).recorded i c hi hnot
  rcases h.known.history.origin _ _ hrec with hin | hph
  · exact ⟨c.span, hin, h.inv.span_id c hc⟩
  · exact absurd hph ((h.known.spans c hc).ne_placeholder hdone _)

end AtEnd

/-- A report handles every failure. -/
theorem reachable_handled (hacc : Accepted env.wf) {s : State} (hs : env.system.Reachable s)
    {rep : Report} (hrep : s.report? = some rep) : Handled env s rep := by
  obtain ⟨h, now, rfl⟩ := reachable_atEnd hacc hs hrep
  exact
    { tasks := h.tasks_ids now
      reported := fun sp hsp =>
        have hrec := h.known.history.recorded sp hsp
        mem_report (h.inv.spans.mem _ _ hrec) hrec now
      failed := fun sp hsp hst => h.failed hsp hst
      skipped := fun sp hsp hbad id hid hdown => h.skipped hsp hbad hid hdown now
      failFast := fun sp hsp hstop => h.stops.getLast? hsp hstop
      continued := fun hnone id hid hall => h.continued hacc hnone hid hall }

/-! ### Runs of a loaded workflow -/

/-- A fair run that has room for one task and whose steps all meet the condition returns a
report. -/
theorem fair_reports (hacc : Accepted env.wf) (hpar : 1 ≤ env.wf.maxParallel)
    (e : env.system.Execution) (hfair : Fair e)
    (hfit : ∀ n, stepFits env (e.state n) (e.label n) = true) :
    ∃ n rep, (e.state n).report? = some rep := by
  have hno : ∀ n, Contained env (e.state n) :=
    fun n => (exactFor_contained hacc).holds _ (e.reachableBy hfit n)
  obtain ⟨n, hend⟩ := fair_ends hacc hpar e hfair fun n => (hno n).going
  cases hpc : (e.state n).main.pc with
  | returned rep => exact ⟨n, rep, by rw [State.report?, hpc]⟩
  | raised err => exact absurd hpc ((hno n).run err)
  | _ =>
      rw [hpc] at hend
      cases hend

/-- Two independent tasks, one of them without a handler, and a task that depends on the other. -/
def raisingRun : Env :=
  { plainRun
      { name := "w"
        defaultOnError := "continue"
        tasks := [{ id := "a", skill := "s" }, { id := "b", skill := "missing" },
          { id := "c", skill := "s", dependsOn := ["a"] }] } .async with
    skills := fun skill => if skill = "s" then some .async else none }

/-- A document with two tasks. The input of `a` names a run input that is not there. -/
def missingDocument : Json :=
  .obj [("workflow", .obj [("name", .str "w"), ("tasks", .arr
    [.obj [("id", .str "a"), ("skill", .str "s"),
        ("inputs", .obj [("x", .str "$\x7binput.missing\x7d")])],
      .obj [("id", .str "b"), ("skill", .str "s")]])])]

/-- The workflow of a document, where it loads. It lets a sample run start from a document instead
of a value of the model. -/
def loaded (doc : Json) : Workflow :=
  match Workflow.fromDict Proofs.asciiLib doc with
  | .ok w => w
  | .error _ => { name := "", tasks := [] }

end Orchestrator.Sdk.Runner
