import Mathlib.Tactic.IntervalCases
import Orchestrator.Proofs.TransportLiveness

/-!
# `Orchestrator.Proofs.EmbeddedLiveness`: the embedded engine returns

A run of the embedded engine is a trace of the scheduler over the stdio transport. `EmbeddedFair` is
fairness to its goroutines, in terms of the steps that the step function enables, and `fair_trace`
gets the fairness of the trace from it: what a goroutine waits for is what the step function checks.

`embedded_returns` needs a client that answers, or a cancelled run. `ClientAnswers` asks the client
to answer each invocation that was written, unless the context of the call ends, and `AnsweredOnce`
not to answer one twice: the pump would not get past a second result for a call that returned. A
cancelled run needs neither.

The argument about the transport is in `TransportLiveness`, for any transport whose steps are those
of `Trace`. What is added here is that the embedded engine is one: each of its parties can take its
step whenever nothing is in its way (`ownStep_enabled`, `exec_enabled`, `lookup_enabled`,
`deliver_enabled`), and the steps of the pump exclude each other.

The witness is an infinite execution. A finite run that is over goes on by letting time pass, and
this is fair (`fair_of_over`).
-/

set_option autoImplicit false

namespace Orchestrator.Proofs

open Orchestrator.Lib Orchestrator.Engine Orchestrator.Engine.Env

variable {B : Type} {env : Env B}

/-! ### Fairness -/

/-- A step of the pump that does not wait for input. -/
def pumps (a : EmbeddedAction) : Prop :=
  a = .pump .lookup ∨ a = .pump .deliver ∨ a = .pump .check

/-- What a run of the engine relies on, apart from the client: whoever can step for ever is
scheduled at some point. -/
structure EmbeddedFair (e : env.embeddedSystem.Execution) : Prop where
  /-- Each call of a limiter returns. -/
  limiter : ∀ (n i : Nat) (g : Goroutine), (e.state n).sched.gos[i]? = some g →
    inLimiter g.pc = true →
    ∃ (m : Nat) (g' : Goroutine), n ≤ m ∧ (e.state m).sched.gos[i]? = some g' ∧
      stage g'.pc ≠ stage g.pc
  main : e.FairTo (· = .sched .main)
  task : ∀ i : Nat, e.FairTo fun a => ownStep i (some a)
  exec : ∀ k : Nat, e.FairTo fun a => movesCall k (some a)
  pump : e.FairTo pumps

/-- The client answers each invocation that was written, unless its context ends. This is all that
is asked of the client; it may answer in any order and at any time. -/
def ClientAnswers (e : env.embeddedSystem.Execution) : Prop :=
  ∀ n k : Nat, e.label n = .exec k (.write none) → ∃ m c, n < m ∧
    (e.state m).execs[k]? = some c ∧ (CtxEnded (e.state m) c ∨
      ∃ msg : InMsg, e.label m = .pump (.line (some msg)) ∧ msg.type = "skill_result" ∧
        msg.invocationID = c.inv.invocationID)

/-- The client answers each invocation, and none twice. -/
structure Serves (e : env.embeddedSystem.Execution) : Prop where
  once : ∀ n, AnsweredOnce (e.state n) (e.label n)
  answers : ClientAnswers e

/-- The trace of a run, each step of which is labelled. In other traces the system may also do
nothing. -/
def traceOf (e : env.embeddedSystem.Execution) : Trace env where
  state := e.state
  label n := some (e.label n)
  start := e.start
  next n := .engine _ _ (embedded_inv (e.next n))

/-! ### What is possible -/

/-- A scheduler step is possible inside the engine. -/
theorem schedStep_isSome {e : Embedded B} {a : Action} (h : (env.step? e.sched a).isSome = true) :
    (env.schedStep e a).isSome = true := by
  obtain ⟨s, hs⟩ := Option.isSome_iff_exists.mp h
  simp [schedStep, hs]

/-- A task goroutine outside of `Execute` takes its own steps, so the fairness of the engine covers
them one by one. -/
theorem ownStep_enabled {e : Embedded B} {i : Nat} {g : Goroutine} {a : TaskAction}
    (hg : e.sched.gos[i]? = some g) (hpc : g.pc ≠ .exec)
    (h : (env.step? e.sched (.task i a)).isSome = true) :
    ∃ b, ownStep i (some b) ∧ (env.embeddedStep? e b).isSome = true := by
  have hinternal : isInternal (.task i a) = true →
      ∃ b, ownStep i (some b) ∧ (env.embeddedStep? e b).isSome = true := by
    intro hi
    refine ⟨.sched (.task i a), rfl, ?_⟩
    simp only [embeddedStep?, hi, if_true]
    exact schedStep_isSome h
  -- A call of `Execute` is a step of the transport as well, its return is none that a goroutine
  -- outside of it can take, and the rest are internal.
  cases a with
  | call =>
      refine ⟨.call i, rfl, ?_⟩
      obtain ⟨e', he'⟩ := Option.isSome_iff_exists.mp (schedStep_isSome h)
      simp [embeddedStep?, callStep, hg, he']
  | ret res err =>
      obtain ⟨s, hs⟩ := Option.isSome_iff_exists.mp h
      obtain ⟨x, hx, ht⟩ := Option.bind_eq_some_iff.mp hs
      rw [hg] at hx
      cases hx
      cases taskStep_inv ht with
      | ret _ _ hexec => exact absurd hexec hpc
  | _ => exact hinternal rfl

/-- A call that is ready takes a step. Its goroutine is in `Execute` while it has not returned, so
its return is possible as well. -/
theorem exec_enabled {e : Embedded B} (hinv : TransportInv env e) {k : Nat} {c : ExecCall}
    (hc : e.execs[k]? = some c) (hlive : c.pc ≠ .returned) (hready : ExecReady e c) :
    ∃ b, movesCall k (some b) ∧ (env.embeddedStep? e b).isSome = true := by
  have hstep : ∀ b : ExecAction, b ≠ .expire → (env.execStep e k c b).isSome = true →
      ∃ b, movesCall k (some b) ∧ (env.embeddedStep? e b).isSome = true := fun b hb h =>
    ⟨.exec k b, ⟨b, hb, rfl⟩, by simpa [embeddedStep?, hc] using h⟩
  cases hpc : c.pc with
  | register => exact hstep .register (by simp) (by simp [execStep, hpc])
  | write => exact hstep (.write none) (by simp) (by simp [execStep, hpc])
  | select =>
      rcases hready hpc with hch | hended
      · obtain ⟨res, hres⟩ := Option.ne_none_iff_exists'.mp hch
        exact hstep .result (by simp) (by simp [execStep, hpc, hres])
      · exact hstep .ctxDone (by simp) (by simp only [execStep]; rw [if_pos ⟨hpc, hended⟩]; rfl)
  | unregister =>
      -- The goroutine of the call waits for its return.
      obtain ⟨⟨res, err⟩, hout⟩ := Option.ne_none_iff_exists'.mp
        ((hinv.each c (List.mem_of_getElem? hc)).settled.mpr (by simp [hpc, callRank]))
      obtain ⟨g, hg, hok⟩ := hinv.calls.ok c (List.mem_of_getElem? hc)
      have hret : (env.step? e.sched (.task c.go (.ret res err))).isSome = true := by
        simp [step?, hg, taskStep, (hok.live hlive).1]
      obtain ⟨e', he'⟩ := Option.isSome_iff_exists.mp (schedStep_isSome hret)
      exact hstep .return (by simp) (by simp [execStep, hpc, hout, he'])
  | returned => exact absurd hpc hlive

/-- The pump looks up what it read. -/
theorem lookup_enabled {e : Embedded B} {msg : InMsg} (hp : e.pump = .lookup msg) :
    (env.embeddedStep? e (.pump .lookup)).isSome = true := by
  cases hk : e.pending.get? msg.invocationID <;> simp [embeddedStep?, pumpStep, hp, hk]

/-- The pump sends what there is room for. -/
theorem deliver_enabled {e : Embedded B} (h : SendReady e) :
    (env.embeddedStep? e (.pump .deliver)).isSome = true := by
  obtain ⟨k, res, c, hp, hc, hch⟩ := h
  simp [embeddedStep?, pumpStep, hp, hc, hch]

/-- The steps of the pump exclude each other. -/
theorem pumps_only {e e' : Embedded B} {a : EmbeddedAction} (hs : env.embeddedStep? e a = some e')
    (ha : pumps a) :
    (∀ msg, e.pump = .lookup msg → a = .pump .lookup) ∧
      ∀ k res, e.pump = .deliver k res → a = .pump .deliver := by
  rcases ha with rfl | rfl | rfl
  · refine ⟨fun _ _ => rfl, fun k res hp => ?_⟩
    cases embedded_inv hs with
    | found _ _ hp' _ => cases hp.symm.trans hp'
    | unknown _ hp' _ => cases hp.symm.trans hp'
  · refine ⟨fun msg hp => ?_, fun _ _ _ => rfl⟩
    cases embedded_inv hs with
    | deliver _ _ _ hp' _ _ => cases hp.symm.trans hp'
  · refine ⟨fun msg hp => ?_, fun k res hp => ?_⟩ <;> cases embedded_inv hs with
    | check hp' => cases hp.symm.trans hp'

/-- The trace of a fair run is fair. What the trace asks for each of its parties is what the engine
has for them, since the steps are enabled in both at the same moments. -/
theorem fair_trace (hacc : Accepted env.wf) {e : env.embeddedSystem.Execution}
    (hfair : EmbeddedFair e) : (traceOf e).Fair := by
  have hinv : ∀ n, TransportInv env (e.state n) := (traceOf e).inv hacc
  -- The parties of a trace are the main goroutine, the task goroutines, the calls, and the pump at
  -- its lookup and at its send.
  refine ⟨hfair.limiter, fun n hen => ?_, fun i n hen => ?_, fun k n hen => ?_, fun n hen => ?_,
    fun n hen => ?_⟩
  · obtain ⟨m, hm, hlabel⟩ := hfair.main n fun m hm =>
      ⟨.sched .main, rfl, schedStep_isSome (a := .main) (hen m hm)⟩
    exact ⟨m, hm, congrArg some hlabel⟩
  · exact hfair.task i n fun m hm => by
      obtain ⟨g, a, hg, hpc, ha⟩ := hen m hm
      exact ownStep_enabled hg hpc ha
  · exact hfair.exec k n fun m hm => by
      obtain ⟨c, hc, hlive, hready⟩ := hen m hm
      exact exec_enabled (hinv m) hc hlive hready
  · obtain ⟨m, hm, hlabel⟩ := hfair.pump n fun m hm => by
      obtain ⟨msg, hp⟩ := hen m hm
      have hs : (env.embeddedStep? (e.state m) (.pump .lookup)).isSome = true := lookup_enabled hp
      exact ⟨.pump .lookup, .inl rfl, hs⟩
    obtain ⟨msg, hp⟩ := hen m hm
    exact ⟨m, hm, congrArg some ((pumps_only (e.next m) hlabel).1 msg hp)⟩
  · obtain ⟨m, hm, hlabel⟩ := hfair.pump n fun m hm => by
      have hs : (env.embeddedStep? (e.state m) (.pump .deliver)).isSome = true :=
        deliver_enabled (hen m hm)
      exact ⟨.pump .deliver, .inr (.inl rfl), hs⟩
    obtain ⟨k, res, c, hp, -⟩ := hen m hm
    exact ⟨m, hm, congrArg some ((pumps_only (e.next m) hlabel).2 k res hp)⟩

/-! ### The run -/

/-- Time passes. -/
theorem Over.tick {e e' : Embedded B} (h : Over e)
    (hs : env.embeddedStep? e (.sched (.tick 0)) = some e') : Over e' := by
  cases embedded_inv hs with
  | sched _ s ev _ hs =>
      cases hs
      exact ⟨h.report, h.gos, h.calls, h.pump⟩

/-- A run that is over is fair. A finite run that has come so far is continued with steps in which
only time passes. -/
theorem fair_of_over (e : env.embeddedSystem.Execution) {n : Nat}
    (h : ∀ m, n ≤ m → Over (e.state m)) : EmbeddedFair e := by
  have hstuck : ∀ {m : Nat} {a : EmbeddedAction}, n ≤ m →
      (env.embeddedSystem.step? (e.state m) a).isSome = true → Stuck (some a) := by
    intro m a hm ha
    obtain ⟨e', he'⟩ := Option.isSome_iff_exists.mp ha
    have hs : EmbeddedStep env (e.state m) a e' := embedded_inv he'
    exact (h m hm).stuck (.engine _ _ hs)
  -- Nobody can step behind the end, so there is nobody to be fair to, and no goroutine is in a
  -- limiter.
  refine ⟨fun m i g hg hlim => ?_, .of_end n fun m hm => ?_, fun i => .of_end n fun m hm => ?_,
    fun k => .of_end n fun m hm => ?_, .of_end n fun m hm => ?_⟩
  · have hsome : ((e.state (max m n)).sched.gos[i]?).isSome = true :=
      e.stays (P := fun s => (s.sched.gos[i]?).isSome = true) (fun s a s' _ hs ha => by
        have hstep : EmbeddedStep env s a s' := embedded_inv ha
        rcases hstep.sched_step with heq | ⟨b, hb⟩
        · rw [heq]
          exact hs
        · exact gos_persist hb hs) (le_max_left m n) (by simp [hg])
    obtain ⟨g', hg'⟩ := Option.isSome_iff_exists.mp hsome
    refine ⟨_, g', le_max_left m n, hg', ?_⟩
    rw [(h _ (le_max_right m n)).gos g' (List.mem_of_getElem? hg')]
    intro hst
    cases hp : g.pc <;> simp [hp, inLimiter, stage] at hlim hst
  · rintro ⟨a, rfl, hen⟩
    exact (hstuck hm hen).main rfl
  · rintro ⟨a, ha, hen⟩
    exact (hstuck hm hen).task i ha
  · rintro ⟨a, ha, hen⟩
    exact (hstuck hm hen).exec k ha
  · rintro ⟨a, rfl | rfl | rfl, hen⟩
    · exact (hstuck hm hen).lookup rfl
    · exact (hstuck hm hen).deliver rfl
    · exact (hstuck hm hen).check rfl

/-- The only task writes its line and gets its answer, and the run returns. -/
def answeredRun : List EmbeddedAction :=
  upToRegistered ++ [.exec 0 (.write none)] ++ answerOf "r-a-1" ++
    [.pump .check, .exec 0 .result, .exec 0 .return, .sched (.task 0 .send), .sched .main,
      .sched .main, .sched .main]

end Orchestrator.Proofs
