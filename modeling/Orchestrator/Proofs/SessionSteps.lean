import Orchestrator.Engine.GrpcSession
import Orchestrator.Proofs.Transport
import Orchestrator.Proofs.TransportsAgree

/-!
# `Orchestrator.Proofs.SessionSteps`: what one step of the gRPC handler can do

`SessionStep` lists the steps of the handler with their guards and effects, and `session_inv`
inverts the step function into the list.

`SessionStep.view` is the simulation. `view` forgets what is particular to gRPC: the events, the
handler's own goroutine and the messages that are no results. A step of the handler is then one of
the scheduler over a transport, and a run of the handler is a trace.

The view is taken to the state of the stdio transport because the calls of both go through the same
places. The receiving goroutine is shown as the pump (`RecvPc.view`), and the messages it has
received as the lines of their results (`resultLine`). Of the lines that were written only the
acceptance of the run is shown: no theorem about traces looks at the others, only at the calls that
have written them.

Everything that is proved for traces in `Transport` and `TransportLiveness` then holds for sessions.
-/

set_option autoImplicit false

namespace Orchestrator.Proofs

open Orchestrator.Lib Orchestrator.Engine Orchestrator.Engine.Env

variable {B : Type} {env : Env B}

/-! ### Steps -/

/-- The events that a step of the scheduler emits. -/
def newEvents (s : GrpcSession B) (t : State B) : List Event :=
  t.emitted.drop s.sched.emitted.length

/-- The handler after a step of the scheduler. Its new events go to the buffer as far as there is
room, and an event after the close is a panic. -/
def afterSched (s : GrpcSession B) (t : State B) : GrpcSession B :=
  { s with
      sched := t
      events := (s.events ++ newEvents s t).take 64
      crashed := s.crashed || (s.handler != .running && !(newEvents s t).isEmpty) }

/-- The steps of the handler from the state `s`, one constructor for each kind. Every invariant of
the session is proved over these (`session_inv`). -/
inductive SessionStep (env : Env B) (s : GrpcSession B) : GrpcAction → GrpcSession B → Prop
  | sched (a : Action) (t : State B) (hi : isInternal a = true)
      (hs : env.step? s.sched a = some t) : SessionStep env s (.sched a) (afterSched s t)
  | call (i : Nat) (g : Goroutine) (t : State B) (hg : s.sched.gos[i]? = some g)
      (hs : env.step? s.sched (.task i .call) = some t) :
      SessionStep env s (.call i)
        { afterSched s t with execs := s.execs ++ [newCall env i g] }
  | register (k : Nat) (c : ExecCall) (hc : s.execs[k]? = some c) (hpc : c.pc = .register) :
      SessionStep env s (.exec k .register)
        (putExec { s with pending := s.pending.set c.inv.invocationID k } k { c with pc := .write })
  | write (k : Nat) (c : ExecCall) (hc : s.execs[k]? = some c) (hpc : c.pc = .write) :
      SessionStep env s (.exec k (.write none))
        (putExec { s with sent := s.sent ++ [.skillInvocation c.inv.toProto] } k
          { c with pc := .select })
  | writeFail (k : Nat) (c : ExecCall) (err : String) (hc : s.execs[k]? = some c)
      (hpc : c.pc = .write) :
      SessionStep env s (.exec k (.write (some err)))
        (putExec s k { c with pc := .unregister, outcome := some ({}, some err) })
  | expire (k : Nat) (c : ExecCall) (hc : s.execs[k]? = some c) (hpc : c.pc ≠ .returned)
      (ht : env.callHasTimeout s.sched c = true) (hrun : s.sched.cancelled = false) :
      SessionStep env s (.exec k .expire) (putExec s k { c with expired := true })
  | ctxDone (k : Nat) (c : ExecCall) (hc : s.execs[k]? = some c) (hpc : c.pc = .select)
      (hdone : c.expired = true ∨ s.sched.cancelled = true) :
      SessionStep env s (.exec k .ctxDone)
        (putExec s k { c with pc := .unregister, outcome := some ({}, some (sessionCtxErr s c)) })
  | result (k : Nat) (c : ExecCall) (res : Result) (hc : s.execs[k]? = some c)
      (hpc : c.pc = .select) (hch : c.ch = some res) :
      SessionStep env s (.exec k .result)
        (putExec s k { c with pc := .unregister, ch := none, outcome := some (res, none) })
  | return (k : Nat) (c : ExecCall) (res : Result) (err : Option String) (t : State B)
      (hc : s.execs[k]? = some c) (hpc : c.pc = .unregister) (hout : c.outcome = some (res, err))
      (hs : env.step? s.sched (.task c.go (.ret res err)) = some t) :
      SessionStep env s (.exec k .return)
        (putExec { afterSched s t with pending := s.pending.erase c.inv.invocationID } k
          { c with pc := .returned })
  | skillResult (sr : Pb.SkillResult) (hr : s.recv = .recv) :
      SessionStep env s (.recv (.message (.skillResult sr)))
        { s with received := s.received ++ [.skillResult sr], recv := .dispatch sr }
  | cancelRun (c : Pb.CancelRunRequest) (t : State B) (hr : s.recv = .recv)
      (hs : env.step? s.sched .cancel = some t) :
      SessionStep env s (.recv (.message (.cancel c)))
        (afterSched { s with received := s.received ++ [.cancel c] } t)
  | otherMessage (m : Pb.ClientMessage) (hr : s.recv = .recv) (hres : ∀ sr, m ≠ .skillResult sr)
      (hcancel : ∀ c, m ≠ .cancel c) :
      SessionStep env s (.recv (.message m)) { s with received := s.received ++ [m] }
  | recvError (t : State B) (hr : s.recv = .recv) (hs : env.step? s.sched .cancel = some t) :
      SessionStep env s (.recv .error) { afterSched s t with recv := .stopped }
  | found (sr : Pb.SkillResult) (k : Nat) (hr : s.recv = .dispatch sr)
      (hk : s.pending.get? sr.invocationID = some k) :
      SessionStep env s (.recv .dispatch) { s with recv := .deliver k sr.toResult }
  | unknown (sr : Pb.SkillResult) (hr : s.recv = .dispatch sr)
      (hk : s.pending.get? sr.invocationID = none) :
      SessionStep env s (.recv .dispatch) { s with recv := .recv }
  | deliver (k : Nat) (res : Result) (c : ExecCall) (hr : s.recv = .deliver k res)
      (hc : s.execs[k]? = some c) (hch : c.ch = none) :
      SessionStep env s (.recv .deliver)
        (putExec { s with recv := .recv } k
          { c with ch := some res, handed := c.handed ++ [res] })
  | hangUp (deadline : Bool) (t : State B) (hs : env.step? s.sched .cancel = some t) :
      SessionStep env s (.hangUp deadline)
        (afterSched { s with timedOut := s.timedOut || (deadline && !s.sched.cancelled) } t)
  | takeEvent (ev : Event) (rest : List Event) (hh : s.held = none) (he : s.events = ev :: rest) :
      SessionStep env s .takeEvent { s with held := some ev, events := rest }
  | sendEvent (ok : Bool) (ev : Event) (hh : s.held = some ev) :
      SessionStep env s (.sendEvent ok)
        { s with held := none, sent := if ok then s.sent ++ [.event ev.toProto] else s.sent }
  | close (hrun : s.handler = .running) (hrep : s.sched.report?.isSome = true) :
      SessionStep env s .close { s with handler := .closed }
  | finish (rep : Report) (err : Option String) (t : State B) (hrep : s.sched.report? = some rep)
      (hclosed : s.handler = .closed) (hs : env.step? s.sched .cancel = some t) :
      SessionStep env s (.finish err)
        { afterSched s t with
            handler := .returned err
            sent := if err = none then s.sent ++ [.report (reportToProto env.lib rep)] else s.sent }

/-- A step of the scheduler inside the handler. -/
theorem sessionSchedStep_inv {s s' : GrpcSession B} {a : Action}
    (h : env.sessionSchedStep s a = some s') :
    ∃ t, env.step? s.sched a = some t ∧ s' = afterSched s t := by
  obtain ⟨t, ht, h⟩ := Option.bind_eq_some_iff.mp h
  cases h
  exact ⟨t, ht, rfl⟩

/-- Inversion of a step of `Execute`. -/
theorem sessionExecStep_inv {s s' : GrpcSession B} {k : Nat} {c : ExecCall} {a : ExecAction}
    (hc : s.execs[k]? = some c) (h : env.sessionExecStep s k c a = some s') :
    SessionStep env s (.exec k a) s' := by
  cases a with
  | register =>
      obtain ⟨hpc, h⟩ := Option.ite_none_right_eq_some.mp h
      cases h
      exact .register k c hc hpc
  | write err =>
      cases err with
      | none =>
          obtain ⟨hpc, h⟩ := Option.ite_none_right_eq_some.mp h
          cases h
          exact .write k c hc hpc
      | some err =>
          obtain ⟨hpc, h⟩ := Option.ite_none_right_eq_some.mp h
          cases h
          exact .writeFail k c err hc hpc
  | expire =>
      obtain ⟨⟨hpc, ht, hrun⟩, h⟩ := Option.ite_none_right_eq_some.mp h
      cases h
      exact .expire k c hc hpc ht hrun
  | ctxDone =>
      obtain ⟨⟨hpc, hdone⟩, h⟩ := Option.ite_none_right_eq_some.mp h
      cases h
      exact .ctxDone k c hc hpc hdone
  -- The result is taken out of the channel of the call, which has to hold one.
  | result =>
      simp only [sessionExecStep] at h
      split at h
      · rename_i res hch
        obtain ⟨hpc, h⟩ := Option.ite_none_right_eq_some.mp h
        cases h
        exact .result k c res hc hpc hch
      · cases h
  | «return» =>
      simp only [sessionExecStep] at h
      split at h
      · rename_i res err hout
        obtain ⟨hpc, h⟩ := Option.ite_none_right_eq_some.mp h
        obtain ⟨s₁, h₁, h⟩ := Option.bind_eq_some_iff.mp h
        obtain ⟨t, ht, rfl⟩ := sessionSchedStep_inv h₁
        cases h
        exact .return k c res err t hc hpc hout ht
      · cases h

/-- Inversion of a step of the receiving goroutine. -/
theorem recvStep_inv {s s' : GrpcSession B} {a : RecvAction} (h : env.recvStep s a = some s') :
    SessionStep env s (.recv a) s' := by
  cases a with
  | message m =>
      simp only [recvStep] at h
      split at h
      · rename_i hr
        -- The client sends messages of four kinds. Two of them are ignored in a session that has
        -- begun.
        cases m with
        | skillResult sr =>
            cases h
            exact .skillResult sr hr
        | cancel c =>
            obtain ⟨t, ht, rfl⟩ := sessionSchedStep_inv h
            exact .cancelRun c t hr ht
        | startRun st =>
            cases h
            exact .otherMessage _ hr (by simp) (by simp)
        | unset =>
            cases h
            exact .otherMessage _ hr (by simp) (by simp)
      · cases h
  | error =>
      simp only [recvStep] at h
      split at h
      · rename_i hr
        obtain ⟨s₁, h₁, h⟩ := Option.bind_eq_some_iff.mp h
        obtain ⟨t, ht, rfl⟩ := sessionSchedStep_inv h₁
        cases h
        exact .recvError t hr ht
      · cases h
  | dispatch =>
      simp only [recvStep] at h
      split at h
      · rename_i sr hr
        cases hk : s.pending.get? sr.invocationID with
        | some k =>
            simp only [Pb.SkillResult.dispatch, hk] at h
            cases h
            exact .found sr k hr hk
        | none =>
            simp only [Pb.SkillResult.dispatch, hk] at h
            cases h
            exact .unknown sr hr hk
      · cases h
  | deliver =>
      simp only [recvStep] at h
      split at h
      · rename_i k res hr
        split at h
        · rename_i c hc
          obtain ⟨hch, h⟩ := Option.ite_none_right_eq_some.mp h
          cases h
          exact .deliver k res c hr hc hch
        · cases h
      · cases h

/-- Inversion of `grpcStep?`. -/
theorem session_inv {s s' : GrpcSession B} {a : GrpcAction}
    (h : env.grpcStep? s a = some s') : SessionStep env s a s' := by
  cases a with
  | sched a =>
      obtain ⟨hi, h⟩ := Option.ite_none_right_eq_some.mp h
      obtain ⟨t, ht, rfl⟩ := sessionSchedStep_inv h
      exact .sched a t hi ht
  | call i =>
      obtain ⟨g, hg, h⟩ := Option.bind_eq_some_iff.mp h
      obtain ⟨s₁, h₁, h⟩ := Option.bind_eq_some_iff.mp h
      obtain ⟨t, ht, rfl⟩ := sessionSchedStep_inv h₁
      cases h
      exact .call i g t hg ht
  -- The steps of a call and of the receiver have lemmas of their own.
  | exec k a =>
      obtain ⟨c, hc, h⟩ := Option.bind_eq_some_iff.mp h
      exact sessionExecStep_inv hc h
  | recv a => exact recvStep_inv h
  | hangUp d =>
      obtain ⟨t, ht, rfl⟩ := sessionSchedStep_inv h
      exact .hangUp d t ht
  | takeEvent =>
      simp only [grpcStep?] at h
      split at h
      · rename_i ev rest hh he
        cases h
        exact .takeEvent ev rest hh he
      · cases h
  | sendEvent ok =>
      simp only [grpcStep?] at h
      split at h
      · rename_i ev hh
        cases h
        exact .sendEvent ok ev hh
      · cases h
  | close =>
      obtain ⟨⟨hrun, hrep⟩, h⟩ := Option.ite_none_right_eq_some.mp h
      cases h
      exact .close hrun hrep
  | finish err =>
      simp only [grpcStep?] at h
      split at h
      · rename_i rep hrep
        obtain ⟨hclosed, h⟩ := Option.ite_none_right_eq_some.mp h
        rw [finishStep] at h
        obtain ⟨s₁, h₁, h⟩ := Option.bind_eq_some_iff.mp h
        obtain ⟨t, ht, rfl⟩ := sessionSchedStep_inv h₁
        cases h
        exact .finish rep err t hrep hclosed ht
      · cases h

/-! ### The transport inside the handler -/

/-- Where the pump would be. The receiving goroutine has the places of the pump, except that it
never checks for a cancelled run. -/
def RecvPc.view : RecvPc → PumpPc
  | .recv => .scan
  | .dispatch sr => .lookup (toStdio (.skillResult sr))
  | .deliver k res => .deliver k res
  | .stopped => .stopped

/-- The line of a result. -/
def resultLine : Pb.ClientMessage → Option InMsg
  | .skillResult sr => some (toStdio (.skillResult sr))
  | _ => none

/-- The scheduler and the calls, as the stdio transport has them. What the two transports do not
share is left out: the lines, the events and the handler. -/
def view (env : Env B) (s : GrpcSession B) : Embedded B where
  sched := s.sched
  cancelled := false
  events := []
  pending := s.pending
  execs := s.execs
  pump := RecvPc.view s.recv
  stdout := [runAcceptedMsg env.runID]
  read := s.received.filterMap resultLine

/-- What a step is to the scheduler over a transport. Steps of the handler and of the event
goroutine are none. -/
def transportLabel : GrpcAction → Option EmbeddedAction
  | .sched a => some (.sched a)
  | .call i => some (.call i)
  | .exec k a => some (.exec k a)
  | .recv (.message m) => (resultLine m).map fun line => .pump (.line (some line))
  | .recv .dispatch => some (.pump .lookup)
  | .recv .deliver => some (.pump .deliver)
  | _ => none

/-- A step of the handler is one of the scheduler over a transport. -/
theorem SessionStep.view {s s' : GrpcSession B} {a : GrpcAction} (h : SessionStep env s a s') :
    TransportStep env (view env s) (transportLabel a) (view env s') := by
  cases h with
  | sched a t hi hs => exact .engine _ _ (.sched a t [] hi hs)
  | call i g t hg hs => exact .engine _ _ (.call i g t [] hg hs)
  | register k c hc hpc => exact .engine _ _ (.register k c hc hpc)
  | write k c hc hpc => exact .write k c hc hpc
  | writeFail k c err hc hpc => exact .writeFail k c err hc hpc
  | expire k c hc hpc ht hrun => exact .engine _ _ (.expire k c hc hpc ht hrun)
  | ctxDone k c hc hpc hdone => exact .ctxDone k c _ hc hpc hdone
  | result k c res hc hpc hch => exact .engine _ _ (.result k c res hc hpc hch)
  | «return» k c res err t hc hpc hout hs =>
      exact .engine _ _ (.return k c res err t [] hc hpc hout hs)
  -- The receiver of a session has no framing, so its messages are seen as lines that were read
  -- already.
  | skillResult sr hr =>
      have hview : Proofs.view env { s with
          received := s.received ++ [.skillResult sr], recv := .dispatch sr }
          = { Proofs.view env s with
              read := (Proofs.view env s).read ++ [toStdio (.skillResult sr)]
              pump := .lookup (toStdio (.skillResult sr)) } := by
        simp [Proofs.view, RecvPc.view, resultLine]
      rw [hview]
      exact .engine _ _ (.readResult _ (by simp [Proofs.view, RecvPc.view, hr]) rfl)
  -- A cancel of the client reaches the scheduler at once.
  | cancelRun c t hr hs =>
      have hview : Proofs.view env (afterSched { s with received := s.received ++ [.cancel c] } t)
          = { Proofs.view env s with sched := t, pump := (Proofs.view env s).pump } := by
        simp [Proofs.view, afterSched, resultLine]
      rw [hview]
      exact .cancel t _ hs (.inl rfl)
  | otherMessage m hr hres hcancel =>
      have hnone : resultLine m = none := by
        cases m with
        | skillResult sr => exact absurd rfl (hres sr)
        | _ => rfl
      have hview : Proofs.view env { s with received := s.received ++ [m] } =
        Proofs.view env s := by
        simp [Proofs.view, hnone]
      rw [hview, transportLabel, hnone]
      exact .idle
  | recvError t hr hs => exact .cancel t _ hs (.inr ⟨by simp [Proofs.view, RecvPc.view, hr], rfl⟩)
  | found sr k hr hk =>
      exact .engine _ _ (.found (toStdio (.skillResult sr)) k
        (by simp [Proofs.view, RecvPc.view, hr]) hk)
  | unknown sr hr hk =>
      exact .engine _ _ (.unknown (toStdio (.skillResult sr))
        (by simp [Proofs.view, RecvPc.view, hr]) hk)
  | deliver k res c hr hc hch =>
      exact .deliver k res c (by simp [Proofs.view, RecvPc.view, hr]) hc hch rfl
  | hangUp d t hs => exact .cancel t _ hs (.inl rfl)
  | finish rep err t _ _ hs => exact .cancel t _ hs (.inl rfl)
  | takeEvent | sendEvent | close => exact .idle

end Orchestrator.Proofs
