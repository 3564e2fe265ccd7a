import Orchestrator.Proofs.SessionSafety

/-!
# `Orchestrator.Proofs.SessionCorrelation`: over gRPC, too, results find their calls

`SessionCorrelated` is `Correlated` for the gRPC handler. The table, the ids and the counts come
from the transport inside it (`view`). What is particular to gRPC is why a call can lose a result it
was handed: its context ended, or its invocation was never sent (`FailsOnly`). The texts of errors
do not tell the two apart here, so the messages sent do.

The handler writes no lines and reads none, but the receiving goroutine goes through the places of
the pump, and a result message says what a line would say (`resultLine`). So a session is a trace of
the scheduler over a transport, and the invariants of `Correlation` hold in it. That the client
answers no id twice is the same condition on both sides (`answersOnce_view`).

The statement covers a result that arrives too early, before its call has registered, and one that
arrives too late. Both are dropped, and neither is handed to another call.
-/

set_option autoImplicit false

namespace Orchestrator.Proofs

open Orchestrator.Lib Orchestrator.Engine Orchestrator.Engine.Env

variable {B : Type} {env : Env B}

/-- The condition on a client: it answers no id a second time. It is checked when a message is
received, against all those received before. -/
def AnsweredIDOnce (s : GrpcSession B) : GrpcAction → Prop
  | .recv (.message (.skillResult sr)) =>
    ∀ r, Pb.ClientMessage.skillResult r ∈ s.received → r.invocationID ≠ sr.invocationID
  | _ => True

/-- The results received are the answers read. -/
theorem mem_answers_view {s : GrpcSession B} {msg : InMsg} :
    msg ∈ answers (view env s) ↔ ∃ sr, Pb.ClientMessage.skillResult sr ∈ s.received ∧
      msg = toStdio (.skillResult sr) := by
  simp only [answers, view, List.mem_filter, List.mem_filterMap]
  constructor
  · rintro ⟨⟨m, hm, hline⟩, -⟩
    cases m with
    | skillResult sr => exact ⟨sr, hm, (Option.some.inj hline).symm⟩
    | _ => cases hline
  · rintro ⟨sr, hsr, rfl⟩
    exact ⟨⟨_, hsr, rfl⟩, rfl⟩

/-- A client that answers no id twice does not do so on the transport inside. -/
theorem answersOnce_view {s : GrpcSession B} {a : GrpcAction} (h : AnsweredIDOnce s a) :
    AnswersOnce (view env s) (transportLabel a) := by
  intro b hb
  -- Of the steps of the session only a result from the client reads an answer.
  cases a with
  | recv a =>
      cases a with
      | message m =>
          cases m with
          | skillResult sr =>
              cases hb
              intro _ msg hmsg
              obtain ⟨r, hr, rfl⟩ := mem_answers_view.mp hmsg
              exact h r hr
          | _ => cases hb
      | dispatch | deliver =>
          cases hb
          exact trivial
      | error => cases hb
  | exec k a | sched a | call i =>
      cases hb
      exact trivial
  | _ => cases hb

/-- No answer is counted twice when the client answers no id twice. -/
theorem reachable_once_view (hacc : Accepted env.wf) {s : GrpcSession B}
    (h : env.grpcSystem.ReachableBy AnsweredIDOnce s) : Once (view env s) := by
  have hinit : Once (view env env.sessionInitial) := Once.init
  refine h.holds (Q := fun s => Once (view env s)) hinit fun s a s' hr honce hP ha => ?_
  have hs : SessionStep env s a s' := session_inv ha
  exact hs.view.once (reachable_handlerInv hacc hr).transport.wired (answersOnce_view hP) honce

/-! ### Failed calls -/

/-- A call fails when its context has ended, or its invocation was not sent. -/
def FailsOnly (env : Env B) (s : GrpcSession B) : Prop :=
  ∀ c ∈ s.execs, ∀ res err, c.outcome = some (res, some err) →
    CtxEnded (view env s) c ∨ c.inv.invocationID ∉ s.sent.filterMap sentID

/-- A step keeps `FailsOnly`. -/
theorem FailsOnly.step (hacc : Accepted env.wf) {s s' : GrpcSession B} {a : GrpcAction}
    (hinv : HandlerInv env s) (ho : Orderly env s) (hs : SessionStep env s a s')
    (h : FailsOnly env s) : FailsOnly env s' := by
  intro c' hc' res err hout
  obtain ⟨k, hk⟩ := List.mem_iff_getElem?.mp hc'
  have hinv' := hinv.step hacc hs
  have hsettled' := (hinv'.transport.each c' hc').settled.mp (by simp [hout])
  by_cases hlt : k < s.execs.length
  · have hc : s.execs[k]? = some s.execs[k] := List.getElem?_eq_getElem hlt
    obtain ⟨d, hd, hmove⟩ := hs.view.callMove (show (view env s).execs[k]? = some _ from hc)
    have hk' : (view env s').execs[k]? = some c' := hk
    rw [hk'] at hd
    cases hd
    -- What is sent now is the invocation of another call: this one is through.
    have hunsent : s.execs[k].inv.invocationID ∉ s.sent.filterMap sentID →
        c'.inv.invocationID ∉ s'.sent.filterMap sentID := by
      intro hno
      rcases sentIDs_step hs with heq | ⟨j, d, d', -, -, hd', hdinv, hdpc, heq⟩
      · rw [heq, hmove.inv]
        exact hno
      · rw [heq]
        intro hmem
        rcases List.mem_append.mp hmem with hmem | hmem
        · rw [hmove.inv] at hmem
          exact hno hmem
        · rw [List.mem_singleton, ← hdinv] at hmem
          obtain rfl := hinv'.transport.uniqueIds hacc k j c' d' hk hd' hmem
          rw [hk] at hd'
          cases hd'
          simp [hdpc, callRank] at hsettled'
    rcases hmove.fails res err hout with hold | hwrite | hended
    · rcases h _ (List.getElem_mem hlt) res err hold with hended | hno
      · exact .inl (hended.step hs.view hmove)
      · exact .inr (hunsent hno)
    · refine .inr (hunsent fun hmem => ?_)
      obtain ⟨d, hd, hdid, hrank⟩ := ho.callers _ hmem
      obtain ⟨j, hj⟩ := List.mem_iff_getElem?.mp hd
      obtain rfl := hinv.transport.uniqueIds hacc j k d _ hj hc hdid
      rw [hc] at hj
      cases hj
      simp [hwrite, callRank] at hrank
    · exact .inl (hended.step hs.view hmove)
  · have hnew := (hs.view.new_call (show (view env s).execs.length ≤ k by simpa [view] using hlt)
      (show (view env s').execs[k]? = some c' from hk)).1
    simp [hnew, callRank] at hsettled'

/-! ### Correlation -/

/-- What the handler promises about the results of the client. It is the promise of the other
transport, stated of the handler's own table and messages. -/
structure SessionCorrelated (env : Env B) (s : GrpcSession B) : Prop where
  /-- No two calls have one id, live or not. -/
  ids : ∀ (j k : Nat) (c d : ExecCall), s.execs[j]? = some c → s.execs[k]? = some d →
    c.inv.invocationID = d.inv.invocationID → j = k
  /-- A call returns a result only of a `SkillResult` with its own id. -/
  own : ∀ c ∈ s.execs, ∀ res, c.outcome = some (res, none) →
    ∃ sr, Pb.ClientMessage.skillResult sr ∈ s.received ∧
      sr.invocationID = c.inv.invocationID ∧ res = sr.toResult
  /-- The lookup for a `SkillResult` finds the registered call with its id. -/
  looked_up : ∀ sr k c, s.recv = .dispatch sr → s.execs[k]? = some c → registered c = true →
    c.inv.invocationID = sr.invocationID →
    env.grpcStep? s (.recv .dispatch) = some { s with recv := .deliver k sr.toResult }
  /-- The send does not block. It puts the result into the channel of the call with its id, and
  leaves every other call alone. -/
  handed_over : ∀ k res, s.recv = .deliver k res →
    ∃ c, s.execs[k]? = some c ∧ c.inv.invocationID = res.invocationID ∧
      env.grpcStep? s (.recv .deliver) =
        some { s with
          recv := .recv
          execs := s.execs.set k { c with ch := some res, handed := c.handed ++ [res] } }
  /-- A call that was handed a result returns it, unless its context ended or its invocation was
  never sent. -/
  returned : ∀ c ∈ s.execs, c.pc = .returned → ∀ res ∈ c.handed,
    c.outcome = some (res, none) ∨ c.expired = true ∨ s.sched.cancelled = true ∨
      c.inv.invocationID ∉ s.sent.filterMap sentID
  /-- A `SkillResult` for a call that has returned is dropped. -/
  late : ∀ sr, ∀ c ∈ s.execs, s.recv = .dispatch sr → c.pc = .returned →
    c.inv.invocationID = sr.invocationID →
    env.grpcStep? s (.recv .dispatch) = some { s with recv := .recv }

/-- Every state of a session whose client answers no id twice is `SessionCorrelated`.

A session is seen as a transport (`view`), in which the messages of its stream are lines. The
invariants about the table, the channels and the ids are those of the transport, so nothing about
the calls is proved a second time. What is new is how a message of the stream becomes a step of the
transport. -/
theorem session_correlated (env : Env B) (iter : MapOrder) (hval : env.wf.validate iter = .ok ())
    {s : GrpcSession B} (h : env.grpcSystem.ReachableBy AnsweredIDOnce s) :
    SessionCorrelated env s := by
  have hacc := accepted_of_validate hval
  have hinv := reachable_handlerInv hacc h.reachable
  have honce := reachable_once_view hacc h
  have htable := hinv.transport.wired.table
  have huniq : ∀ (j k : Nat) (c d : ExecCall), s.execs[j]? = some c → s.execs[k]? = some d →
      c.inv.invocationID = d.inv.invocationID → j = k := hinv.transport.uniqueIds hacc
  refine ⟨huniq, fun c hc res hout => ?_, fun sr k c hp hc hreg hid => ?_, fun k res hp => ?_,
    fun c hc hpc res hres => ?_, fun sr c hc hp hpc hid => ?_⟩
  · have hres := (hinv.transport.each c hc).result res hout
    obtain ⟨hid, msg, hmsg, rfl⟩ := hinv.transport.wired.handed c hc res hres
    obtain ⟨sr, hsr, rfl⟩ := mem_answers_view.mp hmsg
    exact ⟨sr, hsr, hid, rfl⟩
  · have hk : s.pending.get? sr.invocationID = some k := (htable _ _).mpr ⟨c, hc, hreg, hid⟩
    simp [grpcStep?, recvStep, hp, Pb.SkillResult.dispatch, hk]
  · have hp' : (view env s).pump = .deliver k res := by simp [view, hp, RecvPc.view]
    obtain ⟨⟨c, hc, hid⟩, -⟩ := hinv.transport.wired.deliver k res hp'
    have hc' : s.execs[k]? = some c := hc
    refine ⟨c, hc', hid.symm, ?_⟩
    simp [grpcStep?, recvStep, hp, hc', honce.room hinv.transport hp' hc, putExec]
  · have hout := (hinv.transport.each c hc).settled.mpr (by simp [hpc, callRank])
    obtain ⟨⟨r, err⟩, hout⟩ := Option.ne_none_iff_exists'.mp hout
    cases err with
    | none =>
        -- The call was handed one result, so `r` is the one.
        left
        have hr := (hinv.transport.each c hc).result r hout
        have hle := (honce.calls c hc).trans (honce.read _)
        obtain ⟨x, hx⟩ := List.length_eq_one_iff.mp
          (show c.handed.length = 1 by have := List.length_pos_of_mem hr; omega)
        rw [hx, List.mem_singleton] at hr hres
        rw [hout, hr, hres]
    | some err =>
        have hfails : FailsOnly env s := h.reachable.holds (P := fun s => FailsOnly env s)
          (fun _ hc => by cases hc) fun s a s' hr hf ha =>
            FailsOnly.step hacc (reachable_handlerInv hacc hr) (reachable_orderly hacc hr)
              (session_inv ha) hf
        rcases hfails c hc r err hout with (hexp | hcancel) | hno
        · exact .inr (.inl hexp)
        · exact .inr (.inr (.inl hcancel))
        · exact .inr (.inr (.inr hno))
  · -- The call with this id has left the table, and no other has the id.
    have hnone : s.pending.get? sr.invocationID = none := by
      cases hk : s.pending.get? sr.invocationID with
      | none => rfl
      | some k =>
          obtain ⟨d, hd, hreg, hid'⟩ := (htable _ _).mp hk
          obtain ⟨j, hj⟩ := List.mem_iff_getElem?.mp hc
          have hjk := huniq j k c d hj hd (by rw [hid, hid'])
          subst hjk
          have hd' : s.execs[j]? = some d := hd
          rw [hj] at hd'
          cases hd'
          simp [registered, hpc] at hreg
    simp [grpcStep?, recvStep, hp, Pb.SkillResult.dispatch, hnone]

/-- The id was not answered before. This is `AnsweredIDOnce` as a test that a sample run can be put
to. -/
def answersIDOnce (s : GrpcSession B) : GrpcAction → Bool
  | .recv (.message (.skillResult sr)) => s.received.all fun m =>
    match m with
    | .skillResult r => r.invocationID != sr.invocationID
    | _ => true
  | _ => true

/-- The check decides the condition on a message that is received. -/
theorem answeredIDOnce_of_check (s : GrpcSession B) (a : GrpcAction)
    (h : answersIDOnce s a = true) : AnsweredIDOnce s a := by
  unfold answersIDOnce at h
  unfold AnsweredIDOnce
  split at h
  · intro r hr
    simpa using List.all_eq_true.mp h _ hr
  · trivial

/-- A result that arrives in time is returned. -/
theorem session_correlated_loneContinue :
    ∃ s : GrpcSession Unit, (∃ c ∈ s.execs, c.pc = .returned ∧ c.handed.length = 1) ∧
      SessionCorrelated loneContinue s := by
  have hrun : ((loneContinue.grpcSystem.guard answersIDOnce).run? sessionToReturn).any
      (fun s => s.execs.any (fun c => c.pc = .returned ∧ c.handed.length = 1)) = true := by
    decide +kernel
  obtain ⟨s, hs, hp⟩ := System.exists_of_run hrun
  obtain ⟨c, hc, hcp⟩ := List.any_eq_true.mp hp
  exact ⟨s, ⟨c, hc, of_decide_eq_true hcp⟩, session_correlated loneContinue .insertion (by rfl)
    (System.ReachableBy.of_guard answeredIDOnce_of_check hs)⟩

end Orchestrator.Proofs
