import Orchestrator.Proofs.ReportLast
import Orchestrator.Proofs.SessionSteps

/-!
# `Orchestrator.Proofs.SessionSafety`: what a client sees of a run over gRPC

`StreamOrder` is what the stream of a handler looks like at any moment: the acceptance of the run,
then invocations and events, then at most one report, and behind it nothing but events. `Orderly`
adds what the messages say, and that no event is sent on a closed channel. It holds in every
reachable state (`session_orderly`), whatever the client sends.

The report comes last only if the event goroutine is through before it. `events` keeps the order of
what was emitted, with what did not fit into the buffer left out: the events that were sent, that
are about to be sent and that wait are, in this order, a part of those that the scheduler emitted.

No invocation comes behind the report, since a call that has not returned keeps the report away
(`HandlerInv.no_report`), and a call sends its message before it returns. That none is sent twice
follows from the ids, which no two calls share.

An event on a closed channel would be a panic. It cannot happen, since `events` is closed behind
`sched.Run`, and behind that nothing is emitted (`crashed_step`).
-/

set_option autoImplicit false

namespace Orchestrator.Proofs

open Orchestrator.Lib Orchestrator.Engine Orchestrator.Engine.Env

variable {B : Type} {env : Env B}

/-! ### The messages sent -/

/-- The id of an invocation that is sent. -/
def sentID : Pb.EngineMessage → Option String
  | .skillInvocation inv => some inv.invocationID
  | _ => none

/-- An event that is sent. -/
def sentEvent : Pb.EngineMessage → Option Pb.Event
  | .event e => some e
  | _ => none

/-- The stream so far: the acceptance, then invocations and events, and the report with the events
that came late behind it. -/
structure StreamOrder (env : Env B) (s : GrpcSession B) (calls late : List Pb.EngineMessage) :
    Prop where
  sent : s.sent = .runAccepted { runID := env.runID } :: (calls ++ late)
  calls : ∀ m ∈ calls, sentID m ≠ none ∨ sentEvent m ≠ none
  unreported : s.handler ≠ .returned none → late = []
  /-- The report of the run is there exactly once the handler has returned without an error. -/
  reported : s.handler = .returned none → ∃ rep events, s.sched.report? = some rep ∧
    late = .report (reportToProto env.lib rep) :: events ∧ ∀ m ∈ events, sentEvent m ≠ none

/-- The events that are sent, about to be sent or waiting. -/
def eventsLeft (s : GrpcSession B) : List Pb.Event :=
  s.sent.filterMap sentEvent ++ (s.held.toList ++ s.events).map Event.toProto

/-- What a client can rely on while it reads the stream of a session. -/
structure Orderly (env : Env B) (s : GrpcSession B) : Prop where
  stream : ∃ calls late, StreamOrder env s calls late
  /-- The events come in the order in which the scheduler emitted them, and none comes twice. -/
  events : (eventsLeft s).Sublist (s.sched.emitted.map Event.toProto)
  /-- No invocation is sent twice. -/
  invocations : (s.sent.filterMap sentID).Nodup
  /-- Each is sent by a call that waits for its result, or has done so. -/
  callers : ∀ id ∈ s.sent.filterMap sentID,
    ∃ c ∈ s.execs, c.inv.invocationID = id ∧ 2 ≤ callRank c.pc
  /-- Nothing is sent on `events` after it is closed. -/
  crashed : s.crashed = false

/-! ### The scheduler inside the handler -/

/-- The scheduler emits events one behind the other. -/
theorem emitted_grows {s s' : State B} {a : Action} (h : env.step? s a = some s') :
    ∃ new, s'.emitted = s.emitted ++ new := by
  rcases step_inv h with ⟨-, hm⟩ | ⟨i, b, g, -, hg, ht⟩ | ⟨-, rfl⟩ | ⟨d, -, rfl⟩
  · cases hm with
    | dispatch | receive | drained => exact ⟨_, rfl⟩
    | _ => exact ⟨[], (List.append_nil _).symm⟩
  · exact ⟨[], by cases ht <;> exact (List.append_nil _).symm⟩
  · exact ⟨[], (List.append_nil _).symm⟩
  · exact ⟨[], (List.append_nil _).symm⟩

/-- What holds of a handler whatever it has sent: its calls are those of a transport, and behind
`sched.Run` the report is there. -/
structure HandlerInv (env : Env B) (s : GrpcSession B) : Prop where
  transport : TransportInv env (view env s)
  /-- Behind `sched.Run` the report is there. -/
  returned : s.handler ≠ .running → s.sched.report?.isSome = true

/-- The report stays as it is. -/
theorem report_stays {s s' : State B} {a : Action} (h : env.step? s a = some s') {rep : Report}
    (hrep : s.report? = some rep) : s'.report? = some rep := by
  rw [State.report?, (step_returned hrep h).1]
  exact hrep

/-- A step keeps the invariant. -/
theorem HandlerInv.step (hacc : Accepted env.wf) {s s' : GrpcSession B} {a : GrpcAction}
    (h : HandlerInv env s) (hs : SessionStep env s a s') : HandlerInv env s' := by
  refine ⟨h.transport.step hacc hs.view, ?_⟩
  -- A report stays, so a handler that has left its loop stays behind one.
  have hsched : ∀ {b : Action} {t : State B}, env.step? s.sched b = some t →
      s.handler ≠ .running → t.report?.isSome = true := by
    intro b t hb hne
    obtain ⟨rep, hrep⟩ := Option.isSome_iff_exists.mp (h.returned hne)
    rw [report_stays hb hrep]
    rfl
  cases hs with
  | sched a t _ hs => exact hsched hs
  | call i g t _ hs => exact hsched hs
  | «return» k c res err t _ _ _ hs => exact hsched hs
  | cancelRun c t _ hs => exact hsched hs
  | recvError t _ hs => exact hsched hs
  | hangUp d t hs => exact hsched hs
  | close _ hrep => exact fun _ => hrep
  | finish rep err t hrep _ hs =>
      intro _
      show t.report?.isSome = true
      rw [report_stays hs hrep]
      rfl
  | _ => exact h.returned

/-- The invariant holds in every reachable state. -/
theorem reachable_handlerInv (hacc : Accepted env.wf) {s : GrpcSession B}
    (h : env.grpcSystem.Reachable s) : HandlerInv env s :=
  h.holds (P := HandlerInv env) ⟨.init, fun hne => absurd rfl hne⟩ fun _ _ _ _ hinv ha =>
    hinv.step hacc (session_inv ha)

/-- A call that has not returned keeps the report away. -/
theorem HandlerInv.no_report (hacc : Accepted env.wf) {s : GrpcSession B} (h : HandlerInv env s)
    {c : ExecCall} (hc : c ∈ s.execs) (hlive : c.pc ≠ .returned) : s.handler = .running := by
  by_contra hne
  obtain ⟨g, hg, hok⟩ := h.transport.calls.ok c hc
  have hdone := ((reachable_onCourse hacc h.transport.reach).none_running (h.returned hne)).1 g
    (List.mem_of_getElem? hg)
  rw [(hok.live hlive).1] at hdone
  cases hdone

/-! ### Order -/

/-- A step that sends nothing. -/
theorem StreamOrder.frame {s s' : GrpcSession B} {calls late : List Pb.EngineMessage}
    (h : StreamOrder env s calls late) (hsent : s'.sent = s.sent)
    (hhandler : s'.handler = .returned none ↔ s.handler = .returned none)
    (hrep : ∀ rep, s.sched.report? = some rep → s'.sched.report? = some rep) :
    StreamOrder env s' calls late := by
  refine ⟨hsent.trans h.sent, h.calls, fun hne => h.unreported fun hr => hne (hhandler.mpr hr),
    fun hr => ?_⟩
  obtain ⟨rep, events, hrep', hlate, hevents⟩ := h.reported (hhandler.mp hr)
  exact ⟨rep, events, hrep rep hrep', hlate, hevents⟩

/-- A step of the scheduler. -/
theorem StreamOrder.afterSched {s s' : GrpcSession B} {calls late : List Pb.EngineMessage}
    (h : StreamOrder env s calls late) {a : Action} {t : State B}
    (hs : env.step? s.sched a = some t) (hsent : s'.sent = s.sent)
    (hhandler : s'.handler = s.handler) (hsched : s'.sched = t) :
    StreamOrder env s' calls late :=
  h.frame hsent (by rw [hhandler]) fun rep hrep => hsched ▸ report_stays hs hrep

/-- A step keeps the order of the stream. -/
theorem StreamOrder.step (hacc : Accepted env.wf) {s s' : GrpcSession B} {a : GrpcAction}
    (hinv : HandlerInv env s) (hs : SessionStep env s a s')
    (h : ∃ calls late, StreamOrder env s calls late) :
    ∃ calls late, StreamOrder env s' calls late := by
  obtain ⟨calls, late, h⟩ := h
  -- A message goes behind the last one; before the report it is one of the calls.
  have hsend : ∀ {s' : GrpcSession B} (m : Pb.EngineMessage), s'.sent = s.sent ++ [m] →
      s'.handler = s.handler → s'.sched = s.sched → (sentID m ≠ none ∨ sentEvent m ≠ none) →
      (s.handler = .returned none → sentEvent m ≠ none) →
      ∃ calls late, StreamOrder env s' calls late := by
    intro s' m hsent hhandler hsched hm hlate
    by_cases hr : s.handler = .returned none
    · obtain ⟨rep, events, hrep, rfl, hevents⟩ := h.reported hr
      refine ⟨calls, _ :: (events ++ [m]), ?_, h.calls,
        fun hne => absurd (hhandler.trans hr) hne,
        fun _ => ⟨rep, _, hsched ▸ hrep, rfl, fun x hx => ?_⟩⟩
      · rw [hsent, h.sent]
        simp
      · rcases List.mem_append.mp hx with hx | hx
        · exact hevents x hx
        · rw [List.mem_singleton.mp hx]
          exact hlate hr
    · obtain rfl := h.unreported hr
      refine ⟨calls ++ [m], [], ?_, fun x hx => ?_, fun _ => rfl,
        fun hr' => absurd (hhandler.symm.trans hr') hr⟩
      · rw [hsent, h.sent]
        simp
      · rcases List.mem_append.mp hx with hx | hx
        · exact h.calls x hx
        · rw [List.mem_singleton.mp hx]
          exact hm
  cases hs with
  | sched a t _ hs => exact ⟨_, _, h.afterSched hs rfl rfl rfl⟩
  | call i g t _ hs => exact ⟨_, _, h.afterSched hs rfl rfl rfl⟩
  | «return» k c res err t _ _ _ hs => exact ⟨_, _, h.afterSched hs rfl rfl rfl⟩
  | cancelRun c t _ hs => exact ⟨_, _, h.afterSched hs rfl rfl rfl⟩
  | recvError t _ hs => exact ⟨_, _, h.afterSched hs rfl rfl rfl⟩
  | hangUp d t hs => exact ⟨_, _, h.afterSched hs rfl rfl rfl⟩
  | write k c hc hpc =>
      have hrun := hinv.no_report hacc (List.mem_of_getElem? hc) (by simp [hpc])
      refine hsend (.skillInvocation c.inv.toProto) rfl rfl rfl
        (.inl (by simp [sentID])) fun hr => ?_
      rw [hrun] at hr
      cases hr
  | sendEvent ok ev hh =>
      cases ok with
      | true =>
          exact hsend (.event ev.toProto) rfl rfl rfl (.inr (by simp [sentEvent]))
            fun _ => by simp [sentEvent]
      | false => exact ⟨_, _, h.frame rfl Iff.rfl fun _ => id⟩
  | close hrun hrep =>
      refine ⟨_, _, h.frame rfl ?_ fun _ => id⟩
      rw [hrun]
      simp
  | finish rep err t hrep hclosed hs =>
      have hopen : s.handler ≠ .returned none := by
        rw [hclosed]
        simp
      obtain rfl := h.unreported hopen
      cases err with
      | none =>
          refine ⟨calls, [.report (reportToProto env.lib rep)], ?_, h.calls,
            fun hne => absurd rfl hne, fun _ => ⟨rep, [], report_stays hs hrep, rfl, by simp⟩⟩
          show s.sent ++ _ = _
          rw [h.sent, List.append_nil]
          rfl
      | some e =>
          exact ⟨calls, [], h.sent, h.calls, fun _ => rfl, by simp⟩
  | _ => exact ⟨_, _, h.frame rfl Iff.rfl fun _ => id⟩

/-! ### Events -/

/-- A step of the scheduler puts events behind the last one, as far as there is room. -/
theorem eventsLeft_afterSched {s s' : GrpcSession B} {a : Action} {t : State B}
    (h : (eventsLeft s).Sublist (s.sched.emitted.map Event.toProto))
    (hs : env.step? s.sched a = some t)
    (hevents : s'.events = (s.events ++ t.emitted.drop s.sched.emitted.length).take 64)
    (hheld : s'.held = s.held) (hsent : s'.sent.filterMap sentEvent = s.sent.filterMap sentEvent)
    (hsched : s'.sched = t) :
    (eventsLeft s').Sublist (s'.sched.emitted.map Event.toProto) := by
  obtain ⟨new, hnew⟩ := emitted_grows hs
  have hdrop : t.emitted.drop s.sched.emitted.length = new := by
    rw [hnew, List.drop_left]
  have hfit : (eventsLeft s').Sublist (eventsLeft s ++ new.map Event.toProto) := by
    rw [eventsLeft, eventsLeft, hsent, hheld, hevents, hdrop, List.append_assoc, ← List.map_append,
      List.append_assoc]
    exact (((List.take_sublist 64 _).append_left _).map _).append_left _
  rw [hsched, hnew, List.map_append]
  exact hfit.trans (h.append_right _)

/-- A step keeps the events in order. -/
theorem eventsLeft_step {s s' : GrpcSession B} {a : GrpcAction} (hs : SessionStep env s a s')
    (h : (eventsLeft s).Sublist (s.sched.emitted.map Event.toProto)) :
    (eventsLeft s').Sublist (s'.sched.emitted.map Event.toProto) := by
  have hnone : ∀ (m : Pb.EngineMessage), sentEvent m = none →
      (s.sent ++ [m]).filterMap sentEvent = s.sent.filterMap sentEvent := fun m hm => by simp [hm]
  cases hs with
  | sched a t _ hs => exact eventsLeft_afterSched h hs rfl rfl rfl rfl
  | call i g t _ hs => exact eventsLeft_afterSched h hs rfl rfl rfl rfl
  | «return» k c res err t _ _ _ hs => exact eventsLeft_afterSched h hs rfl rfl rfl rfl
  | cancelRun c t _ hs => exact eventsLeft_afterSched h hs rfl rfl rfl rfl
  | recvError t _ hs => exact eventsLeft_afterSched h hs rfl rfl rfl rfl
  | hangUp d t hs => exact eventsLeft_afterSched h hs rfl rfl rfl rfl
  | finish rep err t _ _ hs =>
      refine eventsLeft_afterSched h hs rfl rfl ?_ rfl
      show (if err = none then s.sent ++ _ else s.sent).filterMap sentEvent = _
      split
      · exact hnone _ rfl
      · rfl
  | write k c _ _ =>
      have heq : eventsLeft (putExec { s with
          sent := s.sent ++ [.skillInvocation c.inv.toProto] } k { c with pc := .select })
          = eventsLeft s := by
        show (s.sent ++ [_]).filterMap sentEvent ++ _ = _
        rw [hnone _ rfl]
        rfl
      rw [heq]
      exact h
  | takeEvent ev rest hh he =>
      -- The event moves to the front of what is left.
      rw [eventsLeft, hh, he] at h
      exact h
  | sendEvent ok ev hh =>
      rw [eventsLeft, hh] at h
      cases ok with
      | true =>
          show ((s.sent ++ [Pb.EngineMessage.event ev.toProto]).filterMap sentEvent ++
            s.events.map Event.toProto).Sublist _
          simpa [sentEvent] using h
      | false =>
          refine List.Sublist.trans ?_ h
          show (s.sent.filterMap sentEvent ++ s.events.map _).Sublist _
          exact ((List.sublist_cons_self _ _)).append_left _
  | _ => exact h

/-! ### Invocations -/

/-- A step keeps the calls behind the invocations. -/
theorem callers_step {s s' : GrpcSession B} {a : GrpcAction} (hs : SessionStep env s a s')
    {id : String} (h : ∃ c ∈ s.execs, c.inv.invocationID = id ∧ 2 ≤ callRank c.pc) :
    ∃ c ∈ s'.execs, c.inv.invocationID = id ∧ 2 ≤ callRank c.pc := by
  obtain ⟨c, hc, hid, hrank⟩ := h
  obtain ⟨k, hk⟩ := List.mem_iff_getElem?.mp hc
  obtain ⟨c', hc', hmove⟩ := hs.view.callMove (show (view env s).execs[k]? = some c from hk)
  exact ⟨c', List.mem_of_getElem? hc', by rw [hmove.inv, hid], hrank.trans hmove.rank_le⟩

/-- The ids of the invocations that a step sends. -/
theorem sentIDs_step {s s' : GrpcSession B} {a : GrpcAction} (hs : SessionStep env s a s') :
    s'.sent.filterMap sentID = s.sent.filterMap sentID ∨
      ∃ (k : Nat) (c c' : ExecCall), s.execs[k]? = some c ∧ c.pc = .write ∧
        s'.execs[k]? = some c' ∧ c'.inv = c.inv ∧ c'.pc = .select ∧
        s'.sent.filterMap sentID = s.sent.filterMap sentID ++ [c.inv.invocationID] := by
  have hnone : ∀ (m : Pb.EngineMessage), sentID m = none →
      (s.sent ++ [m]).filterMap sentID = s.sent.filterMap sentID := fun m hm => by simp [hm]
  -- Three steps send a message, and only the write of a call sends one with an id.
  cases hs with
  | write k c hc hpc =>
      refine .inr ⟨k, c, _, hc, hpc,
        List.getElem?_set_self (List.getElem?_eq_some_iff.mp hc).1, rfl, rfl, ?_⟩
      show (s.sent ++ [_]).filterMap sentID = _
      simp [sentID, Invocation.toProto]
  | finish rep err t _ _ hs =>
      left
      show (if err = none then s.sent ++ _ else s.sent).filterMap sentID = _
      split
      · exact hnone _ rfl
      · rfl
  | sendEvent ok ev hh =>
      left
      show (if ok then s.sent ++ _ else s.sent).filterMap sentID = _
      split
      · exact hnone _ rfl
      · rfl
  | _ => exact .inl rfl

/-- A step sends no invocation a second time. -/
theorem invocations_step (hacc : Accepted env.wf) {s s' : GrpcSession B} {a : GrpcAction}
    (hinv : HandlerInv env s) (hs : SessionStep env s a s')
    (hcallers : ∀ id ∈ s.sent.filterMap sentID,
      ∃ c ∈ s.execs, c.inv.invocationID = id ∧ 2 ≤ callRank c.pc)
    (h : (s.sent.filterMap sentID).Nodup) :
    (s'.sent.filterMap sentID).Nodup ∧ ∀ id ∈ s'.sent.filterMap sentID,
      ∃ c ∈ s'.execs, c.inv.invocationID = id ∧ 2 ≤ callRank c.pc := by
  rcases sentIDs_step hs with heq | ⟨k, c, c', hc, hpc, hc', hinv', hpc', heq⟩
  · rw [heq]
    exact ⟨h, fun id hid => callers_step hs (hcallers id hid)⟩
  · rw [heq]
    refine ⟨List.nodup_append.mpr ⟨h, List.nodup_singleton _, fun id hid id' hid' => ?_⟩,
      fun id hid => ?_⟩
    · -- A call that was behind this id would be the same call, which has not sent anything yet.
      rw [List.mem_singleton.mp hid']
      rintro rfl
      obtain ⟨d, hd, hdid, hrank⟩ := hcallers _ hid
      obtain ⟨j, hj⟩ := List.mem_iff_getElem?.mp hd
      obtain rfl := hinv.transport.uniqueIds hacc j k d c hj hc hdid
      rw [hc] at hj
      cases hj
      simp [hpc, callRank] at hrank
    · rcases List.mem_append.mp hid with hid | hid
      · exact callers_step hs (hcallers id hid)
      · rw [List.mem_singleton.mp hid]
        exact ⟨c', List.mem_of_getElem? hc', by rw [hinv'], by simp [hpc', callRank]⟩

/-! ### The closed channel -/

/-- Behind `sched.Run` nothing is emitted. -/
theorem crashed_afterSched {s : GrpcSession B} (hinv : HandlerInv env s) {a : Action} {t : State B}
    (hs : env.step? s.sched a = some t) : (afterSched s t).crashed = s.crashed := by
  show (s.crashed || (s.handler != .running && !(newEvents s t).isEmpty)) = _
  by_cases hrun : s.handler = .running
  · simp [hrun]
  · obtain ⟨rep, hrep⟩ := Option.isSome_iff_exists.mp (hinv.returned hrun)
    simp [newEvents, (step_returned hrep hs).2]

/-- A step does not send on the closed channel. -/
theorem crashed_step {s s' : GrpcSession B} {a : GrpcAction} (hinv : HandlerInv env s)
    (hs : SessionStep env s a s') : s'.crashed = s.crashed := by
  cases hs with
  | sched a t _ hs => exact crashed_afterSched hinv hs
  | call i g t _ hs => exact crashed_afterSched hinv hs
  | «return» k c res err t _ _ _ hs => exact crashed_afterSched hinv hs
  | cancelRun c t _ hs => exact crashed_afterSched hinv hs
  | recvError t _ hs => exact crashed_afterSched hinv hs
  | hangUp d t hs => exact crashed_afterSched hinv hs
  | finish rep err t _ _ hs => exact crashed_afterSched hinv hs
  | _ => rfl

/-! ### Every run -/

/-- Every reachable state is `Orderly`. -/
theorem reachable_orderly (hacc : Accepted env.wf) {s : GrpcSession B}
    (h : env.grpcSystem.Reachable s) : Orderly env s := by
  refine h.holds (P := Orderly env) ?_ fun s a s' hr ho ha => ?_
  · have hstream : StreamOrder env env.sessionInitial [] [] :=
      ⟨rfl, by simp, fun _ => rfl, fun hh => by cases hh⟩
    refine ⟨⟨[], [], hstream⟩, List.Sublist.refl _, List.nodup_nil, fun id hid => ?_, rfl⟩
    have hid : id ∈ ([] : List String) := hid
    cases hid
  · have hinv := reachable_handlerInv hacc hr
    have hs : SessionStep env s a s' := session_inv ha
    have hids := invocations_step hacc hinv hs ho.callers ho.invocations
    exact ⟨StreamOrder.step hacc hinv hs ho.stream, eventsLeft_step hs ho.events, hids.1, hids.2,
      (crashed_step hinv hs).trans ho.crashed⟩

/-- Every reachable state of a session of a validated workflow is `Orderly`, with any client and any
interleaving of its goroutines. The order of the stream, the order of the events and the senders of
the invocations have an invariant each, and `reachable_orderly` puts them together. -/
theorem session_orderly (env : Env B) (iter : MapOrder) (hval : env.wf.validate iter = .ok ())
    {s : GrpcSession B} (h : env.grpcSystem.Reachable s) : Orderly env s :=
  reachable_orderly (accepted_of_validate hval) h

/-- A `SkillResult` with an empty output, as the sample client sends it. -/
def plainResult (id : String) : Pb.SkillResult :=
  { invocationID := id
    outcome := some (.outputJSON "\x7b\x7d")
    decisions := []
    llmUsage := none }

/-- The only task sends its invocation. -/
def sessionToSend : List GrpcAction :=
  [.sched .main, .sched .main, .sched .main, .sched (.task 0 .resolve), .sched (.task 0 .takeSlot),
    .sched (.task 0 .acquire), .call 0, .exec 0 .register, .exec 0 (.write none)]

/-- The result arrives, and `sched.Run` returns. What is left is to send the report. -/
def sessionToReturn : List GrpcAction :=
  sessionToSend ++ [.recv (.message (.skillResult (plainResult "r-a-1"))), .recv .dispatch,
    .recv .deliver, .exec 0 .result, .exec 0 .return, .sched (.task 0 .send), .sched .main,
    .sched .main, .sched .main]

/-- The kind of a message, so that a stream can be compared without its contents. -/
def sentKind : Pb.EngineMessage → String
  | .runAccepted _ => "run_accepted"
  | .skillInvocation _ => "skill_invocation"
  | .event _ => "event"
  | .report _ => "report"

/-- The event goroutine holds an event while the report is sent, which it sends behind it. -/
theorem session_orderly_loneContinue :
    ∃ s : GrpcSession Unit,
    s.sent.map sentKind = ["run_accepted", "skill_invocation", "report", "event"] ∧
      Orderly loneContinue s := by
  have hrun : (loneContinue.grpcSystem.run?
      (sessionToReturn ++ [GrpcAction.takeEvent, .close, .finish none, .sendEvent true])).any
        (fun s => s.sent.map sentKind = ["run_accepted", "skill_invocation", "report", "event"]) =
        true := by
    decide +kernel
  obtain ⟨s, hs, hp⟩ := System.exists_of_run hrun
  exact ⟨s, of_decide_eq_true hp, session_orderly loneContinue .insertion (by rfl) hs⟩

end Orchestrator.Proofs
