import Orchestrator.Engine.Process
import Orchestrator.Proofs.Completion
import Orchestrator.Proofs.Correlation

/-!
# `Orchestrator.Proofs.ReportLast`: the event stream and the report line

`ReportClosesStream` is the promise of `runEmbedded` on its stream: all events that were placed in
the channel, then the report, then nothing. The process keeps it exactly when each step is `settled`
(`report_closes_stream_iff`). `Kept` follows the placed events through the channel and the event
goroutine to the stream, and `OrderKept` adds what the report line demands.

The events of a run go through three places: the buffer, the hand of the event goroutine, and the
stream. The main function closes the buffer when `Run` has returned and writes the report without
waiting for that goroutine. So at the report line events may still be on their way, and they come
after it or, when the process exits first, never.

A step of the process appends to the buffer or to the stream and changes nothing that is there
already (`Appends`), and `ProcessStep` lists the steps with their guards. From this the proof that
one step keeps the order, or loses it, is by cases (`orderKept_step`). What was lost stays lost: an
event that was not written before the report cannot be written before it later. So the condition is
exact for whole runs.
-/

set_option autoImplicit false

namespace Orchestrator.Proofs

open Orchestrator.Lib Orchestrator.Engine Orchestrator.Engine.Env

variable {B : Type} {env : Env B}

/-! ### What a step of the run adds to the stream and to the channel -/

/-- The line of an event. -/
def isEventLine (m : OutMsg) : Bool := decide (m.type = "event")

/-- The line of the report. -/
def isReportMsg (m : OutMsg) : Bool := decide (m.type = "report")

/-- The event buffer after a scheduler step. -/
theorem schedStep_events {e e' : Embedded B} {a : Action} (h : env.schedStep e a = some e') :
    e'.events = offerEvents e.events (e'.sched.emitted.drop e.sched.emitted.length) ∧
      e'.stdout = e.stdout ∧ e'.execs = e.execs := by
  obtain ⟨s, -, h⟩ := Option.bind_eq_some_iff.mp h
  cases h
  exact ⟨rfl, rfl, rfl⟩

/-- What fits into the buffer comes after what it holds. -/
theorem offerEvents_append {buffer new : List Event} (h : buffer.length ≤ 128) :
    ∃ ev, offerEvents buffer new = buffer ++ ev ∧ (buffer ++ ev).length ≤ 128 ∧
      (new = [] → ev = []) := by
  refine ⟨new.take (128 - buffer.length), ?_, ?_, fun hnew => ?_⟩
  · show (buffer ++ new).take 128 = _
    rw [List.take_append, List.take_of_length_le h]
  · rw [List.length_append, List.length_take]
    omega
  · rw [hnew, List.take_nil]

/-- What a step of the run appends: events to the buffer, lines of `Execute` to the stream. -/
structure Appends (e e' : Embedded B) (ev : List Event) (lines : List OutMsg) : Prop where
  events : e'.events = e.events ++ ev
  room : e'.events.length ≤ 128
  stdout : e'.stdout = e.stdout ++ lines
  invocations : ∀ m ∈ lines, m.type = "skill_invocation"
  /-- Without an emitted event nothing is appended to the buffer. -/
  silent : e'.sched.emitted = e.sched.emitted → ev = []
  /-- A line is written by a call that has not returned. -/
  writer : lines ≠ [] → ∃ c ∈ e.execs, c.pc ≠ .returned

/-- A scheduler step inside a step of the run. -/
theorem Appends.sched {e e₁ e' : Embedded B} {a : Action} (hroom : e.events.length ≤ 128)
    (h : env.schedStep e a = some e₁) (hsched : e'.sched = e₁.sched)
    (hevents : e'.events = e₁.events) (hstdout : e'.stdout = e₁.stdout) :
    ∃ ev lines, Appends e e' ev lines := by
  obtain ⟨he, ho, -⟩ := schedStep_events h
  obtain ⟨ev, hev, hlen, hnil⟩ :=
    @offerEvents_append _ (e₁.sched.emitted.drop e.sched.emitted.length) hroom
  rw [← he, ← hevents] at hev
  refine ⟨ev, [], hev, hev ▸ hlen, ?_, fun m hm => (by cases hm), fun hs => hnil ?_,
    fun h => absurd rfl h⟩
  · rw [hstdout, ho, List.append_nil]
  · rw [← hsched, hs, List.drop_length]

/-- A step of the run that leaves the scheduler, the buffer and the stream alone. -/
theorem Appends.still {e e' : Embedded B} (hroom : e.events.length ≤ 128)
    (hevents : e'.events = e.events) (hstdout : e'.stdout = e.stdout) : Appends e e' [] [] where
  events := by rw [hevents, List.append_nil]
  room := hevents ▸ hroom
  stdout := by rw [hstdout, List.append_nil]
  invocations := fun m hm => (by cases hm)
  silent := fun _ => rfl
  writer := fun h => absurd rfl h

/-- Each step of the run other than the event goroutine's appends to the buffer and to the
stream. -/
theorem appends_of_step {e e' : Embedded B} {a : EmbeddedAction} (hroom : e.events.length ≤ 128)
    (ha : ∀ ok, a ≠ .sendEvent ok) (h : env.embeddedStep? e a = some e') :
    ∃ ev lines, Appends e e' ev lines := by
  cases a with
  | sched a =>
      obtain ⟨-, h⟩ := Option.ite_none_right_eq_some.mp h
      exact Appends.sched hroom h rfl rfl rfl
  | call i =>
      obtain ⟨g, -, h⟩ := Option.bind_eq_some_iff.mp h
      obtain ⟨e₁, h₁, h⟩ := Option.bind_eq_some_iff.mp h
      cases h
      exact Appends.sched hroom h₁ rfl rfl rfl
  | exec k a =>
      obtain ⟨c, hc, h⟩ := Option.bind_eq_some_iff.mp h
      cases execStep_inv hc h with
      | write _ c' hc' hpc =>
          refine ⟨[], [invocationMsg c'.inv], (List.append_nil _).symm, hroom, rfl, fun m hm => ?_,
            fun _ => rfl, fun _ => ⟨c', List.mem_of_getElem? hc', by simp [hpc]⟩⟩
          rw [List.mem_singleton.mp hm]
          rfl
      | «return» _ c' res err s ev hc' hpc hout hs =>
          rw [hc] at hc'
          cases hc'
          simp only [execStep, hout, hpc, if_true] at h
          obtain ⟨e₁, h₁, h⟩ := Option.bind_eq_some_iff.mp h
          have he := Option.some.inj h
          exact Appends.sched hroom h₁ (congrArg (·.sched) he.symm)
            (congrArg (·.events) he.symm) (congrArg (·.stdout) he.symm)
      | _ => exact ⟨[], [], .still hroom rfl rfl⟩
  | pump a =>
      have h : env.pumpStep e a = some e' := h
      cases pumpStep_inv h with
      | readCancel msg s ev hp ht hs =>
          simp only [pumpStep, hp, if_true, ht, if_false] at h
          split at h
          · obtain ⟨e₁, h₁, h⟩ := Option.bind_eq_some_iff.mp h
            have he := Option.some.inj h
            -- The message is in `read` before the context ends.
            obtain ⟨ev', lines, hap⟩ := Appends.sched (by exact hroom) h₁
              (congrArg (·.sched) he.symm) (congrArg (·.events) he.symm)
              (congrArg (·.stdout) he.symm)
            exact ⟨ev', lines, hap.events, hap.room, hap.stdout, hap.invocations, hap.silent,
              hap.writer⟩
          · have he := Option.some.inj h
            exact ⟨[], [], .still hroom (congrArg (·.events) he.symm)
              (congrArg (·.stdout) he.symm)⟩
      | _ => exact ⟨[], [], .still hroom rfl rfl⟩
  | sendEvent ok => exact absurd rfl (ha ok)

/-- After the return of `Run`, no step of the scheduler changes what `run` left behind. -/
theorem step_returned {s s' : State B} {a : Action} {rep : Report} (hrep : s.report? = some rep)
    (h : env.step? s a = some s') : s'.main = s.main ∧ s'.emitted = s.emitted := by
  have hpc := report?_eq_some.mp hrep
  rcases step_inv h with ⟨-, hm⟩ | ⟨i, b, g, -, hg, ht⟩ | ⟨-, rfl⟩ | ⟨d, -, rfl⟩
  · exfalso
    cases hm <;> simp_all
  · obtain ⟨g', hgs⟩ := ht.goStep
    exact ⟨hgs.main, by cases ht <;> rfl⟩
  · exact ⟨rfl, rfl⟩
  · exact ⟨rfl, rfl⟩

/-- After the return of `Run`, a step of the run appends nothing. -/
theorem Appends.returned (hacc : Accepted env.wf) {e e' : Embedded B} {a : EmbeddedAction}
    {ev : List Event} {lines : List OutMsg} (h : Appends e e' ev lines)
    (he : env.embeddedSystem.Reachable e) (ha : env.embeddedStep? e a = some e') {rep : Report}
    (hrep : e.sched.report? = some rep) :
    ev = [] ∧ lines = [] ∧ e'.sched.report? = some rep := by
  have hmain : e'.sched.main = e.sched.main ∧ e'.sched.emitted = e.sched.emitted := by
    rcases (embedded_inv ha).sched_step with heq | ⟨b, hb⟩
    · rw [heq]
      exact ⟨rfl, rfl⟩
    · exact step_returned hrep hb
  refine ⟨h.silent hmain.2, ?_, ?_⟩
  · -- A call that has not returned belongs to a goroutine in `Execute`, and all are done.
    by_contra hne
    obtain ⟨c, hc, hlive⟩ := h.writer hne
    obtain ⟨g, hg, hok⟩ := (reachable_calls he).ok c hc
    have hdone := ((reachable_onCourse hacc (sched_reachable he)).none_running
      (by rw [hrep]; rfl)).1 g (List.mem_of_getElem? hg)
    rw [(hok.live hlive).1] at hdone
    cases hdone
  · rw [State.report?, hmain.1]
    exact hrep

/-! ### The process -/

/-- The events that were placed and are not written yet. -/
def pendingEvents (p : Process B) : List Event := p.holding.toList ++ p.engine.events

/-- The stream has a report line. -/
def hasReport (p : Process B) : Bool := p.stdout.any isReportMsg

/-- The steps of the process from the state `p`, one constructor for each kind. A step of the engine
shows in the output what it has written, and in `placed` what it has put into the channel. -/
inductive ProcessStep (env : Env B) (p : Process B) : ProcessAction → Process B → Prop
  | engine (a : EmbeddedAction) (e : Embedded B) (ha : ∀ ok, a ≠ .sendEvent ok)
      (h : env.embeddedStep? p.engine a = some e) :
      ProcessStep env p (.engine a) { p with
        engine := e
        stdout := p.stdout ++ e.stdout.drop p.engine.stdout.length
        placed := p.placed ++ e.events.drop p.engine.events.length }
  | receive (ev : Event) (rest : List Event) (hh : p.holding = none)
      (he : p.engine.events = ev :: rest) :
      ProcessStep env p .receive
        { p with engine := { p.engine with events := rest }, holding := some ev }
  | write (ok : Bool) (ev : Event) (hh : p.holding = some ev) :
      ProcessStep env p (.write ok) { p with
        holding := none, stdout := if ok then p.stdout ++ [eventMsg ev] else p.stdout }
  | close (hpc : p.pc = .running) (hrep : p.engine.sched.report?.isSome = true) :
      ProcessStep env p .close { p with pc := .closed }
  | report (rep : Report) (hpc : p.pc = .closed) (hrep : p.engine.sched.report? = some rep) :
      ProcessStep env p (.report true)
        { p with pc := .reported, stdout := p.stdout ++ [reportMsg rep] }
  | reportFail (hpc : p.pc = .closed) :
      ProcessStep env p (.report false) { p with pc := .exited }
  | exit (hpc : p.pc = .reported) : ProcessStep env p .exit { p with pc := .exited }

/-- Inversion of `processStep?`. -/
theorem process_inv {p p' : Process B} {a : ProcessAction} (h : env.processStep? p a = some p') :
    p.pc ≠ .exited ∧ ProcessStep env p a p' := by
  obtain ⟨hpc, h⟩ := Option.ite_none_left_eq_some.mp h
  refine ⟨hpc, ?_⟩
  cases a with
  | engine a =>
      -- The engine emits events itself, so this action is left to the process.
      have key : (∀ ok, a ≠ .sendEvent ok) ∧ ∃ e, env.embeddedStep? p.engine a = some e ∧
          some { p with
            engine := e
            stdout := p.stdout ++ e.stdout.drop p.engine.stdout.length
            placed := p.placed ++ e.events.drop p.engine.events.length } = some p' := by
        cases a with
        | sendEvent ok => cases h
        | _ => exact ⟨by simp, Option.bind_eq_some_iff.mp h⟩
      obtain ⟨ha, e, he, h⟩ := key
      cases h
      exact .engine a e ha he
  | receive =>
      simp only at h
      split at h
      · rename_i ev rest hh he
        cases h
        exact .receive ev rest hh he
      · cases h
  | write ok =>
      simp only at h
      split at h
      · rename_i ev hh
        cases h
        exact .write ok ev hh
      · cases h
  | close =>
      obtain ⟨⟨hrun, hrep⟩, h⟩ := Option.ite_none_right_eq_some.mp h
      cases h
      exact .close hrun hrep
  | report ok =>
      simp only at h
      split at h
      · rename_i rep hrep
        obtain ⟨hclosed, h⟩ := Option.ite_none_right_eq_some.mp h
        cases ok with
        | true =>
            cases h
            exact .report rep hclosed hrep
        | false =>
            cases h
            exact .reportFail hclosed
      · cases h
  | exit =>
      obtain ⟨hrep, h⟩ := Option.ite_none_right_eq_some.mp h
      cases h
      exact .exit hrep

/-- What holds of the process, whatever happens to its events: the engine inside is reachable, and
there is no report before its time and none but the one of the run. -/
structure ProcessInv (env : Env B) (p : Process B) : Prop where
  engine : env.embeddedSystem.Reachable p.engine
  room : p.engine.events.length ≤ 128
  /-- The main goroutine goes on when `Run` has returned. -/
  returned : p.pc ≠ .running → p.engine.sched.report?.isSome = true
  unreported : p.pc = .running ∨ p.pc = .closed → hasReport p = false
  reportLine : ∀ m ∈ p.stdout, isReportMsg m = true →
    ∃ rep, p.engine.sched.report? = some rep ∧ m = reportMsg rep
  /-- No event is written twice. -/
  counted : (p.stdout.filter isEventLine).length + (pendingEvents p).length ≤ p.placed.length

/-- The line of an invocation is neither of an event nor of a report. -/
theorem invocation_lines {lines : List OutMsg} (h : ∀ m ∈ lines, m.type = "skill_invocation") :
    lines.filter isEventLine = [] ∧ lines.any isReportMsg = false := by
  constructor
  · refine List.filter_eq_nil_iff.mpr fun m hm => ?_
    simp [isEventLine, h m hm]
  · refine List.any_eq_false.mpr fun m hm => ?_
    simp [isReportMsg, h m hm]

/-- What a step of the run does to the process. -/
theorem engine_step {p : Process B} (hacc : Accepted env.wf) (h : ProcessInv env p)
    {a : EmbeddedAction} {e : Embedded B} (ha : ∀ ok, a ≠ .sendEvent ok)
    (hs : env.embeddedStep? p.engine a = some e) :
    ∃ ev lines, Appends p.engine e ev lines ∧ e.stdout.drop p.engine.stdout.length = lines ∧
      e.events.drop p.engine.events.length = ev ∧
      (∀ rep, p.engine.sched.report? = some rep →
        ev = [] ∧ lines = [] ∧ e.sched.report? = some rep) := by
  obtain ⟨ev, lines, hap⟩ := appends_of_step h.room ha hs
  refine ⟨ev, lines, hap, ?_, ?_, fun rep hrep => hap.returned hacc h.engine hs hrep⟩
  · rw [hap.stdout, List.drop_left]
  · rw [hap.events, List.drop_left]

/-- A step of the process keeps `ProcessInv`. -/
theorem ProcessInv.step (hacc : Accepted env.wf) {p p' : Process B} {a : ProcessAction}
    (h : ProcessInv env p) (hs : ProcessStep env p a p') : ProcessInv env p' := by
  cases hs with
  | engine a e ha hs =>
      obtain ⟨ev, lines, hap, hlines, hev, hret⟩ := engine_step hacc h ha hs
      obtain ⟨hnone, hrepnone⟩ := invocation_lines hap.invocations
      rw [hlines, hev]
      refine ⟨h.engine.step hs, hap.room, fun hpc => ?_, fun hpc => ?_, fun m hm hrl => ?_, ?_⟩
      · obtain ⟨rep, hrep⟩ := Option.isSome_iff_exists.mp (h.returned hpc)
        show e.sched.report?.isSome = true
        rw [(hret rep hrep).2.2]
        rfl
      · show (p.stdout ++ lines).any isReportMsg = false
        rw [List.any_append, show p.stdout.any isReportMsg = false from h.unreported hpc, hrepnone]
        rfl
      · rcases List.mem_append.mp hm with hm | hm
        · obtain ⟨rep, hrep, rfl⟩ := h.reportLine m hm hrl
          exact ⟨rep, (hret rep hrep).2.2, rfl⟩
        · exact absurd hrl (List.any_eq_false.mp hrepnone m hm)
      · have hc := h.counted
        simp only [pendingEvents, List.filter_append, hnone, List.append_nil, hap.events,
          List.length_append] at hc ⊢
        omega
  | receive ev rest hh he =>
      -- For the engine, an event that is received is one whose write fails.
      have hrun : env.embeddedSystem.step? p.engine (.sendEvent false) = some
          { p.engine with events := rest } := by
        show env.embeddedStep? p.engine (.sendEvent false) = _
        simp only [embeddedStep?, he]
        rfl
      have hreach : env.embeddedSystem.Reachable { p.engine with events := rest } :=
        h.engine.step hrun
      refine ⟨hreach, ?_, h.returned, h.unreported, h.reportLine, ?_⟩
      · have := h.room
        rw [he, List.length_cons] at this
        show rest.length ≤ 128
        omega
      · have hc := h.counted
        simpa [pendingEvents, hh, he] using hc
  | write ok ev hh =>
      have hlen : (if ok then p.stdout ++ [eventMsg ev] else p.stdout).filter isEventLine
          = p.stdout.filter isEventLine ++ (if ok then [eventMsg ev] else []) := by
        cases ok with
        | true => exact List.filter_append ..
        | false => exact (List.append_nil _).symm
      have hmem : ∀ m ∈ (if ok then p.stdout ++ [eventMsg ev] else p.stdout),
          isReportMsg m = true → m ∈ p.stdout := by
        intro m hm hrl
        cases ok with
        | true =>
            rcases List.mem_append.mp hm with hm | hm
            · exact hm
            · rw [List.mem_singleton.mp hm] at hrl
              cases hrl
        | false => exact hm
      refine ⟨h.engine, h.room, h.returned, fun hpc => ?_,
        fun m hm hrl => h.reportLine m (hmem m hm hrl) hrl, ?_⟩
      · refine List.any_eq_false.mpr fun m hm hrl => ?_
        exact List.any_eq_false.mp (h.unreported hpc) m (hmem m hm hrl) hrl
      · have hc := h.counted
        simp only [pendingEvents, hh, hlen, Option.toList_some, Option.toList_none,
          List.length_append, List.length_singleton, List.length_nil] at hc ⊢
        cases ok with
        | true =>
            simp only [if_true, List.length_singleton]
            omega
        | false =>
            simp only [Bool.false_eq_true, if_false, List.length_nil]
            omega
  | close hpc hrep =>
      exact ⟨h.engine, h.room, fun _ => hrep, fun _ => h.unreported (Or.inl hpc), h.reportLine,
        h.counted⟩
  | report rep hpc hrep =>
      refine ⟨h.engine, h.room, fun _ => by rw [hrep]; rfl, fun hpc => ?_, fun m hm hrl => ?_, ?_⟩
      · rcases hpc with hpc | hpc <;> cases hpc
      · rcases List.mem_append.mp hm with hm | hm
        · exact h.reportLine m hm hrl
        · exact ⟨rep, hrep, List.mem_singleton.mp hm⟩
      · have hc := h.counted
        show ((p.stdout ++ [reportMsg rep]).filter isEventLine).length + _ ≤ _
        rw [List.filter_append, show [reportMsg rep].filter isEventLine = [] from rfl,
          List.append_nil]
        exact hc
  | reportFail hpc =>
      refine ⟨h.engine, h.room, fun _ => h.returned (by simp [hpc]), fun hpc => ?_, h.reportLine,
        h.counted⟩
      rcases hpc with hpc | hpc <;> cases hpc
  | exit hpc =>
      refine ⟨h.engine, h.room, fun _ => h.returned (by simp [hpc]), fun hpc => ?_, h.reportLine,
        h.counted⟩
      rcases hpc with hpc | hpc <;> cases hpc

/-- `ProcessInv` holds in every reachable state of the process. -/
theorem reachable_processInv (hacc : Accepted env.wf) {p : Process B}
    (hp : env.processSystem.Reachable p) : ProcessInv env p := by
  have hinit : ProcessInv env env.processInitial :=
    { engine := .init
      room := Nat.zero_le _
      returned := fun hpc => absurd rfl hpc
      unreported := fun _ => rfl
      reportLine := fun m hm hrl => by
        rw [List.mem_singleton.mp hm] at hrl
        cases hrl
      counted := le_rfl }
  exact hp.holds (P := ProcessInv env) hinit fun p a p' _ h ha => h.step hacc (process_inv ha).2

/-! ### The order of the lines -/

/-- The events that were placed, in their order: the written ones, then the pending ones. -/
def Kept (p : Process B) : Prop :=
  p.stdout.filter isEventLine ++ (pendingEvents p).map eventMsg = p.placed.map eventMsg

/-- No event is lost, and a report line comes last, with no event left to write. -/
structure OrderKept (p : Process B) : Prop where
  kept : Kept p
  last : hasReport p = true → pendingEvents p = [] ∧ p.stdout.getLast?.any isReportMsg = true

/-- The condition on a step: no write of an event fails, and at the report line the buffer is
empty and the event goroutine holds no event. -/
def settled (p : Process B) : ProcessAction → Bool
  | .write ok => ok
  | .report ok => !ok || (p.holding.isNone && p.engine.events.isEmpty)
  | _ => true

/-- No event is pending. -/
theorem pendingEvents_eq_nil {p : Process B} :
    pendingEvents p = [] ↔ p.holding.isNone = true ∧ p.engine.events.isEmpty = true := by
  cases hh : p.holding <;> simp [pendingEvents, hh]

/-- A step that leaves the stream and the placed events alone. -/
theorem orderKept_congr {p p' : Process B} (hstdout : p'.stdout = p.stdout)
    (hplaced : p'.placed = p.placed) (hpending : pendingEvents p' = pendingEvents p) :
    OrderKept p' ↔ OrderKept p := by
  have hrep : hasReport p' = hasReport p := congrArg (fun l => l.any isReportMsg) hstdout
  constructor <;> rintro ⟨hk, hl⟩
  · refine ⟨?_, fun h => ?_⟩
    · rw [Kept, hstdout, hplaced, hpending] at hk
      exact hk
    · rw [← hpending, ← hstdout]
      exact hl (hrep.trans h)
  · refine ⟨?_, fun h => ?_⟩
    · rw [Kept, hstdout, hplaced, hpending]
      exact hk
    · rw [hpending, hstdout]
      exact hl (hrep.symm.trans h)

/-- Before a report line, the order is kept when no event is lost. -/
theorem orderKept_of_unreported {p : Process B} (h : hasReport p = false) :
    OrderKept p ↔ Kept p :=
  ⟨fun hk => hk.kept, fun hk => ⟨hk, fun hr => by rw [h] at hr; cases hr⟩⟩

/-- A step keeps `OrderKept` when it is settled, and loses it otherwise. -/
theorem orderKept_step (hacc : Accepted env.wf) {p p' : Process B} {a : ProcessAction}
    (h : ProcessInv env p) (hs : ProcessStep env p a p') :
    OrderKept p' ↔ OrderKept p ∧ settled p a = true := by
  cases hs with
  | engine a e ha hs =>
      obtain ⟨ev, lines, hap, hlines, hev, hret⟩ := engine_step hacc h ha hs
      obtain ⟨hnone, hrepnone⟩ := invocation_lines hap.invocations
      rw [hlines, hev, show settled p (.engine a) = true from rfl, and_iff_left rfl]
      cases hrep : hasReport p with
      | true =>
          -- `Run` has returned, so the step appends nothing.
          obtain ⟨m, hm, hrl⟩ := List.any_eq_true.mp hrep
          obtain ⟨rep, hret', -⟩ := h.reportLine m hm hrl
          obtain ⟨rfl, rfl, -⟩ := hret rep hret'
          refine orderKept_congr (List.append_nil _) (List.append_nil _) ?_
          show p.holding.toList ++ e.events = p.holding.toList ++ p.engine.events
          rw [hap.events, List.append_nil]
      | false =>
          have hrep' : hasReport { p with
              engine := e, stdout := p.stdout ++ lines, placed := p.placed ++ ev } = false := by
            show (p.stdout ++ lines).any isReportMsg = false
            rw [List.any_append, show p.stdout.any isReportMsg = false from hrep, hrepnone]
            rfl
          rw [orderKept_of_unreported hrep, orderKept_of_unreported hrep']
          simp only [Kept, pendingEvents, List.filter_append, hnone, List.append_nil, hap.events,
            List.map_append, ← List.append_assoc, List.append_left_inj]
  | receive ev rest hh he =>
      rw [show settled p .receive = true from rfl, and_iff_left rfl]
      refine orderKept_congr rfl rfl ?_
      simp [pendingEvents, hh, he]
  | write ok ev hh =>
      have hne : pendingEvents p ≠ [] := by simp [pendingEvents, hh]
      cases ok with
      | true =>
          rw [show settled p (.write true) = true from rfl, and_iff_left rfl]
          have hrep' : hasReport { p with
              holding := none, stdout := p.stdout ++ [eventMsg ev] } = hasReport p := by
            show (p.stdout ++ [eventMsg ev]).any isReportMsg = p.stdout.any isReportMsg
            rw [List.any_append, show [eventMsg ev].any isReportMsg = false from rfl,
              Bool.or_false]
          cases hrep : hasReport p with
          | true =>
              -- A line after the report: neither state is in order.
              refine iff_of_false (fun hk => ?_) (fun hk => hne (hk.last hrep).1)
              have hlast := (hk.last (hrep'.trans hrep)).2
              rw [show (if true = true then p.stdout ++ [eventMsg ev] else p.stdout)
                = p.stdout ++ [eventMsg ev] from rfl, List.getLast?_append] at hlast
              cases hlast
          | false =>
              rw [orderKept_of_unreported hrep]
              refine (orderKept_of_unreported (hrep'.trans hrep)).trans ?_
              simp [Kept, pendingEvents, hh, List.filter_append, isEventLine, eventMsg]
      | false =>
          -- The event is on its way no more, and it was not written.
          refine iff_of_false (fun hk => ?_) (fun hk => by cases hk.2)
          have hlen := congrArg List.length hk.kept
          have hc := h.counted
          simp [pendingEvents, hh] at hlen hc
          omega
  | close hpc hrep =>
      rw [show settled p .close = true from rfl, and_iff_left rfl]
      exact orderKept_congr rfl rfl rfl
  | report rep hpc hrep =>
      rw [orderKept_of_unreported (h.unreported (Or.inr hpc))]
      have hsettled : settled p (.report true) = true ↔ pendingEvents p = [] := by
        rw [pendingEvents_eq_nil]
        simp [settled]
      have hkept : Kept { p with pc := .reported, stdout := p.stdout ++ [reportMsg rep] }
          ↔ Kept p := by
        show (p.stdout ++ [reportMsg rep]).filter isEventLine ++ _ = _ ↔ _
        rw [List.filter_append, show [reportMsg rep].filter isEventLine = [] from rfl,
          List.append_nil]
        rfl
      rw [hsettled]
      refine ⟨fun hk => ⟨hkept.mp hk.kept, (hk.last ?_).1⟩,
        fun hk => ⟨hkept.mpr hk.1, fun _ => ⟨hk.2, ?_⟩⟩⟩
      · show (p.stdout ++ [reportMsg rep]).any isReportMsg = true
        rw [List.any_append]
        simp [isReportMsg, reportMsg]
      · simp [isReportMsg, reportMsg]
  | reportFail hpc =>
      rw [show settled p (.report false) = true from rfl, and_iff_left rfl]
      exact orderKept_congr rfl rfl rfl
  | exit hpc =>
      rw [show settled p .exit = true from rfl, and_iff_left rfl]
      exact orderKept_congr rfl rfl rfl

/-- The report closes the stream: the events that were placed, then the report, then nothing. -/
def ReportClosesStream (p : Process B) : Prop :=
  ∃ before rep, p.engine.sched.report? = some rep ∧ p.stdout = before ++ [reportMsg rep] ∧
    before.filter isEventLine = p.placed.map eventMsg

/-- The stream of a run that wrote its report is closed by it when the order is kept. -/
theorem reportClosesStream_iff_orderKept {p : Process B} (h : ProcessInv env p)
    (hrep : hasReport p = true) : ReportClosesStream p ↔ OrderKept p := by
  constructor
  · rintro ⟨before, rep, -, hstdout, hevents⟩
    have hfilter : p.stdout.filter isEventLine = p.placed.map eventMsg := by
      rw [hstdout, List.filter_append, show [reportMsg rep].filter isEventLine = [] from rfl,
        List.append_nil, hevents]
    -- As many event lines were written as events were placed, so none of them is pending behind the
    -- report.
    have hpending : pendingEvents p = [] := by
      have hc := h.counted
      rw [hfilter, List.length_map] at hc
      exact List.eq_nil_of_length_eq_zero (by omega)
    refine ⟨?_, fun _ => ⟨hpending, ?_⟩⟩
    · rw [Kept, hpending, List.map_nil, List.append_nil, hfilter]
    · rw [hstdout, List.getLast?_append]
      rfl
  · intro hk
    -- In the other direction the last line is the report, and what stands before it are the events
    -- in their order.
    obtain ⟨hpending, hlast⟩ := hk.last hrep
    obtain ⟨m, hm, hrl⟩ := (Option.any_eq_true _ _).mp hlast
    obtain ⟨before, hstdout⟩ := List.getLast?_eq_some_iff.mp hm
    obtain ⟨rep, hrep', rfl⟩ := h.reportLine m (List.mem_of_getLast? hm) hrl
    refine ⟨before, rep, hrep', hstdout, ?_⟩
    have hkept := hk.kept
    rw [Kept, hpending, List.map_nil, List.append_nil, hstdout, List.filter_append,
      show [reportMsg rep].filter isEventLine = [] from rfl, List.append_nil] at hkept
    exact hkept

/-- The report of a run of a validated workflow closes the stream exactly when each step of the
process is settled.

`OrderKept` is what the end of the process has to show: the event lines are the events in their
order, and behind the report nothing is pending. Each step either keeps it or, if it writes the
report too early or loses an event, breaks it for good (`orderKept_step`). -/
theorem report_closes_stream_iff (env : Env B) (iter : MapOrder)
    (hval : env.wf.validate iter = .ok ()) {as : List ProcessAction} {p : Process B}
    (hrun : env.processSystem.run? as = some p) (hrep : hasReport p = true) :
    ReportClosesStream p ↔
      env.processSystem.Meets (fun p a => settled p a = true) env.processInitial as := by
  have hacc := accepted_of_validate hval
  have hstart : OrderKept env.processInitial := ⟨rfl, fun h => by cases h⟩
  have hend := System.meets_iff (Q := OrderKept)
    (fun p a p' hp ha => orderKept_step hacc (reachable_processInv hacc hp) (process_inv ha).2)
    .init hrun
  rw [reportClosesStream_iff_orderKept (reachable_processInv hacc (System.reachable_of_run hrun))
    hrep, hend]
  exact and_iff_right hstart

/-- The only task of `loneTask` succeeds, and `Run` returns. -/
def upToReturn : List EmbeddedAction :=
  upToRegistered ++ [.exec 0 (.write none)] ++ answerOf "r-a-1" ++ [.exec 0 .result,
    .exec 0 .return, .sched (.task 0 .send), .sched .main, .sched .main, .sched .main]

/-- Both events are written before the channel is closed. -/
theorem report_closes_stream_iff_loneTask :
    ∃ p : Process Unit, p.placed.map (·.type) = [.taskStarted, .taskSucceeded] ∧
      ReportClosesStream p := by
  have hrun : ((loneTask.processSystem.guard settled).run?
      (upToReturn.map .engine ++
        [ProcessAction.receive, .write true, .close, .receive, .write true, .report true,
        .exit])).any
        (fun p => hasReport p && p.placed.map (·.type) = [.taskStarted, .taskSucceeded]) =
        true := by
    decide +kernel
  obtain ⟨p, hp, htest⟩ := (Option.any_eq_true _ _).mp hrun
  obtain ⟨hp, hmeets⟩ := System.meets_of_guard hp
  rw [Bool.and_eq_true, decide_eq_true_iff] at htest
  exact ⟨p, htest.2, (report_closes_stream_iff loneTask .insertion (by rfl) hp htest.1).mpr hmeets⟩

/-- The report is written while an event waits in the buffer and the event goroutine holds another
one, which it writes after the report. The process exits with the last event unwritten. -/
theorem report_not_last :
    ∃ p : Process Unit, loneTask.processSystem.Reachable p ∧ p.pc = .exited ∧
      p.placed.map (·.type) = [.taskStarted, .taskSucceeded] ∧
      p.stdout.map (·.type) = ["run_accepted", "skill_invocation", "report", "event"] ∧
      ¬ ReportClosesStream p := by
  have hrun : (loneTask.processSystem.run?
      (upToReturn.map .engine ++
        [ProcessAction.receive, .close, .report true, .write true, .exit])).any
        (fun p => p.pc = .exited && p.placed.map (·.type) = [.taskStarted, .taskSucceeded] &&
          p.stdout.map (·.type) = ["run_accepted", "skill_invocation", "report",
            "event"]) = true := by
    decide +kernel
  obtain ⟨p, hp, htest⟩ := System.exists_of_run hrun
  simp only [Bool.and_eq_true, decide_eq_true_eq] at htest
  obtain ⟨⟨hpc, hplaced⟩, hstdout⟩ := htest
  refine ⟨p, hp, hpc, hplaced, hstdout, fun hclose => ?_⟩
  obtain ⟨before, rep, -, hlast, -⟩ := hclose
  have htypes := congrArg (fun l => (l.map (·.type)).getLast?) hlast
  simp [hstdout, reportMsg] at htypes

end Orchestrator.Proofs
