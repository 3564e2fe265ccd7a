import Orchestrator.Proofs.Calls
import Orchestrator.Proofs.Cancellation
import Orchestrator.Proofs.Progress
import Orchestrator.Sdk.GoClient

/-!
# `Orchestrator.Proofs.ClientProtocol`: the wrapper never answers the engine

`proc.communicate` writes the start message and closes the input, so the pump of the engine reads
nothing but the end. A call of `Execute` that has no deadline is then never answered, and nothing
else can happen in the run (`stuck_of_waiting`, `protocol_stuck`). The binary does not stay in this
state: the Go runtime finds all goroutines asleep and aborts the process.

The protocol holds only where there is nothing to answer. When no task without dependencies gets as
far as an attempt, no task at all does (`Idle`), and the run ends with its report (`protocol_ok`). A
task fails that early when its inputs do not resolve in the inputs of the run, or when its policy
allows no attempt; its dependents are then skipped.

Three invariants are stacked. `Idle` is about the scheduler: every goroutine is before its inputs or
on its way out. `Quiet` adds the transport: there are no calls, and the pump has nothing to deliver.
`SessionInv` adds the client and the pipes. Each comes with a lemma that the step of its layer keeps
it, and `SessionInv.live` says that something can always be done before the report, so that the
session does not stop short of it.
-/

set_option autoImplicit false

namespace Orchestrator.Proofs

open Orchestrator.Lib Orchestrator.Engine Orchestrator.Engine.Env
open Orchestrator.Sdk
    (ClientPc EnginePc Session SessionAction sessionStep? sessionSystem engineStep)

variable {B : Type} {env : Env B}

/-! ### The protocol -/

/-- The line asks for an answer. -/
def isInvocation (m : OutMsg) : Bool := m.type = "skill_invocation"

/-- The number of answers that the client has sent for an id. -/
def answersSent (s : Session B) (id : String) : Nat :=
  s.sent.countP (fun m => m.type = "skill_result" ∧ m.invocationID = id)

/-- The report line is written. -/
def reported (s : Session B) : Bool := s.written.any (fun m => m.type = "report")

/-- The client is done. -/
def isFinished : ClientPc → Bool
  | .finished _ => true
  | _ => false

/-- What the protocol promises about a state: every invocation is answered, and answered once, and
the session does not get stuck before its report. -/
structure ProtocolOk (l : Launch B) (start : InMsg) (s : Session B) : Prop where
  /-- No invocation is answered twice. -/
  at_most_once : ∀ m ∈ s.written, isInvocation m = true → answersSent s m.invocationID ≤ 1
  /-- When the session is over, every invocation has been answered. -/
  answered : reported s = true ∨ isFinished s.client = true →
    ∀ m ∈ s.written, isInvocation m = true → answersSent s m.invocationID = 1
  /-- Before the report, some step other than the passing of time is enabled. -/
  live : reported s = false → isFinished s.client = false →
    ∃ a s', a.isTime = false ∧ sessionStep? l start s a = some s'

/-! ### Runs in which nothing starts -/

/-- The task fails before its first attempt: its inputs do not resolve in the run inputs, or its
policy allows no attempt. -/
def FailsEarly (env : Env B) (t : Task) : Prop :=
  (∃ e, resolve env.lib (.obj (buildScope env.inputs .empty).entries) (.obj t.inputs.entries)
    = .error e) ∨ attemptBound env t < 1

/-- No task without dependencies reaches an attempt. -/
def NothingStarts (env : Env B) : Prop :=
  ∀ t ∈ env.wf.tasks, t.dependsOn = [] → FailsEarly env t

/-- Every dispatched task is before its inputs, or on its way out with a failure. -/
def Idle (s : State B) : Prop :=
  ∀ g ∈ s.gos, (g.pc = .resolve ∨ g.pc = .send ∨ g.pc = .done) ∧ g.span.status ≠ .succeeded

/-- A recorded success is the span of a goroutine. A task that was never dispatched is recorded as
skipped. -/
theorem RunInv.succeeded_go {s : State B} (h : RunInv env s) {id : String} {sp : TaskSpan}
    (hsp : s.main.spans.get? id = some sp) (hst : sp.status = .succeeded) :
    ∃ g ∈ s.gos, g.span = sp := by
  obtain ⟨g, hg, hid⟩ := List.mem_map.mp (h.safe.good_started id (isGood_ledger.mpr ⟨sp, hsp, hst⟩))
  have hget : s.main.spans.get? g.task.id = some sp := by
    rw [← hsp]
    exact congrArg _ hid
  refine ⟨g, hg, ?_⟩
  -- A goroutine that is not done has no recorded span, so this one is, and what is recorded is its
  -- span.
  by_cases hpc : g.pc = .done
  · rcases h.flight.sent g hg hpc with hsent | hsent
    · have hnone := (h.flight.chan _ hsent).1
      rw [h.flight.span_id g hg, hget] at hnone
      cases hnone
    · rw [hget] at hsent
      exact (Option.some.inj hsent).symm
  · have hnone := h.flight.running g hg hpc
    rw [hget] at hnone
    cases hnone

/-- In an idle run no success is recorded. -/
theorem Idle.no_success {s : State B} (hidle : Idle s) (h : RunInv env s) (id : String) :
    ¬ hasSucceeded s.main.spans id = true := by
  intro hs
  obtain ⟨sp, hsp, hst⟩ := hasSucceeded_iff.mp hs
  obtain ⟨g, hg, rfl⟩ := h.succeeded_go hsp hst
  exact (hidle g hg).2 hst

/-- A map without bindings. -/
theorem dict_eq_empty {d : Dict String Json} (h : ∀ k v, d.get? k ≠ some v) : d = .empty := by
  obtain ⟨entries, hnd⟩ := d
  cases entries with
  | nil => rfl
  | cons e entries =>
      exact absurd ((Dict.mem_entries ⟨e :: entries, hnd⟩ e.1 e.2).mp List.mem_cons_self)
        (h e.1 e.2)

/-- In an idle run the dispatched tasks have no dependencies and see no results. -/
theorem Idle.root (hacc : Accepted env.wf) {s : State B} (hidle : Idle s) (h : RunInv env s)
    {g : Goroutine} (hg : g ∈ s.gos) : g.task.dependsOn = [] ∧ g.snapshot = .empty := by
  constructor
  · refine List.eq_nil_iff_forall_not_mem.mpr fun d hd => ?_
    exact hidle.no_success h d (h.deps_succeeded hacc hg hd)
  · refine dict_eq_empty fun k v hv => ?_
    obtain ⟨sp, hsp, hst, -⟩ := h.results k v ((h.snapshot g hg).sub k v hv)
    exact hidle.no_success h k (hasSucceeded_iff.mpr ⟨sp, hsp, hst⟩)

/-- A task that fails early goes from its inputs straight to its send. -/
theorem resolveInputs_of_failsEarly {g : Goroutine} (hsnap : g.snapshot = .empty)
    (h : FailsEarly env g.task) (now : Nat) : (env.resolveInputs g now).pc = .send := by
  rcases resolveInputs_cases env g now with ⟨e, -, he⟩ | ⟨r, hr, he⟩
  · rw [he]
  · rw [he]
    rcases h with ⟨e, herr⟩ | hbound
    · rw [hsnap, herr] at hr
      cases hr
    · rcases enterAttempt_cases env (firstAttempt env g now r) now 1 with ⟨hle, -⟩ | ⟨-, hpc⟩
      · exact absurd hle (by simpa [attemptBound, firstAttempt] using hbound)
      · rw [hpc]
        rfl

/-- A step keeps a run idle, when no task without dependencies reaches an attempt. -/
theorem Idle.step (hacc : Accepted env.wf)
    (hearly : NothingStarts env) {s s' : State B} {a : Action} (hidle : Idle s) (h : RunInv env s)
    (hs : env.step? s a = some s') : Idle s' := by
  -- A new goroutine stands before its inputs. One that resolves them has no dependencies, since
  -- nothing has succeeded, and fails at once.
  rcases step_inv hs with ⟨-, hm⟩ | ⟨i, b, g, -, hg, ht⟩ | ⟨-, rfl⟩ | ⟨d, -, rfl⟩
  · intro g hg
    rcases hm.gos with hgos | ⟨t, hgos⟩
    · exact hidle g (hgos ▸ hg)
    · rw [hgos, List.mem_append, List.mem_singleton] at hg
      rcases hg with hg | rfl
      · exact hidle g hg
      · exact ⟨Or.inl rfl, by simp [newGoroutine]⟩
  · have hmem := List.mem_of_getElem? hg
    obtain ⟨hpc, hst⟩ := hidle g hmem
    intro x hx
    cases ht with
    | resolve _ =>
        rcases List.mem_or_eq_of_mem_set hx with hx | rfl
        · exact hidle x hx
        · obtain ⟨hdeps, hsnap⟩ := hidle.root hacc h hmem
          refine ⟨Or.inr (Or.inl ?_), by simp⟩
          exact resolveInputs_of_failsEarly hsnap (hearly _ (h.task_mem g hmem) hdeps) _
    | send _ _ =>
        rcases List.mem_or_eq_of_mem_set hx with hx | rfl
        · exact hidle x hx
        · exact ⟨Or.inr (Or.inr rfl), hst⟩
    | cancelWait hwait _ => rcases hwait with hwait | hwait <;> simp [hwait] at hpc
    | _ => simp_all
  · exact hidle
  · exact hidle

/-! ### Sessions in which nothing starts -/

/-- The engine runs without a call of `Execute`. Then no invocation is ever written, and what is
written are the events and the report. -/
structure Quiet (env : Env B) (e : Embedded B) : Prop where
  reachable : env.embeddedSystem.Reachable e
  idle : Idle e.sched
  no_calls : e.execs = []
  no_invocation : ∀ m ∈ e.stdout, isInvocation m = false

/-- An idle goroutine does not stand at its call. -/
theorem Idle.no_call {s s' : State B} (h : Idle s) {i : Nat} :
    env.step? s (.task i .call) ≠ some s' := by
  intro hs
  obtain ⟨g, hg, ht⟩ := Option.bind_eq_some_iff.mp hs
  obtain ⟨hpc, -⟩ := h g (List.mem_of_getElem? hg)
  cases taskStep_inv ht with
  | call hcall => simp [hcall] at hpc

/-- A step of the engine keeps it quiet. The scheduler stays `Idle`, and no goroutine comes to a
call. -/
theorem Quiet.step (hacc : Accepted env.wf)
    (hearly : NothingStarts env) {e e' : Embedded B}
    {a : EmbeddedAction} (h : Quiet env e) (hs : env.embeddedStep? e a = some e') :
    Quiet env e' := by
  have hrun := reachable_runInv hacc (sched_reachable h.reachable)
  have hno : ∀ {k : Nat} {c : ExecCall}, e.execs[k]? ≠ some c := by simp [h.no_calls]
  have hstep := embedded_inv hs
  have hidle : Idle e'.sched := by
    rcases hstep.sched_step with heq | ⟨b, hb⟩
    · rw [heq]
      exact h.idle
    · exact h.idle.step hacc hearly hrun hb
  -- Without calls most steps of the transport are impossible, and the others write no invocation.
  refine ⟨h.reachable.step hs, hidle, ?_, ?_⟩
  · cases hstep with
    | call i g s ev hg hcall => exact absurd hcall h.idle.no_call
    | register _ _ hc _ | write _ _ hc _ | writeFail _ _ _ hc _ | expire _ _ hc _ _ _
    | ctxDone _ _ hc _ _ | result _ _ _ hc _ _ | «return» _ _ _ _ _ _ hc _ _ _
    | deliver _ _ _ _ hc _ => exact absurd hc hno
    | _ => exact h.no_calls
  · cases hstep with
    | call i g s ev hg hcall => exact absurd hcall h.idle.no_call
    | write _ _ hc _ => exact absurd hc hno
    | sendEvent ok ev rest he =>
        intro m hm
        cases ok with
        | false => exact h.no_invocation m hm
        | true =>
            rcases List.mem_append.mp hm with hm | hm
            · exact h.no_invocation m hm
            · obtain rfl := List.mem_singleton.mp hm
              simp [isInvocation, eventMsg]
    | _ => exact h.no_invocation

/-- A quiet engine without a report can take a step that is not the passing of time. -/
theorem Quiet.live (hacc : Accepted env.wf) {e : Embedded B} (h : Quiet env e)
    (hrep : e.sched.report? = none) :
    ∃ b e', (∀ d, b ≠ .tick d) ∧ env.embeddedStep? e (.sched b) = some e' := by
  have hrun := reachable_runInv hacc (sched_reachable h.reachable)
  have hsched : ∀ {b : Action}, isInternal b = true → (env.step? e.sched b).isSome = true →
      ∃ e', env.embeddedStep? e (.sched b) = some e' := by
    intro b hb hsome
    obtain ⟨s, hs⟩ := Option.isSome_iff_exists.mp hsome
    exact ⟨_, by rw [embeddedStep?, if_pos hb, schedStep, hs]; rfl⟩
  cases hm : env.mainStep e.sched with
  | some s =>
      obtain ⟨e', he'⟩ := hsched (b := .main) rfl (by simp [step?, hm])
      exact ⟨.main, e', by simp, he'⟩
  | none =>
      -- A task goroutine is on its way, and an idle one needs no other goroutine.
      obtain ⟨g, hg, hpc⟩ := (main_blocked hacc hrun hm hrep).running hrun
      obtain ⟨i, hi⟩ := List.mem_iff_getElem?.mp hg
      have hplace : g.pc = .resolve ∨ g.pc = .send := by
        rcases (h.idle g hg).1 with hp | hp | hp
        · exact Or.inl hp
        · exact Or.inr hp
        · exact absurd hp hpc
      have hfree : isFree g.pc = true := by rcases hplace with hp | hp <;> simp [hp, isFree]
      obtain ⟨b, hb⟩ := free_enabled hrun hi hfree
      have hinternal : isInternal (.task i b) = true := by
        obtain ⟨s, hs⟩ := Option.isSome_iff_exists.mp hb
        obtain ⟨x, hx, ht⟩ := Option.bind_eq_some_iff.mp hs
        rw [hi] at hx
        cases hx
        cases taskStep_inv ht with
        | call hp => rcases hplace with hp' | hp' <;> simp [hp'] at hp
        | ret _ _ hp => rcases hplace with hp' | hp' <;> simp [hp'] at hp
        | _ => rfl
      obtain ⟨e', he'⟩ := hsched hinternal hb
      exact ⟨.task i b, e', by simp, he'⟩

/-- What holds in a session in which nothing starts: the client sends one line and closes, and the
engine is before its start, quiet, or at its end. -/
structure SessionInv (env : Env B) (start : InMsg) (s : Session B) : Prop where
  running : ∀ env' e, s.engine = .running env' e → env' = env ∧ NothingStarts env ∧ Quiet env e
  lines : ∀ m ∈ s.written, isInvocation m = false
  /-- Until the engine has read the start message, it is in the pipe. -/
  boot : s.engine = .boot → s.client ≠ .write → s.stdin = [start]
  before : s.client = .write → s.stdin = [] ∧ s.engine = .boot
  /-- The engine exits after its report line, or is killed. -/
  exited : ∀ code out, s.engine = .exited code out →
    reported s = true ∨ isFinished s.client = true

/-- A step of the running engine in the session is one of the engine. -/
theorem engineStep_inv {s s' : Session B} {e : Embedded B} {a : EmbeddedAction}
    (h : engineStep s env e a = some s') : ∃ e' rest, env.embeddedStep? e a = some e' ∧
      s' = { s with engine := .running env e', stdin := rest } := by
  -- The steps that need something from a pipe have a guard of their own, and two steps never happen
  -- in a session.
  unfold engineStep at h
  split at h
  case h_1 => cases h
  case h_2 =>
    split at h
    · cases h
    · obtain ⟨-, h⟩ := Option.ite_none_right_eq_some.mp h
      obtain ⟨e', he', rfl⟩ := Option.map_eq_some_iff.mp h
      exact ⟨e', _, he', rfl⟩
  case h_3 =>
    obtain ⟨-, h⟩ := Option.ite_none_right_eq_some.mp h
    obtain ⟨e', he', rfl⟩ := Option.map_eq_some_iff.mp h
    exact ⟨e', _, he', rfl⟩
  case h_4 => cases h
  case h_5 => cases h
  case h_6 =>
    obtain ⟨e', he', rfl⟩ := Option.map_eq_some_iff.mp h
    exact ⟨e', _, he', rfl⟩

/-- The workflow of an accepted start message is validated. The proof follows the start message
through `accept`, `start` and `parseSpec` back to the validation in `Parse`. -/
theorem accept_validated {l : Launch B} {start : InMsg} (h : l.accept start = .accepted env) :
    env.wf.validate l.iter = .ok () := by
  -- Every other way through the start ends in an error.
  unfold Launch.accept at h
  split at h
  · cases h
  · split at h
    · cases h
    · cases h
    · cases h
    · rename_i wf hparse
      have hwf : env.wf = wf := by
        unfold Launch.start at h
        split at h
        · cases h
        · split at h
          · cases h
          · cases h
            rfl
      unfold Launch.parseSpec at hparse
      split at hparse
      · cases hparse
      · unfold parseDocument at hparse
        split at hparse
        · cases hparse
        · rw [hwf]
          exact (parse_spec hparse).1

/-- No task of the workflow without dependencies reaches an attempt, or the start message does
not fit into the scanner. -/
def NothingToAnswer (l : Launch B) (env : Env B) (start : InMsg) : Prop :=
  Launch.maxScanTokenSize ≤ l.lineBytes start ∨ NothingStarts env

/-- The first state of the engine is quiet. -/
theorem quiet_initial : Quiet env env.embeddedInitial := by
  refine ⟨.init, fun g hg => ?_, rfl, fun m hm => ?_⟩
  · cases hg
  · obtain rfl := List.mem_singleton.mp hm
    rfl

/-- The line of a fatal error asks for no answer. -/
theorem isInvocation_fatalMsg (text : String) : isInvocation (fatalMsg text) = false := by
  simp [isInvocation, fatalMsg]

/-- The report asks for no answer. -/
theorem isInvocation_reportMsg (rep : Report) : isInvocation (reportMsg rep) = false := by
  simp [isInvocation, reportMsg]

/-- The engine reads its start message. Either the run begins, and it is quiet by the condition, or
the line was too long and the engine ends with an error. -/
theorem SessionInv.boots {l : Launch B} {start : InMsg} (haccept : l.accept start = .accepted env)
    (hcond : NothingToAnswer l env start) {s s' : Session B} (h : SessionInv env start s)
    (hs : sessionStep? l start s .boot = some s') : SessionInv env start s' := by
  simp only [sessionStep?] at hs
  split at hs
  · rename_i msg rest hengine hstdin
    have hwrite : s.client ≠ .write := fun hc => by
      rw [(h.before hc).1] at hstdin
      cases hstdin
    have hmsg := h.boot hengine hwrite
    rw [hstdin] at hmsg
    obtain ⟨rfl, -⟩ := List.cons.inj hmsg
    by_cases hfits : l.lineBytes msg < Launch.maxScanTokenSize
    · rw [Launch.boot, if_pos hfits, haccept] at hs
      obtain rfl := Option.some.inj hs
      have hearly : NothingStarts env := hcond.resolve_left (by omega)
      refine ⟨fun _ _ he => ?_, quiet_initial.no_invocation, (fun hc => by cases hc),
        fun hc => absurd hc hwrite,
        (fun _ _ he => by cases he)⟩
      cases he
      exact ⟨rfl, hearly, quiet_initial⟩
    · -- The line is too long, and the engine ends with an error report.
      rw [Launch.boot, if_neg hfits] at hs
      obtain rfl := Option.some.inj hs
      refine ⟨(fun _ _ he => by cases he), fun m hm => ?_, (fun hc => by cases hc),
        fun hc => absurd hc hwrite, fun _ _ _ => Or.inl ?_⟩
      · obtain rfl := List.mem_singleton.mp hm
        exact isInvocation_fatalMsg _
      · simp [reported, Session.written, fatalMsg]
  · cases hs

/-- The engine writes its report, which is no invocation, and exits. -/
theorem SessionInv.reports {l : Launch B} {start : InMsg} {s s' : Session B}
    (h : SessionInv env start s) (hs : sessionStep? l start s .report = some s') :
    SessionInv env start s' := by
  simp only [sessionStep?] at hs
  split at hs
  · rename_i env' e hengine
    split at hs
    · rename_i rep hrep
      obtain rfl := Option.some.inj hs
      have hlines : s.written = e.stdout := by simp [Session.written, hengine]
      -- The report is appended to the lines, and the engine has exited.
      refine ⟨(fun _ _ he => by cases he), fun m hm => ?_, (fun hc => by cases hc), fun hc => ?_,
        fun _ _ _ => Or.inl ?_⟩
      · rcases List.mem_append.mp hm with hm | hm
        · exact h.lines m (hlines ▸ hm)
        · obtain rfl := List.mem_singleton.mp hm
          exact isInvocation_reportMsg rep
      · have := (h.before hc).2
        rw [hengine] at this
        cases this
      · simp [reported, Session.written, reportMsg]
    · cases hs
  · cases hs

/-- A step of the running engine keeps it quiet, so what it writes is no invocation. -/
theorem SessionInv.engine (hacc : Accepted env.wf) {l : Launch B} {start : InMsg}
    {s s' : Session B} {b : EmbeddedAction} (h : SessionInv env start s)
    (hs : sessionStep? l start s (.engine b) = some s') : SessionInv env start s' := by
  simp only [sessionStep?] at hs
  split at hs
  · rename_i env' e hengine
    obtain ⟨rfl, hearly, hquiet⟩ := h.running env' e hengine
    obtain ⟨e', rest, he', rfl⟩ := engineStep_inv hs
    have hquiet' := hquiet.step hacc hearly he'
    refine ⟨fun _ _ he => ?_, hquiet'.no_invocation, (fun hc => by cases hc), fun hc => ?_,
      (fun _ _ he => by cases he)⟩
    · cases he
      exact ⟨rfl, hearly, hquiet'⟩
    · have := (h.before hc).2
      rw [hengine] at this
      cases this
  · cases hs

/-- A step keeps the session so. The client never writes after its start message, and what the
engine writes is by `Quiet` never an invocation. -/
theorem SessionInv.step {l : Launch B} {start : InMsg} (haccept : l.accept start = .accepted env)
    (hcond : NothingToAnswer l env start) {s s' : Session B} {a : SessionAction}
    (h : SessionInv env start s) (hs : sessionStep? l start s a = some s') :
    SessionInv env start s' := by
  -- A step of the client changes the pipe or its own place. The engine has three steps with lemmas
  -- of their own.
  cases a with
  | write =>
      simp only [sessionStep?] at hs
      split at hs
      · rename_i hclient
        obtain ⟨hstdin, hboot⟩ := h.before hclient
        obtain rfl := Option.some.inj hs
        refine ⟨h.running, h.lines, fun _ _ => ?_, (fun hc => by cases hc), fun code out he => ?_⟩
        · show s.stdin ++ [start] = [start]
          rw [hstdin, List.nil_append]
        · have he' : s.engine = .exited code out := he
          rw [hboot] at he'
          cases he'
      · cases hs
  | close =>
      simp only [sessionStep?] at hs
      split at hs
      · rename_i hclient
        obtain rfl := Option.some.inj hs
        refine ⟨h.running, h.lines, fun hb _ => h.boot hb (by simp [hclient]),
          (fun hc => by cases hc),
          fun code out he => ?_⟩
        exact (h.exited code out he).imp_right fun hf => by simp [hclient, isFinished] at hf
      · cases hs
  | readLine =>
      simp only [sessionStep?] at hs
      split at hs
      · cases hs
      · obtain ⟨-, hs⟩ := Option.ite_none_right_eq_some.mp hs
        obtain rfl := Option.some.inj hs
        exact ⟨h.running, h.lines, h.boot, h.before, h.exited⟩
  | finish stderr =>
      simp only [sessionStep?] at hs
      split at hs
      · rename_i code stdout hclient hengine
        obtain ⟨-, hs⟩ := Option.ite_none_right_eq_some.mp hs
        obtain rfl := Option.some.inj hs
        exact ⟨h.running, h.lines, fun hb _ => h.boot hb (by simp [hclient]),
          (fun hc => by cases hc),
          fun _ _ _ => Or.inr rfl⟩
      · cases hs
  | timeout =>
      simp only [sessionStep?] at hs
      split at hs
      · cases hs
      · obtain rfl := Option.some.inj hs
        exact ⟨(fun _ _ he => by cases he), h.lines, (fun hc => by cases hc),
          (fun hc => by cases hc), fun _ _ _ => Or.inr rfl⟩
  | boot => exact h.boots haccept hcond hs
  | engine b => exact h.engine (accepted_of_validate (accept_validated haccept)) hs
  | report => exact h.reports hs

/-- The invariant holds in every session in which nothing starts. -/
theorem reachable_sessionInv {l : Launch B} {start : InMsg}
    (haccept : l.accept start = .accepted env)
    (hcond : NothingToAnswer l env start) {s : Session B}
    (hs : (sessionSystem l start).Reachable s) : SessionInv env start s := by
  have hinit : SessionInv env start (sessionSystem l start).init :=
    ⟨(fun _ _ he => by cases he), (fun _ hm => by cases hm), fun _ hc => absurd rfl hc,
      fun _ => ⟨rfl, rfl⟩, fun _ _ he => by cases he⟩
  exact hs.holds hinit fun _ _ _ _ h ha => h.step haccept hcond ha

/-- In such a session something can always be done before the report. The quiet engine does not wait
for the client, so it comes to its report by itself (`Idle.live`). -/
theorem SessionInv.live {l : Launch B} {start : InMsg} (haccept : l.accept start = .accepted env)
    {s : Session B} (h : SessionInv env start s) (hrep : reported s = false)
    (hfin : isFinished s.client = false) :
    ∃ a s', a.isTime = false ∧ sessionStep? l start s a = some s' := by
  -- Whatever the client still has to do it can do. While it reads, the engine starts, runs, or has
  -- a report to write.
  cases hclient : s.client with
  | write => exact ⟨.write, _, rfl, by simp only [sessionStep?, hclient]; rfl⟩
  | close => exact ⟨.close, _, rfl, by simp only [sessionStep?, hclient]; rfl⟩
  | finished r => simp [hclient, isFinished] at hfin
  | read =>
      cases hengine : s.engine with
      | boot =>
          have hstdin := h.boot hengine (by simp [hclient])
          by_cases hfits : l.lineBytes start < Launch.maxScanTokenSize
          · exact ⟨.boot, _, rfl, by
              simp only [sessionStep?, hengine, hstdin, Launch.boot, hfits, if_true, haccept]
              rfl⟩
          · exact ⟨.boot, _, rfl, by
              simp only [sessionStep?, hengine, hstdin, Launch.boot, hfits, if_false]
              rfl⟩
      | running env' e =>
          obtain ⟨rfl, -, hquiet⟩ := h.running env' e hengine
          cases hr : e.sched.report? with
          | some rep => exact ⟨.report, _, rfl, by simp only [sessionStep?, hengine, hr]; rfl⟩
          | none =>
              have hacc := accepted_of_validate (accept_validated haccept)
              obtain ⟨b, e', hb, he'⟩ := hquiet.live hacc hr
              refine ⟨.engine (.sched b), { s with engine := .running env' e' }, ?_, ?_⟩
              · cases b with
                | tick d => exact absurd rfl (hb d)
                | _ => rfl
              · simp only [sessionStep?, hengine, engineStep, he', Option.map_some]
      | exited code out =>
          rcases h.exited code out hengine with hr | hf
          · rw [hr] at hrep
            cases hrep
          · rw [hf] at hfin
            cases hfin

/-- Where no task without dependencies reaches an attempt, the protocol holds in every state of
every session: no invocation is answered twice, all are answered when the session is over, and until
then some step is enabled.

The condition is all but empty, and this is the point: the wrapper never answers an invocation. So
the invariant of the session is that no invocation is ever written, and the promises about
invocations hold for want of any. -/
theorem protocol_ok (l : Launch B) (start : InMsg) (env : Env B)
    (haccept : l.accept start = .accepted env) (hcond : NothingToAnswer l env start)
    {s : Session B} (hs : (sessionSystem l start).Reachable s) : ProtocolOk l start s := by
  have hinv := reachable_sessionInv haccept hcond hs
  refine ⟨fun m hm hi => ?_, fun _ m hm hi => ?_, hinv.live haccept⟩ <;>
    · rw [hinv.lines m hm] at hi
      cases hi

/-! ### The end of the input while a call waits -/

/-- The pump has stopped, and every task goroutine that has not finished is in a call of
`Execute` that has no deadline and no result. -/
structure Waiting (env : Env B) (e : Embedded B) : Prop where
  pump : e.pump = .stopped
  events : e.events = []
  calls : ∀ c ∈ e.execs, c.pc = .returned ∨
    (c.pc = .select ∧ c.ch = none ∧ c.expired = false ∧ env.hasTimeout e c = false)
  running : e.sched.cancelled = false
  main : Blocked e.sched
  gos : ∀ g ∈ e.sched.gos, g.pc = .exec ∨ g.pc = .done

/-- A blocked main goroutine takes no step. -/
theorem Blocked.not_stepped {s s' : State B} (h : Blocked s) : ¬ MainStepped env s s' := by
  intro hm
  have hempty := h.empty
  cases hm with
  | receive span rest r hpc hch hr =>
      rw [hempty] at hch
      cases hch
  | drain span rest hpc hf hch =>
      rw [hempty] at hch
      cases hch
  | drained hpc hf => exact hf h.in_flight
  | enter hpc _ | leave hpc _ _ | block hpc _ | dispatch _ _ _ hpc _ _ | finish hpc =>
      rcases h.pc with hp | hp <;> simp [hp] at hpc

/-- Only time passes for a waiting engine. Each kind of step needs something that `Waiting` denies:
a message, a goroutine outside of its call, or an event in the buffer. -/
theorem Waiting.stuck {e e' : Embedded B} (h : Waiting env e) {a : EmbeddedAction}
    (hs : env.embeddedStep? e a = some e') : ∃ d, a = .sched (.tick d) := by
  have hcall : ∀ {k : Nat} {c : ExecCall}, e.execs[k]? = some c → c.pc = .returned ∨
      (c.pc = .select ∧ c.ch = none ∧ c.expired = false ∧ env.hasTimeout e c = false) :=
    fun hc => h.calls _ (List.mem_of_getElem? hc)
  have hpump := h.pump
  cases embedded_inv hs with
  | sched a s ev hi hsched =>
      rcases step_inv hsched with ⟨-, hm⟩ | ⟨i, b, g, rfl, hg, ht⟩ | ⟨rfl, -⟩ | ⟨d, rfl, -⟩
      · exact absurd hm h.main.not_stepped
      · -- A goroutine in a call waits for its return, which is no step of the scheduler alone.
        rcases h.gos g (List.mem_of_getElem? hg) with hpc | hpc
        · cases ht with
          | ret res err _ => cases hi
          | cancelWait hw _ => rcases hw with hw | hw <;> simp [hw] at hpc
          | _ => simp_all
        · cases ht with
          | cancelWait hw _ => rcases hw with hw | hw <;> simp [hw] at hpc
          | _ => simp_all
      · cases hi
      · exact ⟨d, rfl⟩
  | call i g s ev hg hsched =>
      obtain ⟨x, hx, ht⟩ := Option.bind_eq_some_iff.mp hsched
      cases taskStep_inv ht with
      | call hpc => rcases h.gos x (List.mem_of_getElem? hx) with hp | hp <;> simp [hp] at hpc
  | register k c hc hpc => rcases hcall hc with hp | ⟨hp, -⟩ <;> simp [hp] at hpc
  | write k c hc hpc => rcases hcall hc with hp | ⟨hp, -⟩ <;> simp [hp] at hpc
  | writeFail k c err hc hpc => rcases hcall hc with hp | ⟨hp, -⟩ <;> simp [hp] at hpc
  | expire k c hc hpc ht _ =>
      rcases hcall hc with hp | ⟨-, -, -, hp⟩
      · exact absurd hp hpc
      · rw [hp] at ht
        cases ht
  | ctxDone k c hc hpc hdone =>
      rcases hcall hc with hp | ⟨-, -, hp, -⟩
      · simp [hp] at hpc
      · simp [hp, h.running] at hdone
  | result k c res hc hpc hch =>
      rcases hcall hc with hp | ⟨-, hp, -⟩
      · simp [hp] at hpc
      · rw [hp] at hch
        cases hch
  | «return» k c res err s ev hc hpc _ _ => rcases hcall hc with hp | ⟨hp, -⟩ <;> simp [hp] at hpc
  | sendEvent ok ev rest he =>
      rw [h.events] at he
      cases he
  | skipLine hp | readResult _ hp _ | readCancel _ _ _ hp _ _ | readOther _ hp _ | eof hp
  | found _ _ hp _ | unknown _ hp _ | deliver _ _ _ hp _ _ | check hp =>
      rw [hpump] at hp
      cases hp

/-- So only time passes in a session whose client has read all lines of a waiting engine. -/
theorem stuck_of_waiting {l : Launch B} {start : InMsg} {s : Session B} {e : Embedded B}
    (hclient : s.client = .read) (hengine : s.engine = .running env e) (h : Waiting env e)
    (hread : s.linesRead = s.written.length) {a : SessionAction} {s' : Session B}
    (hs : sessionStep? l start s a = some s') : a.isTime = true := by
  -- The client has nothing left to read, the engine is not at its end, and its own steps are those
  -- of a waiting engine.
  cases a with
  | timeout => rfl
  | engine b =>
      simp only [sessionStep?, hengine] at hs
      obtain ⟨e', rest, he', -⟩ := engineStep_inv hs
      obtain ⟨d, rfl⟩ := h.stuck he'
      rfl
  | report =>
      have hnone : e.sched.report? = none := by
        rcases h.main.pc with hp | hp <;> simp [State.report?, hp]
      simp only [sessionStep?, hengine, hnone] at hs
      cases hs
  | readLine =>
      simp only [sessionStep?, hclient, hread, lt_irrefl, if_false] at hs
      cases hs
  | write | close | finish _ | boot =>
      simp only [sessionStep?, hclient, hengine] at hs
      cases hs

/-! ### Two sessions -/

/-- A launch whose start message holds the document `doc` and no inputs. Its limiter grants
everything, so nothing but the protocol decides the run. -/
def launchOf (doc : Json) : Launch Unit where
  lib := { plainLib with unmarshal := fun _ => some doc }
  iter := .insertion
  limiter := { new := fun _ _ _ => (), tryAcquire := fun _ _ => (true, ()) }
  lineBytes := fun _ => 200
  unmarshalError := fun _ => ""
  runID := "r"
  startedAt := 0

/-- The start message of a run without inputs. -/
def plainStart : InMsg := { type := "start_run", specJSON := "{}", inputsJSON := "" }

/-- A document with one task whose only input is `text`. -/
def oneTaskDocument (text : String) : Json :=
  .obj [("workflow", .obj [("name", .str "w"), ("tasks", .arr [.obj [("id", .str "a"),
    ("skill", .str "s"), ("inputs", .obj [("x", .str text)])]])])]

/-- The run that the start message begins, if it passes a test. A start message that is not accepted
fails it. -/
def accepts (l : Launch Unit) (start : InMsg) (p : Env Unit → Bool) : Bool :=
  match l.accept start with
  | .accepted env => p env
  | _ => false

/-- What the check found of the run that a start message begins. -/
theorem exists_of_accepts {l : Launch Unit} {start : InMsg} {p : Env Unit → Bool}
    (h : accepts l start p = true) : ∃ env, l.accept start = .accepted env ∧ p env = true := by
  unfold accepts at h
  split at h
  · rename_i env henv
    exact ⟨env, henv, h⟩
  · cases h

/-- A check that implies `NothingStarts`. -/
def nothingStarts (env : Env B) : Bool :=
  env.wf.tasks.all (fun t =>
    !(resolve env.lib (.obj (buildScope env.inputs .empty).entries) (.obj t.inputs.entries)).toBool)

/-- The check implies that no task without dependencies reaches an attempt. -/
theorem nothingStarts_of_check (h : nothingStarts env = true) : NothingStarts env := by
  intro t ht _
  have := List.all_eq_true.mp h t ht
  cases hr : resolve env.lib (.obj (buildScope env.inputs .empty).entries) (.obj t.inputs.entries)
  with
  | error e => exact Or.inl ⟨e, hr⟩
  | ok v => simp [hr, Except.toBool] at this

/-- The client sends the start message and closes the input, and the engine starts. -/
def opening : List SessionAction :=
  [.write, .close, .boot] ++ List.replicate 3 (.engine (.sched .main)) ++
    [.engine (.sched (.task 0 .resolve))]

/-- The only task refers to an input that is missing. The session ends with the report. -/
theorem protocol_ok_missingInput :
    ∃ env s, (launchOf (oneTaskDocument "$\x7binput.y\x7d")).accept plainStart = .accepted env ∧
      reported s = true ∧
      ProtocolOk (launchOf (oneTaskDocument "$\x7binput.y\x7d")) plainStart s := by
  obtain ⟨env, haccept, hstarts⟩ := @exists_of_accepts
    (launchOf (oneTaskDocument "$\x7binput.y\x7d")) plainStart nothingStarts (by decide +kernel)
  have hrun : ((sessionSystem (launchOf (oneTaskDocument "$\x7binput.y\x7d")) plainStart).run?
      (opening ++ [SessionAction.engine (.sched (.task 0 .send))] ++
        List.replicate 3 (.engine (.sched .main)) ++
        [SessionAction.report])).any reported = true := by
    decide +kernel
  obtain ⟨s, hs, hrep⟩ := System.exists_of_run hrun
  exact ⟨env, s, haccept, hrep,
    protocol_ok _ _ env haccept (Or.inr (nothingStarts_of_check hstarts)) hs⟩

/-- A check that implies `Waiting`. It looks at every goroutine of the engine and finds none that
can move, apart from the clock. -/
def waitingCheck (env : Env B) (e : Embedded B) : Bool :=
  decide (e.pump = .stopped) && e.events.isEmpty &&
    e.execs.all (fun c => c.pc = .select ∧ c.ch = none ∧ c.expired = false ∧
      env.hasTimeout e c = false) &&
    !e.sched.cancelled &&
    (match e.sched.main.pc with
      | .recv => true
      | _ => false) &&
    decide (0 < e.sched.main.inFlight) && e.sched.doneCh.isEmpty &&
    e.sched.gos.all (fun g => g.pc = .exec)

/-- The check implies that the engine waits for an answer and for nothing else. -/
theorem waiting_of_check {e : Embedded B} (h : waitingCheck env e = true) : Waiting env e := by
  simp only [waitingCheck, Bool.and_eq_true, decide_eq_true_eq, List.isEmpty_iff, List.all_eq_true,
    Bool.not_eq_true'] at h
  obtain ⟨⟨⟨⟨⟨⟨⟨hpump, hevents⟩, hcalls⟩, hrun⟩, hmain⟩, hflight⟩, hch⟩, hgos⟩ := h
  refine ⟨hpump, hevents, fun c hc => Or.inr (hcalls c hc), hrun, ⟨Or.inl ?_, hflight, hch⟩,
    fun g hg => Or.inl (hgos g hg)⟩
  split at hmain
  · assumption
  · cases hmain

/-- The client reads and the engine waits for an answer. Both wait for the other, and nothing is in
the pipes between them. -/
def leftWaiting (s : Session B) : Bool :=
  match s.client, s.engine with
  | .read, .running env e =>
    waitingCheck env e && decide (s.linesRead = s.written.length) && !reported s
  | _, _ => false

/-- A session that passes the check has no report and no end, and only time passes in it. -/
theorem leftWaiting_stuck {l : Launch B} {start : InMsg} {s : Session B}
    (h : leftWaiting s = true) : reported s = false ∧ isFinished s.client = false ∧
      ∀ a s', sessionStep? l start s a = some s' → a.isTime = true := by
  unfold leftWaiting at h
  split at h
  · rename_i env e hclient hengine
    simp only [Bool.and_eq_true, decide_eq_true_eq, Bool.not_eq_true'] at h
    obtain ⟨⟨hwait, hread⟩, hrep⟩ := h
    exact ⟨hrep, by rw [hclient]; rfl,
      fun a s' ha => stuck_of_waiting hclient hengine (waiting_of_check hwait) hread ha⟩
  · cases h

/-- The steps of the only task of a workflow through its call of `Execute`, up to its `select`. -/
def invoking : List SessionAction :=
  [.engine (.sched (.task 0 .takeSlot)), .engine (.sched (.task 0 .acquire)), .engine (.call 0),
    .engine (.exec 0 .register), .engine (.exec 0 (.write none))]

/-- The only task calls `Execute`, and its invocation is written. The pump finds the end of the
input, and the client has read all lines. The invocation is not answered, and no step of either side
is left that could answer it. The Go runtime notices and aborts the engine, without a report. -/
theorem protocol_stuck :
    ∃ (l : Launch Unit) (start : InMsg) (env : Env Unit) (s : Session Unit),
      l.accept start = .accepted env ∧ (sessionSystem l start).Reachable s ∧
      (∃ m ∈ s.written, isInvocation m = true ∧ answersSent s m.invocationID = 0) ∧
      (∀ a s', sessionStep? l start s a = some s' → a.isTime = true) ∧ ¬ ProtocolOk l start s := by
  obtain ⟨env, haccept, -⟩ := @exists_of_accepts (launchOf (oneTaskDocument "v")) plainStart
    (fun _ => true) (by rfl)
  -- The run is computed, and a check on its last state implies that nothing but time can pass.
  have hrun : ((sessionSystem (launchOf (oneTaskDocument "v")) plainStart).run?
      (opening ++ invoking ++ [SessionAction.engine (.pump .eof), .engine (.sendEvent true)] ++
        List.replicate 3 .readLine)).any
        (fun s => s.written.any (fun m => isInvocation m && answersSent s m.invocationID == 0) &&
          leftWaiting s) = true := by decide +kernel
  obtain ⟨s, hs, hp⟩ := System.exists_of_run hrun
  obtain ⟨hwritten, hwait⟩ := Bool.and_eq_true_iff.mp hp
  obtain ⟨m, hm, hopen⟩ := List.any_eq_true.mp hwritten
  rw [Bool.and_eq_true, beq_iff_eq] at hopen
  obtain ⟨hrep, hfin, hstuck⟩ := leftWaiting_stuck hwait
  refine ⟨_, _, env, s, haccept, hs, ⟨m, hm, hopen⟩, hstuck, fun hok => ?_⟩
  obtain ⟨a, s', htime, ha⟩ := hok.live hrep hfin
  rw [hstuck a s' ha] at htime
  cases htime

end Orchestrator.Proofs
