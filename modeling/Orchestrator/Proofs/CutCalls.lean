import Orchestrator.Proofs.Correlation
import Orchestrator.Proofs.EmbeddedSteps
import Orchestrator.Proofs.EventStream
import Orchestrator.Proofs.RetryLoop

/-!
# `Orchestrator.Proofs.CutCalls`: how a cancelled task is classified

A cancellation may reach a task while it waits for its slot or a token, between two attempts, or
inside `Execute`. The waits of `executeTask` make the span a skipped one. `Execute` reports the
cancelled context as an error like any other, so a call that is cut off counts as a failed attempt:
`cancellation_classified_iff` says that the task is classified right exactly when attempts were
left.

`embeddedResults` are the results that the stdio transport hands to a goroutine, and
`exists_embedded_log` that the attempt loop stands in the engine as it does in the scheduler alone.
So the classification is read off the log of the attempts. A task failed on its own (`OwnFailure`)
when its inputs do not resolve, when its limit allows no attempt, or when its last permitted attempt
failed without being cut off; a task that neither succeeded nor failed on its own was cancelled, and
its span should be a skipped one (`Classified`).

The cases follow `Standing`. Where the loop was interrupted the span is right. Where it ended with a
result, everything depends on whether that result is a call that was cut off
(`Concluded.classified_iff`). A call can only be cut off after the cancellation (`CutAfterCancel`),
which is what makes the text of its error a reliable sign.

The last section carries the statement from the goroutines to the failed spans of the report.
-/

set_option autoImplicit false

namespace Orchestrator.Proofs

open Orchestrator.Lib Orchestrator.Engine Orchestrator.Engine.Env

variable {B : Type} {env : Env B}

/-! ### Results in the embedded engine -/

/-- `Execute` returned because the run context was cancelled. -/
def AttemptResult.cutOff (r : AttemptResult) : Bool := decide (r.err = some "context canceled")

/-- The result that a step of the engine hands to the `i`-th goroutine. It is the return of a call
of `Execute`, whatever has decided it. -/
def handedTo (i : Nat) (e : Embedded B) : EmbeddedAction → Option AttemptResult
  | .exec k .return => (e.execs[k]?).bind fun c =>
    if c.go = i then c.outcome.map fun o => ⟨o.1, o.2⟩ else none
  | _ => none

/-- The results that `Execute` returned to the `i`-th goroutine in a run of the engine, in order. -/
def embeddedResults (env : Env B) (i : Nat) (as : List EmbeddedAction) : List AttemptResult :=
  env.embeddedSystem.observe (handedTo i) env.embeddedInitial as

/-- A call that reports the cancelled context does so after the cancellation. -/
def CutAfterCancel (e : Embedded B) : Prop :=
  ∀ c ∈ e.execs, ∀ res, c.outcome = some (res, some "context canceled") → e.sched.cancelled = true

/-- A step of one call keeps `CutAfterCancel`, if the new outcome of that call is no cut before the
cancellation. -/
theorem CutAfterCancel.set {e e' : Embedded B} {k : Nat} {c' : ExecCall} (h : CutAfterCancel e)
    (hexecs : e'.execs = e.execs.set k c')
    (hc : e.sched.cancelled = true → e'.sched.cancelled = true)
    (hnew : ∀ res, c'.outcome = some (res, some "context canceled") → e'.sched.cancelled = true) :
    CutAfterCancel e' := by
  intro c hmem
  rw [hexecs] at hmem
  refine forall_mem_set (P := fun c => ∀ res, c.outcome = some (res, some "context canceled") →
    e'.sched.cancelled = true) (fun x hx res hres => hc (h x hx res hres)) hnew c hmem

/-- A step of the engine keeps `CutAfterCancel`. A call ends with the error of its context only from
its `select`, and there the context has a reason to have ended. -/
theorem EmbeddedStep.cutAfterCancel {e e' : Embedded B} {a : EmbeddedAction}
    (hs : EmbeddedStep env e a e') (h : CutAfterCancel e) : CutAfterCancel e' := by
  have hc := hs.cancelled_persist
  have hold : ∀ {k : Nat} {c : ExecCall}, e.execs[k]? = some c → ∀ res,
      c.outcome = some (res, some "context canceled") → e'.sched.cancelled = true :=
    fun hk res hres => hc (h _ (List.mem_of_getElem? hk) res hres)
  cases hs with
  | call i g s ev _ _ =>
      intro c hmem res hres
      rcases List.mem_append.mp hmem with hmem | hmem
      · exact hc (h c hmem res hres)
      · obtain rfl := List.mem_singleton.mp hmem
        cases hres
  | writeFail k c err _ _ =>
      refine h.set rfl hc fun res hres => ?_
      -- The text of a failed write starts otherwise.
      have herr := congrArg (Option.map (fun o => o.2.map fun t => t.toList.head?)) hres
      simp at herr
  | ctxDone k c hk _ hdone =>
      refine h.set rfl hc fun res hres => ?_
      rcases hdone with hexp | hdone
      · have herr := congrArg (Option.map (·.2)) hres
        simp only [Option.map_some, ctxErr, hexp, if_true] at herr
        exact absurd herr (by decide)
      · exact hdone
  | result k c res _ _ _ =>
      refine h.set rfl hc fun res' hres => ?_
      cases hres
  | register k c hk => exact h.set rfl hc fun res hres => hold hk res hres
  | write k c hk => exact h.set rfl hc fun res hres => hold hk res hres
  | expire k c hk => exact h.set rfl hc fun res hres => hold hk res hres
  | deliver k id c res hk => exact h.set rfl hc fun res hres => hold hk res hres
  | «return» k c res err s ev hk => exact h.set rfl hc fun res hres => hold hk res hres
  | _ => exact fun c hmem res hres => hc (h c hmem res hres)

/-- What a run of the engine tells of the `i`-th goroutine: its log, and that a call is cut off only
after the run was cancelled. -/
structure EmbeddedLogged (env : Env B) (i : Nat) (rs : List AttemptResult) (e : Embedded B) :
    Prop where
  logged : Logged env i rs e.sched
  calls : CutAfterCancel e
  cut : ∀ r ∈ rs, r.cutOff = true → e.sched.cancelled = true

/-- A step of the engine keeps the log of every goroutine. The step inside the scheduler extends it
(`Logged.step`), and what a return hands over is the outcome of the call. -/
theorem EmbeddedLogged.step (hacc : Accepted env.wf) {i : Nat} {rs : List AttemptResult}
    {e e' : Embedded B} {a : EmbeddedAction} (hr : env.embeddedSystem.Reachable e)
    (h : EmbeddedLogged env i rs e) (ha : env.embeddedSystem.step? e a = some e') :
    EmbeddedLogged env i (rs ++ (handedTo i e a).toList) e' := by
  have hs := embedded_inv ha
  have hsched := sched_reachable hr
  -- A step that hands nothing over.
  have hquiet : ∀ b, env.step? e.sched b = some e'.sched → returnedTo i e.sched b = none →
      handedTo i e a = none → EmbeddedLogged env i (rs ++ (handedTo i e a).toList) e' := by
    intro b hb hret hnone
    have hlog := h.logged.step hacc hsched hb
    rw [hret, Option.toList_none, List.append_nil] at hlog
    rw [hnone, Option.toList_none, List.append_nil]
    exact ⟨hlog, hs.cutAfterCancel h.calls, fun r hr' hc => hs.cancelled_persist (h.cut r hr' hc)⟩
  have hstill : e'.sched = e.sched → handedTo i e a = none →
      EmbeddedLogged env i (rs ++ (handedTo i e a).toList) e' := by
    intro heq hnone
    rw [hnone, Option.toList_none, List.append_nil]
    exact ⟨heq ▸ h.logged, hs.cutAfterCancel h.calls, fun r hr' hc => heq ▸ h.cut r hr' hc⟩
  cases hs' : hs with
  | sched b s ev hi hb =>
      refine hquiet b hb ?_ rfl
      cases b with
      | task j t => cases t <;> first | rfl | cases hi
      | _ => rfl
  | call j g s ev _ hb => exact hquiet _ hb rfl rfl
  | readCancel msg s ev _ _ hb => exact hquiet _ hb rfl rfl
  | «return» k c res err s ev hk _ hout hb =>
      have heq : handedTo i e (.exec k .return)
          = returnedTo i e.sched (.task c.go (.ret res err)) := by
        simp [handedTo, returnedTo, hk, hout]
      refine ⟨heq ▸ h.logged.step hacc hsched hb, hs.cutAfterCancel h.calls, fun r hmem hcut => ?_⟩
      rcases List.mem_append.mp hmem with hmem | hmem
      · exact hs.cancelled_persist (h.cut r hmem hcut)
      · -- The result handed over is the one the call has settled on.
        rw [heq, returnedTo] at hmem
        split at hmem
        · obtain rfl : r = ⟨res, err⟩ := by simpa using hmem
          refine hs.cancelled_persist (h.calls c (List.mem_of_getElem? hk) res ?_)
          rw [hout, show err = some "context canceled" from of_decide_eq_true hcut]
        · cases hmem
  | _ => exact hstill rfl rfl

/-- At the end of every run of the engine, each goroutine has a log, and no call was cut off before
the cancellation. -/
theorem exists_embedded_log (hacc : Accepted env.wf) {as : List EmbeddedAction} {e : Embedded B}
    (hrun : env.embeddedSystem.run? as = some e) {i : Nat} {g : Goroutine}
    (hg : e.sched.gos[i]? = some g) :
    (∃ n, Log env e.sched g (embeddedResults env i as) n) ∧
      ∀ r ∈ embeddedResults env i as, r.cutOff = true → e.sched.cancelled = true := by
  have hinit : EmbeddedLogged env i [] env.embeddedInitial :=
    ⟨⟨fun g hg => (by cases hg), fun _ => rfl⟩, fun c hc => (by cases hc),
      fun r hr => (by cases hr)⟩
  have h := System.observe_induct (P := EmbeddedLogged env i) hinit
    (fun rs e a e' hr h ha => h.step hacc hr ha) hrun
  exact ⟨h.logged.log g hg, h.cut⟩

/-! ### Classification -/

/-- The task failed on its own: its inputs do not resolve, its limit allows no attempt, or its last
permitted attempt failed without being cut off. -/
def OwnFailure (env : Env B) (g : Goroutine) (rs : List AttemptResult) : Prop :=
  (∃ err, resolvedInputs env g = .error err) ∨ ¬ 1 ≤ int64 (retryMax env g + 1) ∨
    ∃ r, rs.getLast? = some r ∧ r.ok = false ∧ r.cutOff = false ∧ retryMax env g < rs.length

/-- The last attempt succeeded. -/
def OwnSuccess (rs : List AttemptResult) : Prop := ∃ r, rs.getLast? = some r ∧ r.ok = true

/-- A task that neither succeeded nor failed on its own is skipped, whatever it was doing. -/
structure Classified (env : Env B) (s : State B) (g : Goroutine) (rs : List AttemptResult) :
    Prop where
  stopped : ¬ OwnSuccess rs → ¬ OwnFailure env g rs →
    g.span.status = .skipped ∧ g.span.error = "cancelled"
  cut : ∀ r, rs.getLast? = some r → r.cutOff = true →
    g.span.status = .skipped ∧ g.span.error = "cancelled"
  failed : g.span.status = .failed ↔ OwnFailure env g rs
  cause : g.span.status = .skipped → s.cancelled = true

/-- A call that is cut off has attempts left after it. -/
def LeftAtCut (env : Env B) (g : Goroutine) (rs : List AttemptResult) : Prop :=
  ∀ r, rs.getLast? = some r → r.cutOff = true → (rs.length : Int) ≤ retryMax env g

/-- A call that was cut off has not succeeded. -/
theorem AttemptResult.not_ok_of_cutOff {r : AttemptResult} (h : r.cutOff = true) :
    r.ok = false := by
  have herr : r.err = some "context canceled" := of_decide_eq_true h
  simp [ok, herr]

/-- A result is not both a value and an error. -/
theorem not_error_of_ok {α : Type} {x : Except String α} (h : ∃ r, x = .ok r) :
    ¬ ∃ err, x = .error err := by
  rintro ⟨err, he⟩
  obtain ⟨r, hr⟩ := h
  rw [hr] at he
  cases he

/-- No attempt both succeeded and was cut off: the text of a cancelled call is an error. -/
theorem AttemptResult.not_cutOff_of_ok {r : AttemptResult} (h : r.ok = true) :
    r.cutOff = false := by
  by_contra hcut
  rw [not_ok_of_cutOff (by simpa using hcut)] at h
  cases h

/-- The last result of a log is one value, the one it ends with. -/
theorem getLast?_concat_iff {rs init : List AttemptResult} {r : AttemptResult}
    (hrs : rs = init ++ [r]) (x : AttemptResult) : rs.getLast? = some x ↔ r = x := by
  rw [hrs, List.getLast?_concat]
  exact Option.some_inj

/-- The last call, if there was one, came back of itself. Then `LeftAtCut` and the `cut` of
`Classified` ask for nothing. -/
def Uncut (rs : List AttemptResult) : Prop := ∀ r, rs.getLast? = some r → r.cutOff = false

/-- A task without a call has none that was cut off. -/
theorem Uncut.nil : Uncut [] := fun _ hr => by cases hr

/-- Where nothing was cut off, nothing is asked of the attempts left. -/
theorem Uncut.leftAtCut {g : Goroutine} {rs : List AttemptResult} (h : Uncut rs) :
    LeftAtCut env g rs := by
  intro r hr hcut
  rw [h r hr] at hcut
  cases hcut

/-- A failed span is right when the task failed on its own and its last call was not cut off. -/
theorem Classified.of_failed {s : State B} {g : Goroutine} {rs : List AttemptResult}
    (hst : g.span.status = .failed) (hown : OwnFailure env g rs) (huncut : Uncut rs) :
    Classified env s g rs := by
  refine ⟨fun _ hno => absurd hown hno, fun r hr hcut => ?_, iff_of_true hst hown, fun hsk => ?_⟩
  · rw [huncut r hr] at hcut
    cases hcut
  · rw [hst] at hsk
    cases hsk

/-- A succeeded span is right when the last attempt succeeded. -/
theorem Classified.of_succeeded {s : State B} {g : Goroutine} {rs : List AttemptResult}
    (hst : g.span.status = .succeeded) (hown : OwnSuccess rs) (hno : ¬ OwnFailure env g rs) :
    Classified env s g rs := by
  obtain ⟨r, hlast, hok⟩ := hown
  refine ⟨fun hnot => absurd ⟨r, hlast, hok⟩ hnot, fun x hx hcut => ?_,
    iff_of_false (by simp [hst]) hno, fun hsk => ?_⟩
  · obtain rfl := Option.some.inj (hlast.symm.trans hx)
    rw [AttemptResult.not_cutOff_of_ok hok] at hcut
    cases hcut
  · rw [hst] at hsk
    cases hsk

/-- The loop was interrupted with attempts left, so the task has not failed on its own. -/
theorem Interrupted.not_ownFailure {g : Goroutine} {rs : List AttemptResult}
    (h : Interrupted env g rs) : ¬ OwnFailure env g rs := by
  rintro (hres | hbar | ⟨r, hr, -, -, hlt⟩)
  · exact not_error_of_ok h.resolved hres
  · exact hbar h.started
  · have := h.budget (by rintro rfl; cases hr)
    omega

/-- Below the largest int64, the loop refuses no later attempt: it was barred before the first. -/
theorem Barred.nil {g : Goroutine} {rs : List AttemptResult} (h : Barred env g rs)
    (hmax : retryMax env g < 2 ^ 63) : rs = [] := by
  by_contra hnil
  obtain ⟨hle, hstart⟩ := h.budget hnil
  have hbar := h.barred
  rw [int64_succ (by omega) hmax] at hbar hstart
  split at hbar <;> omega

/-- A task whose loop ended with a success did not fail on its own. -/
theorem Concluded.not_ownFailure {g : Goroutine} {rs init : List AttemptResult} {r : AttemptResult}
    (h : Concluded env g init r) (hrs : rs = init ++ [r]) (hok : r.ok = true) :
    ¬ OwnFailure env g rs := by
  rintro (hres | hbar | ⟨x, hx, hx', -⟩)
  · exact not_error_of_ok h.resolved hres
  · exact hbar h.started
  · obtain rfl := (getLast?_concat_iff hrs x).mp hx
    rw [hok] at hx'
    cases hx'

/-- A loop that ended with a result: the task is classified right unless that result is the
cut-off call of the last permitted attempt, for which the task counts as failed. -/
theorem Concluded.classified_iff {s : State B} {g : Goroutine} {rs init : List AttemptResult}
    {r : AttemptResult} (h : Concluded env g init r) (hrs : rs = init ++ [r]) :
    Classified env s g rs ↔ LeftAtCut env g rs := by
  have hlast := getLast?_concat_iff hrs
  have hlen : (rs.length : Int) = init.length + 1 := by rw [hrs]; simp
  have huncut : r.cutOff = false → Uncut rs := fun hcut x hx => (hlast x).mp hx ▸ hcut
  cases hok : r.ok with
  | true =>
      exact iff_of_true
        (.of_succeeded (h.won hok).1 ⟨r, (hlast r).mpr rfl, hok⟩ (h.not_ownFailure hrs hok))
        (huncut (AttemptResult.not_cutOff_of_ok hok)).leftAtCut
  | false =>
      obtain ⟨hst, hlt⟩ := h.lost hok
      cases hcut : r.cutOff with
      | true =>
          -- No attempt is left, and the span says failed where it should say skipped.
          refine iff_of_false (fun hright => ?_) fun hleft => ?_
          · have hsk := (hright.cut r ((hlast r).mpr rfl) hcut).1
            rw [hst] at hsk
            cases hsk
          · have := hleft r ((hlast r).mpr rfl) hcut
            omega
      | false =>
          have hown : OwnFailure env g rs :=
            Or.inr (Or.inr ⟨r, (hlast r).mpr rfl, hok, hcut, by omega⟩)
          exact iff_of_true (.of_failed hst hown (huncut hcut)) (huncut hcut).leftAtCut

/-- An ended task is classified right exactly when it had attempts left at a cut-off call. -/
theorem Standing.classified_iff {s : State B} {g : Goroutine} {n : Nat} {rs : List AttemptResult}
    (h : Standing env s.cancelled g n rs) (hend : hasEnded g = true)
    (hmax : retryMax env g < 2 ^ 63) :
    Classified env s g rs ↔ LeftAtCut env g rs := by
  -- A task that has ended did so in one of four ways, and only the last of them depends on a call
  -- that was cut off.
  cases h with
  | fresh hpc | inside hpc | between hpc =>
      rcases hasEnded_iff.mp hend with h | h <;> rw [h] at hpc <;> cases hpc
  | before hpc =>
      rw [hasEnded_not_before hend] at hpc
      cases hpc
  | unresolved _ hres hst _ hrs =>
      subst hrs
      exact iff_of_true (.of_failed hst (Or.inl hres) .nil) Uncut.nil.leftAtCut
  | skipped _ hc h =>
      refine iff_of_true ⟨fun _ _ => ⟨h.status, h.error⟩, fun _ _ _ => ⟨h.status, h.error⟩,
        iff_of_false (by simp [h.status]) h.not_ownFailure, fun _ => hc⟩ fun r hr _ => ?_
      exact h.budget (by rintro rfl; cases hr)
  | barred _ h =>
      obtain rfl := h.nil hmax
      have hown : OwnFailure env g [] := Or.inr (Or.inl (by simpa using h.barred))
      exact iff_of_true (.of_failed h.status hown .nil) Uncut.nil.leftAtCut
  | concluded _ hrs h => exact h.classified_iff hrs

/-- A last result beyond the limit has ended the loop. So when the last result is that of a cut
call, the span is settled by it. -/
theorem Standing.concluded_of_out {c : Bool} {g : Goroutine} {n : Nat} {init : List AttemptResult}
    {r : AttemptResult} (h : Standing env c g n (init ++ [r]))
    (hout : retryMax env g < init.length + 1) : Concluded env g init r := by
  have hne : init ++ [r] ≠ [] := by simp
  have hlen : ((init ++ [r]).length : Int) = init.length + 1 := by simp
  -- In every other place the results stay within the limit.
  cases h with
  | fresh _ _ hnil | unresolved _ _ _ _ hnil => exact absurd hnil hne
  | before _ h | inside _ h | between _ h =>
      have := h.budget hne
      omega
  | skipped _ _ h =>
      have := h.budget hne
      omega
  | barred _ h =>
      have := (h.budget hne).1
      omega
  | concluded _ hlast h =>
      obtain ⟨rfl, hr⟩ := List.append_inj' hlast rfl
      obtain rfl := (List.cons.inj hr).1
      exact h

/-- A cut-off call without an attempt left makes the task a failed one, though not on its own. -/
theorem Standing.failed_of_cut {c : Bool} {g : Goroutine} {n : Nat} {rs : List AttemptResult}
    (h : Standing env c g n rs) (hout : ¬ LeftAtCut env g rs) :
    g.span.status = .failed ∧ ¬ OwnFailure env g rs := by
  unfold LeftAtCut at hout
  push Not at hout
  obtain ⟨r, hlast, hcut, hlt⟩ := hout
  obtain ⟨init, rfl⟩ := List.getLast?_eq_some_iff.mp hlast
  have hend := h.concluded_of_out (by simpa using hlt)
  refine ⟨(hend.lost (AttemptResult.not_ok_of_cutOff hcut)).1, ?_⟩
  rintro (hres | hbar | ⟨x, hx, -, hx', -⟩)
  · exact not_error_of_ok hend.resolved hres
  · exact hbar hend.started
  · rw [hlast] at hx
    obtain rfl := Option.some.inj hx
    rw [hcut] at hx'
    cases hx'

/-! ### Whole runs -/

/-- The failed spans of a report are those of the tasks that failed on their own. -/
def FailedSpansOwn (env : Env B) (e : Embedded B) (as : List EmbeddedAction)
    (rep : Report) : Prop :=
  ∀ id, (∃ sp ∈ rep.tasks, sp.id = id ∧ sp.status = .failed) ↔
    ∃ i g, e.sched.gos[i]? = some g ∧ g.task.id = id ∧ OwnFailure env g (embeddedResults env i as)

/-- The failed spans of a finished run are those of its failed goroutines. A span of a report comes
from a goroutine, or it is the skip of a task that was never dispatched. -/
theorem failed_span_iff (hacc : Accepted env.wf) {s : State B} (hs : env.system.Reachable s)
    {rep : Report} (hrep : s.report? = some rep) (id : String) :
    (∃ sp ∈ rep.tasks, sp.id = id ∧ sp.status = .failed) ↔
      ∃ (i : Nat) (g : Goroutine), s.gos[i]? = some g ∧ g.task.id = id ∧
        g.span.status = .failed := by
  have h := reachable_runInv hacc hs
  obtain ⟨hzero, -, now, rfl⟩ := h.returned hrep
  constructor
  · rintro ⟨sp, hsp, rfl, hst⟩
    obtain ⟨id, -, hget⟩ := mem_report_tasks.mp hsp
    obtain rfl := h.spans.key id sp hget
    -- A task that was not dispatched has a skipped span.
    have hgo : sp.id ∈ goIds s.gos := by
      by_contra hgo
      have hsk := (reachable_streamed hacc hs).unstarted sp.id sp hgo hget
      rw [hst] at hsk
      cases hsk
    obtain ⟨g, hg, hid⟩ := List.mem_map.mp hgo
    obtain ⟨i, hi⟩ := List.mem_iff_getElem?.mp hg
    have hspan := (h.flight.all_recorded hzero g hg).2
    rw [hid, hget] at hspan
    obtain rfl := Option.some.inj hspan
    exact ⟨i, g, hi, hid, hst⟩
  · rintro ⟨i, g, hg, rfl, hst⟩
    have hmem := List.mem_of_getElem? hg
    refine ⟨g.span, mem_report_tasks.mpr ⟨g.task.id, ?_, (h.flight.all_recorded hzero g hmem).2⟩,
      h.flight.span_id g hmem, hst⟩
    exact List.mem_map_of_mem (h.task_mem g hmem)

/-- The cancellation is classified right exactly where each cut-off call has an attempt left.

A cancelled call returns an error like any other. With an attempt left the loop goes on to the next
wait, which notices the cancellation and skips the task; without one the task has failed. The first
part says it of each task, the second one of the failed spans of a report. -/
theorem cancellation_classified_iff (env : Env B) (iter : MapOrder)
    (hval : env.wf.validate iter = .ok ()) {as : List EmbeddedAction} {e : Embedded B}
    (hrun : env.embeddedSystem.run? as = some e)
    (hmax : ∀ g ∈ e.sched.gos, retryMax env g < 2 ^ 63) :
    (∀ i g, e.sched.gos[i]? = some g → hasEnded g = true →
      (∀ r ∈ embeddedResults env i as, r.cutOff = true → e.sched.cancelled = true) ∧
      (Classified env e.sched g (embeddedResults env i as) ↔
        LeftAtCut env g (embeddedResults env i as))) ∧
    ∀ rep, e.sched.report? = some rep → (FailedSpansOwn env e as rep ↔
      ∀ i g, e.sched.gos[i]? = some g → LeftAtCut env g (embeddedResults env i as)) := by
  have hacc := accepted_of_validate hval
  have hs := sched_reachable (System.reachable_of_run hrun)
  refine ⟨fun i g hg hend => ?_, fun rep hrep => ?_⟩
  · obtain ⟨⟨n, hlog⟩, hcut⟩ := exists_embedded_log hacc hrun hg
    exact ⟨hcut, hlog.standing.classified_iff hend (hmax g (List.mem_of_getElem? hg))⟩
  have h := reachable_runInv hacc hs
  have hzero := (h.returned hrep).1
  have hended : ∀ i g, e.sched.gos[i]? = some g → hasEnded g = true := fun i g hg =>
    hasEnded_iff.mpr (Or.inr (h.flight.all_recorded hzero g (List.mem_of_getElem? hg)).1)
  unfold FailedSpansOwn
  simp only [failed_span_iff hacc hs hrep]
  constructor
  · intro hown i g hg
    obtain ⟨⟨n, hlog⟩, -⟩ := exists_embedded_log hacc hrun hg
    by_contra hout
    obtain ⟨hst, hnot⟩ := hlog.standing.failed_of_cut hout
    -- The task has one goroutine, which did not fail on its own.
    obtain ⟨j, x, hx, hid, hxown⟩ := (hown g.task.id).mp ⟨i, g, hg, rfl, hst⟩
    have hxg := h.flight.go_unique (List.mem_of_getElem? hx) (List.mem_of_getElem? hg) hid
    subst hxg
    have hlt := (List.getElem?_eq_some_iff.mp hx).1
    obtain rfl :=
      (List.getElem?_inj hlt (List.Nodup.of_map _ h.flight.ids_nodup)).mp (hx.trans hg.symm)
    exact hnot hxown
  · intro hleft id
    have hiff : ∀ i g, e.sched.gos[i]? = some g →
        (g.span.status = .failed ↔ OwnFailure env g (embeddedResults env i as)) := by
      intro i g hg
      obtain ⟨⟨n, hlog⟩, -⟩ := exists_embedded_log hacc hrun hg
      exact ((hlog.standing.classified_iff (hended i g hg)
        (hmax g (List.mem_of_getElem? hg))).mpr (hleft i g hg)).failed
    refine exists_congr fun i => exists_congr fun g => ?_
    constructor
    · rintro ⟨hg, hid, hst⟩
      exact ⟨hg, hid, (hiff i g hg).mp hst⟩
    · rintro ⟨hg, hid, hown⟩
      exact ⟨hg, hid, (hiff i g hg).mpr hown⟩

/-- The only call of a run is sent, and the run is cancelled before its answer. -/
def cutWhileWaiting : List EmbeddedAction :=
  upToRegistered ++ [.exec 0 (.write none), .pump (.line (some { type := "cancel_run" })),
    .exec 0 .ctxDone, .exec 0 .return]

/-- The state and the one goroutine at the end of a run of the engine that passes a test. -/
theorem exists_embedded {env : Env Unit} {as : List EmbeddedAction}
    {p : Embedded Unit → Goroutine → Bool}
    (h : (env.embeddedSystem.run? as).any
      (fun e => e.sched.gos.length = 1 && (e.sched.gos[0]?).any (p e)) = true) :
    ∃ e g, env.embeddedSystem.run? as = some e ∧ e.sched.gos = [g] ∧ p e g = true := by
  obtain ⟨e, he, hp⟩ := (Option.any_eq_true _ _).mp h
  rw [Bool.and_eq_true, decide_eq_true_iff] at hp
  obtain ⟨g, hg⟩ := List.length_eq_one_iff.mp hp.1
  rw [hg] at hp
  exact ⟨e, g, he, hg, hp.2⟩

/-- With a retry left, the cut-off call leads to a cancelled wait, and the task is skipped as it
should be. -/
theorem cancellation_classified_iff_retry :
    ∃ (e : Embedded Unit) (g : Goroutine), e.sched.gos[0]? = some g ∧ hasEnded g = true ∧
      e.sched.cancelled = true ∧ g.span.status = .skipped ∧
      Classified (limitedTask 1) e.sched g (embeddedResults (limitedTask 1) 0
        (cutWhileWaiting ++ [.sched (.task 0 .wake), .sched (.task 0 .cancelSlot)])) := by
  -- The cancelled call counts as the first attempt, and the wait for the slot of the second one is
  -- cancelled.
  have hrun : ((limitedTask 1).embeddedSystem.run?
      (cutWhileWaiting ++ [EmbeddedAction.sched (.task 0 .wake), .sched (.task 0 .cancelSlot)])).any
      (fun e => e.sched.gos.length = 1 && (e.sched.gos[0]?).any (fun g => hasEnded g &&
        e.sched.cancelled && decide (g.span.status = .skipped) &&
        decide (retryMax (limitedTask 1) g = 1))) = true := by rfl
  obtain ⟨e, g, he, hgos, hp⟩ := exists_embedded hrun
  simp only [Bool.and_eq_true, decide_eq_true_eq] at hp
  obtain ⟨⟨⟨hend, hcancel⟩, hst⟩, hmax⟩ := hp
  have hg : e.sched.gos[0]? = some g := by rw [hgos]; rfl
  have hone : (embeddedResults (limitedTask 1) 0
      (cutWhileWaiting ++ [EmbeddedAction.sched (.task 0 .wake),
        .sched (.task 0 .cancelSlot)])).length = 1 := by
    rfl
  obtain ⟨hright, -⟩ := cancellation_classified_iff (limitedTask 1) .insertion (by rfl) he
    fun x hx => by
      rw [hgos, List.mem_singleton] at hx
      rw [hx, hmax]
      decide
  refine ⟨e, g, hg, hend, hcancel, hst, ((hright 0 g hg hend).2).mpr fun r _ _ => ?_⟩
  rw [hone, hmax]
  decide

/-- Without a retry, the cut-off call makes the cancelled task a failed one. Nothing distinguishes
the error of the context from an error of the skill. -/
theorem cancelled_task_failed :
    ¬ ∀ (env : Env Unit) (iter : MapOrder) (as : List EmbeddedAction) (e : Embedded Unit)
      (g : Goroutine), env.wf.validate iter = .ok () → env.embeddedSystem.run? as = some e →
      (∀ x ∈ e.sched.gos, retryMax env x < 2 ^ 63) → e.sched.gos[0]? = some g →
      hasEnded g = true → Classified env e.sched g (embeddedResults env 0 as) := by
  intro h
  -- Here no attempt is left, so the loop ends with the cancelled call.
  have hrun : ((limitedTask 0).embeddedSystem.run? cutWhileWaiting).any
      (fun e => e.sched.gos.length = 1 && (e.sched.gos[0]?).any (fun g => hasEnded g &&
        decide (g.span.status = .failed) && decide (g.span.error = "context canceled") &&
        decide (retryMax (limitedTask 0) g = 0))) = true := by rfl
  obtain ⟨e, g, he, hgos, hp⟩ := exists_embedded hrun
  simp only [Bool.and_eq_true, decide_eq_true_eq] at hp
  obtain ⟨⟨⟨hend, hst⟩, -⟩, hmax⟩ := hp
  have hright := h _ .insertion _ e g (by rfl) he
    (fun x hx => by
      rw [hgos, List.mem_singleton] at hx
      rw [hx, hmax]
      decide)
    (by rw [hgos]; rfl) hend
  have hcut : ((embeddedResults (limitedTask 0) 0 cutWhileWaiting).getLast?).any
      AttemptResult.cutOff = true := by rfl
  obtain ⟨r, hr, hcut⟩ := (Option.any_eq_true _ _).mp hcut
  have hsk := (hright.cut r hr hcut).1
  rw [hst] at hsk
  cases hsk

end Orchestrator.Proofs
