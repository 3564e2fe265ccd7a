import Orchestrator.Proofs.RetryLoop
import Orchestrator.Proofs.RunnerAttempts

/-!
# `Orchestrator.Proofs.SpanErrors`: the error field of a span

`executeTask` writes the error of a failed attempt into the span at once and a later success leaves
it there. The runner keeps the error in a variable of its own and writes it after its loop.
`span_errors_iff` says which results make the difference: a success that follows a failure
(`NoLateSuccess`), and for the comparison of the two engines a last failure without a text.

Both conditions are about the results of the attempts, as they come from the skills, and not about
what the engines make of them. On the side of the engine the error of a span is read off the log of
its attempts (`AttemptLog`): it is the text of the last failure, whatever came after it. On the side
of the runner the span is where the ends of its attempts have led it (`RunnerAttempts`).

To compare the engines the two have to see the same attempts, so the theorem pairs a goroutine with
a coroutine whose attempts ended alike (`AttemptResult.ending`). A task whose inputs do not resolve,
or which makes no attempt at all, has no results in the engine, and then there is nothing to
compare.
-/

set_option autoImplicit false

namespace Orchestrator.Proofs

open Orchestrator.Lib Orchestrator.Engine Orchestrator.Engine.Env
open Orchestrator.Sdk.Runner (AttemptEnd attemptEnds exists_reached reachable_spanOk)

variable {B : Type} {env : Env B}

/-- The error of a span is the one of its last attempt, and empty after a success. -/
structure ErrorMirrors (g : Goroutine) (rs : List AttemptResult) : Prop where
  succeeded : g.span.status = .succeeded → g.span.error = ""
  failed : ∀ r, rs.getLast? = some r → g.span.status ≠ .succeeded → g.span.error = r.error

/-- No success comes after a failed attempt with an error text. -/
def NoLateSuccess (rs : List AttemptResult) : Prop :=
  ∀ pre r x, rs = pre ++ [r, x] → x.ok = true → r.error = ""

/-- The last failure has a text. -/
def FailureShown (rs : List AttemptResult) : Prop :=
  ∀ r, rs.getLast? = some r → r.ok = false → r.error ≠ ""

/-- How an attempt ends, as the runner tells it. -/
def AttemptResult.ending (r : AttemptResult) : AttemptEnd := if r.ok then .succeeded else .failed

/-- The error text that failures leave. -/
theorem lastError_allFailed {rs : List AttemptResult} (h : AllFailed rs) {r : AttemptResult}
    (hr : rs.getLast? = some r) : lastError rs = r.error := by
  obtain ⟨init, rfl⟩ := List.getLast?_eq_some_iff.mp hr
  exact lastError_failed init (h r (List.mem_append_right _ (List.mem_singleton.mpr rfl)))

/-- A success leaves an empty text when no text was left before it. -/
theorem lastError_empty_iff {init : List AttemptResult} {r : AttemptResult} (h : AllFailed init)
    (hr : r.ok = true) : lastError (init ++ [r]) = "" ↔ NoLateSuccess (init ++ [r]) := by
  rw [lastError_ok init hr]
  constructor
  · rintro hnil pre x y hrs -
    rw [show pre ++ [x, y] = (pre ++ [x]) ++ [y] by simp] at hrs
    obtain ⟨rfl, -⟩ := List.append_inj' hrs rfl
    rwa [lastError_allFailed h (List.getLast?_concat ..)] at hnil
  · intro hlate
    rcases List.eq_nil_or_concat init with rfl | ⟨pre, x, rfl⟩
    · rfl
    · rw [List.concat_eq_append] at h hlate ⊢
      rw [lastError_allFailed h (List.getLast?_concat ..)]
      exact hlate pre x r (by simp) hr

variable {g : Goroutine} {n : Nat} {rs : List AttemptResult}

/-- How a task without a cancellation ends, by its results. -/
theorem Standing.ending (h : Standing env false g n rs) (hend : hasEnded g = true) :
    (rs = [] ∧ g.span.status ≠ .succeeded) ∨
    (∃ init r, rs = init ++ [r] ∧ AllFailed init ∧ r.ok = true ∧ g.span.status = .succeeded ∧
      g.span.error = lastError rs) ∨
    ∃ r, rs.getLast? = some r ∧ AllFailed rs ∧ g.span.status ≠ .succeeded ∧
      g.span.error = r.error := by
  -- A task that has ended concluded its loop, was barred from it or never entered it.
  cases h with
  | fresh hpc | inside hpc | between hpc =>
      rcases hasEnded_iff.mp hend with h | h <;> rw [h] at hpc <;> cases hpc
  | before hpc =>
      rw [hasEnded_not_before hend] at hpc
      cases hpc
  | unresolved _ _ hst _ hrs => exact Or.inl ⟨hrs, by simp [hst]⟩
  | skipped _ hc => cases hc
  | @concluded init r _ hrs h =>
      cases hok : r.ok with
      | true => exact Or.inr (Or.inl ⟨init, r, hrs, h.failed, hok, (h.won hok).1, hrs ▸ h.error⟩)
      | false =>
          refine Or.inr (Or.inr ⟨r, ?_, hrs ▸ h.failed.snoc hok, by simp [(h.lost hok).1], ?_⟩)
          · rw [hrs]
            exact List.getLast?_concat ..
          · rw [h.error, lastError_failed init hok]
  | barred _ h =>
      cases hlast : rs.getLast? with
      | none => exact Or.inl ⟨List.getLast?_eq_none_iff.mp hlast, by simp [h.status]⟩
      | some r =>
          exact Or.inr (Or.inr ⟨r, rfl, h.failed, by simp [h.status],
            h.error.trans (lastError_allFailed h.failed hlast)⟩)

/-- The span mirrors the outcome unless a success comes after a failure. -/
theorem Standing.errorMirrors_iff (h : Standing env false g n rs) (hend : hasEnded g = true) :
    ErrorMirrors g rs ↔ NoLateSuccess rs := by
  rcases h.ending hend with ⟨rfl, hst⟩ | ⟨init, r, rfl, hfail, hok, hst, herr⟩ |
    ⟨r, hlast, hfail, hst, herr⟩
  · refine iff_of_true ⟨fun h => absurd h hst, fun r hr => by cases hr⟩ fun pre r x h _ => ?_
    simp at h
  · rw [← lastError_empty_iff hfail hok, ← herr]
    exact ⟨fun h => h.succeeded hst, fun h => ⟨fun _ => h, fun _ _ hne => absurd hst hne⟩⟩
  · refine iff_of_true ⟨fun h => absurd h hst, fun x hx _ => ?_⟩ fun pre x y hrs hy => ?_
    · rw [hlast] at hx
      exact Option.some.inj hx ▸ herr
    · exact (hfail.false_of_mem (hrs ▸ by simp) hy).elim

/-- A task that an unresolved template or no attempt at all ended has no results, and a coroutine
with a limit of its own has some. -/
theorem agree_iff (h : Standing env false g n rs) (hend : hasEnded g = true)
    {pyEnv : Sdk.Runner.Env} {c : Sdk.Runner.Coro}
    (hreached : Sdk.Runner.Reached pyEnv c (rs.map AttemptResult.ending))
    (hspan : Sdk.Runner.SpanOk c) (hpc : c.pc = .returned)
    (h0 : 0 ≤ (Sdk.Runner.effectiveRetry pyEnv.wf c.task).max) :
    (g.span.error ≠ "" ↔ c.span.error.getD "" ≠ "") ↔ NoLateSuccess rs ∧ FailureShown rs := by
  have hnever : AttemptEnd.cancelled ∉ rs.map AttemptResult.ending := by
    intro hmem
    obtain ⟨r, -, hr⟩ := List.mem_map.mp hmem
    unfold AttemptResult.ending at hr
    split at hr <;> cases hr
  cases hreached with
  | cancelled h => exact absurd h hnever
  | raised h =>
      obtain ⟨e, h⟩ := h
      rw [hpc] at h
      cases h
  | fresh h =>
      rw [hpc] at h
      cases h
  | going hdone =>
      rw [hpc] at hdone
      cases hdone
  | @won pre _ hst hends herr =>
      -- Both engines succeeded with the last attempt.
      rcases h.ending hend with ⟨rfl, -⟩ | ⟨init, r, rfl, hfail, hok, -, hgo⟩ |
        ⟨r, hlast, hfail, -, -⟩
      · simp at hends
      · rw [← lastError_empty_iff hfail hok, ← hgo, herr]
        have hshown : FailureShown (init ++ [r]) := by
          intro x hx hx'
          rw [List.getLast?_concat] at hx
          obtain rfl := Option.some.inj hx
          rw [hok] at hx'
          cases hx'
        simp [hshown]
      · obtain ⟨init, rfl⟩ := List.getLast?_eq_some_iff.mp hlast
        rw [List.map_append] at hends
        have hr := (List.cons.inj (List.append_inj' hends rfl).2).1
        rw [AttemptResult.ending, hfail r (by simp)] at hr
        cases hr
  | lost _ hst hall hnil =>
      -- Both engines failed with the last attempt, and the runner's text is never empty.
      have hpy : c.span.error.getD "" ≠ "" := by
        rcases hspan.returned hpc with h | ⟨h, -⟩ | ⟨-, e, he, htext⟩
        · rw [hst] at h
          cases h
        · rw [hst] at h
          cases h
        · rw [he]
          exact htext.ne_empty
      rcases h.ending hend with ⟨rfl, -⟩ | ⟨init, r, rfl, -, hok, -⟩ | ⟨r, hlast, hfail, -, herr⟩
      · have := hnil rfl
        omega
      · have hr := hall (AttemptResult.ending r) (by simp)
        rw [AttemptResult.ending, hok] at hr
        cases hr
      · have hlate : NoLateSuccess rs := fun pre x y hrs hy =>
          (hfail.false_of_mem (hrs ▸ by simp) hy).elim
        have hshown : FailureShown rs ↔ r.error ≠ "" := by
          simp only [FailureShown, hlast]
          exact ⟨fun h => h r rfl (hfail r (List.mem_of_getLast? hlast)),
            fun h x hx _ => Option.some.inj hx ▸ h⟩
        rw [hshown, herr]
        simp [hlate, hpy]

/-- Without a cancellation, the error of a span mirrors its outcome exactly when no success comes
after a failure with a text; and it is there exactly when the runner has one for the same ends of
the attempts, when the last failure has a text as well.

The engine writes the text of each failed attempt into the span and never takes it out again. The
runner sets it at the end only. The second part compares a goroutine and a coroutine whose attempts
ended alike, in any two runs. -/
theorem span_errors_iff (env : Env B) (iter : MapOrder) (hval : env.wf.validate iter = .ok ())
    {as : List Action} {s : State B} (hrun : env.system.run? as = some s)
    (hcancel : s.cancelled = false) {i : Nat} {g : Goroutine} (hg : s.gos[i]? = some g)
    (hend : hasEnded g = true) :
    (ErrorMirrors g (attemptResults env i as) ↔ NoLateSuccess (attemptResults env i as)) ∧
    ∀ (pyEnv : Sdk.Runner.Env) (pas : List Sdk.Runner.Env.Action) (ps : Sdk.Runner.State) (j : Nat)
      (c : Sdk.Runner.Coro), pyEnv.system.run? pas = some ps → ps.coros[j]? = some c →
      c.pc = .returned → (Sdk.Runner.effectiveRetry pyEnv.wf c.task).max = retryMax env g →
      0 ≤ retryMax env g →
      attemptEnds pyEnv j pas = (attemptResults env i as).map AttemptResult.ending →
      ((g.span.error ≠ "" ↔ c.span.error.getD "" ≠ "") ↔
        NoLateSuccess (attemptResults env i as) ∧ FailureShown (attemptResults env i as)) := by
  obtain ⟨n, hlog⟩ := exists_log (accepted_of_validate hval) hrun hg
  have hst := hlog.standing
  rw [hcancel] at hst
  refine ⟨hst.errorMirrors_iff hend, fun pyEnv pas ps j c hpy hc hpc hmax h0 hends => ?_⟩
  have hreached := exists_reached hpy hc
  rw [hends] at hreached
  exact agree_iff hst hend hreached
    (reachable_spanOk (System.reachable_of_run hpy) c (List.mem_of_getElem? hc)) hpc (by omega)

/-- A run of the engine whose task fails on both of its attempts. -/
def failedTwice : List Action :=
  [.main, .main, .main, .task 0 .resolve] ++ attempt 0 (costlyFailure true) ++ [.task 0 .wake] ++
    attempt 0 (costlyFailure true)

/-- The runner with one task of two attempts, and no pause between them. -/
def retriedCoro : Sdk.Runner.Env := Sdk.Runner.plainRun
  { name := "w",
    tasks := [{ id := "a", skill := "s", retry := some { max := 1, backoff := "none" } }] }
  .async

/-- A run of the runner whose task fails on both of them, so its span has to carry the text of the
second exception. -/
def raisedTwice : List Sdk.Runner.Env.Action :=
  [.main, .main, .main, .main] ++ Sdk.Runner.wholeTask 0 {} (.exception "ValueError" "m") ++
    [.coro 0 .wake, .coro 0 .acquireSlot, .coro 0 .acquire, .coro 0 .invoke,
      .coro 0 (.finish {} (.exception "ValueError" "m"))]

/-- A task that fails on all of its attempts, in both engines. -/
theorem span_errors_iff_failure :
    ∃ s g ps c, (limitedTask 1).system.run? failedTwice = some s ∧ s.gos[0]? = some g ∧
      g.span.attempts = 2 ∧ retriedCoro.system.run? raisedTwice = some ps ∧
      ps.coros[0]? = some c ∧ c.span.attempts = 2 ∧
      ErrorMirrors g (attemptResults (limitedTask 1) 0 failedTwice) ∧
      (g.span.error ≠ "" ↔ c.span.error.getD "" ≠ "") := by
  have hrun : ((limitedTask 1).system.run? failedTwice).any
      (fun s => (s.gos[0]?).any (fun g => decide (s.cancelled = false) && hasEnded g &&
        decide (retryMax (limitedTask 1) g = 1) && decide (g.span.attempts = 2))) = true := by rfl
  have hpy : (retriedCoro.system.run? raisedTwice).any (fun s => (s.coros[0]?).any (fun c =>
      decide (c.pc = .returned) &&
        decide ((Sdk.Runner.effectiveRetry retriedCoro.wf c.task).max = 1) &&
        decide (c.span.attempts = 2))) = true := by rfl
  obtain ⟨s, g, hs, hg, hp⟩ := exists_lone hrun
  obtain ⟨ps, hps, hp'⟩ := (Option.any_eq_true _ _).mp hpy
  obtain ⟨c, hc, hp'⟩ := (Option.any_eq_true _ _).mp hp'
  simp only [Bool.and_eq_true, decide_eq_true_eq] at hp hp'
  obtain ⟨⟨⟨hcancel, hend⟩, hmax⟩, hattempts⟩ := hp
  obtain ⟨⟨hreturned, hmax'⟩, hattempts'⟩ := hp'
  obtain ⟨hmirrors, hagree⟩ :=
    span_errors_iff (limitedTask 1) .insertion (by rfl) hs hcancel hg hend
  -- Both attempts fail in both engines, so no success comes late and the failure has a text.
  have hrs : attemptResults (limitedTask 1) 0 failedTwice
      = [⟨costlyFailure true, none⟩, ⟨costlyFailure true, none⟩] := by rfl
  have hends : attemptEnds retriedCoro 0 raisedTwice = [.failed, .failed] := by rfl
  have hfailed : ∀ r ∈ attemptResults (limitedTask 1) 0 failedTwice,
      r = ⟨costlyFailure true, none⟩ := by simp [hrs]
  have hlate : NoLateSuccess (attemptResults (limitedTask 1) 0 failedTwice) :=
    fun pre r x h hx => by
      rw [hfailed x (h ▸ by simp)] at hx
      cases hx
  have hshown : FailureShown (attemptResults (limitedTask 1) 0 failedTwice) := fun r hr _ => by
    rw [hfailed r (List.mem_of_getLast? hr)]
    decide
  refine ⟨s, g, ps, c, hs, hg, hattempts, hps, hc, hattempts', hmirrors.mpr hlate, ?_⟩
  exact (hagree retriedCoro raisedTwice ps 0 c hps hc hreturned (by rw [hmax', hmax])
    (by rw [hmax]; decide) (by rw [hends, hrs]; rfl)).mpr ⟨hlate, hshown⟩

/-- A task that succeeds on its second attempt keeps the error of the first. -/
theorem span_error_stays :
    ¬ ∀ (env : Env Unit) (iter : MapOrder) (as : List Action) (s : State Unit) (g : Goroutine),
      env.wf.validate iter = .ok () → env.system.run? as = some s → s.cancelled = false →
      s.gos[0]? = some g → hasEnded g = true → ErrorMirrors g (attemptResults env 0 as) := by
  intro h
  have hrun : ((limitedTask 1).system.run? (retriedOnce true)).any
      (fun s => (s.gos[0]?).any (fun g => decide (s.cancelled = false) && hasEnded g &&
        decide (g.span.status = .succeeded) && decide (g.span.error = "E: m"))) = true := by
    rfl
  obtain ⟨s, g, hs, hg, hp⟩ := exists_lone hrun
  simp only [Bool.and_eq_true, decide_eq_true_eq] at hp
  obtain ⟨⟨⟨hcancel, hend⟩, hst⟩, herr⟩ := hp
  have hempty := (h (limitedTask 1) .insertion _ s g (by rfl) hs hcancel hg hend).succeeded hst
  rw [herr] at hempty
  exact absurd hempty (by decide)

end Orchestrator.Proofs
