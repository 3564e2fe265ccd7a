import Orchestrator.Proofs.TaskData
import Orchestrator.Proofs.Usage

/-!
# `Orchestrator.Proofs.AttemptLog`: the attempts of a task, from the calls it made

`attemptResults` are the results that `Execute` returned to a goroutine in a run, errors included,
and `callsFor` the calls made for a task. `Log` says where the attempt loop of `executeTask` stands
after them: the calls are numbered without a gap, all results but the last have failed, and the
variables of the loop are what these results make of them. One step keeps it (`Log.taskStep`), so it
holds at the end of every run (`exists_log`).

A goroutine is in one of five situations (`Standing`): it has not begun, its loop goes on
(`Ongoing`), the cancelled context has ended it (`Interrupted`), its last result has (`Concluded`),
or the condition of the loop has (`Barred`). Where the goroutine is in the code decides which of
them are possible (`Standing.of_before`, `Standing.of_exec` and so on), and each kind of step has a
lemma that says how the log grows (`Log.call`, `Log.result`, `Log.wake` and so on). `Log.taskStep`
only puts them together.

The log is what the modules about retries use: the number of attempts, the error of a span, and
whether an error was retryable are all read off it, without looking at the scheduler again.
-/

set_option autoImplicit false

namespace Orchestrator.Proofs

open Orchestrator.Lib Orchestrator.Engine Orchestrator.Engine.Env

variable {B : Type} {env : Env B}

/-! ### Results -/

/-- What one call of `Execute` returned. -/
structure AttemptResult where
  res : Result
  err : Option String
deriving DecidableEq

namespace AttemptResult

/-- The attempt succeeded. -/
def ok (r : AttemptResult) : Bool := r.err.isNone && r.res.err.isNone

/-- The error text of a failed attempt. The error of the call goes before the one of the result. -/
def error (r : AttemptResult) : String :=
  (r.err.orElse fun _ => r.res.err.map SkillError.error).getD ""

/-- The error that the skill answered with, when the call itself came through. -/
def skillError (r : AttemptResult) : Option SkillError :=
  if r.err = none then r.res.err else none

/-- An attempt that a skill answered with an error has not succeeded. -/
theorem not_ok_of_skillError {r : AttemptResult} {e : SkillError} (h : r.skillError = some e) :
    r.ok = false := by
  obtain ⟨-, he⟩ := Option.ite_none_right_eq_some.mp h
  simp [ok, he]

end AttemptResult

/-- No attempt succeeded. -/
def AllFailed (rs : List AttemptResult) : Prop := ∀ r ∈ rs, r.ok = false

/-- One more failed attempt. -/
theorem AllFailed.snoc {rs : List AttemptResult} (h : AllFailed rs) {r : AttemptResult}
    (hr : r.ok = false) : AllFailed (rs ++ [r]) := by
  intro x hx
  rcases List.mem_append.mp hx with hx | hx
  · exact h x hx
  · exact List.mem_singleton.mp hx ▸ hr

/-- The error text of the last failed attempt. -/
def lastError (rs : List AttemptResult) : String :=
  ((rs.filter fun r => !r.ok).getLast?.map AttemptResult.error).getD ""

/-- After a failed attempt the last error is the error of that attempt. -/
theorem lastError_failed (rs : List AttemptResult) {r : AttemptResult} (hr : r.ok = false) :
    lastError (rs ++ [r]) = r.error := by
  simp [lastError, List.filter_append, hr]

/-- A successful attempt leaves the last error as it was. -/
theorem lastError_ok (rs : List AttemptResult) {r : AttemptResult} (hr : r.ok = true) :
    lastError (rs ++ [r]) = lastError rs := by
  simp [lastError, List.filter_append, hr]

/-- The result that a step hands to the `i`-th goroutine. -/
def returnedTo (i : Nat) (_ : State B) : Action → Option AttemptResult
  | .task j (.ret res err) => if j = i then some ⟨res, err⟩ else none
  | _ => none

/-- The results that `Execute` returned to the `i`-th goroutine in a run, in order. -/
def attemptResults (env : Env B) (i : Nat) (as : List Action) : List AttemptResult :=
  env.system.observe (returnedTo i) env.initial as

/-! ### Calls -/

/-- The calls of `Execute` for a task, in order. -/
def callsFor (s : State B) (id : String) : List Invocation :=
  (s.calls.map (·.inv)).filter (·.taskID = id)

/-- The invocation of a goroutine's attempt, counted from 0. Of the goroutine it uses nothing that
an attempt changes, so it can be computed before or after. -/
def nthCall (env : Env B) (g : Goroutine) (k : Nat) : Invocation where
  runID := env.runID
  taskID := g.task.id
  skill := g.task.skill
  inputsJSON := g.inputsJSON
  attempt := k + 1
  invocationID := env.runID ++ "-" ++ g.task.id ++ "-" ++ toString ((k : Int) + 1)

/-- The goroutine has returned its span. -/
def hasEnded (g : Goroutine) : Bool := decide (g.pc = .send ∨ g.pc = .done)

/-- The retry limit of a task. -/
def retryMax (env : Env B) (g : Goroutine) : Int :=
  (g.task.effectiveRetry env.wf.defaultRetry).max

/-! ### The attempt loop -/

/-- The loop goes on after failed attempts. The inputs have been resolved, the span still says
that it has failed, and the last clauses say that the loop had reason to make the attempts that
it made. -/
structure Ongoing (env : Env B) (g : Goroutine) (rs : List AttemptResult) : Prop where
  resolved : ∃ r, resolvedInputs env g = .ok r
  failed : AllFailed rs
  status : g.span.status = .failed
  error : g.span.error = lastError rs
  started : 1 ≤ int64 (retryMax env g + 1)
  budget : rs ≠ [] → (rs.length : Int) ≤ retryMax env g

/-- The cancelled context ended the loop before a call. The attempt that was under way is counted in
the span, although no result belongs to it. -/
structure Interrupted (env : Env B) (g : Goroutine) (rs : List AttemptResult) : Prop where
  resolved : ∃ r, resolvedInputs env g = .ok r
  failed : AllFailed rs
  status : g.span.status = .skipped
  error : g.span.error = "cancelled"
  attempts : g.span.attempts = rs.length + 1
  started : 1 ≤ int64 (retryMax env g + 1)
  budget : rs ≠ [] → (rs.length : Int) ≤ retryMax env g

/-- The loop ended with the last result: a success, or the failure of the last attempt that the
policy allows. -/
structure Concluded (env : Env B) (g : Goroutine) (init : List AttemptResult) (r : AttemptResult) :
    Prop where
  resolved : ∃ r, resolvedInputs env g = .ok r
  failed : AllFailed init
  attempts : g.span.attempts = init.length + 1
  error : g.span.error = lastError (init ++ [r])
  started : 1 ≤ int64 (retryMax env g + 1)
  budget : init ≠ [] → (init.length : Int) ≤ retryMax env g
  won : r.ok = true →
    g.span.status = .succeeded ∧ g.span.output = env.decodeOutput r.res.outputJSON
  lost : r.ok = false → g.span.status = .failed ∧ retryMax env g < init.length + 1

/-- The condition of the loop failed before an attempt. In the source this takes a bound that is
below one, or one that has wrapped around. -/
structure Barred (env : Env B) (g : Goroutine) (rs : List AttemptResult) : Prop where
  failed : AllFailed rs
  status : g.span.status = .failed
  attempts : g.span.attempts = rs.length
  error : g.span.error = lastError rs
  barred : ¬ (rs.length + 1 : Int) ≤ int64 (retryMax env g + 1)
  budget : rs ≠ [] → (rs.length : Int) ≤ retryMax env g ∧ 1 ≤ int64 (retryMax env g + 1)

/-- Where a goroutine stands in `executeTask` after `n` calls and the results `rs`. Each constructor
is a place in the loop, with what is known there, so a statement about the loop is proved by going
through the places. -/
inductive Standing (env : Env B) (cancelled : Bool) (g : Goroutine) (n : Nat)
    (rs : List AttemptResult) : Prop
  | fresh (hpc : g.pc = .resolve) (hn : n = 0) (hrs : rs = [])
  | unresolved (hend : hasEnded g = true) (hres : ∃ e, resolvedInputs env g = .error e)
      (hst : g.span.status = .failed) (hn : n = 0) (hrs : rs = [])
  | before (hpc : beforeCall g.pc = true) (h : Ongoing env g rs)
      (hatt : g.span.attempts = rs.length + 1) (hn : n = rs.length)
  | inside (hpc : g.pc = .exec) (h : Ongoing env g rs)
      (hatt : g.span.attempts = rs.length + 1) (hn : n = rs.length + 1)
  | between (hpc : g.pc = .sleep) (h : Ongoing env g rs)
      (hatt : g.span.attempts = rs.length) (hn : n = rs.length)
  | skipped (hend : hasEnded g = true) (hc : cancelled = true) (h : Interrupted env g rs)
      (hn : n = rs.length)
  | concluded {init : List AttemptResult} {r : AttemptResult} (hend : hasEnded g = true)
      (hrs : rs = init ++ [r]) (h : Concluded env g init r) (hn : n = rs.length)
  | barred (hend : hasEnded g = true) (h : Barred env g rs) (hn : n = rs.length)

/-- The attempts of a goroutine, from the calls for its task and the results returned to it. The
existential in `standing` hides the situation, which the place of the goroutine gives back. -/
structure Log (env : Env B) (s : State B) (g : Goroutine) (rs : List AttemptResult) (n : Nat) :
    Prop where
  standing : Standing env s.cancelled g n rs
  calls : callsFor s g.task.id = (List.range n).map (nthCall env g)
  returned : g.returned = rs.map (·.res)
  decisions : g.span.decisions = rs.flatMap fun r => env.convertDecisions r.res.decisions

/-! ### The standing of a goroutine at its step -/

section

variable {c : Bool} {g : Goroutine} {n : Nat} {rs : List AttemptResult}

/-- A goroutine has returned its span when it is about to send it, or has sent it. -/
theorem hasEnded_iff : hasEnded g = true ↔ g.pc = .send ∨ g.pc = .done := by
  simp [hasEnded]

/-- A goroutine that has returned its span stands before no call. -/
theorem hasEnded_not_before (h : hasEnded g = true) : beforeCall g.pc = false := by
  rcases hasEnded_iff.mp h with h | h <;> rw [h] <;> rfl

/-- Before a call the loop goes on, with one attempt begun beyond the results, and as many calls as
results. -/
theorem Standing.of_before (h : Standing env c g n rs) (hpc : beforeCall g.pc = true) :
    Ongoing env g rs ∧ g.span.attempts = rs.length + 1 ∧ n = rs.length := by
  cases h with
  | before _ h hatt hn => exact ⟨h, hatt, hn⟩
  | fresh h => rw [h] at hpc; cases hpc
  | inside h => rw [h] at hpc; cases hpc
  | between h => rw [h] at hpc; cases hpc
  | unresolved h | skipped h | concluded h | barred h =>
      rw [hasEnded_not_before h] at hpc
      cases hpc

/-- In a call the loop goes on, and the result of one call is still to come. -/
theorem Standing.of_exec (h : Standing env c g n rs) (hpc : g.pc = .exec) :
    Ongoing env g rs ∧ g.span.attempts = rs.length + 1 ∧ n = rs.length + 1 := by
  cases h with
  | inside _ h hatt hn => exact ⟨h, hatt, hn⟩
  | fresh h | between h => rw [h] at hpc; cases hpc
  | before h => rw [hpc] at h; cases h
  | unresolved h | skipped h | concluded h | barred h =>
      rcases hasEnded_iff.mp h with h | h <;> rw [h] at hpc <;> cases hpc

/-- In the pause before a retry every attempt that was begun has its result. -/
theorem Standing.of_sleep (h : Standing env c g n rs) (hpc : g.pc = .sleep) :
    Ongoing env g rs ∧ g.span.attempts = rs.length ∧ n = rs.length := by
  cases h with
  | between _ h hatt hn => exact ⟨h, hatt, hn⟩
  | fresh h | inside h => rw [h] at hpc; cases hpc
  | before h => rw [hpc] at h; cases h
  | unresolved h | skipped h | concluded h | barred h =>
      rcases hasEnded_iff.mp h with h | h <;> rw [h] at hpc <;> cases hpc

/-- Before its inputs are resolved a goroutine has called nothing. -/
theorem Standing.of_resolve (h : Standing env c g n rs) (hpc : g.pc = .resolve) :
    n = 0 ∧ rs = [] := by
  cases h with
  | fresh _ hn hrs => exact ⟨hn, hrs⟩
  | inside h | between h => rw [h] at hpc; cases hpc
  | before h => rw [hpc] at h; cases h
  | unresolved h | skipped h | concluded h | barred h =>
      rcases hasEnded_iff.mp h with h | h <;> rw [h] at hpc <;> cases hpc

/-- The loop goes on with another wait of the same attempt. -/
theorem Ongoing.wait (h : Ongoing env g rs) (pc : TaskPc) : Ongoing env { g with pc := pc } rs :=
  ⟨h.resolved, h.failed, h.status, h.error, h.started, h.budget⟩

/-- The cancelled context ends the task before a call. -/
theorem Standing.skip (h : Standing env true g n rs) (hpc : beforeCall g.pc = true) (now : Nat) :
    Standing env true (skipSpan g now) n rs := by
  obtain ⟨h, hatt, hn⟩ := h.of_before hpc
  exact .skipped rfl rfl ⟨h.resolved, h.failed, rfl, rfl, hatt, h.started, h.budget⟩ hn

/-- The head of the loop after failed attempts. -/
theorem standing_enterAttempt (c : Bool) (now : Nat) (hres : ∃ r, resolvedInputs env g = .ok r)
    (hfail : AllFailed rs) (hst : g.span.status = .failed)
    (herr : g.span.error = lastError rs) (hatt : g.span.attempts = rs.length)
    (hbudget : rs ≠ [] → (rs.length : Int) ≤ retryMax env g ∧ 1 ≤ int64 (retryMax env g + 1)) :
    Standing env c (env.enterAttempt g (rs.length + 1) now) rs.length rs := by
  rcases enterAttempt_cases env g now (rs.length + 1) with ⟨hle, he⟩ | ⟨hle, he⟩
  · rw [he]
    refine .before rfl ⟨hres, hfail, hst, herr, ?_, fun hne => (hbudget hne).1⟩ rfl rfl
    show 1 ≤ int64 (retryMax env g + 1)
    unfold retryMax
    omega
  · rw [he]
    exact .barred rfl ⟨hfail, hst, hatt, herr, hle, hbudget⟩ rfl

/-- Merging the usage of an attempt leaves the error of the span alone. -/
@[simp] theorem mergeUsage_error (env : Env B) (span : TaskSpan) (res : Result) :
    (env.mergeUsage span res).error = span.error := by
  unfold mergeUsage
  split <;> rfl

/-- Merging the usage of an attempt appends its decisions. -/
@[simp] theorem mergeUsage_decisions (env : Env B) (span : TaskSpan) (res : Result) :
    (env.mergeUsage span res).decisions = span.decisions ++ env.convertDecisions res.decisions := by
  unfold mergeUsage
  split <;> rfl

/-- What a goroutine makes of a result: it succeeds, sleeps before another attempt, or fails for
good. The source tests for another attempt in both of its error branches; here the two are one. -/
theorem afterExecute_result (env : Env B) (g : Goroutine) (now : Nat) (r : AttemptResult) :
    (r.ok = false ∧ g.span.attempts ≤ retryMax env g ∧
      env.afterExecute g r.res r.err now =
        { g with
            pc := .sleep
            span := { env.mergeUsage g.span r.res with error := r.error }
            returned := g.returned ++ [r.res] }) ∨
    (r.ok = false ∧ retryMax env g < g.span.attempts ∧
      env.afterExecute g r.res r.err now =
        finishSpan { g with
            span := { env.mergeUsage g.span r.res with error := r.error }
            returned := g.returned ++ [r.res] } now) ∨
    (r.ok = true ∧
      env.afterExecute g r.res r.err now =
        finishSpan { g with
            span := { env.mergeUsage g.span r.res with
              status := .succeeded, output := env.decodeOutput r.res.outputJSON }
            returned := g.returned ++ [r.res] } now) := by
  obtain ⟨res, err⟩ := r
  unfold afterExecute retryMax
  simp only [mergeUsage_attempts]
  -- The error of the call goes before that of the result, and the loop tests the limit in both
  -- branches.
  cases err with
  | some e =>
      by_cases ha : g.span.attempts ≤ (g.task.effectiveRetry env.wf.defaultRetry).max
      · exact Or.inl ⟨rfl, ha, by simp [ha, AttemptResult.error]⟩
      · exact Or.inr (Or.inl ⟨rfl, not_le.mp ha, by simp [ha, AttemptResult.error]⟩)
  | none =>
      cases hres : res.err with
      | some e =>
          have hok : (AttemptResult.mk res none).ok = false := by simp [AttemptResult.ok, hres]
          by_cases ha : g.span.attempts ≤ (g.task.effectiveRetry env.wf.defaultRetry).max
          · exact Or.inl ⟨hok, ha, by simp [ha, AttemptResult.error, hres]⟩
          · exact Or.inr (Or.inl ⟨hok, not_le.mp ha, by simp [ha, AttemptResult.error, hres]⟩)
      | none => exact Or.inr (Or.inr ⟨by simp [AttemptResult.ok, hres], rfl⟩)

/-- The return of `Execute` ends the loop or leads to the next attempt. The result joins those
handed over, and the place says which of the two it was. -/
theorem standing_afterExecute {now : Nat} (h : Ongoing env g rs)
    (hatt : g.span.attempts = rs.length + 1) (r : AttemptResult) :
    Standing env c (env.afterExecute g r.res r.err now) (rs.length + 1) (rs ++ [r]) := by
  have hlen : (rs ++ [r]).length = rs.length + 1 := by simp
  rcases afterExecute_result env g now r with ⟨hok, hle, he⟩ | ⟨hok, hlt, he⟩ | ⟨hok, he⟩
    <;> rw [he]
  · -- A failure with attempts left: the results are one more, and all of them failures.
    refine .between rfl ⟨h.resolved, h.failed.snoc hok, ?_, ?_, h.started, fun _ => ?_⟩ ?_ hlen.symm
    · simpa using h.status
    · exact (lastError_failed rs hok).symm
    · show ((rs ++ [r]).length : Int) ≤ retryMax env g
      rw [hlen]
      omega
    · simp [hatt]
  · -- The last permitted attempt has failed.
    refine .concluded rfl rfl ⟨h.resolved, h.failed, ?_, ?_, h.started, h.budget, fun hr => ?_,
      fun _ => ?_⟩ hlen.symm
    · simpa using hatt
    · exact (lastError_failed rs hok).symm
    · rw [hok] at hr
      cases hr
    · exact ⟨by simpa using h.status, by rw [← hatt]; exact hlt⟩
  · refine .concluded rfl rfl ⟨h.resolved, h.failed, ?_, ?_, h.started, h.budget,
      fun _ => ⟨rfl, rfl⟩, fun hr => ?_⟩ hlen.symm
    · simpa using hatt
    · rw [lastError_ok rs hok, ← h.error]
      simp [finishSpan]
    · rw [hok] at hr
      cases hr

end

/-! ### Runs -/

/-- The invocations of a goroutine depend on its task and its resolved inputs alone. -/
theorem nthCall_congr {g g' : Goroutine} (htask : g'.task = g.task)
    (hjson : g'.inputsJSON = g.inputsJSON) : nthCall env g' = nthCall env g := by
  funext k
  simp [nthCall, htask, hjson]

/-- A step without a call or a result. -/
theorem Log.quiet {s s' : State B} {g g' : Goroutine} {rs : List AttemptResult} {n : Nat}
    (h : Log env s g rs n) (hcalls : s'.calls = s.calls) (htask : g'.task = g.task)
    (hjson : g'.inputsJSON = g.inputsJSON) (hret : g'.returned = g.returned)
    (hdec : g'.span.decisions = g.span.decisions)
    (hst : Standing env s'.cancelled g' n rs) : Log env s' g' rs n := by
  refine ⟨hst, ?_, hret.trans h.returned, hdec.trans h.decisions⟩
  rw [nthCall_congr htask hjson, htask, callsFor, hcalls]
  exact h.calls

/-- The context may be cancelled at any moment. -/
theorem Standing.mono {c c' : Bool} {g : Goroutine} {n : Nat} {rs : List AttemptResult}
    (h : Standing env c g n rs) (hc : c = true → c' = true) : Standing env c' g n rs := by
  cases h with
  | skipped hend hcancelled h hn => exact .skipped hend (hc hcancelled) h hn
  | fresh hpc hn hrs => exact .fresh hpc hn hrs
  | unresolved hend hres hst hn hrs => exact .unresolved hend hres hst hn hrs
  | before hpc h hatt hn => exact .before hpc h hatt hn
  | inside hpc h hatt hn => exact .inside hpc h hatt hn
  | between hpc h hatt hn => exact .between hpc h hatt hn
  | concluded hend hrs h hn => exact .concluded hend hrs h hn
  | barred hend h hn => exact .barred hend h hn

/-- The send on `doneCh` leaves the span as it is. -/
theorem Standing.sent {c : Bool} {g : Goroutine} {n : Nat} {rs : List AttemptResult}
    (h : Standing env c g n rs) (hpc : g.pc = .send) :
    Standing env c { g with pc := .done } n rs := by
  cases h with
  | fresh h | inside h | between h => rw [h] at hpc; cases hpc
  | before h => rw [hpc] at h; cases h
  | unresolved _ hres hst hn hrs => exact .unresolved rfl hres hst hn hrs
  | skipped _ hc h hn =>
      exact .skipped rfl hc
        ⟨h.resolved, h.failed, h.status, h.error, h.attempts, h.started, h.budget⟩ hn
  | concluded _ hrs h hn =>
      exact .concluded rfl hrs
        ⟨h.resolved, h.failed, h.attempts, h.error, h.started, h.budget, h.won, h.lost⟩ hn
  | barred _ h hn =>
      exact .barred rfl ⟨h.failed, h.status, h.attempts, h.error, h.barred, h.budget⟩ hn

/-- Another wait of the same attempt, for the slot, a limiter or its timer. -/
theorem Log.wait {s s' : State B} {g : Goroutine} {rs : List AttemptResult} {n : Nat}
    (h : Log env s g rs n) {pc : TaskPc} (hpc : beforeCall g.pc = true)
    (hpc' : beforeCall pc = true) (hcalls : s'.calls = s.calls) :
    Log env s' { g with pc := pc } rs n := by
  obtain ⟨hgo, hatt, hn⟩ := h.standing.of_before hpc
  exact h.quiet hcalls rfl rfl rfl rfl (.before hpc' (hgo.wait pc) hatt hn)

/-- The cancelled context ends the task before its call. -/
theorem Log.skip {s s' : State B} {g : Goroutine} {rs : List AttemptResult} {n : Nat}
    (h : Log env s g rs n) (hpc : beforeCall g.pc = true) (hc : s.cancelled = true)
    (hcalls : s'.calls = s.calls) (hcancelled : s'.cancelled = s.cancelled) :
    Log env s' (skipSpan g s.clock) rs n := by
  have hst := h.standing
  rw [hc] at hst
  refine h.quiet hcalls rfl rfl rfl rfl ?_
  rw [hcancelled, hc]
  exact hst.skip hpc _

/-- The inputs are resolved: the task fails at once, or the loop begins. Nothing was called. -/
theorem Log.resolve {s s' : State B} {g : Goroutine} {rs : List AttemptResult} {n : Nat}
    (h : Log env s g rs n) (hpc : g.pc = .resolve) (hcalls : s'.calls = s.calls) :
    Log env s' (env.resolveInputs g s.clock) rs 0 := by
  obtain ⟨rfl, rfl⟩ := h.standing.of_resolve hpc
  have hcalls : callsFor s' g.task.id = [] := by
    rw [callsFor, hcalls]
    exact h.calls
  have hreturned : g.returned = [] := h.returned
  -- Either the inputs do not resolve and the task has failed, or the goroutine comes to the head of
  -- its loop with no result behind it.
  rcases resolveInputs_cases env g s.clock with ⟨e, he, heq⟩ | ⟨resolved, hres, heq⟩
  · rw [heq]
    exact ⟨.unresolved rfl ⟨e, he⟩ rfl rfl rfl, hcalls, hreturned, rfl⟩
  · have hnone : AllFailed [] := fun r hr => by cases hr
    have hfirst : ∃ r, resolvedInputs env (firstAttempt env g s.clock resolved) = .ok r :=
      ⟨resolved, hres⟩
    have hst := standing_enterAttempt s'.cancelled s.clock hfirst hnone rfl rfl rfl
      (fun hne => absurd rfl hne)
    rw [heq]
    refine ⟨hst, ?_, ?_, ?_⟩
    · rw [enterAttempt_task]
      exact hcalls
    · rw [enterAttempt_returned]
      exact hreturned
    · rcases enterAttempt_cases env (firstAttempt env g s.clock resolved) s.clock 1 with
        ⟨-, he⟩ | ⟨-, he⟩ <;> rw [he] <;> rfl

/-- The call of an attempt is the one with the next number. -/
theorem Log.call {s s' : State B} {g : Goroutine} {rs : List AttemptResult} {n : Nat}
    (h : Log env s g rs n) (hpc : beforeCall g.pc = true)
    (hcalls : s'.calls = s.calls ++ [{ inv := env.invocation g, startedAt := s.clock }]) :
    Log env s' { g with pc := .exec } rs (n + 1) := by
  obtain ⟨hgo, hatt, hn⟩ := h.standing.of_before hpc
  refine ⟨.inside rfl (hgo.wait .exec) hatt (by rw [hn]), ?_, h.returned, h.decisions⟩
  have hinv : env.invocation g = nthCall env g n := by
    simp [Env.invocation, nthCall, hatt, hn]
  have hnew : (([{ inv := env.invocation g, startedAt := s.clock }] : List Call).map
      (·.inv)).filter (·.taskID = g.task.id) = [nthCall env g n] := by
    rw [hinv]
    simp [nthCall]
  show (s'.calls.map Call.inv).filter (·.taskID = g.task.id)
    = (List.range (n + 1)).map (nthCall env g)
  rw [hcalls, List.map_append, List.filter_append, hnew, List.range_succ, List.map_append]
  exact congrArg (· ++ [nthCall env g n]) h.calls

/-- `Execute` returns to the goroutine: the result is the next of the log. -/
theorem Log.result {s s' : State B} {g : Goroutine} {rs : List AttemptResult} {n : Nat}
    (h : Log env s g rs n) (hpc : g.pc = .exec) (r : AttemptResult) (hcalls : s'.calls = s.calls) :
    Log env s' (env.afterExecute g r.res r.err s.clock) (rs ++ [r]) n := by
  obtain ⟨hgo, hatt, hn⟩ := h.standing.of_exec hpc
  refine ⟨hn ▸ standing_afterExecute hgo hatt r, ?_, ?_, ?_⟩
  · have hjson : (env.afterExecute g r.res r.err s.clock).inputsJSON = g.inputsJSON := by
      rcases afterExecute_cases env g s.clock r.res r.err with
        ⟨e, -, -, he⟩ | ⟨e, -, -, he⟩ | ⟨-, -, he⟩ <;> rw [he] <;> rfl
    rw [nthCall_congr (afterExecute_task env g s.clock r.res r.err) hjson, afterExecute_task,
      callsFor, hcalls]
    exact h.calls
  · rw [afterExecute_returned, h.returned, List.map_append]
    rfl
  · rw [List.flatMap_append, ← h.decisions]
    rcases afterExecute_cases env g s.clock r.res r.err with
      ⟨e, -, -, he⟩ | ⟨e, -, -, he⟩ | ⟨-, -, he⟩ <;> rw [he] <;> simp [finishSpan]

/-- The backoff is over, and the goroutine is at the head of the loop again. -/
theorem Log.wake {s s' : State B} {g : Goroutine} {rs : List AttemptResult} {n : Nat}
    (h : Log env s g rs n) (hpc : g.pc = .sleep) (hcalls : s'.calls = s.calls) :
    Log env s' (env.enterAttempt g (g.span.attempts + 1) s.clock) rs n := by
  obtain ⟨hgo, hatt, hn⟩ := h.standing.of_sleep hpc
  have hst := standing_enterAttempt s'.cancelled s.clock hgo.resolved hgo.failed hgo.status
    hgo.error hatt fun hne => ⟨hgo.budget hne, hgo.started⟩
  rw [hatt]
  refine h.quiet hcalls (by simp) ?_ (by simp) ?_ (hn ▸ hst)
  · exact (enterAttempt_kept env g (rs.length + 1) s.clock).inputsJSON
  · rcases enterAttempt_cases env g s.clock (rs.length + 1) with ⟨-, he⟩ | ⟨-, he⟩ <;> rw [he]
    rfl

/-- A step of a goroutine extends its log, by a call, by a result, or not at all. -/
theorem Log.taskStep {s s' : State B} {i : Nat} {g : Goroutine} {a : TaskAction}
    {rs : List AttemptResult} {n : Nat} (h : Log env s g rs n) (ht : TaskStep env s i g a s') :
    ∃ g' n', s'.gos = s.gos.set i g' ∧
      Log env s' g' (rs ++ (returnedTo i s (.task i a)).toList) n' := by
  -- Only the return of `Execute` hands a result over. With any other step the list of results
  -- stays, and the place of the goroutine decides.
  by_cases hret : returnedTo i s (.task i a) = none
  · rw [hret, Option.toList_none, List.append_nil]
    cases ht with
    | resolve hpc => exact ⟨_, 0, rfl, h.resolve hpc rfl⟩
    | takeSlot hpc _ => exact ⟨_, n, rfl, h.wait (by rw [hpc]; rfl) rfl rfl⟩
    | cancelSlot hpc hc => exact ⟨_, n, rfl, h.skip (by rw [hpc]; rfl) hc rfl rfl⟩
    | grantGlobal b hpc _ =>
        refine ⟨_, n, rfl, h.wait (by rw [hpc]; rfl) ?_ rfl⟩
        rcases afterGlobal_pc g s.provLimiters with h | h <;> rw [h] <;> rfl
    | denyGlobal b hpc _ => exact ⟨_, n, rfl, h.wait (by rw [hpc]; rfl) rfl rfl⟩
    | grantProvider b b' hpc _ _ => exact ⟨_, n, rfl, h.wait (by rw [hpc]; rfl) rfl rfl⟩
    | denyProvider b b' hpc _ _ => exact ⟨_, n, rfl, h.wait (by rw [hpc]; rfl) rfl rfl⟩
    | timerGlobal hpc => exact ⟨_, n, rfl, h.wait (by rw [hpc]; rfl) rfl rfl⟩
    | timerProvider hpc => exact ⟨_, n, rfl, h.wait (by rw [hpc]; rfl) rfl rfl⟩
    | cancelWait hpc hc =>
        refine ⟨_, n, rfl, h.skip ?_ hc rfl rfl⟩
        rcases hpc with hpc | hpc <;> rw [hpc] <;> rfl
    | call hpc => exact ⟨_, n + 1, rfl, h.call (by rw [hpc]; rfl) rfl⟩
    | ret res err hpc => simp [returnedTo] at hret
    | wake hpc => exact ⟨_, n, rfl, h.wake hpc rfl⟩
    | send hpc hroom =>
        exact ⟨_, n, rfl, h.quiet rfl rfl rfl rfl rfl (h.standing.sent hpc)⟩
  · cases ht with
    | ret res err hpc =>
        rw [show (returnedTo i s (.task i (.ret res err))).toList = [AttemptResult.mk res err] by
          simp [returnedTo]]
        exact ⟨_, n, rfl, h.result hpc ⟨res, err⟩ rfl⟩
    | _ => exact absurd rfl hret

/-- The `i`-th goroutine has a log; before it starts, nothing was returned to it. -/
structure Logged (env : Env B) (i : Nat) (rs : List AttemptResult) (s : State B) : Prop where
  log : ∀ g, s.gos[i]? = some g → ∃ n, Log env s g rs n
  idle : s.gos.length ≤ i → rs = []

/-- No call was made for a task that no goroutine runs. -/
theorem callsFor_new {s : State B} (hdata : TaskData env s) {id : String}
    (hid : ∀ g ∈ s.gos, g.task.id ≠ id) : callsFor s id = [] := by
  refine List.filter_eq_nil_iff.mpr fun inv hinv => ?_
  obtain ⟨c, hc, rfl⟩ := List.mem_map.mp hinv
  obtain ⟨g, hg, hcg⟩ := hdata.calls c hc
  simpa [hcg.task] using hid g hg

/-- A call for another task. -/
theorem TaskStep.callsFor_ne {s s' : State B} {i : Nat} {g : Goroutine} {a : TaskAction}
    (h : TaskStep env s i g a s') {id : String} (hid : g.task.id ≠ id) :
    callsFor s' id = callsFor s id := by
  cases h with
  | call hpc =>
      show ((s.calls ++ [_]).map Call.inv).filter (·.taskID = id) = callsFor s id
      simp [callsFor, Env.invocation, hid]
  | _ => rfl

/-- A step keeps the log of a goroutine that does not take it. -/
theorem Log.frame {s s' : State B} {g : Goroutine} {rs : List AttemptResult} {n : Nat}
    (h : Log env s g rs n) (hcalls : callsFor s' g.task.id = callsFor s g.task.id)
    (hc : s.cancelled = true → s'.cancelled = true) : Log env s' g rs n :=
  ⟨h.standing.mono hc, hcalls.trans h.calls, h.returned, h.decisions⟩

/-- A step keeps the log of every goroutine. The calls of a run are all in one list, so a step of
another goroutine must be seen to leave the part of this one alone. -/
theorem Logged.step (hacc : Accepted env.wf) {i : Nat} {rs : List AttemptResult} {s s' : State B}
    {a : Action} (hs : env.system.Reachable s) (h : Logged env i rs s)
    (ha : env.system.step? s a = some s') :
    Logged env i (rs ++ (returnedTo i s a).toList) s' := by
  have hflight := (reachable_runInv hacc hs).flight
  have hflight' := (reachable_runInv hacc (hs.step ha)).flight
  rcases step_inv ha with ⟨rfl, hm⟩ | ⟨j, b, g, rfl, hg, ht⟩ | ⟨rfl, rfl⟩ | ⟨d, rfl, rfl⟩
  · have hcalls : s'.calls = s.calls := by cases hm <;> rfl
    -- The main goroutine makes no call. At most it starts a goroutine.
    have hframe : ∀ g, s.gos[i]? = some g → ∃ n, Log env s' g rs n := by
      intro g hg
      obtain ⟨n, hn⟩ := h.log g hg
      refine ⟨n, hn.frame (by rw [callsFor, hcalls]; rfl) fun hc => ?_⟩
      cases hm <;> simp_all
    rw [show (returnedTo i s .main).toList = [] from rfl, List.append_nil]
    rcases hm.gos with hgos | ⟨t, hgos⟩
    · exact ⟨fun g hg => hframe g (hgos ▸ hg), fun hlen => h.idle (hgos ▸ hlen)⟩
    · refine ⟨fun g hg => ?_, fun hlen => h.idle ?_⟩
      · rw [hgos] at hg
        by_cases hi : i < s.gos.length
        · exact hframe g (by rwa [List.getElem?_append_left hi] at hg)
        · -- The new goroutine has made no call, since its id is new.
          have hnil := h.idle (not_lt.mp hi)
          rw [List.getElem?_append_right (not_lt.mp hi), List.getElem?_singleton] at hg
          obtain ⟨-, rfl⟩ := Option.ite_none_right_eq_some.mp hg |>.imp_right Option.some.inj
          have hnodup := hflight'.ids_nodup
          rw [hgos, goIds, List.map_append, List.nodup_append] at hnodup
          have hnew : callsFor s t.id = [] := callsFor_new (reachable_taskData hs) fun x hx =>
            hnodup.2.2 x.task.id (List.mem_map_of_mem hx) t.id (by simp [newGoroutine])
          refine ⟨0, .fresh rfl rfl hnil, ?_, by rw [hnil]; rfl, by rw [hnil]; rfl⟩
          rw [callsFor, hcalls]
          exact hnew
      · rw [hgos, List.length_append] at hlen
        omega
  · have hlt := (List.getElem?_eq_some_iff.mp hg).1
    by_cases hji : j = i
    · subst hji
      obtain ⟨n, hn⟩ := h.log g hg
      obtain ⟨g', n', hgos, hlog⟩ := hn.taskStep ht
      refine ⟨fun x hx => ?_, fun hlen => ?_⟩
      · rw [hgos, List.getElem?_set_self hlt] at hx
        obtain rfl := Option.some.inj hx
        exact ⟨n', hlog⟩
      · rw [hgos, List.length_set] at hlen
        omega
    · have hnone : returnedTo i s (.task j b) = none := by
        cases b <;> simp [returnedTo, hji]
      obtain ⟨g', hgs⟩ := ht.goStep
      rw [hnone, Option.toList_none, List.append_nil]
      refine ⟨fun x hx => ?_,
        fun hlen => h.idle (by rw [hgs.gos, List.length_set] at hlen; exact hlen)⟩
      rw [hgs.gos, List.getElem?_set_ne hji] at hx
      obtain ⟨n, hn⟩ := h.log x hx
      -- Another goroutine has another id, so the calls of this one are the same.
      have hid : g.task.id ≠ x.task.id := fun he => by
        have hxg := hflight.go_unique (List.mem_of_getElem? hg) (List.mem_of_getElem? hx) he
        subst hxg
        exact hji ((List.getElem?_inj hlt (List.Nodup.of_map _ hflight.ids_nodup)).mp
          (hg.trans hx.symm))
      refine ⟨n, hn.frame (ht.callsFor_ne hid) fun hc => ?_⟩
      cases ht <;> exact hc
  · rw [show (returnedTo i s .cancel).toList = [] from rfl, List.append_nil]
    exact ⟨fun g hg => (h.log g hg).imp fun n hn => hn.frame rfl fun _ => rfl, h.idle⟩
  · rw [show (returnedTo i s (.tick d)).toList = [] from rfl, List.append_nil]
    exact ⟨fun g hg => (h.log g hg).imp fun n hn => hn.frame rfl id, h.idle⟩

/-- At the end of every run, each goroutine has a log. The induction is over the steps of the
run. -/
theorem exists_log (hacc : Accepted env.wf) {as : List Action} {s : State B}
    (hrun : env.system.run? as = some s) {i : Nat} {g : Goroutine} (hg : s.gos[i]? = some g) :
    ∃ n, Log env s g (attemptResults env i as) n := by
  have hinit : Logged env i [] env.initial := ⟨fun g hg => (by cases hg), fun _ => rfl⟩
  exact (System.observe_induct (P := Logged env i) hinit
    (fun rs s a s' hs h ha => h.step hacc hs ha) hrun).log g hg

end Orchestrator.Proofs
