import Orchestrator.Proofs.AttemptLog

/-!
# `Orchestrator.Proofs.RetryLoop`: what the attempt loop of `executeTask` promises

Without a cancellation, a task makes one call for each attempt, goes on after a failure, and stops
at a success or when the retry limit is used up. `retry_loop_iff` says that this fails for one
limit: `retry.Max+1` is a 64-bit sum, and for the largest limit no attempt is made. The token counts
of the span are 64-bit sums as well, over all attempts, and a sum that does not fit has wrapped
around.

A client marks an error as final with `Retryable`. The loop tests the limit twice and the mark
never, so `final_errors_iff` says that such an error is final exactly when it comes with the last
attempt.

Both theorems are read off the log of a goroutine (`AttemptLog`). `CallsRight` is about the calls:
their number, their ids, their inputs, and what the span has gathered from the results. `EndRight`
is about the end: which status the task has, and which error. The situations of the log are gone
through one by one, and the limit enters where the loop was barred before its first attempt.
-/

set_option autoImplicit false

namespace Orchestrator.Proofs

open Orchestrator.Lib Orchestrator.Engine Orchestrator.Engine.Env

variable {B : Type} {env : Env B}

/-! ### Calls and results -/

/-- The calls for a task and what its span has gathered from their results. -/
structure CallsRight (env : Env B) (g : Goroutine) (resolved : Json) (calls : List Invocation)
    (rs : List AttemptResult) : Prop where
  numbered : calls.map (·.attempt) = (List.range calls.length).map fun k : Nat => (k : Int) + 1
  bounded : (calls.length : Int) ≤ retryMax env g + 1
  inputs : ∀ c ∈ calls, c.inputsJSON = env.lib.marshal resolved
  ids : (calls.map (·.invocationID)).Nodup
  /-- No call comes after a successful one. -/
  final : ∀ pre r post, rs = pre ++ r :: post → r.ok = true →
    post = [] ∧ calls.length = pre.length + 1
  decisions : g.span.decisions = rs.flatMap fun r => env.convertDecisions r.res.decisions
  tokensIn : inTokens g.span.llm = (rs.map fun r => inTokens r.res.llmUsage).sum
  tokensOut : outTokens g.span.llm = (rs.map fun r => outTokens r.res.llmUsage).sum

/-- The tokens that the results report sum to 64-bit numbers. -/
structure TokensFit (rs : List AttemptResult) : Prop where
  tokensIn : FitsInt64 (rs.map fun r => inTokens r.res.llmUsage).sum
  tokensOut : FitsInt64 (rs.map fun r => outTokens r.res.llmUsage).sum

/-- It can be checked on a list of results. -/
instance (rs : List AttemptResult) : Decidable (TokensFit rs) :=
  decidable_of_iff (FitsInt64 _ ∧ FitsInt64 _) ⟨fun h => ⟨h.1, h.2⟩, fun h => ⟨h.1, h.2⟩⟩

/-- How a task ends without a cancellation: with a success, or with all the attempts of its policy
and none of them a success. The span says which, and how many there were. -/
structure EndRight (env : Env B) (g : Goroutine) (calls : List Invocation)
    (rs : List AttemptResult) : Prop where
  attempts : g.span.attempts = calls.length
  answered : rs.length = calls.length
  status : g.span.status = .succeeded ∨ g.span.status = .failed
  succeeded : g.span.status = .succeeded ↔ ∃ r, rs.getLast? = some r ∧ r.ok = true
  output : ∀ r, rs.getLast? = some r → r.ok = true →
    g.span.output = env.decodeOutput r.res.outputJSON
  exhausted : g.span.status = .failed → (calls.length : Int) = retryMax env g + 1 ∧ AllFailed rs

/-- The calls of one goroutine have different ids, since they have different attempt numbers. -/
theorem ids_nodup (env : Env B) (g : Goroutine) (n : Nat) :
    (((List.range n).map (nthCall env g)).map (·.invocationID)).Nodup := by
  rw [List.map_map]
  refine List.Nodup.map_on (fun j _ k _ h => ?_) List.nodup_range
  obtain ⟨-, hjk⟩ := tagged_inj (by omega) (by omega) h
  omega

/-- A list of failures has no success in it. -/
theorem AllFailed.false_of_mem {rs : List AttemptResult} (h : AllFailed rs) {r : AttemptResult}
    (hr : r ∈ rs) (hok : r.ok = true) : False := by
  rw [h r hr] at hok
  cases hok

/-- A success can only be the last result, after failures. -/
theorem eq_last_of_ok {init pre post : List AttemptResult} {r x : AttemptResult}
    (hfail : AllFailed init) (h : init ++ [r] = pre ++ x :: post) (hx : x.ok = true) :
    post = [] ∧ pre = init ∧ x = r := by
  rcases List.eq_nil_or_concat post with rfl | ⟨post, y, rfl⟩
  · obtain ⟨rfl, hr⟩ := List.append_inj' h rfl
    exact ⟨rfl, rfl, (List.cons.inj hr).1.symm⟩
  · rw [List.concat_eq_append, ← List.cons_append, ← List.append_assoc] at h
    have hinit := (List.append_inj' h rfl).1
    exact (hfail.false_of_mem (hinit ▸ List.mem_append_right _ List.mem_cons_self) hx).elim

variable {c : Bool} {g : Goroutine} {n : Nat} {rs : List AttemptResult}

/-- Each call but the one under way has returned. -/
theorem Standing.length_le (h : Standing env c g n rs) : rs.length ≤ n := by
  cases h <;> simp_all

/-- A success ends the loop. -/
theorem Standing.final (h : Standing env c g n rs) {pre post : List AttemptResult}
    {r : AttemptResult} (hrs : rs = pre ++ r :: post) (hr : r.ok = true) :
    post = [] ∧ n = pre.length + 1 := by
  have hmem : r ∈ rs := hrs ▸ List.mem_append_right _ List.mem_cons_self
  cases h with
  | fresh _ _ hnil | unresolved _ _ _ _ hnil =>
      rw [hnil] at hmem
      cases hmem
  | before _ h | inside _ h | between _ h | barred _ h => exact (h.failed.false_of_mem hmem hr).elim
  | skipped _ _ h => exact (h.failed.false_of_mem hmem hr).elim
  | concluded _ hlast h hn =>
      obtain ⟨rfl, rfl, rfl⟩ := eq_last_of_ok h.failed (hlast.symm.trans hrs) hr
      exact ⟨rfl, by rw [hn, hrs]; simp⟩

/-- The calls stay within the retry limit. -/
theorem Standing.bounded (h : Standing env c g n rs) (h0 : 0 ≤ retryMax env g) :
    (n : Int) ≤ retryMax env g + 1 := by
  have hlen : (rs ≠ [] → (rs.length : Int) ≤ retryMax env g) →
    (rs.length : Int) ≤ retryMax env g := by
    intro hb
    by_cases hrs : rs = []
    · simpa [hrs] using h0
    · exact hb hrs
  -- The attempts counted are those that returned, and one more while an attempt is under way.
  cases h with
  | fresh _ hn _ | unresolved _ _ _ hn _ => omega
  | before _ h _ hn | inside _ h _ hn | between _ h _ hn =>
      have := hlen h.budget
      omega
  | skipped _ _ h hn =>
      have := hlen h.budget
      omega
  | @concluded init r _ hrs h hn =>
      have hinit : (init.length : Int) ≤ retryMax env g := by
        by_cases hnil : init = []
        · simpa [hnil] using h0
        · exact h.budget hnil
      rw [hn, hrs, List.length_append]
      simpa using hinit
  | barred _ h hn =>
      have := hlen fun hne => (h.budget hne).1
      omega

/-- What the calls of a logged goroutine are. The counts of its span are exact when they fit. -/
theorem Log.callsRight_iff {s : State B} (h : Log env s g rs n) (husage : UsageOk g)
    {resolved : Json} (hjson : n ≠ 0 → g.inputsJSON = env.lib.marshal resolved)
    (h0 : 0 ≤ retryMax env g) :
    CallsRight env g resolved (callsFor s g.task.id) rs ↔ TokensFit rs := by
  have hin : inTokens g.span.llm = int64 (rs.map fun r => inTokens r.res.llmUsage).sum := by
    rw [husage.tokensIn, h.returned, List.map_map]
    rfl
  have hout : outTokens g.span.llm = int64 (rs.map fun r => outTokens r.res.llmUsage).sum := by
    rw [husage.tokensOut, h.returned, List.map_map]
    rfl
  -- The span sums the tokens in 64 bits, so it shows the sum exactly if this fits.
  refine ⟨fun hright => ⟨?_, ?_⟩, fun hfit => ?_⟩
  · rw [← int64_eq_self_iff, ← hin]
    exact hright.tokensIn
  · rw [← int64_eq_self_iff, ← hout]
    exact hright.tokensOut
  have hlen : (callsFor s g.task.id).length = n := by rw [h.calls]; simp
  refine ⟨?_, hlen ▸ h.standing.bounded h0, fun c hc => ?_, ?_, fun pre r post hrs hr => ?_,
    h.decisions, ?_, ?_⟩
  · rw [hlen, h.calls, List.map_map]
    rfl
  · rw [h.calls] at hc
    obtain ⟨k, hk, rfl⟩ := List.mem_map.mp hc
    exact hjson (by rintro rfl; cases hk)
  · rw [h.calls]
    exact ids_nodup env g n
  · rw [hlen]
    exact h.standing.final hrs hr
  · rw [hin, int64_eq_self_iff.mpr hfit.tokensIn]
  · rw [hout, int64_eq_self_iff.mpr hfit.tokensOut]

/-- The 64-bit successor, which wraps around at the largest number only. -/
theorem int64_succ {max : Int} (h0 : 0 ≤ max) (h : max < 2 ^ 63) :
    int64 (max + 1) = if max = 2 ^ 63 - 1 then - 2 ^ 63 else max + 1 := by
  unfold int64
  by_cases he : max = 2 ^ 63 - 1
  · rw [if_pos he, he]
    rfl
  · rw [if_neg he]
    exact Int.bmod_eq_of_le (by omega) (by omega)

/-- Without a cancellation, a task ends as it should unless the limit is the largest integer. -/
theorem Log.endRight_iff {s : State B} (h : Log env s g rs n) (hcancel : s.cancelled = false)
    (hend : hasEnded g = true) {resolved : Json} (hres : resolvedInputs env g = .ok resolved)
    (h0 : 0 ≤ retryMax env g) (hmax : retryMax env g < 2 ^ 63) :
    EndRight env g (callsFor s g.task.id) rs ↔ retryMax env g ≠ 2 ^ 63 - 1 := by
  have hlen : (callsFor s g.task.id).length = n := by rw [h.calls]; simp
  have hsum := int64_succ h0 hmax
  cases h.standing with
  | fresh hpc | inside hpc | between hpc =>
      rcases hasEnded_iff.mp hend with h | h <;> rw [h] at hpc <;> cases hpc
  | before hpc =>
      rw [hasEnded_not_before hend] at hpc
      cases hpc
  | unresolved _ he =>
      obtain ⟨e, he⟩ := he
      rw [hres] at he
      cases he
  | skipped _ hc =>
      rw [hcancel] at hc
      cases hc
  | @concluded init r _ hrs h hn =>
      have hne : retryMax env g ≠ 2 ^ 63 - 1 := by
        intro he
        have := h.started
        rw [hsum, if_pos he] at this
        omega
      have hrlen : rs.length = init.length + 1 := by rw [hrs]; simp
      have hlast : ∀ x, rs.getLast? = some x ↔ r = x := by
        intro x
        rw [hrs, List.getLast?_concat]
        exact Option.some_inj
      refine iff_of_true ⟨?_, ?_, ?_, ?_, fun x hx hok => ?_, fun hst => ?_⟩ hne
      · rw [hlen, hn, hrlen, h.attempts]
        rfl
      · rw [hlen, hn]
      · cases hok : r.ok with
        | true => exact Or.inl (h.won hok).1
        | false => exact Or.inr (h.lost hok).1
      · simp only [hlast, exists_eq_left']
        constructor
        · intro hst
          by_contra hok
          rw [(h.lost (by simpa using hok)).1] at hst
          cases hst
        · exact fun hok => (h.won hok).1
      · obtain rfl := (hlast x).mp hx
        exact (h.won hok).2
      · have hok : r.ok = false := by
          by_contra hok
          rw [(h.won (by simpa using hok)).1] at hst
          cases hst
        have hlt := (h.lost hok).2
        refine ⟨?_, hrs ▸ h.failed.snoc hok⟩
        rw [hlen, hn, hrlen]
        by_cases hnil : init = []
        · have : init.length = 0 := by rw [hnil]; rfl
          omega
        · have := h.budget hnil
          omega
  | barred _ h hn =>
      -- The first attempt was refused, since a later one has its predecessor within the limit.
      have hbar := h.barred
      have hnil : rs = [] := by
        by_contra hne
        obtain ⟨hle, hstart⟩ := h.budget hne
        rw [hsum] at hbar hstart
        split at hbar <;> omega
      have hall : retryMax env g = 2 ^ 63 - 1 := by
        by_contra hne
        rw [hsum, if_neg hne, hnil] at hbar
        simp at hbar
        omega
      refine iff_of_false (fun hright => ?_) (not_not.mpr hall)
      have hex := (hright.exhausted h.status).1
      rw [hlen, hn, hnil, hall] at hex
      simp at hex

/-- The loop keeps its promises exactly when the tokens of its calls sum to 64-bit numbers and
`retry.Max` is not the largest integer.

Both parts are read off the log of the attempts (`exists_log`), for a goroutine of any run that is
not cancelled. The first part speaks of the calls made so far and of the tokens in the span. The
second one speaks of the end, where a loop bound that has wrapped around makes the task fail without
a call. -/
theorem retry_loop_iff (env : Env B) (iter : MapOrder) (hval : env.wf.validate iter = .ok ())
    {as : List Action} {s : State B} (hrun : env.system.run? as = some s)
    (hcancel : s.cancelled = false) {i : Nat} {g : Goroutine} (hg : s.gos[i]? = some g)
    {resolved : Json} (hres : resolvedInputs env g = .ok resolved)
    (h0 : 0 ≤ retryMax env g) (hmax : retryMax env g < 2 ^ 63) :
    (CallsRight env g resolved (callsFor s g.task.id) (attemptResults env i as) ↔
      TokensFit (attemptResults env i as)) ∧
    (hasEnded g = true →
      (EndRight env g (callsFor s g.task.id) (attemptResults env i as) ↔
        retryMax env g ≠ 2 ^ 63 - 1)) := by
  have hs := System.reachable_of_run hrun
  obtain ⟨n, hlog⟩ := exists_log (accepted_of_validate hval) hrun hg
  have hmem := List.mem_of_getElem? hg
  refine ⟨hlog.callsRight_iff (reachable_usageOk hs g hmem) (fun hn => ?_) h0,
    fun hend => hlog.endRight_iff hcancel hend hres h0 hmax⟩
  -- A call carries the inputs of the one goroutine of its task.
  have hcall : nthCall env g 0 ∈ callsFor s g.task.id := by
    rw [hlog.calls]
    exact List.mem_map_of_mem (List.mem_range.mpr (Nat.pos_of_ne_zero hn))
  obtain ⟨hmap, htask⟩ := List.mem_filter.mp hcall
  obtain ⟨c, hc, hinv⟩ := List.mem_map.mp hmap
  obtain ⟨x, hx, hcx⟩ := (reachable_taskData hs).calls c hc
  have hxg : x = g := (reachable_runInv (accepted_of_validate hval) hs).flight.go_unique hx hmem
    (by rw [← hcx.task, hinv]; rfl)
  subst hxg
  obtain ⟨resolved', hres', hjson⟩ := hcx.inputs
  rw [hres] at hres'
  cases hres'
  exact hjson

/-- A task with a retry limit. -/
def limitedTask (max : Int) : Env Unit :=
  plainEnv (plainWorkflow [{ plainTask "a" [] "" with
    retry := some { max := max, backoff := "none", base := 0, jitter := false } }])

/-- A failure and a success that have used tokens. -/
def costlyFailure (retryable : Bool) : Result where
  err := some ⟨"E", "m", retryable⟩
  llmUsage := some ⟨"p", "m", 3, 1⟩

/-- A success that has used tokens. -/
def costlySuccess : Result where
  llmUsage := some ⟨"p", "m", 4, 2⟩

/-- A run whose task fails once and succeeds on the next attempt. -/
def retriedOnce (retryable : Bool) : List Action :=
  [.main, .main, .main, .task 0 .resolve] ++ attempt 0 (costlyFailure retryable) ++
    [.task 0 .wake] ++ attempt 0 costlySuccess

/-- The state and the one goroutine at the end of a run that passes a test. -/
theorem exists_lone {env : Env Unit} {as : List Action} {p : State Unit → Goroutine → Bool}
    (h : (env.system.run? as).any (fun s => (s.gos[0]?).any (p s)) = true) :
    ∃ s g, env.system.run? as = some s ∧ s.gos[0]? = some g ∧ p s g = true := by
  obtain ⟨s, hs, hp⟩ := (Option.any_eq_true _ _).mp h
  obtain ⟨g, hg, hp⟩ := (Option.any_eq_true _ _).mp hp
  exact ⟨s, g, hs, hg, hp⟩

/-- Inputs that pass the check resolve. -/
theorem exists_resolved {env : Env B} {g : Goroutine}
    (h : (resolvedInputs env g).toOption.isSome = true) : ∃ r, resolvedInputs env g = .ok r := by
  cases hr : resolvedInputs env g with
  | error e =>
      rw [hr] at h
      cases h
  | ok r => exact ⟨r, rfl⟩

/-- One failure, one retry, one success. -/
theorem retry_loop_iff_once :
    ∃ s g resolved, (limitedTask 1).system.run? (retriedOnce true) = some s ∧
      s.gos[0]? = some g ∧ (callsFor s g.task.id).length = 2 ∧
      CallsRight (limitedTask 1) g resolved (callsFor s g.task.id)
        (attemptResults (limitedTask 1) 0 (retriedOnce true)) ∧
      EndRight (limitedTask 1) g (callsFor s g.task.id)
        (attemptResults (limitedTask 1) 0 (retriedOnce true)) := by
  have hrun : ((limitedTask 1).system.run? (retriedOnce true)).any
      (fun s => (s.gos[0]?).any (fun g => decide (s.cancelled = false) && hasEnded g &&
        decide ((callsFor s g.task.id).length = 2) && decide (retryMax (limitedTask 1) g = 1) &&
        (resolvedInputs (limitedTask 1) g).toOption.isSome)) = true := by decide +kernel
  obtain ⟨s, g, hs, hg, hp⟩ := exists_lone hrun
  simp only [Bool.and_eq_true, decide_eq_true_eq] at hp
  obtain ⟨⟨⟨⟨hcancel, hend⟩, hlen⟩, hmax⟩, hres⟩ := hp
  obtain ⟨resolved, hres⟩ := exists_resolved hres
  have hfit : TokensFit (attemptResults (limitedTask 1) 0 (retriedOnce true)) := by decide +kernel
  obtain ⟨hcalls, hiff⟩ := retry_loop_iff (limitedTask 1) .insertion (by rfl) hs hcancel hg hres
    (by rw [hmax]; decide) (by rw [hmax]; decide)
  exact ⟨s, g, resolved, hs, hg, hlen, hcalls.mpr hfit, (hiff hend).mpr (by rw [hmax]; decide)⟩

/-- With the largest limit the task fails without a call. -/
theorem retry_loop_overflows :
    ¬ ∀ (env : Env Unit) (iter : MapOrder) (as : List Action) (s : State Unit) (g : Goroutine)
      (resolved : Json), env.wf.validate iter = .ok () → env.system.run? as = some s →
      s.cancelled = false → s.gos[0]? = some g → resolvedInputs env g = .ok resolved →
      0 ≤ retryMax env g → retryMax env g < 2 ^ 63 → hasEnded g = true →
      EndRight env g (callsFor s g.task.id) (attemptResults env 0 as) := by
  intro h
  -- With the largest limit the bound of the loop wraps around, so the loop ends before its first
  -- attempt.
  have hrun : ((limitedTask (2 ^ 63 - 1)).system.run?
      [.main, .main, .main, .task 0 .resolve]).any
      (fun s => (s.gos[0]?).any (fun g => decide (s.cancelled = false) && hasEnded g &&
        decide (callsFor s g.task.id = []) && decide (g.span.status = .failed) &&
        decide (retryMax (limitedTask (2 ^ 63 - 1)) g = 2 ^ 63 - 1) &&
        (resolvedInputs (limitedTask (2 ^ 63 - 1)) g).toOption.isSome)) = true := by decide +kernel
  obtain ⟨s, g, hs, hg, hp⟩ := exists_lone hrun
  simp only [Bool.and_eq_true, decide_eq_true_eq] at hp
  obtain ⟨⟨⟨⟨⟨hcancel, hend⟩, hcalls⟩, hst⟩, hmax⟩, hres⟩ := hp
  obtain ⟨resolved, hres⟩ := exists_resolved hres
  have hright := h _ .insertion _ s g resolved (by rfl) hs hcancel hg hres (by rw [hmax]; decide)
    (by rw [hmax]; decide) hend
  have hlen := (hright.exhausted hst).1
  rw [hcalls, hmax] at hlen
  exact absurd hlen (by decide)

/-! ### Final errors -/

/-- The skill answered that a retry is of no use. -/
def IsFinal (r : AttemptResult) : Prop := ∃ e, r.skillError = some e ∧ e.retryable = false

/-- The skill answered that a retry may help. -/
def IsTransient (r : AttemptResult) : Prop := ∃ e, r.skillError = some e ∧ e.retryable = true

/-- A final error ends the task, and a transient one does not while attempts are left. -/
structure ErrorsRespected (env : Env B) (s : State B) (g : Goroutine) (calls : List Invocation)
    (rs : List AttemptResult) : Prop where
  final : ∀ pre r post, rs = pre ++ r :: post → IsFinal r →
    post = [] ∧ calls.length = pre.length + 1 ∧ hasEnded g = true ∧ g.span.status = .failed
  /-- The next attempt is due or has begun, and only a cancellation ends the task. -/
  retried : ∀ r, rs.getLast? = some r → IsTransient r → (rs.length : Int) ≤ retryMax env g →
    (g.pc = .sleep ∨ g.span.attempts = rs.length + 1) ∧
      (hasEnded g = true → g.span.status = .skipped ∧ s.cancelled = true)

/-- While attempts are left, a failure ends the task through a cancellation only. -/
theorem Standing.retried (h : Standing env c g n rs) (hmax : retryMax env g < 2 ^ 63)
    {r : AttemptResult} (hlast : rs.getLast? = some r) (hr : r.ok = false)
    (hleft : (rs.length : Int) ≤ retryMax env g) :
    (g.pc = .sleep ∨ g.span.attempts = rs.length + 1) ∧
      (hasEnded g = true → g.span.status = .skipped ∧ c = true) := by
  have hne : rs ≠ [] := by
    rintro rfl
    cases hlast
  cases h with
  | fresh _ _ hnil | unresolved _ _ _ _ hnil => exact absurd hnil hne
  | before hpc _ hatt =>
      refine ⟨Or.inr hatt, fun hend => ?_⟩
      rw [hasEnded_not_before hend] at hpc
      cases hpc
  | inside hpc _ hatt =>
      refine ⟨Or.inr hatt, fun hend => ?_⟩
      rcases hasEnded_iff.mp hend with h | h <;> rw [h] at hpc <;> cases hpc
  | between hpc =>
      refine ⟨Or.inl hpc, fun hend => ?_⟩
      rcases hasEnded_iff.mp hend with h | h <;> rw [h] at hpc <;> cases hpc
  | skipped _ hc h => exact ⟨Or.inr h.attempts, fun _ => ⟨h.status, hc⟩⟩
  -- The loop would have ended at its limit, but the result is within it.
  | @concluded init x _ hrs h =>
      rw [hrs, List.getLast?_concat] at hlast
      obtain rfl := Option.some.inj hlast
      have := (h.lost hr).2
      rw [hrs, List.length_append, List.length_singleton] at hleft
      push_cast at hleft
      omega
  -- So would a loop whose bound was passed.
  | barred _ h =>
      obtain ⟨hle, hstart⟩ := h.budget hne
      have hbar := h.barred
      rw [int64_succ (by omega) hmax] at hbar hstart
      split at hbar <;> omega

/-- A failure with no attempt left ends the task. -/
theorem Standing.exhausted (h : Standing env c g n rs) {pre post : List AttemptResult}
    {r : AttemptResult} (hrs : rs = pre ++ r :: post) (hr : r.ok = false)
    (hout : retryMax env g < pre.length + 1) :
    post = [] ∧ n = pre.length + 1 ∧ hasEnded g = true ∧ g.span.status = .failed := by
  have hne : rs ≠ [] := by simp [hrs]
  have hlen : (pre.length : Int) + 1 ≤ rs.length := by
    rw [hrs, List.length_append, List.length_cons]
    omega
  cases h with
  | fresh _ _ hnil | unresolved _ _ _ _ hnil => exact absurd hnil hne
  | before _ h | inside _ h | between _ h =>
      have := h.budget hne
      omega
  | skipped _ _ h =>
      have := h.budget hne
      omega
  | barred _ h =>
      have := (h.budget hne).1
      omega
  | @concluded init x hend hlast h hn =>
      -- The results before the last one are within the limit.
      rcases List.eq_nil_or_concat post with rfl | ⟨post, y, rfl⟩
      · obtain ⟨rfl, hx⟩ := List.append_inj' (hlast.symm.trans hrs) rfl
        obtain rfl := (List.cons.inj hx).1
        exact ⟨rfl, by rw [hn, hrs]; simp, hend, (h.lost hr).1⟩
      · exfalso
        have heq := hlast.symm.trans hrs
        rw [List.concat_eq_append, ← List.cons_append, ← List.append_assoc] at heq
        obtain rfl := (List.append_inj' heq rfl).1
        have := h.budget (by simp)
        rw [List.length_append, List.length_cons] at this
        omega

/-- Final errors are final exactly when each of them comes with the last attempt of the limit. The
loop never looks whether an error is retryable: while attempts are left it goes on after any
failure, and without any left it ends after any. -/
theorem final_errors_iff (env : Env B) (iter : MapOrder) (hval : env.wf.validate iter = .ok ())
    {as : List Action} {s : State B} (hrun : env.system.run? as = some s) {i : Nat} {g : Goroutine}
    (hg : s.gos[i]? = some g) (hmax : retryMax env g < 2 ^ 63) :
    ErrorsRespected env s g (callsFor s g.task.id) (attemptResults env i as) ↔
      ∀ pre r post, attemptResults env i as = pre ++ r :: post → IsFinal r →
        retryMax env g < pre.length + 1 := by
  obtain ⟨n, hlog⟩ := exists_log (accepted_of_validate hval) hrun hg
  have hlen : (callsFor s g.task.id).length = n := by rw [hlog.calls]; simp
  constructor
  · intro h pre r post hrs hr
    -- A final error with an attempt left is retried, so the task does not end with it.
    by_contra hleft
    obtain ⟨rfl, -, hend, hst⟩ := h.final pre r post hrs hr
    obtain ⟨e, he, -⟩ := hr
    have hlast : (attemptResults env i as).getLast? = some r := by
      rw [hrs]
      exact List.getLast?_concat ..
    have hskip := (hlog.standing.retried hmax hlast (AttemptResult.not_ok_of_skillError he) (by
      rw [hrs, List.length_append, List.length_singleton]
      push_cast
      omega)).2 hend
    rw [hst] at hskip
    cases hskip.1
  · intro h
    refine ⟨fun pre r post hrs hr => ?_, fun r hlast hr hleft => ?_⟩
    · -- In the other direction a final error is met at the last attempt only, behind which the code
      -- does not call again anyway.
      have hout := h pre r post hrs hr
      obtain ⟨e, he, -⟩ := hr
      rw [hlen]
      exact hlog.standing.exhausted hrs (AttemptResult.not_ok_of_skillError he) hout
    · obtain ⟨e, he, -⟩ := hr
      exact hlog.standing.retried hmax hlast (AttemptResult.not_ok_of_skillError he) hleft

/-- A transient error is followed by a second attempt. -/
theorem final_errors_iff_once :
    ∃ s g, (limitedTask 1).system.run? (retriedOnce true) = some s ∧ s.gos[0]? = some g ∧
      ErrorsRespected (limitedTask 1) s g (callsFor s g.task.id)
        (attemptResults (limitedTask 1) 0 (retriedOnce true)) := by
  have hrun : ((limitedTask 1).system.run? (retriedOnce true)).any
      (fun s => (s.gos[0]?).any (fun g => decide (retryMax (limitedTask 1) g = 1))) = true := by
    decide +kernel
  obtain ⟨s, g, hs, hg, hmax⟩ := exists_lone hrun
  have hmax : retryMax (limitedTask 1) g = 1 := of_decide_eq_true hmax
  refine ⟨s, g, hs, hg, (final_errors_iff (limitedTask 1) .insertion (by rfl) hs hg
    (by rw [hmax]; decide)).mpr fun pre r post hrs hr => ?_⟩
  have hall : ∀ r ∈ attemptResults (limitedTask 1) 0 (retriedOnce true),
      (r.skillError.all (·.retryable)) = true := by decide +kernel
  obtain ⟨e, he, hfinal⟩ := hr
  have hret := hall r (hrs ▸ List.mem_append_right _ List.mem_cons_self)
  rw [he] at hret
  rw [show e.retryable = true from hret] at hfinal
  cases hfinal

/-- A final error is retried while the limit allows it. -/
theorem final_error_retried :
    ¬ ∀ (env : Env Unit) (iter : MapOrder) (as : List Action) (s : State Unit) (g : Goroutine),
      env.wf.validate iter = .ok () → env.system.run? as = some s → s.gos[0]? = some g →
      retryMax env g < 2 ^ 63 →
      ErrorsRespected env s g (callsFor s g.task.id) (attemptResults env 0 as) := by
  intro h
  have hrun : ((limitedTask 1).system.run? (retriedOnce false)).any
      (fun s => (s.gos[0]?).any (fun g => decide (retryMax (limitedTask 1) g = 1))) = true := by
    decide +kernel
  obtain ⟨s, g, hs, hg, hmax⟩ := exists_lone hrun
  have hmax : retryMax (limitedTask 1) g = 1 := of_decide_eq_true hmax
  have hright := h (limitedTask 1) .insertion _ s g (by rfl) hs hg (by rw [hmax]; decide)
  have hrs : attemptResults (limitedTask 1) 0 (retriedOnce false)
      = [] ++ ⟨costlyFailure false, none⟩ :: [⟨costlySuccess, none⟩] := by decide +kernel
  have := (hright.final _ _ _ hrs ⟨⟨"E", "m", false⟩, rfl, rfl⟩).1
  cases this

end Orchestrator.Proofs
