import Orchestrator.Engine.Bucket
import Orchestrator.Proofs.DispatchSafety

/-!
# `Orchestrator.Proofs.RateLimits`: calls and tokens

Every call of `Execute` is preceded by a grant of the global limiter and, for a task whose provider
is limited, by a grant of that provider's limiter. A goroutine between the grant and its call is
`charged`. `Metered` is the invariant of one limiter: its bucket has given out at least one token
for each call and for each charged goroutine. Both limiters share its rules, and `Charge` is what a
step can do to a bucket and to that number.

A token that was granted may be lost, when the goroutine is cancelled before its call; so the number
of tokens is a bound on the calls and not equal to it.

`reachable_metered` is the induction over a run, for one limiter that is read off the state by a
parameter, and it is used twice: with the charge of the global limiter (`globalCharge`) and with
that of a provider (`providerCharge`). What a bucket can have given out by an instant is a fact
about the bucket (`Lib.TokenBucket`), and `Metered.limited` puts the two together: in the first `d`
nanoseconds there are at most `requests + requests / per * d` calls.
-/

set_option autoImplicit false

namespace Orchestrator.Proofs

open Orchestrator.Lib Orchestrator.Engine Orchestrator.Engine.Env

variable {env : Env Bucket}

/-! ### One limiter -/

/-- What a step does to a bucket and to the number of tokens that are accounted for. -/
inductive Charge (now : Nat) (b b' : Bucket) (n n' : Nat) : Prop
  | keep (hb : b' = b) (hn : n' ≤ n)
  | refused (hb : b.acquireN 1 now = (false, b')) (hn : n' ≤ n)
  | granted (hb : b.acquireN 1 now = (true, b')) (hn : n' ≤ n + 1)

/-- The tokens accounted for: the calls, and the goroutines that have a token to call with. -/
def accounted (counted : Call → Bool) (charged : Goroutine → Bool) (s : State Bucket) : Nat :=
  s.calls.countP counted + s.gos.countP charged

/-- The calls that a limiter counts, by an instant. -/
def callsBy (counted : Call → Bool) (s : State Bucket) (t : Nat) : Nat :=
  s.calls.countP (fun c => counted c && decide (c.startedAt ≤ t))

/-- The bucket of a limiter of `requests` per `per` seconds accounts for the calls. -/
structure Metered (requests per : ℚ) (start : Nat) (counted : Call → Bool)
    (charged : Goroutine → Bool) (b : Bucket) (s : State Bucket) : Prop where
  spent : TokenBucket.Spent requests (requests / per) (seconds start) b.view
    (accounted counted charged s)
  updated : b.updated ≤ s.clock
  calls : ∀ c ∈ s.calls, c.startedAt ≤ s.clock
  bound : ∀ t, start ≤ t →
    (callsBy counted s t : ℚ) ≤ requests + requests / per * (seconds t - seconds start)

section Metered

variable {requests per : ℚ} {start : Nat} {counted : Call → Bool} {charged : Goroutine → Bool}
  {b b' : Bucket} {s s' : State Bucket}

/-- A step keeps the books of a limiter. -/
theorem Metered.step (h : Metered requests per start counted charged b s) (hreq : 0 ≤ requests)
    (hper : 0 < per)
    (hcharge : Charge s.clock b b' (accounted counted charged s) (accounted counted charged s'))
    (hclock : s.clock ≤ s'.clock)
    (hcalls : s'.calls = s.calls ∨ ∃ c, s'.calls = s.calls ++ [c] ∧ c.startedAt = s.clock) :
    Metered requests per start counted charged b' s' := by
  have hrate : 0 ≤ requests / per := div_nonneg hreq hper.le
  have hupd : b.view.updated ≤ seconds s.clock := seconds_mono h.updated
  have hspent : TokenBucket.Spent requests (requests / per) (seconds start) b'.view
      (accounted counted charged s') := by
    cases hcharge with
    | keep hb hn =>
        rw [hb]
        exact h.spent.mono (by exact_mod_cast hn)
    | refused hb hn =>
        exact (h.spent.take_false hreq hrate hupd (Bucket.acquireN_view hb)).mono
          (by exact_mod_cast hn)
    | granted hb hn =>
        refine (h.spent.take_true hreq hrate hupd (Bucket.acquireN_view hb)).mono ?_
        exact_mod_cast hn
  have hupd' : b'.updated ≤ s.clock := by
    cases hcharge with
    | keep hb hn => exact hb ▸ h.updated
    | refused hb hn => exact (Bucket.acquireN_updated hb).le
    | granted hb hn => exact (Bucket.acquireN_updated hb).le
  refine ⟨hspent, hupd'.trans hclock, ?_, fun t ht => ?_⟩
  · intro c hc
    rcases hcalls with heq | ⟨d, heq, hd⟩
    · exact (h.calls c (heq ▸ hc)).trans hclock
    · rw [heq, List.mem_append, List.mem_singleton] at hc
      rcases hc with hc | rfl
      · exact (h.calls c hc).trans hclock
      · exact hd.le.trans hclock
  · by_cases hlt : t < s.clock
    · -- A call of this step is later than `t`.
      have hsame : callsBy counted s' t = callsBy counted s t := by
        unfold callsBy
        rcases hcalls with heq | ⟨d, heq, hd⟩
        · rw [heq]
        · rw [heq, List.countP_append, List.countP_singleton, hd]
          simp [hlt]
      rw [hsame]
      exact h.bound t ht
    · have hle : callsBy counted s' t ≤ accounted counted charged s' := by
        refine (List.countP_mono_left fun c _ hc => ?_).trans (Nat.le_add_right _ _)
        exact (Bool.and_eq_true _ _ ▸ hc).1
      refine le_trans (by exact_mod_cast hle) (hspent.le hrate ?_)
      exact seconds_mono (hupd'.trans (not_lt.mp hlt))

end Metered

/-! ### What a step does to the calls and the clock -/

/-- A step of a task goroutine makes at most one call, and takes no time. -/
theorem TaskStep.calls {B : Type} {env : Env B} {s s' : State B} {i : Nat} {g : Goroutine}
    {a : TaskAction}
    (h : TaskStep env s i g a s') : s'.clock = s.clock ∧
      (s'.calls = s.calls ∨ ∃ c, s'.calls = s.calls ++ [c] ∧ c.startedAt = s.clock) := by
  cases h with
  | call hpc => exact ⟨rfl, Or.inr ⟨_, rfl, rfl⟩⟩
  | _ => exact ⟨rfl, Or.inl rfl⟩

/-- The main goroutine makes no call and leaves the limiters alone. -/
theorem MainStepped.frame {B : Type} {env : Env B} {s s' : State B} (h : MainStepped env s s') :
    s'.calls = s.calls ∧ s'.clock = s.clock ∧ s'.globalLimiter = s.globalLimiter ∧
      s'.provLimiters = s.provLimiters := by
  cases h <;> exact ⟨rfl, rfl, rfl, rfl⟩

/-- A goroutine that starts is not charged. -/
theorem accounted_main {counted : Call → Bool} {charged : Goroutine → Bool}
    (hstart : ∀ g : Goroutine, g.pc = .resolve → charged g = false) {s s' : State Bucket}
    (h : MainStepped env s s') : accounted counted charged s' = accounted counted charged s := by
  unfold accounted
  rw [h.frame.1]
  rcases h.gos with hgos | ⟨t, hgos⟩
  · rw [hgos]
  · rw [hgos, List.countP_append, List.countP_singleton, hstart _ rfl]
    rfl

/-! ### The global limiter -/

/-- A goroutine between its global token and its call. The token is spent and the invocation is
still to come, so it counts on both sides of the books. -/
def globalCharged (g : Goroutine) : Bool :=
  match g.pc with
  | .provider | .providerWait | .call => true
  | _ => false

/-- The global limiter counts every call. -/
def everyCall (_ : Call) : Bool := true

/-- A goroutine that is put back with no more charges than before. -/
theorem accounted_set_le {counted : Call → Bool} {charged : Goroutine → Bool} {s : State Bucket}
    {i : Nat} {g g' : Goroutine} (hg : s.gos[i]? = some g)
    (hle : charged g' = true → charged g = true) :
    s.calls.countP counted + (s.gos.set i g').countP charged ≤ accounted counted charged s := by
  have hset := @countP_set_add _ charged s.gos i g g' hg
  unfold accounted
  cases hold : charged g with
  | true =>
      rw [hold, if_pos rfl] at hset
      split at hset <;> omega
  | false =>
      have hnew : charged g' = false := by
        cases hc : charged g' with
        | false => rfl
        | true => rw [hle hc] at hold; exact hold
      rw [hold, hnew] at hset
      simp only [Bool.false_eq_true, if_false] at hset
      omega

/-- A goroutine that is put back is charged once more at most. -/
theorem accounted_set_succ {counted : Call → Bool} {charged : Goroutine → Bool}
    {s : State Bucket} {i : Nat} {g g' : Goroutine} (hg : s.gos[i]? = some g) :
    s.calls.countP counted + (s.gos.set i g').countP charged
      ≤ accounted counted charged s + 1 := by
  have hset := @countP_set_add _ charged s.gos i g g' hg
  unfold accounted
  split at hset <;> split at hset <;> omega

/-- A charged goroutine uses its token for a call. -/
theorem accounted_call {counted : Call → Bool} {charged : Goroutine → Bool} {s : State Bucket}
    {i : Nat} {g g' : Goroutine} {c : Call} (hg : s.gos[i]? = some g)
    (hold : counted c = true → charged g = true) (hnew : charged g' = false) :
    (s.calls ++ [c]).countP counted + (s.gos.set i g').countP charged
      ≤ accounted counted charged s := by
  have hset := @countP_set_add _ charged s.gos i g g' hg
  rw [hnew] at hset
  unfold accounted
  rw [List.countP_append, List.countP_singleton]
  cases hc : counted c with
  | true =>
      rw [hold hc] at hset
      simp only [if_true, Bool.false_eq_true, if_false] at hset ⊢
      omega
  | false =>
      simp only [Bool.false_eq_true, if_false] at hset ⊢
      omega

/-- A locked section on a bucket grants a token or leaves it. -/
theorem tryAcquire_bucket (hlim : env.limiter = bucketLimiter) {b : Bucket} {now : Nat} {ok : Bool}
    {b' : Option Bucket} (h : env.tryAcquire (some b) now = (ok, b')) :
    ∃ c, b' = some c ∧ b.acquireN 1 now = (ok, c) := by
  simp only [tryAcquire, hlim, Prod.mk.injEq] at h
  exact ⟨_, h.2.symm, Prod.ext h.1 rfl⟩

/-- A step of a task goroutine and the global limiter. -/
theorem globalCharge (hlim : env.limiter = bucketLimiter) {s s' : State Bucket} {i : Nat}
    {g : Goroutine} {a : TaskAction} (hg : s.gos[i]? = some g) (h : TaskStep env s i g a s')
    {b : Bucket} (hb : s.globalLimiter = some b) :
    ∃ b', s'.globalLimiter = some b' ∧
      Charge s.clock b b' (accounted everyCall globalCharged s)
        (accounted everyCall globalCharged s') := by
  -- A step that neither calls nor charges its goroutine adds nothing to what has been accounted
  -- for.
  have hkeep : ∀ g' : Goroutine, (globalCharged g' = true → globalCharged g = true) →
      s.calls.countP everyCall + (s.gos.set i g').countP globalCharged
        ≤ accounted everyCall globalCharged s := fun _ hle => accounted_set_le hg hle
  cases h with
  | resolve hpc =>
      refine ⟨b, hb, .keep rfl (hkeep _ ?_)⟩
      rcases resolveInputs_pc env g s.clock with h | h <;> simp [globalCharged, h]
  | takeSlot hpc hfree => exact ⟨b, hb, .keep rfl (hkeep _ (by simp [globalCharged]))⟩
  | cancelSlot hpc hc => exact ⟨b, hb, .keep rfl (hkeep _ (by simp [globalCharged]))⟩
  | grantGlobal l hpc hl =>
      rw [hb] at hl
      obtain ⟨b', rfl, hacq⟩ := tryAcquire_bucket hlim hl
      exact ⟨b', rfl, .granted hacq (accounted_set_succ hg)⟩
  | denyGlobal l hpc hl =>
      rw [hb] at hl
      obtain ⟨b', rfl, hacq⟩ := tryAcquire_bucket hlim hl
      exact ⟨b', rfl, .refused hacq (hkeep _ (by simp [globalCharged]))⟩
  | grantProvider l l' hpc hp hl =>
      exact ⟨b, hb, .keep rfl (hkeep _ (by simp [globalCharged, hpc]))⟩
  | denyProvider l l' hpc hp hl =>
      exact ⟨b, hb, .keep rfl (hkeep _ (by simp [globalCharged, hpc]))⟩
  | timerGlobal hpc => exact ⟨b, hb, .keep rfl (hkeep _ (by simp [globalCharged]))⟩
  | timerProvider hpc => exact ⟨b, hb, .keep rfl (hkeep _ (by simp [globalCharged, hpc]))⟩
  | cancelWait hpc hc => exact ⟨b, hb, .keep rfl (hkeep _ (by simp [globalCharged]))⟩
  -- The call moves one charge from the goroutine to the record of calls.
  | call hpc =>
      exact ⟨b, hb, .keep rfl (accounted_call hg (fun _ => by simp [globalCharged, hpc])
        (by simp [globalCharged]))⟩
  | ret res err hpc =>
      refine ⟨b, hb, .keep rfl (hkeep _ ?_)⟩
      rcases afterExecute_pc env g s.clock res err with h | h <;> simp [globalCharged, h]
  | wake hpc =>
      refine ⟨b, hb, .keep rfl (hkeep _ ?_)⟩
      rcases enterAttempt_pc env g s.clock (g.span.attempts + 1) with h | h <;>
        simp [globalCharged, h]
  | send hpc hroom => exact ⟨b, hb, .keep rfl (hkeep _ (by simp [globalCharged]))⟩

/-! ### The limiter of a provider -/

/-- The task names the provider. An empty name is none. -/
def ofProvider (p : String) (t : Task) : Bool := decide (t.provider ≠ "" ∧ t.provider = p)

/-- A goroutine between its provider token and its call. -/
def providerCharged (p : String) (g : Goroutine) : Bool :=
  ofProvider p g.task && decide (g.pc = .call)

/-- The limiter of a provider counts the calls for its tasks. -/
def callOf (env : Env Bucket) (p : String) (c : Call) : Bool :=
  (env.wf.taskMap.get? c.inv.taskID).any (ofProvider p)

/-- Each goroutine runs the task that its id names. -/
def TasksOk (env : Env Bucket) (s : State Bucket) : Prop :=
  ∀ g ∈ s.gos, env.wf.taskMap.get? g.task.id = some g.task

/-- A step of a task goroutine and the limiter of a provider. -/
theorem providerCharge (hlim : env.limiter = bucketLimiter) (p : String)
    {s s' : State Bucket} {i : Nat} {g : Goroutine} {a : TaskAction} (hg : s.gos[i]? = some g)
    (htask : env.wf.taskMap.get? g.task.id = some g.task) (h : TaskStep env s i g a s')
    {b : Bucket} (hb : s.provLimiters.get? p = some (some b)) :
    ∃ b', s'.provLimiters.get? p = some (some b') ∧
      Charge s.clock b b' (accounted (callOf env p) (providerCharged p) s)
        (accounted (callOf env p) (providerCharged p) s') := by
  have hkeep : ∀ g' : Goroutine,
      (providerCharged p g' = true → providerCharged p g = true) →
      s.calls.countP (callOf env p) + (s.gos.set i g').countP (providerCharged p)
        ≤ accounted (callOf env p) (providerCharged p) s := fun _ hle => accounted_set_le hg hle
  cases h with
  | resolve hpc =>
      refine ⟨b, hb, .keep rfl (hkeep _ ?_)⟩
      rcases resolveInputs_pc env g s.clock with h | h <;> simp [providerCharged, h]
  | takeSlot hpc hfree => exact ⟨b, hb, .keep rfl (hkeep _ (by simp [providerCharged]))⟩
  | cancelSlot hpc hc => exact ⟨b, hb, .keep rfl (hkeep _ (by simp [providerCharged]))⟩
  | grantGlobal l hpc hl =>
      -- A task of this provider has yet to ask its limiter.
      refine ⟨b, hb, .keep rfl (hkeep _ fun hcharged => ?_)⟩
      simp only [providerCharged, ofProvider, Bool.and_eq_true, decide_eq_true_iff] at hcharged
      obtain ⟨⟨hne, rfl⟩, hcall⟩ := hcharged
      have hpc' : afterGlobal g s.provLimiters = .provider :=
        if_pos ⟨hne, by simp [Dict.contains, hb]⟩
      rw [hpc'] at hcall
      cases hcall
  | denyGlobal l hpc hl => exact ⟨b, hb, .keep rfl (hkeep _ (by simp [providerCharged]))⟩
  | grantProvider l l' hpc hp hl =>
      by_cases hsame : g.task.provider = p
      · subst hsame
        rw [hb] at hp
        cases hp
        obtain ⟨b', rfl, hacq⟩ := tryAcquire_bucket hlim hl
        exact ⟨b', Dict.get?_set_self _ _ _, .granted hacq (accounted_set_succ hg)⟩
      · refine ⟨b, ?_, .keep rfl (hkeep _ ?_)⟩
        · exact (Dict.get?_set_ne _ _ (Ne.symm hsame)).trans hb
        · simp [providerCharged, ofProvider, hsame]
  | denyProvider l l' hpc hp hl =>
      by_cases hsame : g.task.provider = p
      · subst hsame
        rw [hb] at hp
        cases hp
        obtain ⟨b', rfl, hacq⟩ := tryAcquire_bucket hlim hl
        exact ⟨b', Dict.get?_set_self _ _ _,
          .refused hacq (hkeep _ (by simp [providerCharged]))⟩
      · refine ⟨b, ?_, .keep rfl (hkeep _ (by simp [providerCharged]))⟩
        exact (Dict.get?_set_ne _ _ (Ne.symm hsame)).trans hb
  | timerGlobal hpc => exact ⟨b, hb, .keep rfl (hkeep _ (by simp [providerCharged]))⟩
  | timerProvider hpc => exact ⟨b, hb, .keep rfl (hkeep _ (by simp [providerCharged]))⟩
  | cancelWait hpc hc => exact ⟨b, hb, .keep rfl (hkeep _ (by simp [providerCharged]))⟩
  | call hpc =>
      refine ⟨b, hb, .keep rfl (accounted_call hg (fun hc => ?_) (by simp [providerCharged]))⟩
      simpa [callOf, invocation, htask, providerCharged, hpc] using hc
  | ret res err hpc =>
      refine ⟨b, hb, .keep rfl (hkeep _ ?_)⟩
      rcases afterExecute_pc env g s.clock res err with h | h <;> simp [providerCharged, h]
  | wake hpc =>
      refine ⟨b, hb, .keep rfl (hkeep _ ?_)⟩
      rcases enterAttempt_pc env g s.clock (g.span.attempts + 1) with h | h <;>
        simp [providerCharged, h]
  | send hpc hroom => exact ⟨b, hb, .keep rfl (hkeep _ (by simp [providerCharged]))⟩

/-! ### Runs -/

/-- `taskMap` finds a task under its id. -/
theorem taskMap_id {wf : Workflow} {id : String} {t : Task} (h : wf.taskMap.get? id = some t) :
    t.id = id := by
  rcases of_get?_foldl_set (fun t : Task => t.id) _ _ h with h | h
  · rw [Dict.get?_empty] at h
    cases h
  · exact h

/-- `TasksOk` holds in every reachable state. -/
theorem reachable_tasksOk {s : State Bucket} (hs : env.system.Reachable s) : TasksOk env s := by
  refine hs.holds (fun g hg => ?_) fun s a s' _ htasks ha => ?_
  · simp [system, Env.initial] at hg
  · rcases step_inv ha with ⟨-, hm⟩ | ⟨i, b, g, -, hg, ht⟩ | ⟨-, rfl⟩ | ⟨d, -, rfl⟩
    · cases hm with
      -- A new goroutine gets its task out of the table.
      | dispatch tid rest t hpc hr ht =>
          intro g hg
          rcases List.mem_append.mp hg with hg | hg
          · exact htasks g hg
          · obtain rfl := List.mem_singleton.mp hg
            show env.wf.taskMap.get? t.id = some t
            rw [taskMap_id ht]
            exact ht
      | _ => exact htasks
    · obtain ⟨g', hgs⟩ := ht.goStep
      have hg' : env.wf.taskMap.get? g'.task.id = some g'.task :=
        hgs.task ▸ htasks g (List.mem_of_getElem? hg)
      unfold TasksOk
      rw [hgs.gos]
      exact forall_mem_set htasks hg'
    · exact htasks
    · exact htasks

/-- The books of one limiter over a run, from what a step of a task goroutine does to it.
`bucket` reads the limiter off a state. -/
theorem reachable_metered {requests per : ℚ} (hreq : 0 ≤ requests) (hper : 0 < per)
    (counted : Call → Bool) (charged : Goroutine → Bool)
    (bucket : State Bucket → Option Bucket)
    (hinit : bucket env.initial = some (Bucket.new requests per env.startedAt))
    (hframe : ∀ s s' : State Bucket, s'.globalLimiter = s.globalLimiter →
      s'.provLimiters = s.provLimiters → bucket s' = bucket s)
    (hstart : ∀ g : Goroutine, g.pc = .resolve → charged g = false)
    (htask : ∀ (s s' : State Bucket) (i : Nat) (g : Goroutine) (a : TaskAction) (b : Bucket),
      TasksOk env s → s.gos[i]? = some g → TaskStep env s i g a s' → bucket s = some b →
      ∃ b', bucket s' = some b' ∧
        Charge s.clock b b' (accounted counted charged s) (accounted counted charged s'))
    {s : State Bucket} (hs : env.system.Reachable s) :
    ∃ b, bucket s = some b ∧ Metered requests per env.startedAt counted charged b s := by
  refine hs.holds (P := fun s => ∃ b, bucket s = some b ∧
    Metered requests per env.startedAt counted charged b s)
    ⟨_, hinit, ?_⟩ fun s a s' hreach hm ha => ?_
  · -- At the start the bucket is full and no call has been made.
    refine ⟨TokenBucket.spent_full hreq, le_refl _, by simp [system, Env.initial], ?_⟩
    intro t ht
    have hnone : callsBy counted env.initial t = 0 := rfl
    have hlater := seconds_mono ht
    have hrate : 0 ≤ requests / per := div_nonneg hreq hper.le
    show (callsBy counted env.initial t : ℚ) ≤ _
    rw [hnone, Nat.cast_zero]
    exact add_nonneg hreq (mul_nonneg hrate (sub_nonneg.mpr hlater))
  · obtain ⟨b, hb, hm⟩ := hm
    -- The bucket changes in a step of a task only; the other steps change neither the bucket nor
    -- the calls, and at most the clock.
    rcases step_inv ha with ⟨-, hmain⟩ | ⟨i, c, g, -, hg, ht⟩ | ⟨-, rfl⟩ | ⟨d, -, rfl⟩
    · obtain ⟨hcalls, hclock, hglobal, hprov⟩ := hmain.frame
      exact ⟨b, (hframe _ _ hglobal hprov).trans hb, hm.step hreq hper
        (.keep rfl (accounted_main hstart hmain).le) hclock.ge (Or.inl hcalls)⟩
    · obtain ⟨b', hb', hcharge⟩ := htask s s' i g c b (reachable_tasksOk hreach) hg ht hb
      obtain ⟨hclock, hcalls⟩ := ht.calls
      exact ⟨b', hb', hm.step hreq hper hcharge hclock.ge hcalls⟩
    · exact ⟨b, (hframe s { s with cancelled := true } rfl rfl).trans hb,
        hm.step hreq hper (.keep rfl le_rfl) le_rfl (Or.inl rfl)⟩
    · exact ⟨b, (hframe s { s with clock := s.clock + d } rfl rfl).trans hb,
        hm.step hreq hper (.keep rfl le_rfl) (Nat.le_add_right _ _) (Or.inl rfl)⟩

/-- What a rate limit promises about the calls it counts: in the first `d` nanoseconds of a run
there are at most `requests + (requests / per) * d` of them. -/
def Limited (env : Env Bucket) (counted : Call → Bool) (rl : RateLimit) (s : State Bucket) :
    Prop :=
  ∀ d : Nat, (callsBy counted s (env.startedAt + d) : ℚ)
    ≤ rl.requests + rl.requests / rl.per * seconds d

/-- The books of a limiter bound its calls. -/
theorem Metered.limited {rl : RateLimit} {counted : Call → Bool} {charged : Goroutine → Bool}
    {b : Bucket} {s : State Bucket}
    (h : Metered rl.requests rl.per env.startedAt counted charged b s) :
    Limited env counted rl s := by
  intro d
  have hbound := h.bound (env.startedAt + d) (Nat.le_add_right _ _)
  have hsplit : seconds (env.startedAt + d) - seconds env.startedAt = seconds d := by
    unfold seconds
    push_cast
    ring
  rw [hsplit] at hbound
  exact hbound

/-- In every run the calls of `Execute` keep within the global limit, and those for the tasks of a
provider within the limit of the provider. The bound holds at every instant of the run.

Both halves are `reachable_metered`, applied to one limiter and to the calls it counts. Its
invariant adds up what is in the bucket, what goroutines have been charged for and not yet used, and
the calls made: together they never exceed the capacity and the refill since the start. -/
theorem rate_limited (env : Env Bucket) (hlim : env.limiter = bucketLimiter) {s : State Bucket}
    (hs : env.system.Reachable s) :
    (∀ rl, env.wf.rateLimit = some rl → 1 ≤ rl.requests → 0 < rl.per →
      Limited env everyCall rl s) ∧
    ∀ p prov rl, env.wf.providers.get? p = some prov → prov.rateLimit = some rl →
      1 ≤ rl.requests → 0 < rl.per → Limited env (callOf env p) rl s := by
  constructor
  · intro rl hrl hreq hper
    have hreq' : (0 : ℚ) ≤ rl.requests := by exact_mod_cast (by omega : 0 ≤ rl.requests)
    obtain ⟨b, -, hm⟩ := reachable_metered hreq' hper everyCall globalCharged
      (fun s => s.globalLimiter)
      (by simp [Env.initial, newLimiter, hrl, hlim, bucketLimiter]) (fun _ _ hglobal _ => hglobal)
      (fun g hpc => by simp [globalCharged, hpc])
      (fun s s' i g a b _ hg ht hb => globalCharge hlim hg ht hb) hs
    exact hm.limited
  · intro p prov rl hp hrl hreq hper
    have hreq' : (0 : ℚ) ≤ rl.requests := by exact_mod_cast (by omega : 0 ≤ rl.requests)
    -- The limiter of one provider, charged by the tasks of that provider alone.
    have htask : ∀ (s s' : State Bucket) (i : Nat) (g : Goroutine) (a : TaskAction) (b : Bucket),
        TasksOk env s → s.gos[i]? = some g → TaskStep env s i g a s' →
        (s.provLimiters.get? p).join = some b → ∃ b', (s'.provLimiters.get? p).join = some b' ∧
          Charge s.clock b b' (accounted (callOf env p) (providerCharged p) s)
            (accounted (callOf env p) (providerCharged p) s') := by
      intro s s' i g a b htasks hg ht hb
      obtain ⟨b', hb', hcharge⟩ := providerCharge hlim p hg
        (htasks g (List.mem_of_getElem? hg)) ht (Option.join_eq_some_iff.mp hb)
      exact ⟨b', Option.join_eq_some_iff.mpr hb', hcharge⟩
    obtain ⟨b, -, hm⟩ := reachable_metered hreq' hper (callOf env p) (providerCharged p)
      (fun s => (s.provLimiters.get? p).join)
      (by simp [Env.initial, newLimiter, hp, hrl, hlim, bucketLimiter])
      (fun _ _ _ hprov => by rw [hprov]) (fun g hpc => by simp [providerCharged, hpc]) htask hs
    exact hm.limited

/-- One call in ten seconds for the whole run, and one in twenty for the provider `p`. -/
def twoLimits : Env Bucket where
  wf := { plainWorkflow [{ plainTask "a" [] "" with provider := "p" },
        { plainTask "b" [] "" with provider := "p" }] with
      rateLimit := some { requests := 1, per := 10, tokens := 0, perTokens := none }
      providers := Dict.empty.set "p"
        { name := "p"
          rateLimit := some { requests := 1, per := 20, tokens := 0, perTokens := none } } }
  runID := "r"
  inputs := .empty
  lib := plainLib
  iter := .insertion
  limiter := bucketLimiter
  startedAt := 0

/-- The second call waits for both limiters, and comes after twenty seconds. -/
theorem rate_limited_twoLimits :
    ∃ s, s.calls.map (fun c => (c.inv.taskID, c.startedAt))
        = [("a", 0), ("b", 20000000000)] ∧
      Limited twoLimits everyCall { requests := 1, per := 10, tokens := 0, perTokens := none } s ∧
      Limited twoLimits (callOf twoLimits "p")
        { requests := 1, per := 20, tokens := 0, perTokens := none } s := by
  have hrun : (twoLimits.system.run?
      ([.main, .main, .main, .task 0 .resolve, .task 0 .takeSlot, .task 0 .acquire,
        .task 0 .acquire, .task 0 .call, .task 1 .resolve, .task 1 .takeSlot, .task 1 .acquire,
        .tick 10000000000, .task 1 .timer, .task 1 .acquire, .task 1 .acquire,
        .tick 10000000000, .task 1 .timer, .task 1 .acquire, .task 1 .call])).any
        (fun s => s.calls.map (fun c => (c.inv.taskID, c.startedAt))
          = [("a", 0), ("b", 20000000000)]) = true := by decide +kernel
  obtain ⟨s, hs, hcalls⟩ := System.exists_of_run hrun
  obtain ⟨hglobal, hprov⟩ := rate_limited twoLimits rfl hs
  exact ⟨s, by simpa using hcalls, hglobal _ rfl (by decide) (by norm_num),
    hprov "p" _ _ rfl rfl (by decide) (by norm_num)⟩

end Orchestrator.Proofs
