import Orchestrator.Proofs.RunnerProgress

/-!
# `Orchestrator.Proofs.RunnerCompletion`: a fair Python run ends

`Fair` is what a run relies on: each handler returns, time passes, and what can step for ever is
scheduled at some point. A fair run with a slot returns or raises (`fair_ends`). From some point on
its steps are all quiet (`QuietFrom`), and then no coroutine can be anywhere but at its end.

The proof is the one of `Completion`, with two differences. The buckets of the SDK are in the model,
so that they return is proved and not assumed: a bucket has a token from some instant on, and a
coroutine that asks it after that is granted one (`not_inAcquire_of_ready`), which would not be
quiet. And a run may end by raising, or not at all when a handler has stopped the event loop or its
future is lost (`Going`).

A coroutine that does not come to its end waits for a slot (`done_or_slot`). But then some other
coroutine holds one, which is not at its end either and holds no slot at that place; with room for
one task this is a contradiction.
-/

set_option autoImplicit false

namespace Orchestrator.Sdk.Runner

open Orchestrator.Lib Env

variable {env : Env}

/-- What a run relies on: handlers return, time passes, and neither a coroutine nor `run` is passed
over for ever. Nothing is asked of the buckets, since time refills them. -/
structure Fair (e : env.system.Execution) : Prop where
  /-- Each handler returns. -/
  returns : ∀ (n i : Nat) (c : Coro), (e.state n).coros[i]? = some c → c.pc = .handler →
    ∃ (m : Nat) (c' : Coro), n ≤ m ∧ (e.state m).coros[i]? = some c' ∧ c'.pc ≠ .handler
  /-- Time passes. -/
  clock : ∀ n t : Nat, ∃ m, n ≤ m ∧ t ≤ (e.state m).clock
  /-- A coroutine that can step from some point on takes a step. -/
  coro : ∀ n i : Nat, (∀ m, n ≤ m → ∃ a, (env.step? (e.state m) (.coro i a)).isSome = true) →
    ∃ (m : Nat) (a : CoroAction), n ≤ m ∧ e.label m = .coro i a
  /-- `run`, when it can step from some point on, takes a step. -/
  run : ∀ n : Nat, (∀ m, n ≤ m → RunEnabled env (e.state m)) →
    ∃ m, n ≤ m ∧ ofRun (e.label m) = true

/-- No handler keeps `run` from its end: none has stopped the event loop, and no coroutine waits for
a future that is never done. -/
structure Going (env : Env) (s : State) : Prop where
  running : s.stopped = false
  lost : ∀ c ∈ s.coros, c.isLost env = false

/-! ### States with the same view -/

/-- A coroutine of the earlier state is there in the later one, and looks the same. -/
theorem SameView.coro {s s' : State} (h : SameView s s') {i : Nat} {c : Coro}
    (hi : s.coros[i]? = some c) : ∃ c', s'.coros[i]? = some c' ∧ seen c' = seen c := by
  have hseen : (s'.coros[i]?).map seen = (s.coros[i]?).map seen := by
    rw [← List.getElem?_map, ← List.getElem?_map, h.coros]
  rw [hi] at hseen
  obtain ⟨c', hc', heq⟩ := Option.map_eq_some_iff.mp hseen
  exact ⟨c', hc', heq⟩

/-- The view of two states is the same both ways. -/
theorem SameView.symm {s s' : State} (h : SameView s s') : SameView s' s :=
  ⟨h.main.symm, h.sem.symm, h.coros.symm⟩

/-- The stage of a wait says whether the coroutine is done. -/
theorem isDone_stage (pc : CoroPc) : (stage pc).isDone = pc.isDone := by
  cases pc <;> rfl

/-- Outside a bucket the stage of a wait is the wait. -/
theorem pc_of_stage {pc pc' : CoroPc} (h : stage pc' = stage pc) (hacq : inAcquire pc = false) :
    pc' = pc := by
  cases pc <;> cases pc' <;> simp_all [stage, inAcquire]

/-- Coroutines that look the same are both done or both not. -/
theorem seen_isDone {c c' : Coro} (h : seen c' = seen c) : c'.pc.isDone = c.pc.isDone := by
  have hstage : stage c'.pc = stage c.pc := congrArg Prod.fst h
  rw [← isDone_stage, hstage, isDone_stage]

/-- The done coroutines are the same. -/
theorem SameView.isDone {s s' : State} (h : SameView s s') (i : Nat) :
    (s'.coros[i]?).any (fun c => c.pc.isDone) = (s.coros[i]?).any (fun c => c.pc.isDone) := by
  cases hi : s.coros[i]? with
  | some c =>
      obtain ⟨c', hc', hseen⟩ := h.coro hi
      rw [hc']
      exact seen_isDone hseen
  | none =>
      cases hi' : s'.coros[i]? with
      | none => rfl
      | some c' =>
          obtain ⟨c, hc, -⟩ := h.symm.coro hi'
          rw [hi] at hc
          cases hc

/-- Where `run` is blocked, it is blocked in every state with the same view. -/
theorem Blocked.of_view {s s' : State} (hb : Blocked s') (h : SameView s s') : Blocked s := by
  rcases hb with ⟨hpc, hnone⟩ | ⟨hpc, hall⟩
  · refine Or.inl ⟨h.main ▸ hpc, ?_⟩
    rw [← hnone]
    unfold doneFutures
    rw [h.main]
    exact List.filter_congr fun i _ => (h.isDone i).symm
  · refine Or.inr ⟨h.main ▸ hpc, fun hs => hall fun i hi => ?_⟩
    rw [h.main] at hi
    obtain ⟨c, hc, hdone⟩ := hs i hi
    obtain ⟨c', hc', hseen⟩ := h.coro hc
    exact ⟨c', hc', by rw [seen_isDone hseen, hdone]⟩

/-! ### The quiet end of an execution -/

/-- A coroutine inside a bucket can step, where `run` lets it and nobody asked it to stop. -/
theorem acquire_enabled {s : State} {i : Nat} {c : Coro} (hi : s.coros[i]? = some c)
    (hstop : s.stopped = false) (hy : s.main.pc.yields = true) (hacq : inAcquire c.pc = true)
    (hcr : c.cancelRequested = false) : ∃ a, (env.step? s (.coro i a)).isSome = true := by
  have hstep : ∀ a, (env.coroStep s i c a).isSome = true →
      ∃ a, (env.step? s (.coro i a)).isSome = true := by
    intro a ha
    exact ⟨a, by simpa [step_of_running hstop, loopStep, hi, hy] using ha⟩
  -- A coroutine in a limiter asks it or sleeps, and both end by a step of its own.
  cases hpc : c.pc with
  | global =>
      refine hstep .acquire ?_
      simp only [coroStep, hpc, hcr, Bool.false_eq_true, if_false]
      split <;> rfl
  | provider =>
      refine hstep .acquire ?_
      simp only [coroStep, hpc, hcr, Bool.false_eq_true, if_false]
      split <;> rfl
  | globalSleep => exact hstep .timer (by simp [coroStep, hpc, hcr])
  | providerSleep => exact hstep .timer (by simp [coroStep, hpc, hcr])
  | _ =>
      rw [hpc] at hacq
      simp [inAcquire, stage] at hacq

/-- A round inside a bucket is one of a coroutine there. -/
theorem Round.inAcquire {s : State} {c c' : Coro} {a : CoroAction} (h : Round env s c a c') :
    inAcquire c.pc = true := by
  rcases h.cases with ⟨-, hr⟩ | ⟨-, ht, -⟩
  · cases hpc : c.pc <;> simp_all [refused, Runner.inAcquire, stage]
  · cases hpc : c.pc <;> simp_all [throttled, Runner.inAcquire, stage]

/-- All steps from a point on are quiet. -/
def QuietFrom (e : env.system.Execution) (n : Nat) : Prop :=
  ∀ m, n ≤ m → Quiet env (e.state m) (e.label m) (e.state (m + 1))

/-- From some point on all steps are quiet. -/
theorem exists_quietFrom (hacc : Accepted env.wf) (e : env.system.Execution) :
    ∃ n, QuietFrom e n :=
  e.eventually_quiet (rank env) _ fun _ _ _ hs ha =>
    step_rank hacc (reachable_sound hacc hs) (reachable_bucketsOk hs) ha

namespace QuietFrom

variable {e : env.system.Execution} {n : Nat}

/-- What is quiet from a point on is quiet from any later one. -/
theorem mono (h : QuietFrom e n) {m : Nat} (hm : n ≤ m) : QuietFrom e m :=
  fun k hk => h k (hm.trans hk)

/-- Quiet steps leave the view alone. -/
theorem view (h : QuietFrom e n) {m : Nat} (hm : n ≤ m) : SameView (e.state n) (e.state m) :=
  e.related_from SameView.refl (fun _ _ _ => .trans) (fun k hk => (h k hk).view) hm

/-- Time does not go back. -/
theorem clock (h : QuietFrom e n) {m : Nat} (hm : n ≤ m) : (e.state n).clock ≤ (e.state m).clock :=
  @System.Execution.related_from _ _ _ e (fun s s' => s.clock ≤ s'.clock) (fun _ => le_rfl)
    (fun _ _ _ => le_trans) n (fun k hk => (h k hk).clock) m hm

/-- Quiet steps leave a bucket ready. -/
theorem ready (h : QuietFrom e n) {m : Nat} (hm : n ≤ m) {key : Option String} {t : Nat}
    (hready : ReadyAt env (e.state n) key t) : ReadyAt env (e.state m) key t := by
  have hrel := @System.Execution.related_from _ _ _ e
    (fun s s' => ∀ key t, ReadyAt env s key t → ReadyAt env s' key t) (fun _ _ _ h => h)
    (fun _ _ _ h₁ h₂ key t h => h₂ key t (h₁ key t h)) n (fun k hk => (h k hk).ready) m hm
  exact hrel key t hready

/-- What a coroutine does when it steps. -/
theorem round (h : QuietFrom e n) {m i : Nat} (hm : n ≤ m) {a : CoroAction}
    (hlabel : e.label m = .coro i a) {c : Coro}
    (hi : (e.state m).coros[i]? = some c) :
    ∃ c', (e.state (m + 1)).coros[i]? = some c' ∧ Round env (e.state m) c a c' := by
  rcases (h m hm).coros with ⟨hno, -⟩ | ⟨j, b, d, d', hj, hd, hcoros, hround⟩
  · exact absurd hlabel (hno i a)
  · rw [hlabel] at hj
    cases hj
    rw [hi] at hd
    cases hd
    refine ⟨d', ?_, hround⟩
    rw [hcoros, List.getElem?_set_self (List.getElem?_eq_some_iff.mp hi).1]

/-- A coroutine that does not step stays. -/
theorem stays (h : QuietFrom e n) {m i : Nat} (hm : n ≤ m)
    (hlabel : ∀ a, e.label m ≠ .coro i a) {c : Coro}
    (hi : (e.state m).coros[i]? = some c) : (e.state (m + 1)).coros[i]? = some c := by
  rcases (h m hm).coros with ⟨-, hcoros⟩ | ⟨j, b, d, d', hj, hd, hcoros, -⟩
  · rw [hcoros, hi]
  · have hne : j ≠ i := by
      rintro rfl
      exact hlabel b hj
    rw [hcoros, List.getElem?_set_ne hne, hi]

/-- A coroutine that steps is inside a bucket, and nobody asked it to stop. -/
theorem of_enabled (h : QuietFrom e n) (hfair : Fair e) {i : Nat} {c : Coro}
    (hi : (e.state n).coros[i]? = some c)
    (hen : ∀ m, n ≤ m → ∃ a, (env.step? (e.state m) (.coro i a)).isSome = true) :
    inAcquire c.pc = true ∧ c.cancelRequested = false := by
  obtain ⟨m, a, hm, hlabel⟩ := hfair.coro n i hen
  obtain ⟨c', hc', hseen⟩ := (h.view hm).coro hi
  obtain ⟨d, -, hround⟩ := h.round hm hlabel hc'
  simp only [seen, Prod.mk.injEq] at hseen
  refine ⟨?_, hseen.2.1 ▸ hround.no_request⟩
  have hacq := hround.inAcquire
  unfold inAcquire at hacq ⊢
  rwa [hseen.1] at hacq

/-- The bucket that a coroutine asks. -/
theorem askedKey_eq (h : QuietFrom e n) {m i : Nat} (hm : n ≤ m) {c c' : Coro}
    (hi : (e.state n).coros[i]? = some c)
    (hi' : (e.state m).coros[i]? = some c') : askedKey c' = askedKey c := by
  obtain ⟨c₁, hc₁, hseen⟩ := (h.view hm).coro hi
  rw [hi'] at hc₁
  cases hc₁
  simp only [seen, Prod.mk.injEq] at hseen
  obtain ⟨hstage, -, htask⟩ := hseen
  unfold askedKey
  rw [htask]
  cases hpc : c.pc <;> cases hpc' : c'.pc <;> simp_all [stage]

/-- A coroutine inside a bucket that refuses nobody does not stay there. -/
theorem not_inAcquire_of_ready (h : QuietFrom e n) (hfair : Fair e)
    (hgo : ∀ m, Going env (e.state m)) (hy : (e.state n).main.pc.yields = true) {i : Nat} {c : Coro}
    (hi : (e.state n).coros[i]? = some c) (hcr : c.cancelRequested = false) {t : Nat}
    (hready : ReadyAt env (e.state n) (askedKey c) t) (ht : t ≤ (e.state n).clock) :
    inAcquire c.pc = false := by
  rw [← Bool.not_eq_true]
  intro hacq
  have hen : ∀ m, n ≤ m → ∃ a, (env.step? (e.state m) (.coro i a)).isSome = true := by
    intro m hm
    obtain ⟨d, hd, hseen⟩ := (h.view hm).coro hi
    simp only [seen, Prod.mk.injEq] at hseen
    refine acquire_enabled hd (hgo m).running (by rw [(h.view hm).main]; exact hy) ?_
      (hseen.2.1.trans hcr)
    unfold inAcquire at hacq ⊢
    rwa [hseen.1]
  -- Every step of the coroutine ends a sleep.
  have htimer : ∀ m, n ≤ m → ∀ a d, e.label m = .coro i a → (e.state m).coros[i]? = some d →
      throttled d = true ∧ ∃ d', (e.state (m + 1)).coros[i]? = some d' ∧ throttled d' = false := by
    intro m hm a d hlabel hd
    obtain ⟨d', hd', hround⟩ := h.round hm hlabel hd
    rcases hround.cases with ⟨-, hrefused⟩ | ⟨-, hsleep, hawake⟩
    · have hready' : ReadyAt env (e.state m) (askedKey d) t := by
        rw [h.askedKey_eq hm hi hd]
        exact h.ready hm hready
      rw [hready'.not_refused (ht.trans (h.clock hm))] at hrefused
      cases hrefused
    · exact ⟨hsleep, d', hd', hawake⟩
  -- After the first step it never sleeps again, so there is no second one.
  obtain ⟨m, a, hm, hlabel⟩ := hfair.coro n i hen
  obtain ⟨d, hd, -⟩ := (h.view hm).coro hi
  have hawake : ∀ k, m + 1 ≤ k → ∃ d', (e.state k).coros[i]? = some d' ∧ throttled d' = false := by
    intro k hk
    induction hk with
    | refl => exact (htimer m hm a d hlabel hd).2
    | @step k hk ih =>
        obtain ⟨d', hd', hnot⟩ := ih
        have hnk : n ≤ k := hm.trans ((Nat.le_succ m).trans hk)
        have hno : ∀ b, e.label k ≠ .coro i b := by
          intro b hb
          rw [(htimer k hnk b d' hb hd').1] at hnot
          cases hnot
        exact ⟨d', h.stays hnk hno hd', hnot⟩
  obtain ⟨k, b, hk, hlabel'⟩ := hfair.coro (m + 1) i fun k hk => hen k (by omega)
  obtain ⟨d', hd', hnot⟩ := hawake k hk
  rw [(htimer k (by omega) b d' hlabel' hd').1] at hnot
  cases hnot

/-- No coroutine stays inside a bucket: the bucket has a token from some instant on. -/
theorem not_inAcquire (h : QuietFrom e n) (hfair : Fair e)
    (hgo : ∀ m, Going env (e.state m)) (hy : (e.state n).main.pc.yields = true) {i : Nat} {c : Coro}
    (hi : (e.state n).coros[i]? = some c) (hcr : c.cancelRequested = false) :
    inAcquire c.pc = false := by
  obtain ⟨t, hready⟩ := @exists_readyFrom env (bucketAt (e.state n) (askedKey c))
    (reachable_bucketsOk (e.reachable n) _)
  have hready' : ReadyAt env (e.state n) (askedKey c) t :=
    fun now hnow => hready now ((le_max_left _ _).trans hnow)
  obtain ⟨m, hm, ht⟩ := hfair.clock n t
  obtain ⟨d, hd, hseen⟩ := (h.view hm).coro hi
  have hkey := h.askedKey_eq hm hi hd
  simp only [seen, Prod.mk.injEq] at hseen
  have hnot := (h.mono hm).not_inAcquire_of_ready hfair hgo (by rw [(h.view hm).main]; exact hy) hd
    (hseen.2.1.trans hcr) (hkey ▸ h.ready hm hready') ht
  unfold inAcquire at hnot ⊢
  rwa [hseen.1] at hnot

/-- Where `run` waits, a coroutine has come to its end, or waits for a slot. -/
theorem done_or_slot (h : QuietFrom e n) (hfair : Fair e)
    (hgo : ∀ m, Going env (e.state m)) (hy : (e.state n).main.pc.yields = true) {i : Nat} {c : Coro}
    (hi : (e.state n).coros[i]? = some c) :
    c.pc.isDone = true ∨ (c.pc = .slot ∧ c.cancelRequested = false) := by
  rw [or_iff_not_imp_left, Bool.not_eq_true]
  intro hdone
  have hyields : ∀ m, n ≤ m → (e.state m).main.pc.yields = true :=
    fun m hm => by rw [(h.view hm).main]; exact hy
  -- A request to stop would be delivered.
  have hcr : c.cancelRequested = false := by
    rw [← Bool.not_eq_true]
    intro hcr
    have hstep := h.of_enabled hfair hi fun m hm => by
      obtain ⟨d, hd, hseen⟩ := (h.view hm).coro hi
      have hdone' := (seen_isDone hseen).trans hdone
      simp only [seen, Prod.mk.injEq] at hseen
      exact free_enabled hd (hgo m).running (hyields m hm) hdone'
        ((hgo m).lost d (List.mem_of_getElem? hd)) (Or.inr (hseen.2.1.trans hcr))
    rw [hcr] at hstep
    cases hstep.2
  refine ⟨?_, hcr⟩
  have hacq : inAcquire c.pc = false := h.not_inAcquire hfair hgo hy hi hcr
  have hsame : ∀ m, n ≤ m → ∃ d, (e.state m).coros[i]? = some d ∧ d.pc = c.pc := by
    intro m hm
    obtain ⟨d, hd, hseen⟩ := (h.view hm).coro hi
    simp only [seen, Prod.mk.injEq] at hseen
    exact ⟨d, hd, pc_of_stage hseen.1 hacq⟩
  have hfree : isFree c.pc = false := by
    rw [← Bool.not_eq_true]
    intro hfree
    have hstep := h.of_enabled hfair hi fun m hm => by
      obtain ⟨d, hd, hpc⟩ := hsame m hm
      exact free_enabled hd (hgo m).running (hyields m hm) (hpc ▸ hdone)
        ((hgo m).lost d (List.mem_of_getElem? hd)) (Or.inl (hpc ▸ hfree))
    rw [hacq] at hstep
    cases hstep.1
  cases hpc : c.pc <;> simp_all [isFree, inAcquire, stage, CoroPc.isDone]

end QuietFrom

/-- A fair execution of a workflow with room for one task returns or raises, unless a handler stops
the event loop or is lost. -/
theorem fair_ends (hacc : Accepted env.wf) (hpar : 1 ≤ env.wf.maxParallel)
    (e : env.system.Execution) (hfair : Fair e) (hgo : ∀ n, Going env (e.state n)) :
    ∃ n, (e.state n).main.pc.isEnded = true := by
  by_contra hnever
  have hlive : ∀ n, (e.state n).main.pc.isEnded = false :=
    fun n => Bool.eq_false_iff.mpr fun h => hnever ⟨n, h⟩
  obtain ⟨n, h⟩ := exists_quietFrom hacc e
  have hsound := reachable_sound hacc (e.reachable n)
  -- `run` is blocked, or it could step for ever.
  have hblocked : Blocked (e.state n) := by
    by_contra hb
    obtain ⟨m, hm, hlabel⟩ := hfair.run n fun m hm => by
      by_contra hstuck
      exact hb ((main_blocked hacc (reachable_sound hacc (e.reachable m)) hstuck
        (hlive m)).of_view (h.view hm))
    rw [(h m hm).label] at hlabel
    cases hlabel
  -- It waits for a coroutine that waits for a slot, and no slot is taken.
  obtain ⟨hy, i, c, hi, hdone⟩ := hblocked.waiting hsound
  have hslot : c.pc = .slot ∧ c.cancelRequested = false :=
    (h.done_or_slot hfair hgo hy hi).resolve_left (by simp [hdone])
  have hsem : (e.state n).sem = env.wf.maxParallel := by
    have hcounted := (reachable_slotsOk (e.reachable n)).counted
      (List.ne_nil_of_mem (List.mem_of_getElem? hi))
    have hzero : (e.state n).coros.countP holdsSlot = 0 := by
      rw [List.countP_eq_zero]
      intro d hd
      obtain ⟨j, hj⟩ := List.mem_iff_getElem?.mp hd
      rcases h.done_or_slot hfair hgo hy hj with hend | ⟨hpc, -⟩
      · cases hpc : d.pc <;> simp_all [holdsSlot, CoroPc.holds, CoroPc.isDone]
      · simp [holdsSlot, CoroPc.holds, hpc]
    rw [Counted, hzero] at hcounted
    simpa using hcounted
  have hacq : inAcquire c.pc = false := by simp [hslot.1, inAcquire, stage]
  have hstep := h.of_enabled hfair hi fun m hm => by
    obtain ⟨d, hd, hseen⟩ := (h.view hm).coro hi
    simp only [seen, Prod.mk.injEq] at hseen
    have hpc : d.pc = .slot := (pc_of_stage hseen.1 hacq).trans hslot.1
    have hcr : d.cancelRequested = false := hseen.2.1.trans hslot.2
    have hfree : 0 < (e.state m).sem := by
      rw [(h.view hm).sem, hsem]
      omega
    have hym : (e.state m).main.pc.yields = true := by
      rw [(h.view hm).main]
      exact hy
    refine ⟨.acquireSlot, ?_⟩
    simp [step_of_running (hgo m).running, loopStep, hd, hym, coroStep, hpc, hcr, hfree]
  rw [hacq] at hstep
  cases hstep.1

/-- A finite run that leaves `run` and all coroutines at their end can go on as a fair execution, in
which only time passes. -/
theorem fair_of_run {q : State → Action → Bool} (hq : ∀ s, q s (.tick 1) = true)
    {as : List Action} {s : State} (hrun : (env.system.guard q).run? as = some s)
    (hmain : s.main.pc.isEnded = true) (hcoros : ∀ c ∈ s.coros, c.pc.isDone = true) :
    ∃ e : env.system.Execution, Fair e ∧ ∀ n, q (e.state n) (e.label n) = true := by
  obtain ⟨e, hend, hidle⟩ := @System.Execution.exists_of_run _ _ (env.system.guard q) as (.tick 1) s
    hrun fun s => ⟨_, (if_pos (hq s)).trans (step_tick s 1)⟩
  -- From the end of the run on, only the clock is stepped.
  have hstate : ∀ k, e.unguard.state (as.length + k) = { s with clock := s.clock + k } := by
    intro k
    induction k with
    | zero => exact hend
    | succ k ih =>
        have hnext := e.unguard.next (as.length + k)
        rw [ih, show e.unguard.label (as.length + k) = .tick 1 from hidle _ (Nat.le_add_right _ _)]
          at hnext
        exact (Option.some.inj ((step_tick _ 1).symm.trans hnext)).symm
  have hpast : ∀ n, ∃ k, n ≤ as.length + k ∧ e.unguard.state (as.length + k)
      = { s with clock := s.clock + k } := fun n => ⟨n, Nat.le_add_left _ _, hstate n⟩
  refine ⟨e.unguard, ⟨fun n i c hc hpc => ?_, fun n t => ?_, fun n i hen => ?_, fun n hen => ?_⟩,
    e.unguard_passes⟩
  · -- The coroutine is still there at the end, and it is done.
    obtain ⟨k, hk, hs⟩ := hpast n
    have hle : (coroIds (e.unguard.state n).coros).length ≤ (coroIds s.coros).length := by
      have hmono := @System.Execution.stays _ _ _ e.unguard
        (fun s => (coroIds (e.unguard.state n).coros).length ≤ (coroIds s.coros).length)
        (fun s a s' _ h ha => h.trans (coroIds_grow (step_inv ha)).length_le) n _ hk le_rfl
      rw [hs] at hmono
      exact hmono
    rw [coroIds, coroIds, List.length_map, List.length_map] at hle
    have hlt := (List.getElem?_eq_some_iff.mp hc).1.trans_le hle
    refine ⟨_, s.coros[i], hk, ?_, fun hpc' => ?_⟩
    · rw [hs]
      exact List.getElem?_eq_getElem hlt
    · have hdone := hcoros _ (List.getElem_mem hlt)
      rw [hpc'] at hdone
      cases hdone
  · exact ⟨as.length + (n + t), by omega, by rw [hstate]; show t ≤ s.clock + (n + t); omega⟩
  · obtain ⟨k, hk, hs⟩ := hpast n
    obtain ⟨a, ha⟩ := hen _ hk
    rw [hs] at ha
    obtain ⟨s', hs'⟩ := Option.isSome_iff_exists.mp ha
    obtain ⟨c, hc, hstep⟩ := Option.bind_eq_some_iff.mp (loopStep_of_step hs')
    obtain ⟨-, hstep⟩ := Option.ite_none_right_eq_some.mp hstep
    obtain ⟨c', hmove⟩ := (coroStep_inv hstep).move
    have hnot := hmove.not_done
    rw [hcoros c (List.mem_of_getElem? hc)] at hnot
    cases hnot
  · obtain ⟨k, hk, hs⟩ := hpast n
    have hen := hen _ hk
    rw [hs] at hen
    unfold RunEnabled mainStep wakeStep at hen
    cases hpc : s.main.pc with
    | returned rep => simp [hpc] at hen
    | raised e => simp [hpc] at hen
    | _ =>
        rw [hpc] at hmain
        cases hmain

end Orchestrator.Sdk.Runner
