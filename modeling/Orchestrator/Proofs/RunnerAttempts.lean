import Orchestrator.Proofs.SpansKept

/-!
# `Orchestrator.Proofs.RunnerAttempts`: how the attempts of a Python task end

`attemptEnds` are the ends of the attempts of one coroutine in a run, a cancellation included.
`Reached` says where `_execute_task` stands after them: it goes on while they are failures, returns
a succeeded span without an error after a success, and a failed span after the last failure
(`exists_reached`).

An attempt can end in several steps of the code: the bucket raises, there is no handler for the
skill, the handler ends, or the wait for it times out. `stepEnd` reads the end off a step of the
coroutine, so that the list is one of ends and not of steps. The text of an error is built where the
attempt ends, and `last_err` of the coroutine is the text of the last failure.

This is the counterpart of `AttemptLog` for the runner. It says less, because a claim about the
runner needs only the ends: the error of the span, and whether there was a success at last.
-/

set_option autoImplicit false

namespace Orchestrator.Sdk.Runner

open Orchestrator.Lib Env

variable {env : Env}

/-- How an attempt ends. In the source it is the way out of the `try`: the return, an exception, or
the cancellation. -/
inductive AttemptEnd
  | succeeded
  | failed
  | cancelled
deriving DecidableEq

/-- The round of a bucket raises. It does so inside of the `try`, so this is an end of the attempt
like any other failure. -/
def roundEnd (r : Except PyError (Bool × Option TokenBucket)) : Option AttemptEnd :=
  match r with
  | .error _ => some .failed
  | .ok _ => none

/-- The end of an attempt in a step of its coroutine. An attempt may end before its handler is
called. -/
def stepEnd (env : Env) (s : State) (c : Coro) : CoroAction → Option AttemptEnd
  | .acquire =>
    match c.pc with
    | .global => roundEnd (env.acquireRound s.globalBucket s.clock)
    | .provider =>
      roundEnd (env.acquireRound (s.provReq.get? (c.task.provider.getD "")).join s.clock)
    | _ => none
  | .invoke => if env.skills c.task.skill = none then some .failed else none
  | .finish _ (.returned _) => some .succeeded
  | .finish _ .cancelledError => some .cancelled
  | .finish _ _ => some .failed
  | .timeout _ => some .failed
  | .cancel _ => some .cancelled
  | .start | .acquireSlot | .timer | .lose | .wake => none

/-- The end of an attempt of the `j`-th coroutine in a step of the run. -/
def attemptEnd (env : Env) (j : Nat) (s : State) : Action → Option AttemptEnd
  | .coro i a => if i = j then (s.coros[i]?).bind fun c => stepEnd env s c a else none
  | _ => none

/-- The ends of the attempts of the `j`-th coroutine in a run, in order. -/
def attemptEnds (env : Env) (j : Nat) (as : List Action) : List AttemptEnd :=
  env.system.observe (attemptEnd env j) env.initial as

/-- Where a coroutine stands after the ends of its attempts. Its span has an error only once it has
returned, and each constructor says what it then is. -/
inductive Reached (env : Env) (c : Coro) (ends : List AttemptEnd) : Prop
  | cancelled (h : AttemptEnd.cancelled ∈ ends)
  | raised (hpc : ∃ e, c.pc = .raised e)
  | fresh (hpc : c.pc = .start) (hends : ends = [])
  | going (hdone : c.pc.isDone = false) (hstart : c.pc ≠ .start)
      (hfail : ∀ x ∈ ends, x = .failed) (herr : c.span.error = none)
      (hbackoff : c.pc = .backoff → ends ≠ [])
  | won {init : List AttemptEnd} (hpc : c.pc = .returned) (hst : c.span.status = .succeeded)
      (hends : ends = init ++ [.succeeded]) (herr : c.span.error = none)
  | lost (hpc : c.pc = .returned) (hst : c.span.status = .failed)
      (hfail : ∀ x ∈ ends, x = .failed) (hnil : ends = [] → (effectiveRetry env.wf c.task).max < 0)

section

variable {c : Coro} {ends : List AttemptEnd}

/-- A coroutine that may take a step has not ended, unless it was cancelled before. -/
theorem Reached.of_pc (h : Reached env c ends) (hdone : c.pc.isDone = false)
    (hstart : c.pc ≠ .start) : AttemptEnd.cancelled ∈ ends ∨
      ((∀ x ∈ ends, x = .failed) ∧ c.span.error = none ∧ (c.pc = .backoff → ends ≠ [])) := by
  cases h with
  | cancelled h => exact Or.inl h
  | raised hpc =>
      obtain ⟨e, hpc⟩ := hpc
      rw [hpc] at hdone
      cases hdone
  | fresh hpc => exact absurd hpc hstart
  | going _ _ hfail herr hbackoff => exact Or.inr ⟨hfail, herr, hbackoff⟩
  | won hpc | lost hpc =>
      rw [hpc] at hdone
      cases hdone

/-- Another wait of the same attempt. -/
theorem Reached.wait (h : Reached env c ends) (hdone : c.pc.isDone = false)
    (hstart : c.pc ≠ .start) {pc : CoroPc} (hpc : pc.isDone = false) (hpc' : pc ≠ .start)
    (hpc'' : pc ≠ .backoff) : Reached env { c with pc := pc } ends := by
  rcases h.of_pc hdone hstart with h | ⟨hfail, herr, -⟩
  · exact .cancelled h
  · exact .going hpc hpc' hfail herr fun he => absurd he hpc''

/-- A failed attempt. -/
theorem Reached.failAttempt (h : Reached env c ends) (hdone : c.pc.isDone = false)
    (hstart : c.pc ≠ .start) (ctx : SkillContext) (err : String) (now : Nat) :
    Reached env (env.failAttempt c ctx err now) (ends ++ [.failed]) := by
  rcases h.of_pc hdone hstart with h | ⟨hfail, herr, -⟩
  · exact .cancelled (List.mem_append_left _ h)
  · have hall : ∀ x ∈ ends ++ [AttemptEnd.failed], x = .failed := by
      intro x hx
      rcases List.mem_append.mp hx with hx | hx
      · exact hfail x hx
      · exact List.mem_singleton.mp hx
    rcases failAttempt_cases env c now ctx err with ⟨d, -, -, he⟩ | ⟨e, -, -, he⟩ | ⟨-, he⟩
    · rw [he]
      exact .going rfl (by simp) hall herr fun _ => by simp
    · rw [he]
      exact .raised ⟨e, rfl⟩
    · rw [he]
      exact .lost rfl rfl hall fun hnil => absurd hnil (by simp)

/-- The head of the attempt loop. -/
theorem reached_enterAttempt {attempt : Int} {now : Nat} (hfail : ∀ x ∈ ends, x = .failed)
    (herr : c.span.error = none)
    (hnil : ends = [] → ¬ attempt < (effectiveRetry env.wf c.task).max + 2 →
      (effectiveRetry env.wf c.task).max < 0) :
    Reached env (env.enterAttempt c attempt now) ends := by
  rcases enterAttempt_cases env c now attempt with ⟨-, he⟩ | ⟨hlt, he⟩
  · rw [he]
    exact .going rfl (by simp) hfail herr fun h => by cases h
  · rw [he]
    exact .lost rfl rfl hfail fun h => hnil h hlt

/-- The first step of a coroutine. -/
theorem Reached.startTask (h : Reached env c ends) (hpc : c.pc = .start) (now : Nat)
    (inputs results : Dict String Json) :
    Reached env (env.startTask c inputs results now) ends := by
  cases h with
  | cancelled h => exact .cancelled h
  | fresh _ hends =>
      rcases startTask_cases env c now inputs results with ⟨e, -, he⟩ | ⟨r, -, he⟩
      · rw [he]
        exact .raised ⟨e, rfl⟩
      · rw [he]
        refine reached_enterAttempt (fun x hx => ?_) rfl fun _ hlt => ?_
        · rw [hends] at hx
          cases hx
        · -- The loop starts with the first attempt, so it is skipped for a negative limit alone.
          omega
  | raised h =>
      obtain ⟨e, h⟩ := h
      rw [h] at hpc
      cases hpc
  | going _ h => exact absurd hpc h
  | won h | lost h =>
      rw [h] at hpc
      cases hpc

/-- A step of a coroutine. -/
theorem CoroStep.reached {s s' : State} {i : Nat} {a : CoroAction} (h : CoroStep env s i c a s')
    (hc : Reached env c ends) :
    ∃ c', s'.coros = s.coros.set i c' ∧ Reached env c' (ends ++ (stepEnd env s c a).toList) := by
  have hpcs : ∀ pc, c.pc = pc → pc.isDone = false → pc ≠ .start →
      c.pc.isDone = false ∧ c.pc ≠ .start := by
    rintro pc rfl hdone hstart
    exact ⟨hdone, hstart⟩
  -- A step from one wait of an attempt to the next ends no attempt.
  have hwait : ∀ pc pc', c.pc = pc → pc.isDone = false → pc ≠ .start → pc'.isDone = false →
      pc' ≠ .start → pc' ≠ .backoff → Reached env { c with pc := pc' } (ends ++ []) := by
    intro pc pc' hpc hdone hstart h1 h2 h3
    rw [List.append_nil]
    obtain ⟨hdone, hstart⟩ := hpcs pc hpc hdone hstart
    exact hc.wait hdone hstart h1 h2 h3
  -- After a cancellation nothing more is said.
  have hcancel : ∀ c', Reached env c' (ends ++ [AttemptEnd.cancelled]) := fun c' =>
    .cancelled (List.mem_append_right _ (List.mem_singleton.mpr rfl))
  have hnone : ∀ {r : Except PyError (Bool × Option TokenBucket)} {x}, r = .ok x →
      (roundEnd r).toList = [] := by
    rintro _ x rfl
    rfl
  cases h with
  | start hpc _ =>
      refine ⟨_, rfl, ?_⟩
      rw [show (stepEnd env s c .start).toList = [] from rfl, List.append_nil]
      exact hc.startTask hpc _ _ _
  | acquireSlot hpc _ _ =>
      exact ⟨_, rfl, hwait _ .global hpc rfl (by simp) rfl (by simp) (by simp)⟩
  | grantGlobal b hpc _ hb =>
      refine ⟨_, rfl, ?_⟩
      rw [stepEnd, hpc]
      simp only [hnone hb]
      rcases afterGlobal_pc c with h | h <;> rw [h] <;>
        exact hwait _ _ hpc rfl (by simp) rfl (by simp) (by simp)
  | denyGlobal b hpc _ hb =>
      refine ⟨_, rfl, ?_⟩
      rw [stepEnd, hpc]
      simp only [hnone hb]
      exact hwait _ _ hpc rfl (by simp) rfl (by simp) (by simp)
  | grantProvider b hpc _ hb =>
      refine ⟨_, rfl, ?_⟩
      rw [stepEnd, hpc]
      simp only [hnone hb]
      exact hwait _ _ hpc rfl (by simp) rfl (by simp) (by simp)
  | denyProvider b hpc _ hb =>
      refine ⟨_, rfl, ?_⟩
      rw [stepEnd, hpc]
      simp only [hnone hb]
      exact hwait _ _ hpc rfl (by simp) rfl (by simp) (by simp)
  | acquireError e _ he =>
      refine ⟨_, rfl, ?_⟩
      have hend : (stepEnd env s c .acquire).toList = [.failed] := by
        rcases he with ⟨hpc, he⟩ | ⟨hpc, he⟩ <;> rw [stepEnd, hpc] <;> simp [he, roundEnd]
      rw [hend]
      rcases he with ⟨hpc, -⟩ | ⟨hpc, -⟩ <;>
        exact hc.failAttempt (by rw [hpc]; rfl) (by rw [hpc]; simp) _ _ _
  | timerGlobal hpc _ =>
      exact ⟨_, rfl, hwait _ .global hpc rfl (by simp) rfl (by simp) (by simp)⟩
  | timerProvider hpc _ =>
      exact ⟨_, rfl, hwait _ .provider hpc rfl (by simp) rfl (by simp) (by simp)⟩
  | noSkill hpc _ hk =>
      -- The attempt fails without a call.
      refine ⟨_, rfl, ?_⟩
      rw [stepEnd, if_pos hk]
      exact hc.failAttempt (by rw [hpc]; rfl) (by rw [hpc]; simp) _ _ _
  | invoke kind hpc _ hk =>
      refine ⟨_, rfl, ?_⟩
      rw [stepEnd, if_neg (by simp [hk])]
      exact hwait _ .handler hpc rfl (by simp) rfl (by simp) (by simp)
  | finish ctx out hpc _ =>
      refine ⟨_, rfl, ?_⟩
      have hdone : c.pc.isDone = false := by rw [hpc]; rfl
      have hstart : c.pc ≠ .start := by rw [hpc]; simp
      cases out with
      | returned output =>
          rcases hc.of_pc hdone hstart with h | ⟨-, herr, -⟩
          · exact .cancelled (List.mem_append_left _ h)
          · exact .won rfl rfl rfl herr
      | cancelledError => exact hcancel _
      | timeoutError => exact hc.failAttempt hdone hstart _ _ _
      | exception type message => exact hc.failAttempt hdone hstart _ _ _
      | uncaught type exits => exact .raised ⟨_, rfl⟩
  | lose hpc _ _ => exact ⟨_, rfl, hwait _ .lost hpc rfl (by simp) rfl (by simp) (by simp)⟩
  | timeout ctx hpc _ _ =>
      refine ⟨_, rfl, ?_⟩
      rcases hpc with hpc | hpc <;>
        exact hc.failAttempt (by rw [hpc]; rfl) (by rw [hpc]; simp) _ _ _
  | wake hpc _ =>
      -- The backoff is over, so an attempt has failed before this one.
      refine ⟨_, rfl, ?_⟩
      rw [show (stepEnd env s c .wake).toList = [] from rfl, List.append_nil]
      rcases hc.of_pc (by rw [hpc]; rfl) (by rw [hpc]; simp) with h | ⟨hfail, herr, hne⟩
      · exact .cancelled h
      · exact reached_enterAttempt hfail herr fun hnil => absurd hnil (hne hpc)
  | cancelOutside ctx _ _ => exact ⟨_, rfl, hcancel _⟩
  | cancelSlot ctx _ _ => exact ⟨_, rfl, hcancel _⟩
  | cancelHolder ctx _ _ => exact ⟨_, rfl, hcancel _⟩
  | cancelHandler ctx _ _ => exact ⟨_, rfl, hcancel _⟩

end

/-! ### Runs -/

/-- `run` starts a coroutine or asks some to stop. -/
theorem MainStepped.coro_at {s s' : State} (h : MainStepped env s s') {j : Nat} {c : Coro}
    (hj : s'.coros[j]? = some c) :
    (s.coros.length ≤ j ∧ ∃ t, c = newCoro t s.clock) ∨
      ∃ d, s.coros[j]? = some d ∧ (c = d ∨ c = { d with cancelRequested := true }) := by
  cases h with
  | dispatch tid rest t hpc hready hskip ht =>
      have hj : (s.coros ++ [newCoro t s.clock])[j]? = some c := hj
      by_cases hlt : j < s.coros.length
      · rw [List.getElem?_append_left hlt] at hj
        exact Or.inr ⟨c, hj, Or.inl rfl⟩
      · rw [List.getElem?_append_right (not_lt.mp hlt), List.getElem?_singleton] at hj
        exact Or.inl ⟨not_lt.mp hlt, t,
          (Option.some.inj (Option.ite_none_right_eq_some.mp hj).2).symm⟩
  -- A request to cancel is the only thing that the main task writes into a coroutine.
  | cancelAll i rest x t hpc hi hdone hst ht hpol hmore =>
      have hj : (s.coros.mapIdx (cancelCoro (s.main.running.erase i)))[j]? = some c := hj
      rw [List.getElem?_mapIdx] at hj
      obtain ⟨d, hd, rfl⟩ := Option.map_eq_some_iff.mp hj
      refine Or.inr ⟨d, hd, ?_⟩
      unfold cancelCoro
      split
      · exact Or.inr rfl
      · exact Or.inl rfl
  | _ => exact Or.inr ⟨c, hj, Or.inl rfl⟩

/-- `run` never forgets a coroutine. -/
theorem MainStepped.length_coros {s s' : State} (h : MainStepped env s s') :
    s.coros.length ≤ s'.coros.length := by
  cases h with
  | dispatch tid rest t hpc hready hskip ht =>
      show s.coros.length ≤ (s.coros ++ [newCoro t s.clock]).length
      simp
  | cancelAll i rest x t hpc hi hdone hst ht hpol hmore =>
      show s.coros.length ≤ (s.coros.mapIdx (cancelCoro (s.main.running.erase i))).length
      simp
  | _ => exact le_rfl

/-- The `j`-th coroutine stands where its attempts have led it; before it starts, it has none. -/
structure ReachedAt (env : Env) (j : Nat) (ends : List AttemptEnd) (s : State) : Prop where
  reached : ∀ c, s.coros[j]? = some c → Reached env c ends
  idle : s.coros.length ≤ j → ends = []

/-- A request to stop does not move a coroutine. -/
theorem Reached.asked {c : Coro} {ends : List AttemptEnd} (h : Reached env c ends) :
    Reached env { c with cancelRequested := true } ends := by
  cases h with
  | cancelled h => exact .cancelled h
  | raised h => exact .raised h
  | fresh hpc hends => exact .fresh hpc hends
  | going hdone hstart hfail herr hb => exact .going hdone hstart hfail herr hb
  | won hpc hst hends herr => exact .won hpc hst hends herr
  | lost hpc hst hfail hnil => exact .lost hpc hst hfail hnil

/-- A step of the run. Only a step of the `j`-th coroutine adds to its ends. -/
theorem ReachedAt.step {j : Nat} {ends : List AttemptEnd} {s s' : State} {a : Action}
    (h : ReachedAt env j ends s) (ha : env.system.step? s a = some s') :
    ReachedAt env j (ends ++ (attemptEnd env j s a).toList) s' := by
  -- A step that touches no coroutine ends no attempt.
  have hsame : s'.coros = s.coros → ReachedAt env j (ends ++ []) s' := by
    intro hcoros
    rw [List.append_nil]
    exact ⟨fun c hc => h.reached c (hcoros ▸ hc), fun hlen => h.idle (hcoros ▸ hlen)⟩
  cases step_inv ha with
  | main hm =>
      rw [show (attemptEnd env j s .main).toList = [] from rfl, List.append_nil]
      refine ⟨fun c hc => ?_, fun hlen => h.idle (hm.length_coros.trans hlen)⟩
      rcases hm.coro_at hc with ⟨hlen, t, rfl⟩ | ⟨d, hd, rfl | rfl⟩
      · exact .fresh rfl (h.idle hlen)
      · exact h.reached _ hd
      · exact (h.reached d hd).asked
  | @coro i c b _ hi hy hcs =>
      have hlt := (List.getElem?_eq_some_iff.mp hi).1
      -- Another coroutine's step ends no attempt of this one.
      by_cases hij : i = j
      · subst hij
        obtain ⟨c', hcoros, hc'⟩ := hcs.reached (h.reached c hi)
        have hend : attemptEnd env i s (.coro i b) = stepEnd env s c b := by
          simp [attemptEnd, hi]
        rw [hend]
        refine ⟨fun x hx => ?_, fun hlen => ?_⟩
        · rw [hcoros, List.getElem?_set_self hlt] at hx
          exact Option.some.inj hx ▸ hc'
        · rw [hcoros, List.length_set] at hlen
          omega
      · have hend : attemptEnd env j s (.coro i b) = none := if_neg hij
        have hset : ∃ c', s'.coros = s.coros.set i c' := by cases hcs <;> exact ⟨_, rfl⟩
        obtain ⟨c', hcoros⟩ := hset
        rw [hend, Option.toList_none, List.append_nil]
        refine ⟨fun x hx => h.reached x ?_, fun hlen => h.idle ?_⟩
        · rwa [hcoros, List.getElem?_set_ne hij] at hx
        · rwa [hcoros, List.length_set] at hlen
  | wake order _ => exact hsame rfl
  | threadEnd i attempt _ => exact hsame rfl
  | cancel _ => exact hsame rfl
  | tick d => exact hsame rfl

/-- At the end of every run, each coroutine stands where its attempts have led it. -/
theorem exists_reached {as : List Action} {s : State} (hrun : env.system.run? as = some s)
    {j : Nat} {c : Coro} (hc : s.coros[j]? = some c) : Reached env c (attemptEnds env j as) := by
  have hinit : ReachedAt env j [] env.initial := ⟨fun c hc => (by cases hc), fun _ => rfl⟩
  exact (System.observe_induct (P := ReachedAt env j) hinit
    (fun ends s a s' _ h ha => h.step ha) hrun).reached c hc

end Orchestrator.Sdk.Runner
