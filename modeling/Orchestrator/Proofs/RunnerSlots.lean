import Orchestrator.Lib.Replace
import Orchestrator.Proofs.RunnerSteps

/-!
# `Orchestrator.Proofs.RunnerSlots`: the slots of a Python run

A coroutine is inside `async with sem` from its slot to the end of its attempt. `SlotsOk` says that
the value of the semaphore and the coroutines inside add up to `max_parallel`, once `run` has built
the semaphore.

The count goes by the place of a coroutine (`holdsSlot`), and every way out of an attempt leads to a
place outside: a success, a failure, a timeout, a cancellation, and an exception that nothing
catches. The lemmas about `failAttempt`, `afterInvoke`, `enterAttempt` and `startTask` say so one by
one. The backoff sleep is outside as well, so a task that waits for its next attempt holds no slot.

A step of `run` starts coroutines, which are outside, or asks some to stop, which moves none. So the
sum is kept by these steps without a look at the semaphore.
-/

set_option autoImplicit false

namespace Orchestrator.Sdk.Runner

open Orchestrator.Lib Env

variable {env : Env}

/-- The coroutine is inside `async with sem`. -/
def holdsSlot (c : Coro) : Bool := c.pc.holds || decide (c.pc = .handler ∨ c.pc = .lost)

/-- The semaphore and the coroutines that hold a slot. -/
def Counted (env : Env) (s : State) : Prop :=
  s.sem + (s.coros.countP holdsSlot : Int) = env.wf.maxParallel

/-- The slots add up, from the end of `prepare` on. A run that raises in `prepare` has no coroutine,
and later the count is that of the coroutines. -/
def SlotsOk (env : Env) (s : State) : Prop :=
  match s.main.pc with
  | .start => s.coros = []
  | .raised _ => s.coros = [] ∨ Counted env s
  | _ => Counted env s

/-- The attempt of a coroutine leads out of the semaphore. -/
theorem failAttempt_holdsSlot (c : Coro) (ctx : SkillContext) (err : String) (now : Nat) :
    holdsSlot (env.failAttempt c ctx err now) = false := by
  rcases failAttempt_cases env c now ctx err with ⟨d, -, -, h⟩ | ⟨e, -, -, h⟩ | ⟨-, h⟩ <;>
    simp [h, holdsSlot, CoroPc.holds]

/-- The end of a handler leads out of the semaphore. -/
theorem afterInvoke_holdsSlot (c : Coro) (ctx : SkillContext) (out : Outcome) (now : Nat) :
    holdsSlot (env.afterInvoke c ctx out now) = false := by
  rcases afterInvoke_cases env c now ctx out with
    ⟨o, -, h⟩ | ⟨-, h⟩ | ⟨type, exits, -, h⟩ | ⟨err, -, -, h⟩
  · rw [h]
    rfl
  · rw [h]
    rfl
  · rw [h]
    simp [holdsSlot, escape, CoroPc.holds]
  · rw [h]
    exact failAttempt_holdsSlot c ctx err now

/-- At the head of the attempt loop a coroutine is outside of the semaphore. -/
theorem enterAttempt_holdsSlot (c : Coro) (attempt : Int) (now : Nat) :
    holdsSlot (env.enterAttempt c attempt now) = false := by
  rcases enterAttempt_cases env c now attempt with ⟨-, h⟩ | ⟨-, h⟩ <;>
    simp [h, holdsSlot, CoroPc.holds]

/-- After its first step a coroutine is outside of the semaphore. -/
theorem startTask_holdsSlot (c : Coro) (currentInputs results : Dict String Json) (now : Nat) :
    holdsSlot (env.startTask c currentInputs results now) = false := by
  rcases startTask_cases env c now currentInputs results with ⟨e, -, h⟩ | ⟨r, -, h⟩
  · rw [h]
    rfl
  · rw [h]
    exact enterAttempt_holdsSlot _ _ _

/-- A step of a task coroutine keeps the sum. -/
theorem CoroStep.counted {s s' : State} {i : Nat} {c : Coro} {a : CoroAction}
    (hc : s.coros[i]? = some c) (h : CoroStep env s i c a s') (hs : Counted env s) :
    Counted env s' := by
  have hset := fun c' : Coro => @countP_set_add _ holdsSlot s.coros i c c' hc
  -- A move that neither enters nor leaves the semaphore.
  have hkeep : ∀ c' : Coro, holdsSlot c' = holdsSlot c →
      s.sem + ((s.coros.set i c').countP holdsSlot : Int) = env.wf.maxParallel := by
    intro c' hc'
    have hadd := hset c'
    rw [hc'] at hadd
    unfold Counted at hs
    omega
  have hleave : ∀ c' : Coro, holdsSlot c = true → holdsSlot c' = false →
      s.sem + 1 + ((s.coros.set i c').countP holdsSlot : Int) = env.wf.maxParallel := by
    intro c' hin hout
    have hadd := hset c'
    simp only [hin, hout, if_true, Bool.false_eq_true, if_false] at hadd
    unfold Counted at hs
    omega
  cases h with
  | start hpc hcr =>
      exact hkeep _ (by rw [startTask_holdsSlot]; simp [holdsSlot, CoroPc.holds, hpc])
  | acquireSlot hpc hcr hfree =>
      have hadd := hset { c with pc := .global }
      simp only [holdsSlot, CoroPc.holds, hpc] at hadd
      unfold Counted at hs ⊢
      show s.sem - 1 + ((s.coros.set i _).countP holdsSlot : Int) = _
      simp only [reduceCtorEq, or_self, decide_false, Bool.or_false, Bool.false_eq_true, if_false,
        if_true] at hadd
      omega
  | grantGlobal b hpc hcr hb =>
      refine hkeep _ ?_
      rcases afterGlobal_pc c with h | h <;> simp [holdsSlot, CoroPc.holds, h, hpc]
  | denyGlobal b hpc hcr hb => exact hkeep _ (by simp [holdsSlot, CoroPc.holds, hpc])
  | grantProvider b hpc hcr hb => exact hkeep _ (by simp [holdsSlot, CoroPc.holds, hpc])
  | denyProvider b hpc hcr hb => exact hkeep _ (by simp [holdsSlot, CoroPc.holds, hpc])
  | acquireError e hcr he =>
      refine hleave _ ?_ (failAttempt_holdsSlot _ _ _ _)
      rcases he with ⟨hpc, -⟩ | ⟨hpc, -⟩ <;> simp [holdsSlot, CoroPc.holds, hpc]
  | timerGlobal hpc hcr => exact hkeep _ (by simp [holdsSlot, CoroPc.holds, hpc])
  | timerProvider hpc hcr => exact hkeep _ (by simp [holdsSlot, CoroPc.holds, hpc])
  | noSkill hpc hcr hk =>
      exact hleave _ (by simp [holdsSlot, CoroPc.holds, hpc]) (failAttempt_holdsSlot _ _ _ _)
  | invoke kind hpc hcr hk => exact hkeep _ (by simp [holdsSlot, CoroPc.holds, hpc])
  | finish ctx out hpc hcr =>
      exact hleave _ (by simp [holdsSlot, hpc]) (afterInvoke_holdsSlot _ _ _ _)
  | lose hpc hcr hk => exact hkeep _ (by simp [holdsSlot, CoroPc.holds, hpc])
  | timeout ctx hpc hcr ht =>
      exact hleave _ (by simp [holdsSlot, hpc]) (failAttempt_holdsSlot _ _ _ _)
  | wake hpc hcr =>
      exact hkeep _ (by rw [enterAttempt_holdsSlot]; simp [holdsSlot, CoroPc.holds, hpc])
  | cancelOutside ctx hpc hcr =>
      refine hkeep _ ?_
      rcases hpc with hpc | hpc <;> simp [holdsSlot, CoroPc.holds, hpc]
  | cancelSlot ctx hpc hcr => exact hkeep _ (by simp [holdsSlot, CoroPc.holds, hpc])
  | cancelHolder ctx hpc hcr =>
      exact hleave _ (by simp [holdsSlot, hpc]) (by simp [holdsSlot, CoroPc.holds])
  | cancelHandler ctx hpc hcr =>
      exact hleave _ (by simp [holdsSlot, hpc]) (by simp [holdsSlot, CoroPc.holds])

/-- A step of `run` that starts no coroutine and leaves their places alone. -/
theorem Counted.congr {s s' : State} (h : Counted env s) (hsem : s'.sem = s.sem)
    (hcoros : s'.coros.countP holdsSlot = s.coros.countP holdsSlot) : Counted env s' := by
  unfold Counted at h ⊢
  rw [hsem, hcoros]
  exact h

/-- A request for cancellation moves no coroutine. -/
theorem countP_cancelCoro (running : List Nat) (coros : List Coro) :
    (coros.mapIdx (cancelCoro running)).countP holdsSlot = coros.countP holdsSlot := by
  have hsame : ∀ (i : Nat) (c : Coro), holdsSlot (cancelCoro running i c) = holdsSlot c := by
    intro i c
    unfold cancelCoro
    split <;> rfl
  induction coros using List.reverseRecOn with
  | nil => rfl
  | append_singleton l c ih =>
      rw [List.mapIdx_append, List.countP_append, List.countP_append, ih]
      simp [hsame]

/-- A step of `run` keeps the sum. -/
theorem MainStepped.slotsOk {s s' : State} (h : MainStepped env s s') (hs : SlotsOk env s) :
    SlotsOk env s' := by
  -- Once the loop has begun, the free slots and the held ones add up to the limit.
  have hcounted : (∃ rest, s.main.pc = .process rest) ∨ s.main.pc = .head ∨
      s.main.pc = .dispatch ∨ s.main.pc = .cancelWait ∨ s.main.pc = .finish → Counted env s := by
    rintro (⟨rest, hpc⟩ | hpc | hpc | hpc | hpc) <;> simpa only [SlotsOk, hpc] using hs
  cases h with
  | refuse e hpc he =>
      have hnil : s.coros = [] := by simpa only [SlotsOk, hpc] using hs
      exact Or.inl hnil
  | setup buckets hpc hb =>
      have hnil : s.coros = [] := by simpa only [SlotsOk, hpc] using hs
      show env.wf.maxParallel + (s.coros.countP holdsSlot : Int) = env.wf.maxParallel
      rw [hnil]
      exact Int.add_zero _
  | enter hpc hor => exact (hcounted (by simp [hpc])).congr rfl rfl
  | leave hpc hready hrunning =>
      refine Counted.congr (hcounted ?_) rfl rfl
      rcases hpc with hpc | hpc <;> simp [hpc]
  | suspend hpc hready hrunning => exact (hcounted (by simp [hpc])).congr rfl rfl
  | drop tid rest hpc hready hskip =>
      have hc := hcounted (by simp [hpc])
      simp only [SlotsOk, hpc]
      exact hc.congr rfl rfl
  -- A new coroutine holds no slot.
  | dispatch tid rest t hpc hready hskip ht =>
      have hc := hcounted (by simp [hpc])
      simp only [SlotsOk, hpc]
      refine hc.congr rfl ?_
      rw [List.countP_append]
      rfl
  | next hpc => exact (hcounted (by simp [hpc])).congr rfl rfl
  | succeeded i rest c hpc hi hdone hst => exact (hcounted (by simp [hpc])).congr rfl rfl
  | «continue» i rest c t hpc hi hdone hst ht hpol =>
      exact (hcounted (by simp [hpc])).congr rfl rfl
  | failFast i rest c t hpc hi hdone hst ht hpol hlast =>
      exact (hcounted (by simp [hpc])).congr rfl rfl
  | cancelAll i rest c t hpc hi hdone hst ht hpol hmore =>
      exact (hcounted (by simp [hpc])).congr rfl (countP_cancelCoro _ _)
  | raise i rest c e hpc hi hdone =>
      exact Or.inr ((hcounted (by simp [hpc])).congr rfl rfl)
  | abandon hpc hall => exact (hcounted (by simp [hpc])).congr rfl rfl
  | finish hpc => exact (hcounted (by simp [hpc])).congr rfl rfl

/-- Where a coroutine has been started, the slots add up. -/
theorem SlotsOk.counted {s : State} (h : SlotsOk env s) (hne : s.coros ≠ []) :
    Counted env s := by
  unfold SlotsOk at h
  split at h
  · exact absurd h hne
  · exact h.resolve_left hne
  · exact h

/-- `SlotsOk` reads the position of `run`, the semaphore and the coroutines. -/
theorem SlotsOk.of_counted {s : State} (h : Counted env s) (hpc : s.main.pc ≠ .start) :
    SlotsOk env s := by
  unfold SlotsOk
  split
  · rename_i heq
    exact absurd heq hpc
  · exact Or.inr h
  · exact h

/-- `SlotsOk` holds in every reachable state. -/
theorem reachable_slotsOk {s : State} (hs : env.system.Reachable s) : SlotsOk env s := by
  have hinit : SlotsOk env env.initial := rfl
  refine hs.holds hinit fun s a s' _ h ha => ?_
  cases step_inv ha with
  | main hm => exact hm.slotsOk h
  | wake order hw =>
      have hc : Counted env s := by simpa only [SlotsOk, hw.pc] using h
      exact .of_counted (hc.congr rfl rfl) (by simp)
  | @coro i c b _ hi hy hstep =>
      -- A coroutine exists, so the loop has begun and the slots are counted.
      have hne : s.coros ≠ [] := by
        intro hnil
        rw [hnil] at hi
        cases hi
      refine .of_counted (hstep.counted hi (h.counted hne)) ?_
      rw [hstep.main_eq]
      intro hpc
      rw [hpc] at hy
      cases hy
  | threadEnd i attempt ho =>
      unfold SlotsOk at h ⊢
      exact h
  | cancel hpc =>
      have hc : Counted env s := by
        rcases hpc with hpc | hpc <;> simpa only [SlotsOk, hpc] using h
      exact Or.inr (hc.congr rfl rfl)
  | tick d =>
      unfold SlotsOk at h ⊢
      exact h

end Orchestrator.Sdk.Runner
