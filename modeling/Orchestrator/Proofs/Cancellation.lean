import Orchestrator.Proofs.DispatchSafety

/-!
# `Orchestrator.Proofs.Cancellation`: calls of `Execute` after the context is cancelled

Nothing between the waits of `executeTask` looks at the context. A `select` with a free slot may
take it after the cancellation, a limiter grants a token without a look at the context, and an
attempt that was cut off is retried. So an `Execute` may start in a cancelled run
(`call_after_cancel`).

`no_call_after_cancel` says when none does: no limiter grants the last token of an attempt while the
context is cancelled, and the cancellation finds no goroutine between its last token and its call.
Both parts are conditions on the state before a step and on the label of the step.

The invariant is `NoneAtCall`. A goroutine gets to its call in one way only, by a grant of the last
token of the attempt (`TaskStep.enters_call`), and the condition excludes this grant once the
context is cancelled. At the cancellation itself it holds by the other half of the condition.
-/

set_option autoImplicit false

namespace Orchestrator.Proofs

open Orchestrator.Lib Orchestrator.Engine Orchestrator.Engine.Env

variable {B : Type} {env : Env B}

/-- The limiter at which the goroutine stands grants the last token of the attempt. -/
def grantsLast (env : Env B) (s : State B) (g : Goroutine) : Bool :=
  match g.pc with
  | .global =>
    (env.tryAcquire s.globalLimiter s.clock).1 && afterGlobal g s.provLimiters = .call
  | .provider =>
    match s.provLimiters.get? g.task.provider with
    | some b => (env.tryAcquire b s.clock).1
    | none => false
  | _ => false

/-- The condition on a step: a cancelled context is granted no last token, and a cancellation
finds no goroutine about to call `Execute`. -/
structure CancelRespected (env : Env B) (s : State B) (a : Action) : Prop where
  no_grant : s.cancelled = true → ∀ i g, a = .task i .acquire → s.gos[i]? = some g →
    grantsLast env s g = false
  none_at_call : s.cancelled = false → ∀ s', env.step? s a = some s' → s'.cancelled = true →
    ∀ g ∈ s.gos, g.pc ≠ .call

/-- A goroutine gets to its call by a grant of the last token, so the step that the condition has to
withhold is this one. -/
theorem TaskStep.enters_call {s s' : State B} {i : Nat} {g g' : Goroutine} {a : TaskAction}
    (h : TaskStep env s i g a s') (hg : s.gos[i]? = some g) (hg' : s'.gos[i]? = some g')
    (hpc : g'.pc = .call) : a = .acquire ∧ grantsLast env s g = true := by
  obtain ⟨hlt, -⟩ := List.getElem?_eq_some_iff.mp hg
  have hset : ∀ x : Goroutine, (s.gos.set i x)[i]? = some g' → x = g' := by
    intro x hx
    rw [List.getElem?_set_self hlt] at hx
    exact Option.some.inj hx
  -- The place behind a step is read off the goroutine that is put back. Besides a grant no step
  -- leads to a call.
  cases h with
  | resolve _ =>
      rw [← hset _ hg'] at hpc
      rcases resolveInputs_pc env g s.clock with h | h <;> simp [h] at hpc
  | grantGlobal b hpc' hb =>
      rw [← hset _ hg'] at hpc
      exact ⟨rfl, by simpa [grantsLast, hpc', hb] using hpc⟩
  | grantProvider b b' hpc' hp hb => exact ⟨rfl, by simp [grantsLast, hpc', hp, hb]⟩
  | ret res err _ =>
      rw [← hset _ hg'] at hpc
      rcases afterExecute_pc env g s.clock res err with h | h <;> simp [h] at hpc
  | wake _ =>
      rw [← hset _ hg'] at hpc
      rcases enterAttempt_pc env g s.clock (g.span.attempts + 1) with h | h <;> simp [h] at hpc
  | _ =>
      rw [← hset _ hg'] at hpc
      cases hpc

/-- In a cancelled context no goroutine stands at its call. This is the invariant of the runs that
meet the condition. -/
def NoneAtCall (s : State B) : Prop := s.cancelled = true → ∀ g ∈ s.gos, g.pc ≠ .call

/-- A step that meets the condition keeps `NoneAtCall`. The step that cancels is the interesting
one: it must not find a goroutine at its call. -/
theorem NoneAtCall.step {s s' : State B} {a : Action} (h : NoneAtCall s)
    (hP : CancelRespected env s a) (hs : env.step? s a = some s') : NoneAtCall s' := by
  intro hc'
  -- Before the step no goroutine stood at its call, whether or not the step cancels.
  have hbefore : ∀ g ∈ s.gos, g.pc ≠ .call := by
    cases hc : s.cancelled with
    | true => exact h hc
    | false => exact hP.none_at_call hc s' hs hc'
  rcases step_inv hs with ⟨-, hm⟩ | ⟨i, b, g, rfl, hg, ht⟩ | ⟨-, rfl⟩ | ⟨d, -, rfl⟩
  · intro g hg
    rcases hm.gos with hgos | ⟨t, hgos⟩
    · exact hbefore g (hgos ▸ hg)
    · rw [hgos, List.mem_append, List.mem_singleton] at hg
      rcases hg with hg | rfl
      · exact hbefore g hg
      · simp [newGoroutine]
  · obtain ⟨g', hgs⟩ := ht.goStep
    intro x hx hpc
    rw [hgs.gos] at hx
    rcases List.mem_or_eq_of_mem_set hx with hx | rfl
    · exact hbefore x hx hpc
    · obtain ⟨hlt, -⟩ := List.getElem?_eq_some_iff.mp hg
      have hg' : s'.gos[i]? = some x := by
        rw [hgs.gos, List.getElem?_set_self hlt]
      obtain ⟨rfl, hgrant⟩ := ht.enters_call hg hg' hpc
      rw [hgs.cancelled] at hc'
      have := hP.no_grant hc' i g rfl hg
      rw [hgrant] at this
      cases this
  · exact hbefore
  · exact hbefore

/-- A step that starts an `Execute` is the call of a goroutine that stands at it. -/
theorem calls_step {s s' : State B} {a : Action} (hs : env.step? s a = some s') :
    s'.calls = s.calls ∨ ∃ g ∈ s.gos, g.pc = .call := by
  rcases step_inv hs with ⟨-, hm⟩ | ⟨i, b, g, -, hg, ht⟩ | ⟨-, rfl⟩ | ⟨d, -, rfl⟩
  · cases hm <;> exact Or.inl rfl
  · cases ht with
    | call hpc => exact Or.inr ⟨g, List.mem_of_getElem? hg, hpc⟩
    | _ => exact Or.inl rfl
  · exact Or.inl rfl
  · exact Or.inl rfl

/-- In a run whose steps meet the condition, no step from a cancelled state starts an `Execute`.

The invariant is `NoneAtCall`: once the context is cancelled, no goroutine stands between its last
token and its call. A goroutine gets there by its last token only, which the condition withholds,
and the cancellation finds none there. -/
theorem no_call_after_cancel (env : Env B) {s : State B}
    (hs : env.system.ReachableBy (CancelRespected env) s) (hc : s.cancelled = true)
    {a : Action} {s' : State B} (ha : env.step? s a = some s') : s'.calls = s.calls := by
  have hinv : NoneAtCall s := hs.holds (Q := NoneAtCall) (fun hc => by cases hc)
    fun _ _ _ _ h hP ha => h.step hP ha
  rcases calls_step ha with h | ⟨g, hg, hpc⟩
  · exact h
  · exact absurd hpc (hinv hc g hg)

/-- One task. -/
def loneTask : Env Unit := plainEnv (plainWorkflow [plainTask "a" [] ""])

/-- The label is a locked section of a limiter. -/
def isAcquire : Action → Bool
  | .task _ .acquire => true
  | _ => false

/-- A check that implies the condition on a step. -/
def respectsCancel (s : State B) (a : Action) : Bool :=
  if s.cancelled then !isAcquire a else s.gos.all (fun g => g.pc ≠ .call)

/-- The check implies the condition, for a step of a run with concrete labels. -/
theorem cancelRespected_of_check {s : State B} {a : Action}
    (h : respectsCancel s a = true) : CancelRespected env s a := by
  constructor
  · rintro hc i g rfl hg
    simp [respectsCancel, hc, isAcquire] at h
  · intro hc s' _ _
    simpa [respectsCancel, hc] using h

/-- A run is cancelled while its task waits for a slot. The task returns without a call. -/
theorem no_call_after_cancel_loneTask :
    ∃ s s', loneTask.system.ReachableBy (CancelRespected loneTask) s ∧ s.cancelled = true ∧
      loneTask.step? s (.task 0 .cancelSlot) = some s' ∧ s'.calls = s.calls := by
  have hrun : ((loneTask.system.guard respectsCancel).run?
      [.main, .main, .main, .task 0 .resolve, .cancel]).any
        (fun s => s.cancelled && (loneTask.step? s (.task 0 .cancelSlot)).isSome) = true := by
    rfl
  obtain ⟨s, hs, hp⟩ := System.exists_of_run hrun
  have hs := System.ReachableBy.of_guard
    (fun s a ha => @cancelRespected_of_check Unit loneTask s a ha) hs
  rw [Bool.and_eq_true] at hp
  obtain ⟨s', hs'⟩ := Option.isSome_iff_exists.mp hp.2
  exact ⟨s, s', hs, hp.1, hs', no_call_after_cancel loneTask hs hp.1 hs'⟩

/-- A run is cancelled while its task waits for a slot. The `select` takes the free slot, the
limiters grant their tokens, and `Execute` starts. -/
theorem call_after_cancel :
    ¬ ∀ (env : Env Unit) (iter : MapOrder) (s s' : State Unit) (a : Action),
      env.wf.validate iter = .ok () → env.system.Reachable s → s.cancelled = true →
      env.step? s a = some s' → s'.calls = s.calls := by
  intro h
  have hrun : (loneTask.system.run?
      [.main, .main, .main, .task 0 .resolve, .cancel, .task 0 .takeSlot, .task 0 .acquire]).any
        (fun s => s.cancelled && (loneTask.step? s (.task 0 .call)).any
          (fun s' => decide (s'.calls ≠ s.calls))) = true := by rfl
  obtain ⟨s, hs, hp⟩ := System.exists_of_run hrun
  rw [Bool.and_eq_true] at hp
  obtain ⟨s', hs', hne⟩ := (Option.any_eq_true _ _).mp hp.2
  exact of_decide_eq_true hne (h loneTask .insertion s s' (.task 0 .call) (by rfl) hs hp.1 hs')

end Orchestrator.Proofs
