import Orchestrator.Proofs.RunnerSteps
import Orchestrator.Proofs.Serialization
import Orchestrator.Sdk.SharedRuns

/-!
# `Orchestrator.Proofs.RunIsolation`: two runs on one object

A run reads the attribute `_current_inputs` in one place: at the start of a task coroutine. As long
as each run finds its own inputs there, both go on as if they were alone (`runs_isolated`). Nothing
in the code makes sure of it: the run that stored its inputs last feeds the tasks of both
(`runs_mix_inputs`).

To be alone up to the attribute (`Alone`) is the invariant of each run. The lemmas with `withInputs`
say, function by function, that a step does not read the attribute: it leads to the same state with
another value there. The start of a task coroutine is the exception, and the condition (`OwnInputs`)
is about this step. A step of the other run is, to this one, time that passes (`Alone.shared`).

What isolation means is stated in two parts. A run yields what it yields alone, and the resolved
inputs of its tasks come from its own inputs and results (`ResolvedFrom`). The second part is proved
for runs that are alone, and the first carries it over.

The witness overlaps the two runs: the second one begins while the first is waiting, after its task
has read its inputs.
-/

set_option autoImplicit false

namespace Orchestrator.Sdk.Runner

open Orchestrator.Lib Env

/-! ### What a run does with the attribute -/

section Attribute

variable {env : Env} {s s' : State}

/-- The state of a run when the attribute holds something else. -/
def withInputs (inputs : Dict String Json) (s : State) : State :=
  { s with currentInputs := inputs }

/-- A step of a coroutine other than its first does not read the attribute. -/
theorem coroStep_withInputs (inputs : Dict String Json) {i : Nat} {c : Coro} {a : CoroAction}
    (ha : a ≠ .start) (h : env.coroStep s i c a = some s') :
    env.coroStep (withInputs inputs s) i c a = some (withInputs inputs s') := by
  cases coroStep_inv h with
  -- Only the start of a task reads the inputs of the object.
  | start => exact absurd rfl ha
  | acquireSlot hpc hc hfree => exact if_pos ⟨hpc, hc, hfree⟩
  | acquireError e hc he =>
      rcases he with ⟨hpc, he⟩ | ⟨hpc, he⟩
      all_goals
        simp only [coroStep, withInputs, hc, hpc, he]
        rfl
  | cancelOutside ctx hpc hc =>
      rcases hpc with hpc | hpc
      all_goals
        simp only [coroStep, hc, hpc]
        rfl
  | cancelHandler ctx hpc hc =>
      rcases hpc with hpc | hpc
      all_goals
        simp only [coroStep, hc, hpc]
        rfl
  | cancelHolder ctx hpc hc =>
      cases hpc' : c.pc <;> rw [hpc'] at hpc <;> try cases hpc
      all_goals
        simp only [coroStep, hc, hpc']
        rfl
  | finish ctx out hpc hc => exact if_pos ⟨hpc, hc⟩
  | timeout ctx hpc hc ht => exact if_pos ⟨hpc, hc, ht⟩
  | wake hpc hc => exact if_pos ⟨hpc, hc⟩
  | _ =>
      simp only [coroStep, withInputs, *]
      rfl

/-- The body of `for fut in done` does not read the attribute. -/
theorem processFuture_withInputs (inputs : Dict String Json) {i : Nat} {rest : List Nat}
    (h : env.processFuture s i rest = some s') :
    env.processFuture (withInputs inputs s) i rest = some (withInputs inputs s') := by
  obtain ⟨c, hi, h⟩ := Option.bind_eq_some_iff.mp h
  refine Option.bind_eq_some_iff.mpr ⟨c, hi, ?_⟩
  cases hdone : c.pc <;> simp only [hdone, reduceCtorEq, Option.some.injEq] at h ⊢
  case returned =>
      unfold processSpan at h ⊢
      by_cases hst : c.span.status = .succeeded
      · rw [if_pos hst] at h ⊢
        cases h
        rfl
      · rw [if_neg hst] at h ⊢
        obtain ⟨t, ht, h⟩ := Option.bind_eq_some_iff.mp h
        refine Option.bind_eq_some_iff.mpr ⟨t, ht, ?_⟩
        simp only at h ⊢
        split at h
        · rename_i hpol
          rw [if_pos hpol]
          split at h
          · rename_i hlast
            cases h
            exact if_pos hlast
          · rename_i hmore
            cases h
            exact if_neg hmore
        · rename_i hpol
          cases h
          exact if_neg hpol
  case raised e =>
      cases h
      rfl
  case cancelled =>
      cases h
      rfl

/-- `run` stores the attribute at its start and never reads it. -/
theorem mainStep_withInputs (inputs : Dict String Json) (hstart : s.main.pc ≠ .start)
    (h : env.mainStep s = some s') :
    env.mainStep (withInputs inputs s) = some (withInputs inputs s') := by
  -- Five of the cases process a future, and none of them reads the inputs.
  have process : ∀ (i : Nat) (rest : List Nat), s.main.pc = .process (i :: rest) →
      env.mainStep (withInputs inputs s) = some (withInputs inputs s') := by
    intro i rest hpc
    simp only [mainStep, hpc] at h
    simp only [mainStep, withInputs, hpc]
    exact processFuture_withInputs inputs h
  cases mainStep_inv h with
  | refuse e hpc he => exact absurd hpc hstart
  | setup buckets hpc hb => exact absurd hpc hstart
  | enter hpc hor =>
      simp only [mainStep, withInputs, hpc]
      exact if_pos hor
  | leave hpc hready hrunning =>
      rcases hpc with hpc | hpc
      all_goals
        simp only [mainStep, withInputs, hpc, hready, hrunning]
        rfl
  | suspend hpc hready hrunning =>
      simp only [mainStep, withInputs, hpc, hready]
      exact if_neg hrunning
  | drop tid rest hpc hready hskip =>
      simp only [mainStep, withInputs, hpc, hready]
      exact if_pos hskip
  | dispatch tid rest t hpc hready hskip ht =>
      simp only [mainStep, withInputs, hpc, hready, ht]
      exact if_neg hskip
  | abandon hpc hall =>
      simp only [mainStep, hpc, Option.ite_none_right_eq_some] at h
      simp only [mainStep, withInputs, hpc]
      exact if_pos h.1
  | succeeded i rest c hpc hi hdone hst => exact process i rest hpc
  | «continue» i rest c t hpc hi hdone hst ht hpol => exact process i rest hpc
  | failFast i rest c t hpc hi hdone hst ht hpol hlast => exact process i rest hpc
  | cancelAll i rest c t hpc hi hdone hst ht hpol hmore => exact process i rest hpc
  | raise i rest c e hpc hi hdone => exact process i rest hpc
  | _ => simp only [mainStep, withInputs, *]

/-- A step other than the first ones of `run` and of a coroutine does not read the attribute. -/
theorem loopStep_withInputs (inputs : Dict String Json) {a : Action} (hstart : s.main.pc ≠ .start)
    (ha : ∀ i, a ≠ .coro i .start) (h : env.loopStep s a = some s') :
    env.loopStep (withInputs inputs s) a = some (withInputs inputs s') := by
  cases a with
  | main => exact mainStep_withInputs inputs hstart h
  | wake order =>
      obtain ⟨hw, rfl⟩ := wakeStep_inv h
      show wakeStep (withInputs inputs s) order = _
      unfold wakeStep
      simp only [withInputs, hw.pc]
      exact if_pos ⟨hw.some_done, hw.perm⟩
  | coro i b =>
      obtain ⟨c, hi, h⟩ := Option.bind_eq_some_iff.mp h
      rw [Option.ite_none_right_eq_some] at h
      refine Option.bind_eq_some_iff.mpr ⟨c, hi, ?_⟩
      exact (if_pos h.1).trans (coroStep_withInputs inputs (fun hb => ha i (hb ▸ rfl)) h.2)
  | threadEnd i attempt =>
      obtain ⟨ho, h⟩ := Option.ite_none_right_eq_some.mp h
      cases h
      exact if_pos ho
  -- `run` waits in two places, and a cancel is taken up in either.
  | cancel =>
      simp only [loopStep] at h
      split at h
      · rename_i hpc
        cases h
        simp only [loopStep, withInputs, hpc]
      · rename_i hpc
        cases h
        simp only [loopStep, withInputs, hpc]
      · cases h
  | tick d =>
      cases h
      rfl

/-- Whether the event loop has stopped does not depend on the attribute either. -/
theorem step?_withInputs (inputs : Dict String Json) {a : Action} (hstart : s.main.pc ≠ .start)
    (ha : ∀ i, a ≠ .coro i .start) (h : env.step? s a = some s') :
    env.step? (withInputs inputs s) a = some (withInputs inputs s') := by
  rw [step?, Option.ite_none_left_eq_some] at h ⊢
  exact ⟨h.1, loopStep_withInputs inputs hstart ha h.2⟩

/-- A step of a run does not turn the clock back. -/
theorem step?_clock {a : Action} (h : env.step? s a = some s') : ∃ d, s'.clock = s.clock + d := by
  cases step_inv h with
  | tick d => exact ⟨d, rfl⟩
  | main hm => cases hm <;> exact ⟨0, rfl⟩
  | coro hi hy hs => cases hs <;> exact ⟨0, rfl⟩
  | _ => exact ⟨0, rfl⟩

/-- A step after the start of `run` leaves the attribute alone. -/
theorem step?_currentInputs {a : Action} (hstart : s.main.pc ≠ .start)
    (h : env.step? s a = some s') : s'.currentInputs = s.currentInputs ∧ s'.main.pc ≠ .start := by
  cases step_inv h with
  | main hm =>
      cases hm with
      | refuse e hpc he => exact absurd hpc hstart
      | setup buckets hpc hb => exact absurd hpc hstart
      | drop tid rest hpc hready hskip => exact ⟨rfl, hstart⟩
      | dispatch tid rest t hpc hready hskip ht => exact ⟨rfl, hstart⟩
      | _ => exact ⟨rfl, MainPc.noConfusion⟩
  | coro hi hy hs => cases hs <;> exact ⟨rfl, hstart⟩
  | threadEnd i attempt ho => exact ⟨rfl, hstart⟩
  | tick d => exact ⟨rfl, hstart⟩
  | _ => exact ⟨rfl, MainPc.noConfusion⟩

/-- Before its start, a run stores its inputs or waits. -/
theorem step?_start {a : Action} (hstart : s.main.pc = .start) (h : env.step? s a = some s') :
    (s'.currentInputs = env.inputs ∧ ∀ inputs, env.step? (withInputs inputs s) a = some s') ∨
      (s'.main = s.main ∧
        ∀ inputs, env.step? (withInputs inputs s) a = some (withInputs inputs s')) := by
  rw [step?, Option.ite_none_left_eq_some] at h
  obtain ⟨hgo, h⟩ := h
  -- Whether the event loop has stopped does not depend on the attribute.
  have hrun : ∀ inputs, env.step? (withInputs inputs s) a = env.loopStep (withInputs inputs s) a :=
    fun inputs => if_neg hgo
  simp only [hrun]
  cases a with
  | main =>
      have hsame : ∀ inputs, env.mainStep (withInputs inputs s) = env.mainStep s := by
        intro inputs
        simp only [mainStep, withInputs, hstart]
      refine Or.inl ⟨?_, fun inputs => (hsame inputs).trans h⟩
      simp only [loopStep, mainStep, hstart] at h
      split at h <;> cases h <;> rfl
  | wake order =>
      have hpc := (wakeStep_inv h).1.pc
      rw [hstart] at hpc
      cases hpc
  | coro i b =>
      obtain ⟨c, hi, h⟩ := Option.bind_eq_some_iff.mp h
      rw [hstart] at h
      cases h
  | threadEnd i attempt =>
      obtain ⟨ho, h⟩ := Option.ite_none_right_eq_some.mp h
      cases h
      exact Or.inr ⟨rfl, fun inputs => if_pos ho⟩
  | cancel =>
      simp only [loopStep, hstart, reduceCtorEq] at h
  | tick d =>
      cases h
      exact Or.inr ⟨rfl, fun inputs => rfl⟩

/-- A run that is alone finds its own inputs in the attribute. -/
theorem alone_currentInputs (hs : env.system.Reachable s) :
    s.main.pc ≠ .start → s.currentInputs = env.inputs := by
  refine System.Reachable.holds (P := fun s => s.main.pc ≠ .start → s.currentInputs = env.inputs)
    (fun h => absurd rfl h) (fun s a s' _ ih h hpc' => ?_) hs
  by_cases hpc : s.main.pc = .start
  · rcases step?_start hpc h with ⟨hinputs, -⟩ | ⟨hmain, -⟩
    · exact hinputs
    · exact absurd (hmain ▸ hpc) hpc'
  · rw [(step?_currentInputs hpc h).1, ih hpc]

/-! ### Runs that go on as if they were alone -/

/-- Up to the attribute, the state is one that the run reaches alone. -/
def Alone (env : Env) (s : State) : Prop :=
  ∃ inputs, env.system.Reachable (withInputs inputs s)

/-- The step may read the attribute only to find the run's own inputs. -/
def ReadsOwn (env : Env) (s : State) (a : Action) : Prop :=
  ∀ i, a = .coro i .start → s.currentInputs = env.inputs

/-- A step that finds the run's own inputs is a step of the run alone. -/
theorem Alone.step {a : Action} (hs : Alone env s) (hown : ReadsOwn env s a)
    (h : env.step? s a = some s') : Alone env s' := by
  obtain ⟨inputs, hreach⟩ := hs
  by_cases hpc : s.main.pc = .start
  · rcases step?_start hpc h with ⟨-, hstep⟩ | ⟨-, hstep⟩
    · exact ⟨s'.currentInputs, hreach.step (hstep inputs)⟩
    · exact ⟨inputs, hreach.step (hstep inputs)⟩
  · by_cases ha : ∃ i, a = .coro i .start
    · obtain ⟨i, hi⟩ := ha
      -- Alone, the attribute holds the inputs of the run, and here it does too.
      have hinputs : inputs = s.currentInputs :=
        (alone_currentInputs hreach hpc).trans (hown i hi).symm
      rw [hinputs] at hreach
      exact ⟨s'.currentInputs, hreach.step h⟩
    · exact ⟨inputs, hreach.step (step?_withInputs inputs hpc (fun i hi => ha ⟨i, hi⟩) h)⟩

/-- To a run, the step of another run is time that passes. -/
theorem Alone.shared {t t' s : State} (hs : Alone env s) (hclock : t.clock = s.clock) {d : Nat}
    (hd : t'.clock = t.clock + d) : Alone env (share t' s) := by
  obtain ⟨inputs, hreach⟩ := hs
  refine ⟨inputs, ?_⟩
  have hstep : env.system.step? (withInputs inputs s) (.tick d)
      = some (withInputs inputs (share t' s)) := by
    show env.step? _ _ = _
    rw [step_tick]
    show some { withInputs inputs s with clock := s.clock + d } = _
    rw [← hclock, ← hd]
    rfl
  exact hreach.step hstep

/-! ### The inputs of a task -/

/-- The resolved inputs of a coroutine come from the inputs of the run and from its results so
far. -/
def ResolvedFrom (env : Env) (results : Dict String Json) (c : Coro) : Prop :=
  c.resolvedInputs = .null ∨
    ∃ earlier : Dict String Json, (∀ id, earlier.contains id = true → results.contains id = true) ∧
      resolveTemplate env.lib (.obj (templateScope env.inputs earlier).entries)
        (.obj c.task.inputs.entries) = .ok c.resolvedInputs

/-- A task that is cancelled keeps its resolved inputs. -/
@[simp] theorem skipSpan_resolvedInputs (c : Coro) (now : Nat) :
    (skipSpan c now).resolvedInputs = c.resolvedInputs := rfl

/-- The head of the attempt loop keeps the resolved inputs. -/
@[simp] theorem enterAttempt_resolvedInputs (c : Coro) (attempt : Int) (now : Nat) :
    (env.enterAttempt c attempt now).resolvedInputs = c.resolvedInputs := by
  rcases enterAttempt_cases env c now attempt with ⟨-, h⟩ | ⟨-, h⟩
  · rw [h]
  · rw [h]
    rfl

/-- A failed attempt keeps the resolved inputs. -/
@[simp] theorem failAttempt_resolvedInputs (c : Coro) (ctx : SkillContext) (err : String)
    (now : Nat) : (env.failAttempt c ctx err now).resolvedInputs = c.resolvedInputs := by
  rcases failAttempt_cases env c now ctx err with ⟨_, -, -, h⟩ | ⟨_, -, -, h⟩ | ⟨-, h⟩ <;>
    rw [h] <;> rfl

/-- The end of a handler keeps the resolved inputs. -/
@[simp] theorem afterInvoke_resolvedInputs (c : Coro) (ctx : SkillContext) (out : Outcome)
    (now : Nat) : (env.afterInvoke c ctx out now).resolvedInputs = c.resolvedInputs := by
  rcases afterInvoke_cases env c now ctx out with
    ⟨_, -, h⟩ | ⟨-, h⟩ | ⟨_, _, -, h⟩ | ⟨_, -, -, h⟩ <;> rw [h]
  · rfl
  · rfl
  · rfl
  · exact failAttempt_resolvedInputs c ctx _ now

/-- A step of a coroutine replaces it by one with the same task, whose inputs are resolved
already or in this step. -/
theorem coroStep_resolved {i : Nat} {c : Coro} {a : CoroAction} (h : CoroStep env s i c a s') :
    s'.main = s.main ∧ ∃ c', s'.coros = s.coros.set i c' ∧ c'.task = c.task ∧
      (c'.resolvedInputs = c.resolvedInputs ∨
        resolveTemplate env.lib (.obj (templateScope s.currentInputs s.main.results).entries)
          (.obj c.task.inputs.entries) = .ok c'.resolvedInputs) := by
  cases h with
  | start hpc hc =>
      refine ⟨rfl, _, rfl, startTask_task env c _ _ _, ?_⟩
      rcases startTask_cases env c s.clock s.currentInputs s.main.results with
        ⟨e, -, h⟩ | ⟨resolved, hr, h⟩
      · rw [h]
        exact Or.inl rfl
      · rw [h, enterAttempt_resolvedInputs]
        exact Or.inr hr
  | _ => exact ⟨rfl, _, rfl, by simp, Or.inl (by simp)⟩

/-- A list of coroutines before the start of `run` is empty. -/
theorem coros_start (hs : env.system.Reachable s) : s.main.pc = .start → s.coros = [] := by
  refine System.Reachable.holds (P := fun s => s.main.pc = .start → s.coros = [])
    (fun _ => rfl) (fun s a s' _ ih h hpc' => ?_) hs
  by_cases hpc : s.main.pc = .start
  · cases step_inv h with
    | main hm => cases hm <;> first | cases hpc' | simp_all
    | coro hi hy hs =>
        rw [ih hpc] at hi
        cases hi
    | _ => first | cases hpc' | exact ih hpc
  · exact absurd hpc' (step?_currentInputs hpc h).2

/-- A run that is alone resolves the inputs of its tasks from its own inputs and results. -/
theorem alone_resolved (hs : env.system.Reachable s) :
    ∀ c ∈ s.coros, ResolvedFrom env s.main.results c := by
  refine System.Reachable.holds (P := fun s => ∀ c ∈ s.coros, ResolvedFrom env s.main.results c)
    (fun c hc => (by cases hc)) (fun s a s' hreach ih h => ?_) hs
  cases step_inv h with
  | coro hi hy hstep =>
      obtain ⟨hmain, c', hcoros, htask, hres⟩ := coroStep_resolved hstep
      rw [hmain, hcoros]
      intro d hd
      rcases List.mem_or_eq_of_mem_set hd with hd | rfl
      · exact ih d hd
      · have hc := ih _ (List.mem_of_getElem? hi)
        unfold ResolvedFrom at hc ⊢
        rw [htask]
        rcases hres with hsame | hnew
        · rw [hsame]
          exact hc
        · have hpc : s.main.pc ≠ .start := by
            intro hstart
            rw [hstart] at hy
            cases hy
          rw [alone_currentInputs hreach hpc] at hnew
          exact Or.inr ⟨s.main.results, fun _ h => h, hnew⟩
  | main hm =>
      cases hm with
      | setup buckets hpc hb =>
          intro c hc
          rw [show s.coros = [] from coros_start hreach hpc] at hc
          cases hc
      | dispatch tid rest t hpc hready hskip ht =>
          intro c hc
          rcases List.mem_append.mp hc with hc | hc
          · exact ih c hc
          · rw [List.mem_singleton.mp hc]
            exact Or.inl rfl
      | succeeded i rest d hpc hi hdone hst =>
          intro c hc
          -- The results only grow, so they still contain the earlier ones.
          rcases ih c hc with hnull | ⟨earlier, hsub, hres⟩
          · exact Or.inl hnull
          · refine Or.inr ⟨earlier, fun id hid => ?_, hres⟩
            obtain ⟨v, hv⟩ := (Dict.contains_iff _ id).mp (hsub id hid)
            rw [Dict.contains_iff, Dict.get?_set]
            by_cases hd : id = d.task.id
            · exact ⟨_, if_pos hd⟩
            · exact ⟨v, (if_neg hd).trans hv⟩
      | cancelAll i rest d t hpc hi hdone hst ht hpol hmore =>
          intro c hc
          obtain ⟨n, hn, rfl⟩ := List.mem_mapIdx.mp hc
          have hkeep := ih _ (List.getElem_mem hn)
          unfold cancelCoro
          split
          · exact hkeep
          · exact hkeep
      | _ => exact ih
  | _ => exact ih

end Attribute

/-! ### Two runs -/

/-- A run yields what it yields alone, and the inputs of its tasks come from its own. -/
structure IsolatedRun (env : Env) (s : State) : Prop where
  alone : Alone env s
  resolved : ∀ c ∈ s.coros, ResolvedFrom env s.main.results c

/-- A run that is alone is isolated. -/
theorem isolatedRun_of_alone {env : Env} {s : State} (h : Alone env s) : IsolatedRun env s := by
  obtain ⟨inputs, hreach⟩ := h
  have hresolved : ∀ c ∈ (withInputs inputs s).coros, ResolvedFrom env s.main.results c :=
    alone_resolved hreach
  exact ⟨⟨inputs, hreach⟩, hresolved⟩

/-- Both runs are isolated. -/
structure Isolated (o : OrchestratorObject) (c₁ c₂ : Call) (p : SharedState) : Prop where
  first : IsolatedRun (o.env c₁) p.first
  second : IsolatedRun (o.env c₂) p.second

/-- A task that starts finds the inputs of its own run in the attribute. -/
def OwnInputs (o : OrchestratorObject) (c₁ c₂ : Call) (p : SharedState) : SharedAction → Prop
  | .first a => ReadsOwn (o.env c₁) p.first a
  | .second a => ReadsOwn (o.env c₂) p.second a

/-- While every task that starts finds the inputs of its own run, the runs are isolated: each of the
two goes through states of a run on its own object.

The two share the attribute `_current_inputs` and nothing else. A run reads it at the first step of
a task only, so up to the attribute a state of a shared run is one of a run that has the object to
itself (`Alone`), and the steps of the other run are time that passes. -/
theorem runs_isolated {o : OrchestratorObject} {c₁ c₂ : Call} {p : SharedState}
    (hp : (o.sharedRuns c₁ c₂).ReachableBy (OwnInputs o c₁ c₂) p) : Isolated o c₁ c₂ p := by
  -- The clocks agree, so that each run sees the steps of the other as time that passes.
  have hinv : Alone (o.env c₁) p.first ∧ Alone (o.env c₂) p.second ∧
      p.first.clock = p.second.clock := by
    refine System.ReachableBy.holds (Q := fun p => Alone (o.env c₁) p.first ∧
      Alone (o.env c₂) p.second ∧ p.first.clock = p.second.clock)
      ⟨⟨_, .init⟩, ⟨_, .init⟩, rfl⟩ (fun p a p' _ ih hown h => ?_) hp
    obtain ⟨h₁, h₂, hclock⟩ := ih
    cases a with
    | first a =>
        obtain ⟨-, h⟩ := Option.ite_none_right_eq_some.mp h
        obtain ⟨s, hs, rfl⟩ := Option.map_eq_some_iff.mp h
        obtain ⟨d, hd⟩ := step?_clock hs
        exact ⟨h₁.step hown hs, h₂.shared hclock hd, rfl⟩
    | second a =>
        obtain ⟨-, h⟩ := Option.ite_none_right_eq_some.mp h
        obtain ⟨s, hs, rfl⟩ := Option.map_eq_some_iff.mp h
        obtain ⟨d, hd⟩ := step?_clock hs
        exact ⟨h₁.shared hclock.symm hd, h₂.step hown hs, rfl⟩
  exact ⟨isolatedRun_of_alone hinv.1, isolatedRun_of_alone hinv.2.1⟩

/-- An object without handlers, for runs that never come to one. -/
def bareObject : OrchestratorObject where
  lib := Proofs.asciiLib
  skills _ := none
  clock := 0

/-- A call of a workflow with one task, whose input is the input `x` of the run. -/
def callWith (x : ℤ) : Call where
  workflow :=
    { name := "w"
      tasks := [{ id := "a", skill := "s", inputs := Dict.empty.set "v" (.str "${input.x}") }] }
  inputs := Dict.empty.set "x" (.num (.int x))
  runID := ""
  startedWall := ""

/-- The number in a member of an object. The sample runs are told apart by it. -/
def numberAt (key : String) : Json → Option Number
  | .obj members =>
    match Dict.find key members with
    | some (.num n) => some n
    | _ => none
  | _ => none

/-- `run` up to its first `asyncio.wait`, for a workflow with one task. -/
def upToWait : List Action := [.main, .main, .main, .main]

/-- The attribute holds the inputs of `callWith x`, and nothing else. -/
def holdsNumber (x : ℤ) (inputs : Dict String Json) : Bool :=
  match inputs.entries with
  | [(key, .num (.int z))] => key = "x" && z = x
  | _ => false

/-- The check on the attribute finds the inputs of one of the two calls. -/
theorem eq_of_holdsNumber {x : ℤ} {inputs : Dict String Json} (h : holdsNumber x inputs = true) :
    inputs = (callWith x).inputs := by
  obtain ⟨entries, nodup⟩ := inputs
  unfold holdsNumber at h
  split at h
  · rename_i key z heq
    simp only [Bool.and_eq_true, decide_eq_true_eq] at h
    obtain ⟨rfl, rfl⟩ := h
    cases heq
    rfl
  · cases h

/-- Each task of the two runs of `callWith 1` and `callWith 2` finds its own inputs. -/
def ownNumber (p : SharedState) : SharedAction → Bool
  | .first (.coro _ .start) => holdsNumber 1 p.first.currentInputs
  | .second (.coro _ .start) => holdsNumber 2 p.second.currentInputs
  | _ => true

/-- The check implies the condition, for the two calls of the example. -/
theorem ownInputs_of_ownNumber (p : SharedState) (a : SharedAction) (h : ownNumber p a = true) :
    OwnInputs bareObject (callWith 1) (callWith 2) p a := by
  cases a with
  | first a =>
      intro i hi
      cases hi
      exact eq_of_holdsNumber h
  | second a =>
      intro i hi
      cases hi
      exact eq_of_holdsNumber h

/-- The second run begins when the task of the first has read its inputs. -/
theorem runs_isolated_secondLate :
    ∃ p, Isolated bareObject (callWith 1) (callWith 2) p ∧
      p.first.coros.map (fun c => numberAt "v" c.resolvedInputs) = [some 1] ∧
      p.second.coros.map (fun c => numberAt "v" c.resolvedInputs) = [some 2] := by
  obtain ⟨p, hp, hv⟩ := @System.exists_of_run _ _
    ((bareObject.sharedRuns (callWith 1) (callWith 2)).guard ownNumber)
    ((upToWait ++ [Action.coro 0 .start]).map SharedAction.first ++
      (upToWait ++ [Action.coro 0 .start]).map SharedAction.second)
    (fun p => p.first.coros.map (fun c => numberAt "v" c.resolvedInputs) = [some 1] &&
      p.second.coros.map (fun c => numberAt "v" c.resolvedInputs) = [some 2])
    (by decide +kernel)
  rw [Bool.and_eq_true, decide_eq_true_eq, decide_eq_true_eq] at hv
  exact ⟨p, runs_isolated (.of_guard ownInputs_of_ownNumber hp), hv.1, hv.2⟩

/-- A coroutine of the first run whose task has the number 2 for its input. -/
def mixedUp (c : Coro) : Bool :=
  numberAt "v" c.resolvedInputs = some 2 &&
    match c.task.inputs.entries with
    | [(key, v)] => key = "v" && isStr "${input.x}" v
    | _ => false

/-- Alone, and before any result, the first run cannot resolve that input. -/
theorem not_resolvedFrom {c : Coro} (h : mixedUp c = true) {results : Dict String Json}
    (hempty : results.entries.isEmpty = true) :
    ¬ ResolvedFrom (bareObject.env (callWith 1)) results c := by
  simp only [mixedUp, Bool.and_eq_true, decide_eq_true_eq] at h
  obtain ⟨hnum, h⟩ := h
  -- The task takes `x` from the run's inputs and from nothing else.
  have hinputs : c.task.inputs.entries = [("v", .str "${input.x}")] := by
    split at h
    · rename_i key v heq
      simp only [Bool.and_eq_true, decide_eq_true_eq] at h
      obtain ⟨rfl, hv⟩ := h
      cases v with
      | str t => rw [heq, of_decide_eq_true hv]
      | _ => cases hv
    · cases h
  rintro (hnull | ⟨earlier, hsub, hres⟩)
  · rw [hnull] at hnum
    cases hnum
  · have hnil : earlier = .empty := by
      obtain ⟨entries, nodup⟩ := earlier
      cases entries with
      | nil => rfl
      | cons e l =>
          have hmem := hsub e.1 (by simp [Dict.contains, Dict.get?, Dict.find])
          rw [Dict.contains, Dict.get?, List.isEmpty_iff.mp hempty] at hmem
          cases hmem
    rw [hnil, hinputs] at hres
    -- The inputs of its own call give it the number 1, and it was handed the other call's 2.
    have hone : (resolveTemplate Proofs.asciiLib
        (.obj (templateScope (callWith 1).inputs .empty).entries)
        (.obj [("v", .str "${input.x}")])).toOption.bind (numberAt "v") = some 1 := by
      decide +kernel
    rw [show resolveTemplate Proofs.asciiLib
        (.obj (templateScope (callWith 1).inputs .empty).entries)
        (.obj [("v", .str "${input.x}")]) = .ok c.resolvedInputs from hres] at hone
    have htwo : some (2 : Number) = some 1 := hnum.symm.trans hone
    exact absurd htwo (by decide)

/-- The second run begins between the dispatch of the first run's task and its first step, and
that task gets the inputs of the second run. -/
theorem runs_mix_inputs :
    ¬ ∀ (o : OrchestratorObject) (c₁ c₂ : Call) (p : SharedState),
      (o.sharedRuns c₁ c₂).Reachable p → Isolated o c₁ c₂ p := by
  intro h
  obtain ⟨p, hp, hv⟩ := @System.exists_of_run _ _
    (bareObject.sharedRuns (callWith 1) (callWith 2))
    (upToWait.map SharedAction.first ++ upToWait.map SharedAction.second ++
      [SharedAction.first (.coro 0 .start)])
    (fun p => p.first.main.results.entries.isEmpty && p.first.coros.any mixedUp)
    (by decide +kernel)
  rw [Bool.and_eq_true] at hv
  obtain ⟨c, hc, hmixed⟩ := List.any_eq_true.mp hv.2
  exact not_resolvedFrom hmixed hv.1 ((h _ _ _ p hp).first.resolved c hc)

end Orchestrator.Sdk.Runner
