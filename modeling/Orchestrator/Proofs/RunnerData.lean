import Orchestrator.Proofs.RunIsolation
import Orchestrator.Proofs.RunnerInv

/-!
# `Orchestrator.Proofs.RunnerData`: what a Python task is handed

A task coroutine resolves its inputs from the attribute `_current_inputs` and from `results`.
`Handed` says what these hold for a task that was started: the attribute has the inputs of the run,
and the results have the outputs of all its transitive dependencies. It holds in every reachable
state, also when `run` has raised and has left its coroutines behind.

In the runner a coroutine reads the results at its first step and not when it is started, so there
is no snapshot as in the engine. Between the two moments more tasks may have finished, but none of
the dependencies can get lost: the results only grow.

While `run` has not raised, the statement is in its books. Behind that point it is carried along by
the steps of the coroutines, which change neither the results nor the attribute.

The end of the module has the sample runs of the SDK that the witnesses of other modules use.
-/

set_option autoImplicit false

namespace Orchestrator.Sdk.Runner

open Orchestrator.Lib Env

variable {env : Env}

/-- What the started tasks are handed: the inputs of this run and no other, and the results of
everything that they depend on. -/
structure Handed (env : Env) (s : State) : Prop where
  ids_nodup : (coroIds s.coros).Nodup
  task_mem : ∀ c ∈ s.coros, c.task ∈ env.wf.tasks
  inputs : s.coros ≠ [] → s.currentInputs = env.inputs
  /-- The results hold the transitive dependencies. -/
  complete : ∀ c ∈ s.coros, ∀ id,
    Relation.TransGen (fun d t => d ∈ env.wf.deps t) id c.task.id →
    ∃ out, s.main.results.get? id = some out

/-- The books of a run that has not raised say what its tasks are handed. -/
theorem RunInv.handed {s : State} (h : RunInv env s)
    (hinputs : s.coros ≠ [] → s.currentInputs = env.inputs) : Handed env s := by
  refine ⟨List.Nodup.of_append_left h.safe.nodup, h.task_mem, hinputs, fun c hc id hdep => ?_⟩
  have hmem : c.task.id ∈ (ledger s.main s.coros).started ++ (ledger s.main s.coros).ready :=
    List.mem_append_left _ (List.mem_map_of_mem hc)
  obtain ⟨sp, hsp, hst⟩ := isGood_ledger.mp (h.safe.transGen_good hmem hdep)
  exact ⟨sp.output, (h.results id sp.output).mpr ⟨sp, hsp, hst, rfl⟩⟩

/-- A step of `run` that raises changes neither the coroutines nor the results. -/
theorem MainStepped.kept_of_raised {s s' : State} (h : MainStepped env s s')
    (hraised : s'.main.pc.isLive = false) :
    s'.coros = s.coros ∧ s'.main.results = s.main.results := by
  cases h with
  | refuse e hpc he => exact ⟨rfl, rfl⟩
  | raise i rest c e hpc hi hdone => exact ⟨rfl, rfl⟩
  | drop tid rest hpc hready hskip =>
      have hlive : s.main.pc.isLive = false := hraised
      rw [hpc] at hlive
      cases hlive
  | dispatch tid rest t hpc hready hskip ht =>
      have hlive : s.main.pc.isLive = false := hraised
      rw [hpc] at hlive
      cases hlive
  | _ => cases hraised

/-- `Handed` holds in every reachable state. -/
theorem reachable_handed (hacc : Accepted env.wf) {s : State} (hs : env.system.Reachable s) :
    Handed env s := by
  -- The inputs are in the attribute from the first step on.
  have hattr : ∀ {s : State}, env.system.Reachable s →
      s.coros ≠ [] → s.currentInputs = env.inputs := fun hs hne =>
    alone_currentInputs hs fun hstart => hne ((reachable_sound hacc hs).start hstart)
  have hinit : Handed env env.initial :=
    ⟨List.nodup_nil, fun c hc => (by cases hc), fun hne => absurd rfl hne, fun c hc => by cases hc⟩
  refine hs.holds hinit fun s a s' hs h ha => ?_
  cases hlive : s'.main.pc.isLive with
  | true => exact (reachable_runInv hacc (hs.step ha) hlive).handed (hattr (hs.step ha))
  | false =>
      cases step_inv ha with
      | main hm =>
          obtain ⟨hcoros, hresults⟩ := hm.kept_of_raised hlive
          refine ⟨?_, ?_, hattr (hs.step ha), ?_⟩
          · rw [hcoros]
            exact h.ids_nodup
          · rw [hcoros]
            exact h.task_mem
          · rw [hcoros, hresults]
            exact h.complete
      | wake order hw => cases hlive
      | coro hi hy hstep =>
          obtain ⟨c', hmove⟩ := hstep.move
          -- The coroutine that moved has the task it had.
          have hfrom : ∀ x ∈ s'.coros, ∃ y ∈ s.coros, x.task = y.task := by
            intro x hx
            rw [hmove.coros] at hx
            rcases List.mem_or_eq_of_mem_set hx with hx | rfl
            · exact ⟨x, hx, rfl⟩
            · exact ⟨_, List.mem_of_getElem? hi, hmove.task⟩
          refine ⟨?_, fun x hx => ?_, hattr (hs.step ha), fun x hx id hdep => ?_⟩
          · have hids : coroIds s'.coros = coroIds s.coros := by
              rw [hmove.coros]
              exact map_set_of_eq _ hi (by rw [hmove.task])
            rw [hids]
            exact h.ids_nodup
          · obtain ⟨y, hy, htask⟩ := hfrom x hx
            exact htask ▸ h.task_mem y hy
          · obtain ⟨y, hy, htask⟩ := hfrom x hx
            rw [htask] at hdep
            rw [hmove.main]
            exact h.complete y hy id hdep
      | threadEnd i attempt ho => exact ⟨h.ids_nodup, h.task_mem, h.inputs, h.complete⟩
      | cancel hpc => exact ⟨h.ids_nodup, h.task_mem, h.inputs, h.complete⟩
      | tick d => exact ⟨h.ids_nodup, h.task_mem, h.inputs, h.complete⟩

/-! ### Plain runs -/

/-- A run of a workflow without inputs, with one kind of handler for every skill. -/
def plainRun (wf : Workflow) (kind : SkillKind) : Env where
  wf := wf
  runID := "r"
  inputs := .empty
  lib := Proofs.asciiLib
  skills _ := some kind
  startedWall := ""
  startedAt := 0

/-- The steps of a task without buckets up to the call of its handler. -/
def callTask (i : Nat) : List Action :=
  [.coro i .start, .coro i .acquireSlot, .coro i .acquire, .coro i .invoke]

/-- The steps of a task without buckets whose only attempt ends in this outcome. -/
def wholeTask (i : Nat) (ctx : SkillContext) (out : Outcome) : List Action :=
  callTask i ++ [.coro i (.finish ctx out)]

end Orchestrator.Sdk.Runner
