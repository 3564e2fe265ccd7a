import Orchestrator.Proofs.Completion

/-!
# `Orchestrator.Proofs.Slots`: the slots of the semaphore

`sem` is a buffered channel with room for `MaxParallel` values. A goroutine puts one in before an
attempt and takes one out on each of the exits of the attempt. `slots_conserved` says that the
values in the channel are those of the goroutines between the two, so no exit takes out the value of
another goroutine and none leaves its own behind.

The exits of an attempt are many: a refusal by a cancelled context in one of the limiters, the
return of `Execute` with a success or with a failure, and the last failure. That each of them takes
out exactly one value is in the proof of `reachable_semOk`, which counts the goroutines by their
place in the code. Here the count is compared with the room of the channel, and with the calls of
`Execute`: whoever executes holds a slot, so no more calls are under way than there are slots.
-/

set_option autoImplicit false

namespace Orchestrator.Proofs

open Orchestrator.Lib Orchestrator.Engine Orchestrator.Engine.Env

variable {B : Type} {env : Env B}

/-- The calls of `Execute` in progress. -/
def executing (s : State B) : Nat := s.gos.countP (fun g => g.pc = .exec)

/-- The room of `sem`. A negative `MaxParallel` makes no channel. -/
def slots (env : Env B) : Int := max env.wf.maxParallel 0

/-- A goroutine in `Execute` holds a slot. -/
theorem executing_le (s : State B) : executing s ≤ s.gos.countP holdsSlot := by
  refine List.countP_mono_left fun g _ hg => ?_
  have hpc : g.pc = .exec := by simpa using hg
  simp [holdsSlot, hpc]

/-- A step of a task goroutine takes a slot only where one is free. -/
theorem TaskStep.sem_le {s s' : State B} {i : Nat} {g : Goroutine} {a : TaskAction}
    (h : TaskStep env s i g a s') (hle : (s.sem : Int) ≤ slots env) :
    (s'.sem : Int) ≤ slots env := by
  unfold slots at hle ⊢
  cases h with
  | takeSlot hpc hfree =>
      show ((s.sem + 1 : Nat) : Int) ≤ _
      omega
  | cancelWait hpc hc =>
      show ((s.sem - 1 : Nat) : Int) ≤ _
      omega
  | ret res err hpc =>
      show ((s.sem - 1 : Nat) : Int) ≤ _
      omega
  | _ => exact hle

/-- The semaphore holds no more than its room. -/
theorem reachable_sem_le {s : State B} (hs : env.system.Reachable s) :
    (s.sem : Int) ≤ slots env := by
  refine hs.holds (P := fun s => (s.sem : Int) ≤ slots env) (le_max_right _ _)
    fun s a s' _ hle ha => ?_
  rcases step_inv ha with ⟨-, hm⟩ | ⟨i, b, g, -, hg, ht⟩ | ⟨-, rfl⟩ | ⟨d, -, rfl⟩
  · cases hm <;> exact hle
  · exact ht.sem_le hle
  · exact hle
  · exact hle

/-- What a run promises about its slots: never more than there are, none lost and none made up, and
all of them free at the end. -/
structure SlotsConserved (env : Env B) (s : State B) : Prop where
  /-- No more calls of `Execute` are in progress than there are slots. -/
  executing : (executing s : Int) ≤ slots env
  /-- The occupied slots are those of the goroutines between their acquire and their release. -/
  occupied : s.sem = s.gos.countP holdsSlot
  /-- The channel has room for them. -/
  room : (s.sem : Int) ≤ slots env
  /-- A goroutine that releases a slot finds one to release. -/
  release : ∀ g ∈ s.gos, holdsSlot g = true → 0 < s.sem
  /-- When `Run` returns, all slots are free. -/
  free : s.report?.isSome = true → s.sem = 0

/-- Every reachable state of a run of a validated workflow conserves its slots. The occupied slots
are counted by the goroutines between their acquire and their release (`reachable_semOk`), through
retries, failed limiters and every way out of the attempt loop. At the return of `Run` all
goroutines are done, so all slots are free. -/
theorem slots_conserved (env : Env B) (iter : MapOrder) (hval : env.wf.validate iter = .ok ())
    {s : State B} (hs : env.system.Reachable s) : SlotsConserved env s := by
  have hsem : s.sem = s.gos.countP holdsSlot := reachable_semOk hs
  have hroom := reachable_sem_le hs
  refine ⟨?_, hsem, hroom, ?_, ?_⟩
  · have hle := executing_le s
    omega
  · intro g hg hold
    rw [hsem]
    exact List.countP_pos_iff.mpr ⟨g, hg, hold⟩
  · intro hrep
    -- Every goroutine is done, and a goroutine that is done holds no slot.
    obtain ⟨hdone, -⟩ := (reachable_onCourse (accepted_of_validate hval) hs).none_running hrep
    rw [hsem, List.countP_eq_zero]
    intro g hg
    simp [holdsSlot, hdone g hg]

/-- Two tasks share one slot: while one executes, the other waits for it. -/
def oneSlot : Env Unit :=
  plainEnv { plainWorkflow [plainTask "a" [] "", plainTask "b" [] ""] with maxParallel := 1 }

/-- A run of that workflow while its slot is taken. -/
theorem slots_conserved_oneSlot :
    ∃ s, s.gos.map (·.pc) = [.exec, .slot] ∧ s.sem = 1 ∧ SlotsConserved oneSlot s := by
  have hrun : (oneSlot.system.run?
      [.main, .main, .main, .task 0 .resolve, .task 1 .resolve, .task 0 .takeSlot,
        .task 0 .acquire, .task 0 .call]).any
        (fun s => s.gos.map (·.pc) = [.exec, .slot] ∧ s.sem = 1) = true := by rfl
  obtain ⟨s, hs, hp⟩ := System.exists_of_run hrun
  rw [decide_eq_true_iff] at hp
  exact ⟨s, hp.1, hp.2, slots_conserved oneSlot .insertion (by rfl) hs⟩

end Orchestrator.Proofs
