import Orchestrator.Proofs.Usage

/-!
# `Orchestrator.Proofs.Progress`: a rank that the steps of a run lower

`rank env s` bounds the work left in a run: the dispatches and receives still to come, and for each
task goroutine the attempts it has left and the waits left in its attempt. `step_rank` says that
every step lowers the rank, except the rounds inside a call of a limiter, a cancellation and the
passing of time. Those leave alone what the others depend on (`SameView`).

A task goroutine has a finite number of attempts before it, by its retry policy, and in each attempt
a finite number of waits. The rank of a task that is still to be dispatched is that of a goroutine
at its start, so a dispatch lowers the sum as well. The main goroutine goes round its loop once for
each span, and the number of spans it has received never exceeds the number of tasks.

The module also counts the slots (`reachable_semOk`) and says where the main goroutine can be stuck
(`main_blocked`): when it waits for a span and the channel is empty, and then some goroutine is
still running (`Blocked.running`). Together with `free_enabled` this is what a proof of termination
needs, whatever the limiters do.
-/

set_option autoImplicit false

namespace Orchestrator.Proofs

open Orchestrator.Lib Orchestrator.Engine Orchestrator.Engine.Env

variable {B : Type} {env : Env B}

/-! ### The rank -/

/-- The attempts that the retry policy of a task allows. -/
def attemptBound (env : Env B) (t : Task) : Int :=
  int64 ((t.effectiveRetry env.wf.defaultRetry).max + 1)

/-- The waits a goroutine has before it, when `left` attempts remain after the current one. -/
def waitRank : TaskPc → Nat → Nat
  | .resolve, left => 8 + 7 * left
  | .slot, left => 7 + 7 * left
  | .global, left => 6 + 7 * left
  | .globalWait, left => 6 + 7 * left
  | .provider, left => 5 + 7 * left
  | .providerWait, left => 5 + 7 * left
  | .call, left => 4 + 7 * left
  | .exec, left => 3 + 7 * left
  | .sleep, left => 2 + 7 * left
  | .send, _ => 1
  | .done, _ => 0

/-- The attempts left after the current one. Before the first attempt all of them are. -/
def attemptsLeft (env : Env B) (g : Goroutine) : Nat :=
  if g.pc = .resolve then (attemptBound env g.task).toNat
  else (attemptBound env g.task - g.span.attempts).toNat

/-- The rank of a goroutine. -/
def goRank (env : Env B) (g : Goroutine) : Nat := waitRank g.pc (attemptsLeft env g)

/-- The rank of a task goroutine at its start. -/
def taskRank (env : Env B) (t : Task) : Nat := 8 + 7 * (attemptBound env t).toNat

/-- The steps of the main goroutine up to its next dispatch or receive. Each turn of its loop takes
a bounded number of them. -/
def mainRank : MainPc → Nat
  | .head => 5
  | .dispatch => 4
  | .recv => 3
  | .drain => 2
  | .finish => 1
  | .returned _ => 0

/-- The spans received so far. -/
def completions (s : State B) : Nat := s.main.received.length + s.main.drained.length

/-- The rank of a state: the completions that are still to come, the tasks that are still to start,
and what each goroutine has left to do. No step raises it, and only waiting keeps it. -/
def rank (env : Env B) (s : State B) : Nat :=
  6 * (env.wf.tasks.length - completions s) + mainRank s.main.pc +
    (1 + (env.wf.tasks.map (taskRank env)).sum) * (env.wf.tasks.length - s.gos.length) +
    (s.gos.map (goRank env)).sum

/-- No more tasks are dispatched than there are. -/
theorem RunInv.gos_length {s : State B} (h : RunInv env s) :
    s.gos.length ≤ env.wf.tasks.length := by
  have hsub : goIds s.gos ⊆ env.wf.ids := by
    intro id hid
    obtain ⟨g, hg, rfl⟩ := List.mem_map.mp hid
    exact List.mem_map_of_mem (h.task_mem g hg)
  have := (List.subperm_of_subset h.flight.ids_nodup hsub).length_le
  simpa [goIds, Workflow.ids] using this

/-- No more spans are received than tasks are dispatched. -/
theorem History.completions_le {s : State B} (hh : History s) : completions s ≤ s.gos.length := by
  have := hh.length_eq
  rw [List.length_append, recordedSpans, List.length_map] at this
  exact this.trans_le (List.length_filter_le _ _)

/-- A step of the main goroutine lowers the rank. Its own part goes down, or a dispatch or a
completion is behind it. -/
theorem MainStepped.rank_lt (hacc : Accepted env.wf) {s s' : State B} (h' : RunInv env s')
    (hh' : History s') (hs : MainStepped env s s') : rank env s' < rank env s := by
  have hlen := h'.gos_length
  have hcomp := hh'.completions_le
  cases hs with
  | enter hpc hor => simp [rank, completions, mainRank, hpc]
  | leave hpc hr hf => simp [rank, completions, mainRank, hpc]
  | block hpc hr => simp [rank, completions, mainRank, hpc]
  | dispatch tid rest t hpc hr ht =>
      obtain ⟨htask, -⟩ := hacc.taskMap_iff.mp ht
      have hle : taskRank env t ≤ (env.wf.tasks.map (taskRank env)).sum :=
        List.single_le_sum (fun _ _ => Nat.zero_le _) _ (List.mem_map_of_mem htask)
      have hgo : goRank env (newGoroutine s t) = taskRank env t := rfl
      simp only [List.length_append, List.length_singleton] at hlen
      -- One dispatch fewer is left, and it pays for the new goroutine.
      obtain ⟨k, hk⟩ : ∃ k, env.wf.tasks.length - s.gos.length = k + 1 :=
        ⟨env.wf.tasks.length - s.gos.length - 1, by omega⟩
      have hk' : env.wf.tasks.length - (s.gos.length + 1) = k := by omega
      simp only [rank, completions, List.length_append, List.length_singleton, hk, hk',
        List.map_append, List.sum_append, List.map_singleton, List.sum_singleton, hgo,
        Nat.mul_succ]
      omega
  | receive span rest r hpc hch hr =>
      have hdrop : completions s + 1 ≤ env.wf.tasks.length := by
        cases hr <;> simp only [completions, recordSpan, List.length_append,
          List.length_singleton] at hcomp hlen ⊢ <;> omega
      cases hr <;> simp only [rank, completions, recordSpan, mainRank, hpc, List.length_append,
        List.length_singleton] at hdrop ⊢ <;> omega
  | drain span rest hpc hf hch =>
      simp only [rank, completions, List.length_append, List.length_singleton] at hcomp hlen ⊢
      omega
  | drained hpc hf => simp [rank, completions, mainRank, hpc]
  | finish hpc => simp [rank, completions, mainRank, hpc]

/-! ### Task goroutines -/

/-- The wait a goroutine is at, where a round inside a limiter counts as one wait. -/
def stage : TaskPc → TaskPc
  | .globalWait => .global
  | .providerWait => .provider
  | pc => pc

/-- The goroutine is in a call of a limiter. -/
def inLimiter (pc : TaskPc) : Bool := stage pc = .global ∨ stage pc = .provider

/-- The parts of a state that other goroutines depend on are the same. A step that waits changes
nothing else, so what was enabled stays so. -/
structure SameView (s s' : State B) : Prop where
  main : s'.main = s.main
  doneCh : s'.doneCh = s.doneCh
  sem : s'.sem = s.sem
  stages : s'.gos.map (fun g => stage g.pc) = s.gos.map (fun g => stage g.pc)

/-- A state and itself. -/
theorem SameView.refl (s : State B) : SameView s s := ⟨rfl, rfl, rfl, rfl⟩

/-- One step after another that leaves the view alone. -/
theorem SameView.trans {s s' s'' : State B} (h : SameView s s') (h' : SameView s' s'') :
    SameView s s'' :=
  ⟨h'.main.trans h.main, h'.doneCh.trans h.doneCh, h'.sem.trans h.sem, h'.stages.trans h.stages⟩

/-- The head of the attempt loop leaves less than the wait before it. -/
theorem goRank_enterAttempt (g : Goroutine) (attempt : Int) (now : Nat) :
    goRank env (env.enterAttempt g attempt now) = 1 ∨
      (attempt ≤ attemptBound env g.task ∧
        goRank env (env.enterAttempt g attempt now)
          = 7 + 7 * (attemptBound env g.task - attempt).toNat) := by
  rcases enterAttempt_cases env g now attempt with ⟨hle, h⟩ | ⟨-, h⟩
  · refine Or.inr ⟨hle, ?_⟩
    rw [h]
    simp [goRank, attemptsLeft, waitRank]
  · rw [h]
    exact Or.inl rfl

/-- Resolving the inputs lowers the rank of a goroutine, whether they resolve or not. -/
theorem goRank_resolveInputs {g : Goroutine} (hpc : g.pc = .resolve) (now : Nat) :
    goRank env (env.resolveInputs g now) < goRank env g := by
  have hg : goRank env g = 8 + 7 * (attemptBound env g.task).toNat := by
    simp [goRank, attemptsLeft, waitRank, hpc]
  rcases resolveInputs_cases env g now with ⟨e, -, h⟩ | ⟨r, -, h⟩
  · rw [h, hg]
    show 1 < _
    omega
  · rw [h, hg]
    -- Behind `resolve` there are the end of the task or its first attempt, and both have a smaller
    -- rank.
    have hentry : goRank env (env.enterAttempt (firstAttempt env g now r) 1 now) = 1 ∨
        (1 ≤ attemptBound env g.task ∧
          goRank env (env.enterAttempt (firstAttempt env g now r) 1 now)
            = 7 + 7 * (attemptBound env g.task - 1).toNat) :=
      goRank_enterAttempt _ 1 now
    rcases hentry with h1 | ⟨hle, h1⟩
    · rw [h1]
      omega
    · rw [h1]
      omega

/-- The return of `Execute` lowers the rank of a goroutine. -/
theorem goRank_afterExecute {g : Goroutine} (hpc : g.pc = .exec) (res : Result)
    (err : Option String) (now : Nat) :
    goRank env (env.afterExecute g res err now) < goRank env g := by
  have hg : goRank env g = 3 + 7 * (attemptBound env g.task - g.span.attempts).toNat := by
    simp [goRank, attemptsLeft, waitRank, hpc]
  rcases afterExecute_cases env g now res err with
    ⟨e, -, -, h⟩ | ⟨e, -, -, h⟩ | ⟨-, -, h⟩
  · rw [h, hg]
    simp [goRank, attemptsLeft, waitRank]
  · rw [h, hg]
    show 1 < _
    omega
  · rw [h, hg]
    show 1 < _
    omega

/-- The end of a backoff sleep lowers the rank of a goroutine. -/
theorem goRank_wake {g : Goroutine} (hpc : g.pc = .sleep) (now : Nat) :
    goRank env (env.enterAttempt g (g.span.attempts + 1) now) < goRank env g := by
  have hg : goRank env g = 2 + 7 * (attemptBound env g.task - g.span.attempts).toNat := by
    simp [goRank, attemptsLeft, waitRank, hpc]
  rw [hg]
  rcases @goRank_enterAttempt _ env g (g.span.attempts + 1) now with h | ⟨hle, h⟩ <;> rw [h] <;>
    omega

/-- A move to another wait of the same attempt. -/
theorem goRank_move {g : Goroutine} {pc : TaskPc} (hpc : g.pc ≠ .resolve) (hpc' : pc ≠ .resolve)
    (hlt : ∀ left, waitRank pc left < waitRank g.pc left) :
    goRank env { g with pc := pc } < goRank env g := by
  simp only [goRank, attemptsLeft, hpc, hpc', if_false]
  exact hlt _

/-- A round inside a limiter changes nothing that others depend on. It is the only kind of step that
can be repeated. -/
theorem sameView_round {s : State B} {i : Nat} {g : Goroutine} (hg : s.gos[i]? = some g)
    {pc : TaskPc} (hpc : inLimiter g.pc = true) (hstage : stage pc = stage g.pc) :
    (s.gos.set i { g with pc := pc }).map (fun g => stage g.pc)
        = s.gos.map (fun g => stage g.pc) ∧
      goRank env { g with pc := pc } = goRank env g := by
  refine ⟨map_set_of_eq _ hg hstage, ?_⟩
  -- Within one stage the rank does not tell the states of the wait apart.
  have hrank : ∀ left, waitRank pc left = waitRank g.pc left := by
    intro left
    cases hp : g.pc <;> cases pc <;> simp_all [stage, waitRank, inLimiter]
  have hne : g.pc ≠ .resolve := by
    intro h
    simp [h, inLimiter, stage] at hpc
  have hne' : pc ≠ .resolve := by
    rintro rfl
    rw [inLimiter, ← hstage] at hpc
    simp [stage] at hpc
  simp only [goRank, attemptsLeft, hne, hne', if_false]
  exact hrank _

/-- A step of a task goroutine lowers its rank, unless it is a round inside a limiter. -/
theorem TaskStep.lowers {s s' : State B} {i : Nat} {g : Goroutine} {a : TaskAction}
    (hg : s.gos[i]? = some g) (h : TaskStep env s i g a s') :
    ∃ g', s'.gos = s.gos.set i g' ∧ s'.main = s.main ∧
      (goRank env g' < goRank env g ∨
        (goRank env g' = goRank env g ∧ inLimiter g.pc = true ∧ SameView s s')) := by
  cases h with
  | resolve hpc => exact ⟨_, rfl, rfl, Or.inl (goRank_resolveInputs hpc _)⟩
  | takeSlot hpc _ =>
      exact ⟨_, rfl, rfl, Or.inl (goRank_move (by simp [hpc]) (by simp)
        fun left => by simp [hpc, waitRank])⟩
  | cancelSlot hpc _ =>
      refine ⟨_, rfl, rfl, Or.inl ?_⟩
      show 1 < _
      simp [goRank, waitRank, hpc]
      omega
  | grantGlobal b hpc _ =>
      refine ⟨_, rfl, rfl, Or.inl (goRank_move (by simp [hpc]) ?_ fun left => ?_)⟩
      · rcases afterGlobal_pc g s.provLimiters with h | h <;> simp [h]
      · rcases afterGlobal_pc g s.provLimiters with h | h <;> simp [h, hpc, waitRank]
  | denyGlobal b hpc _ =>
      -- A refused round and its timer lead back to where they began, so only the view can be kept.
      obtain ⟨hview, hrank⟩ := @sameView_round _ env s i g hg .globalWait
        (by simp [hpc, inLimiter, stage]) (by simp [hpc, stage])
      exact ⟨_, rfl, rfl, Or.inr ⟨hrank, by simp [hpc, inLimiter, stage], rfl, rfl, rfl, hview⟩⟩
  | grantProvider b b' hpc _ _ =>
      exact ⟨_, rfl, rfl, Or.inl (goRank_move (by simp [hpc]) (by simp)
        fun left => by simp [hpc, waitRank])⟩
  | denyProvider b b' hpc _ _ =>
      obtain ⟨hview, hrank⟩ := @sameView_round _ env s i g hg .providerWait
        (by simp [hpc, inLimiter, stage]) (by simp [hpc, stage])
      exact ⟨_, rfl, rfl, Or.inr ⟨hrank, by simp [hpc, inLimiter, stage], rfl, rfl, rfl, hview⟩⟩
  | timerGlobal hpc =>
      obtain ⟨hview, hrank⟩ := @sameView_round _ env s i g hg .global
        (by simp [hpc, inLimiter, stage]) (by simp [hpc, stage])
      exact ⟨_, rfl, rfl, Or.inr ⟨hrank, by simp [hpc, inLimiter, stage], rfl, rfl, rfl, hview⟩⟩
  | timerProvider hpc =>
      obtain ⟨hview, hrank⟩ := @sameView_round _ env s i g hg .provider
        (by simp [hpc, inLimiter, stage]) (by simp [hpc, stage])
      exact ⟨_, rfl, rfl, Or.inr ⟨hrank, by simp [hpc, inLimiter, stage], rfl, rfl, rfl, hview⟩⟩
  | cancelWait hpc _ =>
      refine ⟨_, rfl, rfl, Or.inl ?_⟩
      show 1 < _
      rcases hpc with hpc | hpc <;> simp [goRank, waitRank, hpc] <;> omega
  | call hpc =>
      exact ⟨_, rfl, rfl, Or.inl (goRank_move (by simp [hpc]) (by simp)
        fun left => by simp [hpc, waitRank])⟩
  | ret res err hpc => exact ⟨_, rfl, rfl, Or.inl (goRank_afterExecute hpc _ _ _)⟩
  | wake hpc => exact ⟨_, rfl, rfl, Or.inl (goRank_wake hpc _)⟩
  | send hpc _ =>
      exact ⟨_, rfl, rfl, Or.inl (goRank_move (by simp [hpc]) (by simp)
        fun left => by simp [hpc, waitRank])⟩

/-- Every step lowers the rank, except a round inside a limiter, a cancellation and the
passing of time, which keep the rank and the view. -/
theorem step_rank (hacc : Accepted env.wf) {s s' : State B} {a : Action} (h : RunInv env s)
    (hh : History s) (hs : env.step? s a = some s') :
    rank env s' < rank env s ∨
      (rank env s' = rank env s ∧ SameView s s' ∧ a ≠ .main ∧
        ∀ i b, a = .task i b → ∃ g, s.gos[i]? = some g ∧ inLimiter g.pc = true) := by
  have h' := h.step hacc hs
  have hh' := hh.step hacc h hs
  rcases step_inv hs with ⟨-, hm⟩ | ⟨i, b, g, rfl, hg, ht⟩ | ⟨rfl, rfl⟩ | ⟨d, rfl, rfl⟩
  · exact Or.inl (hm.rank_lt hacc h' hh')
  · -- A step of a task changes the rank of its own goroutine only, so the sum changes by the
    -- difference.
    obtain ⟨g', hgos, hmain, hrank⟩ := ht.lowers hg
    have hsum := @sum_map_set _ (goRank env) s.gos i g g' hg
    have hrest : rank env s' + (s.gos.map (goRank env)).sum
        = rank env s + (s'.gos.map (goRank env)).sum := by
      simp only [rank, completions, hmain, hgos, List.length_set]
      omega
    rw [hgos] at hrest
    rcases hrank with hlt | ⟨heq, hlim, hview⟩
    · left
      omega
    · refine Or.inr ⟨by omega, hview, by simp, ?_⟩
      intro j b' hj
      cases hj
      exact ⟨g, hg, hlim⟩
  · exact Or.inr ⟨rfl, ⟨rfl, rfl, rfl, rfl⟩, by simp, by simp⟩
  · exact Or.inr ⟨rfl, ⟨rfl, rfl, rfl, rfl⟩, by simp, by simp⟩

/-! ### Slots -/

/-- A goroutine between its slot and its release. It holds the slot while it waits for a token, and
over all attempts of a call. -/
def holdsSlot (g : Goroutine) : Bool :=
  match g.pc with
  | .global | .globalWait | .provider | .providerWait | .call | .exec => true
  | _ => false

/-- `sem` counts the goroutines that hold a slot. -/
def SemOk (s : State B) : Prop := s.sem = s.gos.countP holdsSlot

/-- A step of a task goroutine keeps `SemOk`: it takes a slot and then holds it, or gives it
back. -/
theorem SemOk.taskStep {s s' : State B} {i : Nat} {g : Goroutine} {a : TaskAction}
    (hsem : SemOk s) (hg : s.gos[i]? = some g) (h : TaskStep env s i g a s') : SemOk s' := by
  have hset := fun g' : Goroutine => @countP_set_add _ holdsSlot s.gos i g g' hg
  -- A move that neither takes nor releases a slot.
  have hkeep : ∀ g' : Goroutine, holdsSlot g' = holdsSlot g →
      s.sem = (s.gos.set i g').countP holdsSlot := by
    intro g' hg'
    have := hset g'
    rw [hg'] at this
    rw [hsem]
    omega
  have hrelease : ∀ g' : Goroutine, holdsSlot g = true → holdsSlot g' = false →
      s.sem - 1 = (s.gos.set i g').countP holdsSlot := by
    intro g' hon hoff
    have := hset g'
    simp only [hon, hoff, if_true, Bool.false_eq_true, if_false] at this
    rw [hsem]
    omega
  cases h with
  | resolve hpc =>
      refine hkeep _ ?_
      rcases resolveInputs_pc env g s.clock with h | h <;> simp [holdsSlot, h, hpc]
  | takeSlot hpc _ =>
      have hadd := hset { g with pc := .global }
      simp only [holdsSlot, hpc, Bool.false_eq_true, if_false, if_true] at hadd
      show s.sem + 1 = (s.gos.set i _).countP holdsSlot
      rw [hsem]
      omega
  | cancelSlot hpc _ => exact hkeep _ (by simp [holdsSlot, hpc])
  | grantGlobal b hpc _ =>
      refine hkeep _ ?_
      rcases afterGlobal_pc g s.provLimiters with h | h <;> simp [holdsSlot, h, hpc]
  | denyGlobal b hpc _ => exact hkeep _ (by simp [holdsSlot, hpc])
  | grantProvider b b' hpc _ _ => exact hkeep _ (by simp [holdsSlot, hpc])
  | denyProvider b b' hpc _ _ => exact hkeep _ (by simp [holdsSlot, hpc])
  | timerGlobal hpc => exact hkeep _ (by simp [holdsSlot, hpc])
  | timerProvider hpc => exact hkeep _ (by simp [holdsSlot, hpc])
  | cancelWait hpc _ =>
      exact hrelease _ (by rcases hpc with hpc | hpc <;> simp [holdsSlot, hpc])
        (by simp [holdsSlot])
  | call hpc => exact hkeep _ (by simp [holdsSlot, hpc])
  | ret res err hpc =>
      refine hrelease _ (by simp [holdsSlot, hpc]) ?_
      rcases afterExecute_pc env g s.clock res err with h | h <;> simp [holdsSlot, h]
  | wake hpc =>
      refine hkeep _ ?_
      rcases enterAttempt_pc env g s.clock (g.span.attempts + 1) with h | h <;>
        simp [holdsSlot, h, hpc]
  | send hpc _ => exact hkeep _ (by simp [holdsSlot, hpc])

/-- `SemOk` holds in every reachable state. -/
theorem reachable_semOk {s : State B} (hs : env.system.Reachable s) : SemOk s := by
  refine hs.holds (rfl : SemOk env.initial) fun s a s' _ hsem ha => ?_
  rcases step_inv ha with ⟨-, hm⟩ | ⟨i, b, g, -, hg, ht⟩ | ⟨-, rfl⟩ | ⟨d, -, rfl⟩
  · have hsame : s'.sem = s.sem := by cases hm <;> rfl
    rcases hm.gos with hgos | ⟨t, hgos⟩
    · rw [SemOk, hsame, hgos]
      exact hsem
    · rw [SemOk, hsame, hgos, List.countP_append]
      exact hsem
  · exact hsem.taskStep hg ht
  · exact hsem
  · exact hsem

/-! ### Where goroutines can be stuck -/

/-- The main goroutine waits for a span and `doneCh` has none. It is the only way in which it cannot
move, and then some goroutine can. -/
structure Blocked (s : State B) : Prop where
  pc : s.main.pc = .recv ∨ s.main.pc = .drain
  in_flight : 0 < s.main.inFlight
  empty : s.doneCh = []

/-- The main goroutine can step, unless it has returned or is blocked. Everything that it looks up
in the course of its steps is there by the invariant. -/
theorem main_blocked (hacc : Accepted env.wf) {s : State B} (h : RunInv env s)
    (hnone : env.mainStep s = none) (hrep : s.report? = none) : Blocked s := by
  have hphase := h.phase
  rw [Phase] at hphase
  cases hpc : s.main.pc with
  | head => simp [mainStep, hpc] at hnone; split at hnone <;> cases hnone
  | dispatch =>
      -- Every queued id is a task.
      rw [mainStep, hpc] at hnone
      cases hready : s.main.ready with
      | nil => simp [hready] at hnone
      | cons tid rest =>
          have hmem : tid ∈ env.wf.ids := h.safe.mem tid (by simp [ledger, hready])
          obtain ⟨t, ht, hid⟩ := List.mem_map.mp hmem
          simp [hready, hacc.taskMap_iff.mpr ⟨ht, hid⟩] at hnone
  | recv =>
      rw [hpc] at hphase
      cases hch : s.doneCh with
      | nil => exact ⟨Or.inl hpc, hphase.2.2, hch⟩
      | cons span rest =>
          obtain ⟨-, hmem, -⟩ := h.head_span hch
          obtain ⟨t, ht, hid⟩ := List.mem_map.mp hmem
          have ht' := hacc.taskMap_iff.mpr ⟨ht, hid⟩
          simp only [mainStep, hpc, hch, receive, ht'] at hnone
          split at hnone
          · cases hnone
          · simp only [Option.bind_eq_bind, Option.bind_some] at hnone
            split at hnone <;> cases hnone
  | drain =>
      by_cases hf : 0 < s.main.inFlight
      · cases hch : s.doneCh with
        | nil => exact ⟨Or.inr hpc, hf, hch⟩
        | cons span rest => simp [mainStep, hpc, hf, hch] at hnone
      · simp [mainStep, hpc, hf] at hnone
  | finish => simp [mainStep, hpc] at hnone
  | returned rep => simp [State.report?, hpc] at hrep

/-- A blocked main goroutine waits for a task goroutine that is still running. -/
theorem Blocked.running {s : State B} (hb : Blocked s) (h : RunInv env s) :
    ∃ g ∈ s.gos, g.pc ≠ .done := by
  obtain ⟨g, hg, hnone⟩ := h.flight.exists_unrecorded hb.in_flight
  refine ⟨g, hg, fun hpc => ?_⟩
  rcases h.flight.sent g hg hpc with hsent | hsent
  · rw [hb.empty] at hsent
    cases hsent
  · rw [hnone] at hsent
    cases hsent

/-- The waits that end without the help of another goroutine. -/
def isFree : TaskPc → Bool
  | .resolve | .call | .exec | .sleep | .send => true
  | _ => false

/-- A goroutine at such a wait can step; `doneCh` has room for its span. -/
theorem free_enabled {s : State B} (h : RunInv env s) {i : Nat} {g : Goroutine}
    (hg : s.gos[i]? = some g) (hpc : isFree g.pc = true) :
    ∃ a, (env.step? s (.task i a)).isSome = true := by
  cases hp : g.pc with
  | resolve => exact ⟨.resolve, by simp [step?, hg, taskStep, hp]⟩
  | call => exact ⟨.call, by simp [step?, hg, taskStep, hp]⟩
  | exec => exact ⟨.ret {} none, by simp [step?, hg, taskStep, hp]⟩
  | sleep => exact ⟨.wake, by simp [step?, hg, taskStep, hp]⟩
  | send =>
      -- The channel has room for all tasks, and it never holds two spans of one task.
      have hsub : (s.doneCh.map (·.id)) ⊆ goIds s.gos := by
        intro id hid
        obtain ⟨sp, hsp, rfl⟩ := List.mem_map.mp hid
        obtain ⟨-, g', hg', -, rfl⟩ := h.flight.chan sp hsp
        rw [h.flight.span_id g' hg']
        exact List.mem_map_of_mem hg'
      have hlen := (List.subperm_of_subset h.flight.chan_nodup hsub).length_le
      rw [List.length_map, goIds, List.length_map] at hlen
      have hroom : s.doneCh.length < env.wf.tasks.length + 4 := by
        have := h.gos_length
        omega
      exact ⟨.send, by simp [step?, hg, taskStep, hp, hroom]⟩
  | slot => simp [isFree, hp] at hpc
  | global => simp [isFree, hp] at hpc
  | globalWait => simp [isFree, hp] at hpc
  | provider => simp [isFree, hp] at hpc
  | providerWait => simp [isFree, hp] at hpc
  | done => simp [isFree, hp] at hpc

end Orchestrator.Proofs
