import Mathlib.Algebra.Order.BigOperators.Group.List
import Orchestrator.Proofs.RunnerBuckets
import Orchestrator.Proofs.RunnerInv

/-!
# `Orchestrator.Proofs.RunnerProgress`: a rank that the steps of a Python run lower

`rank env s` bounds the work left in a run: the tasks still to start, the futures still to visit,
and for each coroutine the attempts it has left and the waits left in its attempt. `step_rank` says
that every step lowers the rank, except the `Quiet` ones: the rounds inside a bucket, the end of a
thread and the passing of time.

A start pays for the coroutine and for the visit of its future, so that the sum falls although a
coroutine is added. A cancellation does not raise the rank either: it ends a wait, and a coroutine
that is asked to stop has less before it than one that goes on.

`main_blocked` and `free_enabled` say where `run` and a coroutine cannot step. `run` is blocked when
it waits and nothing it waits for has come; then it lets the coroutines step, and one of them is not
done (`Blocked.waiting`). A coroutine at a wait that ends without the help of another one can step
whenever `run` lets it.
-/

set_option autoImplicit false

namespace Orchestrator.Sdk.Runner

open Orchestrator.Lib Env

variable {env : Env}

/-! ### The rank -/

/-- The attempts that the retry policy of a task allows. -/
def attemptBound (env : Env) (t : Task) : Int := (effectiveRetry env.wf t).max + 1

/-- The waits a coroutine has before it, when `left` attempts remain after the current one. -/
def waitRank : CoroPc → Nat → Nat
  | .start, left => 9 + 8 * left
  | .slot, left => 8 + 8 * left
  | .global, left => 7 + 8 * left
  | .globalSleep, left => 7 + 8 * left
  | .provider, left => 6 + 8 * left
  | .providerSleep, left => 6 + 8 * left
  | .invoke, left => 5 + 8 * left
  | .handler, left => 4 + 8 * left
  | .lost, left => 3 + 8 * left
  | .backoff, left => 2 + 8 * left
  | .returned, _ => 0
  | .raised _, _ => 0
  | .cancelled, _ => 0

/-- The attempts left after the current one. Before the first attempt all of them are. -/
def attemptsLeft (env : Env) (c : Coro) : Nat :=
  if c.pc = .start then (attemptBound env c.task).toNat
  else (attemptBound env c.task - c.span.attempts).toNat

/-- The rank of a coroutine. -/
def coroRank (env : Env) (c : Coro) : Nat := waitRank c.pc (attemptsLeft env c)

/-- The rank of a coroutine at its start. -/
def taskRank (env : Env) (t : Task) : Nat := 9 + 8 * (attemptBound env t).toNat

/-- The steps of `run` up to the next start of a task or the next visit of a future. -/
def mainRank : MainPc → Nat
  | .start => 8
  | .process [] => 7
  | .head => 6
  | .dispatch => 5
  | .wait => 4
  | .process (_ :: _) => 3
  | .cancelWait => 2
  | .finish => 1
  | .returned _ => 0
  | .raised _ => 0

/-- The rank of a state. The start of a task pays for its coroutine and for the visit of its
future. -/
def rank (env : Env) (s : State) : Nat :=
  (9 + (env.wf.tasks.map (taskRank env)).sum) * (env.wf.tasks.length - s.coros.length) +
    8 * s.main.running.length + mainRank s.main.pc + (s.coros.map (coroRank env)).sum

/-- No more tasks are started than there are. -/
theorem RunInv.coros_length {s : State} (h : RunInv env s) :
    s.coros.length ≤ env.wf.tasks.length := by
  have hsub : coroIds s.coros ⊆ env.wf.ids := by
    intro id hid
    obtain ⟨c, hc, rfl⟩ := List.mem_map.mp hid
    exact List.mem_map_of_mem (h.task_mem c hc)
  have hnd : (coroIds s.coros).Nodup := List.Nodup.of_append_left h.safe.nodup
  have hle := (List.subperm_of_subset hnd hsub).length_le
  simpa [coroIds, Workflow.ids] using hle

/-- The last visit of a wake leads back to the head of the loop. -/
theorem mainRank_process_le (rest : List Nat) : mainRank (.process rest) ≤ 7 := by
  cases rest with
  | nil => exact le_refl 7
  | cons i rest =>
      show 3 ≤ 7
      omega

/-- A request for cancellation keeps the rank of a coroutine. -/
theorem coroRank_cancelCoro (asked : List Nat) (coros : List Coro) :
    (coros.mapIdx (cancelCoro asked)).map (coroRank env) = coros.map (coroRank env) := by
  refine List.ext_getElem? fun i => ?_
  rw [List.getElem?_map, List.getElem?_mapIdx, List.getElem?_map]
  cases coros[i]? with
  | none => rfl
  | some c =>
      show some (coroRank env (cancelCoro asked i c)) = some (coroRank env c)
      unfold cancelCoro
      split <;> rfl

/-- The coroutines have the same ranks, and `run` gets further. -/
theorem rank_lt_of_main {s s' : State} (hlen : s'.coros.length = s.coros.length)
    (hcoros : s'.coros.map (coroRank env) = s.coros.map (coroRank env))
    (hmain : 8 * s'.main.running.length + mainRank s'.main.pc
      < 8 * s.main.running.length + mainRank s.main.pc) : rank env s' < rank env s := by
  rw [rank, rank, hlen, hcoros]
  omega

/-- A step of `run` lowers the rank. -/
theorem MainStepped.rank_lt (hacc : Accepted env.wf) {s s' : State} (h : Sound env s)
    (h' : Sound env s') (hs : MainStepped env s s') : rank env s' < rank env s := by
  -- A visit takes a future off the list.
  have hvisit : ∀ {i : Nat} {rest : List Nat} {c : Coro}, s.main.pc = .process (i :: rest) →
      s.coros[i]? = some c → (s.main.running.erase i).length + 1 = s.main.running.length := by
    intro i rest c hpc hi
    have hrun := ((h.live (by rw [hpc]; rfl)).head_future hpc hi).2.1
    rw [List.length_erase_of_mem hrun]
    have hpos := List.length_pos_of_mem hrun
    omega
  have hold : ∀ {pc : MainPc}, s.main.pc = pc → mainRank s.main.pc = mainRank pc :=
    congrArg mainRank
  cases hs with
  | refuse e hpc he => exact rank_lt_of_main rfl rfl (by simp [mainRank, hpc])
  | setup buckets hpc hb =>
      refine rank_lt_of_main rfl rfl ?_
      show 8 * 0 + 6 < _
      rw [hold hpc]
      show _ < _ + 8
      omega
  | enter hpc hor => exact rank_lt_of_main rfl rfl (by simp [mainRank, hpc])
  | leave hpc hready hrunning =>
      exact rank_lt_of_main rfl rfl (by rcases hpc with hpc | hpc <;> simp [mainRank, hpc])
  | suspend hpc hready hrunning => exact rank_lt_of_main rfl rfl (by simp [mainRank, hpc])
  | drop tid rest hpc hready hskip =>
      -- A queued task has no span, so it is not marked.
      have hinv := h.live (by rw [hpc]; rfl)
      have hphase := hinv.phase
      rw [Phase, hpc] at hphase
      have hqueued : tid ∈ (ledger s.main s.coros).ready := by simp [ledger, hready]
      have hnone := (hinv.books hphase.1).ready_unlabelled hqueued
      have hspan := hinv.skipped tid hskip
      rw [Dict.contains, statusOf_eq_none.mp hnone] at hspan
      cases hspan
  | dispatch tid rest t hpc hready hskip ht =>
      obtain ⟨htask, -⟩ := hacc.taskMap_iff.mp ht
      have hlen := (h'.live (by show s.main.pc.isLive = true; rw [hpc]; rfl)).coros_length
      have hle : taskRank env t ≤ (env.wf.tasks.map (taskRank env)).sum :=
        List.single_le_sum (fun _ _ => Nat.zero_le _) _ (List.mem_map_of_mem htask)
      have hnew : coroRank env (newCoro t s.clock) = taskRank env t := rfl
      simp only [List.length_append, List.length_singleton] at hlen
      -- One start fewer is left, and it pays for the coroutine and its visit.
      obtain ⟨k, hk⟩ : ∃ k, env.wf.tasks.length - s.coros.length = k + 1 :=
        ⟨env.wf.tasks.length - s.coros.length - 1, by omega⟩
      have hk' : env.wf.tasks.length - (s.coros.length + 1) = k := by omega
      simp only [rank, List.length_append, List.length_singleton, hk, hk', List.map_append,
        List.sum_append, List.map_singleton, List.sum_singleton, hnew, Nat.mul_succ]
      omega
  | next hpc => exact rank_lt_of_main rfl rfl (by simp [mainRank, hpc])
  | succeeded i rest c hpc hi hdone hst =>
      refine rank_lt_of_main rfl rfl ?_
      show 8 * (s.main.running.erase i).length + mainRank (.process rest) < _
      have hlen := hvisit hpc hi
      have hmain := mainRank_process_le rest
      omega
  | «continue» i rest c t hpc hi hdone hst ht hpol =>
      refine rank_lt_of_main rfl rfl ?_
      show 8 * (s.main.running.erase i).length + mainRank (.process rest) < _
      have hlen := hvisit hpc hi
      have hmain := mainRank_process_le rest
      omega
  | failFast i rest c t hpc hi hdone hst ht hpol hlast =>
      refine rank_lt_of_main rfl rfl ?_
      show 8 * 0 + 1 < _
      rw [hold hpc]
      show _ < _ + 3
      omega
  | cancelAll i rest c t hpc hi hdone hst ht hpol hmore =>
      refine rank_lt_of_main (List.length_mapIdx) (coroRank_cancelCoro _ _) ?_
      show 8 * (s.main.running.erase i).length + 2 < _
      have hlen := hvisit hpc hi
      omega
  | raise i rest c e hpc hi hdone =>
      refine rank_lt_of_main rfl rfl ?_
      show 8 * (s.main.running.erase i).length + 0 < _
      have hlen := hvisit hpc hi
      omega
  | abandon hpc hall =>
      refine rank_lt_of_main rfl rfl ?_
      show 8 * 0 + 1 < _
      rw [hold hpc]
      show _ < _ + 2
      omega
  | finish hpc => exact rank_lt_of_main rfl rfl (by simp [mainRank, hpc])

/-! ### Coroutines -/

/-- The wait a coroutine is at, where a round inside a bucket counts as one wait. -/
def stage : CoroPc → CoroPc
  | .globalSleep => .global
  | .providerSleep => .provider
  | pc => pc

/-- The coroutine is in a call of `acquire`. -/
def inAcquire (pc : CoroPc) : Bool := stage pc = .global ∨ stage pc = .provider

/-- What the rounds inside a bucket leave alone in a coroutine. -/
def seen (c : Coro) : CoroPc × Bool × Task := (stage c.pc, c.cancelRequested, c.task)

/-- The parts of a state that the steps outside the buckets depend on are the same. -/
structure SameView (s s' : State) : Prop where
  main : s'.main = s.main
  sem : s'.sem = s.sem
  coros : s'.coros.map seen = s.coros.map seen

/-- A state and itself. -/
theorem SameView.refl (s : State) : SameView s s := ⟨rfl, rfl, rfl⟩

/-- One step after another that leaves the view alone. -/
theorem SameView.trans {s s' s'' : State} (h : SameView s s') (h' : SameView s' s'') :
    SameView s s'' :=
  ⟨h'.main.trans h.main, h'.sem.trans h.sem, h'.coros.trans h.coros⟩

/-- A coroutine that is not done has a wait before it. -/
theorem coroRank_pos {c : Coro} (h : c.pc.isDone = false) : 0 < coroRank env c := by
  unfold coroRank
  cases hpc : c.pc <;> simp only [hpc, CoroPc.isDone, waitRank] at h ⊢ <;> first | omega | cases h

/-- The head of the attempt loop leaves less than the wait before it. -/
theorem coroRank_enterAttempt (c : Coro) (attempt : Int) (now : Nat) :
    coroRank env (env.enterAttempt c attempt now) = 0 ∨
      (attempt ≤ attemptBound env c.task ∧ coroRank env (env.enterAttempt c attempt now)
        = 8 + 8 * (attemptBound env c.task - attempt).toNat) := by
  rcases enterAttempt_cases env c now attempt with ⟨hlt, h⟩ | ⟨-, h⟩
  · refine Or.inr ⟨?_, ?_⟩
    · unfold attemptBound
      omega
    · rw [h]
      simp [coroRank, attemptsLeft, waitRank]
  · rw [h]
    exact Or.inl rfl

/-- The start of a coroutine lowers its rank. -/
theorem coroRank_start {c : Coro} (hpc : c.pc = .start) (inputs results : Dict String Json)
    (now : Nat) : coroRank env (env.startTask c inputs results now) < coroRank env c := by
  have hc : coroRank env c = 9 + 8 * (attemptBound env c.task).toNat := by
    simp [coroRank, attemptsLeft, waitRank, hpc]
  rcases startTask_cases env c now inputs results with ⟨e, -, h⟩ | ⟨r, -, h⟩
  · rw [h, hc]
    show 0 < _
    omega
  · rw [h, hc]
    have hentry : coroRank env (env.enterAttempt (firstAttempt c now r) 1 now) = 0 ∨
        (1 ≤ attemptBound env c.task ∧
          coroRank env (env.enterAttempt (firstAttempt c now r) 1 now)
            = 8 + 8 * (attemptBound env c.task - 1).toNat) :=
      coroRank_enterAttempt _ 1 now
    rcases hentry with h1 | ⟨hle, h1⟩ <;> rw [h1] <;> omega

/-- The end of a backoff sleep lowers the rank of a coroutine. -/
theorem coroRank_wake {c : Coro} (hpc : c.pc = .backoff) (now : Nat) :
    coroRank env (env.enterAttempt c (c.span.attempts + 1) now) < coroRank env c := by
  have hc : coroRank env c = 2 + 8 * (attemptBound env c.task - c.span.attempts).toNat := by
    simp [coroRank, attemptsLeft, waitRank, hpc]
  rw [hc]
  rcases @coroRank_enterAttempt env c (c.span.attempts + 1) now with h | ⟨hle, h⟩ <;> rw [h] <;>
    omega

/-- A failed attempt leaves the waits from the backoff sleep on. -/
theorem coroRank_failAttempt_le (c : Coro) (ctx : SkillContext) (err : String) (now : Nat) :
    coroRank env (env.failAttempt c ctx err now)
      ≤ 2 + 8 * (attemptBound env c.task - c.span.attempts).toNat := by
  rcases failAttempt_cases env c now ctx err with ⟨d, -, -, h⟩ | ⟨e, -, -, h⟩ | ⟨-, h⟩ <;> rw [h]
  · simp [coroRank, attemptsLeft, waitRank]
  · exact Nat.zero_le _
  · exact Nat.zero_le _

/-- A move to another wait of the same attempt. -/
theorem coroRank_move {c : Coro} {pc : CoroPc} (hpc : c.pc ≠ .start) (hpc' : pc ≠ .start)
    (hlt : ∀ left, waitRank pc left < waitRank c.pc left) :
    coroRank env { c with pc := pc } < coroRank env c := by
  simp only [coroRank, attemptsLeft, hpc, hpc', if_false]
  exact hlt _

/-- An attempt that fails lowers the rank of its coroutine. -/
theorem coroRank_failAttempt {c : Coro} (hpc : c.pc ≠ .start)
    (hlt : ∀ left, 2 + 8 * left < waitRank c.pc left) (ctx : SkillContext) (err : String)
    (now : Nat) : coroRank env (env.failAttempt c ctx err now) < coroRank env c := by
  have hle := @coroRank_failAttempt_le env c ctx err now
  have hc : coroRank env c
      = waitRank c.pc (attemptBound env c.task - c.span.attempts).toNat := by
    simp [coroRank, attemptsLeft, hpc]
  rw [hc]
  exact hle.trans_lt (hlt _)

/-- The end of a handler lowers the rank of its coroutine. -/
theorem coroRank_afterInvoke {c : Coro} (hpc : c.pc = .handler) (ctx : SkillContext)
    (out : Outcome) (now : Nat) :
    coroRank env (env.afterInvoke c ctx out now) < coroRank env c := by
  have hpos : 0 < coroRank env c := coroRank_pos (by rw [hpc]; rfl)
  rcases afterInvoke_cases env c now ctx out with
    ⟨o, -, h⟩ | ⟨-, h⟩ | ⟨type, exits, -, h⟩ | ⟨err, -, -, h⟩ <;> rw [h]
  · exact hpos
  · exact hpos
  · exact hpos
  · refine coroRank_failAttempt (by simp [hpc]) (fun left => ?_) ctx err now
    rw [hpc]
    show _ < 4 + 8 * left
    omega

/-- A round inside a bucket. -/
theorem sameView_round {s : State} {i : Nat} {c : Coro} (hi : s.coros[i]? = some c) {pc : CoroPc}
    (hpc : inAcquire c.pc = true) (hstage : stage pc = stage c.pc) :
    (s.coros.set i { c with pc := pc }).map seen = s.coros.map seen ∧
      coroRank env { c with pc := pc } = coroRank env c := by
  refine ⟨map_set_of_eq _ hi (by rw [seen, seen, hstage]), ?_⟩
  have hrank : ∀ left, waitRank pc left = waitRank c.pc left := by
    intro left
    cases hp : c.pc <;> cases pc <;> simp_all [stage, waitRank, inAcquire]
  have hne : c.pc ≠ .start := by
    intro h
    simp [h, inAcquire, stage] at hpc
  have hne' : pc ≠ .start := by
    rintro rfl
    rw [inAcquire, ← hstage] at hpc
    simp [stage] at hpc
  simp only [coroRank, attemptsLeft, hne, hne', if_false]
  exact hrank _

/-- A round inside a bucket: the bucket refuses, or the sleep after a refusal ends. -/
structure Round (env : Env) (s : State) (c : Coro) (a : CoroAction) (c' : Coro) : Prop where
  no_request : c.cancelRequested = false
  cases : (a = .acquire ∧ refused env s c = true) ∨
    (a = .timer ∧ throttled c = true ∧ throttled c' = false)

/-- A step of a coroutine lowers its rank, unless it is a round inside a bucket. -/
theorem CoroStep.lowers {s s' : State} {i : Nat} {c : Coro} {a : CoroAction}
    (hi : s.coros[i]? = some c) (h : CoroStep env s i c a s') :
    ∃ c', s'.coros = s.coros.set i c' ∧ s'.main = s.main ∧
      (coroRank env c' < coroRank env c ∨
        (coroRank env c' = coroRank env c ∧ Round env s c a c' ∧ SameView s s')) := by
  -- The rounds inside a bucket.
  have hround : ∀ {pc pc' : CoroPc}, c.pc = pc → inAcquire pc = true → stage pc' = stage pc →
      (s.coros.set i { c with pc := pc' }).map seen = s.coros.map seen ∧
        coroRank env { c with pc := pc' } = coroRank env c := by
    rintro _ pc' rfl hpc hstage
    exact sameView_round hi hpc hstage
  cases h with
  | start hpc hcr => exact ⟨_, rfl, rfl, Or.inl (coroRank_start hpc _ _ _)⟩
  | acquireSlot hpc hcr hfree =>
      exact ⟨_, rfl, rfl, Or.inl (coroRank_move (by simp [hpc]) (by simp)
        fun left => by simp [hpc, waitRank])⟩
  | grantGlobal b hpc hcr hb =>
      refine ⟨_, rfl, rfl, Or.inl (coroRank_move (by simp [hpc]) ?_ fun left => ?_)⟩
      · rcases afterGlobal_pc c with h | h <;> simp [h]
      · rcases afterGlobal_pc c with h | h <;> simp [h, hpc, waitRank]
  | denyGlobal b hpc hcr hb =>
      obtain ⟨hview, hrank⟩ := @hround _ .globalSleep hpc rfl rfl
      exact ⟨_, rfl, rfl, Or.inr ⟨hrank, ⟨hcr, Or.inl ⟨rfl, by simp [refused, isRefused, hpc, hb]⟩⟩,
        rfl, rfl, hview⟩⟩
  | grantProvider b hpc hcr hb =>
      exact ⟨_, rfl, rfl, Or.inl (coroRank_move (by simp [hpc]) (by simp)
        fun left => by simp [hpc, waitRank])⟩
  | denyProvider b hpc hcr hb =>
      obtain ⟨hview, hrank⟩ := @hround _ .providerSleep hpc rfl rfl
      exact ⟨_, rfl, rfl, Or.inr ⟨hrank, ⟨hcr, Or.inl ⟨rfl, by simp [refused, isRefused, hpc, hb]⟩⟩,
        rfl, rfl, hview⟩⟩
  | acquireError e hcr he =>
      refine ⟨_, rfl, rfl, Or.inl (coroRank_failAttempt ?_ (fun left => ?_) _ _ _)⟩
      · rcases he with ⟨hpc, -⟩ | ⟨hpc, -⟩ <;> simp [hpc]
      · rcases he with ⟨hpc, -⟩ | ⟨hpc, -⟩ <;> simp [hpc, waitRank]
  | timerGlobal hpc hcr =>
      obtain ⟨hview, hrank⟩ := @hround _ .global hpc rfl rfl
      exact ⟨_, rfl, rfl, Or.inr ⟨hrank, ⟨hcr, Or.inr ⟨rfl, by simp [throttled, hpc], rfl⟩⟩,
        rfl, rfl, hview⟩⟩
  | timerProvider hpc hcr =>
      obtain ⟨hview, hrank⟩ := @hround _ .provider hpc rfl rfl
      exact ⟨_, rfl, rfl, Or.inr ⟨hrank, ⟨hcr, Or.inr ⟨rfl, by simp [throttled, hpc], rfl⟩⟩,
        rfl, rfl, hview⟩⟩
  | noSkill hpc hcr hk =>
      exact ⟨_, rfl, rfl, Or.inl (coroRank_failAttempt (by simp [hpc])
        (fun left => by simp [hpc, waitRank]) _ _ _)⟩
  | invoke kind hpc hcr hk =>
      exact ⟨_, rfl, rfl, Or.inl (coroRank_move (by simp [hpc]) (by simp)
        fun left => by simp [hpc, waitRank])⟩
  | finish ctx out hpc hcr => exact ⟨_, rfl, rfl, Or.inl (coroRank_afterInvoke hpc _ _ _)⟩
  | lose hpc hcr hk =>
      exact ⟨_, rfl, rfl, Or.inl (coroRank_move (by simp [hpc]) (by simp)
        fun left => by simp [hpc, waitRank])⟩
  | timeout ctx hpc hcr ht =>
      refine ⟨_, rfl, rfl, Or.inl (coroRank_failAttempt ?_ (fun left => ?_) _ _ _)⟩
      · rcases hpc with hpc | hpc <;> simp [hpc]
      · rcases hpc with hpc | hpc <;> simp [hpc, waitRank]
  | wake hpc hcr => exact ⟨_, rfl, rfl, Or.inl (coroRank_wake hpc _)⟩
  | cancelOutside ctx hpc hcr =>
      refine ⟨_, rfl, rfl, Or.inl (coroRank_pos ?_)⟩
      rcases hpc with hpc | hpc <;> rw [hpc] <;> rfl
  | cancelSlot ctx hpc hcr => exact ⟨_, rfl, rfl, Or.inl (coroRank_pos (by rw [hpc]; rfl))⟩
  | cancelHolder ctx hpc hcr =>
      refine ⟨_, rfl, rfl, Or.inl (coroRank_pos ?_)⟩
      cases hp : c.pc <;> simp_all [CoroPc.holds, CoroPc.isDone]
  | cancelHandler ctx hpc hcr =>
      refine ⟨_, rfl, rfl, Or.inl (coroRank_pos ?_)⟩
      rcases hpc with hpc | hpc <;> rw [hpc] <;> rfl

/-- A step of `run`. -/
def ofRun : Action → Bool
  | .main | .wake _ => true
  | _ => false

/-- A step that moves nothing but the clock, a thread or a coroutine inside a bucket. -/
structure Quiet (env : Env) (s : State) (a : Action) (s' : State) : Prop where
  view : SameView s s'
  clock : s.clock ≤ s'.clock
  ready : ∀ key t, ReadyAt env s key t → ReadyAt env s' key t
  label : ofRun a = false
  coros : ((∀ i b, a ≠ .coro i b) ∧ s'.coros = s.coros) ∨
    ∃ (i : Nat) (b : CoroAction) (c c' : Coro), a = .coro i b ∧ s.coros[i]? = some c ∧
      s'.coros = s.coros.set i c' ∧ Round env s c b c'

/-- The passing of time and the end of a thread are quiet. -/
theorem Quiet.of_same {s s' : State} {a : Action} (hview : SameView s s')
    (hclock : s.clock ≤ s'.clock) (hbuckets : ∀ key, bucketAt s' key = bucketAt s key)
    (hlabel : ofRun a = false) (hcoro : ∀ i b, a ≠ .coro i b) (hcoros : s'.coros = s.coros) :
    Quiet env s a s' := by
  refine ⟨hview, hclock, fun key t h now hnow => ?_, hlabel, Or.inl ⟨hcoro, hcoros⟩⟩
  rw [hbuckets]
  exact h now ((max_le_max_left t hclock).trans hnow)

/-- Every step lowers the rank or is quiet. -/
theorem step_rank (hacc : Accepted env.wf) {s s' : State} {a : Action} (h : Sound env s)
    (hok : BucketsOk s) (hs : env.step? s a = some s') :
    rank env s' < rank env s ∨ (rank env s' = rank env s ∧ Quiet env s a s') := by
  have h' := h.step hacc hs
  cases step_inv hs with
  | main hm => exact Or.inl (hm.rank_lt hacc h h')
  | wake order hw =>
      refine Or.inl (rank_lt_of_main rfl rfl ?_)
      have hold : mainRank s.main.pc = 4 := by rw [hw.pc]; rfl
      have hnew : mainRank (.process order) = 3 := by
        cases horder : order with
        | nil => exact absurd horder hw.some_done
        | cons i rest => rfl
      show 8 * s.main.running.length + mainRank (.process order) < _
      omega
  | @coro i c b _ hi hy hstep =>
      obtain ⟨c', hcoros, hmain, hrank⟩ := hstep.lowers hi
      have hsum := @sum_map_set _ (coroRank env) s.coros i c c' hi
      have hrest : rank env s' + (s.coros.map (coroRank env)).sum
          = rank env s + (s'.coros.map (coroRank env)).sum := by
        simp only [rank, hmain, hcoros, List.length_set]
        omega
      rw [hcoros] at hrest
      -- A coroutine's step lowers its rank, except for the rounds of a refused limiter, which only
      -- time can end.
      rcases hrank with hlt | ⟨heq, hround, hview⟩
      · left
        omega
      · have hclock : s'.clock = s.clock := by cases hstep <;> rfl
        have hrefused : b = .acquire → refused env s c = true := by
          rintro rfl
          rcases hround.cases with ⟨-, h⟩ | ⟨h, -⟩
          · exact h
          · cases h
        exact Or.inr ⟨by omega, hview, hclock.ge,
          fun key t hready => hstep.readyAt hok hclock hrefused hready, rfl,
          Or.inr ⟨i, b, c, c', rfl, hi, hcoros, hround⟩⟩
  -- What happens outside the event loop leaves all ranks as they are.
  | threadEnd i attempt ho =>
      exact Or.inr ⟨rfl, .of_same ⟨rfl, rfl, rfl⟩ le_rfl (fun key => by cases key <;> rfl) rfl
        (fun _ _ h => by cases h) rfl⟩
  | cancel hpc =>
      refine Or.inl (rank_lt_of_main rfl rfl ?_)
      show 8 * s.main.running.length + 0 < _
      rcases hpc with hpc | hpc <;> rw [hpc] <;> simp [mainRank]
  | tick d =>
      exact Or.inr ⟨rfl, .of_same ⟨rfl, rfl, rfl⟩ (Nat.le_add_right _ _)
        (fun key => by cases key <;> rfl) rfl (fun _ _ h => by cases h) rfl⟩

/-! ### Where `run` can be stuck -/

/-- `run` can take a step. -/
def RunEnabled (env : Env) (s : State) : Prop :=
  (env.mainStep s).isSome = true ∨ ∃ order, (wakeStep s order).isSome = true

/-- `run` waits, and what it waits for has not come. -/
def Blocked (s : State) : Prop :=
  (s.main.pc = .wait ∧ doneFutures s = []) ∨ (s.main.pc = .cancelWait ∧ ¬ AllDone s)

/-- `run` can step, unless it has ended or is blocked. -/
theorem main_blocked (hacc : Accepted env.wf) {s : State} (h : Sound env s)
    (hstuck : ¬ RunEnabled env s) (hend : s.main.pc.isEnded = false) : Blocked s := by
  obtain ⟨hmain, hwake⟩ := not_or.mp hstuck
  have hnone : env.mainStep s = none := by simpa using hmain
  cases hpc : s.main.pc with
  | start =>
      rw [mainStep, hpc] at hnone
      simp only at hnone
      split at hnone <;> cases hnone
  | head =>
      rw [mainStep, hpc] at hnone
      simp only at hnone
      split at hnone <;> cases hnone
  | dispatch =>
      -- Every queued id is a task.
      have hinv := h.live (by rw [hpc]; rfl)
      rw [mainStep, hpc] at hnone
      cases hready : s.main.ready with
      | nil =>
          simp only [hready] at hnone
          split at hnone <;> cases hnone
      | cons tid rest =>
          have hmem : tid ∈ env.wf.ids := hinv.safe.mem tid (by simp [ledger, hready])
          obtain ⟨t, ht, hid⟩ := List.mem_map.mp hmem
          simp only [hready, hacc.taskMap_iff.mpr ⟨ht, hid⟩] at hnone
          split at hnone <;> cases hnone
  | wait =>
      refine Or.inl ⟨hpc, ?_⟩
      by_contra hne
      exact hwake ⟨doneFutures s, by simp [wakeStep, hpc, hne]⟩
  | process done =>
      cases done with
      | nil => simp [mainStep, hpc] at hnone
      | cons i rest =>
          -- The future is done, and its task is one of the workflow.
          have hinv := h.live (by rw [hpc]; rfl)
          have hphase := hinv.phase
          rw [Phase, hpc] at hphase
          obtain ⟨-, c, hi, hdone⟩ := hphase.2.2 i List.mem_cons_self
          obtain ⟨t, ht, hid⟩ := List.mem_map.mp (hinv.head_future hpc hi).2.2.2.1
          have ht' := hacc.taskMap_iff.mpr ⟨ht, hid⟩
          rw [mainStep, hpc] at hnone
          simp only [processFuture, hi, Option.bind_eq_bind, Option.bind_some] at hnone
          cases hcpc : c.pc <;> simp only [hcpc, reduceCtorEq] at hnone
          case returned =>
            simp only [processSpan, ht', Option.bind_eq_bind, Option.bind_some] at hnone
            split at hnone
            · cases hnone
            · split at hnone
              · split at hnone <;> cases hnone
              · cases hnone
          all_goals
            rw [hcpc] at hdone
            cases hdone
  | cancelWait =>
      refine Or.inr ⟨hpc, fun hall => ?_⟩
      have hall' : (s.main.running.all fun i => (s.coros[i]?).any fun c => c.pc.isDone) = true := by
        rw [List.all_eq_true]
        intro i hi
        obtain ⟨c, hc, hdone⟩ := hall i hi
        simp [hc, hdone]
      simp [mainStep, hpc, hall'] at hnone
  | finish => simp [mainStep, hpc] at hnone
  | returned rep =>
      rw [hpc] at hend
      cases hend
  | raised e =>
      rw [hpc] at hend
      cases hend

/-- Where `run` is blocked, it waits for a coroutine that is not done, and lets the coroutines
step. -/
theorem Blocked.waiting {s : State} (hb : Blocked s) (h : Sound env s) :
    s.main.pc.yields = true ∧
      ∃ (i : Nat) (c : Coro), s.coros[i]? = some c ∧ c.pc.isDone = false := by
  -- The main task is suspended in one of two places, and in both it waits for a future that is not
  -- done.
  rcases hb with ⟨hpc, hnone⟩ | ⟨hpc, hall⟩
  · refine ⟨by rw [hpc]; rfl, ?_⟩
    have hinv := h.live (by rw [hpc]; rfl)
    have hphase := hinv.phase
    rw [Phase, hpc] at hphase
    obtain ⟨i, hi⟩ := List.exists_mem_of_ne_nil _ hphase.2.2
    obtain ⟨c, hc, -⟩ := (hinv.futures (not_abandoned hphase.1)).waiting i hi
    refine ⟨i, c, hc, ?_⟩
    have hnot := (List.filter_eq_nil_iff.mp hnone) i hi
    simpa [hc] using hnot
  · refine ⟨by rw [hpc]; rfl, ?_⟩
    have hinv := h.live (by rw [hpc]; rfl)
    by_contra hnot
    refine hall fun i hi => ?_
    obtain ⟨c, hc, -⟩ := (hinv.futures fun hab => hab.2 hpc).waiting i hi
    refine ⟨c, hc, ?_⟩
    by_contra hdone
    exact hnot ⟨i, c, hc, by simpa using hdone⟩

/-- A coroutine that the first kind of wait holds for ever: it waits for a future that is never
done, and no timeout ends the wait. -/
def Coro.isLost (env : Env) (c : Coro) : Bool :=
  decide (c.pc = .lost) && (effectiveTimeout env.wf c.task).isNone

/-- The waits that end without the help of another coroutine, unless a cancellation ends them. -/
def isFree : CoroPc → Bool
  | .start | .invoke | .handler | .lost | .backoff => true
  | _ => false

/-- A coroutine at such a wait, or with a request to stop, can step where `run` lets it. -/
theorem free_enabled {s : State} {i : Nat} {c : Coro} (hi : s.coros[i]? = some c)
    (hstop : s.stopped = false) (hy : s.main.pc.yields = true) (hdone : c.pc.isDone = false)
    (hlost : c.isLost env = false) (hfree : isFree c.pc = true ∨ c.cancelRequested = true) :
    ∃ a, (env.step? s (.coro i a)).isSome = true := by
  have hstep : ∀ a, (env.coroStep s i c a).isSome = true →
      ∃ a, (env.step? s (.coro i a)).isSome = true := by
    intro a ha
    exact ⟨a, by simpa [step_of_running hstop, loopStep, hi, hy] using ha⟩
  -- A coroutine that was asked to cancel can always do so. Otherwise its own next step is enabled.
  cases hcr : c.cancelRequested with
  | true =>
      refine hstep (.cancel {}) ?_
      cases hpc : c.pc <;> simp_all [coroStep, CoroPc.isDone]
  | false =>
      have hfree : isFree c.pc = true := hfree.resolve_right (by simp [hcr])
      cases hpc : c.pc with
      | start => exact hstep .start (by simp [coroStep, hpc, hcr])
      | invoke =>
          refine hstep .invoke ?_
          simp only [coroStep, hpc, hcr, and_self, if_true]
          split <;> rfl
      | handler => exact hstep (.finish {} .timeoutError) (by simp [coroStep, hpc, hcr])
      | lost =>
          refine hstep (.timeout {}) ?_
          have htime : (effectiveTimeout env.wf c.task).isSome = true := by
            simpa [Coro.isLost, hpc, ← Option.isSome_iff_ne_none, Option.isSome_iff_exists,
              Option.eq_none_iff_forall_not_mem] using hlost
          simp [coroStep, hpc, hcr, htime]
      | backoff => exact hstep .wake (by simp [coroStep, hpc, hcr])
      | _ =>
          rw [hpc] at hfree
          cases hfree

end Orchestrator.Sdk.Runner
