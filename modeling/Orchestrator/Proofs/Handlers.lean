import Orchestrator.Lib.Loops
import Orchestrator.Proofs.RunnerData
import Orchestrator.Proofs.RunnerSlots

/-!
# `Orchestrator.Proofs.Handlers`: the handlers that execute in a Python run

The semaphore bounds the coroutines inside `async with sem`. A synchronous handler runs in a thread,
and when its coroutine stops waiting for it (a timeout, a cancellation) the coroutine leaves the
semaphore and the thread goes on: an orphan. `ExecutingOk` splits the executing handlers into the
awaited ones and the orphans (`executing_length`), so `handlers_bounded_exact` can say when the
bound on the coroutines is a bound on the handlers.

An executing handler is a pair of a coroutine and an attempt. The coroutine is in that attempt and
waits, or it has gone on and the handler is an orphan (`EntryOk`). Coroutine handlers leave no
orphan, because a cancellation reaches them.

The condition `threadsFit` is about the call of a handler, the only step that adds one: no other
handler of the task is executing, and there are fewer orphans than slots that are free or held
without a handler. Counting makes this exact in both directions (`bounded_call_iff`). No step
without a call can break the bound, so a run keeps it exactly as long as its calls meet the
condition.
-/

set_option autoImplicit false

namespace Orchestrator.Sdk.Runner

open Orchestrator.Lib Env
open scoped List

variable {env : Env}

/-! ### Awaited handlers and orphans -/

/-- The coroutine is before the call of its handler, inside an attempt. -/
def CoroPc.beforeCall (pc : CoroPc) : Bool := pc.holds || pc = .slot

/-- What is known of an executing handler: its coroutine is in the same attempt, or in a later
one. -/
structure EntryOk (e : Nat × Int) (c : Coro) : Prop where
  le : e.2 ≤ c.span.attempts
  lt : c.pc.beforeCall = true → e.2 < c.span.attempts
  started : c.pc ≠ .start

/-- The executing handlers: each is listed once, those that a coroutine waits for are listed, and
every entry belongs to an attempt that was made. -/
structure ExecutingOk (s : State) : Prop where
  nodup : s.executing.Nodup
  awaited : ∀ i c, s.coros[i]? = some c → c.pc = .handler → (i, c.span.attempts) ∈ s.executing
  entry : ∀ e ∈ s.executing, ∃ c, s.coros[e.1]? = some c ∧ EntryOk e c

/-- The `i`-th coroutine moves, and starts or stops no handler. The clauses about it are kept
because its attempt does not change while a handler executes. -/
theorem ExecutingOk.move {s s' : State} (h : ExecutingOk s) {i : Nat} {c c' : Coro}
    (hi : s.coros[i]? = some c) (hcoros : s'.coros = s.coros.set i c')
    (hexec : s'.executing = s.executing) (hnew : c'.pc ≠ .handler)
    (hentry : ∀ e, EntryOk e c → EntryOk e c') : ExecutingOk s' := by
  have hlt := (List.getElem?_eq_some_iff.mp hi).1
  refine ⟨hexec ▸ h.nodup, fun j d hj hd => ?_, fun e he => ?_⟩
  · rw [hcoros] at hj
    rw [hexec]
    by_cases hij : i = j
    · subst hij
      rw [List.getElem?_set_self hlt] at hj
      cases hj
      exact absurd hd hnew
    · rw [List.getElem?_set_ne hij] at hj
      exact h.awaited j d hj hd
  · rw [hexec] at he
    obtain ⟨d, hd, hok⟩ := h.entry e he
    rw [hcoros]
    by_cases hij : i = e.1
    · subst hij
      rw [hi] at hd
      cases hd
      exact ⟨c', List.getElem?_set_self hlt, hentry e hok⟩
    · exact ⟨d, by rw [List.getElem?_set_ne hij]; exact hd, hok⟩

/-- The `i`-th coroutine stops waiting for its handler, which may go on. A thread does: it cannot be
cancelled, and becomes an orphan. -/
theorem ExecutingOk.leave {s s' : State} (h : ExecutingOk s) {i : Nat} {c c' : Coro}
    (hi : s.coros[i]? = some c) (hcoros : s'.coros = s.coros.set i c')
    (hexec : s'.executing = s.executing ∨ s'.executing = s.executing.erase (i, c.span.attempts))
    (hnew : c'.pc ≠ .handler) (hbefore : c'.pc.beforeCall = false) (hstart : c'.pc ≠ .start)
    (hattempts : c'.span.attempts = c.span.attempts) : ExecutingOk s' := by
  have hentry : ∀ e, EntryOk e c → EntryOk e c' := by
    intro e he
    refine ⟨hattempts ▸ he.le, fun hb => ?_, hstart⟩
    rw [hbefore] at hb
    cases hb
  have hmoved : ExecutingOk { s' with executing := s.executing } := h.move hi hcoros rfl hnew hentry
  rcases hexec with hexec | hexec
  · exact ⟨hexec ▸ hmoved.nodup, hexec ▸ hmoved.awaited, hexec ▸ hmoved.entry⟩
  · have hlt := (List.getElem?_eq_some_iff.mp hi).1
    refine ⟨hexec ▸ h.nodup.erase _, fun j d hj hd => ?_, fun e he => ?_⟩
    · -- The coroutine whose entry is erased does not wait for it any more.
      have hij : i ≠ j := by
        rintro rfl
        rw [hcoros, List.getElem?_set_self hlt] at hj
        cases hj
        exact hnew hd
      rw [hexec]
      refine (List.mem_erase_of_ne fun heq => ?_).mpr (hmoved.awaited j d hj hd)
      exact hij (congrArg Prod.fst heq).symm
    · rw [hexec] at he
      exact hmoved.entry e (List.mem_of_mem_erase he)

/-- The `i`-th coroutine calls its handler. The new entry has the number of an attempt that was
never called before. -/
theorem ExecutingOk.call {s s' : State} (h : ExecutingOk s) {i : Nat} {c : Coro}
    (hi : s.coros[i]? = some c) (hpc : c.pc = .invoke)
    (hcoros : s'.coros = s.coros.set i { c with pc := .handler })
    (hexec : s'.executing = s.executing ++ [(i, c.span.attempts)]) : ExecutingOk s' := by
  have hlt := (List.getElem?_eq_some_iff.mp hi).1
  have hbefore : c.pc.beforeCall = true := by rw [hpc]; rfl
  refine ⟨?_, fun j d hj hd => ?_, fun e he => ?_⟩
  · -- The attempts of this task that execute are earlier ones.
    rw [hexec, List.nodup_append]
    refine ⟨h.nodup, List.nodup_singleton _, fun e he e' he' heq => ?_⟩
    obtain rfl := List.mem_singleton.mp he'
    obtain ⟨d, hd, hok⟩ := h.entry e he
    rw [heq] at hd hok
    rw [hi] at hd
    cases hd
    exact absurd (hok.lt hbefore) (lt_irrefl _)
  · rw [hcoros] at hj
    rw [hexec, List.mem_append]
    by_cases hij : i = j
    · subst hij
      rw [List.getElem?_set_self hlt] at hj
      cases hj
      exact Or.inr (List.mem_singleton_self _)
    · rw [List.getElem?_set_ne hij] at hj
      exact Or.inl (h.awaited j d hj hd)
  · rw [hexec, List.mem_append, List.mem_singleton] at he
    rw [hcoros]
    rcases he with he | rfl
    · obtain ⟨d, hd, hok⟩ := h.entry e he
      by_cases hij : i = e.1
      · subst hij
        rw [hi] at hd
        cases hd
        refine ⟨_, List.getElem?_set_self hlt, hok.le, fun hb => (by cases hb), ?_⟩
        exact CoroPc.noConfusion
      · exact ⟨d, by rw [List.getElem?_set_ne hij]; exact hd, hok⟩
    · exact ⟨_, List.getElem?_set_self hlt, le_rfl, fun hb => (by cases hb), CoroPc.noConfusion⟩

/-- Where an attempt that has failed leads. -/
theorem failAttempt_after (c : Coro) (ctx : SkillContext) (err : String) (now : Nat) :
    (env.failAttempt c ctx err now).pc ≠ .handler ∧
      (env.failAttempt c ctx err now).pc.beforeCall = false ∧
      (env.failAttempt c ctx err now).pc ≠ .start ∧
      (env.failAttempt c ctx err now).span.attempts = c.span.attempts := by
  rcases failAttempt_cases env c now ctx err with ⟨d, -, -, h⟩ | ⟨e, -, -, h⟩ | ⟨-, h⟩ <;> rw [h]
  · exact ⟨CoroPc.noConfusion, rfl, CoroPc.noConfusion, rfl⟩
  · exact ⟨CoroPc.noConfusion, rfl, CoroPc.noConfusion, rfl⟩
  · exact ⟨CoroPc.noConfusion, rfl, CoroPc.noConfusion, rfl⟩

/-- Where the end of a handler leads. -/
theorem afterInvoke_after (c : Coro) (ctx : SkillContext) (out : Outcome) (now : Nat) :
    (env.afterInvoke c ctx out now).pc ≠ .handler ∧
      (env.afterInvoke c ctx out now).pc.beforeCall = false ∧
      (env.afterInvoke c ctx out now).pc ≠ .start ∧
      (env.afterInvoke c ctx out now).span.attempts = c.span.attempts := by
  rcases afterInvoke_cases env c now ctx out with
    ⟨o, -, h⟩ | ⟨-, h⟩ | ⟨type, exits, -, h⟩ | ⟨err, -, -, h⟩ <;> rw [h]
  · exact ⟨CoroPc.noConfusion, rfl, CoroPc.noConfusion, rfl⟩
  · exact ⟨CoroPc.noConfusion, rfl, CoroPc.noConfusion, rfl⟩
  · exact ⟨CoroPc.noConfusion, rfl, CoroPc.noConfusion, rfl⟩
  · exact failAttempt_after c ctx err now

/-- The handlers that go on executing. -/
theorem leaveHandler_cases (s : State) (i : Nat) (c : Coro) :
    env.leaveHandler s i c = s.executing ∨
      env.leaveHandler s i c = s.executing.erase (i, c.span.attempts) := by
  unfold leaveHandler
  split
  · exact Or.inl rfl
  · exact Or.inr rfl

/-- A step of a coroutine keeps `ExecutingOk`: it moves, calls a handler, or leaves one. -/
theorem ExecutingOk.coroStep {s s' : State} (h : ExecutingOk s) {i : Nat} {c : Coro}
    {a : CoroAction} (hi : s.coros[i]? = some c) (hs : CoroStep env s i c a s') :
    ExecutingOk s' := by
  -- A move that ends an attempt before its handler is called, or that goes on with it.
  have hquit : ∀ c' : Coro, c'.pc ≠ .start → c'.span.attempts = c.span.attempts →
      (c'.pc.beforeCall = true → c.pc.beforeCall = true) → ∀ e, EntryOk e c → EntryOk e c' :=
    fun c' hstart hatt hbefore e he =>
      ⟨hatt ▸ he.le, fun hb => hatt ▸ he.lt (hbefore hb), hstart⟩
  cases hs with
  | start hpc hcr =>
      refine h.move hi rfl rfl ?_ fun e he => absurd hpc he.started
      rcases startTask_cases env c s.clock s.currentInputs s.main.results
        with ⟨e, -, he⟩ | ⟨r, -, he⟩
      · rw [he]
        exact CoroPc.noConfusion
      · rw [he]
        rcases enterAttempt_cases env (firstAttempt c s.clock r) s.clock 1 with
          ⟨-, he⟩ | ⟨-, he⟩ <;> rw [he] <;> exact CoroPc.noConfusion
  | acquireSlot hpc hcr hfree =>
      exact h.move hi rfl rfl CoroPc.noConfusion
        (hquit _ CoroPc.noConfusion rfl fun _ => by rw [hpc]; rfl)
  | grantGlobal b hpc hcr hb =>
      refine h.move hi rfl rfl ?_ (hquit _ ?_ rfl fun _ => by rw [hpc]; rfl)
      · rcases afterGlobal_pc c with he | he <;> simp [he]
      · rcases afterGlobal_pc c with he | he <;> simp [he]
  | denyGlobal b hpc hcr hb =>
      exact h.move hi rfl rfl CoroPc.noConfusion
        (hquit _ CoroPc.noConfusion rfl fun _ => by rw [hpc]; rfl)
  | grantProvider b hpc hcr hb =>
      exact h.move hi rfl rfl CoroPc.noConfusion
        (hquit _ CoroPc.noConfusion rfl fun _ => by rw [hpc]; rfl)
  | denyProvider b hpc hcr hb =>
      exact h.move hi rfl rfl CoroPc.noConfusion
        (hquit _ CoroPc.noConfusion rfl fun _ => by rw [hpc]; rfl)
  | timerGlobal hpc hcr =>
      exact h.move hi rfl rfl CoroPc.noConfusion
        (hquit _ CoroPc.noConfusion rfl fun _ => by rw [hpc]; rfl)
  | timerProvider hpc hcr =>
      exact h.move hi rfl rfl CoroPc.noConfusion
        (hquit _ CoroPc.noConfusion rfl fun _ => by rw [hpc]; rfl)
  | acquireError e hcr he =>
      obtain ⟨h1, h2, h3, h4⟩ := @failAttempt_after env c {} (bucketErr e) s.clock
      refine h.move hi rfl rfl h1 (hquit _ h3 h4 fun hb => ?_)
      rw [h2] at hb
      cases hb
  | noSkill hpc hcr hk =>
      obtain ⟨h1, h2, h3, h4⟩ := @failAttempt_after env c {} (env.noSkillErr c.task) s.clock
      refine h.move hi rfl rfl h1 (hquit _ h3 h4 fun hb => ?_)
      rw [h2] at hb
      cases hb
  | invoke kind hpc hcr hk => exact h.call hi hpc rfl rfl
  | finish ctx out hpc hcr =>
      obtain ⟨h1, h2, h3, h4⟩ := @afterInvoke_after env c ctx out s.clock
      exact h.leave hi rfl (Or.inr rfl) h1 h2 h3 h4
  | lose hpc hcr hk =>
      exact h.leave hi rfl (Or.inr rfl) CoroPc.noConfusion rfl CoroPc.noConfusion rfl
  | timeout ctx hpc hcr ht =>
      obtain ⟨h1, h2, h3, h4⟩ := @failAttempt_after env c ctx (env.timeoutErr c.task) s.clock
      exact h.leave hi rfl (leaveHandler_cases s i c) h1 h2 h3 h4
  | wake hpc hcr =>
      -- The next attempt comes after every attempt that executes.
      have hentry : ∀ e, EntryOk e c →
          EntryOk e (env.enterAttempt c (c.span.attempts + 1) s.clock) := by
        intro e he
        have hle := he.le
        rcases enterAttempt_cases env c s.clock (c.span.attempts + 1) with ⟨-, heq⟩ | ⟨-, heq⟩ <;>
          rw [heq]
        · refine ⟨?_, fun _ => ?_, CoroPc.noConfusion⟩
          · show e.2 ≤ c.span.attempts + 1
            omega
          · show e.2 < c.span.attempts + 1
            omega
        · exact ⟨hle, fun hb => (by cases hb), CoroPc.noConfusion⟩
      refine h.move hi rfl rfl ?_ hentry
      rcases enterAttempt_cases env c s.clock (c.span.attempts + 1) with ⟨-, heq⟩ | ⟨-, heq⟩ <;>
        rw [heq] <;> exact CoroPc.noConfusion
  | cancelOutside ctx hpc hcr =>
      exact h.move hi rfl rfl CoroPc.noConfusion fun e he =>
        ⟨he.le, fun hb => (by cases hb), CoroPc.noConfusion⟩
  | cancelSlot ctx hpc hcr =>
      exact h.move hi rfl rfl CoroPc.noConfusion
        (hquit _ CoroPc.noConfusion rfl fun hb => by cases hb)
  | cancelHolder ctx hpc hcr =>
      exact h.move hi rfl rfl CoroPc.noConfusion
        (hquit _ CoroPc.noConfusion rfl fun hb => by cases hb)
  | cancelHandler ctx hpc hcr =>
      exact h.leave hi rfl (leaveHandler_cases s i c) CoroPc.noConfusion rfl CoroPc.noConfusion rfl

/-- A step of `run` keeps `ExecutingOk`. It starts coroutines and asks for their cancellation, and
both leave the handlers alone. -/
theorem ExecutingOk.mainStepped {s s' : State} (h : ExecutingOk s) (hm : MainStepped env s s') :
    ExecutingOk s' := by
  cases hm with
  -- A new coroutine starts behind all others and has no handler yet.
  | dispatch tid rest t hpc hready hskip ht =>
      refine ⟨h.nodup, fun i c hi hc => ?_, fun e he => ?_⟩
      · have hi : (s.coros ++ [newCoro t s.clock])[i]? = some c := hi
        rw [List.getElem?_append] at hi
        split at hi
        · exact h.awaited i c hi hc
        · rw [List.mem_singleton.mp (List.mem_of_getElem? hi)] at hc
          cases hc
      · obtain ⟨c, hc, hok⟩ := h.entry e he
        refine ⟨c, ?_, hok⟩
        show (s.coros ++ _)[e.1]? = some c
        rw [List.getElem?_append_left (List.getElem?_eq_some_iff.mp hc).1]
        exact hc
  -- Cancelling touches neither the program counter nor the span, which is all that the invariant
  -- reads of a coroutine.
  | cancelAll i rest c t hpc hi hdone hst ht hpol hmore =>
      have hpcs : ∀ (j : Nat) (d : Coro),
          (cancelCoro (s.main.running.erase i) j d).pc = d.pc := by
        intro j d
        unfold cancelCoro
        split <;> rfl
      refine ⟨h.nodup, fun j d hj hd => ?_, fun e he => ?_⟩
      · rw [List.getElem?_mapIdx] at hj
        obtain ⟨y, hy, rfl⟩ := Option.map_eq_some_iff.mp hj
        rw [hpcs] at hd
        rw [cancelCoro_span]
        exact h.awaited j y hy hd
      · obtain ⟨y, hy, hok⟩ := h.entry e he
        refine ⟨cancelCoro (s.main.running.erase i) e.1 y, ?_, ?_⟩
        · show (s.coros.mapIdx _)[e.1]? = _
          rw [List.getElem?_mapIdx, hy]
          rfl
        · refine ⟨?_, fun hb => ?_, ?_⟩
          · rw [cancelCoro_span]
            exact hok.le
          · rw [hpcs] at hb
            rw [cancelCoro_span]
            exact hok.lt hb
          · rw [hpcs]
            exact hok.started
  | _ => exact ⟨h.nodup, h.awaited, h.entry⟩

/-- `ExecutingOk` holds in every reachable state. Of the steps that belong to no coroutine only the
end of a thread concerns it. -/
theorem reachable_executingOk {s : State} (hs : env.system.Reachable s) : ExecutingOk s := by
  have hinit : ExecutingOk env.initial :=
    ⟨List.nodup_nil, fun i c hi => (by cases hi), fun e he => by cases he⟩
  refine hs.holds hinit fun s a s' _ h ha => ?_
  cases step_inv ha with
  | main hm => exact h.mainStepped hm
  | coro hi hy hstep => exact h.coroStep hi hstep
  | threadEnd i attempt ho =>
      refine ⟨h.nodup.erase _, fun j d hj hd => ?_,
        fun e he => h.entry e (List.mem_of_mem_erase he)⟩
      -- No coroutine waits for the thread that ends.
      refine (List.mem_erase_of_ne fun heq => ?_).mpr (h.awaited j d hj hd)
      have hji : j = i := congrArg Prod.fst heq
      have hatt : d.span.attempts = attempt := congrArg Prod.snd heq
      have hj : s.coros[i]? = some d := hji ▸ hj
      simp [isOrphan, hj, hd, hatt] at ho
  | _ => exact ⟨h.nodup, h.awaited, h.entry⟩

/-! ### Counting -/

/-- The threads that no coroutine waits for. -/
def orphans (s : State) : Nat := s.executing.countP fun e => isOrphan s e.1 e.2

/-- The handlers that coroutines wait for. -/
def awaitedHandlers (s : State) : List (Nat × Int) :=
  s.coros.zipIdx.filterMap fun p =>
    if p.1.pc = .handler then some (p.2, p.1.span.attempts) else none

/-- A handler is awaited when its coroutine waits for it, in the same attempt. -/
theorem mem_awaitedHandlers {s : State} {e : Nat × Int} :
    e ∈ awaitedHandlers s ↔ ∃ c, s.coros[e.1]? = some c ∧ c.pc = .handler ∧
    c.span.attempts = e.2 := by
  rw [awaitedHandlers, List.mem_filterMap]
  constructor
  · rintro ⟨⟨c, i⟩, hp, he⟩
    rw [Option.ite_none_right_eq_some] at he
    obtain ⟨hpc, he⟩ := he
    cases he
    exact ⟨c, List.mem_zipIdx_iff_getElem?.mp hp, hpc, rfl⟩
  · rintro ⟨c, hc, hpc, hatt⟩
    exact ⟨(c, e.1), List.mem_zipIdx_iff_getElem?.mpr hc, by rw [if_pos hpc, hatt]⟩

/-- One handler is awaited for each coroutine that waits in `_invoke`. -/
theorem length_awaitedHandlers (s : State) :
    (awaitedHandlers s).length = s.coros.countP (fun c => c.pc = .handler) := by
  rw [awaitedHandlers, List.length_filterMap_eq_countP]
  have hzip : s.coros.countP (fun c => c.pc = .handler)
      = s.coros.zipIdx.countP (fun p => p.1.pc = .handler) := by
    conv_lhs => rw [← List.zipIdx_map_fst 0 s.coros, List.countP_map]
    rfl
  rw [hzip]
  refine List.countP_congr fun p _ => ?_
  split
  · rename_i hpc
    simp [hpc]
  · rename_i hpc
    simp [hpc]

/-- The executing handlers are the orphans and the awaited ones. The awaited ones are counted by
their coroutines, which hold slots. -/
theorem ExecutingOk.executing_length {s : State} (h : ExecutingOk s) :
    s.executing.length = orphans s + s.coros.countP (fun c => c.pc = .handler) := by
  have hnd : (awaitedHandlers s).Nodup := by
    refine List.Nodup.of_map Prod.fst ?_
    refine nodup_filterMap_key (fun p : Coro × Nat => p.2) Prod.fst ?_ fun p e he => ?_
    · show (s.coros.zipIdx.map Prod.snd).Nodup
      rw [List.zipIdx_map_snd]
      exact List.nodup_range'
    · rw [Option.ite_none_right_eq_some] at he
      obtain ⟨-, he⟩ := he
      cases he
      rfl
  -- An executing handler is an orphan or the one its coroutine waits for, and no coroutine waits
  -- for two.
  have hperm : s.executing.filter (fun e => !isOrphan s e.1 e.2) ~ awaitedHandlers s := by
    refine (List.perm_ext_iff_of_nodup (h.nodup.filter _) hnd).mpr fun e => ?_
    rw [List.mem_filter, mem_awaitedHandlers]
    constructor
    · rintro ⟨he, hno⟩
      obtain ⟨c, hc, -⟩ := h.entry e he
      refine ⟨c, hc, ?_⟩
      have he' : (e.1, e.2) ∈ s.executing := he
      simpa [isOrphan, he', hc] using hno
    · rintro ⟨c, hc, hpc, hatt⟩
      have he : (e.1, e.2) ∈ s.executing := hatt ▸ h.awaited e.1 c hc hpc
      exact ⟨he, by simp [isOrphan, hc, hpc, hatt]⟩
  rw [List.length_eq_countP_add_countP (fun e => isOrphan s e.1 e.2), orphans,
    ← length_awaitedHandlers, ← hperm.length_eq, ← List.countP_eq_length_filter]
  congr 1
  refine List.countP_congr fun e _ => ?_
  cases isOrphan s e.1 e.2 <;> simp

/-- The coroutine holds a slot, and no handler executes for it: it is before the call, or the
handler has been lost. -/
def CoroPc.waits (pc : CoroPc) : Bool := pc.holds || decide (pc = .lost)

/-- The coroutines that hold a slot without a handler. -/
def waiters (s : State) : Nat := s.coros.countP fun c => c.pc.waits

/-- A coroutine that holds a slot has no handler or waits for it. -/
theorem countP_holdsSlot (coros : List Coro) :
    coros.countP holdsSlot
      = coros.countP (fun c => c.pc.waits) + coros.countP (fun c => c.pc = .handler) := by
  induction coros with
  | nil => rfl
  | cons c coros ih =>
      rw [List.countP_cons, List.countP_cons, List.countP_cons, ih]
      cases hpc : c.pc <;> simp [holdsSlot, CoroPc.holds, CoroPc.waits, hpc] <;> omega

/-! ### The bound -/

/-- The task of an executing handler. -/
def taskOf (s : State) (e : Nat × Int) : Option String := (s.coros[e.1]?).map (·.task.id)

/-- At most `max_parallel` handlers are executing, and at most one attempt of each task. -/
structure HandlersBounded (env : Env) (s : State) : Prop where
  count : (s.executing.length : Int) ≤ max 0 env.wf.maxParallel
  tasks : (s.executing.map (taskOf s)).Nodup

/-- When the step calls a handler, no other handler of its task is still executing, and there are
fewer orphans than slots that are free or held without a handler. -/
def threadsFit (env : Env) (s : State) : Action → Bool
  | .coro i .invoke => (s.coros[i]?).all fun c => (env.skills c.task.skill).isNone ||
      (s.executing.all (fun e => decide (taskOf s e ≠ some c.task.id)) &&
        decide ((orphans s : Int) < s.sem + waiters s))
  | _ => true

/-- A step keeps the task of a coroutine. -/
theorem taskOf_kept {s s' : State} {a : Action} (h : Stepped env s a s') {e : Nat × Int} {c : Coro}
    (hc : s.coros[e.1]? = some c) : taskOf s' e = some c.task.id := by
  have hid : (coroIds s.coros)[e.1]? = some c.task.id := by
    rw [coroIds, List.getElem?_map, hc]
    rfl
  obtain ⟨hlt, hget⟩ := List.getElem?_eq_some_iff.mp hid
  have hpre := coroIds_grow h
  have hid' : (coroIds s'.coros)[e.1]? = some c.task.id := by
    rw [List.getElem?_eq_getElem (hlt.trans_le hpre.length_le), ← hpre.getElem hlt, hget]
  rw [coroIds, List.getElem?_map] at hid'
  exact hid'

/-- The tasks of the handlers that execute before a step. -/
theorem map_taskOf {s s' : State} {a : Action} (hs : env.system.Reachable s)
    (h : Stepped env s a s') : s.executing.map (taskOf s') = s.executing.map (taskOf s) := by
  refine List.map_congr_left fun e he => ?_
  obtain ⟨c, hc, -⟩ := (reachable_executingOk hs).entry e he
  rw [taskOf_kept h hc, taskOf, hc]
  rfl

/-- A step calls a handler, or it meets the condition and calls none. In the second case no handler
is added, so no bound can break. -/
theorem step_executing {s s' : State} {a : Action} (h : Stepped env s a s') :
    (s'.executing <+ s.executing ∧ threadsFit env s a = true) ∨
      ∃ i c kind, a = .coro i .invoke ∧ s.coros[i]? = some c ∧ c.pc = .invoke ∧
        env.skills c.task.skill = some kind ∧
        s'.executing = s.executing ++ [(i, c.span.attempts)] := by
  cases h with
  -- The main task starts no handler.
  | main hm =>
      have hsame : s'.executing = s.executing := by cases hm <;> rfl
      exact Or.inl ⟨hsame ▸ List.Sublist.refl _, rfl⟩
  -- Of a coroutine's steps only `invoke` starts one; those that end or leave a handler take its
  -- entry away.
  | @coro i c b _ hi hy hs =>
      have hleave : env.leaveHandler s i c <+ s.executing := by
        rcases leaveHandler_cases s i c with h | h <;> rw [h]
        exact List.erase_sublist
      cases hs with
      | invoke kind hpc hcr hk => exact Or.inr ⟨i, c, kind, rfl, hi, hpc, hk, rfl⟩
      | noSkill hpc hcr hk => exact Or.inl ⟨List.Sublist.refl _, by simp [threadsFit, hi, hk]⟩
      | finish ctx out hpc hcr => exact Or.inl ⟨List.erase_sublist, rfl⟩
      | lose hpc hcr hk => exact Or.inl ⟨List.erase_sublist, rfl⟩
      | timeout ctx hpc hcr ht => exact Or.inl ⟨hleave, rfl⟩
      | cancelHandler ctx hpc hcr => exact Or.inl ⟨hleave, rfl⟩
      | _ => exact Or.inl ⟨List.Sublist.refl _, rfl⟩
  | threadEnd i attempt ho => exact Or.inl ⟨List.erase_sublist, rfl⟩
  | _ => exact Or.inl ⟨List.Sublist.refl _, rfl⟩

/-- The call of a handler keeps the bound exactly when the threads fit. Orphans hold no slots, and
this is why the slots alone do not bound the handlers. -/
theorem bounded_call_iff {s s' : State} (hs : env.system.Reachable s) {i : Nat} {c : Coro}
    {kind : SkillKind} (h : Stepped env s (.coro i .invoke) s') (hi : s.coros[i]? = some c)
    (hk : env.skills c.task.skill = some kind)
    (hexec : s'.executing = s.executing ++ [(i, c.span.attempts)])
    (hnd : (s.executing.map (taskOf s)).Nodup) :
    HandlersBounded env s' ↔ threadsFit env s (.coro i .invoke) = true := by
  -- The slots are conserved, so there is room for the new handler exactly if the orphans leave a
  -- slot free or a waiting coroutine holds one.
  have hcounted : Counted env s := (reachable_slotsOk hs).counted
    (List.ne_nil_of_mem (List.mem_of_getElem? hi))
  have hlen := (reachable_executingOk hs).executing_length
  rw [Counted, countP_holdsSlot] at hcounted
  have hcount : (s'.executing.length : Int) ≤ max 0 env.wf.maxParallel ↔
      (orphans s : Int) < s.sem + waiters s := by
    rw [hexec, List.length_append, List.length_singleton, waiters]
    omega
  have hown : taskOf s' (i, c.span.attempts) = some c.task.id := taskOf_kept h hi
  -- The new handler has to be the only one of its task.
  have htasks : (s'.executing.map (taskOf s')).Nodup ↔
      s.executing.all (fun e => decide (taskOf s e ≠ some c.task.id)) = true := by
    rw [hexec, List.map_append, map_taskOf hs h, List.map_singleton, hown, List.nodup_append,
      List.all_eq_true]
    constructor
    · rintro ⟨-, -, hdis⟩ e he
      exact decide_eq_true (hdis _ (List.mem_map_of_mem he) _ (List.mem_singleton_self _))
    · intro hall
      refine ⟨hnd, List.nodup_singleton _, fun x hx y hy => ?_⟩
      obtain ⟨e, he, rfl⟩ := List.mem_map.mp hx
      rw [List.mem_singleton.mp hy]
      exact of_decide_eq_true (hall e he)
  rw [threadsFit, hi, Option.all_some, hk, Option.isNone_some, Bool.false_or, Bool.and_eq_true,
    decide_eq_true_iff, ← hcount, ← htasks]
  exact ⟨fun hb => ⟨hb.tasks, hb.count⟩, fun hb => ⟨hb.2, hb.1⟩⟩

/-- At most `max_parallel` handlers and one attempt of each task are executing in every state of the
runs in which the threads fit at every call of a handler. A call at which they do not fit breaks the
bound.

An executing handler is one that a coroutine waits for, or an orphan: a thread that goes on after
its timeout or its cancellation. The first kind is bounded by the slots (`reachable_slotsOk`). The
condition compares the second kind with the slots that are left, at the one step that starts a
handler (`bounded_call_iff`). -/
theorem handlers_bounded_exact (env : Env) :
    env.system.ExactFor (fun s a => threadsFit env s a = true) (HandlersBounded env) := by
  constructor
  · intro s hs
    have hinit : HandlersBounded env env.initial := ⟨le_max_left _ _, List.nodup_nil⟩
    refine @System.ReachableBy.holds _ _ env.system _ (HandlersBounded env) hinit
      (fun s a s' hs h hp ha => ?_) s hs
    have hstep := step_inv ha
    rcases step_executing hstep with ⟨hsub, -⟩ | ⟨i, c, kind, rfl, hi, -, hk, hexec⟩
    · refine ⟨?_, ?_⟩
      · have hcount := h.count
        have hle := hsub.length_le
        omega
      · have hnd := h.tasks.sublist (hsub.map (taskOf s))
        have hmap := map_taskOf hs hstep
        rw [List.map_congr_left fun e he => ?_]
        · exact hnd
        · exact (List.map_inj_left.mp hmap) e (hsub.subset he)
    · exact (bounded_call_iff hs hstep hi hk hexec h.tasks).mpr hp
  · -- A step that breaks the condition starts a handler, and the same equivalence shows that the
    -- bound fails right after it.
    intro s a s' hs ha hbad h
    have hstep := step_inv ha
    rcases step_executing hstep with ⟨-, hfit⟩ | ⟨i, c, kind, rfl, hi, -, hk, hexec⟩
    · exact hbad hfit
    · have hold : (s.executing.map (taskOf s)).Nodup := by
        have hnd := h.tasks
        rw [hexec, List.map_append, map_taskOf hs hstep] at hnd
        exact List.Nodup.of_append_left hnd
      exact hbad ((bounded_call_iff hs hstep hi hk hexec hold).mp h)

/-- One task with a synchronous handler, a timeout and a retry. Its first thread goes on when the
attempt is given up, so two run at once. -/
def threadTask : Env := plainRun
  { name := "w"
    maxParallel := 1
    tasks := [{ id := "a", skill := "s", timeout := some 1, retry := some { max := 1 } }] } .sync

/-- The handler outlives its timeout. Its coroutine leaves the semaphore, and the retry calls the
handler again: two attempts of the task are executing, and `max_parallel` is 1. -/
theorem handlers_not_bounded :
    ∃ s, threadTask.system.Reachable s ∧ ¬ HandlersBounded threadTask s := by
  have hrun : (threadTask.system.run? ([Action.main, .main, .main, .main] ++ callTask 0 ++
      [Action.coro 0 (.timeout {}), .coro 0 .wake, .coro 0 .acquireSlot, .coro 0 .acquire,
        .coro 0 .invoke])).any (fun s => decide (s.executing.length = 2)) = true := by
    decide +kernel
  obtain ⟨s, hs, htwo⟩ := System.exists_of_run hrun
  refine ⟨s, hs, fun h => ?_⟩
  have hcount : (s.executing.length : Int) ≤ max 0 1 := h.count
  rw [of_decide_eq_true htwo] at hcount
  exact absurd hcount (by decide)

end Orchestrator.Sdk.Runner
