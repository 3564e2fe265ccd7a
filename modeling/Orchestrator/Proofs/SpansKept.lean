import Orchestrator.Proofs.RunnerData
import Orchestrator.Proofs.RunnerHistory

/-!
# `Orchestrator.Proofs.SpansKept`: the spans that a Python run keeps

A coroutine that has returned its span is recorded when `run` visits its future. Under `fail_fast`
`run` waits for its other futures and drops them unvisited: the report has a placeholder in the
place of each of their spans. `spans_kept_iff` says that this is the only way to lose a span.

`SpanOk` says what a returned span looks like: it succeeded, it was cancelled and its error is
`cancelled`, or it failed with the text of a failure. So it is no placeholder, and a report that has
a placeholder for a task has lost its span. The texts of failures all have a blank in them
(`FailureText`), which is how they are told from the others.

`AllVisited` is the invariant of the runs that lose nothing: the spans of the futures that `run` no
longer waits for have been processed. Only the step that drops the futures of a failed run can end
it, and it does so exactly when one of them has returned a span (`MainStepped.allVisited_iff`). The
totals count each processed span once, in whatever order, as they are sums.
-/

set_option autoImplicit false

namespace Orchestrator.Sdk.Runner

open Orchestrator.Lib Env
open scoped List

variable {env : Env}

/-! ### The span of a coroutine -/

/-- The text of a failure has a blank in it, so it is neither empty nor `cancelled`. -/
def FailureText (e : String) : Prop := ' ' ∈ e.toList

/-- The text of a failure is not empty. -/
theorem FailureText.ne_empty {e : String} (h : FailureText e) : e ≠ "" := by
  rintro rfl
  cases h

/-- The text of a failure is not that of a cancellation. -/
theorem FailureText.ne_cancelled {e : String} (h : FailureText e) : e ≠ "cancelled" := by
  rintro rfl
  exact absurd h (by unfold FailureText; decide)

/-- The span of a coroutine. While it runs, the error that it would end with is a text of a failure,
and once it has returned the span says how. -/
structure SpanOk (c : Coro) : Prop where
  lastErr : c.pc.isDone = false → c.pc ≠ .start → FailureText c.lastErr
  returned : c.pc = .returned → c.span.status = .succeeded ∨
    (c.span.status = .skipped ∧ c.span.error = some "cancelled") ∨
    (c.span.status = .failed ∧ ∃ e, c.span.error = some e ∧ FailureText e)

/-- A bucket refuses with a `ValueError`. -/
theorem bucketErr_text {b : Option TokenBucket} {now : Nat} {e : PyError}
    (h : env.acquireRound b now = .error e) : FailureText (bucketErr e) := by
  unfold acquireRound at h
  split at h
  · cases h
  · rename_i b
    unfold TokenBucket.acquire at h
    split at h
    · cases h
      simp [bucketErr, FailureText]
    · simp only [Except.map] at h
      split at h
      · rename_i he
        split at he <;> cases he
      · cases h

/-- The text of a timeout is that of a failure. -/
theorem timeoutErr_text (t : Task) : FailureText (env.timeoutErr t) := by
  show ' ' ∈ (toString "timeout after " ++ _ ++ _).toList
  simp [toString]

/-- The text of a missing handler is that of a failure. -/
theorem noSkillErr_text (t : Task) : FailureText (env.noSkillErr t) := by
  unfold noSkillErr
  simp [FailureText]

/-- A coroutine that has not returned. -/
theorem SpanOk.of_pc {c : Coro} (herr : FailureText c.lastErr) (hpc : c.pc ≠ .returned) :
    SpanOk c :=
  ⟨fun _ _ => herr, fun h => absurd h hpc⟩

/-- The span of a task that gives up. -/
theorem SpanOk.failSpan {c : Coro} (herr : FailureText c.lastErr) (now : Nat) :
    SpanOk (failSpan c now) :=
  ⟨fun _ _ => herr, fun _ => Or.inr (Or.inr ⟨rfl, c.lastErr, rfl, herr⟩)⟩

/-- The span of a cancelled task. -/
theorem SpanOk.skipSpan (c : Coro) (now : Nat) : SpanOk (skipSpan c now) :=
  ⟨fun hdone => (by cases hdone), fun _ => Or.inr (Or.inl ⟨rfl, rfl⟩)⟩

/-- The span after a failed attempt. -/
theorem SpanOk.failAttempt (c : Coro) (ctx : SkillContext) {err : String} (herr : FailureText err)
    (now : Nat) : SpanOk (env.failAttempt c ctx err now) := by
  rcases failAttempt_cases env c now ctx err with ⟨d, -, -, h⟩ | ⟨e, -, -, h⟩ | ⟨-, h⟩
  · rw [h]
    exact .of_pc herr (by simp)
  · rw [h]
    exact .of_pc herr (by simp)
  · rw [h]
    exact .failSpan herr now

/-- The span after the handler has ended. -/
theorem SpanOk.afterInvoke (c : Coro) (ctx : SkillContext) (out : Outcome) (now : Nat) :
    SpanOk (env.afterInvoke c ctx out now) := by
  cases out with
  | returned output => exact ⟨fun h => (by cases h), fun _ => Or.inl rfl⟩
  | timeoutError => exact .failAttempt c ctx (timeoutErr_text _) now
  | cancelledError => exact .skipSpan _ now
  | exception type message =>
      refine .failAttempt c ctx ?_ now
      simp [FailureText]
  | uncaught type exits => exact ⟨fun h => (by cases h), fun h => by cases h⟩

/-- The span at the head of the attempt loop. -/
theorem SpanOk.enterAttempt {c : Coro} (herr : FailureText c.lastErr) (attempt : Int) (now : Nat) :
    SpanOk (env.enterAttempt c attempt now) := by
  rcases enterAttempt_cases env c now attempt with ⟨-, h⟩ | ⟨-, h⟩
  · rw [h]
    exact .of_pc herr (by simp)
  · rw [h]
    exact .failSpan herr now

/-- A step of a coroutine keeps `SpanOk`. -/
theorem CoroStep.spanOk {s s' : State} {i : Nat} {c : Coro} {a : CoroAction}
    (h : CoroStep env s i c a s') (hc : SpanOk c) :
    ∃ c', s'.coros = s.coros.set i c' ∧ SpanOk c' := by
  -- Between two attempts a task carries the error of the last one, and every error the engine
  -- writes has a text.
  have herr : ∀ pc, c.pc = pc → pc.isDone = false → pc ≠ .start → FailureText c.lastErr := by
    rintro pc rfl hdone hstart
    exact hc.lastErr hdone hstart
  cases h with
  | start hpc hcr =>
      refine ⟨_, rfl, ?_⟩
      rcases startTask_cases env c s.clock s.currentInputs s.main.results with ⟨e, -, h⟩ | ⟨r, -, h⟩
      · rw [h]
        exact ⟨fun hdone => (by cases hdone), fun h => by cases h⟩
      · rw [h]
        refine .enterAttempt ?_ 1 _
        show ' ' ∈ "unknown error".toList
        decide
  | acquireSlot hpc hcr hfree => exact ⟨_, rfl, .of_pc (herr _ hpc rfl (by simp)) (by simp)⟩
  | grantGlobal b hpc hcr hb =>
      refine ⟨_, rfl, .of_pc (herr _ hpc rfl (by simp)) ?_⟩
      rcases afterGlobal_pc c with h | h <;> simp [h]
  | denyGlobal b hpc hcr hb => exact ⟨_, rfl, .of_pc (herr _ hpc rfl (by simp)) (by simp)⟩
  | grantProvider b hpc hcr hb => exact ⟨_, rfl, .of_pc (herr _ hpc rfl (by simp)) (by simp)⟩
  | denyProvider b hpc hcr hb => exact ⟨_, rfl, .of_pc (herr _ hpc rfl (by simp)) (by simp)⟩
  | acquireError e hcr he =>
      refine ⟨_, rfl, .failAttempt c {} ?_ _⟩
      rcases he with ⟨-, he⟩ | ⟨-, he⟩
      · exact bucketErr_text he
      · exact bucketErr_text he
  | timerGlobal hpc hcr => exact ⟨_, rfl, .of_pc (herr _ hpc rfl (by simp)) (by simp)⟩
  | timerProvider hpc hcr => exact ⟨_, rfl, .of_pc (herr _ hpc rfl (by simp)) (by simp)⟩
  | noSkill hpc hcr hk => exact ⟨_, rfl, .failAttempt c {} (noSkillErr_text _) _⟩
  | invoke kind hpc hcr hk => exact ⟨_, rfl, .of_pc (herr _ hpc rfl (by simp)) (by simp)⟩
  | finish ctx out hpc hcr => exact ⟨_, rfl, .afterInvoke c ctx out _⟩
  | lose hpc hcr hk => exact ⟨_, rfl, .of_pc (herr _ hpc rfl (by simp)) (by simp)⟩
  | timeout ctx hpc hcr ht => exact ⟨_, rfl, .failAttempt c ctx (timeoutErr_text _) _⟩
  | wake hpc hcr => exact ⟨_, rfl, .enterAttempt (herr _ hpc rfl (by simp)) _ _⟩
  | cancelOutside ctx hpc hcr =>
      exact ⟨_, rfl, fun hdone => (by cases hdone), fun h => by cases h⟩
  | cancelSlot ctx hpc hcr => exact ⟨_, rfl, .skipSpan c _⟩
  | cancelHolder ctx hpc hcr => exact ⟨_, rfl, .skipSpan c _⟩
  | cancelHandler ctx hpc hcr => exact ⟨_, rfl, .skipSpan _ _⟩

/-- `run` changes a coroutine only by asking it to stop. -/
theorem MainStepped.coros_from {s s' : State} (h : MainStepped env s s') :
    ∀ c ∈ s'.coros, (∃ t, c = newCoro t s.clock) ∨
      ∃ d ∈ s.coros, c = d ∨ c = { d with cancelRequested := true } := by
  cases h with
  | dispatch tid rest t hpc hready hskip ht =>
      intro c hc
      rcases List.mem_append.mp hc with hc | hc
      · exact Or.inr ⟨c, hc, Or.inl rfl⟩
      · exact Or.inl ⟨t, List.mem_singleton.mp hc⟩
  -- The main task makes coroutines and asks them to cancel. It writes nothing else into them.
  | cancelAll i rest c t hpc hi hdone hst ht hpol hmore =>
      intro x hx
      obtain ⟨j, hj⟩ := List.mem_iff_getElem?.mp hx
      rw [show _ = (s.coros.mapIdx (cancelCoro (s.main.running.erase i)))[j]? from rfl,
        List.getElem?_mapIdx] at hj
      obtain ⟨y, hy, rfl⟩ := Option.map_eq_some_iff.mp hj
      refine Or.inr ⟨y, List.mem_of_getElem? hy, ?_⟩
      unfold cancelCoro
      split
      · exact Or.inr rfl
      · exact Or.inl rfl
  | _ => exact fun c hc => Or.inr ⟨c, hc, Or.inl rfl⟩

/-- A property of coroutines alone that holds of a new one, and that each step of a coroutine and
a request to stop keep, holds of every coroutine of a run. -/
theorem reachable_coros {P : Coro → Prop} (hnew : ∀ t now, P (newCoro t now))
    (hask : ∀ c, P c → P { c with cancelRequested := true })
    (hstep : ∀ (s s' : State) (i : Nat) (c : Coro) (a : CoroAction), CoroStep env s i c a s' →
      P c → ∃ c', s'.coros = s.coros.set i c' ∧ P c')
    {s : State} (hs : env.system.Reachable s) : ∀ c ∈ s.coros, P c := by
  have hinit : ∀ c ∈ env.initial.coros, P c := fun c hc => by cases hc
  refine hs.holds (P := fun s => ∀ c ∈ s.coros, P c) hinit fun s a s' _ h ha => ?_
  -- A coroutine changes in three ways: it is made, it is asked to cancel, or it makes a step of its
  -- own.
  cases step_inv ha with
  | main hm =>
      intro c hc
      rcases hm.coros_from c hc with ⟨t, rfl⟩ | ⟨d, hd, rfl | rfl⟩
      · exact hnew t _
      · exact h _ hd
      · exact hask d (h d hd)
  | @coro i c b _ hi hy hcs =>
      obtain ⟨c', hcoros, hc'⟩ := hstep _ _ _ _ _ hcs (h c (List.mem_of_getElem? hi))
      rw [hcoros]
      exact forall_mem_set h hc'
  | _ => exact h

/-- `SpanOk` holds of every coroutine. -/
theorem reachable_spanOk {s : State} (hs : env.system.Reachable s) : ∀ c ∈ s.coros, SpanOk c :=
  reachable_coros (fun _ _ => ⟨fun _ h => absurd rfl h, fun h => by cases h⟩)
    (fun _ h => ⟨h.lastErr, h.returned⟩) (fun _ _ _ _ _ h hc => h.spanOk hc) hs

/-- A returned span is no placeholder. -/
theorem SpanOk.ne_placeholder {c : Coro} (h : SpanOk c) (hpc : c.pc = .returned) (id : String) :
    c.span ≠ placeholder id := by
  intro he
  have hret := h.returned hpc
  rw [he] at hret
  rcases hret with hst | ⟨-, herr⟩ | ⟨hst, -⟩
  · cases hst
  · cases herr
  · cases hst

/-! ### Visited futures -/

/-- The spans of the futures that `run` no longer waits for have been processed. -/
def AllVisited (s : State) : Prop :=
  ∀ i c, s.coros[i]? = some c → i ∉ s.main.running → c.pc = .returned →
    c.span ∈ s.main.processed

/-- When the step drops the futures of a failed run, none of them has returned its span. -/
def keepsSpans (s : State) (a : Action) : Bool :=
  match a, s.main.pc with
  | .main, .cancelWait => s.main.running.all fun i => (s.coros[i]?).all fun c => c.pc ≠ .returned
  | _, _ => true

/-- What is known of every reachable state: the invariant of the run, the history of its spans, and
that each span says how its task ended. -/
structure Known (env : Env) (s : State) : Prop where
  sound : Sound env s
  history : History s
  settled : Settled s
  spans : ∀ c ∈ s.coros, SpanOk c

/-- In every reachable state all of this is known. -/
theorem reachable_known (hacc : Accepted env.wf) {s : State} (hs : env.system.Reachable s) :
    Known env s :=
  ⟨reachable_sound hacc hs, reachable_history hacc hs, reachable_settled hacc hs,
    reachable_spanOk hs⟩

/-- Before a failed run drops its futures, every future that is done has been visited. -/
theorem Known.allVisited {s : State} (h : Known env s) (hlive : s.main.pc.isLive = true)
    (hab : ¬ Abandoned s.main) : AllVisited s := by
  intro i c hi hrun hdone
  have hinv := h.sound.live hlive
  obtain ⟨-, hrec⟩ := (hinv.futures hab).recorded i c hi hrun
  rcases h.history.origin _ _ hrec with hin | hph
  · exact hin
  · exact absurd hph ((h.spans c (List.mem_of_getElem? hi)).ne_placeholder hdone _)

/-- A future that `run` waits for has not been visited. -/
theorem Known.not_visited {s : State} (h : Known env s) (hlive : s.main.pc.isLive = true)
    (hab : ¬ Abandoned s.main) {i : Nat} {c : Coro} (hi : s.coros[i]? = some c)
    (hrun : i ∈ s.main.running) : c.span ∉ s.main.processed := by
  intro hin
  have hinv := h.sound.live hlive
  obtain ⟨d, hd, hnone⟩ := (hinv.futures hab).waiting i hrun
  rw [hi] at hd
  cases hd
  have hrec := h.history.recorded _ hin
  rw [hinv.span_id c (List.mem_of_getElem? hi), hnone] at hrec
  cases hrec

/-- `run` stays `AllVisited` exactly in the steps that drop no span. -/
theorem MainStepped.allVisited_iff {s s' : State} (hm : MainStepped env s s') (h : Known env s)
    (h' : Known env s') : AllVisited s' ↔ AllVisited s ∧ keepsSpans s .main = true := by
  have hsame : s'.coros = s.coros → s'.main.running = s.main.running →
      s'.main.processed = s.main.processed → keepsSpans s .main = true →
      (AllVisited s' ↔ AllVisited s ∧ keepsSpans s .main = true) := by
    intro hcoros hrunning hproc hdrop
    rw [AllVisited, hcoros, hrunning, hproc]
    exact (and_iff_left hdrop).symm
  have hboth : s.main.pc.isLive = true → s'.main.pc.isLive = true → ¬ Abandoned s.main →
      ¬ Abandoned s'.main → keepsSpans s .main = true →
      (AllVisited s' ↔ AllVisited s ∧ keepsSpans s .main = true) := fun hl hl' hab hab' hdrop =>
    iff_of_true (h'.allVisited hl' hab') ⟨h.allVisited hl hab, hdrop⟩
  cases hm with
  | refuse e hpc he => exact hsame rfl rfl rfl (by simp [keepsSpans, hpc])
  | setup buckets hpc hb =>
      have hnil := h.sound.start hpc
      refine iff_of_true (fun i c hi => ?_) ⟨fun i c hi => ?_, by simp [keepsSpans, hpc]⟩
      · rw [show s.coros = [] from hnil] at hi
        cases hi
      · rw [hnil] at hi
        cases hi
  | enter hpc hor => exact hsame rfl rfl rfl (by simp [keepsSpans, hpc])
  | leave hpc hready hrunning =>
      refine hsame rfl rfl rfl ?_
      rcases hpc with hpc | hpc <;> simp [keepsSpans, hpc]
  | suspend hpc hready hrunning => exact hsame rfl rfl rfl (by simp [keepsSpans, hpc])
  | drop tid rest hpc hready hskip => exact hsame rfl rfl rfl (by simp [keepsSpans, hpc])
  | next hpc => exact hsame rfl rfl rfl (by simp [keepsSpans, hpc])
  | finish hpc => exact hsame rfl rfl rfl (by simp [keepsSpans, hpc])
  | dispatch tid rest t hpc hready hskip ht =>
      have hphase := (h.sound.live (by rw [hpc]; rfl)).phase
      rw [Phase, hpc] at hphase
      have hlive : s.main.pc.isLive = true := by rw [hpc]; rfl
      exact hboth hlive hlive (not_abandoned hphase.1) (not_abandoned hphase.1)
        (by simp [keepsSpans, hpc])
  | succeeded i rest c hpc hi hdone hst =>
      have hrun := ((h.sound.live (by rw [hpc]; rfl)).head_future hpc hi).1
      exact hboth (by rw [hpc]; rfl) rfl (not_abandoned hrun) (not_abandoned hrun)
        (by simp [keepsSpans, hpc])
  | «continue» i rest c t hpc hi hdone hst ht hpol =>
      have hrun := ((h.sound.live (by rw [hpc]; rfl)).head_future hpc hi).1
      exact hboth (by rw [hpc]; rfl) rfl (not_abandoned hrun) (not_abandoned hrun)
        (by simp [keepsSpans, hpc])
  | cancelAll i rest c t hpc hi hdone hst ht hpol hmore =>
      have hrun := ((h.sound.live (by rw [hpc]; rfl)).head_future hpc hi).1
      exact hboth (by rw [hpc]; rfl) rfl (not_abandoned hrun) (fun hab => hab.2 rfl)
        (by simp [keepsSpans, hpc])
  | failFast i rest c t hpc hi hdone hst ht hpol hlast =>
      -- The failure was the last future, so there is none to drop.
      have hlive : s.main.pc.isLive = true := by rw [hpc]; rfl
      have hrun := ((h.sound.live hlive).head_future hpc hi).1
      have hvis := h.allVisited hlive (not_abandoned hrun)
      refine iff_of_true (fun j d hj _ hret => ?_) ⟨hvis, by simp [keepsSpans, hpc]⟩
      show d.span ∈ s.main.processed ++ [c.span]
      have hj : s.coros[j]? = some d := hj
      by_cases hji : j = i
      · subst hji
        rw [hi] at hj
        cases hj
        exact List.mem_append_right _ (List.mem_singleton_self _)
      · refine List.mem_append_left _ (hvis j d hj (fun hin => ?_) hret)
        have hin := (List.mem_erase_of_ne hji).mpr hin
        rw [hlast] at hin
        cases hin
  | raise i rest c e hpc hi hdone =>
      have hlive : s.main.pc.isLive = true := by rw [hpc]; rfl
      have hrun := ((h.sound.live hlive).head_future hpc hi).1
      have hvis := h.allVisited hlive (not_abandoned hrun)
      refine iff_of_true (fun j d hj hnot hret => ?_) ⟨hvis, by simp [keepsSpans, hpc]⟩
      refine hvis j d hj (fun hin => ?_) hret
      have hji : j ≠ i := by
        rintro rfl
        have hj : s.coros[j]? = some d := hj
        rw [hi] at hj
        cases hj
        rcases hdone with hdone | ⟨hdone, -⟩ <;> rw [hdone] at hret <;> cases hret
      exact hnot ((List.mem_erase_of_ne hji).mpr hin)
  | abandon hpc hall =>
      have hlive : s.main.pc.isLive = true := by rw [hpc]; rfl
      have hab : ¬ Abandoned s.main := fun hab => hab.2 hpc
      have hvis := h.allVisited hlive hab
      have hdrop : keepsSpans s .main = true ↔
          ∀ i ∈ s.main.running, ∀ c, s.coros[i]? = some c → c.pc ≠ .returned := by
        simp [keepsSpans, hpc, Option.all_eq_true]
      rw [and_iff_right hvis, hdrop]
      constructor
      · intro hvis' i hin c hi hret
        exact h.not_visited hlive hab hi hin (hvis' i c hi (List.not_mem_nil) hret)
      · intro hnone i c hi _ hret
        refine hvis i c hi (fun hin => ?_) hret
        exact hnone i hin c hi hret

/-- The run stays `AllVisited` exactly in the steps that drop no span. -/
theorem allVisited_step (hacc : Accepted env.wf) (s : State) (a : Action) (s' : State)
    (hs : env.system.Reachable s) (ha : env.system.step? s a = some s') :
    AllVisited s' ↔ AllVisited s ∧ keepsSpans s a = true := by
  have h := reachable_known hacc hs
  cases step_inv ha with
  | main hm => exact hm.allVisited_iff h (reachable_known hacc (hs.step ha))
  | wake order hw => exact (and_iff_left rfl).symm
  | @coro i c b _ hi hy hstep =>
      obtain ⟨c', hmove⟩ := hstep.move
      have hrun := h.settled.waiting hi hmove
      refine Iff.trans ?_ (and_iff_left rfl).symm
      rw [AllVisited, hmove.main, hmove.coros]
      refine forall_congr' fun j => forall_congr' fun d => ?_
      -- The coroutine that moves is still running, so the property does not speak of it.
      by_cases hij : i = j
      · subst hij
        exact iff_of_true (fun _ hnot => absurd hrun hnot) (fun _ hnot => absurd hrun hnot)
      · rw [List.getElem?_set_ne hij]
  | threadEnd i attempt ho => exact (and_iff_left rfl).symm
  | cancel hpc => exact (and_iff_left rfl).symm
  | tick d => exact (and_iff_left rfl).symm

/-! ### Processed spans -/

/-- The span of the coroutine has been processed. -/
def isProcessed (s : State) (c : Coro) : Bool := c.span.id ∈ s.main.processed.map (·.id)

/-- Two coroutines have two spans. -/
theorem RunInv.span_ids_nodup {s : State} (hinv : RunInv env s) :
    (s.coros.map (fun c => c.span.id)).Nodup := by
  have hids : s.coros.map (fun c => c.span.id) = coroIds s.coros :=
    List.map_congr_left fun c hc => hinv.span_id c hc
  rw [hids]
  exact List.Nodup.of_append_left hinv.safe.nodup

/-- The id of a span tells whether it was processed. -/
theorem Known.isProcessed_iff {s : State} (h : Known env s) (hinv : RunInv env s) {c : Coro}
    (hc : c ∈ s.coros) :
    isProcessed s c = true ↔ c.pc = .returned ∧ c.span ∈ s.main.processed := by
  constructor
  · intro hproc
    obtain ⟨sp, hsp, hid⟩ := List.mem_map.mp (of_decide_eq_true hproc)
    obtain ⟨j, d, hj, hdone, rfl⟩ := h.history.returned sp hsp
    have hdc : d = c :=
      List.inj_on_of_nodup_map hinv.span_ids_nodup (List.mem_of_getElem? hj) hc hid
    exact hdc ▸ ⟨hdone, hsp⟩
  · exact fun hin => decide_eq_true (List.mem_map_of_mem hin.2)

/-- The processed spans are those of the coroutines that have been processed. -/
theorem Known.processed_filter {s : State} (h : Known env s) (hinv : RunInv env s) :
    s.main.processed ~ (s.coros.filter (isProcessed s)).map (·.span) := by
  have hnd : ((s.coros.filter (isProcessed s)).map (fun c => c.span.id)).Nodup :=
    hinv.span_ids_nodup.sublist (List.Sublist.map _ List.filter_sublist)
  -- Neither list repeats a span, so it is enough that both hold the same ones.
  refine (List.perm_ext_iff_of_nodup (List.Nodup.of_map _ h.history.ids_nodup) ?_).mpr fun sp => ?_
  · refine List.Nodup.of_map (·.id) ?_
    rw [List.map_map]
    exact hnd
  · rw [List.mem_map]
    constructor
    · intro hsp
      obtain ⟨i, c, hi, -, rfl⟩ := h.history.returned sp hsp
      refine ⟨c, List.mem_filter.mpr ⟨List.mem_of_getElem? hi, ?_⟩, rfl⟩
      exact decide_eq_true (List.mem_map_of_mem hsp)
    · rintro ⟨c, hc, rfl⟩
      obtain ⟨hmem, hproc⟩ := List.mem_filter.mp hc
      exact ((h.isProcessed_iff hinv hmem).mp hproc).2

/-! ### The spans of a report -/

/-- The coroutines that have returned their span. -/
def returnedCoros (s : State) : List Coro := s.coros.filter (fun c => c.pc = .returned)

/-- The report has every returned span, and the totals count each of them once. -/
structure SpansKept (s : State) (rep : Report) : Prop where
  tasks : ∀ c ∈ s.coros, c.pc = .returned → c.span ∈ rep.tasks
  totals : rep.totals = ((returnedCoros s).map (·.span)).foldl addTotals {}

/-- The order of two spans does not matter to the totals. -/
theorem addTotals_comm (t : Totals) (a b : TaskSpan) :
    addTotals (addTotals t a) b = addTotals (addTotals t b) a := by
  simp only [addTotals, Totals.mk.injEq]
  omega

/-- A recorded span is in the report. -/
theorem mem_tasks_iff {s : State} (h : RunInv env s) {c : Coro}
    (hc : c ∈ s.coros) (now : Nat) :
    c.span ∈ (env.report now s.main).tasks ↔ s.main.spans.get? c.task.id = some c.span := by
  show c.span ∈ env.wf.tasks.filterMap (fun t => s.main.spans.get? t.id) ↔ _
  rw [List.mem_filterMap]
  constructor
  · rintro ⟨t, -, ht⟩
    have hid := h.spans.key t.id c.span ht
    rw [h.span_id c hc] at hid
    rw [hid]
    exact ht
  · exact fun hget => ⟨c.task, h.task_mem c hc, hget⟩

/-- At the end of a run, the processed spans are the returned ones. -/
theorem Known.processed_perm {s : State} (h : Known env s) (hinv : RunInv env s)
    (hrunning : s.main.running = []) (hvis : AllVisited s) :
    s.main.processed ~ (returnedCoros s).map (·.span) := by
  have hfilter : returnedCoros s = s.coros.filter (isProcessed s) := by
    refine List.filter_congr fun c hc => ?_
    rw [Bool.eq_iff_iff, h.isProcessed_iff hinv hc, decide_eq_true_iff]
    obtain ⟨i, hi⟩ := List.mem_iff_getElem?.mp hc
    exact ⟨fun hdone => ⟨hdone, hvis i c hi (by rw [hrunning]; exact List.not_mem_nil) hdone⟩,
      fun hproc => hproc.1⟩
  rw [hfilter]
  exact h.processed_filter hinv

/-- A returned span is in the report exactly when it was processed. -/
theorem Known.mem_tasks {s : State} (h : Known env s) (hinv : RunInv env s) {c : Coro}
    (hc : c ∈ s.coros) (hdone : c.pc = .returned) (now : Nat) :
    c.span ∈ (env.report now s.main).tasks ↔ c.span ∈ s.main.processed := by
  rw [mem_tasks_iff hinv hc]
  constructor
  · intro hget
    rcases h.history.origin _ _ hget with hin | hph
    · exact hin
    · exact absurd hph ((h.spans c hc).ne_placeholder hdone _)
  · intro hin
    have hrec := h.history.recorded _ hin
    rw [hinv.span_id c hc] at hrec
    exact hrec

/-- What holds once `run` has returned. -/
theorem Known.returned {s : State} (h : Known env s) {rep : Report} (hrep : s.report? = some rep) :
    RunInv env s ∧ s.main.running = [] ∧ ∃ now, rep = env.report now s.main := by
  unfold State.report? at hrep
  split at hrep
  · rename_i hpc
    cases hrep
    have hinv := h.sound.live (by rw [hpc]; rfl)
    have hphase := hinv.phase
    rw [Phase, hpc] at hphase
    exact ⟨hinv, hphase.2.1, hphase.2.2.2⟩
  · cases hrep

/-- Where a report is, each started task has a recorded span. -/
theorem Known.all_recorded {s : State} (h : Known env s) {rep : Report}
    (hrep : s.report? = some rep) {c : Coro} (hc : c ∈ s.coros) :
    ∃ sp, s.main.spans.get? c.task.id = some sp := by
  unfold State.report? at hrep
  split at hrep
  · rename_i hpc
    have hinv := h.sound.live (by rw [hpc]; rfl)
    have hphase := hinv.phase
    rw [Phase, hpc] at hphase
    exact Option.ne_none_iff_exists'.mp
      (hphase.2.2.1 _ (List.mem_map_of_mem (hinv.task_mem c hc)))
  · cases hrep

/-- The report keeps the returned spans exactly when all futures were visited. -/
theorem spansKept_iff_allVisited (hacc : Accepted env.wf) {s : State}
    (hs : env.system.Reachable s) {rep : Report} (hrep : s.report? = some rep) :
    SpansKept s rep ↔ AllVisited s := by
  have h := reachable_known hacc hs
  obtain ⟨hinv, hrunning, now, rfl⟩ := h.returned hrep
  constructor
  · intro hkept i c hi _ hdone
    have hc := List.mem_of_getElem? hi
    exact (h.mem_tasks hinv hc hdone now).mp (hkept.tasks c hc hdone)
  · intro hvis
    refine ⟨fun c hc hdone => ?_, ?_⟩
    · obtain ⟨i, hi⟩ := List.mem_iff_getElem?.mp hc
      exact (h.mem_tasks hinv hc hdone now).mpr
        (hvis i c hi (by rw [hrunning]; exact List.not_mem_nil) hdone)
    · -- The totals are a sum over the processed spans, which does not depend on their order.
      show s.main.totals = _
      rw [h.history.totals]
      exact (h.processed_perm hinv hrunning hvis).foldl_eq'
        (fun a _ b _ t => addTotals_comm t a b) {}

/-- The report of a run has every span that was returned, and the totals count each of them once,
exactly when no step of the run dropped a returned span.

A span is in the report if its future was visited (`spansKept_iff_allVisited`). Only the step behind
the second wait of a `fail_fast` run leaves futures unvisited, and whether it does so is visible
before it. -/
theorem spans_kept_iff (env : Env) (lib : PyLib) (hval : env.wf.validate lib = .ok ())
    {as : List Action} {s : State} (hrun : env.system.run? as = some s) {rep : Report}
    (hrep : s.report? = some rep) :
    SpansKept s rep ↔ env.system.Meets (fun s a => keepsSpans s a = true) env.initial as := by
  have hacc := accepted_of_validate hval
  have hinit : AllVisited env.initial := fun i c hi => by cases hi
  rw [spansKept_iff_allVisited hacc (System.reachable_of_run hrun) hrep,
    System.meets_iff (allVisited_step hacc) .init hrun]
  exact and_iff_right hinit

/-! ### Two tasks, one of which fails -/

/-- Two independent tasks under `fail_fast`. -/
def failFastPair : Env := plainRun { name := "w", tasks := [{ id := "a", skill := "s" },
  { id := "b", skill := "s" }] } .async

/-- `run` up to its first wait for two futures. -/
def pairStart : List Action := [.main, .main, .main, .main, .main]

/-- A run in which both tasks succeed keeps their spans. -/
theorem spans_kept_iff_pair :
    ∃ s rep, failFastPair.system.Reachable s ∧ s.report? = some rep ∧ SpansKept s rep := by
  have hrun : ((failFastPair.system.guard keepsSpans).run? (pairStart ++
      wholeTask 0 {} (.returned .null) ++ wholeTask 1 {} (.returned .null) ++
      [Action.wake [0, 1], .main, .main, .main, .main, .main])).any
      (fun s => s.report?.isSome) = true := by
    decide +kernel
  obtain ⟨s, hs, hrep⟩ := (Option.any_eq_true _ _).mp hrun
  obtain ⟨rep, hrep⟩ := Option.isSome_iff_exists.mp hrep
  obtain ⟨hrun, hmeets⟩ := System.meets_of_guard hs
  refine ⟨s, rep, System.reachable_of_run hrun, hrep,
    (spans_kept_iff failFastPair Proofs.asciiLib (by rfl) hrun hrep).mpr hmeets⟩

/-- Both tasks end in one wait, `a` with a failure and `b` with a success. `run` visits `a` first,
and the report has `b` as skipped. -/
theorem spans_not_kept :
    ∃ s rep, failFastPair.system.Reachable s ∧ s.report? = some rep ∧ ¬ SpansKept s rep := by
  have hrun : (failFastPair.system.run? (pairStart ++
      wholeTask 0 {} (.exception "E" "") ++ wholeTask 1 {} (.returned .null) ++
      [Action.wake [0, 1], .main, .main, .main])).any (fun s => s.report?.any fun rep =>
        s.coros.any fun c => c.pc = .returned && c.span.status = .succeeded &&
          rep.tasks.all fun sp => sp.status ≠ .succeeded) = true := by
    decide +kernel
  obtain ⟨s, hs, htest⟩ := System.exists_of_run hrun
  obtain ⟨rep, hrep, htest⟩ := (Option.any_eq_true _ _).mp htest
  refine ⟨s, rep, hs, hrep, fun hkept => ?_⟩
  obtain ⟨c, hc, htest⟩ := List.any_eq_true.mp htest
  simp only [Bool.and_eq_true, decide_eq_true_eq, List.all_eq_true] at htest
  obtain ⟨⟨hdone, hst⟩, hall⟩ := htest
  exact hall c.span (hkept.tasks c hc hdone) hst

end Orchestrator.Sdk.Runner
