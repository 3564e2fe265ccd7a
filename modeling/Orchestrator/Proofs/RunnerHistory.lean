import Orchestrator.Proofs.RunnerInv

/-!
# `Orchestrator.Proofs.RunnerHistory`: the spans that a Python run has processed

`run` takes the span of a future once, in `for fut in done`, and it alone adds to the totals and
sets `first_error`. `History` relates the processed spans to the coroutines that returned them, to
the recorded spans and to these two variables; it holds in every reachable state.

The futures that `run` no longer waits for are done (`Settled`), and their spans have been
processed, unless a `fail_fast` failure has made `run` abandon them.

What a step of `run` can do to its history is little: set it up, leave it, or process the span of a
coroutine that has returned (`HistoryStep`). Beside the processed spans the recorded ones can only
grow by placeholders, the spans of tasks that were skipped without being started (`Grows`). So the
order in which the spans were processed is kept, and with it which failure was the first.
-/

set_option autoImplicit false

namespace Orchestrator.Sdk.Runner

open Orchestrator.Lib Env

variable {env : Env}

/-! ### Recorded spans -/

/-- The span of a task that is skipped without having been started. -/
def placeholder (id : String) : TaskSpan := { id := id, status := .skipped }

/-- The recorded spans grow by placeholders. -/
structure Grows (old new : Dict String TaskSpan) : Prop where
  keep : ∀ id sp, old.get? id = some sp → new.get? id = some sp
  origin : ∀ id sp, new.get? id = some sp → old.get? id = some sp ∨ sp = placeholder id

/-- Nothing is recorded. -/
theorem Grows.refl (spans : Dict String TaskSpan) : Grows spans spans :=
  ⟨fun _ _ h => h, fun _ _ h => Or.inl h⟩

/-- `fail_fast` skips the tasks without a span. -/
theorem skipRest_grows (hacc : Accepted env.wf) (spans : Dict String TaskSpan) :
    Grows spans (env.skipRest spans) := by
  constructor
  · intro id sp hsp
    rw [skipRest_get? hacc, if_neg]
    · exact hsp
    · rintro ⟨-, hnone⟩
      rw [hnone] at hsp
      cases hsp
  · intro id sp hsp
    rw [skipRest_get? hacc] at hsp
    split at hsp
    · cases hsp
      exact Or.inr rfl
    · exact Or.inl hsp

/-- `mark_descendants_skipped` skips tasks without a span. -/
theorem markDescendantsSkipped_grows (hacc : Accepted env.wf) {start : String} {m : Marks}
    (hm : ∀ id ∈ m.skipped, m.spans.contains id = true) :
    Grows m.spans (env.markDescendantsSkipped start m).spans := by
  obtain ⟨new, hw, hmarks⟩ := markDescendantsSkipped_spec hacc start m hm
  have hget := fun id => (foldl_markSkipped id new m).1
  rw [hmarks]
  constructor
  · -- The walk marks only what has no span yet.
    intro id sp hsp
    rw [hget, if_neg]
    · exact hsp
    · intro hn
      have hfresh : m.spans.contains id = false := hw.fresh id hn
      rw [Dict.contains, hsp] at hfresh
      cases hfresh
  · intro id sp hsp
    rw [hget] at hsp
    split at hsp
    · cases hsp
      exact Or.inr rfl
    · exact Or.inl hsp

/-! ### Steps of `run` -/

/-- What a step of `run` does to its history: it sets it up, leaves it, or processes the span of a
coroutine that has returned. -/
inductive HistoryStep (env : Env) (s s' : State) : Prop
  | setup (hmain : s'.main = env.initialMain s.clock) (hpc : s.main.pc = .start)
  | quiet (hproc : s'.main.processed = s.main.processed) (htotals : s'.main.totals = s.main.totals)
      (hfirst : s'.main.firstError = s.main.firstError) (hspans : Grows s.main.spans s'.main.spans)
  | record (i : Nat) (rest : List Nat) (c : Coro) (hpc : s.main.pc = .process (i :: rest))
      (hi : s.coros[i]? = some c) (hdone : c.pc = .returned)
      (hproc : s'.main.processed = s.main.processed ++ [c.span])
      (htotals : s'.main.totals = addTotals s.main.totals c.span)
      (hfirst : s'.main.firstError = s.main.firstError.or
        (if c.span.status = .succeeded then none else c.span.error))
      (hspans : Grows (s.main.spans.set c.task.id c.span) s'.main.spans)

/-- `first_error` after an unsuccessful span. -/
theorem orElse_error {sp : TaskSpan} (hst : sp.status ≠ .succeeded) (first : Option String) :
    first.orElse (fun _ => sp.error)
      = first.or (if sp.status = .succeeded then none else sp.error) := by
  rw [if_neg hst]
  cases first <;> rfl

/-- Each step of `run` is a `HistoryStep`. -/
theorem MainStepped.historyStep (hacc : Accepted env.wf) {s s' : State}
    (h : MainStepped env s s') (hinv : s.main.pc.isLive = true → RunInv env s) :
    HistoryStep env s s' := by
  cases h with
  | setup buckets hpc hb => exact .setup rfl hpc
  -- Four cases record the span of a future; they differ in what else they write.
  | succeeded i rest c hpc hi hdone hst =>
      refine .record i rest c hpc hi hdone rfl rfl ?_ (.refl _)
      show s.main.firstError = _
      rw [if_pos hst, Option.or_none]
  | «continue» i rest c t hpc hi hdone hst ht hpol =>
      have hskip := (hinv (by rw [hpc]; rfl)).skipped
      refine .record i rest c hpc hi hdone rfl rfl (orElse_error hst _) ?_
      exact @markDescendantsSkipped_grows _ hacc _
        { spans := s.main.spans.set c.task.id c.span, skipped := s.main.skipped }
        fun id hid => contains_set (hskip id hid)
  | failFast i rest c t hpc hi hdone hst ht hpol hlast =>
      exact .record i rest c hpc hi hdone rfl rfl (orElse_error hst _) (skipRest_grows hacc _)
  | cancelAll i rest c t hpc hi hdone hst ht hpol hmore =>
      exact .record i rest c hpc hi hdone rfl rfl (orElse_error hst _) (.refl _)
  | abandon hpc hall => exact .quiet rfl rfl rfl (skipRest_grows hacc _)
  | _ => exact .quiet rfl rfl rfl (.refl _)

/-- A step of `run` leaves the coroutines that are done. -/
theorem MainStepped.kept_done {s s' : State} (h : MainStepped env s s') {i : Nat} {c : Coro}
    (hi : s.coros[i]? = some c) (hdone : c.pc.isDone = true) : s'.coros[i]? = some c := by
  cases h with
  | dispatch tid rest t hpc hready hskip ht =>
      show (s.coros ++ _)[i]? = some c
      rw [List.getElem?_append_left (List.getElem?_eq_some_iff.mp hi).1]
      exact hi
  | cancelAll j rest d t hpc hj hdone' hst ht hpol hmore =>
      show (s.coros.mapIdx _)[i]? = some c
      rw [List.getElem?_mapIdx, hi]
      simp [cancelCoro, hdone]
  | _ => exact hi

/-! ### Futures that `run` does not wait for -/

/-- A future that `run` does not wait for is done. -/
def Settled (s : State) : Prop :=
  ∀ i c, s.coros[i]? = some c → i ∉ s.main.running → c.pc.isDone = true

/-- A future that is popped is done. -/
theorem Settled.pop {s : State} (h : Settled s) {i : Nat} {c : Coro} (hi : s.coros[i]? = some c)
    (hdone : c.pc.isDone = true) {j : Nat} {d : Coro} (hj : s.coros[j]? = some d)
    (hrun : j ∉ s.main.running.erase i) : d.pc.isDone = true := by
  by_cases hji : j = i
  · subst hji
    rw [hi] at hj
    cases hj
    exact hdone
  · exact h j d hj fun hin => hrun ((List.mem_erase_of_ne hji).mpr hin)

/-- A step of `run` keeps `Settled`. -/
theorem Settled.mainStepped {s s' : State} (h : Settled s)
    (hstart : s.main.pc = .start → s.coros = [])
    (hm : MainStepped env s s') : Settled s' := by
  cases hm with
  | setup buckets hpc hb =>
      intro i c hi
      rw [show s.coros = [] from hstart hpc] at hi
      cases hi
  | dispatch tid rest t hpc hready hskip ht =>
      intro i c hi hrun
      have hrun : i ∉ s.main.running ++ [s.coros.length] := hrun
      rw [List.mem_append, not_or, List.mem_singleton] at hrun
      have hlt := (List.getElem?_eq_some_iff.mp hi).1
      rw [List.length_append, List.length_singleton] at hlt
      have hi : (s.coros ++ [newCoro t s.clock])[i]? = some c := hi
      rw [List.getElem?_append_left (by omega)] at hi
      exact h i c hi hrun.1
  | succeeded i rest c hpc hi hdone hst =>
      exact fun j d hj hrun => h.pop hi (by rw [hdone]; rfl) hj hrun
  | «continue» i rest c t hpc hi hdone hst ht hpol =>
      exact fun j d hj hrun => h.pop hi (by rw [hdone]; rfl) hj hrun
  | failFast i rest c t hpc hi hdone hst ht hpol hlast =>
      exact fun j d hj _ => h.pop hi (by rw [hdone]; rfl) hj (by rw [hlast]; exact List.not_mem_nil)
  -- A request to cancel does not make a finished future unfinished.
  | cancelAll i rest c t hpc hi hdone hst ht hpol hmore =>
      intro j d hj hrun
      rw [List.getElem?_mapIdx] at hj
      obtain ⟨y, hy, rfl⟩ := Option.map_eq_some_iff.mp hj
      have hyd := h.pop hi (by rw [hdone]; rfl) hy hrun
      simp [cancelCoro, hyd]
  | raise i rest c e hpc hi hdone =>
      refine fun j d hj hrun => h.pop hi ?_ hj hrun
      rcases hdone with hdone | ⟨hdone, -⟩ <;> rw [hdone] <;> rfl
  -- The loop is left when all futures are done, so those that are still listed as running are
  -- settled too.
  | abandon hpc hall =>
      intro j d hj _
      by_cases hrun : j ∈ s.main.running
      · obtain ⟨c, hc, hdone⟩ := hall j hrun
        rw [show s.coros[j]? = some d from hj] at hc
        cases hc
        exact hdone
      · exact h j d hj hrun
  | _ => exact h

/-- A coroutine that steps is one that `run` waits for. -/
theorem Settled.waiting {s s' : State} (h : Settled s) {i : Nat} {c c' : Coro}
    (hi : s.coros[i]? = some c) (hmove : CoroMove s s' i c c') : i ∈ s.main.running := by
  by_contra hrun
  have hdone := h i c hi hrun
  rw [hmove.not_done] at hdone
  cases hdone

/-- `Settled` holds in every reachable state. -/
theorem reachable_settled (hacc : Accepted env.wf) {s : State} (hs : env.system.Reachable s) :
    Settled s := by
  have hinit : Settled env.initial := fun i c hi => by cases hi
  refine hs.holds hinit fun s a s' hs h ha => ?_
  cases step_inv ha with
  | main hm => exact h.mainStepped (reachable_sound hacc hs).start hm
  | wake order hw => exact h
  | @coro i c b _ hi hy hstep =>
      obtain ⟨c', hmove⟩ := hstep.move
      intro j d hj hrun
      rw [hmove.main] at hrun
      -- The coroutine that moved is running, so `j` is another one.
      have hji : i ≠ j := by
        rintro rfl
        exact hrun (h.waiting hi hmove)
      rw [hmove.coros, List.getElem?_set_ne hji] at hj
      exact h j d hj hrun
  | threadEnd i attempt ho => exact h
  | cancel hpc => exact h
  | tick d => exact h

/-! ### The history of a run -/

/-- The span did not succeed. -/
def unsuccessful (sp : TaskSpan) : Bool := sp.status ≠ .succeeded

/-- The processed spans, and what the variables of `run` say about them. Totals and errors are
functions of this list, so results about them are results about it. -/
structure History (s : State) : Prop where
  returned : ∀ sp ∈ s.main.processed, ∃ (i : Nat) (c : Coro), s.coros[i]? = some c ∧
    c.pc = .returned ∧ c.span = sp
  ids_nodup : (s.main.processed.map (·.id)).Nodup
  recorded : ∀ sp ∈ s.main.processed, s.main.spans.get? sp.id = some sp
  origin : ∀ id sp, s.main.spans.get? id = some sp → sp ∈ s.main.processed ∨ sp = placeholder id
  totals : s.main.totals = s.main.processed.foldl addTotals {}
  firstError : s.main.firstError = (s.main.processed.filter unsuccessful).findSome? (·.error)

/-- `run` starts without a history. -/
theorem History.initial {s : State} (hmain : s.main.processed = [])
    (htotals : s.main.totals = {}) (hspans : s.main.spans = .empty)
    (hfirst : s.main.firstError = none) : History s := by
  constructor
  · rw [hmain]
    simp
  · rw [hmain]
    exact List.nodup_nil
  · rw [hmain]
    simp
  · intro id sp hsp
    rw [hspans] at hsp
    cases hsp
  · rw [hmain, htotals]
    rfl
  · rw [hmain, hfirst]
    rfl

/-- A step of `run` keeps `History`. -/
theorem History.mainStepped (hacc : Accepted env.wf) {s s' : State} (h : History s)
    (hinv : s.main.pc.isLive = true → RunInv env s) (hm : MainStepped env s s') :
    History s' := by
  have hreturned : ∀ sp ∈ s.main.processed,
      ∃ (i : Nat) (c : Coro), s'.coros[i]? = some c ∧ c.pc = .returned ∧ c.span = sp := by
    intro sp hsp
    obtain ⟨i, c, hi, hdone, hspan⟩ := h.returned sp hsp
    exact ⟨i, c, hm.kept_done hi (by rw [hdone]; rfl), hdone, hspan⟩
  cases hm.historyStep hacc hinv with
  | setup hmain hpc =>
      exact .initial (by rw [hmain]; rfl) (by rw [hmain]; rfl) (by rw [hmain]; rfl)
        (by rw [hmain]; rfl)
  | quiet hproc htotals hfirst hspans =>
      -- No span is processed in this step.
      refine ⟨?_, ?_, ?_, fun id sp hsp => ?_, ?_, ?_⟩
      · rw [hproc]
        exact hreturned
      · rw [hproc]
        exact h.ids_nodup
      · rw [hproc]
        exact fun sp hsp => hspans.keep _ _ (h.recorded sp hsp)
      · rw [hproc]
        rcases hspans.origin id sp hsp with hold | hnew
        · exact h.origin id sp hold
        · exact Or.inr hnew
      · rw [hproc, htotals]
        exact h.totals
      · rw [hproc, hfirst]
        exact h.firstError
  | record i rest c hpc hi hdone hproc htotals hfirst hspans =>
      have hrun := hinv (by rw [hpc]; rfl)
      obtain ⟨-, -, -, -, hnone⟩ := hrun.head_future hpc hi
      have hid : c.span.id = c.task.id := hrun.span_id c (List.mem_of_getElem? hi)
      refine ⟨?_, ?_, ?_, fun id sp hsp => ?_, ?_, ?_⟩
      · intro sp hsp
        rw [hproc, List.mem_append, List.mem_singleton] at hsp
        rcases hsp with hsp | rfl
        · exact hreturned sp hsp
        · exact ⟨i, c, hm.kept_done hi (by rw [hdone]; rfl), hdone, rfl⟩
      · -- The task of the future has no span yet, so none of its spans was processed.
        rw [hproc, List.map_append, List.map_singleton, List.nodup_append]
        refine ⟨h.ids_nodup, List.nodup_singleton _, fun x hx y hy => ?_⟩
        obtain ⟨sp, hsp, rfl⟩ := List.mem_map.mp hx
        obtain rfl := List.mem_singleton.mp hy
        intro he
        have hrec := h.recorded sp hsp
        rw [he, hid, hnone] at hrec
        cases hrec
      · intro sp hsp
        rw [hproc, List.mem_append, List.mem_singleton] at hsp
        rcases hsp with hsp | rfl
        · exact hspans.keep _ _ (get?_set_keep hnone (h.recorded sp hsp))
        · exact hspans.keep _ _ (hid ▸ Dict.get?_set_self _ _ _)
      · rw [hproc, List.mem_append, List.mem_singleton]
        rcases hspans.origin id sp hsp with hold | hnew
        · rw [get?_set_cases] at hold
          split at hold
          · cases hold
            exact Or.inl (Or.inr rfl)
          · rcases h.origin id sp hold with hin | hph
            · exact Or.inl (Or.inl hin)
            · exact Or.inr hph
        · exact Or.inr hnew
      · rw [hproc, htotals, List.foldl_append, ← h.totals]
        rfl
      · rw [hproc, hfirst, h.firstError, List.filter_append, List.findSome?_append]
        congr 1
        by_cases hst : c.span.status = .succeeded
        · simp [unsuccessful, hst]
        · simp [unsuccessful, hst]

/-- A step of a coroutine that is not done keeps `History`. -/
theorem History.coroMove {s s' : State} (h : History s) {i : Nat} {c c' : Coro}
    (hi : s.coros[i]? = some c) (hmove : CoroMove s s' i c c') : History s' := by
  refine ⟨fun sp hsp => ?_, ?_, ?_, ?_, ?_, ?_⟩
  · rw [hmove.main] at hsp
    obtain ⟨j, d, hj, hdone, hspan⟩ := h.returned sp hsp
    -- The coroutine that moves is not done, so it is none of those whose span was processed.
    have hij : i ≠ j := by
      rintro rfl
      rw [hi] at hj
      cases hj
      have hnot := hmove.not_done
      rw [hdone] at hnot
      cases hnot
    refine ⟨j, d, ?_, hdone, hspan⟩
    rw [hmove.coros, List.getElem?_set_ne hij]
    exact hj
  · rw [hmove.main]
    exact h.ids_nodup
  · rw [hmove.main]
    exact h.recorded
  · rw [hmove.main]
    exact h.origin
  · rw [hmove.main]
    exact h.totals
  · rw [hmove.main]
    exact h.firstError

/-- `History` holds in every reachable state. -/
theorem reachable_history (hacc : Accepted env.wf) {s : State} (hs : env.system.Reachable s) :
    History s := by
  refine hs.holds (.initial rfl rfl rfl rfl) fun s a s' hs h ha => ?_
  cases step_inv ha with
  | main hm => exact h.mainStepped hacc (reachable_sound hacc hs).live hm
  | coro hi hy hstep =>
      obtain ⟨c', hmove⟩ := hstep.move
      exact h.coroMove hi hmove
  | _ => exact ⟨h.returned, h.ids_nodup, h.recorded, h.origin, h.totals, h.firstError⟩

end Orchestrator.Sdk.Runner
