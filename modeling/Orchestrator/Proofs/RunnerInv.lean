import Orchestrator.Proofs.RunnerBooks

/-!
# `Orchestrator.Proofs.RunnerInv`: the invariant of `Orchestrator.run`

`RunInv env s` holds in every reachable state of a run of an accepted workflow, from the end of the
checks of `run` on and as long as `run` has not raised (`reachable_runInv`). It ties together

* the coroutines and the futures that `run` waits for (`Futures`), until `fail_fast` abandons them;
* the counters, the ready queue, the started tasks and the statuses of the spans (`Ledger.Safe`, and
  `Ledger.Inv` until the run fails);
* `results` and `skipped`, which repeat what the spans say;
* where `run` stands (`Phase`).

It is the counterpart of `RunInv` for the engine, over the same books. What differs is the way of a
span: it is not sent through a channel but taken from a future, and several futures may be done when
`run` wakes, in any order. So `Phase` has the list of those that are still to visit, and visiting
one is a step of its own.

A step of a coroutine changes that coroutine and nothing of the books (`CoroMove`). The steps of
`run` have one lemma each: `dispatch`, `succeeded`, `continue`, `failFast`, `cancelAll`,
`abandoned`. A request for cancellation marks coroutines and moves none, which is why it keeps
everything.

Outside the time in which the invariant holds, `Sound` says the little that is left: before its
checks `run` has started no task, and after it raised, nothing more is promised.
-/

set_option autoImplicit false

namespace Orchestrator.Sdk.Runner

open Orchestrator.Lib Env
open Orchestrator.Engine (Status)

variable {env : Env}

/-! ### The coroutines and their futures -/

/-- A request for cancellation leaves the task and the span of a coroutine alone. -/
theorem cancelCoro_task (asked : List Nat) (i : Nat) (c : Coro) :
    (cancelCoro asked i c).task = c.task := by
  unfold cancelCoro
  split <;> rfl

/-- A request for cancellation leaves the span of a coroutine alone. -/
theorem cancelCoro_span (asked : List Nat) (i : Nat) (c : Coro) :
    (cancelCoro asked i c).span = c.span := by
  unfold cancelCoro
  split <;> rfl

/-- A request for cancellation keeps the started tasks. -/
theorem coroIds_requestCancel (coros : List Coro) (asked : List Nat) :
    coroIds (coros.mapIdx (cancelCoro asked)) = coroIds coros := by
  refine List.ext_getElem? fun i => ?_
  simp only [coroIds, List.getElem?_map, List.getElem?_mapIdx]
  cases coros[i]? with
  | none => rfl
  | some c => simp [cancelCoro_task]

/-- Each coroutine is one that `run` waits for, or has returned the span that is recorded for its
task. `span` reads the recorded spans. -/
structure Futures (coros : List Coro) (running : List Nat)
    (span : String → Option TaskSpan) : Prop where
  ids_nodup : (coroIds coros).Nodup
  running_nodup : running.Nodup
  waiting : ∀ i ∈ running, ∃ c, coros[i]? = some c ∧ span c.task.id = none
  recorded : ∀ i c, coros[i]? = some c → i ∉ running →
    c.pc = .returned ∧ span c.task.id = some c.span

namespace Futures

variable {coros : List Coro} {running : List Nat} {span : String → Option TaskSpan}

/-- No task is started before the main loop. -/
theorem nil (span : String → Option TaskSpan) : Futures [] [] span where
  ids_nodup := List.nodup_nil
  running_nodup := List.nodup_nil
  waiting := by simp
  recorded := by simp

/-- Two coroutines of one task have one index. -/
theorem index_unique (h : Futures coros running span) {i j : Nat} {c d : Coro}
    (hi : coros[i]? = some c) (hj : coros[j]? = some d) (hid : c.task.id = d.task.id) : i = j := by
  have hi' : (coroIds coros)[i]? = some c.task.id := by simp [coroIds, hi]
  have hj' : (coroIds coros)[j]? = some c.task.id := by simp [coroIds, hj, hid]
  obtain ⟨hlt, hget⟩ := List.getElem?_eq_some_iff.mp hi'
  obtain ⟨hlt', hget'⟩ := List.getElem?_eq_some_iff.mp hj'
  exact (List.Nodup.getElem_inj_iff h.ids_nodup).mp (hget.trans hget'.symm)

/-- A coroutine that is not done takes a step. -/
theorem stepCoro (h : Futures coros running span) {i : Nat} {c c' : Coro}
    (hi : coros[i]? = some c) (htask : c'.task = c.task) (hpc : c.pc ≠ .returned) :
    Futures (coros.set i c') running span := by
  have hids : coroIds (coros.set i c') = coroIds coros := map_set_of_eq _ hi (by rw [htask])
  have hlt : i < coros.length := (List.getElem?_eq_some_iff.mp hi).1
  -- `run` still waits for the coroutine, since it has not returned.
  have hrun : i ∈ running := by
    by_contra hn
    exact hpc (h.recorded i c hi hn).1
  refine ⟨hids ▸ h.ids_nodup, h.running_nodup, fun j hj => ?_, fun j d hd hn => ?_⟩
  · obtain ⟨d, hd, hnone⟩ := h.waiting j hj
    by_cases hij : i = j
    · subst hij
      rw [hi] at hd
      cases hd
      exact ⟨c', List.getElem?_set_self hlt, by rw [htask]; exact hnone⟩
    · exact ⟨d, by rw [List.getElem?_set_ne hij]; exact hd, hnone⟩
  · have hij : i ≠ j := by
      rintro rfl
      exact hn hrun
    rw [List.getElem?_set_ne hij] at hd
    exact h.recorded j d hd hn

/-- A request for cancellation changes no position. -/
theorem requestCancel (h : Futures coros running span) (asked : List Nat) :
    Futures (coros.mapIdx (cancelCoro asked)) running span := by
  have hids := coroIds_requestCancel coros asked
  refine ⟨hids ▸ h.ids_nodup, h.running_nodup, fun i hi => ?_, fun i c hc hn => ?_⟩
  · obtain ⟨c, hc, hnone⟩ := h.waiting i hi
    exact ⟨cancelCoro asked i c, by simp [hc], by rw [cancelCoro_task]; exact hnone⟩
  · rw [List.getElem?_mapIdx] at hc
    obtain ⟨d, hd, rfl⟩ := Option.map_eq_some_iff.mp hc
    obtain ⟨hpc, hsp⟩ := h.recorded i d hd hn
    -- A coroutine that has returned ignores the request.
    have hsame : cancelCoro asked i d = d := by
      unfold cancelCoro
      rw [if_neg]
      rw [hpc]
      simp [CoroPc.isDone]
    rw [hsame]
    exact ⟨hpc, hsp⟩

/-- A task without a span is started. -/
theorem start (h : Futures coros running span) {c : Coro} (hnew : c.task.id ∉ coroIds coros)
    (hnone : span c.task.id = none) :
    Futures (coros ++ [c]) (running ++ [coros.length]) span := by
  have hids : coroIds (coros ++ [c]) = coroIds coros ++ [c.task.id] := by simp [coroIds]
  -- The new future gets the next index, which no running one has.
  have hlt : ∀ i ∈ running, i < coros.length := by
    intro i hi
    obtain ⟨d, hd, -⟩ := h.waiting i hi
    exact (List.getElem?_eq_some_iff.mp hd).1
  refine ⟨?_, ?_, fun i hi => ?_, fun i d hd hn => ?_⟩
  · rw [hids]
    exact List.Nodup.append h.ids_nodup (List.nodup_singleton _) (by simpa using hnew)
  · refine List.Nodup.append h.running_nodup (List.nodup_singleton _) ?_
    rw [List.disjoint_singleton]
    intro hmem
    have := hlt _ hmem
    omega
  · rcases List.mem_append.mp hi with hi | hi
    · obtain ⟨d, hd, hn⟩ := h.waiting i hi
      exact ⟨d, by rw [List.getElem?_append_left (hlt i hi)]; exact hd, hn⟩
    · obtain rfl := List.mem_singleton.mp hi
      exact ⟨c, by simp, hnone⟩
  · rw [List.mem_append, List.mem_singleton, not_or] at hn
    have hi : i < coros.length := by
      have := (List.getElem?_eq_some_iff.mp hd).1
      rw [List.length_append, List.length_singleton] at this
      omega
    rw [List.getElem?_append_left hi] at hd
    exact h.recorded i d hd hn.1

/-- The span of a future that is done is recorded. The other started tasks keep what `span` says
about them. -/
theorem record (h : Futures coros running span) {i : Nat} {c : Coro} (hi : coros[i]? = some c)
    (hrun : i ∈ running) (hpc : c.pc = .returned) {span' : String → Option TaskSpan}
    (hspan : ∀ id ∈ coroIds coros, span' id = if id = c.task.id then some c.span else span id) :
    Futures coros (running.erase i) span' := by
  have hmem : ∀ {j : Nat} {d : Coro}, coros[j]? = some d → d.task.id ∈ coroIds coros :=
    fun hd => List.mem_map_of_mem (List.mem_of_getElem? hd)
  refine ⟨h.ids_nodup, h.running_nodup.erase i, fun j hj => ?_, fun j d hd hn => ?_⟩
  · obtain ⟨hne, hj⟩ := h.running_nodup.mem_erase_iff.mp hj
    obtain ⟨d, hd, hnone⟩ := h.waiting j hj
    refine ⟨d, hd, ?_⟩
    rw [hspan _ (hmem hd), if_neg]
    · exact hnone
    · exact fun hid => hne (h.index_unique hd hi hid)
  · rw [hspan _ (hmem hd)]
    -- Only the future that was taken out has its span recorded; the ids tell the others apart from
    -- it.
    by_cases hij : j = i
    · subst hij
      rw [hi] at hd
      cases hd
      exact ⟨hpc, if_pos rfl⟩
    · have hn : j ∉ running := fun hj => hn (h.running_nodup.mem_erase_iff.mpr ⟨hij, hj⟩)
      obtain ⟨hdpc, hsp⟩ := h.recorded j d hd hn
      refine ⟨hdpc, ?_⟩
      rw [if_neg fun hid => hij (h.index_unique hd hi hid)]
      exact hsp

/-- When `run` waits for nothing, every started task has returned the span recorded for it. -/
theorem all_recorded (h : Futures coros [] span) {c : Coro} (hc : c ∈ coros) :
    c.pc = .returned ∧ span c.task.id = some c.span := by
  obtain ⟨i, hi⟩ := List.mem_iff_getElem?.mp hc
  exact h.recorded i c hi (List.not_mem_nil)

end Futures

/-! ### The invariant -/

/-- Each recorded span belongs to the task it is recorded for. -/
structure SpansOk (env : Env) (spans : Dict String TaskSpan) : Prop where
  key : ∀ id sp, spans.get? id = some sp → sp.id = id
  mem : ∀ id sp, spans.get? id = some sp → id ∈ env.wf.ids

/-- `results` holds the outputs of the succeeded spans. -/
def ResultsOk (m : Main) : Prop :=
  ∀ id v, m.results.get? id = some v ↔
    ∃ sp, m.spans.get? id = some sp ∧ sp.status = .succeeded ∧ sp.output = v

/-- `run` has left the futures of a failed run to themselves. -/
def Abandoned (m : Main) : Prop := m.runFailed = true ∧ m.pc ≠ .cancelWait

/-- A run that has not failed has abandoned nothing. -/
theorem not_abandoned {m : Main} (h : m.runFailed = false) : ¬ Abandoned m := by
  intro hab
  rw [hab.1] at h
  cases h

/-- What holds where `run` stands. After it has raised nothing is promised, since the exception may
leave the books half written. -/
def Phase (env : Env) (s : State) : Prop :=
  match s.main.pc with
  | .head => s.main.runFailed = false
  | .dispatch => s.main.runFailed = false ∧ (s.main.ready ≠ [] ∨ s.main.running ≠ [])
  | .wait => s.main.runFailed = false ∧ s.main.ready = [] ∧ s.main.running ≠ []
  | .process done => s.main.runFailed = false ∧ done.Nodup ∧
      ∀ i ∈ done, i ∈ s.main.running ∧ ∃ c, s.coros[i]? = some c ∧ c.pc.isDone = true
  | .cancelWait => s.main.runFailed = true ∧ s.main.running ≠ []
  | .finish => s.main.ready = [] ∧ s.main.running = [] ∧
      ∀ id ∈ env.wf.ids, s.main.spans.get? id ≠ none
  | .returned rep => s.main.ready = [] ∧ s.main.running = [] ∧
      (∀ id ∈ env.wf.ids, s.main.spans.get? id ≠ none) ∧
      ∃ now, rep = env.report now s.main
  | .start | .raised _ => True

/-- The invariant of a run. The books are kept while the run has not failed; after that the spans
and results still agree with them, and the rest is given up. -/
structure RunInv (env : Env) (s : State) : Prop where
  safe : SafeBooks env s.main s.coros
  task_mem : ∀ c ∈ s.coros, c.task ∈ env.wf.tasks
  span_id : ∀ c ∈ s.coros, c.span.id = c.task.id
  futures : ¬ Abandoned s.main → Futures s.coros s.main.running s.main.spans.get?
  spans : SpansOk env s.main.spans
  results : ResultsOk s.main
  skipped : ∀ id ∈ s.main.skipped, s.main.spans.contains id = true
  books : s.main.runFailed = false → Books env s.main s.coros
  failed : s.main.runFailed = true →
    ∃ id sp, s.main.spans.get? id = some sp ∧ sp.status ≠ .succeeded
  phase : Phase env s

/-- `run` has got past its checks and has not raised. -/
def MainPc.isLive : MainPc → Bool
  | .start | .raised _ => false
  | _ => true

/-! ### Steps of a task coroutine -/

/-- What a step of the `i`-th coroutine leaves of the state: the coroutine becomes `c'`. -/
structure CoroMove (s s' : State) (i : Nat) (c c' : Coro) : Prop where
  main : s'.main = s.main
  coros : s'.coros = s.coros.set i c'
  task : c'.task = c.task
  span_id : c.span.id = c.task.id → c'.span.id = c.task.id
  not_done : c.pc.isDone = false

/-- Each step of a task coroutine is a `CoroMove`. -/
theorem CoroStep.move {s s' : State} {i : Nat} {c : Coro} {a : CoroAction}
    (h : CoroStep env s i c a s') : ∃ c', CoroMove s s' i c c' := by
  -- A coroutine that holds a slot is not done.
  have hholds : ∀ pc : CoroPc, CoroPc.holds pc = true → pc.isDone = false := by
    intro pc hpc
    cases pc <;> first | rfl | cases hpc
  cases h with
  | start hpc hc =>
      exact ⟨_, rfl, rfl, by simp, startTask_span_id env c _ _ _, by rw [hpc]; rfl⟩
  | acquireError e hc he =>
      refine ⟨_, rfl, rfl, by simp, by simp, ?_⟩
      rcases he with ⟨hpc, -⟩ | ⟨hpc, -⟩ <;> rw [hpc] <;> rfl
  | cancelOutside ctx hpc hc =>
      refine ⟨_, rfl, rfl, rfl, id, ?_⟩
      rcases hpc with hpc | hpc <;> rw [hpc] <;> rfl
  | cancelHolder ctx hpc hc => exact ⟨_, rfl, rfl, rfl, by simp, hholds _ hpc⟩
  | timeout ctx hpc hc ht =>
      refine ⟨_, rfl, rfl, by simp, by simp, ?_⟩
      rcases hpc with hpc | hpc <;> rw [hpc] <;> rfl
  | cancelHandler ctx hpc hc =>
      refine ⟨_, rfl, rfl, by simp, by simp, ?_⟩
      rcases hpc with hpc | hpc <;> rw [hpc] <;> rfl
  | _ => exact ⟨_, rfl, rfl, by simp, by simp, by simp [*, CoroPc.isDone]⟩

/-- The books of a state do not depend on where the coroutines are. -/
theorem ledger_congr {m m' : Main} {coros coros' : List Coro} (hindeg : m'.indeg = m.indeg)
    (hready : m'.ready = m.ready) (hspans : m'.spans = m.spans)
    (hids : coroIds coros' = coroIds coros) : ledger m' coros' = ledger m coros := by
  simp only [ledger, hindeg, hready, hspans, hids]

/-- A step of a task coroutine keeps the invariant, while `run` lets it step. -/
theorem RunInv.coroMove {s s' : State} {i : Nat} {c c' : Coro} (h : RunInv env s)
    (hi : s.coros[i]? = some c) (hy : s.main.pc.yields = true) (hs : CoroMove s s' i c c') :
    RunInv env s' := by
  have hc : c ∈ s.coros := List.mem_of_getElem? hi
  have hids : coroIds s'.coros = coroIds s.coros := by
    rw [hs.coros]
    exact map_set_of_eq _ hi (by rw [hs.task])
  have hledger : ledger s'.main s'.coros = ledger s.main s.coros := by
    rw [hs.main]
    exact ledger_congr rfl rfl rfl hids
  have hmem : ∀ x ∈ s'.coros, x ∈ s.coros ∨ x = c' := by
    intro x hx
    rw [hs.coros] at hx
    exact List.mem_or_eq_of_mem_set hx
  refine ⟨?_, ?_, ?_, ?_, ?_, ?_, ?_, ?_, ?_, ?_⟩
  · rw [SafeBooks, hledger]
    exact h.safe
  · intro x hx
    rcases hmem x hx with hx | rfl
    · exact h.task_mem x hx
    · rw [hs.task]
      exact h.task_mem c hc
  · intro x hx
    rcases hmem x hx with hx | rfl
    · exact h.span_id x hx
    · rw [hs.task]
      exact hs.span_id (h.span_id c hc)
  · rw [hs.main, hs.coros]
    intro hab
    refine (h.futures hab).stepCoro hi hs.task fun hpc => ?_
    have hdone := hs.not_done
    rw [hpc] at hdone
    cases hdone
  · rw [hs.main]
    exact h.spans
  · rw [hs.main]
    exact h.results
  · rw [hs.main]
    exact h.skipped
  · rw [Books, hledger, hs.main]
    exact h.books
  · rw [hs.main]
    exact h.failed
  · have hphase := h.phase
    rw [Phase] at hphase ⊢
    rw [hs.main]
    -- `run` visits no future while it lets the coroutines step.
    cases hpc : s.main.pc <;> simp only [hpc] at hphase hy ⊢ <;> first | exact hphase | cases hy

/-! ### Steps of `run` -/

/-- The invariant holds when `run` has got past its checks. -/
theorem RunInv.setup (hacc : Accepted env.wf) {s : State} (hnil : s.coros = []) (now : Nat)
    (sem : Int) (globalBucket : Option TokenBucket)
    (provReq : Dict String (Option TokenBucket)) :
    RunInv env
      { s with
          currentInputs := env.inputs
          main := env.initialMain now
          sem := sem
          globalBucket := globalBucket
          provReq := provReq } := by
  -- There is no coroutine before the setup, so the books are those of a run that has started
  -- nothing.
  have hbooks : Books env (env.initialMain now) s.coros := by
    rw [hnil]
    exact Ledger.inv_init hacc.ids_nodup _ (fun id hid => hacc.initialIndeg_task hid) rfl rfl
      fun _ => rfl
  refine ⟨hbooks.toSafe, ?_, ?_, fun _ => ?_, ⟨?_, ?_⟩, ?_, ?_, fun _ => hbooks, ?_, rfl⟩
  · simp [hnil]
  · simp [hnil]
  · show Futures s.coros [] _
    rw [hnil]
    exact .nil _
  · simp [initialMain]
  · simp [initialMain]
  · intro id v
    simp [initialMain]
  · simp [initialMain]
  · intro hfail
    cases hfail

/-- Starting a task keeps the invariant. -/
theorem RunInv.dispatch (hacc : Accepted env.wf) {s : State} (h : RunInv env s) {tid : String}
    {rest : List String} {t : Task} (hpc : s.main.pc = .dispatch)
    (hr : s.main.ready = tid :: rest) (ht : env.wf.taskMap.get? tid = some t) :
    RunInv env
      { s with
          main := { s.main with
            ready := rest, running := s.main.running ++ [s.coros.length] }
          coros := s.coros ++ [newCoro t s.clock] } := by
  obtain ⟨htask, rfl⟩ := hacc.taskMap_iff.mp ht
  have hphase := h.phase
  rw [Phase, hpc] at hphase
  have hbooks := h.books hphase.1
  have hids : coroIds (s.coros ++ [newCoro t s.clock]) = coroIds s.coros ++ [t.id] := by
    simp [coroIds, newCoro]
  -- In the ledger the task moves from the ready list to the started ones.
  have hledger : ledger
        { s.main with ready := rest, running := s.main.running ++ [s.coros.length] }
        (s.coros ++ [newCoro t s.clock])
      = { ledger s.main s.coros with ready := rest, started := coroIds s.coros ++ [t.id] } := by
    rw [ledger, ledger, hids]
  have hbooks' := hbooks.start hr
  have hready : t.id ∈ (ledger s.main s.coros).ready := by simp [ledger, hr]
  have hab := not_abandoned hphase.1
  have hmem : ∀ x ∈ s.coros ++ [newCoro t s.clock], x ∈ s.coros ∨ x = newCoro t s.clock := by
    intro x hx
    rwa [List.mem_append, List.mem_singleton] at hx
  refine ⟨?_, ?_, ?_, fun _ => ?_, h.spans, h.results, h.skipped, fun _ => ?_, h.failed, ?_⟩
  · rw [SafeBooks, hledger]
    exact hbooks'.toSafe
  · intro x hx
    rcases hmem x hx with hx | rfl
    · exact h.task_mem x hx
    · exact htask
  · intro x hx
    rcases hmem x hx with hx | rfl
    · exact h.span_id x hx
    · rfl
  · refine (h.futures hab).start ?_ (statusOf_eq_none.mp (hbooks.ready_unlabelled hready))
    exact fun hs => List.disjoint_of_nodup_append hbooks.nodup hs hready
  · rw [Books, hledger]
    exact hbooks'
  · rw [Phase, hpc]
    exact ⟨hphase.1, Or.inr (by simp)⟩

/-- What `run` knows about the future it visits: its task was started and has no span yet. -/
theorem RunInv.head_future {s : State} (h : RunInv env s) {i : Nat} {rest : List Nat} {c : Coro}
    (hpc : s.main.pc = .process (i :: rest)) (hi : s.coros[i]? = some c) :
    s.main.runFailed = false ∧ i ∈ s.main.running ∧ c.task.id ∈ coroIds s.coros ∧
      c.task.id ∈ env.wf.ids ∧ s.main.spans.get? c.task.id = none := by
  have hphase := h.phase
  rw [Phase, hpc] at hphase
  obtain ⟨hrun, -, hall⟩ := hphase
  have hmem := (hall i List.mem_cons_self).1
  have hab := not_abandoned hrun
  obtain ⟨d, hd, hnone⟩ := (h.futures hab).waiting i hmem
  rw [hi] at hd
  cases hd
  have hc : c ∈ s.coros := List.mem_of_getElem? hi
  exact ⟨hrun, hmem, List.mem_map_of_mem hc, List.mem_map_of_mem (h.task_mem c hc), hnone⟩

/-- The futures that are left to visit after the first one. -/
theorem RunInv.rest_done {s : State} (h : RunInv env s) {i : Nat} {rest : List Nat}
    (hpc : s.main.pc = .process (i :: rest)) :
    rest.Nodup ∧ ∀ j ∈ rest, j ∈ s.main.running.erase i ∧
      ∃ c, s.coros[j]? = some c ∧ c.pc.isDone = true := by
  have hphase := h.phase
  rw [Phase, hpc] at hphase
  obtain ⟨-, hnd, hall⟩ := hphase
  rw [List.nodup_cons] at hnd
  refine ⟨hnd.2, fun j hj => ?_⟩
  obtain ⟨hrun, hdone⟩ := hall j (List.mem_cons_of_mem i hj)
  have hne : j ≠ i := by
    rintro rfl
    exact hnd.1 hj
  exact ⟨(List.mem_erase_of_ne hne).mpr hrun, hdone⟩

/-- Recording a span under a fresh key changes what is read there. -/
theorem get?_set_cases (spans : Dict String TaskSpan) (tid id : String) (sp : TaskSpan) :
    (spans.set tid sp).get? id = if id = tid then some sp else spans.get? id := by
  by_cases hid : id = tid
  · subst hid
    simp
  · simp [hid]

/-- Recording a span under a fresh key overwrites none. -/
theorem get?_set_keep {spans : Dict String TaskSpan} {tid id : String} {sp x : TaskSpan}
    (hnone : spans.get? tid = none) (hx : spans.get? id = some x) :
    (spans.set tid sp).get? id = some x := by
  rw [get?_set_cases, if_neg]
  · exact hx
  · rintro rfl
    rw [hnone] at hx
    cases hx

/-- Recording a span drops no key. -/
theorem contains_set {spans : Dict String TaskSpan} {tid id : String} {sp : TaskSpan}
    (h : spans.contains id = true) : (spans.set tid sp).contains id = true := by
  rw [Dict.contains, get?_set_cases]
  split
  · rfl
  · exact h

/-- Recording a span of a task under its id keeps `SpansOk`. -/
theorem SpansOk.set {spans : Dict String TaskSpan} (h : SpansOk env spans) {tid : String}
    {sp : TaskSpan} (hid : sp.id = tid) (hmem : tid ∈ env.wf.ids) :
    SpansOk env (spans.set tid sp) := by
  constructor
  · intro id x hx
    rw [get?_set_cases] at hx
    split at hx
    · rename_i heq
      cases hx
      exact hid.trans heq.symm
    · exact h.key id x hx
  · intro id x hx
    rw [get?_set_cases] at hx
    split at hx
    · rename_i heq
      exact heq ▸ hmem
    · exact h.mem id x hx

/-- `results` is right when the same spans have succeeded as before. -/
theorem ResultsOk.congr {m m' : Main} (h : ResultsOk m) (hres : m'.results = m.results)
    (hspans : ∀ id sp, sp.status = .succeeded →
      (m'.spans.get? id = some sp ↔ m.spans.get? id = some sp)) : ResultsOk m' := by
  intro id v
  rw [hres, h id v]
  constructor
  · rintro ⟨sp, hsp, hst, hv⟩
    exact ⟨sp, (hspans id sp hst).mpr hsp, hst, hv⟩
  · rintro ⟨sp, hsp, hst, hv⟩
    exact ⟨sp, (hspans id sp hst).mp hsp, hst, hv⟩

/-- A span that did not succeed, recorded under a fresh key, is no new success. -/
theorem get?_set_succeeded {spans : Dict String TaskSpan} {tid : String} {sp : TaskSpan}
    (hnone : spans.get? tid = none) (hst : sp.status ≠ .succeeded) {id : String} {x : TaskSpan}
    (hx : x.status = .succeeded) :
    (spans.set tid sp).get? id = some x ↔ spans.get? id = some x := by
  constructor
  · intro hget
    rw [get?_set_cases] at hget
    split at hget
    · cases hget
      exact absurd hx hst
    · exact hget
  · exact get?_set_keep hnone

/-- The futures after the first one that is done has been recorded. -/
theorem RunInv.futures_record {s : State} (h : RunInv env s) {i : Nat} {rest : List Nat} {c : Coro}
    (hpc : s.main.pc = .process (i :: rest)) (hi : s.coros[i]? = some c) (hdone : c.pc = .returned)
    {span' : String → Option TaskSpan}
    (hspan : ∀ id ∈ coroIds s.coros,
      span' id = if id = c.task.id then some c.span else s.main.spans.get? id) :
    Futures s.coros (s.main.running.erase i) span' := by
  obtain ⟨hrun, hmem, -⟩ := h.head_future hpc hi
  exact (h.futures (not_abandoned hrun)).record hi hmem hdone hspan

/-- The phase after the first future that is done has been recorded. -/
theorem RunInv.phase_record {s : State} (h : RunInv env s) {i : Nat} {rest : List Nat}
    (hpc : s.main.pc = .process (i :: rest)) {m : Main} (hm : m.pc = .process rest)
    (hrun : m.runFailed = false) (hrunning : m.running = s.main.running.erase i) :
    Phase env { s with main := m } := by
  obtain ⟨hnd, hrest⟩ := h.rest_done hpc
  rw [Phase, hm]
  exact ⟨hrun, hnd, hrunning ▸ hrest⟩

/-- Visiting the future of a task that succeeded keeps the invariant. -/
theorem RunInv.succeeded (hacc : Accepted env.wf) {s : State} (h : RunInv env s) {i : Nat}
    {rest : List Nat} {c : Coro} (hpc : s.main.pc = .process (i :: rest))
    (hi : s.coros[i]? = some c) (hdone : c.pc = .returned) (hst : c.span.status = .succeeded) :
    RunInv env
      { s with main := { popped s.main i c.task.id c.span with
          pc := .process rest
          results := s.main.results.set c.task.id c.span.output
          indeg := (releaseChildren s.main.skipped (env.children c.task.id) s.main.indeg
            s.main.ready).1
          ready := (releaseChildren s.main.skipped (env.children c.task.id) s.main.indeg
            s.main.ready).2 } } := by
  obtain ⟨hrun, -, hstarted, hmem, hnone⟩ := h.head_future hpc hi
  have hc : c ∈ s.coros := List.mem_of_getElem? hi
  have hbooks := h.books hrun
  have hl := statusOf_eq_none.mpr hnone
  -- A marked task keeps a bad dependency, so it is not released.
  have hrelease : releaseChildren s.main.skipped (env.children c.task.id) s.main.indeg s.main.ready
      = release (env.children c.task.id) s.main.indeg s.main.ready := by
    refine releaseChildren_eq _ _ _ _ fun d h1 hle hskip => ?_
    rw [hacc.children_eq] at hle
    have hfree := hbooks.release_unlabelled hacc.ids_nodup hl h1 hle
    have hspan := h.skipped d hskip
    rw [Dict.contains, statusOf_eq_none.mp hfree] at hspan
    cases hspan
  rw [hrelease]
  have hbooks' := hbooks.good_label hacc.ids_nodup (b := c.span.status)
    (by simp [isSucceeded, hst]) hstarted hl
  rw [← hacc.children_eq] at hbooks'
  have hbooks'' : Books env
      { popped s.main i c.task.id c.span with
          pc := .process rest
          results := s.main.results.set c.task.id c.span.output
          indeg := (release (env.children c.task.id) s.main.indeg s.main.ready).1
          ready := (release (env.children c.task.id) s.main.indeg s.main.ready).2 } s.coros := by
    show Ledger.Inv _ _ _ _ { ledger s.main s.coros with
      indeg := (release (env.children c.task.id) s.main.indeg s.main.ready).1
      ready := (release (env.children c.task.id) s.main.indeg s.main.ready).2
      label := statusOf (s.main.spans.set c.task.id c.span) }
    rw [statusOf_set]
    exact hbooks'
  refine ⟨hbooks''.toSafe, h.task_mem, h.span_id, fun _ => ?_, ?_, ?_, ?_, fun _ => hbooks'', ?_,
    h.phase_record hpc rfl hrun rfl⟩
  · exact h.futures_record hpc hi hdone fun id _ => get?_set_cases _ _ _ _
  · exact h.spans.set (h.span_id c hc) hmem
  · intro id v
    show (s.main.results.set c.task.id c.span.output).get? id = some v ↔
      ∃ sp, (s.main.spans.set c.task.id c.span).get? id = some sp ∧ sp.status = .succeeded ∧
        sp.output = v
    rw [get?_set_cases]
    by_cases hid : id = c.task.id
    · subst hid
      simp [hst]
    · rw [Dict.get?_set_ne _ _ hid, if_neg hid]
      exact h.results id v
  · exact fun id hid => contains_set (h.skipped id hid)
  · intro hf
    have hf' : s.main.runFailed = true := hf
    rw [hrun] at hf'
    cases hf'

/-- The tasks that `mark_descendants_skipped` marks after a failure, as a walk over the labels of
the books. None of them was started. -/
theorem RunInv.skip_walk (hacc : Accepted env.wf) {s : State} (h : RunInv env s) {i : Nat}
    {rest : List Nat} {c : Coro} (hpc : s.main.pc = .process (i :: rest))
    (hi : s.coros[i]? = some c) :
    ∃ new, Walked (childrenOf env.wf.ids env.wf.deps) (fun l d => (l d).isSome)
        (Function.update (statusOf s.main.spans) c.task.id (some c.span.status))
        (childrenOf env.wf.ids env.wf.deps c.task.id) new ∧
      env.markDescendantsSkipped c.task.id
          { spans := s.main.spans.set c.task.id c.span, skipped := s.main.skipped }
        = new.foldl markSkipped
          { spans := s.main.spans.set c.task.id c.span, skipped := s.main.skipped } ∧
      (∀ id ∈ new, (s.main.spans.set c.task.id c.span).get? id = none) ∧
      ∀ id ∈ new, id ∉ coroIds s.coros := by
  obtain ⟨-, -, -, -, hnone⟩ := h.head_future hpc hi
  obtain ⟨new, hw, hmarks⟩ := markDescendantsSkipped_spec hacc c.task.id
    { spans := s.main.spans.set c.task.id c.span, skipped := s.main.skipped } fun id hid =>
    contains_set (h.skipped id hid)
  -- The walk reads the spans only through their statuses.
  have hw' : Walked (childrenOf env.wf.ids env.wf.deps) (fun l d => (l d).isSome)
      (Function.update (statusOf s.main.spans) c.task.id (some c.span.status))
      (childrenOf env.wf.ids env.wf.deps c.task.id) new := by
    refine hw.congr (fun d => ?_) (fun _ => Iff.rfl)
    show (Function.update (statusOf s.main.spans) c.task.id (some c.span.status) d).isSome = _
    rw [← statusOf_set]
    simp [statusOf, Dict.contains]
  refine ⟨new, hw', hmarks, fun id hid => ?_,
    h.safe.walked_not_started (statusOf_eq_none.mpr hnone) hw'⟩
  have hfresh := hw.fresh id hid
  simpa [Dict.contains] using hfresh

/-- Visiting the future of a task that failed, when the run goes on, keeps the invariant. -/
theorem RunInv.continue (hacc : Accepted env.wf) {s : State} (h : RunInv env s) {i : Nat}
    {rest : List Nat} {c : Coro} (hpc : s.main.pc = .process (i :: rest))
    (hi : s.coros[i]? = some c) (hdone : c.pc = .returned) (hst : c.span.status ≠ .succeeded)
    (firstError : Option String) :
    RunInv env
      { s with main := { popped s.main i c.task.id c.span with
          pc := .process rest
          firstError := firstError
          spans := (env.markDescendantsSkipped c.task.id
            { spans := s.main.spans.set c.task.id c.span, skipped := s.main.skipped }).spans
          skipped := (env.markDescendantsSkipped c.task.id
            { spans := s.main.spans.set c.task.id c.span,
              skipped := s.main.skipped }).skipped } } := by
  obtain ⟨hrun, -, hstarted, hmem, hnone⟩ := h.head_future hpc hi
  have hc : c ∈ s.coros := List.mem_of_getElem? hi
  have hbooks := h.books hrun
  obtain ⟨new, hw, hmarks, hfresh, hnew⟩ := h.skip_walk hacc hpc hi
  rw [hmarks]
  -- The walk puts placeholders where there was no span, and skips their tasks.
  have hget := fun id => (foldl_markSkipped id new
    { spans := s.main.spans.set c.task.id c.span, skipped := s.main.skipped }).1
  have hskip := fun id => (foldl_markSkipped id new
    { spans := s.main.spans.set c.task.id c.span, skipped := s.main.skipped }).2
  have hlabel : ∀ id, statusOf (new.foldl markSkipped
        { spans := s.main.spans.set c.task.id c.span, skipped := s.main.skipped }).spans id
      = if id ∈ new then some .skipped
        else Function.update (statusOf s.main.spans) c.task.id (some c.span.status) id := by
    intro id
    rw [← statusOf_set, statusOf, hget]
    split <;> rfl
  have hbooks' := hbooks.bad_label rfl (b := c.span.status) (by simp [isSucceeded, hst]) hstarted
    (statusOf_eq_none.mpr hnone) _ hw hlabel
  refine ⟨hbooks'.toSafe, h.task_mem, h.span_id, fun _ => ?_, ⟨fun id sp hsp => ?_,
    fun id sp hsp => ?_⟩, h.results.congr rfl fun id sp hsp => ?_, fun id hid => ?_,
    fun _ => hbooks', ?_, h.phase_record hpc rfl hrun rfl⟩
  · refine h.futures_record hpc hi hdone fun id hid => ?_
    rw [hget, if_neg fun hn => hnew id hn hid]
    exact get?_set_cases _ _ _ _
  · rw [hget] at hsp
    split at hsp
    · cases hsp
      rfl
    · exact (h.spans.set (h.span_id c hc) hmem).key id sp hsp
  · rw [hget] at hsp
    split at hsp
    · rename_i hn
      rcases hw.origin id hn with ho | ⟨y, -, ho⟩
      · exact (mem_childrenOf.mp ho).1
      · exact (mem_childrenOf.mp ho).1
    · exact (h.spans.set (h.span_id c hc) hmem).mem id sp hsp
  · rw [hget]
    split
    · rename_i hn
      refine iff_of_false ?_ ?_
      · rintro heq
        cases heq
        cases hsp
      · intro hx
        have hkeep := @get?_set_keep _ _ _ c.span _ hnone hx
        rw [hfresh id hn] at hkeep
        cases hkeep
    · exact get?_set_succeeded hnone hst hsp
  · rcases (hskip id).mp hid with hn | hid
    · rw [Dict.contains, hget, if_pos hn]
      rfl
    · rw [Dict.contains, hget]
      split
      · rfl
      · exact contains_set (h.skipped id hid)
  · intro hf
    have hf' : s.main.runFailed = true := hf
    rw [hrun] at hf'
    cases hf'

/-- The books after a span is recorded and its label not propagated. -/
theorem RunInv.safe_record {s : State} (h : RunInv env s) {i : Nat} {rest : List Nat} {c : Coro}
    (hpc : s.main.pc = .process (i :: rest)) (hi : s.coros[i]? = some c) {m : Main}
    (hready : m.ready = s.main.ready)
    (hspans : m.spans = s.main.spans.set c.task.id c.span) : SafeBooks env m s.coros := by
  obtain ⟨-, -, hstarted, -, hnone⟩ := h.head_future hpc hi
  have hsafe := h.safe.record (t := c.task.id) c.span.status hstarted (statusOf_eq_none.mpr hnone)
  have hlabel : (ledger m s.coros).label
      = Function.update (ledger s.main s.coros).label c.task.id (some c.span.status) := by
    show statusOf m.spans = _
    rw [hspans]
    exact statusOf_set _ _ _
  have hgood : ∀ t, (ledger m s.coros).isGood isSucceeded t
      = Ledger.isGood isSucceeded { ledger s.main s.coros with
          label := Function.update (ledger s.main s.coros).label c.task.id
            (some c.span.status) } t := by
    intro t
    rw [Ledger.isGood, hlabel]
    rfl
  -- The queues stand still, so only the label of the task is new.
  have hqueue : (ledger m s.coros).started ++ (ledger m s.coros).ready
      = (ledger s.main s.coros).started ++ (ledger s.main s.coros).ready := by
    simp [ledger, hready]
  refine ⟨?_, ?_, fun t ht d hd => ?_, fun t ht => ?_⟩
  · rw [hqueue]
    exact hsafe.nodup
  · rw [hqueue]
    exact hsafe.mem
  · rw [hqueue] at ht
    rw [hgood]
    exact hsafe.deps_good t ht d hd
  · rw [hgood] at ht
    exact hsafe.good_started t ht

/-- A failed run abandons its futures and skips everything that has no span. -/
theorem RunInv.abandoned (hacc : Accepted env.wf) {s : State} {m : Main}
    (hsafe : SafeBooks env m s.coros) (htask : ∀ c ∈ s.coros, c.task ∈ env.wf.tasks)
    (hid : ∀ c ∈ s.coros, c.span.id = c.task.id) (hspans : SpansOk env m.spans)
    (hres : ResultsOk m) (hskip : ∀ id ∈ m.skipped, m.spans.contains id = true)
    (hrun : m.runFailed = true)
    (hfailed : ∃ id sp, m.spans.get? id = some sp ∧ sp.status ≠ .succeeded) :
    RunInv env { s with main := env.abandon m } := by
  have hget := skipRest_get? hacc m.spans
  have hkeep : ∀ id sp, m.spans.get? id = some sp → (env.skipRest m.spans).get? id = some sp := by
    intro id sp hsp
    rw [hget, if_neg]
    · exact hsp
    · rintro ⟨-, hnone⟩
      rw [hnone] at hsp
      cases hsp
  -- A span that was not there before is a placeholder, and none of those succeeded.
  have hold : ∀ id sp, (env.skipRest m.spans).get? id = some sp →
      m.spans.get? id = some sp ∨ (id ∈ env.wf.ids ∧ sp = { id := id, status := .skipped }) := by
    intro id sp hsp
    rw [hget] at hsp
    split at hsp
    · rename_i hn
      cases hsp
      exact Or.inr ⟨hn.1, rfl⟩
    · exact Or.inl hsp
  have hgood : ∀ id sp, sp.status = .succeeded →
      ((env.skipRest m.spans).get? id = some sp ↔ m.spans.get? id = some sp) := by
    intro id sp hst
    refine ⟨fun hsp => ?_, hkeep id sp⟩
    rcases hold id sp hsp with hsp | ⟨-, rfl⟩
    · exact hsp
    · cases hst
  refine ⟨?_, htask, hid, fun hab => ?_, ⟨?_, ?_⟩, hres.congr rfl hgood, ?_, ?_, fun _ => ?_,
    ⟨rfl, rfl, fun id hmem => ?_⟩⟩
  · -- Skipped spans make no node of the books good.
    refine hsafe.clear.labels _ fun d => ?_
    rw [Bool.eq_iff_iff]
    refine (@isGood_ledger (env.abandon m) s.coros d).trans
      (Iff.trans ?_ (@isGood_ledger m s.coros d).symm)
    constructor
    · rintro ⟨sp, hsp, hst⟩
      exact ⟨sp, (hgood d sp hst).mp hsp, hst⟩
    · rintro ⟨sp, hsp, hst⟩
      exact ⟨sp, hkeep d sp hsp, hst⟩
  · exact absurd ⟨hrun, by simp [abandon]⟩ hab
  · intro id sp hsp
    rcases hold id sp hsp with hsp | ⟨-, rfl⟩
    · exact hspans.key id sp hsp
    · rfl
  · intro id sp hsp
    rcases hold id sp hsp with hsp | ⟨hmem, -⟩
    · exact hspans.mem id sp hsp
    · exact hmem
  · intro id hin
    have hspan := hskip id hin
    rw [Dict.contains, Option.isSome_iff_exists] at hspan ⊢
    obtain ⟨x, hx⟩ := hspan
    exact ⟨x, hkeep id x hx⟩
  · intro hf
    have hf' : m.runFailed = false := hf
    rw [hrun] at hf'
    cases hf'
  · obtain ⟨id, sp, hsp, hst⟩ := hfailed
    exact ⟨id, sp, hkeep id sp hsp, hst⟩
  · show (env.skipRest m.spans).get? id ≠ none
    rw [hget]
    split
    · simp
    · rename_i hn
      exact fun hnone => hn ⟨hmem, hnone⟩

/-- Visiting the future of the last running task, when its failure ends the run, keeps the
invariant. -/
theorem RunInv.failFast (hacc : Accepted env.wf) {s : State} (h : RunInv env s) {i : Nat}
    {rest : List Nat} {c : Coro} (hpc : s.main.pc = .process (i :: rest))
    (hi : s.coros[i]? = some c) (hst : c.span.status ≠ .succeeded) :
    RunInv env { s with main := env.abandon (failedFast s.main i c.task.id c.span) } := by
  obtain ⟨-, -, -, hmem, hnone⟩ := h.head_future hpc hi
  have hc : c ∈ s.coros := List.mem_of_getElem? hi
  refine .abandoned hacc (h.safe_record hpc hi rfl rfl) h.task_mem h.span_id
    (h.spans.set (h.span_id c hc) hmem)
    (h.results.congr rfl fun id sp hsp => get?_set_succeeded hnone hst hsp)
    (fun id hid => contains_set (h.skipped id hid)) rfl
    ⟨c.task.id, c.span, Dict.get?_set_self _ _ _, hst⟩

/-- Asking the running tasks to stop, after a failure that ends the run, keeps the invariant. -/
theorem RunInv.cancelAll {s : State} (h : RunInv env s) {i : Nat} {rest : List Nat} {c : Coro}
    (hpc : s.main.pc = .process (i :: rest)) (hi : s.coros[i]? = some c) (hdone : c.pc = .returned)
    (hst : c.span.status ≠ .succeeded) (hmore : s.main.running.erase i ≠ []) :
    RunInv env
      { s with
          main := { failedFast s.main i c.task.id c.span with pc := .cancelWait }
          coros := s.coros.mapIdx (cancelCoro (s.main.running.erase i)) } := by
  obtain ⟨-, -, -, hmem, hnone⟩ := h.head_future hpc hi
  have hc : c ∈ s.coros := List.mem_of_getElem? hi
  have hids := coroIds_requestCancel s.coros (s.main.running.erase i)
  -- A request to cancel changes neither the task nor the span of a coroutine.
  have hfrom : ∀ x ∈ s.coros.mapIdx (cancelCoro (s.main.running.erase i)),
      ∃ y ∈ s.coros, x.task = y.task ∧ x.span = y.span := by
    intro x hx
    obtain ⟨j, hj⟩ := List.mem_iff_getElem?.mp hx
    rw [List.getElem?_mapIdx] at hj
    obtain ⟨y, hy, rfl⟩ := Option.map_eq_some_iff.mp hj
    exact ⟨y, List.mem_of_getElem? hy, cancelCoro_task _ _ _, cancelCoro_span _ _ _⟩
  refine ⟨?_, fun x hx => ?_, fun x hx => ?_, fun _ => ?_, h.spans.set (h.span_id c hc) hmem,
    h.results.congr rfl fun id sp hsp => get?_set_succeeded hnone hst hsp,
    fun id hid => contains_set (h.skipped id hid), ?_,
    fun _ => ⟨c.task.id, c.span, Dict.get?_set_self _ _ _, hst⟩, rfl, hmore⟩
  · have hsafe := @RunInv.safe_record _ _ h _ _ _ hpc hi
      { failedFast s.main i c.task.id c.span with pc := .cancelWait } rfl rfl
    -- The ledger does not see the requests.
    have hledger : ledger { failedFast s.main i c.task.id c.span with pc := .cancelWait }
          (s.coros.mapIdx (cancelCoro (s.main.running.erase i)))
        = ledger { failedFast s.main i c.task.id c.span with pc := .cancelWait } s.coros :=
      ledger_congr rfl rfl rfl hids
    rw [SafeBooks, hledger]
    exact hsafe
  · obtain ⟨y, hy, htask, -⟩ := hfrom x hx
    exact htask ▸ h.task_mem y hy
  · obtain ⟨y, hy, htask, hspan⟩ := hfrom x hx
    rw [htask, hspan]
    exact h.span_id y hy
  · exact (h.futures_record hpc hi hdone fun id _ => get?_set_cases _ _ _ _).requestCancel _
  · intro hf
    cases hf

/-- A step of `run` from a state past its checks keeps the invariant, unless it raises. -/
theorem RunInv.mainStepped (hacc : Accepted env.wf) {s s' : State} (h : RunInv env s)
    (hlive : s.main.pc.isLive = true) (hs : MainStepped env s s')
    (hlive' : s'.main.pc.isLive = true) : RunInv env s' := by
  have hphase := h.phase
  cases hs with
  | refuse e hpc he => cases hlive'
  | setup buckets hpc hb =>
      rw [hpc] at hlive
      cases hlive
  | enter hpc hor =>
      rw [Phase, hpc] at hphase
      exact ⟨h.safe, h.task_mem, h.span_id, fun _ => h.futures (not_abandoned hphase), h.spans,
        h.results, h.skipped, h.books, h.failed, hphase, hor⟩
  | leave hpc hready hrunning =>
      have hrun : s.main.runFailed = false := by
        rw [Phase] at hphase
        rcases hpc with hpc | hpc <;> rw [hpc] at hphase
        · exact hphase
        · exact hphase.1
      have hfut := h.futures (not_abandoned hrun)
      refine ⟨h.safe, h.task_mem, h.span_id, fun _ => hfut, h.spans, h.results, h.skipped, h.books,
        h.failed, hready, hrunning, fun id hid hnone => ?_⟩
      -- Every started task has a span, so every task has one.
      refine (h.books hrun).complete (fun t ht d hd => hacc.deps_ids ht hd) hacc.acyclic hready ?_
        id hid (statusOf_eq_none.mpr hnone)
      intro t ht hl
      obtain ⟨c, hc, rfl⟩ := List.mem_map.mp ht
      rw [hrunning] at hfut
      have hsome := (hfut.all_recorded hc).2
      rw [statusOf_eq_none.mp hl] at hsome
      cases hsome
  | suspend hpc hready hrunning =>
      rw [Phase, hpc] at hphase
      exact ⟨h.safe, h.task_mem, h.span_id, fun _ => h.futures (not_abandoned hphase.1), h.spans,
        h.results, h.skipped, h.books, h.failed, hphase.1, hready, hrunning⟩
  | drop tid rest hpc hready hskip =>
      -- A queued task has no span, so it is not marked.
      rw [Phase, hpc] at hphase
      have hnone := (h.books hphase.1).ready_unlabelled (t := tid) (by simp [ledger, hready])
      have hspan := h.skipped tid hskip
      rw [Dict.contains, statusOf_eq_none.mp hnone] at hspan
      cases hspan
  | dispatch tid rest t hpc hready hskip ht => exact h.dispatch hacc hpc hready ht
  | next hpc =>
      rw [Phase, hpc] at hphase
      exact ⟨h.safe, h.task_mem, h.span_id, fun _ => h.futures (not_abandoned hphase.1), h.spans,
        h.results, h.skipped, h.books, h.failed, hphase.1⟩
  | succeeded i rest c hpc hi hdone hst => exact h.succeeded hacc hpc hi hdone hst
  | «continue» i rest c t hpc hi hdone hst ht hpol => exact h.continue hacc hpc hi hdone hst _
  | failFast i rest c t hpc hi hdone hst ht hpol hlast => exact h.failFast hacc hpc hi hst
  | cancelAll i rest c t hpc hi hdone hst ht hpol hmore => exact h.cancelAll hpc hi hdone hst hmore
  | raise i rest c e hpc hi hdone => cases hlive'
  | abandon hpc hall =>
      rw [Phase, hpc] at hphase
      exact .abandoned hacc h.safe h.task_mem h.span_id h.spans h.results h.skipped hphase.1
        (h.failed hphase.1)
  | finish hpc =>
      rw [Phase, hpc] at hphase
      refine ⟨h.safe, h.task_mem, h.span_id, fun hab => h.futures fun hab' => hab ?_, h.spans,
        h.results, h.skipped, h.books, h.failed, hphase.1, hphase.2.1, hphase.2.2, s.clock, rfl⟩
      exact ⟨hab'.1, by simp⟩

/-- A step from a state past the checks of `run` keeps the invariant, unless `run` raises. -/
theorem RunInv.step (hacc : Accepted env.wf) {s s' : State} {a : Action} (h : RunInv env s)
    (hlive : s.main.pc.isLive = true) (hs : env.step? s a = some s')
    (hlive' : s'.main.pc.isLive = true) : RunInv env s' := by
  cases step_inv hs with
  | main hm => exact h.mainStepped hacc hlive hm hlive'
  -- The order in which the finished futures are processed is any permutation of them.
  | wake order hw =>
      have hphase := h.phase
      rw [Phase, hw.pc] at hphase
      obtain ⟨hrun, hready, hrunning⟩ := hphase
      have hfut := h.futures (not_abandoned hrun)
      refine ⟨h.safe, h.task_mem, h.span_id, fun _ => hfut, h.spans, h.results, h.skipped, h.books,
        h.failed, hrun, ?_, fun i hi => ?_⟩
      · exact hw.perm.nodup_iff.mpr (hfut.running_nodup.filter _)
      · have hin := List.mem_filter.mp (hw.perm.mem_iff.mp hi)
        rw [Option.any_eq_true] at hin
        exact hin
  | coro hi hy hstep =>
      obtain ⟨c', hmove⟩ := hstep.move
      exact h.coroMove hi hy hmove
  | threadEnd i attempt ho =>
      exact ⟨h.safe, h.task_mem, h.span_id, h.futures, h.spans, h.results, h.skipped, h.books,
        h.failed, h.phase⟩
  | cancel hpc => cases hlive'
  | tick d =>
      exact ⟨h.safe, h.task_mem, h.span_id, h.futures, h.spans, h.results, h.skipped, h.books,
        h.failed, h.phase⟩

/-- `run` makes its checks once. -/
theorem MainStepped.not_start {s s' : State} (h : MainStepped env s s') :
    s'.main.pc ≠ .start := by
  cases h with
  | drop tid rest hpc hready hskip =>
      show s.main.pc ≠ .start
      rw [hpc]
      exact MainPc.noConfusion
  | dispatch tid rest t hpc hready hskip ht =>
      show s.main.pc ≠ .start
      rw [hpc]
      exact MainPc.noConfusion
  | _ => exact MainPc.noConfusion

/-- Before its checks `run` has started no task, and after them the invariant holds. -/
structure Sound (env : Env) (s : State) : Prop where
  start : s.main.pc = .start → s.coros = []
  live : s.main.pc.isLive = true → RunInv env s

/-- Every step keeps `Sound`. -/
theorem Sound.step (hacc : Accepted env.wf) {s s' : State} {a : Action} (h : Sound env s)
    (hs : env.step? s a = some s') : Sound env s' := by
  -- From a live state to a live state the invariant is kept.
  have hkeep : s.main.pc.isLive = true → s'.main.pc.isLive = true → RunInv env s' :=
    fun hlive hlive' => (h.live hlive).step hacc hlive hs hlive'
  cases step_inv hs with
  | main hm =>
      refine ⟨fun hstart => absurd hstart hm.not_start, fun hlive' => ?_⟩
      cases hlive : s.main.pc.isLive with
      | true => exact hkeep hlive hlive'
      | false =>
          have hoff : ∀ pc : MainPc, s.main.pc = pc → pc.isLive = true → False := by
            rintro _ rfl hl
            rw [hlive] at hl
            cases hl
          cases hm with
          | refuse e hpc he => cases hlive'
          | setup buckets hpc hb => exact .setup hacc (h.start hpc) _ _ _ _
          | leave hpc _ _ =>
              rcases hpc with hpc | hpc
              · exact (hoff _ hpc rfl).elim
              · exact (hoff _ hpc rfl).elim
          | enter hpc _ => exact (hoff _ hpc rfl).elim
          | suspend hpc _ _ => exact (hoff _ hpc rfl).elim
          | drop _ _ hpc _ _ => exact (hoff _ hpc rfl).elim
          | dispatch _ _ _ hpc _ _ _ => exact (hoff _ hpc rfl).elim
          | next hpc => exact (hoff _ hpc rfl).elim
          | succeeded _ _ _ hpc _ _ _ => exact (hoff _ hpc rfl).elim
          | «continue» _ _ _ _ hpc _ _ _ _ _ => exact (hoff _ hpc rfl).elim
          | failFast _ _ _ _ hpc _ _ _ _ _ _ => exact (hoff _ hpc rfl).elim
          | cancelAll _ _ _ _ hpc _ _ _ _ _ _ => exact (hoff _ hpc rfl).elim
          | raise _ _ _ _ hpc _ _ => exact (hoff _ hpc rfl).elim
          | abandon hpc _ => exact (hoff _ hpc rfl).elim
          | finish hpc => exact (hoff _ hpc rfl).elim
  | wake order hw =>
      refine ⟨fun hstart => MainPc.noConfusion hstart, hkeep ?_⟩
      rw [hw.pc]
      rfl
  | coro hi hy hstep =>
      obtain ⟨c', hmove⟩ := hstep.move
      refine ⟨fun hstart => ?_, fun hlive' => hkeep (hmove.main ▸ hlive') hlive'⟩
      rw [hmove.main] at hstart
      rw [hstart] at hy
      cases hy
  | threadEnd i attempt ho => exact ⟨h.start, fun hlive' => hkeep hlive' hlive'⟩
  | cancel hpc => exact ⟨fun hstart => MainPc.noConfusion hstart, Bool.noConfusion⟩
  | tick d => exact ⟨h.start, fun hlive' => hkeep hlive' hlive'⟩

/-- `Sound` holds in every reachable state of a run of an accepted workflow. -/
theorem reachable_sound (hacc : Accepted env.wf) {s : State} (hs : env.system.Reachable s) :
    Sound env s :=
  hs.holds (P := Sound env) ⟨fun _ => rfl, Bool.noConfusion⟩
    fun _ _ _ _ h ha => h.step hacc ha

/-- The invariant holds in every reachable state past the checks in which `run` has not raised. -/
theorem reachable_runInv (hacc : Accepted env.wf) {s : State} (hs : env.system.Reachable s)
    (hlive : s.main.pc.isLive = true) : RunInv env s :=
  (reachable_sound hacc hs).live hlive

/-- A step starts coroutines and keeps the tasks of those that are there. -/
theorem coroIds_grow {s s' : State} {a : Action} (h : Stepped env s a s') :
    coroIds s.coros <+: coroIds s'.coros := by
  cases h with
  | main hm =>
      cases hm with
      | dispatch tid rest t hpc hready hskip ht =>
          show coroIds s.coros <+: coroIds (s.coros ++ [newCoro t s.clock])
          rw [coroIds, coroIds, List.map_append]
          exact List.prefix_append _ _
      | cancelAll i rest c t hpc hi hdone hst ht hpol hmore =>
          show coroIds s.coros <+: coroIds (s.coros.mapIdx _)
          rw [coroIds_requestCancel]
      | _ => exact List.prefix_rfl
  -- A coroutine keeps its task, so only a dispatch changes the list of ids.
  | coro hi hy hs =>
      obtain ⟨c', hmove⟩ := hs.move
      have hids : coroIds s'.coros = coroIds s.coros := by
        rw [hmove.coros]
        exact map_set_of_eq _ hi (by rw [hmove.task])
      rw [hids]
  | _ => exact List.prefix_rfl

end Orchestrator.Sdk.Runner
