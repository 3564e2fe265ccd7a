import Orchestrator.Proofs.Flight

/-!
# `Orchestrator.Proofs.RunInv`: the invariant of `Scheduler.Run`

`RunInv env s` holds in every reachable state of a run of an accepted workflow (`reachable_runInv`).
It ties together

* the goroutines, the channel and `inFlight` (`Flight`);
* the counters, the ready queue, the dispatched tasks and the statuses of the spans (`Ledger.Safe`,
  and `Ledger.Inv` until the run fails);
* `results` and the snapshots handed to the goroutines, which repeat recorded outputs;
* where the main goroutine stands (`Phase`).

The books of a state are a projection of it (`ledger`), so the rules of `Orchestrator.Lib.Ledger` do
the work of the dispatch, success and failure steps. A success counts down the tasks that depend on
it, and a failure is propagated along the children; both are operations on the books, and what they
preserve is proved there for any graph.

A step of a task goroutine changes its own goroutine, and at its send the channel, and nothing else
(`GoStep`); for these steps the invariant is a matter of `Flight`. The steps of the main goroutine
are taken one by one: `dispatch`, `receive_succeeded`, `receive_failFast`, `receive_continue`,
`drain`, `drained`. After a `fail_fast` failure the labels are no longer propagated, so only the
safe half of the books is kept, which is enough for what is promised about the spans.

The last part has two consequences that other modules need: the main goroutine overwrites no span
(`spans_mono`), and a span of a task that never started is a placeholder (`reachable_placed`).
-/

set_option autoImplicit false

namespace Orchestrator.Proofs

open Orchestrator.Lib Orchestrator.Engine Orchestrator.Engine.Env
open scoped List

variable {B : Type} {env : Env B}

/-! ### The books of a state -/

/-- The status that lets dependents start. -/
def isSucceeded (st : Status) : Bool := st = .succeeded

/-- The status of a recorded span. -/
def statusOf (spans : Dict String TaskSpan) (id : String) : Option Status :=
  (spans.get? id).map (·.status)

/-- The books of a state, in the terms of `Lib.Ledger`: the tasks that started are the goroutines,
and a label is the status of a recorded span. -/
def ledger (main : Main) (gos : List Goroutine) : Ledger String Status where
  indeg := main.indeg
  ready := main.ready
  started := goIds gos
  label := statusOf main.spans

/-- The books agree with the dependencies, whatever happens after a failure. -/
abbrev SafeBooks (env : Env B) (main : Main) (gos : List Goroutine) : Prop :=
  Ledger.Safe env.wf.ids env.wf.deps isSucceeded (ledger main gos)

/-- The books agree with the dependencies, and every label has been propagated. -/
abbrev Books (env : Env B) (main : Main) (gos : List Goroutine) : Prop :=
  Ledger.Inv env.wf.ids env.wf.deps isSucceeded .skipped (ledger main gos)

/-- Recording a span under its own id changes the status of that task. -/
theorem statusOf_set (spans : Dict String TaskSpan) (sp : TaskSpan) :
    statusOf (spans.set sp.id sp) = Function.update (statusOf spans) sp.id (some sp.status) :=
  Dict.map_get?_set _ spans sp.id sp

/-- A task has no status when it has no span. -/
theorem statusOf_eq_none {spans : Dict String TaskSpan} {id : String} :
    statusOf spans id = none ↔ spans.get? id = none := by
  simp [statusOf]

/-- A task has the status of its span. -/
theorem statusOf_eq_some {spans : Dict String TaskSpan} {id : String} {st : Status} :
    statusOf spans id = some st ↔ ∃ sp, spans.get? id = some sp ∧ sp.status = st := by
  simp [statusOf]

/-- A good node of the books is a task with a succeeded span. -/
theorem isGood_ledger {main : Main} {gos : List Goroutine} {id : String} :
    (ledger main gos).isGood isSucceeded id = true ↔
      ∃ sp, main.spans.get? id = some sp ∧ sp.status = .succeeded := by
  rw [Ledger.isGood_iff]
  simp only [ledger, statusOf_eq_some, isSucceeded, decide_eq_true_iff]
  constructor
  · rintro ⟨_, ⟨sp, hsp, rfl⟩, hs⟩
    exact ⟨sp, hsp, hs⟩
  · rintro ⟨sp, hsp, hs⟩
    exact ⟨sp.status, ⟨sp, hsp, rfl⟩, hs⟩

/-! ### The invariant -/

/-- Each recorded span belongs to the task it is recorded for. -/
structure SpansOk (env : Env B) (spans : Dict String TaskSpan) : Prop where
  key : ∀ id sp, spans.get? id = some sp → sp.id = id
  mem : ∀ id sp, spans.get? id = some sp → id ∈ env.wf.ids

/-- `results` holds outputs of succeeded spans. -/
def ResultsSound (main : Main) : Prop :=
  ∀ id v, main.results.get? id = some v →
    ∃ sp, main.spans.get? id = some sp ∧ sp.status = .succeeded ∧ sp.output = v

/-- `results` holds the output of every succeeded span. -/
def ResultsComplete (main : Main) : Prop :=
  ∀ id sp, main.spans.get? id = some sp → sp.status = .succeeded →
    main.results.get? id = some sp.output

/-- A dispatched goroutine holds the outputs of all transitive dependencies of its task. They are a
part of the results, so they stay true while results are added. -/
structure SnapshotOk (env : Env B) (main : Main) (g : Goroutine) : Prop where
  sub : ∀ id v, g.snapshot.get? id = some v → main.results.get? id = some v
  deps : ∀ d, Relation.TransGen (fun d t => d ∈ env.wf.deps t) d g.task.id →
    ∃ v, g.snapshot.get? d = some v

/-- What holds where the main goroutine stands. Each place is entered under a test of the source,
and the clause for it is what the test has shown. -/
def Phase (env : Env B) (main : Main) : Prop :=
  match main.pc with
  | .head => main.runFailed = false
  | .dispatch => main.runFailed = false ∧ (main.ready ≠ [] ∨ 0 < main.inFlight)
  | .recv => main.runFailed = false ∧ main.ready = [] ∧ 0 < main.inFlight
  | .drain => main.runFailed = true
  | .finish => main.ready = [] ∧ ¬ 0 < main.inFlight ∧
      ∀ id ∈ env.wf.ids, main.spans.get? id ≠ none
  | .returned rep => main.ready = [] ∧ ¬ 0 < main.inFlight ∧
      (∀ id ∈ env.wf.ids, main.spans.get? id ≠ none) ∧
      ∃ now, rep = env.report now main

/-- The invariant of a run. It joins the books of the scheduler, the goroutines under way, the
recorded spans and the place of the main goroutine, and most results about runs are read off it. -/
structure RunInv (env : Env B) (s : State B) : Prop where
  safe : SafeBooks env s.main s.gos
  flight : Flight s.gos s.doneCh s.main.spans.get? s.main.inFlight
  task_mem : ∀ g ∈ s.gos, g.task ∈ env.wf.tasks
  spans : SpansOk env s.main.spans
  results : ResultsSound s.main
  snapshot : ∀ g ∈ s.gos, SnapshotOk env s.main g
  books : s.main.runFailed = false → Books env s.main s.gos ∧ ResultsComplete s.main
  failed : s.main.runFailed = true →
    s.cancelled = true ∧ ∃ id sp, s.main.spans.get? id = some sp ∧ sp.status ≠ .succeeded
  phase : Phase env s.main

/-- Where a report is, the main goroutine has returned it. -/
theorem report?_eq_some {s : State B} {rep : Report} :
    s.report? = some rep ↔ s.main.pc = .returned rep := by
  unfold State.report?
  split
  · rename_i r hpc
    simp [hpc]
  · rename_i hpc
    simpa using hpc rep

/-- What holds once `Run` has returned. -/
theorem RunInv.returned {s : State B} (h : RunInv env s) {rep : Report}
    (hrep : s.report? = some rep) :
    ¬ 0 < s.main.inFlight ∧ (∀ id ∈ env.wf.ids, s.main.spans.get? id ≠ none) ∧
      ∃ now, rep = env.report now s.main := by
  have hphase := h.phase
  rw [Phase, report?_eq_some.mp hrep] at hphase
  exact hphase.2

/-! ### Steps of a task goroutine -/

/-- What a step of the `i`-th goroutine leaves of the state: the goroutine becomes `g'`, and
its span enters `doneCh` when the step is its send. -/
structure GoStep (s s' : State B) (i : Nat) (g g' : Goroutine) (a : TaskAction) : Prop where
  main : s'.main = s.main
  cancelled : s'.cancelled = s.cancelled
  gos : s'.gos = s.gos.set i g'
  task : g'.task = g.task
  snapshot : g'.snapshot = g.snapshot
  span_id : g.span.id = g.task.id → g'.span.id = g.task.id
  /-- Only the two cancellation exits make a span skipped. -/
  skipped : g'.span.status = .skipped →
    g.span.status = .skipped ∨ a = .cancelSlot ∨ a = .cancelWait
  not_done : g.pc ≠ .done
  chan : (g'.pc ≠ .done ∧ s'.doneCh = s.doneCh) ∨
    (g' = { g with pc := .done } ∧ s'.doneCh = s.doneCh ++ [g.span])

/-- Each step of a task goroutine is a `GoStep`. -/
theorem TaskStep.goStep {s s' : State B} {i : Nat} {g : Goroutine} {a : TaskAction}
    (h : TaskStep env s i g a s') : ∃ g', GoStep s s' i g g' a := by
  cases h with
  | resolve hpc =>
      refine ⟨_, rfl, rfl, rfl, by simp, by simp, by simp, by simp, by simp [hpc],
        Or.inl ⟨?_, rfl⟩⟩
      rcases resolveInputs_pc env g s.clock with h | h <;> simp [h]
  | takeSlot hpc _ =>
      exact ⟨_, rfl, rfl, rfl, rfl, rfl, id, Or.inl, by simp [hpc], Or.inl ⟨by simp, rfl⟩⟩
  | cancelSlot hpc _ =>
      exact ⟨_, rfl, rfl, rfl, rfl, rfl, id, by simp, by simp [hpc], Or.inl ⟨by simp, rfl⟩⟩
  | grantGlobal b hpc _ =>
      refine ⟨_, rfl, rfl, rfl, rfl, rfl, id, Or.inl, by simp [hpc], Or.inl ⟨?_, rfl⟩⟩
      rcases afterGlobal_pc g s.provLimiters with h | h <;> simp [h]
  | denyGlobal b hpc _ =>
      exact ⟨_, rfl, rfl, rfl, rfl, rfl, id, Or.inl, by simp [hpc], Or.inl ⟨by simp, rfl⟩⟩
  | grantProvider b b' hpc _ _ =>
      exact ⟨_, rfl, rfl, rfl, rfl, rfl, id, Or.inl, by simp [hpc], Or.inl ⟨by simp, rfl⟩⟩
  | denyProvider b b' hpc _ _ =>
      exact ⟨_, rfl, rfl, rfl, rfl, rfl, id, Or.inl, by simp [hpc], Or.inl ⟨by simp, rfl⟩⟩
  | timerGlobal hpc =>
      exact ⟨_, rfl, rfl, rfl, rfl, rfl, id, Or.inl, by simp [hpc], Or.inl ⟨by simp, rfl⟩⟩
  | timerProvider hpc =>
      exact ⟨_, rfl, rfl, rfl, rfl, rfl, id, Or.inl, by simp [hpc], Or.inl ⟨by simp, rfl⟩⟩
  | cancelWait hpc _ =>
      refine ⟨_, rfl, rfl, rfl, rfl, rfl, id, by simp, ?_, Or.inl ⟨by simp, rfl⟩⟩
      rcases hpc with hpc | hpc <;> simp [hpc]
  | call hpc =>
      exact ⟨_, rfl, rfl, rfl, rfl, rfl, id, Or.inl, by simp [hpc], Or.inl ⟨by simp, rfl⟩⟩
  -- The three steps that compute the next state need the lemma that says which ones there are.
  | ret res err hpc =>
      refine ⟨_, rfl, rfl, rfl, by simp, by simp, by simp, fun h => Or.inl ?_, by simp [hpc],
        Or.inl ⟨?_, rfl⟩⟩
      · exact afterExecute_skipped env g s.clock res err h
      rcases afterExecute_pc env g s.clock res err with h | h <;> simp [h]
  | wake hpc =>
      refine ⟨_, rfl, rfl, rfl, by simp, by simp, by simp, fun h => Or.inl (by simpa using h),
        by simp [hpc], Or.inl ⟨?_, rfl⟩⟩
      rcases enterAttempt_pc env g s.clock (g.span.attempts + 1) with h | h <;> simp [h]
  | send hpc _ =>
      exact ⟨_, rfl, rfl, rfl, rfl, rfl, id, Or.inl, by simp [hpc], Or.inr ⟨rfl, rfl⟩⟩

/-- A goroutine stays at its index. -/
theorem gos_persist {s s' : State B} {a : Action} (h : env.step? s a = some s') {i : Nat}
    (hi : s.gos[i]?.isSome = true) : s'.gos[i]?.isSome = true := by
  have hlen : i < s.gos.length → i < s'.gos.length := by
    intro hlt
    rcases step_inv h with ⟨-, hm⟩ | ⟨j, b, g, -, hg, ht⟩ | ⟨-, rfl⟩ | ⟨d, -, rfl⟩
    · rcases hm.gos with hgos | ⟨t, hgos⟩ <;> rw [hgos]
      · exact hlt
      · rw [List.length_append]
        omega
    · obtain ⟨g', hgs⟩ := ht.goStep
      rw [hgs.gos, List.length_set]
      exact hlt
    · exact hlt
    · exact hlt
  simpa using hlen (by simpa using hi)

/-- A goroutine that takes no step stays as it is. -/
theorem go_frame {s s' : State B} {b : Action} (hs : env.step? s b = some s') {i : Nat}
    {g : Goroutine} (hg : s.gos[i]? = some g) (hb : ∀ a, b ≠ .task i a) : s'.gos[i]? = some g := by
  rcases step_inv hs with ⟨-, hm⟩ | ⟨j, a, x, rfl, hx, ht⟩ | ⟨-, rfl⟩ | ⟨d, -, rfl⟩
  · rcases hm.gos with hgos | ⟨_, hgos⟩ <;> rw [hgos]
    · exact hg
    · rw [List.getElem?_append_left (List.getElem?_eq_some_iff.mp hg).1, hg]
  · obtain ⟨x', hgos⟩ := ht.goStep
    have hij : j ≠ i := by
      rintro rfl
      exact hb a rfl
    rw [hgos.gos, List.getElem?_set_ne hij, hg]
  · exact hg
  · exact hg

/-- A cancelled run context stays cancelled. -/
theorem cancelled_persist {s s' : State B} {a : Action} (h : env.step? s a = some s')
    (hc : s.cancelled = true) : s'.cancelled = true := by
  rcases step_inv h with ⟨-, hm⟩ | ⟨j, b, g, -, hg, ht⟩ | ⟨-, rfl⟩ | ⟨d, -, rfl⟩
  · cases hm with
    | receive span rest r _ _ _ =>
        show (s.cancelled || r.cancel) = true
        rw [hc, Bool.true_or]
    | _ => exact hc
  · obtain ⟨g', hgs⟩ := ht.goStep
    rw [hgs.cancelled]
    exact hc
  · rfl
  · exact hc

/-- A step of a task goroutine keeps the invariant. -/
theorem RunInv.goStep {s s' : State B} {i : Nat} {g g' : Goroutine} (h : RunInv env s)
    {a : TaskAction}
    (hg : s.gos[i]? = some g) (hs : GoStep s s' i g g' a) : RunInv env s' := by
  have hgo : g ∈ s.gos := List.mem_of_getElem? hg
  have hids : goIds s'.gos = goIds s.gos := by
    rw [hs.gos]
    exact map_set_of_eq _ hg (by rw [hs.task])
  -- The ledger reads the ids of the goroutines and the main goroutine, and a task's step changes
  -- neither.
  have hledger : ledger s'.main s'.gos = ledger s.main s.gos := by
    rw [ledger, ledger, hids, hs.main]
  have hmem : ∀ x ∈ s'.gos, ∃ y ∈ s.gos, x.task = y.task ∧ x.snapshot = y.snapshot := by
    intro x hx
    rw [hs.gos] at hx
    rcases List.mem_or_eq_of_mem_set hx with hx | rfl
    · exact ⟨x, hx, rfl, rfl⟩
    · exact ⟨g, hgo, hs.task, hs.snapshot⟩
  refine ⟨?_, ?_, ?_, ?_, ?_, ?_, ?_, ?_, ?_⟩
  · rw [SafeBooks, hledger]
    exact h.safe
  · -- Only `send` puts a span into the channel, and with it the goroutine is done.
    rw [hs.gos, hs.main]
    rcases hs.chan with ⟨hpc, hch⟩ | ⟨rfl, hch⟩
    · rw [hch]
      exact h.flight.stepGo hg hs.task (hs.span_id (h.flight.span_id g hgo)) hs.not_done hpc
    · rw [hch]
      exact h.flight.sendGo hg hs.not_done
  · intro x hx
    obtain ⟨y, hy, ht, -⟩ := hmem x hx
    exact ht ▸ h.task_mem y hy
  · rw [hs.main]
    exact h.spans
  · rw [hs.main]
    exact h.results
  · intro x hx
    obtain ⟨y, hy, ht, hsn⟩ := hmem x hx
    have hok := h.snapshot y hy
    rw [hs.main]
    exact ⟨hsn ▸ hok.sub, hsn ▸ ht ▸ hok.deps⟩
  · rw [Books, hledger, hs.main]
    exact h.books
  · rw [hs.main, hs.cancelled]
    exact h.failed
  · rw [hs.main]
    exact h.phase

/-! ### Steps of the main goroutine -/

/-- Recording a span under its own id keeps `SpansOk`. -/
theorem SpansOk.set {spans : Dict String TaskSpan} (h : SpansOk env spans) {sp : TaskSpan}
    (hmem : sp.id ∈ env.wf.ids) : SpansOk env (spans.set sp.id sp) := by
  constructor
  · intro id sp' hget
    by_cases hid : id = sp.id
    · subst hid
      rw [Dict.get?_set_self] at hget
      cases hget
      rfl
    · rw [Dict.get?_set_ne _ _ hid] at hget
      exact h.key id sp' hget
  · intro id sp' hget
    by_cases hid : id = sp.id
    · exact hid ▸ hmem
    · rw [Dict.get?_set_ne _ _ hid] at hget
      exact h.mem id sp' hget

/-- What `results` says stays true when no span is overwritten. -/
theorem ResultsSound.mono {main main' : Main} (h : ResultsSound main)
    (hres : main'.results = main.results)
    (hspans : ∀ id x, main.spans.get? id = some x → main'.spans.get? id = some x) :
    ResultsSound main' := by
  intro id v hv
  rw [hres] at hv
  obtain ⟨x, hx, hs, ho⟩ := h id v hv
  exact ⟨x, hspans id x hx, hs, ho⟩

/-- The invariant holds before the main loop. -/
theorem RunInv.initial (hacc : Accepted env.wf) : RunInv env env.initial := by
  have hbooks : Books env env.initial.main [] :=
    Ledger.inv_init hacc.ids_nodup _ (fun t ht => hacc.initialIndeg_task ht) initialReady_eq rfl
      (fun _ => rfl)
  refine ⟨hbooks.toSafe, Flight.nil _, ?_, ⟨?_, ?_⟩, ?_, ?_, ?_, ?_, rfl⟩
  · simp [Env.initial]
  · simp [Env.initial]
  · simp [Env.initial]
  · intro id v hv
    simp [Env.initial] at hv
  · simp [Env.initial]
  · refine fun _ => ⟨hbooks, fun id sp hsp => ?_⟩
    simp [Env.initial] at hsp
  · simp [Env.initial]

/-- A dispatch keeps the invariant. -/
theorem RunInv.dispatch (hacc : Accepted env.wf) {s : State B} (h : RunInv env s)
    {tid : String} {rest : List String} {t : Task} (hpc : s.main.pc = .dispatch)
    (hr : s.main.ready = tid :: rest) (ht : env.wf.taskMap.get? tid = some t) :
    RunInv env
      { s with
          main := { s.main with ready := rest, inFlight := s.main.inFlight + 1 }
          emitted := s.emitted ++ [env.event s.clock .taskStarted t.id]
          gos := s.gos ++ [newGoroutine s t] } := by
  obtain ⟨htask, rfl⟩ := hacc.taskMap_iff.mp ht
  have hphase := h.phase
  rw [Phase, hpc] at hphase
  obtain ⟨hbooks, hcomplete⟩ := h.books hphase.1
  have hids : goIds (s.gos ++ [newGoroutine s t]) = goIds s.gos ++ [t.id] := by
    simp [goIds, newGoroutine]
  -- In the ledger the task moves from the ready list to the started ones.
  have hledger : ledger { s.main with ready := rest, inFlight := s.main.inFlight + 1 }
        (s.gos ++ [newGoroutine s t])
      = { ledger s.main s.gos with ready := rest, started := goIds s.gos ++ [t.id] } := by
    rw [ledger, ledger, hids]
  have hready : t.id ∈ (ledger s.main s.gos).ready := by simp [ledger, hr]
  have hbooks' := hbooks.start hr
  refine ⟨?_, ?_, ?_, h.spans, h.results, ?_, ?_, h.failed, ?_⟩
  · rw [SafeBooks, hledger]
    exact hbooks'.toSafe
  · refine h.flight.start ?_ rfl (by simp [newGoroutine]) ?_
    · exact fun hs => List.disjoint_of_nodup_append hbooks.nodup hs hready
    · exact statusOf_eq_none.mp (hbooks.ready_unlabelled hready)
  · intro g hg
    rcases List.mem_append.mp hg with hg | hg
    · exact h.task_mem g hg
    · obtain rfl := List.mem_singleton.mp hg
      exact htask
  · intro g hg
    rcases List.mem_append.mp hg with hg | hg
    · exact ⟨(h.snapshot g hg).sub, (h.snapshot g hg).deps⟩
    · obtain rfl := List.mem_singleton.mp hg
      -- The snapshot of a new goroutine holds the outputs of all it depends on, since the task was
      -- ready.
      refine ⟨fun _ _ hv => hv, fun d hd => ?_⟩
      obtain ⟨sp, hsp, hs⟩ := isGood_ledger.mp
        (hbooks.toSafe.transGen_good (List.mem_append_right _ hready) hd)
      exact ⟨sp.output, hcomplete d sp hsp hs⟩
  · intro _
    rw [Books, hledger]
    exact ⟨hbooks', hcomplete⟩
  · rw [Phase, hpc]
    exact ⟨hphase.1, Or.inr (by have := h.flight.in_flight; simp only; omega)⟩

/-- What the main goroutine knows about a span it takes from the channel: its task was
dispatched and has no span yet. -/
theorem RunInv.head_span {s : State B} (h : RunInv env s) {span : TaskSpan}
    {rest : List TaskSpan} (hch : s.doneCh = span :: rest) :
    span.id ∈ goIds s.gos ∧ span.id ∈ env.wf.ids ∧ s.main.spans.get? span.id = none := by
  have hf := h.flight
  rw [hch] at hf
  obtain ⟨g, hg, -, -, hid, hnone⟩ := hf.head_go
  exact ⟨hid ▸ List.mem_map_of_mem hg,
    hid ▸ List.mem_map_of_mem (h.task_mem g hg), hnone⟩

/-- Recording the head of the channel overwrites no span. -/
theorem RunInv.set_keep {s : State B} (h : RunInv env s) {span : TaskSpan}
    {rest : List TaskSpan} (hch : s.doneCh = span :: rest) {id : String} {sp : TaskSpan}
    (hsp : s.main.spans.get? id = some sp) :
    (s.main.spans.set span.id span).get? id = some sp := by
  obtain ⟨-, -, hnone⟩ := h.head_span hch
  have hid : id ≠ span.id := by
    rintro rfl
    rw [hnone] at hsp
    cases hsp
  rw [Dict.get?_set_ne _ _ hid]
  exact hsp

/-- The flight after a span is taken from the channel and recorded. -/
theorem RunInv.flight_record {s : State B} (h : RunInv env s) {span : TaskSpan}
    {rest : List TaskSpan} (hch : s.doneCh = span :: rest) :
    Flight s.gos rest (s.main.spans.set span.id span).get? (s.main.inFlight - 1) := by
  have hf := h.flight
  rw [hch] at hf
  refine hf.receive fun id _ => ?_
  by_cases hid : id = span.id
  · subst hid
    simp
  · simp [hid]

/-- The books after a span is recorded and its label not propagated. -/
theorem RunInv.safe_record {s : State B} (h : RunInv env s) {span : TaskSpan}
    {rest : List TaskSpan} (hch : s.doneCh = span :: rest) {main : Main}
    (hready : main.ready = s.main.ready) (hspans : main.spans = s.main.spans.set span.id span) :
    SafeBooks env main s.gos := by
  obtain ⟨hgo, -, hnone⟩ := h.head_span hch
  have hsafe := h.safe.record (t := span.id) span.status hgo (statusOf_eq_none.mpr hnone)
  -- One task gets its label and nothing else changes.
  have hlabel : (ledger main s.gos).label
      = Function.update (ledger s.main s.gos).label span.id (some span.status) := by
    rw [ledger, hspans]
    exact statusOf_set _ _
  refine ⟨?_, ?_, ?_, ?_⟩
  · simpa [ledger, hready] using hsafe.nodup
  · simpa [ledger, hready] using hsafe.mem
  · intro t ht d hd
    rw [Ledger.isGood, hlabel]
    exact hsafe.deps_good t (by simpa [ledger, hready] using ht) d hd
  · intro t ht
    rw [Ledger.isGood, hlabel] at ht
    exact hsafe.good_started t ht

/-- A snapshot survives when `results` only gains keys. -/
theorem SnapshotOk.mono {main main' : Main} {g : Goroutine} (h : SnapshotOk env main g)
    (hres : ∀ id v, main.results.get? id = some v → main'.results.get? id = some v) :
    SnapshotOk env main' g :=
  ⟨fun id v hv => hres id v (h.sub id v hv), h.deps⟩

/-- Receiving a succeeded span keeps the invariant. -/
theorem RunInv.receive_succeeded (hacc : Accepted env.wf) {s : State B} (h : RunInv env s)
    {span : TaskSpan} {rest : List TaskSpan} (hpc : s.main.pc = .recv)
    (hch : s.doneCh = span :: rest) (hs : span.status = .succeeded) (emitted : List Event)
    (cancel : Bool) :
    RunInv env
      { s with
          main := { recordSpan s.main span with
            pc := .head
            results := s.main.results.set span.id span.output
            indeg := (release (env.children span.id) s.main.indeg s.main.ready).1
            ready := (release (env.children span.id) s.main.indeg s.main.ready).2 }
          doneCh := rest
          emitted := emitted
          cancelled := s.cancelled || cancel } := by
  obtain ⟨hgo, hmem, hnone⟩ := h.head_span hch
  have hphase := h.phase
  rw [Phase, hpc] at hphase
  obtain ⟨hbooks, hcomplete⟩ := h.books hphase.1
  have hbooks' := hbooks.good_label hacc.ids_nodup (b := span.status)
    (by simp [isSucceeded, hs]) hgo (statusOf_eq_none.mpr hnone)
  rw [← hacc.children_eq] at hbooks'
  -- No result is stored under the id yet.
  have hfresh : s.main.results.get? span.id = none := by
    by_contra hne
    obtain ⟨v, hv⟩ := Option.ne_none_iff_exists'.mp hne
    obtain ⟨sp, hsp, -⟩ := h.results _ _ hv
    rw [hnone] at hsp
    cases hsp
  have hbooks'' : Books env
      { recordSpan s.main span with
          pc := .head
          results := s.main.results.set span.id span.output
          indeg := (release (env.children span.id) s.main.indeg s.main.ready).1
          ready := (release (env.children span.id) s.main.indeg s.main.ready).2 } s.gos := by
    rw [Books, ledger, recordSpan, statusOf_set]
    exact hbooks'
  refine ⟨hbooks''.toSafe, h.flight_record hch, h.task_mem, h.spans.set hmem, ?_, ?_,
    fun _ => ⟨hbooks'', ?_⟩, ?_, hphase.1⟩
  · intro id v hv
    by_cases hid : id = span.id
    · subst hid
      rw [Dict.get?_set_self] at hv
      exact ⟨span, Dict.get?_set_self _ _ _, hs, Option.some.inj hv⟩
    · rw [Dict.get?_set_ne _ _ hid] at hv
      obtain ⟨sp, hsp, hst, ho⟩ := h.results id v hv
      exact ⟨sp, by rw [recordSpan, Dict.get?_set_ne _ _ hid]; exact hsp, hst, ho⟩
  · intro g hg
    refine (h.snapshot g hg).mono fun id v hv => ?_
    have hid : id ≠ span.id := by
      rintro rfl
      rw [hfresh] at hv
      cases hv
    rw [Dict.get?_set_ne _ _ hid]
    exact hv
  · intro id sp hsp hst
    by_cases hid : id = span.id
    · subst hid
      rw [recordSpan, Dict.get?_set_self] at hsp
      cases hsp
      exact Dict.get?_set_self _ _ _
    · rw [recordSpan, Dict.get?_set_ne _ _ hid] at hsp
      rw [Dict.get?_set_ne _ _ hid]
      exact hcomplete id sp hsp hst
  · intro hfail
    rw [recordSpan, hphase.1] at hfail
    cases hfail

/-- Receiving a failure that ends the run keeps the invariant. -/
theorem RunInv.receive_failFast {s : State B} (h : RunInv env s) {span : TaskSpan}
    {rest : List TaskSpan} (hch : s.doneCh = span :: rest) (hs : span.status ≠ .succeeded)
    (errors : List String) (emitted : List Event) :
    RunInv env
      { s with
          main := { recordSpan s.main span with
            pc := .drain, errors := errors, runFailed := true }
          doneCh := rest
          emitted := emitted
          cancelled := s.cancelled || true } := by
  obtain ⟨-, hmem, -⟩ := h.head_span hch
  refine ⟨h.safe_record hch rfl rfl, h.flight_record hch, h.task_mem, h.spans.set hmem, ?_,
    fun g hg => (h.snapshot g hg).mono fun _ _ hv => hv, ?_, fun _ => ⟨by simp, span.id, span,
      Dict.get?_set_self _ _ _, hs⟩, rfl⟩
  · exact h.results.mono rfl fun id x hx => h.set_keep hch hx
  · intro hfail
    cases hfail

/-- The tasks that `markDescendantsSkipped` marks after a failure, as a walk over the labels of
the books. None of them was dispatched. -/
theorem RunInv.skip_walk (hacc : Accepted env.wf) {s : State B} (h : RunInv env s)
    {span : TaskSpan} {rest : List TaskSpan} (hch : s.doneCh = span :: rest) (now : Nat) :
    ∃ new, Walked (childrenOf env.wf.ids env.wf.deps) (fun l d => (l d).isSome)
        (Function.update (statusOf s.main.spans) span.id (some span.status))
        (childrenOf env.wf.ids env.wf.deps span.id) new ∧
      (∀ id, (env.markDescendantsSkipped now span.id (s.main.spans.set span.id span)).spans.get? id
        = if id ∈ new then some { id := id, status := .skipped }
          else (s.main.spans.set span.id span).get? id) ∧
      (∀ id sp, s.main.spans.get? id = some sp →
        (env.markDescendantsSkipped now span.id (s.main.spans.set span.id span)).spans.get? id
          = some sp) ∧
      ∀ id ∈ new, id ∉ goIds s.gos := by
  obtain ⟨-, -, hnone⟩ := h.head_span hch
  obtain ⟨new, hw, hmarks⟩ := markDescendantsSkipped_spec hacc now span.id
    (s.main.spans.set span.id span)
  -- The walk reads the spans only through their statuses.
  have hw' : Walked (childrenOf env.wf.ids env.wf.deps) (fun l d => (l d).isSome)
      (Function.update (statusOf s.main.spans) span.id (some span.status))
      (childrenOf env.wf.ids env.wf.deps span.id) new := by
    refine hw.congr (fun c => ?_) (fun _ => Iff.rfl)
    show (Function.update (statusOf s.main.spans) span.id (some span.status) c).isSome = _
    rw [← statusOf_set]
    simp [statusOf, Dict.contains]
  have hget := fun id => (congrArg (fun m => Dict.get? m.spans id) hmarks).trans
    (foldl_markSkipped_spans now id new _)
  refine ⟨new, hw', hget, fun id sp hsp => ?_,
    h.safe.walked_not_started (statusOf_eq_none.mpr hnone) hw'⟩
  have hset := h.set_keep hch hsp
  rw [hget, if_neg]
  · exact hset
  · -- The walk marks only tasks without a span.
    intro hn
    have hf := hw.fresh id hn
    rw [Dict.contains, hset] at hf
    cases hf

/-- Receiving a failure that the run survives keeps the invariant. -/
theorem RunInv.receive_continue (hacc : Accepted env.wf) {s : State B} (h : RunInv env s)
    {span : TaskSpan} {rest : List TaskSpan} (hpc : s.main.pc = .recv)
    (hch : s.doneCh = span :: rest) (hs : span.status ≠ .succeeded) (now : Nat)
    (errors : List String) (emitted : List Event) (cancel : Bool) :
    RunInv env
      { s with
          main := { recordSpan s.main span with
            pc := .head
            errors := errors
            spans := (env.markDescendantsSkipped now span.id
              (s.main.spans.set span.id span)).spans }
          doneCh := rest
          emitted := emitted
          cancelled := s.cancelled || cancel } := by
  obtain ⟨hgo, hmem, hnone⟩ := h.head_span hch
  have hphase := h.phase
  rw [Phase, hpc] at hphase
  obtain ⟨hbooks, hcomplete⟩ := h.books hphase.1
  obtain ⟨new, hw, hget, hkeep, hstarted⟩ := h.skip_walk hacc hch now
  -- The walk labels tasks behind the failed one, and the span its own task.
  have hlabel : ∀ id, statusOf (env.markDescendantsSkipped now span.id
        (s.main.spans.set span.id span)).spans id
      = if id ∈ new then some .skipped
        else Function.update (statusOf s.main.spans) span.id (some span.status) id := by
    intro id
    rw [← statusOf_set, statusOf, hget]
    split <;> rfl
  have hl := statusOf_eq_none.mpr hnone
  have hbad : isSucceeded span.status = false := by simp [isSucceeded, hs]
  have hbooks' := hbooks.bad_label rfl hbad hgo hl _ hw hlabel
  refine ⟨hbooks'.toSafe, ?_, h.task_mem, ⟨?_, ?_⟩, ?_,
    fun g hg => (h.snapshot g hg).mono fun _ _ hv => hv, fun _ => ⟨hbooks', ?_⟩, ?_, hphase.1⟩
  · refine (h.flight_record hch).congr fun id hid => ?_
    rw [hget, if_neg fun hn => hstarted id hn hid]
  · intro id sp hsp
    rw [hget] at hsp
    split at hsp
    · cases hsp
      rfl
    · exact (h.spans.set hmem).key id sp hsp
  · intro id sp hsp
    rw [hget] at hsp
    split at hsp
    · rename_i hn
      rcases hw.origin id hn with hc | ⟨y, -, hc⟩
      · exact (mem_childrenOf.mp hc).1
      · exact (mem_childrenOf.mp hc).1
    · exact (h.spans.set hmem).mem id sp hsp
  · exact h.results.mono rfl hkeep
  · intro id sp hsp hst
    rw [hget] at hsp
    split at hsp
    · cases hsp
      cases hst
    · by_cases hid : id = span.id
      · subst hid
        rw [Dict.get?_set_self] at hsp
        cases hsp
        exact absurd hst hs
      · rw [Dict.get?_set_ne _ _ hid] at hsp
        exact hcomplete id sp hsp hst
  · intro hfail
    rw [recordSpan, hphase.1] at hfail
    cases hfail

/-- Draining a span keeps the invariant. -/
theorem RunInv.drain {s : State B} (h : RunInv env s) {span : TaskSpan} {rest : List TaskSpan}
    (hpc : s.main.pc = .drain) (hch : s.doneCh = span :: rest) :
    RunInv env
      { s with
          main := { s.main with
            inFlight := s.main.inFlight - 1
            spans := s.main.spans.set span.id span
            drained := s.main.drained ++ [span] }
          doneCh := rest } := by
  obtain ⟨-, hmem, -⟩ := h.head_span hch
  have hfailed := h.phase
  rw [Phase, hpc] at hfailed
  have hkeep := fun id x => @RunInv.set_keep _ _ _ h _ _ hch id x
  -- The run is marked as failed already, so the books are no longer kept, only the safe part of
  -- them.
  refine ⟨h.safe_record hch rfl rfl, h.flight_record hch, h.task_mem, h.spans.set hmem,
    h.results.mono rfl hkeep, fun g hg => (h.snapshot g hg).mono fun _ _ hv => hv, ?_, ?_, ?_⟩
  · intro hf
    rw [hfailed] at hf
    cases hf
  · intro _
    obtain ⟨hc, id, sp, hsp, hst⟩ := h.failed hfailed
    exact ⟨hc, id, sp, hkeep id sp hsp, hst⟩
  · rw [Phase, hpc]
    exact hfailed

/-- Leaving the drain keeps the invariant. -/
theorem RunInv.drained {s : State B} (h : RunInv env s) (hpc : s.main.pc = .drain)
    (hf : ¬ 0 < s.main.inFlight) (now : Nat) (emitted : List Event) :
    RunInv env
      { s with
          main := { s.main with
            pc := .finish
            ready := []
            spans := (env.markAllUndispatchedSkipped now s.main.spans).spans }
          emitted := emitted } := by
  have hfailed := h.phase
  rw [Phase, hpc] at hfailed
  have hget := markAllUndispatchedSkipped_spans env now s.main.spans
  have hkeep := fun id sp => @markAllUndispatchedSkipped_keep _ env now s.main.spans id sp
  -- Only tasks without a span are marked.
  have hold : ∀ id sp, (env.markAllUndispatchedSkipped now s.main.spans).spans.get? id = some sp →
      s.main.spans.get? id = some sp ∨
        (id ∈ env.wf.ids ∧ sp = { id := id, status := .skipped }) := by
    intro id sp hsp
    rw [hget] at hsp
    split at hsp
    · rename_i hn
      cases hsp
      exact Or.inr ⟨hn.1, rfl⟩
    · exact Or.inl hsp
  refine ⟨?_, ?_, h.task_mem, ⟨?_, ?_⟩, ?_, fun g hg => (h.snapshot g hg).mono fun _ _ hv => hv,
    ?_, ?_, ?_⟩
  · refine h.safe.clear.labels _ fun d => ?_
    rw [Bool.eq_iff_iff]
    refine isGood_ledger.trans (Iff.trans ?_ (@isGood_ledger s.main s.gos d).symm)
    constructor
    · rintro ⟨sp, hsp, hst⟩
      rcases hold d sp hsp with hsp | ⟨-, rfl⟩
      · exact ⟨sp, hsp, hst⟩
      · cases hst
    · rintro ⟨sp, hsp, hst⟩
      exact ⟨sp, hkeep d sp hsp, hst⟩
  · refine h.flight.congr fun id hid => ?_
    obtain ⟨g, hg, rfl⟩ := List.mem_map.mp hid
    have := (h.flight.all_recorded hf g hg).2
    rw [this]
    exact hkeep _ _ this
  · intro id sp hsp
    rcases hold id sp hsp with hsp | ⟨-, rfl⟩
    · exact h.spans.key id sp hsp
    · rfl
  · intro id sp hsp
    rcases hold id sp hsp with hsp | ⟨hid, -⟩
    · exact h.spans.mem id sp hsp
    · exact hid
  · exact h.results.mono rfl hkeep
  · intro hnf
    rw [hfailed] at hnf
    cases hnf
  · intro _
    obtain ⟨hc, id, sp, hsp, hst⟩ := h.failed hfailed
    exact ⟨hc, id, sp, hkeep id sp hsp, hst⟩
  · refine ⟨rfl, hf, fun id hid => ?_⟩
    simp only
    rw [hget]
    split
    · simp
    · rename_i hn
      exact fun hnone => hn ⟨hid, hnone⟩

/-- A step of the main goroutine keeps the invariant. -/
theorem RunInv.mainStepped (hacc : Accepted env.wf) {s s' : State B} (h : RunInv env s)
    (hs : MainStepped env s s') : RunInv env s' := by
  have hphase := h.phase
  cases hs with
  | enter hpc hor =>
      rw [Phase, hpc] at hphase
      exact ⟨h.safe, h.flight, h.task_mem, h.spans, h.results,
        fun g hg => (h.snapshot g hg).mono fun _ _ hv => hv, h.books, h.failed, hphase, hor⟩
  -- With nothing ready and nothing in flight the run is complete: a task without a span would
  -- depend on itself.
  | leave hpc hr hf =>
      rw [Phase, hpc] at hphase
      refine ⟨h.safe, h.flight, h.task_mem, h.spans, h.results,
        fun g hg => (h.snapshot g hg).mono fun _ _ hv => hv, h.books, h.failed, hr, hf, ?_⟩
      intro id hid hnone
      refine (h.books hphase).1.complete (fun t ht d hd => hacc.deps_ids ht hd) hacc.acyclic hr ?_
        id hid (statusOf_eq_none.mpr hnone)
      intro t ht hl
      obtain ⟨g, hg, rfl⟩ := List.mem_map.mp ht
      have := (h.flight.all_recorded hf g hg).2
      rw [statusOf_eq_none.mp hl] at this
      cases this
  | block hpc hr =>
      rw [Phase, hpc] at hphase
      exact ⟨h.safe, h.flight, h.task_mem, h.spans, h.results,
        fun g hg => (h.snapshot g hg).mono fun _ _ hv => hv, h.books, h.failed, hphase.1, hr,
        hphase.2.resolve_left (· hr)⟩
  | dispatch tid rest t hpc hr ht => exact h.dispatch hacc hpc hr ht
  | receive span rest r hpc hch hr =>
      cases hr with
      | succeeded hst => exact h.receive_succeeded hacc hpc hch hst _ _
      | failFast t hst _ _ => exact h.receive_failFast hch hst _ _
      | «continue» t hst _ _ => exact h.receive_continue hacc hpc hch hst _ _ _ _
  | drain span rest hpc hf hch => exact h.drain hpc hch
  | drained hpc hf => exact h.drained hpc hf _ _
  | finish hpc =>
      rw [Phase, hpc] at hphase
      exact ⟨h.safe, h.flight, h.task_mem, h.spans, h.results,
        fun g hg => (h.snapshot g hg).mono fun _ _ hv => hv, h.books, h.failed, hphase.1,
        hphase.2.1, hphase.2.2, s.clock, rfl⟩

/-- What a step of the main goroutine does to the spans of the dispatched tasks: nothing, or it
takes one from the channel and records it. -/
inductive SpanStep (env : Env B) (s s' : State B) : Prop
  | quiet (chan : s'.doneCh = s.doneCh)
      (history : s'.main.received = s.main.received ∧ s'.main.drained = s.main.drained)
      (gos : s'.gos = s.gos ∨ ∃ t, s'.gos = s.gos ++ [newGoroutine s t])
      (spans : ∀ id ∈ goIds s.gos, s'.main.spans.get? id = s.main.spans.get? id)
  | record (span : TaskSpan) (chan : s.doneCh = span :: s'.doneCh) (gos : s'.gos = s.gos)
      (history : s'.main.received ++ s'.main.drained ~
        span :: (s.main.received ++ s.main.drained))
      (spans : ∀ id ∈ goIds s.gos,
        s'.main.spans.get? id = if id = span.id then some span else s.main.spans.get? id)
      (flag : ∀ t ∈ env.wf.tasks, t.id = span.id → span.status ≠ .succeeded →
        t.effectiveOnError env.wf.defaultOnError = "fail_fast" → s'.main.runFailed = true)

/-- Each step of the main goroutine is a `SpanStep`. -/
theorem RunInv.spanStep (hacc : Accepted env.wf) {s s' : State B} (h : RunInv env s)
    (hs : MainStepped env s s') : SpanStep env s s' := by
  have hset : ∀ span : TaskSpan, ∀ id, (s.main.spans.set span.id span).get? id
      = if id = span.id then some span else s.main.spans.get? id := by
    intro span id
    by_cases hid : id = span.id
    · subst hid
      simp
    · simp [hid]
  -- A received span goes to the end of its own list, which stands in the middle of both lists
  -- together.
  have hrecv : ∀ span : TaskSpan, (s.main.received ++ [span]) ++ s.main.drained
      ~ span :: (s.main.received ++ s.main.drained) := by
    intro span
    rw [List.append_assoc]
    exact List.perm_middle
  cases hs with
  | enter hpc hor => exact .quiet rfl ⟨rfl, rfl⟩ (Or.inl rfl) fun _ _ => rfl
  | leave hpc hr hf => exact .quiet rfl ⟨rfl, rfl⟩ (Or.inl rfl) fun _ _ => rfl
  | block hpc hr => exact .quiet rfl ⟨rfl, rfl⟩ (Or.inl rfl) fun _ _ => rfl
  | dispatch tid rest t hpc hr ht =>
      exact .quiet rfl ⟨rfl, rfl⟩ (Or.inr ⟨t, rfl⟩) fun _ _ => rfl
  | receive span rest r hpc hch hr =>
      cases hr with
      | succeeded hst =>
          exact .record span hch rfl (hrecv span) (fun id _ => hset span id)
            fun _ _ _ hne _ => absurd hst hne
      | failFast t hst _ _ =>
          exact .record span hch rfl (hrecv span) (fun id _ => hset span id)
            fun _ _ _ _ _ => rfl
      | «continue» t hst ht hpol =>
          -- The walk marks tasks that never started, so it leaves alone what a goroutine reports.
          obtain ⟨new, -, hget, -, hstarted⟩ := h.skip_walk hacc hch s.clock
          refine .record span hch rfl (hrecv span) (fun id hid => ?_) ?_
          · show (env.markDescendantsSkipped s.clock span.id _).spans.get? id = _
            rw [hget, if_neg fun hn => hstarted id hn hid, hset]
          · intro t' ht' hid' _ hpol'
            obtain ⟨htm, hid⟩ := hacc.taskMap_iff.mp ht
            obtain rfl := hacc.task_unique htm ht' (hid.trans hid'.symm)
            exact absurd hpol' hpol
  | drain span rest hpc hf hch =>
      have hphase := h.phase
      rw [Phase, hpc] at hphase
      refine .record span hch rfl ?_ (fun id _ => hset span id) fun _ _ _ _ _ => hphase
      show s.main.received ++ (s.main.drained ++ [span]) ~ _
      rw [← List.append_assoc]
      exact List.perm_append_singleton _ _
  | drained hpc hf =>
      refine .quiet rfl ⟨rfl, rfl⟩ (Or.inl rfl) fun id hid => ?_
      obtain ⟨g, hg, rfl⟩ := List.mem_map.mp hid
      -- Nothing is in flight any more, so every task with a goroutine has its span already.
      have hsome := (h.flight.all_recorded hf g hg).2
      show (env.markAllUndispatchedSkipped s.clock s.main.spans).spans.get? _ = _
      rw [markAllUndispatchedSkipped_spans, if_neg (by simp [hsome])]
  | finish hpc => exact .quiet rfl ⟨rfl, rfl⟩ (Or.inl rfl) fun _ _ => rfl

/-- The main goroutine overwrites no span. -/
theorem RunInv.spans_mono (hacc : Accepted env.wf) {s s' : State B} (h : RunInv env s)
    (hs : MainStepped env s s') {id : String} {sp : TaskSpan}
    (hsp : s.main.spans.get? id = some sp) : s'.main.spans.get? id = some sp := by
  cases hs with
  | receive span rest r hpc hch hr =>
      cases hr with
      | succeeded hst => exact h.set_keep hch hsp
      | failFast t hst _ _ => exact h.set_keep hch hsp
      | «continue» t hst _ _ =>
          obtain ⟨-, -, -, hkeep, -⟩ := h.skip_walk hacc hch s.clock
          exact hkeep id sp hsp
  | drain span rest hpc hf hch => exact h.set_keep hch hsp
  | drained hpc hf => exact markAllUndispatchedSkipped_keep env s.clock hsp
  | _ => exact hsp

/-- Every step keeps the invariant. -/
theorem RunInv.step (hacc : Accepted env.wf) {s s' : State B} {a : Action} (h : RunInv env s)
    (hs : env.step? s a = some s') : RunInv env s' := by
  rcases step_inv hs with ⟨-, hm⟩ | ⟨i, b, g, -, hg, ht⟩ | ⟨-, rfl⟩ | ⟨d, -, rfl⟩
  · exact h.mainStepped hacc hm
  · obtain ⟨g', hgs⟩ := ht.goStep
    exact h.goStep hg hgs
  · exact ⟨h.safe, h.flight, h.task_mem, h.spans, h.results, h.snapshot, h.books,
      fun hf => ⟨rfl, (h.failed hf).2⟩, h.phase⟩
  · exact ⟨h.safe, h.flight, h.task_mem, h.spans, h.results, h.snapshot, h.books, h.failed,
      h.phase⟩

/-- The invariant holds in every reachable state of a run of an accepted workflow. -/
theorem reachable_runInv (hacc : Accepted env.wf) {s : State B} (hs : env.system.Reachable s) :
    RunInv env s :=
  hs.holds (.initial hacc) fun _ _ _ _ h ha => h.step hacc ha

/-! ### Where recorded spans come from -/

/-- A span that is recorded for a task that was not dispatched is a placeholder. -/
def Placed (s : State B) : Prop :=
  ∀ id sp, s.main.spans.get? id = some sp →
    id ∈ goIds s.gos ∨ sp = { id := id, status := .skipped }

/-- A received span is that of a goroutine. -/
theorem Placed.set {s : State B} (h : Placed s) (hinv : RunInv env s) {span : TaskSpan}
    {rest : List TaskSpan} (hch : s.doneCh = span :: rest) {id : String} {sp : TaskSpan}
    (hsp : (s.main.spans.set span.id span).get? id = some sp) :
    id ∈ goIds s.gos ∨ sp = { id := id, status := .skipped } := by
  by_cases hid : id = span.id
  · exact Or.inl (hid ▸ (hinv.head_span hch).1)
  · rw [Dict.get?_set_ne _ _ hid] at hsp
    exact h id sp hsp

/-- A step of the main goroutine. -/
theorem Placed.mainStepped (hacc : Accepted env.wf) {s s' : State B} (h : Placed s)
    (hinv : RunInv env s) (hs : MainStepped env s s') : Placed s' := by
  cases hs with
  | dispatch tid rest t hpc hr ht =>
      intro id sp hsp
      refine (h id sp hsp).imp_left fun hid => ?_
      show id ∈ goIds (s.gos ++ [newGoroutine s t])
      rw [goIds, List.map_append]
      exact List.mem_append_left _ hid
  | receive span rest r hpc hch hr =>
      cases hr with
      | succeeded hst => exact fun id sp hsp => h.set hinv hch hsp
      | failFast t hst ht hpol => exact fun id sp hsp => h.set hinv hch hsp
      | «continue» t hst ht hpol =>
          -- A span is in the table because its goroutine reported it or because the walk wrote a
          -- placeholder.
          obtain ⟨new, -, hget, -⟩ := hinv.skip_walk hacc hch s.clock
          intro id sp hsp
          have hsp : (env.markDescendantsSkipped s.clock span.id
              (s.main.spans.set span.id span)).spans.get? id = some sp := hsp
          rw [hget] at hsp
          split at hsp
          · exact Or.inr (Option.some.inj hsp).symm
          · exact h.set hinv hch hsp
  | drain span rest hpc hf hch => exact fun id sp hsp => h.set hinv hch hsp
  | drained hpc hf =>
      intro id sp hsp
      have hsp : (env.markAllUndispatchedSkipped s.clock s.main.spans).spans.get? id = some sp :=
        hsp
      rw [markAllUndispatchedSkipped_spans] at hsp
      split at hsp
      · exact Or.inr (Option.some.inj hsp).symm
      · exact h id sp hsp
  | _ => exact h

/-- Each recorded span of a reachable state is that of a goroutine or a placeholder. -/
theorem reachable_placed (hacc : Accepted env.wf) {s : State B} (hs : env.system.Reachable s) :
    Placed s := by
  have hinit : Placed env.initial := fun id sp hsp => by simp [Env.initial] at hsp
  refine hs.holds hinit fun s a s' hs h ha => ?_
  rcases step_inv ha with ⟨-, hm⟩ | ⟨i, b, g, -, hg, ht⟩ | ⟨-, rfl⟩ | ⟨d, -, rfl⟩
  · exact h.mainStepped hacc (reachable_runInv hacc hs) hm
  · obtain ⟨g', hgs⟩ := ht.goStep
    have hids : goIds s'.gos = goIds s.gos := by
      rw [hgs.gos]
      exact map_set_of_eq _ hg (by rw [hgs.task])
    unfold Placed
    rw [hgs.main, hids]
    exact h
  · exact h
  · exact h

end Orchestrator.Proofs
