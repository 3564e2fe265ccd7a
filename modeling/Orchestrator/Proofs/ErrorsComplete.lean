import Orchestrator.Proofs.EventStream
import Orchestrator.Proofs.OverallStatus
import Orchestrator.Proofs.SpansKept
import Orchestrator.Proofs.Usage

/-!
# `Orchestrator.Proofs.ErrorsComplete`: the errors of a report

The engine appends the error of each unsuccessful span that its main loop receives, and none of
those that its `fail_fast` drain receives. The runner keeps the error of the first unsuccessful span
that it processes. `errors_complete_iff` says when the errors of a report cover its failed tasks.

An error list is complete when each failed task has its error in it, once (`ErrorsComplete`). Both
sides are compared as multisets of texts, because the order of the list is that of the finish and
two tasks may fail with the same text.

For the engine `ErrorBooks` is the invariant: the list is that of the spans received in the main
loop, and every failed span was received there or in the drain. So the list is complete exactly when
the drain has nothing to add (`DrainSilent`). For the runner the list has one entry at most, and it
is complete exactly when one task failed at most and no other unsuccessful span was processed before
it (`OneFailure`).
-/

set_option autoImplicit false

/-! ### The engine -/

namespace Orchestrator.Proofs

open Orchestrator.Lib Orchestrator.Engine Orchestrator.Engine.Env
open scoped List

variable {B : Type} {env : Env B}

/-- The span did not succeed. -/
def unsuccessful (sp : TaskSpan) : Bool := sp.status ≠ .succeeded

/-- The span failed. -/
def hasFailed (sp : TaskSpan) : Bool := sp.status = .failed

/-- The errors of the received spans, and where the failed spans come from: the main loop or the
drain. -/
structure ErrorBooks (s : State B) : Prop where
  errors : s.main.errors = (s.main.received.filter unsuccessful).map (·.error)
  origin : ∀ id sp, s.main.spans.get? id = some sp → sp.status = .failed →
    sp ∈ s.main.received ++ s.main.drained

/-- A failed span after another one was recorded. -/
theorem failed_of_set {spans : Dict String TaskSpan} {span sp : TaskSpan} {id : String}
    {l : List TaskSpan} (hold : ∀ id sp, spans.get? id = some sp → sp.status = .failed → sp ∈ l)
    (hsp : (spans.set span.id span).get? id = some sp) (hst : sp.status = .failed) :
    sp ∈ l ∨ sp = span := by
  by_cases hid : id = span.id
  · subst hid
    rw [Dict.get?_set_self] at hsp
    cases hsp
    exact Or.inr rfl
  · rw [Dict.get?_set_ne _ _ hid] at hsp
    exact Or.inl (hold id sp hsp hst)

/-- A step of the main goroutine keeps `ErrorBooks`: the errors are those of the failed spans that
the main loop has received, in the order of their arrival. -/
theorem ErrorBooks.mainStepped (hacc : Accepted env.wf) {s s' : State B} (h : ErrorBooks s)
    (hinv : RunInv env s) (hm : MainStepped env s s') : ErrorBooks s' := by
  -- A received span is appended to the spans received before.
  have hrecv : ∀ {sp span : TaskSpan}, sp ∈ s.main.received ++ s.main.drained ∨ sp = span →
      sp ∈ (s.main.received ++ [span]) ++ s.main.drained := by
    intro sp span hsp
    simp only [List.mem_append, List.mem_singleton] at hsp ⊢
    rcases hsp with (hsp | hsp) | hsp
    · exact Or.inl (Or.inl hsp)
    · exact Or.inr hsp
    · exact Or.inl (Or.inr hsp)
  have herr : ∀ {span : TaskSpan}, span.status ≠ .succeeded → s.main.errors ++ [span.error]
      = ((s.main.received ++ [span]).filter unsuccessful).map (·.error) := by
    intro span hst
    rw [List.filter_append, List.map_append, ← h.errors]
    simp [unsuccessful, hst]
  cases hm with
  | receive span rest r hpc hch hr =>
      cases hr with
      | succeeded hst =>
          refine ⟨?_, fun id sp hsp hf => hrecv (failed_of_set h.origin hsp hf)⟩
          show s.main.errors = ((s.main.received ++ [span]).filter unsuccessful).map (·.error)
          rw [List.filter_append, List.map_append, ← h.errors]
          simp [unsuccessful, hst]
      | failFast t hst _ _ =>
          exact ⟨herr hst, fun id sp hsp hf => hrecv (failed_of_set h.origin hsp hf)⟩
      | «continue» t hst _ _ =>
          obtain ⟨new, -, hget, -, -⟩ := hinv.skip_walk hacc hch s.clock
          refine ⟨herr hst, fun id sp hsp hf => ?_⟩
          have hsp : (env.markDescendantsSkipped s.clock span.id
            (s.main.spans.set span.id span)).spans.get? id = some sp := hsp
          rw [hget] at hsp
          split at hsp
          · cases hsp
            cases hf
          · exact hrecv (failed_of_set h.origin hsp hf)
  | drain span rest hpc hf hch =>
      refine ⟨h.errors, fun id sp hsp hf => ?_⟩
      show sp ∈ s.main.received ++ (s.main.drained ++ [span])
      rw [← List.append_assoc, List.mem_append, List.mem_singleton]
      exact failed_of_set h.origin hsp hf
  | drained hpc hf =>
      refine ⟨h.errors, fun id sp hsp hf => ?_⟩
      have hsp : (env.markAllUndispatchedSkipped s.clock s.main.spans).spans.get? id = some sp :=
        hsp
      rw [markAllUndispatchedSkipped_spans] at hsp
      split at hsp
      · cases hsp
        cases hf
      · exact h.origin id sp hsp hf
  | _ => exact ⟨h.errors, h.origin⟩

/-- `ErrorBooks` holds in every reachable state. -/
theorem reachable_errorBooks (hacc : Accepted env.wf) {s : State B} (hs : env.system.Reachable s) :
    ErrorBooks s := by
  have hinit : ErrorBooks env.initial := ⟨rfl, fun id sp hsp => by cases hsp⟩
  refine hs.holds hinit fun s a s' hs h ha => ?_
  rcases step_inv ha with ⟨-, hm⟩ | ⟨i, b, g, -, hg, ht⟩ | ⟨-, rfl⟩ | ⟨d, -, rfl⟩
  · exact h.mainStepped hacc (reachable_runInv hacc hs) hm
  · obtain ⟨g', hgs⟩ := ht.goStep
    refine ⟨?_, ?_⟩
    · rw [hgs.main]
      exact h.errors
    · rw [hgs.main]
      exact h.origin
  · exact ⟨h.errors, h.origin⟩
  · exact ⟨h.errors, h.origin⟩

/-- Each failed task of the report has its error in the list, once. -/
def ErrorsComplete (rep : Report) : Prop :=
  (rep.tasks.filter hasFailed).map (·.error) <+~ rep.errors

/-- The errors of the failed spans that the drain received are among those of the cancelled spans
that the main loop received. -/
def DrainSilent (s : State B) : Prop :=
  (s.main.drained.filter hasFailed).map (·.error)
    <+~ (s.main.received.filter fun sp => unsuccessful sp && !hasFailed sp).map (·.error)

/-- The failed tasks of a report are the failed spans that were received. They may come in another
order, since a report is in the order of the document. -/
theorem failed_tasks_perm (hacc : Accepted env.wf) {s : State B} (hs : env.system.Reachable s)
    {rep : Report} (hrep : s.report? = some rep) :
    rep.tasks.filter hasFailed
      ~ s.main.received.filter hasFailed ++ s.main.drained.filter hasFailed := by
  have h := reachable_runInv hacc hs
  obtain ⟨hzero, -, now, rfl⟩ := h.returned hrep
  -- At the end every dispatched task has been received, in the main loop or in the drain, and a
  -- failed span belongs to a dispatched task.
  have hall := (reachable_history hacc hs).all h hzero
  have hids : s.gos.map (fun g => g.span.id) = goIds s.gos :=
    List.map_congr_left fun g hg => h.flight.span_id g hg
  have hnd : (s.gos.map (·.span)).Nodup := by
    refine List.Nodup.of_map (·.id) ?_
    rw [List.map_map]
    exact hids ▸ h.flight.ids_nodup
  have hnd' : (s.main.received ++ s.main.drained).Nodup := hall.nodup_iff.mpr hnd
  rw [← List.filter_append]
  refine (List.perm_ext_iff_of_nodup ?_ (hnd'.filter _)).mpr fun sp => ?_
  · refine List.Nodup.filter _ (List.Nodup.of_map (·.id) ?_)
    exact nodup_filterMap_key (fun t : Task => t.id) (·.id) hacc.ids_nodup
      fun t sp hsp => h.spans.key t.id sp hsp
  · rw [List.mem_filter, List.mem_filter, mem_report_tasks]
    refine and_congr_left fun hf => ⟨?_, fun hsp => ?_⟩
    · rintro ⟨id, -, hsp⟩
      exact (reachable_errorBooks hacc hs).origin id sp hsp (of_decide_eq_true hf)
    · obtain ⟨g, hg, rfl⟩ := List.mem_map.mp (hall.mem_iff.mp hsp)
      exact ⟨g.task.id, List.mem_map_of_mem (h.task_mem g hg), (h.flight.all_recorded hzero g hg).2⟩

/-- The errors of the engine cover the failed tasks exactly when the drain swallows no error. -/
theorem errorsComplete_iff (hacc : Accepted env.wf) {s : State B} (hs : env.system.Reachable s)
    {rep : Report} (hrep : s.report? = some rep) : ErrorsComplete rep ↔ DrainSilent s := by
  have hperm := (failed_tasks_perm hacc hs hrep).map (·.error)
  obtain ⟨-, -, now, rfl⟩ := (reachable_runInv hacc hs).returned hrep
  -- The received errors are those of the failed spans and those of the cancelled ones.
  have hsplit : s.main.received.filter unsuccessful ~ s.main.received.filter hasFailed ++
      s.main.received.filter (fun sp => unsuccessful sp && !hasFailed sp) := by
    have happ := (List.filter_append_perm hasFailed (s.main.received.filter unsuccessful)).symm
    rw [List.filter_filter, List.filter_filter] at happ
    refine happ.trans (List.Perm.of_eq (congrArg₂ _ (List.filter_congr fun sp _ => ?_)
      (List.filter_congr fun sp _ => Bool.and_comm _ _)))
    cases hst : sp.status <;> simp [hasFailed, unsuccessful, hst]
  have herrors : (env.report now s.main).errors
      ~ (s.main.received.filter hasFailed).map (·.error) ++
        (s.main.received.filter fun sp => unsuccessful sp && !hasFailed sp).map (·.error) := by
    show s.main.errors ~ _
    rw [(reachable_errorBooks hacc hs).errors, ← List.map_append]
    exact hsplit.map _
  rw [List.map_append] at hperm
  rw [ErrorsComplete, hperm.subperm_right, herrors.subperm_left, List.subperm_append_left,
    DrainSilent]

end Orchestrator.Proofs

/-! ### The runner -/

namespace Orchestrator.Sdk.Runner

open Orchestrator.Lib Env
open scoped List

variable {env : Env}

/-- The span failed. -/
def hasFailed (sp : TaskSpan) : Bool := sp.status = .failed

/-- The error of a span. -/
def errorText (sp : TaskSpan) : String := sp.error.getD ""

/-- Each failed task of the report has its error in the list, once. -/
def ErrorsComplete (rep : Report) : Prop :=
  (rep.tasks.filter hasFailed).map errorText <+~ rep.errors

/-- No task failed, or the one that failed was the first that `run` found without success. -/
def OneFailure (s : State) : Prop :=
  s.main.processed.filter hasFailed = [] ∨
    s.main.processed.filter hasFailed = (s.main.processed.filter unsuccessful).take 1

/-- What the unsuccessful spans look like that `run` has processed. -/
theorem Known.unsuccessful_text {s : State} (h : Known env s) {sp : TaskSpan}
    (hsp : sp ∈ s.main.processed.filter unsuccessful) :
    ∃ e, sp.error = some e ∧ e ≠ "" ∧ (hasFailed sp = false → e = "cancelled") ∧
      (hasFailed sp = true → e ≠ "cancelled") := by
  obtain ⟨hin, hbad⟩ := List.mem_filter.mp hsp
  obtain ⟨i, c, hi, hdone, rfl⟩ := h.history.returned sp hin
  have hst : c.span.status ≠ .succeeded := of_decide_eq_true hbad
  rcases (h.spans c (List.mem_of_getElem? hi)).returned hdone
    with hok | ⟨hok, he⟩ | ⟨hok, e, he, htext⟩
  · exact absurd hok hst
  · exact ⟨_, he, by decide, fun _ => rfl, fun hf => by simp [hasFailed, hok] at hf⟩
  · refine ⟨e, he, htext.ne_empty, fun hf => ?_, fun _ => htext.ne_cancelled⟩
    simp [hasFailed, hok] at hf

/-- `errors` of a report holds the error of the first unsuccessful span. -/
theorem Known.errors_eq {s : State} (h : Known env s) (now : Nat) :
    (env.report now s.main).errors
      = ((s.main.processed.filter unsuccessful).take 1).map errorText := by
  show (if s.main.firstError.getD "" ≠ "" then [s.main.firstError.getD ""] else []) = _
  rw [h.history.firstError]
  have htext := fun sp => @Known.unsuccessful_text _ _ h sp
  cases hl : s.main.processed.filter unsuccessful with
  | nil => simp
  | cons sp rest =>
      obtain ⟨e, he, hne, -⟩ := htext sp (by rw [hl]; exact List.mem_cons_self)
      simp [he, hne, errorText]

/-- The failed tasks of a report are the failed spans that were processed. A placeholder is a skip,
so nothing that was not processed has failed. -/
theorem Known.failed_tasks_perm (hacc : Accepted env.wf) {s : State} (h : Known env s)
    (hinv : RunInv env s) (now : Nat) :
    (env.report now s.main).tasks.filter hasFailed ~ s.main.processed.filter hasFailed := by
  have hnd : (s.main.processed.filter hasFailed).Nodup :=
    (List.Nodup.of_map _ h.history.ids_nodup).filter _
  refine (List.perm_ext_iff_of_nodup ?_ hnd).mpr fun sp => ?_
  · refine List.Nodup.filter _ (List.Nodup.of_map (·.id) ?_)
    exact nodup_filterMap_key (fun t : Task => t.id) (·.id) hacc.ids_nodup
      fun t sp hsp => hinv.spans.key t.id sp hsp
  · rw [List.mem_filter, List.mem_filter]
    refine and_congr_left fun hf => ⟨fun hin => ?_, fun hin => ?_⟩
    · obtain ⟨t, -, hsp⟩ := List.mem_filterMap.mp hin
      rcases h.history.origin _ _ hsp with hin | rfl
      · exact hin
      · cases hf
    · obtain ⟨i, c, hi, hdone, rfl⟩ := h.history.returned sp hin
      exact (h.mem_tasks hinv (List.mem_of_getElem? hi) hdone now).mpr hin

/-- Among the failed spans, at most the first unsuccessful one has its error in the list. -/
theorem Known.oneFailure_iff {s : State} (h : Known env s) :
    (s.main.processed.filter hasFailed).map errorText
        <+~ ((s.main.processed.filter unsuccessful).take 1).map errorText ↔ OneFailure s := by
  have htext := fun sp => @Known.unsuccessful_text _ _ h sp
  have hsub : ∀ sp ∈ s.main.processed.filter hasFailed,
      sp ∈ s.main.processed.filter unsuccessful ∧ hasFailed sp = true := by
    intro sp hsp
    obtain ⟨hin, hf⟩ := List.mem_filter.mp hsp
    refine ⟨List.mem_filter.mpr ⟨hin, ?_⟩, hf⟩
    have hst : sp.status = .failed := of_decide_eq_true hf
    simp [unsuccessful, hst]
  rw [OneFailure]
  constructor
  · intro hperm
    have hlen := hperm.length_le
    rw [List.length_map, List.length_map, List.length_take] at hlen
    cases hl : s.main.processed.filter hasFailed with
    | nil => exact Or.inl rfl
    | cons f rest =>
        rw [hl] at hlen hperm hsub
        obtain rfl : rest = [] := List.eq_nil_of_length_eq_zero (by
          rw [List.length_cons] at hlen
          omega)
        obtain ⟨hf, hfailed⟩ := hsub f List.mem_cons_self
        obtain ⟨e, he, -, -, hne⟩ := htext f hf
        cases hu : s.main.processed.filter unsuccessful with
        | nil =>
            rw [hu] at hf
            cases hf
        | cons u us =>
            -- The first unsuccessful span has the error of the failed one, so it failed itself.
            rw [hu] at hperm
            have hmem : errorText f ∈ [errorText u] := hperm.subset List.mem_cons_self
            have heq : errorText f = errorText u := List.mem_singleton.mp hmem
            have hu_mem : u ∈ s.main.processed.filter unsuccessful := by
              rw [hu]
              exact List.mem_cons_self
            obtain ⟨e', he', -, hcan, -⟩ := htext u hu_mem
            have hufailed : hasFailed u = true := by
              by_contra hnot
              have hcan := hcan (by simpa using hnot)
              rw [errorText, errorText, he, he', hcan] at heq
              exact hne hfailed heq
            have huf : u ∈ [f] := hl ▸ List.mem_filter.mpr ⟨(List.mem_filter.mp hu_mem).1, hufailed⟩
            rw [List.mem_singleton.mp huf]
            exact Or.inr rfl
  · rintro (hnil | hone)
    · rw [hnil]
      exact List.nil_subperm
    · rw [hone]

/-- The errors of the runner cover the failed tasks exactly when one task failed at most, and none
was cancelled before it. -/
theorem errorsComplete_iff (hacc : Accepted env.wf) {s : State} (hs : env.system.Reachable s)
    {rep : Report} (hrep : s.report? = some rep) : ErrorsComplete rep ↔ OneFailure s := by
  have h := reachable_known hacc hs
  obtain ⟨hinv, -, now, rfl⟩ := h.returned hrep
  rw [ErrorsComplete, ((h.failed_tasks_perm hacc hinv now).map _).subperm_right, h.errors_eq now]
  exact h.oneFailure_iff

end Orchestrator.Sdk.Runner

/-! ### Both engines -/

namespace Orchestrator.Proofs

open Orchestrator.Lib Orchestrator.Engine Orchestrator.Engine.Env

/-- The errors of the report of a run of the engine cover its failed tasks exactly when the drain
receives no failed span whose error is not in the list already, and those of a run of the SDK
exactly when one task failed at most, before any other was cancelled.

The two halves are independent of each other. The engine collects errors in its main loop and not in
its drain; the SDK keeps the error of the first span that did not succeed, and no other one. -/
theorem errors_complete_iff {B : Type} (env : Env B) (iter : MapOrder)
    (hval : env.wf.validate iter = .ok ()) {s : State B}
    (hs : env.system.Reachable s) {rep : Report}
    (hrep : s.report? = some rep) (pyEnv : Sdk.Runner.Env) (lib : Sdk.PyLib)
    (hpyval : pyEnv.wf.validate lib = .ok ()) {t : Sdk.Runner.State}
    (ht : pyEnv.system.Reachable t) {pyRep : Sdk.Runner.Report} (hpyrep : t.report? = some pyRep) :
    (ErrorsComplete rep ↔ DrainSilent s) ∧
      (Sdk.Runner.ErrorsComplete pyRep ↔ Sdk.Runner.OneFailure t) :=
  ⟨errorsComplete_iff (accepted_of_validate hval) hs hrep,
    Sdk.Runner.errorsComplete_iff (Sdk.Runner.accepted_of_validate hpyval) ht hpyrep⟩

/-- Two independent tasks under `continue`, in the SDK. -/
def continuePair : Sdk.Runner.Env :=
  Sdk.Runner.plainRun { name := "w", defaultOnError := "continue", tasks :=
    [{ id := "a", skill := "s" }, { id := "b", skill := "s" }] } .async

/-- A result with an error. -/
def badResult : Result := { err := some { type := "E", message := "m", retryable := false } }

/-- One task without a retry. -/
def failingCaller : Env Unit := plainEnv (plainWorkflow [plainTask "a" [] ""])

/-- A run of the engine in which only `a` fails, and one of the SDK in which only `b` fails. -/
theorem errors_complete_iff_one :
    (∃ s rep, failingCaller.system.Reachable s ∧ s.report? = some rep ∧ ErrorsComplete rep) ∧
      ∃ t rep, continuePair.system.Reachable t ∧ t.report? = some rep ∧
        Sdk.Runner.ErrorsComplete rep := by
  have hrun : (failingCaller.system.run? ([Action.main, .main, .main] ++ wholeTask 0 badResult ++
      [Action.main, .main, .main])).any
        (fun s => s.report?.isSome && s.main.drained.isEmpty) = true := by rfl
  have hpyrun : (continuePair.system.run? (Sdk.Runner.pairStart ++
      Sdk.Runner.wholeTask 0 {} (.returned .null) ++
      Sdk.Runner.wholeTask 1 {} (.exception "E" "m") ++
      [Sdk.Runner.Env.Action.wake [0, 1], .main, .main, .main, .main, .main])).any (fun t =>
        t.report?.isSome && ((t.main.processed.map Sdk.Runner.hasFailed) = [false, true] &&
          (t.main.processed.map Sdk.Runner.unsuccessful) = [false, true])) = true := by
    decide +kernel
  obtain ⟨s, hs, htest⟩ := System.exists_of_run hrun
  obtain ⟨t, ht, hpytest⟩ := System.exists_of_run hpyrun
  simp only [Bool.and_eq_true, decide_eq_true_eq, List.isEmpty_iff] at htest hpytest
  obtain ⟨hrep, hdrained⟩ := htest
  obtain ⟨hpyrep, hfailed, hbad⟩ := hpytest
  obtain ⟨rep, hrep⟩ := Option.isSome_iff_exists.mp hrep
  obtain ⟨pyRep, hpyrep⟩ := Option.isSome_iff_exists.mp hpyrep
  have h := errors_complete_iff failingCaller .insertion (by rfl) hs hrep continuePair asciiLib
    (by rfl) ht hpyrep
  refine ⟨⟨s, rep, hs, hrep, h.1.mpr ?_⟩, t, pyRep, ht, hpyrep, h.2.mpr (Or.inr ?_)⟩
  · rw [DrainSilent, hdrained]
    exact List.nil_subperm
  · -- The only span that failed is the only one without success.
    obtain ⟨x, y, hxy⟩ := List.length_eq_two.mp
      (by simpa using congrArg List.length hfailed : t.main.processed.length = 2)
    rw [hxy] at hfailed hbad ⊢
    simp only [List.map_cons, List.map_nil, List.cons.injEq, and_true] at hfailed hbad
    simp [hfailed, hbad]

/-- Under `fail_fast` both tasks of the engine fail, and the report has one error. Under `continue`
both tasks of the SDK fail, and the report has one error. -/
theorem errors_not_complete :
    (∃ s rep, failFastPair.system.Reachable s ∧ s.report? = some rep ∧ ¬ ErrorsComplete rep) ∧
      ∃ t rep, continuePair.system.Reachable t ∧ t.report? = some rep ∧
        ¬ Sdk.Runner.ErrorsComplete rep := by
  -- Both lists have one error, and both reports have two failed tasks.
  have hrun : (failFastPair.system.run?
      ([Action.main, .main, .main, .main] ++ wholeTask 0 badResult ++ wholeTask 1 badResult ++
        [Action.main, .main, .main, .main])).any
        (fun s => s.report?.any fun rep =>
          rep.errors.length < (rep.tasks.filter hasFailed).length) = true := by rfl
  have hpyrun : (continuePair.system.run? (Sdk.Runner.pairStart ++
      Sdk.Runner.wholeTask 0 {} (.exception "E" "m") ++
      Sdk.Runner.wholeTask 1 {} (.exception "E" "m") ++
      [Sdk.Runner.Env.Action.wake [0, 1], .main, .main, .main, .main, .main])).any
        (fun t => t.report?.any fun rep =>
          rep.errors.length < (rep.tasks.filter Sdk.Runner.hasFailed).length) = true := by
    decide +kernel
  obtain ⟨s, hs, htest⟩ := System.exists_of_run hrun
  obtain ⟨t, ht, hpytest⟩ := System.exists_of_run hpyrun
  obtain ⟨rep, hrep, hlt⟩ := (Option.any_eq_true _ _).mp htest
  obtain ⟨pyRep, hpyrep, hpylt⟩ := (Option.any_eq_true _ _).mp hpytest
  refine ⟨⟨s, rep, hs, hrep, fun h => ?_⟩, t, pyRep, ht, hpyrep, fun h => ?_⟩
  · have hle := h.length_le
    rw [List.length_map] at hle
    exact absurd (of_decide_eq_true hlt) (not_lt.mpr hle)
  · have hle := h.length_le
    rw [List.length_map] at hle
    exact absurd (of_decide_eq_true hpylt) (not_lt.mpr hle)

end Orchestrator.Proofs
