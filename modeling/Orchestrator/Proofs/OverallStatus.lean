import Orchestrator.Proofs.DispatchSafety

/-!
# `Orchestrator.Proofs.OverallStatus`: when the status of a report tells the truth

The status of a report is computed from the flag `runFailed` and a scan for failed spans. A task
whose `select` takes the case of the cancelled context leaves a skipped span, and under the
`continue` policy such a span fails nothing. So a run that is cancelled from outside can be reported
as succeeded with tasks that never ran (`report_status_unfaithful`).

`report_status_faithful` is the other side: the status is right in every run in which a task that
does not fail fast takes a cancellation exit only after something has failed. The condition looks at
the state before a step (`CancelExitsExcused`) and is an invariant of the run (`Excused`): something
failed, or only tasks that fail fast have skipped spans of their own. A skipped span of such a task
sets `runFailed` when it is received, which `FlagOk` records.

At the end the report is succeeded exactly when no span says otherwise, and a task without a span of
its own was skipped because a task it depends on did not succeed (`RunInv.allSucceeded_iff`). The
witness is a run that is cancelled after a failure, so that a cancellation exit is really taken in
it.
-/

set_option autoImplicit false

namespace Orchestrator.Proofs

open Orchestrator.Lib Orchestrator.Engine Orchestrator.Engine.Env

variable {B : Type} {env : Env B}

/-! ### Reading the report -/

/-- A range over a map visits exactly its entries. -/
theorem range_any {ν : Type} (o : MapOrder) (d : Dict String ν) (p : String × ν → Bool) :
    (o.range d).any p = true ↔ ∃ k v, d.get? k = some v ∧ p (k, v) = true := by
  simp only [List.any_eq_true, MapOrder.range, List.mem_filterMap, (o.perm _).mem_iff]
  constructor
  · rintro ⟨_, ⟨k, -, hk⟩, hp⟩
    obtain ⟨v, hv, rfl⟩ := Option.map_eq_some_iff.mp hk
    exact ⟨k, v, hv, hp⟩
  · rintro ⟨k, v, hv, hp⟩
    exact ⟨(k, v), ⟨k, (d.mem_keys k).mpr ⟨v, hv⟩, by simp [hv]⟩, hp⟩

/-- Something failed, as far as the main goroutine has recorded. -/
def HasFailed (main : Main) : Prop :=
  main.runFailed = true ∨ ∃ id sp, main.spans.get? id = some sp ∧ sp.status = .failed

/-- A report says `failed` when something failed, and `succeeded` otherwise. There is no third
status, although the documentation names one. -/
theorem report_status (now : Nat) (main : Main) :
    ((env.report now main).status = .succeeded ∧ ¬ HasFailed main) ∨
      ((env.report now main).status = .failed ∧ HasFailed main) := by
  have hscan := range_any env.iter main.spans (fun e => e.2.status = .failed)
  simp only [report]
  -- The status is failed if the flag is set or a span of that status is found in the scan.
  cases hf : main.runFailed with
  | true => exact Or.inr ⟨by simp, Or.inl hf⟩
  | false =>
      cases hany : (env.iter.range main.spans).any (fun e => e.2.status = .failed) with
      | true =>
          obtain ⟨id, sp, hsp, hst⟩ := hscan.mp hany
          exact Or.inr ⟨by simp, Or.inr ⟨id, sp, hsp, by simpa using hst⟩⟩
      | false =>
          refine Or.inl ⟨by simp, ?_⟩
          rintro (hrf | ⟨id, sp, hsp, hst⟩)
          · rw [hf] at hrf
            cases hrf
          · have := hscan.mpr ⟨id, sp, hsp, by simpa using hst⟩
            rw [hany] at this
            cases this

/-- The tasks of the report of a finished run are the recorded spans, in spec order. -/
theorem mem_report_tasks {main : Main} {now : Nat} {sp : TaskSpan} :
    sp ∈ (env.report now main).tasks ↔ ∃ id ∈ env.wf.ids, main.spans.get? id = some sp := by
  simp only [report, List.mem_filterMap, Workflow.ids, List.mem_map]
  constructor
  · rintro ⟨t, ht, hsp⟩
    exact ⟨t.id, ⟨t, ht, rfl⟩, hsp⟩
  · rintro ⟨_, ⟨t, ht, rfl⟩, hsp⟩
    exact ⟨t, ht, hsp⟩

/-! ### Failures and the flag -/

/-- A failure of a task that fails fast, once recorded, has failed the run. -/
def FlagOk (env : Env B) (s : State B) : Prop :=
  ∀ g ∈ s.gos, ∀ sp, s.main.spans.get? g.task.id = some sp → sp.status ≠ .succeeded →
    g.task.effectiveOnError env.wf.defaultOnError = "fail_fast" → s.main.runFailed = true

/-- The main goroutine never clears `runFailed`. -/
theorem MainStepped.runFailed_mono {s s' : State B} (hs : MainStepped env s s')
    (hf : s.main.runFailed = true) : s'.main.runFailed = true := by
  cases hs with
  | receive span rest r hpc hch hr =>
      cases hr with
      | failFast t hst _ _ => rfl
      | succeeded hst => exact hf
      | «continue» t hst _ _ => exact hf
  | _ => exact hf

/-- A step keeps `FlagOk`: once a task that fails fast is recorded without success, the flag is set,
and no later step clears it. -/
theorem FlagOk.step (hacc : Accepted env.wf) {s s' : State B} {a : Action} (h : RunInv env s)
    (hflag : FlagOk env s) (hs : env.step? s a = some s') : FlagOk env s' := by
  have h' := h.step hacc hs
  rcases step_inv hs with ⟨-, hm⟩ | ⟨i, b, g, -, hg, ht⟩ | ⟨-, rfl⟩ | ⟨d, -, rfl⟩
  · intro g hg sp hsp hst hpol
    cases h.spanStep hacc hm with
    | quiet hch _ hgos hspans =>
        rcases hgos with hgos | ⟨t, hgos⟩
        · rw [hgos] at hg
          rw [hspans _ (List.mem_map_of_mem hg)] at hsp
          exact hm.runFailed_mono (hflag g hg sp hsp hst hpol)
        · rw [hgos, List.mem_append, List.mem_singleton] at hg
          rcases hg with hg | rfl
          · rw [hspans _ (List.mem_map_of_mem hg)] at hsp
            exact hm.runFailed_mono (hflag g hg sp hsp hst hpol)
          · -- A task that has just been dispatched has no span.
            have := h'.flight.running (newGoroutine s t) (by rw [hgos]; simp)
              (by simp [newGoroutine])
            rw [this] at hsp
            cases hsp
    | record span _ hgos _ hspans hrec =>
        rw [hgos] at hg
        rw [hspans _ (List.mem_map_of_mem hg)] at hsp
        split at hsp
        · rename_i hid
          cases hsp
          exact hrec g.task (h.task_mem g hg) hid hst hpol
        · exact hm.runFailed_mono (hflag g hg sp hsp hst hpol)
  · obtain ⟨g', hgs⟩ := ht.goStep
    intro x hx sp hsp hst hpol
    rw [hgs.gos] at hx
    rw [hgs.main] at hsp ⊢
    rcases List.mem_or_eq_of_mem_set hx with hx | rfl
    · exact hflag x hx sp hsp hst hpol
    · rw [hgs.task] at hsp hpol
      exact hflag g (List.mem_of_getElem? hg) sp hsp hst hpol
  · exact hflag
  · exact hflag

/-- `FlagOk` holds in every reachable state. -/
theorem reachable_flagOk (hacc : Accepted env.wf) {s : State B} (hs : env.system.Reachable s) :
    FlagOk env s :=
  hs.holds (fun g hg => by simp [system, Env.initial] at hg)
    fun _ _ _ hr hflag ha => hflag.step hacc (reachable_runInv hacc hr) ha

/-! ### Cancellation exits -/

/-- A label that lets a goroutine return a span skipped by cancellation. There are two of them, one
for each `select` on the way to a call. -/
def isCancelExit : TaskAction → Bool
  | .cancelSlot => true
  | .cancelWait => true
  | _ => false

/-- The condition on a step: a task that does not fail fast takes a cancellation exit only
after something has failed. -/
def CancelExitsExcused (env : Env B) (s : State B) : Action → Prop
  | .task i a => isCancelExit a = true → ∀ g, s.gos[i]? = some g →
      g.task.effectiveOnError env.wf.defaultOnError = "fail_fast" ∨ HasFailed s.main
  | _ => True

/-- The check for it, on the state before the step, so that a sample run can be put to the
condition. -/
def cancelExitsExcused (env : Env B) (s : State B) : Action → Bool
  | .task i a => !isCancelExit a || (s.gos[i]?).all (fun g =>
      g.task.effectiveOnError env.wf.defaultOnError = "fail_fast" || s.main.runFailed)
  | _ => true

/-- The check implies the condition, for a step of a run with concrete labels. -/
theorem cancelExitsExcused_of_check {s : State B} {a : Action}
    (h : cancelExitsExcused env s a = true) : CancelExitsExcused env s a := by
  cases a with
  | task i a =>
      intro hexit g hg
      simp only [cancelExitsExcused, hexit, hg, Option.all_some, Bool.not_true, Bool.false_or,
        Bool.or_eq_true, decide_eq_true_eq] at h
      exact h.imp_right Or.inl
  | _ => trivial

/-- Something failed, or only tasks that fail fast have skipped spans of their own. -/
def Excused (env : Env B) (s : State B) : Prop :=
  HasFailed s.main ∨ ∀ g ∈ s.gos, g.span.status = .skipped →
    g.task.effectiveOnError env.wf.defaultOnError = "fail_fast"

/-- What failed stays failed. -/
theorem HasFailed.step (hacc : Accepted env.wf) {s s' : State B} {a : Action} (h : RunInv env s)
    (hf : HasFailed s.main) (hs : env.step? s a = some s') : HasFailed s'.main := by
  rcases step_inv hs with ⟨-, hm⟩ | ⟨i, b, g, -, hg, ht⟩ | ⟨-, rfl⟩ | ⟨d, -, rfl⟩
  · rcases hf with hf | ⟨id, sp, hsp, hst⟩
    · exact Or.inl (hm.runFailed_mono hf)
    · exact Or.inr ⟨id, sp, h.spans_mono hacc hm hsp, hst⟩
  · obtain ⟨g', hgs⟩ := ht.goStep
    rw [hgs.main]
    exact hf
  · exact hf
  · exact hf

/-- A step that meets the condition keeps `Excused`. What could break it is a span skipped by a
cancellation while nothing has failed. -/
theorem Excused.step (hacc : Accepted env.wf) {s s' : State B} {a : Action} (h : RunInv env s)
    (hex : Excused env s) (hP : CancelExitsExcused env s a) (hs : env.step? s a = some s') :
    Excused env s' := by
  -- A failure stays on record, so only the other case has to be kept.
  rcases hex with hf | hall
  · exact Or.inl (hf.step hacc h hs)
  rcases step_inv hs with ⟨-, hm⟩ | ⟨i, b, g, rfl, hg, ht⟩ | ⟨-, rfl⟩ | ⟨d, -, rfl⟩
  · refine Or.inr fun g hg hst => ?_
    cases h.spanStep hacc hm with
    | quiet _ _ hgos _ =>
        rcases hgos with hgos | ⟨t, hgos⟩
        · exact hall g (hgos ▸ hg) hst
        · rw [hgos, List.mem_append, List.mem_singleton] at hg
          rcases hg with hg | rfl
          · exact hall g hg hst
          · cases hst
    | record span _ hgos _ _ _ => exact hall g (hgos ▸ hg) hst
  · obtain ⟨g', hgs⟩ := ht.goStep
    have hgo : g ∈ s.gos := List.mem_of_getElem? hg
    -- A goroutine becomes skipped in two ways only, at the slot and in a limiter's wait, and the
    -- condition speaks of both.
    by_cases hexit : isCancelExit b = true
    · rcases hP hexit g hg with hpol | hf
      · refine Or.inr fun x hx hst => ?_
        rw [hgs.gos] at hx
        rcases List.mem_or_eq_of_mem_set hx with hx | rfl
        · exact hall x hx hst
        · exact hgs.task ▸ hpol
      · exact Or.inl (hf.step hacc h hs)
    · refine Or.inr fun x hx hst => ?_
      rw [hgs.gos] at hx
      rcases List.mem_or_eq_of_mem_set hx with hx | rfl
      · exact hall x hx hst
      · rcases hgs.skipped hst with hst | rfl | rfl
        · exact hgs.task ▸ hall g hgo hst
        · exact absurd rfl hexit
        · exact absurd rfl hexit
  · exact Or.inr hall
  · exact Or.inr hall

/-- `Excused` holds in every state of a run whose steps meet the condition. -/
theorem reachable_excused (hacc : Accepted env.wf) {s : State B}
    (hs : env.system.ReachableBy (CancelExitsExcused env) s) : Excused env s := by
  refine hs.holds (Q := Excused env) (Or.inr fun g hg => ?_)
    fun _ _ _ hr hex hP ha => hex.step hacc (reachable_runInv hacc hr) hP ha
  simp [system, Env.initial] at hg

/-! ### The status of a report -/

/-- Every task of the workflow has a succeeded span in the report. -/
def AllSucceeded (wf : Workflow) (rep : Report) : Prop :=
  ∀ t ∈ wf.tasks, ∃ sp ∈ rep.tasks, sp.id = t.id ∧ sp.status = .succeeded

/-- At the end of a run, every task has a succeeded span in the report when no recorded span
says otherwise. -/
theorem RunInv.allSucceeded_iff {s : State B} (h : RunInv env s) {rep : Report}
    (hrep : s.report? = some rep) :
    AllSucceeded env.wf rep ↔
      ∀ id sp, s.main.spans.get? id = some sp → sp.status = .succeeded := by
  obtain ⟨-, htotal, now, rfl⟩ := h.returned hrep
  constructor
  · intro hall id sp hsp
    obtain ⟨t, ht, rfl⟩ := List.mem_map.mp (h.spans.mem id sp hsp)
    obtain ⟨x, hx, hid, hst⟩ := hall t ht
    obtain ⟨id', -, hx⟩ := mem_report_tasks.mp hx
    rw [← hid, h.spans.key id' x hx, hx] at hsp
    cases hsp
    exact hst
  · intro hall t ht
    have hid : t.id ∈ env.wf.ids := List.mem_map_of_mem ht
    obtain ⟨sp, hsp⟩ := Option.ne_none_iff_exists'.mp (htotal t.id hid)
    exact ⟨sp, mem_report_tasks.mpr ⟨t.id, hid, hsp⟩, h.spans.key _ _ hsp, hall _ _ hsp⟩

/-- In a run whose cancellation exits are all excused, the report says `succeeded` exactly when
every task succeeded.

The report fails if the flag `runFailed` is set or some span has failed (`report_status`). What it
overlooks are tasks that were skipped by a cancellation without any failure. `Excused` is the
invariant that rules them out: as long as nothing has failed, a skipped goroutine is one whose
policy is `fail_fast`, and such a task sets the flag when it is received. -/
theorem report_status_faithful (env : Env B) (iter : MapOrder)
    (hval : env.wf.validate iter = .ok ()) {s : State B}
    (hs : env.system.ReachableBy (CancelExitsExcused env) s) {rep : Report}
    (hrep : s.report? = some rep) : rep.status = .succeeded ↔ AllSucceeded env.wf rep := by
  have hacc := accepted_of_validate hval
  have h := reachable_runInv hacc hs.reachable
  have hflag := reachable_flagOk hacc hs.reachable
  have hex := reachable_excused hacc hs
  rw [h.allSucceeded_iff hrep]
  obtain ⟨hzero, -, now, rfl⟩ := h.returned hrep
  rcases report_status now s.main with ⟨hst, hnf⟩ | ⟨hst, hf⟩
  · refine iff_of_true hst fun id sp hsp => ?_
    by_contra hne
    have hrun : s.main.runFailed = false := by
      cases hrf : s.main.runFailed with
      | false => rfl
      | true => exact absurd (Or.inl hrf) hnf
    -- A span that did not succeed goes back to a dispatched task that did not.
    obtain ⟨r, hr, ⟨st, hst', hbad⟩, -⟩ := (h.books hrun).1.exists_bad_started
      (hacc.acyclic id (h.spans.mem id sp hsp))
      ⟨sp.status, statusOf_eq_some.mpr ⟨sp, hsp, rfl⟩, by simpa [isSucceeded] using hne⟩
    obtain ⟨g, hg, rfl⟩ := List.mem_map.mp hr
    have hgsp := (h.flight.all_recorded hzero g hg).2
    have hgst : g.span.status = .skipped := by
      obtain ⟨x, hx, rfl⟩ := statusOf_eq_some.mp hst'
      rw [hgsp] at hx
      cases hx
      cases hstat : g.span.status with
      | succeeded => simp [isSucceeded, hstat] at hbad
      | failed => exact absurd (Or.inr ⟨_, _, hgsp, hstat⟩) hnf
      | skipped => rfl
    have hpol := (hex.resolve_left hnf) g hg hgst
    have hrf := hflag g hg g.span hgsp (by simp [hgst]) hpol
    rw [hrun] at hrf
    cases hrf
  · refine iff_of_false (by simp [hst]) fun hall => ?_
    rcases hf with hrf | ⟨id, sp, hsp, hfailed⟩
    · obtain ⟨-, id, sp, hsp, hne⟩ := h.failed hrf
      exact hne (hall id sp hsp)
    · rw [hall id sp hsp] at hfailed
      cases hfailed

/-- One task that lets the run go on when it fails. -/
def loneContinue : Env Unit := plainEnv (plainWorkflow [plainTask "a" [] "continue"])

/-- Two tasks, and the first one ends the run when it fails. -/
def failFastFirst : Env Unit :=
  plainEnv (plainWorkflow [plainTask "a" [] "", plainTask "b" [] "continue"])

/-- `a` fails and cancels the run, and `b` leaves its wait for a slot then. -/
theorem report_status_faithful_failFastFirst :
    ∃ s rep, failFastFirst.system.ReachableBy (CancelExitsExcused failFastFirst) s ∧
      s.report? = some rep ∧ rep.tasks.map (·.status) = [.failed, .skipped] ∧
      (rep.status = .succeeded ↔ AllSucceeded failFastFirst.wf rep) := by
  have hrun : ((failFastFirst.system.guard (cancelExitsExcused failFastFirst)).run?
      ([Action.main, .main, .main, .main] ++ wholeTask 0 { err := some ⟨"E", "m", false⟩ } ++
        [Action.task 1 .resolve, .main, .task 1 .cancelSlot, .task 1 .send,
          .main, .main, .main])).any
        (fun s => s.report?.any (fun rep =>
          decide (rep.tasks.map (·.status) = [.failed, .skipped]))) = true := by rfl
  obtain ⟨s, hs, hrep⟩ := System.exists_of_run hrun
  have hs := System.ReachableBy.of_guard
    (fun s a ha => @cancelExitsExcused_of_check Unit failFastFirst s a ha) hs
  obtain ⟨rep, hrep, hstatus⟩ := (Option.any_eq_true _ _).mp hrep
  exact ⟨s, rep, hs, hrep, of_decide_eq_true hstatus,
    report_status_faithful failFastFirst .insertion (by rfl) hs hrep⟩

/-- A run that is cancelled before its only task takes a slot is reported as succeeded. The task is
skipped, its policy lets the run continue, and nothing has failed, so neither test of the report
notices it. -/
theorem report_status_unfaithful :
    ¬ ∀ (env : Env Unit) (iter : MapOrder) (s : State Unit) (rep : Report),
      env.wf.validate iter = .ok () → env.system.Reachable s → s.report? = some rep →
      (rep.status = .succeeded ↔ AllSucceeded env.wf rep) := by
  intro h
  have hrun : (loneContinue.system.run?
      [.main, .main, .main, .cancel, .task 0 .resolve, .task 0 .cancelSlot, .task 0 .send, .main,
        .main, .main]).any (fun s => s.report?.any (fun rep =>
          decide (rep.status = .succeeded) && rep.tasks.all (fun sp => sp.status = .skipped)))
      = true := by rfl
  obtain ⟨s, hs, hp⟩ := System.exists_of_run hrun
  obtain ⟨rep, hrep, hp⟩ := (Option.any_eq_true _ _).mp hp
  rw [Bool.and_eq_true, decide_eq_true_iff, List.all_eq_true] at hp
  obtain ⟨sp, hsp, -, hst⟩ := (h loneContinue .insertion s rep (by rfl) hs hrep).mp hp.1
    (plainTask "a" [] "continue") (by simp [loneContinue, plainEnv, plainWorkflow])
  have := hp.2 sp hsp
  simp [hst] at this

end Orchestrator.Proofs
