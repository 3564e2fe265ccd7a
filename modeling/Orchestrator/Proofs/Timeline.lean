import Orchestrator.Proofs.CriticalPath
import Orchestrator.Proofs.OverallStatus

/-!
# `Orchestrator.Proofs.Timeline`: the durations in a report fit into the run

The duration of a span runs from `t0` of `executeTask` to its return, and the report has that of the
whole run. A task starts after the spans of its dependencies were received, so along a chain of
dependencies the spans lie one behind the other (`Timeline`). Their durations are cut to
milliseconds, and so is that of the run, but cutting the parts never makes them longer than the
whole. So no chain took longer than the run, and neither did the critical path of the report
(`durations_fit`).

The start of a span is the dispatch until the goroutine has resolved its inputs and takes `t0`, and
its end is where its duration says; `SpanTime` has what a step can do to the two. A task that was
never dispatched takes no time and is put at the end of the run (`startOf_placeholder`), so that a
chain may contain such tasks.

The argument along a chain is an induction over the chain: each task ends before the next one starts
(`dependency_ends`), so the sum of the durations is at most the time from the first start to the
report.
-/

set_option autoImplicit false

namespace Orchestrator.Proofs

open Orchestrator.Lib Orchestrator.Engine Orchestrator.Engine.Env

variable {B : Type} {env : Env B}

/-! ### Spans in time -/

/-- The end of the span of a goroutine, in nanoseconds, as its duration tells. -/
def endOf (g : Goroutine) : Int := g.startedAt + 1000000 * g.span.durationMs

/-- What a step does to the span of its goroutine: it leaves the times alone, starts the span, or
gives it the time since its start. -/
inductive SpanTime (now : Nat) (g g' : Goroutine) : Prop
  | same (hstart : g'.startedAt = g.startedAt) (hdur : g'.span.durationMs = g.span.durationMs)
  /-- The inputs do not resolve. -/
  | reset (hstart : g'.startedAt = g.startedAt) (hdur : g'.span.durationMs = 0)
  | start (hstart : g'.startedAt = now) (hdur : g'.span.durationMs = 0)
  | finish (hstart : g'.startedAt = g.startedAt)
      (hdur : g'.span.durationMs = sinceMs now g.startedAt)

/-- The head of the attempt loop. -/
theorem enterAttempt_time (g : Goroutine) (attempt : Int) (now : Nat) :
    SpanTime now g (env.enterAttempt g attempt now) := by
  rcases enterAttempt_cases env g now attempt with ⟨-, h⟩ | ⟨-, h⟩ <;> rw [h]
  · exact .same rfl rfl
  · exact .finish rfl rfl

/-- Resolving the inputs. -/
theorem resolveInputs_time (g : Goroutine) (now : Nat) :
    SpanTime now g (env.resolveInputs g now) := by
  rcases resolveInputs_cases env g now with ⟨e, -, h⟩ | ⟨r, -, h⟩
  · rw [h]
    exact .reset rfl rfl
  · rw [h]
    have hzero : sinceMs now now = 0 := by simp [sinceMs]
    cases @enterAttempt_time B env (firstAttempt env g now r) 1 now with
    | same hstart hdur => exact .start hstart hdur
    | reset hstart hdur => exact .start hstart hdur
    | start hstart hdur => exact .start hstart hdur
    | finish hstart hdur => exact .start hstart (hdur.trans hzero)

/-- The return of `Execute`. -/
theorem afterExecute_time (g : Goroutine) (res : Result) (err : Option String) (now : Nat) :
    SpanTime now g (env.afterExecute g res err now) := by
  have hmerge : (env.mergeUsage g.span res).durationMs = g.span.durationMs := by
    unfold mergeUsage
    split <;> rfl
  rcases afterExecute_cases env g now res err with ⟨e, -, -, h⟩ | ⟨e, -, -, h⟩ | ⟨-, -, h⟩ <;>
    rw [h]
  · exact .same rfl hmerge
  · exact .finish rfl rfl
  · exact .finish rfl rfl

/-- Each step of a task goroutine. -/
theorem TaskStep.time {s s' : State B} {i : Nat} {g : Goroutine} {a : TaskAction}
    (h : TaskStep env s i g a s') : ∃ g', s'.gos = s.gos.set i g' ∧ SpanTime s.clock g g' := by
  cases h with
  | resolve hpc => exact ⟨_, rfl, resolveInputs_time g s.clock⟩
  | cancelSlot hpc hc => exact ⟨_, rfl, .finish rfl rfl⟩
  | cancelWait hpc hc => exact ⟨_, rfl, .finish rfl rfl⟩
  | ret res err hpc => exact ⟨_, rfl, afterExecute_time g res err s.clock⟩
  | wake hpc => exact ⟨_, rfl, enterAttempt_time g _ s.clock⟩
  | _ => exact ⟨_, rfl, .same rfl rfl⟩

/-- The milliseconds since an instant are not more than the nanoseconds. -/
theorem sinceMs_le {now t0 : Nat} (h : t0 ≤ now) :
    0 ≤ sinceMs now t0 ∧ (t0 : Int) + 1000000 * sinceMs now t0 ≤ now := by
  have := Nat.div_mul_le_self (now - t0) 1000000
  unfold sinceMs
  omega

/-- A span starts in the run, does not end before it starts, and has ended. -/
structure InTime (env : Env B) (now : Nat) (g : Goroutine) : Prop where
  begins : env.startedAt ≤ g.startedAt
  nonneg : 0 ≤ g.span.durationMs
  ends : endOf g ≤ now

/-- A step keeps the span in time, and moves its start forward if at all. -/
theorem InTime.step {now : Nat} {g g' : Goroutine} (h : InTime env now g) (ht : SpanTime now g g') :
    InTime env now g' ∧ g.startedAt ≤ g'.startedAt := by
  have hnow : g.startedAt ≤ now := by
    have := h.ends
    have := h.nonneg
    unfold endOf at *
    omega
  have hbegins := h.begins
  have hends := h.ends
  have hsince := sinceMs_le hnow
  unfold endOf at hends
  -- A step keeps the span, resets its duration, starts it or finishes it. Only the last gives it a
  -- length.
  cases ht with
  | same hstart hdur =>
      refine ⟨⟨hstart ▸ hbegins, hdur ▸ h.nonneg, ?_⟩, hstart.ge⟩
      rw [endOf, hstart, hdur]
      exact hends
  | reset hstart hdur =>
      refine ⟨⟨hstart ▸ hbegins, hdur.ge, ?_⟩, hstart.ge⟩
      rw [endOf, hstart, hdur]
      omega
  | start hstart hdur =>
      refine ⟨⟨hstart ▸ hbegins.trans hnow, hdur.ge, ?_⟩, hstart ▸ hnow⟩
      rw [endOf, hstart, hdur]
      omega
  | finish hstart hdur =>
      refine ⟨⟨hstart ▸ hbegins, hdur ▸ hsince.1, ?_⟩, hstart.ge⟩
      rw [endOf, hstart, hdur]
      exact hsince.2

/-! ### Along a run -/

/-- The spans of a run lie one behind the other: a task starts when those that it depends on have
ended, and nothing starts before the run. -/
structure Timeline (env : Env B) (s : State B) : Prop where
  began : env.startedAt ≤ s.clock
  inTime : ∀ g ∈ s.gos, InTime env s.clock g
  follows : ∀ g ∈ s.gos, ∀ d ∈ s.gos, d.task.id ∈ g.task.dependsOn → endOf d ≤ g.startedAt

/-- The goroutine of a dependency is done. -/
theorem RunInv.dep_done (hacc : Accepted env.wf) {s : State B} (h : RunInv env s) {g d : Goroutine}
    (hg : g ∈ s.gos) (hd : d ∈ s.gos) (hdep : d.task.id ∈ g.task.dependsOn) : d.pc = .done := by
  obtain ⟨sp, hsp, -⟩ := hasSucceeded_iff.mp (h.deps_succeeded hacc hg hdep)
  by_contra hpc
  rw [h.flight.running d hd hpc] at hsp
  cases hsp

/-- Where each goroutine was before a step. It only moves forward in time, and what is done does not
move at all. -/
structure Moved (env : Env B) (s : State B) (g g' : Goroutine) : Prop where
  mem : g ∈ s.gos
  task : g'.task = g.task
  start_le : g.startedAt ≤ g'.startedAt
  inTime : InTime env s.clock g'
  /-- What is done does not move. -/
  done : g'.pc = .done → endOf g' = endOf g

/-- A step of a task goroutine. -/
theorem Timeline.moved {s s' : State B} {i : Nat} {g : Goroutine} {a : TaskAction}
    (h : Timeline env s) (hg : s.gos[i]? = some g) (ht : TaskStep env s i g a s') :
    ∀ x' ∈ s'.gos, ∃ x, Moved env s x x' := by
  obtain ⟨g', hgos, htime⟩ := ht.time
  obtain ⟨g₁, hgs⟩ := ht.goStep
  obtain rfl : g' = g₁ := eq_of_set_eq hg (hgos.symm.trans hgs.gos)
  have hmem := List.mem_of_getElem? hg
  obtain ⟨hin, hle⟩ := (h.inTime g hmem).step htime
  rw [hgos]
  refine forall_mem_set (fun x hx => ⟨x, hx, rfl, le_rfl, h.inTime x hx, fun _ => rfl⟩)
    ⟨g, hmem, hgs.task, hle, hin, fun hpc => ?_⟩
  rcases hgs.chan with ⟨hne, -⟩ | ⟨hsend, -⟩
  · exact absurd hpc hne
  · rw [hsend]
    rfl

/-- The span of a new goroutine starts and ends now. -/
theorem newGoroutine_inTime {s : State B} (hbegan : env.startedAt ≤ s.clock) (t : Task) :
    InTime env s.clock (newGoroutine s t) :=
  ⟨hbegan, le_rfl, by simp [endOf, newGoroutine]⟩

/-- A dispatch keeps the order of the spans: what the new task depends on is done. -/
theorem Timeline.dispatch (hacc : Accepted env.wf) {s s' : State B} {t : Task} (h : Timeline env s)
    (hinv' : RunInv env s') (hgos : s'.gos = s.gos ++ [newGoroutine s t])
    (hclock : s'.clock = s.clock) : Timeline env s' := by
  have hold : ∀ g ∈ s'.gos, g ∈ s.gos ∨ g = newGoroutine s t := by
    intro g hg
    rw [hgos] at hg
    simpa using hg
  refine ⟨hclock ▸ h.began, fun g hg => ?_, fun g hg d hd hdep => ?_⟩
  · rw [hclock]
    rcases hold g hg with hg | rfl
    · exact h.inTime g hg
    · exact newGoroutine_inTime h.began t
  · -- A new goroutine depends on finished tasks only, and no task that is new is finished.
    have hdone := hinv'.dep_done hacc hg hd hdep
    rcases hold d hd with hd | rfl
    · rcases hold g hg with hg | rfl
      · exact h.follows g hg d hd hdep
      · exact (h.inTime d hd).ends
    · cases hdone

/-- A step keeps the order of the spans. -/
theorem Timeline.step (hacc : Accepted env.wf) {s s' : State B} {a : Action} (h : Timeline env s)
    (hinv : RunInv env s) (hs : env.step? s a = some s') : Timeline env s' := by
  have hinv' := hinv.step hacc hs
  rcases step_inv hs with ⟨-, hm⟩ | ⟨i, b, g, -, hg, ht⟩ | ⟨-, rfl⟩ | ⟨d, -, rfl⟩
  · have hclock : s'.clock = s.clock := by cases hm <;> rfl
    rcases hm.gos with hgos | ⟨t, hgos⟩
    · exact ⟨hclock ▸ h.began, by rw [hgos, hclock]; exact h.inTime, by rw [hgos]; exact h.follows⟩
    · exact h.dispatch hacc hinv' hgos hclock
  · have hmoved := h.moved hg ht
    have hclock : s'.clock = s.clock := by cases ht <;> rfl
    refine ⟨hclock ▸ h.began, fun x' hx' => ?_, fun x' hx' d' hd' hdep => ?_⟩
    · obtain ⟨x, hx⟩ := hmoved x' hx'
      rw [hclock]
      exact hx.inTime
    · obtain ⟨x, hx⟩ := hmoved x' hx'
      obtain ⟨d, hd⟩ := hmoved d' hd'
      -- The dependency was done before, since a task that is not has no dependents yet.
      have hdone := hinv'.dep_done hacc hx' hd' hdep
      rw [hd.task, hx.task] at hdep
      rw [hd.done hdone]
      exact (h.follows x hx.mem d hd.mem hdep).trans (by exact_mod_cast hx.start_le)
  · exact ⟨h.began, h.inTime, h.follows⟩
  · refine ⟨h.began.trans (Nat.le_add_right _ _),
      fun g hg => ⟨(h.inTime g hg).begins, (h.inTime g hg).nonneg, ?_⟩, h.follows⟩
    have := (h.inTime g hg).ends
    show endOf g ≤ ((s.clock + d : Nat) : Int)
    omega

/-- The spans of every reachable state are in order. -/
theorem reachable_timeline (hacc : Accepted env.wf) {s : State B} (hs : env.system.Reachable s) :
    Timeline env s := by
  have hinit : Timeline env env.initial :=
    ⟨le_rfl, fun g hg => (by cases hg), fun g hg => (by cases hg)⟩
  exact hs.holds hinit fun s a s' hs h ha => h.step hacc (reachable_runInv hacc hs) ha

/-! ### The report -/

/-- `Run` returned the report at the instant `now`, and by then every goroutine had ended. -/
structure ReturnedAt (env : Env B) (s : State B) (rep : Report) (now : Nat) : Prop where
  report : rep = env.report now s.main
  began : env.startedAt ≤ now
  ended : ∀ g ∈ s.gos, endOf g ≤ now

/-- The step of the main goroutine that returns the report. -/
theorem MainStepped.returns {s s' : State B} (h : MainStepped env s s') {rep : Report}
    (hrep : s'.report? = some rep) : s'.gos = s.gos ∧ rep = env.report s.clock s'.main := by
  have hpc' := report?_eq_some.mp hrep
  cases h with
  | finish hpc =>
      cases hpc'
      exact ⟨rfl, rfl⟩
  | receive span rest r hpc hch hr => cases hr <;> cases hpc'
  | dispatch tid rest t hpc hr ht => cases hpc.symm.trans hpc'
  | drain span rest hpc hf hch => cases hpc.symm.trans hpc'
  | _ => cases hpc'

/-- The spans of a report end before `Run` returns it. -/
theorem reachable_returnedAt (hacc : Accepted env.wf) {s : State B} (hs : env.system.Reachable s) :
    ∀ rep, s.report? = some rep → ∃ now, ReturnedAt env s rep now := by
  refine hs.holds (P := fun s => ∀ rep, s.report? = some rep → ∃ now, ReturnedAt env s rep now)
    (fun rep hrep => by cases report?_eq_some.mp hrep) fun s a s' hs h ha rep hrep => ?_
  rcases step_inv ha with ⟨-, hm⟩ | ⟨i, b, g, -, hg, ht⟩ | ⟨-, rfl⟩ | ⟨d, -, rfl⟩
  · obtain ⟨hgos, hnow⟩ := hm.returns hrep
    have hline := reachable_timeline hacc hs
    refine ⟨s.clock, hnow, hline.began, fun g hg => ?_⟩
    rw [hgos] at hg
    exact (hline.inTime g hg).ends
  · -- At the return no goroutine is left that could take the step.
    obtain ⟨g', hgs⟩ := ht.goStep
    have hinv := reachable_runInv hacc hs
    have hrep' : s.report? = some rep := by
      rw [report?_eq_some] at hrep ⊢
      rwa [hgs.main] at hrep
    have hdone := (hinv.flight.all_recorded (hinv.returned hrep').1 g (List.mem_of_getElem? hg)).1
    exact absurd hdone hgs.not_done
  · obtain ⟨now, hnow⟩ := h rep hrep
    exact ⟨now, hnow.report, hnow.began, hnow.ended⟩
  · obtain ⟨now, hnow⟩ := h rep hrep
    exact ⟨now, hnow.report, hnow.began, hnow.ended⟩

/-! ### Chains of spans -/

/-- A chain of spans is one of their ids. -/
theorem isChain_ids {deps : String → List String} {c : List TaskSpan} :
    (c.map (·.id)).IsChain (fun d t => d ∈ deps t) ↔ c.IsChain (fun d t => d.id ∈ deps t.id) := by
  rw [List.isChain_map]

/-- The recorded spans as the report lists them. -/
theorem report_duration {s : State B} (h : RunInv env s) {now : Nat} {sp : TaskSpan}
    (hsp : sp ∈ (env.report now s.main).tasks) : duration s.main.spans sp.id = sp.durationMs := by
  obtain ⟨id, -, hget⟩ := mem_report_tasks.mp hsp
  rw [h.spans.key id sp hget, duration, hget]
  rfl

/-- The start of a task, in nanoseconds. What was not dispatched is put at the end of the run. -/
def startOf (s : State B) (now : Nat) (id : String) : Int :=
  match s.gos.find? (fun g => g.task.id = id) with
  | some g => g.startedAt
  | none => now

/-- The duration of a task in nanoseconds. -/
def nanosOf (s : State B) (id : String) : Int := 1000000 * duration s.main.spans id

section Chains

variable {s : State B} {rep : Report} {now : Nat}

/-- The start of a dispatched task is that of its goroutine. -/
theorem startOf_go (h : RunInv env s) {g : Goroutine} (hg : g ∈ s.gos) :
    startOf s now g.task.id = g.startedAt := by
  unfold startOf
  cases hfind : s.gos.find? (fun x => x.task.id = g.task.id) with
  | none =>
      have := List.find?_eq_none.mp hfind g hg
      simp at this
  | some x =>
      have hid : x.task.id = g.task.id := by simpa using List.find?_some hfind
      rw [h.flight.go_unique (List.mem_of_find?_eq_some hfind) hg hid]

/-- What was not dispatched is put at the end of the run. -/
theorem startOf_placeholder {id : String} (hid : id ∉ goIds s.gos) : startOf s now id = now := by
  have hnone : s.gos.find? (fun g => g.task.id = id) = none :=
    List.find?_eq_none.mpr fun g hg h => hid (of_decide_eq_true h ▸ List.mem_map_of_mem hg)
  rw [startOf, hnone]

/-- A placeholder takes no time. -/
theorem duration_placeholder (hplaced : Placed s) {id : String} (hid : id ∉ goIds s.gos) :
    duration s.main.spans id = 0 := by
  unfold duration
  cases hsp : s.main.spans.get? id with
  | none => rfl
  | some sp =>
      obtain rfl := (hplaced id sp hsp).resolve_left hid
      rfl

variable (hinv : RunInv env s) (hzero : ¬ 0 < s.main.inFlight)
include hinv hzero

/-- A dispatched task of a finished run has the duration of its goroutine's span. -/
theorem duration_go {g : Goroutine} (hg : g ∈ s.gos) :
    duration s.main.spans g.task.id = g.span.durationMs := by
  rw [duration, (hinv.flight.all_recorded hzero g hg).2]
  rfl

/-- The end of the span of a goroutine of a finished run. -/
theorem endOf_go {g : Goroutine} (hg : g ∈ s.gos) :
    startOf s now g.task.id + nanosOf s g.task.id = endOf g := by
  rw [startOf_go hinv hg, nanosOf, duration_go hinv hzero hg, endOf]

variable (hline : Timeline env s) (hplaced : Placed s) (hnow : ReturnedAt env s rep now)
include hline hplaced hnow

/-- Each task has its time between the start of the run and the report. -/
theorem task_inTime (id : String) :
    (env.startedAt : Int) ≤ startOf s now id ∧ 0 ≤ duration s.main.spans id ∧
      startOf s now id + nanosOf s id ≤ now := by
  by_cases hid : id ∈ goIds s.gos
  · obtain ⟨g, hg, rfl⟩ := List.mem_map.mp hid
    have hin := hline.inTime g hg
    rw [endOf_go hinv hzero hg, startOf_go hinv hg, duration_go hinv hzero hg]
    exact ⟨by exact_mod_cast hin.begins, hin.nonneg, hnow.ended g hg⟩
  · have hbegan := hnow.began
    rw [startOf_placeholder hid, nanosOf, duration_placeholder hplaced hid]
    omega

/-- A task does not start before its dependencies end. -/
theorem dependency_ends (hacc : Accepted env.wf) (id : String) :
    ∀ d ∈ env.wf.deps id, startOf s now d + nanosOf s d ≤ startOf s now id := by
  intro d hd
  by_cases hid : id ∈ goIds s.gos
  · obtain ⟨g, hg, rfl⟩ := List.mem_map.mp hid
    rw [hacc.deps_task (hinv.task_mem g hg)] at hd
    obtain ⟨sp, hsp, hst⟩ := hasSucceeded_iff.mp (hinv.deps_succeeded hacc hg hd)
    have hgo : d ∈ goIds s.gos := by
      refine (hplaced d sp hsp).resolve_right fun heq => ?_
      rw [heq] at hst
      cases hst
    obtain ⟨x, hx, rfl⟩ := List.mem_map.mp hgo
    rw [endOf_go hinv hzero hx, startOf_go hinv hg]
    exact hline.follows g hg x hx hd
  · rw [startOf_placeholder hid]
    exact (task_inTime hinv hzero hline hplaced hnow d).2.2

/-- No chain of dependencies takes longer than the run. -/
theorem chain_fits (hacc : Accepted env.wf) {c : List String}
    (hc : c.IsChain (fun d t => d ∈ env.wf.deps t)) :
    LongestChain.weight (duration s.main.spans) c ≤ sinceMs now env.startedAt := by
  have htask := task_inTime hinv hzero hline hplaced hnow
  cases hlast : c.getLast? with
  | none =>
      rw [List.getLast?_eq_none_iff.mp hlast]
      exact Int.natCast_nonneg _
  | some x =>
      have hle := (LongestChain.chainTo_iff.mpr ⟨hc, hlast⟩).weight_le (fun y => (htask y).1)
        (dependency_ends hinv hzero hline hplaced hnow hacc)
      have hscale : LongestChain.weight (nanosOf s) c
          = 1000000 * LongestChain.weight (duration s.main.spans) c :=
        LongestChain.weight_mul 1000000 c
      have hend := (htask x).2.2
      -- The sum of the parts is whole milliseconds, so it survives the cut of the run's duration.
      unfold sinceMs
      omega

/-- No chain of spans in the report takes longer than the run. -/
theorem spans_fit (hacc : Accepted env.wf) {c : List TaskSpan} (hmem : ∀ sp ∈ c, sp ∈ rep.tasks)
    (hchain : c.IsChain (fun d t => d.id ∈ env.wf.deps t.id)) :
    (c.map (·.durationMs)).sum ≤ rep.durationMs := by
  obtain rfl := hnow.report
  have hfit := chain_fits hinv hzero hline hplaced hnow hacc (isChain_ids.mpr hchain)
  rw [LongestChain.weight, List.map_map] at hfit
  have hdurs : c.map (·.durationMs) = c.map fun sp => duration s.main.spans sp.id :=
    List.map_congr_left fun sp hsp => (report_duration hinv (hmem sp hsp)).symm
  rw [hdurs]
  exact hfit

end Chains

/-! ### The durations of a report -/

/-- A chain of succeeded tasks is a list of spans of the report. -/
theorem exists_spans {s : State B} (h : RunInv env s) (now : Nat) {c : List String}
    (hc : ∀ id ∈ c, hasSucceeded s.main.spans id = true) :
    ∃ sps : List TaskSpan, sps.map (·.id) = c ∧ ∀ sp ∈ sps, sp ∈ (env.report now s.main).tasks := by
  induction c with
  | nil => exact ⟨[], rfl, by simp⟩
  | cons id c ih =>
      obtain ⟨sps, rfl, hsps⟩ := ih fun x hx => hc x (List.mem_cons_of_mem _ hx)
      obtain ⟨sp, hsp, -⟩ := hasSucceeded_iff.mp (hc id List.mem_cons_self)
      have hmem : sp ∈ (env.report now s.main).tasks :=
        mem_report_tasks.mpr ⟨id, h.spans.mem id sp hsp, hsp⟩
      refine ⟨sp :: sps, by rw [List.map_cons, h.spans.key id sp hsp], fun x hx => ?_⟩
      rcases List.mem_cons.mp hx with rfl | hx
      · exact hmem
      · exact hsps x hx

/-- No task of a report has a negative duration, and along any chain of dependencies the durations
sum up to at most the duration of the run. Where no id is empty, the critical path is such a chain.

`Timeline` is the invariant: a task starts after all that it depends on have ended. Each duration is
cut to whole milliseconds on its own, which can only make the sum smaller (`spans_fit`). The status
of the tasks does not matter. -/
theorem durations_fit (env : Env B) (iter : MapOrder) (hval : env.wf.validate iter = .ok ())
    {s : State B} (hs : env.system.Reachable s) {rep : Report} (hrep : s.report? = some rep) :
    (∀ sp ∈ rep.tasks, 0 ≤ sp.durationMs) ∧
      (∀ c : List TaskSpan, (∀ sp ∈ c, sp ∈ rep.tasks) →
        c.IsChain (fun d t => d.id ∈ env.wf.deps t.id) →
          (c.map (·.durationMs)).sum ≤ rep.durationMs) ∧
      ("" ∉ env.wf.ids → ∃ c : List TaskSpan, c.map (·.id) = rep.criticalPath ∧
        (∀ sp ∈ c, sp ∈ rep.tasks) ∧ c.IsChain (fun d t => d.id ∈ env.wf.deps t.id) ∧
          (c.map (·.durationMs)).sum ≤ rep.durationMs) := by
  have hacc := accepted_of_validate hval
  have hinv := reachable_runInv hacc hs
  have hline := reachable_timeline hacc hs
  have hplaced := reachable_placed hacc hs
  have hzero := (hinv.returned hrep).1
  obtain ⟨now, hnow⟩ := reachable_returnedAt hacc hs rep hrep
  have hnonneg := fun id => (task_inTime hinv hzero hline hplaced hnow id).2.1
  have hsum := @spans_fit B env s rep now hinv hzero hline hplaced hnow hacc
  obtain rfl := hnow.report
  refine ⟨fun sp hsp => report_duration hinv hsp ▸ hnonneg sp.id, fun _ => hsum, fun hids => ?_⟩
  -- The empty id stands for no task in the search for the critical path, so it must not be the id
  -- of one.
  have hempty : s.main.spans.get? "" = none := by
    by_contra hne
    obtain ⟨sp, hsp⟩ := Option.ne_none_iff_exists'.mp hne
    exact hids (hinv.spans.mem _ sp hsp)
  have hacyclic := LongestChain.acyclic_of_acc (fun _ _ hd => mem_ids_of_dep hd) hacc.acyclic
  have hpath := criticalPath_chain hempty hnonneg hacyclic env.iter
  obtain ⟨c, hc, hmem⟩ := exists_spans hinv now hpath.succeeded
  have hchain : c.IsChain (fun d t => d.id ∈ env.wf.deps t.id) := by
    refine isChain_ids.mp ?_
    rw [hc]
    exact hpath.linked
  exact ⟨c, hc, hmem, hchain, hsum hmem hchain⟩

/-- Two tasks of a millisecond and a half, one after the other, are reported with one millisecond
each, and the run with three. -/
theorem durations_fit_doubledEdge :
    ∃ rep : Report, rep.criticalPath = ["a", "b"] ∧ rep.tasks.map (·.durationMs) = [1, 1] ∧
      rep.durationMs = 3 ∧ (rep.tasks.map (·.durationMs)).sum ≤ rep.durationMs := by
  have hrun : (doubledEdge.system.run?
      ([Action.main, .main, .main, .task 0 .resolve, .tick 1500000] ++ attempt 0 {} ++
        [Action.task 0 .send, .main, .main, .main, .main, .task 1 .resolve, .tick 1500000] ++
        attempt 1 {} ++ [Action.task 1 .send, .main, .main, .main])).any
      (fun s => s.report?.any fun rep => rep.criticalPath = ["a", "b"] ∧
        rep.tasks.map (·.durationMs) = [1, 1] ∧ rep.durationMs = 3 ∧
          rep.tasks.map (·.id) = ["a", "b"]) = true := by
    decide +kernel
  obtain ⟨s, hs, hend⟩ := System.exists_of_run hrun
  obtain ⟨rep, hrep, hend⟩ := (Option.any_eq_true _ _).mp hend
  obtain ⟨hpath, hdurs, htotal, hids⟩ := of_decide_eq_true hend
  -- The two tasks are a chain of the graph, although the edge between them is listed twice.
  have hchain : rep.tasks.IsChain (fun d t => d.id ∈ doubledEdge.wf.deps t.id) := by
    refine isChain_ids.mp ?_
    rw [hids]
    exact List.isChain_pair.mpr (by decide)
  exact ⟨rep, hpath, hdurs, htotal, (durations_fit doubledEdge .insertion (by rfl) hs hrep).2.1
    rep.tasks (fun _ h => h) hchain⟩

end Orchestrator.Proofs
