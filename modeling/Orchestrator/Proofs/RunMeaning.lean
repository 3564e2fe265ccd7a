import Orchestrator.Proofs.Meaning
import Orchestrator.Proofs.RunVerdict

/-!
# `Orchestrator.Proofs.RunMeaning`: a run of the engine computes its workflow

`network` is the workflow of a run as a network, and `Computed` says that a report is what the
network computes: how each task ends and after how many attempts, the outputs, and the output of the
workflow. When no task fails fast and the references are good (`Determined`), every run whose
attempts follow one behaviour ends in such a report (`runs_compute`), in whatever order its tasks
take turns. Nothing is asked of the templates beyond that: where a field is missing, the task fails
before its first attempt.

`OnMeaning` is the invariant. It says where each goroutine stands (`Underway`) and that the output
of a succeeded span is the value of its task. The step that needs it is the first one of a
goroutine: its snapshot holds the values of all transitive dependencies, so it resolves what the
network gathers (`gather_eq`).
-/

set_option autoImplicit false

namespace Orchestrator.Proofs

open Orchestrator.Lib Orchestrator.Engine Orchestrator.Engine.Env

variable {B : Type} {env : Env B} {behave : Behaviour}

/-! ### The network -/

/-- The inputs of a task, resolved from the values of other tasks. There are none if a reference
does not resolve, and then the task fails without an attempt of its skill. -/
def gatherInputs (env : Env B) (id : String) (v : String → Option Json) : Option Json :=
  (env.wf.taskMap.get? id).bind fun t =>
    (resolve env.lib (.obj (buildScope env.inputs (resultsOf env.wf.ids v)).entries)
      (.obj t.inputs.entries)).toOption

/-- The workflow as a network. Its nodes are the tasks, and what a node computes is the output of
the first attempt that succeeds on its inputs. -/
def network (env : Env B) (behave : Behaviour) : Network String Json Json where
  nodes := env.wf.ids
  deps := env.wf.deps
  limit id := ((env.wf.taskMap.get? id).map fun t =>
    (t.effectiveRetry env.wf.defaultRetry).max + 1).getD 0
  gather := gatherInputs env
  behave := behave

/-- The output of the workflow, from the values of its tasks. There is none if a task has failed or
the template of the output does not resolve. -/
def meantOutput (env : Env B) (behave : Behaviour) : Json :=
  if (network env behave).verdict.fate = .succeeded ∧ env.wf.output ≠ "" then
    (resolve env.lib (.obj (buildScope env.inputs
      (resultsOf env.wf.ids (network env behave).value)).entries)
      (.str env.wf.output)).toOption.getD .null
  else .null

/-- What the report says is what the network computes: its verdict on every task and on the run, the
outputs of the tasks that succeeded, and the output of the workflow. Times, texts of errors and
usage are not part of it. -/
structure Computed (env : Env B) (behave : Behaviour) (rep : Report) : Prop where
  verdict : reportVerdict rep = (network env behave).verdict
  outputs : ∀ sp ∈ rep.tasks, sp.status = .succeeded →
    (network env behave).value sp.id = some sp.output
  output : rep.output = meantOutput env behave

/-- No task fails fast, the references are good, and no number of attempts overflows. -/
structure Determined (env : Env B) : Prop where
  continues : ∀ t ∈ env.wf.tasks, t.effectiveOnError env.wf.defaultOnError ≠ "fail_fast"
  retries : ∀ t ∈ env.wf.tasks, 0 ≤ (t.effectiveRetry env.wf.defaultRetry).max ∧
    (t.effectiveRetry env.wf.defaultRetry).max < 2 ^ 63 - 1
  references : ReferencesOk env.wf
  input_free : "input" ∉ env.wf.ids

/-- A step that follows the behaviour: a result of `Execute` is the one that the behaviour has for
the task, its inputs and the attempt. Nothing is cancelled from the outside. -/
def Behaves (env : Env B) (behave : Behaviour) (s : State B) : Action → Prop
  | .task i (.ret res err) => ∀ g x, s.gos[i]? = some g → resolvedInputs env g = .ok x →
    behave g.task.id x g.span.attempts
      = if (AttemptResult.mk res err).ok then some (env.decodeOutput res.outputJSON) else none
  | .cancel => False
  | _ => True

/-- What the attempts come to when the inputs are those of the network. -/
def meantOutcomes (env : Env B) (behave : Behaviour) : Outcomes := fun id k =>
  ((network env behave).gather id (network env behave).value).bind fun x => behave id x k

section

variable (hacc : Accepted env.wf)
include hacc

/-- The dependencies of a task are tasks. -/
theorem network_deps : ∀ t ∈ (network env behave).nodes, ∀ d ∈ (network env behave).deps t,
    d ∈ (network env behave).nodes := fun _ ht _ hd => hacc.deps_ids ht hd

/-- The dependencies have no cycle. -/
theorem network_acyclic : ¬ HasCycle (network env behave).deps :=
  LongestChain.acyclic_of_acc (fun _ _ hd => mem_ids_of_dep hd) hacc.acyclic

/-- A task has one attempt more than its retry limit. -/
theorem network_limit {t : Task} (ht : t ∈ env.wf.tasks) :
    (network env behave).limit t.id = (t.effectiveRetry env.wf.defaultRetry).max + 1 := by
  show ((env.wf.taskMap.get? t.id).map _).getD 0 = _
  rw [hacc.taskMap_iff.mpr ⟨ht, rfl⟩]
  rfl

/-- A transitive dependency of a task is a task. -/
theorem transGen_mem {d id : String} (h : Relation.TransGen (fun d t => d ∈ env.wf.deps t) d id)
    (hid : id ∈ env.wf.ids) : d ∈ env.wf.ids := by
  induction h with
  | single hd => exact hacc.deps_ids hid hd
  | tail _ hd ih => exact ih (hacc.deps_ids hid hd)

/-- What a task gathers depends on the values of its dependencies alone. -/
theorem network_local (hdet : Determined env) : (network env behave).Local := by
  intro id v v' h
  show gatherInputs env id v = gatherInputs env id v'
  unfold gatherInputs
  cases ht : env.wf.taskMap.get? id with
  | none => rfl
  | some t =>
      obtain ⟨hmem, rfl⟩ := hacc.taskMap_iff.mp ht
      have hseen : SeenAlike env.wf.deps t.id (resultsOf env.wf.ids v)
        (resultsOf env.wf.ids v') := by
        refine ⟨get?_resultsOf_of_not_mem hdet.input_free,
          get?_resultsOf_of_not_mem hdet.input_free,
          fun d hd => ?_⟩
        rw [get?_resultsOf, get?_resultsOf, h d hd]
      simp only [Option.bind_some, hseen.resolve_eq env.lib (hdet.references.inputs t hmem)]

end

/-! ### One task -/

/-- The snapshot shows the goroutine what the network shows its task. -/
theorem gather_eq (hacc : Accepted env.wf) (hdet : Determined env) {g : Goroutine}
    (hmem : g.task ∈ env.wf.tasks) (hseen : SeenAlike env.wf.deps g.task.id g.snapshot
      (resultsOf env.wf.ids (network env behave).value)) :
    (network env behave).gather g.task.id (network env behave).value
      = (resolvedInputs env g).toOption := by
  show gatherInputs env g.task.id _ = _
  rw [gatherInputs, hacc.taskMap_iff.mpr ⟨hmem, rfl⟩, Option.bind_some, resolvedInputs,
    hseen.resolve_eq env.lib (hdet.references.inputs g.task hmem)]

/-- Where a goroutine stands. Its inputs resolve, or it has failed without an attempt. -/
inductive Underway (env : Env B) (behave : Behaviour) (g : Goroutine) : Prop
  | attempting (h : Attempting env (meantOutcomes env behave) g)
      (hres : g.pc ≠ .resolve → ∃ x, resolvedInputs env g = .ok x)
  | lost (hend : hasEnded g = true) (hst : g.span.status = .failed) (hatt : g.span.attempts = 1)
      (hres : ∃ e, resolvedInputs env g = .error e)

/-- What holds of a goroutine in a run that follows the behaviour. -/
structure GoMeant (env : Env B) (behave : Behaviour) (g : Goroutine) : Prop where
  underway : Underway env behave g
  value : g.span.status = .succeeded → (network env behave).value g.task.id = some g.span.output

/-- A step of a goroutine that has a succeeded span keeps it, or is the return of a successful
attempt. -/
theorem TaskStep.succeeds {s s' : State B} {i : Nat} {g : Goroutine} {a : TaskAction}
    (h : TaskStep env s i g a s') : ∃ g', s'.gos = s.gos.set i g' ∧ (g'.span.status = .succeeded →
      (g.span.status = .succeeded ∧ g'.span.output = g.span.output) ∨
      ∃ r : AttemptResult, a = .ret r.res r.err ∧ g.pc = .exec ∧ r.ok = true ∧
        g'.span.output = env.decodeOutput r.res.outputJSON) := by
  have hmerge : ∀ res, (env.mergeUsage g.span res).output = g.span.output := fun res => by
    unfold mergeUsage
    split <;> rfl
  cases h with
  | resolve hpc =>
      refine ⟨_, rfl, fun hst => ?_⟩
      rw [resolveInputs_span_status] at hst
      cases hst
  | cancelSlot hpc hc => exact ⟨_, rfl, fun hst => by cases hst⟩
  | cancelWait hpc hc => exact ⟨_, rfl, fun hst => by cases hst⟩
  -- The result of an attempt is retried, fails the task or makes it succeed; only the last sets an
  -- output.
  | ret res err hpc =>
      refine ⟨_, rfl, fun hst => ?_⟩
      rcases afterExecute_result env g s.clock ⟨res, err⟩ with ⟨-, -, he⟩ | ⟨-, -, he⟩ | ⟨hok, he⟩
      · rw [he] at hst ⊢
        exact Or.inl ⟨by simpa using hst, hmerge res⟩
      · rw [he] at hst ⊢
        exact Or.inl ⟨by simpa [finishSpan] using hst, hmerge res⟩
      · exact Or.inr ⟨⟨res, err⟩, rfl, hpc, hok, by rw [he]; rfl⟩
  | wake hpc =>
      refine ⟨_, rfl, fun hst => Or.inl ?_⟩
      rcases enterAttempt_cases env g s.clock (g.span.attempts + 1) with ⟨-, he⟩ | ⟨-, he⟩ <;>
        rw [he] at hst ⊢
      · exact ⟨hst, rfl⟩
      · exact ⟨hst, rfl⟩
  | _ => exact ⟨_, rfl, fun hst => Or.inl ⟨hst, rfl⟩⟩

/-- The first step of a goroutine resolves its inputs. -/
theorem TaskStep.of_resolve {s s' : State B} {i : Nat} {g : Goroutine} {a : TaskAction}
    (h : TaskStep env s i g a s') (hpc : g.pc = .resolve) :
    s'.gos = s.gos.set i (env.resolveInputs g s.clock) := by
  cases h with
  | resolve => rfl
  | cancelWait h => rcases h with h | h <;> rw [hpc] at h <;> cases h
  | takeSlot h | cancelSlot h | grantGlobal _ h | denyGlobal _ h | grantProvider _ _ h
  | denyProvider _ _ h | timerGlobal h | timerProvider h | call h | ret _ _ h | wake h | send h =>
      rw [hpc] at h
      cases h

/-- The one step of a goroutine that has ended is its send. -/
theorem TaskStep.of_ended {s s' : State B} {i : Nat} {g : Goroutine} {a : TaskAction}
    (h : TaskStep env s i g a s') (hend : hasEnded g = true) :
    s'.gos = s.gos.set i { g with pc := .done } := by
  cases h with
  | send => rfl
  | cancelWait h =>
      rcases hasEnded_iff.mp hend with hpc | hpc <;> rw [hpc] at h <;> rcases h with h | h
        <;> cases h
  | resolve h | takeSlot h | cancelSlot h | grantGlobal _ h | denyGlobal _ h | grantProvider _ _ h
  | denyProvider _ _ h | timerGlobal h | timerProvider h | call h | ret _ _ h | wake h =>
      rcases hasEnded_iff.mp hend with hpc | hpc <;> rw [hpc] at h <;> cases h

namespace GoMeant

variable {g : Goroutine}

/-- What the step of a goroutine asks of the run: its task is one of the workflow, it was ready, and
its snapshot agrees with the values of the network. -/
structure Context (env : Env B) (behave : Behaviour) (g : Goroutine) : Prop where
  mem : g.task ∈ env.wf.tasks
  seen : SeenAlike env.wf.deps g.task.id g.snapshot
    (resultsOf env.wf.ids (network env behave).value)
  ready : (network env behave).ready (network env behave).value g.task.id = true

/-- A successful attempt has the value of its task. -/
theorem value_of_return (hacc : Accepted env.wf) (hdet : Determined env)
    (hc : Context env behave g) (h : Attempting env (meantOutcomes env behave) g)
    (hpc : g.pc = .exec) {x v : Json} (hx : resolvedInputs env g = .ok x)
    (hv : behave g.task.id x g.span.attempts = some v) :
    (network env behave).value g.task.id = some v := by
  obtain ⟨-, htried, hle⟩ := h.of_trying (Or.inr hpc)
  have hgather := gather_eq hacc hdet hc.mem hc.seen
  rw [hx] at hgather
  refine Network.value_of_tried (network_local hacc hdet) (network_deps hacc) (network_acyclic hacc)
    (List.mem_map_of_mem hc.mem) hc.ready hgather ?_
    (hle.trans_eq (network_limit hacc hc.mem).symm) hv
  have hok : attemptOk (meantOutcomes env behave) g.task.id
      = fun j => ((network env behave).behave g.task.id x j).isSome := by
    funext j
    rw [attemptOk, meantOutcomes, hgather]
    rfl
  rwa [hok] at htried

/-- A step of a task goroutine. -/
theorem taskStep (hacc : Accepted env.wf) (hdet : Determined env) {s s' : State B} {i : Nat}
    {a : TaskAction} (h : GoMeant env behave g) (hc : Context env behave g)
    (ht : TaskStep env s i g a s') (hg : s.gos[i]? = some g)
    (hb : Behaves env behave s (.task i a)) (hcalm : s.cancelled = false) :
    ∃ g', s'.gos = s.gos.set i g' ∧ GoMeant env behave g' := by
  obtain ⟨g', hgos, hsucc⟩ := ht.succeeds
  obtain ⟨g₁, hgs⟩ := ht.goStep
  obtain rfl := eq_of_set_eq hg (hgos.symm.trans hgs.gos)
  -- The inputs of the goroutine are what they were.
  have hsame : resolvedInputs env g' = resolvedInputs env g := by
    rw [resolvedInputs, resolvedInputs, hgs.snapshot, hgs.task]
  refine ⟨g', hgos, ?_, fun hst => ?_⟩
  · cases h.underway with
    | attempting hatt hres =>
        by_cases hx : ∃ x, resolvedInputs env g = .ok x
        · have hfollow : Follows env (meantOutcomes env behave) s (.task i a) := by
            obtain ⟨x, hx⟩ := hx
            have hgather := gather_eq hacc hdet hc.mem hc.seen
            rw [hx] at hgather
            cases a with
            | ret res err =>
                intro y hy
                obtain rfl : g = y := Option.some.inj (hg.symm.trans hy)
                rw [meantOutcomes, hgather]
                exact hb g x hg hx
            | _ => trivial
          obtain ⟨g₂, hgos₂, hatt'⟩ := hatt.taskStep ht hg hfollow hcalm hx (hdet.retries _ hc.mem)
          obtain rfl := eq_of_set_eq hg (hgos.symm.trans hgos₂)
          exact .attempting hatt' fun _ => hsame ▸ hx
        · have hpc : g.pc = .resolve := by
            by_contra hne
            exact hx (hres hne)
          obtain rfl := eq_of_set_eq hg (hgos.symm.trans (ht.of_resolve hpc))
          rcases resolveInputs_cases env g s.clock with ⟨e, he, hg'⟩ | ⟨x, hx', -⟩
          · exact .lost (by rw [hg']; rfl) (by rw [hg']) (by rw [hg']) (hsame ▸ ⟨e, he⟩)
          · exact absurd ⟨x, hx'⟩ hx
    | lost hend hst hatt hres =>
        obtain rfl := eq_of_set_eq hg (hgos.symm.trans (ht.of_ended hend))
        exact .lost rfl hst hatt hres
  · rw [hgs.task]
    rcases hsucc hst with ⟨hold, hout⟩ | ⟨r, rfl, hpc, hok, hout⟩
    · rw [hout]
      exact h.value hold
    · cases h.underway with
      | attempting hatt hres =>
          obtain ⟨x, hx⟩ := hres (by simp [hpc])
          refine value_of_return hacc hdet hc hatt hpc hx ?_
          rw [hb g x hg hx, show (AttemptResult.mk r.res r.err).ok = true from hok,
            if_pos rfl, hout]
      | lost hend =>
          rcases hasEnded_iff.mp hend with hpc' | hpc' <;> rw [hpc] at hpc' <;> cases hpc'

end GoMeant

/-! ### The run -/

/-- What holds in a run that follows the behaviour. Nothing is cancelled and nothing is drained, so
every span comes from a goroutine or was skipped behind a failure. -/
structure OnMeaning (env : Env B) (behave : Behaviour) (s : State B) : Prop where
  calm : s.cancelled = false
  running : s.main.runFailed = false
  drained : s.main.drained = []
  gos : ∀ g ∈ s.gos, GoMeant env behave g
  /-- The span of a task that was not dispatched is a placeholder. -/
  origin : ∀ id sp, s.main.spans.get? id = some sp →
    id ∈ goIds s.gos ∨ sp = { id := id, status := .skipped }

/-- The recorded span of a dispatched task is that of its goroutine. -/
theorem Flight.span_eq {gos : List Goroutine} {doneCh : List TaskSpan}
    {span : String → Option TaskSpan} {inFlight : Int} (h : Flight gos doneCh span inFlight)
    {g : Goroutine} (hg : g ∈ gos) {sp : TaskSpan} (hsp : span g.task.id = some sp) :
    g.span = sp := by
  have hdone : g.pc = .done := by
    by_contra hne
    rw [h.running g hg hne] at hsp
    cases hsp
  rcases h.sent g hg hdone with hch | hrec
  · have hnone := (h.chan g.span hch).1
    rw [h.span_id g hg, hsp] at hnone
    cases hnone
  · rw [hrec] at hsp
    exact Option.some.inj hsp

namespace OnMeaning

/-- The results are values. -/
theorem result_value {s : State B} (h : OnMeaning env behave s) (hinv : RunInv env s) {id : String}
    {v : Json} (hv : s.main.results.get? id = some v) : (network env behave).value id = some v := by
  obtain ⟨sp, hsp, hst, rfl⟩ := hinv.results id v hv
  rcases h.origin id sp hsp with hid | rfl
  · obtain ⟨g, hg, rfl⟩ := List.mem_map.mp hid
    obtain rfl := hinv.flight.span_eq hg hsp
    exact (h.gos g hg).value hst
  · cases hst

/-- The snapshot of a task holds the values of its transitive dependencies. -/
theorem context (hacc : Accepted env.wf) (hdet : Determined env) {s : State B}
    (h : OnMeaning env behave s) (hinv : RunInv env s) {g : Goroutine} (hg : g ∈ s.gos) :
    GoMeant.Context env behave g := by
  have hmem := hinv.task_mem g hg
  have hid : g.task.id ∈ env.wf.ids := List.mem_map_of_mem hmem
  have hsnap := hinv.snapshot g hg
  have hvalue : ∀ d, Relation.TransGen (fun d t => d ∈ env.wf.deps t) d g.task.id →
      ∃ v, g.snapshot.get? d = some v ∧ (network env behave).value d = some v := by
    intro d hd
    obtain ⟨v, hv⟩ := hsnap.deps d hd
    exact ⟨v, hv, h.result_value hinv (hsnap.sub d v hv)⟩
  refine ⟨hmem, ⟨?_, get?_resultsOf_of_not_mem hdet.input_free, fun d hd => ?_⟩, ?_⟩
  · -- The snapshot holds results of tasks, and none of them is named `input`.
    by_contra hne
    obtain ⟨v, hv⟩ := Option.ne_none_iff_exists'.mp hne
    obtain ⟨sp, hsp, -⟩ := hinv.results _ v (hsnap.sub _ v hv)
    exact hdet.input_free (hinv.spans.mem _ sp hsp)
  · obtain ⟨v, hv, hval⟩ := hvalue d hd
    rw [hv, get?_resultsOf, if_pos (transGen_mem hacc hd hid), hval]
  · refine List.all_eq_true.mpr fun d hd => ?_
    obtain ⟨v, -, hval⟩ := hvalue d (.single hd)
    rw [hval]
    rfl

/-- A step of the main goroutine. -/
theorem mainStepped (hacc : Accepted env.wf) (hdet : Determined env) {s s' : State B}
    (h : OnMeaning env behave s) (hinv : RunInv env s) (hplaced' : Placed s')
    (hs : MainStepped env s s') : OnMeaning env behave s' := by
  -- The run is never marked as failed, so the loop is left through its regular end.
  have hnodrain : ∀ {P : Prop}, s.main.pc = .drain → P := fun hpc => by
    have hphase := hinv.phase
    rw [Phase, hpc, h.running] at hphase
    cases hphase
  have hcalm : (s.cancelled || false) = false := by rw [h.calm, Bool.or_false]
  cases hs with
  | dispatch tid rest t hpc hr ht =>
      refine ⟨h.calm, h.running, h.drained, fun g hg => ?_, hplaced'⟩
      rcases List.mem_append.mp hg with hg | hg
      · exact h.gos g hg
      · obtain rfl := List.mem_singleton.mp hg
        exact ⟨.attempting (.fresh rfl) fun hne => absurd rfl hne, fun hst => by cases hst⟩
  | receive span rest r hpc hch hr =>
      cases hr with
      | succeeded hst => exact ⟨hcalm, h.running, h.drained, h.gos, hplaced'⟩
      -- Every task continues on an error, so no failure cancels the run.
      | failFast t hst ht hpol =>
          exact absurd hpol (hdet.continues t (hacc.taskMap_iff.mp ht).1)
      | «continue» t hst ht hpol => exact ⟨hcalm, h.running, h.drained, h.gos, hplaced'⟩
  | drain span rest hpc hf hch => exact hnodrain hpc
  | drained hpc hf => exact hnodrain hpc
  | _ => exact ⟨h.calm, h.running, h.drained, h.gos, h.origin⟩

end OnMeaning

/-- `OnMeaning` holds in every run that follows the behaviour. -/
theorem reachable_onMeaning (hacc : Accepted env.wf) (hdet : Determined env) {s : State B}
    (hs : env.system.ReachableBy (Behaves env behave) s) : OnMeaning env behave s := by
  have hinit : OnMeaning env behave env.initial :=
    ⟨rfl, rfl, rfl, fun g hg => (by cases hg), fun id sp hsp => by simp [Env.initial] at hsp⟩
  refine hs.holds hinit fun s a s' hs h hb ha => ?_
  have hinv := reachable_runInv hacc hs
  have hplaced' := reachable_placed hacc (hs.step ha)
  rcases step_inv ha with ⟨-, hm⟩ | ⟨i, b, g, rfl, hg, ht⟩ | ⟨rfl, -⟩ | ⟨d, -, rfl⟩
  · exact h.mainStepped hacc hdet hinv hplaced' hm
  · have hmem := List.mem_of_getElem? hg
    obtain ⟨g₁, hgs⟩ := ht.goStep
    obtain ⟨g', hgos, hg'⟩ :=
      (h.gos g hmem).taskStep hacc hdet (h.context hacc hdet hinv hmem) ht hg
      hb h.calm
    refine ⟨hgs.cancelled.trans h.calm, hgs.main ▸ h.running, hgs.main ▸ h.drained, ?_, hplaced'⟩
    rw [hgos]
    exact forall_mem_set h.gos hg'
  · -- A cancel of the run is ruled out by the hypothesis on the steps.
    exact hb.elim
  · exact ⟨h.calm, h.running, h.drained, h.gos, h.origin⟩

/-! ### The report -/

/-- At the end of a run, the spans are settled as the plan of the network says. -/
theorem OnMeaning.spansSettled (hacc : Accepted env.wf) (hdet : Determined env) {s : State B}
    (h : OnMeaning env behave s) (hinv : RunInv env s) (hzero : ¬ 0 < s.main.inFlight)
    (htotal : ∀ id ∈ env.wf.ids, s.main.spans.get? id ≠ none) :
    SpansSettled spanEntry s.main.spans (network env behave).plan (goIds s.gos) := by
  refine ⟨⟨hacc.ids_nodup, hinv.flight.ids_nodup⟩, hinv.spans.key, hinv.spans.mem, htotal,
    fun id hid => ?_, fun id sp hsp => (h.origin id sp hsp).imp_right fun hph => ?_⟩
  · obtain ⟨g, hg, rfl⟩ := List.mem_map.mp hid
    obtain ⟨hdone, hrec⟩ := hinv.flight.all_recorded hzero g hg
    have hc := h.context hacc hdet hinv hg
    have hgather := gather_eq hacc hdet hc.mem hc.seen
    refine ⟨g.span, hrec, ?_⟩
    simp only [spanEntry, fateOf_succeeded]
    cases (h.gos g hg).underway with
    | attempting hatt hres =>
        obtain ⟨hst, hsettled⟩ := hatt.of_ended (hasEnded_iff.mpr (Or.inr hdone))
        obtain ⟨x, hx⟩ := hres (by simp [hdone])
        rw [hx] at hgather
        refine ⟨fun hskip => hst (fateOf_skipped.mp hskip), ?_⟩
        rw [(Network.plan_of_gather hgather).1, network_limit hacc hc.mem]
        exact hsettled
    | lost hend hst hatt hres =>
        -- One failed attempt is reported, and none was made.
        obtain ⟨e, he⟩ := hres
        rw [he] at hgather
        obtain ⟨hlimit, hok⟩ := Network.plan_of_lost hgather
        refine ⟨fun hskip => ?_, ?_⟩
        · rw [hst] at hskip
          cases hskip
        · rw [hlimit, hok, hatt, hst]
          exact Tried.first.lose le_rfl (lt_irrefl _) rfl
  · rw [hph]
    rfl

/-- At the end of a run that drained nothing, the totals count the retries of the dispatched
tasks. -/
theorem totals_retries_undrained (hacc : Accepted env.wf) {s : State B}
    (hs : env.system.Reachable s)
    (hdrained : s.main.drained = []) (hzero : ¬ 0 < s.main.inFlight) :
    s.main.totals.retries
      = ((goIds s.gos).map fun id => (entryAt spanEntry s.main.spans id).attempts - 1).sum := by
  have hinv := reachable_runInv hacc hs
  have hall := (reachable_history hacc hs).all hinv hzero
  rw [hdrained, List.append_nil] at hall
  rw [(reachable_totalsOk hs).retries, (hall.map _).sum_eq, goIds, List.map_map, List.map_map]
  refine congrArg List.sum (List.map_congr_left fun g hg => ?_)
  show g.span.attempts - 1 = (entryAt spanEntry s.main.spans g.task.id).attempts - 1
  rw [entryAt_of_span (hinv.flight.all_recorded hzero g hg).2]
  rfl

section

variable (hacc : Accepted env.wf) (hdet : Determined env)
include hacc hdet

/-- The network computes a value for every task that its plan lets win. -/
theorem value_iff_wins {id : String} (hid : id ∈ env.wf.ids) :
    ((network env behave).value id).isSome = true ↔
      (network env behave).plan.Clear id ∧ (network env behave).plan.Wins id := by
  rw [Network.value_isSome_iff (network_local hacc hdet) (network_deps hacc)
    (network_acyclic hacc) hid,
    Network.ready_iff_clear (network_local hacc hdet) (network_deps hacc)
    (network_acyclic hacc) hid]

variable {s : State B} (hs : env.system.ReachableBy (Behaves env behave) s) {rep : Report}
  (hrep : s.report? = some rep)
include hs hrep

/-- The report is the one that the plan of the network asks for. -/
theorem report_right_meant : (reportVerdict rep).Right (network env behave).plan := by
  have hinv := reachable_runInv hacc hs.reachable
  have h := reachable_onMeaning hacc hdet hs
  obtain ⟨hzero, htotal, now, rfl⟩ := hinv.returned hrep
  have hphase := hinv.phase
  rw [Phase, report?_eq_some.mp hrep] at hphase
  have hspans := h.spansSettled hacc hdet hinv hzero htotal
  -- The books of the scheduler and the spans of the tasks together give the one verdict that the
  -- plan allows.
  refine hspans.right (hinv.books h.running).1 rfl hphase.1 (fun t ht d hd => hacc.deps_ids ht hd)
    hacc.acyclic (fun id => ?_) ?_ (totals_retries_undrained hacc hs.reachable h.drained hzero) ?_
  · simp only [isGood_ledger, spanEntry, fateOf_succeeded]
  · show (env.wf.tasks.filterMap fun t => s.main.spans.get? t.id).map spanEntry
      = ((env.wf.tasks.map (·.id)).filterMap s.main.spans.get?).map spanEntry
    rw [List.filterMap_map]
    rfl
  · have hfailed : HasFailed s.main ↔
        ∃ id sp, s.main.spans.get? id = some sp ∧ (spanEntry sp).fate = .failed := by
      simp only [HasFailed, h.running, Bool.false_eq_true, false_or, spanEntry, fateOf_failed]
    show _ ∧ fateOf (env.report now s.main).status = _ ∨ _ ∧
      fateOf (env.report now s.main).status = _
    rw [← hfailed]
    rcases @report_status _ env now s.main with ⟨hst, hno⟩ | ⟨hst, hyes⟩
    · exact Or.inr ⟨hno, by rw [hst]; rfl⟩
    · exact Or.inl ⟨hyes, by rw [hst]; rfl⟩

/-- At the end of a run the results are the values of the network. -/
theorem results_meant (id : String) : s.main.results.get? id
    = (resultsOf env.wf.ids (network env behave).value).get? id := by
  have hinv := reachable_runInv hacc hs.reachable
  have h := reachable_onMeaning hacc hdet hs
  have hright := report_right_meant hacc hdet hs hrep
  obtain ⟨-, htotal, now, rfl⟩ := hinv.returned hrep
  rw [get?_resultsOf]
  cases hres : s.main.results.get? id with
  | some v =>
      obtain ⟨sp, hsp, -⟩ := hinv.results id v hres
      rw [if_pos (hinv.spans.mem id sp hsp), h.result_value hinv hres]
  | none =>
      by_cases hid : id ∈ env.wf.ids
      · rw [if_pos hid]
        by_contra hne
        have hsome := Option.isSome_iff_ne_none.mpr (Ne.symm hne)
        -- The plan lets the task win, so its span is a succeeded one, and has left a result.
        obtain ⟨sp, hsp⟩ := Option.ne_none_iff_exists'.mp (htotal id hid)
        obtain ⟨t, ht, rfl⟩ := List.mem_map.mp hid
        have hmem : spanEntry sp ∈ (reportVerdict (env.report now s.main)).entries :=
          List.mem_map_of_mem (List.mem_filterMap.mpr ⟨t, ht, hsp⟩)
        have hnode : (spanEntry sp).node = t.id := hinv.spans.key _ _ hsp
        have hst := (hright.entries _ hmem).succeeded.mpr
          (hnode ▸ (value_iff_wins hacc hdet hid).mp hsome)
        rw [(hinv.books h.running).2 _ sp hsp (fateOf_succeeded.mp hst)] at hres
        cases hres
      · rw [if_neg hid]

/-- The report is what the network computes. -/
theorem report_computed : Computed env behave rep := by
  have hinv := reachable_runInv hacc hs.reachable
  have h := reachable_onMeaning hacc hdet hs
  have hlimit : ∀ id ∈ env.wf.ids, 1 ≤ (network env behave).limit id := by
    intro id hid
    obtain ⟨t, ht, rfl⟩ := List.mem_map.mp hid
    rw [network_limit hacc ht]
    have := (hdet.retries t ht).1
    omega
  -- The report's verdict and the computed one are both right, and only one verdict is.
  have hverdict := (report_right_meant hacc hdet hs hrep).unique (Network.verdict_right
    (network_local hacc hdet) (network_deps hacc) (network_acyclic hacc) hlimit)
  have hresults := results_meant hacc hdet hs hrep
  obtain ⟨-, -, now, rfl⟩ := hinv.returned hrep
  refine ⟨hverdict, fun sp hsp hst => ?_, ?_⟩
  · obtain ⟨t, ht, hget⟩ := List.mem_filterMap.mp hsp
    have hv := (hinv.books h.running).2 _ sp hget hst
    rw [hinv.spans.key _ _ hget]
    exact h.result_value hinv hv
  · have hstatus : (env.report now s.main).status = .succeeded ↔
        (network env behave).verdict.fate = .succeeded := by
      rw [← hverdict]
      exact fateOf_succeeded.symm
    have hresolve := @resolve_output_eq env.lib env.inputs _ _ _ _ hresults hdet.references.output
    show (if (env.report now s.main).status = .succeeded ∧ env.wf.output ≠ "" then _
      else Json.null) = _
    rw [meantOutput, hresolve]
    -- The output is resolved for a run that succeeded and has a template.
    by_cases hgood : (network env behave).verdict.fate = .succeeded ∧ env.wf.output ≠ ""
    · rw [if_pos hgood, if_pos ⟨hstatus.mpr hgood.1, hgood.2⟩]
      cases resolve env.lib (.obj (buildScope env.inputs (resultsOf env.wf.ids
        (network env behave).value)).entries) (.str env.wf.output) <;> rfl
    · rw [if_neg hgood, if_neg fun h => hgood ⟨hstatus.mp h.1, h.2⟩]

end

/-- A run of a determined workflow computes what its dataflow network computes, whatever the order
of its goroutines: every report has the verdict, the outputs and the output of the network, and a
fair run returns such a report.

The network is defined without any scheduler (`Orchestrator.Lib.Dataflow`). That a state is on the
way to its result is `OnMeaning`, which every step keeps that follows the behaviour, and
`report_computed` draws the conclusion at the end. -/
theorem runs_compute (env : Env B) (iter : MapOrder) (behave : Behaviour)
    (hval : env.wf.validate iter = .ok ()) (hpar : 1 ≤ env.wf.maxParallel) (hdet : Determined env) :
    (∀ s rep, env.system.ReachableBy (Behaves env behave) s → s.report? = some rep →
      Computed env behave rep) ∧
    ∀ e : env.system.Execution, Fair e → (∀ n, Behaves env behave (e.state n) (e.label n)) →
      ∃ n rep, (e.state n).report? = some rep ∧ Computed env behave rep := by
  have hacc := accepted_of_validate hval
  refine ⟨fun s rep hs hrep => report_computed hacc hdet hs hrep, fun e hfair hb => ?_⟩
  obtain ⟨n, hn⟩ := fair_returns hacc hpar e hfair
  obtain ⟨rep, hrep⟩ := Option.isSome_iff_exists.mp hn
  exact ⟨n, rep, hrep, report_computed hacc hdet (e.reachableBy hb n) hrep⟩

/-! ### A sample run -/

/-- `b` uses the output of `a`. `c` asks it for a field that it does not have, so `d` is skipped. -/
def fieldMissing : Workflow :=
  { plainWorkflow [
      { plainTask "a" [] "" with
          retry := some { max := 1, backoff := "none", base := 0, jitter := false } },
      { plainTask "b" ["a"] "" with inputs := Dict.empty.set "x" (.str "$\x7ba.output\x7d") },
      { plainTask "c" ["a"] "" with inputs := Dict.empty.set "x" (.str "$\x7ba.output.v\x7d") },
      plainTask "d" ["c"] ""] with
    defaultOnError := "continue" }

/-- The output of a task is the text that it returns. -/
def textEnv (wf : Workflow) : Env Unit :=
  { plainEnv wf with lib := { plainLib with unmarshal := fun _ => none } }

/-- Check that a step follows the behaviour of the sample. -/
def checkBehaves (env : Env Unit) (s : State Unit) : Action → Bool
  | .task i (.ret res err) => (s.gos[i]?).all fun g =>
    match resolvedInputs env g with
    | .ok x => decide (sampleAnswer g.task.id x g.span.attempts
        = if (AttemptResult.mk res err).ok then some res.outputJSON else none) &&
          decide ((AttemptResult.mk res err).ok = true → res.outputJSON ≠ "")
    | .error _ => true
  | .cancel => false
  | _ => true

/-- A step that passes the check follows the behaviour. -/
theorem behaves_of_check {env : Env Unit} (hlib : ∀ text, env.lib.unmarshal text = none)
    (s : State Unit) (a : Action) (h : checkBehaves env s a = true) :
    Behaves env sampleBehaviour s a := by
  cases a with
  | task i b =>
      cases b with
      | ret res err =>
          intro g x hg hx
          rw [checkBehaves, hg, Option.all_some, hx, Bool.and_eq_true, decide_eq_true_iff,
            decide_eq_true_iff] at h
          rw [sampleBehaviour, h.1]
          -- No text decodes in this environment, so a result is the null of an empty output or a
          -- failure.
          by_cases hok : (AttemptResult.mk res err).ok = true
          · rw [if_pos hok, if_pos hok, decodeOutput, if_pos (h.2 hok), hlib]
            rfl
          · rw [if_neg hok, if_neg hok]
            rfl
      | _ => exact trivial
  | cancel => cases h
  | _ => exact trivial

/-- A run of the sample. The third task fails without a call of `Execute`. -/
def fieldMissingRun : List Action :=
  [.main, .main, .main, .task 0 .resolve] ++ attempt 0 { err := some ⟨"E", "m", true⟩ } ++
    [.task 0 .wake] ++ attempt 0 { outputJSON := "o" } ++ [.task 0 .send] ++
    [.main, .main, .main, .main, .main] ++ [.task 2 .resolve, .task 2 .send] ++
    wholeTask 1 { outputJSON := "op" } ++ [.main, .main, .main, .main, .main, .main]

/-- The sample workflow is determined. -/
theorem fieldMissing_determined : Determined (textEnv fieldMissing) where
  continues := by decide
  retries := by decide
  references := by
    -- The only references are those of `b` and `c`, and both lead to `a`, on which they depend.
    have htasks : fieldMissing.tasks.map (fun t => (t.id, paths trimSpace (.obj t.inputs.entries)))
        = [("a", []), ("b", ["a.output".toList]), ("c", ["a.output.v".toList]), ("d", [])] := by
      rfl
    have hb : splitPath "a.output".toList = ["a", "output"] := by rfl
    have hc : splitPath "a.output.v".toList = ["a", "output", "v"] := by rfl
    refine ⟨fun t ht path hpath => ?_, fun path hpath => ?_⟩
    · have hmem : (t.id, paths trimSpace (.obj t.inputs.entries)) ∈ _ :=
        htasks ▸ List.mem_map_of_mem ht
      simp only [List.mem_cons, List.not_mem_nil, or_false, Prod.mk.injEq] at hmem
      rcases hmem with ⟨-, hl⟩ | ⟨hid, hl⟩ | ⟨hid, hl⟩ | ⟨-, hl⟩ <;> rw [hl] at hpath
      · cases hpath
      · obtain rfl := List.mem_singleton.mp hpath
        exact Or.inr ⟨"a", [], hb, hid ▸ .single (by decide)⟩
      · obtain rfl := List.mem_singleton.mp hpath
        exact Or.inr ⟨"a", ["v"], hc, hid ▸ .single (by decide)⟩
      · cases hpath
    · rw [show stringPaths trimSpace (textEnv fieldMissing).wf.output = [] by rfl] at hpath
      cases hpath
  input_free := by decide

/-- The sample run reports what the network computes. -/
theorem runs_compute_fieldMissing : ∃ (e : (textEnv fieldMissing).system.Execution) (n : Nat)
    (rep : Report), Fair e ∧ (e.state n).report? = some rep ∧
      Computed (textEnv fieldMissing) sampleBehaviour rep := by
  have hrun : (((textEnv fieldMissing).system.guard (checkBehaves (textEnv fieldMissing))).run?
      fieldMissingRun).any (fun s =>
      s.report?.isSome && s.gos.all (fun g => g.pc = .done)) = true := by
    decide +kernel
  obtain ⟨s, hs, hend⟩ := (Option.any_eq_true _ _).mp hrun
  rw [Bool.and_eq_true, List.all_eq_true] at hend
  obtain ⟨e, hfair, hcheck⟩ := fair_of_run (fun _ => rfl) hs hend.1 fun g hg => by
    simpa using hend.2 g hg
  have hcompute := runs_compute (textEnv fieldMissing) .insertion sampleBehaviour (by rfl)
    (by decide) fieldMissing_determined
  obtain ⟨n, rep, hrep, hcomp⟩ :=
    hcompute.2 e hfair fun n => behaves_of_check (fun _ => rfl) _ _ (hcheck n)
  exact ⟨e, n, rep, hfair, hrep, hcomp⟩

end Orchestrator.Proofs
