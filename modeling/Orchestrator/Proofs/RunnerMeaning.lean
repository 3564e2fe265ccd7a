import Orchestrator.Proofs.EnginesAgree
import Orchestrator.Proofs.Meaning

/-!
# `Orchestrator.Proofs.RunnerMeaning`: a run of the runner computes its workflow

The counterpart of `Orchestrator.Proofs.RunMeaning`. In the runner a template that does not resolve
ends the whole run, so `Determined` asks that the templates of the tasks that get to start resolve.
Then every run whose handlers follow one behaviour ends in a report, and the report is what the
network computes (`runner_computes`).

`OnMeaning` adds to `OnPlan` what the coroutines hold: the inputs that the network gathers for their
tasks, and, once they have succeeded, the values. A step of a coroutine does one of three things to
these data (`DataStep`): it resolves the inputs, it succeeds, or it keeps them. Only the first looks
at the rest of the run, and there the scope shows the task what the network shows it
(`OnMeaning.context`).

A value of the network is defined by recursion over the dependencies, and a run computes it in the
order in which its tasks happen to finish. That both agree is an invariant of the steps and needs no
argument about orders.
-/

set_option autoImplicit false

namespace Orchestrator.Sdk.Runner

open Orchestrator.Lib Env
open Orchestrator.Engine (Status)
open Orchestrator.Proofs
    (Outcomes attemptOk fateOf fateOf_succeeded SpansSettled Behaviour resultsOf
  get?_resultsOf get?_resultsOf_of_not_mem SeenAlike SdkReferencesOk paths sampleAnswer
  sampleBehaviour)

variable {env : Env} {behave : Behaviour}

/-! ### The network -/

/-- The inputs of a task, resolved from the values of other tasks. In the runner a template that
does not resolve raises, so comparable runs have inputs for every task that starts. -/
def gatherInputs (env : Env) (id : String) (v : String → Option Json) : Option Json :=
  (env.wf.taskMap.get? id).bind fun t =>
    (resolveTemplate env.lib (.obj (templateScope env.inputs (resultsOf env.wf.ids v)).entries)
      (.obj t.inputs.entries)).toOption

/-- The workflow as a network, built from the definitions of the SDK. `network_eq` shows that it is
the one of the engine. -/
def network (env : Env) (behave : Behaviour) : Network String Json Json where
  nodes := env.wf.ids
  deps := env.wf.deps
  limit id := ((env.wf.taskMap.get? id).map fun t => (effectiveRetry env.wf t).max + 1).getD 0
  gather := gatherInputs env
  behave := behave

/-- The output of the workflow, from the values of its tasks. There is none if a task has failed or
the template of the output does not resolve. -/
def meantOutput (env : Env) (behave : Behaviour) : Json :=
  if (network env behave).verdict.fate = .succeeded ∧ env.wf.output.getD "" ≠ "" then
    (resolveTemplate env.lib (.obj (templateScope env.inputs
      (resultsOf env.wf.ids (network env behave).value)).entries)
        (.str (env.wf.output.getD ""))).toOption.getD .null
  else .null

/-- What the report says is what the network computes: its verdict on every task and on the run, the
outputs of the tasks that succeeded, and the output of the workflow. Times, texts of errors and
usage are not part of it. -/
structure Computed (env : Env) (behave : Behaviour) (rep : Report) : Prop where
  verdict : reportVerdict rep = (network env behave).verdict
  outputs : ∀ sp ∈ rep.tasks, sp.status = .succeeded →
    (network env behave).value sp.id = some sp.output
  output : rep.output = meantOutput env behave

/-- What the attempts come to when the inputs are those of the network. -/
def meantOutcomes (env : Env) (behave : Behaviour) : Outcomes := fun id k =>
  ((network env behave).gather id (network env behave).value).bind fun x => behave id x k

/-- The checks of `run` pass, no task fails fast or has a timeout, the references are good, the
inputs of every task that starts resolve, and every sleep has a length. -/
structure Determined (env : Env) (behave : Behaviour) : Prop where
  starts : ∀ now, ∃ buckets, env.prepare now = .ok buckets
  continues : ∀ t ∈ env.wf.tasks, effectiveOnError env.wf t ≠ "fail_fast"
  retries : ∀ t ∈ env.wf.tasks, 0 ≤ (effectiveRetry env.wf t).max
  untimed : ∀ t ∈ env.wf.tasks, effectiveTimeout env.wf t = none
  references : SdkReferencesOk env.wf
  input_free : "input" ∉ env.wf.ids
  resolves : ∀ id ∈ env.wf.ids, (network env behave).ready (network env behave).value id = true →
    ((network env behave).gather id (network env behave).value).isSome = true
  sleeps : ∀ t ∈ env.wf.tasks, SleepsFit env (meantOutcomes env behave) t

/-- A step of a coroutine that follows the behaviour. An attempt without a handler fails, and no
handler is lost. -/
def CoroBehaves (env : Env) (behave : Behaviour) (c : Coro) : CoroAction → Prop
  | .invoke => env.skills c.task.skill = none →
    behave c.task.id c.resolvedInputs c.span.attempts = none
  | .finish _ out => out.attempt = some (behave c.task.id c.resolvedInputs c.span.attempts)
  | .lose => False
  | _ => True

/-- A step that follows the behaviour: a handler does what the behaviour says of the task, its
inputs and the attempt, and nobody cancels the run. -/
def Behaves (env : Env) (behave : Behaviour) (s : State) : Action → Prop
  | .coro i a => ∀ c, s.coros[i]? = some c → CoroBehaves env behave c a
  | .cancel => False
  | _ => True

section

variable (hacc : Accepted env.wf)
include hacc

/-- The dependencies of a task are tasks. -/
theorem network_deps : ∀ t ∈ (network env behave).nodes, ∀ d ∈ (network env behave).deps t,
    d ∈ (network env behave).nodes := fun _ ht _ hd => hacc.deps_ids ht hd

/-- The dependencies have no cycle. -/
theorem network_acyclic : ¬ HasCycle (network env behave).deps := by
  have hsrc : ∀ t, ∀ d ∈ (network env behave).deps t, t ∈ env.wf.ids := by
    intro t d hd
    by_contra ht
    have hnot : ∀ t' ∈ env.wf.tasks, t'.id ≠ t := fun t' ht' h =>
      ht (List.mem_map.mpr ⟨t', ht', h⟩)
    have hd : d ∈ env.wf.deps t := hd
    rw [Workflow.deps, Workflow.graph, get?_foldl_set_of_not_mem (fun t : Task => t.id)
      (fun t => t.dependsOn) _ _ hnot] at hd
    cases hd
  exact LongestChain.acyclic_of_acc hsrc hacc.acyclic

/-- A task has one attempt more than its retry limit. -/
theorem network_limit {t : Task} (ht : t ∈ env.wf.tasks) :
    (network env behave).limit t.id = (effectiveRetry env.wf t).max + 1 := by
  show ((env.wf.taskMap.get? t.id).map _).getD 0 = _
  rw [hacc.taskMap_iff.mpr ⟨ht, rfl⟩]
  rfl

/-- A transitive dependency of a task is a task. -/
theorem transGen_mem {d id : String} (h : Relation.TransGen (fun d t => d ∈ env.wf.deps t) d id)
    (hid : id ∈ env.wf.ids) : d ∈ env.wf.ids := by
  induction h with
  | single hd => exact hacc.deps_ids hid hd
  | tail _ hd ih => exact ih (hacc.deps_ids hid hd)

variable (hdet : Determined env behave)
include hdet

/-- What a task gathers depends on the values of its dependencies alone. -/
theorem network_local : (network env behave).Local := by
  intro id v v' h
  show gatherInputs env id v = gatherInputs env id v'
  unfold gatherInputs
  cases ht : env.wf.taskMap.get? id with
  | none => rfl
  | some t =>
      obtain ⟨hmem, rfl⟩ := hacc.taskMap_iff.mp ht
      have hseen : SeenAlike env.wf.deps t.id (resultsOf env.wf.ids v)
        (resultsOf env.wf.ids v') := by
        refine ⟨get?_resultsOf_of_not_mem hdet.input_free,
          get?_resultsOf_of_not_mem hdet.input_free,
          fun d hd => ?_⟩
        rw [get?_resultsOf, get?_resultsOf, h d hd]
      simp only [Option.bind_some, hseen.resolveTemplate_eq env.lib (hdet.references.inputs t hmem)]

/-- The network computes a value for every task that its plan lets win. -/
theorem value_iff_wins {id : String} (hid : id ∈ env.wf.ids) :
    ((network env behave).value id).isSome = true ↔
      (network env behave).plan.Clear id ∧ (network env behave).plan.Wins id := by
  rw [Network.value_isSome_iff (network_local hacc hdet) (network_deps hacc)
    (network_acyclic hacc) hid,
    Network.ready_iff_clear (network_local hacc hdet) (network_deps hacc)
    (network_acyclic hacc) hid]

end

/-! ### One task -/

/-- What a coroutine holds in a run that follows the behaviour: the inputs that the network gathers,
and once it has succeeded the value of the network. -/
structure CoroMeant (env : Env) (behave : Behaviour) (c : Coro) : Prop where
  inputs : c.pc ≠ .start →
    (network env behave).gather c.task.id (network env behave).value = some c.resolvedInputs
  value : c.span.status = .succeeded → (network env behave).value c.task.id = some c.span.output

/-- A coroutine that goes on keeps its inputs, and its output when its span is a succeeded one. -/
structure DataKept (c c' : Coro) : Prop where
  inputs : c'.resolvedInputs = c.resolvedInputs
  output : c'.span.status = .succeeded → c.span.status = .succeeded ∧ c'.span.output = c.span.output

/-- A failed attempt keeps the data. -/
theorem DataKept.failAttempt (env : Env) (c : Coro) (ctx : SkillContext)
    (err : String) (now : Nat) :
    DataKept c (env.failAttempt c ctx err now) := by
  rcases failAttempt_cases env c now ctx err with ⟨d, -, -, h⟩ | ⟨e, -, -, h⟩ | ⟨-, h⟩ <;> rw [h]
  · exact ⟨rfl, fun hst => ⟨hst, rfl⟩⟩
  · exact ⟨rfl, fun hst => ⟨hst, rfl⟩⟩
  · exact ⟨rfl, fun h => by cases h⟩

/-- The head of the attempt loop keeps the data. -/
theorem DataKept.enterAttempt (env : Env) (c : Coro) (attempt : Int) (now : Nat) :
    DataKept c (env.enterAttempt c attempt now) := by
  rcases enterAttempt_cases env c now attempt with ⟨-, h⟩ | ⟨-, h⟩ <;> rw [h]
  · exact ⟨rfl, fun hst => ⟨hst, rfl⟩⟩
  · exact ⟨rfl, fun h => by cases h⟩

/-- What a step makes of the data of a coroutine: it resolves its inputs, or succeeds, or keeps
them. -/
inductive DataStep (env : Env) (s : State) (c : Coro) (a : CoroAction) (c' : Coro) : Prop
  | raised (e : PyError) (hpc : c.pc = .start) (he : resolveTemplate env.lib
      (.obj (templateScope s.currentInputs s.main.results).entries) (.obj c.task.inputs.entries)
        = .error e)
  | resolved (x : Json) (hpc : c.pc = .start) (hx : resolveTemplate env.lib
      (.obj (templateScope s.currentInputs s.main.results).entries) (.obj c.task.inputs.entries)
        = .ok x) (hinputs : c'.resolvedInputs = x) (hst : c'.span.status ≠ .succeeded)
  | succeeded (ctx : SkillContext) (output : Json) (hpc : c.pc = .handler)
      (ha : a = .finish ctx (.returned output)) (hinputs : c'.resolvedInputs = c.resolvedInputs)
      (hout : c'.span.output = output)
  | kept (hpc : c.pc ≠ .start) (h : DataKept c c')
  | stopped (hc : c.cancelRequested = true)

/-- Each step of a coroutine is one of these. -/
theorem CoroStep.dataStep {s s' : State} {i : Nat} {c : Coro} {a : CoroAction}
    (h : CoroStep env s i c a s') : ∃ c', s'.coros = s.coros.set i c' ∧ DataStep env s c a c' := by
  have hne : ∀ {pc : CoroPc}, c.pc = pc → pc ≠ .start → c.pc ≠ .start := fun hpc hne => hpc ▸ hne
  cases h with
  | start hpc _ =>
      refine ⟨_, rfl, ?_⟩
      rcases startTask_cases env c s.clock s.currentInputs s.main.results with
        ⟨e, he, -⟩ | ⟨x, hx, heq⟩
      · exact .raised e hpc he
      · have hkept := DataKept.enterAttempt env (firstAttempt c s.clock x) 1 s.clock
        rw [heq]
        exact .resolved x hpc hx hkept.inputs fun hst => by cases (hkept.output hst).1
  | acquireError e hc he =>
      refine ⟨_, rfl, .kept ?_ (.failAttempt ..)⟩
      rcases he with ⟨hpc, -⟩ | ⟨hpc, -⟩
      · exact hne hpc (by simp)
      · exact hne hpc (by simp)
  | noSkill hpc _ _ => exact ⟨_, rfl, .kept (hne hpc (by simp)) (.failAttempt ..)⟩
  -- Only a handler that returns sets an output. The other ends of a call leave it as it is.
  | finish ctx out hpc _ =>
      cases out with
      | returned output => exact ⟨_, rfl, .succeeded ctx output hpc rfl rfl rfl⟩
      | timeoutError => exact ⟨_, rfl, .kept (hne hpc (by simp)) (.failAttempt ..)⟩
      | exception type message => exact ⟨_, rfl, .kept (hne hpc (by simp)) (.failAttempt ..)⟩
      | cancelledError => exact ⟨_, rfl, .kept (hne hpc (by simp)) ⟨rfl, fun h => by cases h⟩⟩
      | uncaught type exits =>
          exact ⟨_, rfl, .kept (hne hpc (by simp)) ⟨rfl, fun hst => ⟨hst, rfl⟩⟩⟩
  | timeout ctx hpc _ _ =>
      refine ⟨_, rfl, .kept ?_ (.failAttempt ..)⟩
      rcases hpc with hpc | hpc
      · exact hne hpc (by simp)
      · exact hne hpc (by simp)
  | wake hpc _ => exact ⟨_, rfl, .kept (hne hpc (by simp)) (.enterAttempt ..)⟩
  | cancelOutside ctx _ hc => exact ⟨_, rfl, .stopped hc⟩
  | cancelSlot ctx _ hc => exact ⟨_, rfl, .stopped hc⟩
  | cancelHolder ctx _ hc => exact ⟨_, rfl, .stopped hc⟩
  | cancelHandler ctx _ hc => exact ⟨_, rfl, .stopped hc⟩
  | acquireSlot hpc | grantGlobal _ hpc | denyGlobal _ hpc
  | grantProvider _ hpc | denyProvider _ hpc | timerGlobal hpc | timerProvider hpc
  | invoke _ hpc | lose hpc =>
      exact ⟨_, rfl, .kept (hne hpc (by simp)) ⟨rfl, fun hst => ⟨hst, rfl⟩⟩⟩

/-- The behaviour gives the outcome of an attempt that is under way. -/
theorem CoroMeant.follows {s s' : State} {i : Nat} {c : Coro} {a : CoroAction}
    (h : CoroMeant env behave c) (hs : CoroStep env s i c a s') (hb : CoroBehaves env behave c a) :
    CoroFollows env (meantOutcomes env behave) c a := by
  -- Past its start the task works on the inputs that it is meant to get, so its skill is asked the
  -- right question.
  have houtcome : c.pc ≠ .start → meantOutcomes env behave c.task.id c.span.attempts
      = behave c.task.id c.resolvedInputs c.span.attempts := by
    intro hne
    rw [meantOutcomes, h.inputs hne]
    rfl
  cases hs with
  | noSkill hpc _ hk | invoke _ hpc _ hk =>
      intro hnone
      rw [houtcome (by rw [hpc]; exact (by simp))]
      exact hb hnone
  | finish ctx out hpc _ =>
      show out.attempt = some _
      rw [houtcome (by rw [hpc]; exact (by simp))]
      exact hb
  | lose => exact hb
  | _ => exact trivial

/-- What the step of a coroutine asks of the run: its task is one of the workflow and was ready, and
its inputs resolve to those of the network. -/
structure CoroMeant.Context (env : Env) (behave : Behaviour) (s : State) (c : Coro) : Prop where
  mem : c.task ∈ env.wf.tasks
  ready : (network env behave).ready (network env behave).value c.task.id = true
  resolves : ∃ x,
    resolveTemplate env.lib (.obj (templateScope s.currentInputs s.main.results).entries)
      (.obj c.task.inputs.entries) = .ok x ∧
    (network env behave).gather c.task.id (network env behave).value = some x

/-- A successful attempt has the value of its task. -/
theorem CoroMeant.value_of_return (hacc : Accepted env.wf)
    (hdet : Determined env behave) {s : State}
    {c : Coro} (h : CoroMeant env behave c) (hc : CoroMeant.Context env behave s c)
    (hatt : Attempting env (meantOutcomes env behave) c) (hpc : c.pc = .handler) {v : Json}
    (hv : behave c.task.id c.resolvedInputs c.span.attempts = some v) :
    (network env behave).value c.task.id = some v := by
  have hgather := h.inputs (by rw [hpc]; exact (by simp))
  obtain ⟨htried, hle⟩ := hatt.of_trying hpc rfl
  refine Network.value_of_tried (network_local hacc hdet) (network_deps hacc) (network_acyclic hacc)
    (List.mem_map_of_mem hc.mem) hc.ready hgather ?_
    (hle.trans_eq (network_limit hacc hc.mem).symm) hv
  have hok : attemptOk (meantOutcomes env behave) c.task.id
      = fun j => ((network env behave).behave c.task.id c.resolvedInputs j).isSome := by
    funext j
    rw [attemptOk, meantOutcomes, hgather]
    rfl
  rwa [hok] at htried

/-- A step of a coroutine. -/
theorem CoroMeant.dataStep (hacc : Accepted env.wf) (hdet : Determined env behave) {s : State}
    {c c' : Coro} {a : CoroAction} (h : CoroMeant env behave c)
    (hc : CoroMeant.Context env behave s c) (hatt : Attempting env (meantOutcomes env behave) c)
    (hcalm : c.cancelRequested = false) (hb : CoroBehaves env behave c a) (htask : c'.task = c.task)
    (hs : DataStep env s c a c') : CoroMeant env behave c' := by
  obtain ⟨x, hx, hgather⟩ := hc.resolves
  cases hs with
  | raised e hpc he =>
      rw [hx] at he
      cases he
  -- The inputs are resolved once, from the outputs of tasks that have all ended.
  | resolved y hpc hy hinputs hst =>
      rw [hx] at hy
      cases hy
      refine ⟨fun _ => ?_, fun hsucc => absurd hsucc hst⟩
      rw [htask, hinputs, hgather]
  -- The output is what the skill answers to these inputs at this attempt.
  | succeeded ctx output hpc ha hinputs hout =>
      subst ha
      have hv : behave c.task.id c.resolvedInputs c.span.attempts = some output :=
        (Option.some.inj hb).symm
      refine ⟨fun _ => ?_, fun _ => ?_⟩
      · rw [htask, hinputs]
        exact h.inputs (by rw [hpc]; exact (by simp))
      · rw [htask, hout]
        exact h.value_of_return hacc hdet hc hatt hpc hv
  | kept hpc hkept =>
      refine ⟨fun _ => ?_, fun hst => ?_⟩
      · rw [htask, hkept.inputs]
        exact h.inputs hpc
      · obtain ⟨hold, hout⟩ := hkept.output hst
        rw [htask, hout]
        exact h.value hold
  | stopped hreq =>
      rw [hcalm] at hreq
      cases hreq

/-! ### The run -/

/-- What holds in a run that follows the behaviour. -/
structure OnMeaning (env : Env) (behave : Behaviour) (s : State) : Prop where
  plan : OnPlan env (meantOutcomes env behave) s
  data : ∀ c ∈ s.coros, CoroMeant env behave c

namespace OnMeaning

/-- The results are values. -/
theorem result_value {s : State} (h : OnMeaning env behave s) (hknown : Known env s)
    (hinv : RunInv env s) {id : String} {v : Json} (hv : s.main.results.get? id = some v) :
    (network env behave).value id = some v := by
  obtain ⟨sp, hsp, hst, rfl⟩ := (hinv.results id v).mp hv
  rcases hknown.history.origin id sp hsp with hin | rfl
  · obtain ⟨i, c, hi, -, rfl⟩ := hknown.history.returned sp hin
    have hc := List.mem_of_getElem? hi
    have hid : c.task.id = id := (hinv.span_id c hc).symm.trans (hinv.spans.key _ _ hsp)
    rw [← hid]
    exact (h.data c hc).value hst
  · cases hst

/-- The scope of a started task shows it what the network shows it. -/
theorem context (hacc : Accepted env.wf) (hdet : Determined env behave) {s : State}
    (h : OnMeaning env behave s) (hs : env.system.Reachable s) (hlive : s.main.pc.isLive = true)
    {c : Coro} (hc : c ∈ s.coros) : CoroMeant.Context env behave s c := by
  have hhanded := reachable_handed hacc hs
  have hinv := reachable_runInv hacc hs hlive
  have hknown := reachable_known hacc hs
  have hmem := hhanded.task_mem c hc
  have hid : c.task.id ∈ env.wf.ids := List.mem_map_of_mem hmem
  have hvalue : ∀ d, Relation.TransGen (fun d t => d ∈ env.wf.deps t) d c.task.id →
      ∃ v, s.main.results.get? d = some v ∧ (network env behave).value d = some v := by
    intro d hd
    obtain ⟨v, hv⟩ := hhanded.complete c hc d hd
    exact ⟨v, hv, h.result_value hknown hinv hv⟩
  have hready : (network env behave).ready (network env behave).value c.task.id = true := by
    refine List.all_eq_true.mpr fun d hd => ?_
    obtain ⟨v, -, hval⟩ := hvalue d (.single hd)
    rw [hval]
    rfl
  have hseen : SeenAlike env.wf.deps c.task.id s.main.results
      (resultsOf env.wf.ids (network env behave).value) := by
    refine ⟨?_, get?_resultsOf_of_not_mem hdet.input_free, fun d hd => ?_⟩
    · -- The results are those of tasks, and none of them is named `input`.
      by_contra hne
      obtain ⟨v, hv⟩ := Option.ne_none_iff_exists'.mp hne
      obtain ⟨sp, hsp, -⟩ := (hinv.results _ v).mp hv
      exact hdet.input_free (hinv.spans.mem _ sp hsp)
    · obtain ⟨v, hv, hval⟩ := hvalue d hd
      rw [hv, get?_resultsOf, if_pos (transGen_mem hacc hd hid), hval]
  -- So the task resolves what the network gathers, and that is not lost.
  have hgather : (network env behave).gather c.task.id (network env behave).value
      = (resolveTemplate env.lib (.obj (templateScope s.currentInputs s.main.results).entries)
        (.obj c.task.inputs.entries)).toOption := by
    show gatherInputs env c.task.id _ = _
    rw [gatherInputs, hacc.taskMap_iff.mpr ⟨hmem, rfl⟩, Option.bind_some,
      hhanded.inputs (List.ne_nil_of_mem hc),
      hseen.resolveTemplate_eq env.lib (hdet.references.inputs c.task hmem)]
  have hsome := hdet.resolves _ hid hready
  refine ⟨hmem, hready, ?_⟩
  rw [hgather] at hsome ⊢
  cases hr : resolveTemplate env.lib (.obj (templateScope s.currentInputs s.main.results).entries)
      (.obj c.task.inputs.entries) with
  | ok x => exact ⟨x, rfl, rfl⟩
  | error e =>
      rw [hr] at hsome
      cases hsome

/-- A step of `run` starts coroutines, and leaves the data of the others alone. -/
theorem mainStepped (hacc : Accepted env.wf) (hdet : Determined env behave) {s s' : State}
    (h : OnMeaning env behave s) (hs : env.system.Reachable s) (hm : MainStepped env s s') :
    OnMeaning env behave s' := by
  refine ⟨h.plan.mainStepped hacc hdet.starts hdet.continues hs hm, ?_⟩
  cases hm with
  | dispatch tid rest t hpc hready hskip ht =>
      intro c hc
      rcases List.mem_append.mp hc with hc | hc
      · exact h.data c hc
      · obtain rfl := List.mem_singleton.mp hc
        exact ⟨fun hne => absurd rfl hne, fun h => by cases h⟩
  | cancelAll i rest c t hpc hi hdone hst ht hfast hmore =>
      exact absurd hfast (hdet.continues t (hacc.taskMap_iff.mp ht).1)
  | _ => exact h.data

end OnMeaning

/-- `OnMeaning` holds in every run that follows the behaviour. -/
theorem reachable_onMeaning (hacc : Accepted env.wf) (hdet : Determined env behave) {s : State}
    (hs : env.system.ReachableBy (Behaves env behave) s) : OnMeaning env behave s := by
  have hinit : OnMeaning env behave env.initial :=
    ⟨⟨fun e => MainPc.noConfusion, rfl, fun c hc => by cases hc⟩, fun c hc => by cases hc⟩
  refine hs.holds hinit fun s a s' hs h hb ha => ?_
  cases step_inv ha with
  | main hm => exact h.mainStepped hacc hdet hs hm
  | wake order hw =>
  exact ⟨⟨fun e => MainPc.noConfusion, h.plan.running, h.plan.attempting⟩, h.data⟩
  | @coro i c b _ hi hy hstep =>
      have hc := List.mem_of_getElem? hi
      have hlive : s.main.pc.isLive = true := by
        cases hpc : s.main.pc with
        | start =>
            rw [hpc] at hy
            cases hy
        | raised e => exact absurd hpc (h.plan.run e)
        | _ => rfl
      have hctx := h.context hacc hdet hs hlive hc
      have hcalm := (reachable_calm hacc hs h.plan.running c hc).no_request
      obtain ⟨x, hx, -⟩ := hctx.resolves
      -- The step is seen from three sides, and all three speak of the same new coroutine.
      obtain ⟨c', hcoros, hdata⟩ := hstep.dataStep
      obtain ⟨c₁, hmove⟩ := hstep.move
      obtain rfl := eq_of_set_eq hi (hcoros.symm.trans hmove.coros)
      obtain ⟨c₂, hcoros₂, hatt⟩ := (h.plan.attempting c hc).coroStep hstep
        ((h.data c hc).follows hstep (hb c hi)) hs hcalm ⟨x, hx⟩ (hdet.retries _ hctx.mem)
        (hdet.untimed _ hctx.mem) (hdet.sleeps _ hctx.mem)
      obtain rfl := eq_of_set_eq hi (hcoros.symm.trans hcoros₂)
      have hmeant := (h.data c hc).dataStep hacc hdet hctx (h.plan.attempting c hc) hcalm (hb c hi)
        hmove.task hdata
      refine ⟨⟨hstep.main_eq ▸ h.plan.run, hstep.main_eq ▸ h.plan.running, ?_⟩, ?_⟩
      · rw [hcoros]
        exact forall_mem_set h.plan.attempting hatt
      · rw [hcoros]
        exact forall_mem_set h.data hmeant
  | cancel hpc => exact hb.elim
  | _ => exact ⟨⟨h.plan.run, h.plan.running, h.plan.attempting⟩, h.data⟩

/-! ### The report -/

/-- At the end of a run, the spans are settled as the plan of the network says. -/
theorem OnMeaning.spansSettled (hacc : Accepted env.wf) (hdet : Determined env behave) {s : State}
    (h : OnMeaning env behave s) (hs : env.system.Reachable s) (hend : AtEnd env s)
    (hlive : s.main.pc.isLive = true) :
    SpansSettled spanEntry s.main.spans (network env behave).plan (coroIds s.coros) := by
  have hspans := h.plan.spansSettled hend hacc
  refine ⟨hspans.nodup, hspans.key, hspans.mem, hspans.total, fun id hid => ?_, hspans.origin⟩
  obtain ⟨sp, hsp, hskip, hsettled⟩ := hspans.settled id hid
  obtain ⟨c, hc, rfl⟩ := List.mem_map.mp hid
  have hctx := h.context hacc hdet hs hlive hc
  obtain ⟨x, -, hgather⟩ := hctx.resolves
  obtain ⟨hlimit, hok⟩ := Network.plan_of_gather hgather
  refine ⟨sp, hsp, hskip, ?_⟩
  -- For inputs that resolve, the outcomes of the attempts are those of the plan.
  have hsame : attemptOk (meantOutcomes env behave) c.task.id =
    (network env behave).plan.ok c.task.id := by
    funext k
    rw [hok, attemptOk, meantOutcomes, hgather]
    rfl
  rw [hlimit, ← hsame]
  exact hsettled

/-- A run that has returned a report has not raised. -/
theorem isLive_of_report {s : State} {rep : Report} (hrep : s.report? = some rep) :
    s.main.pc.isLive = true := by
  unfold State.report? at hrep
  split at hrep
  · rename_i hpc
    rw [hpc]
    rfl
  · cases hrep

section

variable (hacc : Accepted env.wf) (hdet : Determined env behave) {s : State}
  (hs : env.system.ReachableBy (Behaves env behave) s) {rep : Report} (hrep : s.report? = some rep)
include hacc hdet hs hrep

/-- The report is the one that the plan of the network asks for. -/
theorem report_right_meant : (reportVerdict rep).Right (network env behave).plan := by
  have h := reachable_onMeaning hacc hdet hs
  obtain ⟨hend, now, rfl⟩ := reachable_atEnd hacc hs.reachable hrep
  have hspans := h.spansSettled hacc hdet hs.reachable hend (isLive_of_report hrep)
  refine hspans.right (hend.inv.books h.plan.running) rfl hend.ready
    (fun t ht d hd => hacc.deps_ids ht hd) hacc.acyclic (fun id => ?_) ?_
    (h.plan.totals_retries hend) ?_
  · simp only [isGood_ledger, spanEntry, fateOf_succeeded]
  · show (env.wf.tasks.filterMap fun t => s.main.spans.get? t.id).map spanEntry
      = ((env.wf.tasks.map (·.id)).filterMap s.main.spans.get?).map spanEntry
    rw [List.filterMap_map]
    rfl
  · show _ ∧ fateOf (env.report now s.main).status = _ ∨ _ ∧
      fateOf (env.report now s.main).status = _
    rw [← any_failed_iff]
    -- The report counts the run as failed if one of its spans is.
    by_cases hfail : (s.main.spans.entries.any fun e => e.2.status = .failed) = true
    · exact Or.inl ⟨hfail, by simp [report, hfail, fateOf]⟩
    · refine Or.inr ⟨hfail, ?_⟩
      rw [Bool.not_eq_true] at hfail
      simp [report, hfail, h.plan.running, fateOf]

/-- At the end of a run the results are the values of the network. -/
theorem results_meant (id : String) : s.main.results.get? id
    = (resultsOf env.wf.ids (network env behave).value).get? id := by
  have h := reachable_onMeaning hacc hdet hs
  have hright := report_right_meant hacc hdet hs hrep
  obtain ⟨hend, now, rfl⟩ := reachable_atEnd hacc hs.reachable hrep
  rw [get?_resultsOf]
  cases hres : s.main.results.get? id with
  | some v =>
      obtain ⟨sp, hsp, -⟩ := (hend.inv.results id v).mp hres
      rw [if_pos (hend.inv.spans.mem id sp hsp), h.result_value hend.known hend.inv hres]
  | none =>
      by_cases hid : id ∈ env.wf.ids
      · rw [if_pos hid]
        by_contra hne
        have hsome := Option.isSome_iff_ne_none.mpr (Ne.symm hne)
        -- The plan lets the task win, so its span is a succeeded one, and has left a result.
        obtain ⟨sp, hsp⟩ := Option.ne_none_iff_exists'.mp (hend.total id hid)
        have hmem := List.mem_map_of_mem (f := spanEntry) (mem_report hid hsp now)
        have hnode : (spanEntry sp).node = id := hend.inv.spans.key _ _ hsp
        have hst := (hright.entries _ hmem).succeeded.mpr
          (hnode ▸ (value_iff_wins hacc hdet hid).mp hsome)
        rw [(hend.inv.results id sp.output).mpr ⟨sp, hsp, fateOf_succeeded.mp hst, rfl⟩] at hres
        cases hres
      · rw [if_neg hid]

/-- The report is what the network computes. -/
theorem report_computed : Computed env behave rep := by
  have h := reachable_onMeaning hacc hdet hs
  have hlimit : ∀ id ∈ env.wf.ids, 1 ≤ (network env behave).limit id := by
    intro id hid
    obtain ⟨t, ht, rfl⟩ := List.mem_map.mp hid
    rw [network_limit hacc ht]
    have := hdet.retries t ht
    omega
  -- The report's verdict and the computed one are both right, and only one verdict is.
  have hverdict := (report_right_meant hacc hdet hs hrep).unique (Network.verdict_right
    (network_local hacc hdet) (network_deps hacc) (network_acyclic hacc) hlimit)
  have hresults := results_meant hacc hdet hs hrep
  obtain ⟨hend, now, rfl⟩ := reachable_atEnd hacc hs.reachable hrep
  refine ⟨hverdict, fun sp hsp hst => ?_, ?_⟩
  · obtain ⟨t, ht, hget⟩ := List.mem_filterMap.mp hsp
    have hv := (hend.inv.results t.id sp.output).mpr ⟨sp, hget, hst, rfl⟩
    rw [hend.inv.spans.key _ _ hget]
    exact h.result_value hend.known hend.inv hv
  · have hstatus : (env.report now s.main).status = .succeeded ↔
        (network env behave).verdict.fate = .succeeded := by
      rw [← hverdict]
      exact fateOf_succeeded.symm
    have hresolve := @Proofs.resolveTemplate_output_eq env.lib env.inputs _ _ _ _ hresults
      hdet.references.output
    show (if (env.report now s.main).status = .succeeded ∧ env.wf.output.getD "" ≠ "" then _
      else Json.null) = _
    rw [meantOutput, hresolve]
    -- The output is resolved for a run that succeeded and has a template.
    by_cases hgood : (network env behave).verdict.fate = .succeeded ∧ env.wf.output.getD "" ≠ ""
    · rw [if_pos hgood, if_pos ⟨hstatus.mpr hgood.1, hgood.2⟩]
      cases resolveTemplate env.lib (.obj (templateScope env.inputs (resultsOf env.wf.ids
        (network env behave).value)).entries) (.str (env.wf.output.getD "")) <;> rfl
    · rw [if_neg hgood, if_neg fun h => hgood ⟨hstatus.mp h.1, h.2⟩]

end

/-- A fair run with room for one task that follows the behaviour returns a report. -/
theorem fair_reports_meant (hacc : Accepted env.wf) (hdet : Determined env behave)
    (hpar : 1 ≤ env.wf.maxParallel) (e : env.system.Execution) (hfair : Fair e)
    (hb : ∀ n, Behaves env behave (e.state n) (e.label n)) :
    ∃ n, (e.state n).report?.isSome = true := by
  have hmeaning := fun n => reachable_onMeaning hacc hdet (e.reachableBy hb n)
  obtain ⟨n, hend⟩ := fair_ends hacc hpar e hfair fun n => (hmeaning n).plan.going
  have h := hmeaning n
  refine ⟨n, ?_⟩
  cases hpc : (e.state n).main.pc with
  | returned rep => rw [State.report?, hpc]; rfl
  | raised err => exact absurd hpc (h.plan.run err)
  | _ =>
      rw [hpc] at hend
      cases hend

/-- A run of the Python engine computes what the dataflow network of its workflow computes: it never
raises, every report has the verdict, the outputs and the output of the network, and a fair run
returns such a report.

The proof follows the one for the Go engine. What is different is the condition, since a Python run
can end in an exception at more places, and the last part, where the token buckets have to be shown
to fill up. -/
theorem runner_computes (env : Env) (lib : PyLib) (behave : Behaviour)
    (hval : env.wf.validate lib = .ok ()) (hpar : 1 ≤ env.wf.maxParallel)
    (hdet : Determined env behave) :
    (∀ s, env.system.ReachableBy (Behaves env behave) s → ∀ e, s.main.pc ≠ .raised e) ∧
    (∀ s rep, env.system.ReachableBy (Behaves env behave) s → s.report? = some rep →
      Computed env behave rep) ∧
    ∀ e : env.system.Execution, Fair e → (∀ n, Behaves env behave (e.state n) (e.label n)) →
      ∃ n rep, (e.state n).report? = some rep ∧ Computed env behave rep := by
  have hacc := accepted_of_validate hval
  refine ⟨fun s hs => (reachable_onMeaning hacc hdet hs).plan.run,
    fun s rep hs hrep => report_computed hacc hdet hs hrep, fun e hfair hb => ?_⟩
  obtain ⟨n, hn⟩ := fair_reports_meant hacc hdet hpar e hfair hb
  obtain ⟨rep, hrep⟩ := Option.isSome_iff_exists.mp hn
  exact ⟨n, rep, hrep, report_computed hacc hdet (e.reachableBy hb n) hrep⟩

/-! ### A sample run -/

/-- Check that a step follows the behaviour of the sample, which can be evaluated. -/
def checkBehaves (s : State) : Action → Bool
  | .coro i (.finish _ out) => (s.coros[i]?).all fun c =>
    match out with
    | .returned (.str text) =>
      decide (sampleAnswer c.task.id c.resolvedInputs c.span.attempts = some text)
    | .timeoutError | .exception _ _ =>
      decide (sampleAnswer c.task.id c.resolvedInputs c.span.attempts = none)
    | _ => false
  | .coro _ .lose | .cancel => false
  | _ => true

/-- A step that passes the check follows the behaviour. -/
theorem behaves_of_check (hskills : ∀ name, env.skills name ≠ none) (s : State) (a : Action)
    (h : checkBehaves s a = true) : Behaves env sampleBehaviour s a := by
  cases a with
  | coro i b =>
      intro c hc
      cases b with
      | invoke => exact fun hnone => absurd hnone (hskills _)
      -- The check compares the outcome with the sample answer, and an end that counts as no attempt
      -- fails it.
      | finish ctx out =>
          rw [checkBehaves, hc] at h
          show out.attempt = some
            ((sampleAnswer c.task.id c.resolvedInputs c.span.attempts).map .str)
          cases out with
          | returned output => cases output <;> simp_all [Outcome.attempt]
          | cancelledError | uncaught => cases h
          | _ => simp_all [Outcome.attempt]
      | lose => cases h
      | _ => exact trivial
  | cancel => cases h
  | _ => exact trivial

/-- A run of the sample workflow, with the documented printer. -/
def answeredPy : Env := { plainRun Proofs.branches .async with lib := Proofs.documentedPy }

/-- The task `c` runs while `a` sleeps, and `b` is handed what `a` answered. -/
def answeredSteps : List Action :=
  [.main, .main, .main, .main, .main] ++ wholeTask 0 {} (.exception "E" "m") ++
    wholeTask 1 {} .timeoutError ++
    [.coro 0 .wake, .coro 0 .acquireSlot, .coro 0 .acquire, .coro 0 .invoke,
      .coro 0 (.finish {} (.returned (.str "o"))), .wake [1, 0], .main, .main, .main, .main, .main,
      .main] ++
    wholeTask 2 {} (.returned (.str "op")) ++ [.wake [2], .main, .main, .main, .main]

/-- The sample run is determined. -/
theorem answered_determined : Determined answeredPy sampleBehaviour where
  starts now := ⟨_, rfl⟩
  continues := by decide
  retries := by decide
  untimed := by decide
  references := by
    -- One reference in all: `b` reads the output of `a`, on which it depends.
    have htasks : Proofs.branches.tasks.map (fun t => (t.id, paths strip (.obj t.inputs.entries)))
        = [("a", []), ("b", ["a.output".toList]), ("c", []), ("d", [])] := by rfl
    have hb : Engine.splitPath "a.output".toList = ["a", "output"] := by rfl
    refine ⟨fun t ht path hpath => ?_, fun path hpath => by cases hpath⟩
    have hmem : (t.id, paths strip (.obj t.inputs.entries)) ∈ _ := htasks ▸ List.mem_map_of_mem ht
    simp only [List.mem_cons, List.not_mem_nil, or_false, Prod.mk.injEq] at hmem
    rcases hmem with ⟨-, hl⟩ | ⟨hid, hl⟩ | ⟨-, hl⟩ | ⟨-, hl⟩ <;> rw [hl] at hpath
    · cases hpath
    · obtain rfl := List.mem_singleton.mp hpath
      exact Or.inr ⟨"a", [], hb, hid ▸ .single (by decide)⟩
    · cases hpath
    · cases hpath
  input_free := by decide
  resolves := by decide
  sleeps t ht := by
    have hmax : ∀ t ∈ Proofs.branches.tasks, (effectiveRetry Proofs.branches t).max ≤ 1024 := by
      decide
    exact Or.inr (Or.inr (Or.inl (hmax t ht)))

/-- The sample run reports what the network computes. -/
theorem runner_computes_answered :
    ∃ (e : answeredPy.system.Execution) (n : Nat) (rep : Report), Fair e ∧
      (e.state n).report? = some rep ∧ Computed answeredPy sampleBehaviour rep := by
  have hrun : ((answeredPy.system.guard checkBehaves).run? answeredSteps).any
      (fun s => s.main.pc.isEnded && s.coros.all (fun c => c.pc.isDone)) = true := by
    decide +kernel
  obtain ⟨s, hs, hend⟩ := (Option.any_eq_true _ _).mp hrun
  rw [Bool.and_eq_true, List.all_eq_true] at hend
  obtain ⟨e, hfair, hcheck⟩ := fair_of_run (fun _ => rfl) hs hend.1 hend.2
  have hcompute := runner_computes answeredPy Proofs.asciiLib sampleBehaviour (by rfl)
    (by decide) answered_determined
  obtain ⟨n, rep, hrep, hcomp⟩ :=
    hcompute.2.2 e hfair fun n => behaves_of_check (fun _ => Option.some_ne_none _) _ _ (hcheck n)
  exact ⟨e, n, rep, hfair, hrep, hcomp⟩

end Orchestrator.Sdk.Runner
