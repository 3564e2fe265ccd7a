import Orchestrator.Proofs.RunMeaning
import Orchestrator.Proofs.RunnerMeaning

/-!
# `Orchestrator.Proofs.MeaningsAgree`: the engine and the runner compute the same

Two runs of one workflow, one by `Scheduler.Run` and one by `Orchestrator.run`, whose attempts
follow one behaviour: what an attempt answers may depend on the inputs that it is handed.
`SameMeaning` says when the two networks gather alike. Both resolvers must read the templates alike
and write the values inside longer strings alike, and that is asked of the values of the network
only. Then the two runs report the same: how each task ends, its attempts, its output, and the
output of the workflow (`engines_compute_alike`).

`Orchestrator.Proofs.EnginesAgree` fixes the outcomes instead, and allows no reference that may lead
nowhere. Here a reference may lead to a field that is missing, and the task then fails in both
engines before its first attempt.

The comparison is one of networks. Each engine computes what its own network says (`RunMeaning`,
`RunnerMeaning`), and the values of the two networks are equal by induction over the dependencies
(`gather_eq_of_ready`, `value_eq`). The printers of the two languages write floats of integral value
differently, so the condition on the texts is stated for the values that are really printed.
-/

set_option autoImplicit false

namespace Orchestrator.Proofs

open Orchestrator.Lib Orchestrator.Engine Orchestrator.Engine.Env
open Orchestrator.Sdk (PyLib strip)
open Orchestrator.Sdk.Runner (templateScope)

variable {B : Type} {go : Env B} {py : Sdk.Runner.Env} {iter : MapOrder} {lib : PyLib}
  {N : NumberTexts} {behave : Behaviour}

/-- The scope that the values of the network make. -/
def valueScope (py : Sdk.Runner.Env) (behave : Behaviour) : Json :=
  .obj (templateScope py.inputs
    (resultsOf py.wf.ids (Sdk.Runner.network py behave).value)).entries

/-- One determined workflow for both engines. They read its templates alike, and write the values of
the network alike inside them. -/
structure SameMeaning (go : Env B) (py : Sdk.Runner.Env) (iter : MapOrder) (lib : PyLib)
    (N : NumberTexts) (behave : Behaviour) : Prop where
  workflow : go.wf = py.wf.toGo
  inputs : go.inputs = py.inputs
  goAccepts : go.wf.validate iter = .ok ()
  pyAccepts : py.wf.validate lib = .ok ()
  documented : DocumentedOutput N go.lib py.lib
  determined : Sdk.Runner.Determined py behave
  limits : LimitsFit py
  parallel : 1 ≤ py.wf.maxParallel
  reads : ∀ t ∈ py.wf.tasks, SameReading (.obj t.inputs.entries)
  fills : ∀ t ∈ py.wf.tasks,
    (Sdk.Runner.network py behave).ready (Sdk.Runner.network py behave).value
    t.id = true → FillsAlike N (.obj t.inputs.entries) (valueScope py behave)
  readsOutput : SameReading (.str (py.wf.output.getD ""))
  fillsOutput : FillsAlike N (.str (py.wf.output.getD "")) (valueScope py behave)

/-- The two reports say the same, and hand out the same values: the same verdict, the same output of
every succeeded task, and the same output of the workflow. -/
structure ReportsAlike (rep : Report) (rep' : Sdk.Runner.Report) : Prop where
  verdict : reportVerdict rep = Sdk.Runner.reportVerdict rep'
  outputs : ∀ sp ∈ rep.tasks, ∀ sp' ∈ rep'.tasks, sp.id = sp'.id → sp.status = .succeeded →
    sp.output = sp'.output
  output : rep.output = rep'.output

/-- A template that both read alike has the same paths in both. -/
theorem SameReading.paths_eq {template : Json} (h : SameReading template) :
    paths trimSpace template = paths strip template :=
  List.flatMap_congr fun s hs => by rw [stringPaths_eq, stringPaths_eq, h s hs]

namespace SameMeaning

variable (h : SameMeaning go py iter lib N behave)
include h

/-- What is determined for the runner is determined for the engine. The conditions on the workflow
are stated of the Python one, and the Go workflow is its image. -/
theorem goDetermined : Determined go := by
  -- Every task of the Go workflow is one of the Python workflow read over.
  have htask : ∀ {P : Task → Prop}, (∀ t ∈ py.wf.tasks, P t.toGo) → ∀ t ∈ go.wf.tasks, P t := by
    intro P hP t ht
    rw [h.workflow] at ht
    obtain ⟨t, hmem, rfl⟩ := List.mem_map.mp ht
    exact hP t hmem
  refine ⟨htask fun t ht => ?_, htask fun t ht => ?_,
    ⟨htask fun t ht path hpath => ?_, fun path hpath => ?_⟩,
    ?_⟩
  · rw [h.workflow, toGo_effectiveOnError]
    exact h.determined.continues t ht
  · rw [h.workflow, toGo_effectiveRetry]
    exact ⟨h.determined.retries t ht, h.limits t ht⟩
  · rw [h.workflow, toGo_deps]
    -- The engines trim the paths of a reference differently, and the hypothesis says that no text
    -- of the workflow shows it.
    have hpath : path ∈ paths trimSpace (.obj t.inputs.entries) := hpath
    exact h.determined.references.inputs t ht path ((h.reads t ht).paths_eq ▸ hpath)
  · rw [h.workflow, toGo_ids]
    rw [h.workflow] at hpath
    have hsame := h.readsOutput.paths_eq
    simp only [paths, Json.strings, List.flatMap_singleton] at hsame
    exact h.determined.references.output path (hsame ▸ hpath)
  · rw [h.workflow, toGo_ids]
    exact h.determined.input_free

/-- The network of the engine is that of the runner, with the resolver of the engine. -/
theorem network_eq :
    network go behave = (Sdk.Runner.network py behave).regather (gatherInputs go) := by
  have hacc := Sdk.Runner.accepted_of_validate h.pyAccepts
  have hlimit : (fun id => ((go.wf.taskMap.get? id).map fun t =>
        (t.effectiveRetry go.wf.defaultRetry).max + 1).getD 0)
      = fun id => ((py.wf.taskMap.get? id).map fun t =>
        (Sdk.Runner.effectiveRetry py.wf t).max + 1).getD 0 := by
    funext id
    rw [h.workflow, toGo_taskMap hacc, Option.map_map]
    simp only [Function.comp_def, toGo_effectiveRetry, Sdk.Retry.toGo]
  rw [network, Network.regather, Sdk.Runner.network, hlimit, h.workflow, toGo_ids, toGo_deps]

/-- From the values of the network, both gather the same. -/
theorem gather_eq_of_ready : ∀ id ∈ (Sdk.Runner.network py behave).nodes,
    (Sdk.Runner.network py behave).ready (Sdk.Runner.network py behave).value id = true →
      gatherInputs go id (Sdk.Runner.network py behave).value
        = (Sdk.Runner.network py behave).gather id (Sdk.Runner.network py behave).value := by
  intro id hid hready
  have hacc := Sdk.Runner.accepted_of_validate h.pyAccepts
  obtain ⟨t, ht, rfl⟩ := List.mem_map.mp (show id ∈ py.wf.tasks.map (·.id) from hid)
  have hagree := (agree_iff_fillsAlike h.documented (h.reads t ht) _).mpr (h.fills t ht hready)
  show _ = Sdk.Runner.gatherInputs py t.id _
  rw [gatherInputs, Sdk.Runner.gatherInputs, h.workflow, toGo_taskMap hacc,
    hacc.taskMap_iff.mpr ⟨ht, rfl⟩, toGo_ids, h.inputs]
  exact hagree

/-- Both networks give a task the same value. -/
theorem value_eq {id : String} (hid : id ∈ py.wf.ids) :
    (network go behave).value id = (Sdk.Runner.network py behave).value id := by
  have hacc := Sdk.Runner.accepted_of_validate h.pyAccepts
  have hlocal : (network go behave).Local :=
    network_local (accepted_of_validate h.goAccepts) h.goDetermined
  rw [h.network_eq] at hlocal ⊢
  exact Network.regather_value (Sdk.Runner.network_local hacc h.determined)
    (Sdk.Runner.network_deps hacc) (Sdk.Runner.network_acyclic hacc) hlocal h.gather_eq_of_ready hid

/-- Both networks make the same plan. -/
theorem verdict_eq : (network go behave).verdict = (Sdk.Runner.network py behave).verdict := by
  have hacc := Sdk.Runner.accepted_of_validate h.pyAccepts
  have hlocal : (network go behave).Local :=
    network_local (accepted_of_validate h.goAccepts) h.goDetermined
  rw [h.network_eq] at hlocal ⊢
  exact Network.regather_verdict (Sdk.Runner.network_local hacc h.determined)
    (Sdk.Runner.network_deps hacc) (Sdk.Runner.network_acyclic hacc) hlocal h.gather_eq_of_ready

/-- Both networks mean the same output of the workflow. -/
theorem meantOutput_eq : meantOutput go behave = Sdk.Runner.meantOutput py behave := by
  have hagree := (agree_iff_fillsAlike h.documented h.readsOutput _).mpr h.fillsOutput
  have hscope : Json.obj
    (buildScope go.inputs (resultsOf go.wf.ids (network go behave).value)).entries
      = valueScope py behave := by
    rw [h.inputs, show go.wf.ids = py.wf.ids by rw [h.workflow, toGo_ids],
      resultsOf_congr fun id hid => h.value_eq hid]
    rfl
  have houtput : go.wf.output = py.wf.output.getD "" := by rw [h.workflow]; rfl
  have hagree : (resolve go.lib (valueScope py behave) (.str (py.wf.output.getD ""))).toOption
      = (Sdk.resolveTemplate py.lib (valueScope py behave)
        (.str (py.wf.output.getD ""))).toOption :=
    hagree
  rw [meantOutput, Sdk.Runner.meantOutput, h.verdict_eq, hscope, houtput, hagree]
  rfl

/-- Reports of what the two networks compute are alike. Each says of every task what its network
says, and the networks say the same (`verdict_eq`, `value_eq`). -/
theorem reportsAlike {rep : Report} {rep' : Sdk.Runner.Report} (hrep : Computed go behave rep)
    (hrep' : Sdk.Runner.Computed py behave rep') : ReportsAlike rep rep' := by
  have hverdict : reportVerdict rep = Sdk.Runner.reportVerdict rep' := by
    rw [hrep.verdict, h.verdict_eq, hrep'.verdict]
  refine ⟨hverdict, fun sp hsp sp' hsp' hid hst => ?_, ?_⟩
  · have hmem : spanEntry sp ∈ (Sdk.Runner.network py behave).verdict.entries := by
      rw [← hrep'.verdict, ← hverdict]
      exact List.mem_map_of_mem hsp
    have hmem' : Sdk.Runner.spanEntry sp' ∈ (Sdk.Runner.network py behave).verdict.entries := by
      rw [← hrep'.verdict]
      exact List.mem_map_of_mem hsp'
    obtain ⟨hnode, hentry⟩ := Network.of_mem_entries hmem
    obtain ⟨-, hentry'⟩ := Network.of_mem_entries hmem'
    -- The two spans have one entry, so the other one is a succeeded one too.
    have hsame : Sdk.Runner.spanEntry sp' = spanEntry sp := by
      rw [hentry, hentry']
      exact congrArg _ hid.symm
    have hst' : sp'.status = .succeeded := by
      refine fateOf_succeeded.mp ?_
      rw [show fateOf sp'.status = (Sdk.Runner.spanEntry sp').fate from rfl, hsame]
      exact fateOf_succeeded.mpr hst
    have hvalue := hrep.outputs sp hsp hst
    have hnode : sp.id ∈ py.wf.ids := hnode
    rw [h.value_eq hnode, hid, hrep'.outputs sp' hsp' hst'] at hvalue
    exact (Option.some.inj hvalue).symm
  · rw [hrep.output, hrep'.output, h.meantOutput_eq]

end SameMeaning

/-- What the two engines make of the behaviour: both come to a report, the runner never raises, and
any two reports are alike. -/
structure SameResults (go : Env B) (py : Sdk.Runner.Env) (behave : Behaviour) : Prop where
  /-- The runner does not raise. -/
  calm : ∀ s, py.system.ReachableBy (Sdk.Runner.Behaves py behave) s → ∀ e, s.main.pc ≠ .raised e
  goReports : ∀ e : go.system.Execution, Fair e →
    (∀ n, Behaves go behave (e.state n) (e.label n)) → ∃ n, (e.state n).report?.isSome = true
  pyReports : ∀ e : py.system.Execution, Sdk.Runner.Fair e →
    (∀ n, Sdk.Runner.Behaves py behave (e.state n) (e.label n)) →
      ∃ n, (e.state n).report?.isSome = true
  same : ∀ s rep s' rep', go.system.ReachableBy (Behaves go behave) s → s.report? = some rep →
    py.system.ReachableBy (Sdk.Runner.Behaves py behave) s' → s'.report? = some rep' →
      ReportsAlike rep rep'

/-- The engine with the documented printer. The output of a task is the text that it returns. -/
def answeredGo : Env Unit :=
  { plainEnv branches.toGo with lib := { documentedGo with unmarshal := fun _ => none } }

/-- The engine runs `a` to its end before `c`, with the answers of the sample behaviour. -/
def goAnswered : List Action :=
  [.main, .main, .main, .main, .task 0 .resolve] ++ attempt 0 { err := some ⟨"E", "m", true⟩ } ++
    [.task 0 .wake] ++ attempt 0 { outputJSON := "o" } ++ [.task 0 .send] ++
    wholeTask 1 { err := some ⟨"E", "m", true⟩ } ++ [.main, .main, .main, .main] ++
    wholeTask 2 { outputJSON := "op" } ++ [.main, .main, .main, .main, .main, .main]

/-- The sample means the same to both engines. Its one reference is a whole string, so no printed
value is involved. -/
theorem answered_sameMeaning : SameMeaning answeredGo Sdk.Runner.answeredPy .insertion asciiLib
    intTexts sampleBehaviour where
  workflow := rfl
  inputs := rfl
  goAccepts := by rfl
  pyAccepts := by rfl
  documented := ⟨fun _ => rfl, fun _ => rfl⟩
  determined := Sdk.Runner.answered_determined
  limits := branches_comparable.limits
  parallel := by decide
  reads t ht := by
    have hchars : ∀ t ∈ branches.tasks, (Json.obj t.inputs.entries).strings.all (fun s =>
        s.toList.all fun c => decide (c.toNat < 0x1C ∨ 0x1F < c.toNat)) = true := by decide +kernel
    refine sameReading_of_chars fun s hs c hc => ?_
    exact of_decide_eq_true (List.all_eq_true.mp (List.all_eq_true.mp (hchars t ht) s hs) c hc)
  fills t ht _ := by
    -- The one reference is a whole string.
    have hinline : ∀ t ∈ branches.tasks, ∀ s ∈ (Json.obj t.inputs.entries).strings,
        (readString trimSpace s).inline = [] := by decide +kernel
    refine Or.inr fun s hs path hpath => ?_
    rw [hinline t ht s hs] at hpath
    cases hpath
  readsOutput s hs := by
    obtain rfl := List.mem_singleton.mp hs
    rfl
  fillsOutput := by
    refine Or.inr fun s hs path hpath => ?_
    obtain rfl := List.mem_singleton.mp hs
    cases hpath

end Orchestrator.Proofs
