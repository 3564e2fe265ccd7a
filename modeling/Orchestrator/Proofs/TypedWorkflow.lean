import Orchestrator.Proofs.LoadedWorkflow
import Orchestrator.Proofs.ValidateExact

/-!
# `Orchestrator.Proofs.TypedWorkflow`: validation and the annotated types

`from_dict` validates the workflow as it has filled it, where the ids are values of any type, and
the runner works on the same workflow with the annotated types. Reading the types keeps what
`validate` compares: the id, the dependencies and the provider of each task (`SameTask`), and the
names of the providers. So a workflow that `from_dict` returns is accepted by its own `validate`
(`fromDict_validates`), with the same room on the stack.

The comparison of ids goes by keys. Two texts are one key only when they are the same
(`key_str_injective`), so the search for a cycle over the keys of the filled workflow is the search
over the ids of the typed one, node by node (`typed_graph`, `typed_assertAcyclic`).

With this the modules about the runner may assume a workflow that `validate` of the typed form
accepts. What `validate` does with values of other types concerns the loader only.
-/

set_option autoImplicit false

namespace Orchestrator.Proofs

open Orchestrator.Lib

/-! ### Values of a type -/

/-- A field that reads as a text is that text. -/
theorem asStr_ok {field s : String} {v : Json} (h : Sdk.asStr field v = .ok s) : v = .str s := by
  cases v with
  | str t => exact congrArg Json.str (Except.ok.inj h)
  | _ => cases h

/-- A field that reads as an optional text is that text, or `None`. -/
theorem asOptStr_ok {field : String} {o : Option String} {v : Json}
    (h : Sdk.asOptStr field v = .ok o) : v = Sdk.jsonOpt .str o := by
  cases v with
  | null =>
      cases h
      rfl
  | str t =>
      cases h
      rfl
  | _ => cases h

/-- No two texts are one key. -/
theorem key_str_injective : Function.Injective Sdk.Key.str := fun _ _ h => Sdk.Key.str.inj h

/-! ### Tasks -/

/-- The two forms of a task have the same id, dependencies and provider. These are the fields that
`validate` reads. -/
structure SameTask (t : Sdk.Stored.Task) (u : Sdk.Task) : Prop where
  id : t.id = .str u.id
  dependsOn : t.dependsOn = u.dependsOn.map .str
  provider : t.provider = Sdk.jsonOpt .str u.provider

/-- Reading the types of a task keeps what is compared. -/
theorem typed_sameTask {t : Sdk.Stored.Task} {u : Sdk.Task} (h : t.typed = .ok u) :
    SameTask t u := by
  unfold Sdk.Stored.Task.typed at h
  obtain ⟨inputs, -, h⟩ := except_bind_ok h
  obtain ⟨id, hid, h⟩ := except_bind_ok h
  obtain ⟨skill, -, h⟩ := except_bind_ok h
  obtain ⟨provider, hprovider, h⟩ := except_bind_ok h
  obtain ⟨deps, hdeps, h⟩ := except_bind_ok h
  obtain ⟨retry, -, h⟩ := except_bind_ok h
  obtain ⟨onError, -, h⟩ := except_bind_ok h
  cases h
  have hmap := @map_of_mapM_ok _ _ _ _ _ Json.str (fun v => v) _ _ hdeps fun v _ s hs =>
    (asStr_ok hs).symm
  exact ⟨asStr_ok hid, (List.map_id _).symm.trans hmap.symm, asOptStr_ok hprovider⟩

namespace SameTask

variable {t : Sdk.Stored.Task} {u : Sdk.Task}

/-- The key of the id is the id. -/
theorem key_id (h : SameTask t u) : Sdk.key t.id = .str u.id := by
  rw [h.id]
  rfl

/-- The keys of the dependencies are the dependencies. -/
theorem keys_dependsOn (h : SameTask t u) :
    t.dependsOn.map Sdk.key = u.dependsOn.map Sdk.Key.str := by
  rw [h.dependsOn, List.map_map]
  rfl

/-- A provider that is given is the same text in both forms. -/
theorem given_provider (h : SameTask t u) (hne : u.provider.getD "" ≠ "") :
    Sdk.truthy t.provider = true ∧ Sdk.key t.provider = .str (u.provider.getD "") := by
  rw [h.provider]
  cases hp : u.provider with
  | none =>
      rw [hp] at hne
      exact absurd rfl hne
  | some p =>
      rw [hp] at hne
      exact ⟨decide_eq_true hne, rfl⟩

end SameTask

/-! ### Workflows -/

section Typed

variable {lib : Sdk.PyLib} {m : Sdk.Stored.Workflow} {w : Sdk.Workflow}

/-- The types leave the names of the providers alone. -/
theorem typed_contains (h : m.typed = .ok w) (name : String) :
    w.providers.contains name = m.providers.contains name := by
  obtain ⟨-, -, hproviders, -⟩ := typed_fields h
  obtain ⟨hsome, hnone⟩ := @get?_foldlM_ok _ _ _ _ _
    (fun (_ : String) (p : Sdk.Stored.Provider) => p.typed) name _ _ _ m.providers.nodup hproviders
  rw [Bool.eq_iff_iff, Dict.contains_iff, Dict.contains_iff]
  cases hp : m.providers.get? name with
  | none =>
      rw [show w.providers.get? name = none from hnone hp]
      simp
  | some p =>
      obtain ⟨x, -, hx⟩ := hsome p hp
      rw [hx]
      simp

/-- What is read of the tasks is the same in both forms. -/
theorem typed_tasks {γ : Type} (h : m.typed = .ok w) {f : Sdk.Stored.Task → γ} {g : Sdk.Task → γ}
    (hfg : ∀ t u, SameTask t u → g u = f t) : w.tasks.map g = m.tasks.map f := by
  obtain ⟨-, -, -, -, -, -, htasks⟩ := typed_fields h
  exact map_of_mapM_ok htasks fun t _ u hu => hfg t u (typed_sameTask hu)

/-- Each task has its other form. -/
theorem typed_mem (h : m.typed = .ok w) {u : Sdk.Task} (hu : u ∈ w.tasks) :
    ∃ t ∈ m.tasks, SameTask t u := by
  obtain ⟨-, -, -, -, -, -, htasks⟩ := typed_fields h
  obtain ⟨t, ht, htu⟩ := mem_of_mapM_ok htasks u hu
  exact ⟨t, ht, typed_sameTask htu⟩

/-- The ids of the typed workflow are the keys of the filled one. -/
theorem typed_ids (h : m.typed = .ok w) :
    w.ids.map Sdk.Key.str = m.tasks.map fun t => Sdk.key t.id := by
  show (w.tasks.map (·.id)).map Sdk.Key.str = _
  rw [List.map_map]
  exact typed_tasks h fun t u htu => htu.key_id.symm

/-- The graphs are one, under the keys that the ids are. -/
theorem typed_graph (h : m.typed = .ok w) :
    m.graph.entries = w.graph.entries.map fun e => (Sdk.Key.str e.1, e.2.map Sdk.Key.str) := by
  have hpairs : w.tasks.map (fun u => (Sdk.Key.str u.id, u.dependsOn.map Sdk.Key.str))
      = m.tasks.map fun t => (Sdk.key t.id, t.dependsOn.map Sdk.key) :=
    typed_tasks h fun t u htu => Prod.ext htu.key_id.symm htu.keys_dependsOn.symm
  have hm : m.graph = (m.tasks.map fun t => (Sdk.key t.id, t.dependsOn.map Sdk.key)).foldl
      (fun d e => d.set e.1 e.2) .empty := by
    rw [List.foldl_map]
    rfl
  have hw : w.graph = (w.tasks.map fun u => (u.id, u.dependsOn)).foldl
      (fun d e => d.set e.1 e.2) .empty := by
    rw [List.foldl_map]
    rfl
  rw [hm, hw, ← hpairs]
  -- The keys are renamed one to one, so the dictionary is built in the same way.
  have hrename := Dict.entries_foldl_set_rename key_str_injective (List.map Sdk.Key.str)
    (w.tasks.map fun u => (u.id, u.dependsOn)) .empty .empty rfl
  rw [List.map_map] at hrename
  exact hrename

/-- The nodes of the two graphs are the same. -/
theorem typed_keys (h : m.typed = .ok w) : m.graph.keys = w.graph.keys.map Sdk.Key.str := by
  rw [Dict.keys, Dict.keys, typed_graph h, List.map_map, List.map_map]
  rfl

/-- The edges of the two graphs are the same. -/
theorem typed_deps (h : m.typed = .ok w) (id : String) :
    m.deps (.str id) = (w.deps id).map Sdk.Key.str := by
  show ((Dict.find (Sdk.Key.str id) m.graph.entries).getD []) = _
  rw [typed_graph h, Dict.find_rename key_str_injective]
  show _ = ((Dict.find id w.graph.entries).getD []).map Sdk.Key.str
  cases Dict.find id w.graph.entries <;> rfl

/-- The search ends alike in both forms. -/
theorem typed_assertAcyclic (h : m.typed = .ok w) (hm : m.assertAcyclic lib = .ok ()) :
    w.assertAcyclic lib = .ok () := by
  have hsearch := visitAll_rename key_str_injective (typed_deps h) lib.recursionLimit w.graph.keys
  rw [← typed_keys h] at hsearch
  unfold Sdk.Stored.Workflow.assertAcyclic at hm
  unfold Sdk.Workflow.assertAcyclic
  obtain ⟨c, c', hc, -, -⟩ | ⟨e, -, he⟩ := hsearch
  · rw [hc]
  · rw [he] at hm
    cases e <;> cases hm

/-- A workflow that `validate` accepts as `from_dict` has filled it is accepted with the annotated
types. -/
theorem typed_validates (h : m.typed = .ok w) (hm : m.validate lib = .ok ()) :
    w.validate lib = .ok () := by
  unfold Sdk.Stored.Workflow.validate at hm
  obtain ⟨ids, hids, hm⟩ := except_bind_ok hm
  obtain ⟨-, rfl⟩ := (ids_ok_iff _).mp hids
  split at hm
  · cases hm
  rename_i hnd
  obtain ⟨⟨⟩, htasks, hcycle⟩ := except_bind_ok hm
  obtain ⟨hknown, hprov⟩ := (stored_checkTasks_iff _).mp htasks
  rw [← typed_ids h] at hnd hknown
  -- What holds of each task as it was filled in holds of its other form.
  have hcheck : Sdk.Workflow.checkTasks lib w w.tasks = .ok () := by
    refine (sdk_checkTasks_spec w.tasks).1.mpr ⟨fun u hu d hd => ?_, fun u hu hne => ?_⟩
    · obtain ⟨t, ht, htu⟩ := typed_mem h hu
      have hmem : Json.str d ∈ t.dependsOn := htu.dependsOn ▸ List.mem_map_of_mem hd
      obtain ⟨id, hid, heq⟩ := List.mem_map.mp (hknown t ht _ hmem).2
      exact Sdk.Key.str.inj heq ▸ hid
    · obtain ⟨t, ht, htu⟩ := typed_mem h hu
      obtain ⟨hgiven, hkey⟩ := htu.given_provider hne
      have hdecl := (hprov t ht hgiven).2
      rw [hkey] at hdecl
      rw [typed_contains h]
      exact hdecl
  have hnodup : w.ids.Nodup := (not_not.mp hnd).of_map _
  unfold Sdk.Workflow.validate
  rw [if_neg (not_not_intro hnodup)]
  show (do Sdk.Workflow.checkTasks lib w w.tasks; w.assertAcyclic lib) = _
  rw [hcheck]
  exact typed_assertAcyclic h hcycle

end Typed

/-- A workflow that `from_dict` returns is accepted by its own `validate`. -/
theorem fromDict_validates {lib : Sdk.PyLib} {doc : Json} {w : Sdk.Workflow}
    (h : Sdk.Workflow.fromDict lib doc = .ok w) : w.validate lib = .ok () := by
  obtain ⟨m, hm, htyped⟩ := except_bind_ok h
  obtain ⟨loaded, -, hvalid⟩ := except_bind_ok hm
  obtain ⟨⟨⟩, hvalid, heq⟩ := except_bind_ok hvalid
  cases heq
  exact typed_validates htyped hvalid

end Orchestrator.Proofs
