import Orchestrator.Proofs.DispatchSafety
import Orchestrator.Sdk.Spec

/-!
# `Orchestrator.Proofs.ValidateExact`: the two validators accept the same specs

`ValidTasks` says what a spec has to be, for tasks of any type. Both validators accept exactly
these: `validate_spec` for every order of the map, and `sdk_validate_spec` when the stack has room
for a nested call per task. The search of both is the one of `Lib.Dfs` (`visitAll_tasks`).

A validator is exact in two directions. What it accepts is valid, and what it refuses is not; so for
each of its loops there is a lemma that says when it passes, and one that says how it fails. The
engine has one more way to fail, a stack overflow, and it is shown never to happen, since the search
of the engine has room for every node (`detectCycle_spec`). In Python the depth of the recursion is
bounded by the runtime, and the claim is about specs for which it suffices.

The section `Stored` is about `validate` as `from_dict` runs it, on ids of any type. There a spec
has to be valid by its keys, and a value without a hash ends the check. A validation that does not
run out of stack ends the same way with a deeper one (`validate_stable`).
-/

set_option autoImplicit false

namespace Orchestrator.Proofs

open Orchestrator.Lib Orchestrator.Engine

/-! ### Valid specs -/

section Tasks

variable {T K : Type} {id : T → K} {dependsOn : T → List K}

/-- The dependency relation of some tasks. -/
def DependsOn (id : T → K) (dependsOn : T → List K) (tasks : List T) (t d : K) : Prop :=
  ∃ task ∈ tasks, id task = t ∧ d ∈ dependsOn task

/-- What a spec has to be: distinct ids, dependencies that are tasks, providers that are
declared, and no cycle of dependencies. The empty string is no provider. -/
structure ValidTasks (id : T → K) (dependsOn : T → List K) (provider : T → String)
    (declared : String → Prop) (tasks : List T) : Prop where
  distinct : (tasks.map id).Nodup
  known : ∀ t ∈ tasks, ∀ d ∈ dependsOn t, d ∈ tasks.map id
  providers : ∀ t ∈ tasks, provider t ≠ "" → declared (provider t)
  acyclic : ∀ x, ¬ Relation.TransGen (DependsOn id dependsOn tasks) x x

/-- The search succeeds when there is no cycle, and otherwise it names an edge. -/
theorem visitAll_tasks [DecidableEq K] {tasks : List T}
    (hknown : ∀ t ∈ tasks, ∀ d ∈ dependsOn t, d ∈ tasks.map id) {g : K → List K}
    (hg : ∀ x d, d ∈ g x ↔ DependsOn id dependsOn tasks x d) {order : List K}
    (horder : ∀ x, x ∈ order ↔ x ∈ tasks.map id) {fuel : Nat} (hfuel : tasks.length ≤ fuel) :
    ((∃ c, visitAll g fuel order (fun _ => .white) = .ok c) ↔
        ∀ x, ¬ Relation.TransGen (DependsOn id dependsOn tasks) x x) ∧
      ∀ e, visitAll g fuel order (fun _ => .white) = .error e → ∃ node dep,
      e = .cycle node dep := by
  have hedge : (fun t d => d ∈ g t) = DependsOn id dependsOn tasks := by
    funext t d
    exact propext (hg t d)
  have herror : ∀ e, visitAll g fuel order (fun _ => .white) = .error e → CycleError g e := by
    intro e h
    have hclosed : ∀ x ∈ tasks.map id, ∀ d ∈ g x, d ∈ tasks.map id := by
      intro x _ d hd
      obtain ⟨t, ht, -, hdep⟩ := (hg x d).mp hd
      exact hknown t ht d hdep
    exact visitAll_error hclosed (fun x hx => (horder x).mp hx) (by rwa [List.length_map]) h
  refine ⟨⟨?_, fun hacyclic => ?_⟩, fun e h => ?_⟩
  · rintro ⟨c, hc⟩ x hcycle
    -- A node of a cycle has a dependency, so it is a task.
    obtain ⟨d, ⟨t, ht, rfl, -⟩, -⟩ := (Relation.TransGen.head'_iff).mp hcycle
    have hacc := acyclic_of_visitAll hc (id t) ((horder _).mpr (List.mem_map_of_mem ht))
    rw [← hedge] at hcycle
    exact not_cycle_of_acc hacc hcycle
  · cases hres : visitAll g fuel order (fun _ => .white) with
    | ok c => exact ⟨c, rfl⟩
    | error e =>
        obtain ⟨node, dep, -, x, hcycle⟩ := herror e hres
        rw [hedge] at hcycle
        exact absurd hcycle (hacyclic x)
  · obtain ⟨node, dep, heq, -⟩ := herror e h
    exact ⟨node, dep, heq⟩

end Tasks

/-! ### Go -/

/-- A valid workflow of the engine. -/
def ValidWorkflow (w : Workflow) : Prop :=
  ValidTasks (·.id) (·.dependsOn) (·.provider) (fun p => w.providers.contains p = true) w.tasks

/-- Distinct ids pass the first loop. -/
theorem checkIds_of_nodup : ∀ (ts : List Task) (seen : List String),
    (ts.map (·.id)).Nodup → (∀ t ∈ ts, t.id ∉ seen) → ∃ ids, checkIds ts seen = .ok ids := by
  intro ts
  induction ts with
  | nil => exact fun seen _ _ => ⟨seen, rfl⟩
  | cons t ts ih =>
      intro seen hnd hfresh
      rw [List.map_cons, List.nodup_cons] at hnd
      rw [checkIds, if_neg (hfresh t List.mem_cons_self)]
      refine ih (t.id :: seen) hnd.2 fun t' ht' hm => ?_
      rcases List.mem_cons.mp hm with heq | hm
      · exact hnd.1 (heq ▸ List.mem_map_of_mem ht')
      · exact hfresh t' (List.mem_cons_of_mem t ht') hm

/-- Known dependencies pass the inner loop. -/
theorem checkDeps_of_mem {ids : List String} {t : Task} :
    ∀ deps : List String, (∀ d ∈ deps, d ∈ ids) → checkDeps ids t deps = .ok () := by
  intro deps
  induction deps with
  | nil => intro _; rfl
  | cons dep deps ih =>
      intro h
      rw [checkDeps, if_pos (h dep List.mem_cons_self)]
      exact ih fun d hd => h d (List.mem_cons_of_mem dep hd)

/-- The second loop passes exactly the tasks with known dependencies and declared providers. -/
theorem checkTasks_iff {w : Workflow} {ids : List String} : ∀ ts : List Task,
    checkTasks w ids ts = .ok () ↔ (∀ t ∈ ts, ∀ d ∈ t.dependsOn, d ∈ ids) ∧
      ∀ t ∈ ts, t.provider ≠ "" → w.providers.contains t.provider = true := by
  intro ts
  refine ⟨fun h => ⟨checkTasks_ok ts h, ?_⟩, ?_⟩
  · induction ts with
    | nil => exact fun t ht => by cases ht
    | cons t ts ih =>
        rw [checkTasks] at h
        obtain ⟨⟨⟩, -, h⟩ := except_bind_ok h
        split at h
        · cases h
        · rename_i hprov
          intro t' ht' hne
          rcases List.mem_cons.mp ht' with rfl | ht'
          · by_contra hnot
            exact hprov ⟨hne, by simpa using hnot⟩
          · exact ih h t' ht' hne
  · -- In the other direction both checks of the head pass, and the loop goes on with the rest.
    induction ts with
    | nil => intro _; rfl
    | cons t ts ih =>
        rintro ⟨hdeps, hprov⟩
        rw [checkTasks, checkDeps_of_mem _ (hdeps t List.mem_cons_self)]
        have hskip : ¬ (t.provider ≠ "" ∧ w.providers.contains t.provider = false) := by
          rintro ⟨hne, hnot⟩
          rw [hprov t List.mem_cons_self hne] at hnot
          cases hnot
        simp only [hskip, if_false]
        exact ih ⟨fun t' ht' => hdeps t' (List.mem_cons_of_mem t ht'),
          fun t' ht' => hprov t' (List.mem_cons_of_mem t ht')⟩

/-- `deps` is the dependency relation. -/
theorem mem_deps_iff {w : Workflow} (hnd : w.ids.Nodup) (x d : String) :
    d ∈ w.deps x ↔ DependsOn (·.id) (·.dependsOn) w.tasks x d :=
  mem_getD_foldl_set_iff (fun t : Task => t.id) (fun t => t.dependsOn) hnd

/-- The search visits the tasks, in whatever order. -/
theorem mem_order_iff {w : Workflow} (hnd : w.ids.Nodup) (iter : MapOrder) (x : String) :
    x ∈ iter.order w.dependsOnMap.keys ↔ x ∈ w.tasks.map (·.id) := by
  rw [(iter.perm _).mem_iff]
  exact mem_keys_foldl_set_iff (fun t : Task => t.id) (fun t => t.dependsOn) hnd

/-- The cycle search of the engine is exact, and never runs out of stack. -/
theorem detectCycle_spec {w : Workflow} (hnd : w.ids.Nodup)
    (hknown : ∀ t ∈ w.tasks, ∀ d ∈ t.dependsOn, d ∈ w.tasks.map (·.id)) (iter : MapOrder) :
    (w.detectCycle iter = .ok () ↔
        ∀ x, ¬ Relation.TransGen (DependsOn (·.id) (·.dependsOn) w.tasks) x x) ∧
      w.detectCycle iter ≠ .error .stackOverflow := by
  have hfuel : w.tasks.length ≤ w.tasks.length + 1 := Nat.le_succ _
  obtain ⟨hiff, herror⟩ :=
    visitAll_tasks hknown (mem_deps_iff hnd) (mem_order_iff hnd iter) hfuel
  rw [← hiff]
  unfold Workflow.detectCycle
  cases hres : visitAll w.deps (w.tasks.length + 1) (iter.order w.dependsOnMap.keys)
      (fun _ => .white) with
  | ok c => simp
  | error e =>
      obtain ⟨node, dep, rfl⟩ := herror e hres
      simp

/-- The first loop fails on a duplicate only. -/
theorem checkIds_error : ∀ (ts : List Task) (seen : List String) (e : SpecError),
    checkIds ts seen = .error e → ∃ id, e = .duplicateId id := by
  intro ts
  induction ts with
  | nil =>
      intro _ e h
      cases h
  | cons t ts ih =>
      intro seen e h
      rw [checkIds] at h
      split at h
      · cases h
        exact ⟨t.id, rfl⟩
      · exact ih _ e h

/-- The inner loop fails on an unknown dependency only. -/
theorem checkDeps_error {ids : List String} {t : Task} : ∀ (deps : List String) (e : SpecError),
    checkDeps ids t deps = .error e → ∃ dep, e = .unknownDependency t.id dep := by
  intro deps
  induction deps with
  | nil =>
      intro e h
      cases h
  | cons dep deps ih =>
      intro e h
      rw [checkDeps] at h
      split at h
      · exact ih e h
      · cases h
        exact ⟨dep, rfl⟩

/-- The second loop has stack enough. -/
theorem checkTasks_ne_stackOverflow {w : Workflow} {ids : List String} :
    ∀ ts : List Task, checkTasks w ids ts ≠ .error .stackOverflow := by
  intro ts
  induction ts with
  | nil =>
      intro h
      cases h
  | cons t ts ih =>
      intro h
      rw [checkTasks] at h
      rcases except_bind_error h with h | ⟨⟨⟩, -, h⟩
      · obtain ⟨dep, heq⟩ := checkDeps_error _ _ h
        cases heq
      · split at h
        · cases h
        · exact ih h

/-- `Validate` accepts exactly the valid workflows, and never runs out of stack. -/
theorem validate_spec (w : Workflow) (iter : MapOrder) :
    (w.validate iter = .ok () ↔ ValidWorkflow w) ∧ w.validate iter ≠ .error .stackOverflow := by
  constructor
  · constructor
    · intro h
      have hacc := accepted_of_validate h
      rw [Workflow.validate] at h
      obtain ⟨ids, -, h⟩ := except_bind_ok h
      obtain ⟨⟨⟩, htasks, hcycle⟩ := except_bind_ok h
      exact ⟨hacc.ids_nodup, hacc.deps_mem, ((checkTasks_iff _).mp htasks).2,
        (detectCycle_spec hacc.ids_nodup hacc.deps_mem iter).1.mp hcycle⟩
    · intro hvalid
      obtain ⟨ids, hids⟩ := checkIds_of_nodup w.tasks [] hvalid.distinct
        fun t _ hm => by cases hm
      have hmem := (checkIds_ok w.tasks [] ids List.nodup_nil hids).2.2
      have htasks : checkTasks w ids w.tasks = .ok () := (checkTasks_iff _).mpr
        ⟨fun t ht d hd => (hmem d).mpr (Or.inl (hvalid.known t ht d hd)), hvalid.providers⟩
      rw [Workflow.validate, hids]
      show (do checkTasks w ids w.tasks; w.detectCycle iter) = _
      rw [htasks]
      exact (detectCycle_spec hvalid.distinct hvalid.known iter).1.mpr hvalid.acyclic
  · -- The search is deep enough for the graph of a workflow whose dependencies are all known, and
    -- the check for them comes first.
    intro h
    rw [Workflow.validate] at h
    rcases except_bind_error h with h | ⟨ids, hids, h⟩
    · obtain ⟨id, heq⟩ := checkIds_error _ _ _ h
      cases heq
    · obtain ⟨hnd, -, hmem⟩ := checkIds_ok w.tasks [] ids List.nodup_nil hids
      rcases except_bind_error h with h | ⟨⟨⟩, htasks, h⟩
      · exact checkTasks_ne_stackOverflow _ h
      · refine (detectCycle_spec hnd (fun t ht d hd => ?_) iter).2 h
        simpa using (hmem d).mp (checkTasks_ok _ htasks t ht d hd)

/-! ### Python -/

/-- A valid workflow of the SDK. A task without a provider has none to declare. -/
def ValidSdkWorkflow (w : Sdk.Workflow) : Prop :=
  ValidTasks (·.id) (·.dependsOn) (fun t => t.provider.getD "")
    (fun p => w.providers.contains p = true) w.tasks

/-- The loop over the tasks passes exactly those with known dependencies and declared providers,
and raises `SpecError` otherwise. -/
theorem sdk_checkTasks_spec {lib : Sdk.PyLib} {w : Sdk.Workflow} : ∀ ts : List Sdk.Task,
    (Sdk.Workflow.checkTasks lib w ts = .ok () ↔ (∀ t ∈ ts, ∀ d ∈ t.dependsOn, d ∈ w.ids) ∧
        ∀ t ∈ ts, t.provider.getD "" ≠ "" → w.providers.contains (t.provider.getD "") = true) ∧
      ∀ e, Sdk.Workflow.checkTasks lib w ts = .error e → ∃ msg, e = .specError msg := by
  intro ts
  induction ts with
  | nil => exact ⟨by simp [Sdk.Workflow.checkTasks], fun e h => by cases h⟩
  | cons t ts ih =>
      rw [Sdk.Workflow.checkTasks]
      -- The loop stops at the first dependency that is not declared, or else at an unknown
      -- provider.
      cases hfind : t.dependsOn.find? (fun dep => dep ∉ w.ids) with
      | some dep =>
          have hdep := List.find?_some hfind
          refine ⟨⟨fun h => (by cases h), fun h => ?_⟩, fun e h => ?_⟩
          · have hmem := h.1 t List.mem_cons_self dep (List.mem_of_find?_eq_some hfind)
            simp [hmem] at hdep
          · cases h
            exact ⟨_, rfl⟩
      | none =>
          have hdeps : ∀ d ∈ t.dependsOn, d ∈ w.ids := by
            simpa using List.find?_eq_none.mp hfind
          simp only
          split
          · rename_i hprov
            refine ⟨⟨fun h => (by cases h), fun h => ?_⟩, fun e h => ?_⟩
            · have hdecl := h.2 t List.mem_cons_self hprov.1
              rw [hprov.2] at hdecl
              cases hdecl
            · cases h
              exact ⟨_, rfl⟩
          · rename_i hprov
            refine ⟨?_, ih.2⟩
            have hdecl : t.provider.getD "" ≠ "" →
                w.providers.contains (t.provider.getD "") = true := fun hne => by
              by_contra hnot
              exact hprov ⟨hne, by simpa using hnot⟩
            rw [ih.1, List.forall_mem_cons, List.forall_mem_cons]
            tauto

/-- `validate` accepts exactly the valid workflows and raises `SpecError` for the others, when the
stack has room for a nested call per task. -/
theorem sdk_validate_spec (w : Sdk.Workflow) (lib : Sdk.PyLib)
    (hdepth : w.tasks.length ≤ lib.recursionLimit) :
    (w.validate lib = .ok () ↔ ValidSdkWorkflow w) ∧
      ∀ e, w.validate lib = .error e → ∃ msg, e = .specError msg := by
  -- With as many tasks as the recursion may be deep, the search comes to an end by itself.
  have hacyclic : w.ids.Nodup → (∀ t ∈ w.tasks, ∀ d ∈ t.dependsOn, d ∈ w.tasks.map (·.id)) →
      (w.assertAcyclic lib = .ok () ↔
        ∀ x, ¬ Relation.TransGen (DependsOn (·.id) (·.dependsOn) w.tasks) x x) ∧
      ∀ e, w.assertAcyclic lib = .error e → ∃ msg, e = .specError msg := by
    intro hnd hknown
    have hdeps : ∀ x d, d ∈ w.deps x ↔ DependsOn (·.id) (·.dependsOn) w.tasks x d :=
      fun _ _ => mem_getD_foldl_set_iff (fun t : Sdk.Task => t.id) (fun t => t.dependsOn) hnd
    have horder : ∀ x, x ∈ w.graph.keys ↔ x ∈ w.tasks.map (·.id) :=
      fun _ => mem_keys_foldl_set_iff (fun t : Sdk.Task => t.id) (fun t => t.dependsOn) hnd
    obtain ⟨hiff, herror⟩ := visitAll_tasks hknown hdeps horder hdepth
    rw [← hiff]
    unfold Sdk.Workflow.assertAcyclic
    cases hres : visitAll w.deps lib.recursionLimit w.graph.keys (fun _ => .white) with
    | ok c => simp
    | error e =>
        obtain ⟨node, dep, rfl⟩ := herror e hres
        simp
  obtain ⟨htasks, htasksError⟩ := @sdk_checkTasks_spec lib w w.tasks
  unfold Sdk.Workflow.validate
  -- The ids are compared first, as in the code.
  by_cases hnd : w.ids.Nodup
  · simp only [hnd, not_true, if_false]
    show ((do Sdk.Workflow.checkTasks lib w w.tasks; w.assertAcyclic lib) = .ok () ↔ _) ∧
      ∀ e, (do Sdk.Workflow.checkTasks lib w w.tasks; w.assertAcyclic lib) = .error e → _
    refine ⟨⟨fun h => ?_, fun hvalid => ?_⟩, fun e h => ?_⟩
    · obtain ⟨⟨⟩, hcheck, hcycle⟩ := except_bind_ok h
      obtain ⟨hknown, hprov⟩ := htasks.mp hcheck
      exact ⟨hnd, hknown, hprov, (hacyclic hnd hknown).1.mp hcycle⟩
    · rw [htasks.mpr ⟨hvalid.known, hvalid.providers⟩]
      exact (hacyclic hnd hvalid.known).1.mpr hvalid.acyclic
    · rcases except_bind_error h with h | ⟨⟨⟩, hcheck, h⟩
      · exact htasksError e h
      · exact (hacyclic hnd (htasks.mp hcheck).1).2 e h
  · simp only [hnd, not_false_eq_true, if_true]
    refine ⟨⟨fun h => (by cases h), fun hvalid => absurd hvalid.distinct hnd⟩, fun e h => ?_⟩
    cases h
    exact ⟨_, rfl⟩

/-! ### Python, before the types are known -/

section Stored

variable {lib : Sdk.PyLib} {w : Sdk.Stored.Workflow}

/-- What `validate` wants of a workflow as `from_dict` fills it: the ids and dependencies have
hashes, the ids are distinct, the dependencies are tasks, the providers are declared, and there is
no cycle. What counts as one id is decided by the keys. -/
structure ValidStored (w : Sdk.Stored.Workflow) : Prop where
  hashable : ∀ t ∈ w.tasks, Sdk.isHashable t.id = true
  distinct : (w.tasks.map fun t => Sdk.key t.id).Nodup
  known : ∀ t ∈ w.tasks, ∀ d ∈ t.dependsOn, Sdk.isHashable d = true ∧
    Sdk.key d ∈ w.tasks.map fun t => Sdk.key t.id
  providers : ∀ t ∈ w.tasks, Sdk.truthy t.provider = true →
    Sdk.isHashable t.provider = true ∧ w.declares (Sdk.key t.provider) = true
  acyclic : ∀ x, ¬ Relation.TransGen
    (DependsOn (fun t => Sdk.key t.id) (fun t => t.dependsOn.map Sdk.key) w.tasks) x x

/-- A value with a hash has a key. -/
theorem pyKey_of_hashable {v : Json} (h : Sdk.isHashable v = true) :
    Sdk.pyKey v = .ok (Sdk.key v) :=
  if_pos h

/-- A value whose key was found has a hash. -/
theorem pyKey_ok {v : Json} {k : Sdk.Key} (h : Sdk.pyKey v = .ok k) :
    Sdk.isHashable v = true ∧ Sdk.key v = k := by
  unfold Sdk.pyKey at h
  split at h
  · rename_i hv
    exact ⟨hv, Except.ok.inj h⟩
  · cases h

/-- The set of the ids can be made when they all have hashes. -/
theorem ids_ok_iff {ids : List Sdk.Key} : ∀ ts : List Sdk.Stored.Task,
    ts.mapM (fun t => Sdk.pyKey t.id) = .ok ids ↔
      (∀ t ∈ ts, Sdk.isHashable t.id = true) ∧ ids = ts.map fun t => Sdk.key t.id := by
  intro ts
  constructor
  · intro h
    induction ts generalizing ids with
    | nil =>
        cases h
        exact ⟨fun t ht => (by cases ht), rfl⟩
    | cons t ts ih =>
        -- Each id has to be hashable before it can be a member of the set.
        rw [List.mapM_cons] at h
        obtain ⟨k, hk, h⟩ := except_bind_ok h
        obtain ⟨ks, hks, h⟩ := except_bind_ok h
        cases h
        obtain ⟨hhash, rfl⟩ := ih hks
        obtain ⟨ht, rfl⟩ := pyKey_ok hk
        exact ⟨List.forall_mem_cons.mpr ⟨ht, hhash⟩, rfl⟩
  · rintro ⟨hhash, rfl⟩
    induction ts with
    | nil => rfl
    | cons t ts ih =>
        rw [List.mapM_cons, pyKey_of_hashable (hhash t List.mem_cons_self), ok_bind,
          ih fun t' ht' => hhash t' (List.mem_cons_of_mem t ht'), ok_bind]
        rfl

/-- The loop over the dependencies of a task passes those that have a hash and are tasks. -/
theorem stored_checkDeps_iff {ids : List Sdk.Key} {t : Sdk.Stored.Task} : ∀ deps : List Json,
    Sdk.Stored.Workflow.checkDeps lib ids t deps = .ok () ↔
      ∀ d ∈ deps, Sdk.isHashable d = true ∧ Sdk.key d ∈ ids := by
  intro deps
  induction deps with
  | nil => exact iff_of_true rfl fun d hd => by cases hd
  | cons dep deps ih =>
      rw [Sdk.Stored.Workflow.checkDeps, List.forall_mem_cons, ← ih]
      by_cases hhash : Sdk.isHashable dep = true
      · rw [pyKey_of_hashable hhash, ok_bind]
        by_cases hmem : Sdk.key dep ∈ ids
        · rw [if_neg (not_not_intro hmem)]
          exact ⟨fun h => ⟨⟨hhash, hmem⟩, h⟩, fun h => h.2⟩
        · rw [if_pos hmem]
          exact iff_of_false (fun h => by cases h) fun h => hmem h.1.2
      · rw [show Sdk.pyKey dep = .error .typeError from if_neg hhash]
        exact iff_of_false (fun h => by cases h) fun h => hhash h.1.1

/-- The loop over the tasks passes those with such dependencies and a declared provider. -/
theorem stored_checkTasks_iff {ids : List Sdk.Key} : ∀ ts : List Sdk.Stored.Task,
    Sdk.Stored.Workflow.checkTasks lib w ids ts = .ok () ↔
      (∀ t ∈ ts, ∀ d ∈ t.dependsOn, Sdk.isHashable d = true ∧ Sdk.key d ∈ ids) ∧
        ∀ t ∈ ts, Sdk.truthy t.provider = true →
          Sdk.isHashable t.provider = true ∧ w.declares (Sdk.key t.provider) = true := by
  intro ts
  induction ts with
  | nil => exact iff_of_true rfl ⟨fun t ht => (by cases ht), fun t ht => (by cases ht)⟩
  | cons t ts ih =>
      rw [Sdk.Stored.Workflow.checkTasks, List.forall_mem_cons, List.forall_mem_cons,
        and_and_and_comm, ← ih, ← @stored_checkDeps_iff lib]
      cases hdeps : Sdk.Stored.Workflow.checkDeps lib ids t t.dependsOn with
      | error e => exact iff_of_false (fun h => by cases h) fun h => by cases h.1.1
      | ok u =>
          rw [ok_bind]
          -- A falsy provider counts as none and is not looked up.
          by_cases hgiven : Sdk.truthy t.provider = true
          · rw [if_pos hgiven]
            by_cases hhash : Sdk.isHashable t.provider = true
            · rw [pyKey_of_hashable hhash, ok_bind]
              by_cases hdecl : w.declares (Sdk.key t.provider) = true
              · rw [if_neg (by simp [hdecl])]
                exact ⟨fun h => ⟨⟨rfl, fun _ => ⟨hhash, hdecl⟩⟩, h⟩, fun h => h.2⟩
              · rw [if_pos (by simpa using hdecl)]
                exact iff_of_false (fun h => by cases h) fun h => hdecl (h.1.2 hgiven).2
            · rw [show Sdk.pyKey t.provider = .error .typeError from if_neg hhash]
              exact iff_of_false (fun h => by cases h) fun h => hhash (h.1.2 hgiven).1
          · rw [if_neg hgiven]
            exact ⟨fun h => ⟨⟨rfl, fun h => absurd h hgiven⟩, h⟩, fun h => h.2⟩

/-- The search over the keys is exact where the stack has room for a nested call per task. -/
theorem stored_assertAcyclic_iff (hnd : (w.tasks.map fun t => Sdk.key t.id).Nodup)
    (hknown : ∀ t ∈ w.tasks, ∀ d ∈ t.dependsOn.map Sdk.key,
      d ∈ w.tasks.map fun t => Sdk.key t.id)
    (hdepth : w.tasks.length ≤ lib.recursionLimit) :
    w.assertAcyclic lib = .ok () ↔ ∀ x, ¬ Relation.TransGen
      (DependsOn (fun t => Sdk.key t.id) (fun t => t.dependsOn.map Sdk.key) w.tasks) x x := by
  have hdeps : ∀ x d, d ∈ w.deps x ↔
      DependsOn (fun t => Sdk.key t.id) (fun t => t.dependsOn.map Sdk.key) w.tasks x d :=
    fun _ _ => mem_getD_foldl_set_iff (fun t : Sdk.Stored.Task => Sdk.key t.id)
      (fun t => t.dependsOn.map Sdk.key) hnd
  have horder : ∀ x, x ∈ w.graph.keys ↔ x ∈ w.tasks.map fun t => Sdk.key t.id :=
    fun _ => mem_keys_foldl_set_iff (fun t : Sdk.Stored.Task => Sdk.key t.id)
      (fun t => t.dependsOn.map Sdk.key) hnd
  -- The search is the same as for typed ids; only the keys differ.
  obtain ⟨hiff, herror⟩ := visitAll_tasks hknown hdeps horder hdepth
  rw [← hiff]
  unfold Sdk.Stored.Workflow.assertAcyclic
  cases hres : visitAll w.deps lib.recursionLimit w.graph.keys (fun _ => .white) with
  | ok c => simp
  | error e =>
      obtain ⟨node, dep, rfl⟩ := herror e hres
      simp

/-- `validate` accepts exactly these workflows, when the stack has room for a nested call per
task. -/
theorem stored_validate_iff (hdepth : w.tasks.length ≤ lib.recursionLimit) :
    w.validate lib = .ok () ↔ ValidStored w := by
  unfold Sdk.Stored.Workflow.validate
  constructor
  · intro h
    obtain ⟨ids, hids, h⟩ := except_bind_ok h
    obtain ⟨hhash, rfl⟩ := (ids_ok_iff _).mp hids
    split at h
    · cases h
    · rename_i hnd
      obtain ⟨⟨⟩, htasks, hcycle⟩ := except_bind_ok h
      obtain ⟨hknown, hprov⟩ := (stored_checkTasks_iff _).mp htasks
      refine ⟨hhash, not_not.mp hnd, hknown, hprov,
        (stored_assertAcyclic_iff (not_not.mp hnd) (fun t ht d hd => ?_) hdepth).mp hcycle⟩
      obtain ⟨v, hv, rfl⟩ := List.mem_map.mp hd
      exact (hknown t ht v hv).2
  · intro hvalid
    -- In the other direction every check in turn passes.
    rw [(ids_ok_iff w.tasks).mpr ⟨hvalid.hashable, rfl⟩, ok_bind,
      if_neg (not_not_intro hvalid.distinct)]
    show (do Sdk.Stored.Workflow.checkTasks lib w _ w.tasks; w.assertAcyclic lib) = _
    rw [(stored_checkTasks_iff _).mpr ⟨hvalid.known, hvalid.providers⟩, ok_bind]
    refine (stored_assertAcyclic_iff hvalid.distinct
      (fun t ht d hd => ?_) hdepth).mpr hvalid.acyclic
    obtain ⟨v, hv, rfl⟩ := List.mem_map.mp hd
    exact (hvalid.known t ht v hv).2

/-- A validation that does not run out of stack ends the same way with a deeper one. -/
theorem validate_stable {limit : Nat} (hle : lib.recursionLimit ≤ limit)
    (h : w.validate lib ≠ .error .recursionError) :
    w.validate { lib with recursionLimit := limit } = w.validate lib := by
  have hdeps : ∀ ids t deps,
    Sdk.Stored.Workflow.checkDeps { lib with recursionLimit := limit } ids t
      deps = Sdk.Stored.Workflow.checkDeps lib ids t deps := by
    intro ids t deps
    induction deps with
    | nil => rfl
    | cons dep deps ih => simp only [Sdk.Stored.Workflow.checkDeps, ih]
  have hcheck : ∀ ids ts,
    Sdk.Stored.Workflow.checkTasks { lib with recursionLimit := limit } w ids ts
      = Sdk.Stored.Workflow.checkTasks lib w ids ts := by
    intro ids ts
    induction ts with
    | nil => rfl
    | cons t ts ih => simp only [Sdk.Stored.Workflow.checkTasks, hdeps, ih]
  unfold Sdk.Stored.Workflow.validate at h ⊢
  cases hids : w.tasks.mapM fun t => Sdk.pyKey t.id with
  | error e => rfl
  | ok ids =>
      rw [hids, ok_bind] at h
      rw [ok_bind, ok_bind]
      by_cases hnd : ids.Nodup
      · rw [if_neg (not_not_intro hnd)] at h
        rw [if_neg (not_not_intro hnd), if_neg (not_not_intro hnd)]
        show (do Sdk.Stored.Workflow.checkTasks { lib with recursionLimit := limit } w ids w.tasks
                 w.assertAcyclic { lib with recursionLimit := limit })
          = (do Sdk.Stored.Workflow.checkTasks lib w ids w.tasks
                w.assertAcyclic lib)
        replace h : (do Sdk.Stored.Workflow.checkTasks lib w ids w.tasks
                        w.assertAcyclic lib) ≠ .error .recursionError := h
        rw [hcheck]
        cases hts : Sdk.Stored.Workflow.checkTasks lib w ids w.tasks with
        | error e => rfl
        | ok u =>
            rw [hts] at h
            -- Only the search depends on the stack.
            have hsearch : visitAll w.deps lib.recursionLimit w.graph.keys (fun _ => .white)
                ≠ .error .outOfFuel := by
              intro hfuel
              refine h ?_
              show w.assertAcyclic lib = _
              unfold Sdk.Stored.Workflow.assertAcyclic
              rw [hfuel]
            show w.assertAcyclic { lib with recursionLimit := limit } = w.assertAcyclic lib
            unfold Sdk.Stored.Workflow.assertAcyclic
            rw [visitAll_stable hle _ _ hsearch]
      · rw [if_pos hnd, if_pos hnd]
        rfl

/-- `validate` passes these workflows only, and it raises for the others, or at the end of the
stack. -/
theorem stored_validate_sound :
    (w.validate lib = .ok () → ValidStored w) ∧
      ∀ e, w.validate lib = .error e → e = .recursionError ∨ ¬ ValidStored w := by
  -- With a limit that suffices the validator is exact, and a larger limit changes no answer but the
  -- recursion error.
  have hiff := @stored_validate_iff
    { lib with recursionLimit := lib.recursionLimit + w.tasks.length }
    w (Nat.le_add_left _ _)
  have hstable := fun h => @validate_stable lib w (lib.recursionLimit + w.tasks.length)
    (Nat.le_add_right _ _) h
  constructor
  · intro h
    rw [← hiff, hstable (by rw [h]; simp), h]
  · intro e h
    by_cases he : e = .recursionError
    · exact Or.inl he
    · have hsame := hstable (by rw [h]; simpa using he)
      rw [h] at hsame
      refine Or.inr fun hvalid => ?_
      rw [← hiff, hsame] at hvalid
      cases hvalid

end Stored

/-- Both validators accept exactly the valid specs. Neither runs out of stack, Python raises nothing
but `SpecError`, and the order of the map does not matter to Go.

A valid spec has distinct ids, known dependencies and providers, and no cycle. The search for a
cycle is the same in both engines and in the library (`Orchestrator.Lib.Dfs`). It is deep enough for
the tasks there are, in Python as long as the recursion limit is not below their number. -/
theorem validate_exact (w : Workflow) (sw : Sdk.Workflow) (lib : Sdk.PyLib)
    (hdepth : sw.tasks.length ≤ lib.recursionLimit) :
    (∀ iter, (w.validate iter = .ok () ↔ ValidWorkflow w) ∧
        w.validate iter ≠ .error .stackOverflow) ∧
      (∀ iter iter', w.validate iter = .ok () ↔ w.validate iter' = .ok ()) ∧
      (sw.validate lib = .ok () ↔ ValidSdkWorkflow sw) ∧
      ∀ e, sw.validate lib = .error e → ∃ msg, e = .specError msg :=
  ⟨validate_spec w, fun iter iter' => (validate_spec w iter).1.trans (validate_spec w iter').1.symm,
    sdk_validate_spec sw lib hdepth⟩

/-- Two tasks of the SDK that wait for each other, which is the shortest cycle that is not a
loop. -/
def mutualTasks : Sdk.Workflow where
  name := "w"
  tasks := [{ id := "a", skill := "s", dependsOn := ["b"] },
    { id := "b", skill := "s", dependsOn := ["a"] }]

/-- A Python with room for a thousand nested calls, as an interpreter has it by default. -/
def shallowLib : Sdk.PyLib where
  decimal _ := none
  repr _ := ""
  dumps _ := ""
  recursionLimit := 1000

/-- Both validators refuse them. -/
theorem validate_exact_mutualTasks :
    (plainWorkflow [plainTask "a" ["b"] "", plainTask "b" ["a"] ""]).validate .insertion ≠ .ok () ∧
      ¬ ValidWorkflow (plainWorkflow [plainTask "a" ["b"] "", plainTask "b" ["a"] ""]) ∧
      mutualTasks.validate shallowLib ≠ .ok () ∧ ¬ ValidSdkWorkflow mutualTasks := by
  obtain ⟨hgo, -, hpython, -⟩ := validate_exact
    (plainWorkflow [plainTask "a" ["b"] "", plainTask "b" ["a"] ""]) mutualTasks shallowLib
    (by decide)
  have hgoFails : (plainWorkflow
      [plainTask "a" ["b"] "", plainTask "b" ["a"] ""]).validate .insertion ≠ .ok () := by
    decide
  have hpythonFails : mutualTasks.validate shallowLib ≠ .ok () := by
    intro h
    have hnone : (mutualTasks.validate shallowLib).toOption = none := by rfl
    rw [h] at hnone
    cases hnone
  exact ⟨hgoFails, fun h => hgoFails ((hgo _).1.mpr h), hpythonFails,
    fun h => hpythonFails (hpython.mpr h)⟩

end Orchestrator.Proofs
