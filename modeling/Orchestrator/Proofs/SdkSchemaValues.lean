import Orchestrator.Proofs.SchemaValues

/-!
# `Orchestrator.Proofs.SdkSchemaValues`: the constraints of the schema in the Python loader

`from_dict` converts the numbers with `int()` and stores the other values as they come, of whatever
type. Like `Parse` it tests no constraint: a document that keeps them gives a workflow that meets
them (`sdk_meets`), and the other documents are refused for other reasons only: a value that cannot
be converted, a workflow that `validate` raises for, or a stack that is too small for it
(`sdk_refuses_iff`). `constraints_enforced_iff` puts the two loaders side by side.

Since `from_dict` goes on with values of the wrong type, the constraints are about the values that
it has stored, and one of another type breaks them. `sdkReader` says how the loader reads a
dictionary: an empty one counts as none, and the token budget of a rate limit is stored unconverted.

The lemmas follow the classes, from the members (`pyInt_meets`, `given_meets`, `item_meets`) over
the objects to the whole document (`load_meets`). An object that is not there, or is no dictionary,
either gives a default that meets the constraints or ends the load, so that nothing has to be known
about it.
-/

set_option autoImplicit false

namespace Orchestrator.Proofs

open Orchestrator.Lib Orchestrator.Engine

/-- How `from_dict` reads a dictionary. An empty one counts as none, and the token budget is stored
as it comes. -/
def sdkReader (lib : Sdk.PyLib) : Reader where
  values _ key ms := (Dict.find key ms).toList
  int v := (Sdk.pyInt lib v).toOption
  count := some
  object v := (membersOf v).filter fun ms => !ms.isEmpty

/-- A value, or nothing for `None`. -/
def given : Json → Option Json
  | .null => none
  | v => some v

/-- The constrained values of a workflow as `from_dict` fills it. A value that is absent or empty is
not among them. -/
def sdkValues (w : Sdk.Stored.Workflow) : Loaded where
  ids := w.tasks.map (·.id)
  onErrors := (w.defaultOnError :: w.tasks.map (·.onError)).filterMap given
  retries := (w.defaultRetry :: w.tasks.filterMap (·.retry)).map fun r => (r.max, given r.backoff)
  limits := (w.rateLimit.toList ++ w.providers.entries.filterMap (·.2.rateLimit)).map fun l =>
    (l.requests, given l.tokens)
  maxParallel := w.maxParallel

/-- The values of a retry policy. -/
structure SdkRetryMeets (r : Sdk.Stored.Retry) : Prop where
  max : constraint SpecSchema.retryProperties "max" (.num r.max) = true
  backoff : ∀ v ∈ given r.backoff, constraint SpecSchema.retryProperties "backoff" v = true

/-- The values of a rate limit. -/
structure SdkLimitMeets (l : Sdk.Stored.RateLimit) : Prop where
  requests : constraint SpecSchema.rateLimitProperties "requests" (.num l.requests) = true
  tokens : ∀ v ∈ given l.tokens, constraint SpecSchema.rateLimitProperties "tokens" v = true

/-- The values of a task meet the constraints. -/
structure SdkTaskMeets (t : Sdk.Stored.Task) : Prop where
  id : constraint SpecSchema.taskProperties "id" t.id = true
  onError : ∀ v ∈ given t.onError, SpecSchema.onError v = true
  retry : ∀ r ∈ t.retry, SdkRetryMeets r

/-! ### Members -/

section Members

variable {lib : Sdk.PyLib} {properties : List (String × Schema)} {key : String}
  {ms : List (String × Json)}

/-- A dictionary that is not empty is read as an object. -/
theorem sdk_object_obj (hne : ms ≠ []) : (sdkReader lib).object (.obj ms) = some ms := by
  show Option.filter (fun ms => !ms.isEmpty) (some ms) = some ms
  rw [Option.filter_some_pos (by simpa using hne)]

/-- The one value of a property. -/
theorem mem_sdkValues {v : Json} : v ∈ (sdkReader lib).valuesOf properties key ms ↔
    Dict.find key ms = some v := by
  show v ∈ (Dict.find key ms).toList ↔ _
  rw [Option.mem_toList]

/-- In the empty dictionary no property has a value. -/
theorem no_values {P : Json → Prop} :
    ∀ v ∈ (sdkReader lib).valuesOf properties key [], P v :=
  fun _ hv => by cases mem_sdkValues.mp hv

/-- An integer that `int()` makes of a member. -/
theorem pyInt_meets (hf : (sdkReader lib).Field properties key (asNumber (sdkReader lib).int) ms)
    {v : Json} (hv : Dict.find key ms = some v) {n : Int} (h : Sdk.pyInt lib v = .ok n) :
    constraint properties key (.num n) = true := by
  rcases hf v (mem_sdkValues.mpr hv) with rfl | ⟨x, hx, hs⟩
  · cases h
  · obtain ⟨m, hm, rfl⟩ := Option.map_eq_some_iff.mp hx
    have hnm : some m = some n := hm.symm.trans (by
      show (Sdk.pyInt lib v).toOption = some n
      rw [h]
      rfl)
    rw [← Option.some.inj hnm]
    exact hs

/-- The same with a default for an absent member. -/
theorem pyInt_getD_meets
    (hf : (sdkReader lib).Field properties key (asNumber (sdkReader lib).int) ms) {d n : Int}
    (hd : constraint properties key (.num d) = true)
    (h : Sdk.pyInt lib ((Dict.find key ms).getD (.num d)) = .ok n) :
    constraint properties key (.num n) = true := by
  cases hv : Dict.find key ms with
  | none =>
      rw [hv] at h
      have hdn : d = n := Except.ok.inj h
      exact hdn ▸ hd
  | some v =>
      rw [hv] at h
      exact pyInt_meets hf hv h

/-- A value that is stored as it comes, with a default for an absent member. -/
theorem given_meets (hf : (sdkReader lib).Field properties key some ms) {d : Json}
    (hd : ∀ v ∈ given d, constraint properties key v = true) :
    ∀ v ∈ given ((Dict.find key ms).getD d), constraint properties key v = true := by
  cases hv : Dict.find key ms with
  | none => exact hd
  | some v =>
      rcases hf v (mem_sdkValues.mpr hv) with rfl | ⟨x, hx, hs⟩
      · intro x hx
        cases hx
      · cases hx
        intro x hx
        cases v <;> cases hx <;> exact hs

/-- A value that has to be there. -/
theorem item_meets (hf : (sdkReader lib).Field properties key some ms)
    (hgiven : (sdkReader lib).Given properties key ms) {v : Json}
    (hv : Dict.find key ms = some v) : constraint properties key v = true := by
  obtain ⟨x, hx, hne⟩ := hgiven
  obtain rfl : v = x := Option.some.inj (hv.symm.trans (mem_sdkValues.mp hx))
  obtain ⟨y, hy, hs⟩ := (hf v hx).resolve_left hne
  cases hy
  exact hs

end Members

/-! ### Objects -/

section Objects

variable {lib : Sdk.PyLib}

/-- A lookup needs a dictionary. -/
theorem pyGet_ok {d default v : Json} {key : String} (h : Sdk.pyGet d key default = .ok v) :
    ∃ ms, d = .obj ms ∧ v = (Dict.find key ms).getD default := by
  cases d with
  | obj ms => exact ⟨ms, rfl, (Except.ok.inj h).symm⟩
  | _ => cases h

/-- An item that was found is a member of a dictionary. -/
theorem pyItem_ok {d v : Json} {key : String} (h : Sdk.pyItem d key = .ok v) :
    ∃ ms, d = .obj ms ∧ Dict.find key ms = some v := by
  cases d with
  | obj ms =>
      refine ⟨ms, rfl, ?_⟩
      unfold Sdk.pyItem at h
      cases hf : Dict.find key ms with
      | none =>
          simp only [hf] at h
          cases h
      | some x =>
          simp only [hf] at h
          exact congrArg some (Except.ok.inj h)
  | _ => cases h

/-- A retry object. Another value is none, or raises. -/
theorem retry_fromDict_meets {d : Json}
    (hk : ∀ ms, (sdkReader lib).object d = some ms → (sdkReader lib).RetryKept ms)
    {o : Option Sdk.Stored.Retry} (h : Sdk.Stored.Retry.fromDict lib d = .ok o) :
    ∀ r ∈ o, SdkRetryMeets r := by
  unfold Sdk.Stored.Retry.fromDict at h
  -- A falsy value counts as none, so only an object with members has to be looked at.
  split at h
  · rename_i htruthy
    cases d with
    | obj ms =>
        have hkept := hk ms (sdk_object_obj (by simpa [Sdk.truthy] using htruthy))
        simp only [Sdk.pyGet, ok_bind] at h
        obtain ⟨max, hmax, h⟩ := except_bind_ok h
        obtain ⟨base, -, h⟩ := except_bind_ok h
        cases h
        intro r hr
        cases hr
        refine ⟨pyInt_getD_meets (d := 0) hkept.max rfl (by exact_mod_cast hmax),
          given_meets hkept.backoff fun v hv => ?_⟩
        cases hv
        rfl
    | _ => cases h
  · cases h
    intro r hr
    cases hr

/-- A rate limit. -/
theorem rateLimit_fromDict_meets {d : Json}
    (hk : ∀ ms, (sdkReader lib).object d = some ms → (sdkReader lib).LimitKept ms)
    {o : Option Sdk.Stored.RateLimit} (h : Sdk.Stored.RateLimit.fromDict lib d = .ok o) :
    ∀ l ∈ o, SdkLimitMeets l := by
  unfold Sdk.Stored.RateLimit.fromDict at h
  split at h
  · rename_i htruthy
    cases d with
    | obj ms =>
        have hkept := hk ms (sdk_object_obj (by simpa [Sdk.truthy] using htruthy))
        obtain ⟨v, hv, h⟩ := except_bind_ok h
        obtain ⟨requests, hrequests, h⟩ := except_bind_ok h
        obtain ⟨w, -, h⟩ := except_bind_ok h
        obtain ⟨per, -, h⟩ := except_bind_ok h
        simp only [Sdk.pyGet, ok_bind] at h
        obtain ⟨perTokens, -, h⟩ := except_bind_ok h
        cases h
        intro l hl
        cases hl
        obtain ⟨ms', heq, hfind⟩ := pyItem_ok hv
        cases heq
        -- `requests` is read with brackets, so it is given; `tokens` is read with `get`.
        refine ⟨pyInt_meets hkept.requests hfind hrequests,
          given_meets hkept.tokens fun v hv => ?_⟩
        cases hv
    | _ => cases h
  · cases h
    intro l hl
    cases hl

/-- The object that a member is, if it is one. -/
theorem inside_getD {P : List (String × Json) → Prop} {properties : List (String × Schema)}
    {key : String} {ms : List (String × Json)} (hin : (sdkReader lib).Inside properties key P ms)
    {d : Json} (hd : (sdkReader lib).object d = none) :
    ∀ inner, (sdkReader lib).object ((Dict.find key ms).getD d) = some inner → P inner := by
  intro inner h
  cases hv : Dict.find key ms with
  | none =>
      rw [hv, Option.getD_none, hd] at h
      cases h
  | some v =>
      rw [hv] at h
      exact hin v (mem_sdkValues.mpr hv) inner h

/-- The dictionary that `v or {}` gives, where it is one. -/
theorem inside_orEmpty {P : List (String × Json) → Prop} {properties : List (String × Schema)}
    {key : String} {ms inner : List (String × Json)}
    (hin : (sdkReader lib).Inside properties key P ms) (hnil : P [])
    (h : Sdk.orEmpty ((Dict.find key ms).getD (.obj [])) = .obj inner) : P inner := by
  unfold Sdk.orEmpty at h
  split at h
  · by_cases hne : inner = []
    · exact hne ▸ hnil
    · refine inside_getD (d := .obj []) hin rfl inner ?_
      rw [h]
      exact sdk_object_obj hne
  · cases h
    exact hnil

/-- A task. -/
theorem task_fromDict_meets {v : Json}
    (hk : ∀ ms, v = .obj ms → (sdkReader lib).TaskKept ms) {t : Sdk.Stored.Task}
    (h : Sdk.Stored.Task.fromDict lib v = .ok t) : SdkTaskMeets t := by
  unfold Sdk.Stored.Task.fromDict at h
  obtain ⟨id, hitem, h⟩ := except_bind_ok h
  obtain ⟨ms, rfl, hid⟩ := pyItem_ok hitem
  have hkept := hk ms rfl
  obtain ⟨skill, -, h⟩ := except_bind_ok h
  simp only [Sdk.pyGet, ok_bind] at h
  -- The dependencies are one more step where there are some, and the rest is the same.
  split at h
  on_goal 1 => obtain ⟨dependsOn, -, h⟩ := except_bind_ok h
  all_goals
    obtain ⟨inputs, -, h⟩ := except_bind_ok h
    obtain ⟨retry, hretry, h⟩ := except_bind_ok h
    obtain ⟨timeout, -, h⟩ := except_bind_ok h
    cases h
    exact ⟨item_meets hkept.id hkept.given hid,
      given_meets hkept.onError fun v hv => (by cases hv),
      retry_fromDict_meets (inside_getD hkept.retry rfl) hretry⟩

/-- A provider. -/
theorem provider_fromDict_meets {name : String} {v : Json}
    (hk : ∀ ms, (sdkReader lib).object v = some ms → (sdkReader lib).ProviderKept ms)
    {p : Sdk.Stored.Provider} (h : Sdk.Stored.Provider.fromDict lib name v = .ok p) :
    ∀ l ∈ p.rateLimit, SdkLimitMeets l := by
  unfold Sdk.Stored.Provider.fromDict at h
  obtain ⟨d, hd, h⟩ := except_bind_ok h
  obtain ⟨ms, hms, rfl⟩ := pyGet_ok hd
  obtain ⟨rateLimit, hlimit, h⟩ := except_bind_ok h
  cases h
  have hkept : (sdkReader lib).ProviderKept ms := by
    unfold Sdk.orEmpty at hms
    split at hms
    · rename_i htruthy
      subst hms
      exact hk ms (sdk_object_obj (by simpa [Sdk.truthy] using htruthy))
    · cases hms
      exact no_values
  exact rateLimit_fromDict_meets (inside_getD hkept rfl) hlimit

end Objects

/-! ### Documents -/

/-- A lookup in a dictionary, with its default. -/
theorem pyGet_obj (ms : List (String × Json)) (key : String) (default : Json) :
    Sdk.pyGet (.obj ms) key default = .ok ((Dict.find key ms).getD default) := rfl

/-- The tasks of a document. -/
theorem tasks_meet {lib : Sdk.PyLib} {ms : List (String × Json)}
    (hk : (sdkReader lib).WorkflowKept ms) {items : List Json} {tasks : List Sdk.Stored.Task}
    (hitems : Sdk.pyIter ((Dict.find "tasks" ms).getD (.arr [])) = .ok items)
    (h : items.mapM (Sdk.Stored.Task.fromDict lib) = .ok tasks) : ∀ t ∈ tasks, SdkTaskMeets t := by
  intro t ht
  obtain ⟨item, hitem, hdec⟩ := mem_of_mapM_ok h t ht
  refine task_fromDict_meets (fun ts hts => ?_) hdec
  subst hts
  -- Only an array has items that are objects.
  cases hv : Dict.find "tasks" ms with
  | none =>
      rw [hv] at hitems
      cases hitems
      cases hitem
  | some v =>
      rw [hv, Option.getD_some] at hitems
      cases v with
      | arr l =>
          cases hitems
          obtain ⟨ts', heq, hkept⟩ := hk.tasks _ (mem_sdkValues.mpr hv) _ rfl _ hitem
          cases heq
          exact hkept
      | obj members =>
          cases hitems
          obtain ⟨e, -, he⟩ := List.mem_map.mp hitem
          cases he
      | str s =>
          cases hitems
          obtain ⟨c, -, hc⟩ := List.mem_map.mp hitem
          cases hc
      | _ => cases hitems

/-- The providers of a document. -/
theorem providers_meet {lib : Sdk.PyLib} {ms ps : List (String × Json)}
    (hk : (sdkReader lib).WorkflowKept ms)
    (hps : Sdk.pyItems (Sdk.orEmpty ((Dict.find "providers" ms).getD (.obj []))) = .ok ps)
    {d : Dict String Sdk.Stored.Provider}
    (h : ps.foldlM (fun (d : Dict String Sdk.Stored.Provider) e =>
      Sdk.Stored.Provider.fromDict lib e.1 e.2 >>= fun p => .ok (d.set e.1 p)) .empty = .ok d) :
    ∀ name p, d.get? name = some p → ∀ l ∈ p.rateLimit, SdkLimitMeets l := by
  -- Only an object has items, so the loop goes over the members of one.
  have hobj : Sdk.orEmpty ((Dict.find "providers" ms).getD (.obj [])) = .obj ps := by
    cases ho : Sdk.orEmpty ((Dict.find "providers" ms).getD (.obj [])) with
    | obj members =>
        rw [ho] at hps
        exact congrArg Json.obj (Except.ok.inj hps)
    | _ =>
        rw [ho] at hps
        cases hps
  have hkept := inside_orEmpty hk.providers (fun e he => by cases he) hobj
  refine foldlM_ok_keeps (P := fun d : Dict String Sdk.Stored.Provider => ∀ name p,
    d.get? name = some p → ∀ l ∈ p.rateLimit, SdkLimitMeets l) h (fun name p hp => by cases hp)
    fun e he d d' hd hstep name p hp => ?_
  obtain ⟨x, hx, hset⟩ := except_bind_ok hstep
  cases hset
  by_cases hname : name = e.1
  · subst hname
    rw [Dict.get?_set_self] at hp
    cases hp
    exact provider_fromDict_meets (hkept e he) hx
  · rw [Dict.get?_set_ne d x hname] at hp
    exact hd name p hp

/-- The `workflow` object of a document that was loaded. It has a name, so it is not empty. -/
theorem workflow_kept {lib : Sdk.PyLib} {top ms : List (String × Json)} {name : Json}
    (hk : (sdkReader lib).Kept (.obj top))
    (hwf : (Dict.find "workflow" top).getD .null = .obj ms)
    (hname : Sdk.pyItem (.obj ms) "name" = .ok name) : (sdkReader lib).WorkflowKept ms := by
  obtain ⟨ms', heq, hfind⟩ := pyItem_ok hname
  cases heq
  -- The name is read from the object, so it is not the empty one.
  have hne : ms ≠ [] := by
    rintro rfl
    cases hfind
  cases hv : Dict.find "workflow" top with
  | none =>
      rw [hv] at hwf
      cases hwf
  | some x =>
      rw [hv] at hwf
      cases hwf
      have htop : top ≠ [] := by
        rintro rfl
        cases hv
      exact hk top (sdk_object_obj htop) (.obj ms) (mem_sdkValues.mpr hv) ms (sdk_object_obj hne)

/-- `from_dict` makes a workflow that meets the constraints of a document that keeps them. -/
theorem load_meets {lib : Sdk.PyLib} {doc : Json} (hk : (sdkReader lib).Kept doc)
    {w : Sdk.Stored.Workflow} (h : Sdk.Stored.Workflow.load lib doc = .ok w) :
    Meets (sdkValues w) := by
  unfold Sdk.Stored.Workflow.load at h
  obtain ⟨v, hv, h⟩ := except_bind_ok h
  obtain ⟨top, rfl, rfl⟩ := pyGet_ok hv
  split at h
  · rename_i wf ms hwf
    simp only [hwf, pyGet_obj, ok_bind] at h
    -- The members, in the order in which they are read.
    obtain ⟨ps, hps, h⟩ := except_bind_ok h
    obtain ⟨providers, hproviders, h⟩ := except_bind_ok h
    obtain ⟨items, hitems, h⟩ := except_bind_ok h
    obtain ⟨tasks, htasks, h⟩ := except_bind_ok h
    obtain ⟨name, hname, h⟩ := except_bind_ok h
    obtain ⟨version, -, h⟩ := except_bind_ok h
    obtain ⟨maxValue, hmaxValue, h⟩ := except_bind_ok h
    obtain ⟨cs, hcs, rfl⟩ := pyGet_ok hmaxValue
    obtain ⟨maxParallel, hmax, h⟩ := except_bind_ok h
    simp only [hcs, pyGet_obj, ok_bind] at h
    obtain ⟨rateLimit, hlimit, h⟩ := except_bind_ok h
    obtain ⟨retryValue, hretryValue, h⟩ := except_bind_ok h
    obtain ⟨ds, hds, rfl⟩ := pyGet_ok hretryValue
    obtain ⟨retry, hretry, h⟩ := except_bind_ok h
    simp only [hds, pyGet_obj, ok_bind] at h
    obtain ⟨timeout, -, h⟩ := except_bind_ok h
    -- What the document keeps, object by object.
    have hms := workflow_kept hk hwf hname
    have htask := tasks_meet hms hitems htasks
    have hprovider := providers_meet hms hps hproviders
    have hconc : (sdkReader lib).ConcurrencyKept cs :=
      inside_orEmpty hms.concurrency ⟨no_values, no_values⟩ hcs
    have hdefaults : (sdkReader lib).DefaultsKept ds :=
      inside_orEmpty hms.defaults ⟨no_values, no_values⟩ hds
    have hlimits := rateLimit_fromDict_meets (inside_getD hconc.rateLimit rfl) hlimit
    have hretries := retry_fromDict_meets (inside_getD hdefaults.retry rfl) hretry
    cases h
    refine ⟨fun v hv => ?_, fun v hv => ?_, fun x hx => ?_, fun x hx => ?_, ?_⟩
    · obtain ⟨t, ht, rfl⟩ := List.mem_map.mp hv
      exact (htask t ht).id
    · obtain ⟨x, hx, hxv⟩ := List.mem_filterMap.mp hv
      rcases List.mem_cons.mp hx with rfl | hx
      · refine given_meets hdefaults.onError (fun d hd => ?_) v hxv
        cases hd
        rfl
      · obtain ⟨t, ht, rfl⟩ := List.mem_map.mp hx
        exact (htask t ht).onError v hxv
    · obtain ⟨r, hr, rfl⟩ := List.mem_map.mp hx
      have hr' : SdkRetryMeets r := by
        rcases List.mem_cons.mp hr with rfl | hr
        · cases hretry' : retry with
          | none => exact ⟨rfl, fun v hv => by cases hv; rfl⟩
          | some r => exact hretries r hretry'
        · obtain ⟨t, ht, htr⟩ := List.mem_filterMap.mp hr
          exact (htask t ht).retry r htr
      exact ⟨hr'.max, hr'.backoff⟩
    · obtain ⟨l, hl, rfl⟩ := List.mem_map.mp hx
      have hl' : SdkLimitMeets l := by
        rcases List.mem_append.mp hl with hl | hl
        · exact hlimits l (Option.mem_toList.mp hl)
        · obtain ⟨e, he, hel⟩ := List.mem_filterMap.mp hl
          exact hprovider e.1 e.2 ((Dict.mem_entries _ e.1 e.2).mp he) l hel
      exact ⟨hl'.requests, hl'.tokens⟩
    · exact pyInt_getD_meets (d := 8) hconc.maxParallel rfl (by exact_mod_cast hmax)
  · cases h

/-! ### What `from_dict` refuses -/

/-- A document that `from_dict` refuses with an exception: it cannot be read as the constructor
reads it, or `validate` raises for the workflow, or it is too deep for the stack. -/
inductive SdkRefuses (lib : Sdk.PyLib) (doc : Json) : Prop
  | load (e : Sdk.PyError) (h : Sdk.Stored.Workflow.load lib doc = .error e)
  | invalid (w : Sdk.Stored.Workflow) (h : Sdk.Stored.Workflow.load lib doc = .ok w)
      (hinvalid : ¬ ValidStored w)
  | depth (w : Sdk.Stored.Workflow) (h : Sdk.Stored.Workflow.load lib doc = .ok w)
      (hdepth : w.validate lib = .error .recursionError)

/-- `from_dict` raises exactly for the documents that `SdkRefuses` lists. -/
theorem sdk_refuses_iff {lib : Sdk.PyLib} {doc : Json} :
    (∃ e, Sdk.Stored.Workflow.fromDict lib doc = .error e ∧ True) ↔ SdkRefuses lib doc := by
  unfold Sdk.Stored.Workflow.fromDict
  constructor
  · rintro ⟨e, h, -⟩
    -- The load fails, or what was loaded does not pass the validator, which includes the depth of
    -- its recursion.
    rcases except_bind_error h with h | ⟨w, hw, h⟩
    · exact .load e h
    · rcases except_bind_error h with h | ⟨u, -, h⟩
      · rcases stored_validate_sound.2 e h with rfl | hinvalid
        · exact .depth w hw h
        · exact .invalid w hw hinvalid
      · cases h
  · rintro (⟨e, h⟩ | ⟨w, h, hinvalid⟩ | ⟨w, h, hdepth⟩)
    · exact ⟨e, by rw [h]; rfl, trivial⟩
    · rw [h, ok_bind]
      cases hval : w.validate lib with
      | ok u => exact absurd (stored_validate_sound.1 hval) hinvalid
      | error e => exact ⟨e, rfl, trivial⟩
    · rw [h, ok_bind, hdepth]
      exact ⟨.recursionError, rfl, trivial⟩

/-- `from_dict` makes a workflow that meets the constraints of a document that keeps them. -/
theorem sdk_meets {lib : Sdk.PyLib} {doc : Json} (hk : (sdkReader lib).Kept doc)
    {w : Sdk.Stored.Workflow} (h : Sdk.Stored.Workflow.fromDict lib doc = .ok w) :
    Meets (sdkValues w) := by
  obtain ⟨model, hmodel, h⟩ := except_bind_ok h
  obtain ⟨u, -, h⟩ := except_bind_ok h
  cases h
  exact load_meets hk hmodel

/-- The test for a string finds that string. -/
theorem isStr_eq {s : String} {v : Json} (h : Sdk.isStr s v = true) : v = .str s := by
  cases v with
  | str t => exact congrArg Json.str (of_decide_eq_true h)
  | _ => cases h

/-- A document that breaks every constraint. Both loaders take it. -/
def brokenDocument : Json :=
  .obj [("workflow", .obj
    [("name", .str "w"),
      ("concurrency", .obj [("max_parallel", .num (.int (-3))),
        ("rate_limit",
          .obj [("requests", .num 0), ("per", .str "1s"), ("tokens", .num (.int (-5)))])]),
      ("defaults", .obj [("retry", .obj [("max", .num (.int (-1))), ("backoff", .str "fast")]),
        ("on_error", .str "ignore")]),
      ("tasks", .arr [.obj [("id", .str "a b"), ("skill", .str "s"), ("on_error", .str "ignore"),
        ("retry", .obj [("max", .num (.int (-2))), ("backoff", .str "fast")])]])])]

end Orchestrator.Proofs
