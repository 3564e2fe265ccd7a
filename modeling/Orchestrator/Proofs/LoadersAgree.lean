import Orchestrator.Proofs.LoadedWorkflow

/-!
# `Orchestrator.Proofs.LoadersAgree`: one document, two loaders

The policies that `Parse` and `from_dict` give the tasks of a document of the schema. Durations,
limits and error policies always agree. The defaults of a retry object do not: Go leaves absent
fields zero, and Python fills them in, or falls back to the next retry object when one is empty.
`loaders_agree_iff` is the exact condition.

The condition is about the retry object that applies to a task: it is absent, or it spells out every
field for which the loaders have different defaults (`SpelledOut`). Absent altogether is no trouble,
since both engines then use the same constants.

The theorem is about documents that both loaders accept and the schema allows. Such a document may
still have a second top-level member that Go takes for `workflow`, because Go compares the names of
members without regard to case; it would overwrite what the first one said, and `NoAlias` excludes
it.

The proof compares the two readings of a retry object field by field (`goRetry_eq_iff`) and lifts
the result to the object that applies to a task (`docRetry_eq_iff`).
-/

set_option autoImplicit false

namespace Orchestrator.Proofs

open Orchestrator.Lib Orchestrator.Engine

/-! ### The comparison -/

/-- A retry object with every field that the loaders have different defaults for. -/
def SpelledOut (rs : List (String × Json)) : Prop :=
  ∀ key ∈ ["backoff", "base", "jitter"], (Dict.find key rs).isSome = true

/-- It can be checked on a document. -/
instance (rs : List (String × Json)) : Decidable (SpelledOut rs) := by
  unfold SpelledOut
  infer_instance

/-- The members of the `workflow` object of a document. -/
def workflowOf (doc : Json) : List (String × Json) := objectAt "workflow" ((membersOf doc).getD [])

/-- The retry object that applies to a task is absent or spelled out. -/
def RetriesSpelledOut (doc : Json) : Prop :=
  ∀ t ∈ docTasks (workflowOf doc), ∀ rs ∈ appliedRetry (workflowOf doc) t, SpelledOut rs

/-- No other top-level member has a name that Go takes for `workflow`, other than with the value
null. -/
def NoAlias (doc : Json) : Prop :=
  ∀ e ∈ (membersOf doc).getD [], e.1 ≠ "workflow" → foldName "workflow" = foldName e.1 → e.2 = .null

/-- The two loaders give a document the same meaning: the same slots, limits and providers, and the
same policy for each task. -/
structure SamePolicies (w : Workflow) (sw : Sdk.Workflow) : Prop where
  maxParallel : w.maxParallel = sw.maxParallel
  rateLimit : w.rateLimit = sw.rateLimit.map (·.toGo)
  providers : ∀ name, (w.providers.get? name).map (·.rateLimit)
    = (sw.providers.get? name).map fun p => p.rateLimit.map (·.toGo)
  tasks : w.tasks.map (goPolicy w) = sw.tasks.map (sdkPolicy sw)

/-- Python never reads an empty backoff. -/
theorem sdkRetry_backoff_ne {o : Option (List (String × Json))} (hok : ∀ rs ∈ o, RetryOk rs) :
    ((o.map sdkRetry).getD {}).backoff ≠ "" := by
  cases o with
  | none => decide
  | some rs =>
      show (memberAs strOf "backoff" rs).getD "exponential" ≠ ""
      cases hs : memberAs strOf "backoff" rs with
      | none => decide
      | some s =>
          have h := text_ok (RetryOk.backoff (hok rs rfl)) hs
          rintro rfl
          cases h

/-- On a retry object the loaders agree exactly when it is spelled out. Otherwise each has its own
default for what is missing. -/
theorem goRetry_eq_iff {lib : Sdk.PyLib} (hlib : AsciiDigits lib) {rs : List (String × Json)}
    (hok : RetryOk rs) : goRetry rs = (sdkRetry rs).toGo ↔ SpelledOut rs := by
  have hbackoff : (memberAs strOf "backoff" rs).isSome = (Dict.find "backoff" rs).isSome := by
    unfold memberAs
    cases hv : Dict.find "backoff" rs with
    | none => rfl
    | some v =>
        obtain ⟨s, rfl, -⟩ := Schema.spec_string (RetryOk.backoff hok v hv)
        rfl
  have hbase : (memberAs durationOf "base" rs).isSome = (Dict.find "base" rs).isSome := by
    cases hv : Dict.find "base" rs with
    | none =>
        unfold memberAs
        rw [hv]
        rfl
    | some v => exact duration_isSome hlib (RetryOk.base hok) hv
  have hjitter : (memberAs boolOf "jitter" rs).isSome = (Dict.find "jitter" rs).isSome := by
    unfold memberAs
    cases hv : Dict.find "jitter" rs with
    | none => rfl
    | some v =>
        obtain ⟨b, rfl⟩ := Schema.spec_boolean (RetryOk.jitter hok v hv)
        rfl
  -- A member of the right form is always read, so the fields are there exactly if the members are.
  have hspelled : SpelledOut rs ↔ (memberAs strOf "backoff" rs).isSome = true ∧
      (memberAs durationOf "base" rs).isSome = true ∧
      (memberAs boolOf "jitter" rs).isSome = true := by
    rw [hbackoff, hbase, hjitter]
    simp [SpelledOut]
  rw [hspelled]
  unfold goRetry sdkRetry Sdk.Retry.toGo
  rw [Retry.mk.injEq]
  -- The two engines differ in the default of each of the three fields, so one that is left out
  -- tells them apart.
  cases memberAs strOf "backoff" rs <;> cases memberAs durationOf "base" rs <;>
    cases memberAs boolOf "jitter" rs <;> simp

/-- The retry policies of a task agree exactly when its retry object is spelled out. -/
theorem docRetry_eq_iff {lib : Sdk.PyLib} (hlib : AsciiDigits lib)
    {ms t : List (String × Json)} (hok : WorkflowOk ms) (htask : TaskOk t) :
    docGoRetry ms t = docSdkRetry ms t ↔ ∀ rs ∈ appliedRetry ms t, SpelledOut rs := by
  have hown : ∀ rs ∈ memberAs membersOf "retry" t, RetryOk rs :=
    fun rs hrs => conforms_member (TaskOk.retry htask) hrs
  have hdflt : ∀ rs ∈ memberAs membersOf "retry" (docDefaults ms), RetryOk rs :=
    fun rs hrs => conforms_member (DefaultsOk.retry (conforms_objectAt hok.defaults)) hrs
  unfold docGoRetry docSdkRetry appliedRetry
  generalize memberAs membersOf "retry" t = own at hown ⊢
  generalize memberAs membersOf "retry" (docDefaults ms) = dflt at hdflt ⊢
  have happlied : ∀ rs ∈ own.or dflt, RetryOk rs := by
    intro rs hrs
    cases own with
    | none => exact hdflt rs hrs
    | some o => exact hown rs hrs
  have hread : ∀ rs ∈ (own.filter (· ≠ [])).or (dflt.filter (· ≠ [])), RetryOk rs := by
    intro rs hrs
    rcases Option.or_eq_some_iff.mp hrs with h | ⟨-, h⟩
    · exact hown rs (Option.filter_eq_some_iff.mp h).1
    · exact hdflt rs (Option.filter_eq_some_iff.mp h).1
  cases ha : own.or dflt with
  | none =>
      obtain ⟨rfl, rfl⟩ := Option.or_eq_none_iff.mp ha
      exact ⟨fun _ rs hrs => (by cases hrs), fun _ => rfl⟩
  | some rs =>
      have hall : (∀ x ∈ some rs, SpelledOut x) ↔ SpelledOut rs :=
        ⟨fun h => h rs rfl, fun h x hx => (by cases hx; exact h)⟩
      rw [hall]
      by_cases hnil : rs = []
      · -- Go takes the empty object as it is, with an empty backoff.
        refine iff_of_false (fun h => ?_) (fun h => ?_)
        · have hback := congrArg Retry.backoff h
          rw [hnil] at hback
          exact sdkRetry_backoff_ne hread hback.symm
        · have := h "backoff" (by simp)
          rw [hnil] at this
          cases this
      · have hsame : (own.filter (· ≠ [])).or (dflt.filter (· ≠ [])) = some rs := by
          cases own with
          | none =>
              rw [Option.none_or] at ha
              rw [ha, Option.filter_some_pos (by simpa using hnil)]
              rfl
          | some o =>
              rw [Option.some_or] at ha
              cases ha
              rw [Option.filter_some_pos (by simpa using hnil)]
              rfl
        rw [hsame]
        exact goRetry_eq_iff hlib (happlied rs ha)

/-- Without an alias, Go reads the `workflow` member and nothing else. An alias is a member whose
name differs in its case only, which Go reads as well. -/
theorem decodeDocument_eq {top : List (String × Json)} (hnd : (top.map Prod.fst).Nodup) {v : Json}
    (hwf : Dict.find "workflow" top = some v) (halias : NoAlias (.obj top)) :
    decodeDocument (.obj top) = (decodeWorkflow v zeroWorkflow).map RawBuffer.raw := by
  unfold decodeDocument decodeStruct
  refine congrArg (Option.map RawBuffer.raw) ?_
  refine (foldlM_single hnd hwf fun e he hne s => ?_).trans ?_
  · have hfield : fieldOf ["workflow"] e.1
        = if foldName "workflow" = foldName e.1 then some "workflow" else none := by
      unfold fieldOf
      rw [if_neg (by simpa using hne)]
      by_cases hfold : foldName "workflow" = foldName e.1 <;> simp [hfold]
    rw [hfield]
    by_cases hfold : foldName "workflow" = foldName e.1
    · rw [if_pos hfold, halias e he hne hfold]
      rfl
    · rw [if_neg hfold]
  · rfl

/-- The policies of the two loaders agree exactly when every retry object that applies to a task is
spelled out.

Both loaders are compared with what the document says (`Loads`), not with each other: the limits,
the timeouts and the reactions to an error come out alike, and a retry object gives Go its zero
values and Python its defaults for what is left out. The document has to be one of the schema, and
Go must not take another member for `workflow`. -/
theorem loaders_agree_iff {lib : Sdk.PyLib} (hlib : AsciiDigits lib) {iter : MapOrder}
    {msg : String} {doc : Json} (hschema : SpecSchema.document doc = true) {w : Workflow}
    (hgo : parseDocument iter msg doc = .ok w) {sw : Sdk.Workflow}
    (hpy : Sdk.Workflow.fromDict lib doc = .ok sw) (halias : NoAlias doc) :
    SamePolicies w sw ↔ RetriesSpelledOut doc := by
  obtain ⟨top, rfl, htop⟩ := Schema.spec_object hschema
  obtain ⟨v, hwf⟩ := Option.isSome_iff_exists.mp (htop.required "workflow" (by simp))
  have hv : SpecSchema.workflow v = true := htop.member "workflow" v hwf
  obtain ⟨ms, rfl, hok⟩ := Schema.spec_object hv
  have hms : workflowOf (.obj top) = ms := by
    show ((Dict.find "workflow" top).bind membersOf).getD [] = ms
    rw [hwf]
    rfl
  -- What Go loads.
  have hgoLoads : Loads ms (docGoRetry ms) w.maxParallel w.rateLimit
      (fun name => (w.providers.get? name).map (·.rateLimit)) (w.tasks.map (goPolicy w)) := by
    unfold parseDocument at hgo
    rw [decodeDocument_eq htop.distinct hwf halias] at hgo
    split at hgo
    · cases hgo
    · rename_i rw' hdec
      obtain ⟨buffer, hbuffer, rfl⟩ := Option.map_eq_some_iff.mp hdec
      exact go_loads hok hbuffer hgo
  -- What Python loads.
  have hpyLoads : Loads ms (docSdkRetry ms) sw.maxParallel (sw.rateLimit.map (·.toGo))
      (fun name => (sw.providers.get? name).map fun p => p.rateLimit.map (·.toGo))
      (sw.tasks.map (sdkPolicy sw)) := by
    obtain ⟨model, hstored, htyped⟩ := except_bind_ok hpy
    obtain ⟨loaded, hload, hvalid⟩ := except_bind_ok hstored
    obtain ⟨-, -, hvalid⟩ := except_bind_ok hvalid
    cases hvalid
    exact sdk_loads hlib hwf hok hload htyped
  have htask : ∀ t ∈ docTasks ms, TaskOk t := by
    obtain ⟨items, -, hdoc, hitems⟩ := WorkflowOk.items hok
    intro t ht
    unfold docTasks at ht
    rw [hdoc] at ht
    obtain ⟨x, hx, rfl⟩ := List.mem_map.mp ht
    obtain ⟨members, rfl, hmembers⟩ := Schema.spec_object (hitems x hx)
    exact hmembers
  have hpolicies : w.tasks.map (goPolicy w) = sw.tasks.map (sdkPolicy sw)
      ↔ RetriesSpelledOut (.obj top) := by
    unfold RetriesSpelledOut
    rw [hgoLoads.policies, hpyLoads.policies, hms, List.map_inj_left]
    refine forall_congr' fun t => forall_congr' fun ht => ?_
    rw [← docRetry_eq_iff hlib hok (htask t ht)]
    exact ⟨fun h => congrArg Policy.retry h, fun h => congrArg (docPolicy ms t) h⟩
  rw [← hpolicies]
  exact ⟨fun h => h.tasks, fun h =>
    ⟨hgoLoads.maxParallel.trans hpyLoads.maxParallel.symm,
      hgoLoads.limit.trans hpyLoads.limit.symm,
      fun name => (hgoLoads.providers name).trans (hpyLoads.providers name).symm, h⟩⟩

/-- A document with one task and a default retry object. -/
def retryDocument (retry : List (String × Json)) : Json :=
  .obj [("workflow", .obj [("name", .str "w"), ("defaults", .obj [("retry", .obj retry)]),
    ("tasks", .arr [.obj [("id", .str "a"), ("skill", .str "s")]])])]

/-- A retry object with all its fields. -/
def fullRetry : List (String × Json) :=
  [("max", .num 2), ("backoff", .str "fixed"), ("base", .str "1s"), ("jitter", .bool false)]

/-- A result that is there is a success. -/
theorem exists_ok {ε α : Type} {x : Except ε α} (h : x.toOption.isSome = true) :
    ∃ a, x = .ok a := by
  cases x with
  | error e => cases h
  | ok a => exact ⟨a, rfl⟩

/-- Both loaders accept a document whose retry object has all its fields, and agree on it. -/
theorem loaders_agree_iff_fullRetry :
    ∃ (w : Workflow) (sw : Sdk.Workflow),
      parseDocument .insertion "" (retryDocument fullRetry) = .ok w ∧
      Sdk.Workflow.fromDict asciiLib (retryDocument fullRetry) = .ok sw ∧ SamePolicies w sw := by
  obtain ⟨w, hw⟩ := @exists_ok _ _ (parseDocument .insertion "" (retryDocument fullRetry))
    (by rfl)
  obtain ⟨sw, hsw⟩ := @exists_ok _ _ (Sdk.Workflow.fromDict asciiLib (retryDocument fullRetry))
    (by rfl)
  have halias : NoAlias (retryDocument fullRetry) := by
    intro e he hne
    cases List.mem_singleton.mp he
    exact absurd rfl hne
  refine ⟨w, sw, hw, hsw, (loaders_agree_iff (fun _ _ => rfl) (by rfl) hw hsw
    halias).mpr ?_⟩
  show ∀ t ∈ docTasks (workflowOf (retryDocument fullRetry)),
    ∀ rs ∈ appliedRetry (workflowOf (retryDocument fullRetry)) t, SpelledOut rs
  intro t ht rs hrs
  cases List.mem_singleton.mp ht
  cases hrs
  decide

/-- On `{"max": 2}` alone Go reads an empty backoff, and Python the exponential one. -/
theorem loaders_disagree :
    ¬ ∀ (lib : Sdk.PyLib) (iter : MapOrder) (msg : String) (doc : Json) (w : Workflow)
      (sw : Sdk.Workflow), AsciiDigits lib → SpecSchema.document doc = true →
      parseDocument iter msg doc = .ok w → Sdk.Workflow.fromDict lib doc = .ok sw →
      SamePolicies w sw := by
  intro h
  obtain ⟨w, hw⟩ := @exists_ok _ _ (parseDocument .insertion "" (retryDocument [("max", .num 2)]))
    (by rfl)
  obtain ⟨sw, hsw⟩ := @exists_ok _ _
    (Sdk.Workflow.fromDict asciiLib (retryDocument [("max", .num 2)])) (by rfl)
  have htasks := (h asciiLib .insertion "" _ w sw (fun _ _ => rfl) (by rfl) hw hsw).tasks
  -- A policy that names `max` only leaves the empty backoff in the Go engine and the default one in
  -- the Python engine.
  have hgo : (parseDocument .insertion "" (retryDocument [("max", .num 2)])).toOption.map
      (fun w => (w.tasks.map (goPolicy w)).map (·.retry.backoff)) = some [""] := by
    rfl
  have hpy : (Sdk.Workflow.fromDict asciiLib (retryDocument [("max", .num 2)])).toOption.map
      (fun w => (w.tasks.map (sdkPolicy w)).map (·.retry.backoff)) = some ["exponential"] := by
    rfl
  rw [hw] at hgo
  rw [hsw] at hpy
  have hback := congrArg (List.map (·.retry.backoff)) htasks
  exact absurd ((Option.some.inj hgo).symm.trans (hback.trans (Option.some.inj hpy))) (by decide)

end Orchestrator.Proofs
