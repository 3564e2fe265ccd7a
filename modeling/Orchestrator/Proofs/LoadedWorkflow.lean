import Orchestrator.Proofs.LoadedObjects
import Orchestrator.Proofs.Validate
import Orchestrator.Sdk.Runner

/-!
# `Orchestrator.Proofs.LoadedWorkflow`: the policies of a loaded workflow

`Loads` says what a loader has to give for a document of the schema: the bound on parallel tasks,
the limits, and for each task the policies that apply to it. `go_loads` and `sdk_loads` say that
`Parse` and `from_dict` give it, each with its own reading of the retry objects.

The policy of a task is its retry, its timeout and its error policy, taken from the task where it
has one and from the defaults otherwise. The loaders keep what the document says and the engines
look up the policy when they need it, so `goPolicy` and `sdkPolicy` are stated with the functions of
the engines. `docPolicy` is the same read off the document. The retry is a parameter of `Loads`,
because it is the one part in which the two loaders may differ.

The loops over the tasks are inductions over the items of the document (`go_tasks`,
`loadTask_spec`). Providers are a map in both loaders, and their order does not matter, since a task
asks for its provider by name.
-/

set_option autoImplicit false

namespace Orchestrator.Proofs

open Orchestrator.Lib Orchestrator.Engine

/-! ### The workflow as Go loads it -/

/-- The members of the `workflow` object. -/
abbrev WorkflowOk : List (String × Json) → Prop :=
  Schema.Conforms ["name", "tasks"] SpecSchema.workflowProperties Schema.never

/-- The member `concurrency` of a workflow. -/
theorem WorkflowOk.concurrency {ms : List (String × Json)} (h : WorkflowOk ms) :
    MemberOk SpecSchema.concurrency "concurrency" ms := h.member "concurrency"

/-- The providers of a workflow. -/
theorem WorkflowOk.providers {ms : List (String × Json)} (h : WorkflowOk ms) :
    MemberOk (.object [] [] SpecSchema.provider) "providers" ms := h.member "providers"

/-- The defaults of a workflow. -/
theorem WorkflowOk.defaults {ms : List (String × Json)} (h : WorkflowOk ms) :
    MemberOk SpecSchema.defaults "defaults" ms := h.member "defaults"

/-- The tasks of a workflow, of which there is at least one. -/
theorem WorkflowOk.tasks {ms : List (String × Json)} (h : WorkflowOk ms) :
    MemberOk (.array 1 SpecSchema.task) "tasks" ms := h.member "tasks"

/-- The items of `tasks`. -/
theorem WorkflowOk.items {ms : List (String × Json)} (h : WorkflowOk ms) :
    ∃ items, Dict.find "tasks" ms = some (.arr items) ∧
      (memberAs itemsOf "tasks" ms).getD [] = items ∧ ∀ x ∈ items, SpecSchema.task x = true := by
  obtain ⟨v, hv⟩ := Option.isSome_iff_exists.mp (h.required "tasks" (by simp))
  obtain ⟨items, rfl, -, hitems⟩ := Schema.spec_array (WorkflowOk.tasks h v hv)
  refine ⟨items, hv, ?_, hitems⟩
  unfold memberAs
  rw [hv]
  rfl

/-- The tasks of a document, each with its members. -/
def docTasks (ms : List (String × Json)) : List (List (String × Json)) :=
  ((memberAs itemsOf "tasks" ms).getD []).map fun v => (membersOf v).getD []

/-- The rate limits of the providers, by name. -/
def docLimit (ms : List (String × Json)) (name : String) : Option (Option RateLimit) :=
  ((Dict.find name (objectAt "providers" ms)).bind membersOf).map goLimitAt

/-- What the retry, the timeout and the error policy of a task fall back to. -/
def docDefaults (ms : List (String × Json)) : List (String × Json) := objectAt "defaults" ms

/-- The retry object that applies to a task. -/
def appliedRetry (ms t : List (String × Json)) : Option (List (String × Json)) :=
  (memberAs membersOf "retry" t).or (memberAs membersOf "retry" (docDefaults ms))

/-- The timeout that applies to a task, of a document. -/
def appliedTimeout (ms t : List (String × Json)) : Option Duration :=
  (memberAs durationOf "timeout" t).or (memberAs durationOf "timeout" (docDefaults ms))

/-- The error policy that applies to a task, of a document. -/
def appliedOnError (ms t : List (String × Json)) : String :=
  ((memberAs strOf "on_error" t).or (memberAs strOf "on_error" (docDefaults ms))).getD "fail_fast"

/-- The policy of a task: all that the two engines take from a document to decide how often and how
long it is attempted, and what its failure means. -/
structure Policy where
  id : String
  retry : Retry
  timeout : Option Duration
  onError : String
deriving DecidableEq

/-- The effective policy of a task in Go, with the defaults of the workflow for what it does not
say. -/
def goPolicy (w : Workflow) (t : Task) : Policy where
  id := t.id
  retry := t.effectiveRetry w.defaultRetry
  timeout := t.effectiveTimeout w.defaultTimeout
  onError := t.effectiveOnError w.defaultOnError

/-- The effective policy of a task in Python, in the fields of Go. -/
def sdkPolicy (w : Sdk.Workflow) (t : Sdk.Task) : Policy where
  id := t.id
  retry := (Sdk.Runner.effectiveRetry w t).toGo
  timeout := Sdk.Runner.effectiveTimeout w t
  onError := Sdk.Runner.effectiveOnError w t

/-- The policy of a task of a document, up to its retry. The retry is a parameter because it is
where the two loaders come to differ. -/
def docPolicy (ms t : List (String × Json)) (retry : Retry) : Policy where
  id := (memberAs strOf "id" t).getD ""
  retry := retry
  timeout := appliedTimeout ms t
  onError := appliedOnError ms t

/-- The limits and policies a loader reads from a document, up to the retries. -/
structure Loads (ms : List (String × Json)) (retry : List (String × Json) → Retry)
    (maxParallel : Int) (limit : Option RateLimit) (providers : String → Option (Option RateLimit))
    (policies : List Policy) : Prop where
  maxParallel : maxParallel = (memberAs intOf "max_parallel" (objectAt "concurrency" ms)).getD 8
  limit : limit = goLimitAt (objectAt "concurrency" ms)
  providers : ∀ name, providers name = docLimit ms name
  policies : policies = (docTasks ms).map fun t => docPolicy ms t (retry t)

/-- The retry policy of a task in Go. -/
def docGoRetry (ms t : List (String × Json)) : Retry :=
  ((appliedRetry ms t).map goRetry).getD defaultRetry

/-- Where the loop over the task pointers succeeds, none of them is nil, and the tasks are what they
point to. -/
theorem derefTasks_ok : ∀ {ts : List (Option Task)} {ids : List String} {l : List Task},
    derefTasks ts ids = .ok l → ts = l.map some := by
  intro ts
  induction ts with
  | nil =>
      intro ids l h
      cases h
      rfl
  | cons t ts ih =>
      intro ids l h
      cases t with
      -- The loop reads the id of every task, so a nil pointer panics before it can be copied.
      | none => cases h
      | some t =>
          rw [derefTasks] at h
          split at h
          · cases h
          · obtain ⟨rest, hrest, h⟩ := except_bind_ok h
            cases h
            rw [ih hrest]
            rfl

/-- The fields of a workflow that `Parse` returns, with the defaults that it fills in. -/
theorem parse_fields {iter : MapOrder} {rw : RawWorkflow} {w : Workflow}
    (h : parse iter rw = .ok w) :
    w.maxParallel
        = (rw.concurrency.map fun c => if c.maxParallel > 0 then c.maxParallel else 8).getD 8 ∧
      w.rateLimit = rw.concurrency.bind (·.rateLimit) ∧
      nameProviders rw.providers = .ok w.providers ∧
      w.defaultRetry = (rw.defaults.bind (·.retry)).getD defaultRetry ∧
      w.defaultTimeout = rw.defaults.bind (·.timeout) ∧
      w.defaultOnError
        = (rw.defaults.map fun d => if d.onError ≠ "" then d.onError else "fail_fast").getD
          "fail_fast" ∧
      rw.tasks = w.tasks.map some := by
  unfold parse at h
  by_cases hname : rw.name = ""
  · simp [hname, bind, Except.bind] at h
  by_cases htasks : rw.tasks = []
  · simp [hname, htasks, bind, Except.bind] at h
  simp only [hname, htasks, if_false] at h
  obtain ⟨providers, hproviders, h⟩ := except_bind_ok h
  obtain ⟨tasks, htasks, h⟩ := except_bind_ok h
  split at h
  · cases h
    refine ⟨?_, rfl, hproviders, rfl, rfl, ?_, derefTasks_ok htasks⟩
    · cases rw.concurrency <;> rfl
    · cases rw.defaults <;> rfl
  · cases h

/-- The rate limits of the providers of a document, name by name. -/
theorem go_providers {ms : List (String × Json)} (hok : WorkflowOk ms)
    {d : Dict String (Option Provider)} {providers : Dict String Provider}
    (hdec : (∀ v, Dict.find "providers" ms = some v →
      decodeMap (fun v => decodePtr decodeProvider
        { name := "", rateLimit := none } v none) v .empty
        = some d) ∧ (Dict.find "providers" ms = none → d = .empty))
    (hnamed : nameProviders d = .ok providers) (name : String) :
    (providers.get? name).map (·.rateLimit) = docLimit ms name := by
  -- Naming the providers fails at a nil entry and changes no limit.
  have hget : (providers.get? name).map (·.rateLimit)
      = (d.get? name).map fun p => p.bind (·.rateLimit) := by
    unfold nameProviders at hnamed
    split at hnamed
    · cases hnamed
    · cases hnamed
      rw [Dict.get?_mapValues, Option.map_map]
      rfl
  rw [hget]
  unfold docLimit objectAt memberAs
  cases hfind : Dict.find "providers" ms with
  | none =>
      rw [hdec.2 hfind]
      rfl
  | some v =>
      obtain ⟨ps, rfl, hps⟩ := Schema.spec_object (hok.providers v hfind)
      obtain ⟨hsome, hnone⟩ := decodeMap_get (hdec.1 _ hfind) hps.distinct name
      show _ = ((Dict.find name ps).bind membersOf).map goLimitAt
      cases hp : Dict.find name ps with
      | none =>
          rw [hnone hp]
          rfl
      | some p =>
          have hprovider : SpecSchema.provider p = true := hps.member name p hp
          obtain ⟨x, hx, hxd⟩ := hsome p hp
          obtain ⟨pm, rfl, -⟩ := Schema.spec_object hprovider
          obtain ⟨q, hq, rfl⟩ := Option.map_eq_some_iff.mp hx
          rw [hxd]
          exact (decodeProvider_spec _ hprovider q hq).symm

/-- The tasks of a document, as Go reads them. Their number and order are those of the array. -/
theorem go_tasks {β : Type} {ms : List (String × Json)} (hok : WorkflowOk ms) {ts : List Task}
    {slice : Slice (Option RawTask)}
    (hdec : ∀ v, Dict.find "tasks" ms = some v →
      decodeSlice (decodePtr decodeTask zeroTask) none v {} = some slice)
    (hts : slice.items.map (fun t => t.map (·.toTask)) = ts.map some)
    {g : Task → β} {k : List (String × Json) → β}
    (hg : ∀ members, TaskOk members → ∀ t, decodeTask (.obj members) zeroTask = some t →
      g t.toTask = k members) : ts.map g = (docTasks ms).map k := by
  obtain ⟨items, hv, hdoc, hitems⟩ := hok.items
  have hslice := hdec _ hv
  rw [decodeSlice_nil] at hslice
  obtain ⟨raws, hraws, rfl⟩ := Option.map_eq_some_iff.mp hslice
  -- Element by element the decoded task is what the members of the object say.
  have hmap := @map_of_mapM_some _ _ _ _ (fun o : Option RawTask => o.map fun t => g t.toTask)
    (fun v => (membersOf v).map k) _ _ hraws (fun a ha b hb => by
      obtain ⟨members, rfl, hmembers⟩ := Schema.spec_object (hitems a ha)
      obtain ⟨t, ht, rfl⟩ := Option.map_eq_some_iff.mp hb
      exact congrArg some (hg members hmembers t ht))
  -- Copying the decoded records into tasks neither drops nor reorders any.
  have hread : raws.map (fun o => o.map fun t => g t.toTask) = ts.map fun t => some (g t) := by
    have hboth := congrArg (List.map (Option.map g)) hts
    rw [List.map_map, List.map_map] at hboth
    simpa [Function.comp_def] using hboth
  rw [hread] at hmap
  unfold docTasks
  rw [hdoc]
  show ts.map g = (items.map fun v => (membersOf v).getD []).map k
  have hsome : (ts.map g).map some =
    ((items.map fun v => (membersOf v).getD []).map k).map some := by
    rw [List.map_map, List.map_map, List.map_map]
    refine hmap.trans (List.map_congr_left fun a ha => ?_)
    obtain ⟨members, rfl, -⟩ := Schema.spec_object (hitems a ha)
    rfl
  exact List.map_injective_iff.mpr (Option.some_injective β) hsome

/-- The enumerated error policies are not empty. -/
theorem onError_ne {key : String} {ms : List (String × Json)}
    (hok : MemberOk SpecSchema.onError key ms) {s : String} (h : memberAs strOf key ms = some s) :
    s ≠ "" := by
  have hs := text_ok hok h
  rintro rfl
  cases hs

/-- An absent error policy reads as the empty text, which no error policy of the schema is. -/
theorem onError_or {key : String} {ms : List (String × Json)}
    (hok : MemberOk SpecSchema.onError key ms) (dflt : String) :
    (if (memberAs strOf key ms).getD "" ≠ "" then (memberAs strOf key ms).getD "" else dflt)
      = (memberAs strOf key ms).getD dflt := by
  cases hs : memberAs strOf key ms with
  | none => rfl
  | some s => exact if_pos (onError_ne hok hs)

/-- The effective policy of a task, from the fields of the task and of the defaults. -/
theorem go_policy {ms members : List (String × Json)} (hok : WorkflowOk ms) (htask : TaskOk members)
    {w : Workflow} {t : RawTask} {defaults : Option RawDefaults}
    (hdefaults : defaults = (memberAs membersOf "defaults" ms).map goDefaults)
    (hretry : w.defaultRetry = (defaults.bind (·.retry)).getD defaultRetry)
    (htimeout : w.defaultTimeout = defaults.bind (·.timeout))
    (honError : w.defaultOnError
      = (defaults.map fun d => if d.onError ≠ "" then d.onError else "fail_fast").getD "fail_fast")
    (ht : decodeTask (.obj members) zeroTask = some t) :
    goPolicy w t.toTask = docPolicy ms members (docGoRetry ms members) := by
  obtain ⟨htid, htretry, httimeout, htonError⟩ := decodeTask_spec htask ht
  -- The defaults of the workflow, each read back from the `defaults` object of the document.
  have hretry' : w.defaultRetry
      = ((memberAs membersOf "retry" (docDefaults ms)).map goRetry).getD defaultRetry := by
    rw [hretry, hdefaults]
    unfold docDefaults objectAt
    cases memberAs membersOf "defaults" ms <;> rfl
  have htimeout' : w.defaultTimeout = memberAs durationOf "timeout" (docDefaults ms) := by
    rw [htimeout, hdefaults]
    unfold docDefaults objectAt
    cases memberAs membersOf "defaults" ms <;> rfl
  have honError' : w.defaultOnError
      = (memberAs strOf "on_error" (docDefaults ms)).getD "fail_fast" := by
    rw [honError, hdefaults]
    unfold docDefaults objectAt
    cases hd : memberAs membersOf "defaults" ms with
    | none => rfl
    | some ds => exact onError_or (DefaultsOk.onError (conforms_member hok.defaults hd)) "fail_fast"
  -- What the task itself says comes before the default, in all three settings.
  have h₁ : t.effectiveRetry w.defaultRetry = docGoRetry ms members := by
    unfold Task.effectiveRetry docGoRetry appliedRetry
    rw [htretry, hretry']
    cases memberAs membersOf "retry" members <;> rfl
  have h₂ : t.effectiveTimeout w.defaultTimeout = appliedTimeout ms members := by
    unfold Task.effectiveTimeout appliedTimeout
    rw [httimeout, htimeout']
    cases memberAs durationOf "timeout" members <;> rfl
  have h₃ : t.effectiveOnError w.defaultOnError = appliedOnError ms members := by
    unfold Task.effectiveOnError appliedOnError
    rw [htonError, onError_or (TaskOk.onError htask), honError']
    cases memberAs strOf "on_error" members <;> rfl
  unfold goPolicy docPolicy
  rw [h₁, h₂, h₃, htid]

/-- The workflow that Go loads, in the terms of the members of the document. This is one side of the
comparison, and `sdk_loads` is the other. -/
theorem go_loads {iter : MapOrder} {ms : List (String × Json)} (hok : WorkflowOk ms)
    {rw' : RawBuffer} (hdec : decodeWorkflow (.obj ms) zeroWorkflow = some rw') {w : Workflow}
    (hparse : parse iter rw'.raw = .ok w) :
    Loads ms (docGoRetry ms) w.maxParallel w.rateLimit
      (fun name => (w.providers.get? name).map (·.rateLimit)) (w.tasks.map (goPolicy w)) := by
  obtain ⟨hmax, hlimit, hproviders, hretry, htimeout, honError, htasks⟩ := parse_fields hparse
  have hconc := field_ptr_eq (decodeStruct_member hdec hok.closed hok.distinct "concurrency"
    (·.concurrency) (decodePtr decodeConcurrency { maxParallel := 0, rateLimit := none })
    (fun _ _ => rfl) (fun _ _ => rfl)
    (by simp [setWorkflow, workflowFields, Option.map_eq_some_iff]))
    (WorkflowOk.concurrency hok) rfl decodeConcurrency_eq
  have hdefaults := field_ptr_eq (decodeStruct_member hdec hok.closed hok.distinct "defaults"
    (·.defaults) (decodePtr decodeDefaults { retry := none, timeout := none, onError := "" })
    (fun _ _ => rfl) (fun _ _ => rfl)
    (by simp [setWorkflow, workflowFields, Option.map_eq_some_iff]))
    (WorkflowOk.defaults hok) rfl decodeDefaults_eq
  have hmapped := decodeStruct_member hdec hok.closed hok.distinct "providers"
    (·.providers) (decodeMap fun v => decodePtr decodeProvider { name := "", rateLimit := none } v
      none)
    (fun _ _ => rfl) (fun _ _ => rfl)
    (by simp [setWorkflow, workflowFields, Option.map_eq_some_iff])
  have hslice := decodeStruct_member hdec hok.closed hok.distinct "tasks" (·.tasks)
    (decodeSlice (decodePtr decodeTask zeroTask) none)
    (fun _ _ => rfl) (fun _ _ => rfl)
    (by simp [setWorkflow, workflowFields, Option.map_eq_some_iff])
  rw [memberAs_map] at hconc hdefaults
  refine ⟨?_, ?_, go_providers hok hmapped hproviders, ?_⟩
  · rw [hmax, RawBuffer.raw_toRawFields, hconc]
    unfold objectAt
    cases hc : memberAs membersOf "concurrency" ms with
    | none => rfl
    | some cs =>
        -- The minimum of the schema is above 0, so that only an absent number reads as 8.
        show (if (memberAs intOf "max_parallel" cs).getD 0 > 0
            then (memberAs intOf "max_parallel" cs).getD 0 else 8)
          = (memberAs intOf "max_parallel" cs).getD 8
        cases hn : memberAs intOf "max_parallel" cs with
        | none => rfl
        | some n =>
            have hmin : 1 ≤ n :=
              minimum_le (ConcurrencyOk.maxParallel (conforms_member hok.concurrency hc)) hn
            exact if_pos (show n > 0 by omega)
  · rw [hlimit, RawBuffer.raw_toRawFields, hconc]
    unfold objectAt
    cases memberAs membersOf "concurrency" ms <;> rfl
  · exact go_tasks hok hslice.1 htasks fun members hmembers t ht =>
      go_policy hok hmembers hdefaults hretry htimeout honError ht

/-! ### The workflow as Python loads it -/

/-- The retry policy of a task in Python, where an empty retry object counts as absent. -/
def docSdkRetry (ms t : List (String × Json)) : Retry :=
  (((((memberAs membersOf "retry" t).filter (· ≠ [])).or
    ((memberAs membersOf "retry" (docDefaults ms)).filter (· ≠ []))).map sdkRetry).getD {}).toGo

/-- The fields of a workflow that `from_dict` fills, before the types are looked at. A document that
the schema allows raises nowhere. -/
theorem load_fields {lib : Sdk.PyLib} (hlib : AsciiDigits lib) {top ms : List (String × Json)}
    (hwf : Dict.find "workflow" top = some (.obj ms)) (hok : WorkflowOk ms)
    {m : Sdk.Stored.Workflow} (h : Sdk.Stored.Workflow.load lib (.obj top) = .ok m) :
    m.maxParallel = (memberAs intOf "max_parallel" (objectAt "concurrency" ms)).getD 8 ∧
      m.rateLimit
        = (memberAs membersOf "rate_limit" (objectAt "concurrency" ms)).map storedRateLimit ∧
      (objectAt "providers" ms).foldlM (fun (d : Dict String Sdk.Stored.Provider) e =>
        Sdk.Stored.Provider.fromDict lib e.1 e.2 >>= fun p => .ok (d.set e.1 p)) .empty
          = .ok m.providers ∧
      m.defaultRetry = (((memberAs membersOf "retry" (docDefaults ms)).filter
        (· ≠ [])).map storedRetry).getD {} ∧
      m.defaultTimeout = memberAs durationOf "timeout" (docDefaults ms) ∧
      m.defaultOnError = (Dict.find "on_error" (docDefaults ms)).getD (.str "fail_fast") ∧
      ((memberAs itemsOf "tasks" ms).getD []).mapM (Sdk.Stored.Task.fromDict lib)
        = .ok m.tasks := by
  have hconc := orEmpty_member hok.concurrency fun v hv =>
    (Schema.spec_object hv).imp fun _ hm => hm.1
  have hproviders := orEmpty_member hok.providers fun v hv =>
    (Schema.spec_object hv).imp fun _ hm => hm.1
  have hdefaults : Sdk.orEmpty ((Dict.find "defaults" ms).getD (.obj [])) = .obj (docDefaults ms) :=
    orEmpty_member hok.defaults fun v hv => (Schema.spec_object hv).imp fun _ hm => hm.1
  have hcok : ConcurrencyOk (objectAt "concurrency" ms) := conforms_objectAt hok.concurrency
  have hdok : DefaultsOk (docDefaults ms) := conforms_objectAt hok.defaults
  obtain ⟨items, hv, hitems, -⟩ := hok.items
  simp only [Sdk.Stored.Workflow.load, Sdk.pyGet, ok_bind, hwf, Option.getD_some, hconc, hproviders,
    hdefaults, hv, Sdk.pyItems, Sdk.pyIter] at h
  -- The rest of the load succeeds field by field, in the order in which the code reads them.
  obtain ⟨providers, hp, h⟩ := except_bind_ok h
  obtain ⟨tasks, ht, h⟩ := except_bind_ok h
  obtain ⟨name, -, h⟩ := except_bind_ok h
  obtain ⟨version, -, h⟩ := except_bind_ok h
  rw [pyInt_member (ConcurrencyOk.maxParallel hcok) 8, ok_bind,
    rateLimit_fromDict hlib (ConcurrencyOk.rateLimit hcok), ok_bind,
    retry_fromDict hlib (DefaultsOk.retry hdok), ok_bind,
    parseDuration_member hlib (DefaultsOk.timeout hdok), ok_bind, Option.or_none] at h
  cases h
  rw [hitems]
  exact ⟨rfl, rfl, hp, rfl, rfl, rfl, ht⟩

/-- The fields of a workflow with the annotated types. The numbers are taken over, the rest is
checked piece by piece. -/
theorem typed_fields {m : Sdk.Stored.Workflow} {sw : Sdk.Workflow} (h : m.typed = .ok sw) :
    sw.maxParallel = m.maxParallel ∧
      m.rateLimit.mapM Sdk.Stored.RateLimit.typed = .ok sw.rateLimit ∧
      m.providers.entries.foldlM (fun (d : Dict String Sdk.Provider) e =>
        e.2.typed >>= fun p => .ok (d.set e.1 p)) .empty = .ok sw.providers ∧
      (∃ r, m.defaultRetry.typed = .ok r ∧ sw.defaultRetry = some r) ∧
      sw.defaultTimeout = m.defaultTimeout ∧
      Sdk.asStr "default_on_error" m.defaultOnError = .ok sw.defaultOnError ∧
      m.tasks.mapM Sdk.Stored.Task.typed = .ok sw.tasks := by
  unfold Sdk.Stored.Workflow.typed at h
  obtain ⟨providers, hproviders, h⟩ := except_bind_ok h
  obtain ⟨name, -, h⟩ := except_bind_ok h
  obtain ⟨tasks, htasks, h⟩ := except_bind_ok h
  obtain ⟨rateLimit, hlimit, h⟩ := except_bind_ok h
  obtain ⟨retry, hretry, h⟩ := except_bind_ok h
  obtain ⟨onError, honError, h⟩ := except_bind_ok h
  obtain ⟨schema, -, h⟩ := except_bind_ok h
  obtain ⟨output, -, h⟩ := except_bind_ok h
  cases h
  exact ⟨rfl, hlimit, hproviders, ⟨retry, hretry, rfl⟩, rfl, honError, htasks⟩

/-- A task as `from_dict` fills it, with the annotated types. -/
def loadTask (lib : Sdk.PyLib) (t : Json) : Except Sdk.PyError Sdk.Task :=
  Sdk.Stored.Task.fromDict lib t >>= Sdk.Stored.Task.typed

/-- The policies of a task that `from_dict` builds, as far as the comparison needs them. -/
theorem loadTask_spec {lib : Sdk.PyLib} (hlib : AsciiDigits lib)
    {members : List (String × Json)} (hok : TaskOk members) {st : Sdk.Task}
    (h : loadTask lib (.obj members) = .ok st) :
    st.id = (memberAs strOf "id" members).getD "" ∧
      st.retry = ((memberAs membersOf "retry" members).filter (· ≠ [])).map sdkRetry ∧
      st.timeout = memberAs durationOf "timeout" members ∧
      st.onError = memberAs strOf "on_error" members := by
  obtain ⟨v, hv⟩ := Option.isSome_iff_exists.mp (hok.required "id" (by simp))
  obtain ⟨id, rfl, -⟩ := Schema.spec_string (TaskOk.id hok v hv)
  have hid : (memberAs strOf "id" members).getD "" = id := by
    unfold memberAs
    rw [hv]
    rfl
  obtain ⟨t, h, htyped⟩ := except_bind_ok h
  simp only [Sdk.Stored.Task.fromDict, Sdk.pyItem, Sdk.pyGet, ok_bind, hv] at h
  obtain ⟨skill, -, h⟩ := except_bind_ok h
  -- A list of dependencies that is not empty is one more step, and the rest is the same.
  split at h
  on_goal 1 => obtain ⟨dependsOn, -, h⟩ := except_bind_ok h
  all_goals
    obtain ⟨inputs, -, h⟩ := except_bind_ok h
    rw [retry_fromDict hlib (TaskOk.retry hok), ok_bind,
      parseDuration_member hlib (TaskOk.timeout hok), ok_bind, Option.or_none] at h
    cases h
    unfold Sdk.Stored.Task.typed at htyped
    obtain ⟨inputs', -, htyped⟩ := except_bind_ok htyped
    obtain ⟨id', hid', htyped⟩ := except_bind_ok htyped
    obtain ⟨skill', -, htyped⟩ := except_bind_ok htyped
    obtain ⟨provider, -, htyped⟩ := except_bind_ok htyped
    obtain ⟨deps, -, htyped⟩ := except_bind_ok htyped
    rw [retry_typed (TaskOk.retry hok), ok_bind, asOptStr_member (TaskOk.onError hok), ok_bind]
      at htyped
    cases hid'
    cases htyped
    exact ⟨hid.symm, rfl, rfl, rfl⟩

/-- The effective policy of a task that `from_dict` builds, in the terms of the members of the
document. -/
theorem sdk_policy {lib : Sdk.PyLib} (hlib : AsciiDigits lib) {ms members : List (String × Json)}
    (htask : TaskOk members) {sw : Sdk.Workflow} {st : Sdk.Task}
    (hretry : sw.defaultRetry = some ((((memberAs membersOf "retry" (docDefaults ms)).filter
      (· ≠ [])).map sdkRetry).getD {}))
    (htimeout : sw.defaultTimeout = memberAs durationOf "timeout" (docDefaults ms))
    (honError : sw.defaultOnError = (memberAs strOf "on_error" (docDefaults ms)).getD "fail_fast")
    (h : loadTask lib (.obj members) = .ok st) :
    sdkPolicy sw st = docPolicy ms members (docSdkRetry ms members) := by
  obtain ⟨htid, htretry, httimeout, htonError⟩ := loadTask_spec hlib htask h
  -- As in the Go engine, but a retry policy without members counts as none.
  have h₁ : (Sdk.Runner.effectiveRetry sw st).toGo = docSdkRetry ms members := by
    unfold Sdk.Runner.effectiveRetry docSdkRetry
    rw [htretry, hretry]
    cases (memberAs membersOf "retry" members).filter (· ≠ []) <;> rfl
  have h₂ : Sdk.Runner.effectiveTimeout sw st = appliedTimeout ms members := by
    unfold Sdk.Runner.effectiveTimeout appliedTimeout
    rw [httimeout, htimeout]
    cases memberAs durationOf "timeout" members <;> rfl
  have h₃ : Sdk.Runner.effectiveOnError sw st = appliedOnError ms members := by
    show (if st.onError.getD "" ≠ "" then st.onError.getD "" else sw.defaultOnError) = _
    unfold appliedOnError
    rw [htonError, onError_or (TaskOk.onError htask), honError]
    cases memberAs strOf "on_error" members <;> rfl
  unfold sdkPolicy docPolicy
  rw [h₁, h₂, h₃, htid]

/-- The provider of a name, as `from_dict` fills it and with the annotated types. -/
theorem sdk_provider {lib : Sdk.PyLib} (hlib : AsciiDigits lib) {pm : List (String × Json)}
    (hpm : ProviderOk pm) {name : String} {x : Sdk.Stored.Provider} {y : Sdk.Provider}
    (hx : Sdk.Stored.Provider.fromDict lib name (.obj pm) = .ok x) (hy : x.typed = .ok y) :
    y.rateLimit = (memberAs membersOf "rate_limit" pm).map sdkRateLimit := by
  have horEmpty : Sdk.orEmpty (.obj pm) = .obj pm := by cases pm <;> rfl
  simp only [Sdk.Stored.Provider.fromDict, horEmpty, Sdk.pyGet, ok_bind,
    rateLimit_fromDict hlib (ProviderOk.rateLimit hpm)] at hx
  cases hx
  simp only [Sdk.Stored.Provider.typed, rateLimit_typed (ProviderOk.rateLimit hpm), ok_bind] at hy
  cases hy
  rfl

/-- The workflow that Python loads, in the terms of the members of the document, as `go_loads` has
it for Go. -/
theorem sdk_loads {lib : Sdk.PyLib} (hlib : AsciiDigits lib) {top ms : List (String × Json)}
    (hwf : Dict.find "workflow" top = some (.obj ms)) (hok : WorkflowOk ms)
    {m : Sdk.Stored.Workflow} (h : Sdk.Stored.Workflow.load lib (.obj top) = .ok m)
    {sw : Sdk.Workflow} (hsw : m.typed = .ok sw) :
    Loads ms (docSdkRetry ms) sw.maxParallel (sw.rateLimit.map (·.toGo))
      (fun name => (sw.providers.get? name).map fun p => p.rateLimit.map (·.toGo))
      (sw.tasks.map (sdkPolicy sw)) := by
  obtain ⟨hmax, hlimit, hproviders, hretry, htimeout, honError, htasks⟩ :=
    load_fields hlib hwf hok h
  obtain ⟨hmax', hlimit', hproviders', ⟨r, hr, hretry'⟩, htimeout', honError', htasks'⟩ :=
    typed_fields hsw
  have hcok : ConcurrencyOk (objectAt "concurrency" ms) := conforms_objectAt hok.concurrency
  have hdok : DefaultsOk (docDefaults ms) := conforms_objectAt hok.defaults
  -- The defaults, with the annotated types.
  have htyped : m.defaultRetry.typed = .ok ((((memberAs membersOf "retry" (docDefaults ms)).filter
      (· ≠ [])).map sdkRetry).getD {}) := by
    rw [hretry]
    cases hm : memberAs membersOf "retry" (docDefaults ms) with
    | none => rfl
    | some rs =>
        by_cases hnil : rs = []
        · rw [hnil]
          rfl
        · rw [Option.filter_some_pos (by simpa using hnil)]
          exact storedRetry_typed (conforms_member (DefaultsOk.retry hdok) hm)
  have hdefault : sw.defaultRetry = some ((((memberAs membersOf "retry" (docDefaults ms)).filter
      (· ≠ [])).map sdkRetry).getD {}) := by
    rw [hretry', Except.ok.inj (hr.symm.trans htyped)]
  have honErrorDefault : sw.defaultOnError
      = (memberAs strOf "on_error" (docDefaults ms)).getD "fail_fast" := by
    rw [honError, asStr_member (DefaultsOk.onError hdok)] at honError'
    exact (Except.ok.inj honError').symm
  refine ⟨hmax'.trans hmax, ?_, fun name => ?_, ?_⟩
  · rw [hlimit, rateLimit_typed (ConcurrencyOk.rateLimit hcok)] at hlimit'
    rw [← Except.ok.inj hlimit', Option.map_map]
    rfl
  · have hpok := conforms_objectAt hok.providers
    obtain ⟨hsome, hnone⟩ := @get?_foldlM_ok _ _ _ _ _ (Sdk.Stored.Provider.fromDict lib) name _ _ _
      hpok.distinct hproviders
    obtain ⟨hsome', hnone'⟩ := @get?_foldlM_ok _ _ _ _ _
      (fun (_ : String) (p : Sdk.Stored.Provider) => p.typed) name _ _ _
      m.providers.nodup hproviders'
    unfold docLimit
    cases hp : Dict.find name (objectAt "providers" ms) with
    | none =>
        rw [hnone' (hnone hp)]
        rfl
    | some p =>
        obtain ⟨x, hx, hget⟩ := hsome p hp
        obtain ⟨y, hy, hget'⟩ := hsome' x hget
        have hprovider : SpecSchema.provider p = true := hpok.member name p hp
        obtain ⟨pm, rfl, hpm⟩ := Schema.spec_object hprovider
        rw [hget', Option.map_some, sdk_provider hlib hpm hx hy]
        show some (((memberAs membersOf "rate_limit" pm).map sdkRateLimit).map (·.toGo))
          = some (goLimitAt pm)
        rw [Option.map_map]
        rfl
  · obtain ⟨items, -, hdoc, hitems⟩ := hok.items
    have hload := mapM_ok_comp htasks htasks'
    unfold docTasks
    rw [hdoc] at hload ⊢
    rw [List.map_map]
    refine map_of_mapM_ok hload fun a ha st hst => ?_
    obtain ⟨members, rfl, hmembers⟩ := Schema.spec_object (hitems a ha)
    exact sdk_policy hlib hmembers hdefault (htimeout'.trans htimeout) honErrorDefault hst

end Orchestrator.Proofs
