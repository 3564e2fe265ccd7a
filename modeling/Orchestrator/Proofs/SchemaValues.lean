import Orchestrator.Proofs.LoadedWorkflow
import Orchestrator.Proofs.ValidateExact

/-!
# `Orchestrator.Proofs.SchemaValues`: the constraints of the schema on the values of a document

The schema puts bounds and lists of words on the values that the engines rely on: task ids, error
policies, retry limits and backoffs, `max_parallel`, and the numbers of a rate limit. A document
keeps them (`Reader.Kept`) if the values that a loader reads from it do, and a loaded workflow meets
them (`Meets`) if its own do.

`Parse` keeps all values as they are, so a document that keeps the constraints gives a workflow that
meets them (`go_meets`), and it tests none of them: it refuses a document for other reasons only
(`go_refuses_iff`). These reasons are listed stage by stage, in the order in which the code comes to
them (`RawRefused`, `GoRefuses`): the text does not decode, a provider or a task is null, an id
occurs twice, or `Validate` finds a bad dependency, an undeclared provider or a cycle.

The document need not conform to the schema in any other respect. It may have members of any name,
and several of one name, and a field is then decoded from one after the other
(`decodeStruct_field`). So `Reader` says how a loader reads an object, and the constraints are
stated about what it reads. The section `Fold` has the two ways in which a field comes to its last
value: where each value keeps a property, and where one value is enough to make it.

The Python side is in `SdkSchemaValues`, with a reader of its own.
-/

set_option autoImplicit false

namespace Orchestrator.Proofs

open Orchestrator.Lib Orchestrator.Engine

/-! ### Constraints -/

/-- What a schema says about the property of an object. -/
def constraint (properties : List (String × Schema)) (key : String) : Schema :=
  Schema.ofKey properties .never key

/-- The values of a workflow that the schema constrains, from wherever they can be written. Some of
them are of any type, since Python stores them as they come. -/
structure Loaded where
  ids : List Json
  /-- The error policies that are given. -/
  onErrors : List Json
  /-- The limit and the backoff of each retry policy, if one is given. -/
  retries : List (Int × Option Json)
  /-- The requests and the token budget of each rate limit, if one is given. -/
  limits : List (Int × Option Json)
  maxParallel : Int

/-- The values are as the schema wants them. For each constrained property of the schema there is a
clause, and no other property has a constraint. -/
structure Meets (x : Loaded) : Prop where
  ids : ∀ v ∈ x.ids, constraint SpecSchema.taskProperties "id" v = true
  onErrors : ∀ v ∈ x.onErrors, SpecSchema.onError v = true
  retries : ∀ r ∈ x.retries, constraint SpecSchema.retryProperties "max" (.num r.1) = true ∧
    ∀ v ∈ r.2, constraint SpecSchema.retryProperties "backoff" v = true
  limits : ∀ l ∈ x.limits, constraint SpecSchema.rateLimitProperties "requests" (.num l.1) = true ∧
    ∀ v ∈ l.2, constraint SpecSchema.rateLimitProperties "tokens" v = true
  maxParallel : constraint SpecSchema.concurrencyProperties "max_parallel"
    (.num x.maxParallel) = true

/-- How a loader reads the objects of a document. The two loaders take different members for a field
and convert them in different ways, and the condition below is one for both. -/
structure Reader where
  /-- The values it takes for a field of an object whose fields have some names. -/
  values : List String → String → List (String × Json) → List Json
  /-- The integer it makes of a value. -/
  int : Json → Option Int
  /-- The token budget it makes of a value. -/
  count : Json → Option Json
  /-- The members of a value that it reads as an object. -/
  object : Json → Option (List (String × Json))

/-- The number that a value reads as. -/
def asNumber (f : Json → Option Int) (v : Json) : Option Json := (f v).map fun n : Int => .num n

namespace Reader

variable (R : Reader)

/-- The values of a property of an object. -/
def valuesOf (properties : List (String × Schema)) (key : String) (ms : List (String × Json)) :
    List Json :=
  R.values (properties.map Prod.fst) key ms

/-- A value is null or reads as one that the schema allows. Where a member occurs more than once,
every value that the loader takes counts. -/
def Field (properties : List (String × Schema)) (key : String) (read : Json → Option Json)
    (ms : List (String × Json)) : Prop :=
  ∀ v ∈ R.valuesOf properties key ms,
    v = .null ∨ ∃ x, read v = some x ∧ constraint properties key x = true

/-- There is a value. -/
def Given (properties : List (String × Schema)) (key : String) (ms : List (String × Json)) : Prop :=
  ∃ v ∈ R.valuesOf properties key ms, v ≠ .null

/-- A value that is an object has a property. -/
def Inside (properties : List (String × Schema)) (key : String)
    (P : List (String × Json) → Prop) (ms : List (String × Json)) : Prop :=
  ∀ v ∈ R.valuesOf properties key ms, ∀ inner, R.object v = some inner → P inner

/-- A retry object. -/
structure RetryKept (ms : List (String × Json)) : Prop where
  max : R.Field SpecSchema.retryProperties "max" (asNumber R.int) ms
  backoff : R.Field SpecSchema.retryProperties "backoff" some ms

/-- A rate limit within the constraints, with a number of requests that is given. -/
structure LimitKept (ms : List (String × Json)) : Prop where
  requests : R.Field SpecSchema.rateLimitProperties "requests" (asNumber R.int) ms
  given : R.Given SpecSchema.rateLimitProperties "requests" ms
  tokens : R.Field SpecSchema.rateLimitProperties "tokens" R.count ms

/-- A task within the constraints, with an id that is given. -/
structure TaskKept (ms : List (String × Json)) : Prop where
  id : R.Field SpecSchema.taskProperties "id" some ms
  given : R.Given SpecSchema.taskProperties "id" ms
  onError : R.Field SpecSchema.taskProperties "on_error" some ms
  retry : R.Inside SpecSchema.taskProperties "retry" R.RetryKept ms

/-- The `concurrency` object. -/
structure ConcurrencyKept (ms : List (String × Json)) : Prop where
  maxParallel : R.Field SpecSchema.concurrencyProperties "max_parallel" (asNumber R.int) ms
  rateLimit : R.Inside SpecSchema.concurrencyProperties "rate_limit" R.LimitKept ms

/-- The `defaults` object. -/
structure DefaultsKept (ms : List (String × Json)) : Prop where
  retry : R.Inside SpecSchema.defaultsProperties "retry" R.RetryKept ms
  onError : R.Field SpecSchema.defaultsProperties "on_error" some ms

/-- A provider. -/
def ProviderKept (ms : List (String × Json)) : Prop :=
  R.Inside [("rate_limit", SpecSchema.rateLimit)] "rate_limit" R.LimitKept ms

/-- The `workflow` object within the constraints, its limits, policies and tasks included. -/
structure WorkflowKept (ms : List (String × Json)) : Prop where
  concurrency : R.Inside SpecSchema.workflowProperties "concurrency" R.ConcurrencyKept ms
  providers : R.Inside SpecSchema.workflowProperties "providers"
    (fun ps => ∀ e ∈ ps, ∀ p, R.object e.2 = some p → R.ProviderKept p) ms
  defaults : R.Inside SpecSchema.workflowProperties "defaults" R.DefaultsKept ms
  tasks : ∀ v ∈ R.valuesOf SpecSchema.workflowProperties "tasks" ms, ∀ items, v = .arr items →
    ∀ t ∈ items, ∃ ts, t = .obj ts ∧ R.TaskKept ts

/-- The document keeps the constraints, by the values that the loader reads. -/
def Kept (doc : Json) : Prop :=
  ∀ ms, R.object doc = some ms →
    R.Inside [("workflow", SpecSchema.workflow)] "workflow" R.WorkflowKept ms

end Reader

/-- A loader enforces the constraints on a document: the workflow it makes of the document meets
them, and it rejects a document that does not keep them. -/
structure Enforced {ε W : Type} (outcome : Except ε W) (rejection : ε → Prop) (values : W → Loaded)
    (kept : Prop) : Prop where
  meets : ∀ w, outcome = .ok w → Meets (values w)
  rejects : ¬ kept → ∃ e, outcome = .error e ∧ rejection e

/-- A loader that hands the values on enforces the constraints where the document does. -/
theorem enforced_iff {ε W : Type} {outcome : Except ε W} {rejection : ε → Prop}
    {values : W → Loaded} {kept : Prop} (h : kept → ∀ w, outcome = .ok w → Meets (values w)) :
    Enforced outcome rejection values kept ↔ kept ∨ ∃ e, outcome = .error e ∧ rejection e := by
  constructor
  · intro henf
    by_cases hk : kept
    · exact Or.inl hk
    · exact Or.inr (henf.rejects hk)
  · rintro (hk | ⟨e, he, hrej⟩)
    · exact ⟨h hk, fun hnot => absurd hk hnot⟩
    · refine ⟨fun w hw => ?_, fun _ => ⟨e, he, hrej⟩⟩
      rw [he] at hw
      cases hw

/-! ### The fields of a struct -/

/-- How `encoding/json` reads an object: it takes every member whose name fits a field, in any case,
and converts without loss or not at all. -/
def goReader : Reader where
  values names key ms := (ms.filter fun e => decide (fieldOf names e.1 = some key)).map (·.2)
  int v := decodeInt v 0
  count := asNumber fun v => decodeInt v 0
  object := membersOf

/-- The field that a member goes into is one of the names. -/
theorem fieldOf_mem {names : List String} {key name : String} (h : fieldOf names key = some name) :
    name ∈ names := by
  unfold fieldOf at h
  split at h
  · rename_i hmem
    exact Option.some.inj h ▸ hmem
  · exact List.mem_of_find?_eq_some h

/-- A field of a struct takes the values of the members that name it, one after another. -/
theorem decodeStruct_field {σ β : Type} {names : List String}
    {set : String → Json → σ → Option σ} {ms : List (String × Json)} {s s' : σ}
    (h : decodeStruct names set (.obj ms) s = some s') (key : String) (get : σ → β)
    (dec : Json → β → Option β) {put : σ → β → σ}
    (hown : ∀ v s, set key v s = (dec v (get s)).map (put s)) (hput : ∀ s x, get (put s x) = x)
    (hother : ∀ m ∈ names, m ≠ key → ∀ v s s', set m v s = some s' → get s' = get s) :
    (goReader.values names key ms).foldlM (fun b v => dec v b) (get s) = some (get s') := by
  unfold decodeStruct at h
  induction ms generalizing s with
  | nil =>
      cases h
      rfl
  | cons e ms ih =>
      simp only [List.foldlM_cons] at h
      obtain ⟨t, ht, h⟩ := Option.bind_eq_some_iff.mp h
      have hrest := ih h
      by_cases hfield : fieldOf names e.1 = some key
      · -- The member sets the field.
        have hvalues : goReader.values names key (e :: ms)
            = e.2 :: goReader.values names key ms := by
          simp [goReader, hfield]
        rw [hfield] at ht
        simp only [hown] at ht
        obtain ⟨x, hx, rfl⟩ := Option.map_eq_some_iff.mp ht
        rw [hput] at hrest
        rw [hvalues, List.foldlM_cons, hx]
        exact hrest
      · -- Another member, or one that names no field, leaves it alone.
        have hvalues : goReader.values names key (e :: ms) = goReader.values names key ms := by
          simp [goReader, hfield]
        have hsame : get t = get s := by
          cases hname : fieldOf names e.1 with
          | none =>
              rw [hname] at ht
              exact congrArg get (Option.some.inj ht).symm
          | some m =>
              rw [hname] at ht
              exact hother m (fieldOf_mem hname) (fun hm => hfield (hm ▸ hname)) e.2 s t ht
        rw [hvalues, ← hsame]
        exact hrest

section Fold

variable {β : Type} {dec : Json → β → Option β} {b b' : β} {vs : List Json}

/-- Where each value keeps what a field is to be, the field is so at the end. -/
theorem fold_keeps {Q : β → Prop} (h : vs.foldlM (fun b v => dec v b) b = some b') (hb : Q b)
    (hdec : ∀ v ∈ vs, ∀ b b', Q b → dec v b = some b' → Q b') : Q b' :=
  foldlM_some_keeps h hb hdec

/-- Where a value makes a field what it is to be, and null leaves it alone, one value is enough. -/
theorem fold_makes {Q : β → Prop} (h : vs.foldlM (fun b v => dec v b) b = some b')
    (hgiven : ∃ v ∈ vs, v ≠ .null) (hnull : ∀ b, dec .null b = some b)
    (hdec : ∀ v ∈ vs, v ≠ .null → ∀ b b', dec v b = some b' → Q b') : Q b' := by
  induction vs generalizing b with
  | nil =>
      obtain ⟨v, hv, -⟩ := hgiven
      cases hv
  | cons v vs ih =>
      rw [List.foldlM_cons] at h
      obtain ⟨x, hx, hrest⟩ := Option.bind_eq_some_iff.mp h
      -- A null leaves the field as it is, so the value is made by one of the others. Later ones
      -- keep it.
      by_cases hv : v = .null
      · subst hv
        obtain ⟨w, hw, hne⟩ := hgiven
        refine ih hrest ⟨w, (List.mem_cons.mp hw).resolve_left hne, hne⟩
          fun w hw => hdec w (List.mem_cons_of_mem _ hw)
      · refine fold_keeps hrest (hdec v List.mem_cons_self hv b x hx) fun w hw b b' hb hw' => ?_
        by_cases hne : w = .null
        · subst hne
          rw [hnull] at hw'
          exact Option.some.inj hw' ▸ hb
        · exact hdec w (List.mem_cons_of_mem _ hw) hne b b' hw'

end Fold

/-! ### Go -/

/-- A text, or nothing for the empty one. -/
def nonempty (s : String) : Option Json := if s = "" then none else some (.str s)

/-- A budget, or nothing for 0. -/
def nonzero (n : Int) : Option Json := if n = 0 then none else some (.num n)

/-- The constrained values of a workflow of the engine. A text or a number that may be absent counts
only if it is not the zero value. -/
def goValues (w : Workflow) : Loaded where
  ids := w.tasks.map fun t => .str t.id
  onErrors := (w.defaultOnError :: w.tasks.map (·.onError)).filterMap nonempty
  retries := (w.defaultRetry :: w.tasks.filterMap (·.retry)).map fun r =>
  (r.max, nonempty r.backoff)
  limits := (w.rateLimit.toList ++ w.providers.entries.filterMap (·.2.rateLimit)).map fun l =>
    (l.requests, nonzero l.tokens)
  maxParallel := w.maxParallel

/-- A text that is empty or allowed. -/
def TextMeets (schema : Schema) (s : String) : Prop := s = "" ∨ schema (.str s) = true

/-- A number that is 0 or allowed. -/
def NumberMeets (schema : Schema) (n : Int) : Prop := n = 0 ∨ schema (.num n) = true

/-- The values of a retry policy. -/
structure RetryMeets (r : Retry) : Prop where
  max : NumberMeets (constraint SpecSchema.retryProperties "max") r.max
  backoff : TextMeets (constraint SpecSchema.retryProperties "backoff") r.backoff

/-- The token budget of a rate limit. -/
def TokensMeet (l : RateLimit) : Prop :=
  NumberMeets (constraint SpecSchema.rateLimitProperties "tokens") l.tokens

/-- The values of a rate limit. -/
structure LimitMeets (l : RateLimit) : Prop where
  requests : constraint SpecSchema.rateLimitProperties "requests" (.num l.requests) = true
  tokens : TokensMeet l

/-- The values of a task meet the constraints. -/
structure TaskMeets (t : Task) : Prop where
  id : constraint SpecSchema.taskProperties "id" (.str t.id) = true
  onError : TextMeets SpecSchema.onError t.onError
  retry : ∀ r ∈ t.retry, RetryMeets r

section Decode

variable {schema : Schema} {v : Json}

/-- A text that is decoded. -/
theorem decodeString_makes (hv : v = .null ∨ ∃ x, some v = some x ∧ schema x = true)
    (hne : v ≠ .null) {cur s : String} (h : decodeString v cur = some s) :
    schema (.str s) = true := by
  obtain ⟨x, hx, hs⟩ := hv.resolve_left hne
  cases hx
  cases v with
  | str t =>
      cases h
      exact hs
  | null => exact absurd rfl hne
  | _ => cases h

/-- A text that is decoded or left alone meets what the schema says. -/
theorem decodeString_keeps (hv : v = .null ∨ ∃ x, some v = some x ∧ schema x = true)
    {cur s : String} (hcur : TextMeets schema cur) (h : decodeString v cur = some s) :
    TextMeets schema s := by
  by_cases hne : v = .null
  · subst hne
    exact Option.some.inj h ▸ hcur
  · exact Or.inr (decodeString_makes hv hne h)

/-- An integer that is decoded. -/
theorem decodeInt_makes (hv : v = .null ∨ ∃ x, asNumber goReader.int v = some x ∧ schema x = true)
    (hne : v ≠ .null) {cur n : Int} (h : decodeInt v cur = some n) : schema (.num n) = true := by
  obtain ⟨x, hx, hs⟩ := hv.resolve_left hne
  obtain ⟨m, hm, rfl⟩ := Option.map_eq_some_iff.mp hx
  have hcur : decodeInt v cur = decodeInt v 0 := by
    cases v with
    | null => exact absurd rfl hne
    | num k =>
        cases k with
        | minusZero point => cases point <;> rfl
        | _ => rfl
    | _ => rfl
  have hnm : some n = some m := h.symm.trans (hcur.trans hm)
  rw [Option.some.inj hnm]
  exact hs

/-- An integer that is decoded or left alone meets what the schema says. -/
theorem decodeInt_keeps (hv : v = .null ∨ ∃ x, asNumber goReader.int v = some x ∧ schema x = true)
    {cur n : Int} (hcur : NumberMeets schema cur) (h : decodeInt v cur = some n) :
    NumberMeets schema n := by
  by_cases hne : v = .null
  · subst hne
    exact Option.some.inj h ▸ hcur
  · exact Or.inr (decodeInt_makes hv hne h)

/-- A struct is decoded from an object, or left alone by null. -/
theorem decodeStruct_cases {σ : Type} {names : List String} {set : String → Json → σ → Option σ}
    {s s' : σ} (h : decodeStruct names set v s = some s') :
    (v = .null ∧ s' = s) ∨ ∃ ms, v = .obj ms := by
  cases v with
  | null => exact Or.inl ⟨rfl, (Option.some.inj h).symm⟩
  | obj ms => exact Or.inr ⟨ms, rfl⟩
  | _ => cases h

/-- What a pointer points to. -/
theorem decodePtr_keeps {α : Type} {dec : Json → α → Option α} {zero : α} {Q : α → Prop}
    (hdec : v ≠ .null → ∀ a a', (a = zero ∨ Q a) → dec v a = some a' → Q a') {cur new : Option α}
    (hcur : ∀ a ∈ cur, Q a) (h : decodePtr dec zero v cur = some new) : ∀ a ∈ new, Q a := by
  by_cases hne : v = .null
  · subst hne
    cases h
    intro a ha
    cases ha
  · rw [decodePtr_of_ne_null dec zero hne] at h
    obtain ⟨x, hx, rfl⟩ := Option.map_eq_some_iff.mp h
    intro a ha
    cases ha
    refine hdec hne _ _ ?_ hx
    cases hc : cur with
    | none => exact Or.inl rfl
    | some y => exact Or.inr (hcur y hc)

end Decode

/-- A retry object. -/
theorem decodeRetry_keeps {v : Json} (hk : ∀ ms, membersOf v = some ms → goReader.RetryKept ms)
    {r r' : Retry} (hr : RetryMeets r) (h : decodeRetry v r = some r') : RetryMeets r' := by
  rcases decodeStruct_cases h with ⟨-, rfl⟩ | ⟨ms, rfl⟩
  · exact hr
  have hkept := hk ms rfl
  have hmax := decodeStruct_field h "max" (·.max) decodeInt (fun _ _ => rfl) (fun _ _ => rfl)
    (by simp [Option.map_eq_some_iff]; grind)
  have hbackoff := decodeStruct_field h "backoff" (·.backoff) decodeString (fun _ _ => rfl)
    (fun _ _ => rfl) (by simp [Option.map_eq_some_iff]; grind)
  exact ⟨fold_keeps hmax hr.max fun v hv _ _ => decodeInt_keeps (hkept.max v hv),
    fold_keeps hbackoff hr.backoff fun v hv _ _ => decodeString_keeps (hkept.backoff v hv)⟩

/-- A rate limit, which names its requests. -/
theorem decodeRateLimit_makes {v : Json} (hk : ∀ ms, membersOf v = some ms → goReader.LimitKept ms)
    (hne : v ≠ .null) {l l' : RateLimit} (hl : TokensMeet l) (h : decodeRateLimit v l = some l') :
    LimitMeets l' := by
  rcases decodeStruct_cases h with ⟨hv, -⟩ | ⟨ms, rfl⟩
  · exact absurd hv hne
  have hkept := hk ms rfl
  have hrequests := decodeStruct_field h "requests" (·.requests) decodeInt (fun _ _ => rfl)
    (fun _ _ => rfl) (by simp [Option.map_eq_some_iff])
  have htokens := decodeStruct_field h "tokens" (·.tokens) decodeInt (fun _ _ => rfl)
    (fun _ _ => rfl) (by simp [Option.map_eq_some_iff])
  refine ⟨?_, fold_keeps (Q := NumberMeets (constraint SpecSchema.rateLimitProperties "tokens"))
    htokens hl fun v hv _ _ => decodeInt_keeps (hkept.tokens v hv)⟩
  exact fold_makes (Q := fun n : Int =>
      constraint SpecSchema.rateLimitProperties "requests" (.num n) = true)
    hrequests hkept.given (fun _ => rfl) fun v hv hne _ _ =>
    decodeInt_makes (hkept.requests v hv) hne

/-- A pointer to a rate limit. -/
theorem limitPtr_keeps {v : Json} (hk : ∀ ms, membersOf v = some ms → goReader.LimitKept ms)
    {cur new : Option RateLimit} (hcur : ∀ l ∈ cur, LimitMeets l)
    (h : decodePtr decodeRateLimit zeroRateLimit v cur = some new) : ∀ l ∈ new, LimitMeets l := by
  refine decodePtr_keeps (fun hne a a' ha => decodeRateLimit_makes hk hne ?_) hcur h
  rcases ha with rfl | ha
  · exact Or.inl rfl
  · exact ha.tokens

/-- A pointer to a retry object. -/
theorem retryPtr_keeps {v : Json} (hk : ∀ ms, membersOf v = some ms → goReader.RetryKept ms)
    {cur new : Option Retry} (hcur : ∀ r ∈ cur, RetryMeets r)
    (h : decodePtr decodeRetry zeroRetry v cur = some new) : ∀ r ∈ new, RetryMeets r := by
  refine decodePtr_keeps (fun _ a a' ha => decodeRetry_keeps hk ?_) hcur h
  rcases ha with rfl | ha
  · exact ⟨Or.inl rfl, Or.inl rfl⟩
  · exact ha

/-- A task, which has an id. It is decoded over a new task or over one from before. -/
theorem decodeTask_makes {ms : List (String × Json)} (hk : goReader.TaskKept ms) {t t' : RawTask}
    (ht : t = zeroTask ∨ TaskMeets t.toTask) (h : decodeTask (.obj ms) t = some t') :
    TaskMeets t'.toTask := by
  have hid := decodeStruct_field h "id" (·.id) decodeString (fun _ _ => rfl) (fun _ _ => rfl)
    (by simp [Option.map_eq_some_iff]; grind)
  have honError := decodeStruct_field h "on_error" (·.onError) decodeString (fun _ _ => rfl)
    (fun _ _ => rfl) (by simp [Option.map_eq_some_iff]; grind)
  have hretry := decodeStruct_field h "retry" (·.retry) (decodePtr decodeRetry zeroRetry)
    (fun _ _ => rfl) (fun _ _ => rfl) (by simp [Option.map_eq_some_iff]; grind)
  -- The id has to be given, so it is made by the decoder. The other two may keep their zero values.
  refine ⟨?_, ?_, ?_⟩
  · exact fold_makes (Q := fun s => constraint SpecSchema.taskProperties "id" (.str s) = true)
      hid hk.given (fun _ => rfl) fun v hv hne _ _ => decodeString_makes (hk.id v hv) hne
  · refine fold_keeps honError ?_ fun v hv _ _ => decodeString_keeps (hk.onError v hv)
    rcases ht with rfl | ht
    · exact Or.inl rfl
    · exact ht.onError
  · refine fold_keeps (Q := fun o : Option Retry => ∀ r ∈ o, RetryMeets r) hretry ?_
      fun v hv _ _ => retryPtr_keeps (hk.retry v hv)
    rcases ht with rfl | ht
    · intro r hr
      cases hr
    · exact ht.retry

/-- The values of a document that is being decoded, the tasks behind the last one included. -/
structure RawMeets (rw : RawBuffer) : Prop where
  concurrency : ∀ c ∈ rw.concurrency, ∀ l ∈ c.rateLimit, LimitMeets l
  providers : ∀ name p, rw.providers.get? name = some (some p) → ∀ l ∈ p.rateLimit, LimitMeets l
  defaults : ∀ d ∈ rw.defaults,
    (∀ r ∈ d.retry, RetryMeets r) ∧ TextMeets SpecSchema.onError d.onError
  tasks : ∀ t, some t ∈ rw.tasks.items ++ rw.tasks.spare → TaskMeets t.toTask

/-- A `concurrency` object. -/
theorem decodeConcurrency_keeps {v : Json}
    (hk : ∀ ms, membersOf v = some ms → goReader.ConcurrencyKept ms) {c c' : RawConcurrency}
    (hc : ∀ l ∈ c.rateLimit, LimitMeets l) (h : decodeConcurrency v c = some c') :
    ∀ l ∈ c'.rateLimit, LimitMeets l := by
  rcases decodeStruct_cases h with ⟨-, rfl⟩ | ⟨ms, rfl⟩
  · exact hc
  have hlimit := decodeStruct_field h "rate_limit" (·.rateLimit)
    (decodePtr decodeRateLimit zeroRateLimit) (fun _ _ => rfl) (fun _ _ => rfl)
    (by simp [Option.map_eq_some_iff])
  exact fold_keeps (Q := fun o : Option RateLimit => ∀ l ∈ o, LimitMeets l) hlimit hc
    fun v hv _ _ => limitPtr_keeps ((hk ms rfl).rateLimit v hv)

/-- A `defaults` object. -/
theorem decodeDefaults_keeps {v : Json}
    (hk : ∀ ms, membersOf v = some ms → goReader.DefaultsKept ms) {d d' : RawDefaults}
    (hd : (∀ r ∈ d.retry, RetryMeets r) ∧ TextMeets SpecSchema.onError d.onError)
    (h : decodeDefaults v d = some d') :
    (∀ r ∈ d'.retry, RetryMeets r) ∧ TextMeets SpecSchema.onError d'.onError := by
  rcases decodeStruct_cases h with ⟨-, rfl⟩ | ⟨ms, rfl⟩
  · exact hd
  have hretry := decodeStruct_field h "retry" (·.retry) (decodePtr decodeRetry zeroRetry)
    (fun _ _ => rfl) (fun _ _ => rfl) (by simp [Option.map_eq_some_iff])
  have honError := decodeStruct_field h "on_error" (·.onError) decodeString (fun _ _ => rfl)
    (fun _ _ => rfl) (by simp [Option.map_eq_some_iff])
  exact ⟨fold_keeps (Q := fun o : Option Retry => ∀ r ∈ o, RetryMeets r) hretry hd.1
      fun v hv _ _ => retryPtr_keeps ((hk ms rfl).retry v hv),
    fold_keeps honError hd.2 fun v hv _ _ => decodeString_keeps ((hk ms rfl).onError v hv)⟩

/-- A pointer to a provider. -/
theorem decodeProvider_keeps {v : Json}
    (hk : ∀ ms, membersOf v = some ms → goReader.ProviderKept ms) {o : Option Provider}
    (h : decodePtr decodeProvider { name := "", rateLimit := none } v none = some o) :
    ∀ p ∈ o, ∀ l ∈ p.rateLimit, LimitMeets l := by
  refine decodePtr_keeps (Q := fun p : Provider => ∀ l ∈ p.rateLimit, LimitMeets l)
    (fun _ p p' hp h => ?_) (fun p hp => by cases hp) h
  -- The provider decoded into is the zero value or one that was decoded before.
  have hold : ∀ l ∈ p.rateLimit, LimitMeets l := by
    rcases hp with rfl | hp
    · intro l hl
      cases hl
    · exact hp
  rcases decodeStruct_cases h with ⟨-, rfl⟩ | ⟨ms, rfl⟩
  · exact hold
  have hlimit := decodeStruct_field h "rate_limit" (·.rateLimit)
    (decodePtr decodeRateLimit zeroRateLimit) (fun _ _ => rfl) (fun _ _ => rfl)
    (by simp [Option.map_eq_some_iff])
  exact fold_keeps (Q := fun o : Option RateLimit => ∀ l ∈ o, LimitMeets l) hlimit hold
    fun v hv _ _ => limitPtr_keeps (hk ms rfl v hv)

/-- The map of the providers. -/
theorem decodeProviders_keeps {v : Json}
    (hk : ∀ ps, membersOf v = some ps → ∀ e ∈ ps, ∀ p, membersOf e.2 = some p →
      goReader.ProviderKept p) {d d' : Dict String (Option Provider)}
    (hd : ∀ name p, d.get? name = some (some p) → ∀ l ∈ p.rateLimit, LimitMeets l)
    (h : decodeMap (fun v => decodePtr decodeProvider { name := "", rateLimit := none } v none) v d
      = some d') :
    ∀ name p, d'.get? name = some (some p) → ∀ l ∈ p.rateLimit, LimitMeets l := by
  cases v with
  | null =>
      cases h
      intro name p hp
      cases hp
  | obj ps =>
      refine foldlM_some_keeps
        (P := fun d : Dict String (Option Provider) => ∀ name p, d.get? name = some (some p) →
          ∀ l ∈ p.rateLimit, LimitMeets l) h hd fun e he d d' hd hstep name p hp => ?_
      obtain ⟨o, ho, rfl⟩ := Option.map_eq_some_iff.mp hstep
      -- Each entry is decoded into a new provider, also for a name that occurred before.
      by_cases hname : name = e.1
      · subst hname
        rw [Dict.get?_set_self] at hp
        cases hp
        exact decodeProvider_keeps (hk ps rfl e he) ho p rfl
      · rw [Dict.get?_set_ne d o hname] at hp
        exact hd name p hp
  | _ => cases h

/-- The slice of the tasks. -/
theorem decodeTasks_makes {v : Json}
    (hk : ∀ items, v = .arr items → ∀ t ∈ items, ∃ ts, t = .obj ts ∧ goReader.TaskKept ts)
    {ts ts' : Slice (Option RawTask)}
    (hts : ∀ t, some t ∈ ts.items ++ ts.spare → TaskMeets t.toTask)
    (h : decodeSlice (decodePtr decodeTask zeroTask) none v ts = some ts') :
    ∀ t, some t ∈ ts'.items ++ ts'.spare → TaskMeets t.toTask := by
  obtain ⟨hitems, hspare⟩ := mem_decodeSlice h
  intro t ht
  rcases List.mem_append.mp ht with ht | ht
  · obtain ⟨items, rfl, item, hitem, cur, hcur, hdec⟩ := hitems _ ht
    obtain ⟨ms, rfl, hms⟩ := hk items rfl item hitem
    obtain ⟨x, hx, hxt⟩ := Option.map_eq_some_iff.mp hdec
    cases hxt
    refine decodeTask_makes hms ?_ hx
    cases cur with
    | none => exact Or.inl rfl
    | some y => exact Or.inr (hts y (hcur.resolve_left (by simp)))
  · exact hts t (hspare _ ht)

/-- A `workflow` object. -/
theorem decodeWorkflow_keeps {v : Json}
    (hk : ∀ ms, membersOf v = some ms → goReader.WorkflowKept ms) {rw rw' : RawBuffer}
    (hrw : RawMeets rw) (h : decodeWorkflow v rw = some rw') : RawMeets rw' := by
  rcases decodeStruct_cases h with ⟨-, rfl⟩ | ⟨ms, rfl⟩
  · exact hrw
  have hms := hk ms rfl
  -- The members that the constraints are about, each with its decoder.
  have hconcurrency := decodeStruct_field h "concurrency" (·.concurrency)
    (decodePtr decodeConcurrency { maxParallel := 0, rateLimit := none }) (fun _ _ => rfl)
    (fun _ _ => rfl) (by simp [workflowFields, setWorkflow, Option.map_eq_some_iff])
  have hproviders := decodeStruct_field h "providers" (·.providers)
    (decodeMap fun v => decodePtr decodeProvider { name := "", rateLimit := none } v none)
    (fun _ _ => rfl) (fun _ _ => rfl)
    (by simp [workflowFields, setWorkflow, Option.map_eq_some_iff])
  have hdefaults := decodeStruct_field h "defaults" (·.defaults)
    (decodePtr decodeDefaults { retry := none, timeout := none, onError := "" }) (fun _ _ => rfl)
    (fun _ _ => rfl) (by simp [workflowFields, setWorkflow, Option.map_eq_some_iff])
  have htasks := decodeStruct_field h "tasks" (·.tasks)
    (decodeSlice (decodePtr decodeTask zeroTask) none) (fun _ _ => rfl)
    (fun _ _ => rfl) (by simp [workflowFields, setWorkflow, Option.map_eq_some_iff])
  refine ⟨?_, ?_, ?_, ?_⟩
  · refine fold_keeps (Q := fun o : Option RawConcurrency => ∀ c ∈ o, ∀ l ∈ c.rateLimit,
      LimitMeets l) hconcurrency hrw.concurrency fun v hv cur new hcur hdec => ?_
    refine decodePtr_keeps (fun _ c c' hc => decodeConcurrency_keeps (hms.concurrency v hv) ?_)
      hcur hdec
    rcases hc with rfl | hc
    · intro l hl
      cases hl
    · exact hc
  · exact fold_keeps (Q := fun d : Dict String (Option Provider) => ∀ name p,
      d.get? name = some (some p) → ∀ l ∈ p.rateLimit, LimitMeets l) hproviders hrw.providers
      fun v hv _ _ => decodeProviders_keeps (hms.providers v hv)
  · refine fold_keeps (Q := fun o : Option RawDefaults => ∀ d ∈ o,
      (∀ r ∈ d.retry, RetryMeets r) ∧ TextMeets SpecSchema.onError d.onError) hdefaults
      hrw.defaults fun v hv cur new hcur hdec => ?_
    refine decodePtr_keeps (fun _ d d' hd => decodeDefaults_keeps (hms.defaults v hv) ?_) hcur hdec
    rcases hd with rfl | hd
    · exact ⟨fun r hr => (by cases hr), Or.inl rfl⟩
    · exact hd
  · exact fold_keeps (Q := fun ts : Slice (Option RawTask) =>
      ∀ t, some t ∈ ts.items ++ ts.spare → TaskMeets t.toTask) htasks hrw.tasks
      fun v hv _ _ => decodeTasks_makes (hms.tasks v hv)

/-- A document that keeps the constraints. -/
theorem decodeDocument_keeps {doc : Json} (hk : goReader.Kept doc) {rw : RawWorkflow}
    (h : decodeDocument doc = some rw) : ∃ buffer, rw = buffer.raw ∧ RawMeets buffer := by
  obtain ⟨buffer, hbuffer, rfl⟩ := Option.map_eq_some_iff.mp h
  refine ⟨buffer, rfl, ?_⟩
  have hzero : RawMeets zeroWorkflow :=
    ⟨fun c hc => (by cases hc), fun name p hp => (by cases hp), fun d hd => (by cases hd),
      fun t ht => (by cases ht)⟩
  rcases decodeStruct_cases hbuffer with ⟨-, rfl⟩ | ⟨ms, rfl⟩
  · exact hzero
  have hworkflow :=
    @decodeStruct_field _ _ _ _ _ _ _ hbuffer "workflow" id decodeWorkflow (fun _ x => x)
    (fun v s => by simp) (fun _ _ => rfl) (by simp)
  exact fold_keeps hworkflow hzero fun v hv _ _ => decodeWorkflow_keeps (hk ms rfl v hv)

/-- A text that is given is one that the schema allows. -/
theorem TextMeets.given {schema : Schema} {x : String} (hx : TextMeets schema x) {v : Json}
    (hv : nonempty x = some v) : schema v = true := by
  unfold nonempty at hv
  split at hv
  · cases hv
  · rename_i hne
    exact Option.some.inj hv ▸ hx.resolve_left hne

/-- A number that is given is one that the schema allows. -/
theorem NumberMeets.given {schema : Schema} {x : Int} (hx : NumberMeets schema x) {v : Json}
    (hv : nonzero x = some v) : schema v = true := by
  unfold nonzero at hv
  split at hv
  · cases hv
  · rename_i hne
    exact Option.some.inj hv ▸ hx.resolve_left hne

/-- A retry limit of 0 is allowed. -/
theorem RetryMeets.max_ok {r : Retry} (hr : RetryMeets r) :
    constraint SpecSchema.retryProperties "max" (.num r.max) = true := by
  rcases hr.max with h | h
  · rw [h]
    rfl
  · exact h

/-- The engine's own default policy meets the constraints. -/
theorem defaultRetry_meets : RetryMeets defaultRetry := ⟨Or.inl rfl, Or.inr rfl⟩

/-- A named provider keeps the rate limit of the decoded one. -/
theorem nameProviders_rateLimit {d : Dict String (Option Provider)} {d' : Dict String Provider}
    (h : nameProviders d = .ok d') {name : String} {p : Provider} (hp : d'.get? name = some p)
    {l : RateLimit} (hl : l ∈ p.rateLimit) :
    ∃ q, d.get? name = some (some q) ∧ l ∈ q.rateLimit := by
  unfold nameProviders at h
  split at h
  · cases h
  · cases h
    rw [Dict.get?_mapValues] at hp
    obtain ⟨o, ho, rfl⟩ := Option.map_eq_some_iff.mp hp
    obtain ⟨q, rfl, hq⟩ := Option.bind_eq_some_iff.mp hl
    exact ⟨q, ho, hq⟩

section Loaded

variable {iter : MapOrder} {rw : RawBuffer} {w : Workflow}

/-- The tasks of a loaded workflow meet the constraints. -/
theorem loaded_tasks_meet (hraw : RawMeets rw) (h : parse iter rw.raw = .ok w) :
    ∀ t ∈ w.tasks, TaskMeets t := by
  obtain ⟨-, -, -, -, -, -, htasks⟩ := parse_fields h
  intro t ht
  have hmem : some t ∈ rw.raw.tasks := htasks ▸ List.mem_map_of_mem ht
  obtain ⟨o, ho, hot⟩ := List.mem_map.mp hmem
  obtain ⟨raw, rfl, rfl⟩ := Option.map_eq_some_iff.mp hot
  exact hraw.tasks raw (List.mem_append_left _ ho)

/-- The rate limits of a loaded workflow meet the constraints. -/
theorem loaded_limits_meet (hraw : RawMeets rw) (h : parse iter rw.raw = .ok w) :
    ∀ l ∈ w.rateLimit.toList ++ w.providers.entries.filterMap (·.2.rateLimit), LimitMeets l := by
  obtain ⟨-, hlimit, hproviders, -⟩ := parse_fields h
  intro l hl
  rcases List.mem_append.mp hl with hl | hl
  · rw [Option.mem_toList, hlimit] at hl
    obtain ⟨c, hc, hcl⟩ := Option.bind_eq_some_iff.mp hl
    exact hraw.concurrency c hc l hcl
  · obtain ⟨e, he, hel⟩ := List.mem_filterMap.mp hl
    obtain ⟨q, hq, hql⟩ := nameProviders_rateLimit hproviders
      ((Dict.mem_entries w.providers e.1 e.2).mp he) hel
    exact hraw.providers e.1 q hq l hql

/-- Where no default is given, that of the engine is as the schema says. -/
theorem loaded_retries_meet (hraw : RawMeets rw) (h : parse iter rw.raw = .ok w) :
    ∀ r ∈ w.defaultRetry :: w.tasks.filterMap (·.retry), RetryMeets r := by
  obtain ⟨-, -, -, hretry, -⟩ := parse_fields h
  intro r hr
  rcases List.mem_cons.mp hr with rfl | hr
  · rw [hretry]
    cases hd : rw.raw.defaults.bind (·.retry) with
    | none => exact defaultRetry_meets
    | some r =>
        obtain ⟨d, hd, hdr⟩ := Option.bind_eq_some_iff.mp hd
        exact (hraw.defaults d hd).1 r hdr
  · obtain ⟨t, ht, htr⟩ := List.mem_filterMap.mp hr
    exact (loaded_tasks_meet hraw h t ht).retry r htr

/-- The error policies of a loaded workflow meet the constraints. -/
theorem loaded_policies_meet (hraw : RawMeets rw) (h : parse iter rw.raw = .ok w) :
    ∀ s ∈ w.defaultOnError :: w.tasks.map (·.onError), TextMeets SpecSchema.onError s := by
  obtain ⟨-, -, -, -, -, honError, -⟩ := parse_fields h
  intro s hs
  rcases List.mem_cons.mp hs with rfl | hs
  · rw [honError]
    cases hd : rw.raw.defaults with
    | none => exact Or.inr rfl
    | some d =>
        show TextMeets SpecSchema.onError (if d.onError ≠ "" then d.onError else "fail_fast")
        split
        · exact (hraw.defaults d hd).2
        · exact Or.inr rfl
  · obtain ⟨t, ht, rfl⟩ := List.mem_map.mp hs
    exact (loaded_tasks_meet hraw h t ht).onError

end Loaded

/-- `Parse` makes a workflow that meets the constraints of a document that keeps them. -/
theorem go_meets {iter : MapOrder} {msg : String} {doc : Json} (hk : goReader.Kept doc)
    {w : Workflow} (h : parseDocument iter msg doc = .ok w) : Meets (goValues w) := by
  unfold parseDocument at h
  cases hdec : decodeDocument doc with
  | none =>
      rw [hdec] at h
      cases h
  | some rw =>
      simp only [hdec] at h
      obtain ⟨buffer, rfl, hraw⟩ := decodeDocument_keeps hk hdec
      have hlimits := loaded_limits_meet hraw h
      have hretries := loaded_retries_meet hraw h
      have hpolicies := loaded_policies_meet hraw h
      refine ⟨fun s hs => ?_, fun s hs => ?_, fun x hx => ?_, fun x hx => ?_, ?_⟩
      · obtain ⟨t, ht, rfl⟩ := List.mem_map.mp hs
        exact (loaded_tasks_meet hraw h t ht).id
      · obtain ⟨x, hx, hxs⟩ := List.mem_filterMap.mp hs
        exact (hpolicies x hx).given hxs
      · obtain ⟨r, hr, rfl⟩ := List.mem_map.mp hx
        exact ⟨(hretries r hr).max_ok, fun s hs => (hretries r hr).backoff.given hs⟩
      · obtain ⟨l, hl, rfl⟩ := List.mem_map.mp hx
        exact ⟨(hlimits l hl).requests, fun n hn => (hlimits l hl).tokens.given hn⟩
      · -- `Parse` puts 8 in the place of a limit that is not positive.
        have hone := (parse_spec h).2
        show decide ((w.maxParallel : ℚ).den = 1 ∧ 1 ≤ (w.maxParallel : ℚ).num) = true
        simpa using hone

/-! ### What `Parse` refuses -/

/-- A decoded document that `Parse` refuses with an error. It dereferences the providers first, and
then each task before the next one is compared, so a nil pointer may come before an error. -/
inductive RawRefused (rw : RawWorkflow) : Prop
  | name (h : rw.name = "")
  | tasks (h : rw.tasks = [])
  | duplicate (hproviders : ∀ e ∈ rw.providers.entries, e.2 ≠ none) (pre : List Task) (t : Task)
      (post : List (Option Task)) (h : rw.tasks = pre.map some ++ some t :: post)
      (hid : t.id ∈ pre.map (·.id))
  | invalid (hproviders : ∀ e ∈ rw.providers.entries, e.2 ≠ none) (ts : List Task)
      (h : rw.tasks = ts.map some)
      (hinvalid : ¬ ValidTasks (·.id) (·.dependsOn) (·.provider)
        (fun p => rw.providers.contains p = true) ts)

/-- A document that `Parse` refuses with an error. -/
inductive GoRefuses (doc : Json) : Prop
  | decode (h : decodeDocument doc = none)
  | raw (rw : RawWorkflow) (h : decodeDocument doc = some rw) (hraw : RawRefused rw)

/-- Behind a task with a new id the loop over the task pointers ends as it does on the rest. -/
theorem derefTasks_cons_error {x : Task} {ts : List (Option Task)} {ids : List String}
    (hx : x.id ∉ ids) {e : SpecError} :
    derefTasks (some x :: ts) ids = .error (.error e) ↔
      derefTasks ts (x.id :: ids) = .error (.error e) := by
  rw [derefTasks, if_neg hx]
  cases derefTasks ts (x.id :: ids) with
  | error f =>
      show Except.error f = Except.error (ParseFailure.error e) ↔ _
      simp
  | ok l =>
      show Except.ok (x :: l) = Except.error (ParseFailure.error e) ↔ _
      simp

/-- The loop over the task pointers ends in an error at the first id that occurs again. -/
theorem derefTasks_error_iff : ∀ {ts : List (Option Task)} {ids : List String},
    (∃ e, derefTasks ts ids = .error (.error e)) ↔
      ∃ (pre : List Task) (t : Task) (post : List (Option Task)),
        ts = pre.map some ++ some t :: post ∧ (t.id ∈ ids ∨ t.id ∈ pre.map (·.id)) := by
  intro ts
  induction ts with
  | nil =>
      intro ids
      refine iff_of_false ?_ ?_
      · rintro ⟨e, h⟩
        cases h
      · rintro ⟨pre, t, post, h, -⟩
        cases pre <;> cases h
  | cons o ts ih =>
      intro ids
      cases o with
      | none =>
          -- A nil pointer ends the loop in a panic, before any task behind it.
          refine iff_of_false ?_ ?_
          · rintro ⟨e, h⟩
            cases h
          · rintro ⟨pre, t, post, h, -⟩
            cases pre <;> cases h
      | some x =>
          by_cases hx : x.id ∈ ids
          · rw [derefTasks, if_pos hx]
            exact iff_of_true ⟨_, rfl⟩ ⟨[], x, ts, rfl, Or.inl hx⟩
          · simp only [derefTasks_cons_error hx]
            rw [ih]
            constructor
            · rintro ⟨pre, t, post, rfl, hid⟩
              refine ⟨x :: pre, t, post, rfl, ?_⟩
              rw [List.map_cons, List.mem_cons]
              rw [List.mem_cons] at hid
              tauto
            · rintro ⟨pre, t, post, h, hid⟩
              cases pre with
              | nil =>
                  cases h
                  exact absurd (hid.resolve_right (by simp)) hx
              | cons y pre =>
                  obtain ⟨hy, hts⟩ := List.cons.inj h
                  cases hy
                  refine ⟨pre, t, post, hts, ?_⟩
                  rw [List.map_cons, List.mem_cons] at hid
                  rw [List.mem_cons]
                  tauto

/-- Without nil among them, the tasks are dereferenced or an id occurs again. -/
theorem derefTasks_of_some : ∀ {ts : List Task} {ids : List String},
    derefTasks (ts.map some) ids ≠ .error .nilPointer := by
  intro ts
  induction ts with
  | nil =>
      intro ids h
      cases h
  | cons t ts ih =>
      intro ids h
      rw [List.map_cons, derefTasks] at h
      split at h
      · cases h
      · rcases except_bind_error h with h | ⟨l, -, h⟩
        · exact ih h
        · cases h

/-- The providers keep their names. -/
theorem nameProviders_contains {d : Dict String (Option Provider)} {d' : Dict String Provider}
    (h : nameProviders d = .ok d') (name : String) : d'.contains name = d.contains name := by
  unfold nameProviders at h
  split at h
  · cases h
  · cases h
    rw [Bool.eq_iff_iff, Dict.contains_iff, Dict.contains_iff]
    simp [Dict.get?_mapValues, Option.map_eq_some_iff]

/-- The providers are dereferenced when none of them is nil. -/
theorem nameProviders_ok_iff {d : Dict String (Option Provider)} :
    (∃ d', nameProviders d = .ok d') ↔ ∀ e ∈ d.entries, e.2 ≠ none := by
  unfold nameProviders
  by_cases hany : d.entries.any (fun e => e.2.isNone) = true
  · rw [if_pos hany]
    refine iff_of_false (by simp) fun h => ?_
    obtain ⟨e, he, hnone⟩ := List.any_eq_true.mp hany
    exact h e he (Option.isNone_iff_eq_none.mp hnone)
  · rw [if_neg hany]
    refine iff_of_true ⟨_, rfl⟩ fun e he hnone => hany (List.any_eq_true.mpr ⟨e, he, ?_⟩)
    rw [hnone]
    rfl

/-- The loop over the providers fails on a nil pointer only. -/
theorem nameProviders_error {d : Dict String (Option Provider)} {f : ParseFailure}
    (h : nameProviders d = .error f) : f = .nilPointer := by
  unfold nameProviders at h
  split at h
  · cases h
    rfl
  · cases h

/-- Behind the two loops over pointers, `Parse` dereferences nothing that can be nil. -/
theorem parse_ne_nilPointer {iter : MapOrder} {rw : RawWorkflow} {ps : Dict String Provider}
    {ts : List Task} (hproviders : nameProviders rw.providers = .ok ps)
    (hderef : derefTasks rw.tasks [] = .ok ts) : parse iter rw ≠ .error .nilPointer := by
  intro h
  unfold parse at h
  by_cases hname : rw.name = ""
  · simp [hname, bind, Except.bind] at h
  by_cases htasks : rw.tasks = []
  · simp [hname, htasks, bind, Except.bind] at h
  simp only [hname, htasks, if_false] at h
  rw [hproviders] at h
  simp only [bind, Except.bind, hderef] at h
  split at h <;> cases h

/-- What `Parse` makes of a document with a name and tasks: it stops at the providers, at a task,
or at the test of the whole workflow. -/
theorem parse_stages {iter : MapOrder} {rw : RawWorkflow} (hname : rw.name ≠ "")
    (htasks : rw.tasks ≠ []) :
    (∃ f, nameProviders rw.providers = .error f ∧ parse iter rw = .error f) ∨
    (∃ ps f, nameProviders rw.providers = .ok ps ∧ derefTasks rw.tasks [] = .error f ∧
      parse iter rw = .error f) ∨
    ∃ ps ts, nameProviders rw.providers = .ok ps ∧ derefTasks rw.tasks [] = .ok ts ∧
      ((∃ e, parse iter rw = .error (.error e)) ↔
        ¬ ValidTasks (·.id) (·.dependsOn) (·.provider) (fun p => ps.contains p = true) ts) := by
  cases hproviders : nameProviders rw.providers with
  | error f =>
      refine Or.inl ⟨f, rfl, ?_⟩
      simp [parse, hname, htasks, hproviders, bind, Except.bind]
  | ok ps =>
      cases hderef : derefTasks rw.tasks [] with
      | error f =>
          refine Or.inr (Or.inl ⟨ps, f, rfl, rfl, ?_⟩)
          simp [parse, hname, htasks, hproviders, hderef, bind, Except.bind]
      | ok ts =>
          refine Or.inr (Or.inr ⟨ps, ts, rfl, rfl, ?_⟩)
          constructor
          · rintro ⟨e, h⟩ hvalid
            simp only [parse, hname, htasks, if_false] at h
            rw [hproviders] at h
            simp only [bind, Except.bind, hderef] at h
            split at h
            · cases h
            · rename_i hval
              refine absurd ((validate_spec _ iter).1.mpr ⟨hvalid.distinct, hvalid.known,
                hvalid.providers, hvalid.acyclic⟩) (by rw [hval]; simp)
          · intro hinvalid
            cases hparse : parse iter rw with
            | ok w =>
                -- An accepted workflow has these tasks and providers, and they are valid.
                have hfields := parse_fields hparse
                obtain rfl := List.map_injective_iff.mpr (Option.some_injective Task)
                  ((derefTasks_ok hderef).symm.trans hfields.2.2.2.2.2.2)
                obtain rfl := Except.ok.inj (hproviders.symm.trans hfields.2.2.1)
                exact absurd ((validate_spec w iter).1.mp (parse_spec hparse).1) hinvalid
            | error f =>
                cases f with
                | error e => exact ⟨e, rfl⟩
                | nilPointer => exact absurd hparse (parse_ne_nilPointer hproviders hderef)

/-- `Parse` ends in an error exactly for the documents that `RawRefused` lists. -/
theorem parse_error_iff {iter : MapOrder} {rw : RawWorkflow} :
    (∃ e, parse iter rw = .error (.error e)) ↔ RawRefused rw := by
  by_cases hname : rw.name = ""
  · exact iff_of_true ⟨.nameRequired, by simp [parse, hname, bind, Except.bind]⟩ (.name hname)
  by_cases htasks : rw.tasks = []
  · exact iff_of_true ⟨.noTasks, by simp [parse, hname, htasks, bind, Except.bind]⟩ (.tasks htasks)
  rcases @parse_stages iter rw hname htasks with ⟨f, hproviders, hparse⟩ |
    ⟨ps, f, hproviders, hderef, hparse⟩ | ⟨ps, ts, hproviders, hderef, hparse⟩
  · -- A nil provider comes before everything else.
    have hnil : ¬ ∀ e ∈ rw.providers.entries, e.2 ≠ none := by
      intro h
      obtain ⟨ps, hps⟩ := nameProviders_ok_iff.mpr h
      rw [hproviders] at hps
      cases hps
    rw [nameProviders_error hproviders] at hparse
    rw [hparse]
    refine iff_of_false (by simp) ?_
    rintro (h | h | ⟨h, -⟩ | ⟨h, -⟩)
    · exact hname h
    · exact htasks h
    · exact hnil h
    · exact hnil h
  · have hnil := nameProviders_ok_iff.mp ⟨ps, hproviders⟩
    rw [hparse]
    constructor
    · rintro ⟨e, h⟩
      cases h
      obtain ⟨pre, t, post, hts, hid⟩ := derefTasks_error_iff.mp ⟨e, hderef⟩
      exact .duplicate hnil pre t post hts (hid.resolve_left (by simp))
    · rintro (h | h | ⟨-, pre, t, post, hts, hid⟩ | ⟨-, ts, hts, -⟩)
      · exact absurd h hname
      · exact absurd h htasks
      · obtain ⟨e, he⟩ := derefTasks_error_iff.mpr ⟨pre, t, post, hts, Or.inr hid⟩
        rw [hderef] at he
        cases he
        exact ⟨e, rfl⟩
      · -- No task is nil, so the loop stopped at an id.
        cases f with
        | error e => exact ⟨e, rfl⟩
        | nilPointer =>
            rw [hts] at hderef
            exact absurd hderef derefTasks_of_some
  · have hnil := nameProviders_ok_iff.mp ⟨ps, hproviders⟩
    have hts := derefTasks_ok hderef
    rw [hparse]
    simp only [nameProviders_contains hproviders]
    constructor
    · exact fun hinvalid => .invalid hnil ts hts hinvalid
    · rintro (h | h | ⟨-, pre, t, post, h, hid⟩ | ⟨-, ts', h, hinvalid⟩)
      · exact absurd h hname
      · exact absurd h htasks
      · obtain ⟨e, he⟩ := derefTasks_error_iff.mpr ⟨pre, t, post, h, Or.inr hid⟩
        rw [hderef] at he
        cases he
      · obtain rfl := List.map_injective_iff.mpr (Option.some_injective Task) (hts.symm.trans h)
        exact hinvalid

/-- `Parse` refuses with an error exactly the documents that `GoRefuses` lists. -/
theorem go_refuses_iff {iter : MapOrder} {msg : String} {doc : Json} :
    (∃ f, parseDocument iter msg doc = .error f ∧ ∃ e, f = .error e) ↔ GoRefuses doc := by
  unfold parseDocument
  cases hdec : decodeDocument doc with
  | none => exact iff_of_true ⟨_, rfl, _, rfl⟩ (.decode hdec)
  | some rw =>
      constructor
      · rintro ⟨f, h, e, rfl⟩
        exact .raw rw hdec (parse_error_iff.mp ⟨e, h⟩)
      · rintro (h | ⟨rw', h, hraw⟩)
        · rw [hdec] at h
          cases h
        · rw [hdec] at h
          obtain rfl := Option.some.inj h
          obtain ⟨e, he⟩ := parse_error_iff.mpr hraw
          exact ⟨_, he, e, rfl⟩

end Orchestrator.Proofs
