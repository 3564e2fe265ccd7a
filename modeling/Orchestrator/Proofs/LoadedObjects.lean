import Orchestrator.Proofs.LoadedFields
import Orchestrator.Proofs.Serialization
import Orchestrator.Sdk.GoView

/-!
# `Orchestrator.Proofs.LoadedObjects`: the objects of a document, as each loader reads them

One reading of each kind of object of the schema (retry, rate limit, provider, concurrency,
defaults, task) in terms of `memberAs`, and for each loader the theorem that a decoded object has
this reading.

For each kind the module has the same things in the same order. An abbreviation says that the
members conform (`RetryOk`), with a lemma for each member that a loader reads. Two definitions have
what Go and Python make of the object (`goRetry`, `sdkRetry`), and a third what `from_dict` stores
before the types are looked at (`storedRetry`). Theorems connect them with the code:
`decodeRetry_eq` with the decoder of Go, `retry_fromDict` with `Retry.from_dict`, and
`storedRetry_typed` with the reading by the annotations.

For a rate limit the two readings agree, and `goLimitAt` serves both. For a retry object they do
not: where a field is absent Go leaves its zero value and Python has a default. The difference is
kept as it is, and `LoadersAgree` says what follows from it.
-/

set_option autoImplicit false

namespace Orchestrator.Proofs

open Orchestrator.Lib Orchestrator.Engine

/-! ### Retry objects -/

/-- What Go makes of a retry object. A member that is missing leaves the zero of its type. -/
def goRetry (ms : List (String × Json)) : Retry where
  max := (memberAs intOf "max" ms).getD 0
  backoff := (memberAs strOf "backoff" ms).getD ""
  base := (memberAs durationOf "base" ms).getD 0
  jitter := (memberAs boolOf "jitter" ms).getD false

/-- What Python makes of a retry object that is not empty. A member that is missing has the default
of the class, where Go has a zero. -/
def sdkRetry (ms : List (String × Json)) : Sdk.Retry where
  max := (memberAs intOf "max" ms).getD 0
  backoff := (memberAs strOf "backoff" ms).getD "exponential"
  base := (memberAs durationOf "base" ms).getD (1 / 2)
  jitter := (memberAs boolOf "jitter" ms).getD true

/-- What `from_dict` stores of it, before the types are looked at. Only the backoff is stored as it
came. -/
def storedRetry (ms : List (String × Json)) : Sdk.Stored.Retry where
  max := (memberAs intOf "max" ms).getD 0
  backoff := (Dict.find "backoff" ms).getD (.str "exponential")
  base := some ((memberAs durationOf "base" ms).getD (1 / 2))
  jitter := (memberAs boolOf "jitter" ms).getD true

/-- The members of a retry object. -/
abbrev RetryOk : List (String × Json) → Prop :=
  Schema.Conforms [] SpecSchema.retryProperties Schema.never

/-- The member `max` of a retry object. -/
theorem RetryOk.max {ms : List (String × Json)} (h : RetryOk ms) :
    MemberOk (.integer 0) "max" ms := h.member "max"

/-- The member `backoff` of a retry object. -/
theorem RetryOk.backoff {ms : List (String × Json)} (h : RetryOk ms) :
    MemberOk (.enum ["none", "fixed", "exponential"]) "backoff" ms := h.member "backoff"

/-- The member `base` of a retry object. -/
theorem RetryOk.base {ms : List (String × Json)} (h : RetryOk ms) :
    MemberOk SpecSchema.duration "base" ms := h.member "base"

/-- The member `jitter` of a retry object. -/
theorem RetryOk.jitter {ms : List (String × Json)} (h : RetryOk ms) :
    MemberOk .boolean "jitter" ms := h.member "jitter"

/-- The decoder of Go on a retry object that the schema allows. It decodes member by member; in the
record the members are looked up by their names. -/
theorem decodeRetry_eq (v : Json) (hv : SpecSchema.retry v = true) (r : Retry)
    (h : decodeRetry v zeroRetry = some r) : (membersOf v).map goRetry = some r := by
  obtain ⟨ms, rfl, hok⟩ := Schema.spec_object hv
  have hmax := field_eq (decodeStruct_member h hok.closed hok.distinct "max" (·.max)
    decodeInt (fun _ _ => rfl) (fun _ _ => rfl) (by simp [Option.map_eq_some_iff]; grind))
    (RetryOk.max hok) decodeInt_spec
  have hbackoff := field_eq (decodeStruct_member h hok.closed hok.distinct "backoff" (·.backoff)
    decodeString (fun _ _ => rfl) (fun _ _ => rfl) (by simp [Option.map_eq_some_iff]; grind))
    (RetryOk.backoff hok) decodeString_spec
  have hbase := field_eq (decodeStruct_member h hok.closed hok.distinct "base" (·.base)
    decodeDuration (fun _ _ => rfl) (fun _ _ => rfl) (by simp [Option.map_eq_some_iff]; grind))
    (RetryOk.base hok) decodeDuration_spec
  have hjitter := field_eq (decodeStruct_member h hok.closed hok.distinct "jitter" (·.jitter)
    decodeBool (fun _ _ => rfl) (fun _ _ => rfl) (by simp [Option.map_eq_some_iff]))
    (RetryOk.jitter hok) decodeBool_spec
  show some (goRetry ms) = some r
  congr 1
  -- Each field of the decoded record is the member of its name.
  calc goRetry ms = ⟨r.max, r.backoff, r.base, r.jitter⟩ := by
        rw [hmax, hbackoff, hbase, hjitter]
        rfl
    _ = r := rfl

/-- `Retry.from_dict` on a retry object, which may be absent. An empty object is treated as an
absent one. -/
theorem retry_fromDict {lib : Sdk.PyLib} (hlib : AsciiDigits lib) {key : String}
    {ms : List (String × Json)} (hok : MemberOk SpecSchema.retry key ms) :
    Sdk.Stored.Retry.fromDict lib ((Dict.find key ms).getD .null)
      = .ok (((memberAs membersOf key ms).filter (· ≠ [])).map storedRetry) := by
  unfold memberAs
  cases hfind : Dict.find key ms with
  | none => rfl
  | some v =>
      obtain ⟨rs, rfl, hrs⟩ := Schema.spec_object (hok v hfind)
      show Sdk.Stored.Retry.fromDict lib (.obj rs)
        = .ok ((Option.filter (· ≠ []) (some rs)).map storedRetry)
      by_cases hnil : rs = []
      · -- An empty object is falsy in Python, so the loader takes it for no object at all.
        rw [hnil]
        rfl
      · have hmax := @pyInt_member lib _ _ _ (RetryOk.max hrs) 0
        have hbase := parseDuration_member hlib (RetryOk.base hrs) (some (1 / 2))
        have hjitter := truthy_member (RetryOk.jitter hrs) true
        have hsome : (memberAs durationOf "base" rs).or (some (1 / 2))
            = some ((memberAs durationOf "base" rs).getD (1 / 2)) := by
          cases memberAs durationOf "base" rs <;> rfl
        have htruthy : Sdk.truthy (.obj rs) = true := by simp [Sdk.truthy, hnil]
        rw [Option.filter_some_pos (by simpa using hnil)]
        simp only [Sdk.Stored.Retry.fromDict, htruthy, if_true, Sdk.pyGet, ok_bind, hmax, hbase,
          hjitter, hsome]
        rfl

/-- A retry object of the schema has the annotated types. -/
theorem storedRetry_typed {ms : List (String × Json)} (hok : RetryOk ms) :
    (storedRetry ms).typed = .ok (sdkRetry ms) := by
  have hbackoff := asStr_member (RetryOk.backoff hok) "backoff" "exponential"
  simp only [Sdk.Stored.Retry.typed, storedRetry, hbackoff, Sdk.asFloat, ok_bind]
  rfl

/-- The same for the object of a member, which counts as absent when it is empty. -/
theorem retry_typed {key : String} {ms : List (String × Json)}
    (hok : MemberOk SpecSchema.retry key ms) :
    (((memberAs membersOf key ms).filter (· ≠ [])).map storedRetry).mapM Sdk.Stored.Retry.typed
      = .ok (((memberAs membersOf key ms).filter (· ≠ [])).map sdkRetry) := by
  cases hm : memberAs membersOf key ms with
  | none => rfl
  | some rs =>
      by_cases hnil : rs = []
      · rw [hnil]
        rfl
      · rw [Option.filter_some_pos (by simpa using hnil)]
        show (some <$> (storedRetry rs).typed) = _
        rw [storedRetry_typed (conforms_member hok hm)]
        rfl

/-! ### Rate limits -/

/-- What Go makes of a rate limit. The period of the tokens is a pointer, so its absence is seen. -/
def goRateLimit (ms : List (String × Json)) : RateLimit where
  requests := (memberAs intOf "requests" ms).getD 0
  per := (memberAs durationOf "per" ms).getD 0
  tokens := (memberAs intOf "tokens" ms).getD 0
  perTokens := memberAs durationOf "per_tokens" ms

/-- What Python makes of a rate limit. The tokens may be absent, where Go has a zero. -/
def sdkRateLimit (ms : List (String × Json)) : Sdk.RateLimit where
  requests := (memberAs intOf "requests" ms).getD 0
  per := (memberAs durationOf "per" ms).getD 0
  tokens := memberAs intOf "tokens" ms
  perTokens := memberAs durationOf "per_tokens" ms

/-- What `from_dict` stores of it. The number of tokens is stored as it came. -/
def storedRateLimit (ms : List (String × Json)) : Sdk.Stored.RateLimit where
  requests := (memberAs intOf "requests" ms).getD 0
  per := some ((memberAs durationOf "per" ms).getD 0)
  tokens := (Dict.find "tokens" ms).getD .null
  perTokens := memberAs durationOf "per_tokens" ms

/-- The members of a rate limit. -/
abbrev RateLimitOk : List (String × Json) → Prop :=
  Schema.Conforms ["requests", "per"] SpecSchema.rateLimitProperties Schema.never

/-- The member `requests` of a rate limit. -/
theorem RateLimitOk.requests {ms : List (String × Json)} (h : RateLimitOk ms) :
    MemberOk (.integer 1) "requests" ms := h.member "requests"

/-- The member `per` of a rate limit. -/
theorem RateLimitOk.per {ms : List (String × Json)} (h : RateLimitOk ms) :
    MemberOk SpecSchema.duration "per" ms := h.member "per"

/-- The member `tokens` of a rate limit. -/
theorem RateLimitOk.tokens {ms : List (String × Json)} (h : RateLimitOk ms) :
    MemberOk (.integer 1) "tokens" ms := h.member "tokens"

/-- The member `per_tokens` of a rate limit. -/
theorem RateLimitOk.perTokens {ms : List (String × Json)} (h : RateLimitOk ms) :
    MemberOk SpecSchema.duration "per_tokens" ms := h.member "per_tokens"

/-- The decoder of Go on a rate limit that the schema allows. -/
theorem decodeRateLimit_eq (v : Json) (hv : SpecSchema.rateLimit v = true) (r : RateLimit)
    (h : decodeRateLimit v zeroRateLimit = some r) : (membersOf v).map goRateLimit = some r := by
  obtain ⟨ms, rfl, hok⟩ := Schema.spec_object hv
  have hrequests := field_eq (decodeStruct_member h hok.closed hok.distinct "requests" (·.requests)
    decodeInt (fun _ _ => rfl) (fun _ _ => rfl) (by simp [Option.map_eq_some_iff]))
    (RateLimitOk.requests hok) decodeInt_spec
  have hper := field_eq (decodeStruct_member h hok.closed hok.distinct "per" (·.per)
    decodeDuration (fun _ _ => rfl) (fun _ _ => rfl) (by simp [Option.map_eq_some_iff]))
    (RateLimitOk.per hok) decodeDuration_spec
  have htokens := field_eq (decodeStruct_member h hok.closed hok.distinct "tokens" (·.tokens)
    decodeInt (fun _ _ => rfl) (fun _ _ => rfl) (by simp [Option.map_eq_some_iff]))
    (RateLimitOk.tokens hok) decodeInt_spec
  have hperTokens := field_ptr_eq (decodeStruct_member h hok.closed hok.distinct "per_tokens"
    (·.perTokens) (decodePtr decodeDuration 0) (fun _ _ => rfl) (fun _ _ => rfl)
    (by simp [Option.map_eq_some_iff]))
    (RateLimitOk.perTokens hok) rfl decodeDuration_spec
  show some (goRateLimit ms) = some r
  congr 1
  calc goRateLimit ms = ⟨r.requests, r.per, r.tokens, r.perTokens⟩ := by
        rw [hrequests, hper, htokens, hperTokens]
        rfl
    _ = r := rfl

/-- `RateLimit.from_dict` on a rate limit, which may be absent. No limit that the schema allows is
empty. -/
theorem rateLimit_fromDict {lib : Sdk.PyLib} (hlib : AsciiDigits lib) {key : String}
    {ms : List (String × Json)} (hok : MemberOk SpecSchema.rateLimit key ms) :
    Sdk.Stored.RateLimit.fromDict lib ((Dict.find key ms).getD .null)
      = .ok ((memberAs membersOf key ms).map storedRateLimit) := by
  unfold memberAs
  cases hfind : Dict.find key ms with
  | none => rfl
  | some v =>
      obtain ⟨rs, rfl, hrs⟩ := Schema.spec_object (hok v hfind)
      show Sdk.Stored.RateLimit.fromDict lib (.obj rs) = .ok (some (storedRateLimit rs))
      obtain ⟨requests, hrequests⟩ :=
        Option.isSome_iff_exists.mp (hrs.required "requests" (by simp))
      obtain ⟨per, hper⟩ := Option.isSome_iff_exists.mp (hrs.required "per" (by simp))
      -- The schema requires members of a limit, so the object is never the empty one that Python
      -- takes for none.
      have hnil : rs ≠ [] := by
        rintro rfl
        cases hper
      have htruthy : Sdk.truthy (.obj rs) = true := by simp [Sdk.truthy, hnil]
      have hint := @pyInt_member lib _ _ _ (RateLimitOk.requests hrs) 0
      rw [hrequests, Option.getD_some] at hint
      have hdur := parseDuration_member hlib (RateLimitOk.per hrs) none
      rw [hper, Option.getD_some, Option.or_none] at hdur
      obtain ⟨seconds, hseconds⟩ :=
        Option.isSome_iff_exists.mp (duration_isSome hlib (RateLimitOk.per hrs) hper)
      have hperTokens := parseDuration_member hlib (RateLimitOk.perTokens hrs) none
      rw [Option.or_none] at hperTokens
      simp only [Sdk.Stored.RateLimit.fromDict, htruthy, if_true, Sdk.pyItem, Sdk.pyGet, ok_bind,
        hrequests, hper, hint, hdur, hseconds, hperTokens, storedRateLimit]
      rfl

/-- A rate limit of the schema has the annotated types. -/
theorem storedRateLimit_typed {ms : List (String × Json)} (hok : RateLimitOk ms) :
    (storedRateLimit ms).typed = .ok (sdkRateLimit ms) := by
  have htokens := asOptInt_member (RateLimitOk.tokens hok) "tokens"
  simp only [Sdk.Stored.RateLimit.typed, storedRateLimit, htokens, Sdk.asFloat, ok_bind]
  rfl

/-- The same for a member, which may be absent. -/
theorem rateLimit_typed {key : String} {ms : List (String × Json)}
    (hok : MemberOk SpecSchema.rateLimit key ms) :
    ((memberAs membersOf key ms).map storedRateLimit).mapM Sdk.Stored.RateLimit.typed
      = .ok ((memberAs membersOf key ms).map sdkRateLimit) := by
  cases hm : memberAs membersOf key ms with
  | none => rfl
  | some rs =>
      show (some <$> (storedRateLimit rs).typed) = _
      rw [storedRateLimit_typed (conforms_member hok hm)]
      rfl

/-! ### The objects of a document -/

/-- What Go makes of a rate limit that may be absent. -/
def goLimitAt (ms : List (String × Json)) : Option RateLimit :=
  (memberAs membersOf "rate_limit" ms).map goRateLimit

/-- A reading that goes on with a function. -/
theorem memberAs_map {α β : Type} (f : Json → Option α) (g : α → β) (key : String)
    (ms : List (String × Json)) :
    memberAs (fun v => (f v).map g) key ms = (memberAs f key ms).map g := by
  unfold memberAs
  cases Dict.find key ms <;> rfl

/-- The members of a `provider` object. -/
abbrev ProviderOk : List (String × Json) → Prop :=
  Schema.Conforms [] [("rate_limit", SpecSchema.rateLimit)] Schema.never

/-- The limit of a provider. -/
theorem ProviderOk.rateLimit {ms : List (String × Json)} (h : ProviderOk ms) :
    MemberOk SpecSchema.rateLimit "rate_limit" ms := h.member "rate_limit"

/-- The decoder of Go on a provider. -/
theorem decodeProvider_spec (v : Json) (hv : SpecSchema.provider v = true) (p : Provider)
    (h : decodeProvider v { name := "", rateLimit := none } = some p) :
    (membersOf v).map goLimitAt = some p.rateLimit := by
  obtain ⟨ms, rfl, hok⟩ := Schema.spec_object hv
  have hlimit := field_ptr_eq (decodeStruct_member h hok.closed hok.distinct "rate_limit"
    (·.rateLimit) (decodePtr decodeRateLimit zeroRateLimit) (fun _ _ => rfl) (fun _ _ => rfl)
    (by simp [Option.map_eq_some_iff]))
    (ProviderOk.rateLimit hok) rfl decodeRateLimit_eq
  rw [hlimit, memberAs_map]
  rfl

/-- The members of the `concurrency` object. -/
abbrev ConcurrencyOk : List (String × Json) → Prop :=
  Schema.Conforms [] SpecSchema.concurrencyProperties Schema.never

/-- The bound on parallel tasks. -/
theorem ConcurrencyOk.maxParallel {ms : List (String × Json)} (h : ConcurrencyOk ms) :
    MemberOk (.integer 1) "max_parallel" ms := h.member "max_parallel"

/-- The limit of the whole run. -/
theorem ConcurrencyOk.rateLimit {ms : List (String × Json)} (h : ConcurrencyOk ms) :
    MemberOk SpecSchema.rateLimit "rate_limit" ms := h.member "rate_limit"

/-- What Go makes of a `concurrency` object. -/
def goConcurrency (ms : List (String × Json)) : RawConcurrency where
  maxParallel := (memberAs intOf "max_parallel" ms).getD 0
  rateLimit := goLimitAt ms

/-- The decoder of Go on a `concurrency` object that the schema allows. Neither of its two members
is required. -/
theorem decodeConcurrency_eq (v : Json) (hv : SpecSchema.concurrency v = true) (c : RawConcurrency)
    (h : decodeConcurrency v { maxParallel := 0, rateLimit := none } = some c) :
    (membersOf v).map goConcurrency = some c := by
  obtain ⟨ms, rfl, hok⟩ := Schema.spec_object hv
  have hmax := field_eq (decodeStruct_member h hok.closed hok.distinct "max_parallel"
    (·.maxParallel) decodeInt (fun _ _ => rfl) (fun _ _ => rfl)
    (by simp [Option.map_eq_some_iff]))
    (ConcurrencyOk.maxParallel hok) decodeInt_spec
  -- The limit is a pointer in Go, so an absent member leaves it nil.
  have hlimit := field_ptr_eq (decodeStruct_member h hok.closed hok.distinct "rate_limit"
    (·.rateLimit) (decodePtr decodeRateLimit zeroRateLimit) (fun _ _ => rfl) (fun _ _ => rfl)
    (by simp [Option.map_eq_some_iff]))
    (ConcurrencyOk.rateLimit hok) rfl decodeRateLimit_eq
  rw [memberAs_map] at hlimit
  show some (goConcurrency ms) = some c
  congr 1
  calc goConcurrency ms = ⟨c.maxParallel, c.rateLimit⟩ := by
        rw [hmax, hlimit]
        rfl
    _ = c := rfl

/-- The members of the `defaults` object. -/
abbrev DefaultsOk : List (String × Json) → Prop :=
  Schema.Conforms [] SpecSchema.defaultsProperties Schema.never

/-- The default retry object. -/
theorem DefaultsOk.retry {ms : List (String × Json)} (h : DefaultsOk ms) :
    MemberOk SpecSchema.retry "retry" ms := h.member "retry"

/-- The default timeout. -/
theorem DefaultsOk.timeout {ms : List (String × Json)} (h : DefaultsOk ms) :
    MemberOk SpecSchema.duration "timeout" ms := h.member "timeout"

/-- The default error policy. -/
theorem DefaultsOk.onError {ms : List (String × Json)} (h : DefaultsOk ms) :
    MemberOk SpecSchema.onError "on_error" ms := h.member "on_error"

/-- What Go makes of a `defaults` object. A policy that is missing stays nil until `Parse` fills it
in. -/
def goDefaults (ms : List (String × Json)) : RawDefaults where
  retry := (memberAs membersOf "retry" ms).map goRetry
  timeout := memberAs durationOf "timeout" ms
  onError := (memberAs strOf "on_error" ms).getD ""

/-- The decoder of Go on a `defaults` object that the schema allows, all of whose members may be
absent. -/
theorem decodeDefaults_eq (v : Json) (hv : SpecSchema.defaults v = true) (d : RawDefaults)
    (h : decodeDefaults v { retry := none, timeout := none, onError := "" } = some d) :
    (membersOf v).map goDefaults = some d := by
  obtain ⟨ms, rfl, hok⟩ := Schema.spec_object hv
  have hretry := field_ptr_eq (decodeStruct_member h hok.closed hok.distinct "retry" (·.retry)
    (decodePtr decodeRetry zeroRetry) (fun _ _ => rfl) (fun _ _ => rfl)
    (by simp [Option.map_eq_some_iff]))
    (DefaultsOk.retry hok) rfl decodeRetry_eq
  -- Zero would be a timeout of its own. The pointer keeps an absent one apart from it.
  have htimeout := field_ptr_eq (decodeStruct_member h hok.closed hok.distinct "timeout"
    (·.timeout) (decodePtr decodeDuration 0) (fun _ _ => rfl) (fun _ _ => rfl)
    (by simp [Option.map_eq_some_iff]))
    (DefaultsOk.timeout hok) rfl decodeDuration_spec
  have honError := field_eq (decodeStruct_member h hok.closed hok.distinct "on_error" (·.onError)
    decodeString (fun _ _ => rfl) (fun _ _ => rfl) (by simp [Option.map_eq_some_iff]))
    (DefaultsOk.onError hok) decodeString_spec
  rw [memberAs_map] at hretry
  show some (goDefaults ms) = some d
  congr 1
  calc goDefaults ms = ⟨d.retry, d.timeout, d.onError⟩ := by
        rw [hretry, htimeout, honError]
        rfl
    _ = d := rfl

/-- The members of a `task` object. -/
abbrev TaskOk : List (String × Json) → Prop :=
  Schema.Conforms ["id", "skill"] SpecSchema.taskProperties Schema.never

/-- The id of a task. -/
theorem TaskOk.id {ms : List (String × Json)} (h : TaskOk ms) :
    MemberOk (.string SpecSchema.isTaskId) "id" ms := h.member "id"

/-- The retry object of a task. -/
theorem TaskOk.retry {ms : List (String × Json)} (h : TaskOk ms) :
    MemberOk SpecSchema.retry "retry" ms := h.member "retry"

/-- The timeout of a task. -/
theorem TaskOk.timeout {ms : List (String × Json)} (h : TaskOk ms) :
    MemberOk SpecSchema.duration "timeout" ms := h.member "timeout"

/-- The error policy of a task. -/
theorem TaskOk.onError {ms : List (String × Json)} (h : TaskOk ms) :
    MemberOk SpecSchema.onError "on_error" ms := h.member "on_error"

/-- The decoder of Go on a task that the schema allows, as far as the policy of the task goes. -/
theorem decodeTask_spec {ms : List (String × Json)} (hok : TaskOk ms) {t : RawTask}
    (h : decodeTask (.obj ms) zeroTask = some t) :
    t.id = (memberAs strOf "id" ms).getD "" ∧
      t.retry = (memberAs membersOf "retry" ms).map goRetry ∧
      t.timeout = memberAs durationOf "timeout" ms ∧
      t.onError = (memberAs strOf "on_error" ms).getD "" := by
  have hid := field_eq (decodeStruct_member h hok.closed hok.distinct "id" (·.id)
    decodeString (fun _ _ => rfl) (fun _ _ => rfl) (by simp [Option.map_eq_some_iff]; grind))
    (TaskOk.id hok) decodeString_spec
  have hretry := field_ptr_eq (decodeStruct_member h hok.closed hok.distinct "retry" (·.retry)
    (decodePtr decodeRetry zeroRetry) (fun _ _ => rfl) (fun _ _ => rfl)
    (by simp [Option.map_eq_some_iff]; grind))
    (TaskOk.retry hok) rfl decodeRetry_eq
  have htimeout := field_ptr_eq (decodeStruct_member h hok.closed hok.distinct "timeout"
    (·.timeout) (decodePtr decodeDuration 0) (fun _ _ => rfl) (fun _ _ => rfl)
    (by simp [Option.map_eq_some_iff]; grind))
    (TaskOk.timeout hok) rfl decodeDuration_spec
  have honError := field_eq (decodeStruct_member h hok.closed hok.distinct "on_error" (·.onError)
    decodeString (fun _ _ => rfl) (fun _ _ => rfl) (by simp [Option.map_eq_some_iff]; grind))
    (TaskOk.onError hok) decodeString_spec
  rw [memberAs_map] at hretry
  exact ⟨hid, hretry, htimeout, honError⟩

end Orchestrator.Proofs
