import Mathlib.Algebra.Ring.Int.Defs
import Orchestrator.Engine.Spec
import Orchestrator.Engine.Template
import Orchestrator.Lib.JsonValue

/-!
# `Orchestrator.Engine.Decode`: `json.Unmarshal` of a workflow document

The JSON decoding of `Parse` (`engine/internal/spec/spec.go`), by the rules of `encoding/json`. A
member goes into the field whose name it matches, exactly or else up to case; other members are
ignored. `null` leaves a plain field alone and makes a pointer, a map or a slice nil.

Decoders take the current value of the field, because an object may name a field twice, and then the
second value is decoded over the first one. A struct behind a pointer keeps the fields that the
second object does not name. An array is decoded into the elements that are there, the ones behind
the length included that an earlier and longer array has left in the backing array (`Slice`). So two
`tasks` arrays in one object merge their tasks one by one. The values of a map are decoded afresh.

Numbers go two ways. An `int` field takes the digits of an integer literal that fits, and refuses
any other number (`decodeInt`). An `any` takes a float64, and refuses a number beyond its range
(`decodeAny`). A decoder has no result when `json.Unmarshal` would return an error; which error it
is, and that the decoding of the source goes on behind a type error, makes no difference to `Parse`,
which returns the error.

The scanner of the text itself is the parameter `read` of `parseBytes`.
-/

set_option autoImplicit false

namespace Orchestrator.Engine

open Orchestrator.Lib

/-! ### The rules of `encoding/json` -/

/-- Case folding. The two characters outside ASCII that fold to a letter are the long s and
the Kelvin sign. -/
def foldChar (c : Char) : Char :=
  if c.toNat = 0x17F then 's' else if c.toNat = 0x212A then 'k' else c.toLower

/-- The folded name of a field. -/
def foldName (s : String) : List Char := s.toList.map foldChar

/-- The field that a key names. An exact match goes before one up to case, also when it comes later
in the struct. -/
def fieldOf (names : List String) (key : String) : Option String :=
  if key ∈ names then some key else names.find? (fun n => foldName n = foldName key)

/-- An object into a struct, one member after another. Each member is decoded into the value that
its field has by then, so a repeated member changes what the earlier one left behind. Members that
name no field are passed over, and `null` changes nothing. -/
def decodeStruct {σ : Type} (names : List String) (set : String → Json → σ → Option σ) :
    Json → σ → Option σ
  | .null, s => some s
  | .obj members, s => members.foldlM (fun s e =>
      match fieldOf names e.1 with
      | some name => set name e.2 s
      | none => some s) s
  | _, _ => none

/-- A string into a `string`. As for every value that is not a pointer, `null` leaves the field as
it is. -/
def decodeString : Json → String → Option String
  | .null, cur => some cur
  | .str s, _ => some s
  | _, _ => none

/-- A truth value into a `bool`. `null` leaves the field as it is. -/
def decodeBool : Json → Bool → Option Bool
  | .null, cur => some cur
  | .bool b, _ => some b
  | _, _ => none

/-- A number into an `int`, which it must fit. The decoder reads the digits of the literal, so
that a number with a fraction or an exponent is refused whatever its value. -/
def decodeInt : Json → Int → Option Int
  | .null, cur => some cur
  | .num (.int z), _ => if -2 ^ 63 ≤ z ∧ z < 2 ^ 63 then some z else none
  | .num (.minusZero false), _ => some 0
  | _, _ => none

/-- A pointer to a value whose zero is `zero`. `null` makes it nil. Anything else is decoded into
the value it points to, which is new only if the pointer was nil. -/
def decodePtr {α : Type} (dec : Json → α → Option α) (zero : α) :
    Json → Option α → Option (Option α)
  | .null, _ => some none
  | v, cur => (dec v (cur.getD zero)).map some

/-- A pointer takes every value but `null` as the value behind it does. -/
theorem decodePtr_of_ne_null {α : Type} (dec : Json → α → Option α) (zero : α) {v : Json}
    (hne : v ≠ .null) (cur : Option α) :
    decodePtr dec zero v cur = (dec v (cur.getD zero)).map some := by
  cases v with
  | null => exact absurd rfl hne
  | _ => rfl

/-- An object into a map, key by key. An earlier binding of a key that the object does not name
stays. -/
def decodeMap {ν : Type} (dec : Json → Option ν) :
    Json → Dict String ν → Option (Dict String ν)
  | .null, _ => some .empty
  | .obj members, cur => members.foldlM (fun d e => (dec e.2).map (d.set e.1)) cur
  | _, _ => none

/-- A slice, with what its backing array holds behind the last element. -/
structure Slice (ν : Type) where
  items : List ν := []
  spare : List ν := []

/-- Items into the elements of a backing array, and what is left of it. Behind its end an element
is zero. -/
def decodeItems {ν : Type} (dec : Json → ν → Option ν) (zero : ν) :
    List Json → List ν → Option (Slice ν)
  | [], backing => some { spare := backing }
  | v :: rest, backing => do
    let x ← dec v (backing.headD zero)
    let s ← decodeItems dec zero rest backing.tail
    some { s with items := x :: s.items }

/-- An array into a slice. The elements are decoded one by one into those that the backing array
has, also behind the length of the slice, and what is left of these stays behind it. The empty array
makes a new slice. -/
def decodeSlice {ν : Type} (dec : Json → ν → Option ν) (zero : ν) :
    Json → Slice ν → Option (Slice ν)
  | .null, _ => some {}
  | .arr [], _ => some {}
  | .arr items, s => decodeItems dec zero items (s.items ++ s.spare)
  | _, _ => none

/-- Where there are no elements yet, each item is decoded on its own. -/
theorem decodeItems_nil {ν : Type} (dec : Json → ν → Option ν) (zero : ν) (vs : List Json) :
    decodeItems dec zero vs [] = (vs.mapM fun v => dec v zero).map fun xs => { items := xs } := by
  induction vs with
  | nil => rfl
  | cons v vs ih =>
      rw [decodeItems, List.tail_nil, ih, List.headD_nil, List.mapM_cons]
      cases dec v zero with
      | none => rfl
      | some x => cases vs.mapM fun v => dec v zero <;> rfl

/-- An array into a new slice. -/
theorem decodeSlice_nil {ν : Type} (dec : Json → ν → Option ν) (zero : ν) (vs : List Json) :
    decodeSlice dec zero (.arr vs) {} = (vs.mapM fun v => dec v zero).map fun xs =>
    { items := xs } := by
  cases vs with
  | nil => rfl
  | cons v vs => exact decodeItems_nil dec zero (v :: vs)

/-- An element comes from an item, decoded over an element of the backing array or over zero. -/
theorem mem_decodeItems {ν : Type} {dec : Json → ν → Option ν} {zero : ν} {vs : List Json} :
    ∀ {backing : List ν} {s : Slice ν}, decodeItems dec zero vs backing = some s →
      (∀ x ∈ s.items, ∃ v ∈ vs, ∃ y, (y = zero ∨ y ∈ backing) ∧ dec v y = some x) ∧
        ∀ x ∈ s.spare, x ∈ backing := by
  -- The values and the backing array are gone through side by side: each value is decoded over the
  -- next element, or over a zero value when the array is used up.
  induction vs with
  | nil =>
      intro backing s h
      cases h
      exact ⟨fun x hx => (by cases hx), fun x hx => hx⟩
  | cons v vs ih =>
      intro backing s h
      obtain ⟨x, hx, h⟩ := Option.bind_eq_some_iff.mp h
      obtain ⟨t, ht, h⟩ := Option.bind_eq_some_iff.mp h
      cases h
      obtain ⟨hitems, hspare⟩ := ih ht
      refine ⟨List.forall_mem_cons.mpr ⟨⟨v, List.mem_cons_self, _, ?_, hx⟩, fun w hw => ?_⟩,
        fun w hw => List.mem_of_mem_tail (hspare w hw)⟩
      · cases backing with
        | nil => exact Or.inl rfl
        | cons y ys => exact Or.inr List.mem_cons_self
      · obtain ⟨v', hv', y, hy, hdec⟩ := hitems w hw
        exact ⟨v', List.mem_cons_of_mem v hv', y, hy.imp_right List.mem_of_mem_tail, hdec⟩

/-- The same for a slice. -/
theorem mem_decodeSlice {ν : Type} {dec : Json → ν → Option ν} {zero : ν} {v : Json}
    {s s' : Slice ν} (h : decodeSlice dec zero v s = some s') :
    (∀ x ∈ s'.items, ∃ items, v = .arr items ∧ ∃ item ∈ items, ∃ y,
      (y = zero ∨ y ∈ s.items ++ s.spare) ∧ dec item y = some x) ∧
      ∀ x ∈ s'.spare, x ∈ s.items ++ s.spare := by
  cases v with
  | null =>
      cases h
      exact ⟨fun x hx => (by cases hx), fun x hx => (by cases hx)⟩
  | arr items =>
      cases items with
      | nil =>
          cases h
          exact ⟨fun x hx => (by cases hx), fun x hx => (by cases hx)⟩
      | cons item items =>
          obtain ⟨hitems, hspare⟩ := mem_decodeItems h
          refine ⟨fun x hx => ⟨_, rfl, ?_⟩, hspare⟩
          exact hitems x hx
  | _ => cases h

/-- The numbers that round to a float64 are below this in size. -/
def floatRange : ℚ := 2 ^ 1024 - 2 ^ 970

/-- A value into an `any`, where the numbers become float64. -/
def decodeAny (v : Json) : Option Json :=
  if v.numbers.all (fun q => -floatRange < q ∧ q < floatRange) then some v else none

/-! ### Durations -/

/-- The digits at the start of a text, and the rest. -/
def spanDigits (cs : List Char) : List Char × List Char := cs.span Char.isDigit

/-- The seconds in a unit of a duration. Other units do not pass the pattern of `parseDuration`. -/
def unitSeconds : String → Option ℚ
  | "ms" => some (1 / 1000)
  | "s" => some 1
  | "m" => some 60
  | "h" => some 3600
  | _ => none

/-- `ParseDuration`: digits and a unit, with blanks around them. A fraction, a sign or a sum of
units is refused, and any number of digits is accepted. -/
def parseDuration (s : String) : Option Duration :=
  let (digits, unit) := spanDigits (trimSpace s.toList)
  if digits = [] then none
  else (unitSeconds (String.ofList unit)).map (fun u => (Nat.ofDigitChars 10 digits 0 : ℚ) * u)

/-- `(*Duration).UnmarshalJSON`, which reads the text and ignores the present value. Of `null` it
makes the empty text, which is no duration. -/
def decodeDuration : Json → Duration → Option Duration
  | .str s, _ => parseDuration s
  | .null, _ => parseDuration ""
  | _, _ => none

/-! ### The document -/

/-- A `rate_limit` object, decoded into the one that is there. `per_tokens` is a pointer: whether it
was given matters to the limiter. -/
def decodeRateLimit : Json → RateLimit → Option RateLimit :=
  decodeStruct ["requests", "per", "tokens", "per_tokens"] fun name v s =>
    match name with
    | "requests" => (decodeInt v s.requests).map fun x => { s with requests := x }
    | "per" => (decodeDuration v s.per).map fun x => { s with per := x }
    | "tokens" => (decodeInt v s.tokens).map fun x => { s with tokens := x }
    | "per_tokens" =>
      (decodePtr decodeDuration 0 v s.perTokens).map fun x => { s with perTokens := x }
    | _ => some s

/-- The zero `RateLimit`. -/
def zeroRateLimit : RateLimit := { requests := 0, per := 0, tokens := 0, perTokens := none }

/-- A `retry` object, decoded into the one that is there. Neither the name of the backoff nor the
sign of a number is checked. -/
def decodeRetry : Json → Retry → Option Retry :=
  decodeStruct ["max", "backoff", "base", "jitter"] fun name v s =>
    match name with
    | "max" => (decodeInt v s.max).map fun x => { s with max := x }
    | "backoff" => (decodeString v s.backoff).map fun x => { s with backoff := x }
    | "base" => (decodeDuration v s.base).map fun x => { s with base := x }
    | "jitter" => (decodeBool v s.jitter).map fun x => { s with jitter := x }
    | _ => some s

/-- The zero `Retry`. -/
def zeroRetry : Retry := { max := 0, backoff := "", base := 0, jitter := false }

/-- An element of `providers`. Its name is not a member: it is set later, from its key. -/
def decodeProvider : Json → Provider → Option Provider :=
  decodeStruct ["rate_limit"] fun name v s =>
    match name with
    | "rate_limit" =>
      (decodePtr decodeRateLimit zeroRateLimit v s.rateLimit).map fun x => { s with rateLimit := x }
    | _ => some s

/-- An element of `inputs`. The type is any string, since nothing in the engine looks at it. -/
def decodeInputSpec : Json → InputSpec → Option InputSpec :=
  decodeStruct ["type", "required", "default"] fun name v s =>
    match name with
    | "type" => (decodeString v s.type).map fun x => { s with type := x }
    | "required" => (decodeBool v s.required).map fun x => { s with required := x }
    | "default" => (decodeAny v).map fun x => { s with default := x }
    | _ => some s

/-- A task that is being decoded, with what the backing array of its dependencies holds behind the
last one. -/
structure RawTask extends Task where
  spare : List String

/-- An element of `tasks`, decoded into the task that the backing array holds at its place. For a
new element this is the zero task. For one of a repeated `tasks` member it is the task decoded
before. -/
def decodeTask : Json → RawTask → Option RawTask :=
  decodeStruct ["id", "skill", "provider", "depends_on", "inputs", "retry", "timeout", "on_error",
      "idempotent"] fun name v s =>
    match name with
    | "id" => (decodeString v s.id).map fun x => { s with id := x }
    | "skill" => (decodeString v s.skill).map fun x => { s with skill := x }
    | "provider" => (decodeString v s.provider).map fun x => { s with provider := x }
    | "depends_on" =>
      (decodeSlice decodeString "" v { items := s.dependsOn, spare := s.spare }).map
        fun x => { s with dependsOn := x.items, spare := x.spare }
    | "inputs" => (decodeMap decodeAny v s.inputs).map fun x => { s with inputs := x }
    | "retry" => (decodePtr decodeRetry zeroRetry v s.retry).map fun x => { s with retry := x }
    | "timeout" => (decodePtr decodeDuration 0 v s.timeout).map fun x => { s with timeout := x }
    | "on_error" => (decodeString v s.onError).map fun x => { s with onError := x }
    | "idempotent" => (decodeBool v s.idempotent).map fun x => { s with idempotent := x }
    | _ => some s

/-- The zero `Task`, into which the elements of the first `tasks` member are decoded. -/
def zeroTask : RawTask where
  id := ""
  skill := ""
  provider := ""
  dependsOn := []
  inputs := .empty
  retry := none
  timeout := none
  onError := ""
  idempotent := false
  spare := []

/-- The `concurrency` object, with the number of slots and the limit of the whole run. -/
def decodeConcurrency : Json → RawConcurrency → Option RawConcurrency :=
  decodeStruct ["max_parallel", "rate_limit"] fun name v s =>
    match name with
    | "max_parallel" => (decodeInt v s.maxParallel).map fun x => { s with maxParallel := x }
    | "rate_limit" =>
      (decodePtr decodeRateLimit zeroRateLimit v s.rateLimit).map fun x => { s with rateLimit := x }
    | _ => some s

/-- The `defaults` object: what a task gets that does not say otherwise. -/
def decodeDefaults : Json → RawDefaults → Option RawDefaults :=
  decodeStruct ["retry", "timeout", "on_error"] fun name v s =>
    match name with
    | "retry" => (decodePtr decodeRetry zeroRetry v s.retry).map fun x => { s with retry := x }
    | "timeout" => (decodePtr decodeDuration 0 v s.timeout).map fun x => { s with timeout := x }
    | "on_error" => (decodeString v s.onError).map fun x => { s with onError := x }
    | _ => some s

/-- A document that is being decoded. -/
structure RawBuffer extends RawFields where
  tasks : Slice (Option RawTask)

/-- The decoded document. -/
def RawBuffer.raw (s : RawBuffer) : RawWorkflow :=
  { s.toRawFields with tasks := s.tasks.items.map fun t => t.map (·.toTask) }

/-- The tasks are all that changes from the buffer to the document. -/
@[simp] theorem RawBuffer.raw_toRawFields (s : RawBuffer) : s.raw.toRawFields = s.toRawFields := rfl

/-- A member of the `workflow` object. Every field is decoded into its present value, so a document
that has a member twice gets both, merged in the way of the type of the field. -/
def setWorkflow (name : String) (v : Json) (s : RawBuffer) : Option RawBuffer :=
  match name with
  | "name" => (decodeString v s.name).map fun x => { s with name := x }
  | "version" => (decodeInt v s.version).map fun x => { s with version := x }
  | "concurrency" =>
    (decodePtr decodeConcurrency { maxParallel := 0, rateLimit := none } v s.concurrency).map
      fun x => { s with concurrency := x }
  | "providers" =>
    (decodeMap (fun v => decodePtr decodeProvider { name := "", rateLimit := none } v none) v
      s.providers).map fun x => { s with providers := x }
  | "defaults" =>
    (decodePtr decodeDefaults { retry := none, timeout := none, onError := "" } v s.defaults).map
      fun x => { s with defaults := x }
  | "inputs" =>
    (decodeMap (fun v => decodeInputSpec v { type := "", required := false, default := .null }) v
      s.inputs).map fun x => { s with inputs := x }
  | "tasks" =>
    (decodeSlice (decodePtr decodeTask zeroTask) none v s.tasks).map
      fun x => { s with tasks := x }
  | "output" => (decodeString v s.output).map fun x => { s with output := x }
  | _ => some s

/-- The members of the `workflow` object. -/
def workflowFields : List String :=
  ["name", "version", "concurrency", "providers", "defaults", "inputs", "tasks", "output"]

/-- The `workflow` object. -/
def decodeWorkflow : Json → RawBuffer → Option RawBuffer :=
  decodeStruct workflowFields setWorkflow

/-- The zero document, which is what an empty object decodes to. `parseDocument` refuses it for want
of a name. -/
def zeroWorkflow : RawBuffer where
  name := ""
  version := 0
  concurrency := none
  providers := .empty
  defaults := none
  inputs := .empty
  output := ""
  tasks := {}

/-- `json.Unmarshal` into `raw`; `none` is an error. The document is decoded into a buffer that
still has the elements behind its slices, and these are dropped at the end. -/
def decodeDocument (doc : Json) : Option RawWorkflow :=
  (decodeStruct ["workflow"]
    (fun name v s => if name = "workflow" then decodeWorkflow v s else some s) doc zeroWorkflow).map
    RawBuffer.raw

/-- `Parse`, on the value of a JSON text. `msg` is the error of `json.Unmarshal`, should it
fail. -/
def parseDocument (iter : MapOrder) (msg : String) (doc : Json) : Except ParseFailure Workflow :=
  match decodeDocument doc with
  | none => .error (.error (.decode msg))
  | some rw => parse iter rw

/-- `Parse`, on bytes. `read` is the value of a JSON text, should it be one, and `msg` the error of
`json.Unmarshal`, should it fail. -/
def parseBytes (iter : MapOrder) (read : List UInt8 → Option Json) (msg : List UInt8 → String)
    (data : List UInt8) : Except ParseFailure Workflow :=
  match read data with
  | none => .error (.error (.decode (msg data)))
  | some doc => parseDocument iter (msg data) doc

end Orchestrator.Engine
