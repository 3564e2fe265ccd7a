import Mathlib.Data.List.Nodup
import Orchestrator.Lib.Dict
import Orchestrator.Lib.Json

/-!
# `Orchestrator.Lib.JsonSchema`: a fragment of JSON Schema

A schema is its validator. The values are those of the JSON data model, in which an object has no
key twice, so `object` asks for distinct keys.

The fragment has the keywords that the schema of a workflow uses: types, `enum`, `minimum`,
`minItems`, `required`, `properties` and `additionalProperties`. A pattern or a length is a test of
a text and goes into `string`. A schema is closed when it has `never` for the additional properties,
and then its objects have no other keys (`Conforms.closed`).

The `spec_*` lemmas turn a successful validation into the shape of the value, one for each kind of
schema. A proof about all documents of a schema follows the schema from the outside in, with one of
them at each level.
-/

set_option autoImplicit false

namespace Orchestrator.Lib

/-- A schema, as the test it makes. -/
abbrev Schema := Json → Bool

namespace Schema

/-- The schema that accepts every value. -/
def any : Schema := fun _ => true

/-- The schema that accepts no value. -/
def never : Schema := fun _ => false

/-- A string whose text passes a test. -/
def string (p : String → Bool) : Schema
  | .str s => p s
  | _ => false

/-- One of some texts. -/
def enum (texts : List String) : Schema := string (fun s => s ∈ texts)

/-- An integer from a bound on. JSON Schema looks at the value and not at its notation, so `2.0` is
an integer. -/
def integer (minimum : Int) : Schema
  | .num n => decide (n.value.den = 1 ∧ minimum ≤ n.value.num)
  | _ => false

/-- A truth value. Neither `0` nor the text `"true"` is one. -/
def boolean : Schema
  | .bool _ => true
  | _ => false

/-- An array of at least some number of items. -/
def array (minItems : Nat) (item : Schema) : Schema
  | .arr items => decide (minItems ≤ items.length) && items.all item
  | _ => false

/-- The schema of a property. Properties without one fall under `additional`. -/
def ofKey (properties : List (String × Schema)) (additional : Schema) (key : String) : Schema :=
  (Dict.find key properties).getD additional

/-- An object with distinct keys. All the required keys are there, each listed property conforms to
its own schema, and every other member to the schema for additional ones. -/
def object (required : List String) (properties : List (String × Schema)) (additional : Schema) :
    Schema
  | .obj members =>
    decide (members.map Prod.fst).Nodup && required.all (fun k => (Dict.find k members).isSome) &&
      members.all (fun e => ofKey properties additional e.1 e.2)
  | _ => false

/-- A value that a string schema accepts is a string whose text passes the test. -/
theorem spec_string {p : String → Bool} {v : Json} (h : string p v = true) :
    ∃ s, v = .str s ∧ p s = true := by
  cases v with
  | str s => exact ⟨s, rfl, h⟩
  | _ => cases h

/-- A value that an integer schema accepts is a number of integral value, in any notation, from the
minimum on. -/
theorem spec_integer {minimum : Int} {v : Json} (h : integer minimum v = true) :
    ∃ n : Number, v = .num n ∧ n.value.den = 1 ∧ minimum ≤ n.value.num := by
  cases v with
  | num n => exact ⟨n, rfl, of_decide_eq_true h⟩
  | _ => cases h

/-- A value that the boolean schema accepts is a truth value. -/
theorem spec_boolean {v : Json} (h : boolean v = true) : ∃ b, v = .bool b := by
  cases v with
  | bool b => exact ⟨b, rfl⟩
  | _ => cases h

/-- A value that an array schema accepts is an array of enough items, and the item schema accepts
each. -/
theorem spec_array {minItems : Nat} {item : Schema} {v : Json} (h : array minItems item v = true) :
    ∃ items, v = .arr items ∧ minItems ≤ items.length ∧ ∀ x ∈ items, item x = true := by
  cases v with
  | arr items =>
      simp only [array, Bool.and_eq_true, decide_eq_true_eq, List.all_eq_true] at h
      exact ⟨items, rfl, h⟩
  | _ => cases h

/-- The shape of an object that a schema accepts. A key has one value at most, so `member` can speak
of the value that a reader finds. -/
structure Conforms (required : List String) (properties : List (String × Schema))
    (additional : Schema) (members : List (String × Json)) : Prop where
  distinct : (members.map Prod.fst).Nodup
  required : ∀ k ∈ required, (Dict.find k members).isSome = true
  member : ∀ k v, Dict.find k members = some v → ofKey properties additional k v = true

/-- A value that an object schema accepts is an object whose members conform to it. -/
theorem spec_object {required : List String} {properties : List (String × Schema)}
    {additional : Schema} {v : Json} (h : object required properties additional v = true) :
    ∃ members, v = .obj members ∧ Conforms required properties additional members := by
  cases v with
  | obj members =>
      simp only [object, Bool.and_eq_true, decide_eq_true_eq, List.all_eq_true] at h
      refine ⟨members, rfl, h.1.1, h.1.2, fun k v hv => ?_⟩
      exact h.2 (k, v) ((Dict.mem_iff_find h.1.1 k v).mpr hv)
  | _ => cases h

/-- Only keys with a property occur in a closed object. -/
theorem Conforms.closed {required : List String} {properties : List (String × Schema)}
    {members : List (String × Json)} (h : Conforms required properties never members) :
    ∀ e ∈ members, e.1 ∈ properties.map Prod.fst := by
  intro e he
  have hmem := h.member e.1 e.2 ((Dict.mem_iff_find h.distinct e.1 e.2).mp he)
  rw [← Dict.find_isSome]
  cases hfind : Dict.find e.1 properties with
  | none =>
      rw [ofKey, hfind] at hmem
      cases hmem
  | some s => rfl

end Schema

end Orchestrator.Lib
