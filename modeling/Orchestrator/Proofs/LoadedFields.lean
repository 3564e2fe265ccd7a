import Mathlib.Data.List.TakeDrop
import Mathlib.Data.List.TakeWhile
import Orchestrator.Engine.Decode
import Orchestrator.Engine.Schema
import Orchestrator.Lib.Loops
import Orchestrator.Sdk.Spec

/-!
# `Orchestrator.Proofs.LoadedFields`: what the loaders read of a conforming object

`memberAs f key ms` is the member `key` of an object, read by `f`. The decoder of Go fills each
field from the member with its name (`decodeStruct_member`), and the lookups of Python find the same
value. Both sides are stated in terms of `memberAs`, so that a later comparison is about options
only.

The object is one that the schema accepts. So its members have no other names than those of the
schema, no member has the wrong type, and a number is an integer where the schema says so. This is
what makes the two decoders alike: Go matches names without regard to case and Python does not, Go
refuses a float where it wants an integer and Python cuts it off, and none of this can be seen on a
conforming object.

A duration is the one value that both sides have to parse. The schema allows digits and a unit, and
for such a text both parsers give the same number of seconds (`durationOfText_eq`). Python asks its
runtime which characters are digits, so the lemma needs that the runtime knows those of ASCII
(`AsciiDigits`).

The two sections, for Go and for Python, have one lemma for each type of member.
-/

set_option autoImplicit false

namespace Orchestrator.Proofs

open Orchestrator.Lib Orchestrator.Engine

/-! ### Values -/

/-- The value of a number that is an integer. -/
def intOf : Json → Option Int
  | .num n => some n.value.num
  | _ => none

/-- The text of a string. -/
def strOf : Json → Option String
  | .str s => some s
  | _ => none

/-- The value of a truth value. -/
def boolOf : Json → Option Bool
  | .bool b => some b
  | _ => none

/-- The members of an object. -/
def membersOf : Json → Option (List (String × Json))
  | .obj members => some members
  | _ => none

/-- The items of an array. -/
def itemsOf : Json → Option (List Json)
  | .arr items => some items
  | _ => none

/-- The seconds of a duration. -/
def durationOf : Json → Option Duration
  | .str s => parseDuration s
  | _ => none

/-- The member of an object, read by a function. -/
def memberAs {α : Type} (f : Json → Option α) (key : String) (ms : List (String × Json)) :
    Option α :=
  (Dict.find key ms).bind f

/-- The members of a member that is an object, none if it is absent. -/
def objectAt (key : String) (ms : List (String × Json)) : List (String × Json) :=
  (memberAs membersOf key ms).getD []

/-! ### Durations -/

/-- What the SDK relies on: the digits of ASCII are decimal digits, and its letters are not. -/
def AsciiDigits (lib : Sdk.PyLib) : Prop :=
  ∀ c : Char, c.toNat < 128 → lib.decimal c = if c.isDigit then some (c.toNat - 48) else none

/-- A duration consists of digits and the letters of a unit, so the two trims find nothing to
remove, and the two kinds of digits are the same. -/
theorem isDuration_chars {s : String} (h : SpecSchema.isDuration s = true) :
    ∀ c ∈ s.toList, c.isDigit = true ∨ c ∈ ['m', 's', 'h'] := by
  unfold SpecSchema.isDuration at h
  rw [List.span_eq_takeWhile_dropWhile] at h
  simp only [Bool.and_eq_true, Bool.not_eq_true', List.isEmpty_eq_false_iff,
    decide_eq_true_eq] at h
  have hletters : ∀ u ∈ ["ms", "s", "m", "h"], ∀ c ∈ u.toList, c ∈ ['m', 's', 'h'] := by
    have hall : (["ms", "s", "m", "h"].all
        fun u => u.toList.all fun c => ['m', 's', 'h'].contains c) = true := rfl
    intro u hu c hc
    exact List.contains_iff_mem.mp
      (List.all_eq_true.mp (List.all_eq_true.mp hall u hu) c hc)
  intro c hc
  -- A character belongs to the digits or to the unit behind them.
  rw [← s.toList.takeWhile_append_dropWhile (p := Char.isDigit), List.mem_append] at hc
  rcases hc with hc | hc
  · exact Or.inl (List.mem_takeWhile_imp hc)
  · right
    refine hletters _ h.2 c ?_
    rwa [String.toList_ofList]

/-- A character of a duration is ASCII, but no space. -/
theorem duration_char {c : Char} (h : c.isDigit = true ∨ c ∈ ['m', 's', 'h']) :
    c.toNat < 128 ∧ isSpace c = false ∧ Sdk.isSpace c = false := by
  rcases h with h | h
  · have hrange : 48 ≤ c.toNat ∧ c.toNat ≤ 57 := by
      simpa [Char.isDigit, Char.le_def, UInt32.le_iff_toNat_le] using h
    refine ⟨by omega, ?_, ?_⟩ <;>
      simp only [isSpace, Sdk.isSpace, Bool.or_eq_false_iff, Bool.and_eq_false_iff,
        decide_eq_false_iff_not] <;> omega
  · simp only [List.mem_cons, List.not_mem_nil, or_false] at h
    rcases h with rfl | rfl | rfl <;> decide

/-- A text without spaces is not trimmed. -/
theorem trim_eq {space : Char → Bool} {cs : List Char} (h : ∀ c ∈ cs, space c = false) :
    ((cs.dropWhile space).reverse.dropWhile space).reverse = cs := by
  have hdrop : ∀ l : List Char, (∀ c ∈ l, space c = false) → l.dropWhile space = l := by
    intro l hl
    cases l with
    | nil => rfl
    | cons c l => exact List.dropWhile_cons_of_neg (by simp [hl c List.mem_cons_self])
  rw [hdrop cs h, hdrop cs.reverse fun c hc => h c (List.mem_reverse.mp hc), List.reverse_reverse]

/-- Tests that agree on a list cut it at the same place. -/
theorem span_congr {α : Type} {p q : α → Bool} {l : List α} (h : ∀ a ∈ l, p a = q a) :
    l.span p = l.span q := by
  rw [List.span_eq_takeWhile_dropWhile, List.span_eq_takeWhile_dropWhile]
  induction l with
  | nil => rfl
  | cons a l ih =>
      have hl := Prod.mk.inj (ih fun b hb => h b (List.mem_cons_of_mem a hb))
      simp only [List.takeWhile_cons, List.dropWhile_cons, h a List.mem_cons_self, hl.1, hl.2]

/-- The number of a list of ASCII digits. -/
theorem ofDigits_eq {lib : Sdk.PyLib} (hlib : AsciiDigits lib) :
    ∀ (cs : List Char) (n : Nat), (∀ c ∈ cs, c.isDigit = true) →
      cs.foldl (fun n c => 10 * n + (lib.decimal c).getD 0) n = Nat.ofDigitChars 10 cs n := by
  intro cs
  induction cs with
  | nil => intro n _; rfl
  | cons c cs ih =>
      intro n h
      have hc := h c List.mem_cons_self
      have hdec : (lib.decimal c).getD 0 = c.toNat - 48 := by
        rw [hlib c (duration_char (Or.inl hc)).1, if_pos hc]
        rfl
      rw [List.foldl_cons, hdec, ih _ fun d hd => h d (List.mem_cons_of_mem c hd)]
      rfl

/-- Both loaders read a duration of the schema as the same number of seconds. -/
theorem durationOfText_eq {lib : Sdk.PyLib} (hlib : AsciiDigits lib) {s : String}
    (h : SpecSchema.isDuration s = true) :
    Sdk.durationOfText lib s = parseDuration s ∧ (parseDuration s).isSome = true := by
  have hchars := isDuration_chars h
  -- A text of the schema's form holds no blank, so neither engine trims anything, and its digits
  -- are ASCII, so both split it at the same place.
  have hstrip : Sdk.strip s.toList = s.toList :=
    trim_eq fun c hc => (duration_char (hchars c hc)).2.2
  have htrim : trimSpace s.toList = s.toList :=
    trim_eq fun c hc => (duration_char (hchars c hc)).2.1
  have hspan : s.toList.span (fun c => (lib.decimal c).isSome) = s.toList.span Char.isDigit := by
    refine span_congr fun c hc => ?_
    rw [hlib c (duration_char (hchars c hc)).1]
    split
    · rename_i hdigit
      rw [hdigit]
      rfl
    · rename_i hdigit
      rw [Bool.eq_false_iff.mpr hdigit]
      rfl
  unfold Sdk.durationOfText parseDuration spanDigits
  rw [hstrip, htrim, hspan, List.span_eq_takeWhile_dropWhile]
  unfold SpecSchema.isDuration at h
  rw [List.span_eq_takeWhile_dropWhile] at h
  simp only [Bool.and_eq_true, Bool.not_eq_true', List.isEmpty_eq_false_iff,
    decide_eq_true_eq] at h
  simp only [h.1, if_false]
  have hnum : Sdk.ofDigits lib (s.toList.takeWhile Char.isDigit)
      = Nat.ofDigitChars 10 (s.toList.takeWhile Char.isDigit) 0 :=
    ofDigits_eq hlib _ 0 fun c hc => List.mem_takeWhile_imp hc
  rw [hnum]
  refine ⟨rfl, ?_⟩
  have hunits : ∀ u ∈ ["ms", "s", "m", "h"], (unitSeconds u).isSome = true := by decide
  rw [Option.isSome_map]
  exact hunits _ h.2

/-! ### Members -/

/-- What a schema says about one member. -/
def MemberOk (schema : Schema) (key : String) (ms : List (String × Json)) : Prop :=
  ∀ v, Dict.find key ms = some v → schema v = true

/-- The members of an object that is a member. -/
theorem conforms_member {required : List String} {properties : List (String × Schema)}
    {additional : Schema} {key : String} {ms cs : List (String × Json)}
    (hok : MemberOk (.object required properties additional) key ms)
    (h : memberAs membersOf key ms = some cs) :
    Schema.Conforms required properties additional cs := by
  obtain ⟨v, hv, hcs⟩ := Option.bind_eq_some_iff.mp h
  obtain ⟨members, rfl, hmembers⟩ := Schema.spec_object (hok v hv)
  cases hcs
  exact hmembers

/-- An absent object has no members, which any schema without required members allows. -/
theorem conforms_objectAt {properties : List (String × Schema)} {additional : Schema}
    {key : String} {ms : List (String × Json)}
    (hok : MemberOk (.object [] properties additional) key ms) :
    Schema.Conforms [] properties additional (objectAt key ms) := by
  unfold objectAt
  cases h : memberAs membersOf key ms with
  | none => exact ⟨List.nodup_nil, fun k hk => (by cases hk), fun k v hv => (by cases hv)⟩
  | some cs => exact conforms_member hok h

/-- An integer of the schema is not below the bound. -/
theorem minimum_le {minimum : Int} {key : String} {ms : List (String × Json)}
    (hok : MemberOk (.integer minimum) key ms) {n : Int} (h : memberAs intOf key ms = some n) :
    minimum ≤ n := by
  obtain ⟨v, hv, hn⟩ := Option.bind_eq_some_iff.mp h
  obtain ⟨m, rfl, -, hm⟩ := Schema.spec_integer (hok v hv)
  cases hn
  exact hm

/-- A text of the schema passes its test. -/
theorem text_ok {p : String → Bool} {key : String} {ms : List (String × Json)}
    (hok : MemberOk (.string p) key ms) {s : String} (h : memberAs strOf key ms = some s) :
    p s = true := by
  obtain ⟨v, hv, hs⟩ := Option.bind_eq_some_iff.mp h
  obtain ⟨t, rfl, ht⟩ := Schema.spec_string (hok v hv)
  cases hs
  exact ht

/-- Each field of a struct of Go is filled from the member with its name. `put` stores a decoded
value, and the other members leave the field alone. -/
theorem decodeStruct_member {σ β : Type} {names : List String}
    {set : String → Json → σ → Option σ} {ms : List (String × Json)} {s s' : σ}
    (h : decodeStruct names set (.obj ms) s = some s') (hclosed : ∀ e ∈ ms, e.1 ∈ names)
    (hnd : (ms.map Prod.fst).Nodup) (key : String) (get : σ → β) (dec : Json → β → Option β)
    {put : σ → β → σ} (hown : ∀ v s, set key v s = (dec v (get s)).map (put s))
    (hput : ∀ s x, get (put s x) = x)
    (hother : ∀ m ∈ names, m ≠ key → ∀ v s s', set m v s = some s' → get s' = get s) :
    (∀ v, Dict.find key ms = some v → dec v (get s) = some (get s')) ∧
      (Dict.find key ms = none → get s' = get s) := by
  unfold decodeStruct at h
  induction ms generalizing s with
  | nil =>
      cases h
      exact ⟨fun v hv => (by cases hv), fun _ => rfl⟩
  | cons e ms ih =>
      rw [List.map_cons, List.nodup_cons] at hnd
      simp only [List.foldlM_cons] at h
      obtain ⟨t, ht, h⟩ := Option.bind_eq_some_iff.mp h
      have hname := hclosed e List.mem_cons_self
      have hfield : fieldOf names e.1 = some e.1 := if_pos hname
      rw [hfield] at ht
      obtain ⟨hsome, hnone⟩ := ih h (fun x hx => hclosed x (List.mem_cons_of_mem e hx)) hnd.2
      by_cases hkey : e.1 = key
      · -- The field is set here and by no later member.
        have hlater : Dict.find key ms = none := by
          rw [← Option.not_isSome_iff_eq_none, Dict.find_isSome, ← hkey]
          exact hnd.1
        have hfind : Dict.find key (e :: ms) = some e.2 := by
          show (if e.1 = key then some e.2 else Dict.find key ms) = some e.2
          rw [if_pos hkey]
        rw [hfind, hnone hlater]
        refine ⟨fun v hv => ?_, fun hv => (by cases hv)⟩
        cases hv
        have hset : set key e.2 s = some t := hkey ▸ ht
        rw [hown] at hset
        obtain ⟨x, hx, rfl⟩ := Option.map_eq_some_iff.mp hset
        rw [hx, hput]
      · have hfind : Dict.find key (e :: ms) = Dict.find key ms := by
          show (if e.1 = key then some e.2 else Dict.find key ms) = _
          rw [if_neg hkey]
        rw [hfind, ← hother e.1 hname hkey e.2 s t ht]
        exact ⟨hsome, hnone⟩

/-- The entries of a map of Go are those of the object. -/
theorem decodeMap_get {ν : Type} {dec : Json → Option ν} {ms : List (String × Json)}
    {d : Dict String ν} (h : decodeMap dec (.obj ms) .empty = some d)
    (hnd : (ms.map Prod.fst).Nodup) (key : String) :
    (∀ v, Dict.find key ms = some v → ∃ x, dec v = some x ∧ d.get? key = some x) ∧
      (Dict.find key ms = none → d.get? key = none) :=
  get?_foldlM_some hnd h

section Go

variable {key : String} {ms : List (String × Json)}

/-- The value of a field after the decoding, given what the member decodes into. -/
theorem field_eq {β : Type} {dec : Json → β → Option β} {f : Json → Option β} {cur new : β}
    (h : (∀ v, Dict.find key ms = some v → dec v cur = some new) ∧
      (Dict.find key ms = none → new = cur)) {schema : Schema} (hok : MemberOk schema key ms)
    (hdec : ∀ v, schema v = true → ∀ x, dec v cur = some x → f v = some x) :
    new = (memberAs f key ms).getD cur := by
  unfold memberAs
  cases hfind : Dict.find key ms with
  | none => exact h.2 hfind
  | some v =>
      rw [Option.bind_some, hdec v (hok v hfind) new (h.1 v hfind)]
      rfl

/-- What Go decodes from an integer of the schema is its value. -/
theorem decodeInt_spec {minimum : Int} {cur : Int} (v : Json)
    (hv : Schema.integer minimum v = true) (x : Int) (h : decodeInt v cur = some x) :
    intOf v = some x := by
  obtain ⟨n, rfl, -⟩ := Schema.spec_integer hv
  cases n with
  | int z => exact (Option.ite_none_right_eq_some.mp h).2
  | float q => cases h
  | minusZero point =>
      cases point with
      | false => exact h
      | true => cases h

/-- What Go decodes from a text of the schema is the text. -/
theorem decodeString_spec {p : String → Bool} {cur : String} (v : Json)
    (hv : Schema.string p v = true) (x : String) (h : decodeString v cur = some x) :
    strOf v = some x := by
  obtain ⟨s, rfl, -⟩ := Schema.spec_string hv
  exact h

/-- What Go decodes from a truth value is the value. -/
theorem decodeBool_spec {cur : Bool} (v : Json) (hv : Schema.boolean v = true) (x : Bool)
    (h : decodeBool v cur = some x) : boolOf v = some x := by
  obtain ⟨b, rfl⟩ := Schema.spec_boolean hv
  exact h

/-- What Go decodes from a duration of the schema are its seconds. -/
theorem decodeDuration_spec {cur : Duration} (v : Json) (hv : SpecSchema.duration v = true)
    (x : Duration) (h : decodeDuration v cur = some x) : durationOf v = some x := by
  obtain ⟨s, rfl, -⟩ := Schema.spec_string hv
  exact h

/-- A pointer to an object or a text is not nil. -/
theorem decodePtr_spec {α : Type} {dec : Json → α → Option α} {zero : α} {f : Json → Option α}
    {schema : Schema} (hnull : schema .null = false)
    (hdec : ∀ v, schema v = true → ∀ x, dec v zero = some x → f v = some x) (v : Json)
    (hv : schema v = true) (x : Option α) (h : decodePtr dec zero v none = some x) :
    (f v).map some = some x := by
  have hne : v ≠ .null := by
    rintro rfl
    rw [hnull] at hv
    cases hv
  rw [decodePtr_of_ne_null dec zero hne] at h
  obtain ⟨a, ha, rfl⟩ := Option.map_eq_some_iff.mp h
  rw [hdec v hv a ha]
  rfl

/-- A pointer is nil exactly when the member is absent. -/
theorem field_ptr_eq {α : Type} {dec : Json → α → Option α} {zero : α} {f : Json → Option α}
    {new : Option α} (h : (∀ v, Dict.find key ms = some v → decodePtr dec zero v none = some new) ∧
      (Dict.find key ms = none → new = none)) {schema : Schema} (hok : MemberOk schema key ms)
    (hnull : schema .null = false)
    (hdec : ∀ v, schema v = true → ∀ x, dec v zero = some x → f v = some x) :
    new = memberAs f key ms := by
  have hnew : new = (memberAs (fun v => (f v).map some) key ms).getD none :=
    @field_eq key ms _ (fun v _ => decodePtr dec zero v none) _ none new h schema hok
      (decodePtr_spec hnull hdec)
  rw [hnew]
  unfold memberAs
  cases Dict.find key ms with
  | none => rfl
  | some v =>
      show ((f v).map some).getD none = f v
      cases f v <;> rfl

end Go

section Python

variable {lib : Sdk.PyLib} {key : String} {ms : List (String × Json)}

/-- An integer in Python, with its default. -/
theorem pyInt_member {minimum : Int} (hok : MemberOk (.integer minimum) key ms) (n : Number) :
    Sdk.pyInt lib ((Dict.find key ms).getD (.num n))
      = .ok ((memberAs intOf key ms).getD n.truncate) := by
  unfold memberAs
  cases hfind : Dict.find key ms with
  | none => rfl
  | some v =>
      obtain ⟨m, rfl, hm, -⟩ := Schema.spec_integer (hok v hfind)
      simp [Sdk.pyInt, intOf, Number.truncate_eq hm]

/-- An optional integer in Python. -/
theorem asOptInt_member {minimum : Int} (hok : MemberOk (.integer minimum) key ms)
    (field : String) : Sdk.asOptInt field ((Dict.find key ms).getD .null)
      = .ok (memberAs intOf key ms) := by
  unfold memberAs
  cases hfind : Dict.find key ms with
  | none => rfl
  | some v =>
      obtain ⟨m, rfl, hm, -⟩ := Schema.spec_integer (hok v hfind)
      simp [Sdk.asOptInt, intOf, hm]

/-- A text in Python, with its default. -/
theorem asStr_member {p : String → Bool} (hok : MemberOk (.string p) key ms) (field s : String) :
    Sdk.asStr field ((Dict.find key ms).getD (.str s)) = .ok ((memberAs strOf key ms).getD s) := by
  unfold memberAs
  cases hfind : Dict.find key ms with
  | none => rfl
  | some v =>
      obtain ⟨t, rfl, -⟩ := Schema.spec_string (hok v hfind)
      rfl

/-- An optional text in Python. -/
theorem asOptStr_member {p : String → Bool} (hok : MemberOk (.string p) key ms) (field : String) :
    Sdk.asOptStr field ((Dict.find key ms).getD .null) = .ok (memberAs strOf key ms) := by
  unfold memberAs
  cases hfind : Dict.find key ms with
  | none => rfl
  | some v =>
      obtain ⟨t, rfl, -⟩ := Schema.spec_string (hok v hfind)
      rfl

/-- A truth value in Python, with its default. -/
theorem truthy_member (hok : MemberOk .boolean key ms) (b : Bool) :
    Sdk.truthy ((Dict.find key ms).getD (.bool b)) = (memberAs boolOf key ms).getD b := by
  unfold memberAs
  cases hfind : Dict.find key ms with
  | none => rfl
  | some v =>
      obtain ⟨c, rfl⟩ := Schema.spec_boolean (hok v hfind)
      rfl

/-- A duration in Python, with its default. -/
theorem parseDuration_member (hlib : AsciiDigits lib)
    (hok : MemberOk SpecSchema.duration key ms) (dflt : Option ℚ) :
    Sdk.parseDuration lib ((Dict.find key ms).getD .null) dflt
      = .ok ((memberAs durationOf key ms).or dflt) := by
  unfold memberAs
  cases hfind : Dict.find key ms with
  | none => rfl
  | some v =>
      obtain ⟨s, rfl, hs⟩ := Schema.spec_string (hok v hfind)
      obtain ⟨heq, hsome⟩ := durationOfText_eq hlib hs
      obtain ⟨d, hd⟩ := Option.isSome_iff_exists.mp hsome
      rw [hd] at heq
      simp [Sdk.parseDuration, durationOf, heq, hd]

/-- A duration of the schema has a value. -/
theorem duration_isSome (hlib : AsciiDigits lib) (hok : MemberOk SpecSchema.duration key ms)
    {v : Json} (hfind : Dict.find key ms = some v) :
    (memberAs durationOf key ms).isSome = true := by
  obtain ⟨s, rfl, hs⟩ := Schema.spec_string (hok v hfind)
  unfold memberAs
  rw [hfind]
  exact (durationOfText_eq hlib hs).2

/-- An object that is absent or empty is read as the empty object. -/
theorem orEmpty_member {schema : Schema} (hok : MemberOk schema key ms)
    (hshape : ∀ v, schema v = true → ∃ members, v = .obj members) :
    Sdk.orEmpty ((Dict.find key ms).getD (.obj [])) = .obj (objectAt key ms) := by
  unfold objectAt memberAs
  cases hfind : Dict.find key ms with
  | none => rfl
  | some v =>
      obtain ⟨members, rfl⟩ := hshape v (hok v hfind)
      cases members <;> rfl

end Python

end Orchestrator.Proofs
