import Orchestrator.Engine.Schema
import Orchestrator.Lib.JsonValue
import Orchestrator.Lib.Loops
import Orchestrator.Proofs.DispatchSafety
import Orchestrator.Sdk.Runner

/-!
# `Orchestrator.Proofs.Scope`: what the names in a template mean

Both engines put the run inputs under `input` and the output of each completed task under its id, in
one dictionary. The results come last, so a completed task named `input` takes the name away from
the run inputs, and this is the only clash (`scope_isolated_iff`).

`resolve` and `resolveTemplate` read the scope through `lookup` alone: where two scopes give a
template's references one meaning, they resolve it alike (`resolve_congr`, `resolveTemplate_congr`).
Both walk over the strings of a template and leave the rest as it is, which is `Json.traverse`
(`resolve_eq_traverse`).

Isolation is stated for every path: a reference to the run inputs reads them and nothing else, and a
reference to the output of a completed task reads that output (`GoIsolated`, `PyIsolated`). One
direction uses that task ids are distinct keys of the dictionary. For the other, the reference
`${input.x}` of a scope with such a task is followed by hand: it looks in the object that holds the
task's output (`lookup_input_shadowed`).

`refersTo_output` says that the text `${id.output}` is read as the reference it looks like, for
every id that the schema allows.
-/

set_option autoImplicit false

namespace Orchestrator.Proofs

open Orchestrator.Lib
open Orchestrator.Engine (GoLib Segment SpecSchema.isTaskId isSpace matchRef scan scanFrom splitPath
  trimSpace trimWith)
open Orchestrator.Sdk (PyLib strip)

/-! ### The scope -/

/-- The value of a name in the scope of the engine. -/
theorem get?_buildScope (inputs results : Dict String Json) (name : String) :
    (Engine.Env.buildScope inputs results).get? name
      = ((results.get? name).map fun out => Json.obj [("output", out)]).or
          (if name = "input" then some (.obj inputs.entries) else none) := by
  rw [Engine.Env.buildScope, get?_foldl_entries (fun out => Json.obj [("output", out)]),
    Dict.get?_set]
  rfl

/-- The value of a name in the scope of the runner. -/
theorem get?_templateScope (inputs results : Dict String Json) (name : String) :
    (Sdk.Runner.templateScope inputs results).get? name
      = ((results.get? name).map fun out => Json.obj [("output", out)]).or
          (if name = "input" then some (.obj inputs.entries) else none) := by
  rw [Sdk.Runner.templateScope, get?_foldl_entries (fun out => Json.obj [("output", out)]),
    Dict.get?_set]
  rfl

/-- The first step of a lookup in the engine. -/
theorem lookup_cons {lib : GoLib} {path : List Char} {scope : Dict String Json} {name : String}
    {parts : List String} {v : Json} (hpath : splitPath path = name :: parts)
    (hv : scope.get? name = some v) :
    Engine.lookup lib path (.obj scope.entries) = Engine.lookupFrom lib path v parts := by
  rw [Engine.lookup, hpath, Engine.lookupFrom, show Dict.find name scope.entries = some v from hv]

/-- The first step of a lookup in the runner. -/
theorem sdk_lookup_cons {path : List Char} {scope : Dict String Json} {name : String}
    {parts : List String} {v : Json} (hpath : splitPath path = name :: parts)
    (hv : scope.get? name = some v) :
    Sdk.lookup path (.obj scope.entries) = Sdk.lookupFrom path v parts := by
  rw [Sdk.lookup, hpath, Sdk.lookupFrom, show Dict.find name scope.entries = some v from hv]

/-! ### References -/

/-- `resolve` replaces the strings of a template. -/
theorem resolve_eq_traverse (lib : GoLib) (scope v : Json) :
    Engine.resolve lib scope v = v.traverseStr (fun s => Engine.resolveString lib s scope) := by
  induction v using Json.inductionOn with
  | arr items ih =>
      -- The code resolves the items one after the other, and an error ends the walk, as in the
      -- traversal.
      have key : Engine.resolveItems lib scope items
          = Json.traverseItems (fun s => Engine.resolveString lib s scope) items := by
        induction items with
        | nil => rfl
        | cons v rest ihrest =>
            rw [Engine.resolveItems, Json.traverseItems, ih v List.mem_cons_self,
              ihrest fun x hx => ih x (List.mem_cons_of_mem _ hx)]
            rfl
      rw [Engine.resolve, Json.traverseStr, key]
      rfl
  | obj members ih =>
      have key : Engine.resolveMembers lib scope members
          = Json.traverseMembers (fun s => Engine.resolveString lib s scope) members := by
        induction members with
        | nil => rfl
        | cons e rest ihrest =>
            rw [Engine.resolveMembers, Json.traverseMembers, ih e List.mem_cons_self,
              ihrest fun x hx => ih x (List.mem_cons_of_mem _ hx)]
            rfl
      rw [Engine.resolve, Json.traverseStr, key]
      rfl
  | _ => rfl

/-- `resolveTemplate` replaces the strings of a template. -/
theorem resolveTemplate_eq_traverse (lib : PyLib) (scope v : Json) :
    Sdk.resolveTemplate lib scope v = v.traverseStr (fun s => Sdk.resolveString lib s scope) := by
  induction v using Json.inductionOn with
  | arr items ih =>
      have key : Sdk.resolveItems lib scope items
          = Json.traverseItems (fun s => Sdk.resolveString lib s scope) items := by
        induction items with
        | nil => rfl
        | cons v rest ihrest =>
            rw [Sdk.resolveItems, Json.traverseItems, ih v List.mem_cons_self,
              ihrest fun x hx => ih x (List.mem_cons_of_mem _ hx)]
            rfl
      rw [Sdk.resolveTemplate, Json.traverseStr, key]
      rfl
  | obj members ih =>
      have key : Sdk.resolveMembers lib scope members
          = Json.traverseMembers (fun s => Sdk.resolveString lib s scope) members := by
        induction members with
        | nil => rfl
        | cons e rest ihrest =>
            rw [Sdk.resolveMembers, Json.traverseMembers, ih e List.mem_cons_self,
              ihrest fun x hx => ih x (List.mem_cons_of_mem _ hx)]
            rfl
      rw [Sdk.resolveTemplate, Json.traverseStr, key]
      rfl
  | _ => rfl

/-- A string that is one reference. -/
theorem resolveString_whole {lib : GoLib} {scope : Json} {s : String} {inner : List Char}
    (h : scan (trimSpace s.toList) = [.ref inner]) :
    Engine.resolveString lib s scope = Engine.lookup lib (trimSpace inner) scope := by
  rw [Engine.resolveString, h]

/-- Any other string. -/
theorem resolveString_parts {lib : GoLib} {scope : Json} {s : String}
    (h : ∀ inner, scan (trimSpace s.toList) ≠ [.ref inner]) :
    Engine.resolveString lib s scope = (Engine.substitute lib scope (scan s.toList)).map
      (fun out => .str (String.ofList out)) := by
  rw [Engine.resolveString]
  split
  · rename_i inner hwhole
    exact absurd hwhole (h inner)
  · cases Engine.substitute lib scope (scan s.toList) <;> rfl

/-- A string that is one reference, in the runner. -/
theorem sdk_resolveString_whole {lib : PyLib} {scope : Json} {s : String} {inner : List Char}
    (h : scan (strip s.toList) = [.ref inner]) :
    Sdk.resolveString lib s scope = Sdk.lookup (strip inner) scope := by
  rw [Sdk.resolveString, h]

/-- Any other string, in the runner. -/
theorem sdk_resolveString_parts {lib : PyLib} {scope : Json} {s : String}
    (h : ∀ inner, scan (strip s.toList) ≠ [.ref inner]) :
    Sdk.resolveString lib s scope = (Sdk.substitute lib scope (scan s.toList)).map
      (fun out => .str (String.ofList out)) := by
  rw [Sdk.resolveString]
  split
  · rename_i inner hwhole
    exact absurd hwhole (h inner)
  · cases Sdk.substitute lib scope (scan s.toList) <;> rfl

section

variable (trim : List Char → List Char)

/-- The paths of the references in a scanned string, with the blanks around them removed. -/
def segmentPaths : List Segment → List (List Char)
  | [] => []
  | .lit _ :: rest => segmentPaths rest
  | .ref inner :: rest => trim inner :: segmentPaths rest

/-- The paths that are looked up for a string: one for a whole reference, otherwise one for each
reference inside it. -/
def stringPaths (s : String) : List (List Char) :=
  match scan (trim s.toList) with
  | [.ref inner] => [trim inner]
  | _ => segmentPaths trim (scan s.toList)

/-- The paths that are looked up for a template. -/
def paths (v : Json) : List (List Char) := v.strings.flatMap (stringPaths trim)

/-- The paths of a string that is not one whole reference. -/
theorem stringPaths_parts {s : String} (h : ∀ inner, scan (trim s.toList) ≠ [.ref inner]) :
    stringPaths trim s = segmentPaths trim (scan s.toList) := by
  rw [stringPaths]
  split
  · rename_i inner hwhole
    exact absurd hwhole (h inner)
  · rfl

end

/-- The engine reads the scope through `lookup` alone. -/
theorem resolve_congr {lib : GoLib} {scope scope' : Json} (v : Json)
    (h : ∀ path ∈ paths trimSpace v, Engine.lookup lib path scope = Engine.lookup lib path scope') :
    Engine.resolve lib scope v = Engine.resolve lib scope' v := by
  -- The segments are substituted one by one, each from its own path.
  have key : ∀ segs : List Segment, (∀ path ∈ segmentPaths trimSpace segs,
      Engine.lookup lib path scope = Engine.lookup lib path scope') →
      Engine.substitute lib scope segs = Engine.substitute lib scope' segs := by
    intro segs
    induction segs with
    | nil => intro _; rfl
    | cons seg segs ih =>
        intro hsegs
        cases seg with
        | lit c => rw [Engine.substitute, Engine.substitute, ih hsegs]
        | ref inner =>
            rw [Engine.substitute, Engine.substitute, hsegs _ List.mem_cons_self,
              ih fun path hpath => hsegs path (List.mem_cons_of_mem _ hpath)]
  rw [resolve_eq_traverse, resolve_eq_traverse]
  refine Json.traverseStr_congr v fun s hs => ?_
  have hpaths : ∀ path ∈ stringPaths trimSpace s,
      Engine.lookup lib path scope = Engine.lookup lib path scope' := fun path hpath =>
    h path (List.mem_flatMap.mpr ⟨s, hs, hpath⟩)
  -- A text that is one reference keeps the type of the value. Every other one is put together as a
  -- string.
  by_cases hwhole : ∃ inner, scan (trimSpace s.toList) = [.ref inner]
  · obtain ⟨inner, hwhole⟩ := hwhole
    rw [resolveString_whole hwhole, resolveString_whole hwhole]
    exact hpaths _ (by simp [stringPaths, hwhole])
  · have hparts := not_exists.mp hwhole
    rw [stringPaths_parts trimSpace hparts] at hpaths
    rw [resolveString_parts hparts, resolveString_parts hparts, key _ hpaths]

/-- The runner reads the scope through `_lookup` alone. -/
theorem resolveTemplate_congr {lib : PyLib} {scope scope' : Json} (v : Json)
    (h : ∀ path ∈ paths strip v, Sdk.lookup path scope = Sdk.lookup path scope') :
    Sdk.resolveTemplate lib scope v = Sdk.resolveTemplate lib scope' v := by
  -- As for the Go engine.
  have key : ∀ segs : List Segment, (∀ path ∈ segmentPaths strip segs,
      Sdk.lookup path scope = Sdk.lookup path scope') →
      Sdk.substitute lib scope segs = Sdk.substitute lib scope' segs := by
    intro segs
    induction segs with
    | nil => intro _; rfl
    | cons seg segs ih =>
        intro hsegs
        cases seg with
        | lit c => rw [Sdk.substitute, Sdk.substitute, ih hsegs]
        | ref inner =>
            rw [Sdk.substitute, Sdk.substitute, hsegs _ List.mem_cons_self,
              ih fun path hpath => hsegs path (List.mem_cons_of_mem _ hpath)]
  rw [resolveTemplate_eq_traverse, resolveTemplate_eq_traverse]
  refine Json.traverseStr_congr v fun s hs => ?_
  have hpaths : ∀ path ∈ stringPaths strip s, Sdk.lookup path scope = Sdk.lookup path scope' :=
    fun path hpath => h path (List.mem_flatMap.mpr ⟨s, hs, hpath⟩)
  by_cases hwhole : ∃ inner, scan (strip s.toList) = [.ref inner]
  · obtain ⟨inner, hwhole⟩ := hwhole
    rw [sdk_resolveString_whole hwhole, sdk_resolveString_whole hwhole]
    exact hpaths _ (by simp [stringPaths, hwhole])
  · have hparts := not_exists.mp hwhole
    rw [stringPaths_parts strip hparts] at hpaths
    rw [sdk_resolveString_parts hparts, sdk_resolveString_parts hparts, key _ hpaths]

/-! ### The text of a reference -/

/-- The template is one reference with this path. -/
def RefersTo (template : String) (parts : List String) : Prop :=
  ∃ inner, scan (trimSpace template.toList) = [.ref inner] ∧ splitPath (trimSpace inner) = parts

/-- Nothing is trimmed between two characters that are no spaces. -/
theorem trimWith_eq_self {space : Char → Bool} {c d : Char} (hc : space c = false)
    (hd : space d = false) (mid : List Char) :
    trimWith space (c :: (mid ++ [d])) = c :: (mid ++ [d]) := by
  rw [trimWith, List.dropWhile_cons_of_neg (by simp [hc]), ← List.cons_append,
    List.reverse_append, List.reverse_singleton, List.singleton_append,
    List.dropWhile_cons_of_neg (by simp [hd]), List.reverse_cons, List.reverse_reverse]

/-- Characters that are skipped leave no segment. -/
theorem scanFrom_skip (n : Nat) (cs : List Char) (h : cs.length ≤ n) : scanFrom n cs = [] := by
  induction cs generalizing n with
  | nil => cases n <;> rfl
  | cons c cs ih =>
      cases n with
      | zero => simp at h
      | succ n => exact ih n (by simpa using h)

/-- The scan of one reference. -/
theorem scan_reference {inner : List Char} (hne : inner ≠ []) (hbrace : '}' ∉ inner) :
    scan ('$' :: '{' :: (inner ++ ['}'])) = [.ref inner] := by
  have htake : (inner ++ ['}']).takeWhile (· ≠ '}') = inner := by
    rw [List.takeWhile_append_of_pos fun c hc => by
      simpa using fun he : c = '}' => hbrace (he ▸ hc)]
    simp
  have hmatch : matchRef ('$' :: '{' :: (inner ++ ['}'])) = some inner := by
    simp only [matchRef, htake]
    rw [if_pos ⟨hne, by simp⟩]
  rw [scan, scanFrom, hmatch]
  simp only
  rw [scanFrom_skip _ _ (by simp)]

/-- The text of a reference without spaces at its ends. -/
theorem refersTo_of_inner {c d : Char} {mid : List Char} (hc : isSpace c = false)
    (hd : isSpace d = false) (hbrace : '}' ∉ c :: (mid ++ [d])) :
    RefersTo (String.ofList ('$' :: '{' :: ((c :: (mid ++ [d])) ++ ['}'])))
      (splitPath (c :: (mid ++ [d]))) := by
  refine ⟨c :: (mid ++ [d]), ?_, by rw [trimSpace, trimWith_eq_self hc hd]⟩
  rw [String.toList_ofList, trimSpace, ← List.cons_append,
    trimWith_eq_self (by decide) (by decide)]
  exact scan_reference (List.cons_ne_nil _ _) hbrace

/-- A character of a task id. -/
theorem idChar_ne {c : Char} (h : (c.isAlphanum || c = '_') = true) :
    c ≠ '}' ∧ c ≠ '.' ∧ isSpace c = false := by
  -- In code points the characters of an id are digits, letters and the underscore, and none of the
  -- three is among them.
  have hrange : (48 ≤ c.toNat ∧ c.toNat ≤ 57) ∨ (65 ≤ c.toNat ∧ c.toNat ≤ 90) ∨ c.toNat = 95 ∨
      (97 ≤ c.toNat ∧ c.toNat ≤ 122) := by
    rw [Bool.or_eq_true, decide_eq_true_iff] at h
    rcases h with h | rfl
    · delta Char.isAlphanum Char.isAlpha Char.isUpper Char.isLower Char.isDigit at h
      simp only [Bool.or_eq_true, Bool.and_eq_true, decide_eq_true_eq, ge_iff_le,
        UInt32.le_iff_toNat_le] at h
      simp only [Char.toNat]
      change ((65 ≤ _ ∧ _ ≤ 90) ∨ (97 ≤ _ ∧ _ ≤ 122)) ∨ (48 ≤ _ ∧ _ ≤ 57) at h
      omega
    · exact Or.inr (Or.inr (Or.inl rfl))
  refine ⟨fun he => ?_, fun he => ?_, ?_⟩
  · rw [he, show '}'.toNat = 125 from rfl] at hrange
    omega
  · rw [he, show '.'.toNat = 46 from rfl] at hrange
    omega
  · simp only [isSpace, Bool.or_eq_false_iff, Bool.and_eq_false_iff, decide_eq_false_iff_not]
    omega

/-- `${id.output}` refers to the output of the task. -/
theorem refersTo_output {id : String} (h : SpecSchema.isTaskId id = true) :
    RefersTo (String.ofList ('$' :: '{' :: (id.toList ++ ".output\x7d".toList)))
      [id, "output"] := by
  unfold SpecSchema.isTaskId at h
  split at h
  · cases h
  · rename_i c cs hid
    rw [Bool.and_eq_true] at h
    have hc : (c.isAlphanum || c = '_') = true := by
      have h1 := h.1
      rw [Bool.or_eq_true] at h1 ⊢
      exact h1.imp_left fun ha => by rw [Char.isAlphanum, ha]; rfl
    have hall : ∀ d ∈ id.toList, (d.isAlphanum || d = '_') = true := by
      rw [hid]
      intro d hd
      rcases List.mem_cons.mp hd with rfl | hd
      · exact hc
      · exact List.all_eq_true.mp h.2 d hd
    -- An id holds neither a brace nor a dot, so the text is scanned as one reference and its path
    -- splits in two.
    have hbrace : '}' ∉ id.toList ++ ".output".toList := by
      rw [List.mem_append]
      rintro (hd | hd)
      · exact (idChar_ne (hall _ hd)).1 rfl
      · revert hd
        decide
    have hdot : '.' ∉ id.toList := fun hd => (idChar_ne (hall _ hd)).2.1 rfl
    have hinner : id.toList ++ ".output".toList = c :: ((cs ++ ".outpu".toList) ++ ['t']) := by
      rw [hid, List.cons_append, List.append_assoc]
      rfl
    have htext : '$' :: '{' :: (id.toList ++ ".output\x7d".toList)
        = '$' :: '{' :: ((c :: ((cs ++ ".outpu".toList) ++ ['t'])) ++ ['}']) := by
      rw [← hinner, List.append_assoc]
      rfl
    have hsplit : splitPath (id.toList ++ ".output".toList) = [id, "output"] := by
      rw [splitPath, show id.toList ++ ".output".toList = id.toList ++
        '.' :: "output".toList from rfl,
        List.splitOn_append_cons_self_of_not_mem hdot, List.splitOn_eq_singleton (by decide)]
      simp
    rw [htext, ← hsplit, hinner]
    exact refersTo_of_inner (idChar_ne hc).2.2 (by decide) (hinner ▸ hbrace)

/-! ### Isolation -/

/-- The path of a reference to the run inputs. -/
def IsInputPath (path : List Char) : Prop := ∃ parts, splitPath path = "input" :: parts

section

variable (inputs results : Dict String Json)

/-- In the engine, a reference to the run inputs reads them alone, and a reference to the output of
a completed task reads that output alone. -/
structure GoIsolated (lib : GoLib) : Prop where
  input : ∀ path parts, splitPath path = "input" :: parts →
    Engine.lookup lib path (.obj (Engine.Env.buildScope inputs results).entries)
      = Engine.lookupFrom lib path (.obj inputs.entries) parts
  output : ∀ id out, results.get? id = some out → ∀ path parts,
    splitPath path = id :: "output" :: parts →
    Engine.lookup lib path (.obj (Engine.Env.buildScope inputs results).entries)
      = Engine.lookupFrom lib path out parts
  /-- A template that refers to the run inputs alone resolves as before the first task. -/
  template : ∀ v, (∀ path ∈ paths trimSpace v, IsInputPath path) →
    Engine.resolve lib (.obj (Engine.Env.buildScope inputs results).entries) v
      = Engine.resolve lib (.obj (Engine.Env.buildScope inputs .empty).entries) v

/-- The same in the runner. The last clause says that a template which refers to inputs only does
not depend on the results. -/
structure PyIsolated (lib : PyLib) : Prop where
  input : ∀ path parts, splitPath path = "input" :: parts →
    Sdk.lookup path (.obj (Sdk.Runner.templateScope inputs results).entries)
      = Sdk.lookupFrom path (.obj inputs.entries) parts
  output : ∀ id out, results.get? id = some out → ∀ path parts,
    splitPath path = id :: "output" :: parts →
    Sdk.lookup path (.obj (Sdk.Runner.templateScope inputs results).entries)
      = Sdk.lookupFrom path out parts
  template : ∀ v, (∀ path ∈ paths strip v, IsInputPath path) →
    Sdk.resolveTemplate lib (.obj (Sdk.Runner.templateScope inputs results).entries) v
      = Sdk.resolveTemplate lib (.obj (Sdk.Runner.templateScope inputs .empty).entries) v

variable {inputs results}

/-- The output of a completed task, in the engine. -/
theorem lookup_output (lib : GoLib) {id : String} {out : Json} (hout : results.get? id = some out)
    {path : List Char} {parts : List String} (hpath : splitPath path = id :: "output" :: parts) :
    Engine.lookup lib path (.obj (Engine.Env.buildScope inputs results).entries)
      = Engine.lookupFrom lib path out parts := by
  rw [lookup_cons hpath (by rw [get?_buildScope, hout]; rfl), Engine.lookupFrom]
  rfl

/-- The run inputs, in the engine. -/
theorem lookup_input (lib : GoLib) (hfree : results.contains "input" = false)
    {path : List Char} {parts : List String} (hpath : splitPath path = "input" :: parts) :
    Engine.lookup lib path (.obj (Engine.Env.buildScope inputs results).entries)
      = Engine.lookupFrom lib path (.obj inputs.entries) parts := by
  refine lookup_cons hpath ?_
  rw [get?_buildScope, (Dict.contains_eq_false _ _).mp hfree]
  rfl

/-- The output of a completed task, in the runner. -/
theorem sdk_lookup_output {id : String} {out : Json} (hout : results.get? id = some out)
    {path : List Char} {parts : List String} (hpath : splitPath path = id :: "output" :: parts) :
    Sdk.lookup path (.obj (Sdk.Runner.templateScope inputs results).entries)
      = Sdk.lookupFrom path out parts := by
  rw [sdk_lookup_cons hpath (by rw [get?_templateScope, hout]; rfl), Sdk.lookupFrom]
  rfl

/-- The run inputs, in the runner. -/
theorem sdk_lookup_input (hfree : results.contains "input" = false) {path : List Char}
    {parts : List String} (hpath : splitPath path = "input" :: parts) :
    Sdk.lookup path (.obj (Sdk.Runner.templateScope inputs results).entries)
      = Sdk.lookupFrom path (.obj inputs.entries) parts := by
  refine sdk_lookup_cons hpath ?_
  rw [get?_templateScope, (Dict.contains_eq_false _ _).mp hfree]
  rfl

/-- Isolation in the engine when no completed task is named `input`. -/
theorem goIsolated (lib : GoLib) (hfree : results.contains "input" = false) :
    GoIsolated inputs results lib where
  input := fun _ _ hpath => lookup_input lib hfree hpath
  output := fun _ _ hout _ _ hpath => lookup_output lib hout hpath
  template := fun v hv => resolve_congr v fun path hpath => by
    obtain ⟨parts, hparts⟩ := hv path hpath
    rw [lookup_input lib hfree hparts, lookup_input lib rfl hparts]

/-- Isolation in the runner when no completed task is named `input`. -/
theorem pyIsolated (lib : PyLib) (hfree : results.contains "input" = false) :
    PyIsolated inputs results lib where
  input := fun _ _ hpath => sdk_lookup_input hfree hpath
  output := fun _ _ hout _ _ hpath => sdk_lookup_output hout hpath
  template := fun v hv => resolveTemplate_congr v fun path hpath => by
    obtain ⟨parts, hparts⟩ := hv path hpath
    rw [sdk_lookup_input hfree hparts, sdk_lookup_input rfl hparts]

end

/-- With a completed task named `input`, a reference to the run inputs reads its object with the one
member `output`. -/
theorem lookup_input_shadowed (lib : GoLib) {inputs results : Dict String Json} {out : Json}
    (hout : results.get? "input" = some out) {path : List Char} {parts : List String}
    (hpath : splitPath path = "input" :: parts) :
    Engine.lookup lib path (.obj (Engine.Env.buildScope inputs results).entries)
      = Engine.lookupFrom lib path (.obj [("output", out)]) parts :=
  lookup_cons hpath (by rw [get?_buildScope, hout]; rfl)

/-- The names of a scope keep their meaning in both engines, whatever the run inputs are, exactly
when no completed task is named `input`. Both engines put the run inputs under that name and then
the tasks under their ids, so a task of this name takes it away. The lookups of all other names are
not touched by it. -/
theorem scope_isolated_iff (goLib : GoLib) (pyLib : PyLib) (results : Dict String Json) :
    (∀ inputs : Dict String Json,
        GoIsolated inputs results goLib ∧ PyIsolated inputs results pyLib) ↔
      results.contains "input" = false := by
  constructor
  · intro h
    by_contra hne
    obtain ⟨out, hout⟩ := (Dict.contains_iff _ _).mp (by simpa using hne)
    -- The run inputs have a field `x`, and the object of the task has none.
    have hpath : splitPath "input.x".toList = ["input", "x"] := by rfl
    have hinput := (h (Dict.empty.set "x" .null)).1.input "input.x".toList ["x"] hpath
    rw [lookup_input_shadowed goLib hout hpath] at hinput
    cases hinput
  · exact fun hfree inputs => ⟨goIsolated goLib hfree, pyIsolated pyLib hfree⟩

/-- A task named `input`, and a task that depends on it, in a run with the input `x`. -/
def inputTask : Engine.Env Unit :=
  { plainEnv (plainWorkflow [plainTask "input" [] "", plainTask "b" ["input"] ""]) with
    inputs := Dict.empty.set "x" .null }

/-- When the task named `input` has succeeded, `${input.x}` no longer resolves, although the run
input `x` was given. -/
theorem scope_not_isolated :
    inputTask.wf.validate .insertion = .ok () ∧
      inputTask.wf.ids.all Engine.SpecSchema.isTaskId = true ∧
      ∃ s, inputTask.system.Reachable s ∧ s.main.results.contains "input" = true ∧
        ¬ GoIsolated inputTask.inputs s.main.results inputTask.lib := by
  have hrun : (inputTask.system.run?
      ([Engine.Env.Action.main, .main, .main] ++ wholeTask 0 {} ++ [Engine.Env.Action.main])).any
      (fun s => s.main.results.contains "input") = true := by rfl
  obtain ⟨s, hs, hin⟩ := System.exists_of_run hrun
  refine ⟨by rfl, by rfl, s, hs, hin, fun h => ?_⟩
  obtain ⟨out, hout⟩ := (Dict.contains_iff _ _).mp hin
  have hpath : splitPath "input.x".toList = ["input", "x"] := by rfl
  have hinput := h.input "input.x".toList ["x"] hpath
  rw [lookup_input_shadowed inputTask.lib hout hpath] at hinput
  cases hinput

end Orchestrator.Proofs
