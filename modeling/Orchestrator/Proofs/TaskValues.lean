import Orchestrator.Proofs.ClientProtocol
import Orchestrator.Proofs.LoadedFields
import Orchestrator.Proofs.Scope
import Orchestrator.Proofs.TaskData

/-!
# `Orchestrator.Proofs.TaskValues`: JSON values on their way between tasks

A value that a task returns is decoded, kept in the results, looked up for a dependent task and
encoded again. `Reads` and `Prints` state what `encoding/json` documents about one text and one
value: objects and strings come through, and a number becomes a float64, which is written back in
its shortest form. `JsonText` has what this leaves open.

So a field that is one whole reference decodes to the value referred to exactly when each number in
it survives (`values_pass_iff`). The two statements are assumed of the texts and values that a run
really hands to the library (`Documented`), not of all texts, so that a sample run can be given a
library that knows a handful of them.

The value is compared with what the client sent and not with what the engine holds: `Lib.JsonValue`
says when two values are the same, whatever the order of their members, and a number survives when
the nearest float64 is printed as a numeral of the same value. That a number is lost can only be
seen at a number (`not_survives_of_unread`).
-/

set_option autoImplicit false

namespace Orchestrator.Proofs

open Orchestrator.Lib Orchestrator.Engine Orchestrator.Engine.Env

variable {B : Type} {env : Env B}

/-! ### `encoding/json` -/

/-- What the documentation of `encoding/json` refers to: the value of a text, the nearest float64
of a number, and the number that is written for it. The laws of the package are stated in these
terms. -/
structure JsonText where
  /-- The value that a text denotes, with its numbers exact. -/
  value : String → Option Json
  /-- The nearest float64, for a number in its range. -/
  float : ℚ → Option ℚ
  /-- The number that is written for a float64. -/
  printed : ℚ → ℚ
  value_empty : value "" = none
  value_null : value "null" = some .null

namespace JsonText

variable (T : JsonText)

/-- The number is written as it was read. -/
def Survives (q : ℚ) : Prop := (T.float q).map T.printed = some q

/-- `Unmarshal` of a text into an `any`. It fails on a number out of range. -/
def Reads (lib : GoLib) (text : String) : Prop :=
  ∀ v, T.value text = some v → v.UniqueKeys →
    lib.unmarshal text =
      if v.numbers.all (fun q => (T.float q).isSome) then
        some (v.mapNum fun q => (T.float q).getD 0)
      else none

/-- `Marshal` of a value. It sorts the keys of an object. -/
def Prints (lib : GoLib) (v : Json) : Prop :=
  T.value (lib.marshal v) = some (v.mapNum T.printed).canon

/-- The text is an object whose field decodes to the value. -/
def FieldIs (text field : String) (v : Json) : Prop :=
  ∃ members w, T.value text = some (.obj members) ∧ Dict.find field members = some w ∧ w.Same v

variable {T}

/-- A field of an encoded object. -/
theorem fieldIs_marshal {lib : GoLib} {members : List (String × Json)}
    (hprints : T.Prints lib (.obj members)) (hnd : (members.map Prod.fst).Nodup) {field : String}
    {x v : Json} (hx : Dict.find field members = some x) :
    T.FieldIs (lib.marshal (.obj members)) field v ↔ (x.mapNum T.printed).Same v := by
  have hkeys : ((Json.mapNumMembers T.printed members).map Prod.fst).Nodup := by
    rw [Json.mapNumMembers_eq_map, List.map_map]
    exact hnd
  -- Sorting the members and printing the numbers changes neither the keys nor which value belongs
  -- to which.
  have hfind : Dict.find field ((Json.canonMembers
      (Json.mapNumMembers T.printed members)).insertionSort Json.keyLE)
      = some (x.mapNum T.printed).canon := by
    rw [Json.find_canon hkeys, Json.mapNumMembers_eq_map, Json.find_map, hx]
    rfl
  have htext : T.value (lib.marshal (.obj members)) = some (.obj ((Json.canonMembers
      (Json.mapNumMembers T.printed members)).insertionSort Json.keyLE)) := by
    rw [hprints, Json.mapNum, Json.canon]
  have hsame : (x.mapNum T.printed).canon.Same v ↔ (x.mapNum T.printed).Same v := by
    rw [Json.Same, Json.Same, Json.canon_canon]
  constructor
  · rintro ⟨ms, w, hms, hw, hv⟩
    rw [htext] at hms
    cases hms
    rw [hfind] at hw
    cases hw
    exact hsame.mp hv
  · exact fun h => ⟨_, _, htext, hfind, hsame.mpr h⟩

/-- A value that is read and written is the same when each of its numbers survives. -/
theorem same_iff_survives {v : Json} (hfloat : ∀ q ∈ v.numbers, (T.float q).isSome = true) :
    ((v.mapNum fun q => (T.float q).getD 0).mapNum T.printed).Same v ↔
      ∀ q ∈ v.numbers, T.Survives q := by
  rw [Json.mapNum_mapNum, Json.same_mapNum]
  refine forall_congr' fun q => forall_congr' fun hq => ?_
  obtain ⟨x, hx⟩ := Option.isSome_iff_exists.mp (hfloat q hq)
  simp [Survives, hx]

/-- A text that is not read leaves a value with a number. -/
theorem not_survives_of_unread {v : Json}
    (hall : ¬ v.numbers.all (fun q => (T.float q).isSome) = true) :
    ¬ ∀ q ∈ v.numbers, T.Survives q := by
  intro h
  refine hall (List.all_eq_true.mpr fun q hq => ?_)
  have hq' : (T.float q).map T.printed = some q := h q hq
  rw [← Option.isSome_map, hq']
  rfl

/-- The output of a task comes back as the value of its text when each number in it survives, and
otherwise as another value. -/
theorem same_decodeOutput {env : Env B} {text : String} (hreads : T.Reads env.lib text) {v : Json}
    (hv : T.value text = some v) (hkeys : v.UniqueKeys) :
    ((env.decodeOutput text).mapNum T.printed).Same v ↔ ∀ q ∈ v.numbers, T.Survives q := by
  have hne : text ≠ "" := by
    intro he
    rw [he, T.value_empty] at hv
    cases hv
  rw [decodeOutput, if_pos hne, hreads v hv hkeys]
  by_cases hall : v.numbers.all (fun q => (T.float q).isSome) = true
  · rw [if_pos hall]
    exact same_iff_survives (List.all_eq_true.mp hall)
  · -- The output is the raw text, and the value holds a number.
    rw [if_neg hall]
    refine iff_of_false (fun hsame => ?_) (not_survives_of_unread hall)
    have hstr : v.canon = .str text := hsame.symm
    refine hall (List.all_eq_true.mpr fun q hq => ?_)
    rw [← Json.mem_numbers_canon, hstr] at hq
    cases hq

end JsonText

/-! ### Whole references -/

/-- A replaced object has its keys, and under each of them the replaced member. -/
theorem traverseMembers_ok {ε : Type} {f : String → Except ε Json}
    {members out : List (String × Json)} (h : Json.traverseMembers f members = .ok out) :
    out.map Prod.fst = members.map Prod.fst ∧
      ∀ k v, Dict.find k members = some v →
        ∃ x, Dict.find k out = some x ∧ v.traverseStr f = .ok x := by
  induction members generalizing out with
  | nil =>
      cases h
      exact ⟨rfl, fun k v hk => by cases hk⟩
  | cons e rest ih =>
      obtain ⟨k', v'⟩ := e
      rw [Json.traverseMembers] at h
      cases hx : v'.traverseStr f with
      | error err =>
          rw [hx] at h
          cases h
      | ok x =>
          cases hrest : Json.traverseMembers f rest with
          | error err =>
              rw [hx, hrest] at h
              cases h
          | ok tail =>
              rw [hx, hrest] at h
              cases h
              obtain ⟨hkeys, hfind⟩ := ih hrest
              refine ⟨by rw [List.map_cons, List.map_cons, hkeys], fun k v hk => ?_⟩
              -- The search meets the same keys in the same order in both lists.
              rw [Dict.find] at hk ⊢
              split at hk
              · rename_i heq
                cases hk
                rw [if_pos heq]
                exact ⟨x, rfl, hx⟩
              · rename_i hne
                rw [if_neg hne]
                exact hfind k v hk

/-- The field of an invocation whose template is one whole reference, in terms of the value that the
reference leads to. -/
theorem field_of_reference {T : JsonText} {c : Call} {g : Goroutine} (hc : CallData env c g)
    (hprints : ∀ v, resolvedInputs env g = .ok v → T.Prints env.lib v) {field template : String}
    (hfield : g.task.inputs.get? field = some (.str template)) {parts : List String}
    (href : RefersTo template parts) :
    ∃ path x, splitPath path = parts ∧
      lookup env.lib path (.obj (buildScope env.inputs g.snapshot).entries) = .ok x ∧
      ∀ v, T.FieldIs c.inv.inputsJSON field v ↔ (x.mapNum T.printed).Same v := by
  obtain ⟨resolved, hr, hjson⟩ := hc.inputs
  obtain ⟨inner, hwhole, hsplit⟩ := href
  have htraverse := hr
  rw [resolvedInputs, resolve_eq_traverse, Json.traverseStr] at htraverse
  -- Resolving the inputs resolves each member for itself, so the field depends on its own reference
  -- only.
  cases hm : Json.traverseMembers (fun s => resolveString env.lib s
      (.obj (buildScope env.inputs g.snapshot).entries)) g.task.inputs.entries with
  | error e =>
      rw [hm] at htraverse
      cases htraverse
  | ok members =>
      rw [hm] at htraverse
      obtain rfl : Json.obj members = resolved := by cases htraverse; rfl
      obtain ⟨hkeys, hfind⟩ := traverseMembers_ok hm
      obtain ⟨x, hx, hlookup⟩ := hfind field _ hfield
      rw [Json.traverseStr, resolveString_whole hwhole] at hlookup
      refine ⟨trimSpace inner, x, hsplit, hlookup, fun v => ?_⟩
      rw [hc.inputsJSON, hjson]
      exact JsonText.fieldIs_marshal (hprints _ hr) (hkeys ▸ g.task.inputs.nodup) hx

/-! ### The values of a run -/

/-- `encoding/json` behaves as documented on what the run hands it. -/
structure Documented (T : JsonText) (env : Env B) (s : State B) : Prop where
  prints : ∀ g ∈ s.gos, ∀ v, resolvedInputs env g = .ok v → T.Prints env.lib v
  reads : ∀ g ∈ s.gos, ∀ res ∈ g.returned, T.Reads env.lib res.outputJSON

/-- A field that is the whole output of a dependency decodes to the value that the dependency
returned exactly when each number in it survives. -/
def OutputsPass (T : JsonText) (env : Env B) (s : State B) : Prop :=
  ∀ c ∈ s.calls, ∀ g ∈ s.gos, g.task.id = c.inv.taskID → ∀ u ∈ s.gos,
    Relation.TransGen (fun d t => d ∈ env.wf.deps t) u.task.id g.task.id →
    ∃ res, u.returned.getLast? = some res ∧ ∀ v, T.value res.outputJSON = some v → v.UniqueKeys →
      ∀ field template, g.task.inputs.get? field = some (.str template) →
        RefersTo template [u.task.id, "output"] →
        (T.FieldIs c.inv.inputsJSON field v ↔ ∀ q ∈ v.numbers, T.Survives q)

/-- A field that is a run input decodes to the value that was given exactly when each number in it
survives, where no completed task is named `input`. -/
def InputsPass (T : JsonText) (s : State B) (given : List (String × Json)) : Prop :=
  ∀ c ∈ s.calls, ∀ g ∈ s.gos, g.task.id = c.inv.taskID → g.snapshot.contains "input" = false →
    ∀ name v, Dict.find name given = some v →
      ∀ field template, g.task.inputs.get? field = some (.str template) →
        RefersTo template ["input", name] →
        (T.FieldIs c.inv.inputsJSON field v ↔ ∀ q ∈ v.numbers, T.Survives q)

/-- The goroutine of a call is the one of its task. -/
theorem TaskData.call_of_task (hacc : Accepted env.wf) {s : State B} (hs : env.system.Reachable s)
    {c : Call} (hc : c ∈ s.calls) {g : Goroutine} (hg : g ∈ s.gos)
    (hid : g.task.id = c.inv.taskID) : CallData env c g := by
  obtain ⟨x, hx, hcx⟩ := (reachable_taskData hs).calls c hc
  have hxg : x = g :=
    (reachable_runInv hacc hs).flight.go_unique hx hg (hcx.task.symm.trans hid.symm)
  exact hxg ▸ hcx

/-- The outputs of tasks. -/
theorem outputsPass {T : JsonText} (hacc : Accepted env.wf) {s : State B}
    (hs : env.system.Reachable s) (hdoc : Documented T env s) : OutputsPass T env s := by
  intro c hc g hg hid u hu hdep
  obtain ⟨res, hres, hsnap⟩ := snapshot_decoded hacc hs hg hu hdep
  refine ⟨res, hres, fun v hv hkeys field template hfield href => ?_⟩
  have hcall := TaskData.call_of_task hacc hs hc hg hid
  obtain ⟨path, x, hpath, hlookup, hfieldIs⟩ :=
    field_of_reference hcall (hdoc.prints g hg) hfield href
  rw [lookup_output env.lib hsnap hpath] at hlookup
  cases hlookup
  rw [hfieldIs]
  exact JsonText.same_decodeOutput (hdoc.reads u hu res (List.mem_of_getLast? hres)) hv hkeys

/-- The run inputs are the decoded members of the start message. -/
theorem accept_inputs {l : Launch B} {start : InMsg} (h : l.accept start = .accepted env) :
    env.lib = l.lib ∧ l.decodeInputs start.inputsJSON = some env.inputs := by
  unfold Launch.accept at h
  -- Each refusal ends the start, so an accepted one has decoded its inputs.
  split at h
  · cases h
  · split at h
    · cases h
    · cases h
    · cases h
    · unfold Launch.start at h
      split at h
      · cases h
      · rename_i inputs hinputs
        split at h
        · cases h
        · cases h
          exact ⟨rfl, hinputs⟩

/-- A run input as the engine holds it, when the run is accepted. -/
theorem input_decoded {T : JsonText} {l : Launch B} {start : InMsg}
    (haccept : l.accept start = .accepted env) (hreads : T.Reads l.lib start.inputsJSON)
    {given : List (String × Json)} (hgiven : T.value start.inputsJSON = some (.obj given))
    (hkeys : (Json.obj given).UniqueKeys) {name : String} {v : Json}
    (hv : Dict.find name given = some v) :
    (∀ q ∈ v.numbers, (T.float q).isSome = true) ∧
      env.inputs.get? name = some (v.mapNum fun q => (T.float q).getD 0) := by
  obtain ⟨-, hinputs⟩ := accept_inputs haccept
  have hnone : start.inputsJSON ≠ "" := by
    intro he
    rw [he, T.value_empty] at hgiven
    cases hgiven
  rw [Launch.decodeInputs] at hinputs
  have hnull : start.inputsJSON ≠ "null" := by
    intro he
    rw [he, T.value_null] at hgiven
    cases hgiven
  rw [if_neg (by simp [hnone, hnull]), hreads _ hgiven hkeys] at hinputs
  by_cases hall : (Json.obj given).numbers.all (fun q => (T.float q).isSome) = true
  · rw [if_pos hall, Json.mapNum, Option.bind_some] at hinputs
    have hnd : ((Json.mapNumMembers (fun q => (T.float q).getD 0) given).map Prod.fst).Nodup := by
      rw [Json.mapNumMembers_eq_map, List.map_map]
      exact hkeys.1
    have hfind : Dict.find name (Json.mapNumMembers (fun q => (T.float q).getD 0) given)
        = some (v.mapNum fun q => (T.float q).getD 0) := by
      rw [Json.mapNumMembers_eq_map, Json.find_map, hv]
      rfl
    obtain ⟨x, hx, hget⟩ := (decodeMap_get hinputs hnd name).1 _ hfind
    cases hx
    refine ⟨fun q hq => List.all_eq_true.mp hall q ?_, hget⟩
    exact Json.mem_numbersMembers.mpr ⟨(name, v), (Dict.mem_iff_find hkeys.1 _ _).mpr hv, hq⟩
  · -- A start message with a number out of range is refused.
    rw [if_neg hall] at hinputs
    cases hinputs

/-- The run inputs. -/
theorem inputsPass {T : JsonText} (hacc : Accepted env.wf) {l : Launch B} {start : InMsg}
    (haccept : l.accept start = .accepted env) (hreads : T.Reads l.lib start.inputsJSON)
    {given : List (String × Json)} (hgiven : T.value start.inputsJSON = some (.obj given))
    (hkeys : (Json.obj given).UniqueKeys) {s : State B} (hs : env.system.Reachable s)
    (hdoc : Documented T env s) : InputsPass T s given := by
  intro c hc g hg hid hfree name v hv field template hfield href
  have hcall := TaskData.call_of_task hacc hs hc hg hid
  obtain ⟨path, x, hpath, hlookup, hfieldIs⟩ :=
    field_of_reference hcall (hdoc.prints g hg) hfield href
  obtain ⟨hfloat, hget⟩ := input_decoded haccept hreads hgiven hkeys hv
  rw [lookup_input env.lib hfree hpath, lookupFrom,
    show Dict.find name env.inputs.entries = _ from hget] at hlookup
  cases hlookup
  rw [hfieldIs]
  exact JsonText.same_iff_survives hfloat

/-- In a run of an accepted start message, a field that is the whole output of a dependency, or a
run input, decodes to the value that was returned or given exactly when each number in that value
survives its way through a float64.

The value takes the same way in both cases: it is decoded, put into the scope of the dependent task,
resolved and printed again. Everything but its numbers comes through. What the library has to do for
it, to read and to print the texts of this run, is assumed in the words of its documentation. -/
theorem values_pass_iff (T : JsonText) (l : Launch B) (start : InMsg) (env : Env B)
    (haccept : l.accept start = .accepted env) (hreads : T.Reads l.lib start.inputsJSON)
    {s : State B} (hs : env.system.Reachable s) (hdoc : Documented T env s) :
    OutputsPass T env s ∧ ∀ given, T.value start.inputsJSON = some (.obj given) →
      (Json.obj given).UniqueKeys → InputsPass T s given := by
  have hacc := accepted_of_validate (accept_validated haccept)
  exact ⟨outputsPass hacc hs hdoc,
    fun given hgiven hkeys => inputsPass hacc haccept hreads hgiven hkeys hs hdoc⟩

/-! ### Two values in a run -/

/-- The texts of a sample run: `9007199254740993` is the first integer that no float64 holds. -/
def sampleText : JsonText where
  value text :=
    if text = "null" then some .null
    else if text = "7" then some (.num 7)
    else if text = "9007199254740993" then some (.num 9007199254740993)
    else if text = "\x7b\"x\":7\x7d" then some (.obj [("x", .num 7)])
    else if text = "\x7b\"x\":9007199254740992\x7d" then
      some (.obj [("x", .num 9007199254740992)])
    else if text = "\x7b\x7d" then some (.obj [])
    else none
  float q := if q = 9007199254740993 then some 9007199254740992 else some q
  printed q := q
  value_empty := rfl
  value_null := rfl

/-- The text of a workflow: `b` depends on `a` and takes its whole output as `x`. -/
def chainText : String :=
  "\x7b\"workflow\":\x7b\"name\":\"w\",\"tasks\":[\x7b\"id\":\"a\",\"skill\":\"s\"\x7d," ++
  "\x7b\"id\":\"b\",\"skill\":\"s\",\"depends_on\":[\"a\"]," ++
  "\"inputs\":\x7b\"x\":\"$\x7ba.output\x7d\"\x7d\x7d]\x7d\x7d"

/-- The document of `chainText`: two tasks, the second of which takes the output of the first as an
input. -/
def chainDocument : Json :=
  .obj [("workflow", .obj [("name", .str "w"), ("tasks", .arr [
    .obj [("id", .str "a"), ("skill", .str "s")],
    .obj [("id", .str "b"), ("skill", .str "s"), ("depends_on", .arr [.str "a"]),
      ("inputs", .obj [("x", .str "$\x7ba.output\x7d")])]])])]

/-- `encoding/json` on the texts and values of the sample run, where it does what its documentation
says. -/
def sampleLib : GoLib :=
  { plainLib with
    marshal := fun
      | .obj [("x", .num n)] => "\x7b\"x\":" ++ toString n.value.num ++ "\x7d"
      | _ => "\x7b\x7d"
    unmarshal := fun text =>
      if text = chainText then some chainDocument
      else if text = "7" then some (.num 7)
      else if text = "9007199254740993" then some (.num 9007199254740992)
      else none }

/-- The start of the sample run. -/
def chainLaunch : Launch Unit := { launchOf chainDocument with lib := sampleLib }

/-- The start message of the sample run. -/
def chainStart : InMsg := { type := "start_run", specJSON := chainText, inputsJSON := "" }

/-- The sample run, as the process builds it from its start message. -/
def chainEnv : Env Unit :=
  match chainLaunch.accept chainStart with
  | .accepted env => env
  | _ => plainEnv (plainWorkflow [])

/-- The sample run is accepted. -/
theorem chain_accepted : chainLaunch.accept chainStart = .accepted chainEnv := by
  obtain ⟨env, henv, -⟩ := exists_of_accepts
    (show accepts chainLaunch chainStart (fun _ => true) = true by decide +kernel)
  rw [chainEnv, henv]

/-- `a` returns a text, and `b` calls `Execute`. -/
def chainRun (text : String) : List Action :=
  [.main, .main, .main] ++ wholeTask 0 { outputJSON := text } ++
    [.main, .main, .main, .task 1 .resolve, .task 1 .takeSlot, .task 1 .acquire, .task 1 .call]

/-- The resolved inputs of a task of the sample run. They are empty or hold one of two numbers, and
for these the laws are checked. -/
def isSampleInputs : Except String Json → Bool
  | .ok (.obj []) => true
  | .ok (.obj [("x", .num n)]) => n = 7 || n = 9007199254740992
  | _ => false

/-- The library of the sample run prints the resolved inputs of its tasks as documented. -/
theorem prints_of_isSampleInputs {r : Except String Json} (h : isSampleInputs r = true) {v : Json}
    (hv : r = .ok v) : sampleText.Prints sampleLib v := by
  subst hv
  unfold isSampleInputs at h
  split at h
  · rename_i heq
    cases heq
    rfl
  · rename_i n heq
    cases heq
    -- Two numbers only reach this text in the sample runs.
    rw [Bool.or_eq_true, decide_eq_true_iff, decide_eq_true_iff] at h
    rcases h with rfl | rfl
    · have hp : sampleText.value (sampleLib.marshal (.obj [("x", .num 7)]))
          = some (.obj [("x", .num 7)]) := by rfl
      exact hp
    · have hp : sampleText.value (sampleLib.marshal (.obj [("x", .num 9007199254740992)]))
          = some (.obj [("x", .num 9007199254740992)]) := by rfl
      exact hp
  · cases h

/-- It reads the first number of the sample as documented. -/
theorem reads_seven : sampleText.Reads sampleLib "7" := by
  intro v hv _
  obtain rfl : v = .num 7 := (Option.some.inj hv).symm
  rfl

/-- It reads the second number as documented. -/
theorem reads_large : sampleText.Reads sampleLib "9007199254740993" := by
  intro v hv _
  obtain rfl : v = .num 9007199254740993 := (Option.some.inj hv).symm
  rfl

/-- The state at the end of the sample run: both tasks were called, and the call of the second
carries the number that the first one returned. -/
def chainTest (text json : String) (s : State Unit) : Bool :=
  s.gos.all (fun g => isSampleInputs (resolvedInputs chainEnv g)) &&
    s.gos.all (fun g => g.returned.all (fun r => r.outputJSON = text)) &&
    s.gos.map (fun g => g.task.id) = ["a", "b"] &&
    s.gos.all (fun g => g.task.id = "a" ||
      (g.task.inputs.get? "x").any (Sdk.isStr "$\x7ba.output\x7d")) &&
    s.calls.any (fun c => c.inv.taskID = "b" && c.inv.inputsJSON = json)

/-- What the test says. -/
theorem chain_state {text json : String} (hreads : sampleText.Reads sampleLib text)
    (hrun : (chainEnv.system.run? (chainRun text)).any (chainTest text json) = true) :
    ∃ s, chainEnv.system.Reachable s ∧ Documented sampleText chainEnv s ∧
      ∃ c ∈ s.calls, ∃ g ∈ s.gos, ∃ u ∈ s.gos, g.task.id = c.inv.taskID ∧
        c.inv.taskID = "b" ∧ c.inv.inputsJSON = json ∧ u.task.id = "a" ∧
        Relation.TransGen (fun d t => d ∈ chainEnv.wf.deps t) u.task.id g.task.id ∧
        (∃ res, u.returned.getLast? = some res ∧ res.outputJSON = text) ∧
        ∃ template, g.task.inputs.get? "x" = some (.str template) ∧
          RefersTo template [u.task.id, "output"] := by
  obtain ⟨s, hs, htest⟩ := System.exists_of_run hrun
  simp only [chainTest, Bool.and_eq_true, decide_eq_true_eq] at htest
  obtain ⟨⟨⟨⟨hinputs, htexts⟩, hids⟩, hfield⟩, hcall⟩ := htest
  have hlib : chainEnv.lib = sampleLib := (accept_inputs chain_accepted).1
  -- What the two runs print and read is covered by the sample library.
  have hdoc : Documented sampleText chainEnv s := by
    constructor
    · intro g hg v hv
      rw [hlib]
      exact prints_of_isSampleInputs (List.all_eq_true.mp hinputs g hg) hv
    · intro g hg res hres
      have := List.all_eq_true.mp (List.all_eq_true.mp htexts g hg) res hres
      rw [hlib, of_decide_eq_true this]
      exact hreads
  obtain ⟨c, hc, hcall⟩ := List.any_eq_true.mp hcall
  rw [Bool.and_eq_true, decide_eq_true_iff, decide_eq_true_iff] at hcall
  have hmem : ∀ id ∈ ["a", "b"], ∃ g ∈ s.gos, g.task.id = id := fun id hid =>
    List.mem_map.mp (hids ▸ hid)
  -- `a` produces the value, and `b` refers to it and depends on `a`.
  obtain ⟨u, hu, hua⟩ := hmem "a" (by simp)
  obtain ⟨g, hg, hgb⟩ := hmem "b" (by simp)
  have hx := List.all_eq_true.mp hfield g hg
  rw [hgb, Bool.or_eq_true] at hx
  obtain ⟨v, hv, hstr⟩ := (Option.any_eq_true _ _).mp (hx.resolve_left (by decide))
  have hdep : Relation.TransGen (fun d t => d ∈ chainEnv.wf.deps t) u.task.id g.task.id := by
    rw [hua, hgb]
    exact .single (show "a" ∈ chainEnv.wf.deps "b" by decide +kernel)
  obtain ⟨res, hres, -⟩ := snapshot_decoded
    (accepted_of_validate (accept_validated chain_accepted)) hs hg hu hdep
  refine ⟨s, hs, hdoc, c, hc, g, hg, u, hu, hgb.trans hcall.1.symm, hcall.1, hcall.2, hua, hdep,
    ⟨res, hres, ?_⟩, "$\x7ba.output\x7d", ?_, ?_⟩
  · exact of_decide_eq_true (List.all_eq_true.mp (List.all_eq_true.mp htexts u hu) res
      (List.mem_of_getLast? hres))
  · rw [hv]
    cases v with
    | str t => exact congrArg _ (congrArg _ (of_decide_eq_true hstr))
    | _ => cases hstr
  · have hchars : "$\x7ba.output\x7d"
        = String.ofList ('$' :: '{' :: ("a".toList ++ ".output\x7d".toList)) := by rfl
    rw [hua, hchars]
    exact refersTo_output (by rfl)

/-- The number 7 comes through. -/
theorem values_pass_iff_seven :
    ∃ (s : State Unit), ∃ c ∈ s.calls, chainEnv.system.Reachable s ∧ c.inv.taskID = "b" ∧
      sampleText.FieldIs c.inv.inputsJSON "x" (.num 7) := by
  obtain ⟨s, hs, hdoc, c, hc, g, hg, u, hu, hid, hb, -, -, hdep, ⟨res, hres, htext⟩, template,
    hfield, href⟩ :=
    @chain_state "7" "\x7b\"x\":7\x7d" reads_seven (by decide +kernel)
  have hpass := (values_pass_iff sampleText chainLaunch chainStart chainEnv chain_accepted
    (fun v hv => by cases hv) hs hdoc).1
  obtain ⟨last, hlast, hiff⟩ := hpass c hc g hg hid u hu hdep
  obtain rfl : res = last := Option.some.inj (hres.symm.trans hlast)
  refine ⟨s, c, hc, hs, hb, (hiff (.num 7) ?_ trivial "x" template hfield href).mpr
    fun q hq => ?_⟩
  · rw [htext]
    rfl
  · rw [List.mem_singleton.mp hq]
    rfl

/-- The number 9007199254740993, which the task `a` returns, reaches the task `b`, whose field is
exactly the output of `a`, as 9007199254740992. -/
theorem value_changed :
    ∃ s, chainEnv.system.Reachable s ∧ Documented sampleText chainEnv s ∧
      (∃ u ∈ s.gos, u.task.id = "a" ∧ ∃ res, u.returned.getLast? = some res ∧
        sampleText.value res.outputJSON = some (.num 9007199254740993)) ∧
      ∃ c ∈ s.calls, c.inv.taskID = "b" ∧
        sampleText.FieldIs c.inv.inputsJSON "x" (.num 9007199254740992) ∧
        ¬ sampleText.FieldIs c.inv.inputsJSON "x" (.num 9007199254740993) := by
  obtain ⟨s, hs, hdoc, c, hc, g, hg, u, hu, hid, hb, hjson, hua, hdep, ⟨res, hres, htext⟩, -⟩ :=
    @chain_state "9007199254740993" "\x7b\"x\":9007199254740992\x7d" reads_large
      (by decide +kernel)
  have hvalue : sampleText.value c.inv.inputsJSON
      = some (.obj [("x", .num 9007199254740992)]) := by
    rw [hjson]
    rfl
  refine ⟨s, hs, hdoc, ⟨u, hu, hua, res, hres, by rw [htext]; rfl⟩, c, hc, hb,
    ⟨_, _, hvalue, rfl, rfl⟩, fun hfield => ?_⟩
  obtain ⟨members, w, hmembers, hw, hsame⟩ := hfield
  rw [hvalue] at hmembers
  cases hmembers
  cases hw
  -- The number that `b` gets differs from the one `a` wrote by one.
  have hnum : Json.num 9007199254740992 = Json.num 9007199254740993 := hsame
  rw [Json.num.injEq] at hnum
  exact absurd hnum (by decide)

end Orchestrator.Proofs
