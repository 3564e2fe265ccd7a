import Orchestrator.Lib.Verdict
import Orchestrator.Proofs.TemplatesAgree

/-!
# `Orchestrator.Proofs.Outcomes`: the outcomes of the attempts, and references that cannot fail

`Outcomes` fixes what every attempt of every task comes to. Whether an attempt is made at all
depends on the resolution of the inputs of its task. `PathLeads` describes the references that
cannot fail: to a run input that is there, or to the whole output of a transitive dependency. With
such references alone a template resolves in both engines, whatever the outputs are (`resolve_ok`,
`resolveTemplate_ok`).

The second part reads a finished run as entries of the plan. Both engines record a span for every
task, one when a task has run and another when it was skipped, and `SpansSettled` says what the two
kinds look like at the end. It is stated over an arbitrary type of spans, so that `RunVerdict` and
`RunnerVerdict` use the same lemmas; `right` is the step from settled spans to a report that follows
the plan.
-/

set_option autoImplicit false

namespace Orchestrator.Proofs

open Orchestrator.Lib
open Orchestrator.Engine (GoLib Status splitPath trimSpace)
open Orchestrator.Sdk (PyLib strip)

/-- What the `k`-th attempt of a task comes to: its output, or a failure. -/
abbrev Outcomes := String → Int → Option Json

/-- The attempt succeeds. -/
def attemptOk (outcome : Outcomes) (id : String) (k : Int) : Bool := (outcome id k).isSome

/-- The outcomes of tasks whose output is null. -/
def nullOutcomes (ok : String → Int → Bool) : Outcomes :=
  fun id k => if ok id k then some .null else none

/-- How a task ends, by the status of its span. The fates are those of the abstract scheduler, which
both engines are compared with. -/
def fateOf : Status → Fate
  | .succeeded => .succeeded
  | .failed => .failed
  | .skipped => .skipped

/-- Only a succeeded span is read as a success. -/
theorem fateOf_succeeded {st : Status} : fateOf st = .succeeded ↔ st = .succeeded := by
  cases st <;> simp [fateOf]

/-- Only a failed span is read as a failure. -/
theorem fateOf_failed {st : Status} : fateOf st = .failed ↔ st = .failed := by
  cases st <;> simp [fateOf]

/-- Only a skipped span is read as a skip. -/
theorem fateOf_skipped {st : Status} : fateOf st = .skipped ↔ st = .skipped := by
  cases st <;> simp [fateOf]

/-- The path leads to a run input that is there, or to the whole output of a transitive
dependency. -/
def PathLeads (inputs : Dict String Json) (deps : String → List String) (id : String)
    (path : List Char) : Prop :=
  (∃ parts, splitPath path = "input" :: parts ∧ followFrom (.obj inputs.entries) parts ≠ none) ∨
    ∃ d, splitPath path = [d, "output"] ∧ Relation.TransGen (fun d t => d ∈ deps t) d id

/-- The paths of the segments of a string, by trimming its references. -/
theorem segmentPaths_eq (trim : List Char → List Char) (segs : List Engine.Segment) :
    segmentPaths trim segs = (segs.map (trimRef trim)).filterMap refPath := by
  induction segs with
  | nil => rfl
  | cons seg segs ih =>
      cases seg with
      | lit c => exact ih
      | ref inner => exact congrArg (trim inner :: ·) ih

/-- The paths that are looked up for a string are those of its reading. -/
theorem stringPaths_eq (trim : List Char → List Char) (s : String) :
    stringPaths trim s = (readString trim s).paths := by
  by_cases hwhole : ∃ inner, Engine.scan (trim s.toList) = [.ref inner]
  · obtain ⟨inner, hwhole⟩ := hwhole
    rw [stringPaths, readString, hwhole]
    rfl
  · have hparts := not_exists.mp hwhole
    rw [stringPaths_parts trim hparts, readString_parts hparts, segmentPaths_eq]
    rfl

/-- A template resolves in the engine when its references lead somewhere. -/
theorem resolve_ok (lib : GoLib) {scope v : Json}
    (h : ∀ path ∈ paths trimSpace v, follow scope path ≠ none) :
    ∃ r, Engine.resolve lib scope v = .ok r := by
  have hsome : (Engine.resolve lib scope v).toOption ≠ none := by
    rw [resolve_eq_traverse, Json.toOption_traverseStr, Ne, Json.traverseStr_eq_none]
    rintro ⟨s, hs, hnone⟩
    rw [resolveString_eq_fill, fill_eq_none, ← stringPaths_eq] at hnone
    obtain ⟨path, hpath, hlost⟩ := hnone
    exact h path (List.mem_flatMap.mpr ⟨s, hs, hpath⟩) hlost
  cases hr : Engine.resolve lib scope v with
  | ok r => exact ⟨r, rfl⟩
  | error e => exact absurd (by rw [hr]; rfl) hsome

/-- A template resolves in the runner when its references lead somewhere. -/
theorem resolveTemplate_ok (lib : PyLib) {scope v : Json}
    (h : ∀ path ∈ paths strip v, follow scope path ≠ none) :
    ∃ r, Sdk.resolveTemplate lib scope v = .ok r := by
  have hsome : (Sdk.resolveTemplate lib scope v).toOption ≠ none := by
    rw [resolveTemplate_eq_traverse, Json.toOption_traverseStr, Ne, Json.traverseStr_eq_none]
    rintro ⟨s, hs, hnone⟩
    rw [sdk_resolveString_eq_fill, fill_eq_none, ← stringPaths_eq] at hnone
    obtain ⟨path, hpath, hlost⟩ := hnone
    exact h path (List.mem_flatMap.mpr ⟨s, hs, hpath⟩) hlost
  cases hr : Sdk.resolveTemplate lib scope v with
  | ok r => exact ⟨r, rfl⟩
  | error e => exact absurd (by rw [hr]; rfl) hsome

/-- In a scope with the run inputs and the results of all transitive dependencies, such a path leads
somewhere. Both engines build their scope so. -/
theorem PathLeads.follow {inputs results scope : Dict String Json} {deps : String → List String}
    {id : String} {path : List Char} (h : PathLeads inputs deps id path)
    (hscope : ∀ name, scope.get? name = ((results.get? name).map fun out =>
      Json.obj [("output", out)]).or (if name = "input" then some (.obj inputs.entries) else none))
    (hfree : results.get? "input" = none)
    (hdeps : ∀ d, Relation.TransGen (fun d t => d ∈ deps t) d id → ∃ v, results.get? d = some v) :
    Proofs.follow (.obj scope.entries) path ≠ none := by
  have hstep : ∀ (name : String) (parts : List String),
      followFrom (.obj scope.entries) (name :: parts)
        = (scope.get? name).bind fun v => followFrom v parts := fun _ _ => rfl
  rcases h with ⟨parts, hsplit, hlead⟩ | ⟨d, hsplit, hdep⟩
  · rw [Proofs.follow, hsplit, hstep, hscope, hfree]
    exact hlead
  · obtain ⟨v, hv⟩ := hdeps d hdep
    rw [Proofs.follow, hsplit, hstep, hscope, hv]
    simp [followFrom, Dict.find]

/-! ### The recorded spans -/

section

variable {σ : Type} (read : σ → Entry String) (spans : Dict String σ)

/-- What the recorded spans say about a task. -/
def entryAt (id : String) : Entry String := ((spans.get? id).map read).getD ⟨id, .skipped, 0⟩

/-- The spans at the end of a run: every task has one, those of the started tasks are settled, and
the others are placeholders. -/
structure SpansSettled (P : Plan String) (started : List String) : Prop where
  nodup : P.nodes.Nodup ∧ started.Nodup
  key : ∀ id sp, spans.get? id = some sp → (read sp).node = id
  mem : ∀ id sp, spans.get? id = some sp → id ∈ P.nodes
  total : ∀ id ∈ P.nodes, spans.get? id ≠ none
  settled : ∀ id ∈ started, ∃ sp, spans.get? id = some sp ∧ (read sp).fate ≠ .skipped ∧
    Lib.Settled (P.ok id) (P.limit id) (read sp).attempts ((read sp).fate = .succeeded)
  origin : ∀ id sp, spans.get? id = some sp → id ∈ started ∨ read sp = ⟨id, .skipped, 0⟩

variable {read spans}

/-- The entry of a recorded span. -/
theorem entryAt_of_span {id : String} {sp : σ} (hsp : spans.get? id = some sp) :
    entryAt read spans id = read sp := by
  rw [entryAt, hsp]
  rfl

namespace SpansSettled

variable {P : Plan String} {started : List String} (h : SpansSettled read spans P started)
include h

/-- The entry at an id is the one of that task. -/
theorem node (id : String) : (entryAt read spans id).node = id := by
  cases hsp : spans.get? id with
  | none =>
      rw [entryAt, hsp]
      rfl
  | some sp =>
      rw [entryAt_of_span hsp]
      exact h.key id sp hsp

/-- A task that has not started is skipped. -/
theorem skipped {id : String} (hid : id ∉ started) :
    entryAt read spans id = ⟨id, .skipped, 0⟩ := by
  cases hsp : spans.get? id with
  | none =>
      rw [entryAt, hsp]
      rfl
  | some sp =>
      rw [entryAt_of_span hsp]
      exact (h.origin id sp hsp).resolve_left hid

/-- The started tasks are those that are not skipped. -/
theorem mem_started (id : String) :
    id ∈ started ↔ id ∈ P.nodes ∧ (entryAt read spans id).fate ≠ .skipped := by
  constructor
  · intro hid
    obtain ⟨sp, hsp, hnot, -⟩ := h.settled id hid
    exact ⟨h.mem id sp hsp, by rwa [entryAt_of_span hsp]⟩
  · rintro ⟨-, hnot⟩
    by_contra hid
    rw [h.skipped hid] at hnot
    exact hnot rfl

/-- The entries of the spans in the order of the tasks. -/
theorem map_read : (P.nodes.filterMap spans.get?).map read = P.nodes.map (entryAt read spans) := by
  have key : ∀ ids : List String, (∀ id ∈ ids, id ∈ P.nodes) →
      (ids.filterMap spans.get?).map read = ids.map (entryAt read spans) := by
    intro ids hids
    induction ids with
    | nil => rfl
    | cons id ids ih =>
        obtain ⟨sp, hsp⟩ := Option.ne_none_iff_exists'.mp (h.total id (hids id List.mem_cons_self))
        rw [List.filterMap_cons, hsp, List.map_cons, List.map_cons,
          ih fun x hx => hids x (List.mem_cons_of_mem _ hx), entryAt_of_span hsp]
  exact key P.nodes fun _ => id

/-- Some span has failed exactly when some entry says so. -/
theorem any_failed_iff :
    (P.nodes.map (entryAt read spans)).any (fun e => e.fate = .failed) = true ↔
      ∃ id sp, spans.get? id = some sp ∧ (read sp).fate = .failed := by
  rw [List.any_eq_true]
  constructor
  · rintro ⟨e, he, hfail⟩
    obtain ⟨id, hid, rfl⟩ := List.mem_map.mp he
    obtain ⟨sp, hsp⟩ := Option.ne_none_iff_exists'.mp (h.total id hid)
    rw [entryAt_of_span hsp, decide_eq_true_iff] at hfail
    exact ⟨id, sp, hsp, hfail⟩
  · rintro ⟨id, sp, hsp, hfail⟩
    refine ⟨_, List.mem_map_of_mem (h.mem id sp hsp), ?_⟩
    rw [entryAt_of_span hsp, decide_eq_true_iff]
    exact hfail

/-- A report that repeats the spans, counts the retries of the started tasks and has failed when a
span has is the one that the plan asks for. -/
theorem right {good : Status → Bool} {skip : Status} {L : Ledger String Status}
    (hbooks : Ledger.Inv P.nodes P.deps good skip L) (hstarted : L.started = started)
    (hready : L.ready = []) (hdeps : ∀ t ∈ P.nodes, ∀ d ∈ P.deps t, d ∈ P.nodes)
    (hacc : ∀ t ∈ P.nodes, Acc (fun d t => d ∈ P.deps t) t)
    (hgood : ∀ id, L.isGood good id = true ↔
      ∃ sp, spans.get? id = some sp ∧ (read sp).fate = .succeeded)
    {v : Verdict String} (hentries : v.entries = (P.nodes.filterMap spans.get?).map read)
    (hretries : v.retries = (started.map fun id => (entryAt read spans id).attempts - 1).sum)
    (hfate : ((∃ id sp, spans.get? id = some sp ∧ (read sp).fate = .failed) ∧ v.fate = .failed) ∨
      ((¬ ∃ id sp, spans.get? id = some sp ∧ (read sp).fate = .failed) ∧ v.fate = .succeeded)) :
    v.Right P := by
  rw [h.map_read] at hentries
  subst hstarted
  refine Verdict.right_of_report h.nodup.1 h.node (fun id hid => ?_) hentries h.nodup.2
    h.mem_started hretries ?_
  · -- The books say that what was left out depends on a failure; the spans say what the rest came
    -- to.
    refine hbooks.entry_right hdeps hacc hready _ h.node (fun t ht => ?_) (fun t ht => ?_)
      (fun t _ ht => ?_) hid
    · obtain ⟨sp, hsp, hrest⟩ := h.settled t ht
      rwa [entryAt_of_span hsp]
    · obtain ⟨sp, hsp, -⟩ := h.settled t ht
      rw [hgood, entryAt_of_span hsp, hsp]
      simp
    · rw [h.skipped ht]
      exact ⟨rfl, rfl⟩
  · -- The run has failed exactly if one of its entries has.
    rw [hentries]
    rcases hfate with ⟨hfail, hv⟩ | ⟨hno, hv⟩
    · rw [hv, if_pos (h.any_failed_iff.mpr hfail)]
    · rw [hv, if_neg fun hany => hno (h.any_failed_iff.mp hany)]

end SpansSettled

end

end Orchestrator.Proofs
