import Orchestrator.Proofs.SchemaValues

/-!
# `Orchestrator.Proofs.NilPointers`: the pointers that `Parse` dereferences

`encoding/json` decodes a null into a nil pointer wherever the document has a pointer: at a task, a
provider, a retry object, a rate limit, `concurrency`, `defaults` and a timeout. `Parse` tests all
of them but the first two. It writes the name of every provider, and `Validate` reads the id of
every task until it meets one twice, so a null there is a panic.

`parse_nilSafe_iff` says for which byte strings this does not happen, and that a null at any other
place of the document is harmless. The elements of a repeated `tasks` array are decoded into those
that are there already, so what counts is the decoded document, not the last array.

A decoded document is guarded when `Parse` stops before the first nil pointer or there is none
(`Guarded`). That the loop over the tasks may stop early, at a repeated id, is the only subtle
point: behind the second task with an id a null does no harm (`derefTasks_nilPointer_iff`).

The second half goes from the text to the decoded document. A text without null in the place of a
task or a provider (`EntriesGiven`) is decoded without nil there, because the decoder makes a nil
pointer of nothing but null (`decodePtr_ne_none`).
-/

set_option autoImplicit false

namespace Orchestrator.Proofs

open Orchestrator.Lib Orchestrator.Engine

/-- `Parse` returns an error, or a workflow whose task and provider pointers are not nil. -/
structure NilSafe (decoded : Option RawWorkflow) (outcome : Except ParseFailure Workflow) :
    Prop where
  returns : outcome ≠ .error .nilPointer
  nonNil : ∀ wf, outcome = .ok wf → ∃ rw, decoded = some rw ∧ rw.tasks = wf.tasks.map some ∧
    ∀ e ∈ rw.providers.entries, e.2 ≠ none

/-- A decoded document in which `Parse` meets no nil pointer: it stops before the first one, or
there is none. -/
inductive Guarded (rw : RawWorkflow) : Prop
  | name (h : rw.name = "")
  | noTasks (h : rw.tasks = [])
  | duplicate (hproviders : ∀ e ∈ rw.providers.entries, e.2 ≠ none) (pre : List Task) (t : Task)
      (post : List (Option Task)) (h : rw.tasks = pre.map some ++ some t :: post)
      (hid : t.id ∈ pre.map (·.id))
  | nonNil (hproviders : ∀ e ∈ rw.providers.entries, e.2 ≠ none) (htasks : none ∉ rw.tasks)

/-! ### `Parse` -/

section Parse

variable {iter : MapOrder} {rw : RawWorkflow}

/-- A list without nil is a list of tasks. -/
theorem exists_tasks {ts : List (Option Task)} (h : none ∉ ts) :
    ∃ l : List Task, ts = l.map some := by
  induction ts with
  | nil => exact ⟨[], rfl⟩
  | cons o ts ih =>
      obtain ⟨l, rfl⟩ := ih fun hmem => h (List.mem_cons_of_mem o hmem)
      cases o with
      | none => exact absurd List.mem_cons_self h
      | some t => exact ⟨t :: l, rfl⟩

/-- The loop over the task pointers comes to a nil one unless there is none or an id occurs again
before it. -/
theorem derefTasks_nilPointer_iff {ts : List (Option Task)} :
    derefTasks ts [] = .error .nilPointer ↔
      none ∈ ts ∧ ¬ ∃ (pre : List Task) (t : Task) (post : List (Option Task)),
        ts = pre.map some ++ some t :: post ∧ t.id ∈ pre.map (·.id) := by
  have hdup : (∃ e, derefTasks ts [] = .error (.error e)) ↔
      ∃ (pre : List Task) (t : Task) (post : List (Option Task)),
        ts = pre.map some ++ some t :: post ∧ t.id ∈ pre.map (·.id) := by
    rw [derefTasks_error_iff]
    simp
  -- The loop has three results. It reports a duplicate id if it meets one before the nil entry.
  rw [← hdup]
  cases hderef : derefTasks ts [] with
  | ok l =>
      refine iff_of_false (by simp) fun h => ?_
      rw [derefTasks_ok hderef] at h
      simp at h
  | error f =>
      cases f with
      | error e => exact iff_of_false (by simp) fun h => h.2 ⟨e, rfl⟩
      | nilPointer =>
          refine iff_of_true rfl ⟨?_, by simp⟩
          by_contra hnone
          obtain ⟨l, rfl⟩ := exists_tasks hnone
          exact derefTasks_of_some hderef

/-- Where `Parse` dereferences a nil pointer: at a provider or a task that is nil, unless an error
comes before. -/
theorem parse_nilPointer_iff : parse iter rw = .error .nilPointer ↔ ¬ Guarded rw := by
  by_cases hname : rw.name = ""
  · exact iff_of_false (by simp [parse, hname, bind, Except.bind]) (not_not.mpr (.name hname))
  by_cases htasks : rw.tasks = []
  · exact iff_of_false (by simp [parse, hname, htasks, bind, Except.bind])
      (not_not.mpr (.noTasks htasks))
  rcases @parse_stages iter rw hname htasks with ⟨f, hproviders, hparse⟩ |
    ⟨ps, f, hproviders, hderef, hparse⟩ | ⟨ps, ts, hproviders, hderef, -⟩
  · -- The loop over the providers stops at a nil one.
    have hnil : ¬ ∀ e ∈ rw.providers.entries, e.2 ≠ none := by
      intro h
      obtain ⟨ps, hps⟩ := nameProviders_ok_iff.mpr h
      rw [hproviders] at hps
      cases hps
    rw [nameProviders_error hproviders] at hparse
    refine iff_of_true hparse ?_
    rintro (h | h | ⟨h, -⟩ | ⟨h, -⟩)
    · exact hname h
    · exact htasks h
    · exact hnil h
    · exact hnil h
  · -- The loop over the tasks stops, at a nil one or at an id.
    have hnil := nameProviders_ok_iff.mp ⟨ps, hproviders⟩
    have hiff : parse iter rw = .error .nilPointer ↔
      derefTasks rw.tasks [] = .error .nilPointer := by
      rw [hparse, hderef]
      simp
    rw [hiff, derefTasks_nilPointer_iff]
    constructor
    · rintro ⟨hnone, hdup⟩ (h | h | ⟨-, pre, t, post, h, hid⟩ | ⟨-, h⟩)
      · exact hname h
      · exact htasks h
      · exact hdup ⟨pre, t, post, h, hid⟩
      · exact h hnone
    · intro h
      refine ⟨?_, ?_⟩
      · by_contra hnone
        exact h (.nonNil hnil hnone)
      · rintro ⟨pre, t, post, hts, hid⟩
        exact h (.duplicate hnil pre t post hts hid)
  · -- Both loops end, so there is no nil pointer.
    have hnil := nameProviders_ok_iff.mp ⟨ps, hproviders⟩
    refine iff_of_false (parse_ne_nilPointer hproviders hderef) (not_not.mpr (.nonNil hnil ?_))
    rw [derefTasks_ok hderef]
    simp

/-- The pointers behind a workflow that `Parse` returns. -/
theorem parse_nonNil {wf : Workflow} (h : parse iter rw = .ok wf) :
    rw.tasks = wf.tasks.map some ∧ ∀ e ∈ rw.providers.entries, e.2 ≠ none := by
  obtain ⟨-, -, hproviders, -, -, -, htasks⟩ := parse_fields h
  exact ⟨htasks, nameProviders_ok_iff.mp ⟨_, hproviders⟩⟩

/-- The same from the document on: `Unmarshal` itself never dereferences nil. -/
theorem parseDocument_nilPointer_iff {msg : String} {doc : Json} :
    parseDocument iter msg doc = .error .nilPointer ↔
      ∃ rw, decodeDocument doc = some rw ∧ ¬ Guarded rw := by
  unfold parseDocument
  cases hdec : decodeDocument doc with
  | none => simp
  | some rw => simp [parse_nilPointer_iff]

end Parse

/-! ### Nulls elsewhere -/

/-- The document has no null in the place of a task or a provider. -/
def EntriesGiven (doc : Json) : Prop :=
  ∀ ms, doc = .obj ms → ∀ ws, .obj ws ∈ goReader.values ["workflow"] "workflow" ms →
    (∀ items, .arr items ∈ goReader.values workflowFields "tasks" ws → .null ∉ items) ∧
    ∀ ps, .obj ps ∈ goReader.values workflowFields "providers" ws → ∀ e ∈ ps, e.2 ≠ .null

/-- No task and no provider of a document that is being decoded is nil. -/
structure NoNil (rw : RawBuffer) : Prop where
  tasks : none ∉ rw.tasks.items
  providers : ∀ name, rw.providers.get? name ≠ some none

/-- Only null is decoded into a nil pointer. -/
theorem decodePtr_ne_none {α : Type} {dec : Json → α → Option α} {zero : α} {v : Json}
    {cur new : Option α} (hne : v ≠ .null) (h : decodePtr dec zero v cur = some new) :
    new ≠ none := by
  rw [decodePtr_of_ne_null dec zero hne] at h
  obtain ⟨x, -, rfl⟩ := Option.map_eq_some_iff.mp h
  exact Option.some_ne_none x

section Elements

variable {α : Type} {dec : Json → α → Option α} {zero : α} {v : Json}

/-- A slice of pointers. -/
theorem decodeSlice_noNil (hv : ∀ items, v = .arr items → .null ∉ items)
    {s s' : Slice (Option α)} (h : decodeSlice (decodePtr dec zero) none v s = some s') :
    none ∉ s'.items := by
  intro hnone
  obtain ⟨items, rfl, item, hitem, cur, -, hdec⟩ := (mem_decodeSlice h).1 none hnone
  exact decodePtr_ne_none (fun hnull => hv items rfl (hnull ▸ hitem)) hdec rfl

/-- A map of pointers none of which is nil, from members that are not null. -/
theorem decodeMap_noNil (hv : ∀ ps, v = .obj ps → ∀ e ∈ ps, e.2 ≠ .null)
    {d d' : Dict String (Option α)} (hd : ∀ name, d.get? name ≠ some none)
    (h : decodeMap (fun v => decodePtr dec zero v none) v d = some d') :
    ∀ name, d'.get? name ≠ some none := by
  cases v with
  | null =>
      cases h
      intro name hname
      cases hname
  | obj ps =>
      refine foldlM_some_keeps (P := fun d : Dict String (Option α) =>
        ∀ name, d.get? name ≠ some none) h hd fun e he d d' hd hstep name hname => ?_
      obtain ⟨o, ho, rfl⟩ := Option.map_eq_some_iff.mp hstep
      -- The entry that is stored comes from a member that is not null; the others are there
      -- already.
      by_cases heq : name = e.1
      · subst heq
        rw [Dict.get?_set_self] at hname
        exact decodePtr_ne_none (hv ps rfl e he) ho (Option.some.inj hname)
      · rw [Dict.get?_set_ne d o heq] at hname
        exact hd name hname
  | _ => cases h

end Elements

/-- A document without null in these places is decoded without nil there, whatever else in it is
null. -/
theorem decodeDocument_noNil {doc : Json} (hdoc : EntriesGiven doc) {rw : RawWorkflow}
    (h : decodeDocument doc = some rw) : ∃ buffer, rw = buffer.raw ∧ NoNil buffer := by
  obtain ⟨buffer, hbuffer, rfl⟩ := Option.map_eq_some_iff.mp h
  refine ⟨buffer, rfl, ?_⟩
  have hzero : NoNil zeroWorkflow := ⟨List.not_mem_nil, fun name hname => by cases hname⟩
  rcases decodeStruct_cases hbuffer with ⟨-, rfl⟩ | ⟨ms, rfl⟩
  · exact hzero
  have hworkflow :=
    @decodeStruct_field _ _ _ _ _ _ _ hbuffer "workflow" id decodeWorkflow (fun _ x => x)
    (fun v s => by simp) (fun _ _ => rfl) (by simp)
  -- The document may name its workflow again and again, each time over what is there.
  refine fold_keeps hworkflow hzero fun v hv rw rw' hrw hdec => ?_
  rcases decodeStruct_cases hdec with ⟨-, rfl⟩ | ⟨ws, rfl⟩
  · exact hrw
  obtain ⟨htasks, hproviders⟩ := hdoc ms rfl ws hv
  have hslice := decodeStruct_field hdec "tasks" (·.tasks)
    (decodeSlice (decodePtr decodeTask zeroTask) none) (fun _ _ => rfl)
    (fun _ _ => rfl) (by simp [workflowFields, setWorkflow, Option.map_eq_some_iff])
  have hmap := decodeStruct_field hdec "providers" (·.providers)
    (decodeMap fun v => decodePtr decodeProvider { name := "", rateLimit := none } v none)
    (fun _ _ => rfl) (fun _ _ => rfl)
    (by simp [workflowFields, setWorkflow, Option.map_eq_some_iff])
  refine ⟨?_, ?_⟩
  · exact fold_keeps (Q := fun ts : Slice (Option RawTask) => none ∉ ts.items) hslice hrw.tasks
      fun v hv _ _ _ => decodeSlice_noNil fun items hitems => htasks items (hitems ▸ hv)
  · exact fold_keeps (Q := fun d : Dict String (Option Provider) =>
      ∀ name, d.get? name ≠ some none) hmap hrw.providers
      fun v hv _ _ => decodeMap_noNil fun ps hps => hproviders ps (hps ▸ hv)

/-- A null in any other place of a document does no harm. -/
theorem guarded_of_entriesGiven {doc : Json} (hdoc : EntriesGiven doc) {rw : RawWorkflow}
    (h : decodeDocument doc = some rw) : Guarded rw := by
  obtain ⟨buffer, rfl, hraw⟩ := decodeDocument_noNil hdoc h
  refine .nonNil (fun e he hnone => ?_) fun hnone => ?_
  · exact hraw.providers e.1 ((buffer.providers.mem_entries e.1 none).mp (hnone ▸ he))
  · obtain ⟨o, ho, hnil⟩ := List.mem_map.mp hnone
    rw [Option.map_eq_none_iff] at hnil
    exact hraw.tasks (hnil ▸ ho)

/-! ### Byte strings -/

/-- `Parse` is safe for exactly the byte strings that are no document or a guarded one. A document
without null in the place of a task or a provider is guarded, wherever else it has a null.

Guarded are the documents in which `Parse` stops before it follows a nil pointer, and those that
have none. The order of its checks decides which: the providers are named first, and a duplicate id
is found before a nil task behind it. -/
theorem parse_nilSafe_iff (iter : MapOrder) (read : List UInt8 → Option Json)
    (msg : List UInt8 → String) (data : List UInt8) :
    (NilSafe ((read data).bind decodeDocument) (parseBytes iter read msg data) ↔
      ∀ rw, (read data).bind decodeDocument = some rw → Guarded rw) ∧
    ∀ doc, read data = some doc → EntriesGiven doc →
      ∀ rw, decodeDocument doc = some rw → Guarded rw := by
  refine ⟨?_, fun doc _ hdoc rw hrw => guarded_of_entriesGiven hdoc hrw⟩
  unfold parseBytes
  cases hread : read data with
  | none => exact iff_of_true ⟨by simp, by simp⟩ (by simp)
  | some doc =>
      show NilSafe (decodeDocument doc) (parseDocument iter (msg data) doc) ↔
        ∀ rw, decodeDocument doc = some rw → Guarded rw
      constructor
      · intro h rw hrw
        -- `Parse` panics on exactly the documents that are not guarded, so one that returns was
        -- guarded.
        by_contra hnot
        exact h.returns (parseDocument_nilPointer_iff.mpr ⟨rw, hrw, hnot⟩)
      · intro h
        refine ⟨fun hnil => ?_, fun wf hwf => ?_⟩
        · obtain ⟨rw, hrw, hnot⟩ := parseDocument_nilPointer_iff.mp hnil
          exact hnot (h rw hrw)
        · unfold parseDocument at hwf
          cases hdec : decodeDocument doc with
          | none =>
              rw [hdec] at hwf
              cases hwf
          | some rw =>
              rw [hdec] at hwf
              exact ⟨rw, rfl, parse_nonNil hwf⟩

/-- A document whose only task is null. -/
def nullTask : Json :=
  .obj [("workflow", .obj [("name", .str "w"), ("tasks", .arr [.null])])]

/-- Its text. -/
def nullTaskText : List UInt8 :=
  "\x7b\"workflow\":\x7b\"name\":\"w\",\"tasks\":[null]\x7d\x7d".toUTF8.toList

/-- A document with a null task ends `Parse` in a panic. -/
theorem parse_null_task (iter : MapOrder) (msg : String) :
    parseDocument iter msg nullTask = .error .nilPointer := by
  have hdec : decodeDocument nullTask
      = some { zeroWorkflow.raw with name := "w", tasks := [none] } := by
    rfl
  refine parseDocument_nilPointer_iff.mpr ⟨_, hdec, ?_⟩
  rintro (h | h | ⟨-, pre, t, post, h, -⟩ | ⟨-, h⟩)
  · exact absurd h (by decide)
  · cases h
  · cases pre <;> cases h
  · exact h List.mem_cons_self

/-- So `Parse` is not safe for every byte string. -/
theorem parse_not_nilSafe : ¬ ∀ (iter : MapOrder) (read : List UInt8 → Option Json)
    (msg : List UInt8 → String) (data : List UInt8),
    NilSafe ((read data).bind decodeDocument) (parseBytes iter read msg data) := by
  intro h
  -- The reader knows this text only.
  let read : List UInt8 → Option Json :=
    fun data => if data = nullTaskText then some nullTask else none
  have hread : read nullTaskText = some nullTask := if_pos rfl
  refine (h .insertion read (fun _ => "") nullTaskText).returns ?_
  unfold parseBytes
  rw [hread]
  exact parse_null_task _ _

end Orchestrator.Proofs
