import Orchestrator.Proofs.Calls

/-!
# `Orchestrator.Proofs.TaskData`: what a task is handed and what it hands on

A goroutine resolves its inputs once, from the scope of its snapshot, and every call of `Execute` it
makes carries the encoded result (`TaskData.calls`). The output of a succeeded span is decoded from
the last result that `Execute` returned (`OutputOk`), and the snapshot of a dependent task holds
that output (`snapshot_decoded`).

So a value that one task returns can be followed to the call of another: it is decoded when the call
returns, recorded with the span, copied into the snapshot of the dependent task, looked up by a
template, and encoded for the call. `TaskValues` does this for the values; here are the invariants
that say which piece of data is where.

A goroutine that has started keeps its task, its snapshot and its encoded inputs (`DataKept`), so
the invariants about them are kept by every later step. What holds of a goroutine alone (`GoData`)
is proved by its own steps, and the calls are those of goroutines.
-/

set_option autoImplicit false

namespace Orchestrator.Proofs

open Orchestrator.Lib Orchestrator.Engine Orchestrator.Engine.Env

variable {B : Type} {env : Env B}

/-- The inputs of the task, resolved in the scope of its snapshot. -/
def resolvedInputs (env : Env B) (g : Goroutine) : Except String Json :=
  resolve env.lib (.obj (buildScope env.inputs g.snapshot).entries) (.obj g.task.inputs.entries)

/-- The goroutine holds its encoded inputs. -/
def InputsOk (env : Env B) (g : Goroutine) : Prop :=
  ∃ resolved, resolvedInputs env g = .ok resolved ∧ g.inputsJSON = env.lib.marshal resolved

/-- A succeeded span comes from the last result, and the goroutine is past its attempts. -/
structure OutputOk (env : Env B) (g : Goroutine) : Prop where
  pc : g.pc = .send ∨ g.pc = .done
  last : ∃ res, g.returned.getLast? = some res ∧ g.span.output = env.decodeOutput res.outputJSON

/-- What holds of a goroutine alone. -/
structure GoData (env : Env B) (g : Goroutine) : Prop where
  ready : inAttempt g.pc = true → InputsOk env g
  output : g.span.status = .succeeded → OutputOk env g

/-- A goroutine that has started keeps its task, its snapshot and its encoded inputs. -/
structure DataKept (g g' : Goroutine) : Prop where
  task : g'.task = g.task
  snapshot : g'.snapshot = g.snapshot
  inputsJSON : g'.inputsJSON = g.inputsJSON

/-- Resolved inputs stay resolved. -/
theorem DataKept.inputsOk {g g' : Goroutine} (h : DataKept g g') (hg : InputsOk env g) :
    InputsOk env g' := by
  obtain ⟨resolved, hr, hjson⟩ := hg
  refine ⟨resolved, ?_, h.inputsJSON.trans hjson⟩
  rw [resolvedInputs, h.snapshot, h.task]
  exact hr

/-- The head of the attempt loop changes the data of a goroutine in the number of the attempt and
the duration alone. -/
theorem enterAttempt_kept (env : Env B) (g : Goroutine) (attempt : Int) (now : Nat) :
    DataKept g (env.enterAttempt g attempt now) := by
  rcases enterAttempt_cases env g now attempt with ⟨-, h⟩ | ⟨-, h⟩ <;> rw [h] <;>
    exact ⟨rfl, rfl, rfl⟩

/-- A move of a goroutine inside its attempts that does not succeed. -/
theorem GoData.move {g g' : Goroutine} (h : GoData env g) (hkept : DataKept g g')
    (hin : inAttempt g.pc = true)
    (hfail : g'.span.status = .succeeded → g.span.status = .succeeded) :
    GoData env g' where
  ready := fun _ => hkept.inputsOk (h.ready hin)
  output := fun hs => by
    -- In an attempt, the span is not succeeded.
    exfalso
    rcases (h.output (hfail hs)).pc with hpc | hpc <;> rw [hpc] at hin <;> cases hin

/-- A step keeps what holds of a goroutine. -/
theorem TaskStep.goData {s s' : State B} {i : Nat} {g : Goroutine} {a : TaskAction}
    (h : TaskStep env s i g a s') (hg : GoData env g) :
    ∃ g', s'.gos = s.gos.set i g' ∧ GoData env g' ∧ (g.pc ≠ .resolve → DataKept g g') := by
  have hin : ∀ pc, g.pc = pc → inAttempt pc = true → inAttempt g.pc = true :=
    fun pc hpc hp => hpc ▸ hp
  cases h with
  | resolve hpc =>
      refine ⟨_, rfl, ⟨fun hpc' => ?_, fun hs => ?_⟩, fun hne => absurd hpc hne⟩
      · rcases resolveInputs_cases env g s.clock with ⟨e, -, he⟩ | ⟨r, hr, he⟩
        · rw [he] at hpc'
          cases hpc'
        · rw [he]
          refine (enterAttempt_kept env _ 1 s.clock).inputsOk ⟨r, hr, rfl⟩
      · rw [resolveInputs_span_status] at hs
        cases hs
  -- Only the result of an attempt that succeeded sets the output. It is the last one returned.
  | ret res err hpc =>
      rcases afterExecute_cases env g s.clock res err with
        ⟨e, -, -, he⟩ | ⟨e, -, -, he⟩ | ⟨-, -, he⟩
      · refine ⟨_, rfl, ?_, fun _ => ?_⟩ <;> rw [he]
        · exact hg.move ⟨rfl, rfl, rfl⟩ (hin _ hpc rfl) (by simp)
        · exact ⟨rfl, rfl, rfl⟩
      · refine ⟨_, rfl, ?_, fun _ => ?_⟩ <;> rw [he]
        · exact hg.move ⟨rfl, rfl, rfl⟩ (hin _ hpc rfl) (by simp)
        · exact ⟨rfl, rfl, rfl⟩
      · refine ⟨_, rfl, ?_, fun _ => ?_⟩ <;> rw [he]
        · refine ⟨fun hpc' => (by cases hpc'), fun _ => ⟨Or.inl rfl, res, ?_, rfl⟩⟩
          exact List.getLast?_concat ..
        · exact ⟨rfl, rfl, rfl⟩
  | wake hpc =>
      refine ⟨_, rfl, ?_, fun _ => enterAttempt_kept ..⟩
      exact hg.move (enterAttempt_kept ..) (hin _ hpc rfl) (by simp)
  | send hpc hroom =>
      refine ⟨_, rfl, ⟨fun hpc' => (by cases hpc'), fun hs => ?_⟩, fun _ => ⟨rfl, rfl, rfl⟩⟩
      exact ⟨Or.inr rfl, (hg.output hs).last⟩
  | cancelWait hpc hc =>
      have hpc : inAttempt g.pc = true := by rcases hpc with hpc | hpc <;> exact hin _ hpc rfl
      exact ⟨_, rfl, hg.move ⟨rfl, rfl, rfl⟩ hpc (fun hs => by cases hs), fun _ => ⟨rfl, rfl, rfl⟩⟩
  | cancelSlot hpc hc =>
      exact ⟨_, rfl, hg.move ⟨rfl, rfl, rfl⟩ (hin _ hpc rfl) (fun hs => by cases hs),
        fun _ => ⟨rfl, rfl, rfl⟩⟩
  | takeSlot hpc _ =>
      exact ⟨_, rfl, hg.move ⟨rfl, rfl, rfl⟩ (hin _ hpc rfl) id, fun _ => ⟨rfl, rfl, rfl⟩⟩
  | grantGlobal b hpc _ =>
      exact ⟨_, rfl, hg.move ⟨rfl, rfl, rfl⟩ (hin _ hpc rfl) id, fun _ => ⟨rfl, rfl, rfl⟩⟩
  | denyGlobal b hpc _ =>
      exact ⟨_, rfl, hg.move ⟨rfl, rfl, rfl⟩ (hin _ hpc rfl) id, fun _ => ⟨rfl, rfl, rfl⟩⟩
  | grantProvider b b' hpc _ _ =>
      exact ⟨_, rfl, hg.move ⟨rfl, rfl, rfl⟩ (hin _ hpc rfl) id, fun _ => ⟨rfl, rfl, rfl⟩⟩
  | denyProvider b b' hpc _ _ =>
      exact ⟨_, rfl, hg.move ⟨rfl, rfl, rfl⟩ (hin _ hpc rfl) id, fun _ => ⟨rfl, rfl, rfl⟩⟩
  | timerGlobal hpc =>
      exact ⟨_, rfl, hg.move ⟨rfl, rfl, rfl⟩ (hin _ hpc rfl) id, fun _ => ⟨rfl, rfl, rfl⟩⟩
  | timerProvider hpc =>
      exact ⟨_, rfl, hg.move ⟨rfl, rfl, rfl⟩ (hin _ hpc rfl) id, fun _ => ⟨rfl, rfl, rfl⟩⟩
  | call hpc =>
      exact ⟨_, rfl, hg.move ⟨rfl, rfl, rfl⟩ (hin _ hpc rfl) id, fun _ => ⟨rfl, rfl, rfl⟩⟩

/-- A call carries the inputs of a goroutine that has started. They were resolved before its first
attempt and stay as they are. -/
structure CallData (env : Env B) (c : Call) (g : Goroutine) : Prop where
  task : c.inv.taskID = g.task.id
  inputsJSON : c.inv.inputsJSON = g.inputsJSON
  inputs : InputsOk env g
  started : g.pc ≠ .resolve

/-- What holds of the data of a run. -/
structure TaskData (env : Env B) (s : State B) : Prop where
  gos : ∀ g ∈ s.gos, GoData env g
  calls : ∀ c ∈ s.calls, ∃ g ∈ s.gos, CallData env c g

/-- A new goroutine has no data. -/
theorem goData_new (s : State B) (t : Task) : GoData env (newGoroutine s t) where
  ready := fun h => by cases h
  output := fun h => by cases h

/-- A step keeps `TaskData`. -/
theorem TaskData.step {s s' : State B} {a : Action} (h : TaskData env s)
    (ha : env.step? s a = some s') : TaskData env s' := by
  rcases step_inv ha with ⟨-, hm⟩ | ⟨i, b, g, -, hg, ht⟩ | ⟨-, rfl⟩ | ⟨d, -, rfl⟩
  · have hcalls : s'.calls = s.calls := by cases hm <;> rfl
    rcases hm.gos with hgos | ⟨t, hgos⟩
    · exact ⟨hgos ▸ h.gos, by rw [hcalls, hgos]; exact h.calls⟩
    · constructor
      · intro g hg
        rw [hgos, List.mem_append, List.mem_singleton] at hg
        rcases hg with hg | rfl
        · exact h.gos g hg
        · exact goData_new s t
      · intro c hc
        obtain ⟨g, hg, hcg⟩ := h.calls c (hcalls ▸ hc)
        exact ⟨g, by rw [hgos]; exact List.mem_append_left _ hg, hcg⟩
  · obtain ⟨g', hgos, hdata, hkept⟩ := ht.goData (h.gos g (List.mem_of_getElem? hg))
    -- A call made before stays with its goroutine, which keeps its inputs.
    have hold : ∀ c ∈ s.calls, ∃ x ∈ s'.gos, CallData env c x := by
      intro c hc
      obtain ⟨x, hx, hcx⟩ := h.calls c hc
      rw [hgos]
      -- The call belongs to the goroutine that moves or to another one.
      by_cases hxg : x = g
      · subst hxg
        have hk := hkept hcx.started
        obtain ⟨y, hy, hmove⟩ := ht.attemptMove
        have hset : s.gos.set i g' = s.gos.set i y := hgos.symm.trans hy
        have hlt : i < s.gos.length := (List.getElem?_eq_some_iff.mp hg).1
        have hyg : y = g' := by
          have hi := congrArg (fun l => l[i]?) hset
          simpa [hlt] using hi.symm
        refine ⟨g', mem_set_self hg, hcx.task.trans ?_, hcx.inputsJSON.trans hk.inputsJSON.symm,
          hk.inputsOk hcx.inputs, hyg ▸ hmove.started⟩
        rw [hk.task]
      · exact ⟨x, mem_set_of_ne hg hx hxg, hcx⟩
    constructor
    · rw [hgos]
      exact forall_mem_set h.gos hdata
    · intro c hc
      cases ht with
      | call hpc =>
          rcases List.mem_append.mp hc with hc | hc
          · exact hold c hc
          · obtain rfl := List.mem_singleton.mp hc
            have hin := (h.gos g (List.mem_of_getElem? hg)).ready (by rw [hpc]; rfl)
            refine ⟨{ g with pc := .exec }, mem_set_self hg, rfl, rfl, hin, ?_⟩
            simp
      | _ => exact hold c hc
  · exact ⟨h.gos, h.calls⟩
  · exact ⟨h.gos, h.calls⟩

/-- `TaskData` holds in every reachable state. -/
theorem reachable_taskData {s : State B} (hs : env.system.Reachable s) : TaskData env s := by
  have hinit : TaskData env env.initial := ⟨fun g hg => (by cases hg), fun c hc => (by cases hc)⟩
  exact hs.holds (P := TaskData env) hinit fun s a s' _ h ha => h.step ha

/-- The snapshot of a task holds, for each transitive dependency, the decoded output of the last
result of its goroutine. -/
theorem snapshot_decoded (hacc : Accepted env.wf) {s : State B} (hs : env.system.Reachable s)
    {g u : Goroutine} (hg : g ∈ s.gos) (hu : u ∈ s.gos)
    (hdep : Relation.TransGen (fun d t => d ∈ env.wf.deps t) u.task.id g.task.id) :
    ∃ res, u.returned.getLast? = some res ∧
      g.snapshot.get? u.task.id = some (env.decodeOutput res.outputJSON) := by
  have h := reachable_runInv hacc hs
  obtain ⟨sp, hsp, hgood, hsnap⟩ := h.snapshot_output hg hdep
  -- The recorded span is the one of the goroutine.
  have hdone : u.pc = .done := by
    by_contra hne
    rw [h.flight.running u hu hne] at hsp
    cases hsp
  have hspan : u.span = sp := by
    rcases h.flight.sent u hu hdone with hch | hrec
    · have hnone := (h.flight.chan u.span hch).1
      rw [h.flight.span_id u hu, hsp] at hnone
      cases hnone
    · rw [hsp] at hrec
      exact (Option.some.inj hrec).symm
  subst hspan
  obtain ⟨res, hres, hout⟩ := (((reachable_taskData hs).gos u hu).output hgood).last
  exact ⟨res, hres, hout ▸ hsnap⟩

end Orchestrator.Proofs
