import Orchestrator.Lib.Numeral
import Orchestrator.Proofs.DispatchSafety
import Orchestrator.Proofs.EmbeddedSteps

/-!
# `Orchestrator.Proofs.Calls`: every call of `Execute` has an id of its own

An invocation id is made of the run, the task and the attempt. At most one goroutine runs a task,
and its attempts follow one another (`AttemptMove`), so no two calls belong to one attempt
(`Calls`). The id determines the attempt, whatever characters the task ids contain
(`Calls.index_of_id`).

The last point needs an argument, because the parts of an id are joined with `-` and a task id may
contain that character itself. The run is the same for all calls, and the attempt is written with
digits, so that it begins behind the last `-` of the id. What is between the two is the task.

That ids are unique is what the registry of the transport rests on: an answer that is looked up by
its id finds the call that asked, or no call at all.
-/

set_option autoImplicit false

namespace Orchestrator.Proofs

open Orchestrator.Lib Orchestrator.Engine Orchestrator.Engine.Env

variable {B : Type} {env : Env B}

/-! ### Attempts -/

/-- The waits of an attempt before its call of `Execute`. -/
def beforeCall : TaskPc → Bool
  | .slot | .global | .globalWait | .provider | .providerWait | .call => true
  | _ => false

/-- The waits from the head of the attempt loop on. -/
def inAttempt : TaskPc → Bool
  | .exec | .sleep => true
  | pc => beforeCall pc

/-- How a step moves a goroutine through its attempts. Their number never falls, and behind a call
the goroutine comes before another one by a new attempt only. -/
structure AttemptMove (g g' : Goroutine) : Prop where
  task : g'.task = g.task
  started : g'.pc ≠ .resolve
  /-- The attempt number never falls. -/
  mono : g.pc ≠ .resolve → g.span.attempts ≤ g'.span.attempts
  /-- A goroutine comes before a call by a new attempt only. -/
  fresh : g.pc ≠ .resolve → beforeCall g'.pc = true →
    beforeCall g.pc = true ∨ g.span.attempts < g'.span.attempts
  pos : (inAttempt g.pc = true → 1 ≤ g.span.attempts) → inAttempt g'.pc = true →
    1 ≤ g'.span.attempts

/-- A move to another wait of the same attempt. -/
theorem attemptMove_pc {g g' : Goroutine} (htask : g'.task = g.task)
    (hattempts : g'.span.attempts = g.span.attempts) (hpc : g'.pc ≠ .resolve)
    (hbefore : beforeCall g'.pc = true → beforeCall g.pc = true)
    (hin : inAttempt g'.pc = true → inAttempt g.pc = true) : AttemptMove g g' :=
  ⟨htask, hpc, fun _ => hattempts.ge, fun _ h => Or.inl (hbefore h),
    fun h h' => hattempts ▸ h (hin h')⟩

/-- Each step of a task goroutine is an `AttemptMove`. The invariants about numbers of attempts then
have four cases instead of twenty. -/
theorem TaskStep.attemptMove {s s' : State B} {i : Nat} {g : Goroutine} {a : TaskAction}
    (h : TaskStep env s i g a s') : ∃ g', s'.gos = s.gos.set i g' ∧ AttemptMove g g' := by
  cases h with
  | resolve hpc =>
      refine ⟨_, rfl, by simp, ?_, fun h => absurd hpc h, fun h => absurd hpc h, fun _ h => ?_⟩
      · rcases resolveInputs_pc env g s.clock with h | h <;> simp [h]
      · -- The first attempt has number 1.
        rcases resolveInputs_cases env g s.clock with ⟨e, -, he⟩ | ⟨r, -, he⟩
        · rw [he] at h
          cases h
        · rw [he] at h ⊢
          rcases enterAttempt_cases env (firstAttempt env g s.clock r) s.clock 1 with
            ⟨-, he'⟩ | ⟨-, he'⟩ <;> rw [he'] at h ⊢
          cases h
  | takeSlot hpc _ =>
      exact ⟨_, rfl, attemptMove_pc rfl rfl (by simp) (by simp [hpc, beforeCall])
        (by simp [hpc, inAttempt, beforeCall])⟩
  | cancelSlot hpc _ =>
      exact ⟨_, rfl, attemptMove_pc rfl rfl (by simp) (by simp [beforeCall])
        (by simp [inAttempt, beforeCall])⟩
  | grantGlobal b hpc _ =>
      refine ⟨_, rfl, attemptMove_pc rfl rfl ?_ (by simp [hpc, beforeCall])
        (by simp [hpc, inAttempt, beforeCall])⟩
      rcases afterGlobal_pc g s.provLimiters with h | h <;> simp [h]
  | denyGlobal b hpc _ =>
      exact ⟨_, rfl, attemptMove_pc rfl rfl (by simp) (by simp [hpc, beforeCall])
        (by simp [hpc, inAttempt, beforeCall])⟩
  | grantProvider b b' hpc _ _ =>
      exact ⟨_, rfl, attemptMove_pc rfl rfl (by simp) (by simp [hpc, beforeCall])
        (by simp [hpc, inAttempt, beforeCall])⟩
  | denyProvider b b' hpc _ _ =>
      exact ⟨_, rfl, attemptMove_pc rfl rfl (by simp) (by simp [hpc, beforeCall])
        (by simp [hpc, inAttempt, beforeCall])⟩
  | timerGlobal hpc =>
      exact ⟨_, rfl, attemptMove_pc rfl rfl (by simp) (by simp [hpc, beforeCall])
        (by simp [hpc, inAttempt, beforeCall])⟩
  | timerProvider hpc =>
      exact ⟨_, rfl, attemptMove_pc rfl rfl (by simp) (by simp [hpc, beforeCall])
        (by simp [hpc, inAttempt, beforeCall])⟩
  | cancelWait hpc _ =>
      exact ⟨_, rfl, attemptMove_pc rfl rfl (by simp) (by simp [beforeCall])
        (by simp [inAttempt, beforeCall])⟩
  | call hpc =>
      exact ⟨_, rfl, attemptMove_pc rfl rfl (by simp) (by simp [beforeCall])
        (by simp [hpc, inAttempt, beforeCall])⟩
  | ret res err hpc =>
      refine ⟨_, rfl, attemptMove_pc (by simp) (by simp) ?_ (fun h => ?_)
        (by simp [hpc, inAttempt])⟩
      · rcases afterExecute_pc env g s.clock res err with h | h <;> simp [h]
      · rcases afterExecute_pc env g s.clock res err with h' | h' <;> simp [h', beforeCall] at h
  | wake hpc =>
      rcases enterAttempt_cases env g s.clock (g.span.attempts + 1) with ⟨-, he⟩ | ⟨-, he⟩
      · refine ⟨_, rfl, ?_⟩
        rw [he]
        refine ⟨rfl, by simp, fun _ => ?_, fun _ _ => Or.inr ?_, fun h _ => ?_⟩
        · show g.span.attempts ≤ g.span.attempts + 1
          omega
        · show g.span.attempts < g.span.attempts + 1
          omega
        · have := h (by simp [hpc, inAttempt])
          show 1 ≤ g.span.attempts + 1
          omega
      · refine ⟨_, rfl, ?_⟩
        rw [he]
        exact attemptMove_pc rfl rfl (by simp) (by simp [beforeCall])
          (by simp [inAttempt, beforeCall])
  | send hpc _ =>
      exact ⟨_, rfl, attemptMove_pc rfl rfl (by simp) (by simp [beforeCall])
        (by simp [inAttempt, beforeCall])⟩

/-- From the head of the attempt loop on, the attempt number is positive, so the first id of a call
ends in one. -/
theorem reachable_attempts_pos {s : State B} (hs : env.system.Reachable s) :
    ∀ g ∈ s.gos, inAttempt g.pc = true → 1 ≤ g.span.attempts := by
  refine hs.holds (P := fun s => ∀ g ∈ s.gos, inAttempt g.pc = true → 1 ≤ g.span.attempts) ?_
    fun s a s' _ hall ha => ?_
  · simp [system, Env.initial]
  · -- A new goroutine is in no attempt yet, and the others keep what a move of theirs promises.
    rcases step_inv ha with ⟨-, hm⟩ | ⟨i, b, g, -, hg, ht⟩ | ⟨-, rfl⟩ | ⟨d, -, rfl⟩
    · rcases hm.gos with hgos | ⟨t, hgos⟩
      · rw [hgos]
        exact hall
      · intro g hg hpc
        rw [hgos, List.mem_append, List.mem_singleton] at hg
        rcases hg with hg | rfl
        · exact hall g hg hpc
        · cases hpc
    · obtain ⟨g', hgos, hmove⟩ := ht.attemptMove
      intro x hx hpc
      rw [hgos] at hx
      rcases List.mem_or_eq_of_mem_set hx with hx | rfl
      · exact hall x hx hpc
      · exact hmove.pos (hall g (List.mem_of_getElem? hg)) hpc
    · exact hall
    · exact hall

/-! ### Calls and their goroutines -/

/-- A call belongs to an attempt of its goroutine. Its id carries the number of the attempt, and a
goroutine has one call for each number, so two calls have different ids. -/
structure CallOk (env : Env B) (g : Goroutine) (c : ExecCall) : Prop where
  id : c.inv.invocationID = env.runID ++ "-" ++ g.task.id ++ "-" ++ toString c.inv.attempt
  pos : 1 ≤ c.inv.attempt
  le : c.inv.attempt ≤ g.span.attempts
  /-- Before the call of an attempt, all calls belong to earlier attempts. -/
  past : beforeCall g.pc = true → c.inv.attempt < g.span.attempts
  /-- A call that has not returned is the one its goroutine waits for. -/
  live : c.pc ≠ .returned → g.pc = .exec ∧ c.inv.attempt = g.span.attempts
  started : g.pc ≠ .resolve

/-- A scheduler step keeps `CallOk`, unless it is the return of the call itself. -/
theorem CallOk.step {s s' : State B} {b : Action} (hs : env.step? s b = some s') {i : Nat}
    {g : Goroutine} {c : ExecCall} (hg : s.gos[i]? = some g) (hc : CallOk env g c)
    (hret : ∀ res err, b = .task i (.ret res err) → c.pc = .returned) :
    ∃ g', s'.gos[i]? = some g' ∧ CallOk env g' c := by
  obtain ⟨hlt, -⟩ := List.getElem?_eq_some_iff.mp hg
  rcases step_inv hs with ⟨-, hm⟩ | ⟨j, a, x, rfl, hx, ht⟩ | ⟨-, rfl⟩ | ⟨d, -, rfl⟩
  · refine ⟨g, ?_, hc⟩
    rcases hm.gos with hgos | ⟨t, hgos⟩ <;> rw [hgos]
    · exact hg
    · rw [List.getElem?_append_left hlt, hg]
  · obtain ⟨x', hgos, hmove⟩ := ht.attemptMove
    by_cases hij : j = i
    · subst hij
      rw [hg] at hx
      cases hx
      refine ⟨x', by rw [hgos, List.getElem?_set_self hlt], ?_⟩
      have hmono := hmove.mono hc.started
      refine ⟨hmove.task ▸ hc.id, hc.pos, hc.le.trans hmono, fun hb => ?_, fun hlive => ?_,
        hmove.started⟩
      · rcases hmove.fresh hc.started hb with hb' | hlt'
        · have := hc.past hb'
          omega
        · have := hc.le
          omega
      · -- The goroutine of a live call can only return from it.
        obtain ⟨hexec, -⟩ := hc.live hlive
        exfalso
        cases ht with
        | ret res err _ => exact hlive (hret res err rfl)
        | cancelWait hpc _ => rcases hpc with hpc | hpc <;> simp [hpc] at hexec
        | _ => simp_all
    · exact ⟨g, by rw [hgos, List.getElem?_set_ne hij, hg], hc⟩
  · exact ⟨g, hg, hc⟩
  · exact ⟨g, hg, hc⟩

/-- Each call belongs to an attempt, and no two calls to the same one. It is an invariant of the
embedded engine. -/
structure Calls (env : Env B) (e : Embedded B) : Prop where
  ok : ∀ c ∈ e.execs, ∃ g, e.sched.gos[c.go]? = some g ∧ CallOk env g c
  keys : (e.execs.map (fun c => (c.go, c.inv.attempt))).Nodup

/-- Two calls with one id are one call. The id determines the task and the attempt, since the number
at its end contains no dash (`tagged_inj`). -/
theorem Calls.index_of_id {e : Embedded B} (h : Calls env e)
    (hnd : (goIds e.sched.gos).Nodup) {j k : Nat} {c d : ExecCall} (hc : e.execs[j]? = some c)
    (hd : e.execs[k]? = some d) (hid : c.inv.invocationID = d.inv.invocationID) : j = k := by
  obtain ⟨g, hg, hcg⟩ := h.ok c (List.mem_of_getElem? hc)
  obtain ⟨g', hg', hdg⟩ := h.ok d (List.mem_of_getElem? hd)
  rw [hcg.id, hdg.id] at hid
  obtain ⟨htask, hattempt⟩ := tagged_inj (by have := hcg.pos; omega) (by have := hdg.pos; omega) hid
  have htask' : g.task.id = g'.task.id := by
    have := congrArg String.toList htask
    simp only [String.toList_append, List.append_cancel_left_eq] at this
    exact String.toList_inj.mp this
  -- One task has one goroutine, so the two calls have one key.
  have hgo : c.go = d.go := by
    have hc' : (goIds e.sched.gos)[c.go]? = some g.task.id := by simp [goIds, hg]
    have hd' : (goIds e.sched.gos)[d.go]? = some g.task.id := by simp [goIds, hg', htask']
    obtain ⟨hlt, hget⟩ := List.getElem?_eq_some_iff.mp hc'
    obtain ⟨hlt', hget'⟩ := List.getElem?_eq_some_iff.mp hd'
    exact (List.Nodup.getElem_inj_iff hnd).mp (hget.trans hget'.symm)
  have hkeys := h.keys
  have hcj : (e.execs.map (fun c => (c.go, c.inv.attempt)))[j]? = some (c.go, c.inv.attempt) := by
    simp [hc]
  have hdk : (e.execs.map (fun c => (c.go, c.inv.attempt)))[k]? = some (c.go, c.inv.attempt) := by
    simp [hd, hgo, hattempt]
  obtain ⟨hlt, hget⟩ := List.getElem?_eq_some_iff.mp hcj
  obtain ⟨hlt', hget'⟩ := List.getElem?_eq_some_iff.mp hdk
  exact (List.Nodup.getElem_inj_iff hkeys).mp (hget.trans hget'.symm)

/-- A step of a call that does not return keeps `Calls`. -/
theorem Calls.setExec {e e' : Embedded B} (h : Calls env e) {k : Nat} {c c' : ExecCall}
    (hc : e.execs[k]? = some c) (hsched : e'.sched = e.sched)
    (hexecs : e'.execs = e.execs.set k c') (hgo : c'.go = c.go) (hinv : c'.inv = c.inv)
    (hpc : c'.pc ≠ .returned → c.pc ≠ .returned) : Calls env e' := by
  refine ⟨fun x hx => ?_, ?_⟩
  · rw [hexecs] at hx
    rw [hsched]
    rcases List.mem_or_eq_of_mem_set hx with hx | rfl
    · exact h.ok x hx
    · obtain ⟨g, hg, hok⟩ := h.ok c (List.mem_of_getElem? hc)
      exact ⟨g, hgo ▸ hg, hinv ▸ hok.id, hinv ▸ hok.pos, hinv ▸ hok.le, hinv ▸ hok.past,
        fun hl => hinv ▸ hok.live (hpc hl), hok.started⟩
  · rw [hexecs, map_set_of_eq _ hc (by rw [hgo, hinv])]
    exact h.keys

/-- A scheduler step that returns from no call keeps `Calls`. -/
theorem Calls.schedStep {e e' : Embedded B} (h : Calls env e) {b : Action}
    (hs : env.step? e.sched b = some e'.sched)
    (hret : ∀ i res err, b = .task i (.ret res err) → ∀ c ∈ e.execs, c.go = i → c.pc = .returned)
    (hexecs : e'.execs = e.execs) : Calls env e' := by
  refine ⟨fun c hc => ?_, hexecs ▸ h.keys⟩
  rw [hexecs] at hc
  obtain ⟨g, hg, hok⟩ := h.ok c hc
  exact hok.step hs hg fun res err hb => hret _ res err hb c hc rfl

/-- A step of the engine keeps `Calls`. New is only the call that a goroutine makes, and it is the
first of its attempt. -/
theorem Calls.step {e e' : Embedded B} {a : EmbeddedAction} (hr : env.system.Reachable e.sched)
    (h : Calls env e) (hs : EmbeddedStep env e a e') : Calls env e' := by
  cases hs with
  | sched a s ev hi hs =>
      refine h.schedStep hs (fun i res err hb => ?_) rfl
      subst hb
      cases hi
  | call i g s ev hg hs =>
      have hcalls : Calls env { e with sched := s, events := ev } :=
        h.schedStep hs (fun i res err hb => by cases hb) rfl
      obtain ⟨x, hx, ht⟩ := Option.bind_eq_some_iff.mp hs
      rw [hg] at hx
      cases hx
      cases taskStep_inv ht with
      | call hpc =>
          have hlt : i < e.sched.gos.length := (List.getElem?_eq_some_iff.mp hg).1
          refine ⟨fun c hc => ?_, ?_⟩
          · rcases List.mem_append.mp hc with hc | hc
            · exact hcalls.ok c hc
            · obtain rfl := List.mem_singleton.mp hc
              refine ⟨{ g with pc := .exec }, List.getElem?_set_self hlt, rfl, ?_, le_rfl,
                by simp [beforeCall], fun _ => ⟨rfl, rfl⟩, by simp⟩
              exact reachable_attempts_pos hr g (List.mem_of_getElem? hg)
                (by simp [hpc, inAttempt, beforeCall])
          · rw [List.map_append]
            refine List.Nodup.append h.keys (List.nodup_singleton _) ?_
            rw [List.map_singleton, List.disjoint_singleton]
            intro hm
            obtain ⟨c, hc, hkey⟩ := List.mem_map.mp hm
            obtain ⟨hgo, hattempt⟩ := Prod.mk.inj hkey
            obtain ⟨y, hy, hok⟩ := h.ok c hc
            have hgo' : c.go = i := hgo
            rw [hgo', hg] at hy
            cases hy
            have hlt' := hok.past (by simp [hpc, beforeCall])
            have hattempt' : c.inv.attempt = g.span.attempts := hattempt
            omega
  | register k c hc hpc => exact h.setExec hc rfl rfl rfl rfl fun _ => by simp [hpc]
  | write k c hc hpc => exact h.setExec hc rfl rfl rfl rfl fun _ => by simp [hpc]
  | writeFail k c err hc hpc => exact h.setExec hc rfl rfl rfl rfl fun _ => by simp [hpc]
  | expire k c hc hpc _ _ => exact h.setExec hc rfl rfl rfl rfl id
  | ctxDone k c hc hpc _ => exact h.setExec hc rfl rfl rfl rfl fun _ => by simp [hpc]
  | result k c res hc hpc _ => exact h.setExec hc rfl rfl rfl rfl fun _ => by simp [hpc]
  | «return» k c res err s ev hc hpc hout hs =>
      -- First the call is marked as returned, then its goroutine goes on.
      have hmark : Calls env (Env.setExec e k { c with pc := .returned }) :=
        h.setExec hc rfl rfl rfl rfl fun hne => absurd rfl hne
      refine hmark.schedStep hs (fun i res' err' hb x hx hgo => ?_) rfl
      cases hb
      by_contra hlive
      obtain ⟨j, hj⟩ := List.mem_iff_getElem?.mp hx
      obtain ⟨g, hg, hok⟩ := h.ok c (List.mem_of_getElem? hc)
      obtain ⟨g', hg', hok'⟩ := hmark.ok x hx
      have hgo' : x.go = c.go := hgo
      have hgg : g' = g := by
        have hg'' : e.sched.gos[x.go]? = some g' := hg'
        rw [hgo', hg] at hg''
        exact (Option.some.inj hg'').symm
      have hkey : x.inv.attempt = c.inv.attempt := by
        rw [(hok'.live hlive).2, hgg, (hok.live (by simp [hpc])).2]
      have hkeys := hmark.keys
      have hlen : k < e.execs.length := (List.getElem?_eq_some_iff.mp hc).1
      have hk : (Env.setExec e k { c with pc := .returned }).execs[k]?
          = some { c with pc := .returned } := List.getElem?_set_self hlen
      have hjk : j = k := by
        have h1 : ((Env.setExec e k { c with pc := .returned }).execs.map
            (fun c => (c.go, c.inv.attempt)))[j]? = some (c.go, c.inv.attempt) := by
          rw [List.getElem?_map, hj]
          simp [hgo', hkey]
        have h2 : ((Env.setExec e k { c with pc := .returned }).execs.map
            (fun c => (c.go, c.inv.attempt)))[k]? = some (c.go, c.inv.attempt) := by
          rw [List.getElem?_map, hk]
          rfl
        obtain ⟨hlt, hget⟩ := List.getElem?_eq_some_iff.mp h1
        obtain ⟨hlt', hget'⟩ := List.getElem?_eq_some_iff.mp h2
        exact (List.Nodup.getElem_inj_iff hkeys).mp (hget.trans hget'.symm)
      subst hjk
      rw [hk] at hj
      cases hj
      exact hlive rfl
  | deliver k res c hp hc hch => exact h.setExec hc rfl rfl rfl rfl id
  | readCancel msg s ev hp ht hs =>
      exact h.schedStep hs (fun i res err hb => by cases hb) rfl
  | _ => exact ⟨h.ok, h.keys⟩

/-- `Calls` holds in every reachable state of the engine. -/
theorem reachable_calls {e : Embedded B} (h : env.embeddedSystem.Reachable e) : Calls env e := by
  have hinit : Calls env env.embeddedInitial := ⟨fun c hc => (by cases hc), List.nodup_nil⟩
  exact h.holds (P := Calls env) hinit fun e a e' hr hcalls ha =>
    hcalls.step (sched_reachable hr) (embedded_inv ha)

end Orchestrator.Proofs
