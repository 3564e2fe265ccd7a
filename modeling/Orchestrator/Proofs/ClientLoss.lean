import Orchestrator.Proofs.PumpSafety

/-!
# `Orchestrator.Proofs.ClientLoss`: calls that outlive the client

When the input ends, `PumpIncoming` returns and does nothing else. The receive loop of the gRPC
server cancels the run at this point. So a call of `Execute` that has no deadline and no result can
be left `Stranded`: nobody puts a result into its channel any more.

`LossSafe` is the condition on a step that keeps calls from being stranded, and it is exact
(`stranded_of_step`): in a state without stranded calls, a step that does not meet it leads to one
with a stranded call. It speaks about two kinds of step. The end of the input must find the run
cancelled, or every call that waits with its result or a timeout. After the end, a call must not
come to its `select` without one of these.

That the pump may also stop because the run was cancelled is no danger, since then every call is
woken by its context.
-/

set_option autoImplicit false

namespace Orchestrator.Proofs

open Orchestrator.Lib Orchestrator.Engine Orchestrator.Engine.Env

variable {B : Type} {env : Env B}

/-- The pump has returned, the run goes on, and a call without a timeout waits for a result. -/
def Stranded (env : Env B) (e : Embedded B) : Prop :=
  e.pump = .stopped ∧ e.sched.cancelled = false ∧
    ∃ (k : Nat) (c : ExecCall), e.execs[k]? = some c ∧ c.pc = .select ∧ c.ch = none ∧
    env.hasTimeout e c = false

/-- The step leaves no call behind: the input ends only when the run is cancelled or every waiting
call has its result or a timeout, and after the end only such calls come to their `select`. -/
def LossSafe (env : Env B) (e : Embedded B) : EmbeddedAction → Prop
  | .pump .eof => e.sched.cancelled = false → ∀ (k : Nat) (c : ExecCall), e.execs[k]? = some c →
      c.pc = .select → c.ch = none → env.hasTimeout e c = true
  | .exec k (.write none) => e.pump = .stopped → e.sched.cancelled = false →
      ∀ c, e.execs[k]? = some c → c.ch = none → env.hasTimeout e c = true
  | _ => True

/-! ### Timeouts and cancellation -/

/-- A goroutine keeps its task, and with it the deadline of its attempts. -/
theorem task_persist {s s' : State B} {b : Action} (hs : env.step? s b = some s') {i : Nat}
    {g : Goroutine} (hg : s.gos[i]? = some g) :
    ∃ g', s'.gos[i]? = some g' ∧ g'.task = g.task := by
  have hlt : i < s.gos.length := (List.getElem?_eq_some_iff.mp hg).1
  -- The main goroutine may add a goroutine at the end, and a task goroutine changes its own entry
  -- only.
  rcases step_inv hs with ⟨-, hm⟩ | ⟨j, a, x, rfl, hx, ht⟩ | ⟨-, rfl⟩ | ⟨d, -, rfl⟩
  · refine ⟨g, ?_, rfl⟩
    rcases hm.gos with hgos | ⟨t, hgos⟩ <;> rw [hgos]
    · exact hg
    · rw [List.getElem?_append_left hlt, hg]
  · obtain ⟨x', hgos, hmove⟩ := ht.attemptMove
    rw [hgos]
    by_cases hij : j = i
    · subst hij
      rw [hg] at hx
      cases hx
      exact ⟨x', List.getElem?_set_self hlt, hmove.task⟩
    · exact ⟨g, by rw [List.getElem?_set_ne hij, hg], rfl⟩
  · exact ⟨g, hg, rfl⟩
  · exact ⟨g, hg, rfl⟩

/-- A call keeps its timeout. -/
theorem EmbeddedStep.hasTimeout_eq {e e' : Embedded B} {a : EmbeddedAction}
    (h : EmbeddedStep env e a e') {c c' : ExecCall} {g : Goroutine}
    (hg : e.sched.gos[c.go]? = some g) (hgo : c'.go = c.go) :
    env.hasTimeout e' c' = env.hasTimeout e c := by
  have htask : ∃ g', e'.sched.gos[c.go]? = some g' ∧ g'.task = g.task := by
    rcases h.sched_step with heq | ⟨b, hb⟩
    · exact ⟨g, by rw [heq, hg], rfl⟩
    · exact task_persist hb hg
  obtain ⟨g', hg', htask⟩ := htask
  simp [hasTimeout, hgo, hg, hg', htask]

/-- When `cancel_run` was read, the run context is done. -/
theorem reachable_cancelled {e : Embedded B} (h : env.embeddedSystem.Reachable e) :
    e.cancelled = true → e.sched.cancelled = true := by
  refine h.holds (P := fun e => e.cancelled = true → e.sched.cancelled = true)
    (fun hc => by cases hc) fun e a e' _ hinv ha hc => ?_
  have hstep := embedded_inv ha
  have hpersist := hstep.cancelled_persist
  cases hstep with
  | readCancel msg s ev _ _ hs =>
      cases hs
      rfl
  | _ => exact hpersist (hinv hc)

/-! ### The loss of the client -/

/-- A `LossSafe` step strands no call. A call is stranded from the moment at which it waits, nothing
is in its channel, the pump has stopped, and no deadline or cancellation will end the wait. -/
theorem not_stranded_step {e e' : Embedded B} {a : EmbeddedAction}
    (hr : env.embeddedSystem.Reachable e) (h : ¬ Stranded env e) (hsafe : LossSafe env e a)
    (hs : EmbeddedStep env e a e') : ¬ Stranded env e' := by
  rintro ⟨hp', hrun', k, c', hc', hpc', hch', ht'⟩
  have hrun : e.sched.cancelled = false := by
    by_contra hne
    have hdone := hs.cancelled_persist (by simpa using hne)
    rw [hrun'] at hdone
    cases hdone
  by_cases hk : e.execs.length ≤ k
  · -- A call that was just made is not at its `select`.
    have hpc := (hs.new_call hk hc').1
    rw [hpc'] at hpc
    cases hpc
  obtain ⟨c, hc⟩ : ∃ c, e.execs[k]? = some c :=
    ⟨_, List.getElem?_eq_getElem (not_le.mp hk)⟩
  obtain ⟨g, hg, -⟩ := (reachable_calls hr).ok c (List.mem_of_getElem? hc)
  have hself : ∀ {x : ExecCall}, (e.execs.set k x)[k]? = some c' → x = c' := fun hx => by
    rw [List.getElem?_set_self (not_le.mp hk)] at hx
    exact Option.some.inj hx
  by_cases hexec : ∃ b, a = .exec k b
  · obtain ⟨b, rfl⟩ := hexec
    have hp : e.pump = .stopped := by
      rw [← hs.pump_frame fun b hb => by cases hb]
      exact hp'
    have hstep := hs
    cases hs with
    | register | writeFail | ctxDone | result | «return» =>
        obtain rfl := hself hc'
        cases hpc'
    | expire _ d hd _ _ _ =>
        obtain rfl := hself hc'
        rw [hc] at hd
        cases hd
        exact h ⟨hp, hrun, k, c, hc, hpc', hch', (hstep.hasTimeout_eq hg rfl).symm.trans ht'⟩
    | write _ d hd _ =>
        obtain rfl := hself hc'
        rw [hc] at hd
        cases hd
        -- The write brings the call to its `select`, where only a deadline ends it.
        have htimed := hsafe hp hrun c hc hch'
        rw [(hstep.hasTimeout_eq hg rfl).symm.trans ht'] at htimed
        cases htimed
  · -- The call itself stands still, so the pump must have stopped now.
    have hdeliver : a ≠ .pump .deliver := by
      rintro rfl
      cases hs with
      | deliver => cases hp'
    have hframe := hs.call_frame hc (fun b hb => hexec ⟨b, hb⟩) hdeliver
    rw [hc'] at hframe
    cases hframe
    have ht : env.hasTimeout e c' = false := (hs.hasTimeout_eq hg rfl).symm.trans ht'
    by_cases hpump : ∃ b, a = .pump b
    · obtain ⟨b, rfl⟩ := hpump
      cases hs with
      | eof _ =>
          -- The pump stops while the call waits, so the call has a deadline.
          have htimed := hsafe hrun k c' hc hpc' hch'
          rw [ht] at htimed
          cases htimed
      | skipLine _ => exact h ⟨hp', hrun, k, c', hc, hpc', hch', ht⟩
      | check _ =>
          have hnot : e.cancelled = false := by
            by_contra hne
            have hdone := reachable_cancelled hr (by simpa using hne)
            rw [hrun] at hdone
            cases hdone
          rw [hnot] at hp'
          cases hp'
      | readResult | readCancel | readOther | found | unknown | deliver => cases hp'
    · rw [hs.pump_frame fun b hb => hpump ⟨b, hb⟩] at hp'
      exact h ⟨hp', hrun, k, c', hc, hpc', hch', ht⟩

/-- The condition is exact: any other step strands a call. So it cannot be weakened. -/
theorem stranded_of_step {e e' : Embedded B} {a : EmbeddedAction} (hsafe : ¬ LossSafe env e a)
    (hs : EmbeddedStep env e a e') : Stranded env e' := by
  -- The end of the input and the arrival at the `select` are the two steps that the condition is
  -- about. It fails by naming a call, and that call is stranded.
  cases hs with
  | eof _ =>
      simp only [LossSafe] at hsafe
      push Not at hsafe
      obtain ⟨hrun, k, c, hc, hpc, hch, ht⟩ := hsafe
      exact ⟨rfl, hrun, k, c, hc, hpc, hch, Bool.eq_false_iff.mpr ht⟩
  | write k d hd _ =>
      have hlt : k < e.execs.length := (List.getElem?_eq_some_iff.mp hd).1
      simp only [LossSafe] at hsafe
      push Not at hsafe
      obtain ⟨hp, hrun, c, hc, hch, ht⟩ := hsafe
      rw [hd] at hc
      cases hc
      exact ⟨hp, hrun, k, _, List.getElem?_set_self hlt, rfl, hch, Bool.eq_false_iff.mpr ht⟩
  | _ => exact absurd trivial hsafe

/-- In a run whose steps are all `LossSafe`, no call outlives the client: whoever still waits when
the input has ended has something to wake it, a result in its channel, a timeout or the cancelled
context.

One step lemma carries it (`not_stranded_step`). A call without a timeout can come to be stranded in
two ways only, at the end of the input and at a write behind it, and the condition speaks of both.
-/
theorem client_loss_ends_calls (env : Env B) {e : Embedded B}
    (h : env.embeddedSystem.ReachableBy (LossSafe env) e) : ¬ Stranded env e := by
  refine h.holds (Q := fun e => ¬ Stranded env e) ?_ fun e a e' hr hfree hsafe ha =>
    not_stranded_step hr hfree hsafe (embedded_inv ha)
  rintro ⟨hp, -⟩
  cases hp

/-- The check of `LossSafe`. It is computed from the state before the step, so a finite run can be
tested for the condition. -/
def lossSafe (env : Env B) (e : Embedded B) : EmbeddedAction → Bool
  | .pump .eof => e.sched.cancelled || e.execs.all (fun c =>
      decide (c.pc ≠ .select) || c.ch.isSome || env.hasTimeout e c)
  | .exec k (.write none) => decide (e.pump ≠ .stopped) || e.sched.cancelled ||
      (e.execs[k]?).all (fun c => c.ch.isSome || env.hasTimeout e c)
  | _ => true

/-- The check decides the condition on the states of a concrete run. -/
theorem lossSafe_of_check (e : Embedded B) (a : EmbeddedAction) (h : lossSafe env e a = true) :
    LossSafe env e a := by
  unfold lossSafe at h
  unfold LossSafe
  split at h
  · intro hrun k c hc hpc hch
    rw [hrun, Bool.false_or, List.all_eq_true] at h
    simpa [hpc, hch] using h c (List.mem_of_getElem? hc)
  · intro hp hrun c hc hch
    simpa [hp, hrun, hc, hch] using h
  · trivial

/-- The client closes its end after its last answer. -/
theorem client_loss_ends_calls_loneTask :
    ∃ e : Embedded Unit, (e.pump = .stopped ∧ ∃ c ∈ e.execs, c.pc = .returned) ∧
      ¬ Stranded loneTask e := by
  have hrun : ((loneTask.embeddedSystem.guard (lossSafe loneTask)).run?
      (upToRegistered ++ [EmbeddedAction.exec 0 (.write none)] ++ answerOf "r-a-1" ++
        [EmbeddedAction.pump .check, .pump .eof, .exec 0 .result, .exec 0 .return])).any
        (fun e => decide (e.pump = .stopped) && e.execs.any
          (fun c => c.pc = .returned)) = true := by
    rfl
  obtain ⟨e, he, hp⟩ := System.exists_of_run hrun
  rw [Bool.and_eq_true, decide_eq_true_iff] at hp
  obtain ⟨c, hc, hcp⟩ := List.any_eq_true.mp hp.2
  exact ⟨e, ⟨hp.1, c, hc, of_decide_eq_true hcp⟩,
    client_loss_ends_calls loneTask (System.ReachableBy.of_guard lossSafe_of_check he)⟩

/-- The input ends while the only call, which has no timeout, waits for its answer. -/
theorem client_loss_strands_call :
    ¬ ∀ (env : Env Unit) (iter : MapOrder) (e : Embedded Unit),
      env.wf.validate iter = .ok () → env.embeddedSystem.Reachable e → ¬ Stranded env e := by
  intro h
  have hrun : (loneTask.embeddedSystem.run?
      (upToRegistered ++ [EmbeddedAction.exec 0 (.write none), .pump .eof])).any
        (fun e => decide (e.pump = .stopped) && !e.sched.cancelled && (e.execs[0]?).any
          (fun c => c.pc = .select ∧ c.ch = none ∧ loneTask.hasTimeout e c = false)) = true := by
    rfl
  obtain ⟨e, he, hp⟩ := System.exists_of_run hrun
  rw [Bool.and_eq_true, Bool.and_eq_true, decide_eq_true_iff, Bool.not_eq_true'] at hp
  obtain ⟨c, hc, hcp⟩ := (Option.any_eq_true _ _).mp hp.2
  exact h loneTask .insertion e (by rfl) he ⟨hp.1.1, hp.1.2, 0, c, hc, of_decide_eq_true hcp⟩

end Orchestrator.Proofs
