import Orchestrator.Engine.Stdio
import Orchestrator.Proofs.RunInv

/-!
# `Orchestrator.Proofs.EmbeddedSteps`: what one step of the embedded engine can do

`EmbeddedStep` lists the steps of the scheduler over the stdio transport with their guards and
effects, and `embedded_inv` inverts the step function into the list. The contents of the event
buffer are left open: nothing but the event goroutine reads it.

An invariant of the engine is proved by cases over this list and never by unfolding the step
function. Each case has the state behind the step as an update of the state before it, so that what
it leaves alone is seen at once. The inversion goes party by party (`schedStep_inv`, `execStep_inv`,
`pumpStep_inv`), and a change in one function of the transport concerns one of them.

`EmbeddedStep.sched_step` is the simulation: the scheduler inside the engine takes a step of its own
or stands still. So what holds in every reachable state of a run holds inside the engine
(`sched_reachable`), and the invariants of `RunInv` need no second proof.
-/

set_option autoImplicit false

namespace Orchestrator.Proofs

open Orchestrator.Lib Orchestrator.Engine Orchestrator.Engine.Env

variable {B : Type} {env : Env B}

/-- The call of `Execute` that the `i`-th goroutine `g` makes. Its channel is empty and its outcome
open. -/
def newCall (env : Env B) (i : Nat) (g : Goroutine) : ExecCall where
  go := i
  inv := env.invocation g
  pc := .register
  ch := none
  expired := false
  outcome := none
  handed := []

/-- The steps of the embedded engine from the state `e`, one constructor for each kind. Every
invariant of the engine is proved by a case for each of them, and none unfolds `embeddedStep?`
(`embedded_inv`). -/
inductive EmbeddedStep (env : Env B) (e : Embedded B) : EmbeddedAction → Embedded B → Prop
  | sched (a : Action) (s : State B) (ev : List Event) (hi : isInternal a = true)
      (hs : env.step? e.sched a = some s) :
      EmbeddedStep env e (.sched a) { e with sched := s, events := ev }
  | call (i : Nat) (g : Goroutine) (s : State B) (ev : List Event)
      (hg : e.sched.gos[i]? = some g) (hs : env.step? e.sched (.task i .call) = some s) :
      EmbeddedStep env e (.call i)
        { e with sched := s, events := ev, execs := e.execs ++ [newCall env i g] }
  | register (k : Nat) (c : ExecCall) (hc : e.execs[k]? = some c) (hpc : c.pc = .register) :
      EmbeddedStep env e (.exec k .register)
        (setExec { e with pending := e.pending.set c.inv.invocationID k } k
          { c with pc := .write })
  | write (k : Nat) (c : ExecCall) (hc : e.execs[k]? = some c) (hpc : c.pc = .write) :
      EmbeddedStep env e (.exec k (.write none))
        (setExec { e with stdout := e.stdout ++ [invocationMsg c.inv] } k
          { c with pc := .select })
  | writeFail (k : Nat) (c : ExecCall) (err : String) (hc : e.execs[k]? = some c)
      (hpc : c.pc = .write) :
      EmbeddedStep env e (.exec k (.write (some err)))
        (setExec e k { c with
          pc := .unregister
          outcome := some ({}, some ("stdio: sending skill_invocation: " ++ err)) })
  | expire (k : Nat) (c : ExecCall) (hc : e.execs[k]? = some c) (hpc : c.pc ≠ .returned)
      (ht : env.hasTimeout e c = true) (hrun : e.sched.cancelled = false) :
      EmbeddedStep env e (.exec k .expire) (setExec e k { c with expired := true })
  | ctxDone (k : Nat) (c : ExecCall) (hc : e.execs[k]? = some c) (hpc : c.pc = .select)
      (hdone : c.expired = true ∨ e.sched.cancelled = true) :
      EmbeddedStep env e (.exec k .ctxDone)
        (setExec e k { c with pc := .unregister, outcome := some ({}, some (ctxErr c)) })
  | result (k : Nat) (c : ExecCall) (res : Result) (hc : e.execs[k]? = some c)
      (hpc : c.pc = .select) (hch : c.ch = some res) :
      EmbeddedStep env e (.exec k .result)
        (setExec e k { c with pc := .unregister, ch := none, outcome := some (res, none) })
  | return (k : Nat) (c : ExecCall) (res : Result) (err : Option String) (s : State B)
      (ev : List Event) (hc : e.execs[k]? = some c) (hpc : c.pc = .unregister)
      (hout : c.outcome = some (res, err))
      (hs : env.step? e.sched (.task c.go (.ret res err)) = some s) :
      EmbeddedStep env e (.exec k .return)
        (setExec { e with
          sched := s, events := ev, pending := e.pending.erase c.inv.invocationID } k
          { c with pc := .returned })
  | skipLine (hp : e.pump = .scan) : EmbeddedStep env e (.pump (.line none)) e
  | readResult (msg : InMsg) (hp : e.pump = .scan) (ht : msg.type = "skill_result") :
      EmbeddedStep env e (.pump (.line (some msg)))
        { e with read := e.read ++ [msg], pump := .lookup msg }
  | readCancel (msg : InMsg) (s : State B) (ev : List Event) (hp : e.pump = .scan)
      (ht : msg.type ≠ "skill_result") (hs : env.step? e.sched .cancel = some s) :
      EmbeddedStep env e (.pump (.line (some msg)))
        { e with
            read := e.read ++ [msg], sched := s, events := ev, pump := .check, cancelled := true }
  | readOther (msg : InMsg) (hp : e.pump = .scan) (ht : msg.type ≠ "skill_result") :
      EmbeddedStep env e (.pump (.line (some msg)))
        { e with read := e.read ++ [msg], pump := .check }
  | eof (hp : e.pump = .scan) : EmbeddedStep env e (.pump .eof) { e with pump := .stopped }
  | found (msg : InMsg) (k : Nat) (hp : e.pump = .lookup msg)
      (hk : e.pending.get? msg.invocationID = some k) :
      EmbeddedStep env e (.pump .lookup) { e with pump := .deliver k msg.toResult }
  | unknown (msg : InMsg) (hp : e.pump = .lookup msg)
      (hk : e.pending.get? msg.invocationID = none) :
      EmbeddedStep env e (.pump .lookup) { e with pump := .scan }
  | deliver (k : Nat) (res : Result) (c : ExecCall) (hp : e.pump = .deliver k res)
      (hc : e.execs[k]? = some c) (hch : c.ch = none) :
      EmbeddedStep env e (.pump .deliver)
        (setExec { e with pump := .check } k
          { c with ch := some res, handed := c.handed ++ [res] })
  | check (hp : e.pump = .check) :
      EmbeddedStep env e (.pump .check)
        { e with pump := if e.cancelled then .stopped else .scan }
  | sendEvent (ok : Bool) (ev : Event) (rest : List Event) (he : e.events = ev :: rest) :
      EmbeddedStep env e (.sendEvent ok)
        { e with
            events := rest, stdout := if ok then e.stdout ++ [eventMsg ev] else e.stdout }

/-- A scheduler step inside the engine. -/
theorem schedStep_inv {e e' : Embedded B} {a : Action} (h : env.schedStep e a = some e') :
    ∃ s ev, env.step? e.sched a = some s ∧ e' = { e with sched := s, events := ev } := by
  obtain ⟨s, hs, h⟩ := Option.bind_eq_some_iff.mp h
  cases h
  exact ⟨s, _, hs, rfl⟩

/-- Inversion of a step of `Execute`: it is one of the constructors of `EmbeddedStep` about a
call. -/
theorem execStep_inv {e e' : Embedded B} {k : Nat} {c : ExecCall} {a : ExecAction}
    (hc : e.execs[k]? = some c) (h : env.execStep e k c a = some e') :
    EmbeddedStep env e (.exec k a) e' := by
  -- The place of the call is the guard of each of its steps.
  cases a with
  | register =>
      simp only [execStep, Option.ite_none_right_eq_some, Option.some.injEq] at h
      obtain ⟨hpc, rfl⟩ := h
      exact .register k c hc hpc
  | write err =>
      cases err with
      | none =>
          simp only [execStep, Option.ite_none_right_eq_some, Option.some.injEq] at h
          obtain ⟨hpc, rfl⟩ := h
          exact .write k c hc hpc
      | some err =>
          simp only [execStep, Option.ite_none_right_eq_some, Option.some.injEq] at h
          obtain ⟨hpc, rfl⟩ := h
          exact .writeFail k c err hc hpc
  | expire =>
      simp only [execStep, Option.ite_none_right_eq_some, Option.some.injEq] at h
      obtain ⟨⟨hpc, ht, hrun⟩, rfl⟩ := h
      exact .expire k c hc hpc ht hrun
  | ctxDone =>
      simp only [execStep, Option.ite_none_right_eq_some, Option.some.injEq] at h
      obtain ⟨⟨hpc, hdone⟩, rfl⟩ := h
      exact .ctxDone k c hc hpc hdone
  | result =>
      simp only [execStep] at h
      split at h
      · rename_i res hch
        obtain ⟨hpc, h⟩ := Option.ite_none_right_eq_some.mp h
        cases h
        exact .result k c res hc hpc hch
      · cases h
  | «return» =>
      simp only [execStep] at h
      split at h
      · rename_i res err hout
        obtain ⟨hpc, h⟩ := Option.ite_none_right_eq_some.mp h
        obtain ⟨e₁, h₁, h⟩ := Option.bind_eq_some_iff.mp h
        obtain ⟨s, ev, hs, rfl⟩ := schedStep_inv h₁
        cases h
        exact .return k c res err s ev hc hpc hout hs
      · cases h

/-- Inversion of a step of the pump: it is one of the constructors of `EmbeddedStep` about the
pump. -/
theorem pumpStep_inv {e e' : Embedded B} {a : PumpAction} (h : env.pumpStep e a = some e') :
    EmbeddedStep env e (.pump a) e' := by
  -- What a line leads to is decided by its type, and a lookup by the table.
  cases a with
  | line msg =>
      cases msg with
      | none =>
          obtain ⟨hp, h⟩ := Option.ite_none_right_eq_some.mp h
          cases h
          exact .skipLine hp
      | some msg =>
          obtain ⟨hp, h⟩ := Option.ite_none_right_eq_some.mp h
          split at h
          · rename_i ht
            cases h
            exact .readResult msg hp ht
          · rename_i ht
            split at h
            · obtain ⟨e₁, h₁, h⟩ := Option.bind_eq_some_iff.mp h
              obtain ⟨s, ev, hs, rfl⟩ := schedStep_inv h₁
              cases h
              exact .readCancel msg s ev hp ht hs
            · cases h
              exact .readOther msg hp ht
  | eof =>
      obtain ⟨hp, h⟩ := Option.ite_none_right_eq_some.mp h
      cases h
      exact .eof hp
  | lookup =>
      simp only [pumpStep] at h
      split at h
      · rename_i msg hp
        split at h
        · rename_i k hk
          cases h
          exact .found msg k hp hk
        · rename_i hk
          cases h
          exact .unknown msg hp hk
      · cases h
  | deliver =>
      simp only [pumpStep] at h
      split at h
      · rename_i k res hp
        split at h
        · rename_i c hc
          obtain ⟨hch, h⟩ := Option.ite_none_right_eq_some.mp h
          cases h
          exact .deliver k res c hp hc hch
        · cases h
      · cases h
  | check =>
      obtain ⟨hp, h⟩ := Option.ite_none_right_eq_some.mp h
      cases h
      exact .check hp

/-- Inversion of `embeddedStep?`. With it an invariant of the engine is proved without looking at
the code of the step. -/
theorem embedded_inv {e e' : Embedded B} {a : EmbeddedAction}
    (h : env.embeddedStep? e a = some e') : EmbeddedStep env e a e' := by
  -- Each party has its own inversion.
  cases a with
  | sched a =>
      obtain ⟨hi, h⟩ := Option.ite_none_right_eq_some.mp h
      obtain ⟨s, ev, hs, rfl⟩ := schedStep_inv h
      exact .sched a s ev hi hs
  | call i =>
      obtain ⟨g, hg, h⟩ := Option.bind_eq_some_iff.mp h
      obtain ⟨e₁, h₁, h⟩ := Option.bind_eq_some_iff.mp h
      obtain ⟨s, ev, hs, rfl⟩ := schedStep_inv h₁
      cases h
      exact .call i g s ev hg hs
  | exec k a =>
      obtain ⟨c, hc, h⟩ := Option.bind_eq_some_iff.mp h
      exact execStep_inv hc h
  | pump a => exact pumpStep_inv h
  | sendEvent ok =>
      simp only [embeddedStep?] at h
      split at h
      · cases h
      · rename_i ev rest he
        cases h
        exact .sendEvent ok ev rest he

/-- The scheduler inside the engine takes a step of its own or stands still. -/
theorem EmbeddedStep.sched_step {e e' : Embedded B} {a : EmbeddedAction}
    (h : EmbeddedStep env e a e') :
    e'.sched = e.sched ∨ ∃ b, env.step? e.sched b = some e'.sched := by
  cases h with
  | sched a s ev _ hs => exact Or.inr ⟨a, hs⟩
  | call i g s ev _ hs => exact Or.inr ⟨_, hs⟩
  | «return» k c res err s ev _ _ _ hs => exact Or.inr ⟨_, hs⟩
  | readCancel msg s ev _ _ hs => exact Or.inr ⟨_, hs⟩
  | _ => exact Or.inl rfl

/-- Once the run context is cancelled, it stays so in the engine. -/
theorem EmbeddedStep.cancelled_persist {e e' : Embedded B} {a : EmbeddedAction}
    (h : EmbeddedStep env e a e') (hc : e.sched.cancelled = true) : e'.sched.cancelled = true := by
  rcases h.sched_step with heq | ⟨b, hb⟩
  · rw [heq]
    exact hc
  · exact Proofs.cancelled_persist hb hc

/-- The scheduler inside the engine is in a reachable state of a run. -/
theorem sched_reachable {e : Embedded B} (h : env.embeddedSystem.Reachable e) :
    env.system.Reachable e.sched := by
  refine h.holds (P := fun e => env.system.Reachable e.sched) .init fun e a e' _ hr ha => ?_
  rcases (embedded_inv ha).sched_step with heq | ⟨b, hb⟩
  · rw [heq]
    exact hr
  · exact hr.step hb

end Orchestrator.Proofs
