import Orchestrator.Proofs.Completion
import Orchestrator.Proofs.Transport

/-!
# `Orchestrator.Proofs.TransportLiveness`: answered calls return, and the run with them

`Trace.Fair` is fairness to each party of a trace: the main goroutine, the task goroutines, the
calls of `Execute` and the pump. It says nothing about the client. `Answered` does: each
`skill_invocation` that was written is answered later, or the context of its call ends.

A call goes through its places in order, and each place is left (`Trace.leaves`). Only the `select`
depends on the client: the answer goes from the pump to the channel (`Trace.answer_arrives`), unless
the run is cancelled, which ends the wait without an answer (`Trace.cancelled_leaves`). So the
scheduler inside the trace is fair in the sense of `Orchestrator.Proofs.Completion`, and returns
(`Trace.returns`).

An answer has a way to go: it is read, looked up, held for a call, and put into its channel. At each
of these moments the pump can step, and a fair pump does. The room in the channel is where the
client matters a second time. A client that answers an id twice could block the pump with an answer
that nobody takes, and the answers behind it would never be read.

The last part says when nothing is left to do but to read (`Over`), and that no party takes a step
then, which is how a finite run is continued to a fair trace.
-/

set_option autoImplicit false

namespace Orchestrator.Proofs

open Orchestrator.Lib Orchestrator.Engine Orchestrator.Engine.Env

variable {B : Type} {env : Env B}

/-! ### Fairness -/

/-- The call can take a step. -/
def ExecReady (e : Embedded B) (c : ExecCall) : Prop :=
  c.pc = .select → c.ch ≠ none ∨ CtxEnded e c

/-- The pump has room for what it holds. -/
def SendReady (e : Embedded B) : Prop :=
  ∃ k res c, e.pump = .deliver k res ∧ e.execs[k]? = some c ∧ c.ch = none

/-- A step of a task goroutine that does not end its call of `Execute`. -/
def ownStep (i : Nat) : Option EmbeddedAction → Prop
  | some (.sched (.task j _)) => j = i
  | some (.call j) => j = i
  | _ => False

namespace Trace

variable (t : Trace env)

/-- What a run relies on, apart from the client: no party that can step for ever is passed over for
ever, and a wait for a token ends. -/
structure Fair : Prop where
  /-- Each call of a limiter returns. -/
  limiter : ∀ (n i : Nat) (g : Goroutine), (t.state n).sched.gos[i]? = some g →
    inLimiter g.pc = true →
    ∃ (m : Nat) (g' : Goroutine), n ≤ m ∧ (t.state m).sched.gos[i]? = some g' ∧
      stage g'.pc ≠ stage g.pc
  main : Fairly (fun n => (env.mainStep (t.state n).sched).isSome = true)
    fun n => t.label n = some (.sched .main)
  task : ∀ i : Nat, Fairly (fun n => ∃ g a, (t.state n).sched.gos[i]? = some g ∧ g.pc ≠ .exec ∧
    (env.step? (t.state n).sched (.task i a)).isSome = true) fun n => ownStep i (t.label n)
  exec : ∀ k : Nat, Fairly (fun n => ∃ c, (t.state n).execs[k]? = some c ∧ c.pc ≠ .returned ∧
    ExecReady (t.state n) c) fun n => movesCall k (t.label n)
  lookup : Fairly (fun n => ∃ msg, (t.state n).pump = .lookup msg)
    fun n => t.label n = some (.pump .lookup)
  deliver : Fairly (fun n => SendReady (t.state n)) fun n => t.label n = some (.pump .deliver)

/-- The client answers each invocation that was written, unless its context ends. It may answer in
any order and at any time. -/
def Answered : Prop :=
  ∀ n k : Nat, t.label n = some (.exec k (.write none)) → ∃ m c, n < m ∧
    (t.state m).execs[k]? = some c ∧ (CtxEnded (t.state m) c ∨
      ∃ msg : InMsg, t.label m = some (.pump (.line (some msg))) ∧ msg.type = "skill_result" ∧
        msg.invocationID = c.inv.invocationID)

/-! ### The way of a call -/

/-- A call has got to a place. -/
def Reached (k r : Nat) (e : Embedded B) : Prop :=
  ∃ c, e.execs[k]? = some c ∧ r ≤ callRank c.pc

/-- A call is at a place. -/
def At (k : Nat) (pc : ExecPc) (e : Embedded B) : Prop :=
  ∃ c, e.execs[k]? = some c ∧ c.pc = pc

end Trace

namespace Trace

variable {t : Trace env}

/-- A call that has got to a place has got there for good. -/
theorem reached_stays {k r n m : Nat} (hnm : n ≤ m) (h : Reached k r (t.state n)) :
    Reached k r (t.state m) := by
  refine stays_of_step (P := Reached k r) (fun n hn => ?_) hnm h
  obtain ⟨c, hc, hr⟩ := hn
  obtain ⟨c', hc', hmove⟩ := (t.next n).callMove hc
  exact ⟨c', hc', hr.trans hmove.rank_le⟩

/-- A call that can step leaves its place. -/
theorem ready_leaves (hfair : t.Fair) (k : Nat) (pc : ExecPc) (hpc : pc ≠ .returned) :
    LeadsTo t.state (fun e => ∃ c, e.execs[k]? = some c ∧ c.pc = pc ∧ ExecReady e c)
      (Reached k (callRank pc + 1)) := by
  refine .of_fair (hfair.exec k) (fun n hn => ?_) (fun n hn => ?_) fun n hn hmoves => ?_
  · obtain ⟨c, hc, rfl, hready⟩ := hn
    obtain ⟨c', hc', hmove⟩ := (t.next n).callMove hc
    by_cases hm : movesCall k (t.label n)
    · exact .inr ⟨c', hc', hmove.moves hm⟩
    · have hstays := hmove.stays hm
      refine .inl ⟨c', hc', hstays, fun hsel => ?_⟩
      exact (hready (hstays ▸ hsel)).imp (hmove.kept hstays) (CtxEnded.step (t.next n) hmove)
  · obtain ⟨c, hc, rfl, hready⟩ := hn
    exact ⟨c, hc, hpc, hready⟩
  · obtain ⟨c, hc, rfl, hready⟩ := hn
    obtain ⟨c', hc', hmove⟩ := (t.next n).callMove hc
    exact ⟨c', hc', hmove.moves hmoves⟩

/-- A call at its `select` whose context has ended leaves it. -/
theorem ended_leaves (hfair : t.Fair) (k : Nat) :
    LeadsTo t.state (fun e => ∃ c, e.execs[k]? = some c ∧ 2 ≤ callRank c.pc ∧ CtxEnded e c)
      (Reached k 3) := by
  rintro n ⟨c, hc, hr, hended⟩
  by_cases hpc : c.pc = .select
  · exact ready_leaves hfair k .select (by simp) n ⟨c, hc, hpc, fun _ => .inr hended⟩
  · refine ⟨n, le_rfl, c, hc, ?_⟩
    cases hp : c.pc <;> simp_all [callRank]

/-- The result that the pump holds for a call gets into its channel, and the call leaves its
`select`. -/
theorem delivery_leaves (hfair : t.Fair) (hinv : ∀ n, TransportInv env (t.state n))
    (honce : ∀ n, Once (t.state n)) (k : Nat) (res : Result) :
    LeadsTo t.state (fun e => e.pump = .deliver k res ∧ At k .select e) (Reached k 3) := by
  refine LeadsTo.trans (Q := fun e =>
    (∃ c, e.execs[k]? = some c ∧ c.pc = .select ∧ ExecReady e c) ∨ Reached k 3 e) ?_
    ((ready_leaves hfair k .select (by simp)).or (.of_imp fun _ => id))
  -- The pump goes on holding the result until it sends it, unless the call leaves its select
  -- before.
  have hnext : ∀ n, (t.state n).pump = .deliver k res ∧ At k .select (t.state n) →
      (t.label n ≠ some (.pump .deliver) ∧ (t.state (n + 1)).pump = .deliver k res ∧
        At k .select (t.state (n + 1))) ∨
      (∃ c, (t.state (n + 1)).execs[k]? = some c ∧ c.pc = .select ∧
        ExecReady (t.state (n + 1)) c) ∨ Reached k 3 (t.state (n + 1)) := by
    rintro n ⟨hp, c, hc, hpc⟩
    rcases (t.next n).delivery hp with ⟨hp', hne⟩ | ⟨d, hd, hd'⟩
    · obtain ⟨c', hc', hmove⟩ := (t.next n).callMove hc
      by_cases hm : movesCall k (t.label n)
      · have hrank := hmove.moves hm
        rw [hpc] at hrank
        exact .inr (.inr ⟨c', hc', hrank⟩)
      · exact .inl ⟨hne, hp', c', hc', (hmove.stays hm).trans hpc⟩
    · rw [hc] at hd
      cases hd
      exact .inr (.inl ⟨_, hd', hpc, fun _ => .inl (Option.some_ne_none _)⟩)
  refine .of_fair hfair.deliver (fun n hn => ?_) (fun n hn => ?_) fun n hn hlabel => ?_
  · exact (hnext n hn).imp_left (·.2)
  · obtain ⟨hp, c, hc, -⟩ := hn
    exact ⟨k, res, c, hp, hc, (honce n).room (hinv n) hp hc⟩
  · exact (hnext n hn).resolve_left fun h => h.1 hlabel

/-- The message that the pump looks up is that of a call at its `select`. -/
def Fetched (k : Nat) (msg : InMsg) (e : Embedded B) : Prop :=
  e.pump = .lookup msg ∧
    ∃ c, e.execs[k]? = some c ∧ c.pc = .select ∧ c.inv.invocationID = msg.invocationID

/-- The answer to a call at its `select` gets to it, and the call leaves its `select`. -/
theorem answer_arrives (hfair : t.Fair) (hinv : ∀ n, TransportInv env (t.state n))
    (honce : ∀ n, Once (t.state n)) (k : Nat) (msg : InMsg) :
    LeadsTo t.state (Fetched k msg) (Reached k 3) := by
  refine LeadsTo.trans (Q := fun e =>
    (e.pump = .deliver k msg.toResult ∧ At k .select e) ∨ Reached k 3 e) ?_
    ((delivery_leaves hfair hinv honce k msg.toResult).or (.of_imp fun _ => id))
  -- The pump goes on holding the line until it looks the call up, and the call stays in the table
  -- while it waits.
  have hnext : ∀ n, Fetched k msg (t.state n) →
      (t.label n ≠ some (.pump .lookup) ∧ Fetched k msg (t.state (n + 1))) ∨
      ((t.state (n + 1)).pump = .deliver k msg.toResult ∧ At k .select (t.state (n + 1))) ∨
        Reached k 3 (t.state (n + 1)) := by
    rintro n ⟨hp, c, hc, hpc, hid⟩
    have hk : (t.state n).pending.get? msg.invocationID = some k :=
      ((hinv n).wired.table _ _).mpr ⟨c, hc, by simp [registered, hpc], hid⟩
    obtain ⟨c', hc', hmove⟩ := (t.next n).callMove hc
    rcases (t.next n).lookup hp hk with ⟨hp', hne⟩ | ⟨hp', hexecs⟩
    · by_cases hm : movesCall k (t.label n)
      · have hrank := hmove.moves hm
        rw [hpc] at hrank
        exact .inr (.inr ⟨c', hc', hrank⟩)
      · exact .inl ⟨hne, hp', c', hc', (hmove.stays hm).trans hpc, by rw [hmove.inv, hid]⟩
    · exact .inr (.inl ⟨hp', c, by rw [hexecs, hc], hpc⟩)
  refine .of_fair hfair.lookup (fun n hn => ?_) (fun n hn => ⟨msg, hn.1⟩) fun n hn hlabel => ?_
  · exact (hnext n hn).imp_left (·.2)
  · exact (hnext n hn).resolve_left fun h => h.1 hlabel

/-- A call at its `select` wrote its line before. -/
theorem written (k n : Nat) (h : At k .select (t.state n)) :
    ∃ j, j < n ∧ t.label j = some (.exec k (.write none)) ∧ At k .select (t.state (j + 1)) := by
  have h0 : ¬ At k .select (t.state 0) := by
    rintro ⟨c, hc, -⟩
    rw [t.start] at hc
    cases hc
  -- The last step before which the call was not yet in its select. This step took it there.
  obtain ⟨j, -, hj, hbefore, hafter⟩ := exists_last (P := fun e => ¬ At k .select e)
    (Nat.zero_le n) h0 (not_not.mpr h)
  obtain ⟨c', hc', hpc'⟩ := not_not.mp hafter
  refine ⟨j, hj, ?_, c', hc', hpc'⟩
  by_cases hk : k < (t.state j).execs.length
  · have hc : (t.state j).execs[k]? = some (t.state j).execs[k] := List.getElem?_eq_getElem hk
    obtain ⟨d, hd, hmove⟩ := (t.next j).callMove hc
    rw [hc'] at hd
    cases hd
    exact hmove.selects (fun hpc => hbefore ⟨_, hc, hpc⟩) hpc'
  · have hnew := ((t.next j).new_call (by omega) hc').1
    rw [hpc'] at hnew
    cases hnew

/-- An answered call leaves its `select`. -/
theorem answered_leaves (hfair : t.Fair) (hinv : ∀ n, TransportInv env (t.state n))
    (honce : ∀ n, Once (t.state n)) (hanswered : t.Answered) (k : Nat) :
    LeadsTo t.state (At k .select) (Reached k 3) := by
  intro n hn
  obtain ⟨j, hj, hlabel, d, hd, hdpc⟩ := written k n hn
  obtain ⟨m, c, hm, hc, hcase⟩ := hanswered j k hlabel
  -- What the call comes to after the answer, it comes to after `n` as well.
  suffices hsome : ∃ m, Reached k 3 (t.state m) by
    obtain ⟨m', hm'⟩ := hsome
    exact ⟨max n m', le_max_left _ _, reached_stays (le_max_right _ _) hm'⟩
  have hreached : Reached k 2 (t.state (j + 1)) := ⟨d, hd, by simp [hdpc, callRank]⟩
  obtain ⟨c₀, hc₀, hrank⟩ := reached_stays (show j + 1 ≤ m by omega) hreached
  rw [hc] at hc₀
  cases hc₀
  rcases hcase with hended | ⟨msg, hmsg, htype, hid⟩
  · obtain ⟨m', -, h⟩ := ended_leaves hfair k m ⟨c, hc, hrank, hended⟩
    exact ⟨m', h⟩
  · obtain ⟨c', hc', hmove⟩ := (t.next m).callMove hc
    by_cases hpc : c'.pc = .select
    · have hpump : (t.state (m + 1)).pump = .lookup msg := (t.next m).reads hmsg htype
      obtain ⟨m', -, h⟩ := answer_arrives hfair hinv honce k msg (m + 1)
        ⟨hpump, c', hc', hpc, by rw [hmove.inv, hid]⟩
      exact ⟨m', h⟩
    · refine ⟨m + 1, c', hc', ?_⟩
      have := hrank.trans hmove.rank_le
      cases hp : c'.pc <;> simp_all [callRank]

/-- A call of a cancelled run leaves its `select`, answered or not. -/
theorem cancelled_leaves (hfair : t.Fair) {n : Nat} (hn : (t.state n).sched.cancelled = true)
    (k : Nat) : LeadsTo t.state (At k .select) (Reached k 3) := by
  rintro m ⟨c, hc, hpc⟩
  have hcancelled : (t.state (max m n)).sched.cancelled = true :=
    stays_of_step (P := fun e : Embedded B => e.sched.cancelled = true) (fun j hj => by
      obtain ⟨b, hb⟩ := (t.next j).schedMove
      exact cancelled_persist hb.step hj) (le_max_right m n) hn
  have hreached : Reached k 2 (t.state m) := ⟨c, hc, by simp [hpc, callRank]⟩
  obtain ⟨d, hd, hrank⟩ := reached_stays (le_max_left m n) hreached
  obtain ⟨j, hj, h⟩ := ended_leaves hfair k (max m n) ⟨d, hd, hrank, .inr hcancelled⟩
  exact ⟨j, (le_max_left m n).trans hj, h⟩

/-- Each place is left, when the `select` is. -/
theorem leaves (hfair : t.Fair) (k : Nat) (hselect : LeadsTo t.state (At k .select) (Reached k 3))
    (r : Nat) (hr : r < 4) :
    LeadsTo t.state (Reached k r) (Reached k (r + 1)) := by
  rintro n ⟨c, hc, hle⟩
  by_cases hlt : r < callRank c.pc
  · exact ⟨n, le_rfl, c, hc, hlt⟩
  · obtain rfl : r = callRank c.pc := by omega
    by_cases hsel : c.pc = .select
    · rw [hsel]
      exact hselect n ⟨c, hc, hsel⟩
    · refine ready_leaves hfair k c.pc ?_ n ⟨c, hc, rfl, fun h => absurd h hsel⟩
      intro hret
      simp [hret, callRank] at hr

/-- A call that leaves its `select` returns. -/
theorem call_returns (hfair : t.Fair) (k : Nat)
    (hselect : LeadsTo t.state (At k .select) (Reached k 3)) :
    LeadsTo t.state (Reached k 0) (Reached k 4) :=
  have h := leaves hfair k hselect
  (((h 0 (by omega)).trans (h 1 (by omega))).trans (h 2 (by omega))).trans (h 3 (by omega))

end Trace

/-! ### The scheduler inside a trace -/

namespace Trace

variable {t : Trace env}

/-- The execution of the scheduler inside a trace. -/
theorem exists_execution (t : Trace env) : ∃ e : env.system.Execution,
    ∀ n, e.state n = (t.state n).sched ∧
      SchedMove env (t.state n) (t.state (n + 1)) (t.label n) (e.label n) := by
  choose b hb using fun n => (t.next n).schedMove
  exact ⟨⟨fun n => (t.state n).sched, b, by rw [t.start]; rfl, fun n => (hb n).step⟩,
    fun n => ⟨rfl, hb n⟩⟩

/-- A goroutine leaves `Execute`, by the return of its call. -/
theorem execute_returns (hfair : t.Fair) (hinv : ∀ n, TransportInv env (t.state n))
    (hselect : ∀ k, LeadsTo t.state (At k .select) (Reached k 3)) {n i : Nat} {g : Goroutine}
    (hg : (t.state n).sched.gos[i]? = some g) (hpc : g.pc = .exec) :
    ∃ (m k : Nat) (c : ExecCall), n ≤ m ∧ t.label m = some (.exec k .return) ∧
      (t.state m).execs[k]? = some c ∧ c.go = i := by
  obtain ⟨k, c, hc, hgo, hlive⟩ := (hinv n).owned i g hg hpc
  obtain ⟨m, hm, d, hd, hdr⟩ := call_returns hfair k (hselect k) n ⟨c, hc, Nat.zero_le _⟩
  have hend : ¬ ∃ c, (t.state m).execs[k]? = some c ∧ c.go = i ∧ c.pc ≠ .returned := by
    rintro ⟨c', hc', -, hlive'⟩
    rw [hd] at hc'
    cases hc'
    cases hp : d.pc <;> simp_all [callRank]
  obtain ⟨j, hj, -, ⟨x, hx, hxgo, hxlive⟩, hafter⟩ := exists_last
    (P := fun e : Embedded B => ∃ c, e.execs[k]? = some c ∧ c.go = i ∧ c.pc ≠ .returned) hm
    ⟨c, hc, hgo, hlive⟩ hend
  obtain ⟨x', hx', hmove⟩ := (t.next j).callMove hx
  refine ⟨j, k, x, hj, hmove.returned hxlive ?_, hx, hxgo⟩
  by_contra hxlive'
  exact hafter ⟨x', hx', hmove.go.trans hxgo, hxlive'⟩

/-- The scheduler inside a fair trace whose calls leave their `select` is fair. -/
theorem fair_execution (hfair : t.Fair) (hinv : ∀ n, TransportInv env (t.state n))
    (hselect : ∀ k, LeadsTo t.state (At k .select) (Reached k 3)) {e : env.system.Execution}
    (he : ∀ n, e.state n = (t.state n).sched ∧
      SchedMove env (t.state n) (t.state (n + 1)) (t.label n) (e.label n)) : Proofs.Fair e := by
  -- The return of a call is a step of its goroutine.
  have hret : ∀ {n i : Nat} {g : Goroutine}, (e.state n).gos[i]? = some g → g.pc = .exec →
      ∃ m res err, n ≤ m ∧ e.label m = .task i (.ret res err) := by
    intro n i g hg hpc
    obtain ⟨m, k, c, hm, hlabel, hc, rfl⟩ :=
      execute_returns hfair hinv hselect ((he n).1 ▸ hg) hpc
    obtain ⟨res, err, hstep⟩ := (he m).2.ret k c hlabel hc
    exact ⟨m, res, err, hm, hstep⟩
  refine ⟨fun n i g hg hcall => ?_, fun n i hen => ?_, fun n hen => ?_⟩
  · by_cases hlim : inLimiter g.pc = true
    · obtain ⟨m, g', hm, hg', hne⟩ := hfair.limiter n i g ((he n).1 ▸ hg) hlim
      exact ⟨m, g', hm, (he m).1.symm ▸ hg', hne⟩
    · have hpc : g.pc = .exec := by simpa [inCall, hlim] using hcall
      obtain ⟨m, res, err, hm, hlabel⟩ := hret hg hpc
      have hstep := e.next m
      have hsome : ((e.state (m + 1)).gos[i]?).isSome = true :=
        e.stays (P := fun s => (s.gos[i]?).isSome = true) (fun s a s' _ hs ha => gos_persist ha hs)
          (show n ≤ m + 1 by omega) (by simp [hg])
      obtain ⟨g', hg'⟩ := Option.isSome_iff_exists.mp hsome
      refine ⟨m + 1, g', by omega, hg', fun hst => ?_⟩
      have hpc' : g'.pc = .exec := by
        rw [hpc] at hst
        exact pc_of_stage hst rfl
      rcases at_exec hstep hg' hpc' with h | ⟨-, h⟩
      · rw [hlabel] at h
        cases h
      · exact h _ hlabel
  · by_cases hexec : ∃ m g, n ≤ m ∧ (e.state m).gos[i]? = some g ∧ g.pc = .exec
    · obtain ⟨m, g, hm, hg, hpc⟩ := hexec
      obtain ⟨m', res, err, hm', hlabel⟩ := hret hg hpc
      exact ⟨m', _, hm.trans hm', hlabel⟩
    · obtain ⟨m, hm, htaken⟩ := hfair.task i n fun m hm => by
        obtain ⟨a, ha⟩ := hen m hm
        obtain ⟨s', hs'⟩ := Option.isSome_iff_exists.mp ha
        obtain ⟨g, hg, -⟩ := Option.bind_eq_some_iff.mp hs'
        refine ⟨g, a, (he m).1 ▸ hg, fun hpc => hexec ⟨m, g, hm, hg, hpc⟩, ?_⟩
        rw [← (he m).1]
        exact ha
      cases hl : t.label m with
      | none =>
          rw [hl] at htaken
          cases htaken
      | some b =>
          rw [hl] at htaken
          cases b with
          | sched x =>
              cases x with
              | task j a =>
                  obtain rfl : j = i := htaken
                  exact ⟨m, a, hm, (he m).2.internal _ hl⟩
              | _ => cases htaken
          | call j =>
              obtain rfl : j = i := htaken
              exact ⟨m, .call, hm, (he m).2.call _ hl⟩
          | _ => cases htaken
  · obtain ⟨m, hm, hlabel⟩ := hfair.main n fun m hm => by
      show (env.mainStep (t.state m).sched).isSome = true
      rw [← (he m).1]
      exact hen m hm
    exact ⟨m, hm, (he m).2.internal _ hlabel⟩

/-- The run has returned, and left no call and no channel behind. This is where a fair run gets
to. -/
structure Finished (e : Embedded B) : Prop where
  report : e.sched.report?.isSome = true
  calls : ∀ c ∈ e.execs, c.pc = .returned
  pending : ∀ id, e.pending.get? id = none

/-- The answers of the client end every call: it answers each, and none twice. -/
structure Served (t : Trace env) : Prop where
  once : ∀ n, AnswersOnce (t.state n) (t.label n)
  answered : t.Answered

/-- A fair trace whose calls are answered, or whose run is cancelled, reaches its report, and by
then every call has returned. -/
theorem returns (hacc : Accepted env.wf) (hpar : 1 ≤ env.wf.maxParallel) (hfair : t.Fair)
    (h : t.Served ∨ ∃ n, (t.state n).sched.cancelled = true) : ∃ n, Finished (t.state n) := by
  have hinv := t.inv hacc
  -- Either the call is answered or the run is cancelled, and each ends the select.
  have hselect : ∀ k, LeadsTo t.state (At k .select) (Reached k 3) := by
    intro k
    rcases h with h | ⟨n, hn⟩
    · exact answered_leaves hfair hinv (t.once hacc h.once) h.answered k
    · exact cancelled_leaves hfair hn k
  obtain ⟨e, he⟩ := t.exists_execution
  obtain ⟨n, hn⟩ := fair_returns hacc hpar e (fair_execution hfair hinv hselect he)
  have hdone := ((reachable_onCourse hacc (e.reachable n)).none_running hn).1
  rw [(he n).1] at hn hdone
  -- A call that has not returned belongs to a goroutine in `Execute`, and all of them are done.
  have hcalls : ∀ c ∈ (t.state n).execs, c.pc = .returned := by
    intro c hc
    by_contra hlive
    obtain ⟨g, hg, hok⟩ := (hinv n).calls.ok c hc
    have := hdone g (List.mem_of_getElem? hg)
    rw [(hok.live hlive).1] at this
    cases this
  refine ⟨n, hn, hcalls, fun id => ?_⟩
  cases hk : (t.state n).pending.get? id with
  | none => rfl
  | some k =>
      obtain ⟨c, hc, hreg, -⟩ := ((hinv n).wired.table id k).mp hk
      simp [registered, hcalls c (List.mem_of_getElem? hc)] at hreg

end Trace

/-! ### The end -/

/-- Nothing is left to do but to read. The pump may wait for a line that never comes. -/
structure Over (e : Embedded B) : Prop where
  report : e.sched.report?.isSome = true
  gos : ∀ g ∈ e.sched.gos, g.pc = .done
  calls : ∀ c ∈ e.execs, c.pc = .returned
  pump : e.pump = .scan

/-- A step that no party of the run takes. Such steps continue a finite run to a fair trace. -/
structure Stuck (a : Option EmbeddedAction) : Prop where
  main : a ≠ some (.sched .main)
  task : ∀ i, ¬ ownStep i a
  exec : ∀ k, ¬ movesCall k a
  lookup : a ≠ some (.pump .lookup)
  deliver : a ≠ some (.pump .deliver)
  check : a ≠ some (.pump .check)

/-- No party takes a step at the end. -/
theorem Over.stuck {e e' : Embedded B} {a : Option EmbeddedAction} (h : Over e)
    (hs : TransportStep env e a e') : Stuck a := by
  -- A goroutine that takes a step is not done.
  have hnone : ∀ {j : Nat} {b : TaskAction} {s : State B},
      env.step? e.sched (.task j b) ≠ some s := by
    intro j b s hs
    obtain ⟨g, hg, ht⟩ := Option.bind_eq_some_iff.mp hs
    obtain ⟨g', hgs⟩ := (taskStep_inv ht).goStep
    exact hgs.not_done (h.gos g (List.mem_of_getElem? hg))
  obtain ⟨b, hb⟩ := hs.schedMove
  refine ⟨?_, fun i hown => ?_, fun k hmoves => ?_, ?_, ?_, ?_⟩
  · rintro rfl
    have hstep := hb.step
    rw [hb.internal _ rfl] at hstep
    obtain ⟨rep, hrep⟩ := Option.isSome_iff_exists.mp h.report
    rw [step?, mainStep, report?_eq_some.mp hrep] at hstep
    cases hstep
  · have hstep := hb.step
    cases a with
    | none => cases hown
    | some a =>
        cases a with
        | sched x =>
            cases x with
            | task j b' =>
                rw [hb.internal _ rfl] at hstep
                exact hnone hstep
            | _ => cases hown
        | call j =>
            rw [hb.call _ rfl] at hstep
            exact hnone hstep
        | _ => cases hown
  · -- A call that has returned gets no further.
    cases hc : e.execs[k]? with
    | none =>
        obtain ⟨b', -, rfl⟩ := hmoves
        cases hs with
        | engine _ _ hs =>
            cases hs with
            | register _ d hd _ | write _ d hd _ | writeFail _ d _ hd _ | expire _ d hd _ _ _
            | ctxDone _ d hd _ _ | result _ d _ hd _ _ | «return» _ d _ _ _ _ hd _ _ _ =>
                cases hc.symm.trans hd
        | write _ d hd _ | writeFail _ d _ hd _ | ctxDone _ d _ hd _ _ => cases hc.symm.trans hd
    | some c =>
        obtain ⟨c', hc', hmove⟩ := hs.callMove hc
        have hrank := hmove.moves hmoves
        rw [h.calls c (List.mem_of_getElem? hc)] at hrank
        cases hp : c'.pc <;> simp [hp, callRank] at hrank
  · rintro rfl
    cases hs with
    | engine _ _ hs =>
        cases hs with
        | found _ _ hp _ => cases h.pump.symm.trans hp
        | unknown _ hp _ => cases h.pump.symm.trans hp
  · rintro rfl
    cases hs with
    | engine _ _ hs =>
        cases hs with
        | deliver _ _ _ hp _ _ => cases h.pump.symm.trans hp
    | deliver _ _ _ hp _ _ _ => cases h.pump.symm.trans hp
  · rintro rfl
    cases hs with
    | engine _ _ hs =>
        cases hs with
        | check hp => cases h.pump.symm.trans hp

end Orchestrator.Proofs
