import Mathlib.Data.Option.Basic
import Mathlib.Data.List.Basic
import Mathlib.Order.WellFounded

/-!
# `Orchestrator.Lib.System`: systems that take labelled steps

A `System σ α` has one initial state and a partial step function. The label of a step holds every
choice the step makes, so a run is a list of labels and `run?` computes it. Concurrency is the
choice of the label: which party steps, what a peer sends, when time passes.

* `Reachable.holds` is the invariant rule: a property of the initial state that every step from a
  reachable state keeps holds in every reachable state. `ReachableBy.holds` is the same for runs
  whose steps all meet a condition.
* `ExactFor` says that a condition on the steps is the exact one for a property of runs: with it the
  property stays, without it the property is lost. `meets_iff` is the same for a property of the end
  of one run.
* `guard` makes the condition a part of the system, so that a run which meets it can be computed.
* `observe` is what the steps of a run show, and `observe_induct` the invariant rule for a state
  together with it.
* `Execution` is an infinite run. `Execution.rank_eventually_const` is the ranking rule: a
  natural-number rank that no step raises is constant from some point on, so a label that always
  lowers it stops occurring. `Execution.eventually_quiet` is the form a proof of termination uses.
* An execution that shows how a run can go on for ever is put together from a finite run and a
  schedule of labels behind it (`exists_schedule`, `exists_continuation`).
-/

set_option autoImplicit false

namespace Orchestrator.Lib

universe u v w

/-- A system with labelled steps. A label is enabled in a state when `step?` answers. The step
function is deterministic: all that may happen otherwise is in the label. -/
structure System (σ : Type u) (α : Type v) where
  /-- The initial state. -/
  init : σ
  /-- The step with a given label. -/
  step? : σ → α → Option σ

namespace System

variable {σ : Type u} {α : Type v} (M : System σ α)

/-- The state after a list of labels. -/
def runFrom? (s : σ) : List α → Option σ
  | [] => some s
  | a :: as => (M.step? s a).bind (fun s' => runFrom? s' as)

/-- The state after a list of labels, from the initial state. -/
def run? (as : List α) : Option σ := M.runFrom? M.init as

/-- Some list of labels leads to the state. -/
inductive Reachable : σ → Prop
  | init : Reachable M.init
  | step {s s' : σ} {a : α} : Reachable s → M.step? s a = some s' → Reachable s'

variable {M}

/-- A state that a list of labels leads to from a reachable state is reachable. -/
theorem Reachable.runFrom {s s' : σ} (hs : M.Reachable s) {as : List α}
    (h : M.runFrom? s as = some s') : M.Reachable s' := by
  induction as generalizing s with
  | nil =>
      cases h
      exact hs
  | cons a as ih =>
      obtain ⟨t, ht, hrest⟩ := Option.bind_eq_some_iff.mp h
      exact ih (hs.step ht) hrest

/-- A state that a list of labels leads to is reachable. -/
theorem reachable_of_run {s : σ} {as : List α} (h : M.run? as = some s) : M.Reachable s :=
  Reachable.init.runFrom h

/-- A run whose last state passes a test leads to a reachable state that passes it. -/
theorem exists_of_run {as : List α} {p : σ → Bool} (h : (M.run? as).any p = true) :
    ∃ s, M.Reachable s ∧ p s = true := by
  obtain ⟨s, hs, hp⟩ := (Option.any_eq_true p (M.run? as)).mp h
  exact ⟨s, reachable_of_run hs, hp⟩

/-- The invariant rule. The step may use that the state before it is reachable, so invariants can
build on one another. -/
theorem Reachable.holds {P : σ → Prop} (hinit : P M.init)
    (hstep : ∀ s a s', M.Reachable s → P s → M.step? s a = some s' → P s')
    {s : σ} (hs : M.Reachable s) : P s := by
  induction hs with
  | init => exact hinit
  | step hs ha ih => exact hstep _ _ _ hs ih ha

/-- Some list of labels leads to the state, and every step on the way meets the condition
`P` on its source and its label. -/
inductive ReachableBy (M : System σ α) (P : σ → α → Prop) : σ → Prop
  | init : ReachableBy M P M.init
  | step {s s' : σ} {a : α} :
      ReachableBy M P s → P s a → M.step? s a = some s' → ReachableBy M P s'

/-- A run whose steps meet a condition is a run. -/
theorem ReachableBy.reachable {P : σ → α → Prop} {s : σ} (hs : M.ReachableBy P s) :
    M.Reachable s := by
  induction hs with
  | init => exact .init
  | step _ _ ha ih => exact ih.step ha

/-- A weaker condition on the steps. -/
theorem ReachableBy.mono {P P' : σ → α → Prop} (h : ∀ s a, P s a → P' s a) {s : σ}
    (hs : M.ReachableBy P s) : M.ReachableBy P' s := by
  induction hs with
  | init => exact .init
  | step _ hp ha ih => exact ih.step (h _ _ hp) ha

/-- The invariant rule for runs whose steps meet a condition. -/
theorem ReachableBy.holds {P : σ → α → Prop} {Q : σ → Prop} (hinit : Q M.init)
    (hstep : ∀ s a s', M.Reachable s → Q s → P s a → M.step? s a = some s' → Q s')
    {s : σ} (hs : M.ReachableBy P s) : Q s := by
  induction hs with
  | init => exact hinit
  | step hs hp ha ih => exact hstep _ _ _ hs.reachable ih hp ha

/-- The system with the steps that pass a check. -/
def guard (M : System σ α) (q : σ → α → Bool) : System σ α where
  init := M.init
  step? s a := if q s a then M.step? s a else none

/-- A run of the guarded system is a run whose steps meet the condition the check stands
for. -/
theorem ReachableBy.of_guard {P : σ → α → Prop} {q : σ → α → Bool}
    (hq : ∀ s a, q s a = true → P s a) {s : σ} (hs : (M.guard q).Reachable s) :
    M.ReachableBy P s := by
  induction hs with
  | init => exact .init
  | step _ ha ih =>
      obtain ⟨hcheck, ha⟩ := Option.ite_none_right_eq_some.mp ha
      exact ih.step (hq _ _ hcheck) ha

/-- Every step of a run meets a condition on its source and its label. -/
def Meets (M : System σ α) (P : σ → α → Prop) : σ → List α → Prop
  | _, [] => True
  | s, a :: as => P s a ∧ ∀ s', M.step? s a = some s' → Meets M P s' as

/-- A property that a step keeps when it meets the condition and loses otherwise holds at the end
of the runs that start with it and whose steps all meet the condition. -/
theorem meets_iff {P : σ → α → Prop} {Q : σ → Prop}
    (hstep : ∀ s a s', M.Reachable s → M.step? s a = some s' → (Q s' ↔ Q s ∧ P s a))
    {s t : σ} (hs : M.Reachable s) {as : List α} (hrun : M.runFrom? s as = some t) :
    Q t ↔ Q s ∧ M.Meets P s as := by
  induction as generalizing s with
  | nil =>
      cases hrun
      exact (and_iff_left trivial).symm
  | cons a as ih =>
      obtain ⟨s', ha, hrest⟩ := Option.bind_eq_some_iff.mp hrun
      have hmeets : M.Meets P s (a :: as) ↔ P s a ∧ M.Meets P s' as :=
        and_congr_right fun _ => ⟨fun h => h s' ha, fun h s'' hs'' => by
          rw [ha] at hs''
          cases hs''
          exact h⟩
      rw [ih (hs.step ha) hrest, hstep s a s' hs ha, hmeets, and_assoc]

/-- The steps that meet `P` keep `Q` over whole runs, and any other step loses it. -/
structure ExactFor (M : System σ α) (P : σ → α → Prop) (Q : σ → Prop) : Prop where
  holds : ∀ s, M.ReachableBy P s → Q s
  breaks : ∀ s a s', M.Reachable s → M.step? s a = some s' → ¬ P s a → ¬ Q s'

/-- The steps of a run of the guarded system all pass the check. -/
theorem meets_of_guard {q : σ → α → Bool} {s t : σ} {as : List α}
    (h : (M.guard q).runFrom? s as = some t) :
    M.runFrom? s as = some t ∧ M.Meets (fun s a => q s a = true) s as := by
  induction as generalizing s with
  | nil => exact ⟨h, trivial⟩
  | cons a as ih =>
      obtain ⟨s', ha, hrest⟩ := Option.bind_eq_some_iff.mp h
      obtain ⟨hcheck, ha⟩ := Option.ite_none_right_eq_some.mp ha
      obtain ⟨hrun, hmeets⟩ := ih hrest
      refine ⟨Option.bind_eq_some_iff.mpr ⟨s', ha, hrun⟩, hcheck, fun s'' hs'' => ?_⟩
      rw [ha] at hs''
      cases hs''
      exact hmeets

/-- What the steps of a run show, in order. A step that shows nothing adds nothing, and a label that
is not enabled ends the list. -/
def observe (M : System σ α) {β : Type w} (obs : σ → α → Option β) : σ → List α → List β
  | _, [] => []
  | s, a :: as =>
    (obs s a).toList ++ ((M.step? s a).map (fun s' => observe M obs s' as)).getD []

/-- The invariant rule for a state together with what the run up to it has shown. -/
theorem observe_induct {β : Type w} {obs : σ → α → Option β} {P : List β → σ → Prop}
    (hinit : P [] M.init)
    (hstep : ∀ bs s a s', M.Reachable s → P bs s → M.step? s a = some s' →
      P (bs ++ (obs s a).toList) s')
    {as : List α} {s : σ} (hrun : M.run? as = some s) : P (M.observe obs M.init as) s := by
  -- The run from a state shows what follows what was shown before.
  have key : ∀ (as : List α) (bs : List β) (s t : σ), M.Reachable s → P bs s →
      M.runFrom? s as = some t → P (bs ++ M.observe obs s as) t := by
    intro as
    induction as with
    | nil =>
        intro bs s t _ hP h
        cases h
        rwa [observe, List.append_nil]
    | cons a as ih =>
        intro bs s t hs hP h
        obtain ⟨s', ha, hrest⟩ := Option.bind_eq_some_iff.mp h
        have hnext := ih _ _ _ (hs.step ha) (hstep bs s a s' hs hP ha) hrest
        rwa [observe, ha, Option.map_some, Option.getD_some, ← List.append_assoc]
  have h := key as [] M.init s .init hinit hrun
  rwa [List.nil_append] at h

variable (M)

/-- The system from another state on. -/
def startAt (s : σ) : System σ α := { M with init := s }

/-- An infinite run from the initial state. A system whose runs may end has no such run unless the
end allows a step that changes nothing, so the statements about them assume fairness of the steps
that do. -/
structure Execution where
  /-- The state before the `n`-th step. -/
  state : Nat → σ
  /-- The label of the `n`-th step. -/
  label : Nat → α
  start : state 0 = M.init
  next : ∀ n, M.step? (state n) (label n) = some (state (n + 1))

variable {M}

namespace Execution

variable (e : M.Execution)

/-- Every state of an execution is reachable. -/
theorem reachable (n : Nat) : M.Reachable (e.state n) := by
  induction n with
  | zero => rw [e.start]; exact .init
  | succ n ih => exact ih.step (e.next n)

/-- A property that every step keeps, once it holds, holds at every later state. -/
theorem stays {P : σ → Prop} (hstep : ∀ s a s', M.Reachable s → P s → M.step? s a = some s' → P s')
    {m n : Nat} (hmn : m ≤ n) (hm : P (e.state m)) : P (e.state n) := by
  induction hmn with
  | refl => exact hm
  | step _ ih => exact hstep _ _ _ (e.reachable _) ih (e.next _)

/-- A rank that no step raises is antitone along an execution. -/
theorem rank_antitone (rank : σ → Nat)
    (hle : ∀ s a s', M.Reachable s → M.step? s a = some s' → rank s' ≤ rank s) {m n : Nat}
    (hmn : m ≤ n) : rank (e.state n) ≤ rank (e.state m) :=
  e.stays (P := fun s => rank s ≤ rank (e.state m))
    (fun s a s' hs hr ha => (hle s a s' hs ha).trans hr) hmn le_rfl

/-- The ranking rule: along an execution, a rank that no step raises is constant from some
point on. -/
theorem rank_eventually_const (rank : σ → Nat)
    (hle : ∀ s a s', M.Reachable s → M.step? s a = some s' → rank s' ≤ rank s) :
    ∃ n, ∀ m, n ≤ m → rank (e.state m) = rank (e.state n) := by
  -- `n` is a point where the rank is least.
  let f : Nat → Nat := fun n => rank (e.state n)
  exact ⟨Function.argmin f, fun m hm =>
    le_antisymm (e.rank_antitone rank hle hm) (Function.argmin_le f m)⟩

/-- When every step lowers a rank or keeps it quietly, all steps are quiet from some point on.
Termination follows where a step that is not quiet stays possible and fairness takes it. -/
theorem eventually_quiet (rank : σ → Nat) (quiet : σ → α → σ → Prop)
    (hstep : ∀ s a s', M.Reachable s → M.step? s a = some s' →
      rank s' < rank s ∨ (rank s' = rank s ∧ quiet s a s')) :
    ∃ n, ∀ m, n ≤ m → quiet (e.state m) (e.label m) (e.state (m + 1)) := by
  obtain ⟨n, hn⟩ := e.rank_eventually_const rank fun s a s' hs ha => by
    rcases hstep s a s' hs ha with h | ⟨h, -⟩
    · exact h.le
    · exact h.le
  refine ⟨n, fun m hm => ?_⟩
  rcases hstep _ _ _ (e.reachable m) (e.next m) with h | ⟨-, h⟩
  · have h1 := hn m hm
    have h2 := hn (m + 1) (by omega)
    omega
  · exact h

/-- What each of the steps from a point on keeps in relation to that point, when the relation
composes. -/
theorem related_from {R : σ → σ → Prop} (hrefl : ∀ s, R s s)
    (htrans : ∀ s t u, R s t → R t u → R s u) {n : Nat}
    (hstep : ∀ m, n ≤ m → R (e.state m) (e.state (m + 1))) {m : Nat} (hm : n ≤ m) :
    R (e.state n) (e.state m) := by
  induction hm with
  | refl => exact hrefl _
  | @step m hm ih => exact htrans _ _ _ ih (hstep m hm)

/-- The labels of a finite run, followed by one label for ever. -/
def idleAfter (as : List α) (idle : α) (n : Nat) : α := as.getD n idle

/-- A finite run, replayed label by label, that goes on with an idle step for ever. -/
theorem exists_replay {as : List α} {idle : α} {s : σ} (h : M.run? as = some s)
    (hidle : ∀ s, ∃ s', M.step? s idle = some s') :
    ∃ e : M.Execution, (∀ n, n ≤ as.length → M.run? (as.take n) = some (e.state n)) ∧
      ∀ n, e.label n = idleAfter as idle n := by
  have happend : ∀ (as : List α) (t : σ) (a : α),
      M.runFrom? t (as ++ [a]) = (M.runFrom? t as).bind (fun s => M.step? s a) := by
    intro as
    induction as with
    | nil => intro t a; simp [runFrom?]
    | cons b as ih =>
        intro t a
        simp only [List.cons_append, runFrom?, Option.bind_assoc]
        exact congrArg _ (funext fun u => ih u a)
  -- The run is replayed label by label, and the idle step follows behind its end.
  let labels : Nat → List α := fun n => (List.range n).map (idleAfter as idle)
  have hnext : ∀ n, M.run? (labels (n + 1))
      = (M.run? (labels n)).bind (fun s => M.step? s (idleAfter as idle n)) := by
    intro n
    simp only [labels, List.range_succ, List.map_append, List.map_singleton]
    exact happend _ _ _
  have hlabels : ∀ n, n ≤ as.length → labels n = as.take n := by
    intro n hn
    refine List.ext_getElem (by simp [labels, hn]) fun i hi _ => ?_
    have hlt : i < as.length := by
      simp only [labels, List.length_map, List.length_range] at hi
      omega
    simp [labels, idleAfter, hlt]
  have hsome : ∀ n, ∃ t, M.run? (labels n) = some t := by
    -- A part of a run is a run.
    have hle : ∀ n, n ≤ as.length → ∃ t, M.run? (labels n) = some t := by
      intro n hn
      refine Nat.decreasingInduction (motive := fun n _ => ∃ t, M.run? (labels n) = some t)
        (fun k _ hk => ?_) ⟨s, by rw [hlabels _ le_rfl, List.take_length, h]⟩ hn
      obtain ⟨t, ht⟩ := hk
      rw [hnext] at ht
      obtain ⟨u, hu, -⟩ := Option.bind_eq_some_iff.mp ht
      exact ⟨u, hu⟩
    intro n
    induction n with
    | zero => exact hle 0 (Nat.zero_le _)
    | succ n ih =>
        by_cases hn : n + 1 ≤ as.length
        · exact hle _ hn
        · obtain ⟨t, ht⟩ := ih
          obtain ⟨t', ht'⟩ := hidle t
          refine ⟨t', ?_⟩
          rw [hnext, ht]
          simpa [idleAfter, show as.length ≤ n by omega] using ht'
  choose state hstate using hsome
  refine ⟨⟨state, idleAfter as idle, ?_, fun n => ?_⟩, fun n hn => ?_, fun n => rfl⟩
  · exact (Option.some.inj (hstate 0)).symm
  · have := hstate (n + 1)
    rw [hnext, hstate n] at this
    exact this
  · rw [← hlabels n hn]
    exact hstate n

/-- A finite run that goes on with an idle step for ever. -/
theorem exists_of_run {as : List α} {idle : α} {s : σ} (h : M.run? as = some s)
    (hidle : ∀ s, ∃ s', M.step? s idle = some s') :
    ∃ e : M.Execution, e.state as.length = s ∧
      ∀ n, as.length ≤ n → e.label n = idle := by
  obtain ⟨e, hstates, hlabels⟩ := exists_replay h hidle
  refine ⟨e, ?_, fun n hn => ?_⟩
  · have hend := hstates as.length le_rfl
    rw [List.take_length, h] at hend
    exact (Option.some.inj hend).symm
  · simp [hlabels, idleAfter, hn]

/-- The labels may be fixed beforehand, when each is enabled where it comes. `I n` says where that
is, and each step leads from one to the next. -/
theorem exists_schedule {I : Nat → σ → Prop} (label : Nat → α) (hinit : I 0 M.init)
    (hstep : ∀ n s, I n s → ∃ s', M.step? s (label n) = some s' ∧ I (n + 1) s') :
    ∃ e : M.Execution, ∀ n, I n (e.state n) ∧ e.label n = label n := by
  choose next hnext using hstep
  -- The states, each with its place in the schedule.
  let states : (n : Nat) → { s : σ // I n s } := fun n =>
    Nat.rec ⟨M.init, hinit⟩ (fun n s => ⟨next n s.1 s.2, (hnext n s.1 s.2).2⟩) n
  exact ⟨⟨fun n => (states n).1, label, rfl, fun n => (hnext n _ (states n).2).1⟩,
    fun n => ⟨(states n).2, rfl⟩⟩

/-- An execution from a state that a run leads to continues that run. Steps that meet a condition
stay so, and the state after the run is the first of the execution. -/
theorem exists_continuation {P : σ → α → Prop} {s : σ} (hs : M.ReachableBy P s)
    (e : (M.startAt s).Execution) (he : ∀ n, P (e.state n) (e.label n)) :
    ∃ (e' : M.Execution) (k : Nat), (∀ n, P (e'.state n) (e'.label n)) ∧
      ∀ n, e'.state (k + n) = e.state n ∧ e'.label (k + n) = e.label n := by
  induction hs with
  | init => exact ⟨e, 0, he, fun n => by rw [Nat.zero_add]; exact ⟨rfl, rfl⟩⟩
  | @step t s a _ hp ha ih =>
      -- One step in front of the execution, and the rest of the run by induction.
      let f : (M.startAt t).Execution :=
        { state := fun n => Nat.casesOn n t e.state
          label := fun n => Nat.casesOn n a e.label
          start := rfl
          next := fun n => by
            cases n with
            | zero => exact ha.trans (congrArg some e.start.symm)
            | succ n => exact e.next n }
      obtain ⟨e', k, hP, hsame⟩ := ih f fun n => by
        cases n with
        | zero => exact hp
        | succ n => exact he n
      refine ⟨e', k + 1, hP, fun n => ?_⟩
      rw [Nat.add_right_comm k 1 n]
      exact hsame (n + 1)

/-- An execution of the guarded system is an execution whose steps all pass the check. -/
def unguard {q : σ → α → Bool} (e : (M.guard q).Execution) : M.Execution where
  state := e.state
  label := e.label
  start := e.start
  next n := (Option.ite_none_right_eq_some.mp (e.next n)).2

/-- The steps of an execution of the guarded system pass the check. -/
theorem unguard_passes {q : σ → α → Bool} (e : (M.guard q).Execution) (n : Nat) :
    q (e.unguard.state n) (e.unguard.label n) = true :=
  (Option.ite_none_right_eq_some.mp (e.next n)).1

/-- The states of an execution whose steps all meet a condition. -/
theorem reachableBy {P : σ → α → Prop} (hP : ∀ n, P (e.state n) (e.label n)) (n : Nat) :
    M.ReachableBy P (e.state n) := by
  induction n with
  | zero => rw [e.start]; exact .init
  | succ n ih => exact ih.step (hP n) (e.next n)

end Execution

end System

end Orchestrator.Lib
