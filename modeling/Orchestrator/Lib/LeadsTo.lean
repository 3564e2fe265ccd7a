import Mathlib.Data.Nat.Basic
import Orchestrator.Lib.System

/-!
# `Orchestrator.Lib.LeadsTo`: what fair runs come to

A run is a sequence of states. `LeadsTo run P Q` says that each state with `P` is followed by one
with `Q`, and `Fairly enabled taken` that what is possible from some point on happens. This is weak
fairness: a step that becomes impossible now and then may be put off for ever.

`LeadsTo.of_fair` is the rule for one kind of step: where no step takes `P` away before `Q`, the
kind is possible in every state with `P`, and it leads from there to `Q`, fairness gets the run to
`Q`. Longer ways are put together with `LeadsTo.trans` and `LeadsTo.or`, one stage at a time.

Liveness proofs by contradiction need three more facts about a run that never gets to `Q`: a kept
property stays (`stays_of_step`), one that only `Q` takes away holds for ever (`holds_until`), and
what holds now and not later is lost at some step in between (`exists_last`).

Nothing here mentions labels except `System.Execution.FairTo`, which says of an execution that it is
fair to one of its parties.
-/

set_option autoImplicit false

namespace Orchestrator.Lib

universe u v

/-- What is possible from some point on happens, at that point or later. The two predicates are
about places of a run, so that one notion serves labels, parties and channels. -/
def Fairly (enabled taken : Nat → Prop) : Prop :=
  ∀ n, (∀ m, n ≤ m → enabled m) → ∃ m, n ≤ m ∧ taken m

/-- A run that makes it impossible in the end is fair. -/
theorem Fairly.of_end {enabled taken : Nat → Prop} (n : Nat) (h : ∀ m, n ≤ m → ¬ enabled m) :
    Fairly enabled taken := fun k hk =>
  absurd (hk (max k n) (le_max_left _ _)) (h _ (le_max_right _ _))

/-- Fairness to a party: when one of its steps is possible from some point on, it takes one. -/
def System.Execution.FairTo {σ : Type u} {α : Type v} {M : System σ α} (e : M.Execution)
    (party : α → Prop) : Prop :=
  Fairly (fun n => ∃ a, party a ∧ (M.step? (e.state n) a).isSome = true) fun n => party (e.label n)

variable {σ : Type u} {run : Nat → σ} {P Q R : σ → Prop}

/-- Each state with `P` is followed by one with `Q`, or has it. -/
def LeadsTo (run : Nat → σ) (P Q : σ → Prop) : Prop :=
  ∀ n, P (run n) → ∃ m, n ≤ m ∧ Q (run m)

/-- A property that every step keeps holds from then on. -/
theorem stays_of_step (hstep : ∀ n, P (run n) → P (run (n + 1))) {n m : Nat} (hnm : n ≤ m)
    (hn : P (run n)) : P (run m) := by
  induction hnm with
  | refl => exact hn
  | step _ ih => exact hstep _ ih

/-- A property that no step takes away before `Q` holds until then. -/
theorem holds_until (hstep : ∀ n, P (run n) → P (run (n + 1)) ∨ Q (run (n + 1))) {n : Nat}
    (hn : P (run n)) (hnever : ∀ m, n ≤ m → ¬ Q (run m)) {m : Nat} (hm : n ≤ m) : P (run m) := by
  induction hm with
  | refl => exact hn
  | @step m hm ih => exact (hstep m ih).resolve_right (hnever _ (Nat.le_succ_of_le hm))

/-- A step that falsifies a property lies between a state with it and a later one without it. -/
theorem exists_last {n m : Nat} (hnm : n ≤ m) (hn : P (run n)) (hm : ¬ P (run m)) :
    ∃ j, n ≤ j ∧ j < m ∧ P (run j) ∧ ¬ P (run (j + 1)) := by
  induction hnm with
  | refl => exact absurd hn hm
  | @step m hnm ih =>
      by_cases hP : P (run m)
      · exact ⟨m, hnm, by omega, hP, hm⟩
      · obtain ⟨j, h1, h2, h3⟩ := ih hP
        exact ⟨j, h1, by omega, h3⟩

namespace LeadsTo

/-- What has `Q` already leads to it. -/
theorem of_imp (h : ∀ s, P s → Q s) : LeadsTo run P Q := fun n hn => ⟨n, le_rfl, h _ hn⟩

/-- Two stages in a row. -/
theorem trans (h : LeadsTo run P Q) (h' : LeadsTo run Q R) : LeadsTo run P R := by
  intro n hn
  obtain ⟨m, hm, hq⟩ := h n hn
  obtain ⟨k, hk, hr⟩ := h' m hq
  exact ⟨k, Nat.le_trans hm hk, hr⟩

/-- Two ways to the same end, from two kinds of states. -/
theorem or (h : LeadsTo run P R) (h' : LeadsTo run Q R) : LeadsTo run (fun s => P s ∨ Q s) R := by
  intro n hn
  rcases hn with hn | hn
  · exact h n hn
  · exact h' n hn

/-- A kind of step that is possible as long as `P` holds, and leads to `Q`. -/
theorem of_fair {enabled taken : Nat → Prop} (hfair : Fairly enabled taken)
    (hstep : ∀ n, P (run n) → P (run (n + 1)) ∨ Q (run (n + 1)))
    (hcan : ∀ n, P (run n) → enabled n) (htaken : ∀ n, P (run n) → taken n → Q (run (n + 1))) :
    LeadsTo run P Q := by
  -- Without `Q` the step stays possible for ever, so it is taken, and leads to `Q` all the same.
  intro n hn
  by_contra hnever
  have hnot : ∀ m, n ≤ m → ¬ Q (run m) := fun m hm hq => hnever ⟨m, hm, hq⟩
  have hP := fun {m} (hm : n ≤ m) => holds_until hstep hn hnot hm
  obtain ⟨m, hm, ht⟩ := hfair n fun m hm => hcan m (hP hm)
  exact hnot (m + 1) (by omega) (htaken m (hP hm) ht)

end LeadsTo

end Orchestrator.Lib
