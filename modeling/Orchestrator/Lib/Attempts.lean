import Mathlib.Order.Defs.LinearOrder
import Mathlib.Algebra.Order.Ring.Int

/-!
# `Orchestrator.Lib.Attempts`: bounded retries

A node is attempted at most `n` times, and again only after a failure. `ok k` says whether the
`k`-th attempt, counted from 1, succeeds. It is given for every `k`, also for attempts that are
never made: the outcomes are fixed beforehand, and the loop decides how many of them are looked at.

`Tried ok k` holds while the `k`-th attempt is under way, and `Settled ok n k won` when it was the
last one. A loop keeps `Tried` from round to round (`Tried.first`, `Tried.next`), and its ends are
`Tried.win` and `Tried.lose`.

`Settled.won_iff` says when the attempts are won, without a loop: when one of those allowed
succeeds. `Settled.unique` says that the outcomes alone settle how many attempts are made and how
they end. Two loops that both satisfy `Settled` therefore agree, whatever they do between two
attempts.
-/

set_option autoImplicit false

namespace Orchestrator.Lib

variable {ok : Int → Bool} {n k k' : Int} {won won' : Bool}

/-- The attempts before the `k`-th have failed. This is the invariant of a retry loop at the head of
its round. -/
structure Tried (ok : Int → Bool) (k : Int) : Prop where
  pos : 1 ≤ k
  failed : ∀ j, 1 ≤ j → j < k → ok j = false

/-- The first attempt comes after no failure. -/
theorem Tried.first : Tried ok 1 := ⟨le_rfl, fun j h1 h2 => by omega⟩

/-- After a failure comes the next attempt. -/
theorem Tried.next (h : Tried ok k) (hk : ok k = false) : Tried ok (k + 1) := by
  refine ⟨by have := h.pos; omega, fun j h1 h2 => ?_⟩
  rcases (show j < k ∨ j = k by omega) with hj | rfl
  · exact h.failed j h1 hj
  · exact hk

/-- The `k`-th attempt was the last of at most `n`: it won, or it failed and no other is left. A
loop that gives up earlier does not satisfy it. -/
structure Settled (ok : Int → Bool) (n k : Int) (won : Bool) : Prop extends Tried ok k where
  le : k ≤ n
  last : ok k = won
  exhausted : won = false → k = n

/-- A successful attempt settles. -/
theorem Tried.win (h : Tried ok k) (hle : k ≤ n) (hk : ok k = true) : Settled ok n k true :=
  ⟨h, hle, hk, fun h => by cases h⟩

/-- The last attempt settles when it fails. -/
theorem Tried.lose (h : Tried ok k) (hle : k ≤ n) (hn : ¬ k < n) (hk : ok k = false) :
    Settled ok n k false :=
  ⟨h, hle, hk, fun _ => by omega⟩

/-- The attempts are won when one of those allowed succeeds. -/
theorem Settled.won_iff (h : Settled ok n k won) :
    won = true ↔ ∃ j, 1 ≤ j ∧ j ≤ n ∧ ok j = true := by
  constructor
  · intro hwon
    exact ⟨k, h.pos, h.le, h.last.trans hwon⟩
  · rintro ⟨j, h1, hn, hj⟩
    by_contra hlost
    have hlost : won = false := by simpa using hlost
    have hkn := h.exhausted hlost
    -- Every allowed attempt was made, and each of them failed.
    rcases (show j < k ∨ j = k by omega) with hjk | rfl
    · rw [h.failed j h1 hjk] at hj
      cases hj
    · rw [h.last, hlost] at hj
      cases hj

/-- The outcomes of the attempts settle how many are made, and how they end. The count is the place
of the first success, or the limit. -/
theorem Settled.unique (h : Settled ok n k won) (h' : Settled ok n k' won') :
    k = k' ∧ won = won' := by
  have hwon : won = won' := by
    rw [Bool.eq_iff_iff]
    exact h.won_iff.trans h'.won_iff.symm
  subst hwon
  refine ⟨?_, rfl⟩
  cases won with
  | false => rw [h.exhausted rfl, h'.exhausted rfl]
  | true =>
      -- An attempt before a successful one has failed.
      rcases lt_trichotomy k k' with hlt | heq | hlt
      · have := h'.failed k h.pos hlt
        rw [h.last] at this
        cases this
      · exact heq
      · have := h.failed k' h'.pos hlt
        rw [h'.last] at this
        cases this

end Orchestrator.Lib
