import Mathlib.Algebra.Order.Field.Basic
import Mathlib.Algebra.Order.Floor.Ring
import Mathlib.Tactic.Linarith

/-!
# `Orchestrator.Lib.Extended`: numbers with infinities

`Extended α` has the special values of a floating-point format beside the numbers of a field, which
it does not round. Zero is positive zero. `toSigned` is the conversion to a signed integer: the
fraction is cut off, and a value that does not fit has no result.

A computation of a duration divides and converts, and this is where it can go wrong: a division by
zero leaves the numbers, and a large quotient has no integer. Rounding is not needed to say when
that happens, so it is left out here. `Orchestrator.Lib.Float64` has it.

`toSigned_fin_isSome` says which numbers fit: those above the least integer by less than one more
unit, since the fraction is cut off towards zero, and below the greatest power. `toSigned_mono` and
`toSigned_nonneg` say that the conversion of those keeps their order and their sign.
-/

set_option autoImplicit false

namespace Orchestrator.Lib

/-- A number, an infinity with its sign, or no number: the outcomes of a floating-point computation
whose finite part is taken to be exact.

It is for computations where rounding does not matter but dividing by zero and leaving the range do.
Where rounding matters as well, there is `Float64`. -/
inductive Extended (α : Type*)
  | fin (a : α)
  | inf (negative : Bool)
  | nan
deriving DecidableEq

namespace Extended

variable {α : Type*} [Field α] [LinearOrder α]

/-- Division. A number over zero is an infinity with the sign of the number, and zero over zero is
no number. The sign of an infinity changes with a negative divisor. -/
def div : Extended α → Extended α → Extended α
  | .fin a, .fin b =>
    if b = 0 then (if a = 0 then .nan else .inf (decide (a < 0))) else .fin (a / b)
  | .fin _, .inf _ => .fin 0
  | .inf s, .fin b => .inf (s ^^ decide (b < 0))
  | _, _ => .nan

/-- A quotient of numbers. -/
theorem div_fin {a b : α} (hb : b ≠ 0) : div (.fin a) (.fin b) = .fin (a / b) := if_neg hb

/-- A number over zero. -/
theorem div_zero (a : α) :
    div (.fin a) (.fin 0) = if a = 0 then .nan else .inf (decide (a < 0)) := if_pos rfl

section Convert

variable [FloorRing α]

/-- The number without its fraction. -/
def truncate (a : α) : Int := if 0 ≤ a then ⌊a⌋ else ⌈a⌉

/-- The conversion to a signed integer of some bits, which cuts off the fraction. There is no result
when the integer does not fit. What the machine makes of such a number is up to the implementation,
so a model has to treat it as undetermined. -/
def toSigned (bits : Nat) : Extended α → Option Int
  | .fin a =>
    if -2 ^ (bits - 1) ≤ truncate a ∧ truncate a < 2 ^ (bits - 1) then some (truncate a) else none
  | _ => none

/-- A conversion that has a result cuts the fraction off. -/
theorem toSigned_fin {bits : Nat} {a : α} {n : Int} (h : toSigned bits (.fin a) = some n) :
    n = truncate a :=
  (Option.some.inj (Option.ite_none_right_eq_some.mp h).2).symm

/-- Cutting off the fraction keeps the sign of a number that is not negative. -/
theorem truncate_nonneg {a : α} (h : 0 ≤ a) : 0 ≤ truncate a := by
  unfold truncate
  rw [if_pos h]
  exact Int.floor_nonneg.mpr h

/-- A number that is not negative is not converted to a negative integer. -/
theorem toSigned_nonneg {bits : Nat} {a : α} {n : Int} (ha : 0 ≤ a)
    (hn : toSigned bits (.fin a) = some n) : 0 ≤ n := by
  rw [toSigned_fin hn]
  exact truncate_nonneg ha

variable [IsStrictOrderedRing α]

/-- And the sign of one that is not positive. -/
theorem truncate_nonpos {a : α} (h : a ≤ 0) : truncate a ≤ 0 := by
  unfold truncate
  by_cases hzero : 0 ≤ a
  · rw [if_pos hzero, le_antisymm h hzero, Int.floor_zero]
  · rw [if_neg hzero]
    exact Int.ceil_le.mpr (by simpa using h)

/-- Cutting off the fraction keeps the order. Between two signs it is zero that lies in between. -/
theorem truncate_mono {a b : α} (h : a ≤ b) : truncate a ≤ truncate b := by
  by_cases ha : 0 ≤ a
  · have hb := ha.trans h
    unfold truncate
    rw [if_pos ha, if_pos hb]
    exact Int.floor_le_floor h
  · by_cases hb : 0 ≤ b
    · exact (truncate_nonpos (not_le.mp ha).le).trans (truncate_nonneg hb)
    · unfold truncate
      rw [if_neg ha, if_neg hb]
      exact Int.ceil_le_ceil h

/-- Cutting the fraction off a number below a positive bound keeps it below, and the other way
round. -/
theorem truncate_lt_iff {a : α} {n : Int} (hn : 0 < n) : truncate a < n ↔ a < n := by
  by_cases ha : 0 ≤ a
  · unfold truncate
    rw [if_pos ha]
    exact Int.floor_lt
  · have hneg := not_le.mp ha
    refine iff_of_true ((truncate_nonpos hneg.le).trans_lt hn) (hneg.trans ?_)
    exact_mod_cast hn

/-- The same at a negative bound, where the fraction takes one more unit. -/
theorem le_truncate_iff {a : α} {n : Int} (hn : n ≤ 0) : n ≤ truncate a ↔ (n : α) - 1 < a := by
  by_cases ha : 0 ≤ a
  · refine iff_of_true (hn.trans (truncate_nonneg ha)) ?_
    have hcast : (n : α) ≤ 0 := by exact_mod_cast hn
    linarith
  · unfold truncate
    rw [if_neg ha]
    have hceil : (n : α) - 1 < a ↔ n - 1 < ⌈a⌉ := by
      rw [Int.lt_ceil]
      push_cast
      rfl
    rw [hceil]
    omega

/-- The numbers that fit. The bounds are not symmetric: below, a fraction may take the number past
the least integer, and cutting it off brings it back. -/
theorem toSigned_fin_isSome {bits : Nat} {a : α} :
    (toSigned bits (.fin a)).isSome = true ↔ -2 ^ (bits - 1) - 1 < a ∧ a < 2 ^ (bits - 1) := by
  have hpos : (0 : Int) < 2 ^ (bits - 1) := by positivity
  have hsome : (toSigned bits (.fin a)).isSome = true
      ↔ -2 ^ (bits - 1) ≤ truncate a ∧ truncate a < 2 ^ (bits - 1) := by
    show (if _ then _ else _ : Option Int).isSome = true ↔ _
    split
    · rename_i h
      exact iff_of_true rfl h
    · rename_i h
      exact iff_of_false (by simp) h
  rw [hsome, truncate_lt_iff hpos, le_truncate_iff (by omega)]
  push_cast
  rfl

/-- A larger number is not converted to a smaller integer. -/
theorem toSigned_mono {bits : Nat} {a b : α} {m n : Int} (hab : a ≤ b)
    (hm : toSigned bits (.fin a) = some m) (hn : toSigned bits (.fin b) = some n) : m ≤ n := by
  rw [toSigned_fin hm, toSigned_fin hn]
  exact truncate_mono hab

end Convert

end Extended

end Orchestrator.Lib
