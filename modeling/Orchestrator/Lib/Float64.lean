import Mathlib.Data.Int.Log
import Mathlib.Data.Rat.Floor
import Mathlib.Tactic.FieldSimp
import Mathlib.Tactic.Linarith
import Mathlib.Tactic.NormNum
import Mathlib.Tactic.Positivity
import Mathlib.Tactic.Ring

/-!
# `Orchestrator.Lib.Float64`: the arithmetic of binary64

An operation on two binary64 numbers is exact, and its result is rounded once: to the nearest number
with 53 significant bits whose lowest bit is worth at least `2 ^ (-1074)`, and of two that are as
near to the one whose last bit is 0. `nearest` is this rounding, without a bound on the exponent.
Beyond the largest exponent the result is an infinity (`ofRat`). Everything is computed with
rationals, so the definitions can be evaluated.

What a proof about such code uses is that rounding is monotone (`nearest_mono`), that it leaves
alone what is a binary64 number already (`nearest_idem`, `nearest_natCast`, `nearest_two_zpow`), and
how far it moves a number (`nearest_error`). `nearest_middle` is the exact result in the middle of
two numbers, where a small addend is lost or counts double by the last bit of the sum.

The sign of a zero is not kept: a divisor 0 counts as positive. A computation in which a negative
zero is a divisor has the infinity with the other sign here.
-/

set_option autoImplicit false

namespace Orchestrator.Lib

/-! ### Integers -/

/-- The nearest integer, and of two that are as near the even one. -/
def roundEven (q : ℚ) : Int :=
  if q - ⌊q⌋ < 1 / 2 ∨ (q - ⌊q⌋ = 1 / 2 ∧ ⌊q⌋ % 2 = 0) then ⌊q⌋ else ⌊q⌋ + 1

/-- An integer is its own nearest one. -/
@[simp] theorem roundEven_intCast (n : Int) : roundEven n = n := by
  unfold roundEven
  rw [Int.floor_intCast, sub_self, if_pos (Or.inl one_half_pos)]

/-- The result is one of the two integers around the number. -/
theorem floor_le_roundEven (q : ℚ) : ⌊q⌋ ≤ roundEven q := by
  unfold roundEven
  split <;> omega

/-- The result is at most the integer above. -/
theorem roundEven_le_floor (q : ℚ) : roundEven q ≤ ⌊q⌋ + 1 := by
  unfold roundEven
  split <;> omega

/-- Rounding to an integer keeps the order. Two numbers between the same integers are compared by
their fractions. -/
theorem roundEven_mono {p q : ℚ} (h : p ≤ q) : roundEven p ≤ roundEven q := by
  rcases (Int.floor_mono h).lt_or_eq with hlt | heq
  · have hp := roundEven_le_floor p
    have hq := floor_le_roundEven q
    omega
  · -- Between the same two integers, what is rounded up stays up.
    unfold roundEven
    rw [heq]
    split
    · split <;> omega
    · rename_i hup
      rw [if_neg]
      rintro (hq | ⟨hq, heven⟩)
      · exact hup (Or.inl (by linarith))
      · rcases h.lt_or_eq with hlt | rfl
        · exact hup (Or.inl (by linarith))
        · exact hup (Or.inr ⟨hq, heven⟩)

/-- Rounding moves a number down by at most a half. -/
theorem sub_half_le_roundEven (q : ℚ) : q - 1 / 2 ≤ roundEven q := by
  have hfloor := Int.lt_floor_add_one q
  unfold roundEven
  split
  · rename_i h
    rcases h with h | ⟨h, -⟩ <;> linarith
  · push_cast
    linarith

/-- A number in the middle of two integers goes to the even one. -/
theorem roundEven_add_half (n : Int) : roundEven (n + 1 / 2) = n + n % 2 := by
  have hfloor : ⌊(n : ℚ) + 1 / 2⌋ = n := by
    rw [Int.floor_intCast_add, Int.floor_eq_zero_iff.mpr ⟨by norm_num, by norm_num⟩, add_zero]
  unfold roundEven
  rw [hfloor, add_sub_cancel_left]
  rcases Int.emod_two_eq_zero_or_one n with heven | hodd
  · rw [if_pos (Or.inr ⟨rfl, heven⟩), heven, add_zero]
  · rw [if_neg (by simp [hodd]), hodd]

/-- Rounding does not go past an integer above. -/
theorem roundEven_le_of_le_int {q : ℚ} {n : Int} (h : q ≤ n) : roundEven q ≤ n :=
  (roundEven_mono h).trans_eq (roundEven_intCast n)

/-- Nor past one below. -/
theorem le_roundEven_of_int_le {q : ℚ} {n : Int} (h : (n : ℚ) ≤ q) : n ≤ roundEven q :=
  (roundEven_intCast n).symm.trans_le (roundEven_mono h)

/-! ### Rounding -/

/-- The exponent of the last bit of the numbers around `q`. Below the smallest normal number it
stays at that of the subnormal ones. -/
def lastBit (q : ℚ) : Int := max (Int.log 2 q - 52) (-1074)

/-- The nearest number of 53 bits to a number that is not negative. -/
def nearestAbs (q : ℚ) : ℚ := roundEven (q / 2 ^ lastBit q) * 2 ^ lastBit q

/-- The nearest number of 53 bits. -/
def nearest (q : ℚ) : ℚ := if q < 0 then -nearestAbs (-q) else nearestAbs q

/-- The rounding of a number that is not negative, written out. -/
theorem nearest_of_nonneg {q : ℚ} (h : 0 ≤ q) :
    nearest q = roundEven (q / 2 ^ lastBit q) * 2 ^ lastBit q := if_neg (not_lt.mpr h)

/-- A power of two is positive. -/
theorem two_zpow_pos (e : Int) : (0 : ℚ) < 2 ^ e := zpow_pos two_pos e

/-- A power of two is a whole number of smaller ones. -/
theorem two_zpow_div {e s : Int} (h : s ≤ e) :
    (2 : ℚ) ^ e / 2 ^ s = ((2 ^ (e - s).toNat : Int) : ℚ) := by
  rw [← zpow_sub₀ two_ne_zero]
  push_cast
  rw [← zpow_natCast, Int.toNat_of_nonneg (by omega)]

/-- Rounding keeps the sign of a number that is not negative. -/
theorem nearest_nonneg {q : ℚ} (h : 0 ≤ q) : 0 ≤ nearest q := by
  rw [nearest_of_nonneg h]
  refine mul_nonneg ?_ (two_zpow_pos _).le
  have hround : (0 : Int) ≤ roundEven (q / 2 ^ lastBit q) :=
    le_roundEven_of_int_le (by exact_mod_cast div_nonneg h (two_zpow_pos _).le)
  exact_mod_cast hround

/-- And a negative number does not become positive. -/
theorem nearest_neg_le {q : ℚ} (h : q < 0) : nearest q ≤ 0 := by
  have hpos := nearest_nonneg (q := -q) (by linarith)
  rw [nearest_of_nonneg (by linarith)] at hpos
  unfold nearest
  rw [if_pos h]
  exact neg_nonpos.mpr hpos

/-- A number that is a whole number of last bits stays as it is. -/
theorem nearest_eq_self {q : ℚ} (h : 0 ≤ q) {n : Int} (hn : q / 2 ^ lastBit q = n) :
    nearest q = q := by
  rw [nearest_of_nonneg h, hn, roundEven_intCast, ← hn,
    div_mul_cancel₀ _ (two_zpow_pos _).ne']

/-- The last bit of a number below a power of two. -/
theorem lastBit_le {q : ℚ} (hq : 0 < q) {e : Int} (he : -1074 ≤ e) (h : q < 2 ^ (e + 53)) :
    lastBit q ≤ e := by
  have hlog : Int.log 2 q < e + 53 :=
    (Int.lt_zpow_iff_log_lt (by norm_num) hq).mp (by exact_mod_cast h)
  unfold lastBit
  omega

/-- The numbers with 53 bits stay as they are. Their significand is an integer already, so the
rounding of it has nothing to do. -/
theorem nearest_mul_zpow {n : Nat} (hn : n ≤ 2 ^ 53) {e : Int} (he : -1074 ≤ e) :
    nearest (n * 2 ^ e) = n * 2 ^ e := by
  have hlt : ∀ {n : Nat} {e : Int}, n < 2 ^ 53 → -1074 ≤ e →
      nearest ((n : ℚ) * 2 ^ e) = n * 2 ^ e := by
    intro n e hn he
    rcases Nat.eq_zero_or_pos n with rfl | hpos
    · exact nearest_eq_self (n := 0) (by simp) (by simp)
    have hq : (0 : ℚ) < n * 2 ^ e := mul_pos (by exact_mod_cast hpos) (two_zpow_pos e)
    have hle : lastBit ((n : ℚ) * 2 ^ e) ≤ e := by
      refine lastBit_le hq he ?_
      rw [zpow_add₀ two_ne_zero, mul_comm]
      exact mul_lt_mul_of_pos_left (by exact_mod_cast hn) (two_zpow_pos e)
    refine nearest_eq_self hq.le (n := n * 2 ^ (e - lastBit ((n : ℚ) * 2 ^ e)).toNat) ?_
    rw [mul_div_assoc, two_zpow_div hle]
    push_cast
    rfl
  rcases hn.lt_or_eq with h | rfl
  · exact hlt h he
  · -- The bound itself is a number with fewer bits and a larger exponent.
    have heq : ((2 ^ 53 : Nat) : ℚ) * 2 ^ e = ((2 ^ 52 : Nat) : ℚ) * 2 ^ (e + 1) := by
      rw [zpow_add_one₀ two_ne_zero]
      push_cast
      ring
    rw [heq]
    exact hlt (by norm_num) (by omega)

/-- Small integers stay as they are. -/
theorem nearest_natCast {n : Nat} (hn : n ≤ 2 ^ 53) : nearest n = n := by
  simpa using nearest_mul_zpow hn (e := 0) (by norm_num)

/-- Zero is a number. -/
theorem nearest_zero : nearest 0 = 0 := by simpa using nearest_natCast (n := 0) (by norm_num)

/-- One is a number. -/
theorem nearest_one : nearest 1 = 1 := by simpa using nearest_natCast (n := 1) (by norm_num)

/-- So do the powers of two. -/
theorem nearest_two_zpow {e : Int} (he : -1074 ≤ e) : nearest (2 ^ e) = 2 ^ e := by
  simpa using nearest_mul_zpow (n := 1) (by norm_num) he

/-- The middle of two numbers with 53 bits goes to the one whose last bit is 0. -/
theorem nearest_middle {n : Nat} (hle : 2 ^ 52 ≤ n) (hlt : n < 2 ^ 53) {e : Int} (he : -1074 ≤ e) :
    nearest ((n + 1 / 2) * 2 ^ e) = (n + n % 2 : Nat) * 2 ^ e := by
  have hpos : (0 : ℚ) < (n + 1 / 2) * 2 ^ e :=
    mul_pos (add_pos_of_nonneg_of_pos (Nat.cast_nonneg n) one_half_pos) (two_zpow_pos e)
  -- The number lies in the binade whose last bit is `2 ^ e`, so it is rounded at that bit.
  have hlow : (2 : ℚ) ^ (e + 52) ≤ (n + 1 / 2) * 2 ^ e := by
    have hn : (2 : ℚ) ^ (52 : Int) ≤ n := by exact_mod_cast hle
    rw [zpow_add₀ two_ne_zero, mul_comm]
    exact mul_le_mul_of_nonneg_right (by linarith) (two_zpow_pos e).le
  have hhigh : ((n : ℚ) + 1 / 2) * 2 ^ e < 2 ^ (e + 53) := by
    have hn : (n : ℚ) + 1 ≤ 2 ^ (53 : Int) := by exact_mod_cast hlt
    rw [zpow_add₀ two_ne_zero, mul_comm]
    exact mul_lt_mul_of_pos_left (by linarith) (two_zpow_pos e)
  have hlog : e + 52 ≤ Int.log 2 (((n : ℚ) + 1 / 2) * 2 ^ e) :=
    (Int.zpow_le_iff_le_log (by norm_num) hpos).mp (by exact_mod_cast hlow)
  have hbit : lastBit (((n : ℚ) + 1 / 2) * 2 ^ e) = e := by
    refine le_antisymm (lastBit_le hpos he hhigh) ?_
    unfold lastBit
    omega
  -- Half way between two integers the even one is taken.
  have hround : (n : Int) + (n : Int) % 2 = (n + n % 2 : Nat) := by omega
  rw [nearest_of_nonneg hpos.le, hbit, mul_div_cancel_right₀ _ (two_zpow_pos e).ne',
    ← Int.cast_natCast n, roundEven_add_half, hround, Int.cast_natCast]

/-- Rounding is monotone. Where the two numbers have different last bits, a power of two lies
between them, and it is a number on both scales. -/
theorem nearest_mono {p q : ℚ} (hp : 0 ≤ p) (h : p ≤ q) : nearest p ≤ nearest q := by
  rcases hp.eq_or_lt with rfl | hpos
  · exact (nearest_eq_self (n := 0) le_rfl (by simp)).trans_le (nearest_nonneg h)
  have hq : 0 < q := hpos.trans_le h
  have hlog : Int.log 2 p ≤ Int.log 2 q := Int.log_mono_right hpos h
  rw [nearest_of_nonneg hp, nearest_of_nonneg hq.le]
  by_cases hsame : lastBit p = lastBit q
  · rw [hsame]
    refine mul_le_mul_of_nonneg_right ?_ (two_zpow_pos _).le
    exact_mod_cast roundEven_mono (div_le_div_of_nonneg_right h (two_zpow_pos _).le)
  · -- Between the two numbers there is a power of two, which neither crosses.
    have hbits : lastBit p < Int.log 2 q - 52 ∧ lastBit q = Int.log 2 q - 52 := by
      unfold lastBit at hsame ⊢
      omega
    have hpow : (2 : ℚ) ^ Int.log 2 q ≤ q := by
      exact_mod_cast Int.zpow_log_le_self (b := 2) (by norm_num) hq
    have hbelow : p ≤ 2 ^ Int.log 2 q := by
      have hp' : Int.log 2 p < Int.log 2 q := by
        unfold lastBit at hsame hbits
        omega
      exact_mod_cast ((Int.lt_zpow_iff_log_lt (b := 2) (by norm_num) hpos).mpr hp').le
    calc (roundEven (p / 2 ^ lastBit p) : ℚ) * 2 ^ lastBit p
        ≤ 2 ^ Int.log 2 q / 2 ^ lastBit p * 2 ^ lastBit p := by
          refine mul_le_mul_of_nonneg_right ?_ (two_zpow_pos _).le
          rw [two_zpow_div (by omega)]
          exact_mod_cast roundEven_le_of_le_int
            ((div_le_div_of_nonneg_right hbelow (two_zpow_pos _).le).trans_eq
              (two_zpow_div (by omega)))
      _ = 2 ^ Int.log 2 q := div_mul_cancel₀ _ (two_zpow_pos _).ne'
      _ = 2 ^ Int.log 2 q / 2 ^ lastBit q * 2 ^ lastBit q :=
          (div_mul_cancel₀ _ (two_zpow_pos _).ne').symm
      _ ≤ roundEven (q / 2 ^ lastBit q) * 2 ^ lastBit q := by
          refine mul_le_mul_of_nonneg_right ?_ (two_zpow_pos _).le
          rw [two_zpow_div (by omega)]
          exact_mod_cast le_roundEven_of_int_le
            ((two_zpow_div (by omega)).symm.trans_le
              (div_le_div_of_nonneg_right hpow (two_zpow_pos _).le))

/-- Rounding a second time changes nothing, so the rounded numbers are the numbers of the format. -/
theorem nearest_idem {q : ℚ} (h : 0 ≤ q) : nearest (nearest q) = nearest q := by
  rcases h.eq_or_lt with rfl | hpos
  · rw [nearest_eq_self (n := 0) le_rfl (by simp), nearest_eq_self (n := 0) le_rfl (by simp)]
  rw [nearest_of_nonneg h]
  have hround : 0 ≤ roundEven (q / 2 ^ lastBit q) :=
    le_roundEven_of_int_le (by exact_mod_cast div_nonneg h (two_zpow_pos _).le)
  -- The result is an integer of at most 53 bits, times a power of two.
  obtain ⟨n, hn⟩ := Int.eq_ofNat_of_zero_le hround
  have hle : n ≤ 2 ^ 53 := by
    have hlt : q < 2 ^ (Int.log 2 q + 1) := by
      exact_mod_cast Int.lt_zpow_succ_log_self (b := 2) (by norm_num) q
    have hbit : Int.log 2 q + 1 ≤ lastBit q + 53 := by
      unfold lastBit
      omega
    have hq : q / 2 ^ lastBit q ≤ ((2 ^ 53 : Int) : ℚ) := by
      rw [div_le_iff₀ (two_zpow_pos _)]
      refine hlt.le.trans ((zpow_le_zpow_right₀ (by norm_num) hbit).trans_eq ?_)
      rw [zpow_add₀ two_ne_zero, mul_comm]
      norm_num
    have := roundEven_le_of_le_int hq
    omega
  rw [hn]
  exact nearest_mul_zpow hle (le_max_right _ _)

/-- Below 1, rounding moves a number down by at most half of the last bit below 1. -/
theorem nearest_error {q : ℚ} (h : 0 ≤ q) (hle : q ≤ 1) : q - 1 / 2 ^ 54 ≤ nearest q := by
  rcases h.eq_or_lt with rfl | hpos
  · exact (by norm_num : (0 : ℚ) - 1 / 2 ^ 54 ≤ 0).trans (nearest_nonneg le_rfl)
  rcases hle.eq_or_lt with rfl | hlt
  · have hone : nearest 1 = 1 := by simpa using nearest_natCast (n := 1) (by norm_num)
    rw [hone]
    norm_num
  -- Below one the last bit is worth `2 ^ (-53)` at most, and a rounding is off by half of that.
  have hbit : lastBit q ≤ -53 := lastBit_le hpos (by norm_num) (by simpa using hlt)
  have hhalf : 1 / 2 * (2 : ℚ) ^ lastBit q ≤ 1 / 2 ^ 54 :=
    (mul_le_mul_of_nonneg_left (zpow_le_zpow_right₀ (by norm_num) hbit) (by norm_num)).trans_eq
      (by norm_num)
  rw [nearest_of_nonneg h]
  calc q - 1 / 2 ^ 54 ≤ q - 1 / 2 * 2 ^ lastBit q := sub_le_sub_left hhalf q
    _ = (q / 2 ^ lastBit q - 1 / 2) * 2 ^ lastBit q := by
        rw [sub_mul, div_mul_cancel₀ _ (two_zpow_pos _).ne']
    _ ≤ _ := mul_le_mul_of_nonneg_right (sub_half_le_roundEven _) (two_zpow_pos _).le

/-! ### Numbers -/

/-- A binary64 number. A finite one is given by its value, so that comparisons and the rounding of
exact results are those of the rationals.

The sign of a zero is left out. It would matter for a division by zero only, and there `div` takes
the positive one. -/
inductive Float64
  | finite (q : ℚ)
  | infinite (negative : Bool)
  | nan
deriving DecidableEq

namespace Float64

/-- The number that an exact result is rounded to. The test is on the rounded result, since a result
a little below the largest power may be rounded to it. -/
def ofRat (q : ℚ) : Float64 :=
  if 2 ^ 1024 ≤ |nearest q| then .infinite (decide (q < 0)) else .finite (nearest q)

/-- The negation, which is exact: the format is symmetric, so nothing has to be rounded. -/
def neg : Float64 → Float64
  | .finite q => .finite (-q)
  | .infinite s => .infinite (!s)
  | .nan => .nan

/-- The sum, rounded to the nearest number of the format. Two infinities of different signs have
none. -/
def add : Float64 → Float64 → Float64
  | .finite p, .finite q => ofRat (p + q)
  | .finite _, .infinite t => .infinite t
  | .infinite s, .finite _ => .infinite s
  | .infinite s, .infinite t => if s = t then .infinite s else .nan
  | _, _ => .nan

/-- The difference, as the sum with the negation. -/
def sub (x y : Float64) : Float64 := x.add y.neg

/-- The product, rounded to the nearest number of the format. Zero times an infinity has none, and
otherwise an infinite factor gives an infinity with the sign of the product. -/
def mul : Float64 → Float64 → Float64
  | .finite p, .finite q => ofRat (p * q)
  | .finite p, .infinite t => if p = 0 then .nan else .infinite (t ^^ decide (p < 0))
  | .infinite s, .finite q => if q = 0 then .nan else .infinite (s ^^ decide (q < 0))
  | .infinite s, .infinite t => .infinite (s ^^ t)
  | _, _ => .nan

/-- The quotient. A divisor zero gives an infinity, or no number when the dividend is zero too. -/
def div : Float64 → Float64 → Float64
  | .finite p, .finite q =>
    if q = 0 then if p = 0 then .nan else .infinite (decide (p < 0)) else ofRat (p / q)
  | .finite _, .infinite _ => .finite 0
  | .infinite s, .finite q => .infinite (s ^^ decide (q < 0))
  | _, _ => .nan

/-- The comparison `<`. On finite numbers it is that of the values. Nothing is below or above a NaN,
so a test `x < y` that fails does not say `y <= x`. -/
def lt : Float64 → Float64 → Bool
  | .finite p, .finite q => decide (p < q)
  | .finite _, .infinite t => !t
  | .infinite s, .finite _ => s
  | .infinite s, .infinite t => s && !t
  | _, _ => false

/-- The comparison `<=`. It is not the negation of `lt` with the arguments exchanged: a NaN fails
both. -/
def le : Float64 → Float64 → Bool
  | .finite p, .finite q => decide (p ≤ q)
  | .finite _, .infinite t => !t
  | .infinite s, .finite _ => s
  | .infinite s, .infinite t => s || !t
  | _, _ => false

/-- The sum of numbers is the exact sum, rounded once. -/
@[simp] theorem add_finite (p q : ℚ) : (finite p).add (finite q) = ofRat (p + q) := rfl

/-- The difference of numbers is the exact difference, rounded once. -/
@[simp] theorem sub_finite (p q : ℚ) : (finite p).sub (finite q) = ofRat (p - q) :=
  congrArg ofRat (sub_eq_add_neg p q).symm

/-- The product of numbers is the exact product, rounded once. -/
@[simp] theorem mul_finite (p q : ℚ) : (finite p).mul (finite q) = ofRat (p * q) := rfl

/-- Numbers are compared by their values. -/
@[simp] theorem lt_finite (p q : ℚ) : (finite p).lt (finite q) = decide (p < q) := rfl

/-- Numbers are compared by their values. -/
@[simp] theorem le_finite (p q : ℚ) : (finite p).le (finite q) = decide (p ≤ q) := rfl

/-- Every number is below the infinity. -/
@[simp] theorem lt_infinite (p : ℚ) : (finite p).lt (infinite false) = true := rfl

/-- A quotient of numbers. -/
theorem div_finite {p q : ℚ} (hq : q ≠ 0) :
    (Float64.finite p).div (.finite q) = ofRat (p / q) := if_neg hq

/-- An exact result below the range is rounded to a number. -/
theorem ofRat_finite {q : ℚ} (h : 0 ≤ q) (hlt : nearest q < 2 ^ 1024) :
    ofRat q = .finite (nearest q) := by
  unfold ofRat
  rw [abs_of_nonneg (nearest_nonneg h), if_neg (not_le.mpr hlt)]

/-- One behind it becomes an infinity. -/
theorem ofRat_infinite {q : ℚ} (h : 0 ≤ q) (hle : 2 ^ 1024 ≤ nearest q) :
    ofRat q = .infinite false := by
  unfold ofRat
  rw [abs_of_nonneg (nearest_nonneg h), if_pos hle, decide_eq_false (not_lt.mpr h)]

/-- A result that is not negative is a number or the infinity. -/
theorem ofRat_of_nonneg {q : ℚ} (h : 0 ≤ q) :
    ofRat q = if 2 ^ 1024 ≤ nearest q then .infinite false else .finite (nearest q) := by
  split
  · rename_i hle
    exact ofRat_infinite h hle
  · rename_i hlt
    exact ofRat_finite h (not_le.mp hlt)

/-- Only a positive result is rounded to 1 or more. -/
theorem pos_of_le_ofRat {q : ℚ} (h : (finite 1).le (ofRat q) = true) : 0 < q := by
  by_contra hle
  rcases (not_lt.mp hle).lt_or_eq with hneg | rfl
  · unfold ofRat at h
    split at h
    · rw [decide_eq_true hneg] at h
      cases h
    · have hone : 1 ≤ nearest q := of_decide_eq_true h
      exact absurd (hone.trans (nearest_neg_le hneg)) (by norm_num)
  · have hzero := nearest_zero
    rw [ofRat_finite le_rfl (by rw [hzero]; positivity), hzero, le_finite] at h
    exact absurd (of_decide_eq_true h) (by norm_num)

/-- Small integers are numbers. -/
theorem ofRat_natCast {n : Nat} (h : n ≤ 2 ^ 53) : ofRat n = .finite n := by
  have hnear := nearest_natCast h
  rw [ofRat_finite (Nat.cast_nonneg n), hnear]
  rw [hnear]
  calc (n : ℚ) ≤ 2 ^ 53 := by exact_mod_cast h
    _ < 2 ^ 1024 := pow_lt_pow_right₀ one_lt_two (by norm_num)

end Float64

end Orchestrator.Lib
