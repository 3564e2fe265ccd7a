import Mathlib.Algebra.GroupWithZero.Nat
import Mathlib.Algebra.Ring.Int.Defs
import Orchestrator.Lib.Dict
import Orchestrator.Lib.Json

/-!
# `Orchestrator.Engine.GoLib`: the Go library functions the engine calls

The engine formats, encodes and decodes text with the Go standard library and ranges over maps in an
order the language leaves open. `GoLib` and `MapOrder` collect these as parameters of the model.
Nothing is assumed about the text functions, so a theorem about the engine holds for every choice of
them. Where a result needs more, as the agreement of two printers does, it says so in hypotheses of
its own.

`MapOrder` is an arrangement of the keys. It is one for the whole run, while Go may choose another
at each loop. The results that depend on an order take it as an argument, or hold for every order.

The rest is the arithmetic of `int`, which is 64-bit two's complement. `int64` is the value of an
expression, and it is applied where a sum can leave the range. Sums that are wrapped at each
addition and sums that are wrapped once have one value (`int64_add_left`, `int64_sum`), so an
accumulation in a loop is compared with the exact sum.
-/

set_option autoImplicit false

namespace Orchestrator.Engine

open Orchestrator.Lib

/-- The library functions from values to text and back. They are parameters: what a result needs of
them is a hypothesis of it, stated for the texts that the run really makes. -/
structure GoLib where
  /-- `json.Marshal` of a decoded value. -/
  marshal : Json → String
  /-- `json.Unmarshal` into an `any`; `none` is an error. -/
  unmarshal : String → Option Json
  /-- The `%q` verb of `fmt`. -/
  quote : String → String
  /-- `Format(time.RFC3339)` of an instant in nanoseconds. -/
  rfc3339 : Nat → String

/-- The order in which `range` visits the keys of a map: some arrangement of them. -/
structure MapOrder where
  order : List String → List String
  perm : ∀ keys, (order keys).Perm keys

/-- `for k, v := range d`. -/
def MapOrder.range {ν : Type} (o : MapOrder) (d : Dict String ν) : List (String × ν) :=
  (o.order d.keys).filterMap (fun k => (d.get? k).map (fun v => (k, v)))

/-- The order in which the keys were inserted. -/
def MapOrder.insertion : MapOrder := ⟨id, fun keys => List.Perm.refl keys⟩

/-- The value of a Go `int` expression: 64-bit two's complement. -/
def int64 (n : Int) : Int := n.bmod (2 ^ 64)

/-- A number that a Go `int` or `int64` holds. -/
def FitsInt64 (n : Int) : Prop := -2 ^ 63 ≤ n ∧ n < 2 ^ 63

instance (n : Int) : Decidable (FitsInt64 n) := inferInstanceAs (Decidable (_ ∧ _))

/-- The value of an expression is the number itself exactly when the number fits. -/
theorem int64_eq_self_iff {n : Int} : int64 n = n ↔ FitsInt64 n := by
  unfold int64 FitsInt64
  constructor
  · intro h
    have hle := @Int.le_bmod n (2 ^ 64) (by decide)
    have hlt := @Int.bmod_lt n (2 ^ 64) (by decide)
    omega
  · rintro ⟨hle, hlt⟩
    exact Int.bmod_eq_of_le (by omega) (by omega)

/-- A sum wraps around once, whether or not a summand has done so before. -/
theorem int64_add_left (m n : Int) : int64 (int64 m + n) = int64 (m + n) := Int.bmod_add_bmod

/-- The same for the second summand. -/
theorem int64_add_right (m n : Int) : int64 (m + int64 n) = int64 (m + n) := by
  rw [Int.add_comm, int64_add_left, Int.add_comm]

/-- A sum of wrapped numbers wraps to what the sum of the numbers wraps to. -/
theorem int64_sum {α : Type} (f : α → Int) (l : List α) :
    int64 ((l.map fun x => int64 (f x)).sum) = int64 (l.map f).sum := by
  induction l with
  | nil => rfl
  | cons x l ih =>
      rw [List.map_cons, List.sum_cons, List.map_cons, List.sum_cons, int64_add_left,
        ← int64_add_right, ih, int64_add_right]

end Orchestrator.Engine
