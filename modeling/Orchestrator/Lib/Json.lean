import Mathlib.Data.Rat.Defs

/-!
# `Orchestrator.Lib.Json`: JSON values

The document type both engines exchange. An object is the list of its members in document order. A
key may come twice in that list, as in a text: what a reader makes of it is the reader's affair, and
the two languages differ there.

A number is exact, and remembers how it is written. JSON has one kind of number, and so has Go,
whose decoder reads `1` and `1.0` into the same float64. Python does not: `json.loads` makes an
`int` of `1` and a `float` of `1.0`, and `json.dumps` writes them back as two texts. A decoder into
a Go `int` field sees the difference as well, since it takes the digits of `1` and refuses `1.0`. So
the notation is a part of the value here, and whoever does not care for it uses `value`.

No text is modelled in this module. `Orchestrator.Lib.JsonText` has the printers, and the scanners
of the two libraries are parameters of the modules that call them.
-/

set_option autoImplicit false

namespace Orchestrator.Lib

/-- A number as a document writes it: as an integer, without a fraction and an exponent, or with
one of the two. `minusZero` is the zero with a sign, `-0` or, with the point, `-0.0`: Go keeps the
sign of both, and Python that of the second one. -/
inductive Number
  | int (z : ℤ)
  | float (q : ℚ)
  | minusZero (point : Bool)
deriving DecidableEq

namespace Number

/-- The number, whatever its notation. Two notations of one value are told apart by their texts
only, so this is what survives a printer that chooses its own notation. -/
def value : Number → ℚ
  | .int z => z
  | .float q => q
  | .minusZero _ => 0

/-- The number with this value, in the notation without a fraction where there is one. This is the
canonical notation, so two numbers of one value become equal under it. -/
def ofRat (q : ℚ) : Number := if q.den = 1 then .int q.num else .float q

/-- The number without its fraction, as `int()` of Python cuts it off: towards zero, on both sides
of it. -/
def truncate : Number → ℤ
  | .int z => z
  | .float q => q.num.tdiv q.den
  | .minusZero _ => 0

/-- A literal is an integer. -/
instance (n : ℕ) : OfNat Number n := ⟨.int n⟩

instance : Coe ℤ Number := ⟨.int⟩

/-- The value of an integer is that integer. -/
@[simp] theorem value_int (z : ℤ) : (Number.int z).value = z := rfl

/-- A float has the value that it is written with: no rounding takes place. -/
@[simp] theorem value_float (q : ℚ) : (Number.float q).value = q := rfl

/-- Both notations of the negative zero have the value zero. -/
@[simp] theorem value_minusZero (point : Bool) : (Number.minusZero point).value = 0 := rfl

/-- `ofRat` keeps the value and chooses the notation. -/
@[simp] theorem value_ofRat (q : ℚ) : (ofRat q).value = q := by
  unfold ofRat
  split
  · rename_i h
    exact Rat.coe_int_num_of_den_eq_one h
  · rfl

/-- The canonical notation determines the value. -/
theorem ofRat_inj {p q : ℚ} : ofRat p = ofRat q ↔ p = q :=
  ⟨fun h => by rw [← value_ofRat p, h, value_ofRat], fun h => congrArg ofRat h⟩

/-- An integral value is not changed by cutting off its fraction. -/
theorem truncate_eq {n : Number} (h : n.value.den = 1) : n.truncate = n.value.num := by
  cases n with
  | int z => rfl
  | float q => simp [truncate, show q.den = 1 from h]
  | minusZero point => rfl

end Number

/-- A JSON value, as a document is parsed. The members of an object stand in the order of the
document and may have a key twice. What a reader makes of that is left to it: Python keeps the last
one, and Go decodes each in its turn. -/
inductive Json
  | null
  | bool (b : Bool)
  | num (n : Number)
  | str (s : String)
  | arr (items : List Json)
  | obj (members : List (String × Json))

instance : Inhabited Json := ⟨.null⟩

end Orchestrator.Lib
