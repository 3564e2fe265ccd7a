import Mathlib.Data.List.Infix
import Orchestrator.Lib.Dict
import Orchestrator.Lib.Json

/-!
# `Orchestrator.Sdk.Value`: the Python operations on decoded JSON

The SDK works on the dictionaries that `json.loads` returns, without checking the types of the
values. These are the operations it uses on them, with the exceptions they raise on values of
another type.

An operation is a function into `Except PyError`. An exception that the source tells apart, or whose
text it puts into a message, is a constructor with what the text needs; the text itself is left out.
So a loader is written with the `do` notation in the order in which Python evaluates it, and the
first exception ends it.

`PyLib` gathers what the model takes from the Python runtime as it is: which characters are digits,
`repr`, the printer of JSON, and the depth of the stack. The functions on strings (`strip`,
`intOfText`) are written out, because the claims depend on what they accept.
-/

set_option autoImplicit false

namespace Orchestrator.Sdk

open Orchestrator.Lib

/-- The exceptions of the modelled code, by their classes. A message is kept where some part of the
source builds or shows it. -/
inductive PyError
  | keyError (key : String)
  | attributeError (name : String)
  | typeError
  | valueError (msg : String)
  | overflowError
  | cancelledError
  /-- `SpecError`. -/
  | specError (msg : String)
  | runtimeError (msg : String)
  | recursionError
  /-- An exception of a handler that nothing catches, by the name of its type. -/
  | uncaught (type : String)
  /-- `SystemExit` or `KeyboardInterrupt` of a handler. -/
  | exit (type : String)
  /-- A field gets a value of another type than its annotation says. Python stores the value;
  the classes of the model cannot hold it. -/
  | untyped (field : String)
deriving DecidableEq

/-- `d.get(key, default)`. Only a dictionary has `get`, so on any other value it is an
`AttributeError`. -/
def pyGet (d : Json) (key : String) (default : Json) : Except PyError Json :=
  match d with
  | .obj members => .ok ((Dict.find key members).getD default)
  | _ => .error (.attributeError "get")

/-- `d[key]`, with a string key. A missing key is a `KeyError`, and another type of value a
`TypeError`. -/
def pyItem (d : Json) (key : String) : Except PyError Json :=
  match d with
  | .obj members =>
    match Dict.find key members with
    | some v => .ok v
    | none => .error (.keyError key)
  | _ => .error .typeError

/-- The truth value: empty texts, lists and dictionaries are false, and so are zero, `None` and
`False`. -/
def truthy : Json → Bool
  | .null => false
  | .bool b => b
  | .num n => n.value ≠ 0
  | .str s => s ≠ ""
  | .arr items => !items.isEmpty
  | .obj members => !members.isEmpty

/-- `v or {}`. -/
def orEmpty (v : Json) : Json := if truthy v then v else .obj []

/-- The value is the given string. -/
def isStr (s : String) : Json → Bool
  | .str t => t = s
  | _ => false

/-- `key in d`, with a string key: a key of a dictionary, an element of a list, or a part of a
string. Numbers and `None` are not containers. -/
def pyIn (key : String) : Json → Except PyError Bool
  | .obj members => .ok (Dict.find key members).isSome
  | .arr items => .ok (items.any (isStr key))
  | .str s => .ok (decide (key.toList <:+: s.toList))
  | _ => .error .typeError

/-- The elements of `for x in d`: the characters of a string, the keys of a dictionary. -/
def pyIter : Json → Except PyError (List Json)
  | .arr items => .ok items
  | .obj members => .ok (members.map (fun e => .str e.1))
  | .str s => .ok (s.toList.map (fun c => .str (String.singleton c)))
  | _ => .error .typeError

/-- The pairs of `d.items()`. -/
def pyItems : Json → Except PyError (List (String × Json))
  | .obj members => .ok members
  | _ => .error (.attributeError "items")

/-- What the SDK uses of the Python runtime. What a result needs of these functions is a hypothesis
of it, stated for the texts that matter. -/
structure PyLib where
  /-- The value of a decimal digit, of any script. -/
  decimal : Char → Option Nat
  /-- `repr`. -/
  repr : Json → String
  /-- `json.dumps`. -/
  dumps : Json → String
  /-- The number of nested calls left to `Workflow.validate`. -/
  recursionLimit : Nat

/-- `str.isspace` of a character, as `str.strip` uses it. It has the four separators from U+001C on
in addition to those of Go. -/
def isSpace (c : Char) : Bool :=
  let n := c.toNat
  (9 ≤ n && n ≤ 13) || (0x1C ≤ n && n ≤ 0x20) || n = 0x85 || n = 0xA0 || n = 0x1680 ||
    (0x2000 ≤ n && n ≤ 0x200A) || n = 0x2028 || n = 0x2029 || n = 0x202F || n = 0x205F ||
    n = 0x3000

/-- `s.strip()`. -/
def strip (cs : List Char) : List Char :=
  ((cs.dropWhile isSpace).reverse.dropWhile isSpace).reverse

/-- The number a list of digits writes. -/
def ofDigits (lib : PyLib) (cs : List Char) : Nat :=
  cs.foldl (fun n c => 10 * n + (lib.decimal c).getD 0) 0

/-- Digits with single underscores between them, which `int` accepts. None stands at either end. -/
def digitGroups (lib : PyLib) (cs : List Char) : Option Nat :=
  let groups := cs.splitOn '_'
  if groups.all (fun g => !g.isEmpty && g.all (fun c => (lib.decimal c).isSome)) then
    some (ofDigits lib groups.flatten)
  else none

/-- `int(s)` of a string: an optional sign and digits, with blanks around them. -/
def intOfText (lib : PyLib) (s : String) : Option Int :=
  match strip s.toList with
  | '-' :: cs => (digitGroups lib cs).map fun n => -(n : Int)
  | '+' :: cs => (digitGroups lib cs).map Int.ofNat
  | cs => (digitGroups lib cs).map Int.ofNat

/-- `int(v)`. A float is cut off towards zero, and a string is read. A truth value is a number, and
containers are refused. -/
def pyInt (lib : PyLib) : Json → Except PyError Int
  | .num n => .ok n.truncate
  | .bool b => .ok (if b then 1 else 0)
  | .str s =>
    match intOfText lib s with
    | some n => .ok n
    | none =>
      .error (.valueError ("invalid literal for int() with base 10: " ++ lib.repr (.str s)))
  | _ => .error .typeError

/-- The members of `f(**d)`, when the parameters of `f` are `required` and `optional`. A name that
is missing or not expected is a `TypeError` of the call. -/
def pyKwargs (required optional : List String) : Json → Except PyError (List (String × Json))
  | .obj members =>
    if required.all (fun k => k ∈ members.map Prod.fst) &&
        members.all (fun e => e.1 ∈ required ++ optional) then .ok members
    else .error .typeError
  | _ => .error .typeError

/-- The argument for a parameter, or its default. -/
def argOr (args : List (String × Json)) (key : String) (default : Json) : Json :=
  (Dict.find key args).getD default

end Orchestrator.Sdk
