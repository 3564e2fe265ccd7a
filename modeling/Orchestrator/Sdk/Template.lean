import Orchestrator.Engine.Template
import Orchestrator.Sdk.Value

/-!
# `Orchestrator.Sdk.Template`: `${...}` references (`sdk-python/orchestrator/spec.py`)

`resolve_template` and `_lookup`. The expression `_TEMPLATE_RE` is the one of the engine, so its
matches are the references that `Engine.scan` finds.

A string that is one reference takes the value of the reference, whatever its type. In a longer
string each reference is replaced by the text of its value: strings stand as they are, and other
values are written by `json.dumps`, whose text is a parameter of the model (`PyLib`). A path that
leads nowhere is a `SpecError` with the path in its message, and nothing of the value is resolved
then.

Lists and dictionaries are resolved part by part. The recursion follows the value, so it ends.
-/

set_option autoImplicit false

namespace Orchestrator.Sdk

open Orchestrator.Lib
open Orchestrator.Engine (Segment scan splitPath)

/-- The `SpecError` of `_lookup`. -/
def unresolved (path : List Char) : PyError :=
  .specError s!"unresolved template reference: $\x7b{String.ofList path}\x7d"

/-- The loop of `_lookup` from a node along the parts of a path. It goes on only in a dictionary
that has the part as a key. -/
def lookupFrom (path : List Char) : Json → List String → Except PyError Json
  | node, [] => .ok node
  | node, p :: parts =>
    match node with
    | .obj members =>
      match Dict.find p members with
      | some v => lookupFrom path v parts
      | none => .error (unresolved path)
    | _ => .error (unresolved path)

/-- `_lookup`: follow a dotted path from the scope. -/
def lookup (path : List Char) (scope : Json) : Except PyError Json :=
  lookupFrom path scope (splitPath path)

/-- The text that `repl` puts in the place of a reference. -/
def inlineText (lib : PyLib) : Json → List Char
  | .str s => s.toList
  | v => (lib.dumps v).toList

/-- `_TEMPLATE_RE.sub(repl, value)`, on the scanned value. The references are looked up from left to
right, and the first that fails raises. -/
def substitute (lib : PyLib) (scope : Json) : List Segment → Except PyError (List Char)
  | [] => .ok []
  | .lit c :: rest => do
    let out ← substitute lib scope rest
    .ok (c :: out)
  | .ref inner :: rest => do
    let v ← lookup (strip inner) scope
    let out ← substitute lib scope rest
    .ok (inlineText lib v ++ out)

/-- `resolve_template` of a string. One that is a single reference, apart from blanks around it,
becomes the value itself. Any other stays a string. -/
def resolveString (lib : PyLib) (s : String) (scope : Json) : Except PyError Json :=
  match scan (strip s.toList) with
  | [.ref inner] => lookup (strip inner) scope
  | _ => do
    let out ← substitute lib scope (scan s.toList)
    .ok (.str (String.ofList out))

mutual

/-- `resolve_template`, for a value of any type. What is neither a string, a list nor a dictionary
stays as it is. -/
def resolveTemplate (lib : PyLib) (scope : Json) : Json → Except PyError Json
  | .obj members => do
    let out ← resolveMembers lib scope members
    .ok (.obj out)
  | .arr items => do
    let out ← resolveItems lib scope items
    .ok (.arr out)
  | .str s => resolveString lib s scope
  | .null => .ok .null
  | .bool b => .ok (.bool b)
  | .num n => .ok (.num n)

/-- The elements of a list, from the first to the last. The first one that raises ends the whole. -/
def resolveItems (lib : PyLib) (scope : Json) : List Json → Except PyError (List Json)
  | [] => .ok []
  | v :: rest => do
    let v ← resolveTemplate lib scope v
    let rest ← resolveItems lib scope rest
    .ok (v :: rest)

/-- The items of a dictionary, in their order. The keys are not resolved. -/
def resolveMembers (lib : PyLib) (scope : Json) :
    List (String × Json) → Except PyError (List (String × Json))
  | [] => .ok []
  | (k, v) :: rest => do
    let v ← resolveTemplate lib scope v
    let rest ← resolveMembers lib scope rest
    .ok ((k, v) :: rest)

end

end Orchestrator.Sdk
