import Orchestrator.Engine.GoLib

/-!
# `Orchestrator.Engine.Template`: `${...}` references (`engine/internal/spec/template.go`)

`resolve` substitutes the references of a value. The scanner `scan` cuts a string into plain
characters and references the way the expression `\$\{([^}]+)\}` does: leftmost matches that do not
overlap, each running to the first closing brace. An opening without a brace behind it, or with
nothing in between, is plain text.

A string that is one whole reference, blanks around it aside, becomes the value that the path leads
to, of whatever type. In any other string the values are put in as text: a string as it is, anything
else as `json.Marshal` writes it. A path is split at its dots and followed through objects, so a
name with a dot in it cannot be reached.

The first reference that fails ends the substitution, with an error that names the path or the part
at which it left the objects. Within an object the members are visited in the order of a Go map,
which the caller fixes by the list it passes.

The text of values and the quoting in errors are the library's (`GoLib`).
-/

set_option autoImplicit false

namespace Orchestrator.Engine

open Orchestrator.Lib

/-- `unicode.IsSpace`: the blanks that `strings.TrimSpace` removes around a reference. -/
def isSpace (c : Char) : Bool :=
  let n := c.toNat
  (9 ≤ n && n ≤ 13) || n = 0x20 || n = 0x85 || n = 0xA0 || n = 0x1680 ||
    (0x2000 ≤ n && n ≤ 0x200A) || n = 0x2028 || n = 0x2029 || n = 0x202F || n = 0x205F ||
    n = 0x3000

/-- Drop the characters of a class at both ends. -/
def trimWith (space : Char → Bool) (cs : List Char) : List Char :=
  ((cs.dropWhile space).reverse.dropWhile space).reverse

/-- `strings.TrimSpace`. -/
def trimSpace (cs : List Char) : List Char := trimWith isSpace cs

/-- A piece of a scanned string: a character as it is, or the text between the braces of a
reference. -/
inductive Segment
  | lit (c : Char)
  | ref (inner : List Char)
deriving DecidableEq

/-- The text between the braces when a reference starts here. It is not empty and does not contain a
closing brace, but anything else, a line break included. -/
def matchRef : List Char → Option (List Char)
  | '$' :: '{' :: rest =>
    let inner := rest.takeWhile (· ≠ '}')
    if inner ≠ [] ∧ inner.length < rest.length then some inner else none
  | _ => none

/-- Scan a string; `skip` characters belong to the reference found last. The matches are those of
the leftmost search of a regular expression, and they do not overlap. -/
def scanFrom : Nat → List Char → List Segment
  | _, [] => []
  | skip + 1, _ :: cs => scanFrom skip cs
  | 0, c :: cs =>
    match matchRef (c :: cs) with
    | some inner => .ref inner :: scanFrom (inner.length + 2) cs
    | none => .lit c :: scanFrom 0 cs

/-- Cut a string into plain characters and references. -/
def scan (cs : List Char) : List Segment := scanFrom 0 cs

/-- `strings.Split(path, ".")`. -/
def splitPath (path : List Char) : List String := (path.splitOn '.').map String.ofList

/-- The walk of `lookup` from a node along the parts of a path. The two errors are a member that is
not there and a node that is no object. -/
def lookupFrom (lib : GoLib) (path : List Char) : Json → List String → Except String Json
  | node, [] => .ok node
  | node, p :: parts =>
    match node with
    | .obj members =>
      match Dict.find p members with
      | some v => lookupFrom lib path v parts
      | none => .error s!"template: unresolved reference $\x7b{String.ofList path}\x7d"
    | _ => .error (s!"template: cannot traverse into non-object at {lib.quote p} in path " ++
        lib.quote (String.ofList path))

/-- `lookup`: follow a dotted path from the scope. -/
def lookup (lib : GoLib) (path : List Char) (scope : Json) : Except String Json :=
  lookupFrom lib path scope (splitPath path)

/-- The text that replaces a reference inside a longer string. -/
def inlineText (lib : GoLib) : Json → List Char
  | .str s => s.toList
  | v => (lib.marshal v).toList

/-- Replace the references of a scanned string, left to right; the first failure wins. -/
def substitute (lib : GoLib) (scope : Json) : List Segment → Except String (List Char)
  | [] => .ok []
  | .lit c :: rest => do
    let out ← substitute lib scope rest
    .ok (c :: out)
  | .ref inner :: rest => do
    let v ← lookup lib (trimSpace inner) scope
    let out ← substitute lib scope rest
    .ok (inlineText lib v ++ out)

/-- `Resolve` of a string: one whole reference keeps the type of its value, otherwise the
references are replaced by text. -/
def resolveString (lib : GoLib) (s : String) (scope : Json) : Except String Json :=
  match scan (trimSpace s.toList) with
  | [.ref inner] => lookup lib (trimSpace inner) scope
  | _ => do
    let out ← substitute lib scope (scan s.toList)
    .ok (.str (String.ofList out))

mutual

/-- `Resolve`: substitute the references of a value. The members of an object are visited in
the order of the list, which stands for the order of the map. -/
def resolve (lib : GoLib) (scope : Json) : Json → Except String Json
  | .obj members => do
    let out ← resolveMembers lib scope members
    .ok (.obj out)
  | .arr items => do
    let out ← resolveItems lib scope items
    .ok (.arr out)
  | .str s => resolveString lib s scope
  | .null => .ok .null
  | .bool b => .ok (.bool b)
  | .num n => .ok (.num n)

/-- The elements of an array, from the first to the last. The first one that fails is the error of
the whole. -/
def resolveItems (lib : GoLib) (scope : Json) : List Json → Except String (List Json)
  | [] => .ok []
  | v :: rest => do
    let v ← resolve lib scope v
    let rest ← resolveItems lib scope rest
    .ok (v :: rest)

/-- The members of an object. Keys are not resolved, and Go ranges over them in any order, which
only the choice of the error shows. -/
def resolveMembers (lib : GoLib) (scope : Json) :
    List (String × Json) → Except String (List (String × Json))
  | [] => .ok []
  | (k, v) :: rest => do
    let v ← resolve lib scope v
    let rest ← resolveMembers lib scope rest
    .ok ((k, v) :: rest)

end

end Orchestrator.Engine
