import Orchestrator.Lib.JsonText
import Orchestrator.Proofs.Scope

/-!
# `Orchestrator.Proofs.TemplatesAgree`: one template in two resolvers

`spec.Resolve` and `resolve_template` cut a string into references alike. They differ in two library
functions: the printer that writes a value inside a longer string (`goStyle`, `pyStyle`), and the
function that drops the blanks around a string and a path (`trimSpace`, `strip`).

A string is read as a `Reading`, whose references hold trimmed paths, and `fill` puts the values of
a scope in it. `resolveString_eq_fill` and `sdk_resolveString_eq_fill` say that both resolvers are
this one function with their own printer and their own trim.

When both read a string alike, the question is when two fillings are one text. The texts of a value
differ before one of them ends, or one is the other with `.0` behind it, as for a float of integral
value. Neither difference can be made up for by what follows (`fillParts_eq_iff`, from the lemmas
about texts in `Lib.JsonText`), so the texts are equal exactly when each value in them is written
alike.

When the two read a string differently, because of one of the four characters that only one of the
trims drops, some scope tells them apart (`exists_disagreement`). The `atlas` is a scope in which
every path leads to an object that says where it is, so two readings of one string cannot lead to
the same values.
-/

set_option autoImplicit false

namespace Orchestrator.Proofs

open Orchestrator.Lib
open Orchestrator.Engine (GoLib Segment scan splitPath trimSpace)
open Orchestrator.Sdk (PyLib strip)

/-! ### The printers

The default output of `json.Marshal` (Go 1.21, the version of `go.mod`) and of `json.dumps`. -/

/-- `\u` and four hexadecimal digits. -/
def hexEscape (n : Nat) : List Char :=
  ['\\', 'u', (n / 4096 % 16).digitChar, (n / 256 % 16).digitChar, (n / 16 % 16).digitChar,
    (n % 16).digitChar]

/-- A character in a string that `json.Marshal` writes. HTML characters are escaped, which is its
default. -/
def goEsc (c : Char) : List Char :=
  if c = '"' ∨ c = '\\' then ['\\', c]
  else if c = '\n' then ['\\', 'n']
  else if c = '\r' then ['\\', 'r']
  else if c = '\t' then ['\\', 't']
  else if c.toNat < 0x20 ∨ c = '<' ∨ c = '>' ∨ c = '&' ∨ c.toNat = 0x2028 ∨ c.toNat = 0x2029 then
    hexEscape c.toNat
  else [c]

/-- A character in a string that `json.dumps` writes: `ensure_ascii` is on, so everything beyond
ASCII is escaped, by a surrogate pair where one escape is not enough. -/
def pyEsc (c : Char) : List Char :=
  if c = '"' ∨ c = '\\' then ['\\', c]
  else if c = '\n' then ['\\', 'n']
  else if c = '\r' then ['\\', 'r']
  else if c = '\t' then ['\\', 't']
  else if c.toNat = 0x8 then ['\\', 'b']
  else if c.toNat = 0xC then ['\\', 'f']
  else if 0x20 ≤ c.toNat ∧ c.toNat ≤ 0x7E then [c]
  else if c.toNat < 0x10000 then hexEscape c.toNat
  else
    -- A surrogate pair.
    let n := c.toNat - 0x10000
    hexEscape (0xD800 + n / 0x400 % 0x400) ++ hexEscape (0xDC00 + n % 0x400)

/-- The texts of a number. Both libraries write the shortest numeral that reads back as it. On an
integral float they differ, since `json.dumps` keeps it apart from an integer: `1.0` against the `1`
of `json.Marshal`. Otherwise the notations agree, or one of them has an exponent, or the number is
an integer with more digits than a float64, and then neither text continues the other. -/
structure NumberTexts where
  go : Number → List Char
  py : Number → List Char
  go_head : ∀ n, ∃ c cs, go n = c :: cs ∧ (c.isDigit = true ∨ c = '-')
  py_head : ∀ n, ∃ c cs, py n = c :: cs ∧ (c.isDigit = true ∨ c = '-')
  forms : ∀ n, Piece (go n) (py n)

/-- A code escape is the text of a character. -/
theorem isBody_hexEscape (n : Nat) : isBody false (hexEscape n) = true := by
  have hdigit : ∀ m, m < 16 → m.digitChar ≠ '"' ∧ m.digitChar ≠ '\\' := by decide
  have h1 := hdigit _ (Nat.mod_lt (n / 4096) (by decide : 0 < 16))
  have h2 := hdigit _ (Nat.mod_lt (n / 256) (by decide : 0 < 16))
  have h3 := hdigit _ (Nat.mod_lt (n / 16) (by decide : 0 < 16))
  have h4 := hdigit _ (Nat.mod_lt n (by decide : 0 < 16))
  simp [hexEscape, isBody, h1, h2, h3, h4]

/-- What `json.Marshal` writes for a character is the text of one. -/
theorem isBody_goEsc (c : Char) : isBody false (goEsc c) = true := by
  unfold goEsc
  split
  · rfl
  · rename_i hquote
    have hbare : isBody false [c] = true := by
      rw [not_or] at hquote
      simp [isBody, hquote.1, hquote.2]
    repeat' split
    all_goals first | rfl | exact isBody_hexEscape _ | exact hbare

/-- What `json.dumps` writes for a character is the text of one. -/
theorem isBody_pyEsc (c : Char) : isBody false (pyEsc c) = true := by
  unfold pyEsc
  split
  · rfl
  · rename_i hquote
    have hbare : isBody false [c] = true := by
      rw [not_or] at hquote
      simp [isBody, hquote.1, hquote.2]
    repeat' split
    all_goals first
      | rfl
      | exact isBody_hexEscape _
      | exact hbare
      | exact isBody_append (isBody_hexEscape _) (isBody_hexEscape _)

/-- A first character of a numeral is no blank and no point. -/
theorem numeral_head {t : List Char} (h : ∃ c cs, t = c :: cs ∧ (c.isDigit = true ∨ c = '-')) :
    ∃ c cs, t = c :: cs ∧ c ≠ ' ' ∧ c ≠ '.' := by
  obtain ⟨c, cs, ht, hc⟩ := h
  refine ⟨c, cs, ht, ?_, ?_⟩
  all_goals
    rintro rfl
    revert hc
    decide

/-- `json.Marshal`. It writes no blanks, and it sorts the keys of a map. -/
def goStyle (N : NumberTexts) : JsonStyle where
  num := N.go
  esc := goEsc
  itemSep := [',']
  keySep := [':']
  arrange l := l.insertionSort (fun a b => a.1 ≤ b.1)
  num_head n := numeral_head (N.go_head n)
  esc_body := isBody_goEsc
  arrange_perm l := List.perm_insertionSort _ l

/-- `json.dumps`. It puts a blank behind each separator, and it keeps the order of a dictionary. -/
def pyStyle (N : NumberTexts) : JsonStyle where
  num := N.py
  esc := pyEsc
  itemSep := [',', ' ']
  keySep := [':', ' ']
  arrange l := l
  num_head n := numeral_head (N.py_head n)
  esc_body := isBody_pyEsc
  arrange_perm l := List.Perm.refl l

/-- The two libraries have their documented default output. -/
structure DocumentedOutput (N : NumberTexts) (go : GoLib) (py : PyLib) : Prop where
  marshal : ∀ v, go.marshal v = String.ofList ((goStyle N).print v)
  dumps : ∀ v, py.dumps v = String.ofList ((pyStyle N).print v)

/-- The characters that both printers write alike. -/
def PlainChar (c : Char) : Prop :=
  (c.toNat ≤ 0x7E ∧ c ≠ '<' ∧ c ≠ '>' ∧ c ≠ '&' ∧ c.toNat ≠ 0x8 ∧ c.toNat ≠ 0xC) ∨
    c.toNat = 0x2028 ∨ c.toNat = 0x2029

/-- A code escape is no short escape, and neither continues the other. -/
theorem hexEscape_short (n : Nat) {d : Char} (hd : d ≠ 'u') :
    hexEscape n ≠ ['\\', d] ∧ Apart (hexEscape n) ['\\', d] :=
  ⟨fun h => hd (List.cons.inj (List.cons.inj h).2).1.symm,
    Apart.cons '\\' (Apart.of_head (Ne.symm hd))⟩

/-- A code escape is no bare character, and neither continues the other. -/
theorem bare_hexEscape {c : Char} (hc : c ≠ '\\') (n : Nat) (r : List Char) :
    [c] ≠ hexEscape n ++ r ∧ Apart [c] (hexEscape n ++ r) :=
  ⟨fun h => hc (List.cons.inj h).1, Apart.of_head hc⟩

/-- A code escape is no bare character but a backslash, and neither continues the other. -/
theorem hexEscape_bare {c : Char} (hc : c ≠ '\\') (n : Nat) :
    hexEscape n ≠ [c] ∧ Apart (hexEscape n) [c] :=
  ⟨fun h => hc (List.cons.inj h).1.symm, Apart.of_head (Ne.symm hc)⟩

/-- The two texts of a character: one text, or two that differ before one of them ends. -/
theorem esc_cases (c : Char) : (PlainChar c ∧ goEsc c = pyEsc c) ∨
    (¬ PlainChar c ∧ goEsc c ≠ pyEsc c ∧ Apart (goEsc c) (pyEsc c)) := by
  have hnat : ∀ d : Char, c = d ↔ c.toNat = d.toNat := fun d => Char.toNat_inj.symm
  have hbare : c.toNat ≠ 92 → c ≠ '\\' := fun h hc => h (by rw [hc]; rfl)
  simp only [PlainChar, goEsc, pyEsc, ne_eq, hnat, Char.reduceToNat]
  split_ifs
  all_goals first
    | exact Or.inl ⟨by omega, rfl⟩
    | exact Or.inr ⟨by omega, hexEscape_short _ (by decide)⟩
    | exact Or.inr ⟨by omega, hexEscape_bare (hbare (by omega)) _⟩
    | exact Or.inr ⟨by omega, bare_hexEscape (hbare (by omega)) _ []⟩
    | exact Or.inr ⟨by omega, bare_hexEscape (hbare (by omega)) _ _⟩
    | omega

/-- The two printers, as two styles. -/
theorem spaced (N : NumberTexts) : JsonStyle.Spaced (goStyle N) (pyStyle N) where
  items := rfl
  items_head := ⟨',', [], rfl, by decide⟩
  keys := rfl
  esc c := by
    rcases esc_cases c with ⟨-, he⟩ | ⟨-, -, ha⟩
    · show Apart (goEsc c) (pyEsc c)
      rw [he]
      exact Apart.refl _
    · exact ha
  num := N.forms

/-! ### Readings -/

/-- The value that the parts of a path lead to. It is the part of `lookup` that both resolvers
share. -/
def followFrom : Json → List String → Option Json
  | node, [] => some node
  | .obj members, p :: parts => (Dict.find p members).bind fun v => followFrom v parts
  | _, _ :: _ => none

/-- The value that a dotted path leads to. -/
def follow (scope : Json) (path : List Char) : Option Json := followFrom scope (splitPath path)

/-- The lookup of the engine follows the path. -/
theorem toOption_lookup (lib : GoLib) (path : List Char) (scope : Json) :
    (Engine.lookup lib path scope).toOption = follow scope path := by
  rw [Engine.lookup, follow]
  induction splitPath path generalizing scope with
  | nil => rfl
  | cons p parts ih =>
      cases scope with
      | obj members =>
          rw [Engine.lookupFrom, followFrom]
          cases hp : Dict.find p members with
          | none => rfl
          | some v => exact ih v
      | _ => rfl

/-- The lookup of the runner follows the path. -/
theorem toOption_sdk_lookup (path : List Char) (scope : Json) :
    (Sdk.lookup path scope).toOption = follow scope path := by
  rw [Sdk.lookup, follow]
  induction splitPath path generalizing scope with
  | nil => rfl
  | cons p parts ih =>
      cases scope with
      | obj members =>
          rw [Sdk.lookupFrom, followFrom]
          cases hp : Dict.find p members with
          | none => rfl
          | some v => exact ih v
      | _ => rfl

/-- How a resolver reads a string: as one reference, or as characters and references. The references
hold trimmed paths. -/
inductive Reading
  | whole (path : List Char)
  | parts (segs : List Segment)
deriving DecidableEq

/-- Trim the path of a reference. -/
def trimRef (trim : List Char → List Char) : Segment → Segment
  | .lit c => .lit c
  | .ref inner => .ref (trim inner)

/-- The reading of a string by a resolver with this trim: one reference alone is replaced by its
value, anything else part by part. -/
def readString (trim : List Char → List Char) (s : String) : Reading :=
  match scan (trim s.toList) with
  | [.ref inner] => .whole (trim inner)
  | _ => .parts ((scan s.toList).map (trimRef trim))

/-- The path of a reference. -/
def refPath : Segment → Option (List Char)
  | .lit _ => none
  | .ref path => some path

/-- The references inside a longer string. -/
def Reading.inline : Reading → List (List Char)
  | .whole _ => []
  | .parts segs => segs.filterMap refPath

/-- All references. -/
def Reading.paths : Reading → List (List Char)
  | .whole path => [path]
  | .parts segs => segs.filterMap refPath

/-- Put texts in the place of the references. If one of them leads nowhere there is no text at
all. -/
def fillParts (text : Json → List Char) (scope : Json) : List Segment → Option (List Char)
  | [] => some []
  | .lit c :: rest => (fillParts text scope rest).map (c :: ·)
  | .ref path :: rest =>
    (follow scope path).bind fun v => (fillParts text scope rest).map (text v ++ ·)

/-- Put the values of a scope in a reading. -/
def fill (text : Json → List Char) (scope : Json) : Reading → Option Json
  | .whole path => follow scope path
  | .parts segs => (fillParts text scope segs).map fun out => .str (String.ofList out)

/-- The reading of a string that is not one whole reference. -/
theorem readString_parts {trim : List Char → List Char} {s : String}
    (h : ∀ inner, scan (trim s.toList) ≠ [.ref inner]) :
    readString trim s = .parts ((scan s.toList).map (trimRef trim)) := by
  rw [readString]
  split
  · rename_i inner hwhole
    exact absurd hwhole (h inner)
  · rfl

/-- The engine resolves a string as it reads it. -/
theorem resolveString_eq_fill (lib : GoLib) (s : String) (scope : Json) :
    (Engine.resolveString lib s scope).toOption
      = fill (Engine.inlineText lib) scope (readString trimSpace s) := by
  -- The code goes over the segments and stops at the first error, as `fillParts` does.
  have key : ∀ segs : List Segment, (Engine.substitute lib scope segs).toOption
      = fillParts (Engine.inlineText lib) scope (segs.map (trimRef trimSpace)) := by
    intro segs
    induction segs with
    | nil => rfl
    | cons seg segs ih =>
        cases seg with
        | lit c =>
            rw [List.map_cons, trimRef, fillParts, Engine.substitute, ← ih]
            cases Engine.substitute lib scope segs <;> rfl
        | ref inner =>
            rw [List.map_cons, trimRef, fillParts, Engine.substitute, ← ih, ← toOption_lookup lib]
            cases Engine.lookup lib (trimSpace inner) scope with
            | error e => rfl
            | ok v => cases Engine.substitute lib scope segs <;> rfl
  by_cases hwhole : ∃ inner, scan (trimSpace s.toList) = [.ref inner]
  · obtain ⟨inner, hwhole⟩ := hwhole
    rw [resolveString_whole hwhole, toOption_lookup, readString, hwhole]
    rfl
  · have hparts := not_exists.mp hwhole
    rw [resolveString_parts hparts, readString_parts hparts, fill, ← key]
    cases Engine.substitute lib scope (scan s.toList) <;> rfl

/-- The runner resolves a string as it reads it. -/
theorem sdk_resolveString_eq_fill (lib : PyLib) (s : String) (scope : Json) :
    (Sdk.resolveString lib s scope).toOption
      = fill (Sdk.inlineText lib) scope (readString strip s) := by
  -- As for the Go engine, with Python's trimming and printing.
  have key : ∀ segs : List Segment, (Sdk.substitute lib scope segs).toOption
      = fillParts (Sdk.inlineText lib) scope (segs.map (trimRef strip)) := by
    intro segs
    induction segs with
    | nil => rfl
    | cons seg segs ih =>
        cases seg with
        | lit c =>
            rw [List.map_cons, trimRef, fillParts, Sdk.substitute, ← ih]
            cases Sdk.substitute lib scope segs <;> rfl
        | ref inner =>
            rw [List.map_cons, trimRef, fillParts, Sdk.substitute, ← ih, ← toOption_sdk_lookup]
            cases Sdk.lookup (strip inner) scope with
            | error e => rfl
            | ok v => cases Sdk.substitute lib scope segs <;> rfl
  by_cases hwhole : ∃ inner, scan (strip s.toList) = [.ref inner]
  · obtain ⟨inner, hwhole⟩ := hwhole
    rw [sdk_resolveString_whole hwhole, toOption_sdk_lookup, readString, hwhole]
    rfl
  · have hparts := not_exists.mp hwhole
    rw [sdk_resolveString_parts hparts, readString_parts hparts, fill, ← key]
    cases Sdk.substitute lib scope (scan s.toList) <;> rfl

/-- A reading fails exactly when one of its references leads nowhere. -/
theorem fill_eq_none (text : Json → List Char) (scope : Json) (r : Reading) :
    fill text scope r = none ↔ ∃ path ∈ r.paths, follow scope path = none := by
  cases r with
  | whole path => simp [fill, Reading.paths]
  | parts segs =>
      rw [fill, Option.map_eq_none_iff, Reading.paths]
      induction segs with
      | nil => simp [fillParts]
      | cons seg segs ih =>
          cases seg with
          | lit c => simpa [fillParts, refPath] using ih
          | ref path =>
              rw [fillParts, List.filterMap_cons_some (by rfl), List.exists_mem_cons_iff, ← ih]
              cases follow scope path <;> simp

/-! ### Agreement -/

/-- A value that both resolvers write alike inside a longer string: a string, which they put in as
it is, or a value whose two texts are one. -/
def WrittenAlike (N : NumberTexts) : Json → Prop
  | .str _ => True
  | v => JsonStyle.Alike (goStyle N) (pyStyle N) v

section

variable {N : NumberTexts} {go : GoLib} {py : PyLib}

/-- The two texts of a value are one exactly when it is written alike. -/
theorem inlineText_eq_iff (hdoc : DocumentedOutput N go py) (v : Json) :
    Engine.inlineText go v = Sdk.inlineText py v ↔ WrittenAlike N v := by
  have htext : ∀ w : Json, (go.marshal w).toList = (py.dumps w).toList ↔
      JsonStyle.Alike (goStyle N) (pyStyle N) w := by
    intro w
    rw [hdoc.marshal, hdoc.dumps, String.toList_ofList, String.toList_ofList]
    refine ⟨fun h => ?_, JsonStyle.print_eq_of_alike⟩
    have h : (goStyle N).print w ++ [] = (pyStyle N).print w ++ [] := by rw [h]
    exact JsonStyle.alike_of_print (spaced N) (fun _ _ _ hnil => by cases hnil) h
  cases v with
  | str s => exact iff_of_true rfl trivial
  | _ => exact htext _

/-- The two texts of a value in a longer string are a piece of it. -/
theorem pieceOk_inlineText (hdoc : DocumentedOutput N go py) (v : Json) :
    PieceOk (Engine.inlineText go v, Sdk.inlineText py v) := by
  have htext : ∀ w : Json, PieceOk ((go.marshal w).toList, (py.dumps w).toList) := by
    intro w
    rw [hdoc.marshal, hdoc.dumps, String.toList_ofList, String.toList_ofList]
    exact JsonStyle.pieceOk_print (spaced N) w
  cases v with
  | str s => exact Or.inl rfl
  | _ => exact htext _

/-- Where every reference leads somewhere, the two fillings are the concatenations of pieces, one
for each character and each reference. -/
theorem exists_pieces (text text' : Json → List Char) (scope : Json) (segs : List Segment)
    (hlead : ∀ path ∈ segs.filterMap refPath, follow scope path ≠ none) :
    ∃ pieces : List (List Char × List Char),
      fillParts text scope segs = some (pieces.flatMap Prod.fst) ∧
      fillParts text' scope segs = some (pieces.flatMap Prod.snd) ∧
      (∀ e ∈ pieces, e.1 = e.2 ∨ ∃ v, e = (text v, text' v)) ∧
      ((∀ e ∈ pieces, e.1 = e.2) ↔
        ∀ path ∈ segs.filterMap refPath, ∀ v, follow scope path = some v → text v = text' v) := by
  induction segs with
  | nil => exact ⟨[], rfl, rfl, by simp, by simp⟩
  | cons seg segs ih =>
      cases seg with
      -- A literal is written by both engines alike.
      | lit c =>
          obtain ⟨pieces, hfst, hsnd, hfrom, hiff⟩ := ih hlead
          refine ⟨([c], [c]) :: pieces, ?_, ?_, ?_, ?_⟩
          · rw [fillParts, hfst]
            rfl
          · rw [fillParts, hsnd]
            rfl
          · exact List.forall_mem_cons.mpr ⟨Or.inl rfl, hfrom⟩
          · rw [List.forall_mem_cons, hiff, List.filterMap_cons_none (by rfl)]
            exact and_iff_right rfl
      -- A reference gives a pair of texts. They may differ, so the pieces are alike exactly if the
      -- values are written alike.
      | ref path =>
          rw [List.filterMap_cons_some (by rfl)] at hlead ⊢
          obtain ⟨hpath, hlead⟩ := List.forall_mem_cons.mp hlead
          obtain ⟨v, hv⟩ := Option.ne_none_iff_exists'.mp hpath
          obtain ⟨pieces, hfst, hsnd, hfrom, hiff⟩ := ih hlead
          refine ⟨(text v, text' v) :: pieces, ?_, ?_, ?_, ?_⟩
          · rw [fillParts, hv, hfst]
            rfl
          · rw [fillParts, hv, hsnd]
            rfl
          · exact List.forall_mem_cons.mpr ⟨Or.inr ⟨v, rfl⟩, hfrom⟩
          · rw [List.forall_mem_cons, List.forall_mem_cons, hiff]
            simp only [hv, Option.some_inj, forall_eq']

/-- Where every reference leads somewhere, two fillings are one text when each value in them is
written alike. A number that is not leaves the second text a `.0` behind, and what follows it never
makes up for that. -/
theorem fillParts_eq_iff (hdoc : DocumentedOutput N go py) (scope : Json) (segs : List Segment)
    (hlead : ∀ path ∈ segs.filterMap refPath, follow scope path ≠ none) :
    fillParts (Engine.inlineText go) scope segs = fillParts (Sdk.inlineText py) scope segs ↔
      ∀ path ∈ segs.filterMap refPath, ∀ v, follow scope path = some v → WrittenAlike N v := by
  obtain ⟨pieces, hfst, hsnd, hfrom, hiff⟩ :=
    exists_pieces (Engine.inlineText go) (Sdk.inlineText py) scope segs hlead
  have hpieces : ∀ e ∈ pieces, PieceOk e := by
    intro e he
    rcases hfrom e he with hsame | ⟨v, rfl⟩
    · exact Or.inl hsame
    · exact pieceOk_inlineText hdoc v
  rw [hfst, hsnd, Option.some_inj, flatMap_eq_iff hpieces, hiff]
  simp only [inlineText_eq_iff hdoc]

/-- Where every reference leads somewhere, two readings are filled alike exactly when each value
inside a longer string is written alike. -/
theorem fill_eq_iff (hdoc : DocumentedOutput N go py) (scope : Json) (r : Reading)
    (hlead : ∀ path ∈ r.paths, follow scope path ≠ none) :
    fill (Engine.inlineText go) scope r = fill (Sdk.inlineText py) scope r ↔
      ∀ path ∈ r.inline, ∀ v, follow scope path = some v → WrittenAlike N v := by
  cases r with
  | whole path => simp [fill, Reading.inline]
  | parts segs =>
      rw [Reading.inline, ← fillParts_eq_iff hdoc scope segs hlead, fill, fill]
      refine (Option.map_injective fun a b h => ?_).eq_iff
      exact String.ofList_injective (Json.str.inj h)

/-- Both resolvers fail, or both succeed with the same value. -/
def Agree (go : GoLib) (py : PyLib) (template scope : Json) : Prop :=
  (Engine.resolve go scope template).toOption = (Sdk.resolveTemplate py scope template).toOption

/-- Both resolvers read every string of the template alike. -/
def SameReading (template : Json) : Prop :=
  ∀ s ∈ template.strings, readString trimSpace s = readString strip s

/-- Some reference leads nowhere, or each one inside a longer string leads to a value that is
written alike. -/
def FillsAlike (N : NumberTexts) (template scope : Json) : Prop :=
  (∃ s ∈ template.strings, ∃ path ∈ (readString trimSpace s).paths, follow scope path = none) ∨
    ∀ s ∈ template.strings, ∀ path ∈ (readString trimSpace s).inline, ∀ v,
      follow scope path = some v → WrittenAlike N v

/-- The resolvers agree when they fill each string alike, or each fails on one. -/
theorem agree_iff_fill (template scope : Json) :
    Agree go py template scope ↔
      ((∃ s ∈ template.strings, ∃ path ∈ (readString trimSpace s).paths, follow scope path = none) ∧
        ∃ s ∈ template.strings, ∃ path ∈ (readString strip s).paths, follow scope path = none) ∨
      ∀ s ∈ template.strings, fill (Engine.inlineText go) scope (readString trimSpace s)
        = fill (Sdk.inlineText py) scope (readString strip s) := by
  rw [Agree, resolve_eq_traverse, resolveTemplate_eq_traverse, Json.toOption_traverseStr,
    Json.toOption_traverseStr, Json.traverseStr_eq_iff]
  simp only [resolveString_eq_fill, sdk_resolveString_eq_fill, fill_eq_none]

/-- On a template that both read alike, the resolvers agree exactly when they fill it alike. -/
theorem agree_iff_fillsAlike (hdoc : DocumentedOutput N go py) {template : Json}
    (hsame : SameReading template) (scope : Json) :
    Agree go py template scope ↔ FillsAlike N template scope := by
  rw [agree_iff_fill, FillsAlike]
  -- A path that leads nowhere is an error in both engines.
  by_cases hfail : ∃ s ∈ template.strings, ∃ path ∈ (readString trimSpace s).paths,
      follow scope path = none
  · refine iff_of_true (Or.inl ⟨hfail, ?_⟩) (Or.inl hfail)
    obtain ⟨s, hs, path, hpath, hnone⟩ := hfail
    exact ⟨s, hs, path, hsame s hs ▸ hpath, hnone⟩
  · have hlead : ∀ s ∈ template.strings, ∀ path ∈ (readString trimSpace s).paths,
        follow scope path ≠ none := fun s hs path hpath hnone => hfail ⟨s, hs, path, hpath, hnone⟩
    have hfill : ∀ s ∈ template.strings, (fill (Engine.inlineText go) scope (readString trimSpace s)
        = fill (Sdk.inlineText py) scope (readString strip s) ↔
          ∀ path ∈ (readString trimSpace s).inline, ∀ v, follow scope path = some v →
            WrittenAlike N v) := by
      intro s hs
      rw [← hsame s hs]
      exact fill_eq_iff hdoc scope _ (hlead s hs)
    constructor
    · rintro (⟨h, -⟩ | h)
      · exact absurd h hfail
      · exact Or.inr fun s hs => (hfill s hs).mp (h s hs)
    · rintro (h | h)
      · exact absurd h hfail
      · exact Or.inr fun s hs => (hfill s hs).mpr (h s hs)

end

/-! ### Templates that are read differently -/

/-- A value in which every path over some keys leads to an object, down to a depth. The member `.`
tells where the object is: no part of a path is `.`. -/
def atlas (keys : List String) : Nat → List String → Json
  | 0, place => .obj ([] ++ [(".", .arr (place.map .str))])
  | n + 1, place =>
    .obj (keys.map (fun k => (k, atlas keys n (place ++ [k]))) ++ [(".", .arr (place.map .str))])

/-- The member of an object that was made from a list of keys. -/
theorem find_map_key (f : String → Json) (rest : List (String × Json)) {keys : List String}
    {k : String} (hk : k ∈ keys) :
    Dict.find k (keys.map (fun k => (k, f k)) ++ rest) = some (f k) := by
  induction keys with
  | nil => cases hk
  | cons x keys ih =>
      rw [List.map_cons, List.cons_append, Dict.find]
      split
      · rename_i hx
        rw [hx]
      · rename_i hx
        rcases List.mem_cons.mp hk with rfl | hk
        · exact absurd rfl hx
        · exact ih hk

/-- Every path over the keys leads somewhere in the atlas. -/
theorem followFrom_atlas {keys : List String} (parts : List String) (hsub : parts ⊆ keys) {n : Nat}
    (hlen : parts.length ≤ n) (place : List String) :
    followFrom (atlas keys n place) parts
      = some (atlas keys (n - parts.length) (place ++ parts)) := by
  induction parts generalizing n place with
  | nil => rw [followFrom, List.append_nil, List.length_nil, Nat.sub_zero]
  | cons p parts ih =>
      obtain ⟨hp, hsub⟩ := List.cons_subset.mp hsub
      cases n with
      | zero => cases hlen
      | succ n =>
          rw [atlas, followFrom, find_map_key _ _ hp, Option.bind_some,
            ih hsub (Nat.le_of_succ_le_succ hlen), List.append_assoc, List.length_cons,
            Nat.add_sub_add_right]
          rfl

/-- Objects at different places of an atlas are different. -/
theorem atlas_place {keys : List String} {m n : Nat} {p q : List String}
    (h : atlas keys m p = atlas keys n q) : p = q := by
  have hlast : ∀ {l l' : List (String × Json)}, Json.obj (l ++ [(".", .arr (p.map .str))])
      = .obj (l' ++ [(".", .arr (q.map .str))]) → p = q := by
    intro l l' h
    have h := List.append_inj_right' (Json.obj.inj h) rfl
    refine List.map_injective_iff.mpr (fun a b h => Json.str.inj h) ?_
    exact Json.arr.inj (congrArg Prod.snd (List.cons.inj h).1)
  cases m <;> cases n <;> exact hlast h

/-- An atlas is an object with a member. -/
theorem atlas_obj (keys : List String) (n : Nat) (place : List String) :
    ∃ m ms, atlas keys n place = .obj (m :: ms) := by
  cases n with
  | zero => exact ⟨_, _, rfl⟩
  | succ n =>
      rw [atlas]
      cases keys with
      | nil => exact ⟨_, _, rfl⟩
      | cons k keys => exact ⟨_, _, rfl⟩

/-- Paths with the same parts are the same. -/
theorem splitPath_injective : Function.Injective splitPath := by
  intro p q h
  have h := List.map_injective_iff.mpr (fun a b => String.ofList_injective) h
  have hjoin := congrArg (List.intercalate ['.']) h
  rwa [List.intercalate_splitOn, List.intercalate_splitOn] at hjoin

/-- The parts of all references of a template, as both resolvers read them. -/
def templateKeys (template : Json) : List String :=
  template.strings.flatMap fun s =>
    ((readString trimSpace s).paths ++ (readString strip s).paths).flatMap splitPath

/-- A scope in which every reference of the template leads to an object. -/
def atlasScope (template : Json) : Json :=
  atlas (templateKeys template) (templateKeys template).length []

/-- The list of one element is a part of the lists of all. -/
theorem sublist_flatMap_of_mem {α β : Type} (f : α → List β) {l : List α} {a : α} (h : a ∈ l) :
    (f a).Sublist (l.flatMap f) := by
  rw [List.flatMap_def]
  exact List.sublist_flatten_of_mem (List.mem_map_of_mem h)

/-- In the scope of a template every reference leads to the place that its parts name. -/
theorem follow_atlasScope {template : Json} {s : String} (hs : s ∈ template.strings)
    {path : List Char} (h : path ∈ (readString trimSpace s).paths ++ (readString strip s).paths) :
    ∃ n, follow (atlasScope template) path
      = some (atlas (templateKeys template) n (splitPath path)) := by
  have hsub : (splitPath path).Sublist (templateKeys template) :=
    (sublist_flatMap_of_mem splitPath h).trans (sublist_flatMap_of_mem (fun s =>
      ((readString trimSpace s).paths ++ (readString strip s).paths).flatMap splitPath) hs)
  refine ⟨(templateKeys template).length - (splitPath path).length, ?_⟩
  rw [follow, atlasScope, followFrom_atlas _ hsub.subset hsub.length_le, List.nil_append]

/-- A reading in parts has the segments of the string. -/
theorem segments_of_parts {trim : List Char → List Char} {s : String} {segs : List Segment}
    (h : readString trim s = .parts segs) : segs = (scan s.toList).map (trimRef trim) := by
  rw [readString] at h
  split at h
  · cases h
  · exact (Reading.parts.inj h).symm

/-- Where every reference leads to an object, two fillings of one string are one text only when the
string has no reference. -/
theorem fillParts_objects {N : NumberTexts} {go : GoLib} {py : PyLib}
    (hdoc : DocumentedOutput N go py) {scope : Json} {t t' : List Char → List Char}
    (segs : List Segment)
    (hobj : ∀ path ∈ (segs.map (trimRef t)).filterMap refPath ++
      (segs.map (trimRef t')).filterMap refPath, ∃ m ms, follow scope path = some (.obj (m :: ms)))
    (hsome : fillParts (Engine.inlineText go) scope (segs.map (trimRef t)) ≠ none)
    (h : fillParts (Engine.inlineText go) scope (segs.map (trimRef t))
      = fillParts (Sdk.inlineText py) scope (segs.map (trimRef t'))) :
    segs.map (trimRef t) = segs.map (trimRef t') := by
  induction segs with
  | nil => rfl
  | cons seg segs ih =>
      cases seg with
      | lit c =>
          simp only [List.map_cons, trimRef, fillParts] at h hsome ⊢
          have h := Option.map_injective (fun a b h => (List.cons.inj h).2) h
          have hsome : fillParts (Engine.inlineText go) scope (segs.map (trimRef t)) ≠ none :=
            fun hnone => hsome (by rw [hnone]; rfl)
          rw [ih hobj hsome h]
      | ref inner =>
          -- Two objects with a member are never printed alike, so a reference would tell the texts
          -- apart.
          exfalso
          obtain ⟨m, ms, hm⟩ := hobj (t inner) (by simp [trimRef, refPath])
          obtain ⟨m', ms', hm'⟩ := hobj (t' inner) (by simp [trimRef, refPath])
          simp only [List.map_cons, trimRef, fillParts, hm, hm', Option.bind_some] at h hsome
          obtain ⟨out, hout⟩ := Option.ne_none_iff_exists'.mp hsome
          rw [hout] at h
          obtain ⟨x, -, hx⟩ := Option.map_eq_some_iff.mp hout
          obtain ⟨x', -, hx'⟩ := Option.map_eq_some_iff.mp h.symm
          have htext : (go.marshal (.obj (m :: ms))).toList ++ x
              = (py.dumps (.obj (m' :: ms'))).toList ++ x' := hx.trans hx'.symm
          rw [hdoc.marshal, hdoc.dumps, String.toList_ofList, String.toList_ofList] at htext
          exact JsonStyle.print_obj_ne (spaced N) m m' ms ms' x x' htext

/-- Some scope tells apart the resolvers of a template that they read differently. -/
theorem exists_disagreement {N : NumberTexts} {go : GoLib} {py : PyLib}
    (hdoc : DocumentedOutput N go py) {template : Json} (hdiff : ¬ SameReading template) :
    ∃ scope, ¬ Agree go py template scope := by
  have hdiff : ∃ s ∈ template.strings, readString trimSpace s ≠ readString strip s := by
    simpa [SameReading] using hdiff
  obtain ⟨s, hs, hne⟩ := hdiff
  refine ⟨atlasScope template, fun h => ?_⟩
  have hlead : ∀ path ∈ (readString trimSpace s).paths ++ (readString strip s).paths,
      ∃ m ms, follow (atlasScope template) path = some (.obj (m :: ms)) := by
    intro path hpath
    obtain ⟨n, hn⟩ := follow_atlasScope hs hpath
    obtain ⟨m, ms, hobj⟩ := atlas_obj (templateKeys template) n (splitPath path)
    exact ⟨m, ms, by rw [hn, hobj]⟩
  rcases (agree_iff_fill template _).mp h with ⟨⟨t, ht, path, hpath, hnone⟩, -⟩ | hfill
  · obtain ⟨n, hn⟩ := follow_atlasScope ht (List.mem_append_left _ hpath)
    rw [hn] at hnone
    cases hnone
  · have hfill := hfill s hs
    cases hgo : readString trimSpace s with
    | whole p =>
        obtain ⟨m, hp⟩ := @follow_atlasScope _ _ hs p (by simp [hgo, Reading.paths])
        obtain ⟨e, es, he⟩ := atlas_obj (templateKeys template) m (splitPath p)
        cases hpy : readString strip s with
        | whole q =>
            -- The objects at different paths are different.
            obtain ⟨n, hq⟩ := @follow_atlasScope _ _ hs q (by simp [hpy, Reading.paths])
            rw [hgo, hpy, fill, fill, hp, hq] at hfill
            have hpath := splitPath_injective (atlas_place (Option.some.inj hfill))
            exact hne (by rw [hgo, hpy, hpath])
        | parts segs =>
            rw [hgo, hpy, fill, fill, hp, he] at hfill
            obtain ⟨out, -, hout⟩ := Option.map_eq_some_iff.mp hfill.symm
            cases hout
    | parts segs =>
        cases hpy : readString strip s with
        | whole q =>
            obtain ⟨n, hq⟩ := @follow_atlasScope _ _ hs q (by simp [hpy, Reading.paths])
            obtain ⟨e, es, he⟩ := atlas_obj (templateKeys template) n (splitPath q)
            rw [hgo, hpy, fill, fill, hq, he] at hfill
            obtain ⟨out, -, hout⟩ := Option.map_eq_some_iff.mp hfill
            cases hout
        | parts segs' =>
            have hsegs := segments_of_parts hgo
            have hsegs' := segments_of_parts hpy
            rw [hgo, hpy] at hlead hfill
            rw [Reading.paths, Reading.paths, hsegs, hsegs'] at hlead
            have hsome : fillParts (Engine.inlineText go) (atlasScope template)
                ((scan s.toList).map (trimRef trimSpace)) ≠ none := by
              intro hnone
              have hnone : fill (Engine.inlineText go) (atlasScope template)
                (.parts segs) = none := by
                rw [fill, hsegs, hnone]
                rfl
              obtain ⟨path, hpath, hnone⟩ := (fill_eq_none _ _ _).mp hnone
              rw [Reading.paths, hsegs] at hpath
              obtain ⟨m, ms, hm⟩ := hlead path (List.mem_append_left _ hpath)
              rw [hm] at hnone
              cases hnone
            rw [fill, fill, hsegs, hsegs'] at hfill
            have hfill := Option.map_injective
              (fun a b h => String.ofList_injective (Json.str.inj h)) hfill
            have hmaps := fillParts_objects hdoc _ hlead hsome hfill
            exact hne (by rw [hgo, hpy, hsegs, hsegs', hmaps])

/-! ### Templates that are read alike -/

/-- The characters of a reference are characters of the string. -/
theorem mem_of_scanFrom {n : Nat} {cs inner : List Char}
    (h : Segment.ref inner ∈ Engine.scanFrom n cs) :
    inner ⊆ cs := by
  induction cs generalizing n with
  | nil => cases n <;> cases h
  | cons c cs ih =>
      -- `n` characters are still to be skipped, since they belong to a reference already found.
      cases n with
      | succ n => exact List.subset_cons_of_subset c (ih h)
      | zero =>
          rw [Engine.scanFrom] at h
          split at h
          · rename_i found hfound
            rcases List.mem_cons.mp h with heq | h
            · cases heq
              unfold Engine.matchRef at hfound
              split at hfound
              · rename_i rest hrest
                rw [Option.ite_none_right_eq_some] at hfound
                obtain ⟨-, hfound⟩ := hfound
                cases hfound
                rw [hrest]
                exact fun x hx => List.mem_cons_of_mem _ (List.mem_cons_of_mem _
                  ((List.takeWhile_sublist _).subset hx))
              · cases hfound
            · exact List.subset_cons_of_subset c (ih h)
          · rcases List.mem_cons.mp h with heq | h
            · cases heq
            · exact List.subset_cons_of_subset c (ih h)

/-- `strip` drops four characters that `TrimSpace` keeps, and without them the trims are one. -/
theorem trimSpace_eq_strip {cs : List Char} (h : ∀ c ∈ cs, c.toNat < 0x1C ∨ 0x1F < c.toNat) :
    trimSpace cs = strip cs := by
  have hdrop : ∀ l : List Char, (∀ c ∈ l, c.toNat < 0x1C ∨ 0x1F < c.toNat) →
      l.dropWhile Engine.isSpace = l.dropWhile Sdk.isSpace := by
    intro l hl
    induction l with
    | nil => rfl
    | cons c l ih =>
        have hc := hl c List.mem_cons_self
        -- The two notions of a blank differ in four control characters only.
        have hspace : Engine.isSpace c = Sdk.isSpace c := by
          rw [Bool.eq_iff_iff]
          simp only [Engine.isSpace, Sdk.isSpace, Bool.or_eq_true, Bool.and_eq_true,
            decide_eq_true_eq]
          omega
        rw [List.dropWhile_cons, List.dropWhile_cons, hspace,
          ih fun d hd => hl d (List.mem_cons_of_mem _ hd)]
  rw [trimSpace, Engine.trimWith, strip, hdrop cs h, hdrop]
  intro c hc
  exact h c ((List.dropWhile_sublist _).subset (List.mem_reverse.mp hc))

/-- A template whose strings have none of the four characters is read alike. -/
theorem sameReading_of_chars {template : Json}
    (h : ∀ s ∈ template.strings, ∀ c ∈ s.toList, c.toNat < 0x1C ∨ 0x1F < c.toNat) :
    SameReading template := by
  intro s hs
  have hmap : (scan s.toList).map (trimRef trimSpace) = (scan s.toList).map (trimRef strip) := by
    refine List.map_congr_left fun seg hseg => ?_
    cases seg with
    | lit c => rfl
    | ref inner =>
        rw [trimRef, trimRef, trimSpace_eq_strip fun c hc => h s hs c (mem_of_scanFrom hseg hc)]
  have htrim := trimSpace_eq_strip (h s hs)
  rw [readString, readString, hmap, ← htrim]
  split
  · rename_i inner hwhole
    -- The reference stands inside the text, so none of its characters is one of the four.
    have hsub : inner ⊆ s.toList := by
      have hmem : Segment.ref inner ∈ scan (trimSpace s.toList) :=
        hwhole ▸ List.mem_singleton_self _
      have htrimmed : trimSpace s.toList ⊆ s.toList := by
        rw [trimSpace, Engine.trimWith]
        intro c hc
        exact (List.dropWhile_sublist _).subset (List.mem_reverse.mp
          ((List.dropWhile_sublist _).subset (List.mem_reverse.mp hc)))
      exact List.Subset.trans (mem_of_scanFrom hmem) htrimmed
    rw [trimSpace_eq_strip fun c hc => h s hs c (hsub hc)]
  · rfl

/-- The numeral of an integer. -/
def intText : Int → List Char
  | .ofNat n => Nat.toDigits 10 n
  | .negSucc n => '-' :: Nat.toDigits 10 (n + 1)

/-- A numeral of an integer begins with a digit or a minus sign. -/
theorem intText_head (n : Int) :
    ∃ c cs, intText n = c :: cs ∧ (c.isDigit = true ∨ c = '-') := by
  cases n with
  | negSucc n => exact ⟨_, _, rfl, Or.inr rfl⟩
  | ofNat n =>
      obtain ⟨c, cs, hcs⟩ := List.exists_cons_of_ne_nil (@Nat.toDigits_ne_nil n 10)
      refine ⟨c, cs, hcs, Or.inl ?_⟩
      exact Nat.isDigit_of_mem_toDigits (by decide) (by decide) (hcs ▸ List.mem_cons_self)

/-- No numeral but that of zero begins with `0`. -/
theorem eq_zero_of_toDigits {n : Nat} {cs : List Char} (h : Nat.toDigits 10 n = '0' :: cs) :
    n = 0 := by
  induction n using Nat.strongRecOn generalizing cs with
  | ind n ih =>
      by_cases hn : n < 10
      · rw [Nat.toDigits_of_lt_base hn] at h
        have hdigit : ∀ m < 10, m.digitChar = '0' → m = 0 := by decide
        exact hdigit n hn (List.cons.inj h).1
      · have hle : 10 ≤ n := Nat.le_of_not_lt hn
        rw [Nat.toDigits_of_base_le (by decide) hle] at h
        obtain ⟨c, ds, hds⟩ := List.exists_cons_of_ne_nil (@Nat.toDigits_ne_nil (n / 10) 10)
        rw [hds] at h
        obtain ⟨rfl, -⟩ := List.cons.inj h
        have hdiv : n / 10 = 0 := ih (n / 10) (Nat.div_lt_self (by omega) (by decide)) hds
        omega

/-- A numeral that begins with `0` has nothing behind it. -/
theorem intText_zero {z : Int} {cs : List Char} (h : intText z = '0' :: cs) : cs = [] := by
  cases z with
  | ofNat n =>
      have h : Nat.toDigits 10 n = '0' :: cs := h
      rw [eq_zero_of_toDigits h, Nat.toDigits_zero] at h
      exact (List.cons.inj h).2.symm
  | negSucc n =>
      have hminus : '-' = '0' := (List.cons.inj h).1
      exact absurd hminus (by decide)

/-- The text of an integral number by `json.Marshal`. A float without a fraction is written like an
integer. -/
def goNumeral : Number → List Char
  | .int z => intText z
  | .float q => intText q.num
  | .minusZero _ => ['-', '0']

/-- The text of an integral number by `json.dumps`. A float keeps its point, so that `1` and `1.0`
stay apart. -/
def pyNumeral : Number → List Char
  | .int z => intText z
  | .float q => intText q.num ++ ['.', '0']
  | .minusZero false => ['0']
  | .minusZero true => ['-', '0', '.', '0']

/-- The texts of integral numbers: an integer has one, an integral float two. They serve the
examples, which have no other numbers. -/
def intTexts : NumberTexts where
  go := goNumeral
  py := pyNumeral
  go_head n := by
    cases n with
    | int z => exact intText_head z
    | float q => exact intText_head q.num
    | minusZero point => exact ⟨_, _, rfl, Or.inr rfl⟩
  py_head n := by
    cases n with
    | int z => exact intText_head z
    | float q =>
        obtain ⟨c, cs, hcs, hc⟩ := intText_head q.num
        exact ⟨c, cs ++ ['.', '0'], by rw [pyNumeral, hcs]; rfl, hc⟩
    | minusZero point =>
        cases point with
        | false => exact ⟨_, _, rfl, Or.inl rfl⟩
        | true => exact ⟨_, _, rfl, Or.inr rfl⟩
  forms n := by
    cases n with
    | int z => exact .same rfl
    | float q => exact .point rfl fun _ => intText_zero
    | minusZero point =>
        cases point with
        | false =>
            exact .apart (Apart.of_head (by decide)) fun cs h =>
              absurd (List.cons.inj h).1 (by decide)
        | true => exact .point rfl fun cs h => absurd (List.cons.inj h).1 (by decide)

/-- The documented printers, with the texts of integers. -/
def documentedGo : GoLib :=
  { plainLib with marshal := fun v => String.ofList ((goStyle intTexts).print v) }

/-- The documented printer of Python, with the texts of integers. The example of the disagreement is
evaluated with it. -/
def documentedPy : PyLib where
  decimal c := if c.isDigit then some (c.toNat - 48) else none
  repr _ := ""
  dumps v := String.ofList ((pyStyle intTexts).print v)
  recursionLimit := 900

/-- They are as documented. -/
theorem documented_sample : DocumentedOutput intTexts documentedGo documentedPy :=
  ⟨fun _ => rfl, fun _ => rfl⟩

/-- A reference inside a longer string. -/
def inlineTemplate : Json := .str "x $\x7binput.v\x7d"

/-- A scope with one input. -/
def inputScope (v : Json) : Json := .obj [("input", .obj [("v", v)])]

/-- The float `1.0` inside a longer string: `json.dumps` keeps its fraction, `json.Marshal` does
not. -/
example : (Engine.resolve documentedGo (inputScope (.num (.float 1))) inlineTemplate).toOption
      = some (.str "x 1") ∧
    (Sdk.resolveTemplate documentedPy (inputScope (.num (.float 1))) inlineTemplate).toOption
      = some (.str "x 1.0") :=
  ⟨rfl, rfl⟩

end Orchestrator.Proofs
