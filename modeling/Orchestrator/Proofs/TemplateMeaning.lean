import Orchestrator.Proofs.TemplatesAgree

/-!
# `Orchestrator.Proofs.TemplateMeaning`: what a template stands for

The reference meaning of a template, in relations that name none of the functions of
`spec/template.go`: a text is `Split` into characters and references, a reference `Denotes` the
value that its path leads to, a string `Means` the value of its one reference or its text with the
references filled in, and a value is `Json.Rebuilt` with each string exchanged for what it means.

`split_iff`, `trimmed_iff`, `isPath_iff` and `leadsTo_iff` tie the relations to the scanner, the
trim, the split and the lookup of the resolver, and `means_iff` puts them together.

The relations are meant to be read without the code. A reference is a dollar sign and braces around
characters other than a closing brace, at the leftmost place where one stands; its path is its text
without the blanks at the ends, cut at the dots; and a path leads from object to object. Each
relation has one result, which is a part of the equivalences: the scanner splits a text, and there
is no other split.

A template has no meaning exactly when a reference in one of its strings leads nowhere, and
`resolve_meaning` has both directions.
-/

set_option autoImplicit false

namespace Orchestrator.Proofs

open Orchestrator.Lib
open Orchestrator.Engine (GoLib Segment matchRef scanFrom scan splitPath trimSpace trimWith isSpace)

/-! ### References in a text -/

/-- One or more characters other than a closing brace. -/
def IsInner (inner : List Char) : Prop := inner ≠ [] ∧ '}' ∉ inner

/-- A dollar sign and an opening brace, the inner text, and a closing brace. -/
def refText (inner : List Char) : List Char := '$' :: '{' :: (inner ++ ['}'])

/-- A text, split from left to right: a character is a literal when no reference starts there. -/
inductive Split : List Char → List Segment → Prop
  | done : Split [] []
  | ref {inner rest : List Char} {segs : List Segment} (hinner : IsInner inner)
      (hrest : Split rest segs) : Split (refText inner ++ rest) (.ref inner :: segs)
  | lit {c : Char} {rest : List Char} {segs : List Segment}
      (hno : ∀ inner tail, IsInner inner → c :: rest ≠ refText inner ++ tail)
      (hrest : Split rest segs) : Split (c :: rest) (.lit c :: segs)

/-- The inner text of a reference ends at the first closing brace. -/
theorem takeWhile_inner {inner : List Char} (h : '}' ∉ inner) (rest : List Char) :
    (inner ++ '}' :: rest).takeWhile (· ≠ '}') = inner := by
  rw [List.takeWhile_append_of_pos fun c hc => by simpa using fun he : c = '}' => h (he ▸ hc)]
  simp

/-- A reference is found where its text stands. -/
theorem matchRef_eq_some {cs inner : List Char} :
    matchRef cs = some inner ↔ IsInner inner ∧ ∃ tail, cs = refText inner ++ tail := by
  constructor
  · intro h
    unfold matchRef at h
    split at h
    · rename_i rest
      simp only [Option.ite_none_right_eq_some, Option.some.injEq] at h
      obtain ⟨⟨hne, hlen⟩, rfl⟩ := h
      -- The character after the longest text without a closing brace is one.
      have hsplit := List.takeWhile_append_dropWhile (p := (· ≠ '}')) (l := rest)
      cases hdrop : rest.dropWhile (· ≠ '}') with
      | nil =>
          rw [hdrop, List.append_nil] at hsplit
          rw [hsplit] at hlen
          exact absurd hlen (Nat.lt_irrefl _)
      | cons c tail =>
          have hc := List.head?_dropWhile_not (fun c : Char => decide (c ≠ '}')) rest
          rw [hdrop] at hc hsplit
          have hc : c = '}' := by simpa using hc
          rw [hc] at hsplit
          refine ⟨⟨hne, fun hmem => ?_⟩, tail, ?_⟩
          · simpa using List.all_eq_true.mp List.all_takeWhile _ hmem
          · rw [refText, List.cons_append, List.cons_append, List.append_assoc,
              List.singleton_append, hsplit]
    · cases h
  · rintro ⟨⟨hne, hbrace⟩, tail, rfl⟩
    have htext : refText inner ++ tail = '$' :: '{' :: (inner ++ '}' :: tail) := by simp [refText]
    rw [htext]
    simp only [matchRef, takeWhile_inner hbrace tail]
    rw [if_pos ⟨hne, by simp⟩]

/-- To go on behind some characters is to scan what is left. -/
theorem scanFrom_drop (n : Nat) (cs : List Char) : scanFrom n cs = scan (cs.drop n) := by
  induction cs generalizing n with
  | nil => cases n <;> rfl
  | cons c cs ih =>
      cases n with
      | zero => rfl
      | succ n => exact ih n

/-- A reference at the beginning of a text is found. -/
theorem scan_ref {inner : List Char} (h : IsInner inner) (rest : List Char) :
    scan (refText inner ++ rest) = .ref inner :: scan rest := by
  have hmatch := matchRef_eq_some.mpr ⟨h, rest, rfl⟩
  have hdrop : ('{' :: (inner ++ ['}']) ++ rest).drop (inner.length + 2) = rest := by
    have hlen : ('{' :: (inner ++ ['}'])).length = inner.length + 2 := by simp
    rw [← hlen, List.drop_left]
  rw [refText, List.cons_append] at hmatch ⊢
  rw [scan, scanFrom, hmatch]
  simp only [scanFrom_drop, hdrop]

/-- Where no reference starts, a character is a literal. -/
theorem scan_lit {c : Char} {rest : List Char}
    (h : ∀ inner tail, IsInner inner → c :: rest ≠ refText inner ++ tail) :
    scan (c :: rest) = .lit c :: scan rest := by
  have hmatch : matchRef (c :: rest) = none := by
    cases hm : matchRef (c :: rest) with
    | none => rfl
    | some inner =>
        obtain ⟨hinner, tail, heq⟩ := matchRef_eq_some.mp hm
        exact absurd heq (h inner tail hinner)
  rw [scan, scanFrom, hmatch]
  rfl

/-- The scanner splits a text. -/
theorem split_scan (cs : List Char) : Split cs (scan cs) := by
  induction hn : cs.length using Nat.strong_induction_on generalizing cs with
  | _ n ih =>
      cases cs with
      | nil => exact .done
      | cons c rest =>
          -- The text begins with a reference or with a character that belongs to none.
          by_cases href : ∃ inner tail, IsInner inner ∧ c :: rest = refText inner ++ tail
          · obtain ⟨inner, tail, hinner, heq⟩ := href
            rw [heq, scan_ref hinner]
            refine .ref hinner (ih tail.length ?_ tail rfl)
            rw [← hn, heq, refText]
            simp only [List.cons_append, List.append_assoc, List.length_cons, List.length_append]
            omega
          · have hno : ∀ inner tail, IsInner inner → c :: rest ≠ refText inner ++ tail :=
              fun inner tail hinner heq => href ⟨inner, tail, hinner, heq⟩
            rw [scan_lit hno]
            exact .lit hno (ih rest.length (by rw [← hn]; exact Nat.lt_succ_self _) rest rfl)

/-- A text has one split, the one of the scanner. -/
theorem split_iff {cs : List Char} {segs : List Segment} : Split cs segs ↔ scan cs = segs := by
  constructor
  · intro h
    induction h with
    | done => rfl
    | ref hinner _ ih => rw [scan_ref hinner, ih]
    | lit hno _ ih => rw [scan_lit hno, ih]
  · rintro rfl
    exact split_scan cs

/-! ### Blanks and dots -/

/-- A text without the blanks at its ends. It is what lies between a front and a back of blanks, and
it neither begins nor ends with one. -/
def Trimmed (cs t : List Char) : Prop :=
  ∃ pre post, cs = pre ++ (t ++ post) ∧ (∀ c ∈ pre, isSpace c = true) ∧
    (∀ c ∈ post, isSpace c = true) ∧ (∀ c, t.head? = some c → isSpace c = false) ∧
    ∀ c, t.getLast? = some c → isSpace c = false

/-- The blanks in front are dropped, and nothing behind them. -/
theorem dropWhile_blanks {p : Char → Bool} {pre t : List Char} (hpre : ∀ c ∈ pre, p c = true)
    (ht : ∀ c, t.head? = some c → p c = false) : (pre ++ t).dropWhile p = t := by
  rw [List.dropWhile_append_of_pos hpre]
  cases t with
  | nil => rfl
  | cons c t => exact List.dropWhile_cons_of_neg (by simp [ht c rfl])

/-- A text has one trimmed form, the one of `TrimSpace`. -/
theorem trimmed_iff {cs t : List Char} : Trimmed cs t ↔ trimSpace cs = t := by
  constructor
  · rintro ⟨pre, post, rfl, hpre, hpost, hhead, hlast⟩
    rw [trimSpace, trimWith]
    cases t with
    | nil =>
        have hall : ∀ c ∈ pre ++ post, isSpace c = true := fun c hc =>
          (List.mem_append.mp hc).elim (hpre c) (hpost c)
        have hdrop := dropWhile_blanks (t := []) hall (fun c hc => (by cases hc))
        rw [List.append_nil] at hdrop
        rw [List.nil_append, hdrop]
        rfl
    | cons d t =>
        rw [dropWhile_blanks (t := d :: t ++ post) hpre hhead, List.reverse_append, dropWhile_blanks
          (fun c hc => hpost c (List.mem_reverse.mp hc))
          (fun c hc => hlast c (by rwa [List.head?_reverse] at hc)), List.reverse_reverse]
  · rintro rfl
    rw [trimSpace, trimWith]
    have hfront := List.takeWhile_append_dropWhile (p := isSpace) (l := cs)
    have hback :=
      List.takeWhile_append_dropWhile (p := isSpace) (l := (cs.dropWhile isSpace).reverse)
    refine ⟨cs.takeWhile isSpace, ((cs.dropWhile isSpace).reverse.takeWhile isSpace).reverse, ?_,
      fun c hc => List.all_eq_true.mp List.all_takeWhile c hc,
      fun c hc => List.all_eq_true.mp List.all_takeWhile c (List.mem_reverse.mp hc), ?_, ?_⟩
    · rw [← List.reverse_append, hback, List.reverse_reverse, hfront]
    · -- The first character of the trimmed text is the first of the text without its front.
      intro c hc
      have hprefix : (((cs.dropWhile isSpace).reverse.dropWhile isSpace).reverse)
          <+: cs.dropWhile isSpace := by
        have := List.dropWhile_suffix isSpace (l := (cs.dropWhile isSpace).reverse)
        simpa using List.reverse_prefix.mpr this
      obtain ⟨rest, hrest⟩ := hprefix
      have hhead := List.head?_dropWhile_not isSpace cs
      rw [← hrest, List.head?_append, hc] at hhead
      simpa using hhead
    · intro c hc
      rw [List.getLast?_reverse] at hc
      have hhead := List.head?_dropWhile_not isSpace (cs.dropWhile isSpace).reverse
      rw [hc] at hhead
      simpa using hhead

/-- The parts of the path of a reference: its trimmed inner text, cut at the dots. -/
def IsPath (inner : List Char) (parts : List String) : Prop :=
  Trimmed inner (['.'].intercalate (parts.map String.toList)) ∧ parts ≠ [] ∧
    ∀ p ∈ parts, '.' ∉ p.toList

/-- The parts of a path have no dot in them. -/
theorem not_mem_splitOn (c : Char) (cs : List Char) : ∀ p ∈ cs.splitOn c, c ∉ p := by
  induction cs with
  | nil => simp
  | cons d cs ih =>
      rw [List.splitOn_cons_eq_if_modifyHead]
      -- The separator begins a new part; any other character is put in front of the first one.
      by_cases hd : (d == c) = true
      · rw [if_pos hd]
        intro p hp
        rcases List.mem_cons.mp hp with rfl | hp
        · simp
        · exact ih p hp
      · rw [if_neg hd]
        cases hsplit : cs.splitOn c with
        | nil => simp
        | cons q rest =>
            rw [hsplit] at ih
            intro p hp
            rcases List.mem_cons.mp hp with rfl | hp
            · have hq := ih q List.mem_cons_self
              have hne : c ≠ d := fun h => hd (by simp [h])
              simp [hq, hne]
            · exact ih p (List.mem_cons_of_mem _ hp)

/-- A reference has one path, the one of `Split`. -/
theorem isPath_iff {inner : List Char} {parts : List String} :
    IsPath inner parts ↔ splitPath (trimSpace inner) = parts := by
  constructor
  · rintro ⟨htrim, hne, hdots⟩
    rw [trimmed_iff.mp htrim, splitPath, List.splitOn_intercalate '.' (by simpa using hdots)
      (by simpa using hne), List.map_map]
    simp
  · rintro rfl
    refine ⟨trimmed_iff.mpr ?_, by simp [splitPath], ?_⟩
    · rw [splitPath, List.map_map]
      simp [List.intercalate_splitOn]
    · intro p hp
      obtain ⟨q, hq, rfl⟩ := List.mem_map.mp hp
      rw [String.toList_ofList]
      exact not_mem_splitOn '.' _ q hq

/-! ### What a string means -/

/-- The value at the end of a path through nested objects. A path that meets anything but an object
on its way leads nowhere. -/
inductive LeadsTo : Json → List String → Json → Prop
  | here (v : Json) : LeadsTo v [] v
  | step {members : List (String × Json)} {p : String} {parts : List String} {v w : Json}
      (hmember : Dict.find p members = some v) (hrest : LeadsTo v parts w) :
      LeadsTo (.obj members) (p :: parts) w

/-- The value of a reference. -/
def Denotes (scope : Json) (inner : List Char) (v : Json) : Prop :=
  ∃ parts, IsPath inner parts ∧ LeadsTo scope parts v

/-- The text of a split string: a string in the place of a reference stands as it is, another value
as its JSON text. -/
inductive Filled (marshal : Json → String) (scope : Json) : List Segment → List Char → Prop
  | done : Filled marshal scope [] []
  | lit {c : Char} {segs : List Segment} {out : List Char} (hrest : Filled marshal scope segs out) :
      Filled marshal scope (.lit c :: segs) (c :: out)
  | string {inner : List Char} {segs : List Segment} {s : String} {out : List Char}
      (hval : Denotes scope inner (.str s)) (hrest : Filled marshal scope segs out) :
      Filled marshal scope (.ref inner :: segs) (s.toList ++ out)
  | value {inner : List Char} {segs : List Segment} {v : Json} {out : List Char}
      (hval : Denotes scope inner v) (hother : ∀ s, v ≠ .str s)
      (hrest : Filled marshal scope segs out) :
      Filled marshal scope (.ref inner :: segs) ((marshal v).toList ++ out)

/-- What a string stands for: the value of its one reference, or its text with the references
filled in. -/
inductive Means (marshal : Json → String) (scope : Json) (s : String) : Json → Prop
  | whole {inner : List Char} {v : Json} (hinner : IsInner inner)
      (htrim : Trimmed s.toList (refText inner)) (hval : Denotes scope inner v) :
      Means marshal scope s v
  | inline {segs : List Segment} {out : List Char}
      (hparts : ∀ inner, IsInner inner → ¬ Trimmed s.toList (refText inner))
      (hsplit : Split s.toList segs) (hfill : Filled marshal scope segs out) :
      Means marshal scope s (.str (String.ofList out))

/-- A reference in one of the strings of a value. -/
def HasReference (v : Json) (inner : List Char) : Prop :=
  ∃ s ∈ v.strings, ∃ segs, Split s.toList segs ∧ Segment.ref inner ∈ segs

/-- The lookup follows a path to where it leads. -/
theorem leadsTo_iff {scope v : Json} {parts : List String} :
    LeadsTo scope parts v ↔ followFrom scope parts = some v := by
  constructor
  · intro h
    induction h with
    | here v => exact followFrom.eq_1 v
    -- One step of the derivation for each part of the path.
    | step hmember _ ih => rw [followFrom, hmember, Option.bind_some, ih]
  · intro h
    induction parts generalizing scope with
    | nil =>
        rw [followFrom] at h
        exact Option.some.inj h ▸ .here scope
    | cons p parts ih =>
        cases scope with
        | obj members =>
            rw [followFrom] at h
            obtain ⟨v', hmember, hrest⟩ := Option.bind_eq_some_iff.mp h
            exact .step hmember (ih hrest)
        | _ => cases h

/-- A reference denotes what the lookup of its trimmed path finds. -/
theorem denotes_iff {scope v : Json} {inner : List Char} :
    Denotes scope inner v ↔ follow scope (trimSpace inner) = some v := by
  simp only [Denotes, isPath_iff, leadsTo_iff, exists_eq_left', follow]

/-- The text of a split string is the one that the resolver fills in. -/
theorem filled_iff (lib : GoLib) {scope : Json} {segs : List Segment} {out : List Char} :
    Filled lib.marshal scope segs out ↔
      fillParts (Engine.inlineText lib) scope (segs.map (trimRef trimSpace)) = some out := by
  constructor
  · intro h
    induction h with
    | done => rfl
    | lit _ ih => rw [List.map_cons, trimRef, fillParts, ih, Option.map_some]
    | string hval _ ih =>
        rw [List.map_cons, trimRef, fillParts, denotes_iff.mp hval, Option.bind_some, ih]
        rfl
    | @value inner segs v out hval hother _ ih =>
        rw [List.map_cons, trimRef, fillParts, denotes_iff.mp hval, Option.bind_some, ih]
        cases v with
        | str s => exact absurd rfl (hother s)
        | _ => rfl
  · intro h
    induction segs generalizing out with
    | nil =>
        obtain rfl := Option.some.inj h
        exact .done
    | cons seg segs ih =>
        -- Each rule fills one segment. A string is put in as it is, every other value as its JSON
        -- text.
        cases seg with
        | lit c =>
            rw [List.map_cons, trimRef, fillParts] at h
            obtain ⟨out', hout, rfl⟩ := Option.map_eq_some_iff.mp h
            exact .lit (ih hout)
        | ref inner =>
            rw [List.map_cons, trimRef, fillParts] at h
            obtain ⟨v, hv, h⟩ := Option.bind_eq_some_iff.mp h
            obtain ⟨out', hout, rfl⟩ := Option.map_eq_some_iff.mp h
            cases v with
            | str s => exact .string (denotes_iff.mpr hv) (ih hout)
            | _ => exact .value (denotes_iff.mpr hv) (fun s hs => (by cases hs)) (ih hout)

/-- The text that is one reference. -/
theorem scan_eq_ref {cs inner : List Char} :
    scan cs = [.ref inner] ↔ IsInner inner ∧ cs = refText inner := by
  constructor
  · intro h
    cases split_iff.mpr h with
    | ref hinner hrest =>
        cases hrest
        exact ⟨hinner, List.append_nil _⟩
  · rintro ⟨hinner, rfl⟩
    have h := scan_ref hinner []
    rwa [List.append_nil] at h

/-- A string means what the resolver makes of it. -/
theorem means_iff (lib : GoLib) {scope r : Json} {s : String} :
    Means lib.marshal scope s r ↔
      fill (Engine.inlineText lib) scope (readString trimSpace s) = some r := by
  constructor
  · intro h
    cases h with
    | whole hinner htrim hval =>
        rw [readString, trimmed_iff.mp htrim, scan_eq_ref.mpr ⟨hinner, rfl⟩]
        exact denotes_iff.mp hval
    | inline hparts hsplit hfill =>
        have hparts' : ∀ inner, scan (trimSpace s.toList) ≠ [.ref inner] := fun inner h => by
          obtain ⟨hinner, heq⟩ := scan_eq_ref.mp h
          exact hparts inner hinner (trimmed_iff.mpr heq)
        rw [readString_parts hparts', fill, split_iff.mp hsplit, (filled_iff lib).mp hfill]
        rfl
  · intro h
    -- The first rule applies if the trimmed text is one reference and nothing else, the second one
    -- otherwise.
    by_cases hwhole : ∃ inner, scan (trimSpace s.toList) = [.ref inner]
    · obtain ⟨inner, hwhole⟩ := hwhole
      rw [readString, hwhole] at h
      obtain ⟨hinner, heq⟩ := scan_eq_ref.mp hwhole
      exact .whole hinner (trimmed_iff.mpr heq) (denotes_iff.mpr h)
    · rw [readString_parts (not_exists.mp hwhole), fill] at h
      obtain ⟨out, hout, rfl⟩ := Option.map_eq_some_iff.mp h
      exact .inline (fun inner hinner htrim =>
        hwhole ⟨inner, scan_eq_ref.mpr ⟨hinner, trimmed_iff.mp htrim⟩⟩)
        (split_scan _) ((filled_iff lib).mpr hout)

/-! ### References of a value -/

/-- Characters in front of a reference that cannot start one are literals. -/
theorem scan_blanks {pre : List Char} (h : ∀ c ∈ pre, isSpace c = true) (rest : List Char) :
    scan (pre ++ rest) = pre.map .lit ++ scan rest := by
  induction pre with
  | nil => rfl
  | cons c pre ih =>
      have hc := h c List.mem_cons_self
      rw [List.cons_append, scan_lit, ih fun d hd => h d (List.mem_cons_of_mem _ hd)]
      · rfl
      · intro inner tail _ heq
        obtain rfl : c = '$' := (List.cons.inj heq).1
        exact absurd hc (by decide)

/-- The paths of a string are those of the references that its split holds. -/
theorem mem_reading_paths {s : String} {path : List Char} :
    path ∈ (readString trimSpace s).paths ↔
      ∃ inner, Segment.ref inner ∈ scan s.toList ∧ trimSpace inner = path := by
  by_cases hwhole : ∃ inner, scan (trimSpace s.toList) = [.ref inner]
  · obtain ⟨inner, hwhole⟩ := hwhole
    obtain ⟨hinner, heq⟩ := scan_eq_ref.mp hwhole
    obtain ⟨pre, post, hs, hpre, hpost, -⟩ := trimmed_iff.mpr heq
    -- Blanks around a reference are literals of the scan, so its segments hold the same reference.
    have hscan : scan s.toList = pre.map .lit ++ (.ref inner :: post.map .lit) := by
      have hpost' := scan_blanks hpost []
      rw [List.append_nil] at hpost'
      rw [hs, scan_blanks hpre, scan_ref hinner, hpost']
      exact congrArg _ (congrArg _ (List.append_nil _))
    rw [readString, hwhole, hscan]
    simp [Reading.paths, eq_comm]
  · rw [readString_parts (not_exists.mp hwhole), Reading.paths]
    simp only [List.mem_filterMap, List.mem_map]
    constructor
    · rintro ⟨_, ⟨seg, hseg, rfl⟩, hpath⟩
      cases seg with
      | lit c => cases hpath
      | ref inner => exact ⟨inner, hseg, Option.some.inj hpath⟩
    · rintro ⟨inner, hmem, rfl⟩
      exact ⟨_, ⟨_, hmem, rfl⟩, rfl⟩

/-- `Resolve` gives a value its reference meaning, and fails exactly when a reference of it does not
lead through nested objects.

The meaning is given by rules (`Json.Rebuilt`, `Means`, `Denotes`) that mention no function of the
engine but the printing of a value. That the functions follow the rules is shown for one string
(`means_iff`) and carried over to a whole value by the traversal that both share. -/
theorem resolve_meaning (lib : GoLib) (scope v : Json) :
    (∀ r, Engine.resolve lib scope v = .ok r ↔ Json.Rebuilt (Means lib.marshal scope) v r) ∧
    ((∃ e, Engine.resolve lib scope v = .error e) ↔
      ∃ inner, HasReference v inner ∧ ∀ w, ¬ Denotes scope inner w) := by
  -- Both parts follow from what the engine does with one string.
  have hfill : (Engine.resolve lib scope v).toOption
      = v.traverseStr fun s => fill (Engine.inlineText lib) scope (readString trimSpace s) := by
    rw [resolve_eq_traverse, Json.toOption_traverseStr]
    simp only [resolveString_eq_fill]
  constructor
  · intro r
    -- The meaning of a string is a function of it, so the rebuilt value is unique.
    have hmeans : Means lib.marshal scope
        = fun s r => fill (Engine.inlineText lib) scope (readString trimSpace s) = some r :=
      funext fun s => funext fun r => propext (means_iff lib)
    rw [hmeans, ← Json.traverseStr_eq_some, ← hfill]
    cases Engine.resolve lib scope v <;> simp [Except.toOption]
  · have hnone : (∃ e, Engine.resolve lib scope v = .error e) ↔
        (Engine.resolve lib scope v).toOption = none := by
      cases Engine.resolve lib scope v <;> simp [Except.toOption]
    rw [hnone, hfill, Json.traverseStr_eq_none]
    simp only [fill_eq_none, mem_reading_paths, HasReference, split_iff, exists_eq_left',
      denotes_iff, ← Option.eq_none_iff_forall_ne_some]
    constructor
    · rintro ⟨s, hs, _, ⟨inner, hmem, rfl⟩, hnone⟩
      exact ⟨inner, ⟨s, hs, hmem⟩, hnone⟩
    · rintro ⟨inner, ⟨s, hs, hmem⟩, hnone⟩
      exact ⟨s, hs, _, ⟨inner, hmem, rfl⟩, hnone⟩

end Orchestrator.Proofs
