import Mathlib.Data.List.Sort
import Mathlib.Data.String.Basic
import Orchestrator.Lib.Dict
import Orchestrator.Lib.Json

/-!
# `Orchestrator.Lib.JsonValue`: JSON values up to the order of their members

`Json` keeps the members of an object in the order of the document, and each number in its notation.
`canon` sorts the members and gives every number one notation, so `Json.Same` says that two
documents hold one value.

`mapNum` replaces every number by another one, as a codec with a number type of its own does on the
way through, and `same_mapNum` says when that changes the value: exactly when it changes one of the
numbers in it.

`traverseStr` replaces every string by what an effectful function answers, as a template resolver
does. `Rebuilt` is the relation between the values before and after. `traverseStr_eq_some` and
`traverseStr_eq_none` say for a function that may fail when the whole succeeds and what comes of it,
and `traverseStr_eq_iff` when two such functions do the same to a value. The strings are visited in
document order, so with several failures the first one is reported.

`Json.inductionOn` is the induction rule: over the elements of an array and the members of an
object. Each recursive function here has a list form for the two kinds of children, and the lemma
that turns it into a `map` stands next to it.
-/

set_option autoImplicit false

namespace Orchestrator.Lib

namespace Json

/-- Induction over a value: one case for each constructor, with the hypothesis for every element
or member. -/
theorem inductionOn {P : Json → Prop} (null : P .null) (bool : ∀ b, P (.bool b))
    (num : ∀ n, P (.num n)) (str : ∀ s, P (.str s))
    (arr : ∀ items, (∀ v ∈ items, P v) → P (.arr items))
    (obj : ∀ members : List (String × Json), (∀ e ∈ members, P e.2) → P (.obj members))
    (v : Json) : P v := by
  refine @Json.rec P (fun items => ∀ v ∈ items, P v) (fun members => ∀ e ∈ members, P e.2)
    (fun e => P e.2) null bool num str arr obj ?_ ?_ ?_ ?_ (fun _ _ h => h) v
  · intro v hv
    cases hv
  · intro v items hv hitems x hx
    rcases List.mem_cons.mp hx with rfl | hx
    · exact hv
    · exact hitems x hx
  · intro e he
    cases he
  · intro e members he hmembers x hx
    rcases List.mem_cons.mp hx with rfl | hx
    · exact he
    · exact hmembers x hx

/-! ### Members in the order of their keys -/

/-- The order of the keys. -/
def keyLE (a b : String × Json) : Prop := a.1 ≤ b.1

instance : DecidableRel keyLE := fun a b => inferInstanceAs (Decidable (a.1 ≤ b.1))

instance : Std.Total keyLE := ⟨fun a b => le_total a.1 b.1⟩

instance : IsTrans (String × Json) keyLE := ⟨fun a b c => @le_trans String _ a.1 b.1 c.1⟩

mutual

/-- The value with the members of every object in the order of their keys, and every number in its
canonical notation. -/
def canon : Json → Json
  | .null => .null
  | .bool b => .bool b
  | .num n => .num (.ofRat n.value)
  | .str s => .str s
  | .arr items => .arr (canonItems items)
  | .obj members => .obj ((canonMembers members).insertionSort keyLE)

/-- `canon` for the elements of an array. -/
def canonItems : List Json → List Json
  | [] => []
  | v :: rest => canon v :: canonItems rest

/-- `canon` for the values of the members, in the order they have. -/
def canonMembers : List (String × Json) → List (String × Json)
  | [] => []
  | (k, v) :: rest => (k, canon v) :: canonMembers rest

end

/-- Two documents hold one value. -/
def Same (a b : Json) : Prop := a.canon = b.canon

mutual

/-- The value with each number replaced. The notation of the old number does not matter. -/
def mapNum (f : ℚ → ℚ) : Json → Json
  | .null => .null
  | .bool b => .bool b
  | .num n => .num (.ofRat (f n.value))
  | .str s => .str s
  | .arr items => .arr (mapNumItems f items)
  | .obj members => .obj (mapNumMembers f members)

/-- `mapNum` for the elements of an array. -/
def mapNumItems (f : ℚ → ℚ) : List Json → List Json
  | [] => []
  | v :: rest => mapNum f v :: mapNumItems f rest

/-- `mapNum` for the values of the members. -/
def mapNumMembers (f : ℚ → ℚ) : List (String × Json) → List (String × Json)
  | [] => []
  | (k, v) :: rest => (k, mapNum f v) :: mapNumMembers f rest

end

mutual

/-- The numbers in a value, by what they are worth, in the order of the document. Keys of objects
are strings and contribute nothing. -/
def numbers : Json → List ℚ
  | .null => []
  | .bool _ => []
  | .num n => [n.value]
  | .str _ => []
  | .arr items => numbersItems items
  | .obj members => numbersMembers members

/-- The numbers in the elements of an array. -/
def numbersItems : List Json → List ℚ
  | [] => []
  | v :: rest => numbers v ++ numbersItems rest

/-- The numbers in the values of the members. -/
def numbersMembers : List (String × Json) → List ℚ
  | [] => []
  | (_, v) :: rest => numbers v ++ numbersMembers rest

end

/-- The canonical elements are the canonical forms of the elements. -/
theorem canonItems_eq_map (items : List Json) : canonItems items = items.map canon := by
  induction items with
  | nil => rfl
  | cons v rest ih => rw [canonItems, ih, List.map_cons]

/-- The canonical members are the members with the canonical forms of their values. -/
theorem canonMembers_eq_map (members : List (String × Json)) :
    canonMembers members = members.map (fun e => (e.1, e.2.canon)) := by
  induction members with
  | nil => rfl
  | cons e rest ih => rw [canonMembers, ih, List.map_cons]

/-- Replacing the numbers in the elements is replacing them in each. -/
theorem mapNumItems_eq_map (f : ℚ → ℚ) (items : List Json) :
    mapNumItems f items = items.map (mapNum f) := by
  induction items with
  | nil => rfl
  | cons v rest ih => rw [mapNumItems, ih, List.map_cons]

/-- Replacing the numbers in the members is replacing them in each value. -/
theorem mapNumMembers_eq_map (f : ℚ → ℚ) (members : List (String × Json)) :
    mapNumMembers f members = members.map (fun e => (e.1, e.2.mapNum f)) := by
  induction members with
  | nil => rfl
  | cons e rest ih => rw [mapNumMembers, ih, List.map_cons]

/-- A number in the elements is one in some element. -/
theorem mem_numbersItems {items : List Json} {q : ℚ} :
    q ∈ numbersItems items ↔ ∃ v ∈ items, q ∈ v.numbers := by
  induction items with
  | nil => simp [numbersItems]
  | cons v rest ih => simp [numbersItems, ih]

/-- A number in the members is one in some value. -/
theorem mem_numbersMembers {members : List (String × Json)} {q : ℚ} :
    q ∈ numbersMembers members ↔ ∃ e ∈ members, q ∈ e.2.numbers := by
  induction members with
  | nil => simp [numbersMembers]
  | cons e rest ih => simp [numbersMembers, ih]

/-! ### Sorting and replacing -/

/-- Sorting the members commutes with what leaves their keys alone. -/
theorem map_sort (f : Json → Json) (members : List (String × Json)) :
    (members.insertionSort keyLE).map (fun e => (e.1, f e.2))
      = (members.map (fun e => (e.1, f e.2))).insertionSort keyLE :=
  List.map_insertionSort _ _ _ _ fun _ _ _ _ => Iff.rfl

/-- The canonical form is its own canonical form. -/
theorem canon_canon (v : Json) : v.canon.canon = v.canon := by
  induction v using inductionOn with
  | arr items ih =>
      rw [canon, canon, canonItems_eq_map, canonItems_eq_map, List.map_map]
      exact congrArg _ (List.map_congr_left ih)
  | obj members ih =>
      rw [canon, canon, canonMembers_eq_map, canonMembers_eq_map, map_sort, List.map_map]
      have hmap : members.map ((fun e => (e.1, e.2.canon)) ∘ fun e => (e.1, e.2.canon))
          = members.map (fun e => (e.1, e.2.canon)) :=
        List.map_congr_left fun e he => Prod.ext rfl (ih e he)
      rw [hmap, (List.pairwise_insertionSort keyLE _).insertionSort_eq]
  | num n => rw [canon, canon, Number.value_ofRat]
  | _ => rfl

/-- Replacing the numbers commutes with taking the canonical form: the order of the members depends
on their keys only. -/
theorem canon_mapNum (f : ℚ → ℚ) (v : Json) : (v.mapNum f).canon = v.canon.mapNum f := by
  induction v using inductionOn with
  | arr items ih =>
      rw [mapNum, canon, canon, mapNum, canonItems_eq_map, canonItems_eq_map, mapNumItems_eq_map,
        mapNumItems_eq_map, List.map_map, List.map_map]
      exact congrArg _ (List.map_congr_left ih)
  | obj members ih =>
      rw [mapNum, canon, canon, mapNum, canonMembers_eq_map, canonMembers_eq_map,
        mapNumMembers_eq_map, mapNumMembers_eq_map, map_sort, List.map_map, List.map_map]
      have hmap : members.map ((fun e => (e.1, e.2.canon)) ∘ fun e => (e.1, e.2.mapNum f))
          = members.map ((fun e => (e.1, e.2.mapNum f)) ∘ fun e => (e.1, e.2.canon)) :=
        List.map_congr_left fun e he => Prod.ext rfl (ih e he)
      rw [hmap]
  | num n => simp only [mapNum, canon, Number.value_ofRat]
  | _ => rfl

/-- The canonical form has the numbers of the value. -/
theorem mem_numbers_canon (v : Json) (q : ℚ) : q ∈ v.canon.numbers ↔ q ∈ v.numbers := by
  induction v using inductionOn with
  | arr items ih =>
      simp only [canon, numbers, mem_numbersItems, canonItems_eq_map, List.mem_map,
        exists_exists_and_eq_and]
      exact exists_congr fun v => and_congr_right fun hv => ih v hv
  | obj members ih =>
      simp only [canon, numbers, mem_numbersMembers, canonMembers_eq_map,
        List.mem_insertionSort, List.mem_map, exists_exists_and_eq_and]
      exact exists_congr fun e => and_congr_right fun he => ih e he
  | num n => rw [canon, numbers, numbers, Number.value_ofRat]
  | _ => rfl

/-- A map leaves a list alone when it leaves each element alone. -/
theorem map_eq_self {α : Type*} {f : α → α} {l : List α} :
    l.map f = l ↔ ∀ a ∈ l, f a = a := by
  rw [← List.map_inj_left, List.map_id']

/-- A replacement leaves a value in its canonical form alone when it leaves each of its numbers
alone. The hypothesis is about the form only: `canon` gives every number its canonical notation, and
`mapNum` writes that notation. -/
theorem mapNum_canon_eq_self (f : ℚ → ℚ) (v : Json) :
    v.canon.mapNum f = v.canon ↔ ∀ q ∈ v.numbers, f q = q := by
  induction v using inductionOn with
  | num n => simp [canon, mapNum, numbers, Number.ofRat_inj]
  | arr items ih =>
      rw [canon, mapNum, Json.arr.injEq, mapNumItems_eq_map, canonItems_eq_map, List.map_map]
      simp only [numbers, mem_numbersItems]
      rw [List.map_inj_left]
      refine ⟨fun h q hq => ?_, fun h v hv => (ih v hv).mpr fun q hq => h q ⟨v, hv, hq⟩⟩
      obtain ⟨v, hv, hq⟩ := hq
      exact (ih v hv).mp (h v hv) q hq
  -- The canonical form sorts the members, so they are compared as the members that are there, in
  -- whatever order.
  | obj members ih =>
      rw [canon, mapNum, Json.obj.injEq, mapNumMembers_eq_map, map_eq_self]
      simp only [numbers, mem_numbersMembers, canonMembers_eq_map, List.mem_insertionSort,
        List.mem_map]
      refine ⟨fun h q hq => ?_, fun h e he => ?_⟩
      · obtain ⟨e, he, hq⟩ := hq
        exact (ih e he).mp (congrArg Prod.snd (h _ ⟨e, he, rfl⟩)) q hq
      · obtain ⟨e, he, rfl⟩ := he
        exact Prod.ext rfl ((ih e he).mpr fun q hq => h q ⟨e, he, hq⟩)
  | _ => simp [canon, mapNum, numbers]

/-- A replacement leaves the value of a document alone when it leaves each of its numbers alone. -/
theorem same_mapNum (f : ℚ → ℚ) (v : Json) :
    Same (v.mapNum f) v ↔ ∀ q ∈ v.numbers, f q = q := by
  rw [Same, canon_mapNum, mapNum_canon_eq_self]

/-- Two replacements are one. -/
theorem mapNum_mapNum (f g : ℚ → ℚ) (v : Json) : (v.mapNum f).mapNum g = v.mapNum (g ∘ f) := by
  induction v using inductionOn with
  | arr items ih =>
      rw [mapNum, mapNum, mapNum, mapNumItems_eq_map, mapNumItems_eq_map, mapNumItems_eq_map,
        List.map_map]
      exact congrArg _ (List.map_congr_left ih)
  | obj members ih =>
      rw [mapNum, mapNum, mapNum, mapNumMembers_eq_map, mapNumMembers_eq_map,
        mapNumMembers_eq_map, List.map_map]
      exact congrArg _ (List.map_congr_left fun e he => Prod.ext rfl (ih e he))
  | num n => simp only [mapNum, Number.value_ofRat, Function.comp_apply]
  | _ => rfl

/-! ### Members by key -/

/-- A member after each value is replaced. -/
theorem find_map (f : Json → Json) (k : String) (members : List (String × Json)) :
    Dict.find k (members.map (fun e => (e.1, f e.2))) = (Dict.find k members).map f := by
  induction members with
  | nil => rfl
  | cons e rest ih =>
      rw [List.map_cons, Dict.find, Dict.find, ih]
      split <;> rfl

/-- The members of a sorted object are found under their keys. -/
theorem find_canon {members : List (String × Json)} (h : (members.map Prod.fst).Nodup)
    (k : String) :
    Dict.find k ((canonMembers members).insertionSort keyLE) = (Dict.find k members).map canon := by
  rw [← find_map canon, canonMembers_eq_map]
  have hperm := List.perm_insertionSort keyLE (members.map fun e => (e.1, e.2.canon))
  have hnd : ((members.map fun e => (e.1, e.2.canon)).map Prod.fst).Nodup := by
    rw [List.map_map]
    exact h
  have hnd' := (hperm.map Prod.fst).nodup_iff.mpr hnd
  refine Option.ext fun v => ?_
  rw [← Dict.mem_iff_find hnd', ← Dict.mem_iff_find hnd, hperm.mem_iff]

mutual

/-- No object in the value has a key twice, at any depth. Under this condition the readers that keep
the first member, the last one or all of them read the same. -/
def UniqueKeys : Json → Prop
  | .null => True
  | .bool _ => True
  | .num _ => True
  | .str _ => True
  | .arr items => UniqueKeysItems items
  | .obj members => (members.map Prod.fst).Nodup ∧ UniqueKeysMembers members

/-- No object in an element has a key twice. -/
def UniqueKeysItems : List Json → Prop
  | [] => True
  | v :: rest => UniqueKeys v ∧ UniqueKeysItems rest

/-- No object in the value of a member has a key twice. -/
def UniqueKeysMembers : List (String × Json) → Prop
  | [] => True
  | (_, v) :: rest => UniqueKeys v ∧ UniqueKeysMembers rest

end

/-! ### Strings -/

section

universe u

variable {m : Type → Type u} [Monad m]

mutual

/-- Replace each string, in document order, in a monad. The keys of objects stay as they are, and
the first string that fails ends the traversal with its failure. -/
def traverseStr (f : String → m Json) : Json → m Json
  | .null => pure .null
  | .bool b => pure (.bool b)
  | .num n => pure (.num n)
  | .str s => f s
  | .arr items => do
    let out ← traverseItems f items
    pure (.arr out)
  | .obj members => do
    let out ← traverseMembers f members
    pure (.obj out)

/-- `traverseStr` for the elements of an array, from the first to the last. The order is observable
where the replacement of a string can fail. -/
def traverseItems (f : String → m Json) : List Json → m (List Json)
  | [] => pure []
  | v :: rest => do
    let v ← traverseStr f v
    let rest ← traverseItems f rest
    pure (v :: rest)

/-- `traverseStr` for the values of the members, in the order of the document. The keys stay as they
are. -/
def traverseMembers (f : String → m Json) : List (String × Json) → m (List (String × Json))
  | [] => pure []
  | (k, v) :: rest => do
    let v ← traverseStr f v
    let rest ← traverseMembers f rest
    pure ((k, v) :: rest)

end

mutual

/-- The strings of a value, without the keys of its objects. They are what `traverseStr` replaces,
so a replacement is settled by what it does on these (`traverseStr_congr`). -/
def strings : Json → List String
  | .null => []
  | .bool _ => []
  | .num _ => []
  | .str s => [s]
  | .arr items => stringsItems items
  | .obj members => stringsMembers members

/-- The strings in the elements of an array. -/
def stringsItems : List Json → List String
  | [] => []
  | v :: rest => strings v ++ stringsItems rest

/-- The strings in the values of the members. -/
def stringsMembers : List (String × Json) → List String
  | [] => []
  | (_, v) :: rest => strings v ++ stringsMembers rest

end

/-- Two functions that answer alike on the strings of a value replace them alike. -/
theorem traverseStr_congr {f g : String → m Json} (v : Json) (h : ∀ s ∈ v.strings, f s = g s) :
    v.traverseStr f = v.traverseStr g := by
  -- In both kinds of containers the first child is replaced alike, and then the others are.
  induction v using inductionOn with
  | str s => exact h s (List.mem_singleton.mpr rfl)
  | arr items ih =>
      have key : traverseItems f items = traverseItems g items := by
        rw [strings] at h
        induction items with
        | nil => rfl
        | cons v rest ihrest =>
            rw [traverseItems, traverseItems,
              ih v List.mem_cons_self fun s hs => h s (List.mem_append_left _ hs),
              ihrest (fun x hx => ih x (List.mem_cons_of_mem _ hx))
                fun s hs => h s (List.mem_append_right _ hs)]
      rw [traverseStr, traverseStr, key]
  | obj members ih =>
      have key : traverseMembers f members = traverseMembers g members := by
        rw [strings] at h
        induction members with
        | nil => rfl
        | cons e rest ihrest =>
            rw [traverseMembers, traverseMembers,
              ih e List.mem_cons_self fun s hs => h s (List.mem_append_left _ hs),
              ihrest (fun x hx => ih x (List.mem_cons_of_mem _ hx))
                fun s hs => h s (List.mem_append_right _ hs)]
      rw [traverseStr, traverseStr, key]
  | _ => rfl

end

/-- Forgetting the error of a replacement, before or after, is the same. So statements about which
strings fail need not say with what. -/
theorem toOption_traverseStr {ε : Type} (f : String → Except ε Json) (v : Json) :
    (v.traverseStr f).toOption = v.traverseStr (fun s => (f s).toOption) := by
  have hbind : ∀ {α β : Type} (x : Except ε α) (k : α → Except ε β),
      (x >>= k).toOption = x.toOption >>= fun a => (k a).toOption := by
    intro α β x k
    cases x <;> rfl
  -- The error is forgotten at each bind.
  induction v using inductionOn with
  | arr items ih =>
      have key : (traverseItems f items).toOption
          = traverseItems (fun s => (f s).toOption) items := by
        induction items with
        | nil => rfl
        | cons v rest ihrest =>
            simp only [traverseItems, hbind, ih v List.mem_cons_self,
              ihrest fun x hx => ih x (List.mem_cons_of_mem _ hx)]
            rfl
      simp only [traverseStr, hbind, key]
      rfl
  | obj members ih =>
      have key : (traverseMembers f members).toOption
          = traverseMembers (fun s => (f s).toOption) members := by
        induction members with
        | nil => rfl
        | cons e rest ihrest =>
            simp only [traverseMembers, hbind, ih e List.mem_cons_self,
              ihrest fun x hx => ih x (List.mem_cons_of_mem _ hx)]
            rfl
      simp only [traverseStr, hbind, key]
      rfl
  | _ => rfl

/-- A replacement that fails somewhere fails on some string. The places do not matter: the strings
of a value are a list. -/
theorem traverseStr_eq_none (f : String → Option Json) (v : Json) :
    v.traverseStr f = none ↔ ∃ s ∈ v.strings, f s = none := by
  -- A container fails when its first child does, or when the others do.
  induction v using inductionOn with
  | str s => simp [traverseStr, strings]
  | arr items ih =>
      have key : traverseItems f items = none ↔ ∃ s ∈ stringsItems items, f s = none := by
        induction items with
        | nil => simp [traverseItems, stringsItems]
        | cons v rest ihrest =>
            have hv := ih v List.mem_cons_self
            have hrest := ihrest fun x hx => ih x (List.mem_cons_of_mem _ hx)
            simp only [traverseItems, stringsItems, List.mem_append, or_and_right, exists_or, ← hv,
              ← hrest]
            cases v.traverseStr f <;> cases traverseItems f rest <;> simp
      simp only [traverseStr, strings, ← key]
      cases traverseItems f items <;> simp
  | obj members ih =>
      have key : traverseMembers f members = none ↔ ∃ s ∈ stringsMembers members, f s = none := by
        induction members with
        | nil => simp [traverseMembers, stringsMembers]
        | cons e rest ihrest =>
            have hv := ih e List.mem_cons_self
            have hrest := ihrest fun x hx => ih x (List.mem_cons_of_mem _ hx)
            simp only [traverseMembers, stringsMembers, List.mem_append, or_and_right, exists_or,
              ← hv, ← hrest]
            cases e.2.traverseStr f <;> cases traverseMembers f rest <;> simp
      simp only [traverseStr, strings, ← key]
      cases traverseMembers f members <;> simp
  | _ => simp [traverseStr, strings]

/-- A value with its strings exchanged: objects keep their keys, arrays their length, both their
order. -/
inductive Rebuilt (R : String → Json → Prop) : Json → Json → Prop
  | null : Rebuilt R .null .null
  | bool (b : Bool) : Rebuilt R (.bool b) (.bool b)
  | num (n : Number) : Rebuilt R (.num n) (.num n)
  | str {s : String} {v : Json} (h : R s v) : Rebuilt R (.str s) v
  | arr {items out : List Json} (h : List.Forall₂ (Rebuilt R) items out) :
      Rebuilt R (.arr items) (.arr out)
  | obj {members out : List (String × Json)} (hkeys : members.map Prod.fst = out.map Prod.fst)
      (h : List.Forall₂ (Rebuilt R) (members.map Prod.snd) (out.map Prod.snd)) :
      Rebuilt R (.obj members) (.obj out)

/-- A replacement that succeeds rebuilds the value, and `Rebuilt` says how without mentioning the
order of the traversal. -/
theorem traverseStr_eq_some (f : String → Option Json) (v w : Json) :
    v.traverseStr f = some w ↔ Rebuilt (fun s r => f s = some r) v w := by
  -- A container succeeds when its first child and the others do, and the results are put together
  -- in their order.
  induction v using inductionOn generalizing w with
  | str s =>
      rw [traverseStr]
      exact ⟨fun h => .str h, fun h => (by cases h with | str h => exact h)⟩
  | arr items ih =>
      have key : ∀ out, traverseItems f items = some out ↔
          List.Forall₂ (Rebuilt fun s r => f s = some r) items out := by
        induction items with
        | nil => intro out; cases out <;> simp [traverseItems]
        | cons v rest ihrest =>
            intro out
            have hrest := ihrest fun x hx => ih x (List.mem_cons_of_mem _ hx)
            rw [traverseItems, List.forall₂_cons_left_iff]
            simp only [bind, Option.bind_eq_some_iff, ih v List.mem_cons_self, hrest, pure,
              Option.some.injEq]
            constructor
            · rintro ⟨v', hv, out', hout, rfl⟩
              exact ⟨v', out', hv, hout, rfl⟩
            · rintro ⟨v', out', hv, hout, rfl⟩
              exact ⟨v', hv, out', hout, rfl⟩
      rw [traverseStr]
      simp only [bind, Option.bind_eq_some_iff, key, pure, Option.some.injEq]
      constructor
      · rintro ⟨out, hout, rfl⟩
        exact .arr hout
      · intro h
        cases h with | arr h => exact ⟨_, h, rfl⟩
  | obj members ih =>
      have key : ∀ out, traverseMembers f members = some out ↔
          members.map Prod.fst = out.map Prod.fst ∧
            List.Forall₂ (Rebuilt fun s r => f s = some r) (members.map Prod.snd)
              (out.map Prod.snd) := by
        induction members with
        | nil => intro out; cases out <;> simp [traverseMembers]
        | cons e rest ihrest =>
            intro out
            have hrest := ihrest fun x hx => ih x (List.mem_cons_of_mem _ hx)
            rw [traverseMembers]
            simp only [bind, Option.bind_eq_some_iff, ih e List.mem_cons_self, hrest, pure,
              Option.some.injEq]
            constructor
            · rintro ⟨v', hv, out', ⟨hkeys, hout⟩, rfl⟩
              exact ⟨congrArg (e.1 :: ·) hkeys, .cons hv hout⟩
            · cases out with
              | nil => exact fun h => absurd h.1 (by simp)
              | cons e' out' =>
                  rintro ⟨hkeys, hall⟩
                  obtain ⟨hk, hkeys⟩ := List.cons.inj hkeys
                  rw [List.map_cons, List.map_cons, List.forall₂_cons] at hall
                  exact ⟨e'.2, hall.1, out', ⟨hkeys, hall.2⟩, by rw [hk]⟩
      rw [traverseStr]
      simp only [bind, Option.bind_eq_some_iff, key, pure, Option.some.injEq]
      constructor
      · rintro ⟨out, ⟨hkeys, hout⟩, rfl⟩
        exact .obj hkeys hout
      · intro h
        cases h with | obj hkeys h => exact ⟨_, ⟨hkeys, h⟩, rfl⟩
  | null => exact ⟨fun h => Option.some.inj h ▸ .null, fun h => (by cases h; rfl)⟩
  | bool b => exact ⟨fun h => Option.some.inj h ▸ .bool b, fun h => (by cases h; rfl)⟩
  | num q => exact ⟨fun h => Option.some.inj h ▸ .num q, fun h => (by cases h; rfl)⟩

/-- Two replacements with one result replaced every string alike. A result keeps the shape of the
value, so what a string became can be read off it. -/
theorem traverseStr_inj {f g : String → Option Json} {v w : Json} (hf : v.traverseStr f = some w)
    (hg : v.traverseStr g = some w) : ∀ s ∈ v.strings, f s = g s := by
  -- The results of the children can be read off the result.
  induction v using inductionOn generalizing w with
  | str s =>
      intro t ht
      rw [List.mem_singleton.mp ht]
      exact hf.trans hg.symm
  | arr items ih =>
      have key : ∀ out, traverseItems f items = some out → traverseItems g items = some out →
          ∀ s ∈ stringsItems items, f s = g s := by
        clear hf hg
        induction items with
        | nil =>
            intro out _ _ s hs
            cases hs
        | cons v rest ihrest =>
            intro out hf hg s hs
            obtain ⟨v', hv, hf⟩ := Option.bind_eq_some_iff.mp hf
            obtain ⟨out', hout, hf⟩ := Option.bind_eq_some_iff.mp hf
            obtain ⟨w', hw, hg⟩ := Option.bind_eq_some_iff.mp hg
            obtain ⟨outg, houtg, hg⟩ := Option.bind_eq_some_iff.mp hg
            cases hf
            cases hg
            rcases List.mem_append.mp hs with hs | hs
            · exact ih v List.mem_cons_self hv hw s hs
            · exact ihrest (fun x hx => ih x (List.mem_cons_of_mem _ hx)) _ hout houtg s hs
      obtain ⟨out, hout, hf⟩ := Option.bind_eq_some_iff.mp hf
      obtain ⟨outg, houtg, hg⟩ := Option.bind_eq_some_iff.mp hg
      cases hf
      cases hg
      exact key _ hout houtg
  | obj members ih =>
      have key : ∀ out, traverseMembers f members = some out →
          traverseMembers g members = some out → ∀ s ∈ stringsMembers members, f s = g s := by
        clear hf hg
        induction members with
        | nil =>
            intro out _ _ s hs
            cases hs
        | cons e rest ihrest =>
            intro out hf hg s hs
            obtain ⟨v', hv, hf⟩ := Option.bind_eq_some_iff.mp hf
            obtain ⟨out', hout, hf⟩ := Option.bind_eq_some_iff.mp hf
            obtain ⟨w', hw, hg⟩ := Option.bind_eq_some_iff.mp hg
            obtain ⟨outg, houtg, hg⟩ := Option.bind_eq_some_iff.mp hg
            cases hf
            cases hg
            rcases List.mem_append.mp hs with hs | hs
            · exact ih e List.mem_cons_self hv hw s hs
            · exact ihrest (fun x hx => ih x (List.mem_cons_of_mem _ hx)) _ hout houtg s hs
      obtain ⟨out, hout, hf⟩ := Option.bind_eq_some_iff.mp hf
      obtain ⟨outg, houtg, hg⟩ := Option.bind_eq_some_iff.mp hg
      cases hf
      cases hg
      exact key _ hout houtg
  | _ =>
      intro s hs
      cases hs

/-- Two replacements have one result when both fail, or when they replace every string alike. -/
theorem traverseStr_eq_iff (f g : String → Option Json) (v : Json) :
    v.traverseStr f = v.traverseStr g ↔
      ((∃ s ∈ v.strings, f s = none) ∧ ∃ s ∈ v.strings, g s = none) ∨
        ∀ s ∈ v.strings, f s = g s := by
  rw [← traverseStr_eq_none, ← traverseStr_eq_none]
  constructor
  · intro h
    cases hf : v.traverseStr f with
    | none => exact Or.inl ⟨rfl, h ▸ hf⟩
    | some w => exact Or.inr (traverseStr_inj hf (h ▸ hf))
  · rintro (⟨hf, hg⟩ | h)
    · rw [hf, hg]
    · exact traverseStr_congr v h

end Json

end Orchestrator.Lib
