import Mathlib.Data.List.Basic
import Mathlib.Data.List.Nodup

/-!
# `Orchestrator.Lib.Dict`: finite maps that remember insertion order

A `Dict κ ν` is a list of key-value pairs whose keys are distinct. The distinctness is a field, so
no function below can build a dictionary with a repeated key, and no lemma about a dictionary has to
assume it.

`set` follows the order of an insertion-ordered map: an update keeps the place of the key, a new key
goes last. Python dictionaries behave so, and a document keeps the order of its members. A caller
that reads only `get?` sees a plain finite map, and a Go map is read in no other way. Where an
iteration order matters it is a parameter of the reader, not of the map.

`get?_set`, `get?_erase` and `mem_entries` are the rules the rest of the development uses. Loops
that fill a dictionary have theirs in `Orchestrator.Lib.Loops`.

The last section is about dictionaries with the same bindings under other names for the keys, by an
injective renaming. It connects a loader that keeps keys of any type to a reader that has strings.
-/

set_option autoImplicit false

namespace Orchestrator.Lib

universe u v

/-- A finite map in insertion order. A key that is bound again keeps its place, as in a Python
`dict`, so the list of the bindings is the history of the first insertions.

The absence of duplicates is a field: a dictionary that violates it cannot be built, and `find` may
take the first binding that it meets. -/
structure Dict (κ : Type u) (ν : Type v) where
  /-- The bindings, oldest key first. -/
  entries : List (κ × ν)
  /-- No key occurs twice. -/
  nodup : (entries.map Prod.fst).Nodup
deriving DecidableEq

namespace Dict

variable {κ : Type u} {ν : Type v} [DecidableEq κ]

/-- The dictionary without a binding. It is what the loops that fill a dictionary start from, and
the default value of the type. -/
def empty : Dict κ ν := ⟨[], List.nodup_nil⟩

instance : Inhabited (Dict κ ν) := ⟨empty⟩

/-- The keys, oldest first. -/
def keys (d : Dict κ ν) : List κ := d.entries.map Prod.fst

/-- The value of a key in a list of bindings. It looks at the first binding of the key; in the
entries of a dictionary there is no second one. -/
def find (k : κ) : List (κ × ν) → Option ν
  | [] => none
  | (k', v) :: rest => if k' = k then some v else find k rest

/-- The value bound to `k`. -/
def get? (d : Dict κ ν) (k : κ) : Option ν := find k d.entries

/-- `k` has a binding. -/
def contains (d : Dict κ ν) (k : κ) : Bool := (d.get? k).isSome

/-- Bind `k` to `v` in a list of bindings. A binding of `k` that is there is replaced where it
stands, otherwise the new one goes last. -/
def setEntries (k : κ) (v : ν) : List (κ × ν) → List (κ × ν)
  | [] => [(k, v)]
  | (k', v') :: rest => if k' = k then (k, v) :: rest else (k', v') :: setEntries k v rest

/-- Binding a key keeps the key list, or appends the key. The keys stay distinct for this reason,
which is what `set` has to prove. -/
theorem map_fst_setEntries (k : κ) (v : ν) (l : List (κ × ν)) :
    (setEntries k v l).map Prod.fst
      = if k ∈ l.map Prod.fst then l.map Prod.fst else l.map Prod.fst ++ [k] := by
  induction l with
  | nil => simp [setEntries]
  | cons e l ih =>
      obtain ⟨k', v'⟩ := e
      by_cases hk : k' = k
      · simp [setEntries, hk]
      · simp only [setEntries, if_neg hk, List.map_cons, ih, List.mem_cons, Ne.symm hk, false_or]
        split <;> simp

/-- Bind `k` to `v`. A key that was bound keeps its place and gets the new value, a new key goes to
the end. -/
def set (d : Dict κ ν) (k : κ) (v : ν) : Dict κ ν where
  entries := setEntries k v d.entries
  nodup := by
    rw [map_fst_setEntries]
    split
    · exact d.nodup
    · rename_i hk
      exact List.Nodup.append d.nodup (List.nodup_singleton k) (by simpa using hk)

/-- Drop the binding of `k`. -/
def erase (d : Dict κ ν) (k : κ) : Dict κ ν where
  entries := d.entries.filter (fun e => e.1 ≠ k)
  nodup := d.nodup.sublist ((List.filter_sublist).map Prod.fst)

/-- Change every value, keeping the keys and their order. The function may look at the key of a
value. -/
def mapValues {ν' : Type v} (f : κ → ν → ν') (d : Dict κ ν) : Dict κ ν' where
  entries := d.entries.map (fun e => (e.1, f e.1 e.2))
  nodup := by
    rw [List.map_map]
    exact d.nodup

/-- The empty dictionary binds no key. -/
@[simp] theorem get?_empty (k : κ) : (empty : Dict κ ν).get? k = none := rfl

/-- Looking up a key in a list of bindings after a `setEntries`. -/
theorem find_setEntries (k k' : κ) (v : ν) (l : List (κ × ν)) :
    find k' (setEntries k v l) = if k' = k then some v else find k' l := by
  induction l with
  | nil => simp [setEntries, find, eq_comm]
  | cons e l ih =>
      obtain ⟨a, w⟩ := e
      by_cases ha : a = k
      · subst ha
        by_cases hk : k' = a
        · simp [setEntries, find, hk]
        · simp [setEntries, find, hk, Ne.symm hk]
      · by_cases hk : a = k'
        · subst hk
          simp [setEntries, find, ha]
        · simp [setEntries, find, ha, hk, ih]

/-- The value of a key after a `set`: the new value for the key itself, the old one for any
other. -/
theorem get?_set (d : Dict κ ν) (k k' : κ) (v : ν) :
    (d.set k v).get? k' = if k' = k then some v else d.get? k' :=
  find_setEntries k k' v d.entries

/-- A key that has just been bound has the new value. -/
@[simp] theorem get?_set_self (d : Dict κ ν) (k : κ) (v : ν) : (d.set k v).get? k = some v := by
  simp [get?_set]

/-- Binding one key leaves the others alone. -/
@[simp] theorem get?_set_ne (d : Dict κ ν) {k k' : κ} (v : ν) (h : k' ≠ k) :
    (d.set k v).get? k' = d.get? k' := by
  simp [get?_set, h]

/-- The value of a key after all values were changed is the change of its value. -/
@[simp] theorem get?_mapValues {ν' : Type v} (f : κ → ν → ν') (d : Dict κ ν) (k : κ) :
    (d.mapValues f).get? k = (d.get? k).map (f k) := by
  show find k (d.entries.map (fun e => (e.1, f e.1 e.2))) = (find k d.entries).map (f k)
  induction d.entries with
  | nil => rfl
  | cons e l ih =>
      obtain ⟨a, w⟩ := e
      by_cases ha : a = k
      · subst ha
        simp [find]
      · simp [find, ha, ih]

/-- Binding a key updates what is read off the values. In this form a map that holds a record for
each key is seen as the function of one field. -/
theorem map_get?_set {β : Type*} (f : ν → β) (d : Dict κ ν) (k : κ) (v : ν) :
    (fun k' => ((d.set k v).get? k').map f)
      = Function.update (fun k' => (d.get? k').map f) k (some (f v)) := by
  funext k'
  by_cases h : k' = k
  · subst h
    simp
  · simp [h]

/-- A list of bindings has a value for exactly its keys. -/
theorem find_isSome (k : κ) (l : List (κ × ν)) :
    (find k l).isSome ↔ k ∈ l.map Prod.fst := by
  induction l with
  | nil => simp [find]
  | cons e l ih =>
      obtain ⟨a, w⟩ := e
      by_cases ha : a = k
      · simp [find, ha]
      · simp [find, ha, Ne.symm ha, ih]

/-- The keys are the bound ones: a key is listed exactly when `get?` answers for it. -/
theorem mem_keys (d : Dict κ ν) (k : κ) : k ∈ d.keys ↔ ∃ v, d.get? k = some v := by
  rw [keys, ← find_isSome, Option.isSome_iff_exists]
  rfl

/-- A key is contained when it has a value. -/
theorem contains_iff (d : Dict κ ν) (k : κ) : d.contains k = true ↔ ∃ v, d.get? k = some v := by
  rw [contains, Option.isSome_iff_exists]

/-- A key is not contained when `get?` answers with nothing. -/
theorem contains_eq_false (d : Dict κ ν) (k : κ) : d.contains k = false ↔ d.get? k = none := by
  rw [contains, Option.isSome_eq_false_iff, Option.isNone_iff_eq_none]

/-- In a list of bindings with distinct keys, a pair is a member exactly when its key has its
value. -/
theorem mem_iff_find {l : List (κ × ν)} (h : (l.map Prod.fst).Nodup) (k : κ) (v : ν) :
    (k, v) ∈ l ↔ find k l = some v := by
  induction l with
  | nil => simp [find]
  | cons e l ih =>
      obtain ⟨a, w⟩ := e
      rw [List.map_cons, List.nodup_cons] at h
      by_cases ha : a = k
      · subst ha
        have hnot : (a, v) ∉ l := fun hm => h.1 (List.mem_map.mpr ⟨(a, v), hm, rfl⟩)
        simp [find, hnot, eq_comm]
      · simp [find, ha, Ne.symm ha, ih h.2]

/-- The bindings are the pairs `get?` answers. A loop over the entries is read through this lemma as
a statement about all keys. -/
theorem mem_entries (d : Dict κ ν) (k : κ) (v : ν) :
    (k, v) ∈ d.entries ↔ d.get? k = some v :=
  mem_iff_find d.nodup k v

/-- The value of a key after an `erase`: none for the key itself, the old one for any other. -/
theorem get?_erase (d : Dict κ ν) (k k' : κ) :
    (d.erase k).get? k' = if k' = k then none else d.get? k' := by
  have key : ∀ l : List (κ × ν),
      find k' (l.filter (fun e => e.1 ≠ k)) = if k' = k then none else find k' l := by
    intro l
    induction l with
    | nil => simp [find]
    | cons e l ih =>
        obtain ⟨a, w⟩ := e
        -- The head is the erased key, and goes, or it stays and may be the one that is looked up.
        by_cases ha : a = k
        · subst ha
          by_cases hk : k' = a
          · simpa [hk] using ih
          · simpa [find, hk, Ne.symm hk] using ih
        · by_cases hk : a = k'
          · subst hk
            simp [find, ha]
          · simpa [find, ha, hk] using ih
  exact key d.entries

/-- A key that has just been dropped has no value. -/
@[simp] theorem get?_erase_self (d : Dict κ ν) (k : κ) : (d.erase k).get? k = none := by
  simp [get?_erase]

/-! ### Other names -/

section Rename

variable {κ' : Type u} {ν' : Type v} [DecidableEq κ'] {f : κ → κ'}

/-- Looking up a key under another name. -/
theorem find_rename (hf : Function.Injective f) (g : ν → ν') (k : κ) (l : List (κ × ν)) :
    find (f k) (l.map fun e => (f e.1, g e.2)) = (find k l).map g := by
  induction l with
  | nil => rfl
  | cons e l ih =>
      obtain ⟨a, w⟩ := e
      rw [List.map_cons, find, find, ih]
      by_cases ha : a = k
      · rw [if_pos ha, if_pos (congrArg f ha)]
        rfl
      · rw [if_neg ha, if_neg (hf.ne ha)]

/-- Binding a key under another name. -/
theorem setEntries_rename (hf : Function.Injective f) (g : ν → ν') (k : κ) (v : ν)
    (l : List (κ × ν)) :
    setEntries (f k) (g v) (l.map fun e => (f e.1, g e.2))
      = (setEntries k v l).map fun e => (f e.1, g e.2) := by
  induction l with
  | nil => rfl
  | cons e l ih =>
      obtain ⟨a, w⟩ := e
      rw [List.map_cons, setEntries, setEntries, ih]
      by_cases ha : a = k
      · rw [if_pos ha, if_pos (congrArg f ha)]
        rfl
      · rw [if_neg ha, if_neg (hf.ne ha)]
        rfl

/-- A loop that binds keys under other names makes the same dictionary under the other names, also
where a key comes twice. -/
theorem entries_foldl_set_rename (hf : Function.Injective f) (g : ν → ν') :
    ∀ (l : List (κ × ν)) (d : Dict κ ν) (d' : Dict κ' ν'),
      d'.entries = d.entries.map (fun e => (f e.1, g e.2)) →
      ((l.map fun e => (f e.1, g e.2)).foldl (fun d e => d.set e.1 e.2) d').entries
        = (l.foldl (fun d e => d.set e.1 e.2) d).entries.map fun e => (f e.1, g e.2) := by
  intro l
  induction l with
  | nil => exact fun d d' h => h
  | cons e l ih =>
      intro d d' h
      rw [List.map_cons, List.foldl_cons, List.foldl_cons]
      refine ih _ _ ?_
      show setEntries (f e.1) (g e.2) d'.entries = (setEntries e.1 e.2 d.entries).map _
      rw [h, setEntries_rename hf]

end Rename

end Dict

end Orchestrator.Lib
