import Mathlib.Algebra.GroupWithZero.Nat
import Mathlib.Algebra.Ring.Int.Defs
import Mathlib.Algebra.Order.BigOperators.Group.List
import Mathlib.Algebra.Order.Group.Nat

/-!
# `Orchestrator.Lib.Replace`: replacing one element of a list

A step of one of several components replaces it in their list. These lemmas say what the replacement
does to membership, maps, filters, sums and counts.

The invariants of a scheduler are of two kinds. Some speak of every component, and `forall_mem_set`
keeps them when the new one has the property. Others speak of the components together: how many are
at some place, what they have used, which of them carry a key. For these the lemma says how one
replacement changes the whole, in a form without subtraction (`sum_map_set`, `countP_set_add`), so
that `omega` can go on from there.
-/

set_option autoImplicit false

namespace Orchestrator.Lib

open scoped List

/-- Replacing an element by one with the same image keeps the mapped list. -/
theorem map_set_of_eq {α β : Type} (f : α → β) {l : List α} {i : Nat} {a a' : α}
    (hi : l[i]? = some a) (h : f a' = f a) : (l.set i a').map f = l.map f := by
  rw [List.map_set, h]
  refine List.ext_getElem? fun j => ?_
  rw [List.getElem?_set, List.getElem?_map]
  split
  · rename_i hij
    subst hij
    obtain ⟨hlt, rfl⟩ := List.getElem?_eq_some_iff.mp hi
    simp [hlt]
  · rfl

/-- An element other than the replaced one is still there. -/
theorem mem_set_of_ne {α : Type} {l : List α} {i : Nat} {a a' x : α} (hi : l[i]? = some a)
    (hx : x ∈ l) (hne : x ≠ a) : x ∈ l.set i a' := by
  obtain ⟨j, hj, rfl⟩ := List.mem_iff_getElem.mp hx
  have hij : i ≠ j := by
    rintro rfl
    rw [List.getElem?_eq_getElem hj] at hi
    exact hne (Option.some.inj hi)
  refine List.mem_iff_getElem.mpr ⟨j, by simpa using hj, ?_⟩
  rw [List.getElem_set_of_ne hij]

/-- The replacing element is there. -/
theorem mem_set_self {α : Type} {l : List α} {i : Nat} {a a' : α} (hi : l[i]? = some a) :
    a' ∈ l.set i a' := by
  obtain ⟨hlt, -⟩ := List.getElem?_eq_some_iff.mp hi
  exact List.mem_set hlt a'

/-- A replacement tells the new element. -/
theorem eq_of_set_eq {α : Type} {l : List α} {i : Nat} {a b c : α} (hi : l[i]? = some a)
    (h : l.set i b = l.set i c) : b = c := by
  have hlt : i < l.length := (List.getElem?_eq_some_iff.mp hi).1
  have := congrArg (fun l => l[i]?) h
  simpa [hlt] using this

/-- What holds of every element and of the new one holds after the replacement. It is the step of
every invariant about all components. -/
theorem forall_mem_set {α : Type} {P : α → Prop} {l : List α} {i : Nat} {a' : α}
    (h : ∀ x ∈ l, P x) (ha : P a') : ∀ x ∈ l.set i a', P x := by
  intro x hx
  rcases List.mem_or_eq_of_mem_set hx with hx | rfl
  · exact h x hx
  · exact ha

/-- Replacing an element that a filter drops by another one that it drops. -/
theorem filter_set_of_false {α : Type} {p : α → Bool} {l : List α} {i : Nat} {a a' : α}
    (hi : l[i]? = some a) (ha : p a = false) (ha' : p a' = false) :
    (l.set i a').filter p = l.filter p := by
  obtain ⟨hlt, rfl⟩ := List.getElem?_eq_some_iff.mp hi
  rw [List.set_eq_take_cons_drop _ hlt, List.filter_append, List.filter_cons_of_neg (by simp [ha'])]
  conv_rhs => rw [← List.take_append_drop i l, List.drop_eq_getElem_cons hlt]
  rw [List.filter_append, List.filter_cons_of_neg (by simp [ha])]

/-- In a list without repetition, one element starts satisfying a predicate: the filtered list
gains it. -/
theorem filter_gain_one {α : Type} {l : List α} (hnd : l.Nodup) {a : α} (ha : a ∈ l)
    {p q : α → Bool} (hp : p a = false) (hq : q a = true) (h : ∀ x ∈ l, x ≠ a → q x = p x) :
    l.filter q ~ a :: l.filter p := by
  classical
  have hperm := List.perm_cons_erase ha
  have hrest : (l.erase a).filter q = (l.erase a).filter p :=
    List.filter_congr fun x hx => h x (List.mem_of_mem_erase hx) (hnd.mem_erase_iff.mp hx).1
  have hl := hperm.filter q
  have hr := hperm.filter p
  rw [List.filter_cons_of_pos hq, hrest] at hl
  rw [List.filter_cons_of_neg (by simp [hp])] at hr
  exact hl.trans (hr.symm.cons a)

/-- Replacing an element changes a sum by the difference. Both sides are sums, since the natural
numbers have no negative difference. -/
theorem sum_map_set {α : Type} (f : α → Nat) {l : List α} {i : Nat} {a a' : α}
    (hi : l[i]? = some a) : ((l.set i a').map f).sum + f a = (l.map f).sum + f a' := by
  obtain ⟨hlt, rfl⟩ := List.getElem?_eq_some_iff.mp hi
  conv_rhs => rw [← List.take_append_drop i l, List.drop_eq_getElem_cons hlt]
  rw [List.set_eq_take_cons_drop _ hlt]
  simp only [List.map_append, List.map_cons, List.sum_append, List.sum_cons]
  omega

/-- Among elements with distinct keys, one has the key of `a`, and it is `a`. -/
theorem filter_key_eq {α κ : Type} [DecidableEq κ] (key : α → κ) {a : α} :
    ∀ {l : List α}, (l.map key).Nodup → a ∈ l →
      l.filter (fun b => decide (key b = key a)) = [a] := by
  intro l
  induction l with
  | nil =>
      intro _ h
      cases h
  | cons b l ih =>
      intro hnd ha
      rw [List.map_cons, List.nodup_cons] at hnd
      -- The element is the head, and no other has its key, or the head has another key and is
      -- dropped.
      rcases List.mem_cons.mp ha with rfl | ha
      · have hrest : l.filter (fun b => decide (key b = key a)) = [] :=
          List.filter_eq_nil_iff.mpr fun c hc => by
            rw [decide_eq_true_iff]
            exact fun he => hnd.1 (he ▸ List.mem_map_of_mem hc)
        rw [List.filter_cons_of_pos (by simp), hrest]
      · have hne : key b ≠ key a := fun he => hnd.1 (he ▸ List.mem_map_of_mem ha)
        rw [List.filter_cons_of_neg (by simpa using hne)]
        exact ih hnd.2 ha

/-- Replacing an element moves a count by what the two elements say. -/
theorem countP_set_add {α : Type} (p : α → Bool) {l : List α} {i : Nat} {a a' : α}
    (hi : l[i]? = some a) :
    (l.set i a').countP p + (if p a then 1 else 0) = l.countP p + (if p a' then 1 else 0) := by
  have hsum := @sum_map_set _ (fun x => if p x = true then 1 else 0) l i a a' hi
  have hcount : ∀ m : List α, m.countP p = (m.map (fun x => if p x = true then 1 else 0)).sum := by
    intro m
    induction m with
    | nil => rfl
    | cons x m ih => simp [List.countP_cons, ih, Nat.add_comm]
  rw [hcount, hcount]
  exact hsum

end Orchestrator.Lib
