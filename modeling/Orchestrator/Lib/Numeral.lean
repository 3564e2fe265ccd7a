import Mathlib.Data.List.Basic

/-!
# `Orchestrator.Lib.Numeral`: names that end in a separator and a numeral

A name of the form `prefix-n`, with `n` in decimal, determines the prefix and the number, whatever
characters the prefix has (`tagged_inj`): no digit is the separator, so the last separator is the
one before the numeral.

Names of this form are made up of a task and the number of an attempt, and the task may contain a
separator itself. Two names are compared from their ends: the reversed lists agree, and the numerals
end where the first separator comes (`cut_first`). Numerals without a sign determine their numbers
(`toDigits_inj`).

The lemma is for numbers that are not negative. A negative number would begin with the separator,
and then the last separator need not be the one that was put in.
-/

set_option autoImplicit false

namespace Orchestrator.Lib

universe u

/-- Two lists that agree, cut at the first occurrence of an element, agree in front of it and behind
it. -/
theorem cut_first {α : Type u} {c : α} :
    ∀ {ds es xs ys : List α}, c ∉ ds → c ∉ es → ds ++ c :: xs = es ++ c :: ys →
      ds = es ∧ xs = ys := by
  intro ds
  induction ds with
  | nil =>
      intro es xs ys _ he h
      cases es with
      | nil => exact ⟨rfl, (List.cons.inj h).2⟩
      | cons e es => exact absurd ((List.cons.inj h).1 ▸ List.mem_cons_self) he
  | cons d ds ih =>
      intro es xs ys hd he h
      -- If one list were shorter, its separator would be an element of the other.
      cases es with
      | nil => exact absurd ((List.cons.inj h).1 ▸ List.mem_cons_self) hd
      | cons e es =>
          obtain ⟨rfl, hrest⟩ := List.cons.inj h
          obtain ⟨rfl, rfl⟩ := ih (fun hm => hd (List.mem_cons_of_mem d hm))
            (fun hm => he (List.mem_cons_of_mem d hm)) hrest
          exact ⟨rfl, rfl⟩

/-- The numeral of a natural number, as an integer. -/
theorem toList_toString_natCast (n : Nat) : (toString (n : Int)).toList = Nat.toDigits 10 n := by
  show (Nat.repr n).toList = _
  exact Nat.toList_repr

/-- A numeral has no separator in it. -/
theorem dash_not_mem_numeral (n : Nat) : '-' ∉ Nat.toDigits 10 n := by
  intro h
  have := Nat.isDigit_of_mem_toDigits (by decide) (by decide) h
  revert this
  decide

/-- Numerals of different numbers differ. -/
theorem toDigits_inj {m n : Nat} (h : Nat.toDigits 10 m = Nat.toDigits 10 n) : m = n := by
  have := congrArg (fun ds => Nat.ofDigitChars 10 ds 0) h
  simpa only [Nat.ofDigitChars_ten_toDigits] using this

/-- A name `prefix-n` determines the prefix and the number, when the number is not negative. -/
theorem tagged_inj {s t : String} {m n : Int} (hm : 0 ≤ m) (hn : 0 ≤ n)
    (h : s ++ "-" ++ toString m = t ++ "-" ++ toString n) : s = t ∧ m = n := by
  obtain ⟨a, rfl⟩ := Int.eq_ofNat_of_zero_le hm
  obtain ⟨b, rfl⟩ := Int.eq_ofNat_of_zero_le hn
  have hlist := congrArg String.toList h
  simp only [String.toList_append, toList_toString_natCast] at hlist
  -- Read backwards, the first separator ends the numeral.
  have hrev := congrArg List.reverse hlist
  have hdash : "-".toList = ['-'] := rfl
  simp only [hdash, List.reverse_append, List.reverse_singleton, List.singleton_append] at hrev
  -- Read from the end, each name has the digits first and then its last separator.
  obtain ⟨hdigits, hname⟩ := cut_first (by simpa using dash_not_mem_numeral a)
    (by simpa using dash_not_mem_numeral b) hrev
  refine ⟨String.toList_inj.mp (List.reverse_injective hname), ?_⟩
  rw [toDigits_inj (List.reverse_injective hdigits)]

end Orchestrator.Lib
