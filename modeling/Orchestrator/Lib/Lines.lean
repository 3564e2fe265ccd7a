import Mathlib.Data.List.Basic

/-!
# `Orchestrator.Lib.Lines`: a byte stream cut into lines

A stream is cut at a separator. `boundedLines` are its lines up to the first one that has no room in
a buffer of a given size, and `terminated` puts lines into a stream.

A reader with a bounded buffer reports a line that does not fit and reads no further. So
`boundedLines` is not the list of the short lines: what follows a long line is lost, whatever its
length. The limit is the size of the buffer, in which a line and its separator must find room, so a
line is shorter than the limit.

The two `boundedLines_append` equations are how a scanner meets this definition: it has found a
separator, or it has filled its buffer without one. The definition mentions no chunks, so a scanner
that agrees with it reads every division of a stream alike.
-/

set_option autoImplicit false

namespace Orchestrator.Lib

variable {α : Type} {sep : α} {limit : Nat}

/-- The stream of some lines, each with a separator behind it. -/
def terminated (sep : α) (ls : List (List α)) : List α := ls.flatMap (· ++ [sep])

/-- No lines make the empty stream. -/
@[simp]
theorem terminated_nil : terminated sep [] = [] := rfl

/-- The first line comes first, with its separator. -/
@[simp]
theorem terminated_cons (l : List α) (ls : List (List α)) :
    terminated sep (l :: ls) = l ++ sep :: terminated sep ls := by
  simp [terminated]

variable [BEq α] [LawfulBEq α]

/-- The lines of a stream before the first that is as long as the limit. What follows the last
separator counts as a line. -/
def boundedLines (sep : α) (limit : Nat) (s : List α) : List (List α) :=
  (s.splitOn sep).takeWhile (fun l => l.length < limit)

/-- The first line of a stream that has a separator. -/
theorem boundedLines_append_cons {l : List α} (h : sep ∉ l) (s : List α) :
    boundedLines sep limit (l ++ sep :: s)
      = if l.length < limit then l :: boundedLines sep limit s else [] := by
  rw [boundedLines, List.splitOn_append_cons_self_of_not_mem h, List.takeWhile_cons]
  simp only [decide_eq_true_eq]
  rfl

/-- A stream without a separator is one line. -/
theorem boundedLines_of_not_mem {l : List α} (h : sep ∉ l) :
    boundedLines sep limit l = if l.length < limit then [l] else [] := by
  rw [boundedLines, List.splitOn_eq_singleton h, List.takeWhile_cons]
  simp

/-- A stream that begins with a long line has no lines. -/
theorem boundedLines_of_long {l : List α} (h : sep ∉ l) (hlen : limit ≤ l.length) (s : List α) :
    boundedLines sep limit (l ++ s) = [] := by
  by_cases hs : sep ∈ s
  · obtain ⟨a, b, rfl, ha⟩ := List.eq_append_cons_of_mem hs
    rw [← List.append_assoc, boundedLines_append_cons (by simp [h, ha]), if_neg]
    rw [List.length_append]
    omega
  · rw [boundedLines_of_not_mem (by simp [h, hs]), if_neg]
    rw [List.length_append]
    omega

end Orchestrator.Lib
