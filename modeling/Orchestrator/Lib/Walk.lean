import Mathlib.Algebra.GroupWithZero.Nat
import Mathlib.Algebra.Ring.Int.Defs
import Mathlib.Algebra.BigOperators.Group.List.Basic
import Mathlib.Data.List.Nodup

/-!
# `Orchestrator.Lib.Walk`: a stack walk that marks what it reaches

`walk` is the loop "pop a node; skip it when it is marked; otherwise mark it and push its children".
A scheduler runs it to skip what depends on a node that failed. The marks live in a state of any
type, read by `seen` and written by `visit`, so one specification serves a set of marks and a table
of results alike.

`walk_spec` says what the loop leaves behind. The marked nodes are new and each is marked once. Each
was on the stack or is a child of a marked one, and nothing reachable in one step is left unmarked.
Together the last two say that the walk marks exactly what can be reached through unmarked nodes
(`Walked`).

The loop takes fuel. `pending` bounds the pushes still to come: each unmarked node may be marked
once, and then its children are pushed. The specification asks for no more fuel than the stack and
`pending` together. The order of the marks is the one of the source, the last child first, but no
field of `Walked` mentions it.
-/

set_option autoImplicit false

namespace Orchestrator.Lib

universe u v

variable {α : Type u} {σ : Type v}

/-- The stack walk. The head of the list is the top of the stack; the children of a marked
node go on top of it, the last child uppermost. -/
def walk (children : α → List α) (seen : σ → α → Bool) (visit : σ → α → σ) :
    Nat → List α → σ → σ
  | 0, _, s => s
  | _ + 1, [], s => s
  | n + 1, c :: rest, s =>
    if seen s c then walk children seen visit n rest s
    else walk children seen visit n ((children c).reverse ++ rest) (visit s c)

/-- The children of the unmarked nodes: an upper bound for the pushes still to come. -/
def pending (children : α → List α) (seen : σ → α → Bool) (nodes : List α) (s : σ) : Nat :=
  (nodes.map (fun c => if seen s c then 0 else (children c).length)).sum

/-- What a walk that starts with `stack` and marks `new` guarantees. `origin` bounds the marks from
above, `stack_marked` and `children_marked` from below: where a mark could go, there is one. -/
structure Walked (children : α → List α) (seen : σ → α → Bool) (s : σ) (stack new : List α) :
    Prop where
  nodup : new.Nodup
  fresh : ∀ c ∈ new, seen s c = false
  origin : ∀ c ∈ new, c ∈ stack ∨ ∃ y ∈ new, c ∈ children y
  stack_marked : ∀ c ∈ stack, seen s c = true ∨ c ∈ new
  children_marked : ∀ y ∈ new, ∀ c ∈ children y, seen s c = true ∨ c ∈ new

/-- `Walked` reads only the marks before the walk and the members of the stack. -/
theorem Walked.congr {σ' : Type*} {children : α → List α} {seen : σ → α → Bool}
    {seen' : σ' → α → Bool} {s : σ} {s' : σ'} {stack stack' new : List α}
    (h : Walked children seen s stack new) (hseen : ∀ c, seen' s' c = seen s c)
    (hstack : ∀ c, c ∈ stack' ↔ c ∈ stack) : Walked children seen' s' stack' new where
  nodup := h.nodup
  fresh c hc := (hseen c).trans (h.fresh c hc)
  origin c hc := (h.origin c hc).imp_left (hstack c).mpr
  stack_marked c hc := by
    rw [hseen]
    exact h.stack_marked c ((hstack c).mp hc)
  children_marked y hy c hc := by
    rw [hseen]
    exact h.children_marked y hy c hc

variable [DecidableEq α] (children : α → List α)

section

variable {seen : σ → α → Bool} {visit : σ → α → σ}

/-- Marking an unmarked node takes its children out of `pending`. The loop pushes exactly these, so
the stack and `pending` together get shorter by the popped node. -/
theorem pending_visit (hvisit : ∀ s c d, seen (visit s c) d = (seen s d || decide (d = c)))
    {nodes : List α} (hnd : nodes.Nodup) {s : σ} {c : α} (hc : c ∈ nodes)
    (hs : seen s c = false) :
    pending children seen nodes (visit s c) + (children c).length
      = pending children seen nodes s := by
  induction nodes with
  | nil => simp at hc
  | cons a nodes ih =>
      rw [List.nodup_cons] at hnd
      simp only [pending, List.map_cons, List.sum_cons, hvisit]
      by_cases ha : a = c
      · subst ha
        -- No later node is `a`, so the rest of the sum does not change.
        have hrest : nodes.map (fun d => if (seen s d || decide (d = a)) = true then 0
              else (children d).length)
            = nodes.map (fun d => if seen s d = true then 0 else (children d).length) := by
          refine List.map_congr_left fun d hd => ?_
          have hda : d ≠ a := fun h => hnd.1 (h ▸ hd)
          simp [hda]
        rw [hrest]
        simp [hs, Nat.add_comm]
      · have hrec := ih hnd.2 ((List.mem_cons.mp hc).resolve_left (Ne.symm ha))
        simp only [pending, hvisit] at hrec
        simp only [ha, decide_false, Bool.or_false]
        omega

end

/-- The specification of the walk. The state at the end is the fold of `visit` over the marked
nodes, in the order of their marks, and `Walked` says which they are. `hvisit` is all that is asked
of the state: a visit marks its node and no other. -/
theorem walk_spec (seen : σ → α → Bool) (visit : σ → α → σ)
    (hvisit : ∀ s c d, seen (visit s c) d = (seen s d || decide (d = c)))
    {nodes : List α} (hnd : nodes.Nodup)
    (hnodes : ∀ c ∈ nodes, ∀ d ∈ children c, d ∈ nodes) :
    ∀ (n : Nat) (stack : List α) (s : σ), (∀ c ∈ stack, c ∈ nodes) →
      stack.length + pending children seen nodes s ≤ n →
      ∃ new, walk children seen visit n stack s = new.foldl visit s ∧
        Walked children seen s stack new := by
  intro n
  induction n with
  | zero =>
      intro stack s _ hn
      have hnil : stack = [] := List.eq_nil_of_length_eq_zero (by omega)
      subst hnil
      exact ⟨[], rfl, List.nodup_nil, by simp, by simp, by simp, by simp⟩
  | succ n ih =>
      intro stack s hstack hn
      cases stack with
      | nil => exact ⟨[], rfl, List.nodup_nil, by simp, by simp, by simp, by simp⟩
      | cons c rest =>
          simp only [List.length_cons] at hn
          have hc : c ∈ nodes := hstack c List.mem_cons_self
          have hrest : ∀ d ∈ rest, d ∈ nodes := fun d hd => hstack d (List.mem_cons_of_mem c hd)
          -- A marked node is dropped, another one is marked and its children go on the stack.
          by_cases hs : seen s c = true
          · obtain ⟨new, hwalk, hw⟩ := ih rest s hrest (by omega)
            refine ⟨new, by simp [walk, hs, hwalk], hw.nodup, hw.fresh, ?_, ?_, hw.children_marked⟩
            · exact fun d hd => (hw.origin d hd).imp_left (List.mem_cons_of_mem c)
            · intro d hd
              rcases List.mem_cons.mp hd with rfl | hd
              · exact Or.inl hs
              · exact hw.stack_marked d hd
          · have hs' : seen s c = false := by simpa using hs
            -- One node fewer is left to mark, which pays for its children on the stack.
            have hpend := pending_visit children hvisit hnd hc hs'
            have hstack' : ∀ d ∈ (children c).reverse ++ rest, d ∈ nodes := by
              intro d hd
              rcases List.mem_append.mp hd with hd | hd
              · exact hnodes c hc d (List.mem_reverse.mp hd)
              · exact hrest d hd
            obtain ⟨new, hwalk, hw⟩ := ih _ (visit s c) hstack' (by
              simp only [List.length_append, List.length_reverse]
              omega)
            have hfresh : ∀ d ∈ new, seen s d = false ∧ d ≠ c := by
              intro d hd
              have := hw.fresh d hd
              simpa [hvisit] using this
            have hmarked : ∀ d, seen (visit s c) d = true ∨ d ∈ new →
                seen s d = true ∨ d ∈ c :: new := by
              intro d hd
              rcases hd with hd | hd
              · rw [hvisit, Bool.or_eq_true, decide_eq_true_iff] at hd
                rcases hd with hd | rfl
                · exact Or.inl hd
                · exact Or.inr List.mem_cons_self
              · exact Or.inr (List.mem_cons_of_mem c hd)
            refine ⟨c :: new, by simp [walk, hs', hwalk], ?_, ?_, ?_, ?_, ?_⟩
            · exact List.nodup_cons.mpr ⟨fun hm => (hfresh c hm).2 rfl, hw.nodup⟩
            · intro d hd
              rcases List.mem_cons.mp hd with rfl | hd
              · exact hs'
              · exact (hfresh d hd).1
            · intro d hd
              rcases List.mem_cons.mp hd with rfl | hd
              · exact Or.inl List.mem_cons_self
              · rcases hw.origin d hd with hd | ⟨y, hy, hd⟩
                · rcases List.mem_append.mp hd with hd | hd
                  · exact Or.inr ⟨c, List.mem_cons_self, List.mem_reverse.mp hd⟩
                  · exact Or.inl (List.mem_cons_of_mem c hd)
                · exact Or.inr ⟨y, List.mem_cons_of_mem c hy, hd⟩
            · intro d hd
              rcases List.mem_cons.mp hd with rfl | hd
              · exact Or.inr List.mem_cons_self
              · exact hmarked d (hw.stack_marked d (List.mem_append_right _ hd))
            · intro y hy d hd
              rcases List.mem_cons.mp hy with rfl | hy
              · exact hmarked d (hw.stack_marked d
                  (List.mem_append_left _ (List.mem_reverse.mpr hd)))
              · exact hmarked d (hw.children_marked y hy d hd)

end Orchestrator.Lib
