import Mathlib.Algebra.BigOperators.Group.List.Basic
import Mathlib.Algebra.BigOperators.Ring.List
import Mathlib.Data.Int.ConditionallyCompleteOrder
import Mathlib.Data.List.Chain
import Mathlib.Data.List.Nodup
import Mathlib.Data.List.Perm.Subperm
import Mathlib.Order.ConditionallyCompleteLattice.Basic
import Orchestrator.Lib.Dfs

/-!
# `Orchestrator.Lib.LongestChain`: the heaviest chains of an acyclic graph

`g x` lists the nodes that come directly before `x`. A chain to `x` follows these edges, and `total
g dur x` is the greatest sum of the weights `dur` along one. `total_eq` is the recurrence that a
memoised recursion computes: the weight of the node and the best of its predecessors, found by
`pick`.

`pick` takes the first best of several, above a floor. The floor is what a loop starts its
comparison from, and the lemmas allow any that is not positive: with a floor below zero a
predecessor of weight zero is picked, with zero it is not. The greatest weight is the same, the
chain may differ.

`trace` reads a chain back from its end, and `weight_trace` says that it is a heaviest one when each
step goes to the predecessor that was picked.

`foldl_pick` is the loop itself. It runs `pick` on values that come with a state, the table of the
values found so far. `foldl_max` is the loop over all nodes that looks for the best end.

Depth is measured by `Within`: in an acyclic graph a chain repeats no node, so it is no longer than
the list of the nodes, and the recursion ends.
-/

set_option autoImplicit false

namespace Orchestrator.Lib.LongestChain

universe u

variable {α : Type u}

/-! ### Chains -/

/-- A chain along the edges that ends in a node. -/
inductive ChainTo (g : α → List α) : α → List α → Prop
  | single (x : α) : ChainTo g x [x]
  | snoc {d x : α} {c : List α} : ChainTo g d c → d ∈ g x → ChainTo g x (c ++ [x])

/-- The sum of the weights along a chain. -/
def weight (dur : α → Int) (c : List α) : Int := (c.map dur).sum

variable {g : α → List α} {dur : α → Int}

/-- A chain of one node weighs what the node does. -/
@[simp] theorem weight_single (x : α) : weight dur [x] = dur x := by
  simp [weight]

/-- A node at the end adds its weight. -/
@[simp] theorem weight_snoc (c : List α) (x : α) :
    weight dur (c ++ [x]) = weight dur c + dur x := by
  simp [weight]

/-- A chain of weights that are not negative is not negative. -/
theorem weight_nonneg (hdur : ∀ x, 0 ≤ dur x) (c : List α) : 0 ≤ weight dur c := by
  induction c with
  | nil => exact le_rfl
  | cons x c ih =>
      show 0 ≤ (dur x :: c.map dur).sum
      rw [List.sum_cons]
      exact add_nonneg (hdur x) ih

/-- A chain as a list in which each element comes directly before the next. -/
theorem chainTo_iff {x : α} {c : List α} :
    ChainTo g x c ↔ c.IsChain (fun d t => d ∈ g t) ∧ c.getLast? = some x := by
  -- A chain grows at its end, and so does the list: both directions are by induction from that end.
  constructor
  · intro h
    induction h with
    | single x => exact ⟨List.isChain_singleton x, rfl⟩
    | @snoc d x c _ hd ih =>
        refine ⟨List.isChain_append.mpr ⟨ih.1, List.isChain_singleton x, ?_⟩, by simp⟩
        intro a ha b hb
        rw [ih.2] at ha
        cases ha
        cases hb
        exact hd
  · rintro ⟨hchain, hlast⟩
    induction c using List.reverseRecOn generalizing x with
    | nil => cases hlast
    | append_singleton c y ih =>
        obtain rfl : y = x := by simpa using hlast
        obtain ⟨hc, -, hedge⟩ := List.isChain_append.mp hchain
        cases hend : c.getLast? with
        | none =>
            rw [List.getLast?_eq_none_iff.mp hend]
            exact .single y
        | some d => exact .snoc (ih hc hend) (hedge d hend y rfl)

/-- A chain takes no longer than a schedule: no node starts before `b`, nor before the nodes that
come directly before it have ended. -/
theorem ChainTo.weight_le {start : α → Int} {b : Int} (hstart : ∀ y, b ≤ start y)
    (hedge : ∀ y, ∀ d ∈ g y, start d + dur d ≤ start y) {x : α} {c : List α} (h : ChainTo g x c) :
    b + weight dur c ≤ start x + dur x := by
  induction h with
  | single x =>
      have := hstart x
      rw [weight_single]
      omega
  | @snoc d x c _ hd ih =>
      have := hedge x d hd
      rw [weight_snoc]
      omega

/-- Weights in another unit. -/
theorem weight_mul (k : Int) (c : List α) : weight (fun x => k * dur x) c = k * weight dur c := by
  rw [weight, weight, List.sum_map_mul_left]

/-- A node of a chain is its end or comes before it. -/
theorem ChainTo.mem {x y : α} {c : List α} (h : ChainTo g x c) (hy : y ∈ c) :
    y = x ∨ Relation.TransGen (fun t d => d ∈ g t) x y := by
  induction h with
  | single x => exact Or.inl (List.mem_singleton.mp hy)
  | @snoc d x c _ hd ih =>
      rcases List.mem_append.mp hy with hy | hy
      · rcases ih hy with rfl | hbelow
        · exact Or.inr (.single hd)
        · exact Or.inr (.head hd hbelow)
      · exact Or.inl (List.mem_singleton.mp hy)

/-- A graph whose edges all go up in rank is acyclic. -/
theorem acyclic_of_rank (rank : α → Nat) (h : ∀ t, ∀ d ∈ g t, rank d < rank t) : ¬ HasCycle g := by
  rintro ⟨x, hx⟩
  have hlt : ∀ y, Relation.TransGen (fun t d => d ∈ g t) x y → rank y < rank x := by
    intro y hy
    induction hy with
    | single hd => exact h _ _ hd
    | tail _ hd ih => exact (h _ _ hd).trans ih
  exact absurd (hlt x hx) (lt_irrefl _)

/-- A graph is acyclic when the nodes that come after others are accessible. -/
theorem acyclic_of_acc {nodes : List α} (hsrc : ∀ t, ∀ d ∈ g t, t ∈ nodes)
    (hacc : ∀ t ∈ nodes, Acc (fun d t => d ∈ g t) t) : ¬ HasCycle g := by
  rintro ⟨x, hx⟩
  have hmem : x ∈ nodes := by
    obtain ⟨d, hd, -⟩ := Relation.TransGen.head'_iff.mp hx
    exact hsrc x d hd
  have hself : ∀ y, Acc (Relation.TransGen fun d t => d ∈ g t) y →
      ¬ Relation.TransGen (fun d t => d ∈ g t) y y := by
    intro y hy
    induction hy with
    | intro y _ ih => exact fun h => ih y h h
  exact hself x (hacc x hmem).transGen (Relation.transGen_swap.mp hx)

/-- A chain of an acyclic graph repeats no node. -/
theorem ChainTo.nodup {x : α} {c : List α} (h : ChainTo g x c) (hacyclic : ¬ HasCycle g) :
    c.Nodup := by
  induction h with
  | single x => exact List.nodup_singleton x
  | @snoc d x c hc hd ih =>
      refine List.nodup_append.mpr ⟨ih, List.nodup_singleton x, fun a ha b hb heq => ?_⟩
      obtain rfl := List.mem_singleton.mp hb
      subst heq
      rcases hc.mem ha with heq | hbelow
      · exact hacyclic ⟨a, .single (heq ▸ hd)⟩
      · exact hacyclic ⟨a, .head hd hbelow⟩

/-- The nodes of a chain to one of the given nodes are among them. -/
theorem ChainTo.subset {nodes : List α} (hclosed : ∀ t ∈ nodes, ∀ d ∈ g t, d ∈ nodes) {x : α}
    {c : List α} (h : ChainTo g x c) (hx : x ∈ nodes) : ∀ y ∈ c, y ∈ nodes := by
  induction h with
  | single x =>
      intro y hy
      exact List.mem_singleton.mp hy ▸ hx
  | @snoc d x c _ hd ih =>
      intro y hy
      rcases List.mem_append.mp hy with hy | hy
      · exact ih (hclosed x hx d hd) y hy
      · exact List.mem_singleton.mp hy ▸ hx

/-- No chain to the node has more than `n` nodes. The recursions below are by induction on this
bound. -/
def Within (g : α → List α) (n : Nat) (x : α) : Prop := ∀ c, ChainTo g x c → c.length ≤ n

/-- There is a chain to each node, the one of the node alone. -/
theorem not_within_zero {x : α} : ¬ Within g 0 x := fun h =>
  absurd (h [x] (.single x)) (by simp)

/-- The chains to a predecessor are shorter. -/
theorem Within.pred {n : Nat} {x d : α} (h : Within g (n + 1) x) (hd : d ∈ g x) :
    Within g n d := by
  intro c hc
  have hlen := h _ (hc.snoc hd)
  rw [List.length_append, List.length_singleton] at hlen
  omega

/-- So are those to any node below. -/
theorem Within.below {n : Nat} {x d : α} (h : Within g (n + 1) x)
    (hd : Relation.TransGen (fun d t => d ∈ g t) d x) : Within g n d := by
  induction hd with
  | single hd => exact h.pred hd
  | tail _ hd ih => exact ih fun c hc => (h.pred hd c hc).trans (Nat.le_succ n)

/-- In an acyclic graph a chain is no longer than the list of its nodes. -/
theorem within_of_acyclic {nodes : List α} (hclosed : ∀ t ∈ nodes, ∀ d ∈ g t, d ∈ nodes)
    (hacyclic : ¬ HasCycle g) {x : α} (hx : x ∈ nodes) : Within g nodes.length x := by
  intro c hc
  exact (hc.nodup hacyclic).subperm (hc.subset hclosed hx) |>.length_le

/-- From every node a chain leads on to a node that comes before no other. -/
theorem exists_sink {nodes : List α} (hclosed : ∀ t ∈ nodes, ∀ d ∈ g t, d ∈ nodes)
    (hacyclic : ¬ HasCycle g) {P : α → Prop} (hup : ∀ t ∈ nodes, ∀ d ∈ g t, P d → P t) {x : α}
    (hx : x ∈ nodes) (hP : P x) : ∃ z ∈ nodes, P z ∧ ∀ t ∈ nodes, z ∉ g t := by
  -- The induction is on what is left of the list when a chain has used up its nodes.
  have hgrow : ∀ (k : Nat) (x : α) (c : List α), x ∈ nodes → P x → ChainTo g x c →
      nodes.length ≤ c.length + k → ∃ z ∈ nodes, P z ∧ ∀ t ∈ nodes, z ∉ g t := by
    intro k
    induction k with
    | zero =>
        intro x c hx hP hc hlen
        refine ⟨x, hx, hP, fun t ht hxt => ?_⟩
        have := within_of_acyclic hclosed hacyclic ht _ (hc.snoc hxt)
        rw [List.length_append, List.length_singleton] at this
        omega
    | succ k ih =>
        intro x c hx hP hc hlen
        by_cases hsink : ∀ t ∈ nodes, x ∉ g t
        · exact ⟨x, hx, hP, hsink⟩
        · push Not at hsink
          obtain ⟨t, ht, hxt⟩ := hsink
          refine ih t (c ++ [t]) ht (hup t ht x hxt hP) (hc.snoc hxt) ?_
          rw [List.length_append, List.length_singleton]
          omega
  exact hgrow nodes.length x [x] hx hP (.single x) (by simp)

/-! ### The greatest weight -/

/-- The weights of the chains to a node. -/
def weights (g : α → List α) (dur : α → Int) (x : α) : Set Int :=
  {w | ∃ c, ChainTo g x c ∧ weight dur c = w}

/-- The greatest weight of a chain to a node. It is a supremum, and `isGreatest_total` says that a
chain attains it where the chains are bounded. -/
noncomputable def total (g : α → List α) (dur : α → Int) (x : α) : Int := sSup (weights g dur x)

/-- The best of a list by a value, the first one of several, when it exceeds the floor. It returns
the value with the element, or the floor with none. -/
def pick (T : α → Int) (floor : Int) (ds : List α) : Int × Option α :=
  ds.foldl (fun acc d => if T d > acc.1 then (T d, some d) else acc) (floor, none)

/-- The first element of a list with the greatest value: what comes before it is less, what comes
after it is not more. -/
def FirstBest (T : α → Int) (ds : List α) (d : α) : Prop :=
  ∃ l r, ds = l ++ d :: r ∧ (∀ e ∈ l, T e < T d) ∧ ∀ e ∈ r, T e ≤ T d

/-- What `pick` returns. -/
inductive Picked (T : α → Int) (floor : Int) (ds : List α) : Int × Option α → Prop
  | none (hle : ∀ d ∈ ds, T d ≤ floor) : Picked T floor ds (floor, none)
  | some (d : α) (hbest : FirstBest T ds d) (hlt : floor < T d) : Picked T floor ds (T d, some d)

/-- The first best element is one of the list. -/
theorem FirstBest.mem {T : α → Int} {ds : List α} {d : α} (h : FirstBest T ds d) : d ∈ ds := by
  obtain ⟨l, r, rfl, -, -⟩ := h
  exact List.mem_append_right l List.mem_cons_self

/-- No element of the list is better. -/
theorem FirstBest.le {T : α → Int} {ds : List α} {d : α} (h : FirstBest T ds d) :
    ∀ e ∈ ds, T e ≤ T d := by
  obtain ⟨l, r, rfl, hl, hr⟩ := h
  intro e he
  rcases List.mem_append.mp he with he | he
  · exact (hl e he).le
  · rcases List.mem_cons.mp he with rfl | he
    · exact le_rfl
    · exact hr e he

/-- One more round of the loop: a later element has to be strictly better. -/
theorem pick_snoc (T : α → Int) (floor : Int) (ds : List α) (d : α) :
    pick T floor (ds ++ [d])
      = if T d > (pick T floor ds).1 then (T d, some d) else pick T floor ds := by
  unfold pick
  rw [List.foldl_append]
  rfl

/-- What the loop returns is the first best element above the floor, or the floor. -/
theorem pick_spec (T : α → Int) (floor : Int) (ds : List α) :
    Picked T floor ds (pick T floor ds) := by
  induction ds using List.reverseRecOn with
  | nil => exact .none fun d hd => (by cases hd)
  | append_singleton ds d ih =>
      -- The element found so far stays unless the new one is strictly better.
      rw [pick_snoc]
      generalize pick T floor ds = p at ih ⊢
      cases ih with
      | none hle =>
          by_cases hd : T d > floor
          · rw [if_pos hd]
            refine .some d ⟨ds, [], rfl, fun e he => ?_, fun e he => (by cases he)⟩ hd
            exact lt_of_le_of_lt (hle e he) hd
          · rw [if_neg hd]
            refine .none fun e he => ?_
            rcases List.mem_append.mp he with he | he
            · exact hle e he
            · exact List.mem_singleton.mp he ▸ not_lt.mp hd
      | some b hbest hlt =>
          by_cases hd : T d > T b
          · rw [if_pos hd]
            refine .some d ⟨ds, [], rfl, fun e he => ?_, fun e he => (by cases he)⟩ (hlt.trans hd)
            exact lt_of_le_of_lt (hbest.le e he) hd
          · rw [if_neg hd]
            obtain ⟨l, r, rfl, hl, hr⟩ := hbest
            refine .some b ⟨l, r ++ [d], by simp, hl, fun e he => ?_⟩ hlt
            rcases List.mem_append.mp he with he | he
            · exact hr e he
            · exact List.mem_singleton.mp he ▸ not_lt.mp hd

/-- The element that was picked is the first best one. -/
theorem pick_some {T : α → Int} {floor : Int} {ds : List α} {d : α}
    (h : (pick T floor ds).2 = some d) :
    FirstBest T ds d ∧ floor < T d ∧ (pick T floor ds).1 = T d := by
  have hspec := pick_spec T floor ds
  generalize pick T floor ds = p at h hspec
  cases hspec with
  | none hle => cases h
  | some b hbest hlt =>
      cases h
      exact ⟨hbest, hlt, rfl⟩

/-- Nothing is picked when nothing exceeds the floor. -/
theorem pick_none {T : α → Int} {floor : Int} {ds : List α} (h : (pick T floor ds).2 = none) :
    (∀ d ∈ ds, T d ≤ floor) ∧ (pick T floor ds).1 = floor := by
  have hspec := pick_spec T floor ds
  generalize pick T floor ds = p at h hspec
  cases hspec with
  | none hle => exact ⟨hle, rfl⟩
  | some b hbest hlt => cases h

/-- The value never falls below the floor. -/
theorem floor_le_pick (T : α → Int) (floor : Int) (ds : List α) : floor ≤ (pick T floor ds).1 := by
  have hspec := pick_spec T floor ds
  generalize pick T floor ds = p at hspec
  cases hspec with
  | none hle => exact le_rfl
  | some d hbest hlt => exact hlt.le

/-- There is only one first best element. So a program that keeps the first of several best ones, in
whatever way, finds this one. -/
theorem FirstBest.unique {T : α → Int} {ds : List α} {d d' : α} (h : FirstBest T ds d)
    (h' : FirstBest T ds d') : d = d' := by
  have hle := h.le d' h'.mem
  have hle' := h'.le d h.mem
  obtain ⟨l, r, rfl, hl, -⟩ := h
  obtain ⟨l', r', heq, hl', -⟩ := h'
  -- The one that comes earlier in the list would be less than the other.
  rcases List.append_eq_append_iff.mp heq with ⟨m, rfl, hm⟩ | ⟨m, rfl, hm⟩
  · cases m with
    | nil => exact (List.cons.inj hm).1
    | cons e m =>
        obtain rfl := (List.cons.inj hm).1
        have := hl' d (List.mem_append_right l List.mem_cons_self)
        omega
  · cases m with
    | nil => exact (List.cons.inj hm).1.symm
    | cons e m =>
        obtain rfl := (List.cons.inj hm).1
        have := hl d' (List.mem_append_right l' List.mem_cons_self)
        omega

/-- The recurrence, for any values that are greatest at the predecessors: the greatest weight at a
node is its own duration behind the best of theirs. -/
theorem isGreatest_step (hdur : ∀ x, 0 ≤ dur x) {T : α → Int} {floor : Int} (hfloor : floor ≤ 0)
    {x : α} (hT : ∀ d ∈ g x, IsGreatest (weights g dur d) (T d)) :
    IsGreatest (weights g dur x) (dur x + max (pick T floor (g x)).1 0) := by
  have hbound : ∀ d ∈ g x, T d ≤ max (pick T floor (g x)).1 0 := by
    intro d hd
    cases hp : (pick T floor (g x)).2 with
    | none => exact le_max_of_le_right (((pick_none hp).1 d hd).trans hfloor)
    | some b =>
        obtain ⟨hbest, -, heq⟩ := pick_some hp
        exact le_max_of_le_left (heq ▸ hbest.le d hd)
  -- The value is attained, by the node alone or behind a heaviest chain to the picked predecessor;
  -- and every chain ends with the node alone or behind a chain to some predecessor.
  constructor
  · cases hp : (pick T floor (g x)).2 with
    | none =>
        refine ⟨[x], .single x, ?_⟩
        rw [(pick_none hp).2, max_eq_right hfloor, weight_single, add_zero]
    | some b =>
        obtain ⟨hbest, -, heq⟩ := pick_some hp
        obtain ⟨c, hc, hw⟩ := (hT b hbest.mem).1
        have hnonneg : 0 ≤ T b := hw ▸ weight_nonneg hdur c
        refine ⟨c ++ [x], hc.snoc hbest.mem, ?_⟩
        rw [weight_snoc, hw, heq, max_eq_left hnonneg, add_comm]
  · rintro w ⟨c, hc, rfl⟩
    cases hc with
    | single =>
        rw [weight_single]
        exact le_add_of_nonneg_right (le_max_right _ _)
    | @snoc d _ c hc hd =>
        have hw : weight dur c ≤ T d := (hT d hd).2 ⟨c, hc, rfl⟩
        have := hbound d hd
        rw [weight_snoc]
        omega

/-- The greatest weight is the weight of a chain. -/
theorem isGreatest_total (hdur : ∀ x, 0 ≤ dur x) :
    ∀ {n : Nat} {x : α}, Within g n x → IsGreatest (weights g dur x) (total g dur x) := by
  intro n
  induction n with
  | zero => exact fun h => absurd h not_within_zero
  | succ n ih =>
      intro x h
      have hstep := isGreatest_step hdur le_rfl fun d hd => ih (h.pred hd)
      rw [total, hstep.csSup_eq]
      exact hstep

/-- The recurrence that a memoised recursion computes. -/
theorem total_eq (hdur : ∀ x, 0 ≤ dur x) {floor : Int} (hfloor : floor ≤ 0) {n : Nat} {x : α}
    (h : Within g (n + 1) x) :
    total g dur x = dur x + max (pick (total g dur) floor (g x)).1 0 :=
  (isGreatest_step hdur hfloor fun _ hd => isGreatest_total hdur (h.pred hd)).csSup_eq

/-- The greatest weight is not negative. -/
theorem total_nonneg (hdur : ∀ x, 0 ≤ dur x) {n : Nat} {x : α} (h : Within g n x) :
    0 ≤ total g dur x := by
  obtain ⟨c, -, hw⟩ := (isGreatest_total hdur h).1
  exact hw ▸ weight_nonneg hdur c

/-- A node weighs no less than its predecessors. -/
theorem total_le (hdur : ∀ x, 0 ≤ dur x) {n : Nat} {x d : α} (h : Within g (n + 1) x)
    (hd : d ∈ g x) : total g dur d ≤ total g dur x := by
  obtain ⟨c, hc, hw⟩ := (isGreatest_total hdur (h.pred hd)).1
  have hle := (isGreatest_total hdur h).2 ⟨c ++ [x], hc.snoc hd, rfl⟩
  rw [weight_snoc, hw] at hle
  have := hdur x
  omega

/-! ### Reading a chain back -/

/-- The chain that ends in a node, by the predecessor recorded for each node. -/
def trace (prev : α → Option α) : Nat → α → List α
  | 0, _ => []
  | n + 1, x =>
    match prev x with
    | none => [x]
    | some d => trace prev n d ++ [x]

/-- Reading back along the edges makes a chain. -/
theorem chainTo_trace {prev : α → Option α} (hprev : ∀ x d, prev x = some d → d ∈ g x) :
    ∀ {n : Nat} {x : α}, Within g n x → ChainTo g x (trace prev n x) := by
  intro n
  induction n with
  | zero => exact fun h => absurd h not_within_zero
  | succ n ih =>
      intro x h
      unfold trace
      cases hp : prev x with
      | none => exact .single x
      | some d =>
          have hd := hprev x d hp
          exact (ih (h.pred hd)).snoc hd

/-- A chain to a node is not empty. -/
theorem ChainTo.ne_nil {x : α} {c : List α} (h : ChainTo g x c) : c ≠ [] := by
  rintro rfl
  cases (chainTo_iff.mp h).2

/-- The chain starts where no predecessor is recorded. The fuel is enough for it to get there, since
the chains to the node are shorter. -/
theorem trace_head {prev : α → Option α} (hprev : ∀ x d, prev x = some d → d ∈ g x) :
    ∀ {n : Nat} {x y : α}, Within g n x → (trace prev n x).head? = some y → prev y = none := by
  intro n
  -- The induction is on the length of the chains that lead to the node.
  induction n with
  | zero => exact fun h => absurd h not_within_zero
  | succ n ih =>
      intro x y h hy
      unfold trace at hy
      cases hp : prev x with
      | none =>
          rw [hp] at hy
          cases hy
          exact hp
      | some d =>
          rw [hp] at hy
          have hd := h.pred (hprev x d hp)
          obtain ⟨z, c, hc⟩ := List.exists_cons_of_ne_nil (chainTo_trace hprev hd).ne_nil
          simp only [hc, List.cons_append, List.head?_cons] at hy
          exact ih hd (by rw [hc]; exact hy)

/-- The predecessor that is picked. -/
noncomputable def prevOf (g : α → List α) (dur : α → Int) (floor : Int) (x : α) : Option α :=
  (pick (total g dur) floor (g x)).2

/-- The predecessor that is picked comes directly before the node. -/
theorem prevOf_mem {floor : Int} (x d : α) (h : prevOf g dur floor x = some d) : d ∈ g x :=
  (pick_some h).1.mem

/-- Going back along the best predecessors makes a heaviest chain. The induction follows the chain
backwards, and each step uses that the predecessor is a best one. -/
theorem weight_trace (hdur : ∀ x, 0 ≤ dur x) {floor : Int} (hfloor : floor ≤ 0) :
    ∀ {n : Nat} {x : α}, Within g n x →
      weight dur (trace (prevOf g dur floor) n x) = total g dur x := by
  intro n
  induction n with
  | zero => exact fun h => absurd h not_within_zero
  | succ n ih =>
      intro x h
      unfold trace
      rw [total_eq hdur hfloor h]
      -- Without a predecessor the chain is the node alone; with one it is the chain of that
      -- predecessor, whose weight is the best of all.
      cases hp : prevOf g dur floor x with
      | none =>
          rw [(pick_none hp).2, max_eq_right hfloor, add_zero]
          exact weight_single x
      | some d =>
          obtain ⟨hbest, -, heq⟩ := pick_some hp
          have hd := h.pred hbest.mem
          rw [heq, max_eq_left (total_nonneg hdur hd), weight_snoc, ih hd, add_comm]

/-! ### The loop -/

/-- The loop over the predecessors, when the value of each is found in a state that it changes.
`Inv` is what the state keeps, `Done d` that it has the value of `d`. -/
theorem foldl_pick {σ β : Type} {T : α → Int} (mk : α → β) (floor : Int) (p : β)
    (f : α → σ → Int × σ) (Inv : σ → Prop) (Done : α → σ → Prop) :
    ∀ {ds : List α}, (∀ d ∈ ds, ∀ s, Inv s → (f d s).1 = T d ∧ Inv (f d s).2 ∧
        Done d (f d s).2 ∧ ∀ e, Done e s → Done e (f d s).2) → ∀ {s : σ}, Inv s →
      ∃ s', ds.foldl (fun acc d =>
          if (f d acc.2.2).1 > acc.1 then ((f d acc.2.2).1, mk d, (f d acc.2.2).2)
          else (acc.1, acc.2.1, (f d acc.2.2).2)) (floor, p, s)
          = ((pick T floor ds).1, ((pick T floor ds).2.map mk).getD p, s') ∧
        Inv s' ∧ (∀ d ∈ ds, Done d s') ∧ ∀ e, Done e s → Done e s' := by
  intro ds
  -- The list is taken from its end, since `pick` compares the last element with what the others
  -- came to.
  induction ds using List.reverseRecOn with
  | nil => exact fun _ {s} hs => ⟨s, rfl, hs, fun d hd => (by cases hd), fun _ he => he⟩
  | append_singleton ds d ih =>
      intro hf s hs
      obtain ⟨s₁, heq, hinv, hdone, hkeep⟩ := ih (fun e he => hf e (List.mem_append_left _ he)) hs
      obtain ⟨hval, hinv', hdone', hkeep'⟩ := hf d (List.mem_append_right _ List.mem_cons_self) s₁
        hinv
      refine ⟨(f d s₁).2, ?_, hinv', fun e he => ?_, fun e he => hkeep' e (hkeep e he)⟩
      · rw [List.foldl_append, heq, pick_snoc, List.foldl_cons, List.foldl_nil, hval]
        by_cases hgt : T d > (pick T floor ds).1
        · rw [if_pos hgt, if_pos hgt]
          rfl
        · rw [if_neg hgt, if_neg hgt]
      · rcases List.mem_append.mp he with he | he
        · exact hkeep' e (hdone e he)
        · exact List.mem_singleton.mp he ▸ hdone'

/-- The loop that keeps the best element so far, starting from none. It is the loop of `max` with a
key that is computed on the way, so the state of the computation is carried along. -/
theorem foldl_max {σ : Type} {T : α → Int} {floor : Int} (f : α → σ → Int × σ)
    (step : Option (Int × α) × σ → α → Option (Int × α) × σ)
    (hnone : ∀ s d, step (none, s) d = (some ((f d s).1, d), (f d s).2))
    (hsome : ∀ b s d, step (some b, s) d
      = (if (f d s).1 > b.1 then some ((f d s).1, d) else some b, (f d s).2))
    (Inv : σ → Prop) (Done : α → σ → Prop) :
    ∀ {ds : List α}, (∀ d ∈ ds, ∀ s, Inv s → (f d s).1 = T d ∧ Inv (f d s).2 ∧
        Done d (f d s).2 ∧ ∀ e, Done e s → Done e (f d s).2) → (∀ d ∈ ds, floor < T d) →
      ∀ {s : σ}, Inv s →
      ∃ s', ds.foldl step (none, s) = ((pick T floor ds).2.map (fun b => (T b, b)), s') ∧
        Inv s' ∧ ∀ d ∈ ds, Done d s' := by
  intro ds
  induction ds using List.reverseRecOn with
  | nil => exact fun _ _ {s} hs => ⟨s, rfl, hs, fun d hd => (by cases hd)⟩
  | append_singleton ds d ih =>
      intro hf hfloor s hs
      obtain ⟨s₁, heq, hinv, hdone⟩ := ih (fun e he => hf e (List.mem_append_left _ he))
        (fun e he => hfloor e (List.mem_append_left _ he)) hs
      have hd : d ∈ ds ++ [d] := List.mem_append_right _ List.mem_cons_self
      obtain ⟨hval, hinv', hdone', hkeep⟩ := hf d hd s₁ hinv
      -- The new element replaces the best one exactly where `pick` takes it.
      refine ⟨(f d s₁).2, ?_, hinv', fun e he => ?_⟩
      · rw [List.foldl_append, heq, pick_snoc, List.foldl_cons, List.foldl_nil]
        cases hp : (pick T floor ds).2 with
        | none =>
            have hgt : T d > (pick T floor ds).1 := by
              rw [(pick_none hp).2]
              exact hfloor d hd
            rw [if_pos hgt, Option.map_none, hnone, hval]
            rfl
        | some b =>
            rw [Option.map_some, hsome, hval, (pick_some hp).2.2]
            by_cases hgt : T d > T b
            · rw [if_pos hgt, if_pos hgt]
              rfl
            · rw [if_neg hgt, if_neg hgt, hp]
              rfl
      · rcases List.mem_append.mp he with he | he
        · exact hkeep e (hdone e he)
        · exact List.mem_singleton.mp he ▸ hdone'

end Orchestrator.Lib.LongestChain
