import Mathlib.Data.List.Count
import Mathlib.Logic.Function.Basic
import Mathlib.Logic.Relation
import Mathlib.Order.WellFounded

/-!
# `Orchestrator.Lib.Dfs`: three-colour depth-first search

`visitAll g fuel order` starts a depth-first search of the graph `g` from each white node of
`order`. A node is grey while its visit is open and black afterwards, and an edge to a grey node is
reported as a cycle. The recursion takes fuel for the depth of the search, and running out of it is
an error of its own: a language with a bounded stack behaves so.

`acyclic_of_visitAll`: when the search succeeds, no node of `order` starts an infinite descent along
the edges. The invariant is that black nodes are well-founded (`BlackAcc`), and it needs nothing of
the grey ones.

`visitAll_error`: when it fails with fuel for every node, the graph has a cycle. Here the invariant
is about the grey nodes: each of them reaches the node that is visited.

The last two sections compare searches. More fuel changes nothing once there is enough
(`visitAll_stable`), and neither do other names for the nodes (`visitAll_rename`), so a loader that
keeps its own identifiers finds the cycles that a reader of strings finds.
-/

set_option autoImplicit false

namespace Orchestrator.Lib

universe u v

/-- The state of a node during the search: not seen, being visited, or done. -/
inductive Color
  | white
  | grey
  | black
deriving DecidableEq

/-- Why a search stops early. The two reasons stay apart, since a run that is out of fuel says
nothing about the graph. -/
inductive DfsError (α : Type u)
  /-- The edge from `node` to `dep` closes a cycle. -/
  | cycle (node dep : α)
  | outOfFuel

/-- A bind in `Except` behind a success. -/
theorem ok_bind {ε α β : Type} (a : α) (f : α → Except ε β) : (Except.ok a >>= f) = f a := (rfl)

/-- A bind in `Except` succeeds when both parts do. -/
theorem except_bind_ok {ε : Type v} {α β : Type u} {x : Except ε α} {f : α → Except ε β} {b : β}
    (h : x >>= f = .ok b) : ∃ a, x = .ok a ∧ f a = .ok b := by
  cases x with
  | error e => cases h
  | ok a => exact ⟨a, rfl, h⟩

/-- A bind in `Except` fails when one of its parts does. -/
theorem except_bind_error {ε : Type v} {α β : Type u} {x : Except ε α} {f : α → Except ε β} {e : ε}
    (h : x >>= f = .error e) : x = .error e ∨ ∃ a, x = .ok a ∧ f a = .error e := by
  cases x with
  | error e' =>
      cases h
      exact Or.inl rfl
  | ok a => exact Or.inr ⟨a, rfl, h⟩

variable {α : Type u}

section

variable [DecidableEq α]

/-- Visit `node`: colour it grey, visit its white successors in order, colour it black. -/
def visit (g : α → List α) : Nat → α → (α → Color) → Except (DfsError α) (α → Color)
  | 0, _, _ => .error .outOfFuel
  | n + 1, node, color => do
    let color ← (g node).foldlM (fun color dep =>
      match color dep with
      | .grey => .error (.cycle node dep)
      | .white => visit g n dep color
      | .black => .ok color) (Function.update color node .grey)
    .ok (Function.update color node .black)

/-- Visit each node of a list that is still white. This is the outer loop of the search: the colours
are carried from one root to the next, so that each node is visited once in all. -/
def visitAll (g : α → List α) (fuel : Nat) (order : List α) (color : α → Color) :
    Except (DfsError α) (α → Color) :=
  order.foldlM (fun color id =>
    if color id = .white then visit g fuel id color else .ok color) color

end

/-- Every black node is well-founded along the edges. This is what the search knows about the nodes
it has left. -/
def BlackAcc (g : α → List α) (color : α → Color) : Prop :=
  ∀ x, color x = .black → Acc (fun d t => d ∈ g t) x

/-- Each node keeps its colour or turns black. A visit that succeeds leaves no grey node of its own
behind. -/
def Darkens (c c' : α → Color) : Prop := ∀ x, c' x = c x ∨ c' x = .black

/-- A colouring darkens to itself. -/
theorem Darkens.refl (c : α → Color) : Darkens c c := fun _ => Or.inl rfl

/-- Darkening twice is darkening. -/
theorem Darkens.trans {c₁ c₂ c₃ : α → Color} (h : Darkens c₁ c₂) (h' : Darkens c₂ c₃) :
    Darkens c₁ c₃ := by
  intro x
  rcases h' x with hx | hx
  · exact hx ▸ h x
  · exact Or.inr hx

/-- A black node stays black. -/
theorem Darkens.black {c c' : α → Color} (h : Darkens c c') {x : α} (hx : c x = .black) :
    c' x = .black :=
  (h x).elim (fun h => h.trans hx) id

/-- A fold of steps that blacken the element they are given, under an invariant of the
colouring. -/
private theorem foldlM_black {g : α → List α} {ε : Type u} (P : (α → Color) → Prop)
    (step : (α → Color) → α → Except ε (α → Color))
    (hstep : ∀ c d c', P c → BlackAcc g c → step c d = .ok c' →
      P c' ∧ BlackAcc g c' ∧ c' d = .black ∧ Darkens c c') :
    ∀ (ds : List α) (c c' : α → Color), P c → BlackAcc g c → ds.foldlM step c = .ok c' →
      BlackAcc g c' ∧ (∀ d ∈ ds, c' d = .black) ∧ Darkens c c' := by
  -- A node that one step has blackened stays black through the later ones.
  intro ds
  induction ds with
  | nil =>
      intro c c' _ hc h
      cases h
      exact ⟨hc, by simp, Darkens.refl c⟩
  | cons d ds ih =>
      intro c c' hP hc h
      rw [List.foldlM_cons] at h
      cases hd : step c d with
      | error e =>
          rw [hd] at h
          cases h
      | ok c₁ =>
          rw [hd] at h
          obtain ⟨hP₁, hc₁, hd₁, hdark₁⟩ := hstep c d c₁ hP hc hd
          obtain ⟨hc', hds, hdark⟩ := ih c₁ c' hP₁ hc₁ h
          refine ⟨hc', ?_, hdark₁.trans hdark⟩
          intro x hx
          rcases List.mem_cons.mp hx with rfl | hx
          · exact hdark.black hd₁
          · exact hds x hx

variable [DecidableEq α]

/-- A visit that succeeds blackens its node and keeps the black nodes well-founded: when it is done,
all successors of the node are black. -/
theorem visit_black (g : α → List α) (n : Nat) :
    ∀ (node : α) (c c' : α → Color), c node ≠ .black → BlackAcc g c →
      visit g n node c = .ok c' → BlackAcc g c' ∧ c' node = .black ∧ Darkens c c' := by
  induction n with
  | zero =>
      intro node c c' _ _ h
      cases h
  | succ n ih =>
      intro node c c' hnode hc h
      rw [visit] at h
      obtain ⟨c₁, hfold, heq⟩ := except_bind_ok h
      have hc' : Function.update c₁ node .black = c' := Except.ok.inj heq
      subst hc'
      have hgrey : BlackAcc g (Function.update c node .grey) := by
        intro x hx
        by_cases hxn : x = node
        · subst hxn
          simp at hx
        · exact hc x (by simpa [Function.update_of_ne hxn] using hx)
      -- A successor is white and gets visited, or it is black already.
      obtain ⟨hc₁, hdeps, hdark⟩ := foldlM_black (fun _ => True) _ (by
        intro c d c' _ hc h
        cases hd : c d with
        | grey =>
            rw [hd] at h
            cases h
        | white =>
            rw [hd] at h
            exact ⟨trivial, ih d c c' (by simp [hd]) hc h⟩
        | black =>
            rw [hd] at h
            cases h
            exact ⟨trivial, hc, hd, Darkens.refl _⟩) (g node) _ c₁ trivial hgrey hfold
      refine ⟨?_, Function.update_self .., ?_⟩
      · -- All successors of the node are black, so it is well-founded too.
        intro x hx
        by_cases hxn : x = node
        · subst hxn
          exact Acc.intro x fun d hd => hc₁ d (hdeps d hd)
        · exact hc₁ x (by simpa [Function.update_of_ne hxn] using hx)
      · intro x
        by_cases hxn : x = node
        · subst hxn
          exact Or.inr (Function.update_self ..)
        · have := hdark x
          rwa [Function.update_of_ne hxn] at this ⊢

/-- When the search succeeds, every node of `order` is well-founded along the edges. The colours are
black at the end, and a black node is well-founded by the invariant of the search. -/
theorem acyclic_of_visitAll {g : α → List α} {fuel : Nat} {order : List α} {c : α → Color}
    (h : visitAll g fuel order (fun _ => .white) = .ok c) :
    ∀ x ∈ order, Acc (fun d t => d ∈ g t) x := by
  have hwhite : BlackAcc g (fun _ => .white) := fun x hx => by cases hx
  -- Between two visits of the list no node is grey, so a node that is not white is black.
  obtain ⟨hc, hall, _⟩ := foldlM_black (fun c => ∀ x, c x ≠ .grey) _ (by
    intro c d c' hgrey hc h
    by_cases hd : c d = .white
    · rw [if_pos hd] at h
      obtain ⟨hc', hd', hdark⟩ := visit_black g fuel d c c' (by simp [hd]) hc h
      refine ⟨fun x => ?_, hc', hd', hdark⟩
      rcases hdark x with hx | hx
      · exact hx ▸ hgrey x
      · simp [hx]
    · rw [if_neg hd] at h
      cases h
      refine ⟨hgrey, hc, ?_, Darkens.refl c⟩
      cases hcd : c d with
      | white => exact absurd hcd hd
      | grey => exact absurd hcd (hgrey d)
      | black => rfl) order _ c (by simp) hwhite h
  exact fun x hx => hc x (hall x hx)

/-! ### Failing searches -/

/-- Some node reaches itself along the edges. -/
def HasCycle (g : α → List α) : Prop := ∃ x, Relation.TransGen (fun t d => d ∈ g t) x x

omit [DecidableEq α] in

/-- A well-founded node is on no cycle. -/
theorem not_cycle_of_acc {g : α → List α} {x : α} (h : Acc (fun d t => d ∈ g t) x) :
    ¬ Relation.TransGen (fun t d => d ∈ g t) x x := by
  induction h with
  | intro x _ ih =>
      intro hcycle
      -- The cycle goes through a successor of `x`, which is on it too.
      obtain ⟨d, hd, hback⟩ := (Relation.TransGen.head'_iff).mp hcycle
      exact ih d hd (Relation.TransGen.tail' hback hd)

omit [DecidableEq α] in

/-- A fold of steps that darken, darkens. It is the inner loop of a visit, with the visit of a
dependency as its step. -/
private theorem foldlM_darkens {ε : Type u} (step : (α → Color) → α → Except ε (α → Color))
    (hstep : ∀ c d c', step c d = .ok c' → Darkens c c') :
    ∀ (ds : List α) (c c' : α → Color), ds.foldlM step c = .ok c' → Darkens c c' := by
  intro ds
  induction ds with
  | nil =>
      intro c c' h
      cases h
      exact Darkens.refl c
  | cons d ds ih =>
      intro c c' h
      rw [List.foldlM_cons] at h
      -- An error would have ended the loop, so the first step has darkened the colours and the rest
      -- goes on from there.
      cases hd : step c d with
      | error e =>
          rw [hd] at h
          cases h
      | ok c₁ =>
          rw [hd] at h
          exact (hstep c d c₁ hd).trans (ih c₁ c' h)

/-- A visit that succeeds darkens: what was black stays black, nothing becomes white, and grey nodes
stay as they are. The induction is on the fuel. -/
theorem visit_darkens {g : α → List α} {n : Nat} {node : α} {c c' : α → Color}
    (h : visit g n node c = .ok c') : Darkens c c' := by
  induction n generalizing node c c' with
  | zero => cases h
  | succ n ih =>
      rw [visit] at h
      obtain ⟨c₁, hfold, heq⟩ := except_bind_ok h
      cases heq
      have hdark := foldlM_darkens _ (fun c d c' hstep => by
        cases hd : c d with
        | grey =>
            rw [hd] at hstep
            cases hstep
        | white =>
            rw [hd] at hstep
            exact ih hstep
        | black =>
            rw [hd] at hstep
            cases hstep
            exact Darkens.refl c) (g node) _ c₁ hfold
      -- The node itself was grey in between, and is black at the end.
      intro x
      by_cases hxn : x = node
      · subst hxn
        exact Or.inr (Function.update_self ..)
      · have hx := hdark x
        rwa [Function.update_of_ne hxn] at hx ⊢

/-- The number of white nodes in a list. It is the measure of the search: a visit starts at a white
node, which is not white any more below it. -/
def whites (nodes : List α) (color : α → Color) : Nat := nodes.countP (fun x => color x = .white)

omit [DecidableEq α] in

/-- Darkening makes no node white. -/
theorem Darkens.whites_le {c c' : α → Color} (h : Darkens c c') (nodes : List α) :
    whites nodes c' ≤ whites nodes c := by
  refine List.countP_mono_left fun x _ hx => ?_
  rcases h x with heq | hblack
  · simpa [heq] using hx
  · simp [hblack] at hx

/-- The visit of a node takes it out of the white ones. -/
theorem whites_grey {nodes : List α} {c : α → Color} {node : α} (hmem : node ∈ nodes)
    (hwhite : c node = .white) :
    whites nodes (Function.update c node .grey) < whites nodes c := by
  obtain ⟨a, b, rfl⟩ := List.append_of_mem hmem
  have hle : ∀ l : List α, whites l (Function.update c node .grey) ≤ whites l c := fun l => by
    refine List.countP_mono_left fun x _ hx => ?_
    by_cases hxn : x = node
    · simp [hxn] at hx
    · simpa [Function.update_of_ne hxn] using hx
  have ha := hle a
  have hb := hle b
  simp only [whites, List.countP_append, List.countP_cons, Function.update_self, hwhite] at ha hb ⊢
  simp only [reduceCtorEq, decide_false, decide_true, if_true, if_false, Bool.false_eq_true]
  omega

omit [DecidableEq α] in

/-- A failing fold fails at one of its steps, and an invariant holds before that step. -/
private theorem foldlM_error {ε : Type v} {σ : Type u} {P : σ → Prop} {Q : ε → Prop}
    (step : σ → α → Except ε σ) : ∀ (ds : List α),
    (∀ c d c', d ∈ ds → P c → step c d = .ok c' → P c') →
    (∀ c d e, d ∈ ds → P c → step c d = .error e → Q e) →
    ∀ c e, P c → ds.foldlM step c = .error e → Q e := by
  intro ds
  induction ds with
  | nil =>
      intro _ _ c e _ h
      cases h
  | cons d ds ih =>
      intro hok herr c e hP h
      rw [List.foldlM_cons] at h
      -- Either this step is the one that fails, or it keeps `P` and a later one does.
      cases hd : step c d with
      | error e' =>
          rw [hd] at h
          cases h
          exact herr c d e List.mem_cons_self hP hd
      | ok c₁ =>
          rw [hd] at h
          exact ih (fun c d c' hm => hok c d c' (List.mem_cons_of_mem _ hm))
            (fun c d e hm => herr c d e (List.mem_cons_of_mem _ hm)) c₁ e
            (hok c d c₁ List.mem_cons_self hP hd) h

/-- The error names an edge of a cycle, so the message that a loader makes of it points to one. -/
def CycleError (g : α → List α) (e : DfsError α) : Prop :=
  ∃ node dep, e = .cycle node dep ∧ HasCycle g

/-- A visit fails only on a cycle: every grey node reaches the node that is visited, and there is
fuel for every white one. -/
theorem visit_error {g : α → List α} {nodes : List α}
    (hclosed : ∀ x ∈ nodes, ∀ d ∈ g x, d ∈ nodes) (n : Nat) :
    ∀ (node : α) (c : α → Color) (e : DfsError α), node ∈ nodes → c node = .white →
      whites nodes c ≤ n →
      (∀ x, c x = .grey → Relation.TransGen (fun t d => d ∈ g t) x node) →
      visit g n node c = .error e → CycleError g e := by
  induction n with
  | zero =>
      intro node c e hmem hwhite hfuel _ _
      have hlt := whites_grey hmem hwhite
      omega
  | succ n ih =>
      intro node c e hmem hwhite hfuel hgrey h
      have hlt := whites_grey hmem hwhite
      rw [visit] at h
      rcases except_bind_error h with hfold | ⟨c₁, -, h⟩
      · refine foldlM_error (P := fun c => whites nodes c ≤ n ∧
          ∀ x, c x = .grey → Relation.ReflTransGen (fun t d => d ∈ g t) x node) _ (g node)
          (fun c d c' hd hP hstep => ?_) (fun c d e hd hP hstep => ?_) _ e ⟨by omega, ?_⟩ hfold
        · have hdark : Darkens c c' := by
            cases hcd : c d with
            | grey =>
                rw [hcd] at hstep
                cases hstep
            | white =>
                rw [hcd] at hstep
                exact visit_darkens hstep
            | black =>
                rw [hcd] at hstep
                cases hstep
                exact Darkens.refl c
          refine ⟨(hdark.whites_le nodes).trans hP.1, fun x hx => hP.2 x ?_⟩
          rcases hdark x with heq | hblack
          · rw [← heq, hx]
          · rw [hblack] at hx
            cases hx
        · cases hcd : c d with
          | grey =>
              -- The edge closes a cycle through the grey node.
              rw [hcd] at hstep
              cases hstep
              exact ⟨node, d, rfl, d, Relation.TransGen.tail' (hP.2 d hcd) hd⟩
          | white =>
              rw [hcd] at hstep
              exact ih d c e (hclosed node hmem d hd) hcd hP.1
                (fun x hx => Relation.TransGen.tail' (hP.2 x hx) hd) hstep
          | black =>
              rw [hcd] at hstep
              cases hstep
        · intro x hx
          by_cases hxn : x = node
          · rw [hxn]
          · rw [Function.update_of_ne hxn] at hx
            exact (hgrey x hx).to_reflTransGen
      · cases h

/-- A search fails only on a cycle, when the nodes are closed under the edges and there is fuel for
each of them. The search nests no deeper than there are white nodes. -/
theorem visitAll_error {g : α → List α} {nodes order : List α}
    (hclosed : ∀ x ∈ nodes, ∀ d ∈ g x, d ∈ nodes) (horder : ∀ x ∈ order, x ∈ nodes) {fuel : Nat}
    (hfuel : nodes.length ≤ fuel) {e : DfsError α}
    (h : visitAll g fuel order (fun _ => .white) = .error e) : CycleError g e := by
  refine foldlM_error (P := fun c => whites nodes c ≤ fuel ∧ ∀ x, c x ≠ .grey) _ order
    (fun c d c' hd hP hstep => ?_) (fun c d e hd hP hstep => ?_) _ e
    ⟨(List.countP_le_length).trans hfuel, by simp⟩ h
  · -- A node that is not white is skipped. A visit blackens nodes and leaves no grey one behind, so
    -- the next root starts from colours without grey again.
    split at hstep
    · have hdark := visit_darkens hstep
      refine ⟨(hdark.whites_le nodes).trans hP.1, fun x hx => ?_⟩
      rcases hdark x with heq | hblack
      · exact hP.2 x (by rw [← heq, hx])
      · rw [hblack] at hx
        cases hx
    · cases hstep
      exact hP
  · split at hstep
    · rename_i hwhite
      exact visit_error hclosed fuel d c e (horder d hd) hwhite hP.1
        (fun x hx => absurd hx (hP.2 x)) hstep
    · cases hstep

/-! ### More fuel -/

omit [DecidableEq α] in

/-- A fold that does not run out of fuel goes the same way with steps that do not either. -/
private theorem foldlM_stable {σ : Type u} {step step' : σ → α → Except (DfsError α) σ}
    (h : ∀ c d, step c d ≠ .error .outOfFuel → step' c d = step c d) : ∀ (ds : List α) (c : σ),
      ds.foldlM step c ≠ .error .outOfFuel → ds.foldlM step' c = ds.foldlM step c := by
  intro ds
  induction ds with
  | nil => intro c _; rfl
  | cons d ds ih =>
      intro c hne
      simp only [List.foldlM_cons] at hne ⊢
      -- The loop has not run out of fuel, so neither has its first step.
      have hd : step c d ≠ .error .outOfFuel := by
        intro hd
        rw [hd] at hne
        exact hne rfl
      rw [h c d hd]
      cases hs : step c d with
      | error e => rfl
      | ok c₁ =>
          rw [hs] at hne
          exact ih c₁ hne

/-- A visit that does not run out of fuel goes the same way with more of it. -/
theorem visit_stable {g : α → List α} {n m : Nat} (hle : n ≤ m) (node : α) (c : α → Color)
    (h : visit g n node c ≠ .error .outOfFuel) : visit g m node c = visit g n node c := by
  induction n generalizing m node c with
  | zero => exact absurd rfl h
  | succ n ih =>
      obtain ⟨m, rfl⟩ := Nat.exists_eq_add_of_le' (Nat.one_le_of_lt hle)
      rw [visit] at h
      rw [visit, visit]
      -- The loop over the dependencies is the same with the greater fuel, step by step: only a
      -- white node is visited, with one unit less on both sides.
      rw [foldlM_stable ?_ (g node) _ ?_]
      · intro c d hne
        cases hcd : c d with
        | white =>
            rw [hcd] at hne
            exact ih (Nat.le_of_succ_le_succ hle) d c hne
        | grey => rfl
        | black => rfl
      · intro hfold
        rw [hfold] at h
        exact h rfl

/-- A search that does not run out of fuel goes the same way with more of it. -/
theorem visitAll_stable {g : α → List α} {n m : Nat} (hle : n ≤ m) (order : List α)
    (c : α → Color) (h : visitAll g n order c ≠ .error .outOfFuel) :
    visitAll g m order c = visitAll g n order c := by
  refine foldlM_stable (fun c d hne => ?_) order c h
  by_cases hw : c d = .white
  · rw [if_pos hw] at hne ⊢
    rw [if_pos hw]
    exact visit_stable hle d c hne
  · rw [if_neg hw, if_neg hw]

/-! ### Other names -/

section Rename

variable {β : Type u} [DecidableEq β] {f : α → β} {g : α → List α} {g' : β → List β}

/-- Two colourings agree on the nodes that have a name in both graphs. -/
def Agree (f : α → β) (c : α → Color) (c' : β → Color) : Prop := ∀ x, c' (f x) = c x

/-- An error under the other names. -/
def DfsError.rename (f : α → β) : DfsError α → DfsError β
  | .cycle node dep => .cycle (f node) (f dep)
  | .outOfFuel => .outOfFuel

/-- The second search ends as the first one does, under the other names. -/
def EndsAlike (f : α → β) (r : Except (DfsError α) (α → Color))
    (r' : Except (DfsError β) (β → Color)) : Prop :=
  (∃ c c', r = .ok c ∧ r' = .ok c' ∧ Agree f c c') ∨ ∃ e, r = .error e ∧ r' = .error (e.rename f)

omit [DecidableEq α] [DecidableEq β] in

/-- What follows two searches that end alike. -/
theorem EndsAlike.bind {r : Except (DfsError α) (α → Color)} {r' : Except (DfsError β) (β → Color)}
    (h : EndsAlike f r r') {k : (α → Color) → Except (DfsError α) (α → Color)}
    {k' : (β → Color) → Except (DfsError β) (β → Color)}
    (hk : ∀ c c', Agree f c c' → EndsAlike f (k c) (k' c')) :
    EndsAlike f (r >>= k) (r' >>= k') := by
  obtain ⟨c, c', rfl, rfl, hc⟩ | ⟨e, rfl, rfl⟩ := h
  · exact hk c c' hc
  · exact Or.inr ⟨e, rfl, rfl⟩

/-- Colouring a node and its other name keeps the agreement, if no two nodes share a name. -/
theorem Agree.update (hf : Function.Injective f) {c : α → Color} {c' : β → Color}
    (h : Agree f c c') (node : α) (k : Color) :
    Agree f (Function.update c node k) (Function.update c' (f node) k) := by
  intro x
  by_cases hx : x = node
  · rw [hx, Function.update_self, Function.update_self]
  · rw [Function.update_of_ne (hf.ne hx), Function.update_of_ne hx, h x]

omit [DecidableEq α] [DecidableEq β] in

/-- Folds whose steps end alike. -/
private theorem foldlM_alike {step : (α → Color) → α → Except (DfsError α) (α → Color)}
    {step' : (β → Color) → β → Except (DfsError β) (β → Color)}
    (h : ∀ c c' d, Agree f c c' → EndsAlike f (step c d) (step' c' (f d))) :
    ∀ (ds : List α) (c : α → Color) (c' : β → Color), Agree f c c' →
      EndsAlike f (ds.foldlM step c) ((ds.map f).foldlM step' c') := by
  intro ds
  induction ds with
  | nil => exact fun c c' hc => Or.inl ⟨c, c', rfl, rfl, hc⟩
  | cons d ds ih =>
      intro c c' hc
      rw [List.map_cons, List.foldlM_cons, List.foldlM_cons]
      exact (h c c' d hc).bind ih

/-- A visit goes the same way under other names. -/
theorem visit_rename (hf : Function.Injective f) (hg : ∀ x, g' (f x) = (g x).map f) (n : Nat) :
    ∀ (node : α) (c : α → Color) (c' : β → Color), Agree f c c' →
      EndsAlike f (visit g n node c) (visit g' n (f node) c') := by
  induction n with
  | zero => exact fun node c c' _ => Or.inr ⟨.outOfFuel, rfl, rfl⟩
  | succ n ih =>
      intro node c c' hc
      rw [visit, visit, hg]
      refine (foldlM_alike (fun c c' d hc => ?_) (g node) _ _ (hc.update hf node .grey)).bind
        fun c c' hc => Or.inl ⟨_, _, rfl, rfl, hc.update hf node .black⟩
      -- The colour of a successor decides, and it agrees.
      rw [hc d]
      cases c d with
      | grey => exact Or.inr ⟨.cycle node d, rfl, rfl⟩
      | white => exact ih d c c' hc
      | black => exact Or.inl ⟨c, c', rfl, rfl, hc⟩

/-- A search goes the same way under other names. -/
theorem visitAll_rename (hf : Function.Injective f) (hg : ∀ x, g' (f x) = (g x).map f) (n : Nat)
    (order : List α) :
    EndsAlike f (visitAll g n order (fun _ => .white))
      (visitAll g' n (order.map f) (fun _ => .white)) := by
  refine foldlM_alike (fun c c' d hc => ?_) order _ _ fun x => rfl
  by_cases hw : c d = .white
  · rw [if_pos hw, if_pos ((hc d).trans hw)]
    exact visit_rename hf hg n d c c' hc
  · rw [if_neg hw, if_neg fun h => hw ((hc d).symm.trans h)]
    exact Or.inl ⟨c, c', rfl, rfl, hc⟩

end Rename

end Orchestrator.Lib
