import Orchestrator.Lib.LongestChain
import Orchestrator.Lib.Verdict

/-!
# `Orchestrator.Lib.Dataflow`: what a network of tasks computes

A node of a `Network` gathers its inputs from the values of other nodes and is attempted a bounded
number of times on them. The first attempt that succeeds gives the node its value. A node without
inputs has no value, whatever its attempts would do.

`value` evaluates a network without a scheduler, one round after the other. `value_eq` says that it
solves the equations of an acyclic network whose nodes gather their inputs from their transitive
dependencies (`Local`), and `value_unique` that nothing else does. So the values that a scheduler
arrives at, in whatever order, are these, as soon as they solve the equations.

`plan` is the plan of the outcomes that the values lead to, and `verdict_right` says that the report
which `verdict` writes about them is the one that the plan asks for. The outcomes of a plan are
given beforehand; here they depend on the values of earlier nodes.

Two networks that differ only in the way they gather compute the same values when the two ways agree
on the values of one of them (`regather_value`). Two engines with resolvers of their own are
compared in this way.
-/

set_option autoImplicit false

namespace Orchestrator.Lib

universe u v w

/-! ### The first attempt that succeeds -/

section

variable {ν : Type w} {f : Int → Option ν}

/-- The first of `n` attempts, counted from 1, that has a value. -/
def firstWin (f : Int → Option ν) : Nat → Option (Int × ν)
  | 0 => none
  | n + 1 => (firstWin f n).or ((f (n + 1)).map fun v => ((n : Int) + 1, v))

/-- No attempt is found exactly when all those allowed have no value. -/
theorem firstWin_eq_none {n : Nat} :
    firstWin f n = none ↔ ∀ k : Int, 1 ≤ k → k ≤ n → f k = none := by
  induction n with
  | zero => exact iff_of_true rfl fun k h1 h2 => by omega
  | succ n ih =>
      rw [firstWin, Option.or_eq_none_iff, ih, Option.map_eq_none_iff]
      constructor
      · rintro ⟨hbefore, hlast⟩ k h1 h2
        rcases (show k ≤ n ∨ k = n + 1 by omega) with hk | rfl
        · exact hbefore k h1 hk
        · exact hlast
      · intro h
        exact ⟨fun k h1 h2 => h k h1 (by omega), h _ (by omega) (by omega)⟩

/-- The attempt that is found settles the attempts. -/
theorem firstWin_eq_some {n : Nat} {k : Int} {v : ν} (h : firstWin f n = some (k, v)) :
    Settled (fun j => (f j).isSome) n k true ∧ f k = some v := by
  induction n with
  | zero => cases h
  | succ n ih =>
      rw [firstWin, Option.or_eq_some_iff, Option.map_eq_some_iff] at h
      rcases h with h | ⟨hnone, x, hx, hk⟩
      · obtain ⟨hs, hv⟩ := ih h
        have hle : k ≤ ((n + 1 : Nat) : Int) := by have := hs.le; omega
        exact ⟨⟨hs.toTried, hle, hs.last, fun h => by cases h⟩, hv⟩
      · cases hk
        have hbefore : Tried (fun j => (f j).isSome) ((n : Int) + 1) := by
          refine ⟨by omega, fun j h1 h2 => ?_⟩
          rw [firstWin_eq_none.mp hnone j h1 (by omega)]
          rfl
        exact ⟨hbefore.win (by omega) (by rw [hx]; rfl), hx⟩

/-- An attempt that wins after failures is the one that is found. -/
theorem firstWin_of_tried {n k : Int} {v : ν} (h : Tried (fun j => (f j).isSome) k) (hle : k ≤ n)
    (hk : f k = some v) : firstWin f n.toNat = some (k, v) := by
  have hpos := h.pos
  cases hfound : firstWin f n.toNat with
  | none =>
      rw [firstWin_eq_none.mp hfound k hpos (by omega)] at hk
      cases hk
  | some found =>
      obtain ⟨j, x⟩ := found
      obtain ⟨hs, hx⟩ := firstWin_eq_some hfound
      obtain ⟨rfl, -⟩ := hs.unique (h.win (n := n.toNat) (by omega) (by rw [hk]; rfl))
      rw [hx] at hk
      cases hk
      rfl

end

/-- A graph of nodes that compute values. A node starts when its dependencies have values, gathers
its inputs from the values there are, and is attempted until an attempt gives it a value or its
limit is reached.

Nothing is said about the order in which nodes are attempted. What the nodes compute does not depend
on it (`value_unique`), and this is why two schedulers can be compared through their network. -/
structure Network (α : Type u) (ι : Type v) (ν : Type w) where
  nodes : List α
  deps : α → List α
  /-- How often a node may be attempted. -/
  limit : α → Int
  /-- The inputs of a node, put together from the values of other nodes. There may be none. -/
  gather : α → (α → Option ν) → Option ι
  /-- What the `k`-th attempt of a node makes of its inputs. -/
  behave : α → ι → Int → Option ν

namespace Network

variable {α : Type u} {ι : Type v} {ν : Type w} (N : Network α ι ν)

/-- A node gathers its inputs from its transitive dependencies: other values make no difference to
it. -/
def Local : Prop :=
  ∀ t, ∀ v v' : α → Option ν, (∀ d, Relation.TransGen (fun d t => d ∈ N.deps t) d t → v d = v' d) →
    N.gather t v = N.gather t v'

/-- The attempt that settles a node, with its value. -/
def win (v : α → Option ν) (t : α) : Option (Int × ν) :=
  (N.gather t v).bind fun x => firstWin (N.behave t x) (N.limit t).toNat

/-- All dependencies have a value. -/
def ready (v : α → Option ν) (t : α) : Bool := (N.deps t).all fun d => (v d).isSome

/-- The values after a number of rounds. -/
def valueAt : Nat → α → Option ν
  | 0, _ => none
  | n + 1, t => if N.ready (valueAt n) t then (N.win (valueAt n) t).map Prod.snd else none

/-- The value of a node. -/
def value : α → Option ν := N.valueAt N.nodes.length

/-- How a node that starts ends, by the inputs that it gathers. Without inputs it fails at its
first attempt. With them it succeeds at the first attempt that wins, or fails at the last one
that it has. -/
def outcome (t : α) : Option ι → Entry α
  | none => ⟨t, .failed, 1⟩
  | some x =>
    match firstWin (N.behave t x) (N.limit t).toNat with
    | some (k, _) => ⟨t, .succeeded, k⟩
    | none => ⟨t, .failed, N.limit t⟩

/-- What a report says about a node. -/
def entry (t : α) : Entry α :=
  if N.ready N.value t then N.outcome t (N.gather t N.value) else ⟨t, .skipped, 0⟩

/-- What a report on the network says: one entry for each node, in the order of the nodes, the sum
of the retries, and a failure as soon as one entry has failed. -/
def verdict : Verdict α where
  entries := N.nodes.map N.entry
  retries := ((N.nodes.map N.entry).map Entry.retries).sum
  fate := if (N.nodes.map N.entry).any (fun e => e.fate = .failed) then .failed else .succeeded

/-- The outcomes of the attempts. A node that cannot gather its inputs fails at once. -/
def plan : Plan α where
  nodes := N.nodes
  deps := N.deps
  limit t := if (N.gather t N.value).isSome then N.limit t else 1
  ok t k := ((N.gather t N.value).bind fun x => N.behave t x k).isSome

/-- The network with another way to gather the inputs. -/
def regather (g : α → (α → Option ν) → Option ι) : Network α ι ν := { N with gather := g }

variable {N}

/-- A node that gathers its inputs keeps its limit, and its outcomes are those of the attempts on
these inputs. -/
theorem plan_of_gather {t : α} {x : ι} (h : N.gather t N.value = some x) :
    N.plan.limit t = N.limit t ∧ N.plan.ok t = fun k => (N.behave t x k).isSome := by
  simp only [plan, h, Option.isSome_some, if_true, Option.bind_some, and_self]

/-- A node that gathers none fails at its only attempt. -/
theorem plan_of_lost {t : α} (h : N.gather t N.value = none) :
    N.plan.limit t = 1 ∧ N.plan.ok t = fun _ => false := by
  simp only [plan, h, Option.isSome_none, Bool.false_eq_true, if_false, Option.bind_none, and_self]

/-- The attempt that was found is the one that the report counts. -/
theorem outcome_of_win {t : α} {x : ι} {k : Int} {v : ν}
    (h : firstWin (N.behave t x) (N.limit t).toNat = some (k, v)) :
    N.outcome t (some x) = ⟨t, .succeeded, k⟩ := by
  simp only [outcome, h]

/-- Without one, the report counts all the attempts that are allowed. -/
theorem outcome_of_loss {t : α} {x : ι} (h : firstWin (N.behave t x) (N.limit t).toNat = none) :
    N.outcome t (some x) = ⟨t, .failed, N.limit t⟩ := by
  simp only [outcome, h]

/-- The entry of a node names it. -/
@[simp] theorem entry_node (t : α) : (N.entry t).node = t := by
  unfold entry outcome
  repeat' split
  all_goals rfl

/-- The report has the entry of each node and no other. -/
theorem of_mem_entries {e : Entry α} (h : e ∈ N.verdict.entries) :
    e.node ∈ N.nodes ∧ e = N.entry e.node := by
  obtain ⟨t, ht, rfl⟩ := List.mem_map.mp h
  rw [entry_node]
  exact ⟨ht, rfl⟩

/-- The attempts that the plan speaks of win exactly when there is one that settles the node. -/
theorem wins_iff {t : α} : N.plan.Wins t ↔ (N.win N.value t).isSome = true := by
  cases hg : N.gather t N.value with
  | none =>
      simp only [Plan.Wins, (plan_of_lost hg).2, win, hg, Option.bind_none, Option.isSome_none]
      refine iff_of_false ?_ (by simp)
      rintro ⟨k, -, -, h⟩
      cases h
  | some x =>
      obtain ⟨hlimit, hok⟩ := plan_of_gather hg
      rw [win, hg, Option.bind_some, Plan.Wins, hlimit, hok, ← not_iff_not,
        Option.not_isSome_iff_eq_none,
        firstWin_eq_none]
      simp only [not_exists, not_and, Option.not_isSome_iff_eq_none]
      exact ⟨fun h k h1 h2 => h k h1 (by omega), fun h k h1 h2 => h k h1 (by omega)⟩

/-! ### The equations -/

section

variable (hlocal : N.Local)
include hlocal

/-- Values that agree on the transitive dependencies settle a node alike. -/
theorem step_congr {t : α} {v v' : α → Option ν}
    (h : ∀ d, Relation.TransGen (fun d t => d ∈ N.deps t) d t → v d = v' d) :
    N.ready v t = N.ready v' t ∧ N.win v t = N.win v' t := by
  refine ⟨?_, by rw [win, win, hlocal t v v' h]⟩
  have hdeps : ∀ d ∈ N.deps t, v d = v' d := fun d hd => h d (.single hd)
  rw [ready, ready, Bool.eq_iff_iff, List.all_eq_true, List.all_eq_true]
  exact forall₂_congr fun d hd => by rw [hdeps d hd]

/-- When no chain to a node is longer than `n`, its value is there after `n` rounds. -/
theorem valueAt_eq {n : Nat} {t : α} (h : LongestChain.Within N.deps n t) {m : Nat} (hm : n ≤ m) :
    N.valueAt m t = N.valueAt n t := by
  induction n generalizing t m with
  | zero => exact absurd h LongestChain.not_within_zero
  | succ n ih =>
      obtain ⟨m, rfl⟩ : ∃ k, m = k + 1 := ⟨m - 1, by omega⟩
      have hbelow : ∀ d, Relation.TransGen (fun d t => d ∈ N.deps t) d t →
          N.valueAt m d = N.valueAt n d := fun d hd => ih (h.below hd) (by omega)
      obtain ⟨hready, hwin⟩ := step_congr hlocal hbelow
      rw [valueAt, valueAt, hready, hwin]

variable (hdeps : ∀ t ∈ N.nodes, ∀ d ∈ N.deps t, d ∈ N.nodes)
  (hacyclic : ¬ HasCycle N.deps)
include hdeps hacyclic

/-- The values solve the equations of the network. -/
theorem value_eq {t : α} (ht : t ∈ N.nodes) :
    N.value t = if N.ready N.value t then (N.win N.value t).map Prod.snd else none := by
  have hwithin := LongestChain.within_of_acyclic hdeps hacyclic ht
  have hnext : N.value t = N.valueAt (N.nodes.length + 1) t :=
    (valueAt_eq hlocal hwithin (Nat.le_succ _)).symm
  exact hnext

/-- A node whose dependencies have values takes the value of its first attempt that wins. -/
theorem value_of_tried {t : α} (ht : t ∈ N.nodes) (hready : N.ready N.value t = true) {x : ι}
    (hx : N.gather t N.value = some x) {k : Int} {y : ν}
    (htried : Tried (fun j => (N.behave t x j).isSome) k) (hle : k ≤ N.limit t)
    (hy : N.behave t x k = some y) : N.value t = some y := by
  rw [value_eq hlocal hdeps hacyclic ht, if_pos hready, win, hx, Option.bind_some,
    firstWin_of_tried htried hle hy]
  rfl

/-- A node has a value exactly when its transitive dependencies have one and it wins. -/
theorem value_isSome_iff {t : α} (ht : t ∈ N.nodes) :
    (N.value t).isSome = true ↔ N.ready N.value t = true ∧ N.plan.Wins t := by
  rw [value_eq hlocal hdeps hacyclic ht, wins_iff]
  by_cases hready : N.ready N.value t = true
  · rw [if_pos hready, Option.isSome_map]
    exact (and_iff_right hready).symm
  · rw [if_neg hready]
    exact iff_of_false (fun h => by cases h) fun h => hready h.1

/-- The direct dependencies have values exactly when all transitive ones win. From left to right the
argument goes back along the chain, since a node has a value only if its own dependencies have. -/
theorem ready_iff_clear {t : α} (ht : t ∈ N.nodes) :
    N.ready N.value t = true ↔ N.plan.Clear t := by
  have hvalue := fun {t : α} (ht : t ∈ N.nodes) => value_isSome_iff hlocal hdeps hacyclic ht
  rw [ready, List.all_eq_true]
  constructor
  · intro h d hd
    -- From the end of the chain back to its start, each node has a value.
    have hsome : d ∈ N.nodes ∧ (N.value d).isSome = true := by
      induction hd using Relation.TransGen.head_induction_on with
      | single hd => exact ⟨hdeps t ht _ hd, h _ hd⟩
      | head hd _ ih =>
          have hready := ((hvalue ih.1).mp ih.2).1
          rw [ready, List.all_eq_true] at hready
          exact ⟨hdeps _ ih.1 _ hd, hready _ hd⟩
    exact ((hvalue hsome.1).mp hsome.2).2
  · intro hclear d hd
    have hmem := hdeps t ht d hd
    -- The dependencies of a dependency win as well, so the rounds reach it.
    have hall : ∀ n, ∀ x ∈ N.nodes, LongestChain.Within N.deps n x →
        N.plan.Clear x → N.plan.Wins x → (N.value x).isSome = true := by
      intro n
      induction n with
      | zero => exact fun x _ hx => absurd hx LongestChain.not_within_zero
      | succ n ih =>
          intro x hxn hx hxclear hxwins
          refine (hvalue hxn).mpr ⟨?_, hxwins⟩
          rw [ready, List.all_eq_true]
          exact fun y hy => ih y (hdeps x hxn y hy) (hx.pred hy)
            (fun z hz => hxclear z (hz.tail hy)) (hxclear y (.single hy))
    exact hall _ d hmem (LongestChain.within_of_acyclic hdeps hacyclic hmem)
      (fun z hz => hclear z (hz.tail hd)) (hclear d (.single hd))

/-- The entry of a node is the one that the plan asks for. So a network is a plan whose outcomes are
computed, and what is known of plans holds of networks. -/
theorem entry_right {t : α} (ht : t ∈ N.nodes) (hlimit : 1 ≤ N.limit t) :
    (N.entry t).Right N.plan := by
  have hclear := ready_iff_clear hlocal hdeps hacyclic ht
  have hwins := @wins_iff _ _ _ N t
  -- Four cases: the node is not clear, it has no inputs, one of its attempts wins, or none does.
  unfold entry
  by_cases hready : N.ready N.value t = true
  · have hc := hclear.mp hready
    rw [if_pos hready]
    cases hg : N.gather t N.value with
    | none =>
        rw [win, hg] at hwins
        have hlose : ¬ N.plan.Wins t := fun h => by cases hwins.mp h
        obtain ⟨hone, hok⟩ := plan_of_lost hg
        refine ⟨iff_of_false (fun h => by cases h) fun h => hlose h.2,
          iff_of_true rfl ⟨hc, (N.plan.loses_iff t).mpr hlose⟩,
          iff_of_false (fun h => by cases h) fun h => h hc,
          fun _ => ?_, fun h => by cases h⟩
        show Settled (N.plan.ok t) (N.plan.limit t) 1 false
        rw [hone, hok]
        exact Tried.first.lose le_rfl (lt_irrefl _) rfl
    | some x =>
        obtain ⟨hmax, hok⟩ := plan_of_gather hg
        rw [win, hg, Option.bind_some] at hwins
        cases hk : firstWin (N.behave t x) (N.limit t).toNat with
        | some found =>
            obtain ⟨k, v⟩ := found
            rw [outcome_of_win hk]
            have hwin : N.plan.Wins t := hwins.mpr (by rw [hk]; rfl)
            obtain ⟨hs, -⟩ := firstWin_eq_some hk
            refine ⟨iff_of_true rfl ⟨hc, hwin⟩,
              iff_of_false (fun h => by cases h) fun h => (N.plan.loses_iff t).mp h.2 hwin,
              iff_of_false (fun h => by cases h) fun h => h hc, fun _ => ?_, fun h => by cases h⟩
            show Settled (N.plan.ok t) (N.plan.limit t) k true
            rw [hmax, hok]
            exact hs.toTried.win (by have := hs.le; omega) hs.last
        | none =>
            rw [outcome_of_loss hk]
            have hlose : ¬ N.plan.Wins t := fun h => by
              rw [hk] at hwins
              cases hwins.mp h
            refine ⟨iff_of_false (fun h => by cases h) fun h => hlose h.2,
              iff_of_true rfl ⟨hc, (N.plan.loses_iff t).mpr hlose⟩,
          iff_of_false (fun h => by cases h) fun h => h hc,
              fun _ => ?_, fun h => by cases h⟩
            show Settled (N.plan.ok t) (N.plan.limit t) (N.limit t) false
            rw [hmax, hok]
            have hfail : ∀ k : Int, 1 ≤ k → k ≤ N.limit t → (N.behave t x k).isSome = false :=
              fun k h1 h2 => by rw [firstWin_eq_none.mp hk k h1 (by omega)]; rfl
            exact ⟨⟨hlimit, fun k h1 h2 => hfail k h1 h2.le⟩, le_rfl,
              hfail _ hlimit le_rfl, fun _ => rfl⟩
  · have hc : ¬ N.plan.Clear t := fun h => hready (hclear.mpr h)
    rw [if_neg hready]
    exact ⟨iff_of_false (fun h => by cases h) fun h => hc h.1,
      iff_of_false (fun h => by cases h) fun h => hc h.1,
      iff_of_true rfl hc, fun h => absurd rfl h, fun _ => rfl⟩

/-- The report about the values is the one that the plan asks for. -/
theorem verdict_right (hlimit : ∀ t ∈ N.nodes, 1 ≤ N.limit t) : N.verdict.Right N.plan where
  nodes := by
    show (N.nodes.map N.entry).map (·.node) = N.nodes
    rw [List.map_map]
    exact List.map_id'' entry_node _
  entries e he := by
    obtain ⟨t, ht, rfl⟩ := List.mem_map.mp he
    exact entry_right hlocal hdeps hacyclic ht (hlimit t ht)
  retries := rfl
  fate := rfl

/-- The equations have no other solution. The induction is on the length of the chains to a node,
since its equation reads the values below it only. -/
theorem value_unique {v : α → Option ν} (hv : ∀ t ∈ N.nodes, v t
      = if N.ready v t then (N.win v t).map Prod.snd else none) {t : α} (ht : t ∈ N.nodes) :
    v t = N.value t := by
  have hmem : ∀ {d t : α}, Relation.TransGen (fun d t => d ∈ N.deps t) d t → t ∈ N.nodes →
      d ∈ N.nodes := by
    intro d t hd ht
    induction hd with
    | single hd => exact hdeps _ ht _ hd
    | tail _ hd ih => exact ih (hdeps _ ht _ hd)
  have hall : ∀ n, ∀ t ∈ N.nodes, LongestChain.Within N.deps n t → v t = N.value t := by
    -- By the length of the longest chain that ends in the node.
    intro n
    induction n with
    | zero => exact fun t _ h => absurd h LongestChain.not_within_zero
    | succ n ih =>
        intro t ht hwithin
        have hbelow : ∀ d, Relation.TransGen (fun d t => d ∈ N.deps t) d t → v d = N.value d :=
          fun d hd => ih d (hmem hd ht) (hwithin.below hd)
        obtain ⟨hready, hwin⟩ := step_congr hlocal hbelow
        rw [hv t ht, value_eq hlocal hdeps hacyclic ht, hready, hwin]
  exact hall _ t ht (LongestChain.within_of_acyclic hdeps hacyclic ht)

/-! ### Another way to gather -/

variable {g : α → (α → Option ν) → Option ι} (hlocal' : (N.regather g).Local)
  (halike : ∀ t ∈ N.nodes, N.ready N.value t = true → g t N.value = N.gather t N.value)
include hlocal' halike

/-- Two networks that gather alike from the values of one of them compute the same values. -/
theorem regather_value {t : α} (ht : t ∈ N.nodes) : (N.regather g).value t = N.value t := by
  refine (value_unique (N := N.regather g) hlocal' hdeps hacyclic (v := N.value) (fun t ht => ?_)
    ht).symm
  show N.value t = if N.ready N.value t then ((N.regather g).win N.value t).map Prod.snd else none
  rw [value_eq hlocal hdeps hacyclic ht]
  by_cases hready : N.ready N.value t = true
  · have hwin : (N.regather g).win N.value t = N.win N.value t := by
      show (g t N.value).bind _ = _
      rw [halike t ht hready]
      rfl
    rw [if_pos hready, if_pos hready, hwin]
  · rw [if_neg hready, if_neg hready]

/-- And they write the same report about them, although one of the two ways to gather may look at
values that the other one never sees. -/
theorem regather_verdict : (N.regather g).verdict = N.verdict := by
  have hvalue := fun {t : α} (ht : t ∈ N.nodes) =>
    regather_value hlocal hdeps hacyclic hlocal' halike ht
  -- The values agree on the transitive dependencies of each node, and these are nodes of the
  -- network.
  have hentry : ∀ t ∈ N.nodes, (N.regather g).entry t = N.entry t := by
    intro t ht
    have hmem : ∀ d, Relation.TransGen (fun d t => d ∈ N.deps t) d t → d ∈ N.nodes := by
      intro d hd
      induction hd using Relation.TransGen.head_induction_on with
      | single hd => exact hdeps t ht _ hd
      | head hd _ ih => exact hdeps _ ih _ hd
    obtain ⟨hready, -⟩ := step_congr (N := N.regather g) hlocal' fun d hd => hvalue (hmem d hd)
    have hgather := hlocal' t _ _ fun d hd => hvalue (hmem d hd)
    have hready : N.ready (N.regather g).value t = N.ready N.value t := hready
    have hgather : g t (N.regather g).value = g t N.value := hgather
    show (if N.ready (N.regather g).value t then N.outcome t (g t (N.regather g).value)
      else ⟨t, .skipped, 0⟩) = N.entry t
    rw [hready, hgather, entry]
    by_cases h : N.ready N.value t = true
    · rw [if_pos h, if_pos h, halike t ht h]
    · rw [if_neg h, if_neg h]
  have hentries : (N.regather g).nodes.map (N.regather g).entry = N.nodes.map N.entry :=
    List.map_congr_left hentry
  rw [verdict, verdict, hentries]

end

end Network

end Orchestrator.Lib
