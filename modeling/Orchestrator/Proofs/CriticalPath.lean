import Orchestrator.Lib.LongestChain
import Orchestrator.Proofs.DispatchSafety

/-!
# `Orchestrator.Proofs.CriticalPath`: the critical path of the engine

`criticalPath` finds a heaviest dependency chain of succeeded tasks that cannot be prolonged at
either end (`critical_path_correct`). `Critical` says what such a chain is.

The tasks that succeeded and their dependencies among each other are an acyclic graph, so the
memoised `cost` computes `LongestChain.total` on it (`cost_spec`). In its table a node is marked
before its dependencies are visited: `TableOk P` is the invariant of the table while the nodes of
`P`, those the recursion is inside of, have a mark and no value yet.

From the table the path is read back along the recorded dependencies (`chainFrom_eq`), beginning at
the best of the tasks without a succeeded dependent (`exists_bestSink`). That a heaviest chain can
be found among the chains to these tasks uses that no duration is negative.

Ties are the delicate part. A task of 0 ms adds nothing to a chain, and the code keeps a dependency
only if it is strictly better than what it has. It starts with -1, so a succeeded dependency is
recorded whenever there is one, and the path reaches back to a task without any. The order of the
maps decides between equal chains, and the theorem holds for every order.
-/

set_option autoImplicit false

namespace Orchestrator.Proofs

open Orchestrator.Lib Orchestrator.Engine

/-! ### What a critical path is -/

/-- A chain of succeeded tasks in which each is a direct dependency of the next. -/
structure DependencyChain (ok : String → Bool) (dependsOn : String → List String)
    (c : List String) : Prop where
  succeeded : ∀ id ∈ c, ok id = true
  linked : c.IsChain (fun d t => d ∈ dependsOn t)

/-- The first task of a chain has no succeeded dependency. -/
def StartsClean (ok : String → Bool) (dependsOn : String → List String) (c : List String) : Prop :=
  ∀ x, c.head? = some x → ∀ d ∈ dependsOn x, ok d = false

/-- The last task of a chain has no succeeded dependent. -/
def EndsClean (ok : String → Bool) (dependsOn : String → List String) (c : List String) : Prop :=
  ∀ x, c.getLast? = some x → ∀ t, ok t = true → x ∉ dependsOn t

/-- A heaviest chain of succeeded tasks, not empty. There may be several of them when some durations
are zero or sums coincide. -/
structure Longest (ok : String → Bool) (dur : String → Int) (dependsOn : String → List String)
    (c : List String) : Prop extends DependencyChain ok dependsOn c where
  nonempty : c ≠ []
  nodup : c.Nodup
  longest : ∀ c', DependencyChain ok dependsOn c' →
    LongestChain.weight dur c' ≤ LongestChain.weight dur c

/-- A heaviest chain of succeeded tasks that cannot be prolonged. With durations of zero a heaviest
chain may still have room at its ends, so this is a condition of its own. -/
structure Critical (ok : String → Bool) (dur : String → Int) (dependsOn : String → List String)
    (c : List String) : Prop extends Longest ok dur dependsOn c where
  starts : StartsClean ok dependsOn c
  ends : EndsClean ok dependsOn c

/-! ### The graph of the succeeded tasks -/

/-- The succeeded dependencies of a task. -/
def okDeps (ok : String → Bool) (dependsOn : String → List String) (id : String) : List String :=
  (dependsOn id).filter ok

section Graph

variable {ok : String → Bool} {dur : String → Int} {dependsOn : String → List String}
  {nodes : List String}

/-- The succeeded dependencies of a task are its dependencies that succeeded. -/
theorem mem_okDeps {d t : String} :
    d ∈ okDeps ok dependsOn t ↔ d ∈ dependsOn t ∧ ok d = true := List.mem_filter

/-- A chain of succeeded tasks is a chain of their graph. -/
theorem DependencyChain.chainTo {c : List String} (h : DependencyChain ok dependsOn c) {x : String}
    (hx : c.getLast? = some x) : LongestChain.ChainTo (okDeps ok dependsOn) x c := by
  refine LongestChain.chainTo_iff.mpr ⟨?_, hx⟩
  refine List.IsChain.imp_of_mem_imp (fun d t hd _ hlink => ?_) h.linked
  exact mem_okDeps.mpr ⟨hlink, h.succeeded d hd⟩

/-- Leaving out the tasks that did not succeed makes no cycle. -/
theorem acyclic_okDeps (hacyclic : ¬ HasCycle dependsOn) : ¬ HasCycle (okDeps ok dependsOn) := by
  rintro ⟨x, hx⟩
  exact hacyclic ⟨x, Relation.TransGen.mono (fun t d hd => (mem_okDeps.mp hd).1) x x hx⟩

/-- A succeeded dependency is a succeeded task. -/
theorem okDeps_closed (hnodes : ∀ id, id ∈ nodes ↔ ok id = true) :
    ∀ t ∈ nodes, ∀ d ∈ okDeps ok dependsOn t, d ∈ nodes :=
  fun _ _ d hd => (hnodes d).mpr (mem_okDeps.mp hd).2

/-- No chain to a succeeded task is longer than the number of succeeded tasks. -/
theorem within_okDeps (hnodes : ∀ id, id ∈ nodes ↔ ok id = true)
    (hacyclic : ¬ HasCycle dependsOn) {n : Nat} (hn : nodes.length ≤ n) {x : String}
    (hx : ok x = true) : LongestChain.Within (okDeps ok dependsOn) n x := fun c hc =>
  (LongestChain.within_of_acyclic (okDeps_closed hnodes) (acyclic_okDeps hacyclic)
    ((hnodes x).mpr hx) c hc).trans hn

/-- The chain read back from a task with the greatest total is a heaviest one. -/
theorem longest_trace (hdur : ∀ x, 0 ≤ dur x) (hnodes : ∀ id, id ∈ nodes ↔ ok id = true)
    (hacyclic : ¬ HasCycle dependsOn) {floor : Int} (hfloor : floor ≤ 0) {n : Nat}
    (hn : nodes.length ≤ n) {b : String} (hb : ok b = true)
    (hbest : ∀ x, ok x = true → LongestChain.total (okDeps ok dependsOn) dur x
      ≤ LongestChain.total (okDeps ok dependsOn) dur b) :
    Longest ok dur dependsOn
      (LongestChain.trace (LongestChain.prevOf (okDeps ok dependsOn) dur floor) n b) := by
  have hwithin := within_okDeps hnodes hacyclic hn hb
  have hchain : LongestChain.ChainTo (okDeps ok dependsOn) b
      (LongestChain.trace (LongestChain.prevOf (okDeps ok dependsOn) dur floor) n b) :=
    LongestChain.chainTo_trace LongestChain.prevOf_mem hwithin
  have hlinked := (LongestChain.chainTo_iff.mp hchain).1
  have hsub := hchain.subset (okDeps_closed hnodes) ((hnodes b).mpr hb)
  refine ⟨⟨fun id hid => (hnodes id).mp (hsub id hid),
    hlinked.imp fun d t hd => (mem_okDeps.mp hd).1⟩, ?_, hchain.nodup (acyclic_okDeps hacyclic), ?_⟩
  · intro hnil
    rw [hnil] at hchain
    exact absurd (LongestChain.chainTo_iff.mp hchain).2 (by simp)
  · -- The chain has the greatest total of all, so it weighs at least as much as any chain, which
    -- ends in a task with a total of its own.
    intro c hc
    rw [LongestChain.weight_trace hdur hfloor hwithin]
    cases hlast : c.getLast? with
    | none =>
        rw [List.getLast?_eq_none_iff.mp hlast]
        exact LongestChain.total_nonneg hdur hwithin
    | some x =>
        have hx := hc.succeeded x (List.mem_of_getLast? hlast)
        have hle := (LongestChain.isGreatest_total hdur
          (within_okDeps hnodes hacyclic hn hx)).2
            ⟨c, hc.chainTo hlast, rfl⟩
        exact hle.trans (hbest x hx)

end Graph

/-! ### The table of `cost` -/

/-- The duration of a task, 0 without a span. -/
def duration (spans : Dict String TaskSpan) (id : String) : Int :=
  ((spans.get? id).map (·.durationMs)).getD 0

/-- The ids of the succeeded tasks. -/
def succeededIds (spans : Dict String TaskSpan) : List String :=
  spans.keys.filter (hasSucceeded spans)

variable {spans : Dict String TaskSpan} {dependsOn : String → List String}

/-- The ids of the succeeded tasks are those that the test accepts. -/
theorem mem_succeededIds {id : String} :
    id ∈ succeededIds spans ↔ hasSucceeded spans id = true := by
  rw [succeededIds, List.mem_filter, Dict.mem_keys]
  refine and_iff_right_of_imp fun h => ?_
  obtain ⟨sp, hsp, -⟩ := hasSucceeded_iff.mp h
  exact ⟨sp, hsp⟩

/-- There are no more succeeded tasks than spans. The recursion of `cost` has one more unit of fuel
than that. -/
theorem succeededIds_length (spans : Dict String TaskSpan) :
    (succeededIds spans).length ≤ spans.entries.length + 1 := by
  have hkeys : spans.keys.length = spans.entries.length := List.length_map Prod.fst
  have := List.length_filter_le (hasSucceeded spans) spans.keys
  unfold succeededIds
  omega

/-- The greatest duration of a chain of succeeded tasks that ends in a task. -/
noncomputable def totalOf (spans : Dict String TaskSpan) (dependsOn : String → List String) :
    String → Int :=
  LongestChain.total (okDeps (hasSucceeded spans) dependsOn) (duration spans)

/-- The dependency that `cost` records for a task. -/
noncomputable def prevOf (spans : Dict String TaskSpan) (dependsOn : String → List String) :
    String → Option String :=
  LongestChain.prevOf (okDeps (hasSucceeded spans) dependsOn) (duration spans) (-1)

/-- The table has the values of a node, and of those before it. This is what a call of `cost` leaves
behind for every node it has computed. -/
structure Valued (spans : Dict String TaskSpan) (dependsOn : String → List String)
    (table : CostTable) (id : String) : Prop where
  cost : table.bestCost id = totalOf spans dependsOn id
  prev : table.bestPrev id = (prevOf spans dependsOn id).getD ""
  deps : ∀ d ∈ okDeps (hasSucceeded spans) dependsOn id, table.computed d = true

/-- A marked node has its values, unless it is one of `P`. -/
def TableOk (spans : Dict String TaskSpan) (dependsOn : String → List String)
    (P : String → Prop) (table : CostTable) : Prop :=
  ∀ id, table.computed id = true → P id ∨ Valued spans dependsOn table id

/-- The table with a node marked. -/
def mark (table : CostTable) (node : String) : CostTable :=
  { table with computed := Function.update table.computed node true }

/-- Marking a node marks it and no other. -/
theorem mark_computed {table : CostTable} {node y : String} :
    (mark table node).computed y = true ↔ y = node ∨ table.computed y = true := by
  show Function.update table.computed node true y = true ↔ _
  by_cases heq : y = node
  · simp [heq]
  · simp [heq]

/-- A node that is not marked is computed from its succeeded dependencies. This is the body of
`cost` in the terms of `LongestChain.pick`. -/
theorem cost_succ (spans : Dict String TaskSpan) (dependsOn : String → List String) (n : Nat)
    {node : String} {table : CostTable} (hnew : table.computed node = false)
    (hok : hasSucceeded spans node = true) :
    let r := (okDeps (hasSucceeded spans) dependsOn node).foldl
      (fun (acc : Int × String × CostTable) d =>
        if (cost spans dependsOn n d acc.2.2).1 > acc.1 then
          ((cost spans dependsOn n d acc.2.2).1, d, (cost spans dependsOn n d acc.2.2).2)
        else (acc.1, acc.2.1, (cost spans dependsOn n d acc.2.2).2)) (-1, "", mark table node)
    cost spans dependsOn (n + 1) node table
      = (duration spans node + max r.1 0,
        { r.2.2 with
            bestCost := Function.update r.2.2.bestCost node (duration spans node + max r.1 0)
            bestPrev := Function.update r.2.2.bestPrev node r.2.1 }) := by
  obtain ⟨sp, hsp, hst⟩ := hasSucceeded_iff.mp hok
  have hown : duration spans node = sp.durationMs := by
    rw [duration, hsp]
    rfl
  -- The code skips a dependency that did not succeed inside its loop; here they are filtered out
  -- before it.
  simp only [okDeps, List.foldl_filter, hown]
  rw [cost, hnew, hsp]
  simp only [hst, if_true]
  rfl

/-- `cost` returns the greatest duration of a chain to a succeeded task and records it. `P` holds
of the nodes the recursion is inside of, none of which comes before the task. -/
theorem cost_spec (hdur : ∀ x, 0 ≤ duration spans x) (hacyclic : ¬ HasCycle dependsOn) :
    ∀ (n : Nat) {node : String},
      LongestChain.Within (okDeps (hasSucceeded spans) dependsOn) n node →
      hasSucceeded spans node = true → ∀ {P : String → Prop} {table : CostTable},
      (∀ y, Relation.ReflTransGen (fun t d => d ∈ dependsOn t) node y → ¬ P y) →
      TableOk spans dependsOn P table →
      (cost spans dependsOn n node table).1 = totalOf spans dependsOn node ∧
        TableOk spans dependsOn P (cost spans dependsOn n node table).2 ∧
        (cost spans dependsOn n node table).2.computed node = true ∧
        ∀ y, table.computed y = true → (cost spans dependsOn n node table).2.computed y = true := by
  intro n
  induction n with
  | zero => exact fun h => absurd h LongestChain.not_within_zero
  | succ n ih =>
      intro node hwithin hok P table hP htable
      cases hnew : table.computed node with
      | true =>
          rw [cost, hnew]
          rcases htable node hnew with hin | hval
          · exact absurd hin (hP node .refl)
          · exact ⟨hval.cost, htable, hnew, fun _ hy => hy⟩
      | false =>
          rw [cost_succ spans dependsOn n hnew hok]
          -- While its dependencies are visited, the node has its mark and no value.
          have hmarked : TableOk spans dependsOn (fun y => P y ∨ y = node) (mark table node) := by
            intro y hy
            rcases mark_computed.mp hy with rfl | hy
            · exact Or.inl (Or.inr rfl)
            · rcases htable y hy with hin | hval
              · exact Or.inl (Or.inl hin)
              · exact Or.inr ⟨hval.cost, hval.prev,
                  fun d hd => mark_computed.mpr (Or.inr (hval.deps d hd))⟩
          have hvisit : ∀ d ∈ okDeps (hasSucceeded spans) dependsOn node, ∀ t,
              TableOk spans dependsOn (fun y => P y ∨ y = node) t →
              (cost spans dependsOn n d t).1 = totalOf spans dependsOn d ∧
                TableOk spans dependsOn (fun y => P y ∨ y = node)
                  (cost spans dependsOn n d t).2 ∧
                (cost spans dependsOn n d t).2.computed d = true ∧
                ∀ y, t.computed y = true → (cost spans dependsOn n d t).2.computed y = true := by
            intro d hd t ht
            obtain ⟨hdep, hdok⟩ := mem_okDeps.mp hd
            refine ih (hwithin.pred hd) hdok (fun y hy hin => ?_) ht
            rcases hin with hin | rfl
            · exact hP y (.head hdep hy) hin
            · exact hacyclic ⟨y, .head' hdep hy⟩
          obtain ⟨t, hfold, htable', hdone, hkeep⟩ := LongestChain.foldl_pick (fun d => d) (-1) ""
            (cost spans dependsOn n) _ (fun d t => t.computed d = true) hvisit hmarked
          have hrec : duration spans node + max (LongestChain.pick (totalOf spans dependsOn) (-1)
              (okDeps (hasSucceeded spans) dependsOn node)).1 0 = totalOf spans dependsOn node :=
            (LongestChain.total_eq hdur (by decide) hwithin).symm
          simp only [hfold, hrec, true_and]
          refine ⟨fun y hy => ?_, hkeep node (mark_computed.mpr (Or.inl rfl)), fun y hy =>
            hkeep y (mark_computed.mpr (Or.inr hy))⟩
          by_cases heq : y = node
          · subst heq
            refine Or.inr ⟨Function.update_self _ _ _, ?_, hdone⟩
            show Function.update _ y _ y = _
            rw [Function.update_self, Option.map_id']
            rfl
          · rcases htable' y hy with (hin | hin) | hval
            · exact Or.inl hin
            · exact absurd hin heq
            · exact Or.inr ⟨(Function.update_of_ne heq _ _).trans hval.cost,
                (Function.update_of_ne heq _ _).trans hval.prev, hval.deps⟩

/-- The walk back along the recorded dependencies is the `trace` of the library, with the tasks in
the other order. -/
theorem chainFrom_eq (hid : hasSucceeded spans "" = false) {table : CostTable}
    (htable : TableOk spans dependsOn (fun _ => False) table) :
    ∀ (n : Nat) {node : String} (chain : List String), node ≠ "" → table.computed node = true →
      chainFrom table.bestPrev n node chain
        = LongestChain.trace (prevOf spans dependsOn) n node ++ chain := by
  intro n
  induction n with
  | zero => exact fun _ _ _ => rfl
  | succ n ih =>
      intro node chain hne hnode
      obtain hval := (htable node hnode).resolve_left id
      rw [chainFrom, if_neg hne, LongestChain.trace, hval.prev]
      cases hp : prevOf spans dependsOn node with
      | none =>
          -- The empty name ends the walk.
          show chainFrom table.bestPrev n "" (node :: chain) = node :: chain
          cases n with
          | zero => rfl
          | succ n => exact if_pos rfl
      | some d =>
          have hd := LongestChain.prevOf_mem node d hp
          have hdne : d ≠ "" := by
            rintro rfl
            rw [(mem_okDeps.mp hd).2] at hid
            cases hid
          show chainFrom table.bestPrev n d (node :: chain)
            = LongestChain.trace (prevOf spans dependsOn) n d ++ [node] ++ chain
          rw [ih _ hdne (hval.deps d hd), List.append_assoc]
          rfl

/-! ### The best sink -/

/-- Ranging over a map visits its bindings, in whatever order. -/
theorem mem_range {iter : MapOrder} {e : String × TaskSpan} :
    e ∈ iter.range spans ↔ spans.get? e.1 = some e.2 := by
  simp only [MapOrder.range, List.mem_filterMap, (iter.perm _).mem_iff, Option.map_eq_some_iff]
  constructor
  · rintro ⟨k, -, v, hv, rfl⟩
    exact hv
  · intro h
    exact ⟨e.1, (Dict.mem_keys _ _).mpr ⟨e.2, h⟩, e.2, h, rfl⟩

/-- The number of succeeded tasks that depend on a task, each counted as often as it lists the task.
The source keeps it in a map. -/
def incoming (iter : MapOrder) (spans : Dict String TaskSpan) (dependsOn : String → List String)
    (id : String) : Nat :=
  (((iter.range spans).filter (fun e => e.2.status = .succeeded)).flatMap
    (fun e => (dependsOn e.1).filter (hasSucceeded spans))).count id

/-- The succeeded tasks without succeeded dependents, in the order of the map. One of them ends the
critical path. -/
def sinks (iter : MapOrder) (spans : Dict String TaskSpan) (dependsOn : String → List String) :
    List String :=
  ((iter.range spans).filter
    (fun e => !decide (e.2.status ≠ .succeeded ∨ incoming iter spans dependsOn e.1 > 0))).map
      Prod.fst

/-- A task has an incoming count exactly when a succeeded task depends on it. -/
theorem incoming_pos {iter : MapOrder} {id : String} :
    incoming iter spans dependsOn id > 0 ↔
      ∃ t, hasSucceeded spans t = true ∧ id ∈ okDeps (hasSucceeded spans) dependsOn t := by
  unfold incoming
  rw [gt_iff_lt, List.count_pos_iff, List.mem_flatMap]
  constructor
  · rintro ⟨e, he, hid⟩
    obtain ⟨hrange, hst⟩ := List.mem_filter.mp he
    exact ⟨e.1, hasSucceeded_iff.mpr ⟨e.2, mem_range.mp hrange, of_decide_eq_true hst⟩, hid⟩
  · rintro ⟨t, ht, hid⟩
    obtain ⟨sp, hsp, hst⟩ := hasSucceeded_iff.mp ht
    exact ⟨(t, sp), List.mem_filter.mpr ⟨mem_range.mpr hsp, decide_eq_true hst⟩, hid⟩

/-- The sinks are the succeeded tasks on which no succeeded task depends. The source counts edges,
so the proof is that a count is zero exactly when there is no edge. -/
theorem mem_sinks {iter : MapOrder} {id : String} :
    id ∈ sinks iter spans dependsOn ↔ hasSucceeded spans id = true ∧
      ∀ t, hasSucceeded spans t = true → id ∉ okDeps (hasSucceeded spans) dependsOn t := by
  -- No edge between succeeded tasks leads away from a task when its count is zero.
  have hnone : ¬ incoming iter spans dependsOn id > 0 ↔
      ∀ t, hasSucceeded spans t = true → id ∉ okDeps (hasSucceeded spans) dependsOn t := by
    rw [incoming_pos]
    push Not
    rfl
  rw [← hnone]
  unfold sinks
  rw [List.mem_map]
  constructor
  · rintro ⟨e, he, rfl⟩
    obtain ⟨hrange, hkeep⟩ := List.mem_filter.mp he
    have hkeep : ¬ (e.2.status ≠ .succeeded ∨ incoming iter spans dependsOn e.1 > 0) := by
      simpa using hkeep
    push Not at hkeep
    exact ⟨hasSucceeded_iff.mpr ⟨e.2, mem_range.mp hrange, hkeep.1⟩, not_lt.mpr hkeep.2⟩
  · rintro ⟨hok, hno⟩
    obtain ⟨sp, hsp, hst⟩ := hasSucceeded_iff.mp hok
    refine ⟨(id, sp), List.mem_filter.mpr ⟨mem_range.mpr hsp, ?_⟩, rfl⟩
    simp only [hst, ne_eq, not_true_eq_false, false_or, hno, decide_false, Bool.not_false]

/-- `CriticalPath`, by the loop over its sinks. The loop keeps the best end so far together with the
table. -/
theorem criticalPath_eq (iter : MapOrder) (spans : Dict String TaskSpan)
    (dependsOn : String → List String) :
    let fuel := spans.entries.length + 1
    let r := (sinks iter spans dependsOn).foldl (fun (acc : Int × String × CostTable) id =>
        if (cost spans dependsOn fuel id acc.2.2).1 > acc.1 then
          ((cost spans dependsOn fuel id acc.2.2).1, id, (cost spans dependsOn fuel id acc.2.2).2)
        else (acc.1, acc.2.1, (cost spans dependsOn fuel id acc.2.2).2)) (-1, "", {})
    let bestEnd := if r.2.1 = "" then
        (((iter.range spans).find? (fun e => e.2.status = .succeeded)).map (·.1)).getD ""
      else r.2.1
    criticalPath iter spans dependsOn
      = if bestEnd = "" then [] else chainFrom r.2.2.bestPrev fuel bestEnd [] := by
  -- The code tests for a sink inside its loop; here the sinks are listed before it.
  have hstep : ∀ {γ : Type} (c : Prop) [Decidable c] (a b : γ),
      (if (!decide c) = true then a else b) = if c then b else a := by
    intro γ c _ a b
    by_cases hc : c <;> simp [hc]
  simp only [sinks, List.foldl_map, List.foldl_filter, hstep]
  rfl

/-- Without a succeeded task there is no path. -/
theorem criticalPath_nil {iter : MapOrder} (h : ∀ id, hasSucceeded spans id = false) :
    criticalPath iter spans dependsOn = [] := by
  have hsinks : sinks iter spans dependsOn = [] :=
    List.eq_nil_iff_forall_not_mem.mpr fun id hid => by
      have hok := (mem_sinks.mp hid).1
      rw [h id] at hok
      cases hok
  have hfind : (iter.range spans).find? (fun e => e.2.status = .succeeded) = none := by
    refine List.find?_eq_none.mpr fun e he hst => ?_
    have hok : hasSucceeded spans e.1 = true :=
      hasSucceeded_iff.mpr ⟨e.2, mem_range.mp he, of_decide_eq_true hst⟩
    rw [h e.1] at hok
    cases hok
  simp [criticalPath_eq, hsinks, hfind]

/-- The best sink is a task with the greatest total. A task that is not a sink has a dependent that
weighs no less, and this cannot go on for ever without a cycle. -/
theorem exists_bestSink (hdur : ∀ x, 0 ≤ duration spans x) (hacyclic : ¬ HasCycle dependsOn)
    (iter : MapOrder) {id : String} (hid : hasSucceeded spans id = true) :
    ∃ b, (LongestChain.pick (totalOf spans dependsOn) (-1) (sinks iter spans dependsOn)).2
        = some b ∧ b ∈ sinks iter spans dependsOn ∧
      ∀ x, hasSucceeded spans x = true → totalOf spans dependsOn x ≤ totalOf spans dependsOn b := by
  have hwithin : ∀ {x : String}, hasSucceeded spans x = true →
      LongestChain.Within (okDeps (hasSucceeded spans) dependsOn) _ x := fun hx =>
    within_okDeps (fun _ => mem_succeededIds) hacyclic (Nat.le_succ _) hx
  -- Every succeeded task comes before a sink that weighs no less.
  have hsink : ∀ x, hasSucceeded spans x = true → ∃ z ∈ sinks iter spans dependsOn,
      totalOf spans dependsOn x ≤ totalOf spans dependsOn z := by
    intro x hx
    obtain ⟨z, hz, hle, hno⟩ := LongestChain.exists_sink
      (P := fun z => totalOf spans dependsOn x ≤ totalOf spans dependsOn z)
      (okDeps_closed fun _ => mem_succeededIds) (acyclic_okDeps hacyclic)
      (fun t ht d hd hle => hle.trans
        (LongestChain.total_le hdur (hwithin (mem_succeededIds.mp ht)) hd))
      (mem_succeededIds.mpr hx) le_rfl
    exact ⟨z, mem_sinks.mpr ⟨mem_succeededIds.mp hz,
      fun t ht => hno t (mem_succeededIds.mpr ht)⟩, hle⟩
  cases hp : (LongestChain.pick (totalOf spans dependsOn) (-1) (sinks iter spans dependsOn)).2 with
  | none =>
      obtain ⟨z, hz, -⟩ := hsink id hid
      have hle := (LongestChain.pick_none hp).1 z hz
      have hnonneg := LongestChain.total_nonneg hdur (hwithin (mem_sinks.mp hz).1)
      unfold totalOf at hle
      omega
  | some b =>
      obtain ⟨hbest, -, -⟩ := LongestChain.pick_some hp
      refine ⟨b, rfl, hbest.mem, fun x hx => ?_⟩
      obtain ⟨z, hz, hle⟩ := hsink x hx
      exact hle.trans (hbest.le z hz)

/-- The path is read back from the best sink, and the table that the loop has left says what stands
before it. -/
theorem criticalPath_trace (hids : spans.get? "" = none) (hdur : ∀ x, 0 ≤ duration spans x)
    (hacyclic : ¬ HasCycle dependsOn) {iter : MapOrder} {b : String}
    (hb : (LongestChain.pick (totalOf spans dependsOn) (-1) (sinks iter spans dependsOn)).2
      = some b) :
    criticalPath iter spans dependsOn
      = LongestChain.trace (prevOf spans dependsOn) (spans.entries.length + 1) b := by
  have hempty : hasSucceeded spans "" = false := by simp [hasSucceeded, hids]
  have hlen := succeededIds_length spans
  obtain ⟨t, hfold, htable, hdone, -⟩ := LongestChain.foldl_pick (T := totalOf spans dependsOn)
    (fun id => id) (-1) "" (cost spans dependsOn (spans.entries.length + 1))
    (TableOk spans dependsOn (fun _ => False)) (fun id t => t.computed id = true)
    (fun (id : String) (hid : id ∈ sinks iter spans dependsOn) t ht => cost_spec hdur hacyclic _
      (within_okDeps (fun _ => mem_succeededIds) hacyclic hlen (mem_sinks.mp hid).1)
      (mem_sinks.mp hid).1 (fun _ _ h => h) ht)
    (s := {}) (fun id hid => (by cases hid))
  have hmem := (LongestChain.pick_some hb).1.mem
  -- The empty id stands for no sink. It is no succeeded task, so the best sink is not mistaken for
  -- it.
  have hne : b ≠ "" := by
    rintro rfl
    rw [(mem_sinks.mp hmem).1] at hempty
    cases hempty
  rw [criticalPath_eq]
  simp only [hfold, hb, Option.map_some, Option.getD_some, if_neg hne]
  rw [chainFrom_eq hempty htable _ _ hne (hdone b hmem), List.append_nil]

/-- When a task succeeded, the path is a heaviest chain that starts and ends clean. -/
theorem criticalPath_critical (hids : spans.get? "" = none) (hdur : ∀ x, 0 ≤ duration spans x)
    (hacyclic : ¬ HasCycle dependsOn) (iter : MapOrder) {id : String}
    (hid : hasSucceeded spans id = true) :
    Critical (hasSucceeded spans) (duration spans) dependsOn
      (criticalPath iter spans dependsOn) := by
  obtain ⟨b, hb, hmem, hbest⟩ := exists_bestSink hdur hacyclic iter hid
  obtain ⟨hbok, hbsink⟩ := mem_sinks.mp hmem
  have hlen := succeededIds_length spans
  have hwithin := within_okDeps (fun _ => mem_succeededIds) hacyclic hlen hbok
  have hprev : ∀ x d, prevOf spans dependsOn x = some d →
      d ∈ okDeps (hasSucceeded spans) dependsOn x := LongestChain.prevOf_mem
  rw [criticalPath_trace hids hdur hacyclic hb]
  have hlong := longest_trace hdur (fun _ => mem_succeededIds) hacyclic (by decide : (-1 : Int) ≤ 0)
    hlen hbok hbest
  refine ⟨hlong, fun x hx d hd => ?_, fun x hx t ht hxt => ?_⟩
  · -- No dependency of the first task weighs more than -1.
    have hnone := (LongestChain.pick_none (LongestChain.trace_head hprev hwithin hx)).1
    by_contra hok
    have hdep := mem_okDeps.mpr ⟨hd, by simpa using hok⟩
    have hneg := hnone d hdep
    have hnonneg := LongestChain.total_nonneg hdur
      (within_okDeps (fun _ => mem_succeededIds) hacyclic hlen (mem_okDeps.mp hdep).2)
    omega
  · have hend := (LongestChain.chainTo_iff.mp (LongestChain.chainTo_trace hprev hwithin)).2
    have hxb : x = b := Option.some.inj (hx.symm.trans hend)
    exact hbsink t ht (mem_okDeps.mpr ⟨hxb ▸ hxt, hbok⟩)

/-- The path is a chain of succeeded tasks, or empty. -/
theorem criticalPath_chain (hids : spans.get? "" = none) (hdur : ∀ x, 0 ≤ duration spans x)
    (hacyclic : ¬ HasCycle dependsOn) (iter : MapOrder) :
    DependencyChain (hasSucceeded spans) dependsOn (criticalPath iter spans dependsOn) := by
  by_cases hok : ∃ id, hasSucceeded spans id = true
  · obtain ⟨id, hid⟩ := hok
    exact (criticalPath_critical hids hdur hacyclic iter hid).toDependencyChain
  · rw [criticalPath_nil fun id => by simpa using not_exists.mp hok id]
    exact ⟨by simp, List.isChain_nil⟩

/-- A task without a span counts as 0 ms, so no duration is negative. -/
theorem duration_nonneg (h : ∀ id sp, spans.get? id = some sp → 0 ≤ sp.durationMs) (x : String) :
    0 ≤ duration spans x := by
  unfold duration
  cases hx : spans.get? x with
  | none => exact le_rfl
  | some sp => exact h x sp hx

/-- The critical path of the engine is empty exactly when no task succeeded, and otherwise a
heaviest chain of succeeded tasks that starts and ends clean, whatever the order of the maps.

The totals are those of `Orchestrator.Lib.LongestChain`, and `criticalPath_critical` shows that the
loops of the source compute them. That tasks may take no time is where the two ends of the chain
need care: a predecessor of total 0 counts as well. -/
theorem critical_path_correct (iter : MapOrder) (spans : Dict String TaskSpan)
    (dependsOn : String → List String) (hids : spans.get? "" = none)
    (hdur : ∀ id sp, spans.get? id = some sp → 0 ≤ sp.durationMs)
    (hacyclic : ¬ HasCycle dependsOn) :
    (criticalPath iter spans dependsOn = [] ↔ ∀ id, hasSucceeded spans id = false) ∧
      ((∃ id, hasSucceeded spans id = true) →
        Critical (hasSucceeded spans) (duration spans) dependsOn
          (criticalPath iter spans dependsOn)) := by
  have hcritical : (∃ id, hasSucceeded spans id = true) → Critical (hasSucceeded spans)
      (duration spans) dependsOn (criticalPath iter spans dependsOn) := by
    rintro ⟨_, hid⟩
    exact criticalPath_critical hids (duration_nonneg hdur) hacyclic iter hid
  refine ⟨⟨fun hnil => ?_, criticalPath_nil⟩, hcritical⟩
  by_contra hsome
  push Not at hsome
  obtain ⟨id, hid⟩ := hsome
  exact (hcritical ⟨id, by simpa using hid⟩).nonempty hnil

/-- Two tasks that took 0 ms, one after the other, and a failed one beside the second. -/
def quickSpans : Dict String TaskSpan :=
  ((Dict.empty.set "a" { id := "a", status := .succeeded }).set "b"
    { id := "b", status := .succeeded }).set "c" { id := "c", status := .failed, durationMs := 7 }

/-- `b` and `c` depend on `a`. -/
def afterA (id : String) : List String := if id = "b" ∨ id = "c" then ["a"] else []

/-- The dependencies of the example have no cycle. -/
theorem afterA_acyclic : ¬ HasCycle afterA := by
  refine LongestChain.acyclic_of_rank (fun id => if id = "b" ∨ id = "c" then 1 else 0) ?_
  intro t d hd
  unfold afterA at hd
  by_cases ht : t = "b" ∨ t = "c"
  · rw [if_pos ht] at hd
    obtain rfl := List.mem_singleton.mp hd
    rw [if_pos ht]
    decide
  · rw [if_neg ht] at hd
    cases hd

/-- The path has both tasks, although they took no time. -/
theorem critical_path_correct_quickSpans :
    criticalPath .insertion quickSpans afterA = ["a", "b"] ∧
      Critical (hasSucceeded quickSpans) (duration quickSpans) afterA
        (criticalPath .insertion quickSpans afterA) := by
  have hdur : ∀ id sp, quickSpans.get? id = some sp → 0 ≤ sp.durationMs := by
    intro id sp h
    have hmem := (quickSpans.mem_entries id sp).mpr h
    have hall : quickSpans.entries.all (fun e => decide (0 ≤ e.2.durationMs)) = true := by decide
    exact of_decide_eq_true (List.all_eq_true.mp hall _ hmem)
  exact ⟨by rfl,
    (critical_path_correct .insertion quickSpans afterA rfl hdur afterA_acyclic).2
      ⟨"a", by decide⟩⟩

end Orchestrator.Proofs
