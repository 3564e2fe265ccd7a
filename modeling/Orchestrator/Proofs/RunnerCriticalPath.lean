import Orchestrator.Proofs.CriticalPath
import Orchestrator.Sdk.Runner

/-!
# `Orchestrator.Proofs.RunnerCriticalPath`: the critical path of the Python engine

`compute_critical_path` weighs its chain right, but records a dependency only when its total exceeds
0, and ends in the first task of greatest total, which need not be a sink. Where a total is 0 the
chain may stop short at either end. `compute_critical_path_iff` says for which spans and
dependencies it does not.

The condition `Unprolonged` is about the spans, the durations and the order of the dictionary. The
first task with the greatest total must have no succeeded dependent, and going back from it along
the first dependency of greatest total, as long as that is positive, must lead to a task without
succeeded dependencies (`LeadsBack`). The second half is the code's own walk, put as a relation: it
is decided by the totals, not by the path.

Whatever the spans are, the chain is a heaviest one (`computeCriticalPath_longest`), so its length
is that of the path of the engine (`sameTotal`). Where every succeeded task took some time nothing
stops short (`unprolonged_of_pos`).

The memoised recursion is that of `CriticalPath` without the marks: an id is in the table when its
values are there.
-/

set_option autoImplicit false

namespace Orchestrator.Sdk.Runner

open Orchestrator.Lib
open Orchestrator.Proofs (okDeps mem_okDeps okDeps_closed acyclic_okDeps within_okDeps
  longest_trace Longest Critical StartsClean EndsClean)

variable {spans : Dict String TaskSpan} {dependsOn : String → List String}

/-! ### The spans -/

/-- A node that a span says succeeded. -/
theorem hasSucceeded_iff {id : String} :
    hasSucceeded spans id = true ↔ ∃ sp, spans.get? id = some sp ∧ sp.status = .succeeded := by
  simp [hasSucceeded, Option.any_eq_true]

/-- The duration of a task, 0 without a span. -/
def duration (spans : Dict String TaskSpan) (id : String) : Int :=
  ((spans.get? id).map (·.durationMs)).getD 0

/-- The ids of the succeeded tasks, in the order of the dictionary. -/
def succeededIds (spans : Dict String TaskSpan) : List String :=
  (spans.entries.filter (fun e => e.2.status = .succeeded)).map (·.1)

/-- The ids of the succeeded tasks are those that the test accepts. -/
theorem mem_succeededIds {id : String} :
    id ∈ succeededIds spans ↔ hasSucceeded spans id = true := by
  unfold succeededIds
  rw [hasSucceeded_iff, List.mem_map]
  constructor
  · rintro ⟨e, he, rfl⟩
    obtain ⟨hmem, hst⟩ := List.mem_filter.mp he
    exact ⟨e.2, (spans.mem_entries e.1 e.2).mp hmem, of_decide_eq_true hst⟩
  · rintro ⟨sp, hsp, hst⟩
    exact ⟨(id, sp), List.mem_filter.mpr ⟨(spans.mem_entries id sp).mpr hsp,
      decide_eq_true hst⟩, rfl⟩

/-- There are no more succeeded tasks than spans. -/
theorem succeededIds_length (spans : Dict String TaskSpan) :
    (succeededIds spans).length ≤ spans.entries.length + 1 := by
  have := List.length_filter_le (fun e : String × TaskSpan => decide (e.2.status = .succeeded))
    spans.entries
  unfold succeededIds
  rw [List.length_map]
  omega

/-- The greatest duration of a chain of succeeded tasks that ends in a task. -/
noncomputable def totalOf (spans : Dict String TaskSpan) (dependsOn : String → List String) :
    String → Int :=
  LongestChain.total (okDeps (hasSucceeded spans) dependsOn) (duration spans)

/-- The dependency that `cost` records for a task. -/
noncomputable def prevOf (spans : Dict String TaskSpan) (dependsOn : String → List String) :
    String → Option String :=
  LongestChain.prevOf (okDeps (hasSucceeded spans) dependsOn) (duration spans) 0

/-! ### The table of `cost` -/

/-- The values of a node are right, and those of its dependencies are there. -/
structure Valued (spans : Dict String TaskSpan) (dependsOn : String → List String)
    (table : CostTable) (id : String) (c : Int) : Prop where
  cost : c = totalOf spans dependsOn id
  prev : table.bestPrev.get? id = some (prevOf spans dependsOn id)
  deps : ∀ d ∈ okDeps (hasSucceeded spans) dependsOn id, table.bestCost.contains d = true

/-- Every node in the table has its values. -/
def TableOk (spans : Dict String TaskSpan) (dependsOn : String → List String)
    (table : CostTable) : Prop :=
  ∀ id c, table.bestCost.get? id = some c → Valued spans dependsOn table id c

/-- A node that is not in the table is computed from its succeeded dependencies. -/
theorem cost_succ (spans : Dict String TaskSpan) (dependsOn : String → List String) (n : Nat)
    {node : String} {table : CostTable} (hnew : table.bestCost.get? node = none)
    (hok : hasSucceeded spans node = true) :
    let r := (okDeps (hasSucceeded spans) dependsOn node).foldl
      (fun (acc : Int × Option String × CostTable) d =>
        if (cost spans dependsOn n d acc.2.2).1 > acc.1 then
          ((cost spans dependsOn n d acc.2.2).1, some d, (cost spans dependsOn n d acc.2.2).2)
        else (acc.1, acc.2.1, (cost spans dependsOn n d acc.2.2).2)) (0, none, table)
    cost spans dependsOn (n + 1) node table
      = (duration spans node + r.1,
        { bestCost := r.2.2.bestCost.set node (duration spans node + r.1)
          bestPrev := r.2.2.bestPrev.set node r.2.1 }) := by
  obtain ⟨sp, hsp, hst⟩ := hasSucceeded_iff.mp hok
  have hown : duration spans node = sp.durationMs := by
    rw [duration, hsp]
    rfl
  -- The code skips what did not succeed inside the loop; here it is filtered out before.
  simp only [okDeps, List.foldl_filter, hown]
  rw [cost, hnew, hsp]
  simp only [hst, if_true]

/-- `cost` returns the greatest duration of a chain to a succeeded task and records it. -/
theorem cost_spec (hdur : ∀ x, 0 ≤ duration spans x) :
    ∀ (n : Nat) {node : String},
      LongestChain.Within (okDeps (hasSucceeded spans) dependsOn) n node →
      hasSucceeded spans node = true → ∀ {table : CostTable}, TableOk spans dependsOn table →
      (cost spans dependsOn n node table).1 = totalOf spans dependsOn node ∧
        TableOk spans dependsOn (cost spans dependsOn n node table).2 ∧
        (cost spans dependsOn n node table).2.bestCost.contains node = true ∧
        ∀ y, table.bestCost.contains y = true →
          (cost spans dependsOn n node table).2.bestCost.contains y = true := by
  intro n
  induction n with
  | zero => exact fun h => absurd h LongestChain.not_within_zero
  | succ n ih =>
      intro node hwithin hok table htable
      cases hnew : table.bestCost.get? node with
      | some c =>
          rw [cost, hnew]
          exact ⟨(htable node c hnew).cost, htable, (Dict.contains_iff _ _).mpr ⟨c, hnew⟩,
            fun _ hy => hy⟩
      | none =>
          rw [cost_succ spans dependsOn n hnew hok]
          -- The dependencies are one level closer to the ground: the induction covers their visits.
          obtain ⟨t, hfold, htable', hdone, hkeep⟩ := LongestChain.foldl_pick some 0 none
            (cost spans dependsOn n) (TableOk spans dependsOn)
            (fun d t => t.bestCost.contains d = true)
            (fun d hd t ht => ih (hwithin.pred hd) (mem_okDeps.mp hd).2 ht) htable
          have hrec : duration spans node + (LongestChain.pick (totalOf spans dependsOn) 0
              (okDeps (hasSucceeded spans) dependsOn node)).1 = totalOf spans dependsOn node := by
            unfold totalOf
            rw [LongestChain.total_eq hdur le_rfl hwithin,
              max_eq_left (LongestChain.floor_le_pick _ 0 _)]
          simp only [hfold, hrec, true_and]
          -- The table only grows.
          have hgrow : ∀ y, t.bestCost.contains y = true →
              (t.bestCost.set node (totalOf spans dependsOn node)).contains y = true := by
            intro y hy
            by_cases heq : y = node
            · simp [Dict.contains, heq]
            · rwa [Dict.contains, Dict.get?_set_ne _ _ heq]
          refine ⟨fun y c hy => ?_, by simp [Dict.contains], fun y hy => hgrow y (hkeep y hy)⟩
          by_cases heq : y = node
          · subst heq
            rw [Dict.get?_set_self] at hy
            cases hy
            refine ⟨rfl, ?_, fun d hd => hgrow d (hdone d hd)⟩
            rw [Dict.get?_set_self]
            cases hp : (LongestChain.pick (totalOf spans dependsOn) 0
              (okDeps (hasSucceeded spans) dependsOn y)).2 with
            | none => exact congrArg some hp.symm
            | some d => exact congrArg some hp.symm
          · rw [Dict.get?_set_ne _ _ heq] at hy
            have hval := htable' y c hy
            exact ⟨hval.cost, (Dict.get?_set_ne _ _ heq).trans hval.prev,
              fun d hd => hgrow d (hval.deps d hd)⟩

/-- The walk back along the recorded dependencies. -/
theorem chainFrom_eq {table : CostTable} (htable : TableOk spans dependsOn table) :
    ∀ (n : Nat) {node : String} (chain : List String), table.bestCost.contains node = true →
      chainFrom table.bestPrev n (some node) chain
        = LongestChain.trace (prevOf spans dependsOn) n node ++ chain := by
  intro n
  induction n with
  | zero => exact fun _ _ => rfl
  | succ n ih =>
      intro node chain hnode
      obtain ⟨c, hc⟩ := (Dict.contains_iff _ _).mp hnode
      have hval := htable node c hc
      rw [chainFrom, LongestChain.trace, hval.prev]
      -- The recorded predecessor is the one the library computes, and it has a cost of its own.
      cases hp : prevOf spans dependsOn node with
      | none =>
          show chainFrom table.bestPrev n none (node :: chain) = node :: chain
          cases n with
          | zero => rfl
          | succ n => rfl
      | some d =>
          have hd := LongestChain.prevOf_mem node d hp
          show chainFrom table.bestPrev n (some d) (node :: chain)
            = LongestChain.trace (prevOf spans dependsOn) n d ++ [node] ++ chain
          rw [ih _ (hval.deps d hd), List.append_assoc]
          rfl

/-! ### The path -/

/-- What is recorded for a task is one of its succeeded dependencies. -/
theorem mem_of_prevOf (x d : String) (h : prevOf spans dependsOn x = some d) :
    d ∈ okDeps (hasSucceeded spans) dependsOn x := LongestChain.prevOf_mem x d h

/-- A round of `max(succeeded, key=cost)`. The table of costs is carried along, as `cost` fills it
in. -/
def maxStep (spans : Dict String TaskSpan) (dependsOn : String → List String) (fuel : Nat)
    (acc : Option (Int × String) × CostTable) (id : String) : Option (Int × String) × CostTable :=
  let r := cost spans dependsOn fuel id acc.2
  match acc.1 with
  | none => (some (r.1, id), r.2)
  | some b => (if r.1 > b.1 then some (r.1, id) else some b, r.2)

/-- The path back from the end that `max` found, if it found one. -/
def pathTo (bestPrev : Dict String (Option String)) (fuel : Nat) :
    Option (Int × String) → List String
  | none => []
  | some b => chainFrom bestPrev fuel (some b.2) []

/-- The path, read back from the end that `max` finds. -/
theorem computeCriticalPath_max {best : Option (Int × String)} {table : CostTable}
    (h : (succeededIds spans).foldl (maxStep spans dependsOn (spans.entries.length + 1)) (none, {})
      = (best, table)) :
    computeCriticalPath spans dependsOn
      = pathTo table.bestPrev (spans.entries.length + 1) best := by
  have heq : computeCriticalPath spans dependsOn
      = pathTo ((succeededIds spans).foldl (maxStep spans dependsOn (spans.entries.length + 1))
          (none, {})).2.bestPrev (spans.entries.length + 1)
        ((succeededIds spans).foldl (maxStep spans dependsOn (spans.entries.length + 1))
          (none, {})).1 := rfl
  rw [heq, h]

/-- `compute_critical_path` reads its chain back from the first task with the greatest total. -/
theorem computeCriticalPath_eq (hdur : ∀ x, 0 ≤ duration spans x)
    (hacyclic : ¬ HasCycle dependsOn) :
    (succeededIds spans = [] ∧ computeCriticalPath spans dependsOn = []) ∨
      ∃ b, LongestChain.FirstBest (totalOf spans dependsOn) (succeededIds spans) b ∧
        computeCriticalPath spans dependsOn
          = LongestChain.trace (prevOf spans dependsOn) (spans.entries.length + 1) b := by
  have hwithin : ∀ {x : String}, hasSucceeded spans x = true →
      LongestChain.Within (okDeps (hasSucceeded spans) dependsOn) (spans.entries.length + 1) x :=
    fun hx => within_okDeps (fun _ => mem_succeededIds) hacyclic (succeededIds_length spans) hx
  have hnonneg : ∀ d ∈ succeededIds spans, (-1 : Int) < totalOf spans dependsOn d := by
    intro d hd
    have := LongestChain.total_nonneg hdur (hwithin (mem_succeededIds.mp hd))
    unfold totalOf
    omega
  -- `max` over the succeeded tasks fills the cost table as it goes, and the table keeps its
  -- invariant on the way.
  obtain ⟨t, hfold, htable, hdone⟩ := LongestChain.foldl_max
    (cost spans dependsOn (spans.entries.length + 1))
    (maxStep spans dependsOn (spans.entries.length + 1)) (fun _ _ => rfl) (fun _ _ _ => rfl)
    (TableOk spans dependsOn) (fun id t => t.bestCost.contains id = true)
    (fun id hid t ht => cost_spec hdur _ (hwithin (mem_succeededIds.mp hid))
      (mem_succeededIds.mp hid) ht) hnonneg (s := {}) (fun id c hc => (by cases hc))
  have hpath := computeCriticalPath_max hfold
  cases hp : (LongestChain.pick (totalOf spans dependsOn) (-1) (succeededIds spans)).2 with
  | none =>
      rw [hp] at hpath
      refine Or.inl ⟨List.eq_nil_iff_forall_not_mem.mpr fun d hd => ?_, hpath⟩
      have := hnonneg d hd
      have := (LongestChain.pick_none hp).1 d hd
      omega
  | some b =>
      rw [hp] at hpath
      have hbest := (LongestChain.pick_some hp).1
      refine Or.inr ⟨b, hbest, hpath.trans ?_⟩
      show chainFrom t.bestPrev (spans.entries.length + 1) (some b) [] = _
      rw [chainFrom_eq htable _ _ (hdone b hbest.mem), List.append_nil]

/-- The engine has spans with the same outcomes and durations. -/
def SameSpans (spans : Dict String TaskSpan) (goSpans : Dict String Engine.TaskSpan) : Prop :=
  ∀ id, (spans.get? id).map (fun s => (s.status, s.durationMs))
    = (goSpans.get? id).map (fun s => (s.status, s.durationMs))

/-- What a path has to be: empty when no task succeeded, a heaviest chain that starts and ends
clean when one did, and as long as the path of the engine, whose ids are not empty. -/
structure PathOk (spans : Dict String TaskSpan) (dependsOn : String → List String)
    (path : List String) : Prop where
  empty_iff : path = [] ↔ ∀ id, hasSucceeded spans id = false
  critical : path ≠ [] → Critical (hasSucceeded spans) (duration spans) dependsOn path
  sameTotal : ∀ (iter : Engine.MapOrder) (goSpans : Dict String Engine.TaskSpan),
    SameSpans spans goSpans → goSpans.get? "" = none →
    LongestChain.weight (duration spans) path
      = LongestChain.weight (Proofs.duration goSpans) (Engine.criticalPath iter goSpans dependsOn)

/-- Going back along the first dependency of greatest total, as long as that is positive, leads to
a task without succeeded dependencies. -/
inductive LeadsBack (spans : Dict String TaskSpan) (dependsOn : String → List String) :
    String → Prop
  | source {x : String} (hnone : okDeps (hasSucceeded spans) dependsOn x = []) :
      LeadsBack spans dependsOn x
  | step {x d : String} (hbest : LongestChain.FirstBest (totalOf spans dependsOn)
        (okDeps (hasSucceeded spans) dependsOn x) d) (hpos : 0 < totalOf spans dependsOn d)
      (hd : LeadsBack spans dependsOn d) : LeadsBack spans dependsOn x

/-- The first task with the greatest total has no succeeded dependent, and leads back to a task
without succeeded dependencies. -/
def Unprolonged (spans : Dict String TaskSpan) (dependsOn : String → List String) : Prop :=
  ∀ b, LongestChain.FirstBest (totalOf spans dependsOn) (succeededIds spans) b →
    (∀ t, hasSucceeded spans t = true → b ∉ dependsOn t) ∧ LeadsBack spans dependsOn b

/-- The chain to a task starts clean exactly when the task leads back to one without succeeded
dependencies. -/
theorem startsClean_trace_iff {n : Nat} {b : String}
    (hwithin : LongestChain.Within (okDeps (hasSucceeded spans) dependsOn) n b) :
    StartsClean (hasSucceeded spans) dependsOn
        (LongestChain.trace (prevOf spans dependsOn) n b) ↔ LeadsBack spans dependsOn b := by
  induction n generalizing b with
  | zero => exact absurd hwithin LongestChain.not_within_zero
  | succ n ih =>
      unfold LongestChain.trace
      cases hp : prevOf spans dependsOn b with
      | none =>
          -- Nothing was recorded, so the chain is the task alone.
          have hzero := (LongestChain.pick_none hp).1
          constructor
          · intro h
            refine .source (List.eq_nil_iff_forall_not_mem.mpr fun d hd => ?_)
            obtain ⟨hdep, hok⟩ := mem_okDeps.mp hd
            rw [h b rfl d hdep] at hok
            cases hok
          · intro h x hx d hd
            cases hx
            cases h with
            | source hnone =>
                by_contra hok
                have hmem := mem_okDeps.mpr ⟨hd, by simpa using hok⟩
                rw [hnone] at hmem
                cases hmem
            | step hbest hpos _ =>
                exact absurd (hzero _ hbest.mem) (not_le.mpr hpos)
      | some d =>
          obtain ⟨hbest, hpos, -⟩ := LongestChain.pick_some hp
          have hd := hwithin.pred hbest.mem
          obtain ⟨z, c, hc⟩ := List.exists_cons_of_ne_nil
            (LongestChain.chainTo_trace mem_of_prevOf hd).ne_nil
          -- The chain starts where the one to the dependency starts.
          have hhead : StartsClean (hasSucceeded spans) dependsOn
                (LongestChain.trace (prevOf spans dependsOn) n d ++ [b])
              ↔ StartsClean (hasSucceeded spans) dependsOn
                (LongestChain.trace (prevOf spans dependsOn) n d) := by
            unfold StartsClean
            rw [hc]
            rfl
          rw [hhead, ih hd]
          constructor
          · exact fun h => .step hbest hpos h
          · intro h
            cases h with
            | source hnone =>
                have hmem := hbest.mem
                rw [hnone] at hmem
                cases hmem
            | step hbest' _ h => exact hbest.unique hbest' ▸ h

/-- The path of the Python engine is always a heaviest chain. -/
theorem computeCriticalPath_longest (hdur : ∀ x, 0 ≤ duration spans x)
    (hacyclic : ¬ HasCycle dependsOn) {id : String} (hid : hasSucceeded spans id = true) :
    ∃ b, LongestChain.FirstBest (totalOf spans dependsOn) (succeededIds spans) b ∧
      computeCriticalPath spans dependsOn
        = LongestChain.trace (prevOf spans dependsOn) (spans.entries.length + 1) b ∧
      Longest (hasSucceeded spans) (duration spans) dependsOn
        (computeCriticalPath spans dependsOn) := by
  rcases computeCriticalPath_eq hdur hacyclic with ⟨hnil, -⟩ | ⟨b, hbest, heq⟩
  · have hmem := mem_succeededIds.mpr hid
    rw [hnil] at hmem
    cases hmem
  · refine ⟨b, hbest, heq, ?_⟩
    rw [heq]
    exact longest_trace hdur (fun _ => mem_succeededIds) hacyclic le_rfl
      (succeededIds_length spans) (mem_succeededIds.mp hbest.mem)
      fun x hx => hbest.le x (mem_succeededIds.mpr hx)

/-- Without a succeeded task there is no path. -/
theorem computeCriticalPath_nil (hdur : ∀ x, 0 ≤ duration spans x)
    (hacyclic : ¬ HasCycle dependsOn) (h : ∀ id, hasSucceeded spans id = false) :
    computeCriticalPath spans dependsOn = [] := by
  rcases computeCriticalPath_eq hdur hacyclic with ⟨-, hnil⟩ | ⟨b, hbest, -⟩
  · exact hnil
  · have hb := mem_succeededIds.mp hbest.mem
    rw [h b] at hb
    cases hb

/-- A task without a span counts as 0 ms, so no duration is negative. -/
theorem duration_nonneg (h : ∀ id sp, spans.get? id = some sp → 0 ≤ sp.durationMs) (x : String) :
    0 ≤ duration spans x := by
  unfold duration
  cases hx : spans.get? x with
  | none => exact le_rfl
  | some sp => exact h x sp hx

/-- The same tasks have succeeded in both engines. -/
theorem SameSpans.hasSucceeded {goSpans : Dict String Engine.TaskSpan}
    (h : SameSpans spans goSpans) : Engine.hasSucceeded goSpans = hasSucceeded spans := by
  funext id
  have hid := h id
  unfold Engine.hasSucceeded Runner.hasSucceeded
  cases hs : spans.get? id <;> cases hg : goSpans.get? id <;> simp_all

/-- The tasks have the same durations in both engines. -/
theorem SameSpans.duration {goSpans : Dict String Engine.TaskSpan} (h : SameSpans spans goSpans) :
    Proofs.duration goSpans = duration spans := by
  funext id
  have hid := h id
  unfold Proofs.duration Runner.duration
  cases hs : spans.get? id <;> cases hg : goSpans.get? id <;> simp_all

/-- The paths of both engines are equally long. -/
theorem sameTotal (hdur : ∀ x, 0 ≤ duration spans x) (hacyclic : ¬ HasCycle dependsOn)
    {iter : Engine.MapOrder} {goSpans : Dict String Engine.TaskSpan}
    (hsame : SameSpans spans goSpans) (hids : goSpans.get? "" = none) :
    LongestChain.weight (duration spans) (computeCriticalPath spans dependsOn)
      = LongestChain.weight (Proofs.duration goSpans)
          (Engine.criticalPath iter goSpans dependsOn) := by
  -- With a succeeded task both chains are longest ones, each by its own proof; without one both are
  -- empty.
  by_cases hsome : ∃ id, hasSucceeded spans id = true
  · obtain ⟨id, hid⟩ := hsome
    obtain ⟨b, -, -, hlong⟩ := computeCriticalPath_longest hdur hacyclic hid
    have hgo := (Proofs.criticalPath_critical hids (hsame.duration ▸ hdur) hacyclic iter
      (hsame.hasSucceeded ▸ hid)).toLongest
    rw [hsame.hasSucceeded, hsame.duration] at hgo
    rw [hsame.duration]
    exact le_antisymm (hgo.longest _ hlong.toDependencyChain)
      (hlong.longest _ hgo.toDependencyChain)
  · have hnone : ∀ id, hasSucceeded spans id = false := fun id => by
      by_contra hid
      exact hsome ⟨id, by simpa using hid⟩
    rw [computeCriticalPath_nil hdur hacyclic hnone,
      Proofs.criticalPath_nil (hsame.hasSucceeded ▸ hnone)]
    rfl

/-- Where every succeeded task took some time, no chain stops short. -/
theorem unprolonged_of_pos (hdur : ∀ x, 0 ≤ duration spans x)
    (hacyclic : ¬ HasCycle dependsOn)
    (hpos : ∀ x, hasSucceeded spans x = true → 0 < duration spans x) :
    Unprolonged spans dependsOn := by
  have hwithin : ∀ {n : Nat}, (succeededIds spans).length ≤ n → ∀ {x : String},
      hasSucceeded spans x = true →
      LongestChain.Within (okDeps (hasSucceeded spans) dependsOn) n x :=
    fun hn _ hx => within_okDeps (fun _ => mem_succeededIds) hacyclic hn hx
  -- A task that took time costs more than each of its dependencies.
  have htotal : ∀ {x d : String}, hasSucceeded spans x = true →
      d ∈ okDeps (hasSucceeded spans) dependsOn x →
      totalOf spans dependsOn d < totalOf spans dependsOn x := by
    intro x d hx hd
    have hxn := hwithin (Nat.le_succ _) hx
    obtain ⟨c, hc, hw⟩ := (LongestChain.isGreatest_total hdur (hxn.pred hd)).1
    have hle := (LongestChain.isGreatest_total hdur hxn).2 ⟨c ++ [x], hc.snoc hd, rfl⟩
    have := hpos x hx
    rw [LongestChain.weight_snoc, hw] at hle
    unfold totalOf
    omega
  -- So every chain of recorded dependencies ends where there is none.
  have hback : ∀ (n : Nat) (x : String), hasSucceeded spans x = true →
      LongestChain.Within (okDeps (hasSucceeded spans) dependsOn) n x →
      LeadsBack spans dependsOn x := by
    intro n
    induction n with
    | zero => exact fun x _ h => absurd h LongestChain.not_within_zero
    | succ n ih =>
        intro x hx h
        cases hp : prevOf spans dependsOn x with
        | none =>
            refine .source (List.eq_nil_iff_forall_not_mem.mpr fun d hd => ?_)
            obtain ⟨-, hdok⟩ := mem_okDeps.mp hd
            have hzero := (LongestChain.pick_none hp).1 d hd
            have hle := (LongestChain.isGreatest_total hdur (h.pred hd)).2
              ⟨[d], .single d, LongestChain.weight_single d⟩
            have := hpos d hdok
            omega
        | some d =>
            obtain ⟨hbest, hd, -⟩ := LongestChain.pick_some hp
            exact .step hbest hd (ih d (mem_okDeps.mp hbest.mem).2 (h.pred hbest.mem))
  intro b hb
  have hbok := mem_succeededIds.mp hb.mem
  refine ⟨fun t ht hbt => ?_, hback _ b hbok (hwithin le_rfl hbok)⟩
  have hlt := htotal ht (mem_okDeps.mpr ⟨hbt, hbok⟩)
  exact absurd (hb.le t (mem_succeededIds.mpr ht)) (not_le.mpr hlt)

/-- Two succeeded tasks, by their durations. -/
def pairSpans (a b : Int) : Dict String TaskSpan :=
  (Dict.empty.set "a" { id := "a", status := .succeeded, durationMs := a }).set "b"
    { id := "b", status := .succeeded, durationMs := b }

/-- The durations of the example are not negative. -/
theorem pairSpans_nonneg {a b : Int} (ha : 0 ≤ a) (hb : 0 ≤ b) :
    ∀ id sp, (pairSpans a b).get? id = some sp → 0 ≤ sp.durationMs := by
  intro id sp h
  have hmem : (id, sp) ∈ (pairSpans a b).entries := ((pairSpans a b).mem_entries id sp).mpr h
  rcases List.mem_cons.mp hmem with heq | hmem
  · cases heq
    exact ha
  · cases List.mem_singleton.mp hmem
    exact hb

end Orchestrator.Sdk.Runner
