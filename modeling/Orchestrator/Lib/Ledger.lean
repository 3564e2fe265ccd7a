import Mathlib.Data.List.Count
import Mathlib.Logic.Relation
import Orchestrator.Lib.Walk

/-!
# `Orchestrator.Lib.Ledger`: the books of a dependency-driven scheduler

A scheduler that starts a node when its dependencies are done keeps four books: an in-degree counter
per node, a queue of ready nodes, the nodes it has started, and a label for each node it is finished
with. `Ledger` is that record, over any node type `α` and label type `β`. `good` says which labels
let dependents start, and `skip` is the label of a node that will never start.

A dependency may be listed twice. The counter then starts at two, and the child is released twice by
the one label, so the counters count edges and not nodes.

`Ledger.Inv` ties the books together. The rules keep it:

* `inv_init`: the books before the first start;
* `Inv.start`: the head of the queue moves to the started nodes;
* `Inv.good_label`: a started node gets a good label and `release` lowers its children;
* `Inv.bad_label`: a started node gets a bad label and a `walk` skips what depends on it.

`Inv.complete` is the payoff: in an acyclic graph, an empty queue and a label on every started node
put a label on every node. `Inv.started_iff` then says which nodes have started, without the books:
those whose transitive dependencies all succeed.

`Safe` is the part of `Inv` that survives when a scheduler stops propagating labels and only records
them (`Safe.record`, `Safe.clear`). It is enough for what may start and in which order, and not
enough for what gets a label.
-/

set_option autoImplicit false

namespace Orchestrator.Lib

universe u v

variable {α : Type u} {β : Type v}

/-! ### Children and the in-degree counters -/

section

variable [DecidableEq α]

/-- The nodes that depend on `d`, once for each time they list `d`, in the order of `nodes`. -/
def childrenOf (nodes : List α) (deps : α → List α) (d : α) : List α :=
  nodes.flatMap (fun t => ((deps t).filter (fun x => x = d)).map (fun _ => t))

/-- A child of `d` is a node that lists `d`. -/
theorem mem_childrenOf {nodes : List α} {deps : α → List α} {d t : α} :
    t ∈ childrenOf nodes deps d ↔ t ∈ nodes ∧ d ∈ deps t := by
  simp only [childrenOf, List.mem_flatMap, List.mem_map, List.mem_filter, decide_eq_true_iff]
  constructor
  · rintro ⟨a, ha, x, ⟨hx, rfl⟩, rfl⟩
    exact ⟨ha, hx⟩
  · rintro ⟨ht, hd⟩
    exact ⟨t, ht, d, ⟨hd, rfl⟩, rfl⟩

/-- A node occurs among the children of `d` as often as it lists `d`. -/
theorem count_childrenOf {nodes : List α} (hnd : nodes.Nodup) {deps : α → List α} {d t : α}
    (ht : t ∈ nodes) : (childrenOf nodes deps d).count t = (deps t).count d := by
  induction nodes with
  | nil => simp at ht
  | cons a nodes ih =>
      rw [List.nodup_cons] at hnd
      have hcons : childrenOf (a :: nodes) deps d
          = ((deps a).filter (fun x => x = d)).map (fun _ => a) ++ childrenOf nodes deps d := rfl
      rw [hcons, List.count_append, List.map_const']
      -- The node itself adds itself once for each entry of `d` among its dependencies, and every
      -- other node adds other nodes.
      by_cases ha : a = t
      · subst ha
        have hrest : (childrenOf nodes deps d).count a = 0 :=
          List.count_eq_zero.mpr fun h => hnd.1 (mem_childrenOf.mp h).1
        rw [hrest, List.count_replicate_self, Nat.add_zero, List.count,
          List.countP_eq_length_filter]
        congr 1
      · rw [ih hnd.2 ((List.mem_cons.mp ht).resolve_left (Ne.symm ha)), List.count_replicate]
        simp [ha]

/-- Lower the counter of each listed node by one and queue the nodes whose counter reaches zero. A
node that is listed twice is lowered twice and queued at most once. -/
def release (cs : List α) (indeg : α → Int) (ready : List α) : (α → Int) × List α :=
  cs.foldl (fun p c =>
    let n := p.1 c - 1
    (Function.update p.1 c n, if n = 0 then p.2 ++ [c] else p.2)) (indeg, ready)

/-- One round of `release`. -/
theorem release_cons (c : α) (cs : List α) (indeg : α → Int) (ready : List α) :
    release (c :: cs) indeg ready
      = release cs (Function.update indeg c (indeg c - 1))
          (if indeg c - 1 = 0 then ready ++ [c] else ready) := rfl

/-- `release` lowers a counter by the number of times the node is listed. -/
theorem release_indeg (cs : List α) (indeg : α → Int) (ready : List α) (t : α) :
    (release cs indeg ready).1 t = indeg t - cs.count t := by
  induction cs generalizing indeg ready with
  | nil => simp [release]
  | cons c cs ih =>
      rw [release_cons, ih]
      by_cases h : t = c
      · subst h
        simp only [Function.update_self, List.count_cons_self]
        push_cast
        omega
      · simp [Function.update_of_ne h, Ne.symm h]

/-- `release` queues the nodes whose counter passes through zero: it was positive before, and the
node occurs often enough in the list to use it up. -/
theorem mem_release (cs : List α) (indeg : α → Int) (ready : List α) (t : α) :
    t ∈ (release cs indeg ready).2 ↔ t ∈ ready ∨ (1 ≤ indeg t ∧ indeg t ≤ cs.count t) := by
  induction cs generalizing indeg ready with
  | nil =>
      have : ¬ (1 ≤ indeg t ∧ indeg t ≤ 0) := by omega
      simp [release, this]
  | cons c cs ih =>
      rw [release_cons, ih]
      -- The head of the list concerns `t` or leaves its counter alone.
      by_cases h : t = c
      · subst h
        simp only [Function.update_self, List.count_cons_self]
        split
        · simp only [List.mem_append, List.mem_singleton, or_true, true_or, true_iff]
          right
          omega
        · constructor
          · rintro (h | h)
            · exact Or.inl h
            · right
              push_cast
              omega
          · rintro (h | h)
            · exact Or.inl h
            · right
              push_cast at h
              omega
      · have hc : (c :: cs).count t = cs.count t := by simp [Ne.symm h]
        rw [Function.update_of_ne h, hc]
        split
        · simp [h]
        · rfl

/-- `release` queues no node twice when the queued nodes have no counter left. A node that occurs
twice in the list is queued at the second occurrence only. -/
theorem nodup_release (cs : List α) (indeg : α → Int) (ready : List α) (hnd : ready.Nodup)
    (hready : ∀ t ∈ ready, indeg t ≤ 0) : (release cs indeg ready).2.Nodup := by
  induction cs generalizing indeg ready with
  | nil => exact hnd
  | cons c cs ih =>
      rw [release_cons]
      -- A node is queued when its counter becomes zero, and it was positive before. So it was not
      -- in the queue, and afterwards its counter is used up.
      refine ih _ _ ?_ ?_
      · split
        · refine List.Nodup.append hnd (List.nodup_singleton c) ?_
          rw [List.disjoint_singleton]
          intro hc
          have := hready c hc
          omega
        · exact hnd
      · intro t ht
        have hkeep : t ∈ ready → Function.update indeg c (indeg c - 1) t ≤ 0 := by
          intro ht
          have := hready t ht
          by_cases h : t = c
          · subst h
            rw [Function.update_self]
            omega
          · rwa [Function.update_of_ne h]
        split at ht
        · rcases List.mem_append.mp ht with ht | ht
          · exact hkeep ht
          · rw [List.mem_singleton] at ht
            subst ht
            rw [Function.update_self]
            omega
        · exact hkeep ht

end

/-! ### The books and their invariant -/

/-- The books of a scheduler: what each node still waits for, what may start, what has started, and
how it ended.

A node is in none of the last three until its count comes down to zero. Then it moves through them
in this order, or a failure upstream labels it before it starts. The invariant `Inv` says that the
counts and the labels always agree. -/
structure Ledger (α : Type u) (β : Type v) where
  /-- The dependencies a node still waits for, counted with repetition. -/
  indeg : α → Int
  /-- The nodes that may start, first come first. -/
  ready : List α
  /-- The nodes that have started, oldest first. -/
  started : List α
  /-- The label of a node the scheduler is finished with. -/
  label : α → Option β

namespace Ledger

variable (nodes : List α) (deps : α → List α) (good : β → Bool) (skip : β)

/-- The node has a label that lets its dependents start. -/
def isGood (L : Ledger α β) (t : α) : Bool := (L.label t).any good

/-- The node has a label that does not. -/
def IsBad (L : Ledger α β) (t : α) : Prop := ∃ b, L.label t = some b ∧ good b = false

/-- What the books promise about the nodes that started or may start, whatever happens to the labels
of the others: each is listed once, is a node of the graph, and has good dependencies only. -/
structure Safe (L : Ledger α β) : Prop where
  nodup : (L.started ++ L.ready).Nodup
  mem : ∀ t ∈ L.started ++ L.ready, t ∈ nodes
  deps_good : ∀ t ∈ L.started ++ L.ready, ∀ d ∈ deps t, L.isGood good d = true
  good_started : ∀ t, L.isGood good t = true → t ∈ L.started

/-- The invariant of a scheduler that propagates every label. The counter of a node counts its
dependencies that are not good. A node without any has started or is queued. A label of a node that
never started is a skip, and has a bad dependency behind it. A node with a bad dependency has a
label. -/
structure Inv (L : Ledger α β) : Prop extends Safe nodes deps good L where
  indeg_eq : ∀ t ∈ nodes, L.indeg t = (deps t).countP (fun d => !L.isGood good d)
  enabled : ∀ t ∈ nodes, (∀ d ∈ deps t, L.isGood good d = true) → t ∈ L.started ++ L.ready
  reason : ∀ t b, L.label t = some b →
    t ∈ L.started ∨ (t ∈ nodes ∧ b = skip ∧ ∃ d ∈ deps t, L.IsBad good d)
  closed : ∀ d, L.IsBad good d → ∀ t ∈ nodes, d ∈ deps t → L.label t ≠ none

variable {nodes deps good skip}

/-- A node is good when it has a good label. -/
theorem isGood_iff {L : Ledger α β} {t : α} :
    L.isGood good t = true ↔ ∃ b, L.label t = some b ∧ good b = true := by
  rw [isGood, Option.any_eq_true]

/-- A bad node is not good. -/
theorem IsBad.not_good {L : Ledger α β} {t : α} (h : L.IsBad good t) :
    ¬ L.isGood good t = true := by
  obtain ⟨b, hb, hbad⟩ := h
  simp [isGood, hb, hbad]

/-- A labelled node is good or bad. -/
theorem good_or_bad (good : β → Bool) {L : Ledger α β} {t : α} (h : L.label t ≠ none) :
    L.isGood good t = true ∨ L.IsBad good t := by
  obtain ⟨b, hb⟩ := Option.ne_none_iff_exists'.mp h
  cases hg : good b with
  | true => exact Or.inl (isGood_iff.mpr ⟨b, hb, hg⟩)
  | false => exact Or.inr ⟨b, hb, hg⟩

/-- A queued node has no label. -/
theorem Inv.ready_unlabelled {L : Ledger α β} (h : Inv nodes deps good skip L) {t : α}
    (ht : t ∈ L.ready) : L.label t = none := by
  by_contra hl
  obtain ⟨b, hb⟩ := Option.ne_none_iff_exists'.mp hl
  rcases h.reason t b hb with hs | ⟨_, _, d, hd, hbad⟩
  · exact List.disjoint_of_nodup_append h.nodup hs ht
  · exact hbad.not_good (h.deps_good t (List.mem_append_right _ ht) d hd)

/-- The books before the first start: every counter is the number of dependencies, and the nodes
without any are ready. -/
theorem inv_init (hnd : nodes.Nodup) (L : Ledger α β)
    (hindeg : ∀ t ∈ nodes, L.indeg t = (deps t).length)
    (hready : L.ready = nodes.filter (fun t => L.indeg t = 0)) (hstarted : L.started = [])
    (hlabel : ∀ t, L.label t = none) : Inv nodes deps good skip L := by
  have hgood : ∀ t, L.isGood good t = false := fun t => by simp [isGood, hlabel]
  have hnil : ∀ t ∈ nodes, L.indeg t = 0 → deps t = [] := by
    intro t ht h0
    rw [hindeg t ht] at h0
    exact List.eq_nil_of_length_eq_zero (by omega)
  -- No node has a label, so a counter counts every edge, and it is zero where there is none.
  refine ⟨⟨?_, ?_, ?_, ?_⟩, ?_, ?_, ?_, ?_⟩
  · rw [hstarted, hready]
    exact hnd.filter _
  · intro t ht
    rw [hstarted, hready] at ht
    exact (List.mem_filter.mp ht).1
  · intro t ht d hd
    rw [hstarted, hready, List.nil_append, List.mem_filter, decide_eq_true_iff] at ht
    rw [hnil t ht.1 ht.2] at hd
    cases hd
  · intro t ht
    rw [hgood] at ht
    cases ht
  · intro t ht
    rw [hindeg t ht, List.countP_eq_length.mpr (by simp [hgood])]
  · intro t ht hd
    have h0 : deps t = [] := by
      cases hdeps : deps t with
      | nil => rfl
      | cons d ds =>
          have := hd d (by simp [hdeps])
          rw [hgood] at this
          cases this
    rw [hstarted, hready, List.nil_append, List.mem_filter, decide_eq_true_iff]
    exact ⟨ht, by simp [hindeg t ht, h0]⟩
  · intro t b hb
    rw [hlabel] at hb
    cases hb
  · rintro d ⟨b, hb, _⟩
    rw [hlabel] at hb
    cases hb

/-- Starting the head of the queue keeps the books. The node goes from one list to the other, and no
other clause mentions the lists apart. -/
theorem Inv.start {L : Ledger α β} (h : Inv nodes deps good skip L) {t : α} {rest : List α}
    (hr : L.ready = t :: rest) :
    Inv nodes deps good skip { L with ready := rest, started := L.started ++ [t] } := by
  -- The started and the queued nodes together are the same list as before.
  have happ : L.started ++ [t] ++ rest = L.started ++ L.ready := by simp [hr]
  have hgood : ∀ d, isGood good { L with ready := rest, started := L.started ++ [t] } d
      = L.isGood good d := fun _ => rfl
  refine ⟨⟨?_, ?_, ?_, ?_⟩, h.indeg_eq, ?_, ?_, h.closed⟩
  · exact happ ▸ h.nodup
  · exact happ ▸ h.mem
  · exact happ ▸ h.deps_good
  · exact fun d hd => List.mem_append_left _ (h.good_started d hd)
  · intro d hd hdeps
    rw [happ]
    exact h.enabled d hd hdeps
  · intro d b hb
    exact (h.reason d b hb).imp_left (List.mem_append_left _)

/-- Labels that leave the good nodes alone keep `Safe`. -/
theorem Safe.labels {L : Ledger α β} (h : Safe nodes deps good L) (label : α → Option β)
    (hgood : ∀ d, isGood good { L with label := label } d = L.isGood good d) :
    Safe nodes deps good { L with label := label } := by
  refine ⟨h.nodup, h.mem, fun d hd x hx => ?_, fun d hd => ?_⟩
  · rw [hgood]
    exact h.deps_good d hd x hx
  · rw [hgood] at hd
    exact h.good_started d hd

/-- Every transitive dependency of a node that started or may start is good. -/
theorem Safe.transGen_good {L : Ledger α β} (h : Safe nodes deps good L) {d t : α}
    (ht : t ∈ L.started ++ L.ready)
    (hd : Relation.TransGen (fun d t => d ∈ deps t) d t) : L.isGood good d = true := by
  induction hd using Relation.TransGen.head_induction_on with
  | single hd => exact h.deps_good t ht _ hd
  | head hd _ ih => exact h.deps_good _ (List.mem_append_left _ (h.good_started _ ih)) _ hd

/-- Emptying the queue keeps `Safe`. -/
theorem Safe.clear {L : Ledger α β} (h : Safe nodes deps good L) :
    Safe nodes deps good { L with ready := [] } := by
  refine ⟨?_, ?_, ?_, h.good_started⟩
  · simpa using List.Nodup.of_append_left h.nodup
  · intro t ht
    exact h.mem t (List.mem_append_left _ (by simpa using ht))
  · intro t ht
    exact h.deps_good t (List.mem_append_left _ (by simpa using ht))

/-- In an acyclic graph, an empty queue and a label on every started node put a label on every node.
A node whose dependencies are all good has started. Any other has a dependency that is labelled by
induction, is not good, and so is bad. -/
theorem Inv.complete {L : Ledger α β} (h : Inv nodes deps good skip L)
    (hdeps : ∀ t ∈ nodes, ∀ d ∈ deps t, d ∈ nodes)
    (hacc : ∀ t ∈ nodes, Acc (fun d t => d ∈ deps t) t) (hready : L.ready = [])
    (hstarted : ∀ t ∈ L.started, L.label t ≠ none) : ∀ t ∈ nodes, L.label t ≠ none := by
  intro t ht
  induction hacc t ht with
  | intro t _ ih =>
      by_cases hall : ∀ d ∈ deps t, L.isGood good d = true
      · have := h.enabled t ht hall
        rw [hready, List.append_nil] at this
        exact hstarted t this
      · push Not at hall
        obtain ⟨d, hd, hng⟩ := hall
        rcases good_or_bad good (ih d hd (hdeps t ht d hd)) with hg | hb
        · exact absurd hg hng
        · exact h.closed d hb t ht hd

/-- In an acyclic graph, once the queue is empty, the started nodes are those whose transitive
dependencies are all fine, where a started node is good exactly when it is fine. The right side does
not mention the books. -/
theorem Inv.started_iff {L : Ledger α β} (h : Inv nodes deps good skip L)
    (hdeps : ∀ t ∈ nodes, ∀ d ∈ deps t, d ∈ nodes)
    (hacc : ∀ t ∈ nodes, Acc (fun d t => d ∈ deps t) t) (hready : L.ready = []) {ok : α → Prop}
    (hok : ∀ t ∈ L.started, L.isGood good t = true ↔ ok t) {t : α} (ht : t ∈ nodes) :
    t ∈ L.started ↔ ∀ d, Relation.TransGen (fun d t => d ∈ deps t) d t → ok d := by
  constructor
  · intro hs d hd
    have hgood := h.transGen_good (List.mem_append_left _ hs) hd
    exact (hok d (h.good_started d hgood)).mp hgood
  · intro hall
    induction hacc t ht with
    | intro t _ ih =>
        -- The dependencies have started by induction, so they are good, and so `t` has started.
        have hgood : ∀ d ∈ deps t, L.isGood good d = true := by
          intro d hd
          have hs := ih d hd (hdeps t ht d hd) fun x hx => hall x (hx.tail hd)
          exact (hok d hs).mpr (hall d (.single hd))
        have hmem := h.enabled t ht hgood
        rwa [hready, List.append_nil] at hmem

/-- Behind every bad node there is a bad node that started: a skip has a bad dependency, and in an
acyclic graph going back along them ends. -/
theorem Inv.exists_bad_started {L : Ledger α β} (h : Inv nodes deps good skip L) {t : α}
    (hacc : Acc (fun d t => d ∈ deps t) t) (hb : L.IsBad good t) :
    ∃ r ∈ L.started, L.IsBad good r ∧ Relation.ReflTransGen (fun d t => d ∈ deps t) r t := by
  induction hacc with
  | intro t _ ih =>
      obtain ⟨b, hl, hbad⟩ := hb
      rcases h.reason t b hl with hs | ⟨-, -, d, hd, hbd⟩
      · exact ⟨t, hs, ⟨b, hl, hbad⟩, .refl⟩
      · obtain ⟨r, hr, hbr, hreach⟩ := ih d hd hbd
        exact ⟨r, hr, hbr, hreach.tail hd⟩

/-- The counter of a node that started or may start is used up: its dependencies are good. -/
theorem Inv.indeg_eq_zero {L : Ledger α β} (h : Inv nodes deps good skip L) {c : α}
    (hc : c ∈ L.started ++ L.ready) : L.indeg c = 0 := by
  have hzero : (deps c).countP (fun d => !L.isGood good d) = 0 :=
    List.countP_eq_zero.mpr fun d hd => by simp [h.deps_good c hc d hd]
  rw [h.indeg_eq c (h.mem c hc), hzero]
  rfl

variable [DecidableEq α]

/-- A started node gets a label and nothing else happens. -/
theorem Safe.record {L : Ledger α β} (h : Safe nodes deps good L) {t : α} (b : β)
    (ht : t ∈ L.started) (hl : L.label t = none) :
    Safe nodes deps good { L with label := Function.update L.label t (some b) } := by
  have hmono : ∀ d, L.isGood good d = true →
      isGood good { L with label := Function.update L.label t (some b) } d = true := by
    intro d hd
    have hne : d ≠ t := by
      rintro rfl
      simp [isGood, hl] at hd
    simpa [isGood, Function.update_of_ne hne] using hd
  refine ⟨h.nodup, h.mem, fun d hd x hx => hmono x (h.deps_good d hd x hx), ?_⟩
  intro d hd
  by_cases hdt : d = t
  · exact hdt ▸ ht
  · exact h.good_started d (by simpa [isGood, Function.update_of_ne hdt] using hd)

/-- The dependencies that are not good, when `t` has no label: the occurrences of `t`, and those
among the others. The good label of `t` takes the first part away and leaves the second one. -/
theorem countP_not_good {L : Ledger α β} {t : α} (hl : L.label t = none) (ds : List α) :
    ds.countP (fun d => !L.isGood good d)
      = ds.count t + (ds.filter (fun x => x ≠ t)).countP (fun d => !L.isGood good d) := by
  have hnone : L.isGood good t = false := by simp [isGood, hl]
  induction ds with
  | nil => rfl
  | cons x xs ih =>
      by_cases hx : x = t
      · subst hx
        simp [hnone] at ih ⊢
        omega
      · simp [hx, List.countP_cons] at ih ⊢
        omega

/-- The books after a good label `b` for `t`: the children of `t` are released. -/
def finish (nodes : List α) (deps : α → List α) (L : Ledger α β) (t : α) (b : β) : Ledger α β :=
  { L with
      indeg := (release (childrenOf nodes deps t) L.indeg L.ready).1
      ready := (release (childrenOf nodes deps t) L.indeg L.ready).2
      label := Function.update L.label t (some b) }

section Finish

variable {L : Ledger α β} {t : α} {b : β}

/-- The good nodes after the label: those from before, and `t`. -/
theorem finish_isGood (hb : good b = true) (d : α) :
    (finish nodes deps L t b).isGood good d = (L.isGood good d || decide (d = t)) := by
  by_cases hd : d = t
  · subst hd
    simp [finish, isGood, hb]
  · simp [finish, isGood, hd]

/-- A good label makes no node bad, and `t` was not bad before it: it had no label. -/
theorem finish_isBad (hb : good b = true) (hl : L.label t = none) (d : α) :
    (finish nodes deps L t b).IsBad good d ↔ L.IsBad good d := by
  by_cases hd : d = t
  · subst hd
    simp [finish, IsBad, hb, hl]
  · simp [finish, IsBad, Function.update_of_ne hd]

/-- A counter drops by the number of times the node is among the children of `t`. -/
theorem finish_indeg (c : α) :
    (finish nodes deps L t b).indeg c = L.indeg c - (childrenOf nodes deps t).count c :=
  release_indeg _ _ _ c

/-- The label queues the nodes whose counter passes through zero, and starts none. -/
theorem mem_finish (c : α) :
    c ∈ (finish nodes deps L t b).started ++ (finish nodes deps L t b).ready ↔
      c ∈ L.started ++ L.ready ∨
        (1 ≤ L.indeg c ∧ L.indeg c ≤ (childrenOf nodes deps t).count c) := by
  show c ∈ L.started ++ (release _ _ _).2 ↔ _
  rw [List.mem_append, mem_release, List.mem_append, or_assoc]

/-- After the label, the counter of a node counts the dependencies that are not good still: it
has dropped by the number of times the node lists `t`. -/
theorem Inv.finish_indeg_eq (h : Inv nodes deps good skip L) (hnd : nodes.Nodup)
    (hb : good b = true) (hl : L.label t = none) {c : α} (hc : c ∈ nodes) :
    (finish nodes deps L t b).indeg c
      = (deps c).countP (fun d => !(finish nodes deps L t b).isGood good d) := by
  have hleft : (deps c).countP (fun d => !(finish nodes deps L t b).isGood good d)
      = ((deps c).filter (fun x => x ≠ t)).countP (fun d => !L.isGood good d) := by
    rw [List.countP_filter]
    congr 1
    funext d
    simp [finish_isGood hb]
  rw [finish_indeg, h.indeg_eq c hc, count_childrenOf hnd hc, countP_not_good hl, hleft]
  push_cast
  omega

/-- After the label, a node may start exactly when nothing is left on its counter. -/
theorem Inv.finish_ready_iff (h : Inv nodes deps good skip L) (hnd : nodes.Nodup)
    (hb : good b = true) (hl : L.label t = none) {c : α} (hc : c ∈ nodes) :
    (∀ d ∈ deps c, (finish nodes deps L t b).isGood good d = true) ↔
      (finish nodes deps L t b).indeg c = 0 := by
  rw [h.finish_indeg_eq hnd hb hl hc]
  norm_cast
  rw [List.countP_eq_zero]
  simp

/-- A counter that passes through zero belongs to a node with exactly that many edges left, so
the node may start. -/
theorem Inv.finish_new (h : Inv nodes deps good skip L) (hnd : nodes.Nodup) (hb : good b = true)
    (hl : L.label t = none) {c : α} (hpos : 1 ≤ L.indeg c)
    (hle : L.indeg c ≤ (childrenOf nodes deps t).count c) :
    c ∈ nodes ∧ ∀ d ∈ deps c, (finish nodes deps L t b).isGood good d = true := by
  have hc : c ∈ nodes := by
    have hcount : 0 < (childrenOf nodes deps t).count c := by omega
    exact (mem_childrenOf.mp (List.count_pos_iff.mp hcount)).1
  refine ⟨hc, (h.finish_ready_iff hnd hb hl hc).mpr ?_⟩
  -- What is left is at most zero, and it counts dependencies.
  have hleft := h.finish_indeg_eq hnd hb hl hc
  rw [finish_indeg] at hleft ⊢
  omega

/-- The label keeps `Safe`: what is queued may start, and it was not queued before. -/
theorem Inv.finish_safe (h : Inv nodes deps good skip L) (hnd : nodes.Nodup) (hb : good b = true)
    (ht : t ∈ L.started) (hl : L.label t = none) :
    Safe nodes deps good (finish nodes deps L t b) := by
  refine ⟨?_, ?_, ?_, ?_⟩
  · -- The started and the ready nodes stay distinct: a node that is released now had a positive
    -- counter, so it was in neither list.
    refine List.Nodup.append (List.Nodup.of_append_left h.nodup)
      (nodup_release _ _ _ (List.Nodup.of_append_right h.nodup) fun c hc => ?_) ?_
    · have := h.indeg_eq_zero (List.mem_append_right _ hc)
      omega
    intro c hs hr
    rcases (mem_release _ _ _ _).mp hr with hr | ⟨hpos, _⟩
    · exact List.disjoint_of_nodup_append h.nodup hs hr
    · have := h.indeg_eq_zero (List.mem_append_left _ hs)
      omega
  · intro c hc
    rcases (mem_finish c).mp hc with hc | ⟨hpos, hle⟩
    · exact h.mem c hc
    · exact (h.finish_new hnd hb hl hpos hle).1
  · -- What was ready or started has good dependencies as before, and a released node has them by
    -- its counter.
    intro c hc
    rcases (mem_finish c).mp hc with hc | ⟨hpos, hle⟩
    · intro d hd
      rw [finish_isGood hb, h.deps_good c hc d hd, Bool.true_or]
    · exact (h.finish_new hnd hb hl hpos hle).2
  · intro d hd
    rw [finish_isGood hb, Bool.or_eq_true, decide_eq_true_iff] at hd
    rcases hd with hd | rfl
    · exact h.good_started d hd
    · exact ht

/-- After the label, every node with good dependencies has started or is queued: its counter was
zero before, or it passes through zero now. -/
theorem Inv.finish_enabled (h : Inv nodes deps good skip L) (hnd : nodes.Nodup)
    (hb : good b = true) (hl : L.label t = none) {c : α} (hc : c ∈ nodes)
    (hdeps : ∀ d ∈ deps c, (finish nodes deps L t b).isGood good d = true) :
    c ∈ (finish nodes deps L t b).started ++ (finish nodes deps L t b).ready := by
  rw [mem_finish]
  have hcount := h.indeg_eq c hc
  by_cases hz : L.indeg c = 0
  · left
    refine h.enabled c hc fun d hd => ?_
    have hnone : (deps c).countP (fun d => !L.isGood good d) = 0 := by omega
    simpa using List.countP_eq_zero.mp hnone d hd
  · right
    have hleft := (h.finish_ready_iff hnd hb hl hc).mp hdeps
    rw [finish_indeg] at hleft
    omega

/-- A started node gets a good label and its children are released. This is the step in which
dependents become ready. -/
theorem Inv.good_label (h : Inv nodes deps good skip L) (hnd : nodes.Nodup) (hb : good b = true)
    (ht : t ∈ L.started) (hl : L.label t = none) :
    Inv nodes deps good skip
      { L with
          indeg := (release (childrenOf nodes deps t) L.indeg L.ready).1
          ready := (release (childrenOf nodes deps t) L.indeg L.ready).2
          label := Function.update L.label t (some b) } := by
  show Inv nodes deps good skip (finish nodes deps L t b)
  -- The counters, the ready nodes and the safe half have lemmas of their own. A good label is no
  -- reason to skip anything, so the labels of the others keep their reasons.
  refine ⟨h.finish_safe hnd hb ht hl, fun c hc => h.finish_indeg_eq hnd hb hl hc,
    fun c hc => h.finish_enabled hnd hb hl hc, ?_, ?_⟩
  · intro d b' hd
    by_cases hdt : d = t
    · exact Or.inl (hdt ▸ ht)
    · have hd' : L.label d = some b' := by simpa [finish, Function.update_of_ne hdt] using hd
      rcases h.reason d b' hd' with hs | ⟨hn, hsk, x, hx, hbx⟩
      · exact Or.inl hs
      · exact Or.inr ⟨hn, hsk, x, hx, (finish_isBad hb hl x).mpr hbx⟩
  · intro d hd c hc hdc
    have hlabelled := h.closed d ((finish_isBad hb hl d).mp hd) c hc hdc
    by_cases hct : c = t
    · subst hct
      simp [finish]
    · simpa [finish, Function.update_of_ne hct] using hlabelled

end Finish

/-- The counter of a labelled node does not reach zero at a release: a node that started has no
counter left, and any other has a bad dependency besides the unlabelled `t`. -/
theorem Inv.release_unlabelled {L : Ledger α β} (h : Inv nodes deps good skip L)
    (hnd : nodes.Nodup) {t c : α} (hl : L.label t = none) (hpos : 1 ≤ L.indeg c)
    (hle : L.indeg c ≤ (childrenOf nodes deps t).count c) : L.label c = none := by
  by_contra hc
  obtain ⟨b, hb⟩ := Option.ne_none_iff_exists'.mp hc
  have hmem : c ∈ nodes := by
    have hcount : 0 < (childrenOf nodes deps t).count c := by omega
    exact (mem_childrenOf.mp (List.count_pos_iff.mp hcount)).1
  rcases h.reason c b hb with hs | ⟨-, -, d, hd, hbad⟩
  · have hzero := h.indeg_eq_zero (List.mem_append_left _ hs)
    omega
  · -- Without the occurrences of `t`, the counter still counts `d`.
    have hdt : d ≠ t := by
      rintro rfl
      obtain ⟨b', hb', -⟩ := hbad
      rw [hl] at hb'
      cases hb'
    have hrest : 0 < ((deps c).filter (fun x => x ≠ t)).countP (fun d => !L.isGood good d) := by
      refine List.countP_pos_iff.mpr ⟨d, List.mem_filter.mpr ⟨hd, by simpa using hdt⟩, ?_⟩
      simpa using hbad.not_good
    rw [count_childrenOf hnd hmem, h.indeg_eq c hmem, countP_not_good hl] at hle
    omega

/-- A walk from an unlabelled node marks no started node: the dependencies of a started node
are good, and the walk follows nodes without a label. -/
theorem Safe.walked_not_started {L : Ledger α β} (h : Safe nodes deps good L) {t : α} {b : β}
    (hl : L.label t = none) {new : List α}
    (hw : Walked (childrenOf nodes deps) (fun l d => (l d).isSome)
      (Function.update L.label t (some b)) (childrenOf nodes deps t) new) :
    ∀ c ∈ new, c ∉ L.started := by
  intro c hc hs
  have hdeps := h.deps_good c (List.mem_append_left _ hs)
  rcases hw.origin c hc with hct | ⟨y, hy, hcy⟩
  · have := hdeps t (mem_childrenOf.mp hct).2
    simp [isGood, hl] at this
  · have hgood := hdeps y (mem_childrenOf.mp hcy).2
    have hfresh := hw.fresh y hy
    by_cases hyt : y = t
    · simp [hyt] at hfresh
    · rw [Function.update_of_ne hyt] at hfresh
      rw [isGood_iff] at hgood
      obtain ⟨b', hb', -⟩ := hgood
      simp [hb'] at hfresh

/-- A started node gets a bad label and the walk from it skips the nodes of `new`. No good node is
added, so the counters stay as they are, and the walk leaves no dependent of a bad node without a
label. -/
theorem Inv.bad_label {L : Ledger α β} (h : Inv nodes deps good skip L) (hskip : good skip = false)
    {t : α} {b : β} (hb : good b = false) (ht : t ∈ L.started) (hl : L.label t = none)
    {new : List α} (label : α → Option β)
    (hw : Walked (childrenOf nodes deps) (fun l d => (l d).isSome)
      (Function.update L.label t (some b)) (childrenOf nodes deps t) new)
    (hlabel : ∀ d, label d = if d ∈ new then some skip else Function.update L.label t (some b) d) :
    Inv nodes deps good skip { L with label := label } := by
  set L' : Ledger α β := { L with label := label } with hL'
  -- The walk marks only nodes without a label, and `t` has one.
  have hfresh : ∀ d ∈ new, d ≠ t ∧ L.label d = none := by
    intro d hd
    have hf := hw.fresh d hd
    by_cases hdt : d = t
    · subst hdt
      simp at hf
    · refine ⟨hdt, ?_⟩
      simpa [Function.update_of_ne hdt] using hf
  have hgood : ∀ d, L'.isGood good d = L.isGood good d := by
    intro d
    by_cases hd : d ∈ new
    · simp [hL', isGood, hlabel, hd, hskip, (hfresh d hd).2]
    · by_cases hdt : d = t
      · subst hdt
        simp [hL', isGood, hlabel, hd, hb, hl]
      · simp [hL', isGood, hlabel, hd, Function.update_of_ne hdt]
  have hbad : ∀ d, L'.IsBad good d ↔ L.IsBad good d ∨ d = t ∨ d ∈ new := by
    intro d
    by_cases hd : d ∈ new
    · simp [hL', IsBad, hlabel, hd, hskip]
    · by_cases hdt : d = t
      · subst hdt
        simp [hL', IsBad, hlabel, hd, hb]
      · simp [hL', IsBad, hlabel, hd, hdt]
  have hnewmem : ∀ d ∈ new, d ∈ nodes ∧ ∃ x ∈ deps d, L'.IsBad good x := by
    intro d hd
    rcases hw.origin d hd with hc | ⟨y, hy, hc⟩
    · obtain ⟨hn, hx⟩ := mem_childrenOf.mp hc
      exact ⟨hn, t, hx, (hbad t).mpr (Or.inr (Or.inl rfl))⟩
    · obtain ⟨hn, hx⟩ := mem_childrenOf.mp hc
      exact ⟨hn, y, hx, (hbad y).mpr (Or.inr (Or.inr hy))⟩
  have hsome : ∀ d, (Function.update L.label t (some b) d).isSome = true ∨ d ∈ new →
      L'.label d ≠ none := by
    intro d hd
    show label d ≠ none
    rw [hlabel]
    split
    · simp
    · rename_i hnew
      exact Option.isSome_iff_ne_none.mp (hd.resolve_right hnew)
  refine ⟨h.toSafe.labels label hgood, ?_, ?_, ?_, ?_⟩
  · intro c hc
    rw [h.indeg_eq c hc]
    simp only [hgood]
  · intro c hc hdeps
    exact h.enabled c hc (fun d hd => by rw [← hgood]; exact hdeps d hd)
  · intro d b' hd
    by_cases hdn : d ∈ new
    · have hb' : skip = b' := by simpa [hL', hlabel, hdn] using hd
      exact Or.inr ⟨(hnewmem d hdn).1, hb'.symm, (hnewmem d hdn).2⟩
    · by_cases hdt : d = t
      · exact Or.inl (hdt ▸ ht)
      · have hd' : L.label d = some b' := by
          simpa [hL', hlabel, hdn, Function.update_of_ne hdt] using hd
        rcases h.reason d b' hd' with hs | ⟨hn, hsk, x, hx, hbx⟩
        · exact Or.inl hs
        · exact Or.inr ⟨hn, hsk, x, hx, (hbad x).mpr (Or.inl hbx)⟩
  · intro d hd c hc hdc
    rcases (hbad d).mp hd with hd | rfl | hd
    · have := h.closed d hd c hc hdc
      refine hsome c (Or.inl ?_)
      by_cases hct : c = t
      · simp [hct]
      · simpa [Function.update_of_ne hct] using Option.isSome_iff_ne_none.mpr this
    · exact hsome c (hw.stack_marked c (mem_childrenOf.mpr ⟨hc, hdc⟩))
    · exact hsome c (hw.children_marked d hd c (mem_childrenOf.mpr ⟨hc, hdc⟩))

end Ledger

end Orchestrator.Lib
