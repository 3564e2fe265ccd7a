import Mathlib.Algebra.BigOperators.Group.List.Basic
import Mathlib.Data.List.Perm.Basic
import Orchestrator.Lib.Attempts
import Orchestrator.Lib.Ledger

/-!
# `Orchestrator.Lib.Verdict`: what the outcomes of all attempts settle

A `Plan` is a graph whose nodes are attempted a bounded number of times each, and a node starts when
all its dependencies have succeeded. Which attempts succeed is part of the plan. A `Verdict` is what
a report says in the end: how each node ended and after how many attempts, how many retries there
were, and how the whole ended.

`Verdict.Right` speaks of the plan alone. There is no scheduler in it, and no order of events. A
node is reported as skipped exactly when a transitive dependency does not win, and otherwise as
succeeded or failed by the outcomes of its own attempts.

`Verdict.Right.unique` says that the plan settles the verdict, so any two schedulers that are right
agree, without a comparison of the schedulers. `Ledger.Inv.entry_right` leads there from the books
of one: where its queue is empty and what it started is settled, its report about each node is
right. `sum_retries` and `Verdict.right_of_report` do the rest of the report.

A scheduler that stops early, at the first failure, is not right in this sense. The modules that use
the library say under which conditions theirs does not.
-/

set_option autoImplicit false

namespace Orchestrator.Lib

universe u v

/-- How a node ends: after a success, after its last failure, or without an attempt. -/
inductive Fate
  | succeeded
  | failed
  | skipped
deriving DecidableEq

/-- A graph with the outcomes of the attempts. It is what a scheduler cannot influence: the outcome
of an attempt belongs to the node and to the number of the attempt, not to the moment at which it is
made. -/
structure Plan (α : Type u) where
  nodes : List α
  deps : α → List α
  /-- How often a node may be attempted. -/
  limit : α → Int
  /-- Whether the `k`-th attempt of a node succeeds, counted from 1. -/
  ok : α → Int → Bool

/-- What a report says about one node: its fate, and how many attempts were made. A node that never
started has made none. -/
structure Entry (α : Type u) where
  node : α
  fate : Fate
  attempts : Int

/-- What a report says: an entry for each node, the retries in all, and the fate of the whole. -/
structure Verdict (α : Type u) where
  entries : List (Entry α)
  retries : Int
  fate : Fate

variable {α : Type u} {β : Type v} {P : Plan α}

namespace Plan

variable (P)

/-- One of the attempts that are allowed succeeds. -/
def Wins (t : α) : Prop := ∃ k, 1 ≤ k ∧ k ≤ P.limit t ∧ P.ok t k = true

/-- All the attempts that are allowed fail. -/
def Loses (t : α) : Prop := ∀ k, 1 ≤ k → k ≤ P.limit t → P.ok t k = false

/-- All transitive dependencies win. -/
def Clear (t : α) : Prop := ∀ d, Relation.TransGen (fun d t => d ∈ P.deps t) d t → P.Wins d

/-- A node loses when it does not win: each attempt succeeds or fails. -/
theorem loses_iff (t : α) : P.Loses t ↔ ¬ P.Wins t := by
  simp only [Loses, Wins, not_exists, not_and, Bool.not_eq_true]

end Plan

/-! ### What is right -/

/-- The attempts of a node after its first. -/
def Entry.retries (e : Entry α) : Int := if e.fate = .skipped then 0 else e.attempts - 1

/-- The entry is the one that the plan asks for. The three fates exclude one another, since a clear
node wins or loses and no other is clear. -/
structure Entry.Right (P : Plan α) (e : Entry α) : Prop where
  succeeded : e.fate = .succeeded ↔ P.Clear e.node ∧ P.Wins e.node
  failed : e.fate = .failed ↔ P.Clear e.node ∧ P.Loses e.node
  skipped : e.fate = .skipped ↔ ¬ P.Clear e.node
  attempts : e.fate ≠ .skipped →
    Settled (P.ok e.node) (P.limit e.node) e.attempts (e.fate = .succeeded)
  unattempted : e.fate = .skipped → e.attempts = 0

/-- The verdict is the one that the plan asks for. The entries are right one by one, the rest is
computed from them, so a plan has only one right verdict (`Verdict.Right.unique`). -/
structure Verdict.Right (P : Plan α) (v : Verdict α) : Prop where
  nodes : v.entries.map (·.node) = P.nodes
  entries : ∀ e ∈ v.entries, e.Right P
  retries : v.retries = (v.entries.map Entry.retries).sum
  fate : v.fate = if v.entries.any (fun e => e.fate = .failed) then .failed else .succeeded

/-- The plan settles what a report says about a node. -/
theorem Entry.Right.unique {e e' : Entry α} (h : e.Right P) (h' : e'.Right P)
    (hnode : e.node = e'.node) : e = e' := by
  obtain ⟨t, fate, attempts⟩ := e
  obtain ⟨t', fate', attempts'⟩ := e'
  obtain rfl : t = t' := hnode
  have hfate : fate = fate' := by
    cases fate with
    | succeeded => exact (h'.succeeded.mpr (h.succeeded.mp rfl)).symm
    | failed => exact (h'.failed.mpr (h.failed.mp rfl)).symm
    | skipped => exact (h'.skipped.mpr (h.skipped.mp rfl)).symm
  subst hfate
  have hattempts : attempts = attempts' := by
    by_cases hskip : fate = .skipped
    · exact (h.unattempted hskip).trans (h'.unattempted hskip).symm
    · exact ((h.attempts hskip).unique (h'.attempts hskip)).1
  rw [hattempts]

/-- Lists with the same keys are equal when their elements are settled by their keys. -/
theorem eq_of_map_eq {γ : Type v} {key : β → γ} {l l' : List β} (hkeys : l.map key = l'.map key)
    (h : ∀ a ∈ l, ∀ b ∈ l', key a = key b → a = b) : l = l' := by
  induction l generalizing l' with
  | nil => exact (List.map_eq_nil_iff.mp hkeys.symm).symm
  | cons a l ih =>
      cases l' with
      | nil => cases hkeys
      | cons b l' =>
          obtain ⟨hab, hrest⟩ := List.cons.inj hkeys
          rw [h a List.mem_cons_self b List.mem_cons_self hab,
            ih hrest fun x hx y hy => h x (List.mem_cons_of_mem _ hx) y (List.mem_cons_of_mem _ hy)]

/-- The plan settles the verdict. -/
theorem Verdict.Right.unique {v v' : Verdict α} (h : v.Right P) (h' : v'.Right P) : v = v' := by
  have hentries : v.entries = v'.entries :=
    eq_of_map_eq (h.nodes.trans h'.nodes.symm) fun a ha b hb =>
      (h.entries a ha).unique (h'.entries b hb)
  obtain ⟨entries, retries, fate⟩ := v
  obtain ⟨entries', retries', fate'⟩ := v'
  obtain rfl : entries = entries' := hentries
  rw [show retries = retries' from h.retries.trans h'.retries.symm,
    show fate = fate' from h.fate.trans h'.fate.symm]

/-! ### From the books of a scheduler -/

/-- Where the queue of a scheduler is empty, its report about a node is right: the nodes that
started were attempted until it was settled how they end, and the others are reported as skipped. -/
theorem Ledger.Inv.entry_right {good : β → Bool} {skip : β} {L : Ledger α β}
    (h : Ledger.Inv P.nodes P.deps good skip L) (hdeps : ∀ t ∈ P.nodes, ∀ d ∈ P.deps t, d ∈ P.nodes)
    (hacc : ∀ t ∈ P.nodes, Acc (fun d t => d ∈ P.deps t) t) (hready : L.ready = [])
    (report : α → Entry α) (hnode : ∀ t, (report t).node = t)
    (hstarted : ∀ t ∈ L.started, (report t).fate ≠ .skipped ∧
      Settled (P.ok t) (P.limit t) (report t).attempts ((report t).fate = .succeeded))
    (hgood : ∀ t ∈ L.started, L.isGood good t = true ↔ (report t).fate = .succeeded)
    (hrest : ∀ t ∈ P.nodes, t ∉ L.started → (report t).fate = .skipped ∧ (report t).attempts = 0)
    {t : α} (ht : t ∈ P.nodes) : (report t).Right P := by
  -- A started node is settled by its attempts, so it is good exactly when it wins. By `started_iff`
  -- the started nodes are then the clear ones.
  have hwins : ∀ t ∈ L.started, (report t).fate = .succeeded ↔ P.Wins t :=
    fun t hs => decide_eq_true_iff.symm.trans (hstarted t hs).2.won_iff
  have hclear : t ∈ L.started ↔ P.Clear t :=
    h.started_iff hdeps hacc hready (fun t hs => (hgood t hs).trans (hwins t hs)) ht
  by_cases hs : t ∈ L.started
  · have hc := hclear.mp hs
    obtain ⟨hnot, hsettled⟩ := hstarted t hs
    refine ⟨?_, ?_, ?_, ?_, fun hskip => absurd hskip hnot⟩
    · rw [hnode, hwins t hs]
      exact (and_iff_right hc).symm
    · rw [hnode, P.loses_iff, ← hwins t hs, and_iff_right hc]
      cases hf : (report t).fate with
      | skipped => exact absurd hf hnot
      | _ => simp
    · rw [hnode]
      exact iff_of_false hnot (not_not.mpr hc)
    · rw [hnode]
      exact fun _ => hsettled
  · have hc : ¬ P.Clear t := fun hc => hs (hclear.mpr hc)
    obtain ⟨hskip, hzero⟩ := hrest t ht hs
    refine ⟨?_, ?_, ?_, fun hnot => absurd hskip hnot, fun _ => hzero⟩
    · rw [hnode, hskip]
      exact iff_of_false (by simp) fun h => hc h.1
    · rw [hnode, hskip]
      exact iff_of_false (by simp) fun h => hc h.1
    · rw [hnode]
      exact iff_of_true hskip hc

/-- A scheduler that counts the retries of the nodes it has started counts all of them. -/
theorem sum_retries {nodes started : List α} {report : α → Entry α} (hnodes : nodes.Nodup)
    (hstarted : started.Nodup)
    (hmem : ∀ t, t ∈ started ↔ t ∈ nodes ∧ (report t).fate ≠ .skipped) :
    (started.map fun t => (report t).attempts - 1).sum
      = ((nodes.map report).map Entry.retries).sum := by
  have hperm : started.Perm (nodes.filter fun t => (report t).fate ≠ .skipped) :=
    (List.perm_ext_iff_of_nodup hstarted (hnodes.filter _)).mpr fun t => by
      rw [hmem, List.mem_filter, decide_eq_true_iff]
  rw [(hperm.map _).sum_eq]
  clear hnodes hmem hperm
  induction nodes with
  | nil => rfl
  | cons t nodes ih =>
      by_cases hskip : (report t).fate = .skipped
      · simpa [hskip, Entry.retries] using ih
      · simpa [hskip, Entry.retries] using ih

/-- A verdict is right when it has the right entry for each node, and counts the retries of the
nodes that started. -/
theorem Verdict.right_of_report {v : Verdict α} {report : α → Entry α} {started : List α}
    (hnodes : P.nodes.Nodup) (hnode : ∀ t, (report t).node = t)
    (hright : ∀ t ∈ P.nodes, (report t).Right P) (hentries : v.entries = P.nodes.map report)
    (hstarted : started.Nodup)
    (hmem : ∀ t, t ∈ started ↔ t ∈ P.nodes ∧ (report t).fate ≠ .skipped)
    (hretries : v.retries = (started.map fun t => (report t).attempts - 1).sum)
    (hfate : v.fate = if v.entries.any (fun e => e.fate = .failed) then .failed else .succeeded) :
    v.Right P := by
  refine ⟨?_, ?_, ?_, hfate⟩
  · rw [hentries, List.map_map]
    exact List.map_id'' hnode _
  · rw [hentries]
    intro e he
    obtain ⟨t, ht, rfl⟩ := List.mem_map.mp he
    exact hright t ht
  · rw [hretries, hentries]
    exact sum_retries hnodes hstarted hmem

end Orchestrator.Lib
