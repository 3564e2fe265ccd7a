import Orchestrator.Lib.Replace
import Orchestrator.Proofs.SchedulerSteps

/-!
# `Orchestrator.Proofs.Flight`: dispatched tasks, the channel and the skip marks

`Flight` is the part of the scheduler's invariant that is about goroutines: each dispatched task is
running, or its span waits in `doneCh`, or its span is recorded, and `inFlight` counts the tasks
without a recorded span. Its rules follow the steps of a run: `stepGo`, `sendGo`, `start` and
`receive`.

The spans enter only through a function `span` from ids to what is recorded, so that the rules can
be used in the main loop and in the drain, which record spans in different ways. Spans that are
recorded for tasks that were never dispatched do not matter (`congr`); the skip walks write such
spans.

From the count follow the facts on which the main loop relies: while `inFlight` is positive there is
a goroutine whose span is still to come (`exists_unrecorded`), and when it is not, every dispatched
task is done, its span is recorded, and the channel is empty (`all_recorded`, `chan_empty`).

The last section says what the two skip walks of the main loop leave in the spans. The walk along
the children is the one of `Lib.Walk`.
-/

set_option autoImplicit false

namespace Orchestrator.Proofs

open Orchestrator.Lib Orchestrator.Engine Orchestrator.Engine.Env
open scoped List

variable {B : Type} {env : Env B}

/-! ### Dispatched tasks and the channel -/

/-- The ids of the dispatched tasks, in dispatch order. -/
def goIds (gos : List Goroutine) : List String := gos.map (fun g => g.task.id)

/-- Each dispatched task is running, sent, or recorded. `span` reads the recorded spans.

The last clause ties the counter of the main goroutine to this: it counts the dispatched tasks whose
span is not recorded yet, so it is zero only when nothing is under way. -/
structure Flight (gos : List Goroutine) (doneCh : List TaskSpan)
    (span : String → Option TaskSpan) (inFlight : Int) : Prop where
  ids_nodup : (goIds gos).Nodup
  span_id : ∀ g ∈ gos, g.span.id = g.task.id
  running : ∀ g ∈ gos, g.pc ≠ .done → span g.task.id = none
  sent : ∀ g ∈ gos, g.pc = .done → g.span ∈ doneCh ∨ span g.task.id = some g.span
  chan : ∀ sp ∈ doneCh, span sp.id = none ∧ ∃ g ∈ gos, g.pc = .done ∧ g.span = sp
  chan_nodup : (doneCh.map (·.id)).Nodup
  in_flight : inFlight = (goIds gos).countP (fun id => (span id).isNone)

namespace Flight

variable {gos : List Goroutine} {doneCh : List TaskSpan} {span : String → Option TaskSpan}
  {inFlight : Int}

/-- A dispatched task has one goroutine. -/
theorem go_unique (h : Flight gos doneCh span inFlight) {g g' : Goroutine} (hg : g ∈ gos)
    (hg' : g' ∈ gos) (hid : g.task.id = g'.task.id) : g = g' :=
  List.inj_on_of_nodup_map h.ids_nodup hg hg' hid

/-- No task is dispatched before the run starts. -/
theorem nil (span : String → Option TaskSpan) : Flight [] [] span 0 where
  ids_nodup := List.nodup_nil
  span_id := by simp
  running := by simp
  sent := by simp
  chan := by simp
  chan_nodup := List.nodup_nil
  in_flight := rfl

/-- A goroutine takes a step other than its send. -/
theorem stepGo (h : Flight gos doneCh span inFlight) {i : Nat} {g g' : Goroutine}
    (hi : gos[i]? = some g) (htask : g'.task = g.task) (hid : g'.span.id = g.task.id)
    (hpc : g.pc ≠ .done) (hpc' : g'.pc ≠ .done) : Flight (gos.set i g') doneCh span inFlight := by
  have hgo : g ∈ gos := List.mem_of_getElem? hi
  have hids : goIds (gos.set i g') = goIds gos := map_set_of_eq _ hi (by rw [htask])
  -- The goroutine was not done and is not done, so nothing is said about its span.
  refine ⟨hids ▸ h.ids_nodup, ?_, ?_, ?_, ?_, h.chan_nodup, hids ▸ h.in_flight⟩
  · intro x hx
    rcases List.mem_or_eq_of_mem_set hx with hx | rfl
    · exact h.span_id x hx
    · rw [htask]; exact hid
  · intro x hx hxpc
    rcases List.mem_or_eq_of_mem_set hx with hx | rfl
    · exact h.running x hx hxpc
    · rw [htask]; exact h.running g hgo hpc
  · intro x hx hxpc
    rcases List.mem_or_eq_of_mem_set hx with hx | rfl
    · exact h.sent x hx hxpc
    · exact absurd hxpc hpc'
  · intro sp hsp
    obtain ⟨hnone, x, hx, hxpc, hxsp⟩ := h.chan sp hsp
    exact ⟨hnone, x, mem_set_of_ne hi hx (fun he => hpc (he ▸ hxpc)), hxpc, hxsp⟩

/-- A goroutine sends its span, and is done with it. The span is in the channel then, and recorded
nowhere yet. -/
theorem sendGo (h : Flight gos doneCh span inFlight) {i : Nat} {g : Goroutine}
    (hi : gos[i]? = some g) (hpc : g.pc ≠ .done) :
    Flight (gos.set i { g with pc := .done }) (doneCh ++ [g.span]) span inFlight := by
  have hgo : g ∈ gos := List.mem_of_getElem? hi
  have hnone := h.running g hgo hpc
  have hids : goIds (gos.set i { g with pc := .done }) = goIds gos := map_set_of_eq _ hi rfl
  refine ⟨hids ▸ h.ids_nodup, ?_, ?_, ?_, ?_, ?_, hids ▸ h.in_flight⟩
  · intro x hx
    rcases List.mem_or_eq_of_mem_set hx with hx | rfl
    · exact h.span_id x hx
    · exact h.span_id g hgo
  · intro x hx hxpc
    rcases List.mem_or_eq_of_mem_set hx with hx | rfl
    · exact h.running x hx hxpc
    · exact hnone
  · intro x hx hxpc
    rcases List.mem_or_eq_of_mem_set hx with hx | rfl
    · exact (h.sent x hx hxpc).imp_left (List.mem_append_left _)
    · exact Or.inl (List.mem_append_right _ (List.mem_singleton.mpr rfl))
  · intro sp hsp
    rcases List.mem_append.mp hsp with hsp | hsp
    · obtain ⟨hn, x, hx, hxpc, hxsp⟩ := h.chan sp hsp
      exact ⟨hn, x, mem_set_of_ne hi hx (fun he => hpc (he ▸ hxpc)), hxpc, hxsp⟩
    · obtain rfl := List.mem_singleton.mp hsp
      exact ⟨by rw [h.span_id g hgo]; exact hnone, _, mem_set_self hi, rfl, rfl⟩
  · -- A span already in the channel comes from another goroutine, so its id is another one.
    rw [List.map_append, List.map_singleton]
    refine List.Nodup.append h.chan_nodup (List.nodup_singleton _) ?_
    rw [List.disjoint_singleton]
    intro hm
    obtain ⟨sp, hsp, hid⟩ := List.mem_map.mp hm
    obtain ⟨-, x, hx, hxpc, rfl⟩ := h.chan sp hsp
    have hxg : x = g := h.go_unique hx hgo (by
      rw [← h.span_id x hx, hid, h.span_id g hgo])
    exact hpc (hxg ▸ hxpc)

/-- A task without a span is dispatched. One more goroutine runs, and the counter goes up by one. -/
theorem start (h : Flight gos doneCh span inFlight) {g : Goroutine}
    (hnew : g.task.id ∉ goIds gos) (hid : g.span.id = g.task.id) (hpc : g.pc ≠ .done)
    (hnone : span g.task.id = none) : Flight (gos ++ [g]) doneCh span (inFlight + 1) := by
  have hids : goIds (gos ++ [g]) = goIds gos ++ [g.task.id] := by simp [goIds]
  -- Each part is about the old goroutines or about the new one, which has no span yet.
  refine ⟨?_, ?_, ?_, ?_, ?_, h.chan_nodup, ?_⟩
  · rw [hids]
    exact List.Nodup.append h.ids_nodup (List.nodup_singleton _) (by simpa using hnew)
  · intro x hx
    rcases List.mem_append.mp hx with hx | hx
    · exact h.span_id x hx
    · obtain rfl := List.mem_singleton.mp hx
      exact hid
  · intro x hx hxpc
    rcases List.mem_append.mp hx with hx | hx
    · exact h.running x hx hxpc
    · obtain rfl := List.mem_singleton.mp hx
      exact hnone
  · intro x hx hxpc
    rcases List.mem_append.mp hx with hx | hx
    · exact h.sent x hx hxpc
    · obtain rfl := List.mem_singleton.mp hx
      exact absurd hxpc hpc
  · intro sp hsp
    obtain ⟨hn, x, hx, hrest⟩ := h.chan sp hsp
    exact ⟨hn, x, List.mem_append_left _ hx, hrest⟩
  · rw [hids, List.countP_append, h.in_flight]
    simp [hnone]

/-- The head of the channel belongs to a goroutine that is done and has no recorded span. -/
theorem head_go {sp : TaskSpan} {rest : List TaskSpan}
    (h : Flight gos (sp :: rest) span inFlight) :
    ∃ g ∈ gos, g.pc = .done ∧ g.span = sp ∧ g.task.id = sp.id ∧ span sp.id = none := by
  obtain ⟨hn, g, hg, hpc, hsp⟩ := h.chan sp List.mem_cons_self
  exact ⟨g, hg, hpc, hsp, by rw [← hsp, h.span_id g hg], hn⟩

/-- The head of the channel is received and recorded. The other dispatched tasks keep what
`span` says about them. -/
theorem receive {sp : TaskSpan} {rest : List TaskSpan}
    (h : Flight gos (sp :: rest) span inFlight) {span' : String → Option TaskSpan}
    (hspan : ∀ id ∈ goIds gos, span' id = if id = sp.id then some sp else span id) :
    Flight gos rest span' (inFlight - 1) := by
  -- `g₀` is the goroutine whose span is received. For every other id the recorded spans are as
  -- before.
  obtain ⟨g₀, hg₀, hpc₀, hsp₀, hid₀, hnone₀⟩ := h.head_go
  have hmem : ∀ g ∈ gos, g.task.id ∈ goIds gos := fun g hg => List.mem_map_of_mem hg
  have hnd := h.chan_nodup
  rw [List.map_cons, List.nodup_cons] at hnd
  refine ⟨h.ids_nodup, h.span_id, ?_, ?_, ?_, hnd.2, ?_⟩
  · intro g hg hpc
    rw [hspan _ (hmem g hg), if_neg]
    · exact h.running g hg hpc
    · intro hid
      have hgg : g = g₀ := h.go_unique hg hg₀ (hid.trans hid₀.symm)
      exact hpc (hgg ▸ hpc₀)
  · intro g hg hpc
    rw [hspan _ (hmem g hg)]
    by_cases hid : g.task.id = sp.id
    · have hgg : g = g₀ := h.go_unique hg hg₀ (hid.trans hid₀.symm)
      rw [if_pos hid, hgg, hsp₀]
      exact Or.inr rfl
    · rw [if_neg hid]
      refine (h.sent g hg hpc).imp_left fun hsp => ?_
      rcases List.mem_cons.mp hsp with heq | hsp
      · exact absurd (by rw [← heq, h.span_id g hg]) hid
      · exact hsp
  · intro sp' hsp'
    obtain ⟨hn, g, hg, hpc, hgsp⟩ := h.chan sp' (List.mem_cons_of_mem _ hsp')
    refine ⟨?_, g, hg, hpc, hgsp⟩
    have hne : sp'.id ≠ sp.id := fun he => hnd.1 (he ▸ List.mem_map_of_mem hsp')
    have hgid : g.task.id = sp'.id := by rw [← hgsp, h.span_id g hg]
    rw [hspan sp'.id (hgid ▸ hmem g hg), if_neg hne]
    exact hn
  · -- One id less is without a span, which is what `inFlight` counts.
    have hsp : sp.id ∈ goIds gos := hid₀ ▸ hmem g₀ hg₀
    have hgain := filter_gain_one (p := fun id => (span' id).isNone)
      (q := fun id => (span id).isNone) h.ids_nodup hsp (by simp [hspan sp.id hsp])
      (by simp [hnone₀]) (fun id hid hne => by rw [hspan id hid, if_neg hne])
    have hcount := hgain.length_eq
    rw [← List.countP_eq_length_filter, List.length_cons, ← List.countP_eq_length_filter] at hcount
    rw [h.in_flight, hcount]
    push_cast
    omega

/-- Spans recorded for tasks that are not dispatched do not matter. -/
theorem congr (h : Flight gos doneCh span inFlight) {span' : String → Option TaskSpan}
    (hspan : ∀ id ∈ goIds gos, span' id = span id) : Flight gos doneCh span' inFlight := by
  have hmem : ∀ g ∈ gos, g.task.id ∈ goIds gos := fun g hg => List.mem_map_of_mem hg
  refine ⟨h.ids_nodup, h.span_id, ?_, ?_, ?_, h.chan_nodup, ?_⟩
  · intro g hg hpc
    rw [hspan _ (hmem g hg)]
    exact h.running g hg hpc
  · intro g hg hpc
    rw [hspan _ (hmem g hg)]
    exact h.sent g hg hpc
  · intro sp hsp
    obtain ⟨hn, g, hg, hpc, hgsp⟩ := h.chan sp hsp
    have hgid : g.task.id = sp.id := by rw [← hgsp, h.span_id g hg]
    exact ⟨by rw [hspan _ (hgid ▸ hmem g hg)]; exact hn, g, hg, hpc, hgsp⟩
  · rw [h.in_flight]
    exact congrArg _ (List.countP_congr fun id hid => by rw [hspan id hid])

/-- A positive `inFlight` has a dispatched task without a recorded span. -/
theorem exists_unrecorded (h : Flight gos doneCh span inFlight) (hpos : 0 < inFlight) :
    ∃ g ∈ gos, span g.task.id = none := by
  rw [h.in_flight, Int.natCast_pos, List.countP_pos_iff] at hpos
  obtain ⟨id, hid, hn⟩ := hpos
  obtain ⟨g, hg, rfl⟩ := List.mem_map.mp hid
  exact ⟨g, hg, by simpa using hn⟩

/-- When `inFlight` is not positive, every dispatched task is done and its span recorded. -/
theorem all_recorded (h : Flight gos doneCh span inFlight) (hzero : ¬ 0 < inFlight) :
    ∀ g ∈ gos, g.pc = .done ∧ span g.task.id = some g.span := by
  intro g hg
  have hcount : (goIds gos).countP (fun id => (span id).isNone) = 0 := by
    have := h.in_flight
    omega
  have hsome : span g.task.id ≠ none := by
    have := List.countP_eq_zero.mp hcount g.task.id (List.mem_map_of_mem hg)
    simpa using this
  have hpc : g.pc = .done := by
    by_contra hpc
    exact hsome (h.running g hg hpc)
  refine ⟨hpc, (h.sent g hg hpc).resolve_left fun hsp => ?_⟩
  have := (h.chan g.span hsp).1
  rw [h.span_id g hg] at this
  exact hsome this

/-- When `inFlight` is not positive, the channel is empty. -/
theorem chan_empty (h : Flight gos doneCh span inFlight) (hzero : ¬ 0 < inFlight) :
    doneCh = [] := by
  cases doneCh with
  | nil => rfl
  | cons sp rest =>
      obtain ⟨g, hg, -, -, hid, hn⟩ := h.head_go
      have := (h.all_recorded hzero g hg).2
      rw [hid, hn] at this
      cases this

end Flight

/-! ### Marking tasks as skipped -/

/-- The spans after marking a list of tasks. -/
theorem foldl_markSkipped_spans (now : Nat) (id : String) :
    ∀ (new : List String) (m : Marks),
      (new.foldl (env.markSkipped now) m).spans.get? id
        = if id ∈ new then some { id := id, status := .skipped } else m.spans.get? id := by
  intro new
  induction new with
  | nil => intro m; simp
  | cons c new ih =>
      intro m
      rw [List.foldl_cons, ih]
      by_cases hnew : id ∈ new
      · simp [hnew]
      · by_cases hc : id = c
        · subst hc
          simp [hnew, markSkipped]
        · simp [hnew, hc, markSkipped]

/-- A task is marked when it has a span, at the start of a walk. -/
theorem isMarked_start (spans : Dict String TaskSpan) (id : String) :
    isMarked { spans := spans, seen := [], emitted := [] } id = spans.contains id := by
  simp [isMarked]

/-- Marking a task marks it and no other. -/
theorem isMarked_markSkipped (now : Nat) (m : Marks) (c d : String) :
    isMarked (env.markSkipped now m c) d = (isMarked m d || decide (d = c)) := by
  by_cases hdc : d = c
  · subst hdc
    simp [isMarked, markSkipped]
  · simp [isMarked, markSkipped, Dict.contains, hdc]

/-- `markDescendantsSkipped` marks the tasks a walk along the children reaches. What the walk passes
through is given by `Walked`, whatever the order in which it goes. -/
theorem markDescendantsSkipped_spec (hacc : Accepted env.wf) (now : Nat) (fromID : String)
    (spans : Dict String TaskSpan) :
    ∃ new, Walked (childrenOf env.wf.ids env.wf.deps) (fun (d : Dict String TaskSpan) id =>
          d.contains id) spans (childrenOf env.wf.ids env.wf.deps fromID) new ∧
      env.markDescendantsSkipped now fromID spans
        = new.foldl (env.markSkipped now) { spans := spans, seen := [], emitted := [] } := by
  have hch : env.children = childrenOf env.wf.ids env.wf.deps := funext hacc.children_eq
  have hids : ∀ c d, d ∈ childrenOf env.wf.ids env.wf.deps c → d ∈ env.wf.ids :=
    fun c d hd => (mem_childrenOf.mp hd).1
  -- The fuel of the code is what the walk needs at most: the stack, and the children of every task
  -- that is still to be marked.
  obtain ⟨new, hwalk, hw⟩ := walk_spec env.children isMarked (env.markSkipped now)
    (isMarked_markSkipped now) hacc.ids_nodup
    (fun c _ d hd => hids c d (hch ▸ hd))
    ((env.children fromID).reverse.length +
      (env.wf.ids.map (fun id => (env.children id).length)).sum)
    (env.children fromID).reverse { spans := spans, seen := [], emitted := [] }
    (fun c hc => hids fromID c (hch ▸ List.mem_reverse.mp hc)) (by
      refine Nat.add_le_add_left (List.sum_le_sum fun id _ => ?_) _
      split
      · exact Nat.zero_le _
      · exact le_rfl)
  refine ⟨new, ?_, hwalk⟩
  rw [← hch]
  exact hw.congr (fun c => (isMarked_start spans c).symm) (fun c => by rw [List.mem_reverse])

/-- `markAllUndispatchedSkipped` gives a span to every task that has none, and leaves the others
alone. -/
theorem markAllUndispatchedSkipped_spans (env : Env B) (now : Nat) (spans : Dict String TaskSpan)
    (id : String) :
    (env.markAllUndispatchedSkipped now spans).spans.get? id
      = if id ∈ env.wf.ids ∧ spans.get? id = none then some { id := id, status := .skipped }
        else spans.get? id := by
  -- The loop is followed for one id, over any marks that it starts from.
  have key : ∀ (ts : List Task) (m : Marks),
      (ts.foldl (fun m t =>
          if m.spans.contains t.id then m else env.markSkipped now m t.id) m).spans.get? id
        = if id ∈ ts.map (·.id) ∧ m.spans.get? id = none then
            some { id := id, status := .skipped }
          else m.spans.get? id := by
    intro ts
    induction ts with
    | nil => intro m; simp
    | cons t ts ih =>
        intro m
        rw [List.foldl_cons, ih]
        by_cases ht : t.id = id
        · subst ht
          cases hc : m.spans.get? t.id with
          | none => simp [Dict.contains, hc, markSkipped]
          | some sp => simp [Dict.contains, hc]
        · cases m.spans.contains t.id
          · simp [markSkipped, Ne.symm ht]
          · simp [Ne.symm ht]
  exact key env.wf.tasks _

/-- `markAllUndispatchedSkipped` overwrites no span. -/
theorem markAllUndispatchedSkipped_keep (env : Env B) (now : Nat) {spans : Dict String TaskSpan}
    {id : String} {sp : TaskSpan} (hsp : spans.get? id = some sp) :
    (env.markAllUndispatchedSkipped now spans).spans.get? id = some sp := by
  rw [markAllUndispatchedSkipped_spans, if_neg (by simp [hsp])]
  exact hsp

end Orchestrator.Proofs
