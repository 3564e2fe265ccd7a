import Orchestrator.Proofs.Completion

/-!
# `Orchestrator.Proofs.EventStream`: the events of a run

`Streamed` says what the events about a task are at any point of a run: its start, if it was
dispatched, then one event for its span, if the main loop received it, or a skip, if it was marked
without being dispatched. Its rules follow the steps of the main goroutine: `start`, `record`,
`drain` and `mark`.

Two kinds of tasks do not get the event that their span calls for. The drain records spans without
an event, and a span that a cancellation skipped is received as a failure. `stream_ok_iff` says that
a finished run has a well-formed stream exactly when it meets neither.

The condition is one on steps (`announces`). A step that does not meet it loses the property for
good, since a span is recorded once and an event that was not emitted then is never emitted later
(`allAnnounced_step`). So the theorem is exact for whole runs, not only for the first step that goes
wrong.

The two walks of the scheduler mark tasks and announce them at the same time (`Announced`), and for
them the stream is always right.
-/

set_option autoImplicit false

namespace Orchestrator.Proofs

open Orchestrator.Lib Orchestrator.Engine Orchestrator.Engine.Env
open scoped List

variable {B : Type} {env : Env B}

/-! ### The events about a task -/

/-- The types of the events about a task, oldest first. -/
def eventsOf (events : List Event) (id : String) : List EventType :=
  (events.filter (fun e => e.taskID = id)).map (·.type)

/-- Without events there is none about a task. -/
@[simp] theorem eventsOf_nil (id : String) : eventsOf [] id = [] := rfl

/-- The events of two parts of a run, one after the other. -/
@[simp] theorem eventsOf_append (l l' : List Event) (id : String) :
    eventsOf (l ++ l') id = eventsOf l id ++ eventsOf l' id := by
  simp [eventsOf]

/-- One event is about one task. -/
@[simp] theorem eventsOf_event (now : Nat) (type : EventType) (taskID id : String) :
    eventsOf [env.event now type taskID] id = if taskID = id then [type] else [] := by
  by_cases h : taskID = id <;> simp [eventsOf, Env.event, h]

/-- The event of a span that the main loop receives. -/
def receivedType (st : Status) : EventType :=
  if st ≠ .succeeded then .taskFailed else .taskSucceeded

/-- The events about a task that the state of a run calls for: a start if it was dispatched, an end
for each span of it that was received, and a skip if it has a span without a dispatch. -/
def streamOf (started : List String) (received : List TaskSpan) (spans : Dict String TaskSpan)
    (id : String) : List EventType :=
  (if id ∈ started then [.taskStarted] else []) ++
    (received.filter (fun sp => sp.id = id)).map (fun sp => receivedType sp.status) ++
    (if id ∉ started ∧ spans.get? id ≠ none then [.taskSkipped] else [])

/-- The events passed to `emit` are those the state calls for. With this no event has to be
remembered: the state says which there were. -/
structure Streamed (started : List String) (received : List TaskSpan)
    (spans : Dict String TaskSpan) (emitted : List Event) : Prop where
  events : ∀ id, eventsOf emitted id = streamOf started received spans id
  /-- A task that was not dispatched has a skipped span, if any. -/
  unstarted : ∀ id sp, id ∉ started → spans.get? id = some sp → sp.status = .skipped

/-! ### Marks and their events -/

/-- A walk emits one event for each task it marks, and it marks only tasks without a span. -/
structure Announced (spans : Dict String TaskSpan) (m : Marks) : Prop where
  keep : ∀ id sp, spans.get? id = some sp → m.spans.get? id = some sp
  skipped : ∀ id sp, spans.get? id = none → m.spans.get? id = some sp → sp.status = .skipped
  events : ∀ id, eventsOf m.emitted id
    = if spans.get? id = none ∧ m.spans.get? id ≠ none then [.taskSkipped] else []

/-- A walk that has marked nothing has announced nothing. -/
theorem Announced.nil (spans : Dict String TaskSpan) :
    Announced spans { spans := spans, seen := [], emitted := [] } where
  keep _ _ h := h
  skipped _ _ hnone h := by
    rw [hnone] at h
    cases h
  events id := by
    rw [if_neg fun h => h.2 h.1]
    rfl

/-- Marking one more task adds its span and its event together, so the two stay in step. -/
theorem Announced.mark {spans : Dict String TaskSpan} {m : Marks} (h : Announced spans m)
    (now : Nat) {c : String} (hc : m.spans.get? c = none) :
    Announced spans (env.markSkipped now m c) := by
  -- Only the marked task gets a span, and it had none before the walk.
  have hget : ∀ id, (env.markSkipped now m c).spans.get? id
      = if id = c then some { id := c, status := .skipped } else m.spans.get? id := by
    intro id
    by_cases hid : id = c
    · subst hid
      simp [markSkipped]
    · simp [markSkipped, hid]
  have hold : spans.get? c = none := by
    by_contra hne
    obtain ⟨sp, hsp⟩ := Option.ne_none_iff_exists'.mp hne
    rw [h.keep c sp hsp] at hc
    cases hc
  refine ⟨fun id sp hsp => ?_, fun id sp hnone hsp => ?_, fun id => ?_⟩
  · have hid : id ≠ c := by
      rintro rfl
      rw [hold] at hsp
      cases hsp
    rw [hget, if_neg hid]
    exact h.keep id sp hsp
  · rw [hget] at hsp
    split at hsp
    · cases hsp
      rfl
    · exact h.skipped id sp hnone hsp
  · show eventsOf (m.emitted ++ [env.event now .taskSkipped c]) id = _
    rw [eventsOf_append, eventsOf_event, h.events, hget]
    by_cases hid : id = c
    · subst hid
      simp [hold, hc]
    · simp [hid, Ne.symm hid]

/-- Marking a list of distinct tasks without a span. -/
theorem Announced.foldl {spans : Dict String TaskSpan} (now : Nat) :
    ∀ (new : List String) (m : Marks), Announced spans m → new.Nodup →
      (∀ c ∈ new, m.spans.get? c = none) →
      Announced spans (new.foldl (env.markSkipped now) m) := by
  intro new
  induction new with
  | nil => exact fun m h _ _ => h
  | cons c new ih =>
      intro m h hnd hfresh
      rw [List.nodup_cons] at hnd
      refine ih _ (h.mark now (hfresh c List.mem_cons_self)) hnd.2 fun d hd => ?_
      have hdc : d ≠ c := fun he => hnd.1 (he ▸ hd)
      show (m.spans.set c _).get? d = none
      rw [Dict.get?_set_ne _ _ hdc]
      exact hfresh d (List.mem_cons_of_mem c hd)

/-- `markDescendantsSkipped` emits one event for each task it marks. -/
theorem announced_descendants (hacc : Accepted env.wf) (now : Nat) (fromID : String)
    (spans : Dict String TaskSpan) :
    Announced spans (env.markDescendantsSkipped now fromID spans) := by
  obtain ⟨new, hw, hmarks⟩ := markDescendantsSkipped_spec hacc now fromID spans
  rw [hmarks]
  refine (Announced.nil spans).foldl now new _ hw.nodup fun c hc => ?_
  simpa [Dict.contains] using hw.fresh c hc

/-- `markAllUndispatchedSkipped` emits one event for each task it marks. -/
theorem announced_all (env : Env B) (now : Nat) (spans : Dict String TaskSpan) :
    Announced spans (env.markAllUndispatchedSkipped now spans) := by
  have key : ∀ (ts : List Task) (m : Marks), Announced spans m →
      Announced spans (ts.foldl (fun m t =>
        if m.spans.contains t.id then m else env.markSkipped now m t.id) m) := by
    intro ts
    induction ts with
    | nil => exact fun m h => h
    | cons t ts ih =>
        intro m h
        rw [List.foldl_cons]
        refine ih _ ?_
        cases hc : m.spans.contains t.id with
        | true => exact h
        | false => exact h.mark now (by simpa [Dict.contains] using hc)
  exact key env.wf.tasks _ (.nil spans)

/-! ### The rules of the stream -/

section Rules

variable {started : List String} {received : List TaskSpan} {spans : Dict String TaskSpan}
  {emitted : List Event}

/-- Before a run starts there is nothing to announce. -/
theorem Streamed.nil : Streamed [] [] .empty [] where
  events _ := rfl
  unstarted _ _ _ h := by cases h

/-- A task without a span is dispatched. -/
theorem Streamed.start (h : Streamed started received spans emitted) (env : Env B) (now : Nat)
    {tid : String} (hnew : tid ∉ started) (hnone : spans.get? tid = none)
    (hreceived : ∀ sp ∈ received, sp.id ≠ tid) :
    Streamed (started ++ [tid]) received spans
      (emitted ++ [env.event now .taskStarted tid]) := by
  refine ⟨fun id => ?_, fun id sp hid hsp => ?_⟩
  · rw [eventsOf_append, eventsOf_event, h.events]
    by_cases hid : tid = id
    · subst hid
      have hfilter : received.filter (fun sp => sp.id = tid) = [] :=
        List.filter_eq_nil_iff.mpr fun sp hsp => by simpa using hreceived sp hsp
      simp [streamOf, hnew, hnone, hfilter]
    · simp [streamOf, hid, Ne.symm hid]
  · exact h.unstarted id sp (fun hs => hid (List.mem_append_left _ hs)) hsp

/-- The span of a dispatched task is recorded without an event. -/
theorem Streamed.drain (h : Streamed started received spans emitted) {span : TaskSpan}
    (hid : span.id ∈ started) :
    Streamed started received (spans.set span.id span) emitted := by
  refine ⟨fun id => ?_, fun id sp hs hsp => ?_⟩
  · rw [h.events]
    by_cases hs : id ∈ started
    · simp [streamOf, hs]
    · have hne : id ≠ span.id := fun he => hs (he ▸ hid)
      simp [streamOf, hs, hne]
  · have hne : id ≠ span.id := fun he => hs (he ▸ hid)
    rw [Dict.get?_set_ne _ _ hne] at hsp
    exact h.unstarted id sp hs hsp

/-- The span of a dispatched task is received in the main loop. -/
theorem Streamed.record (h : Streamed started received spans emitted) (env : Env B) (now : Nat)
    {span : TaskSpan} (hid : span.id ∈ started) :
    Streamed started (received ++ [span]) (spans.set span.id span)
      (emitted ++ [env.event now (receivedType span.status) span.id]) := by
  have hdrain := h.drain hid
  refine ⟨fun id => ?_, hdrain.unstarted⟩
  rw [eventsOf_append, eventsOf_event, hdrain.events]
  by_cases hsp : span.id = id
  · subst hsp
    simp [streamOf, hid]
  · simp [streamOf, hsp]

/-- Tasks that are not dispatched are marked, each with the event that `streamOf` then asks for. -/
theorem Streamed.mark (h : Streamed started received spans emitted) {m : Marks}
    (hm : Announced spans m)
    (hstarted : ∀ id ∈ started, spans.get? id = none → m.spans.get? id = none) :
    Streamed started received m.spans (emitted ++ m.emitted) := by
  refine ⟨fun id => ?_, fun id sp hid hsp => ?_⟩
  · rw [eventsOf_append, h.events, hm.events]
    -- A dispatched task is not marked by the walk, so its events stay. The others get a skip when
    -- they are marked.
    by_cases hs : id ∈ started
    · have hno : ¬ (spans.get? id = none ∧ m.spans.get? id ≠ none) :=
        fun hnew => hnew.2 (hstarted id hs hnew.1)
      rw [if_neg hno]
      simp [streamOf, hs]
    · cases hold : spans.get? id with
      | none => simp [streamOf, hs, hold]
      | some sp => simp [streamOf, hs, hold, hm.keep id sp hold]
  · cases hold : spans.get? id with
    | none => exact hm.skipped id sp hold hsp
    | some x =>
        rw [hm.keep id x hold] at hsp
        cases hsp
        exact h.unstarted id _ hid hold

end Rules

/-! ### The stream of a run -/

/-- The stream of a state. -/
abbrev StreamedAt (s : State B) : Prop :=
  Streamed (goIds s.gos) s.main.received s.main.spans s.emitted

/-- A received span is recorded, and its task was dispatched. -/
theorem History.received {s : State B} (hh : History s) (h : RunInv env s) {sp : TaskSpan}
    (hsp : sp ∈ s.main.received) : sp.id ∈ goIds s.gos ∧ s.main.spans.get? sp.id ≠ none := by
  have hmem : sp ∈ recordedSpans s := hh.mem_iff.mp (List.mem_append_left _ hsp)
  obtain ⟨g, hg, rfl⟩ := List.mem_map.mp hmem
  rw [List.mem_filter] at hg
  rw [h.flight.span_id g hg.1]
  exact ⟨List.mem_map_of_mem hg.1, Option.isSome_iff_ne_none.mp hg.2⟩

/-- A step of the main goroutine keeps the stream. A dispatch emits the start, a completion the end,
and a walk the skips, each in the step that changes the state accordingly. -/
theorem StreamedAt.mainStepped (hacc : Accepted env.wf) {s s' : State B} (h : RunInv env s)
    (hh : History s) (hst : StreamedAt s) (hs : MainStepped env s s') : StreamedAt s' := by
  cases hs with
  | dispatch tid rest t hpc hr ht =>
      obtain ⟨-, rfl⟩ := hacc.taskMap_iff.mp ht
      have hphase := h.phase
      rw [Phase, hpc] at hphase
      obtain ⟨hbooks, -⟩ := h.books hphase.1
      have hready : t.id ∈ (ledger s.main s.gos).ready := by simp [ledger, hr]
      have hnone : s.main.spans.get? t.id = none :=
        statusOf_eq_none.mp (hbooks.ready_unlabelled hready)
      have hids : goIds (s.gos ++ [newGoroutine s t]) = goIds s.gos ++ [t.id] := by
        simp [goIds, newGoroutine]
      show Streamed (goIds (s.gos ++ [newGoroutine s t])) _ _ _
      rw [hids]
      refine hst.start env s.clock
        (fun hs => List.disjoint_of_nodup_append hbooks.nodup hs hready) hnone fun sp hsp hid => ?_
      exact (hid ▸ (hh.received h hsp).2) hnone
  | receive span rest r hpc hch hr =>
      obtain ⟨hgo, -, -⟩ := h.head_span hch
      have hrec := hst.record env s.clock hgo
      cases hr with
      | succeeded hstat =>
          have htype : receivedType span.status = .taskSucceeded := by simp [receivedType, hstat]
          rw [htype] at hrec
          exact hrec
      | failFast t hstat _ _ =>
          have htype : receivedType span.status = .taskFailed := by simp [receivedType, hstat]
          rw [htype] at hrec
          exact hrec
      | «continue» t hstat _ _ =>
          have htype : receivedType span.status = .taskFailed := by simp [receivedType, hstat]
          rw [htype] at hrec
          obtain ⟨new, -, hget, -, hnew⟩ := h.skip_walk hacc hch s.clock
          have hmark := hrec.mark (announced_descendants hacc s.clock span.id _)
            fun id hid hnone => by rw [hget, if_neg fun hn => hnew id hn hid]; exact hnone
          rw [List.append_assoc] at hmark
          exact hmark
  | drain span rest hpc hf hch =>
      obtain ⟨hgo, -, -⟩ := h.head_span hch
      exact Streamed.drain hst hgo
  | drained hpc hf =>
      -- Every dispatched task is recorded, so only the others are marked.
      refine hst.mark (announced_all env s.clock s.main.spans) fun id hid hnone => ?_
      obtain ⟨g, hg, rfl⟩ := List.mem_map.mp hid
      rw [(h.flight.all_recorded hf g hg).2] at hnone
      cases hnone
  | _ => exact hst

/-- The stream is what the state calls for, in every reachable state. -/
theorem reachable_streamed (hacc : Accepted env.wf) {s : State B}
    (hs : env.system.Reachable s) : StreamedAt s := by
  have hinit : StreamedAt env.initial := .nil
  refine hs.holds hinit fun s a s' hreach hst ha => ?_
  have h := reachable_runInv hacc hreach
  rcases step_inv ha with ⟨-, hm⟩ | ⟨i, b, g, -, hg, ht⟩ | ⟨-, rfl⟩ | ⟨d, -, rfl⟩
  · exact hst.mainStepped hacc h (reachable_history hacc hreach) hm
  · obtain ⟨g', hgs⟩ := ht.goStep
    have hids : goIds s'.gos = goIds s.gos := by
      rw [hgs.gos]
      exact map_set_of_eq _ hg (by rw [hgs.task])
    have hemitted : s'.emitted = s.emitted := by cases ht <;> rfl
    rw [StreamedAt, hids, hgs.main, hemitted]
    exact hst
  · exact hst
  · exact hst

/-! ### Well-formed streams -/

/-- The event that the end of a task calls for. A skip has one type, whether the task never started
or was cancelled. -/
def terminalType : Status → EventType
  | .succeeded => .taskSucceeded
  | .failed => .taskFailed
  | .skipped => .taskSkipped

/-- The event ends a task. -/
def isTerminal (type : EventType) : Bool := type ≠ .taskStarted

/-- The events about a task whose span has the given status. This is what a client has to find in
the stream, with the start missing when the task never started. -/
structure TaskStream (st : Status) (l : List EventType) : Prop where
  /-- The task is started at most once. -/
  started : l.count EventType.taskStarted ≤ 1
  /-- Exactly one event ends it, and its type is that of the status. -/
  terminal : l.filter isTerminal = [terminalType st]
  /-- The end comes after the start. -/
  order : ∀ (i j : Nat) (type : EventType), l[i]? = some .taskStarted → l[j]? = some type →
    isTerminal type = true → i < j

/-- The stream of a finished run is well-formed: each task has a span in the report, and the
events about it are those of a task with this span. -/
def StreamOk (wf : Workflow) (events : List Event) (rep : Report) : Prop :=
  ∀ t ∈ wf.tasks, ∃ sp ∈ rep.tasks, sp.id = t.id ∧ TaskStream sp.status (eventsOf events t.id)

/-- The stream of a task that was started and whose end was announced. -/
theorem taskStream_started (st : Status) : TaskStream st [.taskStarted, terminalType st] where
  started := by cases st <;> decide
  terminal := by cases st <;> rfl
  order i j type hi hj hterm := by
    have hzero : i = 0 := by
      cases i with
      | zero => rfl
      | succ i =>
          cases i with
          | zero => cases st <;> cases hi
          | succ i => cases hi
    cases j with
    | zero =>
        cases hj
        cases hterm
    | succ j => omega

/-- The stream of a task that was skipped without being started. -/
theorem taskStream_skipped : TaskStream .skipped [.taskSkipped] where
  started := by decide
  terminal := rfl
  order i j type hi _ _ := by
    cases i with
    | zero => cases hi
    | succ i => cases hi

/-- The main loop has received every dispatched task, and none with a skipped span. -/
structure AllAnnounced (m : Main) : Prop where
  drained : m.drained = []
  received : ∀ sp ∈ m.received, sp.status ≠ .skipped

/-- The spans of a finished run have distinct ids. -/
theorem History.ids_nodup {s : State B} (hh : History s) (h : RunInv env s)
    (hzero : ¬ 0 < s.main.inFlight) :
    ((s.main.received ++ s.main.drained).map (·.id)).Nodup := by
  have hperm := (hh.all h hzero).map (·.id)
  have hids : (s.gos.map (·.span)).map (·.id) = goIds s.gos := by
    rw [List.map_map]
    exact List.map_congr_left fun g hg => h.flight.span_id g hg
  rw [hids] at hperm
  exact hperm.nodup_iff.mpr h.flight.ids_nodup

/-- The events about a dispatched task of a finished run, when its span was received. -/
theorem eventsOf_received {s : State B} (h : RunInv env s) (hh : History s) (hst : StreamedAt s)
    (hzero : ¬ 0 < s.main.inFlight) {sp : TaskSpan} (hsp : sp ∈ s.main.received) :
    eventsOf s.emitted sp.id = [.taskStarted, receivedType sp.status] := by
  have hnd := hh.ids_nodup h hzero
  rw [List.map_append] at hnd
  have hfilter := filter_key_eq (·.id) hnd.of_append_left hsp
  rw [hst.events, streamOf, hfilter]
  simp [(hh.received h hsp).1]

/-- The events about a dispatched task of a finished run, when its span was drained. -/
theorem eventsOf_drained {s : State B} (h : RunInv env s) (hh : History s) (hst : StreamedAt s)
    (hzero : ¬ 0 < s.main.inFlight) {sp : TaskSpan} (hsp : sp ∈ s.main.drained) :
    eventsOf s.emitted sp.id = [.taskStarted] := by
  have hnd := hh.ids_nodup h hzero
  rw [List.map_append] at hnd
  have hgo : sp.id ∈ goIds s.gos := by
    obtain ⟨g, hg, rfl⟩ :=
      List.mem_map.mp ((hh.all h hzero).mem_iff.mp (List.mem_append_right _ hsp))
    rw [h.flight.span_id g hg]
    exact List.mem_map_of_mem hg
  have hfilter : s.main.received.filter (fun x => x.id = sp.id) = [] := by
    refine List.filter_eq_nil_iff.mpr fun x hx => ?_
    rw [decide_eq_true_iff]
    exact fun hid => List.disjoint_of_nodup_append hnd (List.mem_map_of_mem hx)
      (hid ▸ List.mem_map_of_mem hsp)
  rw [hst.events, streamOf, hfilter]
  simp [hgo]

/-- The span that the report holds for a dispatched task of a finished run. -/
theorem report_span {s : State B} (h : RunInv env s) (hh : History s)
    (hzero : ¬ 0 < s.main.inFlight) {sp : TaskSpan}
    (hsp : sp ∈ s.main.received ++ s.main.drained) :
    (∃ t ∈ env.wf.tasks, t.id = sp.id) ∧ s.main.spans.get? sp.id = some sp := by
  obtain ⟨g, hg, rfl⟩ := List.mem_map.mp ((hh.all h hzero).mem_iff.mp hsp)
  rw [h.flight.span_id g hg]
  exact ⟨⟨g.task, h.task_mem g hg, rfl⟩, (h.flight.all_recorded hzero g hg).2⟩

/-- A finished run has a well-formed stream when nothing in it goes without its event. -/
theorem streamOk_iff_announced (hacc : Accepted env.wf) {s : State B}
    (hs : env.system.Reachable s) {rep : Report} (hrep : s.report? = some rep) :
    StreamOk env.wf s.emitted rep ↔ AllAnnounced s.main := by
  have h := reachable_runInv hacc hs
  have hh := reachable_history hacc hs
  have hst := reachable_streamed hacc hs
  obtain ⟨hzero, htotal, now, rfl⟩ := h.returned hrep
  constructor
  · intro hok
    -- The events about the task of a received or drained span end as the span says.
    have hend : ∀ sp ∈ s.main.received ++ s.main.drained,
        (eventsOf s.emitted sp.id).filter isTerminal = [terminalType sp.status] := by
      intro sp hsp
      obtain ⟨⟨t, ht, hid⟩, hget⟩ := report_span h hh hzero hsp
      obtain ⟨x, hx, hxid, hstream⟩ := hok t ht
      obtain ⟨id', -, hx⟩ := mem_report_tasks.mp hx
      rw [← h.spans.key id' x hx, hxid, hid, hget] at hx
      cases hx
      rw [← hid]
      exact hstream.terminal
    constructor
    · refine List.eq_nil_iff_forall_not_mem.mpr fun sp hsp => ?_
      have hlast := hend sp (List.mem_append_right _ hsp)
      rw [eventsOf_drained h hh hst hzero hsp] at hlast
      cases hlast
    · intro sp hsp hskip
      have hlast := hend sp (List.mem_append_left _ hsp)
      rw [eventsOf_received h hh hst hzero hsp, hskip] at hlast
      cases hlast
  · intro hall t ht
    obtain ⟨sp, hsp⟩ := Option.ne_none_iff_exists'.mp (htotal t.id (List.mem_map_of_mem ht))
    have hid := h.spans.key _ _ hsp
    refine ⟨sp, mem_report_tasks.mpr ⟨t.id, List.mem_map_of_mem ht, hsp⟩, hid, ?_⟩
    by_cases hgo : t.id ∈ goIds s.gos
    · obtain ⟨g, hg, hgid⟩ := List.mem_map.mp hgo
      have hget := (h.flight.all_recorded hzero g hg).2
      rw [hgid, hsp] at hget
      cases hget
      have hmem : g.span ∈ s.main.received := by
        have := (hh.all h hzero).mem_iff.mpr (List.mem_map_of_mem hg)
        rwa [hall.drained, List.append_nil] at this
      rw [← hid, eventsOf_received h hh hst hzero hmem]
      have htype : receivedType g.span.status = terminalType g.span.status := by
        have hne := hall.received _ hmem
        cases hstat : g.span.status with
        | succeeded => rfl
        | failed => rfl
        | skipped => exact absurd hstat hne
      rw [htype]
      exact taskStream_started _
    · have hnone : s.main.received.filter (fun x => x.id = t.id) = [] :=
        List.filter_eq_nil_iff.mpr fun x hx => by
          rw [decide_eq_true_iff]
          exact fun he => hgo (he ▸ (hh.received h hx).1)
      rw [hst.unstarted t.id sp hgo hsp, hst.events, streamOf, hnone]
      simp only [hgo, hsp, if_false, List.map_nil, List.append_nil, List.nil_append,
        not_false_eq_true, ne_eq, reduceCtorEq, and_self, if_true]
      exact taskStream_skipped

/-! ### The runs with a well-formed stream -/

/-- The condition on a step: the main loop receives no skipped span, and the drain finds no task
in flight. -/
def announces (s : State B) : Action → Bool
  | .main =>
    match s.main.pc with
    | .recv => s.doneCh.head?.all (fun sp => sp.status ≠ .skipped)
    | .drain => decide (¬ 0 < s.main.inFlight)
    | _ => true
  | _ => true

/-- A step keeps `AllAnnounced` when it meets the condition, and loses it otherwise. It is lost
where a span is recorded without an event, and nothing brings the event back. -/
theorem allAnnounced_step {s s' : State B} {a : Action} (ha : env.step? s a = some s') :
    AllAnnounced s'.main ↔ AllAnnounced s.main ∧ announces s a = true := by
  -- The two histories decide, and most steps leave both alone.
  have hsame : s'.main.drained = s.main.drained → s'.main.received = s.main.received →
      announces s a = true →
      (AllAnnounced s'.main ↔ AllAnnounced s.main ∧ announces s a = true) := by
    intro hd hr hcond
    rw [and_iff_left hcond]
    exact ⟨fun h => ⟨hd ▸ h.drained, hr ▸ h.received⟩, fun h => ⟨hd ▸ h.drained, hr ▸ h.received⟩⟩
  rcases step_inv ha with ⟨rfl, hm⟩ | ⟨i, b, g, rfl, hg, ht⟩ | ⟨rfl, rfl⟩ | ⟨d, rfl, rfl⟩
  · cases hm with
    | receive span rest r hpc hch hr =>
        have hcond : announces s .main = true ↔ span.status ≠ .skipped := by
          simp [announces, hpc, hch]
        have hmain : r.main.drained = s.main.drained ∧
            r.main.received = s.main.received ++ [span] := by
          cases hr <;> exact ⟨rfl, rfl⟩
        rw [hcond]
        constructor
        · rintro ⟨hd, hrec⟩
          rw [hmain.1] at hd
          rw [hmain.2] at hrec
          exact ⟨⟨hd, fun sp hsp => hrec sp (List.mem_append_left _ hsp)⟩,
            hrec span (List.mem_append_right _ (List.mem_singleton.mpr rfl))⟩
        · rintro ⟨⟨hd, hrec⟩, hspan⟩
          refine ⟨hmain.1.trans hd, fun sp hsp => ?_⟩
          rw [hmain.2, List.mem_append, List.mem_singleton] at hsp
          rcases hsp with hsp | rfl
          · exact hrec sp hsp
          · exact hspan
    | drain span rest hpc hf hch =>
        have hcond : announces s .main = false := by simp [announces, hpc, hf]
        refine iff_of_false (fun h => ?_) (fun h => ?_)
        · exact absurd h.drained (by simp)
        · rw [hcond] at h
          cases h.2
    | drained hpc hf => exact hsame rfl rfl (by simp [announces, hpc, hf])
    | enter hpc _ => exact hsame rfl rfl (by simp [announces, hpc])
    | leave hpc _ _ => exact hsame rfl rfl (by simp [announces, hpc])
    | block hpc _ => exact hsame rfl rfl (by simp [announces, hpc])
    | dispatch tid rest t hpc _ _ => exact hsame rfl rfl (by simp [announces, hpc])
    | finish hpc => exact hsame rfl rfl (by simp [announces, hpc])
  · obtain ⟨g', hgs⟩ := ht.goStep
    exact hsame (by rw [hgs.main]) (by rw [hgs.main]) rfl
  · exact hsame rfl rfl rfl
  · exact hsame rfl rfl rfl

/-- A finished run of a validated workflow has a well-formed stream exactly when each of its steps
meets the condition.

A stream is well-formed if the received spans were all announced as what they are (`AllAnnounced`,
`streamOk_iff_announced`). A step that meets the condition keeps this and any other step loses it
for good (`allAnnounced_step`), so the condition on the whole run can be read off its end. -/
theorem stream_ok_iff (env : Env B) (iter : MapOrder) (hval : env.wf.validate iter = .ok ())
    {as : List Action} {s : State B} (hrun : env.system.run? as = some s) {rep : Report}
    (hrep : s.report? = some rep) :
    StreamOk env.wf s.emitted rep ↔
      env.system.Meets (fun s a => announces s a = true) env.initial as := by
  have hstart : AllAnnounced env.initial.main := ⟨rfl, fun sp hsp => by cases hsp⟩
  have hend := System.meets_iff (Q := fun s : State B => AllAnnounced s.main)
    (fun _ _ _ _ ha => allAnnounced_step ha) .init hrun
  rw [streamOk_iff_announced (accepted_of_validate hval) (System.reachable_of_run hrun) hrep, hend]
  exact and_iff_right hstart

/-- A result that says the skill failed. -/
def failure : Result := { err := some { type := "E", message := "m", retryable := false } }

/-- The run of a task that fails and lets the run go on, with a task that depends on it. -/
theorem stream_ok_iff_skipped :
    ∃ (env : Env Unit) (s : State Unit) (rep : Report), s.report? = some rep ∧
      eventsOf s.emitted "a" = [.taskStarted, .taskFailed] ∧
      eventsOf s.emitted "b" = [.taskSkipped] ∧ StreamOk env.wf s.emitted rep := by
  have hrun : ((Env.system (plainEnv (plainWorkflow
        [plainTask "a" [] "continue", plainTask "b" ["a"] ""]))).guard announces).run?
      ([Action.main, .main, .main] ++ wholeTask 0 failure ++ [Action.main, .main, .main]) |>.any
        (fun s => s.report?.isSome && eventsOf s.emitted "a" = [.taskStarted, .taskFailed] &&
          eventsOf s.emitted "b" = [.taskSkipped]) := by decide +kernel
  obtain ⟨s, hs, hp⟩ := (Option.any_eq_true _ _).mp hrun
  obtain ⟨hs, hmeets⟩ := System.meets_of_guard hs
  simp only [Bool.and_eq_true, decide_eq_true_eq] at hp
  obtain ⟨rep, hrep⟩ := Option.isSome_iff_exists.mp hp.1.1
  exact ⟨_, s, rep, hrep, hp.1.2, hp.2, (stream_ok_iff _ .insertion (by rfl) hs hrep).mpr hmeets⟩

/-- Two tasks that fail the run when they fail. -/
def failFastPair : Env Unit := plainEnv (plainWorkflow [plainTask "a" [] "", plainTask "b" [] ""])

/-- A task in flight when another one fails the run gets no event for its end, and a task that a
cancellation skipped is announced as failed. -/
theorem stream_not_ok :
    (∃ s rep, failFastPair.system.Reachable s ∧ s.report? = some rep ∧
      eventsOf s.emitted "b" = [.taskStarted] ∧ ¬ StreamOk failFastPair.wf s.emitted rep) ∧
    ∃ s rep, loneContinue.system.Reachable s ∧ s.report? = some rep ∧
      eventsOf s.emitted "a" = [.taskStarted, .taskFailed] ∧
      ¬ StreamOk loneContinue.wf s.emitted rep := by
  constructor
  · -- The first run ends by `fail_fast` while `b` is in flight, and drains its span.
    have hrun : (failFastPair.system.run?
        ([Action.main, .main, .main, .main] ++ wholeTask 0 failure ++ [Action.main] ++
          wholeTask 1 {} ++ [Action.main, .main, .main])).any
          (fun s => s.report?.isSome && eventsOf s.emitted "b" = [.taskStarted]) = true := by
      rfl
    obtain ⟨s, hs, hp⟩ := System.exists_of_run hrun
    rw [Bool.and_eq_true, decide_eq_true_eq] at hp
    obtain ⟨rep, hrep⟩ := Option.isSome_iff_exists.mp hp.1
    refine ⟨s, rep, hs, hrep, hp.2, fun hok => ?_⟩
    obtain ⟨sp, -, -, hstream⟩ := hok (plainTask "b" [] "") (by simp [failFastPair, plainEnv,
      plainWorkflow])
    have hterm := hstream.terminal
    rw [show (plainTask "b" [] "").id = "b" from rfl, hp.2] at hterm
    cases hterm
  · have hrun : (loneContinue.system.run?
        [.main, .main, .main, .cancel, .task 0 .resolve, .task 0 .cancelSlot, .task 0 .send, .main,
          .main, .main]).any
          (fun s => s.report?.any (fun rep => rep.tasks.all (fun sp => sp.status = .skipped)) &&
            eventsOf s.emitted "a" = [.taskStarted, .taskFailed]) = true := by rfl
    obtain ⟨s, hs, hp⟩ := System.exists_of_run hrun
    rw [Bool.and_eq_true, decide_eq_true_eq] at hp
    obtain ⟨rep, hrep, hall⟩ := (Option.any_eq_true _ _).mp hp.1
    refine ⟨s, rep, hs, hrep, hp.2, fun hok => ?_⟩
    obtain ⟨sp, hsp, -, hstream⟩ := hok (plainTask "a" [] "continue") (by simp [loneContinue,
      plainEnv, plainWorkflow])
    have hskip : sp.status = .skipped := by simpa using List.all_eq_true.mp hall sp hsp
    have hterm := hstream.terminal
    rw [show (plainTask "a" [] "continue").id = "a" from rfl, hp.2, hskip] at hterm
    cases hterm

end Orchestrator.Proofs
