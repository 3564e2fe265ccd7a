import Orchestrator.Proofs.DispatchSafety

/-!
# `Orchestrator.Proofs.Usage`: where the usage of a run ends up

An attempt's usage is merged into the span of its task, and the main loop adds a received span to
the totals. Two flows are cut: `ToolCalls` of a result goes nowhere, and the `fail_fast` drain
records spans without adding them.

* `UsageOk`: the tokens of a span are the sums over the results its attempts returned.
* `History`: the spans received in the main loop and in the drain are, together, the recorded spans
  of the dispatched tasks.
* `usage_conserved_iff`: the totals of a report account for everything exactly when what the two cut
  flows carry sums to zero.

The sums of tokens are those of `int64`, which wrap around, in the span and in the totals alike. As
long as the true sums fit, the wrapped ones are equal to them (`SumsFit`), and a wrapped sum of
wrapped sums is the wrapped sum of all, so it does not matter in which order the spans come.

At the end of a run every dispatched task has been received, in the main loop or in the drain, and
never in both. So a sum over all results splits into a part that the totals have and a part that
they miss (`sum_received_add_drained`), and the theorem is a statement about the second part.
-/

set_option autoImplicit false

namespace Orchestrator.Proofs

open Orchestrator.Lib Orchestrator.Engine Orchestrator.Engine.Env
open scoped List

variable {B : Type} {env : Env B}

/-! ### From results to spans -/

/-- The input tokens of a usage record, when there is one. -/
def inTokens (u : Option LLMUsage) : Int := (u.map (·.tokensIn)).getD 0

/-- The output tokens of a usage record, when there is one. -/
def outTokens (u : Option LLMUsage) : Int := (u.map (·.tokensOut)).getD 0

/-- Merging a result adds its tokens to those of the span. -/
theorem mergeUsage_tokens (env : Env B) (span : TaskSpan) (res : Result) {m n : Int}
    (hin : inTokens span.llm = int64 m) (hout : outTokens span.llm = int64 n) :
    inTokens (env.mergeUsage span res).llm = int64 (m + inTokens res.llmUsage) ∧
      outTokens (env.mergeUsage span res).llm = int64 (n + outTokens res.llmUsage) := by
  unfold mergeUsage
  cases hres : res.llmUsage with
  | none => simpa [inTokens, outTokens] using ⟨hin, hout⟩
  | some u =>
      -- A span without usage begins with zeros.
      have hm : inTokens (some ((span.llm.getD ⟨u.provider, u.model, 0, 0⟩))) = int64 m := by
        rw [← hin]
        cases span.llm <;> rfl
      have hn : outTokens (some ((span.llm.getD ⟨u.provider, u.model, 0, 0⟩))) = int64 n := by
        rw [← hout]
        cases span.llm <;> rfl
      refine ⟨?_, ?_⟩
      · show int64 (inTokens (some ((span.llm.getD ⟨u.provider, u.model, 0, 0⟩))) + u.tokensIn) = _
        rw [hm, int64_add_left]
        rfl
      · show int64 (outTokens (some ((span.llm.getD ⟨u.provider, u.model, 0, 0⟩))) +
          u.tokensOut) = _
        rw [hn, int64_add_left]
        rfl

/-- The tokens of a goroutine's span are the 64-bit sums over the results returned to it. -/
structure UsageOk (g : Goroutine) : Prop where
  tokensIn : inTokens g.span.llm = int64 (g.returned.map (fun r => inTokens r.llmUsage)).sum
  tokensOut : outTokens g.span.llm = int64 (g.returned.map (fun r => outTokens r.llmUsage)).sum
  fresh : g.pc = .resolve → g.returned = []

/-- The return of `Execute` keeps `UsageOk`. -/
theorem UsageOk.afterExecute {g : Goroutine} (h : UsageOk g) (res : Result)
    (err : Option String) (now : Nat) : UsageOk (env.afterExecute g res err now) := by
  have hllm : (env.afterExecute g res err now).span.llm = (env.mergeUsage g.span res).llm := by
    rcases afterExecute_cases env g now res err with
      ⟨e, -, -, he⟩ | ⟨e, -, -, he⟩ | ⟨-, -, he⟩ <;> rw [he] <;> rfl
  obtain ⟨hin, hout⟩ := mergeUsage_tokens env g.span res h.tokensIn h.tokensOut
  refine ⟨?_, ?_, ?_⟩
  · rw [hllm, hin]
    simp
  · rw [hllm, hout]
    simp
  · intro hpc
    rcases afterExecute_pc env g now res err with h | h <;> simp [h] at hpc

/-- A step of a task goroutine keeps `UsageOk`. -/
theorem UsageOk.taskStep {s s' : State B} {i : Nat} {g : Goroutine} {a : TaskAction}
    (hall : ∀ x ∈ s.gos, UsageOk x) (hg : g ∈ s.gos) (h : TaskStep env s i g a s') :
    ∀ x ∈ s'.gos, UsageOk x := by
  have hok := hall g hg
  have hset : ∀ g' : Goroutine, UsageOk g' → ∀ x ∈ s.gos.set i g', UsageOk x :=
    fun g' hg' => forall_mem_set hall hg'
  -- A goroutine past `resolve` that keeps its usage record and its results.
  have hkeep : ∀ g' : Goroutine, g'.span.llm = g.span.llm → g'.returned = g.returned →
      g'.pc ≠ .resolve → UsageOk g' := fun g' hllm hret hpc =>
    ⟨by rw [hllm, hret]; exact hok.tokensIn, by rw [hllm, hret]; exact hok.tokensOut,
      fun h => absurd h hpc⟩
  cases h with
  | resolve hpc =>
      refine hset _ ⟨?_, ?_, fun hp => ?_⟩
      · simp [hok.fresh hpc, inTokens, int64]
      · simp [hok.fresh hpc, outTokens, int64]
      · rcases resolveInputs_pc env g s.clock with h | h <;> simp [h] at hp
  | grantGlobal b _ _ =>
      refine hset _ (hkeep _ rfl rfl ?_)
      rcases afterGlobal_pc g s.provLimiters with h | h <;> simp [h]
  | ret res err _ => exact hset _ (hok.afterExecute res err s.clock)
  | wake _ =>
      refine hset _ (hkeep _ (by simp) (by simp) ?_)
      rcases enterAttempt_pc env g s.clock (g.span.attempts + 1) with h | h <;> simp [h]
  | takeSlot _ _ => exact hset _ (hkeep _ rfl rfl (by simp))
  | cancelSlot _ _ => exact hset _ (hkeep _ rfl rfl (by simp))
  | denyGlobal b _ _ => exact hset _ (hkeep _ rfl rfl (by simp))
  | grantProvider b b' _ _ _ => exact hset _ (hkeep _ rfl rfl (by simp))
  | denyProvider b b' _ _ _ => exact hset _ (hkeep _ rfl rfl (by simp))
  | timerGlobal _ => exact hset _ (hkeep _ rfl rfl (by simp))
  | timerProvider _ => exact hset _ (hkeep _ rfl rfl (by simp))
  | cancelWait _ _ => exact hset _ (hkeep _ rfl rfl (by simp))
  | call _ => exact hset _ (hkeep _ rfl rfl (by simp))
  | send _ _ => exact hset _ (hkeep _ rfl rfl (by simp))

/-- `UsageOk` holds of every goroutine in every reachable state. -/
theorem reachable_usageOk {s : State B} (hs : env.system.Reachable s) :
    ∀ g ∈ s.gos, UsageOk g := by
  refine hs.holds (P := fun s => ∀ g ∈ s.gos, UsageOk g) ?_ fun s a s' _ hall ha => ?_
  · simp [system, Env.initial]
  · rcases step_inv ha with ⟨-, hm⟩ | ⟨i, b, g, -, hg, ht⟩ | ⟨-, rfl⟩ | ⟨d, -, rfl⟩
    · rcases hm.gos with hgos | ⟨t, hgos⟩
      · rw [hgos]
        exact hall
      · intro g hg
        rw [hgos, List.mem_append, List.mem_singleton] at hg
        rcases hg with hg | rfl
        · exact hall g hg
        · exact ⟨rfl, rfl, fun _ => rfl⟩
    · exact UsageOk.taskStep hall (List.mem_of_getElem? hg) ht
    · exact hall
    · exact hall

/-! ### From spans to the main goroutine -/

/-- The spans of the dispatched tasks that the main goroutine has recorded. -/
def recordedSpans (s : State B) : List TaskSpan :=
  (s.gos.filter (fun g => (s.main.spans.get? g.task.id).isSome)).map (·.span)

/-- The main goroutine has received exactly the recorded spans, each once. -/
def History (s : State B) : Prop := s.main.received ++ s.main.drained ~ recordedSpans s

/-- A step keeps `History`. -/
theorem History.step (hacc : Accepted env.wf) {s s' : State B} {a : Action} (h : RunInv env s)
    (hh : History s) (hs : env.step? s a = some s') : History s' := by
  have h' := h.step hacc hs
  rcases step_inv hs with ⟨-, hm⟩ | ⟨i, b, g, -, hg, ht⟩ | ⟨-, rfl⟩ | ⟨d, -, rfl⟩
  · cases h.spanStep hacc hm with
    | quiet _ hhist hgos hspans =>
        have hold : s.gos.filter (fun g => (s'.main.spans.get? g.task.id).isSome)
            = s.gos.filter (fun g => (s.main.spans.get? g.task.id).isSome) :=
          List.filter_congr fun g hg => by rw [hspans _ (List.mem_map_of_mem hg)]
        have hrec : recordedSpans s' = recordedSpans s := by
          rcases hgos with hgos | ⟨t, hgos⟩
          · rw [recordedSpans, recordedSpans, hgos, hold]
          · have hnone := h'.flight.running (newGoroutine s t) (by rw [hgos]; simp)
              (by simp [newGoroutine])
            rw [recordedSpans, recordedSpans, hgos, List.filter_append, hold]
            simp [hnone]
        rw [History, hhist.1, hhist.2, hrec]
        exact hh
    | record span hch hgos hhist hspans _ =>
        have hf := h.flight
        rw [hch] at hf
        obtain ⟨g₀, hg₀, -, rfl, hid, hnone⟩ := hf.head_go
        have hnd : s.gos.Nodup := List.Nodup.of_map _ h.flight.ids_nodup
        have hrec : s'.main.spans.get? g₀.task.id = some g₀.span := by
          rw [hspans _ (List.mem_map_of_mem hg₀), if_pos hid]
        have hgain := filter_gain_one
          (p := fun g : Goroutine => (s.main.spans.get? g.task.id).isSome)
          (q := fun g : Goroutine => (s'.main.spans.get? g.task.id).isSome) hnd hg₀
          (by simp [hid, hnone]) (by simp [hrec])
          (fun g hg hne => by
            rw [hspans _ (List.mem_map_of_mem hg), if_neg]
            exact fun he => hne (h.flight.go_unique hg hg₀ (he.trans hid.symm)))
        have hmap := hgain.map (fun g : Goroutine => g.span)
        rw [History, recordedSpans, hgos]
        exact hhist.trans ((hh.cons g₀.span).trans hmap.symm)
  · obtain ⟨g', hgs⟩ := ht.goStep
    -- The goroutine is not recorded before the step, and neither is it after.
    have hnone := h.flight.running g (List.mem_of_getElem? hg) hgs.not_done
    rw [History, recordedSpans, hgs.main, hgs.gos,
      filter_set_of_false hg (by simp [hnone]) (by simp [hgs.task, hnone])]
    exact hh
  · exact hh
  · exact hh

/-- `History` holds in every reachable state. -/
theorem reachable_history (hacc : Accepted env.wf) {s : State B}
    (hs : env.system.Reachable s) : History s :=
  hs.holds (List.Perm.refl [] : History env.initial)
    fun _ _ _ hr hh ha => hh.step hacc (reachable_runInv hacc hr) ha

/-- The totals are the sums over the spans received in the main loop, of 64 bits for the tokens. -/
structure TotalsOk (m : Main) : Prop where
  tokensIn : m.totals.llmTokensIn = int64 (m.received.map (fun sp => inTokens sp.llm)).sum
  tokensOut : m.totals.llmTokensOut = int64 (m.received.map (fun sp => outTokens sp.llm)).sum
  toolCalls : m.totals.toolCalls = 0
  retries : m.totals.retries = (m.received.map (fun sp => sp.attempts - 1)).sum

/-- Counting a received span keeps `TotalsOk`. -/
theorem TotalsOk.record {m : Main} (h : TotalsOk m) (span : TaskSpan) :
    TotalsOk (recordSpan m span) := by
  have hin := h.tokensIn
  have hout := h.tokensOut
  -- Adding modulo 2^64 one by one is adding all first and reducing the sum.
  have hadd : addTotals m.totals span =
      { llmTokensIn := int64
          ((m.received.map fun sp => inTokens sp.llm).sum + inTokens span.llm)
        llmTokensOut := int64
          ((m.received.map fun sp => outTokens sp.llm).sum + outTokens span.llm)
        toolCalls := m.totals.toolCalls
        retries := m.totals.retries + (span.attempts - 1) } := by
    unfold addTotals
    cases span.llm with
    | none => simp [inTokens, outTokens, hin, hout]
    | some u => simp [inTokens, outTokens, hin, hout, int64_add_left]
  constructor
  · simp [recordSpan, hadd]
  · simp [recordSpan, hadd]
  · simp [recordSpan, hadd, h.toolCalls]
  · simp [recordSpan, hadd, h.retries]

/-- `TotalsOk` holds in every reachable state. -/
theorem reachable_totalsOk {s : State B} (hs : env.system.Reachable s) : TotalsOk s.main := by
  refine hs.holds (P := fun s => TotalsOk s.main) ⟨rfl, rfl, rfl, rfl⟩ fun s a s' _ h ha => ?_
  rcases step_inv ha with ⟨-, hm⟩ | ⟨i, b, g, -, hg, ht⟩ | ⟨-, rfl⟩ | ⟨d, -, rfl⟩
  · cases hm with
    | receive span rest r hpc hch hr =>
        have hrec := h.record span
        cases hr <;> exact ⟨hrec.tokensIn, hrec.tokensOut, hrec.toolCalls, hrec.retries⟩
    | _ => exact ⟨h.tokensIn, h.tokensOut, h.toolCalls, h.retries⟩
  · obtain ⟨g', hgs⟩ := ht.goStep
    rw [hgs.main]
    exact h
  · exact h
  · exact h

/-! ### The totals of a report -/

/-- The results that `Execute` returned in the run. -/
def executeResults (s : State B) : List Result := s.gos.flatMap (·.returned)

/-- The goroutines whose spans were received in the drain. -/
def drainedGos (s : State B) : List Goroutine :=
  s.gos.filter (fun g => g.task.id ∈ s.main.drained.map (·.id))

/-- The goroutines whose spans were received in the main loop. -/
def receivedGos (s : State B) : List Goroutine :=
  s.gos.filter (fun g => g.task.id ∉ s.main.drained.map (·.id))

/-- The totals account for every result that `Execute` returned and for every retry, whether or not
the task was received in the main loop. -/
structure UsageConserved (s : State B) (rep : Report) : Prop where
  tokensIn : rep.totals.llmTokensIn
    = ((executeResults s).map (fun r => inTokens r.llmUsage)).sum
  tokensOut : rep.totals.llmTokensOut
    = ((executeResults s).map (fun r => outTokens r.llmUsage)).sum
  toolCalls : rep.totals.toolCalls = ((executeResults s).map (·.toolCalls)).sum
  retries : rep.totals.retries = (s.gos.map (fun g => g.span.attempts - 1)).sum

/-- What the two cut flows carry sums to zero: the tool calls of all results, and the usage and
the retries of the tasks received in the drain. -/
structure NothingLost (s : State B) : Prop where
  toolCalls : ((executeResults s).map (·.toolCalls)).sum = 0
  tokensIn : (((drainedGos s).flatMap (·.returned)).map (fun r => inTokens r.llmUsage)).sum = 0
  tokensOut : (((drainedGos s).flatMap (·.returned)).map (fun r => outTokens r.llmUsage)).sum = 0
  retries : ((drainedGos s).map (fun g => g.span.attempts - 1)).sum = 0

/-- The token sums of the totals do not overflow. Only the totals are added up, so only their sums
have to fit. -/
structure SumsFit (s : State B) : Prop where
  tokensIn : FitsInt64
    (((receivedGos s).flatMap (·.returned)).map (fun r => inTokens r.llmUsage)).sum
  tokensOut : FitsInt64
    (((receivedGos s).flatMap (·.returned)).map (fun r => outTokens r.llmUsage)).sum

/-- A sum over the results of some goroutines, one goroutine after the other. -/
theorem sum_returned (f : Result → Int) (gos : List Goroutine) :
    ((gos.flatMap (·.returned)).map f).sum = (gos.map (fun g => (g.returned.map f).sum)).sum := by
  induction gos with
  | nil => rfl
  | cons g gos ih => simp [ih]

/-- At the end of a run, the received spans are the spans of the dispatched tasks. -/
theorem History.all {s : State B} (hh : History s) (h : RunInv env s)
    (hzero : ¬ 0 < s.main.inFlight) :
    s.main.received ++ s.main.drained ~ s.gos.map (·.span) := by
  have hfilter : s.gos.filter (fun g => (s.main.spans.get? g.task.id).isSome) = s.gos :=
    List.filter_eq_self.mpr fun g hg => by simp [(h.flight.all_recorded hzero g hg).2]
  rw [History, recordedSpans, hfilter] at hh
  exact hh

/-- At the end of a run, the drained spans are the spans of the drained goroutines. -/
theorem drained_perm {s : State B} (hh : History s) (h : RunInv env s)
    (hzero : ¬ 0 < s.main.inFlight) : s.main.drained ~ (drainedGos s).map (·.span) := by
  have hperm := hh.all h hzero
  have hids : s.gos.map (fun g => g.span.id) = goIds s.gos :=
    List.map_congr_left fun g hg => h.flight.span_id g hg
  have hnd : (s.gos.map (·.span)).Nodup := by
    refine List.Nodup.of_map (·.id) ?_
    rw [List.map_map]
    exact hids ▸ h.flight.ids_nodup
  have hnd' : ((drainedGos s).map (·.span)).Nodup :=
    hnd.sublist (List.Sublist.map _ List.filter_sublist)
  refine (List.perm_ext_iff_of_nodup ?_ hnd').mpr fun sp => ?_
  · exact List.Nodup.of_append_right (hperm.nodup_iff.mpr hnd)
  · -- A drained span belongs to a goroutine, and ids tell goroutines apart.
    have hgo : ∀ x ∈ s.main.drained, ∃ g ∈ s.gos, g.span = x := fun x hx =>
      List.mem_map.mp (hperm.mem_iff.mp (List.mem_append_right _ hx))
    simp only [drainedGos, List.mem_map, List.mem_filter, decide_eq_true_iff]
    constructor
    · intro hsp
      obtain ⟨g, hg, rfl⟩ := hgo sp hsp
      exact ⟨g, ⟨hg, g.span, hsp, h.flight.span_id g hg⟩, rfl⟩
    · rintro ⟨g, ⟨hg, x, hx, hid⟩, rfl⟩
      obtain ⟨g', hg', rfl⟩ := hgo x hx
      have hgg : g' = g := h.flight.go_unique hg' hg (by rw [← h.flight.span_id g' hg', hid])
      exact hgg ▸ hx

/-- A goroutine is received in the drain or in the main loop. -/
theorem drained_append_received (s : State B) : drainedGos s ++ receivedGos s ~ s.gos := by
  have hreceived : receivedGos s
      = s.gos.filter (fun g => !decide (g.task.id ∈ s.main.drained.map (·.id))) :=
    List.filter_congr fun g _ => decide_not
  rw [hreceived]
  exact List.filter_append_perm _ s.gos

/-- A sum over the goroutines splits into the received part and the drained part. -/
theorem sum_received_add_drained (s : State B) (f : Goroutine → Int) :
    ((receivedGos s).map f).sum + ((drainedGos s).map f).sum = (s.gos.map f).sum := by
  have hsum := ((drained_append_received s).map f).sum_eq
  rw [List.map_append, List.sum_append, add_comm] at hsum
  exact hsum

/-- At the end of a run, the spans received in the main loop are those of the other goroutines. -/
theorem received_perm {s : State B} (hh : History s) (h : RunInv env s)
    (hzero : ¬ 0 < s.main.inFlight) : s.main.received ~ (receivedGos s).map (·.span) := by
  have hall := (hh.all h hzero).trans ((drained_append_received s).map (·.span)).symm
  rw [List.map_append] at hall
  have hdrained := (drained_perm hh h hzero).symm.append_right ((receivedGos s).map (·.span))
  have hboth := (hall.trans hdrained).trans List.perm_append_comm
  exact (List.perm_append_right_iff _).mp hboth

/-- The 64-bit sum of the totals, over the results of the goroutines received in the main loop. -/
theorem received_tokens {s : State B} (hh : History s) (h : RunInv env s)
    (hzero : ¬ 0 < s.main.inFlight) (f : TaskSpan → Int) (k : Result → Int)
    (hgo : ∀ g ∈ s.gos, f g.span = int64 (g.returned.map k).sum) :
    int64 (s.main.received.map f).sum
      = int64 (((receivedGos s).flatMap (·.returned)).map k).sum := by
  have hreceived : (s.main.received.map f).sum
      = ((receivedGos s).map fun g => int64 (g.returned.map k).sum).sum := by
    rw [((received_perm hh h hzero).map f).sum_eq, List.map_map]
    refine congrArg List.sum (List.map_congr_left fun g hg => ?_)
    exact hgo g (List.mem_filter.mp hg).1
  rw [hreceived, int64_sum, sum_returned]

/-- The totals of a report account for everything exactly when nothing is lost: no result reports a
tool call, and the tasks received in the drain of a failed run have used nothing and retried
nothing.

`TotalsOk` says that the totals are the sums over the spans received in the main loop, and `UsageOk`
that a span sums the results of its attempts. What `Execute` returned is the sum over those spans
and the drained ones (`received_tokens`), so the two differ by what the drain received. Tool calls
are never added up at all. -/
theorem usage_conserved_iff (env : Env B) (iter : MapOrder)
    (hval : env.wf.validate iter = .ok ()) {s : State B} (hs : env.system.Reachable s)
    {rep : Report} (hrep : s.report? = some rep) (hfit : SumsFit s) :
    UsageConserved s rep ↔ NothingLost s := by
  have hacc := accepted_of_validate hval
  have h := reachable_runInv hacc hs
  have hh := reachable_history hacc hs
  have htot := reachable_totalsOk hs
  have husage := reachable_usageOk hs
  obtain ⟨hzero, -, now, rfl⟩ := h.returned hrep
  -- The totals, as sums over the results that reach them.
  have hin : s.main.totals.llmTokensIn
      = (((receivedGos s).flatMap (·.returned)).map fun r => inTokens r.llmUsage).sum := by
    rw [htot.tokensIn, received_tokens hh h hzero _ _ fun g hg => (husage g hg).tokensIn]
    exact int64_eq_self_iff.mpr hfit.tokensIn
  have hout : s.main.totals.llmTokensOut
      = (((receivedGos s).flatMap (·.returned)).map fun r => outTokens r.llmUsage).sum := by
    rw [htot.tokensOut, received_tokens hh h hzero _ _ fun g hg => (husage g hg).tokensOut]
    exact int64_eq_self_iff.mpr hfit.tokensOut
  have hretries : s.main.totals.retries
      = ((receivedGos s).map fun g => g.span.attempts - 1).sum := by
    rw [htot.retries, ((received_perm hh h hzero).map fun sp => sp.attempts - 1).sum_eq,
      List.map_map]
    rfl
  have hcalls := htot.toolCalls
  -- The sums over everything, split into what reaches the totals and what does not.
  have hsplit : ∀ k : Result → Int, ((executeResults s).map k).sum
      = (((receivedGos s).flatMap (·.returned)).map k).sum
        + (((drainedGos s).flatMap (·.returned)).map k).sum := by
    intro k
    rw [executeResults, sum_returned, sum_returned, sum_returned]
    exact (sum_received_add_drained s _).symm
  have hsplitIn := hsplit fun r => inTokens r.llmUsage
  have hsplitOut := hsplit fun r => outTokens r.llmUsage
  have hsplitRetries := sum_received_add_drained s fun g => g.span.attempts - 1
  constructor
  · rintro ⟨h1, h2, h3, h4⟩
    simp only [report] at h1 h2 h3 h4
    refine ⟨?_, ?_, ?_, ?_⟩
    · rw [← h3, hcalls]
    · omega
    · omega
    · omega
  · rintro ⟨h1, h2, h3, h4⟩
    refine ⟨?_, ?_, ?_, ?_⟩
    · show s.main.totals.llmTokensIn = _
      omega
    · show s.main.totals.llmTokensOut = _
      omega
    · show s.main.totals.toolCalls = _
      rw [hcalls, h1]
    · show s.main.totals.retries = _
      omega

/-- One task with one retry. -/
def loneCaller : Env Unit :=
  plainEnv (plainWorkflow [{ plainTask "a" [] "" with
    retry := some { max := 1, backoff := "none", base := 0, jitter := false } }])

/-- Its run: the first attempt fails, the second one succeeds, and both have used tokens. -/
def loneCalls (toolCalls : Int) : List Action :=
  [.main, .main, .main, .task 0 .resolve] ++
    attempt 0 { err := some ⟨"E", "m", true⟩, llmUsage := some ⟨"p", "m", 3, 1⟩ } ++
    [.task 0 .wake] ++
    attempt 0 { toolCalls := toolCalls, llmUsage := some ⟨"p", "m", 4, 2⟩ } ++
    [.task 0 .send, .main, .main, .main]

/-- It can be checked on a state. -/
instance (s : State B) : Decidable (SumsFit s) :=
  decidable_of_iff (FitsInt64 _ ∧ FitsInt64 _) ⟨fun h => ⟨h.1, h.2⟩, fun h => ⟨h.1, h.2⟩⟩

/-- Without tool calls and without a drain the totals have the tokens of both attempts, and the
retry. -/
theorem usage_conserved_iff_loneCaller :
    ∃ s rep, loneCaller.system.Reachable s ∧ s.report? = some rep ∧ UsageConserved s rep ∧
      rep.totals = { llmTokensIn := 7, llmTokensOut := 3, retries := 1 } := by
  -- The first attempt uses tokens and fails, the second one uses some as well and succeeds.
  have hrun : (loneCaller.system.run? (loneCalls 0)).any
      (fun s => s.report?.any (fun rep => decide (SumsFit s) && decide (s.main.drained = []) &&
        decide (((executeResults s).map (·.toolCalls)).sum = 0) &&
        decide (rep.totals = { llmTokensIn := 7, llmTokensOut := 3, retries := 1 }))) = true := by
    decide +kernel
  obtain ⟨s, hs, hp⟩ := System.exists_of_run hrun
  obtain ⟨rep, hrep, hp⟩ := (Option.any_eq_true _ _).mp hp
  simp only [Bool.and_eq_true, decide_eq_true_eq] at hp
  obtain ⟨⟨⟨hfit, hdrained⟩, htools⟩, htotals⟩ := hp
  have hnone : drainedGos s = [] := by simp [drainedGos, hdrained]
  refine ⟨s, rep, hs, hrep, ?_, htotals⟩
  refine (usage_conserved_iff loneCaller .insertion (by rfl) hs hrep hfit).mpr ⟨htools, ?_, ?_, ?_⟩
  all_goals
    rw [hnone]
    rfl

/-- A tool call that an attempt reports is missing from the totals. -/
theorem usage_not_conserved :
    ¬ ∀ (env : Env Unit) (iter : MapOrder) (s : State Unit) (rep : Report),
      env.wf.validate iter = .ok () → env.system.Reachable s → s.report? = some rep →
      SumsFit s → UsageConserved s rep := by
  intro h
  have hrun : (loneCaller.system.run? (loneCalls 1)).any
      (fun s => s.report?.any (fun rep => decide (SumsFit s) && decide (rep.totals.toolCalls ≠
        ((executeResults s).map (·.toolCalls)).sum))) = true := by decide +kernel
  obtain ⟨s, hs, hp⟩ := System.exists_of_run hrun
  obtain ⟨rep, hrep, hp⟩ := (Option.any_eq_true _ _).mp hp
  rw [Bool.and_eq_true, decide_eq_true_eq, decide_eq_true_eq] at hp
  exact hp.2 (h loneCaller .insertion s rep (by rfl) hs hrep hp.1).toolCalls

end Orchestrator.Proofs
