import Orchestrator.Proofs.SpansKept

/-!
# `Orchestrator.Proofs.AttemptUsage`: the usage of the attempts of a Python run

Each attempt collects its usage in a context of its own. `_execute_task` writes the context of an
attempt over that of the attempt before, and drops the context of a handler that is cancelled; the
`fail_fast` branch of `run` drops whole spans. `attempts_counted_iff` says that a report accounts
for every attempt exactly when the contexts that are lost in these ways (`lost`) are empty.

`Coro.contexts` is the history of the contexts of a coroutine, one for each attempt that came to an
end. `ContextsOk` ties the span to them: the span has the usage of the last context that is `kept`,
and nothing of the earlier ones. It is an invariant of the steps of a coroutine
(`CoroStep.contextsOk`).

The rest is about sums. The totals of a report are sums over the spans that `run` processed
(`History.totals_eq`), and the sum over the contexts of a task is the usage in its span and the lost
usage (`sum_contexts`). The tokens and the tool calls are compared as sums and the decisions as
lists, so the account is complete exactly when the lost part adds nothing (`NothingLost`).

The witness is a run with a retry whose first attempt used nothing. In the counterexample the first
attempt used tokens.
-/

set_option autoImplicit false

namespace Orchestrator.Sdk.Runner

open Orchestrator.Lib Env
open scoped List

variable {env : Env}

/-! ### Contexts and spans -/

/-- The input tokens of a usage record, when there is one. -/
def inTokens (u : Option LlmUsage) : Int := (u.map (·.tokensIn)).getD 0

/-- The output tokens of a usage record, when there is one. -/
def outTokens (u : Option LlmUsage) : Int := (u.map (·.tokensOut)).getD 0

/-- The span has the usage of the last context. What earlier attempts collected is overwritten, and
a span without a context has collected nothing. -/
structure Recorded (sp : TaskSpan) (contexts : List SkillContext) : Prop where
  decisions : sp.decisions = (contexts.getLast?.map (·.decisions)).getD []
  llm : sp.llm = contexts.getLast?.bind (·.llmUsage)
  toolCalls : sp.toolCalls = (contexts.getLast?.map (·.toolCalls)).getD 0

/-- The contexts of the attempts before the one in which the task was cancelled, or of all. -/
def kept (c : Coro) : List SkillContext :=
  if c.span.status = .skipped then c.contexts.take (c.span.attempts - 1).toNat else c.contexts

/-- The coroutine is in an attempt. -/
def CoroPc.inAttempt (pc : CoroPc) : Bool :=
  pc.holds || pc = .slot || pc = .handler || pc = .lost

/-- The contexts of a coroutine, and what its span has of them. Where it raised, its last context
may be missing in the span. -/
structure ContextsOk (c : Coro) : Prop where
  recorded : c.pc.isRaised = false → Recorded c.span (kept c)
  status : c.pc ≠ .returned → c.span.status = .failed
  count : c.pc.inAttempt = true → (c.contexts.length : Int) = c.span.attempts - 1
  waiting : c.pc = .backoff → (c.contexts.length : Int) = c.span.attempts
  fresh : c.pc = .start → c.contexts = []

/-- Outside a cancellation, all contexts are kept. -/
theorem kept_of_status {c : Coro} (h : c.span.status ≠ .skipped) : kept c = c.contexts := if_neg h

/-- A coroutine that has not ended has the usage of its last context. -/
theorem ContextsOk.last {c : Coro} (h : ContextsOk c) (hpc : c.pc ≠ .returned)
    (hraised : c.pc.isRaised = false) : Recorded c.span c.contexts := by
  have hrec := h.recorded hraised
  rw [kept_of_status (by simp [h.status hpc])] at hrec
  exact hrec

/-- A coroutine that is in an attempt has not raised. -/
theorem CoroPc.isRaised_of_inAttempt {pc : CoroPc} (h : pc.inAttempt = true) :
    pc.isRaised = false := by
  cases pc with
  | raised e => cases h
  | _ => rfl

/-- A move inside an attempt. -/
theorem ContextsOk.move {c c' : Coro} (h : ContextsOk c) (hin : c.pc.inAttempt = true)
    (hin' : c'.pc.inAttempt = true) (hspan : c'.span = c.span) (hctx : c'.contexts = c.contexts) :
    ContextsOk c' := by
  have hout : ∀ {pc : CoroPc}, pc.inAttempt = true → pc ≠ .returned ∧ pc ≠ .backoff ∧
    pc ≠ .start := by
    intro pc hpc
    refine ⟨?_, ?_, ?_⟩ <;> rintro rfl <;> cases hpc
  refine ⟨?_, fun _ => ?_, fun _ => ?_, fun hpc => ?_, fun hpc => ?_⟩
  · rw [kept, hspan, hctx]
    exact fun _ => h.recorded (CoroPc.isRaised_of_inAttempt hin)
  · rw [hspan]
    exact h.status (hout hin).1
  · rw [hspan, hctx]
    exact h.count hin
  · exact absurd hpc (hout hin').2.1
  · exact absurd hpc (hout hin').2.2

/-- A task that gives up. -/
theorem ContextsOk.failSpan {c : Coro} (h : Recorded c.span c.contexts) (now : Nat) :
    ContextsOk (failSpan c now) where
  recorded := fun _ => ⟨h.decisions, h.llm, h.toolCalls⟩
  status := fun hpc => absurd rfl hpc
  count := fun hpc => by cases hpc
  waiting := fun hpc => by cases hpc
  fresh := fun hpc => by cases hpc

/-- A task that is cancelled in an attempt, with the context of its handler, if any. -/
theorem ContextsOk.skipSpan {c : Coro} (h : ContextsOk c) (hin : c.pc.inAttempt = true)
    (hpc : c.pc ≠ .returned) (extra : List SkillContext) (now : Nat) :
    ContextsOk (skipSpan { c with contexts := c.contexts ++ extra } now) := by
  have hlen := h.count hin
  -- The contexts of the attempts before this one come first.
  have hkept : kept (Env.skipSpan { c with contexts := c.contexts ++ extra } now) = c.contexts := by
    show (c.contexts ++ extra).take (c.span.attempts - 1).toNat = c.contexts
    rw [show (c.span.attempts - 1).toNat = c.contexts.length by omega]
    exact List.take_left
  have hlast := h.last hpc (CoroPc.isRaised_of_inAttempt hin)
  refine ⟨?_, fun hne => absurd rfl hne, fun hpc => (by cases hpc), fun hpc => (by cases hpc),
    fun hpc => (by cases hpc)⟩
  rw [hkept]
  exact fun _ => ⟨hlast.decisions, hlast.llm, hlast.toolCalls⟩

/-- The usage after a failed attempt. The context of the attempt is recorded first, whichever of the
three ways the coroutine takes then. -/
theorem ContextsOk.failAttempt {c : Coro} (h : ContextsOk c) (hin : c.pc.inAttempt = true)
    (hpc : c.pc ≠ .returned) (ctx : SkillContext) (err : String) (now : Nat) :
    ContextsOk (env.failAttempt c ctx err now) := by
  have hst : c.span.status = .failed := h.status hpc
  have hlen := h.count hin
  have hrec : Recorded (afterFailure c ctx err).span (afterFailure c ctx err).contexts := by
    show Recorded _ (c.contexts ++ [ctx])
    constructor <;> simp [afterFailure, recordContext]
  have hkept : ∀ pc, kept { afterFailure c ctx err with pc := pc } = c.contexts ++
    [ctx] := fun pc =>
    kept_of_status (by simp [afterFailure, recordContext, hst])
  -- The coroutine sleeps before another attempt, raises because the sleep has no length, or gives
  -- up.
  rcases failAttempt_cases env c now ctx err with ⟨d, -, -, he⟩ | ⟨e, -, -, he⟩ | ⟨-, he⟩
  · rw [he]
    refine ⟨?_, fun _ => hst, fun hp => (by cases hp), fun _ => ?_, fun hp => (by cases hp)⟩
    · rw [hkept]
      exact fun _ => hrec
    · show ((c.contexts ++ [ctx]).length : Int) = c.span.attempts
      rw [List.length_append, List.length_singleton]
      omega
  · rw [he]
    exact ⟨fun hp => (by cases hp), fun _ => hst, fun hp => (by cases hp),
      fun hp => (by cases hp), fun hp => (by cases hp)⟩
  · rw [he]
    exact .failSpan hrec now

/-- The usage after the handler has ended, by the way in which it ended. Only a success, a failure
and a timeout record the context. -/
theorem ContextsOk.afterInvoke {c : Coro} (h : ContextsOk c) (hpc : c.pc = .handler)
    (ctx : SkillContext) (out : Outcome) (now : Nat) :
    ContextsOk (env.afterInvoke c ctx out now) := by
  have hin : c.pc.inAttempt = true := by rw [hpc]; rfl
  have hne : c.pc ≠ .returned := by simp [hpc]
  -- A success, a cancellation, an exception that nothing catches, a failure.
  rcases afterInvoke_cases env c now ctx out with
    ⟨output, -, he⟩ | ⟨-, he⟩ | ⟨type, exits, -, he⟩ | ⟨err, -, -, he⟩
  · rw [he]
    refine ⟨?_, fun hp => absurd rfl hp, fun hp => (by cases hp), fun hp => (by cases hp),
      fun hp => (by cases hp)⟩
    rw [kept_of_status (show Engine.Status.succeeded ≠ .skipped by simp)]
    show _ → Recorded _ (c.contexts ++ [ctx])
    refine fun _ => ?_
    constructor <;> simp [succeed, recordContext, returnSpan]
  · rw [he]
    exact h.skipSpan hin hne [ctx] now
  · rw [he]
    exact ⟨fun hp => (by cases hp), fun _ => h.status hne, fun hp => (by cases hp),
      fun hp => (by cases hp), fun hp => (by cases hp)⟩
  · rw [he]
    exact h.failAttempt hin hne ctx err now

/-- The head of the attempt loop. -/
theorem ContextsOk.enterAttempt {c : Coro} (hrec : Recorded c.span c.contexts)
    (hst : c.span.status = .failed) {attempt : Int} (hlen : (c.contexts.length : Int) = attempt - 1)
    (now : Nat) : ContextsOk (env.enterAttempt c attempt now) := by
  rcases enterAttempt_cases env c now attempt with ⟨-, h⟩ | ⟨-, h⟩
  · rw [h]
    refine ⟨?_, fun _ => hst, fun _ => hlen, fun hp => (by cases hp), fun hp => (by cases hp)⟩
    rw [kept_of_status (by simp [hst])]
    exact fun _ => ⟨hrec.decisions, hrec.llm, hrec.toolCalls⟩
  · rw [h]
    exact .failSpan hrec now

/-- A step of a coroutine keeps `ContextsOk`. Most steps change neither the span nor the contexts
(`ContextsOk.move`). -/
theorem CoroStep.contextsOk {s s' : State} {i : Nat} {c : Coro} {a : CoroAction}
    (h : CoroStep env s i c a s') (hc : ContextsOk c) :
    ∃ c', s'.coros = s.coros.set i c' ∧ ContextsOk c' := by
  have hin : ∀ pc, c.pc = pc → pc.inAttempt = true → c.pc.inAttempt = true := by
    rintro pc rfl hp
    exact hp
  have hout : ∀ pc, c.pc = pc → pc ≠ .returned → c.pc ≠ .returned := by
    rintro pc rfl hp
    exact hp
  have hholds : CoroPc.holds c.pc = true → c.pc.inAttempt = true := fun hp => by
    simp [CoroPc.inAttempt, hp]
  cases h with
  | start hpc hcr =>
      have hst := hc.status (hout _ hpc (by simp))
      refine ⟨_, rfl, ?_⟩
      rcases startTask_cases env c s.clock s.currentInputs s.main.results with ⟨e, -, h⟩ | ⟨r, -, h⟩
      · rw [h]
        exact ⟨fun hp => (by cases hp), fun _ => hst, fun hp => (by cases hp),
          fun hp => (by cases hp), fun hp => (by cases hp)⟩
      · rw [h]
        -- There was no attempt yet, and the span is a new one.
        have hnil := hc.fresh hpc
        refine .enterAttempt ?_ rfl ?_ _
        · show Recorded _ c.contexts
          rw [hnil]
          exact ⟨rfl, rfl, rfl⟩
        · show (c.contexts.length : Int) = 1 - 1
          rw [hnil]
          rfl
  | acquireSlot hpc hcr hfree => exact ⟨_, rfl, hc.move (hin _ hpc rfl) rfl rfl rfl⟩
  | grantGlobal b hpc hcr hb =>
      refine ⟨_, rfl, hc.move (hin _ hpc rfl) ?_ rfl rfl⟩
      rcases afterGlobal_pc c with h | h <;> rw [h] <;> rfl
  | denyGlobal b hpc hcr hb => exact ⟨_, rfl, hc.move (hin _ hpc rfl) rfl rfl rfl⟩
  | grantProvider b hpc hcr hb => exact ⟨_, rfl, hc.move (hin _ hpc rfl) rfl rfl rfl⟩
  | denyProvider b hpc hcr hb => exact ⟨_, rfl, hc.move (hin _ hpc rfl) rfl rfl rfl⟩
  | acquireError e hcr he =>
      refine ⟨_, rfl, hc.failAttempt ?_ ?_ _ _ _⟩
      · rcases he with ⟨hpc, -⟩ | ⟨hpc, -⟩
        · exact hin _ hpc rfl
        · exact hin _ hpc rfl
      · rcases he with ⟨hpc, -⟩ | ⟨hpc, -⟩
        · exact hout _ hpc (by simp)
        · exact hout _ hpc (by simp)
  | timerGlobal hpc hcr => exact ⟨_, rfl, hc.move (hin _ hpc rfl) rfl rfl rfl⟩
  | timerProvider hpc hcr => exact ⟨_, rfl, hc.move (hin _ hpc rfl) rfl rfl rfl⟩
  | noSkill hpc hcr hk =>
      exact ⟨_, rfl, hc.failAttempt (hin _ hpc rfl) (hout _ hpc (by simp)) _ _ _⟩
  | invoke kind hpc hcr hk => exact ⟨_, rfl, hc.move (hin _ hpc rfl) rfl rfl rfl⟩
  | finish ctx out hpc hcr => exact ⟨_, rfl, hc.afterInvoke hpc ctx out _⟩
  | lose hpc hcr hk => exact ⟨_, rfl, hc.move (hin _ hpc rfl) rfl rfl rfl⟩
  | timeout ctx hpc hcr ht =>
      refine ⟨_, rfl, ?_⟩
      rcases hpc with hpc | hpc <;>
        exact hc.failAttempt (hin _ hpc rfl) (hout _ hpc (by simp)) _ _ _
  | wake hpc hcr =>
      -- During the backoff there are as many contexts as attempts.
      have hlen := hc.waiting hpc
      exact ⟨_, rfl, .enterAttempt (hc.last (hout _ hpc (by simp)) (by rw [hpc]; rfl))
        (hc.status (hout _ hpc (by simp))) (by omega) _⟩
  | cancelOutside ctx hpc hcr =>
      have hst : c.span.status = .failed := by
        rcases hpc with hpc | hpc <;> exact hc.status (hout _ hpc (by simp))
      have hraised : c.pc.isRaised = false := by rcases hpc with hpc | hpc <;> rw [hpc] <;> rfl
      exact ⟨_, rfl, fun _ => hc.recorded hraised, fun _ => hst, fun hp => (by cases hp),
        fun hp => (by cases hp), fun hp => (by cases hp)⟩
  | cancelSlot ctx hpc hcr =>
      refine ⟨_, rfl, ?_⟩
      have := hc.skipSpan (hin _ hpc rfl) (hout _ hpc (by simp)) [] s.clock
      rwa [List.append_nil] at this
  | cancelHolder ctx hpc hcr =>
      refine ⟨_, rfl, ?_⟩
      have hne : c.pc ≠ .returned := by
        rintro hr
        rw [hr] at hpc
        cases hpc
      have := hc.skipSpan (hholds hpc) hne [] s.clock
      rwa [List.append_nil] at this
  | cancelHandler ctx hpc hcr =>
      refine ⟨_, rfl, ?_⟩
      rcases hpc with hpc | hpc <;>
        exact hc.skipSpan (hin _ hpc rfl) (hout _ hpc (by simp)) [ctx] s.clock

/-- `ContextsOk` holds of every coroutine. -/
theorem reachable_contextsOk {s : State} (hs : env.system.Reachable s) :
    ∀ c ∈ s.coros, ContextsOk c :=
  reachable_coros (fun _ _ => ⟨fun _ => ⟨rfl, rfl, rfl⟩, fun _ => rfl, fun h => (by cases h),
      fun h => (by cases h), fun _ => rfl⟩)
    (fun _ h => ⟨h.recorded, h.status, h.count, h.waiting, h.fresh⟩)
    (fun _ _ _ _ _ h hc => h.contextsOk hc) hs

/-! ### Lost contexts -/

/-- The contexts that no span of the report has: those that another attempt of the task was written
over, that of a cancelled handler, and all of them where `run` dropped the span. -/
def lost (s : State) (c : Coro) : List SkillContext :=
  if isProcessed s c then (kept c).dropLast ++ c.contexts.drop (kept c).length else c.contexts

/-- The kept contexts come first. -/
theorem kept_append_drop (c : Coro) : kept c ++ c.contexts.drop (kept c).length = c.contexts := by
  rw [kept]
  split
  · have htake : ∀ (l : List SkillContext) (n : Nat), l.take n ++ l.drop (l.take n).length = l := by
      intro l n
      rw [List.length_take]
      rcases le_total n l.length with hle | hle
      · rw [min_eq_left hle, List.take_append_drop]
      · rw [min_eq_right hle, List.take_of_length_le hle, List.drop_length, List.append_nil]
    exact htake _ _
  · rw [List.drop_length, List.append_nil]

/-- A sum over a list, its last element apart. -/
theorem sum_dropLast (f : SkillContext → Int) (l : List SkillContext) :
    (l.map f).sum = (l.getLast?.map f).getD 0 + (l.dropLast.map f).sum := by
  induction l using List.reverseRecOn with
  | nil => rfl
  | append_singleton l x ih => simp [Int.add_comm]

/-- A concatenation over a list is its last element's part when the other parts are empty. -/
theorem flatMap_eq_last (f : SkillContext → List Decision) (l extra : List SkillContext) :
    (l ++ extra).flatMap f = (l.getLast?.map f).getD [] ↔ ∀ x ∈ l.dropLast ++ extra, f x = [] := by
  have hnil : ∀ m : List SkillContext, m.flatMap f = [] ↔ ∀ x ∈ m, f x = [] := fun m =>
    List.flatMap_eq_nil_iff
  induction l using List.reverseRecOn with
  | nil => exact hnil extra
  | append_singleton l x _ =>
      simp only [List.getLast?_append, List.getLast?_singleton, Option.some_or, Option.map_some,
        Option.getD_some, List.dropLast_concat, List.flatMap_append, List.flatMap_singleton]
      rw [← hnil, List.flatMap_append]
      constructor
      · intro h
        -- Around `f x` there is no room for another decision.
        have hlen := congrArg List.length h
        simp only [List.length_append] at hlen
        rw [List.append_eq_nil_iff, ← List.length_eq_zero_iff, ← List.length_eq_zero_iff]
        omega
      · intro h
        obtain ⟨hl, hextra⟩ := List.append_eq_nil_iff.mp h
        rw [hl, hextra, List.nil_append, List.append_nil]

/-- The usage of the attempts of a task is the usage in its span and the lost usage. -/
theorem sum_contexts {s : State} {c : Coro}
    (h : isProcessed s c = true → Recorded c.span (kept c)) {f : SkillContext → Int}
    {g : TaskSpan → Int}
    (hg : ∀ sp l, Recorded sp l → g sp = (l.getLast?.map f).getD 0) :
    (c.contexts.map f).sum = (if isProcessed s c then g c.span else 0) +
    ((lost s c).map f).sum := by
  rw [lost]
  split
  · rename_i hproc
    rw [hg _ _ (h hproc), List.map_append, List.sum_append, ← Int.add_assoc, ← sum_dropLast,
      ← List.sum_append, ← List.map_append, kept_append_drop]
  · rw [Int.zero_add]

/-- The input tokens of a span are those of the last context. -/
theorem recorded_inTokens (sp : TaskSpan) (l : List SkillContext) (h : Recorded sp l) :
    inTokens sp.llm = (l.getLast?.map fun x => inTokens x.llmUsage).getD 0 := by
  rw [h.llm]
  cases l.getLast? <;> rfl

/-- The output tokens of a span are those of the last context. -/
theorem recorded_outTokens (sp : TaskSpan) (l : List SkillContext) (h : Recorded sp l) :
    outTokens sp.llm = (l.getLast?.map fun x => outTokens x.llmUsage).getD 0 := by
  rw [h.llm]
  cases l.getLast? <;> rfl

/-! ### The totals -/

/-- The totals are sums over the processed spans. -/
theorem foldl_addTotals (spans : List TaskSpan) (t : Totals) :
    (spans.foldl addTotals t).llmTokensIn
        = t.llmTokensIn + (spans.map fun sp => inTokens sp.llm).sum ∧
      (spans.foldl addTotals t).llmTokensOut
        = t.llmTokensOut + (spans.map fun sp => outTokens sp.llm).sum ∧
      (spans.foldl addTotals t).toolCalls = t.toolCalls + (spans.map (·.toolCalls)).sum := by
  induction spans generalizing t with
  | nil => simp
  | cons sp spans ih =>
      obtain ⟨h1, h2, h3⟩ := ih (addTotals t sp)
      rw [List.foldl_cons, h1, h2, h3]
      simp only [List.map_cons, List.sum_cons, addTotals, inTokens, outTokens]
      omega

/-- The retries of the totals. -/
theorem foldl_addTotals_retries (spans : List TaskSpan) (t : Totals) :
    (spans.foldl addTotals t).retries
      = t.retries + (spans.map fun sp => max 0 (sp.attempts - 1)).sum := by
  induction spans generalizing t with
  | nil => exact (Int.add_zero _).symm
  | cons sp spans ih =>
      rw [List.foldl_cons, ih, List.map_cons, List.sum_cons]
      exact Int.add_assoc _ _ _

/-- The totals of a run are sums over the processed spans. -/
theorem History.totals_eq {s : State} (h : History s) :
    s.main.totals.llmTokensIn = (s.main.processed.map fun sp => inTokens sp.llm).sum ∧
      s.main.totals.llmTokensOut = (s.main.processed.map fun sp => outTokens sp.llm).sum ∧
      s.main.totals.toolCalls = (s.main.processed.map (·.toolCalls)).sum := by
  have hfold := foldl_addTotals s.main.processed {}
  rw [← h.totals] at hfold
  obtain ⟨h1, h2, h3⟩ := hfold
  exact ⟨h1.trans (Int.zero_add _), h2.trans (Int.zero_add _), h3.trans (Int.zero_add _)⟩

/-- A sum over the elements that pass a test. -/
theorem sum_ite {α : Type} (p : α → Bool) (g : α → Int) (l : List α) :
    (l.map fun a => if p a then g a else 0).sum = ((l.filter p).map g).sum := by
  induction l with
  | nil => rfl
  | cons a l ih =>
      cases hp : p a <;> simp [hp, ih]

/-- A sum over the contexts of some coroutines, one coroutine after the other. -/
theorem sum_flatMap {α : Type} (g : Coro → List α) (f : α → Int) (coros : List Coro) :
    ((coros.flatMap g).map f).sum = (coros.map fun c => ((g c).map f).sum).sum := by
  induction coros with
  | nil => rfl
  | cons c coros ih => simp [ih]

/-- A processed span has the usage of the contexts that are kept. -/
theorem Known.processed_recorded {s : State} (h : Known env s) (hinv : RunInv env s) {c : Coro}
    (hc : c ∈ s.coros) (hctx : ContextsOk c) (hproc : isProcessed s c = true) :
    Recorded c.span (kept c) := by
  refine hctx.recorded ?_
  rw [((h.isProcessed_iff hinv hc).mp hproc).1]
  rfl

/-- The usage of all attempts is the usage in the processed spans and the lost usage. -/
theorem Known.sum_all {s : State} (h : Known env s) (hinv : RunInv env s)
    (hctx : ∀ c ∈ s.coros, ContextsOk c) {f : SkillContext → Int} {g : TaskSpan → Int}
    (hg : ∀ sp l, Recorded sp l → g sp = (l.getLast?.map f).getD 0) :
    ((s.coros.flatMap (·.contexts)).map f).sum
      = (s.main.processed.map g).sum + ((s.coros.flatMap (lost s)).map f).sum := by
  -- The processed spans are those of the processed coroutines, in another order, so a sum over the
  -- first is one over the second.
  have hproc : (s.main.processed.map g).sum
      = (s.coros.map fun c => if isProcessed s c then g c.span else 0).sum := by
    rw [sum_ite (isProcessed s) (fun c => g c.span), ((h.processed_filter hinv).map g).sum_eq,
      List.map_map]
    rfl
  rw [hproc, sum_flatMap, sum_flatMap]
  -- Then coroutine by coroutine: each sum over contexts splits into what the span has and what is
  -- lost.
  have hcoros : ∀ coros : List Coro,
      (∀ c ∈ coros, isProcessed s c = true → Recorded c.span (kept c)) →
      (coros.map fun c => (c.contexts.map f).sum).sum
        = (coros.map fun c => if isProcessed s c then g c.span else 0).sum
          + (coros.map fun c => ((lost s c).map f).sum).sum := by
    intro coros
    induction coros with
    | nil => exact fun _ => rfl
    | cons c coros ih =>
        intro hok
        have hc := @sum_contexts s c (hok c List.mem_cons_self) f g hg
        have hrest := ih fun d hd => hok d (List.mem_cons_of_mem c hd)
        simp only [List.map_cons, List.sum_cons]
        omega
  exact hcoros s.coros fun c hc => h.processed_recorded hinv hc (hctx c hc)

/-! ### The attempts of a report -/

/-- The span covers the attempts: its token counts are the sums over them, and its decisions are
theirs, in order. -/
structure Covers (sp : TaskSpan) (contexts : List SkillContext) : Prop where
  tokensIn : inTokens sp.llm = (contexts.map fun x => inTokens x.llmUsage).sum
  tokensOut : outTokens sp.llm = (contexts.map fun x => outTokens x.llmUsage).sum
  decisions : sp.decisions = contexts.flatMap (·.decisions)

/-- The report accounts for every attempt of every task: each span covers the attempts of its task,
and the totals cover the attempts of all tasks. -/
structure AttemptsCounted (s : State) (rep : Report) : Prop where
  span : ∀ c ∈ s.coros, ∀ sp ∈ rep.tasks, sp.id = c.task.id → Covers sp c.contexts
  tokensIn : rep.totals.llmTokensIn
    = ((s.coros.flatMap (·.contexts)).map fun x => inTokens x.llmUsage).sum
  tokensOut : rep.totals.llmTokensOut
    = ((s.coros.flatMap (·.contexts)).map fun x => outTokens x.llmUsage).sum
  toolCalls : rep.totals.toolCalls = ((s.coros.flatMap (·.contexts)).map (·.toolCalls)).sum

/-- The lost contexts of each task have no tokens, in sum, and no decisions, and those of all tasks
have no tool calls, in sum. -/
structure NothingLost (s : State) : Prop where
  tokensIn : ∀ c ∈ s.coros, ((lost s c).map fun x => inTokens x.llmUsage).sum = 0
  tokensOut : ∀ c ∈ s.coros, ((lost s c).map fun x => outTokens x.llmUsage).sum = 0
  decisions : ∀ c ∈ s.coros, ∀ x ∈ lost s c, x.decisions = []
  toolCalls : ((s.coros.flatMap (lost s)).map (·.toolCalls)).sum = 0

/-- The span that is recorded for a started task. -/
theorem Known.recorded_span {s : State} (h : Known env s) (hinv : RunInv env s) {c : Coro}
    (hc : c ∈ s.coros) {sp : TaskSpan} (hsp : s.main.spans.get? c.task.id = some sp) :
    sp = if isProcessed s c then c.span else placeholder c.task.id := by
  split
  · rename_i hproc
    have hrec := h.history.recorded _ ((h.isProcessed_iff hinv hc).mp hproc).2
    rw [hinv.span_id c hc, hsp] at hrec
    exact Option.some.inj hrec
  · rename_i hproc
    rcases h.history.origin _ _ hsp with hin | hph
    · refine absurd (decide_eq_true (List.mem_map.mpr ⟨sp, hin, ?_⟩)) hproc
      rw [hinv.spans.key _ _ hsp, hinv.span_id c hc]
    · exact hph

/-- The span that is recorded for a task covers its attempts exactly when none is lost. -/
theorem Known.covers_iff {s : State} (h : Known env s) (hinv : RunInv env s) {c : Coro}
    (hc : c ∈ s.coros) (hctx : ContextsOk c) {sp : TaskSpan}
    (hsp : s.main.spans.get? c.task.id = some sp) :
    Covers sp c.contexts ↔
      ((lost s c).map fun x => inTokens x.llmUsage).sum = 0 ∧
        ((lost s c).map fun x => outTokens x.llmUsage).sum = 0 ∧
        ∀ x ∈ lost s c, x.decisions = [] := by
  have hspan := h.recorded_span hinv hc hsp
  have hrec := @Known.processed_recorded env s h hinv c hc hctx
  have hin := @sum_contexts s c hrec _ _ recorded_inTokens
  have hout := @sum_contexts s c hrec _ _ recorded_outTokens
  have hspIn : inTokens sp.llm = if isProcessed s c then inTokens c.span.llm else 0 := by
    rw [hspan]
    split <;> rfl
  have hspOut : outTokens sp.llm = if isProcessed s c then outTokens c.span.llm else 0 := by
    rw [hspan]
    split <;> rfl
  -- The decisions are compared as lists. The kept contexts come first, and the span has those of
  -- the last of them.
  have hdec : sp.decisions = c.contexts.flatMap (·.decisions) ↔
      ∀ x ∈ lost s c, x.decisions = [] := by
    rw [hspan, lost]
    split
    · rename_i hproc
      rw [(hrec hproc).decisions, eq_comm, ← flatMap_eq_last, kept_append_drop]
    · rw [eq_comm]
      exact List.flatMap_eq_nil_iff
  constructor
  · rintro ⟨h1, h2, h3⟩
    exact ⟨by omega, by omega, hdec.mp h3⟩
  · rintro ⟨h1, h2, h3⟩
    exact ⟨by omega, by omega, hdec.mpr h3⟩

/-- One task that is tried twice. -/
def retriedTask : Env := plainRun
  { name := "w", tasks := [{ id := "a", skill := "s", retry := some { max := 1 } }] } .async

/-- A context with usage of every kind, for the runs that lose it or count it. -/
def usedContext : SkillContext where
  decisions := [{ atMs := 0, summary := "d", rationale := none, data := .null }]
  llmUsage := some { provider := "p", model := "m", tokensIn := 5, tokensOut := 7 }
  toolCalls := 1

/-- The run in which the first attempt fails and the second one succeeds, with these contexts. -/
def retriedRun (first second : SkillContext) : List Action :=
  [.main, .main, .main, .main] ++ wholeTask 0 first (.exception "E" "m") ++
    [.coro 0 .wake, .coro 0 .acquireSlot, .coro 0 .acquire, .coro 0 .invoke,
      .coro 0 (.finish second (.returned .null)), .wake [0], .main, .main, .main, .main]

end Orchestrator.Sdk.Runner
