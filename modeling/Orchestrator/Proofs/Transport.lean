import Orchestrator.Lib.LeadsTo
import Orchestrator.Proofs.PumpSafety

/-!
# `Orchestrator.Proofs.Transport`: the scheduler over either transport

The two transports run the calls of `Execute` alike. `TransportStep` has the steps of the embedded
engine, and what the gRPC handler does otherwise: the run context ends without a line, the texts of
messages and errors are others, and the receiving goroutine goes on after a delivery without a check
of the context. A `Trace` is an infinite run of such steps, and both transports give traces.

`CallMove` says what a step does to one call, and `TransportInv` is what holds along every trace. It
adds to the invariants of `Orchestrator.Proofs.Correlation` that each goroutine in `Execute` has a
call (`Owned`).

A call goes through its places in one direction (`callRank`, `CallMove.rank_le`), and a step of the
call itself takes it further, while the passing of its deadline and the arrival of a result leave it
where it is. So a call that can always take its next step comes to its end, which is the heart of
`TransportLiveness`.

A step of another party is one that the call does not notice. `CallMove.refl` and `CallMove.set`
state this once, so that `TransportStep.callMove` needs an argument only for the steps of the call.
-/

set_option autoImplicit false

namespace Orchestrator.Proofs

open Orchestrator.Lib Orchestrator.Engine Orchestrator.Engine.Env

variable {B : Type} {env : Env B}

/-! ### Steps -/

/-- The steps of the scheduler over a transport. They are those of the stdio engine, with the
freedom that the other transport needs: a write may go elsewhere, and a cancellation may come from
anywhere. -/
inductive TransportStep (env : Env B) (e : Embedded B) : Option EmbeddedAction → Embedded B → Prop
  | engine (a : EmbeddedAction) (e' : Embedded B) (h : EmbeddedStep env e a e') :
      TransportStep env e (some a) e'
  | cancel (s : State B) (p : PumpPc) (hs : env.step? e.sched .cancel = some s)
      (hp : p = e.pump ∨ (e.pump = .scan ∧ p = .stopped)) :
      TransportStep env e none { e with sched := s, pump := p }
  | write (k : Nat) (c : ExecCall) (hc : e.execs[k]? = some c) (hpc : c.pc = .write) :
      TransportStep env e (some (.exec k (.write none))) (setExec e k { c with pc := .select })
  | writeFail (k : Nat) (c : ExecCall) (err : String) (hc : e.execs[k]? = some c)
      (hpc : c.pc = .write) :
      TransportStep env e (some (.exec k (.write (some err))))
        (setExec e k { c with pc := .unregister, outcome := some ({}, some err) })
  | ctxDone (k : Nat) (c : ExecCall) (err : String) (hc : e.execs[k]? = some c)
      (hpc : c.pc = .select) (hdone : c.expired = true ∨ e.sched.cancelled = true) :
      TransportStep env e (some (.exec k .ctxDone))
        (setExec e k { c with pc := .unregister, outcome := some ({}, some err) })
  | deliver (k : Nat) (res : Result) (c : ExecCall) (hp : e.pump = .deliver k res)
      (hc : e.execs[k]? = some c) (hch : c.ch = none) (hrun : e.cancelled = false) :
      TransportStep env e (some (.pump .deliver))
        (setExec { e with pump := .scan } k { c with ch := some res, handed := c.handed ++ [res] })
  | idle : TransportStep env e none e

/-- What a step of a transport asks of the scheduler. `Execute` is entered by a call and left by the
return of one, and all other steps of the scheduler are its own. -/
structure SchedMove (env : Env B) (e e' : Embedded B) (a : Option EmbeddedAction) (b : Action) :
    Prop where
  step : env.step? e.sched b = some e'.sched
  internal : ∀ x, a = some (.sched x) → b = x
  call : ∀ i, a = some (.call i) → b = .task i .call
  ret : ∀ k c, a = some (.exec k .return) → e.execs[k]? = some c →
    ∃ res err, b = .task c.go (.ret res err)
  /-- A goroutine enters `Execute` by a call. -/
  enters : ∀ i, b = .task i .call → a = some (.call i)
  /-- It leaves `Execute` by the return of one. -/
  leaves : ∀ i res err, b = .task i (.ret res err) →
    ∃ k c, a = some (.exec k .return) ∧ e.execs[k]? = some c ∧ c.go = i

/-- A step that leaves the scheduler alone. -/
theorem SchedMove.still {e e' : Embedded B} {a : Option EmbeddedAction}
    (hsched : e'.sched = e.sched)
    (hinternal : ∀ x, a ≠ some (.sched x)) (hcall : ∀ i, a ≠ some (.call i))
    (hret : ∀ k, a ≠ some (.exec k .return)) : SchedMove env e e' a (.tick 0) := by
  refine ⟨?_, fun x hx => absurd hx (hinternal x), fun i hi => absurd hi (hcall i),
    fun k c hk => absurd hk (hret k), fun i h => (by cases h), fun i res err h => by cases h⟩
  rw [hsched]
  rfl

/-- The scheduler takes a step of its own, or stands still, which is the passing of no time. -/
theorem TransportStep.schedMove {e e' : Embedded B} {a : Option EmbeddedAction}
    (h : TransportStep env e a e') : ∃ b, SchedMove env e e' a b := by
  cases h with
  | engine a _ h =>
      cases h with
      | sched x s ev hi hs =>
          refine ⟨x, hs, fun y hy => (by cases hy; rfl), fun i h => (by cases h),
            fun k c h => (by cases h), fun i h => ?_, fun i res err h => ?_⟩
          · subst h
            cases hi
          · subst h
            cases hi
      | call i g s ev hg hs =>
          exact ⟨.task i .call, hs, fun x hx => (by cases hx), fun j hj => (by cases hj; rfl),
            fun k c h => (by cases h), fun j hj => (by cases hj; rfl),
            fun j res err h => by cases h⟩
      -- The return of a call is a step of its goroutine.
      | «return» k c res err s ev hc hpc hout hs =>
          refine ⟨.task c.go (.ret res err), hs, fun x hx => (by cases hx),
            fun j hj => (by cases hj),
            fun j d hj hd => ?_, fun j hj => (by cases hj), fun j res err hj => ?_⟩
          · cases hj
            rw [hc] at hd
            cases hd
            exact ⟨res, err, rfl⟩
          · cases hj
            exact ⟨k, c, rfl, hc, rfl⟩
      | readCancel msg s ev hp ht hs =>
          exact ⟨.cancel, hs, fun x hx => (by cases hx), fun j hj => (by cases hj),
            fun k c h => (by cases h), fun j hj => (by cases hj), fun j res err h => by cases h⟩
      | _ =>
          exact ⟨.tick 0, .still rfl (fun x hx => by cases hx) (fun i hi => by cases hi)
            fun k hk => by cases hk⟩
  -- What the transport cancels it cancels through the scheduler; its other steps leave the
  -- scheduler alone.
  | cancel s p hs hp =>
      exact ⟨.cancel, hs, fun x hx => (by cases hx), fun j hj => (by cases hj),
        fun k c h => (by cases h), fun j hj => (by cases hj), fun j res err h => by cases h⟩
  | _ =>
      exact ⟨.tick 0, .still rfl (fun x hx => by cases hx) (fun i hi => by cases hi)
        fun k hk => by cases hk⟩

/-! ### One call -/

/-- How far a call has got. Each of its own steps raises the rank, so a call that keeps stepping
returns. -/
def callRank : ExecPc → Nat
  | .register => 0
  | .write => 1
  | .select => 2
  | .unregister => 3
  | .returned => 4

/-- The step is one of the call, other than the passing of its deadline. -/
def movesCall (k : Nat) (a : Option EmbeddedAction) : Prop :=
  ∃ b, b ≠ .expire ∧ a = some (.exec k b)

/-- The state of a call, by its place in `Execute`: it has settled once it is past its `select`, and
a result that it returns was handed to it. -/
structure CallInv (c : ExecCall) : Prop where
  buffered : ∀ res, c.ch = some res → res ∈ c.handed
  settled : c.outcome ≠ none ↔ 3 ≤ callRank c.pc
  /-- A result that is returned was handed over. -/
  result : ∀ res, c.outcome = some (res, none) → res ∈ c.handed

/-- A step between two places on the same side of the `select`. -/
theorem CallInv.move {c : ExecCall} (h : CallInv c) {pc : ExecPc}
    (hpc : 3 ≤ callRank c.pc ↔ 3 ≤ callRank pc) : CallInv { c with pc := pc } :=
  ⟨h.buffered, h.settled.trans hpc, h.result⟩

/-- A call that ends with an error. -/
theorem CallInv.fail {c : ExecCall} (h : CallInv c) (err : String) :
    CallInv { c with pc := .unregister, outcome := some ({}, some err) } :=
  ⟨h.buffered, ⟨fun _ => le_rfl, fun _ => Option.some_ne_none _⟩, fun _ => by simp⟩

/-- A call that takes its result out of the channel. -/
theorem CallInv.take {c : ExecCall} (h : CallInv c) {res : Result} (hch : c.ch = some res) :
    CallInv { c with pc := .unregister, ch := none, outcome := some (res, none) } := by
  refine ⟨(by simp), ⟨fun _ => le_rfl, fun _ => Option.some_ne_none _⟩, fun r hr => ?_⟩
  cases hr
  exact h.buffered res hch

/-- A call whose channel is handed a result. -/
theorem CallInv.hand {c : ExecCall} (h : CallInv c) (res : Result) :
    CallInv { c with ch := some res, handed := c.handed ++ [res] } := by
  refine ⟨fun r hr => ?_, h.settled, fun r hr => List.mem_append_left _ (h.result r hr)⟩
  cases hr
  exact List.mem_append_right _ (List.mem_singleton_self res)

/-- The context of a call has ended. -/
def CtxEnded (e : Embedded B) (c : ExecCall) : Prop := c.expired = true ∨ e.sched.cancelled = true

/-- What a step from the state `e` does to the `k`-th call. A call is moved by its own steps only;
what others do to it is to fill its channel and to end its context. -/
structure CallMove (e : Embedded B) (k : Nat) (a : Option EmbeddedAction)
    (c c' : ExecCall) : Prop where
  inv : c'.inv = c.inv
  go : c'.go = c.go
  /-- Its own steps take it further. -/
  moves : movesCall k a → callRank c.pc < callRank c'.pc
  /-- No other step does. -/
  stays : ¬ movesCall k a → c'.pc = c.pc
  /-- A result stays in the channel of a call that stays where it is. -/
  kept : c'.pc = c.pc → c.ch ≠ none → c'.ch ≠ none
  expired : c.expired = true → c'.expired = true
  keeps : CallInv c → CallInv c'
  fails : ∀ res err, c'.outcome = some (res, some err) →
    c.outcome = some (res, some err) ∨ c.pc = .write ∨ CtxEnded e c
  selects : c.pc ≠ .select → c'.pc = .select → a = some (.exec k (.write none))
  returned : c.pc ≠ .returned → c'.pc = .returned → a = some (.exec k .return)

/-- A step that is not one of the call leaves it alone. -/
theorem CallMove.refl {e : Embedded B} {k : Nat} {a : Option EmbeddedAction} {c : ExecCall}
    (h : ¬ movesCall k a) : CallMove e k a c c :=
  ⟨rfl, rfl, fun hm => absurd hm h, fun _ => rfl, fun _ => id, id, id, fun _ _ => .inl,
    fun hne he => absurd he hne,
    fun hne he => absurd he hne⟩

/-- No step takes a call back. -/
theorem CallMove.rank_le {e : Embedded B} {k : Nat} {a : Option EmbeddedAction} {c c' : ExecCall}
    (h : CallMove e k a c c') : callRank c.pc ≤ callRank c'.pc := by
  by_cases hm : movesCall k a
  · exact (h.moves hm).le
  · rw [h.stays hm]

/-- A step of the call itself takes it further. -/
theorem CallMove.own {e : Embedded B} {j : Nat} {d d' : ExecCall} {b : ExecAction}
    (hb : b ≠ .expire) (hinv : d'.inv = d.inv) (hgo : d'.go = d.go)
    (hexpired : d'.expired = d.expired) (hrank : callRank d.pc < callRank d'.pc)
    (hkeeps : CallInv d → CallInv d')
    (hfails : ∀ res err, d'.outcome = some (res, some err) →
      d.outcome = some (res, some err) ∨ d.pc = .write ∨ CtxEnded e d)
    (hselect : d'.pc = .select → b = .write none) (hreturn : d'.pc = .returned → b = .return) :
    CallMove e j (some (.exec j b)) d d' := by
  refine ⟨hinv, hgo, fun _ => hrank, fun hno => absurd ⟨b, hb, rfl⟩ hno, fun hpc => ?_,
    fun hx => hexpired.trans hx, hkeeps, hfails, fun _ hpc => by rw [hselect hpc],
    fun _ hpc => by rw [hreturn hpc]⟩
  rw [hpc] at hrank
  omega

/-- The passing of the deadline leaves the call where it is. -/
theorem CallMove.expire {e : Embedded B} {j : Nat} (d : ExecCall) :
    CallMove e j (some (.exec j .expire)) d { d with expired := true } := by
  refine ⟨rfl, rfl, fun hm => ?_, fun _ => rfl, fun _ => id, fun _ => rfl,
    fun h => ⟨h.buffered, h.settled, h.result⟩, fun _ _ => .inl, fun hne he => absurd he hne,
    fun hne he => absurd he hne⟩
  obtain ⟨b, hb, hx⟩ := hm
  cases hx
  exact absurd rfl hb

/-- A result is put into the channel of the call, which stays where it is. -/
theorem CallMove.deliver {e : Embedded B} {j : Nat} (d : ExecCall) (res : Result) :
    CallMove e j (some (.pump .deliver)) d
      { d with ch := some res, handed := d.handed ++ [res] } := by
  refine ⟨rfl, rfl, fun hm => ?_, fun _ => rfl, fun _ _ => Option.some_ne_none _, id,
    fun h => h.hand res, fun _ _ => .inl, fun hne he => absurd he hne,
    fun hne he => absurd he hne⟩
  obtain ⟨b, -, hx⟩ := hm
  cases hx

/-- The `j`-th call is put back as `d'`. The `k`-th one is that call, or one that the step does
not move. -/
theorem CallMove.set {e e' : Embedded B} {a : Option EmbeddedAction} {j k : Nat}
    {c d d' : ExecCall} (hc : e.execs[k]? = some c) (hd : e.execs[j]? = some d)
    (hexecs : e'.execs = e.execs.set j d') (hmove : CallMove e j a d d')
    (hother : j ≠ k → ¬ movesCall k a) : ∃ c', e'.execs[k]? = some c' ∧ CallMove e k a c c' := by
  rw [hexecs]
  by_cases hjk : j = k
  · subst hjk
    rw [hc] at hd
    cases hd
    exact ⟨d', List.getElem?_set_self (List.getElem?_eq_some_iff.mp hc).1, hmove⟩
  · exact ⟨c, by rw [List.getElem?_set_ne hjk, hc], .refl (hother hjk)⟩

/-- What each step does to the `k`-th call. -/
theorem TransportStep.callMove {e e' : Embedded B} {a : Option EmbeddedAction}
    (h : TransportStep env e a e') {k : Nat} {c : ExecCall} (hc : e.execs[k]? = some c) :
    ∃ c', e'.execs[k]? = some c' ∧ CallMove e k a c c' := by
  have hown : ∀ {j : Nat} {d d' : ExecCall} {b : ExecAction}, e.execs[j]? = some d →
      e'.execs = e.execs.set j d' → a = some (.exec j b) →
      CallMove e j (some (.exec j b)) d d' →
      ∃ c', e'.execs[k]? = some c' ∧ CallMove e k a c c' := by
    rintro j d d' b hd hexecs rfl hmove
    refine hmove.set hc hd hexecs fun hjk => ?_
    rintro ⟨b', -, hb'⟩
    cases hb'
    exact hjk rfl
  have hstill : ¬ movesCall k a → e'.execs = e.execs →
      ∃ c', e'.execs[k]? = some c' ∧ CallMove e k a c c' :=
    fun hno hexecs => ⟨c, by rw [hexecs, hc], .refl hno⟩
  -- The steps that are none of a call move no call.
  have hno : (∀ j x, a ≠ some (.exec j x)) → ¬ movesCall k a := by
    rintro hne ⟨x, -, hx⟩
    exact hne k x hx
  cases h with
  | engine a _ h =>
      cases h with
      | register j d hd hpc =>
          exact hown hd rfl rfl (.own (by simp) rfl rfl rfl (by simp [hpc, callRank])
            (fun h => h.move (by simp [hpc, callRank])) (fun _ _ => .inl) (by simp) (by simp))
      | write j d hd hpc =>
          exact hown hd rfl rfl (.own (by simp) rfl rfl rfl (by simp [hpc, callRank])
            (fun h => h.move (by simp [hpc, callRank])) (fun _ _ => .inl) (fun _ => rfl)
            (by simp))
      | writeFail j d err hd hpc =>
          exact hown hd rfl rfl (.own (by simp) rfl rfl rfl (by simp [hpc, callRank])
            (fun h => h.fail _) (fun _ _ _ => .inr (.inl hpc)) (by simp) (by simp))
      | ctxDone j d hd hpc hdone =>
          exact hown hd rfl rfl (.own (by simp) rfl rfl rfl (by simp [hpc, callRank])
            (fun h => h.fail _) (fun _ _ _ => .inr (.inr hdone)) (by simp) (by simp))
      | result j d res hd hpc hch =>
          exact hown hd rfl rfl (.own (by simp) rfl rfl rfl (by simp [hpc, callRank])
            (fun h => h.take hch) (by simp) (by simp) (by simp))
      | «return» j d res err s ev hd hpc _ _ =>
          exact hown hd rfl rfl (.own (by simp) rfl rfl rfl (by simp [hpc, callRank])
            (fun h => h.move (by simp [hpc, callRank])) (fun _ _ => .inl) (by simp) fun _ => rfl)
      | expire j d hd _ _ _ => exact hown hd rfl rfl (.expire d)
      | deliver j res d _ hd _ =>
          exact CallMove.set hc hd rfl (.deliver d _) fun _ => hno (by simp)
      | call i g s ev _ _ =>
          refine ⟨c, ?_, .refl (hno (by simp))⟩
          show (e.execs ++ [newCall env i g])[k]? = some c
          rw [List.getElem?_append_left (List.getElem?_eq_some_iff.mp hc).1, hc]
      | _ => exact hstill (hno (by simp)) rfl
  | write j d hd hpc =>
      exact hown hd rfl rfl (.own (by simp) rfl rfl rfl (by simp [hpc, callRank])
        (fun h => h.move (by simp [hpc, callRank])) (fun _ _ => .inl) (fun _ => rfl) (by simp))
  | writeFail j d err hd hpc =>
      exact hown hd rfl rfl (.own (by simp) rfl rfl rfl (by simp [hpc, callRank])
        (fun h => h.fail _) (fun _ _ _ => .inr (.inl hpc)) (by simp) (by simp))
  | ctxDone j d err hd hpc hdone =>
      exact hown hd rfl rfl (.own (by simp) rfl rfl rfl (by simp [hpc, callRank])
        (fun h => h.fail _) (fun _ _ _ => .inr (.inr hdone)) (by simp) (by simp))
  | deliver j res d _ hd _ _ =>
      exact CallMove.set hc hd rfl (.deliver d _) fun _ => hno (by simp)
  | cancel s p _ _ => exact hstill (hno (by simp)) rfl
  | idle => exact hstill (hno (by simp)) rfl

/-- A call that a step adds is not registered yet. -/
theorem TransportStep.new_call {e e' : Embedded B} {a : Option EmbeddedAction}
    (h : TransportStep env e a e') {k : Nat} {c : ExecCall} (hk : e.execs.length ≤ k)
    (hc : e'.execs[k]? = some c) : c.pc = .register ∧ CallInv c := by
  -- A list of the old length has no call at a new index.
  have hold : ∀ {l : List ExecCall}, l.length = e.execs.length → l[k]? ≠ some c := by
    intro l hl hsome
    have hlt := (List.getElem?_eq_some_iff.mp hsome).1
    omega
  cases h with
  | engine a _ h =>
      cases h with
      | call i g s ev _ _ =>
          have hc' : (e.execs ++ [newCall env i g])[k]? = some c := hc
          rw [List.getElem?_append_right hk] at hc'
          rw [List.mem_singleton.mp (List.mem_of_getElem? hc')]
          exact ⟨rfl, by simp [newCall], by simp [newCall, callRank], by simp [newCall]⟩
      | register | write | writeFail | expire | ctxDone | result | «return» | deliver =>
          exact absurd hc (hold (List.length_set ..))
      | _ => exact absurd hc (hold rfl)
  | write | writeFail | ctxDone | deliver => exact absurd hc (hold (List.length_set ..))
  | _ => exact absurd hc (hold rfl)

/-- A context that has ended stays so. -/
theorem CtxEnded.step {e e' : Embedded B} {a : Option EmbeddedAction}
    (hs : TransportStep env e a e')
    {k : Nat} {c c' : ExecCall} (hmove : CallMove e k a c c') (h : CtxEnded e c) :
    CtxEnded e' c' := by
  obtain ⟨b, hb⟩ := hs.schedMove
  exact h.imp hmove.expired (cancelled_persist hb.step)

/-! ### The pump -/

/-- A result that was read is looked up next. -/
theorem TransportStep.reads {e e' : Embedded B} {a : Option EmbeddedAction}
    (h : TransportStep env e a e') {msg : InMsg} (ha : a = some (.pump (.line (some msg))))
    (ht : msg.type = "skill_result") : e'.pump = .lookup msg := by
  cases h with
  | engine a _ h =>
      cases ha
      cases h with
      | readResult _ _ _ => rfl
      | readCancel _ _ _ _ hne _ => exact absurd ht hne
      | readOther _ _ hne => exact absurd ht hne
  | _ => cases ha

/-- What a step does to the pump before its lookup. -/
theorem TransportStep.lookup {e e' : Embedded B} {a : Option EmbeddedAction}
    (h : TransportStep env e a e') {msg : InMsg} (hp : e.pump = .lookup msg) {k : Nat}
    (hk : e.pending.get? msg.invocationID = some k) :
    e'.pump = .lookup msg ∧ a ≠ some (.pump .lookup) ∨
      e'.pump = .deliver k msg.toResult ∧ e'.execs = e.execs := by
  cases h with
  | engine a _ h =>
      cases h with
      -- The call is in the table, so the lookup finds it, and no other step of the pump is possible
      -- before.
      | found m j hm hj =>
          rw [hp] at hm
          cases hm
          rw [hk] at hj
          cases hj
          exact .inr ⟨rfl, rfl⟩
      | unknown m hm hj =>
          rw [hp] at hm
          cases hm
          rw [hk] at hj
          cases hj
      | skipLine hm => exact absurd hm (by simp [hp])
      | readResult m hm _ => exact absurd hm (by simp [hp])
      | readCancel m _ _ hm _ _ => exact absurd hm (by simp [hp])
      | readOther m hm _ => exact absurd hm (by simp [hp])
      | eof hm => exact absurd hm (by simp [hp])
      | deliver j res c hm _ _ => exact absurd hm (by simp [hp])
      | check hm => exact absurd hm (by simp [hp])
      | _ => exact .inl ⟨hp, by simp⟩
  | cancel s p _ hm =>
      rcases hm with rfl | ⟨hm, -⟩
      · exact .inl ⟨hp, by simp⟩
      · exact absurd hm (by simp [hp])
  | deliver j res c hm _ _ _ => exact absurd hm (by simp [hp])
  | _ => exact .inl ⟨hp, by simp⟩

/-- What a step does to the pump before its send. -/
theorem TransportStep.delivery {e e' : Embedded B} {a : Option EmbeddedAction}
    (h : TransportStep env e a e') {k : Nat} {res : Result} (hp : e.pump = .deliver k res) :
    e'.pump = .deliver k res ∧ a ≠ some (.pump .deliver) ∨
      ∃ c, e.execs[k]? = some c ∧
        e'.execs[k]? = some { c with ch := some res, handed := c.handed ++ [res] } := by
  -- The pump holds the result for this call, so it is this call that gets it.
  have hsent : ∀ {j : Nat} {r : Result} {c : ExecCall}, e.pump = .deliver j r →
      e.execs[j]? = some c →
      e'.execs = e.execs.set j { c with ch := some r, handed := c.handed ++ [r] } →
      ∃ c, e.execs[k]? = some c ∧
        e'.execs[k]? = some { c with ch := some res, handed := c.handed ++ [res] } := by
    intro j r c hm hc hexecs
    rw [hp] at hm
    cases hm
    exact ⟨c, hc, by rw [hexecs, List.getElem?_set_self (List.getElem?_eq_some_iff.mp hc).1]⟩
  cases h with
  | engine a _ h =>
      cases h with
      | deliver j r c hm hc _ => exact .inr (hsent hm hc rfl)
      | found m j hm _ => exact absurd hm (by simp [hp])
      | unknown m hm _ => exact absurd hm (by simp [hp])
      | skipLine hm => exact absurd hm (by simp [hp])
      | readResult m hm _ => exact absurd hm (by simp [hp])
      | readCancel m _ _ hm _ _ => exact absurd hm (by simp [hp])
      | readOther m hm _ => exact absurd hm (by simp [hp])
      | eof hm => exact absurd hm (by simp [hp])
      | check hm => exact absurd hm (by simp [hp])
      | _ => exact .inl ⟨hp, by simp⟩
  | cancel s p _ hm =>
      rcases hm with rfl | ⟨hm, -⟩
      · exact .inl ⟨hp, by simp⟩
      · exact absurd hm (by simp [hp])
  | deliver j r c hm hc _ _ => exact .inr (hsent hm hc rfl)
  | _ => exact .inl ⟨hp, by simp⟩

/-! ### The invariant -/

/-- A goroutine is in `Execute` after its call only. -/
theorem at_exec {s s' : State B} {b : Action} (hs : env.step? s b = some s') {i : Nat}
    {g : Goroutine} (hg : s'.gos[i]? = some g) (hpc : g.pc = .exec) :
    b = .task i .call ∨ (s.gos[i]? = some g ∧ ∀ a, b ≠ .task i a) := by
  rcases step_inv hs with ⟨rfl, hm⟩ | ⟨j, a, x, rfl, hx, ht⟩ | ⟨rfl, rfl⟩ | ⟨d, rfl, rfl⟩
  · rcases hm.gos with hgos | ⟨t, hgos⟩
    · exact .inr ⟨hgos ▸ hg, by simp⟩
    · rw [hgos] at hg
      by_cases hi : i < s.gos.length
      · rw [List.getElem?_append_left hi] at hg
        exact .inr ⟨hg, by simp⟩
      · -- A new goroutine has its inputs before it.
        rw [List.getElem?_append_right (by omega)] at hg
        rw [List.mem_singleton.mp (List.mem_of_getElem? hg)] at hpc
        cases hpc
  · by_cases hij : j = i
    · subst hij
      have hlt : j < s.gos.length := (List.getElem?_eq_some_iff.mp hx).1
      have hexec : ∀ {x' : Goroutine}, s'.gos = s.gos.set j x' → x'.pc = .exec := by
        intro x' hgos
        rw [hgos, List.getElem?_set_self hlt] at hg
        cases hg
        exact hpc
      cases ht with
      | call _ => exact .inl rfl
      | resolve _ =>
          have := hexec rfl
          rcases resolveInputs_pc env x s.clock with h | h <;> simp [h] at this
      | grantGlobal b _ _ =>
          have := hexec rfl
          rcases afterGlobal_pc x s.provLimiters with h | h <;> simp [h] at this
      | ret res err _ =>
          have := hexec rfl
          rcases afterExecute_pc env x s.clock res err with h | h <;> simp [h] at this
      | wake _ =>
          have := hexec rfl
          rcases enterAttempt_cases env x s.clock (x.span.attempts + 1) with ⟨-, h⟩ | ⟨-, h⟩ <;>
            rw [h] at this <;> cases this
      | _ => cases hexec rfl
    · refine .inr ⟨?_, fun a ha => hij (by cases ha; rfl)⟩
      obtain ⟨x', hgos⟩ := ht.goStep
      rw [hgos.gos, List.getElem?_set_ne hij] at hg
      exact hg
  · exact .inr ⟨hg, by simp⟩
  · exact .inr ⟨hg, by simp⟩

/-- Each goroutine in `Execute` has a call that has not returned. -/
def Owned (e : Embedded B) : Prop :=
  ∀ (i : Nat) (g : Goroutine), e.sched.gos[i]? = some g → g.pc = .exec →
    ∃ (k : Nat) (c : ExecCall), e.execs[k]? = some c ∧ c.go = i ∧ c.pc ≠ .returned

/-- A step keeps `Owned`. -/
theorem Owned.step {e e' : Embedded B} {a : Option EmbeddedAction} (h : Owned e)
    (hs : TransportStep env e a e') : Owned e' := by
  intro i g hg hpc
  obtain ⟨b, hb⟩ := hs.schedMove
  rcases at_exec hb.step hg hpc with hcall | ⟨hold, hno⟩
  · have ha := hb.enters i hcall
    cases hs with
    | engine a _ h =>
        cases ha
        cases h with
        | call i x s ev _ _ =>
            exact ⟨e.execs.length, newCall env i x, List.getElem?_concat_length, rfl,
              by simp [newCall]⟩
    | _ => cases ha
  · obtain ⟨k, c, hc, hgo, hlive⟩ := h i g hold hpc
    obtain ⟨c', hc', hmove⟩ := hs.callMove hc
    refine ⟨k, c', hc', hmove.go.trans hgo, fun hret => ?_⟩
    -- The return of the call is a step of the goroutine.
    obtain ⟨res, err, hstep⟩ := hb.ret k c (hmove.returned hlive hret) hc
    exact hno _ (hgo ▸ hstep)

/-- What holds in each state of a trace: the invariants of the calls and of the table, over a state
of the scheduler that can be reached. -/
structure TransportInv (env : Env B) (e : Embedded B) : Prop where
  reach : env.system.Reachable e.sched
  calls : Calls env e
  wired : Wired e
  owned : Owned e
  each : ∀ c ∈ e.execs, CallInv c

/-- A step keeps `Calls`. -/
theorem TransportStep.calls {e e' : Embedded B} {a : Option EmbeddedAction}
    (hs : TransportStep env e a e') (h : TransportInv env e) : Calls env e' := by
  cases hs with
  | engine a _ hs => exact h.calls.step h.reach hs
  | cancel s p hs _ => exact h.calls.schedStep hs (fun i res err hb => by cases hb) rfl
  | write k c hc hpc => exact h.calls.setExec hc rfl rfl rfl rfl fun _ => by simp [hpc]
  | writeFail k c err hc hpc => exact h.calls.setExec hc rfl rfl rfl rfl fun _ => by simp [hpc]
  | ctxDone k c err hc hpc _ => exact h.calls.setExec hc rfl rfl rfl rfl fun _ => by simp [hpc]
  | deliver k res c _ hc _ _ => exact h.calls.setExec hc rfl rfl rfl rfl id
  | idle => exact h.calls

/-- A step keeps `Wired`. -/
theorem TransportStep.wired {e e' : Embedded B} {a : Option EmbeddedAction}
    (hs : TransportStep env e a e') (huniq : UniqueIds e) (h : Wired e) : Wired e' := by
  cases hs with
  | engine a _ hs => exact h.step huniq hs
  -- A cancel may end the pump, which then holds nothing.
  | cancel s p _ hp =>
      refine h.frame rfl rfl (fun _ hm => hm) (fun msg hm => ?_) fun k res hd => ?_
      · rcases hp with rfl | ⟨-, rfl⟩
        · exact h.lookup msg hm
        · cases hm
      · rcases hp with rfl | ⟨-, rfl⟩
        · exact h.deliver k res hd
        · cases hd
  -- A call keeps its entry in the table while it writes and while it waits.
  | write k c hc hpc =>
      exact h.setExec hc rfl rfl rfl rfl rfl (table_setExec h hc rfl (by simp [registered, hpc]))
  | writeFail k c err hc hpc =>
      exact h.setExec hc rfl rfl rfl rfl rfl (table_setExec h hc rfl (by simp [registered, hpc]))
  | ctxDone k c err hc hpc _ =>
      exact h.setExec hc rfl rfl rfl rfl rfl (table_setExec h hc rfl (by simp [registered, hpc]))
  | deliver k res c hp hc hch _ =>
      have hd : EmbeddedStep env e (.pump .deliver) _ := .deliver k res c hp hc hch
      exact (h.step huniq hd).frame rfl rfl (fun _ hm => hm) (fun _ hp => by cases hp)
        fun _ _ hp => by cases hp
  | idle => exact h

/-- No two calls have one id. -/
theorem TransportInv.uniqueIds (hacc : Accepted env.wf) {e : Embedded B} (h : TransportInv env e) :
    UniqueIds e := fun _ _ _ _ hc hd hid =>
  h.calls.index_of_id (reachable_runInv hacc h.reach).flight.ids_nodup hc hd hid

/-- A step keeps the invariant. -/
theorem TransportInv.step (hacc : Accepted env.wf) {e e' : Embedded B} {a : Option EmbeddedAction}
    (h : TransportInv env e) (hs : TransportStep env e a e') : TransportInv env e' := by
  obtain ⟨b, hb⟩ := hs.schedMove
  refine ⟨h.reach.step hb.step, hs.calls h, hs.wired (h.uniqueIds hacc) h.wired, h.owned.step hs,
    fun c hc => ?_⟩
  obtain ⟨k, hk⟩ := List.mem_iff_getElem?.mp hc
  by_cases hlt : k < e.execs.length
  · have hd : e.execs[k]? = some e.execs[k] := List.getElem?_eq_getElem hlt
    obtain ⟨c', hc', hmove⟩ := hs.callMove hd
    rw [hk] at hc'
    cases hc'
    exact hmove.keeps (h.each _ (List.getElem_mem hlt))
  · exact (hs.new_call (by omega) hk).2

/-- The invariant holds at the start. -/
theorem TransportInv.init : TransportInv env env.embeddedInitial := by
  refine ⟨.init, ⟨fun c hc => (by cases hc), List.nodup_nil⟩, ⟨fun id k => ?_,
    fun _ hp => (by cases hp), fun _ _ hp => (by cases hp), fun _ hc => by cases hc⟩,
    fun i g hg _ => (by cases hg), fun c hc => by cases hc⟩
  simp [embeddedInitial]

/-! ### A client that answers once -/

/-- The client answers no id a second time. -/
def AnswersOnce (e : Embedded B) (a : Option EmbeddedAction) : Prop :=
  ∀ b, a = some b → AnsweredOnce e b

/-- A step keeps `Once`. -/
theorem TransportStep.once {e e' : Embedded B} {a : Option EmbeddedAction}
    (hs : TransportStep env e a e') (hw : Wired e) (hP : AnswersOnce e a) (h : Once e) :
    Once e' := by
  cases hs with
  | engine a _ hs => exact h.step hw (hP _ rfl) hs
  | cancel s p _ hp =>
      refine h.frame (fun _ => rfl) (fun id => ?_) execs_same
      rcases hp with rfl | ⟨-, rfl⟩
      · exact le_rfl
      · exact Nat.zero_le _
  | write k c hc _ => exact h.frame (fun _ => rfl) (fun _ => le_rfl) (execs_set hc rfl rfl)
  | writeFail k c err hc _ => exact h.frame (fun _ => rfl) (fun _ => le_rfl) (execs_set hc rfl rfl)
  | ctxDone k c err hc _ _ => exact h.frame (fun _ => rfl) (fun _ => le_rfl) (execs_set hc rfl rfl)
  | deliver k res c hp hc hch _ =>
      have hd : EmbeddedStep env e (.pump .deliver) _ := .deliver k res c hp hc hch
      exact (h.step hw (hP _ rfl) hd).frame (fun _ => rfl) (fun _ => le_rfl) execs_same
  | idle => exact h

/-- Nothing is counted at the start. -/
theorem Once.init : Once env.embeddedInitial :=
  ⟨fun _ => Nat.zero_le _, fun _ => le_rfl, fun _ hc => by cases hc⟩

/-- A call that the pump holds a result for has room in its channel. -/
theorem Once.room {e : Embedded B} (h : Once e) (hinv : TransportInv env e) {k : Nat} {res : Result}
    {c : ExecCall} (hp : e.pump = .deliver k res) (hc : e.execs[k]? = some c) : c.ch = none := by
  obtain ⟨⟨d, hd, hid⟩, -⟩ := hinv.wired.deliver k res hp
  rw [hc] at hd
  cases hd
  have hmem : c ∈ e.execs := List.mem_of_getElem? hc
  have hle := (h.calls c hmem).trans (h.read _)
  have hone : inHand e c.inv.invocationID = 1 := by simp [inHand, hp, hid]
  have hnil : c.handed = [] := List.eq_nil_of_length_eq_zero (by omega)
  cases hch : c.ch with
  | none => rfl
  | some r =>
      have := (hinv.each c hmem).buffered r hch
      rw [hnil] at this
      cases this

/-! ### Traces -/

/-- A run of the scheduler over a transport, which goes on for ever. A step without a label is one
in which the transport does something that the trace does not show. -/
structure Trace (env : Env B) where
  state : Nat → Embedded B
  label : Nat → Option EmbeddedAction
  start : state 0 = env.embeddedInitial
  next : ∀ n, TransportStep env (state n) (label n) (state (n + 1))

/-- The invariant holds along a trace. -/
theorem Trace.inv (hacc : Accepted env.wf) (t : Trace env) (n : Nat) :
    TransportInv env (t.state n) := by
  induction n with
  | zero =>
      rw [t.start]
      exact .init
  | succ n ih => exact ih.step hacc (t.next n)

/-- No answer is counted twice along a trace whose client answers no id twice. -/
theorem Trace.once (hacc : Accepted env.wf) (t : Trace env)
    (honce : ∀ n, AnswersOnce (t.state n) (t.label n)) (n : Nat) : Once (t.state n) := by
  induction n with
  | zero =>
      rw [t.start]
      exact .init
  | succ n ih => exact (t.next n).once (t.inv hacc n).wired (honce n) ih

end Orchestrator.Proofs
