import Orchestrator.Proofs.Calls
import Orchestrator.Proofs.Cancellation

/-!
# `Orchestrator.Proofs.Correlation`: results find the call that asked for them

`Wired` ties the table of pending channels to the registered calls, `Settled` says how the outcome
of a call comes about, and `Once` counts the results on their way in a run whose client answers no
id twice. `results_correlated` puts them together.

The three are proved one after the other for the steps of the embedded engine. `Wired` and `Settled`
hold in every run. A step changes the table in two places only, where a call registers and where it
returns, and there it needs that no two calls have one id (`UniqueIds`, from `Calls`). `Once` needs
the condition on the client, which is a condition on the messages that the pump reads
(`AnsweredOnce`): with it each id has at most one answer among what was read, what the pump holds
and what was handed to a call.

A call can lose a result that was handed to it not only when its context ends, but also when the
write of its own line fails (`result_lost_on_write`). This is by design, as the error of the write
is what the scheduler should see, so `Correlated` has it among the ways a call settles.
-/

set_option autoImplicit false

namespace Orchestrator.Proofs

open Orchestrator.Lib Orchestrator.Engine Orchestrator.Engine.Env

variable {B : Type} {env : Env B}

/-! ### The table of pending channels -/

/-- The channel of the call is in the table. It is put there before the invocation is written and
removed when the call returns. -/
def registered (c : ExecCall) : Bool :=
  match c.pc with
  | .write | .select | .unregister => true
  | _ => false

/-- The `skill_result` messages read so far. -/
def answers (e : Embedded B) : List InMsg := e.read.filter (fun m => m.type = "skill_result")

/-- The result comes from a message that was read. -/
def FromClient (e : Embedded B) (res : Result) : Prop := ∃ msg ∈ answers e, res = msg.toResult

/-- The table, the pump and the channels agree on who asked for what. An answer is held for the call
that has its id, and it came from the client. -/
structure Wired (e : Embedded B) : Prop where
  /-- The table holds the registered calls under their ids. -/
  table : ∀ id k, e.pending.get? id = some k ↔
    ∃ c, e.execs[k]? = some c ∧ registered c = true ∧ c.inv.invocationID = id
  lookup : ∀ msg, e.pump = .lookup msg → msg ∈ answers e
  deliver : ∀ k res, e.pump = .deliver k res →
    (∃ c, e.execs[k]? = some c ∧ res.invocationID = c.inv.invocationID) ∧ FromClient e res
  handed : ∀ c ∈ e.execs, ∀ res ∈ c.handed,
    res.invocationID = c.inv.invocationID ∧ FromClient e res

/-- The messages read stay read. -/
theorem FromClient.mono {e e' : Embedded B} {res : Result}
    (hread : ∀ msg ∈ answers e, msg ∈ answers e') (h : FromClient e res) : FromClient e' res := by
  obtain ⟨msg, hmsg, rfl⟩ := h
  exact ⟨msg, hread msg hmsg, rfl⟩

/-- A read message is among the messages read. -/
theorem answers_subset_append {e e' : Embedded B} {msg : InMsg}
    (hread : e'.read = e.read ++ [msg]) : ∀ m ∈ answers e, m ∈ answers e' := by
  intro m hm
  show m ∈ e'.read.filter _
  rw [hread, List.filter_append]
  exact List.mem_append_left _ hm

/-- A step that leaves the table and the calls alone. -/
theorem Wired.frame {e e' : Embedded B} (h : Wired e) (hpending : e'.pending = e.pending)
    (hexecs : e'.execs = e.execs) (hread : ∀ msg ∈ answers e, msg ∈ answers e')
    (hlookup : ∀ msg, e'.pump = .lookup msg → msg ∈ answers e')
    (hdeliver : ∀ k res, e'.pump = .deliver k res →
      (∃ c, e.execs[k]? = some c ∧ res.invocationID = c.inv.invocationID) ∧ FromClient e' res) :
    Wired e' := by
  refine ⟨fun id k => ?_, hlookup, fun k res hp => ?_, fun c hc res hres => ?_⟩
  · rw [hpending, hexecs]
    exact h.table id k
  · rw [hexecs]
    exact hdeliver k res hp
  · obtain ⟨hid, hfrom⟩ := h.handed c (hexecs ▸ hc) res hres
    exact ⟨hid, hfrom.mono hread⟩

/-- A call is put back. What the pump holds for it stays addressed to it. -/
theorem deliver_setExec {e e' : Embedded B} {k : Nat} {c c' : ExecCall}
    (hc : e.execs[k]? = some c) (hexecs : e'.execs = e.execs.set k c') (hinv : c'.inv = c.inv)
    {j : Nat} {res : Result}
    (h : ∃ d, e.execs[j]? = some d ∧ res.invocationID = d.inv.invocationID) :
    ∃ d, e'.execs[j]? = some d ∧ res.invocationID = d.inv.invocationID := by
  obtain ⟨d, hd, hid⟩ := h
  have hlt : k < e.execs.length := (List.getElem?_eq_some_iff.mp hc).1
  rw [hexecs]
  by_cases hjk : k = j
  · subst hjk
    rw [hc] at hd
    cases hd
    exact ⟨c', List.getElem?_set_self hlt, by rw [hinv, hid]⟩
  · exact ⟨d, by rw [List.getElem?_set_ne hjk, hd], hid⟩

/-- The table after a call is put back that is registered as before. -/
theorem table_setExec {e : Embedded B} (h : Wired e) {k : Nat} {c c' : ExecCall}
    (hc : e.execs[k]? = some c) (hinv : c'.inv = c.inv) (hreg : registered c' = registered c)
    (id : String) (j : Nat) : e.pending.get? id = some j ↔
      ∃ d, (e.execs.set k c')[j]? = some d ∧ registered d = true ∧ d.inv.invocationID = id := by
  have hlt : k < e.execs.length := (List.getElem?_eq_some_iff.mp hc).1
  rw [h.table]
  by_cases hkj : k = j
  · subst hkj
    simp [List.getElem?_set_self hlt, hc, hreg, hinv]
  · rw [List.getElem?_set_ne hkj]

/-- A step of a call that leaves the pump and the history of its channel alone. -/
theorem Wired.setExec {e e' : Embedded B} (h : Wired e) {k : Nat} {c c' : ExecCall}
    (hc : e.execs[k]? = some c) (hexecs : e'.execs = e.execs.set k c') (hinv : c'.inv = c.inv)
    (hhanded : c'.handed = c.handed) (hpump : e'.pump = e.pump) (hread : e'.read = e.read)
    (htable : ∀ id j, e'.pending.get? id = some j ↔ ∃ d, (e.execs.set k c')[j]? = some d ∧
      registered d = true ∧ d.inv.invocationID = id) : Wired e' := by
  have hanswers : answers e' = answers e := by
    show e'.read.filter _ = e.read.filter _
    rw [hread]
  have hfrom : ∀ res, FromClient e res → FromClient e' res := fun res hf =>
    hf.mono (hanswers ▸ fun _ hm => hm)
  -- The table is a hypothesis. What the pump holds stays addressed to the same calls, and each call
  -- keeps its history.
  refine ⟨fun id j => ?_, fun msg hp => ?_, fun j res hp => ?_, fun d hd res hres => ?_⟩
  · rw [hexecs]
    exact htable id j
  · rw [hanswers]
    exact h.lookup msg (hpump ▸ hp)
  · obtain ⟨hd, hf⟩ := h.deliver j res (hpump ▸ hp)
    exact ⟨deliver_setExec hc hexecs hinv hd, hfrom res hf⟩
  · rw [hexecs] at hd
    rcases List.mem_or_eq_of_mem_set hd with hd | rfl
    · obtain ⟨hid, hf⟩ := h.handed d hd res hres
      exact ⟨hid, hfrom res hf⟩
    · obtain ⟨hid, hf⟩ := h.handed c (List.mem_of_getElem? hc) res (hhanded ▸ hres)
      exact ⟨by rw [hid, hinv], hfrom res hf⟩

/-- No two calls have one id. -/
def UniqueIds (e : Embedded B) : Prop :=
  ∀ (j k : Nat) (c d : ExecCall), e.execs[j]? = some c → e.execs[k]? = some d →
    c.inv.invocationID = d.inv.invocationID → j = k

/-- The table after a call registers its channel. The id is new in the table, since no other call
has it. -/
theorem table_register {e : Embedded B} (h : Wired e) (huniq : UniqueIds e) {k : Nat}
    {c c' : ExecCall} (hc : e.execs[k]? = some c) (hinv : c'.inv = c.inv)
    (hreg : registered c' = true) (id : String) (j : Nat) :
    (e.pending.set c.inv.invocationID k).get? id = some j ↔
      ∃ d, (e.execs.set k c')[j]? = some d ∧ registered d = true ∧ d.inv.invocationID = id := by
  have hlt : k < e.execs.length := (List.getElem?_eq_some_iff.mp hc).1
  rw [Dict.get?_set]
  by_cases hkj : k = j
  · subst hkj
    have hset : (e.execs.set k c')[k]? = some c' := List.getElem?_set_self hlt
    by_cases hid : id = c.inv.invocationID
    · simp [hset, hid, hreg, hinv]
    · have hnone : e.pending.get? id ≠ some k := by
        rw [Ne, h.table]
        rintro ⟨d, hd, -, rfl⟩
        rw [hc] at hd
        cases hd
        exact hid rfl
      simp [hset, hid, hreg, hinv, Ne.symm hid, hnone]
  · rw [List.getElem?_set_ne hkj]
    by_cases hid : id = c.inv.invocationID
    · -- No other call has this id.
      rw [if_pos hid, Option.some.injEq]
      refine ⟨fun hk => absurd hk hkj, ?_⟩
      rintro ⟨d, hd, -, hid'⟩
      exact absurd (huniq k j c d hc hd (by rw [hid', hid])) hkj
    · rw [if_neg hid]
      exact h.table id j

/-- The table after a call removes its channel. Its own entry goes, and every other registered call
keeps its own. -/
theorem table_return {e : Embedded B} (h : Wired e) (huniq : UniqueIds e) {k : Nat}
    {c c' : ExecCall} (hc : e.execs[k]? = some c) (hreg : registered c' = false)
    (id : String) (j : Nat) :
    (e.pending.erase c.inv.invocationID).get? id = some j ↔
      ∃ d, (e.execs.set k c')[j]? = some d ∧ registered d = true ∧ d.inv.invocationID = id := by
  have hlt : k < e.execs.length := (List.getElem?_eq_some_iff.mp hc).1
  rw [Dict.get?_erase]
  -- The call takes its own entry away. That the entry of no other call goes with it is where the
  -- ids have to be distinct.
  by_cases hkj : k = j
  · subst hkj
    have hset : (e.execs.set k c')[k]? = some c' := List.getElem?_set_self hlt
    have hnone : id ≠ c.inv.invocationID → e.pending.get? id ≠ some k := by
      rw [Ne, Ne, h.table]
      rintro hid ⟨d, hd, -, rfl⟩
      rw [hc] at hd
      cases hd
      exact hid rfl
    by_cases hid : id = c.inv.invocationID
    · simp [hset, hid, hreg]
    · simp [hset, hid, hreg, hnone]
  · rw [List.getElem?_set_ne hkj]
    by_cases hid : id = c.inv.invocationID
    · rw [if_pos hid]
      constructor
      · intro hne
        cases hne
      · rintro ⟨d, hd, -, hid'⟩
        exact absurd (huniq k j c d hc hd (by rw [hid', hid])) hkj
    · rw [if_neg hid]
      exact h.table id j

/-- A step of the engine keeps `Wired`. The lookup and the send of the pump are where the three
parts meet: what the table says becomes what the pump holds, and that becomes what a channel has. -/
theorem Wired.step {e e' : Embedded B} {a : EmbeddedAction} (h : Wired e)
    (huniq : UniqueIds e) (hs : EmbeddedStep env e a e') : Wired e' := by
  cases hs with
  | sched a s ev _ _ => exact h.frame rfl rfl (fun _ hm => hm) h.lookup h.deliver
  | call i g s ev _ _ =>
      have hold : ∀ {j : Nat} {c : ExecCall}, e.execs[j]? = some c →
          (e.execs ++ [newCall env i g])[j]? = some c := fun hc => by
        rw [List.getElem?_append_left (List.getElem?_eq_some_iff.mp hc).1, hc]
      refine ⟨fun id j => ?_, h.lookup, fun j res hp => ?_, fun c hc res hres => ?_⟩
      · show e.pending.get? id = some j ↔ ∃ c, (e.execs ++ [newCall env i g])[j]? = some c ∧ _
        rw [h.table]
        constructor
        · rintro ⟨c, hc, hreg, hid⟩
          exact ⟨c, hold hc, hreg, hid⟩
        · rintro ⟨c, hc, hreg, hid⟩
          by_cases hj : j < e.execs.length
          · rw [List.getElem?_append_left hj] at hc
            exact ⟨c, hc, hreg, hid⟩
          · -- The new call is not registered yet.
            rw [List.getElem?_append_right (by omega)] at hc
            obtain rfl := List.mem_singleton.mp (List.mem_of_getElem? hc)
            cases hreg
      · obtain ⟨⟨c, hc, hid⟩, hf⟩ := h.deliver j res hp
        exact ⟨⟨c, hold hc, hid⟩, hf⟩
      · rcases List.mem_append.mp hc with hc | hc
        · exact h.handed c hc res hres
        · obtain rfl := List.mem_singleton.mp hc
          cases hres
  | register k c hc hpc =>
      exact h.setExec hc rfl rfl rfl rfl rfl (table_register h huniq hc rfl rfl)
  | write k c hc hpc =>
      exact h.setExec hc rfl rfl rfl rfl rfl (table_setExec h hc rfl (by simp [registered, hpc]))
  | writeFail k c err hc hpc =>
      exact h.setExec hc rfl rfl rfl rfl rfl (table_setExec h hc rfl (by simp [registered, hpc]))
  | expire k c hc _ _ _ => exact h.setExec hc rfl rfl rfl rfl rfl (table_setExec h hc rfl rfl)
  | ctxDone k c hc hpc _ =>
      exact h.setExec hc rfl rfl rfl rfl rfl (table_setExec h hc rfl (by simp [registered, hpc]))
  | result k c res hc hpc _ =>
      exact h.setExec hc rfl rfl rfl rfl rfl (table_setExec h hc rfl (by simp [registered, hpc]))
  | «return» k c res err s ev hc hpc _ _ =>
      exact h.setExec hc rfl rfl rfl rfl rfl (table_return h huniq hc rfl)
  | skipLine _ => exact h
  | readResult msg _ ht =>
      refine h.frame rfl rfl (answers_subset_append rfl)
        (fun m hm => ?_) fun k res hp => by cases hp
      cases hm
      show msg ∈ (e.read ++ [msg]).filter _
      simp [ht]
  | readCancel msg s ev _ _ _ =>
      exact h.frame rfl rfl (answers_subset_append rfl) (fun _ hp => by cases hp)
        fun _ _ hp => by cases hp
  | readOther msg _ _ =>
      exact h.frame rfl rfl (answers_subset_append rfl) (fun _ hp => by cases hp)
        fun _ _ hp => by cases hp
  | eof _ =>
      exact h.frame rfl rfl (fun _ hm => hm) (fun _ hp => by cases hp) fun _ _ hp => by cases hp
  | found msg k hp hk =>
      -- The table names a call with the id of the message.
      refine h.frame rfl rfl (fun _ hm => hm) (fun _ hp => by cases hp) fun j res hp' => ?_
      cases hp'
      obtain ⟨c, hc, -, hid⟩ := (h.table _ _).mp hk
      exact ⟨⟨c, hc, hid.symm⟩, msg, h.lookup msg hp, rfl⟩
  | unknown msg _ _ =>
      exact h.frame rfl rfl (fun _ hm => hm) (fun _ hp => by cases hp) fun _ _ hp => by cases hp
  | deliver k res c hp hc _ =>
      -- Only here a history grows, by the result that the pump held.
      refine ⟨table_setExec h hc rfl rfl, (fun _ hp => by cases hp), (fun _ _ hp => by cases hp),
        fun d hd r hr => ?_⟩
      rcases List.mem_or_eq_of_mem_set hd with hd | rfl
      · exact h.handed d hd r hr
      · rcases List.mem_append.mp hr with hr | hr
        · exact h.handed c (List.mem_of_getElem? hc) r hr
        · obtain rfl := List.mem_singleton.mp hr
          obtain ⟨⟨d, hd, hid⟩, hf⟩ := h.deliver k r hp
          rw [hc] at hd
          cases hd
          exact ⟨hid, hf⟩
  | check _ =>
      have hpump : (if e.cancelled then PumpPc.stopped else PumpPc.scan) = .stopped ∨
          (if e.cancelled then PumpPc.stopped else PumpPc.scan) = .scan := by
        split <;> simp
      refine h.frame rfl rfl (fun _ hm => hm) (fun m hp => ?_) fun j r hp => ?_ <;>
        rcases hpump with hp' | hp' <;> cases hp'.symm.trans hp
  | sendEvent _ _ _ _ => exact h.frame rfl rfl (fun _ hm => hm) h.lookup h.deliver

/-! ### Outcomes -/

/-- The error of a call whose line could not be written. -/
def writeError (w : String) : String := "stdio: sending skill_invocation: " ++ w

/-- The ways a call settles. The first is the only one that brings a result; in the others the call
returns an error and an empty result. -/
inductive Outcome (e : Embedded B) (c : ExecCall) : Result × Option String → Prop
  /-- It took a result from its channel. -/
  | result (res : Result) (h : res ∈ c.handed) : Outcome e c (res, none)
  /-- Its context had ended. -/
  | ctxDone (h : c.expired = true ∨ e.sched.cancelled = true) :
      Outcome e c ({}, some (ctxErr c))
  /-- Its line could not be written. -/
  | writeFail (w : String) : Outcome e c ({}, some (writeError w))

/-- The state of a call, by its place in `Execute`. It has an outcome from the moment at which its
`select` or its write decided. -/
structure Settled (e : Embedded B) (c : ExecCall) : Prop where
  /-- Before the call settles, its channel holds all it was handed. -/
  waiting : c.outcome = none → c.handed = c.ch.toList
  running : c.pc = .register ∨ c.pc = .write ∨ c.pc = .select → c.outcome = none
  settled : c.pc = .unregister ∨ c.pc = .returned → c.outcome ≠ none
  buffered : ∀ res, c.ch = some res → res ∈ c.handed
  outcome : ∀ out, c.outcome = some out → Outcome e c out

/-- A step that leaves the call alone. -/
theorem Settled.frame {e e' : Embedded B} {c : ExecCall} (h : Settled e c)
    (hcancelled : e.sched.cancelled = true → e'.sched.cancelled = true) : Settled e' c := by
  refine ⟨h.waiting, h.running, h.settled, h.buffered, fun out hout => ?_⟩
  cases h.outcome out hout with
  | result res hres => exact .result res hres
  | ctxDone hdone => exact .ctxDone (hdone.imp_right hcancelled)
  | writeFail w => exact .writeFail w

/-- The deadline of a call can pass after the call settled, which does not change the outcome. -/
theorem Settled.expire {e e' : Embedded B} {c : ExecCall} (h : Settled e c)
    (hrun : e.sched.cancelled = false) : Settled e' { c with expired := true } := by
  refine ⟨h.waiting, h.running, h.settled, h.buffered, fun out hout => ?_⟩
  cases h.outcome out hout with
  | result res hres => exact .result res hres
  | ctxDone hdone =>
      have hexp : c.expired = true := by simpa [hrun] using hdone
      have herr : ctxErr c = ctxErr { c with expired := true } := by simp [ctxErr, hexp]
      rw [herr]
      exact .ctxDone (Or.inl rfl)
  | writeFail w => exact .writeFail w

/-- A result is put into the channel of a call. -/
theorem Settled.deliver {e e' : Embedded B} {c : ExecCall} {res : Result} (h : Settled e c)
    (hch : c.ch = none) (hcancelled : e'.sched = e.sched) :
    Settled e' { c with ch := some res, handed := c.handed ++ [res] } := by
  refine ⟨fun hout => ?_, h.running, h.settled, fun r hr => ?_, fun out hout => ?_⟩
  · show c.handed ++ [res] = [res]
    rw [h.waiting hout, hch]
    rfl
  · cases hr
    exact List.mem_append_right _ (List.mem_singleton_self res)
  · cases h.outcome out hout with
    | result r hr => exact .result r (List.mem_append_left _ hr)
    | ctxDone hdone => exact .ctxDone (hcancelled ▸ hdone)
    | writeFail w => exact .writeFail w

/-- A step of the engine keeps `Settled` for every call. A call settles in its own step, except for
its channel and its deadline. -/
theorem settled_step {e e' : Embedded B} {a : EmbeddedAction} (h : ∀ c ∈ e.execs, Settled e c)
    (hs : EmbeddedStep env e a e') : ∀ c ∈ e'.execs, Settled e' c := by
  -- The calls that the step leaves alone keep their state.
  have hframe : ∀ c ∈ e.execs, Settled e' c := fun c hc => (h c hc).frame hs.cancelled_persist
  have hset : ∀ {k : Nat} {c' : ExecCall}, e'.execs = e.execs.set k c' → Settled e' c' →
      ∀ c ∈ e'.execs, Settled e' c := by
    intro k c' hexecs hc'
    rw [hexecs]
    exact forall_mem_set hframe hc'
  cases hs with
  | call i g s ev _ _ =>
      intro c hc
      rcases List.mem_append.mp hc with hc | hc
      · exact hframe c hc
      · obtain rfl := List.mem_singleton.mp hc
        exact ⟨fun _ => rfl, fun _ => rfl, fun hpc => by simp [newCall] at hpc,
          fun _ hch => (by cases hch), fun _ hout => by cases hout⟩
  | register k c hc hpc =>
      have hold := h c (List.mem_of_getElem? hc)
      have hout := hold.running (Or.inl hpc)
      exact hset rfl ⟨hold.waiting, fun _ => hout, fun hpc' => by simp at hpc', hold.buffered,
        fun out ho => by cases hout.symm.trans ho⟩
  | write k c hc hpc =>
      have hold := h c (List.mem_of_getElem? hc)
      have hout := hold.running (Or.inr (Or.inl hpc))
      exact hset rfl ⟨hold.waiting, fun _ => hout, fun hpc' => by simp at hpc', hold.buffered,
        fun out ho => by cases hout.symm.trans ho⟩
  | writeFail k c err hc hpc =>
      have hold := h c (List.mem_of_getElem? hc)
      refine hset rfl ⟨fun ho => (by cases ho), fun hpc' => by simp at hpc', fun _ => by simp,
        hold.buffered, fun out ho => ?_⟩
      cases ho
      exact .writeFail err
  | expire k c hc _ _ hrun =>
      exact hset rfl ((h c (List.mem_of_getElem? hc)).expire hrun)
  | ctxDone k c hc hpc hdone =>
      have hold := h c (List.mem_of_getElem? hc)
      refine hset rfl ⟨fun ho => (by cases ho), fun hpc' => by simp at hpc', fun _ => by simp,
        hold.buffered, fun out ho => ?_⟩
      cases ho
      exact .ctxDone hdone
  | result k c res hc hpc hch =>
      have hold := h c (List.mem_of_getElem? hc)
      refine hset rfl ⟨fun ho => (by cases ho), fun hpc' => by simp at hpc', fun _ => by simp,
        fun _ hr => (by cases hr), fun out ho => ?_⟩
      cases ho
      exact .result res (hold.buffered res hch)
  | «return» k c res err s ev hc hpc hout hs =>
      have hold := hframe c (List.mem_of_getElem? hc)
      refine hset rfl ⟨hold.waiting, fun hpc' => by simp at hpc', fun _ => by simp [hout],
        hold.buffered, fun out ho => ?_⟩
      cases hold.outcome out ho with
      | result r hr => exact .result r hr
      | ctxDone hdone => exact .ctxDone hdone
      | writeFail w => exact .writeFail w
  | deliver k res c hp hc hch => exact hset rfl ((h c (List.mem_of_getElem? hc)).deliver hch rfl)
  | _ => exact hframe

/-! ### Counting the answers -/

/-- The condition on a client: it answers no id a second time. It is checked when the pump reads a
line, against all the lines read before. -/
def AnsweredOnce (e : Embedded B) : EmbeddedAction → Prop
  | .pump (.line (some msg)) =>
    msg.type = "skill_result" → ∀ m ∈ answers e, m.invocationID ≠ msg.invocationID
  | _ => True

/-- The number of answers read for an id. -/
def answered (e : Embedded B) (id : String) : Nat :=
  (answers e).countP (fun m => m.invocationID = id)

/-- The number of answers for an id that the pump holds, which is one or none. It stands between the
answers that were read and those that were handed over. -/
def inHand (e : Embedded B) (id : String) : Nat :=
  match e.pump with
  | .lookup msg => if msg.invocationID = id then 1 else 0
  | .deliver _ res => if res.invocationID = id then 1 else 0
  | _ => 0

/-- No answer is counted twice: those in the hand of the pump and those handed to a call with the id
are among those that were read. -/
structure Once (e : Embedded B) : Prop where
  read : ∀ id, answered e id ≤ 1
  hand : ∀ id, inHand e id ≤ answered e id
  calls : ∀ c ∈ e.execs,
    c.handed.length + inHand e c.inv.invocationID ≤ answered e c.inv.invocationID

/-- A step that reads no answer, and neither picks up nor puts down one. -/
theorem Once.frame {e e' : Embedded B} (h : Once e)
    (hread : ∀ id, answered e' id = answered e id) (hhand : ∀ id, inHand e' id ≤ inHand e id)
    (hexecs : ∀ c ∈ e'.execs, (∃ d ∈ e.execs, d.inv = c.inv ∧ c.handed = d.handed) ∨
      c.handed = []) : Once e' := by
  -- Neither side of an inequality moves the wrong way: as many answers are read, and no more are
  -- held or handed.
  refine ⟨fun id => ?_, fun id => ?_, fun c hc => ?_⟩
  · rw [hread]
    exact h.read id
  · rw [hread]
    exact (hhand id).trans (h.hand id)
  · rw [hread]
    have hle := hhand c.inv.invocationID
    rcases hexecs c hc with ⟨d, hd, hinv, hhanded⟩ | hnil
    · have := h.calls d hd
      rw [hinv] at this
      rw [hhanded]
      omega
    · have := h.hand c.inv.invocationID
      rw [hnil, List.length_nil]
      omega

/-- Each call is there as it was. -/
theorem execs_same {e : Embedded B} : ∀ c ∈ e.execs,
    (∃ d ∈ e.execs, d.inv = c.inv ∧ c.handed = d.handed) ∨ c.handed = [] :=
  fun c hc => Or.inl ⟨c, hc, rfl, rfl⟩

/-- Each call is there with the history it had, one of them put back. -/
theorem execs_set {e : Embedded B} {k : Nat} {c c' : ExecCall} (hc : e.execs[k]? = some c)
    (hinv : c.inv = c'.inv) (hhanded : c'.handed = c.handed) : ∀ d ∈ e.execs.set k c',
    (∃ x ∈ e.execs, x.inv = d.inv ∧ d.handed = x.handed) ∨ d.handed = [] := by
  intro d hd
  rcases List.mem_or_eq_of_mem_set hd with hd | rfl
  · exact Or.inl ⟨d, hd, rfl, rfl⟩
  · exact Or.inl ⟨c, List.mem_of_getElem? hc, hinv, hhanded⟩

/-- A message that is not an answer does not count. -/
theorem answered_append_other {e e' : Embedded B} {msg : InMsg}
    (hread : e'.read = e.read ++ [msg]) (ht : msg.type ≠ "skill_result") (id : String) :
    answered e' id = answered e id := by
  have hsame : answers e' = answers e := by
    show e'.read.filter _ = e.read.filter _
    simp [hread, ht]
  rw [answered, answered, hsame]

/-- An answer counts for its own id. -/
theorem answered_append {e e' : Embedded B} {msg : InMsg}
    (hread : e'.read = e.read ++ [msg]) (ht : msg.type = "skill_result") (id : String) :
    answered e' id = answered e id + if msg.invocationID = id then 1 else 0 := by
  have hsame : answers e' = answers e ++ [msg] := by
    show e'.read.filter _ = e.read.filter _ ++ [msg]
    simp [hread, ht]
  simp [answered, hsame, List.countP_append, List.countP_singleton]

/-- A step of the engine that meets the condition keeps `Once`. An answer moves from the pump to the
history of a call, so the sum over both grows only when a line is read. -/
theorem Once.step {e e' : Embedded B} {a : EmbeddedAction} (h : Once e) (hw : Wired e)
    (hP : AnsweredOnce e a) (hs : EmbeddedStep env e a e') : Once e' := by
  have hzero : ∀ {x : Embedded B}, x.pump = .check ∨ x.pump = .scan ∨ x.pump = .stopped →
      ∀ id, inHand x id ≤ inHand e id := by
    intro x hx id
    have : inHand x id = 0 := by rcases hx with hx | hx | hx <;> simp [inHand, hx]
    omega
  cases hs with
  | sched a s ev _ _ => exact h.frame (fun _ => rfl) (fun _ => le_rfl) execs_same
  | call i g s ev _ _ =>
      refine h.frame (fun _ => rfl) (fun _ => le_rfl) fun c hc => ?_
      rcases List.mem_append.mp hc with hc | hc
      · exact execs_same c hc
      · obtain rfl := List.mem_singleton.mp hc
        exact Or.inr rfl
  | register k c hc _ => exact h.frame (fun _ => rfl) (fun _ => le_rfl) (execs_set hc rfl rfl)
  | write k c hc _ => exact h.frame (fun _ => rfl) (fun _ => le_rfl) (execs_set hc rfl rfl)
  | writeFail k c err hc _ => exact h.frame (fun _ => rfl) (fun _ => le_rfl) (execs_set hc rfl rfl)
  | expire k c hc _ _ _ => exact h.frame (fun _ => rfl) (fun _ => le_rfl) (execs_set hc rfl rfl)
  | ctxDone k c hc _ _ => exact h.frame (fun _ => rfl) (fun _ => le_rfl) (execs_set hc rfl rfl)
  | result k c res hc _ _ => exact h.frame (fun _ => rfl) (fun _ => le_rfl) (execs_set hc rfl rfl)
  | «return» k c res err s ev hc _ _ _ =>
      exact h.frame (fun _ => rfl) (fun _ => le_rfl) (execs_set hc rfl rfl)
  | skipLine _ => exact h
  | readResult msg hp ht =>
      -- The id of the message had no answer before, so no call was handed one.
      have hread : ∀ id, answered { e with read := e.read ++ [msg], pump := .lookup msg } id
          = answered e id + if msg.invocationID = id then 1 else 0 :=
        fun id => answered_append rfl ht id
      have hfresh : answered e msg.invocationID = 0 := by
        rw [answered, List.countP_eq_zero]
        intro m hm heq
        exact hP ht m hm (of_decide_eq_true heq)
      refine ⟨fun id => ?_, fun id => ?_, fun c hc => ?_⟩
      · rw [hread]
        have := h.read id
        split
        · rename_i hid
          rw [← hid, hfresh]
        · omega
      · rw [hread]
        show (if msg.invocationID = id then 1 else 0) ≤ _
        omega
      · rw [hread]
        show c.handed.length + (if msg.invocationID = c.inv.invocationID then 1 else 0) ≤ _
        have := h.calls c hc
        omega
  | readCancel msg s ev _ ht _ =>
      exact h.frame (answered_append_other rfl ht) (hzero (Or.inl rfl)) execs_same
  | readOther msg _ ht =>
      exact h.frame (answered_append_other rfl ht) (hzero (Or.inl rfl)) execs_same
  | eof _ => exact h.frame (fun _ => rfl) (hzero (Or.inr (Or.inr rfl))) execs_same
  | found msg k hp _ =>
      refine h.frame (fun _ => rfl) (fun id => ?_) execs_same
      show (if msg.invocationID = id then 1 else 0) ≤ inHand e id
      simp [inHand, hp]
  | unknown msg _ _ => exact h.frame (fun _ => rfl) (hzero (Or.inr (Or.inl rfl))) execs_same
  | deliver k res c hp hc _ =>
      obtain ⟨⟨d, hd, hid⟩, -⟩ := hw.deliver k res hp
      rw [hc] at hd
      cases hd
      have hhand : ∀ id, inHand e id = if res.invocationID = id then 1 else 0 := by
        intro id
        simp [inHand, hp]
      refine ⟨h.read, fun id => Nat.zero_le _, fun x hx => ?_⟩
      show x.handed.length + 0 ≤ answered e x.inv.invocationID
      rcases List.mem_or_eq_of_mem_set hx with hx | rfl
      · have := h.calls x hx
        omega
      · -- The answer moves from the pump to the channel.
        show (c.handed ++ [res]).length + 0 ≤ answered e c.inv.invocationID
        have := h.calls c (List.mem_of_getElem? hc)
        rw [hhand, if_pos hid] at this
        rw [List.length_append]
        exact this
  | check _ =>
      refine h.frame (fun _ => rfl) (hzero ?_) execs_same
      show (if e.cancelled then PumpPc.stopped else PumpPc.scan) = .check ∨ _
      split <;> simp
  | sendEvent _ _ _ _ => exact h.frame (fun _ => rfl) (fun _ => le_rfl) execs_same

/-! ### Correlation -/

/-- The invariants of a run whose client answers no id twice: calls have different ids, answers are
wired to them, each call settles once, and none is handed two answers. -/
structure CorrelationInv (env : Env B) (e : Embedded B) : Prop where
  calls : Calls env e
  wired : Wired e
  settled : ∀ c ∈ e.execs, Settled e c
  once : Once e

/-- No two calls of a reachable state have one id. -/
theorem uniqueIds (hacc : Accepted env.wf) {e : Embedded B}
    (h : env.embeddedSystem.Reachable e) : UniqueIds e := fun _ _ _ _ hc hd hid =>
  (reachable_calls h).index_of_id (reachable_runInv hacc (sched_reachable h)).flight.ids_nodup
    hc hd hid

/-- The invariants hold in every such run. -/
theorem reachable_correlationInv (hacc : Accepted env.wf) {e : Embedded B}
    (h : env.embeddedSystem.ReachableBy AnsweredOnce e) : CorrelationInv env e := by
  have hinit : Wired env.embeddedInitial ∧ (∀ c ∈ env.embeddedInitial.execs,
      Settled env.embeddedInitial c) ∧ Once env.embeddedInitial := by
    refine ⟨⟨fun id k => ?_, fun _ hp => ?_, fun _ _ hp => ?_, fun _ hc => ?_⟩, fun _ hc => ?_,
      ⟨fun _ => Nat.zero_le _, fun _ => le_rfl, fun _ hc => ?_⟩⟩
    · simp [embeddedInitial]
    all_goals first | cases hp | cases hc
  obtain ⟨hwired, hsettled, honce⟩ := h.holds
    (Q := fun e => Wired e ∧ (∀ c ∈ e.execs, Settled e c) ∧ Once e) hinit
    fun e a e' hr hinv hP ha =>
      have hstep := embedded_inv ha
      ⟨hinv.1.step (uniqueIds hacc hr) hstep, settled_step hinv.2.1 hstep,
        hinv.2.2.step hinv.1 hP hstep⟩
  exact ⟨reachable_calls h.reachable, hwired, hsettled, honce⟩

/-- In a run whose client answers no id twice, a call is handed at most one result. -/
theorem CorrelationInv.handed_le_one {e : Embedded B} (h : CorrelationInv env e) {c : ExecCall}
    (hc : c ∈ e.execs) : c.handed.length + inHand e c.inv.invocationID ≤ 1 :=
  (h.once.calls c hc).trans (h.once.read _)

/-- A call that the pump holds a result for has room in its channel. -/
theorem CorrelationInv.room {e : Embedded B} (h : CorrelationInv env e) {k : Nat} {res : Result}
    {c : ExecCall} (hp : e.pump = .deliver k res) (hc : e.execs[k]? = some c)
    (hid : res.invocationID = c.inv.invocationID) : c.ch = none := by
  have hmem : c ∈ e.execs := List.mem_of_getElem? hc
  have hle := h.handed_le_one hmem
  have hone : inHand e c.inv.invocationID = 1 := by simp [inHand, hp, hid]
  have hnil : c.handed = [] := List.eq_nil_of_length_eq_zero (by omega)
  cases hch : c.ch with
  | none => rfl
  | some r =>
      have := (h.settled c hmem).buffered r hch
      rw [hnil] at this
      cases this

/-- What the transport promises about the results of the client. A call returns the answer with its
own id or none, and an answer reaches the call that waits for it. -/
structure Correlated (env : Env B) (e : Embedded B) : Prop where
  /-- No two calls have one id, live or not. -/
  ids : ∀ (j k : Nat) (c d : ExecCall), e.execs[j]? = some c → e.execs[k]? = some d →
    c.inv.invocationID = d.inv.invocationID → j = k
  /-- A call returns a result only of a `skill_result` with its own id. -/
  own : ∀ c ∈ e.execs, ∀ res, c.outcome = some (res, none) →
    ∃ msg ∈ e.read, msg.type = "skill_result" ∧ msg.invocationID = c.inv.invocationID ∧
      res = msg.toResult
  /-- The lookup for a `skill_result` finds the registered call with its id. -/
  looked_up : ∀ msg k c, e.pump = .lookup msg → e.execs[k]? = some c → registered c = true →
    c.inv.invocationID = msg.invocationID →
    env.embeddedStep? e (.pump .lookup) = some { e with pump := .deliver k msg.toResult }
  /-- The send does not block. It puts the result into the channel of the call with its id, and
  leaves every other call alone. -/
  handed_over : ∀ k res, e.pump = .deliver k res →
    ∃ c, e.execs[k]? = some c ∧ c.inv.invocationID = res.invocationID ∧
      env.embeddedStep? e (.pump .deliver) =
        some { e with
          pump := .check
          execs := e.execs.set k { c with ch := some res, handed := c.handed ++ [res] } }
  /-- A call is handed results with its own id only. -/
  only_own : ∀ c ∈ e.execs, ∀ res ∈ c.handed, res.invocationID = c.inv.invocationID
  /-- A call that was handed a result returns it, unless its context ended or its line could not
  be written. -/
  returned : ∀ c ∈ e.execs, c.pc = .returned → ∀ res ∈ c.handed,
    c.outcome = some (res, none) ∨
      (c.outcome = some ({}, some (ctxErr c)) ∧ (c.expired = true ∨ e.sched.cancelled = true)) ∨
      ∃ w, c.outcome = some ({}, some (writeError w))
  /-- A `skill_result` for a call that has returned is dropped. -/
  late : ∀ msg, ∀ c ∈ e.execs, e.pump = .lookup msg → c.pc = .returned →
    c.inv.invocationID = msg.invocationID →
    env.embeddedStep? e (.pump .lookup) = some { e with pump := .scan }

/-- Every state of a run whose client answers no id twice is `Correlated`. What is promised about a
call is read off the invariants of the run.

Three of them are used. The ids of calls are distinct (`uniqueIds`), the table of pending calls is
the set of registered ones (`Wired`), and what the channel of a call held and what was handed to it
were sent under its id. That an id is answered once keeps the channel free when the answer comes. -/
theorem results_correlated (env : Env B) (iter : MapOrder) (hval : env.wf.validate iter = .ok ())
    {e : Embedded B} (h : env.embeddedSystem.ReachableBy AnsweredOnce e) : Correlated env e := by
  have hacc := accepted_of_validate hval
  have huniq := uniqueIds hacc h.reachable
  have hinv := reachable_correlationInv hacc h
  refine ⟨huniq, fun c hc res hout => ?_, fun msg k c hp hc hreg hid => ?_, fun k res hp => ?_,
    fun c hc res hres => (hinv.wired.handed c hc res hres).1, fun c hc hpc res hres => ?_,
    fun msg c hc hp hpc hid => ?_⟩
  · have hres : res ∈ c.handed := by
      generalize hgen : (res, (none : Option String)) = out at hout
      cases (hinv.settled c hc).outcome out hout with
      | result r hr =>
          cases hgen
          exact hr
      | ctxDone _ => cases hgen
      | writeFail _ => cases hgen
    obtain ⟨hid, msg, hmsg, rfl⟩ := hinv.wired.handed c hc res hres
    obtain ⟨hread, htype⟩ := List.mem_filter.mp hmsg
    exact ⟨msg, hread, of_decide_eq_true htype, hid, rfl⟩
  · have hk : e.pending.get? msg.invocationID = some k :=
      (hinv.wired.table _ _).mpr ⟨c, hc, hreg, hid⟩
    simp [embeddedStep?, pumpStep, hp, hk]
  · obtain ⟨⟨c, hc, hid⟩, -⟩ := hinv.wired.deliver k res hp
    refine ⟨c, hc, hid.symm, ?_⟩
    simp [embeddedStep?, pumpStep, hp, hc, hinv.room hp hc hid, Env.setExec]
  · have hsettled := hinv.settled c hc
    obtain ⟨out, hout⟩ := Option.ne_none_iff_exists'.mp (hsettled.settled (Or.inr hpc))
    rw [hout]
    cases hsettled.outcome out hout with
    | result r hr =>
        -- The call was handed one result, so `r` is the one.
        have hle := hinv.handed_le_one hc
        left
        cases hh : c.handed with
        | nil => simp [hh] at hr
        | cons x rest =>
            have hrest : rest = [] := by
              refine List.eq_nil_of_length_eq_zero ?_
              rw [hh, List.length_cons] at hle
              omega
            subst hrest
            rw [hh, List.mem_singleton] at hr hres
            rw [hr, hres]
    | ctxDone hdone => exact Or.inr (Or.inl ⟨rfl, hdone⟩)
    | writeFail w => exact Or.inr (Or.inr ⟨w, rfl⟩)
  · -- The call with this id has left the table, and no other has the id.
    have hnone : e.pending.get? msg.invocationID = none := by
      cases hk : e.pending.get? msg.invocationID with
      | none => rfl
      | some k =>
          obtain ⟨d, hd, hreg, hid'⟩ := (hinv.wired.table _ _).mp hk
          obtain ⟨j, hj⟩ := List.mem_iff_getElem?.mp hc
          have hjk := huniq j k c d hj hd (by rw [hid, hid'])
          subst hjk
          rw [hj] at hd
          cases hd
          simp [registered, hpc] at hreg
    simp [embeddedStep?, pumpStep, hp, hnone]

/-- The id was not answered before. This is `AnsweredOnce` as a test that a sample run can be put
to. -/
def answersOnce (e : Embedded B) : EmbeddedAction → Bool
  | .pump (.line (some msg)) =>
    decide (msg.type = "skill_result" → ∀ m ∈ answers e, m.invocationID ≠ msg.invocationID)
  | _ => true

/-- The check decides the condition on a message that the pump reads. -/
theorem answeredOnce_of_check (e : Embedded B) (a : EmbeddedAction)
    (h : answersOnce e a = true) : AnsweredOnce e a := by
  unfold answersOnce at h
  unfold AnsweredOnce
  split at h
  · exact of_decide_eq_true h
  · trivial

/-- The `skill_result` of an empty output. -/
def plainAnswer (id : String) : InMsg :=
  { type := "skill_result", invocationID := id, outputJSON := "{}" }

/-- The only task of `loneTask` calls `Execute` and registers its channel. -/
def upToRegistered : List EmbeddedAction :=
  [.sched .main, .sched .main, .sched .main, .sched (.task 0 .resolve), .sched (.task 0 .takeSlot),
    .sched (.task 0 .acquire), .call 0, .exec 0 .register]

/-- The pump hands the answer for an id to the call. -/
def answerOf (id : String) : List EmbeddedAction :=
  [.pump (.line (some (plainAnswer id))), .pump .lookup, .pump .deliver]

/-- A result that arrives in time is returned, and a message with an id nobody has is dropped. -/
theorem results_correlated_loneTask :
    ∃ e : Embedded Unit, (∃ c ∈ e.execs, c.pc = .returned ∧ c.handed.length = 1) ∧
      Correlated loneTask e := by
  have hrun : ((loneTask.embeddedSystem.guard answersOnce).run?
      (upToRegistered ++ [EmbeddedAction.exec 0 (.write none),
        .pump (.line (some (plainAnswer "r-b-1"))), .pump .lookup] ++ answerOf "r-a-1" ++
        [EmbeddedAction.exec 0 .result, .exec 0 .return])).any
        (fun e => e.execs.any (fun c => c.pc = .returned ∧ c.handed.length = 1)) = true := by
    rfl
  obtain ⟨e, he, hp⟩ := System.exists_of_run hrun
  obtain ⟨c, hc, hcp⟩ := List.any_eq_true.mp hp
  exact ⟨e, ⟨c, hc, of_decide_eq_true hcp⟩, results_correlated loneTask .insertion (by rfl)
    (System.ReachableBy.of_guard answeredOnce_of_check he)⟩

/-- A client answers an id before the line is written, and the write fails. The call returns the
error of the write, in a context that has not ended. -/
theorem result_lost_on_write :
    ¬ ∀ (env : Env Unit) (iter : MapOrder) (e : Embedded Unit),
      env.wf.validate iter = .ok () → env.embeddedSystem.ReachableBy AnsweredOnce e →
      ∀ c ∈ e.execs, c.pc = .returned → ∀ res ∈ c.handed,
        c.outcome = some (res, none) ∨ c.expired = true ∨ e.sched.cancelled = true := by
  intro h
  -- The answer is read, looked up and put into the channel before the line is written.
  have hrun : ((loneTask.embeddedSystem.guard answersOnce).run?
      (upToRegistered ++ answerOf "r-a-1" ++
        [EmbeddedAction.exec 0 (.write (some "write /dev/stdout: no space left on device")),
          .exec 0 .return])).any
        (fun e => !e.sched.cancelled && e.execs.any (fun c => c.pc = .returned ∧
          c.handed ≠ [] ∧ c.expired = false ∧ (∃ x ∈ c.outcome, x.2 ≠ none))) = true := by
    rfl
  obtain ⟨e, he, hp⟩ := System.exists_of_run hrun
  rw [Bool.and_eq_true, Bool.not_eq_true'] at hp
  obtain ⟨hrunning, hany⟩ := hp
  obtain ⟨c, hc, hcp⟩ := List.any_eq_true.mp hany
  obtain ⟨hpc, hne, hexp, x, hx, hxe⟩ := of_decide_eq_true hcp
  obtain ⟨res, hres⟩ := List.exists_mem_of_ne_nil _ hne
  rcases h loneTask .insertion e (by rfl) (System.ReachableBy.of_guard answeredOnce_of_check he)
    c hc hpc res hres with hout | hout | hout
  · rw [hout, Option.mem_some_iff] at hx
    exact hxe (by rw [← hx])
  · rw [hexp] at hout
    cases hout
  · rw [hrunning] at hout
    cases hout

end Orchestrator.Proofs
