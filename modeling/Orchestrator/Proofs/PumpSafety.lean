import Orchestrator.Proofs.Correlation

/-!
# `Orchestrator.Proofs.PumpSafety`: when the pump is blocked for ever

`PumpIncoming` sends a result after it has released the lock of the table, on a channel with room
for one. Between the lookup and the send the call can leave its `select`. When its channel is full
then, nobody ever makes room: the pump is `Wedged`. `blockedForEver_iff` shows that these are the
states that no run leads out of.

One direction is an invariant: a wedged pump stays at the same send, whatever the others do
(`wedged_step`). The other one gives a continuation for each place at which the call can be: it
registers, writes, comes to its `select`, takes the result out of its channel, and there is room
(`goesThrough_of_register` and the lemmas above it).

`KeepsReceiver` is the condition on a step that keeps the pump out of these states, and it is exact
(`wedged_of_step`). A client that answers every invocation at most once never comes to a wedged
pump, as the channel of a call is empty when its only answer arrives (`CorrelationInv.room`).

The counterexample needs three answers: the first is taken, the second fills the channel, and the
third finds it full when the call has gone.
-/

set_option autoImplicit false

namespace Orchestrator.Proofs

open Orchestrator.Lib Orchestrator.Engine Orchestrator.Engine.Env

variable {B : Type} {env : Env B}

/-! ### Blocked sends -/

/-- The call has left its `select` for good. It takes nothing from its channel any more. -/
def pastSelect (c : ExecCall) : Bool :=
  match c.pc with
  | .unregister | .returned => true
  | _ => false

/-- The pump sends to the full channel of a call that takes nothing any more. -/
def Wedged (e : Embedded B) : Prop :=
  ∃ k res c, e.pump = .deliver k res ∧ e.execs[k]? = some c ∧ c.ch ≠ none ∧ pastSelect c = true

/-- The pump sends to the full channel of a call that has returned. -/
def SendsToReturned (e : Embedded B) : Prop :=
  ∃ k res c, e.pump = .deliver k res ∧ e.execs[k]? = some c ∧ c.ch ≠ none ∧ c.pc = .returned

/-- The pump is at a send that goes through in no continuation of the run. -/
def BlockedForEver (env : Env B) (e : Embedded B) : Prop :=
  ∃ k res, e.pump = .deliver k res ∧
    ∀ as e', env.embeddedSystem.runFrom? e as = some e' → e'.pump = .deliver k res

/-- A call that has returned takes nothing any more. -/
theorem SendsToReturned.wedged {e : Embedded B} (h : SendsToReturned e) : Wedged e := by
  obtain ⟨k, res, c, hp, hc, hch, hpc⟩ := h
  exact ⟨k, res, c, hp, hc, hch, by simp [pastSelect, hpc]⟩

/-- The step leaves the pump a receiver: it finds no call that has left its `select` with a result
in its channel, and no call leaves its `select` without a result while the pump waits for room in
its channel. -/
def KeepsReceiver (e : Embedded B) : EmbeddedAction → Prop
  | .pump .lookup => ∀ msg k c, e.pump = .lookup msg →
      e.pending.get? msg.invocationID = some k → e.execs[k]? = some c → c.ch ≠ none →
      pastSelect c = false
  | .exec k .ctxDone | .exec k (.write (some _)) => ∀ res c, e.pump = .deliver k res →
      e.execs[k]? = some c → c.ch = none
  | _ => True

/-! ### What a step leaves alone -/

/-- The calls but the one that steps, or is handed a result, stay as they are. -/
theorem EmbeddedStep.call_frame {e e' : Embedded B} {a : EmbeddedAction}
    (h : EmbeddedStep env e a e') {k : Nat} {c : ExecCall} (hc : e.execs[k]? = some c)
    (hexec : ∀ b, a ≠ .exec k b) (hdeliver : a ≠ .pump .deliver) : e'.execs[k]? = some c := by
  -- A step of another call rewrites the entry of that call.
  have hset : ∀ {j : Nat} {b : ExecAction} (d : ExecCall), a = .exec j b →
      (e.execs.set j d)[k]? = some c := by
    intro j b d ha
    have hjk : j ≠ k := by
      rintro rfl
      exact hexec b ha
    rw [List.getElem?_set_ne hjk, hc]
  cases h with
  | call i g s ev _ _ =>
      show (e.execs ++ [newCall env i g])[k]? = some c
      rw [List.getElem?_append_left (List.getElem?_eq_some_iff.mp hc).1, hc]
  | register j d _ _ => exact hset _ rfl
  | write j d _ _ => exact hset _ rfl
  | writeFail j d _ _ _ => exact hset _ rfl
  | expire j d _ _ _ _ => exact hset _ rfl
  | ctxDone j d _ _ _ => exact hset _ rfl
  | result j d _ _ _ _ => exact hset _ rfl
  | «return» j d _ _ _ _ _ _ _ _ => exact hset _ rfl
  | deliver => exact absurd rfl hdeliver
  | _ => exact hc

/-- Only the pump moves itself. -/
theorem EmbeddedStep.pump_frame {e e' : Embedded B} {a : EmbeddedAction}
    (h : EmbeddedStep env e a e') (ha : ∀ b, a ≠ .pump b) : e'.pump = e.pump := by
  cases h with
  | skipLine | readResult | readCancel | readOther | eof | found | unknown | deliver | check =>
      exact absurd rfl (ha _)
  | _ => rfl

/-- A call that a step adds is not registered yet, and its channel is empty. -/
theorem EmbeddedStep.new_call {e e' : Embedded B} {a : EmbeddedAction}
    (h : EmbeddedStep env e a e') {k : Nat} {c : ExecCall} (hk : e.execs.length ≤ k)
    (hc : e'.execs[k]? = some c) : c.pc = .register ∧ c.ch = none := by
  have hold : ∀ {l : List ExecCall}, l.length = e.execs.length → l[k]? ≠ some c := by
    intro l hl hsome
    have hlt := (List.getElem?_eq_some_iff.mp hsome).1
    omega
  cases h with
  | call i g s ev _ _ =>
      have hc' : (e.execs ++ [newCall env i g])[k]? = some c := hc
      rw [List.getElem?_append_right hk] at hc'
      rw [List.mem_singleton.mp (List.mem_of_getElem? hc')]
      exact ⟨rfl, rfl⟩
  | register | write | writeFail | expire | ctxDone | result | «return» | deliver =>
      exact absurd hc (hold (List.length_set ..))
  | _ => exact absurd hc (hold rfl)

/-- A wedged pump stays wedged at the same send. Only the receiver could take the result out of the
channel, and it reads no more. -/
theorem wedged_step {e e' : Embedded B} {a : EmbeddedAction} {k : Nat} {res : Result}
    {c : ExecCall} (hp : e.pump = .deliver k res) (hc : e.execs[k]? = some c) (hch : c.ch ≠ none)
    (hpast : pastSelect c = true) (h : EmbeddedStep env e a e') :
    e'.pump = .deliver k res ∧
      ∃ c', e'.execs[k]? = some c' ∧ c'.ch ≠ none ∧ pastSelect c' = true := by
  have hlt : k < e.execs.length := (List.getElem?_eq_some_iff.mp hc).1
  by_cases hpump : ∃ b, a = .pump b
  · -- The pump itself cannot step.
    obtain ⟨b, rfl⟩ := hpump
    cases h with
    | deliver j r d hp' hd hroom =>
        rw [hp] at hp'
        cases hp'
        rw [hc] at hd
        cases hd
        exact absurd hroom hch
    | skipLine hp' | readResult _ hp' | readCancel _ _ _ hp' | readOther _ hp' | eof hp'
    | found _ _ hp' | unknown _ hp' | check hp' =>
        rw [hp] at hp'
        cases hp'
  · have hframe : e'.pump = .deliver k res := by
      rw [h.pump_frame fun b hb => hpump ⟨b, hb⟩]
      exact hp
    refine ⟨hframe, ?_⟩
    by_cases hexec : ∃ b, a = .exec k b
    · -- The call itself can only expire or return.
      obtain ⟨b, rfl⟩ := hexec
      cases h with
      | expire _ d hd _ _ _ =>
          rw [hc] at hd
          cases hd
          exact ⟨_, List.getElem?_set_self hlt, hch, hpast⟩
      | «return» _ d _ _ _ _ hd _ _ _ =>
          rw [hc] at hd
          cases hd
          exact ⟨_, List.getElem?_set_self hlt, hch, rfl⟩
      | register _ d hd hpc | write _ d hd hpc | writeFail _ d _ hd hpc
      | ctxDone _ d hd hpc | result _ d _ hd hpc =>
          rw [hc] at hd
          cases hd
          simp [pastSelect, hpc] at hpast
    · exact ⟨c, h.call_frame hc (fun b hb => hexec ⟨b, hb⟩) (fun hd => hpump ⟨_, hd⟩), hch, hpast⟩

/-- A wedged pump is blocked for ever. -/
theorem Wedged.blockedForEver {e : Embedded B} (h : Wedged e) : BlockedForEver env e := by
  obtain ⟨k, res, c, hp, hc, hch, hpast⟩ := h
  refine ⟨k, res, hp, fun as => ?_⟩
  induction as generalizing e c with
  | nil =>
      intro e' hrun
      cases hrun
      exact hp
  | cons a as ih =>
      intro e' hrun
      obtain ⟨e₁, h₁, hrest⟩ := Option.bind_eq_some_iff.mp hrun
      obtain ⟨hp₁, c₁, hc₁, hch₁, hpast₁⟩ := wedged_step hp hc hch hpast (embedded_inv h₁)
      exact ih c₁ hp₁ hc₁ hch₁ hpast₁ e' hrest

/-! ### Sends that go through -/

/-- Some continuation of the run takes the pump past its send. -/
def GoesThrough (env : Env B) (e : Embedded B) : Prop :=
  ∃ as e', env.embeddedSystem.runFrom? e as = some e' ∧ e'.pump = .check

/-- A send goes through when it does after one more step. -/
theorem GoesThrough.of_step {e e' : Embedded B} {a : EmbeddedAction}
    (h : GoesThrough env e') (ha : env.embeddedStep? e a = some e') : GoesThrough env e := by
  obtain ⟨as, e'', hrun, hp⟩ := h
  refine ⟨a :: as, e'', ?_, hp⟩
  show (env.embeddedStep? e a).bind _ = some e''
  rw [ha]
  exact hrun

/-- A send goes through when the channel has room. -/
theorem goesThrough_of_room {e : Embedded B} {k : Nat} {res : Result} {c : ExecCall}
    (hp : e.pump = .deliver k res) (hc : e.execs[k]? = some c) (hch : c.ch = none) :
    GoesThrough env e :=
  ⟨[.pump .deliver], Env.setExec { e with pump := .check } k
      { c with ch := some res, handed := c.handed ++ [res] },
    by simp [System.runFrom?, embeddedSystem, embeddedStep?, pumpStep, hp, hc, hch], rfl⟩

/-- A call at its `select` takes the result out of its channel. -/
theorem goesThrough_of_select {e : Embedded B} {k : Nat} {res : Result} {c : ExecCall}
    (hp : e.pump = .deliver k res) (hc : e.execs[k]? = some c) (hpc : c.pc = .select) :
    GoesThrough env e := by
  have hlt : k < e.execs.length := (List.getElem?_eq_some_iff.mp hc).1
  cases hch : c.ch with
  | none => exact goesThrough_of_room hp hc hch
  | some r =>
      have hroom : GoesThrough env (Env.setExec e k
          { c with pc := .unregister, ch := none, outcome := some (r, none) }) :=
        goesThrough_of_room hp (List.getElem?_set_self hlt) rfl
      exact hroom.of_step (a := .exec k .result) (by simp [embeddedStep?, execStep, hc, hch, hpc])

/-- A call that has yet to write its line comes to its `select`. -/
theorem goesThrough_of_write {e : Embedded B} {k : Nat} {res : Result} {c : ExecCall}
    (hp : e.pump = .deliver k res) (hc : e.execs[k]? = some c) (hpc : c.pc = .write) :
    GoesThrough env e := by
  have hlt : k < e.execs.length := (List.getElem?_eq_some_iff.mp hc).1
  have hselect : GoesThrough env (Env.setExec
      { e with stdout := e.stdout ++ [invocationMsg c.inv] } k { c with pc := .select }) :=
    goesThrough_of_select hp (List.getElem?_set_self hlt) rfl
  exact hselect.of_step (a := .exec k (.write none)) (by simp [embeddedStep?, execStep, hc, hpc])

/-- A call that has yet to register its channel comes to its `select`. -/
theorem goesThrough_of_register {e : Embedded B} {k : Nat} {res : Result} {c : ExecCall}
    (hp : e.pump = .deliver k res) (hc : e.execs[k]? = some c) (hpc : c.pc = .register) :
    GoesThrough env e := by
  have hlt : k < e.execs.length := (List.getElem?_eq_some_iff.mp hc).1
  have hwrite : GoesThrough env (Env.setExec
      { e with pending := e.pending.set c.inv.invocationID k } k { c with pc := .write }) :=
    goesThrough_of_write hp (List.getElem?_set_self hlt) rfl
  exact hwrite.of_step (a := .exec k .register) (by simp [embeddedStep?, execStep, hc, hpc])

/-- A send goes through unless the pump is wedged. -/
theorem goesThrough_of_not_wedged {e : Embedded B} {k : Nat} {res : Result} {c : ExecCall}
    (hp : e.pump = .deliver k res) (hc : e.execs[k]? = some c) (h : ¬ Wedged e) :
    GoesThrough env e := by
  have hpast : pastSelect c = true → c.ch = none := fun hpast => by
    by_contra hch
    exact h ⟨k, res, c, hp, hc, hch, hpast⟩
  cases hpc : c.pc with
  | register => exact goesThrough_of_register hp hc hpc
  | write => exact goesThrough_of_write hp hc hpc
  | select => exact goesThrough_of_select hp hc hpc
  | unregister => exact goesThrough_of_room hp hc (hpast (by simp [pastSelect, hpc]))
  | returned => exact goesThrough_of_room hp hc (hpast (by simp [pastSelect, hpc]))

/-- The table and the pump hold channels of calls that were made. -/
structure Addressed (e : Embedded B) : Prop where
  table : ∀ id k, e.pending.get? id = some k → k < e.execs.length
  deliver : ∀ k res, e.pump = .deliver k res → k < e.execs.length

/-- The number of calls never falls. -/
theorem EmbeddedStep.execs_length {e e' : Embedded B} {a : EmbeddedAction}
    (h : EmbeddedStep env e a e') : e.execs.length ≤ e'.execs.length := by
  cases h <;> simp [Env.setExec]

/-- A step of the engine keeps `Addressed`: the pump holds a result for a call that exists, and the
table leads to calls that exist. -/
theorem Addressed.step {e e' : Embedded B} {a : EmbeddedAction} (h : Addressed e)
    (hs : EmbeddedStep env e a e') : Addressed e' := by
  have hlen := hs.execs_length
  refine ⟨fun id k hk => ?_, fun k res hp => ?_⟩
  · -- Entries are added by the registration of a call and taken away at its return.
    cases hs with
    | register j c hc _ =>
        rw [show (Env.setExec _ _ _ : Embedded B).pending = e.pending.set c.inv.invocationID j from
          rfl, Dict.get?_set] at hk
        split at hk
        · cases hk
          exact (List.getElem?_eq_some_iff.mp hc).1.trans_le hlen
        · exact (h.table id k hk).trans_le hlen
    | «return» j c res err s ev _ _ _ _ =>
        rw [show (Env.setExec _ _ _ : Embedded B).pending = e.pending.erase c.inv.invocationID from
          rfl, Dict.get?_erase] at hk
        split at hk
        · cases hk
        · exact (h.table id k hk).trans_le hlen
    | _ => exact (h.table id k hk).trans_le hlen
  · -- Only the pump decides what it holds, and it takes the address from the table.
    by_cases hpump : ∃ b, a = .pump b
    · obtain ⟨b, rfl⟩ := hpump
      cases hs with
      | found msg j _ hj =>
          cases hp
          exact h.table _ _ hj
      | skipLine _ => exact h.deliver k res hp
      | check _ =>
          simp only at hp
          split at hp <;> cases hp
      | readResult | readCancel | readOther | eof | unknown | deliver => cases hp
    · rw [hs.pump_frame fun b hb => hpump ⟨b, hb⟩] at hp
      exact (h.deliver k res hp).trans_le hlen

/-- `Addressed` holds in every reachable state of the engine. -/
theorem reachable_addressed {e : Embedded B} (h : env.embeddedSystem.Reachable e) :
    Addressed e := by
  have hinit : Addressed env.embeddedInitial :=
    ⟨fun id k hk => by simp [embeddedInitial] at hk, fun k res hp => by cases hp⟩
  exact h.holds (P := Addressed) hinit fun e a e' _ haddr ha => haddr.step (embedded_inv ha)

/-- The pump is blocked for ever exactly when it is wedged. -/
theorem blockedForEver_iff {e : Embedded B} (h : env.embeddedSystem.Reachable e) :
    BlockedForEver env e ↔ Wedged e := by
  refine ⟨fun hb => ?_, Wedged.blockedForEver⟩
  obtain ⟨k, res, hp, hall⟩ := hb
  have hlt := (reachable_addressed h).deliver k res hp
  by_contra hw
  obtain ⟨as, e', hrun, hp'⟩ :=
    @goesThrough_of_not_wedged _ env _ _ _ _ hp (List.getElem?_eq_getElem hlt) hw
  rw [hall as e' hrun] at hp'
  cases hp'

/-! ### Runs that keep the receiver -/

/-- A step that keeps the receiver does not wedge the pump. For each step that could, the condition
denies what it would take. -/
theorem not_wedged_step {e e' : Embedded B} {a : EmbeddedAction} (h : ¬ Wedged e)
    (hkeep : KeepsReceiver e a) (hs : EmbeddedStep env e a e') : ¬ Wedged e' := by
  rintro ⟨k, res, c', hp', hc', hch', hpast'⟩
  by_cases hpump : ∃ b, a = .pump b
  · obtain ⟨b, rfl⟩ := hpump
    cases hs with
    | found msg j hp hj =>
        cases hp'
        have hfree := hkeep msg _ c' hp hj hc' hch'
        rw [hfree] at hpast'
        cases hpast'
    | skipLine _ => exact h ⟨k, res, c', hp', hc', hch', hpast'⟩
    | check _ =>
        simp only at hp'
        split at hp' <;> cases hp'
    | readResult | readCancel | readOther | eof | unknown | deliver => cases hp'
  · have hp : e.pump = .deliver k res := by
      rw [← hs.pump_frame fun b hb => hpump ⟨b, hb⟩]
      exact hp'
    by_cases hlt : k < e.execs.length
    · obtain ⟨c, hc⟩ : ∃ c, e.execs[k]? = some c := ⟨_, List.getElem?_eq_getElem hlt⟩
      by_cases hexec : ∃ b, a = .exec k b
      · obtain ⟨b, rfl⟩ := hexec
        have hself : ∀ {x : ExecCall}, (e.execs.set k x)[k]? = some c' → x = c' := fun hx => by
          rw [List.getElem?_set_self hlt] at hx
          exact Option.some.inj hx
        cases hs with
        | register _ d hd _ | write _ d hd _ =>
            obtain rfl := hself hc'
            cases hpast'
        | writeFail _ d _ hd _ | ctxDone _ d hd _ =>
            -- The call leaves with a result in its channel.
            obtain rfl := hself hc'
            exact hch' (hkeep res d hp hd)
        | expire _ d hd _ _ _ =>
            obtain rfl := hself hc'
            exact h ⟨k, res, d, hp, hd, hch', hpast'⟩
        | result _ d _ hd _ _ =>
            obtain rfl := hself hc'
            exact hch' rfl
        | «return» _ d _ _ _ _ hd hpc _ _ =>
            obtain rfl := hself hc'
            exact h ⟨k, res, d, hp, hd, hch', by simp [pastSelect, hpc]⟩
      · rw [hs.call_frame hc (fun b hb => hexec ⟨b, hb⟩) fun hd => hpump ⟨_, hd⟩] at hc'
        cases hc'
        exact h ⟨k, res, _, hp, hc, hch', hpast'⟩
    · exact hch' (hs.new_call (not_lt.mp hlt) hc').2

/-- The condition is exact: any other step wedges the pump. So it cannot be weakened. -/
theorem wedged_of_step {e e' : Embedded B} {a : EmbeddedAction} (hkeep : ¬ KeepsReceiver e a)
    (hs : EmbeddedStep env e a e') : Wedged e' := by
  -- The pump was about to send to a full channel, and the call leaves the select that would have
  -- emptied it.
  have hleave : ∀ (j : Nat) (d d' : ExecCall), e.execs[j]? = some d → d'.ch = d.ch →
      pastSelect d' = true → e'.execs = e.execs.set j d' → e'.pump = e.pump →
      ¬ (∀ res c, e.pump = .deliver j res → e.execs[j]? = some c → c.ch = none) →
      Wedged e' := by
    intro j d d' hd hch hpast hexecs hpump hne
    have hlt : j < e.execs.length := (List.getElem?_eq_some_iff.mp hd).1
    push Not at hne
    obtain ⟨res, c, hp, hc, hfull⟩ := hne
    rw [hd] at hc
    cases hc
    refine ⟨j, res, d', by rw [hpump, hp], ?_, by rw [hch]; exact hfull, hpast⟩
    rw [hexecs, List.getElem?_set_self hlt]
  cases hs with
  -- The pump finds a call whose channel is full and which reads no more.
  | found msg k hp hk =>
      simp only [KeepsReceiver] at hkeep
      push Not at hkeep
      obtain ⟨msg', j, c, hp', hj, hc, hch, hpast⟩ := hkeep
      rw [hp] at hp'
      cases hp'
      rw [hk] at hj
      cases hj
      exact ⟨k, _, c, rfl, hc, hch, by simpa using hpast⟩
  | unknown msg hp hk =>
      refine absurd (fun msg' j c hp' hj => ?_) hkeep
      rw [hp] at hp'
      cases hp'
      rw [hk] at hj
      cases hj
  -- The two ways to leave the select without the result.
  | ctxDone k d hd _ _ =>
      exact hleave k d { d with pc := .unregister, outcome := _ } hd rfl rfl rfl rfl hkeep
  | writeFail k d err hd _ =>
      exact hleave k d { d with pc := .unregister, outcome := _ } hd rfl rfl rfl rfl hkeep
  | _ => exact absurd trivial hkeep

/-- In a run whose steps all keep the receiver, the pump is never blocked for ever.

A pump that is blocked for ever is at a send into a full channel whose call takes nothing any more
(`blockedForEver_iff`): as long as the call is still in its `select`, it may take the result and
make room. So it is enough that no step leads into such a state, and these are the steps that the
condition excludes (`not_wedged_step`). -/
theorem pump_not_blocked (env : Env B) {e : Embedded B}
    (h : env.embeddedSystem.ReachableBy KeepsReceiver e) :
    ¬ Wedged e ∧ ¬ BlockedForEver env e := by
  have hfree : ¬ Wedged e := by
    refine h.holds (Q := fun e => ¬ Wedged e) ?_ fun e a e' _ hw hkeep ha =>
      not_wedged_step hw hkeep (embedded_inv ha)
    rintro ⟨k, res, c, hp, -⟩
    cases hp
  exact ⟨hfree, fun hb => hfree ((blockedForEver_iff h.reachable).mp hb)⟩

/-- The check of `KeepsReceiver`, on the state before the step. -/
def keepsReceiver (e : Embedded B) : EmbeddedAction → Bool
  | .pump .lookup =>
    match e.pump with
    | .lookup msg => ((e.pending.get? msg.invocationID).bind (e.execs[·]?)).all
        (fun c => c.ch.isNone || !pastSelect c)
    | _ => true
  | .exec k .ctxDone | .exec k (.write (some _)) =>
    match e.pump with
    | .deliver j _ => j != k || (e.execs[k]?).all (fun c => c.ch.isNone)
    | _ => true
  | _ => true

/-- The check decides the condition on the states of a concrete run, which are finite. -/
theorem keepsReceiver_of_check (e : Embedded B) (a : EmbeddedAction)
    (h : keepsReceiver e a = true) : KeepsReceiver e a := by
  have hfull : ∀ k : Nat, (match e.pump with
      | .deliver j _ => j != k || (e.execs[k]?).all (fun c => c.ch.isNone)
      | _ => true) = true → ∀ res c, e.pump = .deliver k res → e.execs[k]? = some c →
      c.ch = none := by
    intro k hk res c hp hc
    rw [hp] at hk
    simpa [hc] using hk
  unfold keepsReceiver at h
  unfold KeepsReceiver
  -- The executable check and the proposition go through the same actions.
  split at h
  · rename_i heq
    intro msg k c hp hk hc hch
    rw [hp] at h
    simpa [hk, hc, hch] using h
  · exact hfull _ h
  · exact hfull _ h
  · trivial

/-- The pump reads the answer for an id and finds the call. -/
def lookupOf (id : String) : List EmbeddedAction :=
  [.pump (.line (some (plainAnswer id))), .pump .lookup]

/-- A second answer waits until the call has taken the first. -/
theorem pump_not_blocked_loneTask :
    ∃ e : Embedded Unit, (∃ c ∈ e.execs, c.pc = .returned ∧ c.handed.length = 2) ∧
      ¬ Wedged e ∧ ¬ BlockedForEver loneTask e := by
  have hrun : ((loneTask.embeddedSystem.guard keepsReceiver).run?
      (upToRegistered ++ [EmbeddedAction.exec 0 (.write none)] ++ answerOf "r-a-1" ++
        [EmbeddedAction.pump .check] ++ lookupOf "r-a-1" ++
        [EmbeddedAction.exec 0 .result, .pump .deliver, .exec 0 .return])).any
        (fun e => e.execs.any (fun c => c.pc = .returned ∧ c.handed.length = 2)) = true := by
    rfl
  obtain ⟨e, he, hp⟩ := System.exists_of_run hrun
  obtain ⟨c, hc, hcp⟩ := List.any_eq_true.mp hp
  exact ⟨e, ⟨c, hc, of_decide_eq_true hcp⟩,
    pump_not_blocked loneTask (System.ReachableBy.of_guard keepsReceiver_of_check he)⟩

/-- The check of `SendsToReturned`: the pump holds an answer for a call that has returned and whose
channel is full. -/
def sendsToReturned (e : Embedded B) : Bool :=
  match e.pump with
  | .deliver k _ => (e.execs[k]?).any (fun c => c.ch.isSome && decide (c.pc = .returned))
  | _ => false

/-- The check finds a pump that sends to a call that has returned. -/
theorem sendsToReturned_of_check {e : Embedded B} (h : sendsToReturned e = true) :
    SendsToReturned e := by
  unfold sendsToReturned at h
  split at h
  · rename_i k res hp
    obtain ⟨c, hc, hcheck⟩ := (Option.any_eq_true _ _).mp h
    rw [Bool.and_eq_true, decide_eq_true_iff] at hcheck
    exact ⟨k, res, c, hp, hc, Option.isSome_iff_ne_none.mp hcheck.1, hcheck.2⟩
  · cases h

/-- A client answers one id three times. The call takes the first answer, the second fills its
channel, and the pump waits to send the third when the call returns. -/
theorem pump_blocked :
    ¬ ∀ (env : Env Unit) (iter : MapOrder) (e : Embedded Unit),
      env.wf.validate iter = .ok () → env.embeddedSystem.Reachable e →
      ¬ (SendsToReturned e ∧ BlockedForEver env e) := by
  intro h
  have hrun : (loneTask.embeddedSystem.run?
      (upToRegistered ++ [EmbeddedAction.exec 0 (.write none)] ++ answerOf "r-a-1" ++
        [EmbeddedAction.pump .check] ++ [EmbeddedAction.exec 0 .result] ++ answerOf "r-a-1" ++
        [EmbeddedAction.pump .check] ++ lookupOf "r-a-1" ++
        [EmbeddedAction.exec 0 .return])).any sendsToReturned = true := by
    rfl
  obtain ⟨e, he, hp⟩ := System.exists_of_run hrun
  have hsends := sendsToReturned_of_check hp
  exact h loneTask .insertion e (by rfl) he ⟨hsends, hsends.wedged.blockedForEver⟩

end Orchestrator.Proofs
