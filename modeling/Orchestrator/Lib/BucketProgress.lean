import Orchestrator.Lib.Replace
import Orchestrator.Lib.SharedBucket

/-!
# `Orchestrator.Lib.BucketProgress`: the acquirers of a shared bucket come to their tokens

Others may be faster than an acquirer, but each of them is granted once: when finitely many
acquirers share a bucket, none of them asks for ever (`eventually_quiet`). The number of grants
becomes constant, and from then on requests are refused.

What has to be known of the bucket is `Fills`: a refusal that comes later than the last request
brings it nearer to a grant, by one step at least of finitely many. Refusals at one instant bring
nothing, but time goes on (`refusals_end`). Nothing is said about how much a refill brings, so the
bucket may lose a part of it to rounding. A bucket that loses all of it has no measure `left` that
goes down, and for such a bucket the conclusion is false.

`Good` is what the bucket keeps and the measure may rely on: that its numbers are finite, say, or
that it can hold a token at all.

The first section inverts the steps of `SharedBucket.acquirers` for a locked section that always has
an outcome. `grants_le_done` is the reason why grants end: each ends an acquirer.
-/

set_option autoImplicit false

namespace Orchestrator.Lib.SharedBucket

variable {B α : Type}

/-! ### Requests -/

section Requests

variable {locked : B → α → Nat → Option (Bool × B)}

/-- What every call asks for. -/
theorem amounts_of_calls {P : α → Prop} {bucket : B} {start : Nat} {s : State B α}
    (hs : (acquirers locked bucket start).ReachableBy
      (fun _ a => ∀ amount, a = .call amount → P amount) s) : ∀ a ∈ s.acquirers, P a.amount := by
  refine hs.holds (Q := fun s => ∀ a ∈ s.acquirers, P a.amount) (fun a ha => by cases ha)
    fun s a s' _ h hcall ha x hx => ?_
  obtain ⟨-, -, hamounts⟩ := step_cases ha
  rcases hamounts x hx with hnew | ⟨y, hy, heq⟩
  · exact hcall _ hnew
  · exact heq ▸ h y hy

/-- A step leaves the bucket alone, or it is the locked section of an acquirer. -/
theorem bucket_moves {s s' : State B α} {act : Action α} (h : step? locked s act = some s') :
    s'.bucket = s.bucket ∨ ∃ i, act = .locked i := by
  cases act with
  | locked i => exact Or.inr ⟨i, rfl⟩
  | call amount =>
      cases h
      exact Or.inl rfl
  | timer i | leave i =>
      obtain ⟨a, -, h⟩ := Option.bind_eq_some_iff.mp h
      obtain ⟨-, h⟩ := Option.ite_none_right_eq_some.mp h
      cases h
      exact Or.inl rfl
  | tick d =>
      cases h
      exact Or.inl rfl

/-- The request of an acquirer, for a locked section that always has an outcome. -/
theorem locked_inv (htotal : ∀ b amount now, ∃ r, locked b amount now = some r) {s s' : State B α}
    {i : Nat} (h : step? locked s (.locked i) = some s') :
    s'.clock = s.clock ∧ ∃ a ∈ s.acquirers,
      (locked s.bucket a.amount s.clock = some (true, s'.bucket) ∧
        s'.grants = s.grants ++ [(s.clock, a.amount)]) ∨
      (locked s.bucket a.amount s.clock = some (false, s'.bucket) ∧ s'.grants = s.grants) := by
  obtain ⟨a, ha, h⟩ := Option.bind_eq_some_iff.mp h
  obtain ⟨-, h⟩ := Option.ite_none_right_eq_some.mp h
  obtain ⟨⟨ok, b⟩, hl⟩ := htotal s.bucket a.amount s.clock
  rw [hl] at h
  cases ok with
  | true =>
      cases h
      exact ⟨rfl, a, List.mem_of_getElem? ha, Or.inl ⟨hl, rfl⟩⟩
  | false =>
      cases h
      exact ⟨rfl, a, List.mem_of_getElem? ha, Or.inr ⟨hl, rfl⟩⟩

/-- A request that is granted. -/
theorem step_granted {s : State B α} {i : Nat} {a : Acquirer α} {b : B}
    (ha : s.acquirers[i]? = some a) (hask : a.pc = .ask)
    (h : locked s.bucket a.amount s.clock = some (true, b)) : step? locked s (.locked i)
      = some (move { s with bucket := b, grants := s.grants ++
        [(s.clock, a.amount)] } i a .done) := by
  simp only [step?, ha, Option.bind_eq_bind, Option.bind_some, hask, if_true, h]

/-- A request that is refused. -/
theorem step_refused {s : State B α} {i : Nat} {a : Acquirer α} {b : B}
    (ha : s.acquirers[i]? = some a) (hask : a.pc = .ask)
    (h : locked s.bucket a.amount s.clock = some (false, b)) : step? locked s (.locked i)
      = some (move { s with bucket := b } i a .wait) := by
  simp only [step?, ha, Option.bind_eq_bind, Option.bind_some, hask, if_true, h]

/-- The end of a wait. -/
theorem step_timer {s : State B α} {i : Nat} {a : Acquirer α} (ha : s.acquirers[i]? = some a)
    (hwait : a.pc = .wait) : step? locked s (.timer i) = some (move s i a .ask) := by
  simp only [step?, ha, Option.bind_eq_bind, Option.bind_some, hwait, if_true]

/-- No acquirer goes away. An index that names an acquirer names the same one for the rest of the
run. -/
theorem length_le_of_step {s s' : State B α} {act : Action α} (h : step? locked s act = some s') :
    s.acquirers.length ≤ s'.acquirers.length := by
  -- Only a call adds an acquirer. The other steps put one back, or leave all as they are.
  cases act with
  | call amount =>
      cases h
      simp
  | locked i =>
      obtain ⟨a, -, h⟩ := Option.bind_eq_some_iff.mp h
      obtain ⟨-, h⟩ := Option.ite_none_right_eq_some.mp h
      split at h <;> cases h <;> simp [move]
  | timer i | leave i =>
      obtain ⟨a, -, h⟩ := Option.bind_eq_some_iff.mp h
      obtain ⟨-, h⟩ := Option.ite_none_right_eq_some.mp h
      cases h
      simp [move]
  | tick d =>
      cases h
      exact le_rfl

/-- A grant ends the acquirer, so there are no more grants than acquirers that are done. This bounds
the number of grants in a run in which nobody new asks. -/
theorem grants_le_done {bucket : B} {start : Nat} {s : State B α}
    (hs : (acquirers locked bucket start).Reachable s) :
    s.grants.length ≤ s.acquirers.countP (fun a => decide (a.pc = .done)) := by
  -- An acquirer that moves on is not done before.
  have hmove : ∀ (t : State B α) {i : Nat} {a : Acquirer α} (pc : Pc),
      t.acquirers[i]? = some a → a.pc ≠ .done →
      (move t i a pc).acquirers.countP (fun a => decide (a.pc = .done))
        = t.acquirers.countP (fun a => decide (a.pc = .done)) + if pc = .done then 1 else 0 := by
    intro t i a pc ha hpc
    have hset := @countP_set_add _ (fun a : Acquirer α => decide (a.pc = .done)) t.acquirers i a
      { a with pc := pc } ha
    show (t.acquirers.set i { a with pc := pc }).countP _ = _
    simpa [hpc] using hset
  refine hs.holds (P := fun s => s.grants.length
    ≤ s.acquirers.countP (fun a => decide (a.pc = .done))) (Nat.le_refl 0) fun s act s' _ ih h => ?_
  cases act with
  | call amount =>
      cases h
      rw [List.countP_append]
      exact ih.trans (Nat.le_add_right _ _)
  | locked i =>
      obtain ⟨a, ha, h⟩ := Option.bind_eq_some_iff.mp h
      obtain ⟨hask, h⟩ := Option.ite_none_right_eq_some.mp h
      have hpc : a.pc ≠ .done := by simp [hask]
      cases hl : locked s.bucket a.amount s.clock with
      | none =>
          rw [hl] at h
          cases h
          rw [hmove s .done ha hpc]
          exact ih.trans (Nat.le_add_right _ _)
      | some r =>
          obtain ⟨ok, b⟩ := r
          rw [hl] at h
          cases ok with
          | true =>
              cases h
              rw [hmove { s with bucket := b, grants := s.grants ++ [(s.clock, a.amount)] } .done
                ha hpc]
              show (s.grants ++ [(s.clock, a.amount)]).length ≤ _
              rw [List.length_append]
              exact Nat.add_le_add_right ih 1
          | false =>
              cases h
              rw [hmove { s with bucket := b } .wait ha hpc]
              exact ih
  | timer i =>
      obtain ⟨a, ha, h⟩ := Option.bind_eq_some_iff.mp h
      obtain ⟨hwait, h⟩ := Option.ite_none_right_eq_some.mp h
      cases h
      rw [hmove s .ask ha (by simp [hwait])]
      exact ih
  | leave i =>
      obtain ⟨a, ha, h⟩ := Option.bind_eq_some_iff.mp h
      obtain ⟨hwait, h⟩ := Option.ite_none_right_eq_some.mp h
      cases h
      rw [hmove s .done ha (by simp [hwait])]
      exact ih.trans (Nat.le_add_right _ _)
  | tick d =>
      cases h
      exact ih

end Requests

/-! ### Refusals -/

/-- When a refusal later than the last one always brings the bucket nearer to a grant, `left` being
how far it is from one, refusals end: `stamp` is the instant of the last one, and time goes on. -/
theorem refusals_end (left stamp : Nat → Nat) (asked : Nat → Prop) {clock : Nat → Nat} {n : Nat}
    (hclock : Monotone clock) (hunbounded : ∀ t, ∃ m, t ≤ clock m)
    (hstamp : ∀ m, n ≤ m → stamp m ≤ clock m)
    (hidle : ∀ m, n ≤ m → ¬ asked m → left (m + 1) = left m ∧ stamp (m + 1) = stamp m)
    (hrefused : ∀ m, n ≤ m → asked m → left (m + 1) ≤ left m ∧
      (stamp m < clock m → left (m + 1) < left m) ∧ stamp (m + 1) = clock m) :
    ∃ k, n ≤ k ∧ ∀ m, k ≤ m → ¬ asked m := by
  have hle : ∀ m, n ≤ m → left (m + 1) ≤ left m := by
    intro m hm
    by_cases h : asked m
    · exact (hrefused m hm h).1
    · exact (hidle m hm h).1.le
  -- `k` is a point behind `n` where `left` is least, so it is constant from there on.
  let k := n + Function.argmin fun i => left (n + i)
  have hconst : ∀ m, k ≤ m → left m = left k := by
    intro m hm
    refine le_antisymm ?_ ?_
    · induction hm with
      | refl => exact le_rfl
      | @step m hm ih => exact (hle m ((Nat.le_add_right n _).trans hm)).trans ih
    · obtain ⟨i, rfl⟩ := Nat.exists_eq_add_of_le ((Nat.le_add_right n _).trans hm)
      exact Function.argmin_le (fun i => left (n + i)) i
  have hnk : n ≤ k := Nat.le_add_right n _
  -- A refusal there comes at the instant of the last one.
  have hsame : ∀ m, k ≤ m → asked m → stamp m = clock m := by
    intro m hm h
    have hkept := (hconst (m + 1) (Nat.le_succ_of_le hm)).trans (hconst m hm).symm
    have hlater := (hrefused m (hnk.trans hm) h).2.1
    have := hstamp m (hnk.trans hm)
    omega
  have hfixed : ∀ m, k ≤ m → stamp m = stamp k := by
    intro m hm
    induction hm with
    | refl => rfl
    | @step m hm ih =>
        by_cases h : asked m
        · rw [(hrefused m (hnk.trans hm) h).2.2, ← hsame m hm h, ih]
        · rw [(hidle m (hnk.trans hm) h).2, ih]
  obtain ⟨j, hj⟩ := hunbounded (stamp k + 1)
  refine ⟨max k j, hnk.trans (le_max_left _ _), fun m hm h => ?_⟩
  have hkm := (le_max_left _ _).trans hm
  have hlate := hclock ((le_max_right k j).trans hm)
  have hnow := (hsame m hkm h).symm.trans (hfixed m hkm)
  omega

/-- What a proof of progress needs to know of a bucket: `stamp` is the instant of the last request,
`left` how far the bucket is from a grant, and `asks` what an acquirer may ask for. -/
structure Fills (locked : B → α → Nat → Option (Bool × B)) (asks : α → Prop) (Good : B → Prop)
    (stamp left : B → Nat) : Prop where
  total : ∀ b amount now, ∃ r, locked b amount now = some r
  keeps : ∀ {b b' : B} {amount : α} {now : Nat} {ok : Bool}, Good b → asks amount →
    locked b amount now = some (ok, b') → Good b'
  stamped : ∀ {b b' : B} {amount : α} {now : Nat} {ok : Bool},
    locked b amount now = some (ok, b') → stamp b' = now
  /-- A refusal does not bring the bucket farther from a grant, and a later one brings it nearer. -/
  refused : ∀ {b b' : B} {amount : α} {now : Nat}, Good b → asks amount → stamp b ≤ now →
    locked b amount now = some (false, b') → left b' ≤ left b ∧ (stamp b < now → left b' < left b)

section Fills

variable {locked : B → α → Nat → Option (Bool × B)} {asks : α → Prop} {Good : B → Prop}
  {stamp left : B → Nat} (hfills : Fills locked asks Good stamp left) {bucket : B} {start : Nat}
  (hgood : Good bucket) (hstamp : stamp bucket ≤ start)
include hfills hgood hstamp

/-- In every run whose acquirers ask for what they may, the bucket stays good, and it was last asked
in the past. -/
theorem reachable_good {s : State B α} (hs : (acquirers locked bucket start).ReachableBy
      (fun _ a => ∀ amount, a = .call amount → asks amount) s) :
    Good s.bucket ∧ stamp s.bucket ≤ s.clock := by
  have hasks := amounts_of_calls hs
  induction hs with
  | init => exact ⟨hgood, hstamp⟩
  | @step s s' act hs hcall ha ih =>
      have hasks := amounts_of_calls hs
      obtain ⟨ihgood, ihstamp⟩ := ih hasks
      -- A step leaves the bucket alone, or it is a locked section, granted or refused.
      rcases bucket_moves ha with hkeep | ⟨i, rfl⟩
      · rw [hkeep]
        exact ⟨ihgood, ihstamp.trans (step_cases ha).2.1⟩
      · obtain ⟨hclock, a, hmem, h⟩ := locked_inv hfills.total ha
        have hdone : ∃ ok, locked s.bucket a.amount s.clock = some (ok, s'.bucket) := by
          rcases h with ⟨h, -⟩ | ⟨h, -⟩
          · exact ⟨true, h⟩
          · exact ⟨false, h⟩
        obtain ⟨ok, hok⟩ := hdone
        exact ⟨hfills.keeps ihgood (hasks a hmem) hok, (hfills.stamped hok).trans hclock.symm |>.le⟩

/-- When finitely many acquirers share the bucket and time goes on, none of them asks for ever. -/
theorem eventually_quiet (e : (acquirers locked bucket start).Execution)
    (hasks : ∀ n amount, e.label n = .call amount → asks amount)
    (hclock : ∀ t, ∃ n, t ≤ (e.state n).clock) {bound : Nat}
    (hbound : ∀ n, (e.state n).acquirers.length ≤ bound) :
    ∃ n, ∀ m, n ≤ m → ∀ i, e.label m ≠ .locked i := by
  have hreach := e.reachableBy (P := fun _ a => ∀ amount, a = .call amount → asks amount) hasks
  have hle : ∀ n, (e.state n).grants.length ≤ bound := fun n =>
    (grants_le_done (e.reachable n)).trans (List.countP_le_length.trans (hbound n))
  -- The room for grants does not grow, so it is constant from some point on.
  obtain ⟨n, hconst⟩ := e.rank_eventually_const (fun s => bound - s.grants.length)
    fun s a s' _ ha => by
      obtain ⟨hstep, -, -⟩ := step_cases ha
      cases hstep with
      | keep _ hgrants => rw [hgrants]
      | granted _ _ _ hgrants =>
          rw [hgrants, List.length_append]
          omega
      | refused _ _ hgrants => rw [hgrants]
  have hgrants : ∀ m, n ≤ m → (e.state m).grants.length = (e.state n).grants.length := by
    intro m hm
    have hroom := hconst m hm
    have hm' := hle m
    have hn' := hle n
    omega
  have hmono : Monotone fun m => (e.state m).clock :=
    monotone_nat_of_le_succ fun m => (step_cases (e.next m)).2.1
  obtain ⟨k, -, hquiet⟩ := refusals_end (fun m => left (e.state m).bucket)
    (fun m => stamp (e.state m).bucket) (fun m => ∃ i, e.label m = .locked i)
    hmono hclock (fun m _ => (reachable_good hfills hgood hstamp (hreach m)).2)
    (fun m _ hidle => by
      rcases bucket_moves (e.next m) with hkeep | hlocked
      · simp only [hkeep, and_self]
      · exact absurd hlocked hidle)
    (fun m hm hlocked => by
      obtain ⟨i, hi⟩ := hlocked
      have hnext := e.next m
      rw [hi] at hnext
      obtain ⟨hgoodm, hstampm⟩ := reachable_good hfills hgood hstamp (hreach m)
      obtain ⟨-, a, hmem, ⟨-, hlonger⟩ | ⟨hrefused, -⟩⟩ := locked_inv hfills.total hnext
      · have hsame := (hgrants (m + 1) (Nat.le_succ_of_le hm)).trans (hgrants m hm).symm
        rw [hlonger, List.length_append] at hsame
        simp at hsame
      · obtain ⟨hdown, hlower⟩ :=
          hfills.refused hgoodm (amounts_of_calls (hreach m) a hmem) hstampm hrefused
        exact ⟨hdown, hlower, hfills.stamped hrefused⟩)
  exact ⟨k, fun m hm i hi => hquiet m hm ⟨i, hi⟩⟩

end Fills

end Orchestrator.Lib.SharedBucket
