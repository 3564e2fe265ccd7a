import Mathlib.Algebra.BigOperators.Group.List.Basic
import Orchestrator.Lib.System
import Orchestrator.Lib.TokenBucket

/-!
# `Orchestrator.Lib.SharedBucket`: token buckets with several acquirers

Any number of acquirers share a bucket. Each asks for its amount under a lock, and when it is
refused it waits and asks again. `acquirers` has their runs, over any order of the acquirers and any
clock that does not go back. How long a wait is does not matter: a timer may fire at any time, and
the bounds hold all the same.

`Window` bounds what is given out between two instants, wherever the window lies: the capacity plus
the refill of the time between them. The potential is what the bucket holds: what was given out
since an instant, together with what is left, is at most the capacity and the refill since
(`Window.since`). A window ends at any later instant, and until then only the grants are counted
(`Window.between`).

`reachable_window` is the bound for the runs of `acquirers`, for any bucket whose locked section is
a request to a `TokenBucket`. The bucket of the code may have a clock with another unit and fields
of its own: `view` and `time` translate.
-/

set_option autoImplicit false

namespace Orchestrator.Lib

namespace TokenBucket

section Sums

variable {α : Type*} [Field α]

/-- The amount of the grants that pass a test on their instant. -/
def givenWhen (grants : List (α × α)) (p : α → Bool) : α :=
  ((grants.filter (fun e => p e.1)).map Prod.snd).sum

/-- One more grant adds its amount when it passes the test. -/
theorem givenWhen_snoc (grants : List (α × α)) (e : α × α) (p : α → Bool) :
    givenWhen (grants ++ [e]) p = givenWhen grants p + if p e.1 then e.2 else 0 := by
  unfold givenWhen
  rw [List.filter_append, List.map_append, List.sum_append]
  cases hp : p e.1 with
  | true => simp [hp]
  | false => simp [hp]

/-- Tests that agree on the instants of the grants count the same amount. -/
theorem givenWhen_congr {grants : List (α × α)} {p q : α → Bool}
    (h : ∀ e ∈ grants, p e.1 = q e.1) : givenWhen grants p = givenWhen grants q := by
  unfold givenWhen
  rw [List.filter_congr h]

end Sums

variable {α : Type*} [Field α] [LinearOrder α]

/-- The amount given out between two instants, both included. -/
def givenBetween (grants : List (α × α)) (s t : α) : α :=
  givenWhen grants (fun x => decide (s ≤ x ∧ x ≤ t))

/-- The amount given out since an instant. -/
def givenSince (grants : List (α × α)) (s : α) : α := givenWhen grants (fun x => decide (s ≤ x))

/-- The books of a bucket over the grants so far, each with its instant. The first four fields say
that the bucket is one, `since` is the potential, and `between` the bound that follows from it for
every window. -/
structure Window (capacity rate : α) (b : TokenBucket α) (grants : List (α × α)) : Prop where
  capacity_eq : b.capacity = capacity
  rate_eq : b.rate = rate
  tokens_nonneg : 0 ≤ b.tokens
  tokens_le : b.tokens ≤ capacity
  past : ∀ e ∈ grants, e.1 ≤ b.updated
  since : ∀ s, s ≤ b.updated → givenSince grants s + b.tokens ≤ capacity + rate * (b.updated - s)
  between : ∀ s t, s ≤ t → givenBetween grants s t ≤ capacity + rate * (t - s)

variable {capacity rate now amount : α} {b b' : TokenBucket α} {grants : List (α × α)}

variable [IsStrictOrderedRing α]

/-- A full bucket has given out nothing. -/
theorem window_full (hcap : 0 ≤ capacity) (hrate : 0 ≤ rate) (start : α) :
    Window capacity rate
      { tokens := capacity, capacity := capacity, rate := rate, updated := start } [] where
  capacity_eq := rfl
  rate_eq := rfl
  tokens_nonneg := hcap
  tokens_le := le_rfl
  past _ he := by cases he
  since s hs := by
    have hgain : 0 ≤ rate * (start - s) := mul_nonneg hrate (sub_nonneg.mpr hs)
    show 0 + capacity ≤ capacity + rate * (start - s)
    linarith
  between s t hst := by
    have hgain : 0 ≤ rate * (t - s) := mul_nonneg hrate (sub_nonneg.mpr hst)
    show 0 ≤ capacity + rate * (t - s)
    linarith

/-- Refilling a bucket gives out nothing. What comes in until now is what the window allows until
now, so the bound only gets wider. -/
theorem Window.refill (h : Window capacity rate b grants) (hcap : 0 ≤ capacity) (hrate : 0 ≤ rate)
    (hnow : b.updated ≤ now) : Window capacity rate (b.refill now) grants where
  capacity_eq := h.capacity_eq
  rate_eq := h.rate_eq
  tokens_nonneg := by
    have hgain : 0 ≤ (now - b.updated) * b.rate :=
      mul_nonneg (sub_nonneg.mpr hnow) (h.rate_eq ▸ hrate)
    exact le_min (h.capacity_eq ▸ hcap) (add_nonneg h.tokens_nonneg hgain)
  tokens_le := h.capacity_eq ▸ min_le_left _ _
  past e he := (h.past e he).trans hnow
  since s hs := by
    have hcapped : (b.refill now).tokens ≤ capacity := h.capacity_eq ▸ min_le_left _ _
    have hgained : (b.refill now).tokens ≤ b.tokens + (now - b.updated) * rate :=
      h.rate_eq ▸ min_le_right _ _
    show givenSince grants s + (b.refill now).tokens ≤ capacity + rate * (now - s)
    rcases le_or_gt s b.updated with hold | hnew
    · have := h.since s hold
      have hsplit : rate * (now - s) = rate * (b.updated - s) + (now - b.updated) * rate := by ring
      rw [hsplit]
      linarith
    · -- Nothing was given out since, and the bucket holds no more than its capacity.
      have hnone : givenSince grants s = 0 := by
        have hempty : grants.filter (fun e => decide (s ≤ e.1)) = [] :=
          List.filter_eq_nil_iff.mpr fun e he => by
            rw [decide_eq_true_iff]
            exact not_le.mpr (lt_of_le_of_lt (h.past e he) hnew)
        unfold givenSince givenWhen
        rw [hempty]
        rfl
      have hgain : 0 ≤ rate * (now - s) := mul_nonneg hrate (sub_nonneg.mpr hs)
      rw [hnone]
      linarith
  between := h.between

/-- What is taken is given out at the instant of the request. The bucket has lost as much as the
windows that end now have gained. -/
theorem Window.take_true (h : Window capacity rate b grants) (hcap : 0 ≤ capacity)
    (hrate : 0 ≤ rate) (hnow : b.updated ≤ now) (hamount : 0 ≤ amount)
    (htake : b.take amount now = (true, b')) :
    Window capacity rate b' (grants ++ [(now, amount)]) := by
  have hr := h.refill hcap hrate hnow
  unfold take at htake
  by_cases hle : amount ≤ (b.refill now).tokens
  · simp only [hle, if_true, Prod.mk.injEq, true_and] at htake
    subst htake
    have hleft : (b.refill now).tokens - amount ≤ capacity := by
      have := hr.tokens_le
      linarith
    -- What is taken counts in every window that reaches up to now, and is gone from the bucket.
    have hsince : ∀ s, s ≤ now → givenSince (grants ++ [(now, amount)]) s
        + ((b.refill now).tokens - amount) ≤ capacity + rate * (now - s) := by
      intro s hs
      have := hr.since s hs
      have hnew : givenSince (grants ++ [(now, amount)]) s = givenSince grants s + amount := by
        unfold givenSince
        rw [givenWhen_snoc, if_pos (decide_eq_true hs)]
      rw [hnew]
      have heq : (b.refill now).updated = now := rfl
      rw [heq] at this
      linarith
    refine ⟨hr.capacity_eq, hr.rate_eq, sub_nonneg.mpr hle, hleft, fun e he => ?_, hsince,
      fun s t hst => ?_⟩
    · rcases List.mem_append.mp he with he | he
      · exact hr.past e he
      · exact (List.mem_singleton.mp he) ▸ le_rfl
    · by_cases hin : s ≤ now ∧ now ≤ t
      · -- All grants are in the past, so the window is what was given out since its start.
        have heq : givenBetween (grants ++ [(now, amount)]) s t
            = givenSince (grants ++ [(now, amount)]) s := by
          refine givenWhen_congr fun e he => ?_
          have hpast : e.1 ≤ now := by
            rcases List.mem_append.mp he with he | he
            · exact hr.past e he
            · exact (List.mem_singleton.mp he) ▸ le_rfl
          have htop : e.1 ≤ t := hpast.trans hin.2
          simp [htop]
        have hbound := hsince s hin.1
        have hlater : rate * (now - s) ≤ rate * (t - s) :=
          mul_le_mul_of_nonneg_left (by linarith [hin.2]) hrate
        rw [heq]
        have := sub_nonneg.mpr hle
        linarith
      · have heq : givenBetween (grants ++ [(now, amount)]) s t = givenBetween grants s t := by
          unfold givenBetween
          rw [givenWhen_snoc, if_neg (by simpa using hin), add_zero]
        rw [heq]
        exact hr.between s t hst
  · simp only [hle, if_false, Prod.mk.injEq, Bool.false_eq_true, false_and] at htake

/-- A refused request gives out nothing. -/
theorem Window.take_false (h : Window capacity rate b grants) (hcap : 0 ≤ capacity)
    (hrate : 0 ≤ rate) (hnow : b.updated ≤ now) (htake : b.take amount now = (false, b')) :
    Window capacity rate b' grants :=
  take_refused htake ▸ h.refill hcap hrate hnow

end TokenBucket

/-! ### Acquirers -/

namespace SharedBucket

/-- Where an acquirer is. A grant ends it, and a refusal sends it into the wait before the next
attempt. -/
inductive Pc
  /-- Before the locked section. -/
  | ask
  /-- In the wait after a refusal. -/
  | wait
  | done
deriving DecidableEq

/-- An acquirer, with the amount it asks for and the place where it is. -/
structure Acquirer (α : Type) where
  amount : α
  pc : Pc

/-- A bucket of type `B` and its acquirers, with the clock that they all read. The type of the
bucket is a parameter, so that the loops of two implementations are instances of one system. -/
structure State (B α : Type) where
  bucket : B
  clock : Nat
  acquirers : List (Acquirer α)
  /-- History: the grants with their instants, in order. -/
  grants : List (Nat × α)

/-- The steps of the acquirers, and the passing of time. Each of them may come at any moment at
which it is possible, so a run is one interleaving out of all. -/
inductive Action (α : Type)
  /-- A new acquirer asks for an amount. -/
  | call (amount : α)
  /-- The `i`-th acquirer runs the locked section. -/
  | locked (i : Nat)
  /-- Its wait is over. -/
  | timer (i : Nat)
  /-- It gives up while it waits. -/
  | leave (i : Nat)
  /-- Time passes. -/
  | tick (d : Nat)

variable {B α : Type}

/-- Put an acquirer at another place. -/
def move (s : State B α) (i : Nat) (a : Acquirer α) (pc : Pc) : State B α :=
  { s with acquirers := s.acquirers.set i { a with pc := pc } }

/-- A step, for a locked section that grants or refuses an amount at an instant; `none` is an
exception. -/
def step? (locked : B → α → Nat → Option (Bool × B)) (s : State B α) :
    Action α → Option (State B α)
  | .call amount => some { s with acquirers := s.acquirers ++ [{ amount := amount, pc := .ask }] }
  | .locked i => do
    let a ← s.acquirers[i]?
    if a.pc = .ask then
      match locked s.bucket a.amount s.clock with
      | none => some (move s i a .done)
      | some (true, b) =>
        some (move { s with bucket := b, grants := s.grants ++ [(s.clock, a.amount)] } i a .done)
      | some (false, b) => some (move { s with bucket := b } i a .wait)
    else none
  | .timer i => do
    let a ← s.acquirers[i]?
    if a.pc = .wait then some (move s i a .ask) else none
  | .leave i => do
    let a ← s.acquirers[i]?
    if a.pc = .wait then some (move s i a .done) else none
  | .tick d => some { s with clock := s.clock + d }

/-- The runs of the acquirers of a bucket. The locked section is a parameter: it takes the bucket,
an amount and the instant, and gives the answer with the bucket it leaves behind. -/
def acquirers (locked : B → α → Nat → Option (Bool × B)) (bucket : B) (start : Nat) :
    System (State B α) (Action α) where
  init := { bucket := bucket, clock := start, acquirers := [], grants := [] }
  step? := step? locked

/-- An acquirer asks for an amount between 0 and the capacity. -/
def AsksWithin [Zero α] [LE α] (capacity : α) (_ : State B α) (a : Action α) : Prop :=
  ∀ amount, a = .call amount → 0 ≤ amount ∧ amount ≤ capacity

/-- The check for it. -/
def asksCheck [Zero α] [LE α] [DecidableLE α] (capacity : α) (_ : State B α) : Action α → Bool
  | .call amount => decide (0 ≤ amount) && decide (amount ≤ capacity)
  | _ => true

/-- The check finds what it looks for. -/
theorem asksWithin_of_check [Zero α] [LE α] [DecidableLE α] {capacity : α} (s : State B α)
    (a : Action α) (h : asksCheck capacity s a = true) : AsksWithin capacity s a := by
  rintro amount rfl
  simpa [asksCheck] using h

/-- What a step does to the bucket: nothing, a grant to one of the acquirers, or a refusal. Every
invariant of a shared bucket has one case for each of the three, and none for the kinds of steps. -/
inductive BucketStep (locked : B → α → Nat → Option (Bool × B)) (s s' : State B α) : Prop
  | keep (hbucket : s'.bucket = s.bucket) (hgrants : s'.grants = s.grants)
  | granted (a : Acquirer α) (ha : a ∈ s.acquirers)
      (h : locked s.bucket a.amount s.clock = some (true, s'.bucket))
      (hgrants : s'.grants = s.grants ++ [(s.clock, a.amount)])
  | refused (a : Acquirer α) (h : locked s.bucket a.amount s.clock = some (false, s'.bucket))
      (hgrants : s'.grants = s.grants)

/-- What a step can do: time does not go back, the bucket changes in the locked section only, and
an acquirer that was there before keeps its amount. -/
theorem step_cases {locked : B → α → Nat → Option (Bool × B)} {s s' : State B α} {act : Action α}
    (h : step? locked s act = some s') :
    BucketStep locked s s' ∧ s.clock ≤ s'.clock ∧
      ∀ a ∈ s'.acquirers, act = .call a.amount ∨ ∃ b ∈ s.acquirers, b.amount = a.amount := by
  -- An acquirer that moves on keeps its amount.
  have hmove : ∀ (t : State B α) {i : Nat} {a : Acquirer α} (pc : Pc),
      t.acquirers = s.acquirers → s.acquirers[i]? = some a →
      ∀ x ∈ (move t i a pc).acquirers, ∃ b ∈ s.acquirers, b.amount = x.amount := by
    intro t i a pc ht ha x hx
    rcases List.mem_or_eq_of_mem_set hx with hx | rfl
    · exact ⟨x, ht ▸ hx, rfl⟩
    · exact ⟨a, List.mem_of_getElem? ha, rfl⟩
  cases act with
  | call amount =>
      cases h
      refine ⟨.keep rfl rfl, le_rfl, fun a ha => ?_⟩
      rcases List.mem_append.mp ha with ha | ha
      · exact Or.inr ⟨a, ha, rfl⟩
      · exact Or.inl (List.mem_singleton.mp ha ▸ rfl)
  | locked i =>
      obtain ⟨a, ha, h⟩ := Option.bind_eq_some_iff.mp h
      obtain ⟨-, h⟩ := Option.ite_none_right_eq_some.mp h
      cases hl : locked s.bucket a.amount s.clock with
      | none =>
          rw [hl] at h
          cases h
          exact ⟨.keep rfl rfl, le_rfl, fun x hx => Or.inr (hmove s _ rfl ha x hx)⟩
      | some r =>
          obtain ⟨ok, b⟩ := r
          rw [hl] at h
          cases ok with
          | true =>
              cases h
              exact ⟨.granted a (List.mem_of_getElem? ha) hl rfl, le_rfl,
                fun x hx => Or.inr (hmove { s with bucket := b, grants := _ } _ rfl ha x hx)⟩
          | false =>
              cases h
              exact ⟨.refused a hl rfl, le_rfl,
                fun x hx => Or.inr (hmove { s with bucket := b } _ rfl ha x hx)⟩
  | timer i =>
      obtain ⟨a, ha, h⟩ := Option.bind_eq_some_iff.mp h
      obtain ⟨-, h⟩ := Option.ite_none_right_eq_some.mp h
      cases h
      exact ⟨.keep rfl rfl, le_rfl, fun x hx => Or.inr (hmove s _ rfl ha x hx)⟩
  | leave i =>
      obtain ⟨a, ha, h⟩ := Option.bind_eq_some_iff.mp h
      obtain ⟨-, h⟩ := Option.ite_none_right_eq_some.mp h
      cases h
      exact ⟨.keep rfl rfl, le_rfl, fun x hx => Or.inr (hmove s _ rfl ha x hx)⟩
  | tick d =>
      cases h
      exact ⟨.keep rfl rfl, Nat.le_add_right _ _, fun a ha => Or.inr ⟨a, ha, rfl⟩⟩

section Window

variable {α : Type} [Field α] [LinearOrder α] [IsStrictOrderedRing α]

/-- The grants with their instants in the time of the bucket. -/
def timed (time : Nat → α) (s : State B α) : List (α × α) :=
  s.grants.map (fun e => (time e.1, e.2))

/-- The books of a shared bucket: the bound on what was granted in every window, with the two facts
that carry it through a step. The bucket was not computed in the future, and nobody asks for a
negative amount. -/
structure Booked (view : B → TokenBucket α) (time : Nat → α) (capacity rate : α)
    (s : State B α) : Prop where
  window : TokenBucket.Window capacity rate (view s.bucket) (timed time s)
  updated : (view s.bucket).updated ≤ time s.clock
  amounts : ∀ a ∈ s.acquirers, 0 ≤ a.amount

/-- The books hold in every run whose acquirers ask for amounts between 0 and the capacity. -/
theorem reachable_booked {locked : B → α → Nat → Option (Bool × B)} (view : B → TokenBucket α)
    {time : Nat → α} (htime : ∀ {m n : Nat}, m ≤ n → time m ≤ time n)
    (hlocked : ∀ {b b' : B} {amount : α} {now : Nat} {ok : Bool},
      locked b amount now = some (ok, b') → (view b).take amount (time now) = (ok, view b'))
    {capacity rate : α} (hcap : 0 ≤ capacity) (hrate : 0 ≤ rate) {bucket : B} {start : Nat}
    (hinit : view bucket
      = { tokens := capacity, capacity := capacity, rate := rate, updated := time start })
    {s : State B α} (hs : (acquirers locked bucket start).ReachableBy (AsksWithin capacity) s) :
    Booked view time capacity rate s := by
  refine hs.holds (Q := Booked view time capacity rate)
    ⟨?_, ?_, fun a ha => (by cases ha)⟩ fun s a s' _ hb hask ha => ?_
  · show TokenBucket.Window capacity rate (view bucket) []
    rw [hinit]
    exact TokenBucket.window_full hcap hrate _
  · show (view bucket).updated ≤ time start
    rw [hinit]
  · obtain ⟨hstep, hclock, hamounts⟩ := step_cases ha
    have hnonneg : ∀ x ∈ s'.acquirers, 0 ≤ x.amount := by
      intro x hx
      rcases hamounts x hx with hcall | ⟨y, hy, heq⟩
      · exact (hask _ hcall).1
      · exact heq ▸ hb.amounts y hy
    cases hstep with
    | keep hbucket hgrants =>
        refine ⟨?_, ?_, hnonneg⟩
        · unfold timed
          rw [hbucket, hgrants]
          exact hb.window
        · rw [hbucket]
          exact hb.updated.trans (htime hclock)
    | granted x hx h hgrants =>
        -- The locked section is a request to the bucket at the instant of the clock.
        have htake := hlocked h
        refine ⟨?_, ?_, hnonneg⟩
        · have := hb.window.take_true hcap hrate hb.updated (hb.amounts x hx) htake
          unfold timed
          rw [hgrants, List.map_append]
          exact this
        · have hupd := TokenBucket.take_updated (view s.bucket) x.amount (time s.clock)
          rw [htake] at hupd
          exact hupd.le.trans (htime hclock)
    | refused x h hgrants =>
        have htake := hlocked h
        refine ⟨?_, ?_, hnonneg⟩
        · unfold timed
          rw [hgrants]
          exact hb.window.take_false hcap hrate hb.updated htake
        · have hupd := TokenBucket.take_updated (view s.bucket) x.amount (time s.clock)
          rw [htake] at hupd
          exact hupd.le.trans (htime hclock)

end Window

end SharedBucket

end Orchestrator.Lib
