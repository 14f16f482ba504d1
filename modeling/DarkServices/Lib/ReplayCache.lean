import DarkServices.Lib.Expiry
import DarkServices.Lib.Transition

/-!
# A replay cache under concurrent calls

The check of a replay cache as it is written over a concurrent map: read the clock, load the
entry of the key or store a fresh one in one operation, and refresh an entry that has expired
by a separate store. A sweep visits the entries one by one and deletes an expired one by a
separate operation, with one reading of the clock for the whole sweep. `step` interleaves any
number of calls and sweeps, one operation at a time.

Run alone, a call does what `Expiry.isUsedAndSave` does (`alone`). Under interleaving this
fails in four ways: two calls that find an entry expired, or one of them absent, before either
has stored its own; a delete that hits a refreshed entry; a call whose reading of the clock is
older than a deleted entry; and a negative lifetime. `Orderly` excludes exactly these steps,
and then two calls that find the same key unused lie at least a lifetime apart (`Good.apart`).
-/

namespace Lib
namespace ReplayCache

/-- A call of the check. -/
structure Call (K : Type) where
  key : K
  ttl : ℤ

/-- Where a call is: it has read the clock, has found an entry that has expired and will store
its own, or has returned. -/
inductive Point
  | start
  | read (now : ℤ)
  | expired (now : ℤ)
  | done (now : ℤ) (used : Bool)
deriving DecidableEq

/-- Where a sweep is: between two sweeps, between two visits, or about to delete an entry it has
found expired. -/
inductive SweepPoint (K : Type)
  | waiting
  | visiting (now : ℤ)
  | deleting (now : ℤ) (k : K)

structure State (ι κ K : Type) where
  clock : ℤ
  cache : Expiry K
  calls : ι → Point
  sweeps : κ → SweepPoint K

/-- One operation of a call or of a sweep. -/
inductive Label (ι κ K : Type)
  | now (i : ι) (t : ℤ)
  | loadOrStore (i : ι)
  | store (i : ι)
  | sweep (n : κ) (t : ℤ)
  | visit (n : κ) (k : K)
  | delete (n : κ)

variable {ι κ K : Type} (call : ι → Call K)

/-! ## What is remembered -/

/-- The call has read the clock at `t` and has not returned. -/
def State.InFlight (s : State ι κ K) (i : ι) (t : ℤ) : Prop :=
  s.calls i = .read t ∨ s.calls i = .expired t

/-- The call has found its key unused at `t`; it may still have to store. -/
def State.Passed (s : State ι κ K) (i : ι) (t : ℤ) : Prop :=
  s.calls i = .expired t ∨ s.calls i = .done t false

/-- One of two readings is the first, and the other one is at least its lifetime later. -/
def Apart (ttl ttl' t t' : ℤ) : Prop := (t ≤ t' ∧ t + ttl ≤ t') ∨ (t' ≤ t ∧ t' + ttl' ≤ t)

theorem Apart.symm {ttl ttl' t t' : ℤ} (h : Apart ttl ttl' t t') : Apart ttl' ttl t' t := Or.symm h

/-- Nobody will look the key of the call up before its lifetime is over, or it has an entry that
lives at least that long. -/
def State.Remembers (s : State ι κ K) (i : ι) (t : ℤ) : Prop :=
  (∃ e, s.cache (call i).key = some e ∧ t + (call i).ttl ≤ e) ∨
    (t + (call i).ttl ≤ s.clock ∧
      ∀ j t', (call j).key = (call i).key → s.calls j = .read t' → t + (call i).ttl ≤ t')

/-- The invariant. -/
structure State.Good (s : State ι κ K) : Prop where
  callClock : ∀ i t, s.calls i = .read t → t ≤ s.clock
  sweepClock : ∀ n t, s.sweeps n = .visiting t ∨ (∃ k, s.sweeps n = .deleting t k) → t ≤ s.clock
  lifetime : ∀ i t, s.Passed i t → 0 ≤ (call i).ttl
  expired : ∀ i t, s.calls i = .expired t → ∀ e, s.cache (call i).key = some e → e ≤ t
  one : ∀ i j t t', (call i).key = (call j).key → s.calls i = .expired t →
    s.calls j = .expired t' → i = j
  remembered : ∀ i t, s.calls i = .done t false → s.Remembers call i t
  apart : ∀ i j t t', i ≠ j → (call i).key = (call j).key → s.Passed i t → s.Passed j t' →
    Apart (call i).ttl (call j).ttl t t'

section Invariant

variable {call} {s s' : State ι κ K}

/-- Calls and sweeps that have not begun. -/
theorem State.Good.init (hcalls : ∀ i, s.calls i = .start) (hsweeps : ∀ n, s.sweeps n = .waiting) :
    s.Good call := by
  have hpassed : ∀ i t, ¬ s.Passed i t := by
    rintro i t (hi | hi)
    · cases (hcalls i).symm.trans hi
    · cases (hcalls i).symm.trans hi
  constructor
  · intro i t hi
    cases (hcalls i).symm.trans hi
  · rintro n t (hn | ⟨k, hn⟩)
    · cases (hsweeps n).symm.trans hn
    · cases (hsweeps n).symm.trans hn
  · exact fun i t hi => absurd hi (hpassed i t)
  · exact fun i t hi => absurd (Or.inl hi) (hpassed i t)
  · exact fun i j t t' _ hi => absurd (Or.inl hi) (hpassed i t)
  · exact fun i t hi => absurd (Or.inr hi) (hpassed i t)
  · exact fun i j t t' _ _ hi => absurd hi (hpassed i t)

/-- What is remembered stays so while the cache is the same and the clock moves on. -/
theorem State.Remembers.mono {i : ι} {t : ℤ} (h : s.Remembers call i t) (hcache : s'.cache = s.cache)
    (hclock : s.clock ≤ s'.clock)
    (hread : ∀ j t', s'.calls j = .read t' → s.calls j = .read t' ∨ s.clock ≤ t') :
    s'.Remembers call i t := by
  rcases h with ⟨e, he, hle⟩ | ⟨hle, hlater⟩
  · exact Or.inl ⟨e, by rw [hcache]; exact he, hle⟩
  · refine Or.inr ⟨by omega, ?_⟩
    intro j t' hk hj
    rcases hread j t' hj with hj | hj
    · exact hlater j t' hk hj
    · omega

/-- A step that leaves the cache and the calls that have passed as they are keeps the invariant. -/
theorem State.Good.mono (h : s.Good call) (hcache : s'.cache = s.cache) (hclock : s.clock ≤ s'.clock)
    (hread : ∀ j t, s'.calls j = .read t → s.calls j = .read t ∨ (s.clock ≤ t ∧ t ≤ s'.clock))
    (hsweep : ∀ n t, s'.sweeps n = .visiting t ∨ (∃ k, s'.sweeps n = .deleting t k) → t ≤ s'.clock)
    (hexpired : ∀ j t, s'.calls j = .expired t → s.calls j = .expired t)
    (hdone : ∀ j t, s'.calls j = .done t false → s.calls j = .done t false) : s'.Good call := by
  have hpassed : ∀ j t, s'.Passed j t → s.Passed j t := by
    rintro j t (hj | hj)
    · exact Or.inl (hexpired j t hj)
    · exact Or.inr (hdone j t hj)
  constructor
  · intro j t hj
    rcases hread j t hj with hj | hj
    · have := h.callClock j t hj
      omega
    · exact hj.2
  · exact hsweep
  · exact fun j t hj => h.lifetime j t (hpassed j t hj)
  · intro j t hj e he
    rw [hcache] at he
    exact h.expired j t (hexpired j t hj) e he
  · exact fun j l t t' hk hj hl => h.one j l t t' hk (hexpired j t hj) (hexpired l t' hl)
  · intro j t hj
    exact (h.remembered j t (hdone j t hj)).mono hcache hclock
      fun l t' hl => (hread l t' hl).imp_right And.left
  · exact fun j l t t' hne hk hj hl => h.apart j l t t' hne hk (hpassed j t hj) (hpassed l t' hl)

/-- A call that finds its key unused comes at least a lifetime after every call that has passed. -/
theorem State.Good.later_of_unused (h : s.Good call) {i j : ι} {t t' : ℤ}
    (hi : s.calls i = .read t) (hlive : ¬ s.cache.Live (call i).key t)
    (hone : ∀ j t', (call j).key = (call i).key → s.calls j ≠ .expired t')
    (hk : (call j).key = (call i).key) (hj : s.Passed j t') :
    t' ≤ t ∧ t' + (call j).ttl ≤ t := by
  have hlater : t' + (call j).ttl ≤ t := by
    rcases hj with hj | hj
    · exact absurd hj (hone j t' hk)
    · rcases h.remembered j t' hj with ⟨e, he, hle⟩ | ⟨-, hlater⟩
      · rw [hk] at he
        have hexpired : ¬ t < e := fun hlt => hlive ⟨e, he, hlt⟩
        omega
      · exact hlater i t hk.symm hi
  have hpos := h.lifetime j t' hj
  exact ⟨by omega, hlater⟩

/-- After a call has found its key unused, the calls that have passed are still apart. -/
theorem State.Good.apart_of_new (h : s.Good call) {i : ι} {t : ℤ} (hi : s.calls i = .read t)
    (hlive : ¬ s.cache.Live (call i).key t)
    (hone : ∀ j t', (call j).key = (call i).key → s.calls j ≠ .expired t')
    (hpassed : ∀ j t', s'.Passed j t' → (j = i ∧ t = t') ∨ (j ≠ i ∧ s.Passed j t'))
    {j l : ι} {t₁ t₂ : ℤ} (hne : j ≠ l) (hk : (call j).key = (call l).key) (hj : s'.Passed j t₁)
    (hl : s'.Passed l t₂) : Apart (call j).ttl (call l).ttl t₁ t₂ := by
  rcases hpassed j t₁ hj with ⟨rfl, rfl⟩ | ⟨hji, hj⟩
  · rcases hpassed l t₂ hl with ⟨rfl, rfl⟩ | ⟨hli, hl⟩
    · exact absurd rfl hne
    · exact Or.inr (h.later_of_unused hi hlive hone hk.symm hl)
  · rcases hpassed l t₂ hl with ⟨rfl, rfl⟩ | ⟨hli, hl⟩
    · exact Or.inl (h.later_of_unused hi hlive hone hk hj)
    · exact h.apart j l t₁ t₂ hne hk hj hl

end Invariant

/-! ## The steps -/

/-- The condition on a step. A call finds its key unused only while no other call of the key is
about to store, and with a lifetime that is not negative. An entry is deleted only if it is still
expired for the sweep, and only when no call that has read the clock before its expiry is still
to look it up. -/
def Orderly (s : State ι κ K) : Label ι κ K → Prop
  | .loadOrStore i => ∀ t, s.calls i = .read t → ¬ s.cache.Live (call i).key t →
      0 ≤ (call i).ttl ∧ ∀ j t', (call j).key = (call i).key → s.calls j ≠ .expired t'
  | .delete n => ∀ t k e, s.sweeps n = .deleting t k → s.cache k = some e →
      e < t ∧ ∀ i t', (call i).key = k → s.calls i = .read t' → e ≤ t'
  | _ => True

/-- The other condition on a step: a call reads the clock while another call of its key is in
flight only within the lifetime of that call, and with a positive lifetime of its own. -/
def Brisk (s : State ι κ K) : Label ι κ K → Prop
  | .now i t => ∀ j t', j ≠ i → (call j).key = (call i).key → s.InFlight j t' →
      t < t' + (call j).ttl ∧ 0 < (call i).ttl
  | _ => True

variable [DecidableEq ι] [DecidableEq κ] [DecidableEq K]

/-- One step. The clock moves when it is read. -/
def step (s : State ι κ K) : Label ι κ K → Option (State ι κ K)
  | .now i t =>
    match s.calls i with
    | .start =>
      if s.clock ≤ t then
        some { s with clock := t, calls := Function.update s.calls i (.read t) }
      else none
    | _ => none
  | .loadOrStore i =>
    match s.calls i with
    | .read now =>
      match s.cache (call i).key with
      | none => some { s with
          cache := Function.update s.cache (call i).key (some (now + (call i).ttl))
          calls := Function.update s.calls i (.done now false) }
      | some expireTime =>
        if now < expireTime then
          some { s with calls := Function.update s.calls i (.done now true) }
        else some { s with calls := Function.update s.calls i (.expired now) }
    | _ => none
  | .store i =>
    match s.calls i with
    | .expired now => some { s with
        cache := Function.update s.cache (call i).key (some (now + (call i).ttl))
        calls := Function.update s.calls i (.done now false) }
    | _ => none
  | .sweep n t =>
    match s.sweeps n with
    | .deleting _ _ => none
    | _ =>
      if s.clock ≤ t then
        some { s with clock := t, sweeps := Function.update s.sweeps n (.visiting t) }
      else none
  | .visit n k =>
    match s.sweeps n with
    | .visiting now =>
      match s.cache k with
      | none => some s
      | some expireTime =>
        if expireTime < now then
          some { s with sweeps := Function.update s.sweeps n (.deleting now k) }
        else some s
    | _ => none
  | .delete n =>
    match s.sweeps n with
    | .deleting now k => some { s with
        cache := Function.update s.cache k none
        sweeps := Function.update s.sweeps n (.visiting now) }
    | _ => none

/-- Any number of calls and sweeps on an empty cache. -/
def system : LTS (State ι κ K) (Label ι κ K) :=
  LTS.ofStep (fun s => (s.cache = fun _ => none) ∧ (∀ i, s.calls i = .start) ∧
    ∀ n, s.sweeps n = .waiting) (step call)

/-- A call that runs alone does what `Expiry.isUsedAndSave` does. -/
theorem alone {s : State ι κ K} {i : ι} {t : ℤ} (hi : s.calls i = .start) (ht : s.clock ≤ t) :
    ∃ rest, LTS.run (step call) s (.now i t :: .loadOrStore i :: rest) =
      some ⟨t, (s.cache.isUsedAndSave (call i).key (call i).ttl t).2,
        Function.update s.calls i
          (.done t (s.cache.isUsedAndSave (call i).key (call i).ttl t).1), s.sweeps⟩ := by
  have hnow : step call s (.now i t) =
      some ⟨t, s.cache, Function.update s.calls i (.read t), s.sweeps⟩ := by
    rw [step, hi]
    simp only [if_pos ht]
  unfold Expiry.isUsedAndSave
  cases hcache : s.cache (call i).key with
  | none =>
    refine ⟨[], ?_⟩
    rw [LTS.run, hnow, Option.bind_some, LTS.run, step]
    simp [hcache, LTS.run]
  | some e =>
    by_cases hlt : t < e
    · refine ⟨[], ?_⟩
      rw [LTS.run, hnow, Option.bind_some, LTS.run, step]
      simp [hcache, hlt, LTS.run]
    · refine ⟨[.store i], ?_⟩
      rw [LTS.run, hnow, Option.bind_some, LTS.run, step]
      simp [hcache, hlt, LTS.run, step]

/-! ## Every orderly step keeps the invariant -/

section Steps

variable {call} {s s' : State ι κ K}

/-- Reading the clock. -/
theorem State.Good.now (h : s.Good call) {i : ι} {t : ℤ}
    (hstep : step call s (.now i t) = some s') : s'.Good call := by
  rw [step] at hstep
  split at hstep
  · split at hstep
    · rename_i hle
      cases hstep
      refine h.mono rfl hle ?_ ?_ ?_ ?_
      · intro j t' hj
        rcases of_update hj with ⟨-, heq⟩ | ⟨-, hj⟩
        · cases heq
          exact Or.inr ⟨hle, Int.le_refl _⟩
        · exact Or.inl hj
      · exact fun n t' hn => Int.le_trans (h.sweepClock n t' hn) hle
      · intro j t' hj
        exact (of_update_ne hj (by simp)).2
      · intro j t' hj
        exact (of_update_ne hj (by simp)).2
    · cases hstep
  · cases hstep

omit [DecidableEq κ] in
/-- Looking a key up that is absent. -/
theorem State.Good.absent (h : s.Good call) {i : ι} {t : ℤ} (hi : s.calls i = .read t)
    (habsent : s.cache (call i).key = none) (hpos : 0 ≤ (call i).ttl)
    (hone : ∀ j t', (call j).key = (call i).key → s.calls j ≠ .expired t') :
    State.Good call { s with
      cache := Function.update s.cache (call i).key (some (t + (call i).ttl))
      calls := Function.update s.calls i (.done t false) } := by
  have hlive : ¬ s.cache.Live (call i).key t := by
    rintro ⟨e, he, -⟩
    cases habsent.symm.trans he
  have hexpired : ∀ j t', Function.update s.calls i (.done t false) j = .expired t' →
      s.calls j = .expired t' := by
    intro j t' hj
    exact (of_update_ne hj (by simp)).2
  have hread : ∀ j t', Function.update s.calls i (.done t false) j = .read t' →
      s.calls j = .read t' := by
    intro j t' hj
    exact (of_update_ne hj (by simp)).2
  constructor
  · exact fun j t' hj => h.callClock j t' (hread j t' hj)
  · exact h.sweepClock
  · rintro j t' (hj | hj)
    · exact h.lifetime j t' (Or.inl (hexpired j t' hj))
    · rcases of_update hj with ⟨rfl, -⟩ | ⟨-, hj⟩
      · exact hpos
      · exact h.lifetime j t' (Or.inr hj)
  · intro j t' hj e he
    have hk : (call j).key ≠ (call i).key := fun hk => hone j t' hk (hexpired j t' hj)
    exact h.expired j t' (hexpired j t' hj) e (by simpa [Function.update_of_ne hk] using he)
  · exact fun j l t₁ t₂ hk hj hl => h.one j l t₁ t₂ hk (hexpired j t₁ hj) (hexpired l t₂ hl)
  · intro j t' hj
    rcases of_update hj with ⟨rfl, heq⟩ | ⟨-, hj⟩
    · cases heq
      exact Or.inl ⟨t + (call j).ttl, by simp, Int.le_refl _⟩
    · rcases h.remembered j t' hj with ⟨e, he, hle⟩ | ⟨hle, hlater⟩
      · have hk : (call j).key ≠ (call i).key := by
          intro hk
          rw [hk, habsent] at he
          cases he
        exact Or.inl ⟨e, by simpa [Function.update_of_ne hk] using he, hle⟩
      · exact Or.inr ⟨hle, fun l t₁ hk hl => hlater l t₁ hk (hread l t₁ hl)⟩
  · intro j l t₁ t₂ hne hk hj hl
    refine h.apart_of_new hi hlive hone ?_ hne hk hj hl
    rintro j t' (hj | hj)
    · obtain ⟨hji, hj⟩ := of_update_ne hj (by simp)
      exact Or.inr ⟨hji, Or.inl hj⟩
    · rcases of_update hj with ⟨rfl, heq⟩ | ⟨hji, hj⟩
      · cases heq
        exact Or.inl ⟨rfl, rfl⟩
      · exact Or.inr ⟨hji, Or.inr hj⟩

omit [DecidableEq κ] [DecidableEq K] in
/-- Looking a key up whose entry has expired. -/
theorem State.Good.outlived (h : s.Good call) {i : ι} {t e : ℤ} (hi : s.calls i = .read t)
    (he : s.cache (call i).key = some e) (hle : e ≤ t) (hpos : 0 ≤ (call i).ttl)
    (hone : ∀ j t', (call j).key = (call i).key → s.calls j ≠ .expired t') :
    State.Good call { s with calls := Function.update s.calls i (.expired t) } := by
  have hlive : ¬ s.cache.Live (call i).key t := by
    rintro ⟨e', he', hlt⟩
    cases he.symm.trans he'
    omega
  have hdone : ∀ j t', Function.update s.calls i (.expired t) j = .done t' false →
      s.calls j = .done t' false := by
    intro j t' hj
    exact (of_update_ne hj (by simp)).2
  have hread : ∀ j t', Function.update s.calls i (.expired t) j = .read t' →
      s.calls j = .read t' := by
    intro j t' hj
    exact (of_update_ne hj (by simp)).2
  constructor
  · exact fun j t' hj => h.callClock j t' (hread j t' hj)
  · exact h.sweepClock
  · rintro j t' (hj | hj)
    · rcases of_update hj with ⟨rfl, -⟩ | ⟨-, hj⟩
      · exact hpos
      · exact h.lifetime j t' (Or.inl hj)
    · exact h.lifetime j t' (Or.inr (hdone j t' hj))
  · intro j t' hj e' he'
    rcases of_update hj with ⟨rfl, heq⟩ | ⟨-, hj⟩
    · cases heq
      cases he.symm.trans he'
      exact hle
    · exact h.expired j t' hj e' he'
  · intro j l t₁ t₂ hk hj hl
    rcases of_update hj with ⟨rfl, -⟩ | ⟨-, hj'⟩
    · rcases of_update hl with ⟨rfl, -⟩ | ⟨-, hl⟩
      · rfl
      · exact absurd hl (hone l t₂ hk.symm)
    · rcases of_update hl with ⟨rfl, -⟩ | ⟨-, hl⟩
      · exact absurd hj' (hone j t₁ hk)
      · exact h.one j l t₁ t₂ hk hj' hl
  · intro j t' hj
    exact (h.remembered j t' (hdone j t' hj)).mono rfl (Int.le_refl _)
      fun l t₁ hl => Or.inl (hread l t₁ hl)
  · intro j l t₁ t₂ hne hk hj hl
    refine h.apart_of_new hi hlive hone ?_ hne hk hj hl
    rintro j t' (hj | hj)
    · rcases of_update hj with ⟨rfl, heq⟩ | ⟨hji, hj⟩
      · cases heq
        exact Or.inl ⟨rfl, rfl⟩
      · exact Or.inr ⟨hji, Or.inl hj⟩
    · obtain ⟨hji, hj⟩ := of_update_ne hj (by simp)
      exact Or.inr ⟨hji, Or.inr hj⟩

/-- Looking a key up. -/
theorem State.Good.loadOrStore (h : s.Good call) {i : ι}
    (horderly : Orderly call s (.loadOrStore i : Label ι κ K))
    (hstep : step call s (.loadOrStore i) = some s') : s'.Good call := by
  rw [step] at hstep
  split at hstep
  · rename_i t hi
    have hunused := horderly t hi
    split at hstep
    · rename_i habsent
      cases hstep
      have hlive : ¬ s.cache.Live (call i).key t := by
        rintro ⟨e, he, -⟩
        cases habsent.symm.trans he
      obtain ⟨hpos, hone⟩ := hunused hlive
      exact h.absent hi habsent hpos hone
    · rename_i e he
      split at hstep
      · cases hstep
        refine h.mono rfl (Int.le_refl _) ?_ h.sweepClock ?_ ?_
        · intro j t' hj
          exact Or.inl (of_update_ne hj (by simp)).2
        · intro j t' hj
          exact (of_update_ne hj (by simp)).2
        · intro j t' hj
          exact (of_update_ne hj (by simp)).2
      · rename_i hlt
        cases hstep
        have hlive : ¬ s.cache.Live (call i).key t := by
          rintro ⟨e', he', hlt'⟩
          cases he.symm.trans he'
          exact hlt hlt'
        obtain ⟨hpos, hone⟩ := hunused hlive
        exact h.outlived hi he (Int.not_lt.mp hlt) hpos hone
  · cases hstep

/-- Refreshing an entry that has expired. -/
theorem State.Good.store (h : s.Good call) {i : ι}
    (hstep : step call s (.store i) = some s') : s'.Good call := by
  rw [step] at hstep
  split at hstep
  · rename_i t hi
    cases hstep
    have hpos := h.lifetime i t (Or.inl hi)
    have hexpired : ∀ j t', Function.update s.calls i (.done t false) j = .expired t' →
        j ≠ i ∧ s.calls j = .expired t' := by
      intro j t' hj
      exact of_update_ne hj (by simp)
    have hread : ∀ j t', Function.update s.calls i (.done t false) j = .read t' →
        s.calls j = .read t' := by
      intro j t' hj
      exact (of_update_ne hj (by simp)).2
    have hpassed : ∀ j t', Function.update s.calls i (.done t false) j = .expired t' ∨
        Function.update s.calls i (.done t false) j = .done t' false → s.Passed j t' := by
      rintro j t' (hj | hj)
      · exact Or.inl (hexpired j t' hj).2
      · rcases of_update hj with ⟨rfl, heq⟩ | ⟨-, hj⟩
        · cases heq
          exact Or.inl hi
        · exact Or.inr hj
    constructor
    · exact fun j t' hj => h.callClock j t' (hread j t' hj)
    · exact h.sweepClock
    · exact fun j t' hj => h.lifetime j t' (hpassed j t' hj)
    · intro j t' hj e he
      obtain ⟨hji, hj⟩ := hexpired j t' hj
      -- two calls of one key cannot both be about to store
      have hk : (call j).key ≠ (call i).key := fun hk => hji (h.one j i t' t hk hj hi)
      exact h.expired j t' hj e (by simpa [Function.update_of_ne hk] using he)
    · exact fun j l t₁ t₂ hk hj hl => h.one j l t₁ t₂ hk (hexpired j t₁ hj).2 (hexpired l t₂ hl).2
    · intro j t' hj
      rcases of_update hj with ⟨rfl, heq⟩ | ⟨-, hj⟩
      · cases heq
        exact Or.inl ⟨t + (call j).ttl, by simp, Int.le_refl _⟩
      · rcases h.remembered j t' hj with ⟨e, he, hle⟩ | ⟨hle, hlater⟩
        · by_cases hk : (call j).key = (call i).key
          · -- the entry had expired for the call that refreshes it
            rw [hk] at he
            have he' := h.expired i t hi e he
            exact Or.inl ⟨t + (call i).ttl, by simp [hk], by omega⟩
          · exact Or.inl ⟨e, by simpa [Function.update_of_ne hk] using he, hle⟩
        · exact Or.inr ⟨hle, fun l t₁ hk hl => hlater l t₁ hk (hread l t₁ hl)⟩
    · exact fun j l t₁ t₂ hne hk hj hl =>
        h.apart j l t₁ t₂ hne hk (hpassed j t₁ hj) (hpassed l t₂ hl)
  · cases hstep

/-- Deleting an entry. -/
theorem State.Good.delete (h : s.Good call) {n : κ}
    (horderly : Orderly call s (.delete n : Label ι κ K))
    (hstep : step call s (.delete n) = some s') : s'.Good call := by
  rw [step] at hstep
  split at hstep
  · rename_i t k hn
    cases hstep
    have hdeleted := fun e he => horderly t k e hn he
    constructor
    · exact h.callClock
    · intro n' t' hn'
      by_cases hne : n' = n
      · subst hne
        have ht : t = t' := by simpa using hn'
        exact ht ▸ h.sweepClock n' t (Or.inr ⟨k, hn⟩)
      · exact h.sweepClock n' t' (by simpa [Function.update_of_ne hne] using hn')
    · exact h.lifetime
    · intro j t' hj e he
      by_cases hk : (call j).key = k
      · simp [hk] at he
      · exact h.expired j t' hj e (by simpa [Function.update_of_ne hk] using he)
    · exact h.one
    · intro j t' hj
      rcases h.remembered j t' hj with ⟨e, he, hle⟩ | hlater
      · by_cases hk : (call j).key = k
        · rw [hk] at he
          obtain ⟨hlt, hread⟩ := hdeleted e he
          have hclock := h.sweepClock n t (Or.inr ⟨k, hn⟩)
          refine Or.inr ⟨by show _ ≤ s.clock; omega, fun l t₁ hl hl' => ?_⟩
          have := hread l t₁ (hl.trans hk) hl'
          omega
        · exact Or.inl ⟨e, by simpa [Function.update_of_ne hk] using he, hle⟩
      · exact Or.inr hlater
    · exact h.apart
  · cases hstep

/-- Starting a sweep. -/
theorem State.Good.sweep (h : s.Good call) {n : κ} {t : ℤ}
    (hstep : step call s (.sweep n t) = some s') : s'.Good call := by
  rw [step] at hstep
  split at hstep
  · cases hstep
  · split at hstep
    · rename_i hle
      cases hstep
      refine h.mono rfl hle (fun _ _ hj => Or.inl hj) ?_ (fun _ _ hj => hj) fun _ _ hj => hj
      intro n' t' hn'
      by_cases hne : n' = n
      · subst hne
        have ht : t = t' := by simpa using hn'
        exact ht ▸ Int.le_refl _
      · exact Int.le_trans (h.sweepClock n' t' (by simpa [Function.update_of_ne hne] using hn')) hle
    · cases hstep

/-- Visiting an entry. -/
theorem State.Good.visit (h : s.Good call) {n : κ} {k : K}
    (hstep : step call s (.visit n k) = some s') : s'.Good call := by
  rw [step] at hstep
  split at hstep
  · rename_i now hn
    split at hstep
    · cases hstep
      exact h
    · split at hstep
      · cases hstep
        refine h.mono rfl (Int.le_refl _) (fun _ _ hj => Or.inl hj) ?_ (fun _ _ hj => hj)
          fun _ _ hj => hj
        intro n' t' hn'
        by_cases hne : n' = n
        · subst hne
          have ht : now = t' := by simpa using hn'
          exact ht ▸ h.sweepClock n' now (Or.inl hn)
        · exact h.sweepClock n' t' (by simpa [Function.update_of_ne hne] using hn')
      · cases hstep
        exact h
  · cases hstep

theorem State.Good.step {l : Label ι κ K} (h : s.Good call) (horderly : Orderly call s l)
    (hstep : ReplayCache.step call s l = some s') : s'.Good call := by
  cases l with
  | now i t => exact h.now hstep
  | loadOrStore i => exact h.loadOrStore horderly hstep
  | store i => exact h.store hstep
  | sweep n t => exact h.sweep hstep
  | visit n k => exact h.visit hstep
  | delete n => exact h.delete horderly hstep

/-- In every run of orderly steps two calls that find one key unused lie a lifetime apart. -/
theorem apart_of_orderly {ok : State ι κ K → Label ι κ K → Prop}
    (hok : ∀ s l, ok s l → Orderly call s l) (h : (system call).ReachableIf ok s) {i j : ι}
    {t t' : ℤ} (hne : i ≠ j) (hk : (call i).key = (call j).key)
    (hi : s.calls i = .done t false) (hj : s.calls j = .done t' false) :
    Apart (call i).ttl (call j).ttl t t' := by
  have hgood : s.Good call := by
    refine LTS.ReachableIf.invariant (P := fun s => s.Good call) ?_ ?_ h
    · rintro s ⟨-, hcalls, hsweeps⟩
      exact .init hcalls hsweeps
    · intro s l s' hs horderly hstep
      exact hs.step (hok s l horderly) hstep
  exact hgood.apart i j t t' hne hk (Or.inr hi) (Or.inr hj)

/-! ## Calls that overlap -/

/-- The reading of the clock of a call, from then on. -/
def State.Reading (s : State ι κ K) (i : ι) (t : ℤ) : Prop :=
  s.calls i = .read t ∨ s.calls i = .expired t ∨ ∃ used, s.calls i = .done t used

/-- What a step does to a call: nothing, or it reads the clock, or it goes on with its reading. -/
theorem calls_of_step {l : Label ι κ K} (hstep : ReplayCache.step call s l = some s') (i : ι) :
    s'.calls i = s.calls i ∨
    (s.calls i = .start ∧ ∃ t, l = .now i t ∧ s.clock ≤ t ∧ s'.calls i = .read t) ∨
    ∃ t, s.InFlight i t ∧ (s'.calls i = .expired t ∨ ∃ used, s'.calls i = .done t used) := by
  have hother : ∀ {j p}, i ≠ j → Function.update s.calls j p i = s.calls i :=
    fun hij => Function.update_of_ne hij _ _
  cases l with
  | now j t =>
    rw [step] at hstep
    split at hstep
    · rename_i hstart
      split at hstep
      · rename_i hle
        cases hstep
        by_cases hij : i = j
        · subst hij
          exact Or.inr (Or.inl ⟨hstart, t, rfl, hle, Function.update_self _ _ _⟩)
        · exact Or.inl (hother hij)
      · cases hstep
    · cases hstep
  | loadOrStore j =>
    rw [step] at hstep
    split at hstep
    · rename_i t hread
      by_cases hij : i = j
      · subst hij
        refine Or.inr (Or.inr ⟨t, Or.inl hread, ?_⟩)
        split at hstep
        · cases hstep
          exact Or.inr ⟨false, Function.update_self _ _ _⟩
        · split at hstep
          · cases hstep
            exact Or.inr ⟨true, Function.update_self _ _ _⟩
          · cases hstep
            exact Or.inl (Function.update_self _ _ _)
      · left
        split at hstep
        · cases hstep
          exact hother hij
        · split at hstep
          · cases hstep
            exact hother hij
          · cases hstep
            exact hother hij
    · cases hstep
  | store j =>
    rw [step] at hstep
    split at hstep
    · rename_i t hexpired
      cases hstep
      by_cases hij : i = j
      · subst hij
        exact Or.inr (Or.inr ⟨t, Or.inr hexpired, Or.inr ⟨false, Function.update_self _ _ _⟩⟩)
      · exact Or.inl (hother hij)
    · cases hstep
  | sweep n t =>
    rw [step] at hstep
    split at hstep
    · cases hstep
    · split at hstep
      · cases hstep
        exact Or.inl rfl
      · cases hstep
  | visit n k =>
    rw [step] at hstep
    split at hstep
    · split at hstep
      · cases hstep
        exact Or.inl rfl
      · split at hstep
        · cases hstep
          exact Or.inl rfl
        · cases hstep
          exact Or.inl rfl
    · cases hstep
  | delete n =>
    rw [step] at hstep
    split at hstep
    · cases hstep
      exact Or.inl rfl
    · cases hstep

/-- A call keeps its reading of the clock. -/
theorem State.Reading.step {l : Label ι κ K} {i : ι} {t : ℤ} (h : s.Reading i t)
    (hstep : ReplayCache.step call s l = some s') : s'.Reading i t := by
  rcases calls_of_step hstep i with hsame | ⟨hstart, -⟩ | ⟨t', hflight, hnext⟩
  · unfold State.Reading
    rw [hsame]
    exact h
  · rcases h with h | h | ⟨used, h⟩
    · cases hstart.symm.trans h
    · cases hstart.symm.trans h
    · cases hstart.symm.trans h
  · obtain rfl : t' = t := by
      rcases hflight with hf | hf
      · rcases h with h | h | ⟨used, h⟩
        · exact Point.read.inj (hf.symm.trans h)
        · cases hf.symm.trans h
        · cases hf.symm.trans h
      · rcases h with h | h | ⟨used, h⟩
        · cases hf.symm.trans h
        · exact Point.expired.inj (hf.symm.trans h)
        · cases hf.symm.trans h
    exact Or.inr hnext

/-- Calls in flight have read the clock, and less than a lifetime apart. -/
structure State.Tight (call : ι → Call K) (s : State ι κ K) : Prop where
  clock : ∀ i t, s.InFlight i t → t ≤ s.clock
  close : ∀ i j t t', i ≠ j → (call i).key = (call j).key → s.InFlight i t → s.InFlight j t' →
    t < t' + (call j).ttl

/-- A call in flight was in flight before, or has just read the clock. -/
theorem inFlight_of_step {l : Label ι κ K} (hstep : ReplayCache.step call s l = some s') {i : ι}
    {t : ℤ} (h : s'.InFlight i t) :
    s.InFlight i t ∨ (l = .now i t ∧ s.clock ≤ t ∧ s'.clock = t) := by
  rcases calls_of_step hstep i with hsame | ⟨hstart, t', rfl, hle, hread⟩ | ⟨t', hflight, hnext⟩
  · left
    unfold State.InFlight at h ⊢
    rwa [hsame] at h
  · obtain rfl : t' = t := by
      rcases h with h | h
      · exact Point.read.inj (hread.symm.trans h)
      · cases hread.symm.trans h
    rw [step, hstart] at hstep
    simp only [if_pos hle] at hstep
    cases hstep
    exact Or.inr ⟨rfl, hle, rfl⟩
  · left
    rcases hnext with hnext | ⟨used, hnext⟩
    · rcases h with h | h
      · cases hnext.symm.trans h
      · exact Point.expired.inj (hnext.symm.trans h) ▸ hflight
    · rcases h with h | h
      · cases hnext.symm.trans h
      · cases hnext.symm.trans h

/-- The clock does not go back. -/
theorem clock_of_step {l : Label ι κ K} (hstep : ReplayCache.step call s l = some s') :
    s.clock ≤ s'.clock := by
  cases l with
  | now j t =>
    rw [step] at hstep
    split at hstep
    · split at hstep
      · rename_i hle
        cases hstep
        exact hle
      · cases hstep
    · cases hstep
  | loadOrStore j =>
    rw [step] at hstep
    split at hstep
    · split at hstep
      · cases hstep
        exact Int.le_refl _
      · split at hstep
        · cases hstep
          exact Int.le_refl _
        · cases hstep
          exact Int.le_refl _
    · cases hstep
  | store j =>
    rw [step] at hstep
    split at hstep
    · cases hstep
      exact Int.le_refl _
    · cases hstep
  | sweep n t =>
    rw [step] at hstep
    split at hstep
    · cases hstep
    · split at hstep
      · rename_i hle
        cases hstep
        exact hle
      · cases hstep
  | visit n k =>
    rw [step] at hstep
    split at hstep
    · split at hstep
      · cases hstep
        exact Int.le_refl _
      · split at hstep
        · cases hstep
          exact Int.le_refl _
        · cases hstep
          exact Int.le_refl _
    · cases hstep
  | delete n =>
    rw [step] at hstep
    split at hstep
    · cases hstep
      exact Int.le_refl _
    · cases hstep

theorem State.Tight.step {l : Label ι κ K} (h : s.Tight call) (hbrisk : Brisk call s l)
    (hstep : ReplayCache.step call s l = some s') : s'.Tight call := by
  constructor
  · intro i t hi
    rcases inFlight_of_step hstep hi with hi | ⟨-, -, hclock⟩
    · exact Int.le_trans (h.clock i t hi) (clock_of_step hstep)
    · omega
  · intro i j t t' hne hk hi hj
    rcases inFlight_of_step hstep hi with hi | ⟨rfl, hle, -⟩
    · rcases inFlight_of_step hstep hj with hj | ⟨rfl, hle, -⟩
      · exact h.close i j t t' hne hk hi hj
      · have hpos := (hbrisk i t hne hk hi).2
        have hclock := h.clock i t hi
        omega
    · rcases inFlight_of_step hstep hj with hj | ⟨heq, -, -⟩
      · exact (hbrisk j t' hne.symm hk.symm hj).1
      · cases heq
        exact absurd rfl hne

/-- Two calls of one key that overlap, in a run of orderly and brisk steps, never both find it
unused. -/
theorem not_both_of_overlap {ok : State ι κ K → Label ι κ K → Prop}
    (hok : ∀ s l, ok s l → Orderly call s l ∧ Brisk call s l) (h : (system call).ReachableIf ok s)
    {i j : ι} {t t' : ℤ} (hne : i ≠ j) (hk : (call i).key = (call j).key) (hi : s.InFlight i t)
    (hj : s.InFlight j t') (h' : ((system call).startingAt s).ReachableIf ok s') {u u' : ℤ}
    (hi' : s'.calls i = .done u false) (hj' : s'.calls j = .done u' false) : False := by
  have htight : s.Tight call := by
    refine LTS.ReachableIf.invariant (P := fun s => s.Tight call) ?_ ?_ h
    · rintro s ⟨-, hcalls, -⟩
      have hnone : ∀ i t, ¬ s.InFlight i t := by
        rintro i t (hi | hi)
        · cases (hcalls i).symm.trans hi
        · cases (hcalls i).symm.trans hi
      exact ⟨fun i t hi => absurd hi (hnone i t), fun i _ t _ _ _ hi _ => absurd hi (hnone i t)⟩
    · intro s l s' hs hl hstep
      exact hs.step (hok s l hl).2 hstep
  -- the readings of both calls are the ones they overlap with
  have hreading : ∀ k w, s.InFlight k w → s'.Reading k w := by
    intro k w hk
    refine LTS.ReachableIf.invariant (P := fun s => s.Reading k w) ?_ ?_ h'
    · rintro _ rfl
      exact hk.elim Or.inl fun hk => Or.inr (Or.inl hk)
    · intro s l s' hs _ hstep
      exact hs.step hstep
  have hdone : ∀ k w w', s.InFlight k w → s'.calls k = .done w' false → w' = w := by
    intro k w w' hk hk'
    rcases hreading k w hk with hr | hr | ⟨used, hr⟩
    · cases hk'.symm.trans hr
    · cases hk'.symm.trans hr
    · exact (Point.done.inj (hk'.symm.trans hr)).1
  have hapart := apart_of_orderly (fun s l hl => (hok s l hl).1) (h.trans h') hne hk hi' hj'
  rw [hdone i t u hi hi', hdone j t' u' hj hj'] at hapart
  have hij := htight.close i j t t' hne hk hi hj
  have hji := htight.close j i t' t hne.symm hk.symm hj hi
  rcases hapart with ⟨-, hle⟩ | ⟨-, hle⟩
  · omega
  · omega

end Steps

end ReplayCache
end Lib
