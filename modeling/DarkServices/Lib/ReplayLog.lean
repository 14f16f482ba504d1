import DarkServices.Lib.Expiry
import DarkServices.Lib.Transition

/-!
# A replay cache against the log of its calls

A cache answers checks of keys, and sweeps forget entries. Its specification has no sweeps and
forgets nothing: a key is in use as long as the latest check that found it unused says, and the
log of all checks holds that check.

* `Tracks` relates what a cache holds to the log; every operation keeps it;
* `Cache.run_eq_logRun`: the answers of a cache are those of the log;
* `Cache.refines_log`: so every answer is the one the log explains, and sweeps change none.

An implementation takes part by a view of its state as the keys with their expiry times
(`Cache.Views`).
-/

namespace Lib
namespace ReplayLog

variable {K V σ : Type*}

/-- A check of a key, or a sweep that visits some entries with one reading of the clock. -/
inductive Op (K V : Type*)
  | check (key : K) (ttl now : ℤ)
  | sweep (now : ℤ) (visits : List V)

/-- The reading of the clock. -/
def Op.now : Op K V → ℤ
  | .check _ _ now => now
  | .sweep now _ => now

/-- What a check asks. -/
structure Request (K : Type*) where
  key : K
  ttl : ℤ
  now : ℤ
deriving DecidableEq

/-- A check with its answer. -/
structure Entry (K : Type*) extends Request K where
  used : Bool
deriving DecidableEq

/-- The checks among the operations. -/
def requests : List (Op K V) → List (Request K)
  | [] => []
  | .check key ttl now :: ops => ⟨key, ttl, now⟩ :: requests ops
  | .sweep _ _ :: ops => requests ops

/-- The operations of an implementation. -/
structure Cache (σ K V : Type*) where
  check : σ → K → ℤ → ℤ → Bool × σ
  visit : σ → ℤ → V → σ

/-- The answers of an implementation to a sequence of operations. -/
def Cache.run (c : Cache σ K V) : σ → List (Op K V) → List (Entry K)
  | _, [] => []
  | s, .check key ttl now :: ops =>
    ⟨⟨key, ttl, now⟩, (c.check s key ttl now).1⟩ :: c.run (c.check s key ttl now).2 ops
  | s, .sweep now visits :: ops => c.run (visits.foldl (fun s v => c.visit s now v) s) ops

section

variable [DecidableEq K]

/-- The latest check of the key that found it unused. -/
def latestUnused (log : List (Entry K)) (key : K) : Option (Entry K) :=
  log.reverse.find? fun e => e.key == key && !e.used

/-- The answer that the log explains. -/
def Specified (before : List (Entry K)) (e : Entry K) : Prop :=
  e.used = true ↔ ∃ e', latestUnused before e.key = some e' ∧ e.now < e'.now + e'.ttl

/-- The answer of the log to a check. -/
def answer (log : List (Entry K)) (r : Request K) : Bool :=
  (latestUnused log r.key).any fun e => r.now < e.now + e.ttl

/-- The answers of the log to checks that come after it. -/
def logRun : List (Entry K) → List (Request K) → List (Entry K)
  | _, [] => []
  | log, r :: rs => ⟨r, answer log r⟩ :: logRun (log ++ [⟨r, answer log r⟩]) rs

/-! ## The log -/

variable {log : List (Entry K)} {key : K} {e : Entry K}

theorem latestUnused_concat : latestUnused (log ++ [e]) key =
    if e.key = key ∧ e.used = false then some e else latestUnused log key := by
  unfold latestUnused
  rw [List.reverse_append, List.reverse_singleton, List.singleton_append, List.find?_cons]
  by_cases hkey : e.key = key
  · cases hused : e.used <;> simp [hkey]
  · have hother : (e.key == key) = false := beq_eq_false_iff_ne.mpr hkey
    simp [hother, hkey]

theorem answer_eq_true_iff {r : Request K} : answer log r = true ↔
    ∃ e, latestUnused log r.key = some e ∧ r.now < e.now + e.ttl := by
  unfold answer
  cases latestUnused log r.key <;> simp

/-- The log explains its own answers. -/
theorem logRun_explained (rs : List (Request K)) (hlog : Explained Specified log) :
    Explained Specified (log ++ logRun log rs) := by
  induction rs generalizing log with
  | nil =>
    rw [logRun, List.append_nil]
    exact hlog
  | cons r rs ih =>
    have hnext : Explained Specified (log ++ [⟨r, answer log r⟩]) := hlog.concat answer_eq_true_iff
    have hrest := ih hnext
    rw [List.append_assoc, List.singleton_append] at hrest
    exact hrest

theorem logRun_toRequest (rs : List (Request K)) :
    (logRun log rs).map Entry.toRequest = rs := by
  induction rs generalizing log with
  | nil => rfl
  | cons r rs ih => rw [logRun, List.map_cons, ih]

/-! ## The cache and the log -/

variable {m : Expiry K} {clock now : ℤ}

/-- The cache holds for a key what the latest check that found it unused has saved, unless that
has expired and is forgotten. -/
def Tracks (m : Expiry K) (log : List (Entry K)) (clock : ℤ) : Prop :=
  ∀ key, (latestUnused log key = none → m key = none) ∧
    ∀ e, latestUnused log key = some e →
      m key = some (e.now + e.ttl) ∨ m key = none ∧ e.now + e.ttl < clock

theorem Tracks.nil (clock : ℤ) : Tracks (fun _ => none : Expiry K) [] clock :=
  fun _ => ⟨fun _ => rfl, nofun⟩

theorem Tracks.mono (h : Tracks m log clock) (hclock : clock ≤ now) : Tracks m log now := by
  intro key
  obtain ⟨hnone, hsome⟩ := h key
  refine ⟨hnone, fun e he => ?_⟩
  rcases hsome e he with hheld | ⟨hgone, hexp⟩
  · exact Or.inl hheld
  · exact Or.inr ⟨hgone, by omega⟩

/-- The cache and the log agree on what is in use. -/
theorem Tracks.live_iff (h : Tracks m log now) (key : K) (ttl : ℤ) :
    Expiry.Live m key now ↔ answer log ⟨key, ttl, now⟩ = true := by
  obtain ⟨hnone, hsome⟩ := h key
  rw [answer_eq_true_iff]
  constructor
  · rintro ⟨t, ht, hlt⟩
    cases hlatest : latestUnused log key with
    | none => cases (hnone hlatest).symm.trans ht
    | some e =>
      refine ⟨e, rfl, ?_⟩
      rcases hsome e hlatest with hheld | ⟨hgone, -⟩
      · cases hheld.symm.trans ht
        exact hlt
      · cases hgone.symm.trans ht
  · rintro ⟨e, hlatest, hlt⟩
    have hnow : now < e.now + e.ttl := hlt
    rcases hsome e hlatest with hheld | ⟨-, hexp⟩
    · exact ⟨_, hheld, hnow⟩
    · omega

/-- A sweep forgets only what has expired. -/
theorem Tracks.visit (h : Tracks m log now) (key' : K) : Tracks (m.visit now key') log now := by
  intro key
  obtain ⟨hnone, hsome⟩ := h key
  rcases m.visit_cases now key' key with hkeep | ⟨t, ht, hexp, hgone⟩
  · rw [hkeep]
    exact ⟨hnone, hsome⟩
  · rw [hgone]
    refine ⟨fun _ => rfl, fun e he => Or.inr ⟨rfl, ?_⟩⟩
    rcases hsome e he with hheld | ⟨hnothing, -⟩
    · cases hheld.symm.trans ht
      exact hexp
    · cases hnothing.symm.trans ht

/-- A check saves the key exactly when it finds it unused. -/
theorem Tracks.check (h : Tracks m log now) (key' : K) (ttl : ℤ) :
    Tracks (m.isUsedAndSave key' ttl now).2
      (log ++ [⟨⟨key', ttl, now⟩, (m.isUsedAndSave key' ttl now).1⟩]) now := by
  intro key
  rw [latestUnused_concat]
  rcases m.isUsedAndSave_cases key' ttl now with ⟨-, hu⟩ | ⟨-, hu⟩
  · rw [hu]
    simpa using h key
  · rw [hu]
    by_cases hkey : key' = key
    · subst hkey
      simp
    · have hne : key ≠ key' := Ne.symm hkey
      simpa [hkey, hne] using h key

end

/-! ## Implementations -/

/-- The state shows the keys with their expiry times, and the operations are those of the cache
on them. A visit may also be of something else. -/
structure Cache.Views [DecidableEq K] (c : Cache σ K V) (view : σ → Expiry K) : Prop where
  check : ∀ s key ttl now, (c.check s key ttl now).1 = ((view s).isUsedAndSave key ttl now).1 ∧
    view (c.check s key ttl now).2 = ((view s).isUsedAndSave key ttl now).2
  visit : ∀ s now v, view (c.visit s now v) = view s ∨
    ∃ key, view (c.visit s now v) = (view s).visit now key

section

variable [DecidableEq K] {c : Cache σ K V} {view : σ → Expiry K}

theorem Cache.Views.tracks_sweep (h : c.Views view) {s : σ} {log : List (Entry K)} {now : ℤ}
    (ht : Tracks (view s) log now) (visits : List V) :
    Tracks (view (visits.foldl (fun s v => c.visit s now v) s)) log now := by
  induction visits generalizing s with
  | nil => exact ht
  | cons v visits ih =>
    apply ih
    rcases h.visit s now v with heq | ⟨key, heq⟩
    · rw [heq]
      exact ht
    · rw [heq]
      exact ht.visit key

/-- The answers of the implementation are those of the log. The induction is on the operations;
the state, the log and the clock vary, and `Tracks` holds between them. -/
theorem Cache.Views.run_eq_logRun (h : c.Views view) {ops : List (Op K V)} {s : σ}
    {log : List (Entry K)} {clock : ℤ} (ht : Tracks (view s) log clock)
    (hclock : ∀ op ∈ ops, clock ≤ op.now) (htimes : ops.Pairwise fun a b => a.now ≤ b.now) :
    c.run s ops = logRun log (requests ops) := by
  induction ops generalizing s log clock with
  | nil => rfl
  | cons op ops ih =>
    obtain ⟨hlater, hrest⟩ := List.pairwise_cons.mp htimes
    have hnow := ht.mono (hclock op List.mem_cons_self)
    cases op with
    | check key ttl now =>
      obtain ⟨hanswer, hstate⟩ := h.check s key ttl now
      have hused : (c.check s key ttl now).1 = answer log ⟨key, ttl, now⟩ := by
        rw [hanswer, Bool.eq_iff_iff, Expiry.isUsedAndSave_eq_true_iff]
        exact hnow.live_iff key ttl
      have hnext : Tracks (view (c.check s key ttl now).2)
          (log ++ [⟨⟨key, ttl, now⟩, answer log ⟨key, ttl, now⟩⟩]) now := by
        rw [← hused, hanswer, hstate]
        exact hnow.check key ttl
      rw [Cache.run, requests, logRun, hused, ih hnext hlater hrest]
    | sweep now visits =>
      rw [Cache.run, requests]
      exact ih (h.tracks_sweep hnow visits) hlater hrest

/-- **Refinement.** An implementation that starts empty answers every check as the log of the
checks before explains, and no sweep changes an answer. -/
theorem Cache.Views.refines_log (h : c.Views view) {s : σ} (hempty : view s = fun _ => none)
    {ops : List (Op K V)} (htimes : ops.Pairwise fun a b => a.now ≤ b.now) :
    (c.run s ops).map Entry.toRequest = requests ops ∧ Explained Specified (c.run s ops) ∧
      ∀ ops', ops'.Pairwise (fun a b => a.now ≤ b.now) → requests ops' = requests ops →
        c.run s ops' = c.run s ops := by
  have hrun : ∀ ops : List (Op K V), ops.Pairwise (fun a b => a.now ≤ b.now) →
      c.run s ops = logRun [] (requests ops) := by
    intro ops htimes
    cases ops with
    | nil => rfl
    | cons op ops =>
      have hclock : ∀ op' ∈ op :: ops, op.now ≤ op'.now := by
        intro op' hop'
        rcases List.mem_cons.mp hop' with rfl | hop'
        · exact Int.le_refl _
        · exact (List.pairwise_cons.mp htimes).1 op' hop'
      have hstart : Tracks (view s) [] op.now := hempty ▸ Tracks.nil op.now
      exact h.run_eq_logRun hstart hclock htimes
  rw [hrun ops htimes]
  refine ⟨logRun_toRequest _, ?_, fun ops' htimes' hreq => ?_⟩
  · exact logRun_explained (requests ops) Explained.nil
  · rw [hrun ops' htimes', hreq]

end

end ReplayLog
end Lib
