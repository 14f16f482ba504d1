import Mathlib.Logic.Function.Basic
import Mathlib.Data.Int.Notation

/-!
# Clock readings, and a cache whose entries expire

A reading of the clock is a number of nanoseconds since 1970.

`isUsedAndSave` is the check of a replay cache: it answers whether a key is in use and, when
it is not, saves it for `ttl`. `visit` is what a sweep does at one key, with a clock reading
that may be old by then.

`Remembers m ttl now k t` says that the cache does not forget too early: until `ttl` after
`t` it holds an entry of `k` that lives at least that long. Saving the key at `t` starts it,
checks and visits keep it, and while it lasts the key is in use.
-/

namespace Lib

/-- A span of whole seconds, or the time that many seconds after 1970. -/
def seconds (n : ℤ) : ℤ := n * 1000000000

/-- The whole seconds of a reading. -/
def unix (t : ℤ) : ℤ := t / 1000000000

/-- The keys of a cache with the times at which they expire. -/
abbrev Expiry (K : Type*) := K → Option ℤ

namespace Expiry

variable {K : Type*} {m : Expiry K} {k k' : K} {ttl now now' t : ℤ}

/-- The key has an entry that has not expired. -/
def Live (m : Expiry K) (k : K) (now : ℤ) : Prop := ∃ e, m k = some e ∧ now < e

/-- Until `ttl` after `t` the cache holds an entry of `k` that lives at least that long. -/
def Remembers (m : Expiry K) (ttl now : ℤ) (k : K) (t : ℤ) : Prop :=
  now < t + ttl → ∃ e, m k = some e ∧ t + ttl ≤ e

theorem Remembers.mono (h : Remembers m ttl now k t) (hnow : now ≤ now') :
    Remembers m ttl now' k t := fun hlt => h (by omega)

/-- A remembered key is in use. -/
theorem Remembers.live (h : Remembers m ttl now k t) (hnow : now < t + ttl) : Live m k now := by
  obtain ⟨e, he, hle⟩ := h hnow
  exact ⟨e, he, by omega⟩

variable [DecidableEq K]

/-- Is the key in use? A key that is not, or not any more, is saved for `ttl`. -/
def isUsedAndSave (m : Expiry K) (k : K) (ttl now : ℤ) : Bool × Expiry K :=
  match m k with
  | none => (false, Function.update m k (some (now + ttl)))
  | some expireTime =>
    if now < expireTime then (true, m)
    else (false, Function.update m k (some (now + ttl)))

/-- A sweep that read the clock at `now` comes to the key `k`. -/
def visit (m : Expiry K) (now : ℤ) (k : K) : Expiry K :=
  match m k with
  | none => m
  | some expireTime => if expireTime < now then Function.update m k none else m

/-- What a check does: nothing to a key in use, otherwise it saves the key. -/
theorem isUsedAndSave_cases (m : Expiry K) (k : K) (ttl now : ℤ) :
    (Live m k now ∧ isUsedAndSave m k ttl now = (true, m)) ∨
      (¬ Live m k now ∧
        isUsedAndSave m k ttl now = (false, Function.update m k (some (now + ttl)))) := by
  unfold isUsedAndSave Live
  cases hm : m k with
  | none => simp
  | some e =>
    by_cases hlt : now < e
    · simp [hlt]
    · simp [hlt]

/-- What a sweep does to an entry: nothing, or it forgets one that has expired. -/
theorem visit_cases (m : Expiry K) (now : ℤ) (k' k : K) :
    visit m now k' k = m k ∨ ∃ e, m k = some e ∧ e < now ∧ visit m now k' k = none := by
  unfold visit
  cases hm : m k' with
  | none => exact Or.inl rfl
  | some e =>
    show (if e < now then Function.update m k' none else m) k = m k ∨
      ∃ e', m k = some e' ∧ e' < now ∧ (if e < now then Function.update m k' none else m) k = none
    by_cases hexp : e < now
    · rw [if_pos hexp]
      by_cases hk : k = k'
      · subst hk
        exact Or.inr ⟨e, hm, hexp, Function.update_self ..⟩
      · exact Or.inl (Function.update_of_ne hk ..)
    · rw [if_neg hexp]
      exact Or.inl rfl

theorem isUsedAndSave_eq_true_iff (ttl : ℤ) : (isUsedAndSave m k ttl now).1 = true ↔ Live m k now := by
  rcases isUsedAndSave_cases m k ttl now with ⟨hlive, h⟩ | ⟨hlive, h⟩
  · simp [h, hlive]
  · simp [h, hlive]

theorem isUsedAndSave_eq_false_iff (ttl : ℤ) : (isUsedAndSave m k ttl now).1 = false ↔ ¬ Live m k now := by
  rw [← isUsedAndSave_eq_true_iff ttl, Bool.not_eq_true]

/-- A check of one key leaves the other keys as they are. -/
theorem live_isUsedAndSave_of_ne (hk : k ≠ k') :
    Live (isUsedAndSave m k' ttl now).2 k now' ↔ Live m k now' := by
  unfold Live
  rcases isUsedAndSave_cases m k' ttl now with ⟨-, hu⟩ | ⟨-, hu⟩
  · rw [hu]
  · rw [hu]
    show (∃ e, Function.update m k' (some (now + ttl)) k = some e ∧ now' < e) ↔ _
    rw [Function.update_of_ne hk]

/-- A check keeps what is remembered: it only ever moves an expiry time forward. -/
theorem Remembers.isUsedAndSave (h : Remembers m ttl now k t) (ht : t ≤ now) (k' : K) :
    Remembers (isUsedAndSave m k' ttl now).2 ttl now k t := by
  rcases isUsedAndSave_cases m k' ttl now with ⟨-, hu⟩ | ⟨-, hu⟩
  · rw [hu]
    exact h
  · rw [hu]
    intro hnow
    by_cases hk : k = k'
    · subst hk
      exact ⟨now + ttl, by simp, by omega⟩
    · show ∃ e, Function.update m k' (some (now + ttl)) k = some e ∧ t + ttl ≤ e
      rw [Function.update_of_ne hk]
      exact h hnow

/-- A sweep keeps what is remembered: its reading of the clock is not later than now. -/
theorem Remembers.visit {s : ℤ} (h : Remembers m ttl now k t) (hs : s ≤ now) (k' : K) :
    Remembers (visit m s k') ttl now k t := by
  intro hnow
  obtain ⟨e, he, hle⟩ := h hnow
  refine ⟨e, ?_, hle⟩
  rcases visit_cases m s k' k with hkeep | ⟨e', he', hexp, -⟩
  · rw [hkeep, he]
  · -- the entry has not expired, as it lives until `t + ttl`
    cases he.symm.trans he'
    omega

/-- A key that was not in use is remembered from now on. -/
theorem remembers_of_not_used (h : (isUsedAndSave m k ttl now).1 = false) :
    Remembers (isUsedAndSave m k ttl now).2 ttl now k now := by
  rcases isUsedAndSave_cases m k ttl now with ⟨-, hu⟩ | ⟨-, hu⟩
  · rw [hu] at h
    cases h
  · rw [hu]
    exact fun _ => ⟨now + ttl, by simp, by omega⟩

end Expiry
end Lib
