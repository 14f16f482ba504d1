import Mathlib.Logic.Function.Basic

/-!
# Labelled transition systems and their runs

A system is a set of initial states and a labelled step relation. Everything the
development states about whole runs is stated over `LTS.ReachableIf`, the states reached
by runs each of whose steps meets a condition on the state it starts in and its label:

* `ReachableIf.invariant` is the one induction over runs; every run result is an instance;
* `ReachableIf.simulated` is its form for two systems, one of which follows the other and
  may stand still;
* `LTS.ofStep` builds a system from an executable step function, and `runIf` executes a
  list of labels on it, so that a concrete run is checked by evaluation
  (`reachableIf_of_runIf`).
-/

namespace Lib

section Update

variable {ι β : Type*} [DecidableEq ι] {f : ι → β} {i j : ι} {a b : β}

/-- After one member of a family has changed: it is that one, or it was there before. -/
theorem of_update (h : Function.update f i a j = b) : (j = i ∧ a = b) ∨ (j ≠ i ∧ f j = b) := by
  by_cases hj : j = i
  · subst hj
    rw [Function.update_self] at h
    exact Or.inl ⟨rfl, h⟩
  · rw [Function.update_of_ne hj] at h
    exact Or.inr ⟨hj, h⟩

/-- What the new value is not was there before. -/
theorem of_update_ne (h : Function.update f i a j = b) (hab : a ≠ b) : j ≠ i ∧ f j = b := by
  rcases of_update h with ⟨-, heq⟩ | h
  · exact absurd heq hab
  · exact h

end Update

section History

variable {α : Type*} {P : List α → α → Prop} {log : List α} {a : α}

/-- Every event of a history is explained by the events before it. -/
def Explained (P : List α → α → Prop) (log : List α) : Prop :=
  ∀ before a after, log = before ++ a :: after → P before a

theorem Explained.nil : Explained P [] := by
  intro before a after h
  cases before <;> cases h

/-- A history grows by an event that it explains. -/
theorem Explained.concat (h : Explained P log) (ha : P log a) : Explained P (log ++ [a]) := by
  intro before b after heq
  rcases List.eq_nil_or_concat after with rfl | ⟨after, c, rfl⟩
  · -- the event is the new one
    obtain ⟨rfl, hb⟩ := List.append_inj' heq rfl
    cases hb
    exact ha
  · rw [List.concat_eq_append, ← List.cons_append, ← List.append_assoc] at heq
    exact h before b after (List.append_inj' heq rfl).1

end History

/-- A labelled transition system. -/
structure LTS (σ : Type*) (ℓ : Type*) where
  init : σ → Prop
  step : σ → ℓ → σ → Prop

namespace LTS

variable {σ ℓ : Type*} {M : LTS σ ℓ} {ok ok' : σ → ℓ → Prop}

/-- The states reached by runs whose every step, taken in state `s` with label `l`, meets
the condition `ok s l`. -/
inductive ReachableIf (M : LTS σ ℓ) (ok : σ → ℓ → Prop) : σ → Prop
  | init {s : σ} : M.init s → ReachableIf M ok s
  | step {s t : σ} {l : ℓ} : ReachableIf M ok s → ok s l → M.step s l t → ReachableIf M ok t

/-- The states reached by arbitrary runs. -/
def Reachable (M : LTS σ ℓ) : σ → Prop := M.ReachableIf fun _ _ => True

/-- The induction rule for runs: what the initial states have and every allowed step
preserves holds of every state reached. -/
theorem ReachableIf.invariant {P : σ → Prop} (hinit : ∀ s, M.init s → P s)
    (hstep : ∀ s l t, P s → ok s l → M.step s l t → P t) {s : σ} (h : M.ReachableIf ok s) :
    P s := by
  induction h with
  | init h => exact hinit _ h
  | step _ hok hst ih => exact hstep _ _ _ ih hok hst

/-- A weaker condition on the steps reaches more states. -/
theorem ReachableIf.mono (hok : ∀ s l, ok s l → ok' s l) {s : σ} (h : M.ReachableIf ok s) :
    M.ReachableIf ok' s := by
  induction h with
  | init h => exact .init h
  | step _ h hst ih => exact .step ih (hok _ _ h) hst

theorem Reachable.invariant {P : σ → Prop} (hinit : ∀ s, M.init s → P s)
    (hstep : ∀ s l t, P s → M.step s l t → P t) {s : σ} (h : M.Reachable s) : P s :=
  ReachableIf.invariant hinit (fun s l t hP _ => hstep s l t hP) h

/-- The runs that start in a given state. -/
def startingAt (M : LTS σ ℓ) (s : σ) : LTS σ ℓ := ⟨(· = s), M.step⟩

/-- A run may go on from where another one has come to. -/
theorem ReachableIf.trans {s t : σ} (hs : M.ReachableIf ok s)
    (ht : (M.startingAt s).ReachableIf ok t) : M.ReachableIf ok t := by
  induction ht with
  | init h => exact h ▸ hs
  | step _ hok hst ih => exact .step ih hok hst

/-- `m` lies on a run from `s` to `t`. -/
def Between (M : LTS σ ℓ) (s m t : σ) : Prop :=
  (M.startingAt s).Reachable m ∧ (M.startingAt m).Reachable t

theorem Between.refl (M : LTS σ ℓ) (s : σ) : M.Between s s s := ⟨.init rfl, .init rfl⟩

/-- The run goes on by a step. -/
theorem Between.step {s m t t' : σ} {l : ℓ} (h : M.Between s m t) (hst : M.step t l t') :
    M.Between s m t' := ⟨h.1, h.2.step trivial hst⟩

theorem Between.reachable {s m t : σ} (h : M.Between s m t) (hs : M.Reachable s) :
    M.Reachable m := hs.trans h.1

/-- **Forward simulation.** Every run of `M` is followed by a run of `M'` that answers each
step by one of its own or stands still. -/
theorem ReachableIf.simulated {σ' ℓ' : Type*} (M' : LTS σ' ℓ') (ok' : σ' → ℓ' → Prop)
    {R : σ → σ' → Prop} (hinit : ∀ s, M.init s → ∃ s', M'.init s' ∧ R s s')
    (hstep : ∀ s l t s', M.ReachableIf ok s → M'.ReachableIf ok' s' → R s s' → ok s l →
      M.step s l t → R t s' ∨ ∃ l' t', ok' s' l' ∧ M'.step s' l' t' ∧ R t t')
    {s : σ} (h : M.ReachableIf ok s) : ∃ s', M'.ReachableIf ok' s' ∧ R s s' := by
  induction h with
  | init h =>
    obtain ⟨s', hs', hR⟩ := hinit _ h
    exact ⟨s', .init hs', hR⟩
  | step hs hok hst ih =>
    obtain ⟨s', hs', hR⟩ := ih
    obtain hstay | ⟨l', t', hok', hst', hR'⟩ := hstep _ _ _ s' hs hs' hR hok hst
    · exact ⟨s', hs', hstay⟩
    · exact ⟨t', .step hs' hok' hst', hR'⟩

/-! ## Executable systems -/

/-- The system of a step function: a label that is not enabled has no successor. -/
def ofStep (init : σ → Prop) (f : σ → ℓ → Option σ) : LTS σ ℓ where
  init := init
  step s l t := f s l = some t

/-- Execute a list of labels, checking the condition before each step. -/
def runIf (f : σ → ℓ → Option σ) (ok : σ → ℓ → Prop) [∀ s l, Decidable (ok s l)] :
    σ → List ℓ → Option σ
  | s, [] => some s
  | s, l :: ls => if ok s l then (f s l).bind fun t => runIf f ok t ls else none

/-- Execute a list of labels. -/
def run (f : σ → ℓ → Option σ) : σ → List ℓ → Option σ
  | s, [] => some s
  | s, l :: ls => (f s l).bind fun t => run f t ls

theorem reachableIf_of_runIf {init : σ → Prop} {f : σ → ℓ → Option σ}
    [∀ s l, Decidable (ok s l)] {ls : List ℓ} {s t : σ}
    (hs : (ofStep init f).ReachableIf ok s) (h : runIf f ok s ls = some t) :
    (ofStep init f).ReachableIf ok t := by
  induction ls generalizing s with
  | nil =>
    rw [runIf, Option.some.injEq] at h
    exact h ▸ hs
  | cons l ls ih =>
    rw [runIf] at h
    split at h
    · rename_i hok
      obtain ⟨u, hu, hrest⟩ := Option.bind_eq_some_iff.mp h
      exact ih (.step hs hok hu) hrest
    · cases h

/-- Every step of a run meets a condition that all its labels meet. -/
theorem reachableIf_of_run {init : σ → Prop} {f : σ → ℓ → Option σ} {Q : ℓ → Prop}
    {ls : List ℓ} {s t : σ} (hs : (ofStep init f).ReachableIf (fun _ l => Q l) s)
    (hls : ∀ l ∈ ls, Q l) (h : run f s ls = some t) :
    (ofStep init f).ReachableIf (fun _ l => Q l) t := by
  induction ls generalizing s with
  | nil =>
    rw [run, Option.some.injEq] at h
    exact h ▸ hs
  | cons l ls ih =>
    obtain ⟨hl, hrest⟩ := List.forall_mem_cons.mp hls
    rw [run] at h
    obtain ⟨u, hu, hrun⟩ := Option.bind_eq_some_iff.mp h
    exact ih (.step hs hl hu) hrest hrun

theorem reachable_of_run {init : σ → Prop} {f : σ → ℓ → Option σ} {ls : List ℓ} {s t : σ}
    (hs : (ofStep init f).Reachable s) (h : run f s ls = some t) :
    (ofStep init f).Reachable t := by
  induction ls generalizing s with
  | nil =>
    rw [run, Option.some.injEq] at h
    exact h ▸ hs
  | cons l ls ih =>
    rw [run] at h
    obtain ⟨u, hu, hrest⟩ := Option.bind_eq_some_iff.mp h
    exact ih (.step hs trivial hu) hrest

end LTS

end Lib
