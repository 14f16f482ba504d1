import DarkServices.Gateway.Auth
import DarkServices.Idp.Store
import Mathlib.Data.Fintype.Basic
import Mathlib.Tactic.FinCases

/-!
# Concurrent requests on the two stores

`GetAndRemoveAuthCode` loads an entry and then deletes it, so two requests can load one code
before either has deleted it (`code_redeemed_twice`). When no code is loaded between a load and
its delete, a code is redeemed at most once (`code_redeemed_once`).

The replay caches of the gateway and of the identity provider are one algorithm
(`Lib.ReplayCache`), and the result about it is stated for both (`jti_caches_linearizable`).
-/

namespace DarkServices
namespace Idp

open Lib

/-! ## Authorization codes -/

section Redeem

variable {ι κ : Type} {code : ι → String}

/-- The condition on a step: a code is not loaded while another request is about to delete it. -/
def Exclusive (code : ι → String) (s : Redeem ι κ) : RedeemLabel ι κ → Prop
  | .load i => ∀ j info, code j = code i → s.calls j ≠ .loaded info
  | _ => True

/-- The call of the request has returned the code. -/
def Redeem.Redeemed (s : Redeem ι κ) (i : ι) : Prop :=
  (∃ p, s.calls i = .done (some p)) ∨ s.calls i = .issued

/-- The call of the request has deleted the code, and may return it. -/
def Redeem.Taken (s : Redeem ι κ) (i : ι) : Prop :=
  (∃ info, s.calls i = .deleted info) ∨ s.Redeemed i

/-- The invariant: a code of the store has been saved, a code that has been taken is gone for
good, and no code is held by two requests. -/
structure Redeem.Good (code : ι → String) (s : Redeem ι κ) : Prop where
  saved : ∀ c info, s.codes c = some info → c ∈ s.saved
  taken : ∀ i, s.Taken i → code i ∈ s.saved ∧ s.codes (code i) = none
  loaded : ∀ i info, s.calls i = .loaded info → code i ∈ s.saved
  one : ∀ i j info, code i = code j → s.calls i = .loaded info →
    (∃ info', s.calls j = .loaded info') ∨ s.Taken j → i = j
  once : ∀ i j, code i = code j → s.Taken i → s.Taken j → i = j

/-- A step that puts no code back, loads none and takes none keeps the invariant. -/
theorem Redeem.Good.mono {s s' : Redeem ι κ} (h : s.Good code)
    (hsaved : ∀ c, c ∈ s.saved → c ∈ s'.saved)
    (hcodes : ∀ c info, s'.codes c = some info → s.codes c = some info)
    (hloaded : ∀ i info, s'.calls i = .loaded info → s.calls i = .loaded info)
    (htaken : ∀ i, s'.Taken i → s.Taken i) : s'.Good code := by
  constructor
  · exact fun c info hc => hsaved c (h.saved c info (hcodes c info hc))
  · intro i hi
    obtain ⟨hmem, hnone⟩ := h.taken i (htaken i hi)
    refine ⟨hsaved _ hmem, ?_⟩
    cases hc : s'.codes (code i) with
    | none => rfl
    | some info => cases hnone.symm.trans (hcodes _ _ hc)
  · exact fun i info hi => hsaved _ (h.loaded i info (hloaded i info hi))
  · intro i j info hcode hi hj
    refine h.one i j info hcode (hloaded i info hi) ?_
    rcases hj with ⟨info', hj⟩ | hj
    · exact Or.inl ⟨info', hloaded j info' hj⟩
    · exact Or.inr (htaken j hj)
  · exact fun i j hcode hi hj => h.once i j hcode (htaken i hi) (htaken j hj)

variable [DecidableEq ι] [DecidableEq κ]

/-- A run alone is `getAndRemoveAuthCode`. -/
theorem redeem_alone {s : Redeem ι κ} {i : ι} (hi : s.calls i = .start) (jtis : Expiry String) :
    ∃ rest, LTS.run (redeemStep code) s (.load i :: rest) =
      some { s with
        codes := (RAMStore.getAndRemoveAuthCode ⟨s.codes, jtis⟩ (code i) s.clock).2.codes
        calls := Function.update s.calls i
          (.done (RAMStore.getAndRemoveAuthCode ⟨s.codes, jtis⟩ (code i) s.clock).1) } := by
  unfold RAMStore.getAndRemoveAuthCode
  cases hcode : s.codes (code i) with
  | none =>
    refine ⟨[], ?_⟩
    rw [LTS.run, redeemStep, hi]
    simp [hcode, LTS.run]
  | some info =>
    refine ⟨[.delete i, .finish i], ?_⟩
    rw [LTS.run, redeemStep, hi]
    by_cases hexp : info.expiresAt < s.clock
    · simp [hcode, LTS.run, redeemStep, hexp]
    · simp [hcode, LTS.run, redeemStep, hexp]

variable {s s' : Redeem ι κ}

omit [DecidableEq κ] in
/-- A request that moves on without a code takes none, and one that has taken its code keeps it. -/
theorem taken_of_update {i j : ι} {p : RedeemPoint}
    (h : Redeem.Taken { s with calls := Function.update s.calls i p } j) :
    (j = i ∧ ((∃ info, p = .deleted info) ∨ (∃ q, p = .done (some q)) ∨ p = .issued)) ∨
      (j ≠ i ∧ s.Taken j) := by
  rcases h with ⟨info, h⟩ | ⟨q, h⟩ | h
  · rcases of_update h with ⟨hji, hp⟩ | ⟨hji, h⟩
    · exact Or.inl ⟨hji, Or.inl ⟨info, hp⟩⟩
    · exact Or.inr ⟨hji, Or.inl ⟨info, h⟩⟩
  · rcases of_update h with ⟨hji, hp⟩ | ⟨hji, h⟩
    · exact Or.inl ⟨hji, Or.inr (Or.inl ⟨q, hp⟩)⟩
    · exact Or.inr ⟨hji, Or.inr (Or.inl ⟨q, h⟩)⟩
  · rcases of_update h with ⟨hji, hp⟩ | ⟨hji, h⟩
    · exact Or.inl ⟨hji, Or.inr (Or.inr hp)⟩
    · exact Or.inr ⟨hji, Or.inr (Or.inr h)⟩

theorem Redeem.Good.save (h : s.Good code) {c : String} {info : AuthCodeInfo}
    (hstep : redeemStep code s (.save c info) = some s') : s'.Good code := by
  rw [redeemStep] at hstep
  split at hstep
  · cases hstep
  · rename_i hnew
    cases hstep
    refine ⟨?_, ?_, ?_, h.one, h.once⟩
    · intro c' info' hc'
      by_cases hcc : c' = c
      · rw [hcc]
        exact List.mem_cons_self
      · refine List.mem_cons_of_mem _ (h.saved c' info' ?_)
        simpa [Function.update_of_ne hcc] using hc'
    · intro i hi
      obtain ⟨hmem, hnone⟩ := h.taken i hi
      -- a code that has been taken was saved before, so it is not the new one
      have hne : code i ≠ c := fun he => hnew (he ▸ hmem)
      exact ⟨List.mem_cons_of_mem _ hmem, by simpa [Function.update_of_ne hne] using hnone⟩
    · exact fun i info' hi => List.mem_cons_of_mem _ (h.loaded i info' hi)

theorem Redeem.Good.load (h : s.Good code) {i : ι}
    (hexclusive : Exclusive code s (.load i : RedeemLabel ι κ))
    (hstep : redeemStep code s (.load i) = some s') : s'.Good code := by
  rw [redeemStep] at hstep
  split at hstep
  · split at hstep
    · cases hstep
      refine h.mono (fun _ hc => hc) (fun _ _ hc => hc) ?_ ?_
      · exact fun j info hj => (of_update_ne hj (by simp)).2
      · intro j hj
        rcases taken_of_update hj with ⟨-, hp⟩ | ⟨-, hj⟩
        · simp at hp
        · exact hj
    · rename_i info hcode
      cases hstep
      have htaken : ∀ j, Redeem.Taken
          { s with calls := Function.update s.calls i (.loaded info) } j → s.Taken j := by
        intro j hj
        rcases taken_of_update hj with ⟨-, hp⟩ | ⟨-, hj⟩
        · simp at hp
        · exact hj
      -- the code is in the store, so no request has taken it
      have hfree : ∀ j, code j = code i → ¬ s.Taken j := by
        intro j hji hj
        have hnone := (h.taken j hj).2
        rw [hji] at hnone
        cases hnone.symm.trans hcode
      refine ⟨h.saved, fun j hj => h.taken j (htaken j hj), ?_, ?_,
        fun j k hjk hj hk => h.once j k hjk (htaken j hj) (htaken k hk)⟩
      · intro j info' hj
        rcases of_update hj with ⟨rfl, -⟩ | ⟨-, hj⟩
        · exact h.saved _ info hcode
        · exact h.loaded j info' hj
      · intro j k info' hjk hj hk
        rcases of_update hj with ⟨rfl, -⟩ | ⟨-, hold⟩
        · rcases hk with ⟨info'', hk⟩ | hk
          · rcases of_update hk with ⟨rfl, -⟩ | ⟨-, hk⟩
            · rfl
            · exact absurd hk (hexclusive k info'' hjk.symm)
          · exact absurd (htaken k hk) (hfree k hjk.symm)
        · rcases hk with ⟨info'', hk⟩ | hk
          · rcases of_update hk with ⟨rfl, -⟩ | ⟨-, hk⟩
            · exact absurd hold (hexclusive j info' hjk)
            · exact h.one j k info' hjk hold (Or.inl ⟨info'', hk⟩)
          · exact h.one j k info' hjk hold (Or.inr (htaken k hk))
  · cases hstep

theorem Redeem.Good.delete (h : s.Good code) {i : ι}
    (hstep : redeemStep code s (.delete i) = some s') : s'.Good code := by
  rw [redeemStep] at hstep
  split at hstep
  · rename_i info hi
    cases hstep
    have hgone : ∀ c info', Function.update s.codes (code i) none c = some info' →
        s.codes c = some info' := fun c info' hc => (of_update_ne hc (by simp)).2
    have htaken : ∀ j, Redeem.Taken { s with
        codes := Function.update s.codes (code i) none
        calls := Function.update s.calls i (.deleted info) } j → j = i ∨ s.Taken j := by
      intro j hj
      rcases taken_of_update (s := { s with codes := Function.update s.codes (code i) none }) hj with
        ⟨hji, -⟩ | ⟨-, hj⟩
      · exact Or.inl hji
      · exact Or.inr hj
    have hone : ∀ j, code j = code i → s.Taken j → i = j :=
      fun j hji hj => h.one i j info hji.symm hi (Or.inr hj)
    constructor
    · exact fun c info' hc => h.saved c info' (hgone c info' hc)
    · intro j hj
      rcases htaken j hj with rfl | hj
      · exact ⟨h.loaded j info hi, Function.update_self _ _ _⟩
      · obtain ⟨hmem, hnone⟩ := h.taken j hj
        refine ⟨hmem, ?_⟩
        by_cases hji : code j = code i
        · rw [hji]
          exact Function.update_self _ _ _
        · simpa [Function.update_of_ne hji] using hnone
    · exact fun j info' hj => h.loaded j info' (of_update_ne hj (by simp)).2
    · intro j k info' hjk hj hk
      have hold : s.calls j = .loaded info' := (of_update_ne hj (by simp)).2
      rcases hk with ⟨info'', hk⟩ | hk
      · exact h.one j k info' hjk hold (Or.inl ⟨info'', (of_update_ne hk (by simp)).2⟩)
      · rcases htaken k hk with rfl | hk
        · exact h.one j k info' hjk hold (Or.inl ⟨info, hi⟩)
        · exact h.one j k info' hjk hold (Or.inr hk)
    · intro j k hjk hj hk
      rcases htaken j hj with rfl | hold
      · rcases htaken k hk with rfl | hk
        · rfl
        · exact hone k hjk.symm hk
      · rcases htaken k hk with rfl | hk
        · exact (hone j hjk hold).symm
        · exact h.once j k hjk hold hk
  · cases hstep

/-- The steps after the delete. -/
theorem Redeem.Good.after (h : s.Good code) {i : ι}
    (hstep : redeemStep code s (.finish i) = some s' ∨ redeemStep code s (.issue i) = some s') :
    s'.Good code := by
  have hkeep : ∀ {p}, s.Taken i → (∀ info, p ≠ .loaded info) →
      Redeem.Good code { s with calls := Function.update s.calls i p } := by
    intro p hi hp
    refine h.mono (fun _ hc => hc) (fun _ _ hc => hc) ?_ ?_
    · exact fun j info hj => (of_update_ne hj (hp info)).2
    · intro j hj
      rcases taken_of_update hj with ⟨rfl, -⟩ | ⟨-, hj⟩
      · exact hi
      · exact hj
  rcases hstep with hstep | hstep
  · rw [redeemStep] at hstep
    split at hstep
    · rename_i info hi
      split at hstep
      · cases hstep
        exact hkeep (Or.inl ⟨info, hi⟩) (by simp)
      · cases hstep
        exact hkeep (Or.inl ⟨info, hi⟩) (by simp)
    · cases hstep
  · rw [redeemStep] at hstep
    split at hstep
    · rename_i p hi
      cases hstep
      exact hkeep (Or.inr (Or.inl ⟨p, hi⟩)) (by simp)
    · cases hstep

/-- The steps of a sweep: at most a code is gone. -/
theorem Redeem.Good.sweeping (h : s.Good code) {n : κ} {l : RedeemLabel ι κ}
    (hl : l = .sweep n ∨ (∃ c, l = .visit n c) ∨ l = .remove n)
    (hstep : redeemStep code s l = some s') : s'.Good code := by
  have hkeep : ∀ sweeps, Redeem.Good code { s with sweeps := sweeps } :=
    fun _ => h.mono (fun _ hc => hc) (fun _ _ hc => hc) (fun _ _ hi => hi) fun _ hi => hi
  rcases hl with rfl | ⟨c, rfl⟩ | rfl
  · rw [redeemStep] at hstep
    split at hstep
    · cases hstep
    · cases hstep
      exact hkeep _
  · rw [redeemStep] at hstep
    split at hstep
    · split at hstep
      · cases hstep
        exact h
      · split at hstep
        · cases hstep
          exact hkeep _
        · cases hstep
          exact h
    · cases hstep
  · rw [redeemStep] at hstep
    split at hstep
    · cases hstep
      refine h.mono (fun _ hc => hc) ?_ (fun _ _ hi => hi) fun _ hi => hi
      exact fun c' info hc' => (of_update_ne hc' (by simp)).2
    · cases hstep

theorem Redeem.Good.step {l : RedeemLabel ι κ} (h : s.Good code) (hexclusive : Exclusive code s l)
    (hstep : redeemStep code s l = some s') : s'.Good code := by
  cases l with
  | tick t =>
    rw [redeemStep] at hstep
    split at hstep
    · cases hstep
      exact h.mono (fun _ hc => hc) (fun _ _ hc => hc) (fun _ _ hi => hi) fun _ hi => hi
    · cases hstep
  | save c info => exact h.save hstep
  | load i => exact h.load hexclusive hstep
  | delete i => exact h.delete hstep
  | finish i => exact h.after (Or.inl hstep)
  | issue i => exact h.after (Or.inr hstep)
  | sweep n => exact h.sweeping (Or.inl rfl) hstep
  | visit n c => exact h.sweeping (Or.inr (Or.inl ⟨c, rfl⟩)) hstep
  | remove n => exact h.sweeping (Or.inr (Or.inr rfl)) hstep

/-- **An authorization code is redeemed at most once**, and at most one request gets a token for
it, in every run in which a code is not loaded between the load and the delete of another
request. -/
theorem code_redeemed_once (code : ι → String) {s : Redeem ι κ}
    (h : (redeemSystem code).ReachableIf (Exclusive code) s) {i j : ι} (hcode : code i = code j)
    (hi : s.Redeemed i) (hj : s.Redeemed j) : i = j := by
  have hgood : s.Good code := by
    refine LTS.ReachableIf.invariant (P := fun s => s.Good code) ?_ ?_ h
    · rintro s ⟨hcodes, -, hcalls, -⟩
      have htaken : ∀ i, ¬ s.Taken i := by
        rintro i (⟨info, hi⟩ | ⟨p, hi⟩ | hi)
        · cases (hcalls i).symm.trans hi
        · cases (hcalls i).symm.trans hi
        · cases (hcalls i).symm.trans hi
      constructor
      · intro c info hc
        rw [hcodes] at hc
        cases hc
      · exact fun i hi => absurd hi (htaken i)
      · intro i info hi
        cases (hcalls i).symm.trans hi
      · intro i j info _ hi
        cases (hcalls i).symm.trans hi
      · exact fun i j _ hi => absurd hi (htaken i)
    · intro s l s' hs hexclusive hstep
      exact hs.step hexclusive hstep
  exact hgood.once i j hcode (Or.inr hi) (Or.inr hj)

end Redeem

/-- Two requests for one code on an empty store. -/
def twoRequests : Redeem (Fin 2) Unit :=
  ⟨0, fun _ => none, [], fun _ => .start, fun _ => .waiting⟩

/-- A code of `client-alice` that expires after five minutes. -/
def aliceCode : AuthCodeInfo :=
  ⟨"E9Melhoa2OwvFrEMTJguCHaoeK1t8URWbuGJSstw-cM", "client-alice", seconds 300⟩

theorem reachable_twoRequests (ok : Redeem (Fin 2) Unit → RedeemLabel (Fin 2) Unit → Prop) :
    (redeemSystem fun _ => "code-1").ReachableIf ok twoRequests :=
  .init ⟨rfl, rfl, fun _ => rfl, fun _ => rfl⟩

/-- The first request redeems the code, and no other one then can. -/
theorem code_redeemed_once_first :
    ∃ s : Redeem (Fin 2) Unit,
      (redeemSystem fun _ => "code-1").ReachableIf (Exclusive fun _ => "code-1") s ∧
      s.Redeemed 0 ∧ ∀ j, s.Redeemed j → 0 = j := by
  have hsave := LTS.ReachableIf.step (l := RedeemLabel.save "code-1" aliceCode)
    (reachable_twoRequests (Exclusive fun _ => "code-1")) trivial rfl
  have hload := LTS.ReachableIf.step (l := RedeemLabel.load 0) hsave (fun _ _ _ hj => by cases hj)
    (show redeemStep (fun _ => "code-1") _ _ = some _ from rfl)
  have hdelete := LTS.ReachableIf.step (l := RedeemLabel.delete 0) hload trivial rfl
  have hfinish := LTS.ReachableIf.step (l := RedeemLabel.finish 0) hdelete trivial rfl
  exact ⟨_, hfinish, Or.inl ⟨_, rfl⟩,
    fun j hj => code_redeemed_once (fun _ => "code-1") hfinish rfl (Or.inl ⟨_, rfl⟩) hj⟩

/-- Both requests load the code before either of them deletes it. -/
theorem code_redeemed_twice :
    ∃ s : Redeem (Fin 2) Unit, (redeemSystem fun _ => "code-1").Reachable s ∧
      s.calls 0 = .done (some (aliceCode.codeChallenge, "client-alice")) ∧
      s.calls 1 = .done (some (aliceCode.codeChallenge, "client-alice")) := by
  have hrun : LTS.run (redeemStep fun _ => "code-1") twoRequests [.save "code-1" aliceCode,
      .load 0, .load 1, .delete 0, .delete 1, .finish 0, .finish 1] = some _ := rfl
  exact ⟨_, LTS.reachable_of_run (reachable_twoRequests _) hrun, rfl, rfl⟩

/-! ## Proof identifiers -/

section Jtis

variable {ι κ : Type} [DecidableEq ι] [DecidableEq κ]

/-- Two calls with one identifier that both return false have clock readings at least the lifetime
of the first one apart, and two calls that overlap never both return false. -/
def Linearizable (M : LTS (ReplayCache.State ι κ String) (ReplayCache.Label ι κ String))
    (ok : ReplayCache.State ι κ String → ReplayCache.Label ι κ String → Prop)
    (call : ι → ReplayCache.Call String) : Prop :=
  ∀ s, M.ReachableIf ok s → ∀ i j, i ≠ j → (call i).key = (call j).key →
    (∀ t t', s.calls i = .done t false → s.calls j = .done t' false →
      ReplayCache.Apart (call i).ttl (call j).ttl t t') ∧
    (∀ t t', s.InFlight i t → s.InFlight j t' → ∀ s', (M.startingAt s).ReachableIf ok s' →
      ¬ ((∃ u, s'.calls i = .done u false) ∧ ∃ u, s'.calls j = .done u false))

/-- **The replay caches are linearizable** in every run of orderly and brisk steps. -/
theorem jti_caches_linearizable (κ : Type) [DecidableEq κ] (call : ι → ReplayCache.Call String) :
    Linearizable (Gateway.jtiCacheSystem call : LTS (ReplayCache.State ι κ String) _)
      (fun s l => ReplayCache.Orderly call s l ∧ ReplayCache.Brisk call s l) call ∧
    Linearizable (ramStoreSystem call : LTS (ReplayCache.State ι κ String) _)
      (fun s l => ReplayCache.Orderly call s l ∧ ReplayCache.Brisk call s l) call := by
  have hsystem : Linearizable
      (ReplayCache.system call : LTS (ReplayCache.State ι κ String) _)
      (fun s l => ReplayCache.Orderly call s l ∧ ReplayCache.Brisk call s l) call := by
    intro s hs i j hne hk
    constructor
    · intro t t' hi hj
      exact ReplayCache.apart_of_orderly (fun _ _ h => h.1) hs hne hk hi hj
    · rintro t t' hi hj s' hs' ⟨⟨u, hu⟩, u', hu'⟩
      exact ReplayCache.not_both_of_overlap (fun _ _ h => h) hs hne hk hi hj hs' hu hu'
  exact ⟨hsystem, hsystem⟩

end Jtis

/-- Three requests with one proof. -/
def threeCalls : Fin 3 → ReplayCache.Call String := fun _ => ⟨"proof-1", seconds 120⟩

def beforeCalls : ReplayCache.State (Fin 3) Unit String :=
  ⟨0, fun _ => none, fun _ => .start, fun _ => .waiting⟩

theorem reachable_beforeCalls
    (ok : ReplayCache.State (Fin 3) Unit String → ReplayCache.Label (Fin 3) Unit String → Prop) :
    (ReplayCache.system threeCalls).ReachableIf ok beforeCalls :=
  .init ⟨rfl, fun _ => rfl, fun _ => rfl⟩

/-- The first call saves the identifier, and the second one finds it expired two minutes later. -/
theorem jti_caches_linearizable_two :
    ∃ s : ReplayCache.State (Fin 3) Unit String,
      (Gateway.jtiCacheSystem threeCalls).ReachableIf (fun s l =>
        ReplayCache.Orderly threeCalls s l ∧ ReplayCache.Brisk threeCalls s l) s ∧
      s.calls 0 = .done 0 false ∧ s.calls 1 = .done (seconds 120) false ∧
      ReplayCache.Apart (seconds 120) (seconds 120) 0 (seconds 120) := by
  have hnow := LTS.ReachableIf.step (l := ReplayCache.Label.now 0 0)
    (reachable_beforeCalls fun s l => ReplayCache.Orderly threeCalls s l ∧
      ReplayCache.Brisk threeCalls s l)
    ⟨trivial, fun j t _ _ hj => by rcases hj with hj | hj <;> cases hj⟩
    (show ReplayCache.step threeCalls _ _ = some _ from rfl)
  have hsaved := LTS.ReachableIf.step (l := ReplayCache.Label.loadOrStore 0) hnow
    ⟨fun t _ _ => ⟨by decide, fun j t' _ hj => by fin_cases j <;> cases hj⟩, trivial⟩
    (show ReplayCache.step threeCalls _ _ = some _ from rfl)
  have hlater := LTS.ReachableIf.step (l := ReplayCache.Label.now 1 (seconds 120)) hsaved
    ⟨trivial, fun j t _ _ hj => by rcases hj with hj | hj <;> fin_cases j <;> cases hj⟩
    (show ReplayCache.step threeCalls _ _ = some _ from rfl)
  have hexpired := LTS.ReachableIf.step (l := ReplayCache.Label.loadOrStore 1) hlater
    ⟨fun t _ _ => ⟨by decide, fun j t' _ hj => by fin_cases j <;> cases hj⟩, trivial⟩
    (show ReplayCache.step threeCalls _ _ = some _ from rfl)
  have hstored := LTS.ReachableIf.step (l := ReplayCache.Label.store 1) hexpired ⟨trivial, trivial⟩
    (show ReplayCache.step threeCalls _ _ = some _ from rfl)
  have happly := (jti_caches_linearizable Unit threeCalls).1 _ hstored 0 1 (by decide) rfl
  exact ⟨_, hstored, rfl, rfl, happly.1 0 (seconds 120) rfl rfl⟩

/-- Two calls find the expired entry of a third one before either has stored its own. -/
theorem jti_caches_race :
    ¬ Linearizable (Gateway.jtiCacheSystem threeCalls : LTS (ReplayCache.State (Fin 3) Unit String) _)
      (fun _ _ => True) threeCalls ∧
    ¬ Linearizable (ramStoreSystem threeCalls : LTS (ReplayCache.State (Fin 3) Unit String) _)
      (fun _ _ => True) threeCalls := by
  have hrun : LTS.run (ReplayCache.step threeCalls) beforeCalls [.now 0 0, .loadOrStore 0,
      .now 1 (seconds 120), .now 2 (seconds 120), .loadOrStore 1, .loadOrStore 2, .store 1,
      .store 2] = some _ := rfl
  have hreach := LTS.reachable_of_run (reachable_beforeCalls _) hrun
  have hnot : ¬ Linearizable
      (ReplayCache.system threeCalls : LTS (ReplayCache.State (Fin 3) Unit String) _)
      (fun _ _ => True) threeCalls := by
    intro h
    have hapart := (h _ hreach 1 2 (by decide) rfl).1 (seconds 120) (seconds 120) rfl rfl
    rcases hapart with ⟨-, hle⟩ | ⟨-, hle⟩
    · exact absurd hle (by decide)
    · exact absurd hle (by decide)
  exact ⟨hnot, hnot⟩

end Idp
end DarkServices
